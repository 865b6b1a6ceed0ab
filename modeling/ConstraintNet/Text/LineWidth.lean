import ConstraintNet.Text.CharacterWidth
import ConstraintNet.Text.Emoji

/-!
The columns that a line fills on a terminal. Ligatures, flags and emoji sequences fill less than
their parts, so a line is read from its end, each character together with what follows it.
-/

namespace ConstraintNet.Text

def joiner : Char := '\u200d'

def textSelector : Char := '\ufe0e'

def pictureSelector : Char := '\ufe0f'

/-- What follows a character, as far as it bears on the columns of that character. `joined` tells
that a joiner stands in between. -/
inductive Following
  | other
  /-- An Arabic alef, which melts into a lam before it. -/
  | alef
  /-- A Hebrew lamed, which melts into an alef joined to it. -/
  | lamed (joined : Bool)
  /-- A Buginese ya, the end of a ligature of three. -/
  | ya (joined : Bool)
  /-- A Buginese vowel sign with a ya joined to it. -/
  | vowelWithYa
  | tifinagh (joined : Bool)
  /-- The Tifinagh consonant joiner with a consonant after it. -/
  | tifinaghJoiner
  /-- The second letter of a Lisu tone. -/
  | lisuTone
  /-- An Old Turkic letter that melts into the letter joined to it. -/
  | turkic (joined : Bool)
  /-- A Khmer letter that goes below the line after a coeng. -/
  | coengLetter
  | skinTone
  /-- Letters of flags: one, or more of them. -/
  | flags (several : Bool)
  | picture
  /-- A joiner with a picture after it. -/
  | joinedPicture
  /-- A keycap joined to a picture. -/
  | joinedKeycap
  /-- Letters of flags that end in one joined to a picture: one, an even or an odd number. -/
  | joinedFlag
  | joinedFlagsEven
  | joinedFlagsOdd
  /-- The end of a tagged flag joined to a picture, after letters or digits of its tag. -/
  | tagLetters (count : Nat)
  | tagDigits (count : Nat)
  deriving DecidableEq, Repr

namespace Following

/-- Letters that take part in ligatures, whatever selectors stand before them. -/
def isLetter : Following → Bool
  | alef | lamed _ | ya _ | vowelWithYa | tifinagh _ | tifinaghJoiner | lisuTone | turkic _
  | coengLetter => true
  | _ => false

def isJoined : Following → Bool
  | joinedPicture | joinedKeycap => true
  | _ => false

/-- What follows the joiner, if ligatures may be formed across it. -/
def afterJoiner? : Following → Option Following
  | lamed _ => some (lamed true)
  | ya _ => some (ya true)
  | tifinagh _ => some (tifinagh true)
  | turkic _ => some (turkic true)
  | vowelWithYa => some vowelWithYa
  | tifinaghJoiner => some tifinaghJoiner
  | lisuTone => some lisuTone
  | coengLetter => some coengLetter
  | _ => none

end Following

def alefs : CodeRanges := #[
  (0x622, 0x623), (0x625, 0x625), (0x627, 0x627), (0x671, 0x673), (0x675, 0x675),
  (0x773, 0x774), (0x870, 0x882)]

def lams : CodeRanges := #[
  (0x644, 0x644), (0x6b5, 0x6b8), (0x76a, 0x76a), (0x8a6, 0x8a6), (0x8c7, 0x8c7)]

/-- Khmer letters that a coeng puts below the line. -/
def coengLetters : CodeRanges := #[
  (0x1780, 0x1782), (0x1784, 0x1787), (0x1789, 0x178c), (0x178e, 0x1793), (0x1795, 0x1798),
  (0x179b, 0x179d), (0x17a0, 0x17a0), (0x17a2, 0x17a2), (0x17a7, 0x17a7), (0x17ab, 0x17ac),
  (0x17af, 0x17af)]

def isTifinagh (c : Char) : Bool := isBetween 0x2d31 0x2d65 c || c.toNat = 0x2d6f

/-- Marks without a column that never stand in the way of a ligature. -/
def ignorableMarks : CodeRanges := #[
  (0x34f, 0x34f), (0x17b4, 0x17b5), (0x180b, 0x180d), (0x180f, 0x180f), (0xfe00, 0xfe0f),
  (0xe0100, 0xe01ef)]

/-- The columns of a character that forms nothing with what follows it, and what it is to the
character before it. -/
def alone (c : Char) : Nat × Following :=
  if inRanges alefs c then (1, .alef)
  else if c.toNat = 0x5dc then (1, .lamed false)
  else if inRanges coengLetters c then (1, .coengLetter)
  else if c.toNat = 0x1a10 then (1, .ya false)
  else if isTifinagh c then (1, .tifinagh false)
  else if isBetween 0xa4fc 0xa4fd c then (1, .lisuTone)
  else if c.toNat = 0x10c03 then (1, .turkic false)
  else if isFlagLetter c then (1, .flags false)
  else if isSkinTone c then (2, .skinTone)
  else if isPicture c then (2, .picture)
  else (charColumns c, .other)

/-- The columns that a character adds where it forms a ligature of letters. -/
def ligature? (c : Char) (f : Following) : Option (Int × Following) :=
  match f with
  | .alef =>
    if inRanges lams c then some (0, .other)
    else if isTransparent c then some (0, .alef)
    else none
  | .lamed true => if c.toNat = 0x5d0 then some (0, .other) else none
  | .coengLetter => if c.toNat = 0x17d2 then some (-1, .other) else none
  | .ya true => if c.toNat = 0x1a17 then some (0, .vowelWithYa) else none
  | .vowelWithYa => if c.toNat = 0x1a15 then some (0, .other) else none
  | .tifinagh joined =>
    if c.toNat = 0x2d7f then some (1, .tifinaghJoiner)
    else if joined && isTifinagh c then some (0, .other)
    else none
  | .tifinaghJoiner => if isTifinagh c then some (-1, .other) else none
  | .lisuTone => if isBetween 0xa4f8 0xa4fb c then some (0, .other) else none
  | .turkic true => if c.toNat = 0x10c32 then some (0, .other) else none
  | _ => none

/-- A letter stays in view across joiners and ignorable marks. An Arabic one does so only across
the characters that are transparent to joining. -/
def passed? (c : Char) (f : Following) : Option (Int × Following) :=
  f.afterJoiner?.bind fun joined =>
    if c = joiner then some (0, joined)
    else if inRanges ignorableMarks c then some (0, f)
    else none

/-- The columns that a character adds where it is part of a sequence shown as one picture. Flags
before a joined picture pair up from their first letter, so that it depends on their number whether
the last one is part of the sequence. -/
def sequence? (c : Char) (f : Following) : Option (Int × Following) :=
  match f with
  | .skinTone =>
    if isToned c then some (0, .picture)
    else if c = joiner then some (0, .joinedPicture)
    else none
  | .flags several =>
    if isFlagLetter c then some (1, .flags true)
    else if several && c = joiner then some (0, .joinedPicture)
    else none
  | .picture => if c = joiner then some (0, .joinedPicture) else none
  | .joinedPicture =>
    if c.toNat = 0x20e3 then some (0, .joinedKeycap)
    else if isFlagLetter c then some (1, .joinedFlag)
    else if isSkinTone c then some (0, .skinTone)
    else if c.toNat = 0xe007f then some (0, .tagLetters 0)
    else if isPicture c then some (0, .picture)
    else none
  | .joinedFlag => if isFlagLetter c then some (-1, .joinedFlagsEven) else none
  | .joinedFlagsOdd =>
    if isFlagLetter c then some (-1, .joinedFlagsEven)
    else if c = joiner then some (0, .joinedPicture)
    else none
  | .joinedFlagsEven =>
    if isFlagLetter c then some (3, .joinedFlagsOdd)
    else if c = joiner then some (0, .joinedPicture)
    else none
  | .tagLetters count =>
    if isTagLetter c && count < 6 then some (0, .tagLetters (count + 1))
    else if isTagDigit c && count < 5 then some (0, .tagDigits 1)
    else if c.toNat = 0x1f3f4 && 3 ≤ count then some (0, .picture)
    else none
  | .tagDigits count =>
    if isTagDigit c && count < 3 then some (0, .tagDigits (count + 1))
    else if c.toNat = 0x1f3f4 && count = 3 then some (0, .picture)
    else none
  | _ => none

/-- What follows a character, and the selector between the two, if there is one. -/
structure After where
  following : Following := .other
  selector : Option Char := none
  deriving DecidableEq, Repr

/-- The columns that a character adds where no selector stands behind it. -/
def addedBefore (c : Char) (f : Following) : Int × After :=
  if c.toNat ≤ 0xa0 then (1, {})
  else if c = pictureSelector then
    (0, { following := if f.isLetter || f.isJoined then f else .other, selector := some c })
  else if c = textSelector then
    (0, { following := if f.isLetter then f else .other, selector := some c })
  else
    match passed? c f <|> ligature? c f <|> sequence? c f with
    | some (columns, g) => (columns, { following := g })
    | none => ((alone c).1, { following := (alone c).2 })

/-- The columns that a character adds to the line that follows it. -/
def added (c : Char) (after : After) : Int × After :=
  let letter := if after.following.isLetter then after.following else .other
  if after.selector = some pictureSelector then
    if isSelectable c then
      (if after.following.isJoined then 0 else 2, { following := .picture })
    else addedBefore c letter
  else if after.selector = some textSelector then
    if isNarrowAsText c then (1, {}) else addedBefore c letter
  else addedBefore c after.following

def measure : List Char → Int × After
  | [] => (0, {})
  | c :: rest =>
    let (columns, after) := measure rest
    let (more, before) := added c after
    (columns + more, before)

/-- The columns that a line fills. A control within a line counts as one. -/
def lineColumns (line : List Char) : Nat := (measure line).1.toNat

end ConstraintNet.Text
