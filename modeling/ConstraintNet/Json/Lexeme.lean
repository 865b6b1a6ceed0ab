import ConstraintNet.Json.Number

/-!
The lexemes of JSON text. What follows the first character that fits no lexeme is left out, and
`Lexeme.junk` stands in its place.
-/

namespace ConstraintNet.Json

inductive Lexeme
  | beginObject
  | endObject
  | beginArray
  | endArray
  | colon
  | comma
  | null
  | boolean (b : Bool)
  | number (x : Number)
  | text (s : String)
  | junk
  deriving DecidableEq, Repr

/-- What the characters read last are part of. Texts are held in reverse. -/
inductive Mode
  | between
  | word (next : Char) (more : List Char) (lexeme : Lexeme)
  | number (state : NumberState)
  | text (read : List Char)
  | escape (read : List Char)
  /-- Hexadecimal digits of a code, perhaps the second of a pair. -/
  | code (read : List Char) (first : Option Nat) (digitsLeft : Nat) (value : Nat)
  /-- After the first code of a pair: the escape that must follow. -/
  | pair (read : List Char) (first : Nat)
  | pairEscape (read : List Char) (first : Nat)

/-- The lexemes that a character completes, and what comes next; none if the character fits nothing.
-/
abbrev Step := List Lexeme × Option Mode

namespace Mode

def isBlank (c : Char) : Bool := c = ' ' || c = '\n' || c = '\t' || c = '\r'

/-- A character outside any lexeme. -/
def start (c : Char) : Step :=
  let single (l : Lexeme) : Step := ([l], some between)
  if isBlank c then ([], some between)
  else if c = '\x7b' then single .beginObject
  else if c = '\x7d' then single .endObject
  else if c = '[' then single .beginArray
  else if c = ']' then single .endArray
  else if c = ':' then single .colon
  else if c = ',' then single .comma
  else if c = '"' then ([], some (.text []))
  else if c = 'n' then ([], some (.word 'u' ['l', 'l'] .null))
  else if c = 't' then ([], some (.word 'r' ['u', 'e'] (.boolean true)))
  else if c = 'f' then ([], some (.word 'a' ['l', 's', 'e'] (.boolean false)))
  else if c = '-' then ([], some (.number { part := .sign, isNegative := true }))
  else
    match NumberState.extend { part := .sign, isNegative := false } c with
    | .more state => ([], some (.number state))
    | _ => ([], none)

def hexDigit? (c : Char) : Option Nat :=
  if c.isDigit then some (c.toNat - '0'.toNat)
  else if 'a' ≤ c ∧ c ≤ 'f' then some (c.toNat - 'a'.toNat + 10)
  else if 'A' ≤ c ∧ c ≤ 'F' then some (c.toNat - 'A'.toNat + 10)
  else none

/-- The character that a letter after a backslash stands for. -/
def escaped? (c : Char) : Option Char :=
  if c = '"' ∨ c = '\\' ∨ c = '/' then some c
  else if c = 'b' then some '\x08'
  else if c = 'f' then some '\x0c'
  else if c = 'n' then some '\n'
  else if c = 'r' then some '\r'
  else if c = 't' then some '\t'
  else none

def isHighSurrogate (code : Nat) : Bool := 0xd800 ≤ code && code < 0xdc00

def isLowSurrogate (code : Nat) : Bool := 0xdc00 ≤ code && code < 0xe000

/-- A complete code of four digits. Surrogates stand for a character only in pairs. -/
def endCode (read : List Char) (first : Option Nat) (code : Nat) : Option Mode :=
  match first with
  | none =>
    if isHighSurrogate code then some (.pair read code)
    else if isLowSurrogate code then none
    else some (.text (Char.ofNat code :: read))
  | some high =>
    if isLowSurrogate code then
      some (.text (Char.ofNat (0x10000 + (high - 0xd800) * 0x400 + (code - 0xdc00)) :: read))
    else none

def step (mode : Mode) (c : Char) : Step :=
  match mode with
  | between => start c
  | word next more lexeme =>
    if c = next then
      match more with
      | [] => ([lexeme], some between)
      | next :: more => ([], some (.word next more lexeme))
    else ([], none)
  | number state =>
    match state.extend c with
    | .more state => ([], some (.number state))
    | .malformed => ([], none)
    | .after =>
      match state.finish? with
      | some x =>
        let (lexemes, mode) := start c
        (.number x :: lexemes, mode)
      | none => ([], none)
  | text read =>
    if c = '"' then ([.text (String.ofList read.reverse)], some between)
    else if c = '\\' then ([], some (.escape read))
    else if c.toNat < 0x20 then ([], none)
    else ([], some (.text (c :: read)))
  | escape read =>
    if c = 'u' then ([], some (.code read none 4 0))
    else ([], (escaped? c).map fun e => .text (e :: read))
  | code read first digitsLeft value =>
    match hexDigit? c with
    | none => ([], none)
    | some d =>
      let value := value * 16 + d
      if digitsLeft ≤ 1 then ([], endCode read first value)
      else ([], some (.code read first (digitsLeft - 1) value))
  | pair read first => ([], if c = '\\' then some (.pairEscape read first) else none)
  | pairEscape read first => ([], if c = 'u' then some (.code read (some first) 4 0) else none)

/-- The end of the text. -/
def finish : Mode → List Lexeme
  | between => []
  | number state =>
    match state.finish? with
    | some x => [.number x]
    | none => [.junk]
  | _ => [.junk]

end Mode

def lexemesFrom (mode : Mode) : List Char → List Lexeme
  | [] => mode.finish
  | c :: rest =>
    match mode.step c with
    | (lexemes, some next) => lexemes ++ lexemesFrom next rest
    | (lexemes, none) => lexemes ++ [.junk]

def lexemes (s : String) : List Lexeme := lexemesFrom .between s.toList

end ConstraintNet.Json
