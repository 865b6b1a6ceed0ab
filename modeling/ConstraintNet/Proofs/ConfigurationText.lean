import ConstraintNet.Configuration
import ConstraintNet.Proofs.Lexemes

namespace ConstraintNet.Configuration

open Json (Completes Lexeme Reads lexemesFrom)
open Json.Tree (quote)

/-- Two configurations have the same value of a field. -/
def Agrees (c d : Configuration) : Field → Prop
  | .algorithm => c.algorithm = d.algorithm
  | .variableOrder => c.variableOrder = d.variableOrder
  | .valueOrder => c.valueOrder = d.valueOrder
  | .inference => c.inference = d.inference
  | .seed => c.seed = d.seed
  | .maxSteps => c.maxSteps = d.maxSteps
  | .deadlineMs => c.deadlineMs = d.deadlineMs

/-- Takes over the value that another configuration has for a field. -/
def adopt (c d : Configuration) : Field → Configuration
  | .algorithm => { d with algorithm := c.algorithm }
  | .variableOrder => { d with variableOrder := c.variableOrder }
  | .valueOrder => { d with valueOrder := c.valueOrder }
  | .inference => { d with inference := c.inference }
  | .seed => { d with seed := c.seed }
  | .maxSteps => { d with maxSteps := c.maxSteps }
  | .deadlineMs => { d with deadlineMs := c.deadlineMs }

theorem Agrees.trans {c d e : Configuration} {f : Field} (h : c.Agrees d f) (h' : d.Agrees e f) :
    c.Agrees e f := by
  cases f <;> exact Eq.trans h h'

theorem eq_of_agrees {c d : Configuration} (h : ∀ f, c.Agrees d f) : c = d := by
  obtain ⟨_, _, _, _, _, _, _⟩ := c
  obtain ⟨_, _, _, _, _, _, _⟩ := d
  obtain rfl := h .algorithm
  obtain rfl := h .variableOrder
  obtain rfl := h .valueOrder
  obtain rfl := h .inference
  obtain rfl := h .seed
  obtain rfl := h .maxSteps
  obtain rfl := h .deadlineMs
  rfl

theorem adopt_agrees (c d : Configuration) (f : Field) : (c.adopt d f).Agrees c f := by
  cases f <;> rfl

theorem adopt_agrees_of_ne {f g : Field} (c d : Configuration) (h : g ≠ f) :
    (c.adopt d f).Agrees d g := by
  cases f <;> cases g <;> first | rfl | exact absurd rfl h

/-- What is taken over one field after the other agrees with its source on these fields, and is left
as it was on all others. -/
theorem foldl_adopt_agrees (c d : Configuration) (fields : List Field) (f : Field) :
    if f ∈ fields then (fields.foldl c.adopt d).Agrees c f
    else (fields.foldl c.adopt d).Agrees d f := by
  induction fields generalizing d with
  | nil => cases f <;> rfl
  | cons g fields ih =>
    have hrest := ih (c.adopt d g)
    -- a field that is listed again is taken over again, with the same value
    by_cases hf : f ∈ fields
    · rw [if_pos hf] at hrest
      rw [if_pos (List.mem_cons_of_mem g hf)]
      exact hrest
    · rw [if_neg hf] at hrest
      by_cases hg : f = g
      · subst hg
        rw [if_pos List.mem_cons_self]
        exact hrest.trans (adopt_agrees c d f)
      · have hout : f ∉ g :: fields := by
          rw [List.mem_cons, not_or]
          exact ⟨hg, hf⟩
        rw [if_neg hout]
        exact hrest.trans (adopt_agrees_of_ne c d hg)

theorem readChoice_name {α : Type} [Choice α] (x : α) (rest : List Lexeme) :
    readChoice (.text (Choice.name x) :: rest) = .ok (x, ⟨rest, Nat.lt_succ_self _⟩) := by
  simp [readChoice, choiceNamed, Except.map]

/-- The value of a field as a lexeme. -/
def fieldLexeme (c : Configuration) : Field → Lexeme
  | .algorithm => .text (Choice.name c.algorithm)
  | .variableOrder => .text (Choice.name c.variableOrder)
  | .valueOrder => .text (Choice.name c.valueOrder)
  | .inference => .text (Choice.name c.inference)
  | .seed => .number (.natural c.seed.toNat)
  | .maxSteps => .number (.natural c.maxSteps.toNat)
  | .deadlineMs =>
    match c.deadlineMs with
    | none => .null
    | some ms => .number (.natural ms.toNat)

theorem completes_fieldText (c : Configuration) (f : Field) :
    Completes (c.fieldText f).toList [c.fieldLexeme f] := by
  cases f with
  | algorithm | variableOrder | valueOrder | inference => exact (Json.reads_quote _).completes
  | seed => exact Json.completes_number c.seed.toNat_lt
  | maxSteps => exact Json.completes_number c.maxSteps.toNat_lt
  | deadlineMs =>
    rw [fieldText, fieldLexeme]
    cases c.deadlineMs with
    | none => exact (Reads.of_lexemes rfl (by decide) (by simp)).completes
    | some ms => exact Json.completes_number ms.toNat_lt

theorem readWord_toNat (expected : String) (w : UInt64) (rest : List Lexeme) :
    readWord expected (.number (.natural w.toNat) :: rest) =
      .ok (w, ⟨rest, Nat.lt_succ_self _⟩) := by
  rw [readWord]
  simp

theorem readField_fieldLexeme (c d : Configuration) (f : Field) (rest : List Lexeme) :
    readField d (c.fieldLexeme f :: rest) f = .ok (c.adopt d f, ⟨rest, Nat.lt_succ_self _⟩) := by
  cases f with
  | algorithm | variableOrder | valueOrder | inference =>
    simp [readField, fieldLexeme, adopt, readChoice_name, Except.map]
  | seed | maxSteps =>
    simp [readField, fieldLexeme, adopt, readWord_toNat, Except.map]
  | deadlineMs =>
    simp only [readField, fieldLexeme, adopt]
    cases c.deadlineMs with
    | none => rfl
    | some ms => simp [readOptionalWord, readWord_toNat, Except.map]

/-- A field's key and value. -/
def memberText (c : Configuration) (f : Field) : String := quote f.name ++ ":" ++ c.fieldText f

def memberLexemes (c : Configuration) (f : Field) : List Lexeme :=
  [.text f.name, .colon, c.fieldLexeme f]

/-- The object with the listed members. -/
def braced (members : List String) : String := "\x7b" ++ ",".intercalate members ++ "\x7d"

theorem objectText_eq_braced (c : Configuration) (fields : List Field) :
    c.objectText fields = braced (fields.map c.memberText) := rfl

theorem completes_memberText (c : Configuration) (f : Field) :
    Completes (c.memberText f).toList (c.memberLexemes f) := by
  have hkey := Json.reads_quote f.name
  have hcolon : Reads .between [':'] [.colon] .between := Reads.of_step rfl
  have hmember := (hkey.append hcolon).append_completes (c.completes_fieldText f)
  rw [memberText, String.toList_append, String.toList_append]
  exact hmember

/-- The members after those that have been read, and the closing brace. -/
def membersText (isFirst : Bool) : List String → List Char
  | [] => ['\x7d']
  | m :: members => (if isFirst then [] else [',']) ++ (m.toList ++ membersText false members)

def separator (isFirst : Bool) : List Lexeme := if isFirst then [] else [.comma]

theorem toList_braced (members : List String) :
    (braced members).toList = '\x7b' :: membersText true members := by
  have hjoin (m : String) (members : List String) :
      [','].intercalate (m.toList :: members.map String.toList) ++ ['\x7d'] =
        m.toList ++ membersText false members := by
    induction members generalizing m with
    | nil => simp [membersText]
    | cons m' members ih =>
      rw [List.map_cons, List.intercalate_cons_cons, List.append_assoc, ih m']
      simp [membersText]
  cases members with
  | nil => rfl
  | cons m members =>
    have hmembers := hjoin m members
    simp only [braced, String.toList_append, String.toList_intercalate, List.map_cons]
    exact congrArg ('\x7b' :: ·) hmembers

theorem reads_separator (isFirst : Bool) :
    Reads .between (if isFirst then [] else [',']) (separator isFirst) .between := by
  cases isFirst <;> exact fun rest => rfl

/-- Another member comes after a comma, or the object ends: either way a value before it is over. -/
theorem membersText_eq_cons (members : List String) :
    ∃ c rest, Json.IsDelimiter c ∧ membersText false members = c :: rest := by
  cases members with
  | nil => exact ⟨'\x7d', [], .inr rfl, rfl⟩
  | cons m members => exact ⟨',', _, .inl rfl, rfl⟩

theorem lexemesFrom_membersText {m : String} {out : List Lexeme} (h : Completes m.toList out)
    (isFirst : Bool) (members : List String) :
    lexemesFrom .between (membersText isFirst (m :: members)) =
      separator isFirst ++ (out ++ lexemesFrom .between (membersText false members)) := by
  obtain ⟨c, rest, hc, hrest⟩ := membersText_eq_cons members
  rw [membersText, reads_separator, hrest, h c rest hc]

theorem fieldNamed_name {seen : List Field} {f : Field} (h : f ∉ seen) :
    fieldNamed seen f.name = .ok f := by
  have hfound : Field.find? f.name = some f := by
    cases f <;> rfl
  rw [fieldNamed, hfound]
  exact if_neg h

theorem readMember_memberLexemes {seen : List Field} {f : Field} (c d : Configuration)
    (h : f ∉ seen) (rest : List Lexeme) :
    readMember d seen f.name (.colon :: c.fieldLexeme f :: rest) =
      .ok (f, c.adopt d f, ⟨rest, Nat.lt_succ_of_lt (Nat.lt_succ_self _)⟩) := by
  rw [readMember, fieldNamed_name h]
  simp only
  rw [readField_fieldLexeme]
  rfl

/-- A key is read alike whether or not it is the first. -/
theorem readMembers_key (d : Configuration) (seen : List Field) (name : String)
    (tail : List Lexeme) :
    readMembers d seen (separator seen.isEmpty ++ .text name :: tail) =
      match readMember d seen name tail with
      | .error fault => .error fault
      | .ok (f, e, rest) => readMembers e (f :: seen) rest.val := by
  cases seen with
  | nil => exact readMembers.eq_def d [] (.text name :: tail)
  | cons g seen => exact readMembers.eq_def d (g :: seen) (.comma :: .text name :: tail)

/-- Members written for fields that are still missing are read one after the other, whatever
members follow. -/
theorem readMembers_fields (c d : Configuration) (seen fields : List Field)
    (hnodup : fields.Nodup) (hseen : ∀ f ∈ fields, f ∉ seen) (after : List String) :
    readMembers d seen
        (lexemesFrom .between
          (membersText seen.isEmpty (fields.map c.memberText ++ after))) =
      readMembers (fields.foldl c.adopt d) (fields.reverse ++ seen)
        (lexemesFrom .between (membersText (fields.reverse ++ seen).isEmpty after)) := by
  -- each field that is read joins those that must not come again
  induction fields generalizing d seen with
  | nil => rfl
  | cons f fields ih =>
    rw [List.nodup_cons] at hnodup
    rw [List.forall_mem_cons] at hseen
    have hleft : ∀ g ∈ fields, g ∉ f :: seen := by
      intro g hg hmem
      rcases List.mem_cons.mp hmem with h | h
      · exact hnodup.1 (h ▸ hg)
      · exact hseen.2 g hg h
    have hrest := ih (c.adopt d f) (f :: seen) hnodup.2 hleft
    rw [List.map_cons, List.cons_append, lexemesFrom_membersText (c.completes_memberText f)]
    change readMembers d seen (separator seen.isEmpty ++
      .text f.name :: .colon :: c.fieldLexeme f :: _) = _
    rw [readMembers_key, readMember_memberLexemes c d hseen.1, List.reverse_cons, List.append_assoc]
    exact hrest

theorem ofJson_braced (members : List String) :
    ofJson (braced members) =
      ((readMembers {} [] (lexemesFrom .between (membersText true members))).bind
        ofLexemes.finish).mapError .invalidConfig := by
  rw [ofJson, Json.lexemes, toList_braced]
  rfl

theorem ofJson_objectText (c : Configuration) {fields : List Field} (hnodup : fields.Nodup) :
    ofJson (c.objectText fields) = .ok (fields.foldl c.adopt {}) := by
  have hread := readMembers_fields c {} [] fields hnodup (fun _ _ => List.not_mem_nil) []
  have hend (d : Configuration) (seen : List Field) (isFirst : Bool) :
      readMembers d seen (lexemesFrom .between (membersText isFirst [])) = .ok (d, []) := by
    change readMembers d seen [.endObject] = _
    rw [readMembers]
  rw [List.append_nil, hend] at hread
  rw [objectText_eq_braced, ofJson_braced]
  exact congrArg (fun r => (Except.bind r ofLexemes.finish).mapError _) hread

theorem ofJson_unknown (c : Configuration) {before : List Field} (hnodup : before.Nodup)
    {written key : String} (hwritten : Json.lexemes written = [.text key])
    (hkey : ∀ f : Field, f.name ≠ key) (value : String) (after : List String) :
    ofJson (braced (before.map c.memberText ++ (written ++ ":" ++ value) :: after)) =
      .error (.invalidConfig (.unknownField key (Field.all.map Field.name))) := by
  have hread := readMembers_fields c {} [] before hnodup (fun _ _ => List.not_mem_nil)
    ((written ++ ":" ++ value) :: after)
  have hstop (d : Configuration) (seen : List Field) :
      readMembers d seen (lexemesFrom .between
        (membersText seen.isEmpty ((written ++ ":" ++ value) :: after))) =
      .error (.unknownField key (Field.all.map Field.name)) := by
    have hreads : Reads .between written.toList [.text key] .between :=
      Reads.of_lexemes hwritten (by simp) (by simp)
    have hnone : fieldNamed seen key = .error (.unknownField key (Field.all.map Field.name)) := by
      have hfind : Field.find? key = none := by simp [Field.find?, hkey]
      rw [fieldNamed, hfind]
    rw [membersText, reads_separator, String.toList_append, String.toList_append,
      List.append_assoc, List.append_assoc, hreads, List.singleton_append, readMembers_key,
      readMember, hnone]
  rw [hstop] at hread
  rw [ofJson_braced]
  exact congrArg (fun r => (Except.bind r ofLexemes.finish).mapError _) hread

/-- A configuration is read back from its own text. Of an object with some of its fields, in any
order, these fields are read back and the others have their defaults; and a key that is no field,
wherever it stands, however it is spelled and whatever its value, is refused. -/
theorem ofJson_written (c : Configuration) :
    ofJson c.toJson = .ok c ∧
    (∀ fields : List Field, fields.Nodup →
      ∃ d, ofJson (c.objectText fields) = .ok d ∧
        ∀ f, if f ∈ fields then d.Agrees c f else d.Agrees {} f) ∧
    ∀ (before : List Field) (written key value : String) (after : List String), before.Nodup →
      Json.lexemes written = [.text key] → (∀ f : Field, f.name ≠ key) →
      ofJson (braced (before.map c.memberText ++ (written ++ ":" ++ value) :: after)) =
        .error (.invalidConfig (.unknownField key (Field.all.map Field.name))) := by
  refine ⟨?_, ?_, ?_⟩
  · have hall : Field.all.foldl c.adopt {} = c := by
      apply eq_of_agrees
      intro f
      have hagrees := foldl_adopt_agrees c {} Field.all f
      have hmem : f ∈ Field.all := by
        cases f <;> decide
      rw [if_pos hmem] at hagrees
      exact hagrees
    have hread := c.ofJson_objectText (show Field.all.Nodup by decide)
    rw [hall] at hread
    exact hread
  · intro fields hnodup
    exact ⟨_, c.ofJson_objectText hnodup, foldl_adopt_agrees c {} fields⟩
  · intro before written key value after hnodup hwritten hkey
    exact c.ofJson_unknown hnodup hwritten hkey value after

/-- A configuration with the largest numbers. -/
def furthest : Configuration :=
  { algorithm := .minConflicts
    inference := .mac
    seed := 18446744073709551615
    maxSteps := 18446744073709551615
    deadlineMs := some 18446744073709551615 }

theorem ofJson_written_furthest :
    (∃ d, ofJson (furthest.objectText [.seed, .inference]) = .ok d ∧
      ∀ f, if f ∈ [Field.seed, .inference] then d.Agrees furthest f else d.Agrees {} f) ∧
    ofJson (braced ([Field.deadlineMs].map furthest.memberText ++
        (quote "speed" ++ ":" ++ "[1,2]") :: [furthest.memberText .seed])) =
      .error (.invalidConfig (.unknownField "speed" (Field.all.map Field.name))) := by
  have hfields : [Field.seed, .inference].Nodup := by decide
  have hspeed : ∀ f : Field, f.name ≠ "speed" := by
    intro f
    cases f <;> decide
  exact ⟨(ofJson_written furthest).2.1 _ hfields,
    (ofJson_written furthest).2.2 [.deadlineMs] _ "speed" "[1,2]" _ (by decide)
      (Json.lexemes_quote "speed") hspeed⟩

end ConstraintNet.Configuration
