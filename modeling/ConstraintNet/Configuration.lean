import ConstraintNet.Json.Lexeme
import ConstraintNet.Json.Tree
import ConstraintNet.Repair
import ConstraintNet.Search

/-!
A field that is missing from the text of a configuration takes its default. The text is read from
left to right and refused at the first fault.
-/

namespace ConstraintNet

structure Configuration where
  algorithm : Algorithm := .backtracking
  variableOrder : VariableOrder := .static
  valueOrder : ValueOrder := .unordered
  inference : Inference := .none
  seed : UInt64 := 0
  maxSteps : UInt64 := 50
  deadlineMs : Option UInt64 := none
  deriving DecidableEq, Repr

namespace Configuration

open Json.Tree (quote)

inductive Field
  | algorithm
  | variableOrder
  | valueOrder
  | inference
  | seed
  | maxSteps
  | deadlineMs
  deriving DecidableEq, Repr

namespace Field

/-- The fields in the order of their declaration. -/
def all : List Field :=
  [algorithm, variableOrder, valueOrder, inference, seed, maxSteps, deadlineMs]

def name : Field → String
  | algorithm => "algorithm"
  | variableOrder => "variable"
  | valueOrder => "value"
  | inference => "inference"
  | seed => "seed"
  | maxSteps => "max_steps"
  | deadlineMs => "deadline_ms"

def find? (name : String) : Option Field := all.find? fun f => f.name = name

end Field

/-- The JSON text of a field's value. -/
def fieldText (c : Configuration) : Field → String
  | .algorithm => quote (Choice.name c.algorithm)
  | .variableOrder => quote (Choice.name c.variableOrder)
  | .valueOrder => quote (Choice.name c.valueOrder)
  | .inference => quote (Choice.name c.inference)
  | .seed => toString c.seed.toNat
  | .maxSteps => toString c.maxSteps.toNat
  | .deadlineMs =>
    match c.deadlineMs with
    | none => "null"
    | some ms => toString ms.toNat

/-- The JSON object with the listed fields. -/
def objectText (c : Configuration) (fields : List Field) : String :=
  "\x7b" ++ ",".intercalate (fields.map fun f => quote f.name ++ ":" ++ c.fieldText f) ++ "\x7d"

def toJson (c : Configuration) : String := c.objectText Field.all

open Json (Lexeme)

/-- What is left of a text after a part of it has been read. -/
abbrev Rest (lexemes : List Lexeme) := { rest : List Lexeme // rest.length < lexemes.length }

/-- A value and what follows it. -/
abbrev Reading (α : Type) (lexemes : List Lexeme) := Except ConfigFault (α × Rest lexemes)

/-- The fault of a lexeme that starts no value of the expected type. -/
def unexpected (expected : String) : Lexeme → ConfigFault
  | .null => .wrongType .null expected
  | .boolean b => .wrongType (.boolean b) expected
  | .number (.natural n) => .wrongType (.integer n) expected
  | .number (.negative i) => .wrongType (.integer i) expected
  | .number (.decimal shown) => .wrongType (.decimal shown) expected
  | .text s => .wrongType (.text s) expected
  | .beginArray => .wrongType .sequence expected
  | .beginObject => .wrongType .map expected
  | .endArray | .endObject | .colon | .comma | .junk => .malformed

def choiceNamed {α : Type} [Choice α] (name : String) : Except ConfigFault α :=
  match Choice.find? name with
  | some c => .ok c
  | none => .error (.unknownVariant name (Choice.names α))

/-- A choice is written as its name, or as an object with its name as only key and null as value. -/
def readChoice {α : Type} [Choice α] : (lexemes : List Lexeme) → Reading α lexemes
  | .text name :: rest => (choiceNamed name).map fun c => (c, ⟨rest, by simp⟩)
  | .beginObject :: .text name :: tail =>
    match choiceNamed name with
    | .error fault => .error fault
    | .ok c =>
      match tail with
      | .colon :: .null :: .endObject :: rest => .ok (c, ⟨rest, by simp; omega⟩)
      | .colon :: .null :: _ => .error .malformed
      | .colon :: t :: _ => .error (unexpected "unit" t)
      | _ => .error .malformed
  | _ => .error .malformed

/-- A whole number of 64 bits. -/
def readWord (expected : String) : (lexemes : List Lexeme) → Reading UInt64 lexemes
  | .number (.natural n) :: rest => .ok (n.toUInt64, ⟨rest, by simp⟩)
  | .number (.negative i) :: _ => .error (.wrongValue i expected)
  | t :: _ => .error (unexpected expected t)
  | [] => .error .malformed

def readOptionalWord (expected : String) : (lexemes : List Lexeme) → Reading (Option UInt64) lexemes
  | .null :: rest => .ok (none, ⟨rest, by simp⟩)
  | lexemes => (readWord expected lexemes).map fun (w, rest) => (some w, rest)

/-- Reads the value of a field into a configuration. -/
def readField (c : Configuration) (lexemes : List Lexeme) : Field → Reading Configuration lexemes
  | .algorithm => (readChoice lexemes).map fun (x, rest) => ({ c with algorithm := x }, rest)
  | .variableOrder => (readChoice lexemes).map fun (x, rest) => ({ c with variableOrder := x }, rest)
  | .valueOrder => (readChoice lexemes).map fun (x, rest) => ({ c with valueOrder := x }, rest)
  | .inference => (readChoice lexemes).map fun (x, rest) => ({ c with inference := x }, rest)
  | .seed => (readWord "u64" lexemes).map fun (x, rest) => ({ c with seed := x }, rest)
  | .maxSteps => (readWord "usize" lexemes).map fun (x, rest) => ({ c with maxSteps := x }, rest)
  | .deadlineMs =>
    (readOptionalWord "u64" lexemes).map fun (x, rest) => ({ c with deadlineMs := x }, rest)

/-- A key must name a field that has not been given yet. -/
def fieldNamed (seen : List Field) (name : String) : Except ConfigFault Field :=
  match Field.find? name with
  | none => .error (.unknownField name (Field.all.map Field.name))
  | some f => if f ∈ seen then .error (.duplicateField name) else .ok f

/-- Reads a key and its value. -/
def readMember (c : Configuration) (seen : List Field) (name : String) (tail : List Lexeme) :
    Except ConfigFault (Field × Configuration × Rest tail) :=
  match fieldNamed seen name with
  | .error fault => .error fault
  | .ok f =>
    match tail with
    | .colon :: lexemes =>
      (readField c lexemes f).map fun (c, rest) =>
        (f, c, ⟨rest.val, Nat.lt_succ_of_lt rest.property⟩)
    | _ => .error .malformed

/-- Reads members of an object up to its end; `seen` are the fields before them. -/
def readMembers (c : Configuration) (seen : List Field) (lexemes : List Lexeme) :
    Except ConfigFault (Configuration × List Lexeme) :=
  match lexemes, seen with
  | .endObject :: rest, _ => .ok (c, rest)
  | .text name :: tail, [] =>
    match readMember c seen name tail with
    | .error fault => .error fault
    | .ok (f, c, rest) => readMembers c [f] rest.val
  | .comma :: .text name :: tail, _ :: _ =>
    match readMember c seen name tail with
    | .error fault => .error fault
    | .ok (f, c, rest) => readMembers c (f :: seen) rest.val
  | _, _ => .error .malformed
termination_by lexemes.length
decreasing_by
  · exact Nat.lt_succ_of_lt rest.property
  · exact Nat.lt_succ_of_lt (Nat.lt_succ_of_lt rest.property)

/-- Reads elements of an array up to its end, as the values of the listed fields. -/
def readElements (c : Configuration) (isFirst : Bool) :
    List Field → List Lexeme → Except ConfigFault (Configuration × List Lexeme)
  | _, .endArray :: rest => .ok (c, rest)
  | f :: fields, lexemes =>
    match isFirst, lexemes with
    | true, lexemes | false, .comma :: lexemes =>
      match readField c lexemes f with
      | .error fault => .error fault
      | .ok (c, rest) => readElements c false fields rest.val
    | false, _ => .error .malformed
  | [], _ => .error .malformed

def ofLexemes : List Lexeme → Except ConfigFault Configuration
  | .beginObject :: rest => do finish (← readMembers {} [] rest)
  | .beginArray :: rest => do finish (← readElements {} true Field.all rest)
  | t :: _ => .error (unexpected "struct SolverConfig" t)
  | [] => .error .malformed
where
  finish : Configuration × List Lexeme → Except ConfigFault Configuration
    | (c, []) => .ok c
    | _ => .error .malformed

/-- Reads a configuration from its JSON text. -/
def ofJson (text : String) : Except Error Configuration :=
  (ofLexemes (Json.lexemes text)).mapError .invalidConfig

def plan (c : Configuration) : Plan := ⟨c.variableOrder, c.valueOrder, c.inference, c.seed⟩

def repair (c : Configuration) : Repair := ⟨c.maxSteps.toNat, c.seed⟩

/-- The name of the strategy that runs. -/
def strategyName (c : Configuration) : String :=
  match c.algorithm with
  | .backtracking => c.plan.name
  | .minConflicts => c.repair.name

variable {V : Type} [Value V] [DecidableEq V] {n : Nat}

/-- Runs the configured strategy without regard to the deadline. -/
def solve (c : Configuration) (net : Network V n) (token : Token) (s : Store V n) :
    Except Error (Outcome V × Statistics) × Store V n :=
  match c.algorithm with
  | .backtracking => c.plan.solve net token s
  | .minConflicts => (c.repair.solve net token s, s)

/-- What the caller of the configured strategy is told, when the deadline is left out of account. -/
def answer (c : Configuration) (net : Network V n) (s : Store V n) (token : Token) :
    Except Error (Outcome V) :=
  (c.solve net token s).1.map Prod.fst

end Configuration

end ConstraintNet
