import ConstraintNet.Text.Quoted

namespace ConstraintNet

/-- Why a description of a graph is refused. -/
inductive GraphFault
  | neighborOutOfRange (var other size : Nat)
  | selfNeighbor (var : Nat)
  | oneSided (var other : Nat)
  | edgeOutOfRange (a b size : Nat)
  | described (text : String)
  deriving DecidableEq, Repr

/-- Variables are shown by number after a question mark. -/
def shownVar (var : Nat) : String := "?" ++ toString var

namespace GraphFault

def message : GraphFault → String
  | neighborOutOfRange var other size =>
    shownVar var ++ " lists neighbor " ++ shownVar other ++ ", but there are only " ++
      toString size ++ " variables"
  | selfNeighbor var => shownVar var ++ " lists itself"
  | oneSided var other =>
    shownVar var ++ " lists " ++ shownVar other ++ " but not the other way round"
  | edgeOutOfRange a b size =>
    "edge (" ++ shownVar a ++ ", " ++ shownVar b ++ ") is out of range for " ++ toString size ++
      " variables"
  | described text => text

end GraphFault

/-- How an assignment or a search state breaks what a solution promises. -/
inductive Violation
  | wrongSize (assigned size : Nat)
  | outsideDomain (var : Nat) (value : String)
  | brokenConstraint
  | emptyDomainSelected (var : Nat)
  | described (text : String)
  deriving DecidableEq, Repr

namespace Violation

def message : Violation → String
  | wrongSize assigned size =>
    "solution assigns " ++ toString assigned ++ " of " ++ toString size ++ " variables"
  | outsideDomain var value => shownVar var ++ " = " ++ value ++ " is outside its domain"
  | brokenConstraint => "solution violates a constraint"
  | emptyDomainSelected var =>
    shownVar var ++ " was selected with an empty domain; a wipeout went undetected"
  | described text => text

end Violation

/-- What a configuration text holds where something else belongs. A number with a fraction or an
exponent is kept as the text that shows it. -/
inductive Found
  | null
  | boolean (b : Bool)
  | integer (i : Int)
  | decimal (shown : String)
  | text (s : String)
  | sequence
  | map
  deriving DecidableEq, Repr

namespace Found

def message : Found → String
  | null => "null"
  | boolean b => "boolean `" ++ toString b ++ "`"
  | integer i => "integer `" ++ toString i ++ "`"
  | decimal shown => "floating point `" ++ shown ++ "`"
  | text s => "string " ++ Text.quote s
  | sequence => "sequence"
  | map => "map"

end Found

/-- Why a configuration text is refused. -/
inductive ConfigFault
  | unknownField (name : String) (fields : List String)
  | duplicateField (name : String)
  | unknownVariant (name : String) (variants : List String)
  | wrongType (found : Found) (expected : String)
  | wrongValue (value : Int) (expected : String)
  | malformed
  | described (text : String)
  deriving DecidableEq, Repr

namespace ConfigFault

def alternatives (names : List String) : String :=
  match names.map fun name => "`" ++ name ++ "`" with
  | [] => "nothing"
  | [a] => a
  | [a, b] => a ++ " or " ++ b
  | all => "one of " ++ ", ".intercalate all

def message : ConfigFault → String
  | unknownField name fields =>
    "unknown field `" ++ name ++ "`, expected " ++ alternatives fields
  | duplicateField name => "duplicate field `" ++ name ++ "`"
  | unknownVariant name variants =>
    "unknown variant `" ++ name ++ "`, expected " ++ alternatives variants
  | wrongType found expected => "invalid type: " ++ found.message ++ ", expected " ++ expected
  | wrongValue value expected =>
    "invalid value: " ++ (Found.integer value).message ++ ", expected " ++ expected
  | malformed => "malformed text"
  | described text => text

end ConfigFault

inductive Error
  | unknownStrategy (kind name : String)
  | cellOutOfRange (row col : Nat)
  | valueOutOfRange (row col : Nat) (value : UInt8)
  | conflictingCell (row col : Nat) (first second : UInt8)
  | emptyDomain (var : Nat)
  | domainCountMismatch (expected actual : Nat)
  | invalidGraph (fault : GraphFault)
  | invalidConfig (fault : ConfigFault)
  | incompleteAssignment (missing : Nat)
  | unknownCell (var : Nat)
  | invariantViolation (violation : Violation)
  | cancelled
  | workerSpawn (reason : String)
  | workerPanicked
  /-- A number that names no variable was used where a variable's domain or neighbours are read. -/
  | noSuchVariable (var : Nat)
  /-- The colour codes in a label of a table take more columns than the label. -/
  | labelTooNarrow
  deriving DecidableEq, Repr

namespace Error

def message : Error → String
  | unknownStrategy kind name => "unknown " ++ kind ++ " strategy `" ++ name ++ "`"
  | cellOutOfRange row col =>
    "cell (" ++ toString row ++ ", " ++ toString col ++ ") is outside the 9x9 grid"
  | valueOutOfRange row col value =>
    "cell (" ++ toString row ++ ", " ++ toString col ++ ") has value " ++ toString value.toNat ++
      ", expected 1..=9"
  | conflictingCell row col first second =>
    "cell (" ++ toString row ++ ", " ++ toString col ++ ") is fixed to both " ++
      toString first.toNat ++ " and " ++ toString second.toNat
  | emptyDomain var => "variable " ++ shownVar var ++ " has an empty initial domain"
  | domainCountMismatch expected actual =>
    "expected " ++ toString expected ++ " domains, got " ++ toString actual
  | invalidGraph fault => "invalid constraint graph: " ++ fault.message
  | invalidConfig fault => "invalid solver configuration: " ++ fault.message
  | incompleteAssignment missing =>
    "assignment is incomplete: " ++ toString missing ++ " variable(s) unassigned"
  | unknownCell var => "assignment names " ++ shownVar var ++ ", which is not a cell of the grid"
  | invariantViolation violation => "internal invariant violated: " ++ violation.message
  | cancelled => "search was cancelled"
  | workerSpawn reason => "could not spawn solver worker: " ++ reason
  | workerPanicked => "solver worker panicked"
  | noSuchVariable var => "no variable " ++ shownVar var
  | labelTooNarrow => "label is narrower than its colour codes"

/-- The text of an error that reaches the user. Nothing is recorded of where it arose. -/
def display (e : Error) : String := "Inner: " ++ e.message ++ "\ndisabled backtrace"

/-- Holds of the errors that lie in the input or the configuration and show before any search. -/
def isConfiguration : Error → Bool
  | unknownStrategy .. | cellOutOfRange .. | valueOutOfRange .. | conflictingCell .. => true
  | emptyDomain _ | domainCountMismatch .. | invalidGraph _ | invalidConfig _ => true
  | _ => false

end Error

end ConstraintNet
