import ConstraintNet.Deadline.Clock
import ConstraintNet.Json.Tree
import ConstraintNet.Report.Table
import ConstraintNet.Sudoku.Puzzle

namespace ConstraintNet.CommandLine

inductive Flag
  | algorithm
  | variableOrder
  | valueOrder
  | inference
  | seed
  | maxSteps
  | deadlineMs
  | config
  | compare
  | json
  deriving DecidableEq, Repr

namespace Flag

def all : List Flag :=
  [algorithm, variableOrder, valueOrder, inference, seed, maxSteps, deadlineMs, config, compare,
    json]

def name : Flag → String
  | algorithm => "--algorithm"
  | variableOrder => "--variable"
  | valueOrder => "--value"
  | inference => "--inference"
  | seed => "--seed"
  | maxSteps => "--max-steps"
  | deadlineMs => "--deadline-ms"
  | config => "--config"
  | compare => "--compare"
  | json => "--json"

def find? (name : String) : Option Flag := all.find? fun f => f.name = name

end Flag

structure Options where
  algorithm : String := "backtracking"
  variableOrder : String := "mrv"
  valueOrder : String := "lcv"
  inference : String := "mac"
  seed : UInt64 := 0
  maxSteps : UInt64 := 100000
  deadlineMs : Option UInt64 := none
  /-- The JSON text of a configuration, which takes the place of every other choice. -/
  config : Option String := none
  compare : Bool := false
  json : Bool := false
  deriving DecidableEq, Repr

/-- A whole number of 64 bits, perhaps after a plus sign. -/
def word? (s : String) : Option UInt64 :=
  let digits := match s.toList with
    | '+' :: rest => rest
    | all => all
  if digits.isEmpty || !digits.all Char.isDigit then none
  else
    let n : Nat := digits.foldl (fun n c => n * 10 + (c.toNat - '0'.toNat)) 0
    if n < UInt64.size then some n.toUInt64 else none

/-- Sets an option that takes a value. -/
def Options.set? (o : Options) (value : String) : Flag → Option Options
  | .algorithm => some { o with algorithm := value }
  | .variableOrder => some { o with variableOrder := value }
  | .valueOrder => some { o with valueOrder := value }
  | .inference => some { o with inference := value }
  | .seed => (word? value).map fun w => { o with seed := w }
  | .maxSteps => (word? value).map fun w => { o with maxSteps := w }
  | .deadlineMs => (word? value).map fun w => { o with deadlineMs := some w }
  | .config => some { o with config := some value }
  | .compare | .json => none

/-- Sets an option that takes no value. -/
def Options.switch? (o : Options) : Flag → Option Options
  | .compare => some { o with compare := true }
  | .json => some { o with json := true }
  | _ => none

/-- Splits an argument at its first equals sign. -/
def splitArgument (arg : String) : String × Option String :=
  match arg.toList.span (· ≠ '=') with
  | (name, '=' :: value) => (String.ofList name, some (String.ofList value))
  | _ => (arg, none)

/-- An argument that stands on its own may not look like an option. A lone dash does not. -/
def isValue (arg : String) : Bool := arg.toList.head? ≠ some '-' || arg = "-"

/-- Reads options; each may be given once, its value after it or behind an equals sign. Arguments
of any other kind are refused. -/
def parseFrom (seen : List Flag) (o : Options) : List String → Option Options
  | [] => some o
  | arg :: rest =>
    match splitArgument arg with
    | (name, inline?) =>
      match Flag.find? name with
      | none => if arg = "--" && rest.isEmpty then some o else none
      | some f =>
        if f ∈ seen then none
        else
          match o.switch? f, inline?, rest with
          | some o, none, rest => parseFrom (f :: seen) o rest
          | some _, some _, _ => none
          | none, some value, rest => (o.set? value f).bind fun o => parseFrom (f :: seen) o rest
          | none, none, value :: rest =>
            if isValue value then (o.set? value f).bind fun o => parseFrom (f :: seen) o rest
            else none
          | none, none, [] => none

def parse (args : List String) : Option Options := parseFrom [] {} args

/-- The configuration that the options describe. -/
def Options.configuration (o : Options) : Except Error Configuration :=
  match o.config with
  | some json => Configuration.ofJson json
  | none => do
    return {
      algorithm := ← Choice.parse o.algorithm
      variableOrder := ← Choice.parse o.variableOrder
      valueOrder := ← Choice.parse o.valueOrder
      inference := ← Choice.parse o.inference
      seed := o.seed
      maxSteps := o.maxSteps
      deadlineMs := o.deadlineMs }

/-- A puzzle with seventeen givens. -/
def puzzle : Sudoku.Grid := #v[
  #v[4, 0, 0, 0, 0, 0, 8, 0, 5],
  #v[0, 3, 0, 0, 0, 0, 0, 0, 0],
  #v[0, 0, 0, 7, 0, 0, 0, 0, 0],
  #v[0, 2, 0, 0, 0, 0, 0, 6, 0],
  #v[0, 0, 0, 0, 8, 0, 4, 0, 0],
  #v[0, 0, 0, 0, 1, 0, 0, 0, 0],
  #v[0, 0, 0, 6, 0, 3, 0, 7, 0],
  #v[5, 0, 0, 2, 0, 0, 0, 0, 0],
  #v[1, 0, 4, 0, 0, 0, 0, 0, 0]]

def entryText (entry : UInt8) : String := if entry = 0 then "." else toString entry.toNat

/-- A row in three groups. -/
def rowText (row : Vector UInt8 9) : String :=
  let group (entries : List UInt8) := " ".intercalate (entries.map entryText)
  let entries := row.toList
  " | ".intercalate [group (entries.take 3), group ((entries.drop 3).take 3),
    group (entries.drop 6)]

/-- A board in nine boxes. -/
def gridText (grid : Sudoku.Grid) : String :=
  String.join ((List.finRange 9).map fun i =>
    (if 0 < i.val ∧ i.val % 3 = 0 then "------+-------+------\n" else "") ++
      rowText (grid.get i) ++ "\n")

/-- What the program prints and the exit code with which it ends. -/
structure Response where
  exitCode : UInt8 := 0
  out : String := ""
  err : String := ""

/-- Ends with an error after what has been printed. -/
def Response.failed (out : String) (e : Error) : Response :=
  { exitCode := 1, out := out, err := "Error: " ++ e.display ++ "\n" }

/-- A finished run: its outcome, and its strategy and statistics unless a deadline was set. -/
structure Finished where
  outcome : Outcome UInt8
  measured : Option (String × Statistics)

open Json (Tree)

def statisticsTree (stats : Statistics) : Tree :=
  .object [
    ("assignments", .number stats.assignments),
    ("backtracks", .number stats.backtracks),
    ("domain_changes", .number stats.domainChanges),
    ("elapsed_micros", .number stats.elapsedMicros),
    ("inference_calls", .number stats.inferenceCalls),
    ("nodes_visited", .number stats.nodesVisited),
    ("steps", .number stats.steps)]

/-- Entries are listed in the order of their numbers as texts. -/
def assignmentTree (a : Assignment UInt8) : Tree :=
  .object ((a.toList.map fun (id, x) => (toString id, Tree.number x.toNat)).mergeSort
    fun m k => m.1 ≤ k.1)

def jsonReport (f : Finished) : String :=
  Tree.write 0 (.object [
    ("assignment", (f.outcome.solution?.map assignmentTree).getD .null),
    ("outcome", .text f.outcome.kind),
    ("stats", (f.measured.map fun m => statisticsTree m.2).getD .null),
    ("strategy", (f.measured.map fun m => Tree.text m.1).getD .null)]) ++ "\n"

def outcomeText : Outcome UInt8 → Except Error String
  | .solved a => (Sudoku.project a).map fun grid => "\nSolution found!\n" ++ gridText grid
  | .unsatisfiable => .ok "\nThe puzzle has no solution.\n"
  | .stepBudgetExhausted => .ok "\nMin-conflicts ran out of steps.\n"
  | .timedOut => .ok "\nThe solver missed its deadline.\n"

def textReport (f : Finished) : Except Error String := do
  let outcome ← outcomeText f.outcome
  match f.measured with
  | none => return outcome
  | some run => return outcome ++ "\nStats:\n" ++ (← Report.table [run]) ++ "\n"

/-- Solves without a deadline and takes the time. -/
def solveMeasured (c : Configuration) (s : Store UInt8 81) : IO (Except Error Finished) := do
  let start ← IO.monoNanosNow
  let result ← IO.lazyPure fun _ => (c.solve Sudoku.network .never s).1
  let elapsed := ((← IO.monoNanosNow) - start) / 1000
  return result.map fun (outcome, stats) =>
    ⟨outcome, some (c.strategyName, { stats with elapsedMicros := elapsed })⟩

def solveConfigured (c : Configuration) (s : Store UInt8 81) : IO (Except Error Finished) := do
  match c.deadlineMs with
  | none => solveMeasured c s
  | some _ => return (← c.run IO.monoMsNow Sudoku.network s).map fun outcome => ⟨outcome, none⟩

/-- The choices that a comparison combines. -/
def compared : List Configuration :=
  [VariableOrder.mrv, VariableOrder.mrvDegree].flatMap fun variableOrder =>
    (Choice.all : List ValueOrder).flatMap fun valueOrder =>
      (Choice.all : List Inference).map fun inference =>
        { variableOrder := variableOrder, valueOrder := valueOrder, inference := inference }

def comparedName (c : Configuration) : String :=
  " / ".intercalate
    [Choice.name c.variableOrder, Choice.name c.valueOrder, Choice.name c.inference]

/-- Solves with every compared configuration and tabulates the statistics. -/
def compareAll (out : String) (s : Store UInt8 81) (runs : List (String × Statistics)) :
    List Configuration → IO Response
  | [] =>
    match Report.table runs with
    | .error e => return .failed out e
    | .ok table => return { out := out ++ table ++ "\n" }
  | c :: rest => do
    match ← solveMeasured c s with
    | .error e => return .failed out e
    | .ok f =>
      let note := if f.outcome.isSolved then "" else comparedName c ++ ": no solution\n"
      let run := (f.measured.map fun m => (comparedName c, m.2)).toList
      compareAll (out ++ note) s (runs ++ run) rest

def execute (o : Options) : IO Response := do
  let out := "Puzzle:\n" ++ gridText puzzle
  match Sudoku.buildGrid puzzle with
  | .error e => return .failed out e
  | .ok s =>
    if o.compare then compareAll out s [] compared
    else
      match o.configuration with
      | .error e => return .failed out e
      | .ok c =>
        match ← solveConfigured c s with
        | .error e => return .failed out e
        | .ok f =>
          if o.json then return { out := out ++ jsonReport f }
          else
            match textReport f with
            | .error e => return .failed out e
            | .ok report => return { out := out ++ report }

/-- Runs the program with the given arguments. -/
def respond (args : List String) : IO Response :=
  match parse args with
  | some o => execute o
  | none => return { exitCode := 2, err := "error: invalid arguments\n" }

end ConstraintNet.CommandLine
