import ConstraintNet.Store

namespace ConstraintNet.Report

variable {V : Type} [Value V] {n : Nat}

def commaSeparated (items : List String) : String := ", ".intercalate items

def inBraces (text : String) : String := "\x7b" ++ text ++ "\x7d"

def shownDomain (d : Domain V) : String :=
  "Domain(" ++ inBraces (commaSeparated (d.toList.map Value.text)) ++ ")"

def shownStore (s : Store V n) : String :=
  let domains := commaSeparated (s.domains.toList.map shownDomain)
  let entries := s.assignment.toList.map fun (id, x) => toString id ++ ": " ++ Value.text x
  "CspModel " ++ inBraces (" variables: " ++ toString n ++ ", domains: [" ++ domains ++
    "], assignment: " ++ inBraces (commaSeparated entries) ++ ", .. ")

/-- Removals are shown in the order in which they were made. -/
def shownTrail (t : Trail V) : String :=
  let removals := t.reverse.map fun r => "(" ++ toString r.var ++ ", " ++ Value.text r.value ++ ")"
  "Trail " ++ inBraces (" removals: [" ++ commaSeparated removals ++ "] ")

end ConstraintNet.Report
