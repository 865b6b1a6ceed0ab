import ConstraintNet.Text.Quoted

namespace ConstraintNet.Json

inductive Tree
  | null
  | number (n : Nat)
  | text (s : String)
  | object (members : List (String × Tree))

namespace Tree

def escapeChar (c : Char) : List Char :=
  if c = '"' ∨ c = '\\' then ['\\', c]
  else if c = '\n' then ['\\', 'n']
  else if c = '\r' then ['\\', 'r']
  else if c = '\t' then ['\\', 't']
  else if c = '\x08' then ['\\', 'b']
  else if c = '\x0c' then ['\\', 'f']
  else if c.toNat < 0x20 then
    let digits := Text.hexDigits c.toNat
    ['\\', 'u'] ++ List.replicate (4 - digits.length) '0' ++ digits
  else [c]

def quote (s : String) : String :=
  String.ofList ('"' :: s.toList.flatMap escapeChar ++ ['"'])

def indent (depth : Nat) : String := String.ofList (List.replicate (2 * depth) ' ')

mutual

/-- The text of a value whose first line is indented already. -/
def write (depth : Nat) : Tree → String
  | null => "null"
  | number n => toString n
  | text s => quote s
  | object [] => "\x7b\x7d"
  | object (m :: rest) =>
    "\x7b\n" ++ writeMember (depth + 1) m ++ writeMembers (depth + 1) rest ++ "\n" ++
      indent depth ++ "\x7d"

def writeMember (depth : Nat) : String × Tree → String
  | (key, value) => indent depth ++ quote key ++ ": " ++ write depth value

def writeMembers (depth : Nat) : List (String × Tree) → String
  | [] => ""
  | m :: rest => ",\n" ++ writeMember depth m ++ writeMembers depth rest

end

end Tree

end ConstraintNet.Json
