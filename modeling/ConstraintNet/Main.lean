import ConstraintNet.CommandLine

def main (args : List String) : IO UInt32 := do
  let response ← ConstraintNet.CommandLine.respond args
  IO.print response.out
  IO.eprint response.err
  return response.exitCode.toUInt32
