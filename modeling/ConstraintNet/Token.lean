/-!
What matters of a token to one run is the answer to each question, in the order asked. `TokenBox`
keeps tokens that share flags, as callers hold them.
-/

namespace ConstraintNet

/-- The answer to each question of a run whether it is cancelled. -/
abbrev Token := Nat → Bool

namespace Token

def never : Token := fun _ => false

def always : Token := fun _ => true

/-- Answers no to the first `count` questions and yes from then on. -/
def after (count : Nat) : Token := fun k => count ≤ k

end Token

/-- Tokens by number. Each refers to a flag, and copies of a token refer to the same one. -/
structure TokenBox where
  flagOf : List Nat := []
  cancelled : List Bool := []

namespace TokenBox

/-- Adds a token with a flag of its own. -/
def add (box : TokenBox) : TokenBox where
  flagOf := box.flagOf ++ [box.cancelled.length]
  cancelled := box.cancelled ++ [false]

/-- Adds a copy of a token. -/
def copy? (box : TokenBox) (i : Nat) : Option TokenBox :=
  box.flagOf[i]?.map fun flag => { box with flagOf := box.flagOf ++ [flag] }

def cancel? (box : TokenBox) (i : Nat) : Option TokenBox :=
  box.flagOf[i]?.map fun flag => { box with cancelled := box.cancelled.set flag true }

/-- What every token answers. -/
def answers (box : TokenBox) : List Bool := box.flagOf.map fun flag => box.cancelled.getD flag false

end TokenBox

end ConstraintNet
