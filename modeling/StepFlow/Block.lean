import StepFlow.Keyword

/-!
# Blocks

The four kinds of block.  Three are opened by their keyword wherever it stands; the fourth is a
`while` loop, which is opened by a `while` unless the innermost open block is a `do`.
-/

namespace StepFlow

inductive Block where
  | ifBlock
  | doLoop
  | timesLoop
  /-- A `while` that opens its own loop. -/
  | whileLoop
  deriving DecidableEq, Repr

def Opener.block : Opener → Block
  | .ifBlock => .ifBlock
  | .doLoop => .doLoop
  | .timesLoop => .timesLoop

namespace Block

/-- The keyword that opens the block. -/
def keyword : Block → Keyword
  | ifBlock => .ifWord
  | doLoop => .doWord
  | timesLoop => .timesWord
  | whileLoop => .whileWord

/-- Loops that are tested before their body runs. -/
def testsFirst : Block → Bool
  | whileLoop | timesLoop => true
  | _ => false

end Block

end StepFlow
