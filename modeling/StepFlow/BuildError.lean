import StepFlow.Keyword

/-!
# Structural errors

What can be wrong with the block structure of a test.  Each error carries the position of the
command it blames: the opening command of a block that is never closed, the keyword that stands
where its surroundings do not allow it, or the `end` of an `if` whose arms are out of order.
-/

namespace StepFlow

/-- Why a keyword may not stand where it stands. -/
inductive Misplacement where
  /-- An `else` or `elseIf` whose innermost open block is not an `if`. -/
  | elseOutsideIf
  /-- A `repeatIf` whose innermost open block is not a `do`. -/
  | repeatIfWithoutDo
  /-- An `end` where no block is open. -/
  | endWithoutOpening
  deriving DecidableEq, Repr

/-- What is wrong with the arms between an `if` and its `end`. -/
inductive ArmDisorder where
  | tooManyElse
  | elseIfAfterElse
  deriving DecidableEq, Repr

inductive BuildError where
  /-- The block opened at `index` is never closed. -/
  | unclosedBlock (keyword : Keyword) (index : Nat)
  | misplacedKeyword (keyword : Keyword) (index : Nat) (reason : Misplacement)
  /-- The `if` block that the command at `index` closes has its arms out of order. -/
  | armDisorder (index : Nat) (reason : ArmDisorder)
  deriving DecidableEq, Repr

def Misplacement.message : Misplacement → String
  | elseOutsideIf => "an else / elseIf used outside of an if block"
  | repeatIfWithoutDo => "a repeatIf used without a do block"
  | endWithoutOpening => "use of end without an opening keyword"

def ArmDisorder.message : ArmDisorder → String
  | tooManyElse => "too many else commands used"
  | elseIfAfterElse => "incorrect command order of elseIf / else"

namespace BuildError

/-- The position of the blamed command. -/
def index : BuildError → Nat
  | unclosedBlock _ index | misplacedKeyword _ index _ | armDisorder index _ => index

/-- The blamed keyword, if the error is about a single one. -/
def keyword? : BuildError → Option Keyword
  | unclosedBlock keyword _ | misplacedKeyword keyword _ _ => some keyword
  | armDisorder _ _ => none

def message : BuildError → String
  | unclosedBlock keyword index =>
      "incomplete block at " ++ keyword.name ++ " (command " ++ toString index ++ ")"
  | misplacedKeyword _ index reason =>
      reason.message ++ " (command " ++ toString index ++ ")"
  | armDisorder index reason =>
      reason.message ++ " (block closed at command " ++ toString index ++ ")"

end BuildError

end StepFlow
