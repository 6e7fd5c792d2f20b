import StepFlow.Block
import StepFlow.BuildError
import StepFlow.Command

/-!
# Outlines

An outline gives every command of a test its nesting level.  It is read off from left to right
with a stack of the blocks that are open, and reading stops at the first command whose place the
blocks around it do not allow.  Main definition: `outline?`.
-/

namespace StepFlow

/-- A block that has been opened and not yet closed. -/
structure OpenBlock where
  block : Block
  /-- The position of the opening command. -/
  index : Nat
  /-- The level of the opening command; the body lies one deeper. -/
  level : Nat
  deriving DecidableEq, Repr

/-- What is remembered while the commands are read: the open blocks, innermost first, and the
level of the next ordinary command. -/
structure Nesting where
  blocks : List OpenBlock := []
  level : Nat := 0
  deriving DecidableEq, Repr

/-- A command with its nesting level. -/
structure Entry (α : Type) where
  command : α
  level : Nat
  deriving DecidableEq, Repr

/-- What is wrong with a sequence of arms, nested blocks included: there may be one `else`, and
only as the last arm. -/
def armDisorder? (arms : List Arm) : Option ArmDisorder :=
  if 1 < arms.count .otherwise then some .tooManyElse
  else if arms.count .otherwise = 1 ∧ arms.getLast? ≠ some .otherwise then some .elseIfAfterElse
  else none

namespace Nesting

def innermost? (nesting : Nesting) : Option Block :=
  nesting.blocks.head?.map OpenBlock.block

/-- Opens a block with the command at `index`. -/
def enter (nesting : Nesting) (block : Block) (index : Nat) : Nesting :=
  ⟨⟨block, index, nesting.level⟩ :: nesting.blocks, nesting.level + 1⟩

variable {α : Type} [Step α]

/-- All `elseIf` and `else` commands from position `first` up to, but not including, `last`. -/
def armsBetween (commands : List α) (first last : Nat) : List Arm :=
  ((commands.take last).drop first).filterMap fun command => (Step.role command).arm?

/-- Reads the command at `index`: its level and what is remembered after it. -/
def read (commands : List α) (index : Nat) (nesting : Nesting) (command : α) :
    Except BuildError (Nat × Nesting) :=
  match Step.role command with
  | .opening opener => .ok (nesting.level, nesting.enter opener.block index)
  | .loopTest .whileTest =>
      if nesting.innermost? = some .doLoop then .ok (nesting.level, nesting)
      else .ok (nesting.level, nesting.enter .whileLoop index)
  | .loopTest .repeatIf =>
      if nesting.innermost? = some .doLoop then .ok (nesting.level, nesting)
      else .error (.misplacedKeyword .repeatIfWord index .repeatIfWithoutDo)
  | .branchArm arm =>
      match nesting.blocks with
      | ⟨.ifBlock, _, level⟩ :: _ => .ok (level, nesting)
      | _ => .error (.misplacedKeyword arm.keyword index .elseOutsideIf)
  | .blockEnd =>
      match nesting.blocks with
      | [] => .error (.misplacedKeyword .endWord index .endWithoutOpening)
      | closed :: outer =>
          match closed.block, armDisorder? (armsBetween commands closed.index index) with
          | .ifBlock, some reason => .error (.armDisorder index reason)
          | _, _ => .ok (closed.level, ⟨outer, closed.level⟩)
  | .ordinary => .ok (nesting.level, nesting)

/-- At the end of the commands every block has to be closed; the innermost open one is blamed. -/
def finish (nesting : Nesting) : Except BuildError Unit :=
  match nesting.blocks with
  | [] => .ok ()
  | opened :: _ => .error (.unclosedBlock opened.block.keyword opened.index)

end Nesting

variable {α : Type} [Step α]

/-- Outlines the commands from `index` on, which are `rest`. -/
def outlineFrom (commands : List α) (index : Nat) (nesting : Nesting) (rest : List α) :
    Except BuildError (List (Entry α)) :=
  match rest with
  | [] => nesting.finish.map fun _ => []
  | command :: later =>
      match nesting.read commands index command with
      | .error error => .error error
      | .ok (level, after) =>
          (outlineFrom commands (index + 1) after later).map (⟨command, level⟩ :: ·)

/-- The commands with their levels, or the first structural error. -/
def outline? (commands : List α) : Except BuildError (List (Entry α)) :=
  outlineFrom commands 0 {} commands

end StepFlow
