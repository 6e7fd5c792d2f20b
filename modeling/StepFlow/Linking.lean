import StepFlow.Graph
import StepFlow.Outline

/-!
# Linking

From an outline to the graph.  The entries are walked once more with a stack of the open blocks,
and each node is given its pointers:

* `do` and `else` continue with their body;
* `if` and `elseIf` lead right into their body and left to the next arm or the `end`;
* `while` and `times` lead right into their body and left to their `end`;
* a `while` that closes a `do` leads right to the `do` and left to its `end`;
* an `end` inside a block continues with the following step, or with the `end` of that block when
  a keyword follows;
* any other command continues with the following one, unless it is the last step of an arm, which
  leads to the `end` of the `if`, or of a loop that is tested first, which leads back to the test.

The last node and the `end` of a block that stands in no other block lead nowhere.
Main definition: `Graph.build?`.
-/

namespace StepFlow

/-- An open block as linking sees it. -/
structure Frame where
  block : Block
  level : Nat
  /-- The node of the opening command. -/
  header : NodeId
  deriving DecidableEq, Repr

section Searching

variable {α : Type} [Step α]

/-- The first of the entries `later`, which start at position `start`, that lies at `level`. -/
def firstAt? (level start : Nat) (later : List (Entry α)) : Option NodeId :=
  (later.findIdx? fun entry => entry.level == level).map (start + ·)

/-- The first `end` at `level` of the entries `later`, which start at position `start`. -/
def firstEndAt? (level start : Nat) (later : List (Entry α)) : Option NodeId :=
  (later.findIdx? fun entry => entry.level == level && (Step.role entry.command).isEnd).map
    (start + ·)

end Searching

namespace Wires

def continuing (target : Option NodeId) : Wires := { next := target }

def branching (right : NodeId) (left : Option NodeId) : Wires := { left, right := some right }

end Wires

section Wiring

variable {α : Type} [Step α]

/-- The pointers of the node at `id` and the open blocks after it.  The entry is followed by
`following` and then by `rest`. -/
def wire (id : NodeId) (frames : List Frame) (entry following : Entry α) (rest : List (Entry α)) :
    Wires × List Frame :=
  let start := id + 1
  let later := following :: rest
  let coming := Step.role following.command
  match Step.role entry.command with
  | .opening .doLoop =>
      (.continuing (some start), ⟨.doLoop, entry.level, id⟩ :: frames)
  | .opening .ifBlock =>
      (.branching start (firstAt? entry.level start later), ⟨.ifBlock, entry.level, id⟩ :: frames)
  | .opening .timesLoop =>
      (.branching start (firstEndAt? entry.level start later),
        ⟨.timesLoop, entry.level, id⟩ :: frames)
  | .branchArm .otherwise => (.continuing (some start), frames)
  | .branchArm .elseIf => (.branching start (firstAt? entry.level start later), frames)
  | .loopTest .whileTest =>
      match frames with
      | ⟨.doLoop, level, header⟩ :: _ =>
          (.branching header (firstEndAt? level start later), frames)
      | _ =>
          (.branching start (firstEndAt? entry.level start later),
            ⟨.whileLoop, entry.level, id⟩ :: frames)
  | .blockEnd =>
      match frames.tail with
      | [] => ({}, [])
      | frame :: outer =>
          if coming.isControlFlow then
            (.continuing (firstEndAt? frame.level start later), frame :: outer)
          else (.continuing (some start), frame :: outer)
  | .ordinary | .loopTest .repeatIf =>
      match frames with
      | [] => (.continuing (some start), [])
      | frame :: outer =>
          if frame.block = .ifBlock ∧ (coming.isBranchArm ∨ coming.isEnd) then
            (.continuing (firstEndAt? frame.level start later), frame :: outer)
          else if frame.block.testsFirst ∧ coming.isControlFlow then
            (.continuing (some frame.header), frame :: outer)
          else (.continuing (some start), frame :: outer)

/-- Links the entries from position `id` on. -/
def linkFrom (id : NodeId) (frames : List Frame) (entries : List (Entry α)) : List (Node α) :=
  match entries with
  | [] => []
  | [last] => [{ command := last.command, level := last.level }]
  | entry :: following :: rest =>
      let wired := wire id frames entry following rest
      { wired.1 with command := entry.command, level := entry.level } ::
        linkFrom (id + 1) wired.2 (following :: rest)

/-- The graph of an outline. -/
def Graph.ofOutline (entries : List (Entry α)) : Graph α := ⟨linkFrom 0 [] entries⟩

/-- The control-flow graph of a test, or the first structural error in it. -/
def Graph.build? (commands : List α) : Except BuildError (Graph α) :=
  (outline? commands).map Graph.ofOutline

end Wiring

end StepFlow
