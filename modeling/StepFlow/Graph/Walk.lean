import StepFlow.Graph

/-!
# Walking a graph

A cursor stands on a node.  A run moves a cursor along the links and makes a choice at every
branch.
-/

namespace StepFlow

variable {α : Type}

/-- A position in a graph. -/
structure Cursor (graph : Graph α) where
  id : NodeId
  inside : id < graph.size

theorem Cursor.ext_id {graph : Graph α} {left right : Cursor graph} (hid : left.id = right.id) :
    left = right := by
  cases left
  cases right
  cases hid
  rfl

instance (graph : Graph α) : DecidableEq (Cursor graph) := fun left right =>
  if hid : left.id = right.id then isTrue (Cursor.ext_id hid)
  else isFalse fun heq => hid (congrArg Cursor.id heq)

namespace Graph

/-- The cursor at `id`, if the graph has such a node. -/
def cursor? (graph : Graph α) (id : NodeId) : Option (Cursor graph) :=
  if inside : id < graph.size then some ⟨id, inside⟩ else none

/-- Where a run starts.  An empty graph has no entry. -/
def entry? (graph : Graph α) : Option (Cursor graph) := graph.cursor? 0

/-- Cursors on every node, in order. -/
def cursors (graph : Graph α) : List (Cursor graph) :=
  (List.finRange graph.size).map fun id : Fin graph.size => ⟨id.val, id.isLt⟩

end Graph

namespace Cursor

variable {graph : Graph α}

def node (cursor : Cursor graph) : Node α := graph.nodes.get ⟨cursor.id, cursor.inside⟩

def link (cursor : Cursor graph) : Link := cursor.node.link

def next? (cursor : Cursor graph) : Option (Cursor graph) :=
  cursor.node.next.bind graph.cursor?

def left? (cursor : Cursor graph) : Option (Cursor graph) :=
  cursor.node.left.bind graph.cursor?

def right? (cursor : Cursor graph) : Option (Cursor graph) :=
  cursor.node.right.bind graph.cursor?

end Cursor

/-- Someone who walks a graph by hand: where they stand and which place they have marked. -/
structure Walker (graph : Graph α) where
  position : Option (Cursor graph) := none
  mark : Option (Cursor graph) := none

/-- A wish to move. -/
inductive Move where
  | entry
  | jump (id : NodeId)
  | next
  | left
  | right
  deriving DecidableEq, Repr

namespace Walker

variable {graph : Graph α}

/-- Where a move leads, if it leads anywhere. -/
def reach? (walker : Walker graph) : Move → Option (Cursor graph)
  | .entry => graph.entry?
  | .jump id => graph.cursor? id
  | .next => walker.position.bind Cursor.next?
  | .left => walker.position.bind Cursor.left?
  | .right => walker.position.bind Cursor.right?

/-- Moves the walker, who stays in place when the move leads nowhere. -/
def go (walker : Walker graph) (move : Move) : Walker graph :=
  { walker with position := (walker.reach? move).or walker.position }

def setMark (walker : Walker graph) : Walker graph := { walker with mark := walker.position }

/-- Whether the walker stands on the mark; having neither position nor mark counts as well. -/
def onMark (walker : Walker graph) : Bool := decide (walker.position = walker.mark)

end Walker

/-- A decision at a branch. -/
inductive Choice where
  | left
  | right
  deriving DecidableEq, Repr

/-- Why a run stopped. -/
inductive Stop where
  /-- There is no node to go to. -/
  | finished
  /-- The trace is as long as it may be. -/
  | full
  /-- A branch was reached and no choice is left for it. -/
  | undecided
  deriving DecidableEq, Repr

/-- Plays a graph from a cursor: the visited nodes, at most `room` of them, and why it stopped.
A branch consumes the next choice. -/
def Graph.play (graph : Graph α) (room : Nat) (cursor? : Option (Cursor graph))
    (choices : List Choice) : List NodeId × Stop :=
  match room, cursor? with
  | _, none => ([], .finished)
  | 0, some _ => ([], .full)
  | room + 1, some cursor =>
      match cursor.link, choices with
      | .next target, choices => visit cursor (graph.play room (graph.cursor? target) choices)
      | .branch _ _, [] => ([cursor.id], .undecided)
      | .branch left _, .left :: choices =>
          visit cursor (graph.play room (graph.cursor? left) choices)
      | .branch _ right, .right :: choices =>
          visit cursor (graph.play room (graph.cursor? right) choices)
      | .terminal, _ => ([cursor.id], .finished)
where
  visit (cursor : Cursor graph) (later : List NodeId × Stop) : List NodeId × Stop :=
    (cursor.id :: later.1, later.2)

end StepFlow
