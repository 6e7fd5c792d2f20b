/-!
# Control-flow graphs

A graph holds one node per command of a test, in the order of the commands; a node's identifier is
the position of its command.  A run of the test leaves a node either unconditionally, or by a
choice between two targets, or not at all.
-/

namespace StepFlow

/-- The position of a node in its graph. -/
abbrev NodeId := Nat

/-- How a run leaves a node. -/
inductive Link where
  | next (target : NodeId)
  /-- `right` when the node's condition holds, `left` when it does not. -/
  | branch (left right : NodeId)
  /-- A run ends here. -/
  | terminal
  deriving DecidableEq, Repr

/-- Every node that a link can lead to. -/
def Link.targets : Link → List NodeId
  | next target => [target]
  | branch left right => [right, left]
  | terminal => []

/-- The outgoing pointers of a node. -/
structure Wires where
  /-- The unconditional continuation. -/
  next : Option NodeId := none
  /-- Where a run goes when the condition does not hold. -/
  left : Option NodeId := none
  /-- Where a run goes when the condition holds. -/
  right : Option NodeId := none
  deriving DecidableEq, Repr

/-- A node: a command, its nesting level and its pointers. -/
structure Node (α : Type) extends Wires where
  command : α
  level : Nat
  deriving DecidableEq, Repr

/-- An unconditional continuation takes precedence; a branch needs both of its targets. -/
def Wires.link (wires : Wires) : Link :=
  match wires.next, wires.left, wires.right with
  | some target, _, _ => .next target
  | none, some left, some right => .branch left right
  | _, _, _ => .terminal

/-- Whether a run has to evaluate a condition at this node. -/
def Wires.isBranch (wires : Wires) : Bool :=
  match wires.link with
  | .branch _ _ => true
  | _ => false

/-- The nodes of a test in the order of its commands. -/
structure Graph (α : Type) where
  nodes : List (Node α)
  deriving DecidableEq, Repr

namespace Graph

variable {α : Type}

def size (graph : Graph α) : Nat := graph.nodes.length

def isEmpty (graph : Graph α) : Bool := graph.nodes.isEmpty

def node? (graph : Graph α) (id : NodeId) : Option (Node α) := graph.nodes[id]?

/-- The nodes at which a run has to evaluate a condition. -/
def branches (graph : Graph α) : List NodeId :=
  (graph.nodes.zipIdx.filter fun (node, _) => node.isBranch).map Prod.snd

end Graph

end StepFlow
