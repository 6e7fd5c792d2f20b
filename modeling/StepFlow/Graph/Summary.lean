import StepFlow.Command
import StepFlow.Graph

/-!
# Summaries

A summary is a graph as data to be exported: every node with the name of its command and with its
pointers as they are stored.
-/

namespace StepFlow

structure NodeSummary where
  index : NodeId
  name : String
  level : Nat
  wires : Wires
  deriving DecidableEq, Repr

/-- The nodes of a graph, in order. -/
structure GraphSummary where
  nodes : List NodeSummary
  deriving DecidableEq, Repr

variable {α : Type} [Step α]

def Node.summary (id : NodeId) (node : Node α) : NodeSummary :=
  { index := id, name := Step.name node.command, level := node.level, wires := node.toWires }

def Graph.summary (graph : Graph α) : GraphSummary where
  nodes := graph.nodes.zipIdx.map fun (node, id) => node.summary id

end StepFlow
