import StepFlow.Command
import StepFlow.Graph

/-!
# Listings

The plain text of a graph: one line per node with its position, its command's name, its level and
where a run goes from it.

    0 if L0 right=1 left=2
    1 click L1 next=2
    2 end L0
-/

namespace StepFlow

variable {α : Type} [Step α]

def Link.listing : Link → String
  | next target => " next=" ++ toString target
  | branch left right => " right=" ++ toString right ++ " left=" ++ toString left
  | terminal => ""

/-- The line of the node at `id`. -/
def Node.listing (id : NodeId) (node : Node α) : String :=
  toString id ++ " " ++ Step.name node.command ++ " L" ++ toString node.level ++ node.link.listing

/-- The lines of a graph, joined by line feeds. -/
def Graph.listing (graph : Graph α) : String :=
  "\n".intercalate (graph.nodes.zipIdx.map fun (node, id) => node.listing id)

end StepFlow
