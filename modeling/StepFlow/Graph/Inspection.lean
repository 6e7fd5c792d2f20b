import StepFlow.BuildError
import StepFlow.Graph.Summary
import StepFlow.Graph.Walk
import StepFlow.Text.Quoted
import StepFlow.Text.Shape

/-!
# Inspection

The shapes under which roles, errors, graphs, cursors and summaries are shown to someone who looks
into them.
-/

namespace StepFlow

open Text (Shape quote)

def Opener.title (opener : Opener) : String := opener.keyword.title

def Arm.title (arm : Arm) : String := arm.keyword.title

def LoopTest.title (test : LoopTest) : String := test.keyword.title

def Role.shape : Role → Shape
  | opening opener => .tuple "Opening" [.atom opener.title]
  | branchArm arm => .tuple "BranchArm" [.atom arm.title]
  | loopTest test => .tuple "LoopTest" [.atom test.title]
  | blockEnd => .atom "BlockEnd"
  | ordinary => .atom "Ordinary"

def Misplacement.title : Misplacement → String
  | elseOutsideIf => "ElseOutsideIf"
  | repeatIfWithoutDo => "RepeatIfWithoutDo"
  | endWithoutOpening => "EndWithoutOpening"

def ArmDisorder.title : ArmDisorder → String
  | tooManyElse => "TooManyElse"
  | elseIfAfterElse => "ElseIfAfterElse"

namespace BuildError

def title : BuildError → String
  | unclosedBlock _ _ => "MalformedBlock"
  | misplacedKeyword _ _ _ => "MisplacedKeyword"
  | armDisorder _ _ => "InvalidElseOrder"

/-- The title of the detail that an error carries. -/
def reasonTitle? : BuildError → Option String
  | unclosedBlock _ _ => none
  | misplacedKeyword _ _ reason => some reason.title
  | armDisorder _ reason => some reason.title

def shape (error : BuildError) : Shape :=
  .record error.title
    (error.keyword?.toList.map (fun keyword => ("keyword", .atom keyword.title)) ++
      [("index", .nat error.index)] ++
      error.reasonTitle?.toList.map (fun reason => ("reason", .atom reason)))

end BuildError

def NodeId.shape (id : NodeId) : Shape := .tuple "NodeId" [.nat id]

def Link.shape : Link → Shape
  | next target => .tuple "Next" [NodeId.shape target]
  | branch left right =>
      .record "Branch" [("left", NodeId.shape left), ("right", NodeId.shape right)]
  | terminal => .atom "Terminal"

def NodeSummary.shape (summary : NodeSummary) : Shape :=
  .record "NodeSummary" [
    ("index", .nat summary.index),
    ("name", .atom (quote summary.name)),
    ("level", .nat summary.level),
    ("next", .option (summary.wires.next.map .nat)),
    ("left", .option (summary.wires.left.map .nat)),
    ("right", .option (summary.wires.right.map .nat))]

def GraphSummary.shape (summary : GraphSummary) : Shape :=
  .record "GraphSummary" [("nodes", .list (summary.nodes.map NodeSummary.shape))]

variable {α : Type} [Step α]

def Node.shape (node : Node α) : Shape :=
  .tuple "" [.atom (quote (Step.name node.command)), .nat node.level, node.link.shape]

def Graph.shape (graph : Graph α) : Shape := .list (graph.nodes.map Node.shape)

def Cursor.shape {graph : Graph α} (cursor : Cursor graph) : Shape :=
  .record "NodeRef" [
    ("id", NodeId.shape cursor.id),
    ("name", .atom (quote (Step.name cursor.node.command))),
    ("level", .nat cursor.node.level),
    ("link", cursor.link.shape)]

end StepFlow
