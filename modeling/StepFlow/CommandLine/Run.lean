import StepFlow.CommandLine.Arguments
import StepFlow.CommandLine.Failure
import StepFlow.Graph.Listing
import StepFlow.Graph.Summary
import StepFlow.Linking
import StepFlow.Recording.Suite

/-!
# Runs

What the two subcommands write about the tests of a file.  `check` reports on every test.  `graph`
prints the graphs one after the other and fails at the first test without one; in JSON form nothing
is written before all graphs are built.
Main definitions: `Task.run`, `checkTests` and `graphTests`.
-/

namespace StepFlow

/-- What a run has written, and how it ended: whether all is well, or why it failed. -/
structure Report where
  out : String
  result : Except Failure Bool

/-- The settings in a configuration file. -/
def Settings.ofFile (path : String) (content : Except FileFault String) :
    Except Failure Settings :=
  match content with
  | .error fault => .error (.configUnreadable path fault)
  | .ok text =>
      match Settings.read? text with
      | some settings => .ok settings
      | none => .error (.configInvalid path)

/-- The tests in a file.  A test without a name of its own is named after the file. -/
def Suite.ofFile (path : String) (content : Except FileFault String) :
    Except Failure (List RecordedTest) :=
  match content with
  | .error fault => .error (.fileUnreadable path fault)
  | .ok text =>
      match Suite.read text ((fileStem? path).getD "commands") with
      | .ok tests => .ok tests
      | .error error => .error (.fileInvalid path error)

/-! ## Checking -/

/-- Reports on the tests, one line per test, after `out` has been written; `valid` tells whether all
is well so far. -/
def checkFrom (out : String) (valid : Bool) : List RecordedTest → Report
  | [] => ⟨out, .ok valid⟩
  | test :: tests =>
      match Graph.build? test.commands with
      | .ok graph =>
          let line := "ok     " ++ test.name ++ " (" ++ toString graph.size ++ " commands)"
          checkFrom (out ++ line ++ "\n") valid tests
      | .error error =>
          let line := "error  " ++ test.name ++ ": " ++ error.message
          checkFrom (out ++ line ++ "\n") false tests

/-- Reports on every test; all is well if all of them are valid. -/
def checkTests (tests : List RecordedTest) : Report := checkFrom "" true tests

/-! ## Printing graphs -/

/-- The text about the graph of a test: its name, and the listing unless it is empty. -/
def graphText (name : String) (graph : Graph Command) : String :=
  "# " ++ name ++ "\n" ++ if graph.listing.isEmpty then "" else graph.listing ++ "\n"

/-- A node as JSON.  Pointers that the node does not have are left out. -/
def NodeSummary.json (summary : NodeSummary) : Json.Value :=
  let pointer (name : String) (target : Option NodeId) : List (String × Json.Value) :=
    target.toList.map fun id => (name, .nat id)
  .object
    ([("index", .nat summary.index), ("name", .string summary.name), ("level", .nat summary.level)]
      ++ pointer "next" summary.wires.next ++ pointer "left" summary.wires.left
      ++ pointer "right" summary.wires.right)

/-- The graph of a test as JSON. -/
def graphJson (name : String) (graph : Graph Command) : Json.Value :=
  .object [("name", .string name), ("nodes", .array (graph.summary.nodes.map NodeSummary.json))]

/-- Prints the graphs after `out` has been written, one listing per test. -/
def graphTexts (out : String) : List RecordedTest → Report
  | [] => ⟨out, .ok true⟩
  | test :: tests =>
      match Graph.build? test.commands with
      | .error error => ⟨out, .error (.invalidFlow test.name error)⟩
      | .ok graph => graphTexts (out ++ graphText test.name graph) tests

/-- The graphs of the tests as JSON values, or the first failure. -/
def graphJsons : List RecordedTest → Except Failure (List Json.Value)
  | [] => .ok []
  | test :: tests =>
      match Graph.build? test.commands with
      | .error error => .error (.invalidFlow test.name error)
      | .ok graph => (graphJsons tests).map (graphJson test.name graph :: ·)

/-- Prints the graphs of the tests. -/
def graphTests (format : OutputFormat) (tests : List RecordedTest) : Report :=
  match format with
  | .text => graphTexts "" tests
  | .json =>
      match graphJsons tests with
      | .error failure => ⟨"", .error failure⟩
      | .ok values => ⟨String.ofList (Json.Tree.pretty 0 (.array values)) ++ "\n", .ok true⟩

/-- The tests with the given name, or all tests.  A name that no test has is a failure. -/
def selectTests (path : String) (name : Option String) (tests : List RecordedTest) :
    Except Failure (List RecordedTest) :=
  match name with
  | none => .ok tests
  | some name =>
      match tests.filter fun test => test.name == name with
      | [] => .error (.noSuchTest name path)
      | selected => .ok selected

/-- The file that a task works on. -/
def Task.file : Task → String
  | check file => file
  | graph file _ _ => file

/-- Runs a task on the content of its file. -/
def Task.run (task : Task) (settings : Settings) (content : Except FileFault String) : Report :=
  match Suite.ofFile task.file content with
  | .error failure => ⟨"", .error failure⟩
  | .ok tests =>
      match task with
      | .check _ => checkTests tests
      | .graph path name format =>
          match selectTests path name tests with
          | .error failure => ⟨"", .error failure⟩
          | .ok tests => graphTests (format.getD settings.format) tests

end StepFlow
