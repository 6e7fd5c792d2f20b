import StepFlow.Text.Blank
import StepFlow.Text.Lines

/-!
# Case files

A case file holds command lists together with the graph, or the error, that each of them is
expected to give.

    # test: name
    # expect: ok
    # skip: reason
    ---
    one command name per line
    ---
    the expected text
    ===

Lines before the first case and between cases are comments.  A case that the end of the file cuts
off is read as far as it goes.  Main definition: `CaseFile.parse`.
-/

namespace StepFlow

open Text (trim after? lines unlines)

/-- What building the graph of a command list is expected to give, or has given. -/
inductive Expectation where
  | graph (listing : String)
  | error (message : String)
  deriving DecidableEq, Repr

namespace Expectation

def outcome : Expectation → String
  | graph _ => "a graph"
  | error _ => "an error"

/-- The listing or the message itself. -/
def text : Expectation → String
  | graph listing => listing
  | error message => message

/-- The text as a report shows it. -/
def display : Expectation → String
  | graph listing => listing
  | error message => "error: " ++ message

def map (change : String → String) : Expectation → Expectation
  | graph listing => graph (change listing)
  | error message => error (change message)

end Expectation

/-- One case of a case file. -/
structure Case where
  name : String
  /-- The number of the line that names the case, counted from one. -/
  line : Nat
  commands : List String
  expected : Expectation
  /-- Why the case is not to be run, if it is not. -/
  skip : Option String
  deriving DecidableEq, Repr

namespace CaseFile

abbrev Line := List Char

/-- A case that is being read. -/
structure Draft where
  name : String
  line : Nat
  expectsGraph : Bool := true
  skip : Option String := none
  commands : List String := []
  expected : List Line := []

/-- The part of the file in which a line stands. -/
inductive Place where
  | outside
  | header (draft : Draft)
  | commands (draft : Draft)
  | expected (draft : Draft)

namespace Draft

/-- Takes in a header line; the last of several lines for one purpose counts. -/
def readHeader (draft : Draft) (line : Line) : Draft :=
  match after? "# expect:".toList line with
  | some outcome => { draft with expectsGraph := trim outcome == "ok".toList }
  | none =>
      match after? "# skip:".toList line with
      | some reason => { draft with skip := some (String.ofList (trim reason)) }
      | none => draft

/-- Takes in a command line; a blank one is no command. -/
def readCommand (draft : Draft) (line : Line) : Draft :=
  if line.isEmpty then draft
  else { draft with commands := draft.commands ++ [String.ofList line] }

def readExpected (draft : Draft) (line : Line) : Draft :=
  { draft with expected := draft.expected ++ [line] }

/-- The case as far as it has been read. -/
def toCase (draft : Draft) : Case :=
  let text := String.ofList (trim (unlines draft.expected))
  { name := draft.name
    line := draft.line
    commands := draft.commands
    expected := if draft.expectsGraph then .graph text else .error text
    skip := draft.skip }

end Draft

namespace Place

/-- Reads the trimmed line with the given number: the place after it, and the case that it ends. -/
def read (number : Nat) (line : Line) : Place → Place × Option Case
  | outside =>
      match after? "# test:".toList line with
      | some name => (header { name := String.ofList (trim name), line := number }, none)
      | none => (outside, none)
  | header draft =>
      if line = "---".toList then (commands draft, none) else (header (draft.readHeader line), none)
  | commands draft =>
      if line = "---".toList then (expected draft, none)
      else (commands (draft.readCommand line), none)
  | expected draft =>
      if line = "===".toList then (outside, some draft.toCase)
      else (expected (draft.readExpected line), none)

/-- The case that the end of the file cuts off here. -/
def cutOff : Place → Option Case
  | outside => none
  | header draft | commands draft | expected draft => some draft.toCase

end Place

/-- The cases that end in the given lines, the first of which has the given number. -/
def casesFrom (number : Nat) (place : Place) : List Line → List Case
  | [] => place.cutOff.toList
  | line :: rest =>
      let (after, ended) := place.read number (trim line)
      ended.toList ++ casesFrom (number + 1) after rest

/-- The cases of a file, in order. -/
def parse (text : String) : List Case := casesFrom 1 .outside (lines text.toList)

end CaseFile

end StepFlow
