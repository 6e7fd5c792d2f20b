import StepFlow.CaseFile
import StepFlow.Graph.Listing
import StepFlow.Linking

/-!
# Verdicts

A case is run by building the graph of its commands and comparing what that gives with what the
case expects.  Layout does not count: two texts agree when their lines agree word by word, blank
lines apart.
-/

namespace StepFlow

open Text (lines unlines words)

inductive Verdict where
  | pass
  | skip (reason : String)
  /-- A graph was expected and an error was given, or the other way round. -/
  | wrongOutcome (expected actual : Expectation)
  /-- The outcome is right and the texts disagree, first in the line of the given number. -/
  | mismatch (expected actual : String) (line : Nat)
  deriving DecidableEq, Repr

namespace Verdict

def isPass : Verdict → Bool
  | pass => true
  | _ => false

def isFail : Verdict → Bool
  | wrongOutcome _ _ | mismatch _ _ _ => true
  | _ => false

end Verdict

/-- The lines of a text, each as its words, without the lines that have none. -/
def wordLines (text : List Char) : List (List (List Char)) :=
  ((lines text).map words).filter fun line => !line.isEmpty

/-- The text with its layout taken off: one blank between words, no blank lines. -/
def squash (text : String) : String :=
  String.ofList (unlines ((wordLines text.toList).map [' '].intercalate))

/-- The number, counted from one, of the first line in which two texts disagree.  When one text
begins with the other, it is the number of the first line that only one of them has. -/
def firstDifference : (left right : List CaseFile.Line) → Nat
  | left :: lefts, right :: rights =>
      if left = right then firstDifference lefts rights + 1 else 1
  | _, _ => 1

/-- What building the graph of the commands gives. -/
def Expectation.ofCommands (commands : List String) : Expectation :=
  match Graph.build? commands with
  | .ok built => .graph built.listing
  | .error reason => .error reason.message

namespace Verdict

/-- The verdict on two texts of the same outcome. -/
def ofTexts (expected actual : String) : Verdict :=
  if expected = actual then .pass
  else .mismatch expected actual (firstDifference (lines expected.toList) (lines actual.toList))

/-- Compares what a case expects with what it has given. -/
def compare (expected actual : Expectation) : Verdict :=
  match expected, actual with
  | .graph expected, .graph actual | .error expected, .error actual =>
      ofTexts (squash expected) (squash actual)
  | expected, actual => .wrongOutcome (expected.map squash) (actual.map squash)

end Verdict

def Case.run (case : Case) : Verdict :=
  match case.skip with
  | some reason => .skip reason
  | none => .compare case.expected (.ofCommands case.commands)

end StepFlow
