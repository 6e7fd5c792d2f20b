import StepFlow.CaseFile.Verdict

/-!
# Tallies

The counts of a run over a case file, with the cases that failed, and the report about them.
-/

namespace StepFlow

/-- A case that failed, with the line that names it. -/
structure CaseFailure where
  name : String
  line : Nat
  verdict : Verdict
  deriving DecidableEq, Repr

structure Tally where
  passed : Nat := 0
  skipped : Nat := 0
  failures : List CaseFailure := []
  deriving DecidableEq, Repr

namespace Tally

def record (tally : Tally) (name : String) (line : Nat) : Verdict → Tally
  | .pass => { tally with passed := tally.passed + 1 }
  | .skip _ => { tally with skipped := tally.skipped + 1 }
  | verdict => { tally with failures := tally.failures ++ [⟨name, line, verdict⟩] }

def failed (tally : Tally) : Nat := tally.failures.length

def total (tally : Tally) : Nat := tally.passed + tally.failed + tally.skipped

def allPassed (tally : Tally) : Bool := tally.failures.isEmpty

/-- Runs the cases in order. -/
def ofCases (cases : List Case) : Tally :=
  cases.foldl (fun tally case => tally.record case.name case.line case.run) {}

end Tally

/-! ## The report -/

/-- The lines of a text in a report, with the line of number `mark` pointed at.  The first of the
given lines has the number `number`. -/
def markedLines (mark number : Nat) : List CaseFile.Line → List String
  | [] => []
  | line :: rest =>
      ("   " ++ (if number = mark then ">" else " ") ++ " " ++ String.ofList line) ::
        markedLines mark (number + 1) rest

namespace Verdict

open Text (lines)

/-- The report lines about one verdict. -/
def report : Verdict → List String
  | wrongOutcome expected actual =>
      ("  expected " ++ expected.outcome ++ ", got " ++ actual.outcome) ::
        (lines actual.display.toList).map fun line => "    " ++ String.ofList line
  | mismatch expected actual line =>
      ["  output differs from line " ++ toString line, "  expected:"] ++
        markedLines line 1 (lines expected.toList) ++ ["  actual:"] ++
        markedLines line 1 (lines actual.toList)
  | pass | skip _ => []

end Verdict

def CaseFailure.report (failure : CaseFailure) : List String :=
  ["", failure.name ++ " (line " ++ toString failure.line ++ ")"] ++ failure.verdict.report

namespace Tally

def reportLines (tally : Tally) : List String :=
  ["", toString tally.total ++ " graph cases: " ++ toString tally.passed ++ " passed, " ++
      toString tally.failed ++ " failed, " ++ toString tally.skipped ++ " skipped"] ++
    tally.failures.flatMap CaseFailure.report

/-- The report, every line of which ends with a line feed. -/
def report (tally : Tally) : String :=
  String.join (tally.reportLines.map (· ++ "\n"))

end Tally

end StepFlow
