import StepFlow.CommandLine.Run
import StepFlow.Proofs.Finishing

/-!
# Reports on the tests of a file

A check goes through all tests of a file and writes a record about each of them.  Printing graphs
goes through the same tests and stops at the first one that has no graph; by then the text form has
written the graphs before it, and the JSON form nothing.  Each of the three loops is described once,
by what it makes of a list of tests that continues another one.
Main statement: `check_and_graph_agree`.
-/

namespace StepFlow

namespace RecordedTest

/-- The commands of the test can be arranged into a graph. -/
def isValid (test : RecordedTest) : Bool := (Graph.build? test.commands).isOk

/-- The record about one test in a check. -/
def record (test : RecordedTest) : String :=
  match Graph.build? test.commands with
  | .ok _ => "ok     " ++ test.name ++ " (" ++ toString test.commands.length ++ " commands)"
  | .error error => "error  " ++ test.name ++ ": " ++ error.message

/-- The records about some tests, each on a line of its own. -/
def records (tests : List RecordedTest) : String :=
  String.join (tests.map fun test => test.record ++ "\n")

end RecordedTest

open RecordedTest (records)

variable {test : RecordedTest} {tests front back : List RecordedTest} {out : String}
  {error : BuildError}

namespace RecordedTest

theorem isValid_eq_true_iff :
    test.isValid = true ↔ ∃ graph, Graph.build? test.commands = .ok graph := by
  rw [isValid]
  cases Graph.build? test.commands with
  | ok graph => simp [Except.isOk, Except.toBool]
  | error error => simp [Except.isOk, Except.toBool]

theorem isValid_eq_false_iff :
    test.isValid = false ↔ ∃ error, Graph.build? test.commands = .error error := by
  rw [isValid]
  cases Graph.build? test.commands with
  | ok graph => simp [Except.isOk, Except.toBool]
  | error error => simp [Except.isOk, Except.toBool]

theorem records_cons (test : RecordedTest) (tests : List RecordedTest) :
    records (test :: tests) = test.record ++ "\n" ++ records tests := by
  rw [records, List.map_cons, String.join_cons]
  rfl

/-- Of tests that are not all valid, there is a first one whose commands make an error. -/
theorem exists_first_error (hinvalid : tests.all isValid = false) :
    ∃ front test back error, tests = front ++ test :: back ∧ front.all isValid = true ∧
      Graph.build? test.commands = .error error := by
  obtain ⟨test, hfound⟩ : ∃ test, tests.find? (fun test => !test.isValid) = some test := by
    rw [← Option.isSome_iff_exists, List.find?_isSome]
    simpa using hinvalid
  rw [List.find?_eq_some_iff_append, Bool.not_eq_true'] at hfound
  obtain ⟨htest, front, back, hsplit, hfront⟩ := hfound
  obtain ⟨error, herror⟩ := isValid_eq_false_iff.mp htest
  exact ⟨front, test, back, error, hsplit, by simpa using hfront, herror⟩

end RecordedTest

/-! ## Checking -/

theorem checkFrom_cons (out : String) (valid : Bool) (test : RecordedTest)
    (tests : List RecordedTest) :
    checkFrom out valid (test :: tests) =
      checkFrom (out ++ test.record ++ "\n") (valid && test.isValid) tests := by
  rw [checkFrom, RecordedTest.record, RecordedTest.isValid]
  cases hbuild : Graph.build? test.commands with
  | ok graph => simp [size_of_build? hbuild, Except.isOk, Except.toBool]
  | error error => simp [Except.isOk, Except.toBool]

theorem checkFrom_eq (out : String) (valid : Bool) (tests : List RecordedTest) :
    checkFrom out valid tests =
      ⟨out ++ records tests, .ok (valid && tests.all RecordedTest.isValid)⟩ := by
  induction tests generalizing out valid with
  | nil => simp [checkFrom, records]
  | cons test tests ih =>
      rw [checkFrom_cons, ih, RecordedTest.records_cons, List.all_cons, Bool.and_assoc]
      simp only [String.append_assoc]

theorem checkTests_eq (tests : List RecordedTest) :
    checkTests tests = ⟨records tests, .ok (tests.all RecordedTest.isValid)⟩ := by
  rw [checkTests, checkFrom_eq, String.empty_append, Bool.true_and]

theorem result_checkTests_eq_ok_true_iff :
    (checkTests tests).result = .ok true ↔ tests.all RecordedTest.isValid = true := by
  rw [checkTests_eq, Except.ok.injEq]

/-! ## Printing graphs -/

theorem graphTexts_append (hfront : front.all RecordedTest.isValid = true) (out : String)
    (back : List RecordedTest) :
    graphTexts out (front ++ back) = graphTexts (graphTexts out front).out back := by
  induction front generalizing out with
  | nil => rfl
  | cons test front ih =>
      rw [List.all_cons, Bool.and_eq_true] at hfront
      obtain ⟨graph, hgraph⟩ := RecordedTest.isValid_eq_true_iff.mp hfront.1
      simp only [List.cons_append, graphTexts, hgraph, ih hfront.2]

theorem result_graphTexts (hvalid : tests.all RecordedTest.isValid = true) (out : String) :
    (graphTexts out tests).result = .ok true := by
  induction tests generalizing out with
  | nil => rfl
  | cons test tests ih =>
      rw [List.all_cons, Bool.and_eq_true] at hvalid
      obtain ⟨graph, hgraph⟩ := RecordedTest.isValid_eq_true_iff.mp hvalid.1
      simp only [graphTexts, hgraph, ih hvalid.2]

theorem graphTexts_of_error (herror : Graph.build? test.commands = .error error) :
    graphTexts out (test :: tests) = ⟨out, .error (.invalidFlow test.name error)⟩ := by
  simp only [graphTexts, herror]

theorem exists_graphJsons (hvalid : tests.all RecordedTest.isValid = true) :
    ∃ values, graphJsons tests = .ok values := by
  induction tests with
  | nil => exact ⟨[], rfl⟩
  | cons test tests ih =>
      rw [List.all_cons, Bool.and_eq_true] at hvalid
      obtain ⟨graph, hgraph⟩ := RecordedTest.isValid_eq_true_iff.mp hvalid.1
      obtain ⟨values, hvalues⟩ := ih hvalid.2
      exact ⟨graphJson test.name graph :: values, by simp only [graphJsons, hgraph, hvalues]; rfl⟩

theorem graphJsons_of_error (hfront : front.all RecordedTest.isValid = true)
    (herror : Graph.build? test.commands = .error error) :
    graphJsons (front ++ test :: back) = .error (.invalidFlow test.name error) := by
  induction front with
  | nil => simp only [List.nil_append, graphJsons, herror]
  | cons earlier front ih =>
      rw [List.all_cons, Bool.and_eq_true] at hfront
      obtain ⟨graph, hgraph⟩ := RecordedTest.isValid_eq_true_iff.mp hfront.1
      simp only [List.cons_append, graphJsons, hgraph, ih hfront.2]
      rfl

theorem result_graphTests (hvalid : tests.all RecordedTest.isValid = true)
    (format : OutputFormat) : (graphTests format tests).result = .ok true := by
  cases format with
  | text => exact result_graphTexts hvalid ""
  | json =>
      obtain ⟨values, hvalues⟩ := exists_graphJsons hvalid
      simp only [graphTests, hvalues]

/-- Printing stops at the first test that has no graph.  The text form has written the graphs of
the tests before it, and the JSON form nothing. -/
theorem graphTests_of_error (hfront : front.all RecordedTest.isValid = true)
    (herror : Graph.build? test.commands = .error error) (format : OutputFormat) :
    graphTests format (front ++ test :: back) =
      { out := match format with
          | .text => (graphTests .text front).out
          | .json => ""
        result := .error (.invalidFlow test.name error) } := by
  cases format with
  | text => rw [graphTests, graphTexts_append hfront, graphTexts_of_error herror, graphTests]
  | json => simp only [graphTests, graphJsons_of_error hfront herror]

theorem isOk_graphTests_iff (format : OutputFormat) (tests : List RecordedTest) :
    (graphTests format tests).result.isOk = true ↔ (checkTests tests).result = .ok true := by
  rw [result_checkTests_eq_ok_true_iff]
  cases hvalid : tests.all RecordedTest.isValid with
  | true => simp [result_graphTests hvalid, Except.isOk, Except.toBool]
  | false =>
      obtain ⟨front, test, back, error, rfl, hfront, herror⟩ :=
        RecordedTest.exists_first_error hvalid
      simp [graphTests_of_error hfront herror, Except.isOk, Except.toBool]

/-- The first test whose record is an error is the one at which printing stops. -/
theorem exists_first_failure (hcheck : (checkTests tests).result ≠ .ok true) :
    ∃ front test back error, tests = front ++ test :: back ∧
      (checkTests front).result = .ok true ∧ Graph.build? test.commands = .error error ∧
      test.record = "error  " ++ test.name ++ ": " ++ error.message ∧
      ∀ format, graphTests format tests =
        { out := match format with
            | .text => (graphTests .text front).out
            | .json => ""
          result := .error (.invalidFlow test.name error) } := by
  rw [Ne, result_checkTests_eq_ok_true_iff, Bool.not_eq_true] at hcheck
  obtain ⟨front, test, back, error, rfl, hfront, herror⟩ := RecordedTest.exists_first_error hcheck
  have hrecord : test.record = "error  " ++ test.name ++ ": " ++ error.message := by
    simp only [RecordedTest.record, herror]
  exact ⟨front, test, back, error, rfl, result_checkTests_eq_ok_true_iff.mpr hfront, herror,
    hrecord, graphTests_of_error hfront herror⟩

/-! ## The two subcommands -/

theorem run_check {path : String} {content : Except FileFault String}
    (hread : Suite.ofFile path content = .ok tests) (settings : Settings) :
    (Task.check path).run settings content = checkTests tests := by
  simp only [Task.run, Task.file, hread]

theorem run_graph {path : String} {content : Except FileFault String}
    (hread : Suite.ofFile path content = .ok tests) (settings : Settings)
    (format : Option OutputFormat) :
    (Task.graph path none format).run settings content =
      graphTests (format.getD settings.format) tests := by
  simp only [Task.run, Task.file, hread, selectTests]

/-- A check writes a record about every test and tells whether all tests are valid.  Exactly then
their graphs can be printed.  Otherwise printing fails at the first test whose record is an error,
with that error, after the graphs of the tests before it, or after nothing in JSON form.  This is
what the two subcommands do with the tests of a file. -/
theorem check_and_graph_agree (tests : List RecordedTest) :
    checkTests tests = ⟨records tests, .ok (tests.all RecordedTest.isValid)⟩ ∧
      (∀ format, (graphTests format tests).result.isOk = true ↔
        (checkTests tests).result = .ok true) ∧
      ((checkTests tests).result ≠ .ok true →
        ∃ front test back error, tests = front ++ test :: back ∧
          (checkTests front).result = .ok true ∧ Graph.build? test.commands = .error error ∧
          test.record = "error  " ++ test.name ++ ": " ++ error.message ∧
          ∀ format, graphTests format tests =
            { out := match format with
                | .text => (graphTests .text front).out
                | .json => ""
              result := .error (.invalidFlow test.name error) }) ∧
      ∀ path content, Suite.ofFile path content = .ok tests → ∀ settings,
        (Task.check path).run settings content = checkTests tests ∧
          ∀ format, (Task.graph path none format).run settings content =
            graphTests (format.getD settings.format) tests := by
  constructor
  · exact checkTests_eq tests
  constructor
  · intro format
    exact isOk_graphTests_iff format tests
  constructor
  · exact exists_first_failure
  · intro path content hread settings
    exact ⟨run_check hread settings, run_graph hread settings⟩

/-- A file with a test of which an error is recorded between two valid ones. -/
def sampleFile : String :=
  "[[[null, \"a\"], \x7b\"name\": \"b\", \"commands\": [[null, \"if\"]]\x7d, [null, \"a\"]]]"

def sampleTests : List RecordedTest :=
  [{ name := "a" }, { name := "b", commands := [.ofName "if"] }, { name := "a" }]

theorem sample_check_and_graph_agree :
    (checkTests sampleTests).result ≠ .ok true ∧
      Suite.ofFile "shop.json" (.ok sampleFile) = .ok sampleTests ∧
      (Task.check "shop.json").run {} (.ok sampleFile) = checkTests sampleTests ∧
      ∃ front test back error, sampleTests = front ++ test :: back ∧
        Graph.build? test.commands = .error error ∧
        graphTests .text sampleTests =
          ⟨(graphTests .text front).out, .error (.invalidFlow test.name error)⟩ := by
  have hcheck : (checkTests sampleTests).result ≠ .ok true := by decide
  have hread : Suite.ofFile "shop.json" (.ok sampleFile) = .ok sampleTests := by decide +kernel
  obtain ⟨_, _, hfailure, hrun⟩ := check_and_graph_agree sampleTests
  obtain ⟨front, test, back, error, hsplit, _, herror, _, hgraph⟩ := hfailure hcheck
  exact ⟨hcheck, hread, (hrun _ _ hread {}).1, front, test, back, error, hsplit, herror,
    hgraph .text⟩

example : (checkTests sampleTests).out =
    "ok     a (0 commands)\nerror  b: incomplete block at if (command 0)\n" ++
      "ok     a (0 commands)\n" := by
  decide

end StepFlow
