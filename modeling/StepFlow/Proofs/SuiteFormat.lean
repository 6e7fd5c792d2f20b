import Mathlib.Data.List.Forall2
import StepFlow.Recording.Suite

/-!
# Recorded suites are unambiguous

A value is a suite or a bare list of commands, but never both, although lists may stand for objects
in both of them.  Only a list `[x]` could be either, and then `x` would be a list of tests and a
command at once.  The second item of a command that is written as a list is its name, a string, and
a string is no test.

So it does not matter which reading is tried first, and the fallback name matters only for what is
read as a bare list.
Main statement: `suite_format_is_unambiguous`.
-/

namespace StepFlow

open Json

namespace Recording

section Lists

variable {α : Type} {decode : Value → Option α} {items : List Value} {results : List α}
  {value : Value}

theorem mapM_eq_some_iff :
    items.mapM decode = some results ↔
      List.Forall₂ (fun item result => decode item = some result) items results := by
  induction items generalizing results with
  | nil =>
      rw [List.mapM_nil, List.forall₂_nil_left_iff]
      exact ⟨fun heq => (Option.some.inj heq).symm, fun heq => congrArg some heq.symm⟩
  | cons item items ih =>
      rw [List.forall₂_cons_left_iff, List.mapM_cons]
      simp only [Option.bind_eq_bind, Option.bind_eq_some_iff, Option.pure_def, Option.some.injEq,
        ih]
      constructor
      · rintro ⟨result, hitem, later, hlater, rfl⟩
        exact ⟨result, later, hitem, hlater, rfl⟩
      · rintro ⟨result, later, hitem, hlater, rfl⟩
        exact ⟨result, hitem, later, hlater, rfl⟩

theorem list?_eq_some_iff :
    list? decode value = some results ↔ ∃ items, value = .array items ∧
      List.Forall₂ (fun item result => decode item = some result) items results := by
  constructor
  · intro hlist
    cases value with
    | array items => exact ⟨items, rfl, mapM_eq_some_iff.mp hlist⟩
    | null | boolean | number | string | object => contradiction
  · rintro ⟨items, rfl, hitems⟩
    exact mapM_eq_some_iff.mpr hitems

theorem exists_result_of_mem
    (hitems : List.Forall₂ (fun item result => decode item = some result) items results)
    {item : Value} (hitem : item ∈ items) : ∃ result, decode item = some result := by
  induction hitems with
  | nil => exact absurd hitem List.not_mem_nil
  | @cons first result items results hfirst _ ih =>
      rcases List.mem_cons.mp hitem with rfl | hlater
      · exact ⟨result, hfirst⟩
      · exact ih hlater

end Lists

/-! ## One reading at most -/

section Readings

variable {items : List Value} {value : Value} {command : Command}

theorem name_of_commandOf? {id name target argument comment : Option Value}
    (hcommand : commandOf? id name target argument comment = some command) :
    name = some (.string command.name) := by
  simp only [commandOf?, Option.bind_eq_bind, Option.bind_eq_some_iff] at hcommand
  obtain ⟨name, rfl, _, _, text, htext, _, _, _, _, _, _, ⟨⟩⟩ := hcommand
  cases name with
  | string name => rw [Option.some.inj htext]
  | null | boolean | number | array | object => contradiction

/-- A command that is written as a list holds its name. -/
theorem name_mem_of_command? (hcommand : command? (.array items) = some command) :
    .string command.name ∈ items := by
  unfold command? at hcommand
  split at hcommand
  case h_1 heq => nomatch heq
  case h_6 => contradiction
  all_goals
    rename_i heq
    obtain ⟨rfl⟩ := heq
    have hname := name_of_commandOf? hcommand
    simp [Option.some.inj hname]

/-- No list of tests is a command. -/
theorem command?_eq_none_of_tests {tests : List RecordedTest}
    (htests : list? test? value = some tests) : command? value = none := by
  obtain ⟨items, rfl, hitems⟩ := list?_eq_some_iff.mp htests
  cases hcommand : command? (.array items) with
  | none => rfl
  | some command =>
      obtain ⟨test, htest⟩ := exists_result_of_mem hitems (name_mem_of_command? hcommand)
      contradiction

/-- What is a suite is no bare list of commands. -/
theorem commands_eq_none_of_suite? {tests : List RecordedTest}
    (hsuite : suite? value = some tests) : list? command? value = none := by
  unfold suite? at hsuite
  split at hsuite
  case h_1 => rfl
  case h_3 => contradiction
  case h_2 value =>
    show [value].mapM command? = none
    rw [List.mapM_cons, command?_eq_none_of_tests hsuite]
    rfl

theorem suite?_or_commands (value : Value) :
    suite? value = none ∨ list? command? value = none := by
  cases hsuite : suite? value with
  | none => exact Or.inl rfl
  | some tests => exact Or.inr (commands_eq_none_of_suite? hsuite)

end Readings

end Recording

namespace Suite

/-! ## The order of the readings -/

/-- Reads the tests in a text with `decode`. -/
def readBy (decode : Value → Option (List RecordedTest)) (text : String) :
    Except ReadError (List RecordedTest) :=
  match strict.read text.toList with
  | .error error => .error error
  | .ok (value, rest) =>
      match decode value with
      | none => .error (.mismatch (.noVariant "SuiteFile"))
      | some tests => (expectEnd rest).map fun _ => tests

/-- The tests in a value, when a bare list of commands is tried first. -/
def ofBareValue? (fallbackName : String) (value : Value) : Option (List RecordedTest) :=
  (Recording.bareTest? fallbackName value).or (Recording.suite? value)

theorem readBy_ofValue? (text fallbackName : String) :
    readBy (ofValue? fallbackName) text = read text fallbackName := rfl

theorem ofBareValue?_eq (fallbackName : String) :
    ofBareValue? fallbackName = ofValue? fallbackName := by
  funext value
  rw [ofBareValue?, ofValue?]
  rcases Recording.suite?_or_commands value with hsuite | hcommands
  · rw [hsuite, Option.or_none, Option.none_or]
  · rw [Recording.bareTest?, hcommands, Option.map_none, Option.none_or, Option.or_none]

/-! ## The fallback name -/

theorem ofValue?_cases (value : Value) :
    (∃ tests?, ∀ fallbackName, ofValue? fallbackName value = tests?) ∨
      ∃ commands, ∀ fallbackName,
        ofValue? fallbackName value = some [{ name := fallbackName, commands }] := by
  cases hsuite : Recording.suite? value with
  | some tests =>
      refine Or.inl ⟨some tests, fun fallbackName => ?_⟩
      rw [ofValue?, hsuite, Option.some_or]
  | none =>
      cases hcommands : Recording.list? Recording.command? value with
      | none =>
          refine Or.inl ⟨none, fun fallbackName => ?_⟩
          rw [ofValue?, hsuite, Recording.bareTest?, hcommands, Option.map_none, Option.or_none]
      | some commands =>
          refine Or.inr ⟨commands, fun fallbackName => ?_⟩
          rw [ofValue?, hsuite, Recording.bareTest?, hcommands, Option.map_some, Option.none_or]

theorem read_cases (text first second : String) :
    read text first = read text second ∨ ∃ commands,
      read text first = .ok [{ name := first, commands }] ∧
      read text second = .ok [{ name := second, commands }] := by
  simp only [← readBy_ofValue?, readBy]
  cases strict.read text.toList with
  | error error => exact Or.inl rfl
  | ok result =>
      obtain ⟨value, rest⟩ := result
      rcases ofValue?_cases value with ⟨tests?, htests⟩ | ⟨commands, hcommands⟩
      · exact Or.inl (by simp only [htests])
      · simp only [hcommands]
        cases expectEnd rest with
        | error error => exact Or.inl rfl
        | ok => exact Or.inr ⟨commands, rfl, rfl⟩

/-- A value has at most one of the two readings; trying them in the other order reads every text the
same; and a text that is read differently under two fallback names is read as one test under each of
them, which differ in nothing but these names. -/
theorem suite_format_is_unambiguous :
    (∀ value,
      Recording.suite? value = none ∨ Recording.list? Recording.command? value = none) ∧
    (∀ text fallbackName,
      readBy (ofBareValue? fallbackName) text = read text fallbackName) ∧
    ∀ text first second, read text first = read text second ∨ ∃ commands,
      read text first = .ok [{ id := none, name := first, commands }] ∧
      read text second = .ok [{ id := none, name := second, commands }] := by
  refine ⟨Recording.suite?_or_commands, fun text fallbackName => ?_, read_cases⟩
  rw [ofBareValue?_eq, readBy_ofValue?]

example : ofValue? "a" (.array [.array []]) = some [] ∧
    ofValue? "a" (.array []) = some [{ name := "a" }] := ⟨rfl, rfl⟩

end Suite

end StepFlow
