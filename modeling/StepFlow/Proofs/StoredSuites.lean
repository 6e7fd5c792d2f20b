import StepFlow.Proofs.StoredCommands

/-!
# Stored suites are read back

A bare list of stored commands is read as a single test, and an object that stores tests is read as
these tests.  The text may be any JSON text of the object, and the object and its tests may hold
other members besides.  Nothing is read from a text that nests more than 127 containers.  Stored
tests nest only five, so this is about the other members.
Main statement: `stored_commands_are_read_back`.
-/

namespace StepFlow

open Json

namespace Recording

variable {names : List String} {members : List (String × Value)} {value : Value}

/-- The values of the members with one of the given names. -/
def valuesOf (names : List String) (members : List (String × Value)) : List Value :=
  (members.filter fun member => names.contains member.1).map Prod.snd

theorem member?_of_nil (hvalues : valuesOf names members = []) :
    member? names members = some none := by
  have hfound := List.map_eq_nil_iff.mp hvalues
  unfold member?
  split
  case h_1 => rfl
  case h_2 heq => nomatch hfound.symm.trans heq
  case h_3 hne _ => exact absurd hfound hne

theorem member?_of_singleton (hvalues : valuesOf names members = [value]) :
    member? names members = some (some value) := by
  obtain ⟨member, hfound, rfl⟩ := List.map_eq_singleton_iff.mp hvalues
  unfold member?
  split
  case h_1 heq => nomatch hfound.symm.trans heq
  case h_2 heq =>
    obtain ⟨rfl⟩ := hfound.symm.trans heq
    rfl
  case h_3 hne => exact absurd hfound (hne member.1 member.2)

/-- An identifier may be left out, be null or be a string. -/
inductive StoresId : List Value → Option String → Prop
  | absent : StoresId [] none
  | null : StoresId [.null] none
  | string (id : String) : StoresId [.string id] (some id)

/-- The members of an object that stores a test.  Members under other names do not matter. -/
structure StoresTest (members : List (String × Value)) (test : RecordedTest) : Prop where
  id : StoresId (valuesOf ["id"] members) test.id
  name : valuesOf ["name"] members = [.string test.name]
  commands : valuesOf ["commands"] members = [.array (test.commands.map Command.stored)]

/-- The members of an object that stores tests in order. -/
def StoresTests (members : List (String × Value)) (tests : List RecordedTest) : Prop :=
  ∃ objects, valuesOf ["tests"] members = [.array (objects.map Tree.object)] ∧
    List.Forall₂ StoresTest objects tests

theorem exists_member?_of_storesId {id : Option String}
    (hid : StoresId (valuesOf ["id"] members) id) :
    ∃ value?, member? ["id"] members = some value? ∧
      decodeOr none optionalText? value? = some id := by
  generalize hvalues : valuesOf ["id"] members = values at hid
  cases hid with
  | absent => exact ⟨none, member?_of_nil hvalues, rfl⟩
  | null => exact ⟨some .null, member?_of_singleton hvalues, rfl⟩
  | string id => exact ⟨some (.string id), member?_of_singleton hvalues, rfl⟩

theorem test?_of_storesTest {test : RecordedTest} (htest : StoresTest members test) :
    test? (.object members) = some test := by
  obtain ⟨value?, hmember, hid⟩ := exists_member?_of_storesId htest.id
  have hcommands : decodeOr [] (list? command?)
      (some (.array (test.commands.map Command.stored))) = some test.commands :=
    Command.list?_stored test.commands
  simp [test?, testOf?, hmember, hid, member?_of_singleton htest.name,
    member?_of_singleton htest.commands, hcommands, text?]

theorem suite?_of_storesTests {tests : List RecordedTest} (htests : StoresTests members tests) :
    suite? (.object members) = some tests := by
  obtain ⟨objects, hvalues, hobjects⟩ := htests
  have hlist : list? test? (.array (objects.map Tree.object)) = some tests := by
    apply list?_eq_some_iff.mpr
    exact ⟨_, rfl, List.forall₂_map_left_iff.mpr (hobjects.imp fun _ _ => test?_of_storesTest)⟩
  simp only [suite?, member?_of_singleton hvalues]
  exact hlist

end Recording

/-! ## Reading stored values -/

/-- No numbers, and at most `bound` containers inside each other. -/
structure Shallow (bound : Nat) (value : Value) : Prop where
  depth_le : value.depth ≤ bound
  numbers_eq_nil : value.numbers = []

section Shallow

variable {bound : Nat} {value : Value} {items : List Value} {members : List (String × Value)}

theorem Shallow.mono {larger : Nat} (hshallow : Shallow bound value) (hle : bound ≤ larger) :
    Shallow larger value :=
  ⟨hshallow.depth_le.trans hle, hshallow.numbers_eq_nil⟩

theorem shallow_string (text : String) : Shallow 0 (.string text) := ⟨le_rfl, rfl⟩

theorem shallow_array (hitems : ∀ item ∈ items, Shallow bound item) :
    Shallow (bound + 1) (.array items) := by
  induction items with
  | nil => exact ⟨Nat.succ_le_succ (Nat.zero_le bound), rfl⟩
  | cons item items ih =>
      obtain ⟨hitem, hitems⟩ := List.forall_mem_cons.mp hitems
      obtain ⟨hdepth, hnumbers⟩ := ih hitems
      refine ⟨Nat.succ_le_succ (max_le hitem.depth_le (Nat.le_of_succ_le_succ hdepth)), ?_⟩
      exact List.append_eq_nil_iff.mpr ⟨hitem.numbers_eq_nil, hnumbers⟩

theorem shallow_object (hmembers : ∀ member ∈ members, Shallow bound member.2) :
    Shallow (bound + 1) (.object members) := by
  induction members with
  | nil => exact ⟨Nat.succ_le_succ (Nat.zero_le bound), rfl⟩
  | cons member members ih =>
      obtain ⟨hmember, hmembers⟩ := List.forall_mem_cons.mp hmembers
      obtain ⟨hdepth, hnumbers⟩ := ih hmembers
      refine ⟨Nat.succ_le_succ (max_le hmember.depth_le (Nat.le_of_succ_le_succ hdepth)), ?_⟩
      exact List.append_eq_nil_iff.mpr ⟨hmember.numbers_eq_nil, hnumbers⟩

end Shallow

theorem Command.shallow_stored (command : Command) : Shallow 1 command.stored := by
  rw [command.stored_eq]
  apply shallow_object
  intro member hmember
  obtain ⟨entry, _, rfl⟩ := List.mem_map.mp hmember
  exact shallow_string entry.2

theorem Command.shallow_array_stored (commands : List Command) :
    Shallow 2 (.array (commands.map Command.stored)) := by
  apply shallow_array
  intro item hitem
  obtain ⟨command, _, rfl⟩ := List.mem_map.mp hitem
  exact command.shallow_stored

namespace RecordedTest

/-- An object that stores a test. -/
def members (test : RecordedTest) : List (String × Value) :=
  test.id.toList.map (fun id => ("id", .string id)) ++
    [("name", .string test.name), ("commands", .array (test.commands.map Command.stored))]

theorem storesTest_members (test : RecordedTest) : Recording.StoresTest test.members test := by
  obtain ⟨id, name, commands⟩ := test
  cases id with
  | none => exact ⟨.absent, rfl, rfl⟩
  | some id => exact ⟨.string id, rfl, rfl⟩

theorem shallow_members (test : RecordedTest) : Shallow 3 (.object test.members) := by
  apply shallow_object
  intro member hmember
  rcases List.mem_append.mp hmember with hid | hmember
  · obtain ⟨id, _, rfl⟩ := List.mem_map.mp hid
    exact (shallow_string id).mono (Nat.zero_le 2)
  · rcases List.mem_pair.mp hmember with rfl | rfl
    · exact (shallow_string test.name).mono (Nat.zero_le 2)
    · exact Command.shallow_array_stored test.commands

end RecordedTest

namespace Suite

open Recording

variable {text fallbackName : String} {tests : List RecordedTest} {value : Value}

theorem read_of_spells (htext : Spells plainSpelling value text.toList) (hdepth : value.depth ≤ 127)
    (hvalue : ofValue? fallbackName value = some tests) :
    read text fallbackName = .ok tests := by
  have hroom : FitsInto value.depth strict.room := by
    rintro limit ⟨⟩
    exact hdepth
  obtain ⟨gap, hgap, hread⟩ := Json.read_of_spells strict_reads htext hroom
  simp only [read, hread, hvalue, expectEnd_of_isGap hgap]
  rfl

theorem read_compact (hshallow : Shallow 127 value)
    (hvalue : ofValue? fallbackName value = some tests) :
    read (String.ofList value.compact) fallbackName = .ok tests := by
  have hplain : Plain value.numbers := hshallow.numbers_eq_nil ▸ plain_nil
  apply read_of_spells _ hshallow.depth_le hvalue
  rw [String.toList_ofList]
  exact spells_compact value hplain

/-! ## Bare lists -/

theorem compactItems_eq_intercalate :
    ∀ items : List Value, Tree.compactItems items = [','].intercalate (items.map Tree.compact)
  | [] => rfl
  | [item] => (List.intercalate_singleton ..).symm
  | item :: next :: items => by
      show item.compact ++ ',' :: Tree.compactItems (next :: items) = _
      rw [compactItems_eq_intercalate (next :: items), List.map_cons, List.map_cons, List.map_cons,
        List.intercalate_cons_cons]
      simp

theorem ofValue?_commands (commands : List Command) (fallbackName : String) :
    ofValue? fallbackName (.array (commands.map Command.stored)) =
      some [{ name := fallbackName, commands }] := by
  have hlist := Command.list?_stored commands
  have hsuite : suite? (.array (commands.map Command.stored)) = none :=
    (suite?_or_commands _).resolve_right (by simp [hlist])
  rw [ofValue?, hsuite, bareTest?, hlist]
  rfl

theorem read_commands (commands : List Command) (fallbackName : String) :
    read ("[" ++ ",".intercalate (commands.map Command.json) ++ "]") fallbackName =
      .ok [{ name := fallbackName, commands }] := by
  have htexts : (commands.map Command.json).map String.toList =
      (commands.map Command.stored).map Tree.compact := by
    simp [Command.json]
  have hcompact : "[" ++ ",".intercalate (commands.map Command.json) ++ "]" =
      String.ofList (Tree.compact (.array (commands.map Command.stored))) := by
    apply String.toList_inj.mp
    simp only [String.toList_append, String.toList_intercalate, htexts, String.toList_ofList,
      Tree.compact, compactItems_eq_intercalate]
    rfl
  rw [hcompact]
  apply read_compact _ (ofValue?_commands commands fallbackName)
  exact (Command.shallow_array_stored commands).mono (by decide)

/-! ## Suites -/

theorem ofValue?_of_storesTests {members : List (String × Value)}
    (htests : StoresTests members tests) (fallbackName : String) :
    ofValue? fallbackName (.object members) = some tests := by
  rw [ofValue?, suite?_of_storesTests htests]
  rfl

/-- An object that stores tests and nothing else. -/
def stored (tests : List RecordedTest) : Value :=
  .object [("tests", .array (tests.map fun test => .object test.members))]

theorem read_stored (tests : List RecordedTest) (fallbackName : String) :
    read (String.ofList (stored tests).compact) fallbackName = .ok tests := by
  have htests :
      StoresTests [("tests", .array (tests.map fun test => .object test.members))] tests := by
    refine ⟨tests.map RecordedTest.members, ?_, ?_⟩
    · simp [valuesOf]
    · exact List.forall₂_map_left_iff.mpr
        (List.forall₂_same.mpr fun test _ => test.storesTest_members)
  have hshallow : Shallow 5 (stored tests) := by
    apply shallow_object
    intro member hmember
    obtain ⟨rfl⟩ := List.mem_singleton.mp hmember
    apply shallow_array
    intro item hitem
    obtain ⟨test, _, rfl⟩ := List.mem_map.mp hitem
    exact test.shallow_members
  exact read_compact (hshallow.mono (by decide)) (ofValue?_of_storesTests htests fallbackName)

end Suite

/-- Stored commands are read back: a command alone, the commands of a bare list as one test with the
fallback name, and the commands of a suite's tests, be it from the compact text of nothing but the
tests or from any text of an object that stores them and is not nested deeper than is read. -/
theorem stored_commands_are_read_back :
    (∀ command : Command, Command.read command.json = .ok command) ∧
    (∀ commands fallbackName,
      Suite.read ("[" ++ ",".intercalate (commands.map Command.json) ++ "]") fallbackName =
        .ok [{ id := none, name := fallbackName, commands }]) ∧
    (∀ tests fallbackName,
      Suite.read (String.ofList (Suite.stored tests).compact) fallbackName = .ok tests) ∧
    ∀ text fallbackName members tests,
      Spells plainSpelling (.object members) text.toList → (Tree.object members).depth ≤ 127 →
      Recording.StoresTests members tests → Suite.read text fallbackName = .ok tests := by
  refine ⟨Command.read_json, Suite.read_commands, Suite.read_stored, ?_⟩
  intro text fallbackName members tests htext hdepth htests
  exact Suite.read_of_spells htext hdepth (Suite.ofValue?_of_storesTests htests fallbackName)

/-- A suite with a member that does not matter and a test whose identifier is null. -/
def sampleMembers : List (String × Value) :=
  [("version", .string "2"),
    ("tests", .array [.object
      [("name", .string "first"), ("id", .null),
        ("commands", .array [(Command.ofName "echo").stored])]])]

def sampleSuite : String :=
  "\x7b\"version\":\"2\",\"tests\":[\x7b\"name\":\"first\",\"id\":null,\"commands\":[" ++
    "\x7b\"command\":\"echo\",\"target\":\"\",\"value\":\"\"\x7d]\x7d]\x7d"

theorem sample_suite_is_read_back :
    Spells plainSpelling (.object sampleMembers) sampleSuite.toList ∧
    (Tree.object sampleMembers).depth ≤ 127 ∧
    Recording.StoresTests sampleMembers [{ name := "first", commands := [.ofName "echo"] }] ∧
    Suite.read sampleSuite "fallback" =
      .ok [{ name := "first", commands := [.ofName "echo"] }] := by
  have hcompact : sampleSuite.toList = (Tree.object sampleMembers).compact := by
    decide +kernel
  have htext := hcompact ▸ spells_compact (.object sampleMembers) plain_nil
  have htests : Recording.StoresTests sampleMembers
      [{ name := "first", commands := [.ofName "echo"] }] :=
    ⟨[_], rfl, .cons ⟨.null, rfl, rfl⟩ .nil⟩
  exact ⟨htext, by decide, htests,
    stored_commands_are_read_back.2.2.2 _ _ _ _ htext (by decide) htests⟩

end StepFlow
