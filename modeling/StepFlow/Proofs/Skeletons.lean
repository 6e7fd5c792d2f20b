import StepFlow.Proofs.Links
import StepFlow.Proofs.Renumbering

/-!
# Ordinary steps do not influence the structure

The skeleton of a test is what is left of it without its ordinary steps.  Reading the test and
reading its skeleton go side by side: a keyword moves both on in the same way, and a step moves on
the reading of the test only and changes nothing there.  So the skeleton has the same blocks, the
same levels and the same first error, under other numbers.  Main statement:
`ordinary_steps_do_not_influence_structure`.
-/

namespace StepFlow

section Definitions

/-- The number of keywords before position `index`, which is the position of the keyword at `index`
among the keywords. -/
def keywordsBefore (roles : List Role) (index : Nat) : Nat :=
  (roles.take index).countP Role.isControlFlow

variable {α : Type} [Step α]

/-- The keywords of a test, without its ordinary steps. -/
def skeleton (commands : List α) : List α :=
  commands.filter fun command => (Step.role command).isControlFlow

/-- The entries of keywords. -/
def skeletonEntries (entries : List (Entry α)) : List (Entry α) :=
  entries.filter fun entry => (Step.role entry.command).isControlFlow

end Definitions

/-- A node as linking received it. -/
def Node.entry {α : Type} (node : Node α) : Entry α := ⟨node.command, node.level⟩

section Roles

variable {roles : List Role} {role : Role} {index first last : Nat}

theorem keywordsBefore_succ (roles : List Role) (index : Nat) :
    keywordsBefore roles (index + 1) =
      keywordsBefore roles index + roles[index]?.toList.countP Role.isControlFlow := by
  rw [keywordsBefore, keywordsBefore, List.take_add_one, List.countP_append]

theorem keywordsBefore_succ_of_keyword (hrole : roles[index]? = some role)
    (hkeyword : role.isControlFlow = true) :
    keywordsBefore roles (index + 1) = keywordsBefore roles index + 1 := by
  rw [keywordsBefore_succ, hrole, Option.toList_some, List.countP_singleton, if_pos hkeyword]

theorem keywordsBefore_succ_of_step (hrole : roles[index]? = some .ordinary) :
    keywordsBefore roles (index + 1) = keywordsBefore roles index := by
  rw [keywordsBefore_succ, hrole]
  rfl

theorem keywordsBefore_eq_length (roles : List Role) (index : Nat) :
    keywordsBefore roles index = ((roles.take index).filter Role.isControlFlow).length :=
  List.countP_eq_length_filter

/-- The keywords before a position come first. -/
theorem filter_split (roles : List Role) (index : Nat) :
    roles.filter Role.isControlFlow =
      (roles.take index).filter Role.isControlFlow ++
        (roles.drop index).filter Role.isControlFlow := by
  rw [← List.filter_append, List.take_append_drop]

theorem take_keywordsBefore (roles : List Role) (index : Nat) :
    (roles.filter Role.isControlFlow).take (keywordsBefore roles index) =
      (roles.take index).filter Role.isControlFlow := by
  rw [filter_split roles index, keywordsBefore_eq_length, List.take_left]

theorem drop_keywordsBefore (roles : List Role) (index : Nat) :
    (roles.filter Role.isControlFlow).drop (keywordsBefore roles index) =
      (roles.drop index).filter Role.isControlFlow := by
  rw [filter_split roles index, keywordsBefore_eq_length, List.drop_left]

theorem getElem?_keywordsBefore (hrole : roles[index]? = some role)
    (hkeyword : role.isControlFlow = true) :
    (roles.filter Role.isControlFlow)[keywordsBefore roles index]? = some role := by
  obtain ⟨hlt, hget⟩ := List.getElem?_eq_some_iff.mp hrole
  rw [← List.head?_drop, drop_keywordsBefore, List.drop_eq_getElem_cons hlt, hget,
    List.filter_cons_of_pos hkeyword, List.head?_cons]

theorem filterMap_arm?_filter (roles : List Role) :
    (roles.filter Role.isControlFlow).filterMap Role.arm? = roles.filterMap Role.arm? := by
  rw [List.filterMap_filter]
  congr 1
  funext role
  cases role <;> rfl

/-- Between two places there are the same arms. -/
theorem armsWithin_keywordsBefore (hle : first ≤ last) :
    armsWithin (roles.filter Role.isControlFlow) (keywordsBefore roles first)
      (keywordsBefore roles last) = armsWithin roles first last := by
  have hfirst : keywordsBefore roles first = keywordsBefore (roles.take last) first := by
    rw [keywordsBefore, keywordsBefore, List.take_take, Nat.min_eq_left hle]
  rw [armsWithin, take_keywordsBefore, hfirst, drop_keywordsBefore, filterMap_arm?_filter,
    armsWithin]

/-- The skeleton has the same open blocks. -/
theorem openBefore_keywordsBefore (roles : List Role) (index : Nat) :
    openBefore (roles.filter Role.isControlFlow) (keywordsBefore roles index) =
      (openBefore roles index).map (Bracket.renumber (keywordsBefore roles)) := by
  induction index with
  | zero => rfl
  | succ index ih =>
      cases hrole : roles[index]? with
      | none =>
          rw [keywordsBefore_succ, hrole, openBefore_succ_of_none hrole]
          exact ih
      | some role =>
          rw [openBefore_succ hrole]
          by_cases hkeyword : role.isControlFlow = true
          · rw [keywordsBefore_succ_of_keyword hrole hkeyword,
              openBefore_succ (getElem?_keywordsBefore hrole hkeyword), ih,
              Bracket.advance_renumber]
          · obtain rfl : role = .ordinary := by simpa [isControlFlow_iff] using hkeyword
            rw [keywordsBefore_succ_of_step hrole, ih]
            rfl

theorem misfit?_keywordsBefore (roles : List Role) (index : Nat) (role : Role) :
    misfit? (roles.filter Role.isControlFlow) (keywordsBefore roles index) role =
      (misfit? roles index role).map (BuildError.renumber (keywordsBefore roles)) :=
  misfit?_renumber _ (openBefore_keywordsBefore roles index) fun _ hmem =>
    armsWithin_keywordsBefore (Nat.le_of_lt (opener_lt_of_mem hmem))

end Roles

section Commands

variable {α : Type} [Step α] {commands : List α} {command : α} {graph : Graph α} {index : Nat}

theorem skeleton_cons_of_keyword (hkeyword : (Step.role command).isControlFlow = true)
    (later : List α) : skeleton (command :: later) = command :: skeleton later :=
  List.filter_cons_of_pos hkeyword

theorem skeleton_cons_of_step (hstep : Step.role command = .ordinary) (later : List α) :
    skeleton (command :: later) = skeleton later := by
  refine List.filter_cons_of_neg ?_
  rw [hstep]
  nofun

theorem skeleton_append (front back : List α) :
    skeleton (front ++ back) = skeleton front ++ skeleton back :=
  List.filter_append _ _

theorem rolesOf_skeleton (commands : List α) :
    rolesOf (skeleton commands) = (rolesOf commands).filter Role.isControlFlow := by
  rw [rolesOf, skeleton, rolesOf, List.filter_map]
  rfl

theorem keywordsBefore_eq_length_skeleton (commands : List α) (index : Nat) :
    keywordsBefore (rolesOf commands) index = (skeleton (commands.take index)).length := by
  rw [keywordsBefore_eq_length, ← length_rolesOf (skeleton _), rolesOf_skeleton, rolesOf, rolesOf,
    List.map_take]

theorem drop_skeleton (commands : List α) (index : Nat) :
    (skeleton commands).drop (keywordsBefore (rolesOf commands) index) =
      skeleton (commands.drop index) := by
  have hsplit : skeleton commands =
      skeleton (commands.take index) ++ skeleton (commands.drop index) := by
    rw [← skeleton_append, List.take_append_drop]
  rw [hsplit, keywordsBefore_eq_length_skeleton, List.drop_left]

theorem getElem?_skeleton (hcommand : commands[index]? = some command)
    (hkeyword : (Step.role command).isControlFlow = true) :
    (skeleton commands)[keywordsBefore (rolesOf commands) index]? = some command := by
  obtain ⟨hlt, hget⟩ := List.getElem?_eq_some_iff.mp hcommand
  rw [← List.head?_drop, drop_skeleton, List.drop_eq_getElem_cons hlt, hget,
    skeleton_cons_of_keyword hkeyword, List.head?_cons]

/-! ## Reading a test and its skeleton -/

/-- What reading the test gives for the skeleton: the entries of keywords, or the error under the
numbers of the skeleton. -/
def ofKeywords (commands : List α) (result : Except BuildError (List (Entry α))) :
    Except BuildError (List (Entry α)) :=
  (result.map skeletonEntries).mapError (BuildError.renumber (keywordsBefore (rolesOf commands)))

theorem ofKeywords_cons_of_keyword (commands : List α) (level : Nat)
    (hkeyword : (Step.role command).isControlFlow = true)
    (result : Except BuildError (List (Entry α))) :
    ofKeywords commands (result.map (⟨command, level⟩ :: ·)) =
      (ofKeywords commands result).map (⟨command, level⟩ :: ·) := by
  cases result with
  | error error => rfl
  | ok entries => exact congrArg Except.ok (List.filter_cons_of_pos hkeyword)

theorem ofKeywords_cons_of_step (commands : List α) (level : Nat)
    (hstep : Step.role command = .ordinary) (result : Except BuildError (List (Entry α))) :
    ofKeywords commands (result.map (⟨command, level⟩ :: ·)) = ofKeywords commands result := by
  cases result with
  | error error => rfl
  | ok entries =>
      refine congrArg Except.ok (List.filter_cons_of_neg ?_)
      rw [hstep]
      nofun

/-- From the same place on, the skeleton is outlined as the test is. -/
theorem outlineFrom_skeleton (hindex : index ≤ commands.length) :
    outlineFrom (skeleton commands) (keywordsBefore (rolesOf commands) index)
        (nestingOf (openBefore (rolesOf (skeleton commands))
          (keywordsBefore (rolesOf commands) index)))
        (skeleton (commands.drop index)) =
      ofKeywords commands (outlineFrom commands index
        (nestingOf (openBefore (rolesOf commands) index)) (commands.drop index)) := by
  induction hindex using Nat.decreasingInduction with
  | self =>
      rw [List.drop_length, rolesOf_skeleton, openBefore_keywordsBefore]
      simp only [skeleton, List.filter_nil, outlineFrom, finish_renumber]
      cases (nestingOf (openBefore (rolesOf commands) commands.length)).finish <;> rfl
  | of_succ index hlt ih =>
      have hcommand : commands[index]? = some commands[index] := List.getElem?_eq_getElem hlt
      have hrole := getElem?_rolesOf hcommand
      rw [List.drop_eq_getElem_cons hlt, outlineFrom, read_nestingOf hcommand]
      by_cases hkeyword : (Step.role commands[index]).isControlFlow = true
      -- A keyword is read in both.
      · have hsucc := keywordsBefore_succ_of_keyword hrole hkeyword
        have hcommandHere := getElem?_skeleton hcommand hkeyword
        have hroleHere := getElem?_rolesOf hcommandHere
        have hopen := openBefore_keywordsBefore (rolesOf commands) index
        rw [← rolesOf_skeleton] at hopen
        have hlevel := levelAt_renumber _ (hroleHere.trans hrole.symm) hopen
        have hmisfit : misfit? (rolesOf (skeleton commands))
            (keywordsBefore (rolesOf commands) index) (Step.role commands[index]) =
              (misfit? (rolesOf commands) index (Step.role commands[index])).map
                (BuildError.renumber (keywordsBefore (rolesOf commands))) := by
          rw [rolesOf_skeleton, misfit?_keywordsBefore]
        rw [skeleton_cons_of_keyword hkeyword, outlineFrom, read_nestingOf hcommandHere, hmisfit]
        cases misfit? (rolesOf commands) index (Step.role commands[index]) with
        | some error => rfl
        | none =>
            simp only [Option.map_none]
            rw [ofKeywords_cons_of_keyword _ _ hkeyword, ← ih, hlevel, hsucc]
      -- A step is read in the test only.
      · have hstep : Step.role commands[index] = .ordinary := by
          simpa [isControlFlow_iff] using hkeyword
        have hsucc := keywordsBefore_succ_of_step (hstep ▸ hrole)
        rw [skeleton_cons_of_step hstep]
        simp only [hstep, misfit?]
        rw [ofKeywords_cons_of_step _ _ hstep, ← ih, hsucc]

/-- The skeleton is outlined as the test is. -/
theorem outline?_skeleton (commands : List α) :
    outline? (skeleton commands) = ofKeywords commands (outline? commands) :=
  outlineFrom_skeleton (Nat.zero_le _)

/-! ## The graphs -/

/-- Linking keeps the commands and their levels. -/
theorem map_entry_linkFrom (id : NodeId) (frames : List Frame) (entries : List (Entry α)) :
    (linkFrom id frames entries).map Node.entry = entries := by
  induction entries generalizing id frames with
  | nil => rfl
  | cons entry later ih =>
      cases later with
      | nil => rfl
      | cons following rest =>
          rw [linkFrom, List.map_cons, ih]
          rfl

/-- Without its ordinary steps a test is accepted or rejected as it is with them.  If it is
accepted, the keywords have the same levels, and if it is rejected, the error is the same, about
the same keyword under its number in the skeleton. -/
theorem ordinary_steps_do_not_influence_structure (commands : List α) :
    ((∃ graph, Graph.build? commands = .ok graph) ↔
        ∃ graph, Graph.build? (skeleton commands) = .ok graph) ∧
      (∀ graph small, Graph.build? commands = .ok graph →
        Graph.build? (skeleton commands) = .ok small →
          small.nodes.map Node.entry =
            (graph.nodes.map Node.entry).filter fun entry =>
              (Step.role entry.command).isControlFlow) ∧
      ∀ error, Graph.build? commands = .error error →
        Graph.build? (skeleton commands) =
          .error (error.renumber fun index => (skeleton (commands.take index)).length) := by
  have hnumbers : keywordsBefore (rolesOf commands) = fun index =>
      (skeleton (commands.take index)).length := funext (keywordsBefore_eq_length_skeleton commands)
  simp only [Graph.build?, outline?_skeleton, ofKeywords, hnumbers]
  cases outline? commands with
  | error error =>
      refine ⟨⟨by rintro ⟨_, ⟨⟩⟩, by rintro ⟨_, ⟨⟩⟩⟩, by rintro _ _ ⟨⟩, ?_⟩
      rintro _ ⟨⟩
      rfl
  | ok entries =>
      refine ⟨⟨fun _ => ⟨_, rfl⟩, fun _ => ⟨_, rfl⟩⟩, ?_, by rintro _ ⟨⟩⟩
      rintro _ _ ⟨⟩ ⟨⟩
      simp only [Graph.ofOutline, map_entry_linkFrom]
      rfl

/-- The keywords of the sample have the same levels without its steps, and steps around and inside a
chain only move the error about it further on. -/
theorem sample_ordinary_steps_do_not_influence_structure :
    (Graph.build? (skeleton sampleTest) = .ok (Graph.ofOutline (leveled (skeleton sampleTest))) ∧
      (Graph.ofOutline (leveled (skeleton sampleTest))).nodes.map Node.entry =
        (sampleGraph.nodes.map Node.entry).filter fun entry =>
          (Step.role entry.command).isControlFlow) ∧
      Graph.build? ["a", "if", "b", "else", "c", "else", "end"] =
        .error (.armDisorder 6 .tooManyElse) ∧
      Graph.build? ["if", "else", "else", "end"] = .error (.armDisorder 3 .tooManyElse) := by
  obtain ⟨_, hlevels, _⟩ := ordinary_steps_do_not_influence_structure sampleTest
  obtain ⟨_, _, herror⟩ := ordinary_steps_do_not_influence_structure
    ["a", "if", "b", "else", "c", "else", "end"]
  exact ⟨⟨rfl, hlevels _ _ rfl rfl⟩, rfl, herror _ rfl⟩

end Commands

end StepFlow
