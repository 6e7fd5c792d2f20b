import StepFlow.Proofs.Enclosure
import StepFlow.Proofs.Links

/-!
# Two stacks in step

Outlining and linking each go through the commands once, and each of them keeps a stack of the open
blocks.  Linking is handed nothing but the levels: it opens and closes blocks by the names of the
commands, and it never asks whether there is a block to close.  In an accepted test this does no
harm.  Whenever linking comes to a node, its frames are the blocks that were open when outlining
came to the command, so that both take the same `while`s for loops of their own, and every `end`
finds a frame to close.
Main statement: `block_stacks_stay_in_step`.
-/

namespace StepFlow

section Definitions

variable {α : Type} [Step α]

/-- What outlining remembers when it comes to the command at `index`, if it comes so far. -/
def nestingBefore? (commands : List α) : Nat → Option Nesting
  | 0 => some {}
  | index + 1 =>
      match nestingBefore? commands index, commands[index]? with
      | some nesting, some command =>
          ((nesting.read commands index command).map Prod.snd).toOption
      | _, _ => none

/-- The frames that linking keeps when it comes to the node at `index`, if it comes so far. -/
def framesBefore? (entries : List (Entry α)) : Nat → Option (List Frame)
  | 0 => some []
  | index + 1 =>
      match framesBefore? entries index, entries.drop index with
      | some frames, entry :: following :: rest => some (wire index frames entry following rest).2
      | _, _ => none

/-- An open block as linking keeps it. -/
def OpenBlock.frame (opened : OpenBlock) : Frame := ⟨opened.block, opened.level, opened.index⟩

/-- At the position of the block stands a keyword that opens blocks of its kind, or a `while` that
is not the test of a `do`. -/
def OpenBlock.IsOpened (commands : List α) (opened : OpenBlock) : Prop :=
  (∃ opener, (rolesOf commands)[opened.index]? = some (.opening opener) ∧
      opened.block = opener.block) ∨
    (rolesOf commands)[opened.index]? = some (.loopTest .whileTest) ∧
      opened.block = .whileLoop ∧
      ∃ nesting, nestingBefore? commands opened.index = some nesting ∧
        nesting.innermost? ≠ some .doLoop

/-- What holds of the nesting before the command at `index`.  Depths are counted from the outermost
block, which has depth 0. -/
structure Nesting.Regular (commands : List α) (index : Nat) (nesting : Nesting) : Prop where
  level_eq : nesting.level = nesting.blocks.length
  level_of_depth : ∀ (depth : Nat) (opened : OpenBlock),
    nesting.blocks.reverse[depth]? = some opened → opened.level = depth
  increasing : (nesting.blocks.reverse.map OpenBlock.index).Pairwise (· < ·)
  index_lt : ∀ opened ∈ nesting.blocks, opened.index < index
  isOpened : ∀ opened ∈ nesting.blocks, opened.IsOpened commands

/-- The `while` at `index` leaves both passes as they are, if it is the test of the `do` around it,
or opens a loop in both of them. -/
def AgreeOnWhile (commands : List α) (entries : List (Entry α)) (index : Nat) (nesting : Nesting)
    (frames : List Frame) : Prop :=
  (nesting.innermost? = some .doLoop ∧
    nestingBefore? commands (index + 1) = some nesting ∧
    framesBefore? entries (index + 1) = some frames) ∨
  (nesting.innermost? ≠ some .doLoop ∧
    nestingBefore? commands (index + 1) = some (nesting.enter .whileLoop index) ∧
    framesBefore? entries (index + 1) = some (⟨.whileLoop, nesting.level, index⟩ :: frames))

end Definitions

/-! ## Open brackets as blocks -/

section Brackets

variable {brackets : List Bracket} {opened : OpenBlock} {depth : Nat}

@[simp]
theorem length_openBlocks (brackets : List Bracket) :
    (openBlocks brackets).length = brackets.length := by
  induction brackets with
  | nil => rfl
  | cons bracket outer ih => rw [openBlocks, List.length_cons, ih, List.length_cons]

theorem map_frame_openBlocks (brackets : List Bracket) :
    (openBlocks brackets).map OpenBlock.frame = framesOf brackets := by
  induction brackets with
  | nil => rfl
  | cons bracket outer ih =>
      rw [openBlocks, List.map_cons, ih]
      rfl

theorem map_index_openBlocks (brackets : List Bracket) :
    (openBlocks brackets).map OpenBlock.index = brackets.map Bracket.opener := by
  induction brackets with
  | nil => rfl
  | cons bracket outer ih => rw [openBlocks, List.map_cons, ih, List.map_cons]

theorem exists_bracket_of_mem_openBlocks (hmem : opened ∈ openBlocks brackets) :
    ∃ bracket ∈ brackets, opened.block = bracket.block ∧ opened.index = bracket.opener := by
  induction brackets with
  | nil => exact absurd hmem List.not_mem_nil
  | cons bracket outer ih =>
      rcases List.mem_cons.mp hmem with rfl | hmem
      · exact ⟨bracket, List.mem_cons_self, rfl, rfl⟩
      · obtain ⟨found, hfound, heq⟩ := ih hmem
        exact ⟨found, List.mem_cons_of_mem bracket hfound, heq⟩

/-- The level of a block is its depth: the number of blocks below it on the stack. -/
theorem level_of_getElem?_reverse_openBlocks
    (hopened : (openBlocks brackets).reverse[depth]? = some opened) : opened.level = depth := by
  induction brackets with
  | nil => simp [openBlocks] at hopened
  | cons bracket outer ih =>
      rw [openBlocks, List.reverse_cons] at hopened
      by_cases hinside : depth < outer.length
      · rw [List.getElem?_append_left (by simpa using hinside)] at hopened
        exact ih hopened
      · rw [List.getElem?_append_right (by simpa using hinside)] at hopened
        obtain ⟨hlt, rfl⟩ := List.getElem?_eq_some_iff.mp hopened
        simp only [List.length_reverse, length_openBlocks, List.length_singleton] at hlt
        simp only [List.getElem_singleton]
        omega

end Brackets

/-! ## What the two passes come to -/

section Passes

variable {α : Type} [Step α] {commands : List α} {command : α} {index : Nat} {graph : Graph α}

theorem nestingBefore?_eq (hwell : WellBracketed (rolesOf commands))
    (hindex : index ≤ commands.length) :
    nestingBefore? commands index = some (nestingOf (openBefore (rolesOf commands) index)) := by
  induction index with
  | zero => rfl
  | succ index ih =>
      have hcommand : commands[index]? = some commands[index] := List.getElem?_eq_getElem hindex
      have hfits := misfit?_eq_none_iff.mpr (hwell.fits index _ (getElem?_rolesOf hcommand))
      rw [nestingBefore?, ih (Nat.le_of_succ_le hindex), hcommand]
      simp only [read_nestingOf hcommand, hfits]
      rfl

/-- Linking comes to every node of the graph.  It wires none after the last, so there is nothing to
say about the frames behind that one. -/
theorem framesBefore?_eq (hindex : index < commands.length) :
    framesBefore? (leveled commands) index =
      some (framesOf (openBefore (rolesOf commands) index)) := by
  induction index with
  | zero => rfl
  | succ index ih =>
      have hlt := Nat.lt_of_succ_lt hindex
      have hcommand : commands[index]? = some commands[index] := List.getElem?_eq_getElem hlt
      rw [framesBefore?, ih hlt, drop_leveled hcommand,
        drop_leveled (List.getElem?_eq_getElem hindex)]
      simp only [wire_framesOf hcommand]

theorem isOpened_of_mem {bracket : Bracket} {opened : OpenBlock}
    (hwell : WellBracketed (rolesOf commands)) (hindex : index ≤ commands.length)
    (hmem : bracket ∈ openBefore (rolesOf commands) index) (hblock : opened.block = bracket.block)
    (hopener : opened.index = bracket.opener) : opened.IsOpened commands := by
  have hopened : bracket.opener ≤ commands.length :=
    Nat.le_of_lt (Nat.lt_of_lt_of_le (opener_lt_of_mem hmem) hindex)
  rw [OpenBlock.IsOpened, hblock, hopener, nestingBefore?_eq hwell hopened]
  rcases role_opener hmem with hkeyword | ⟨hwhile, hloop, hown⟩
  · exact .inl hkeyword
  · exact .inr ⟨hwhile, hloop, _, rfl, by rwa [innermost?_nestingOf]⟩

theorem regular_nestingOf (hwell : WellBracketed (rolesOf commands))
    (hindex : index ≤ commands.length) :
    (nestingOf (openBefore (rolesOf commands) index)).Regular commands index where
  level_eq := (length_openBlocks _).symm
  level_of_depth _ _ := level_of_getElem?_reverse_openBlocks
  increasing := by
    rw [List.map_reverse, List.pairwise_reverse, nestingOf, map_index_openBlocks,
      List.pairwise_map]
    exact pairwise_openBefore (rolesOf commands) index
  index_lt := by
    intro opened hopened
    obtain ⟨bracket, hmem, _, hopener⟩ := exists_bracket_of_mem_openBlocks hopened
    rw [hopener]
    exact opener_lt_of_mem hmem
  isOpened := by
    intro opened hopened
    obtain ⟨bracket, hmem, hblock, hopener⟩ := exists_bracket_of_mem_openBlocks hopened
    exact isOpened_of_mem hwell hindex hmem hblock hopener

/-- The last command of an accepted test is no `while`: behind it a block would be open. -/
theorem WellBracketed.succ_lt_of_while {roles : List Role} (hwell : WellBracketed roles)
    (hrole : roles[index]? = some (.loopTest .whileTest)) : index + 1 < roles.length := by
  have hlt : index < roles.length := (List.getElem?_eq_some_iff.mp hrole).1
  refine Nat.lt_of_le_of_ne hlt fun hlast => ?_
  have hopen := openBefore_succ hrole
  rw [hlast, hwell.closed, Bracket.advance] at hopen
  split at hopen
  case isTrue hdo => simp [← hopen] at hdo
  case isFalse => contradiction

theorem WellBracketed.openBefore_ne_nil_of_end {roles : List Role} (hwell : WellBracketed roles)
    (hrole : roles[index]? = some .blockEnd) : openBefore roles index ≠ [] := by
  obtain ⟨bracket, hinner, _⟩ := hwell.fits index _ hrole
  exact List.ne_nil_of_mem (mem_openBefore_of_innermost hinner)

theorem outlineFrom_nestingOf (hwell : WellBracketed (rolesOf commands))
    (hindex : index ≤ commands.length) :
    outlineFrom commands index (nestingOf (openBefore (rolesOf commands) index))
      (commands.drop index) = .ok ((leveled commands).drop index) := by
  refine (outlineFrom_eq_ok_iff hindex).mpr
    ⟨fun position role _ => hwell.fits position role, ?_, rfl⟩
  rw [← length_rolesOf]
  exact hwell.closed

theorem linkFrom_framesOf (hindex : index ≤ commands.length) :
    linkFrom index (framesOf (openBefore (rolesOf commands) index))
        ((leveled commands).drop index) =
      (commands.mapIdx (nodeAt commands)).drop index := by
  rw [linkFrom_leveled hindex]
  apply List.ext_getElem?
  intro offset
  simp [List.getElem?_mapIdx]

theorem agreeOnWhile (hwell : WellBracketed (rolesOf commands))
    (hrole : (rolesOf commands)[index]? = some (.loopTest .whileTest)) :
    AgreeOnWhile commands (leveled commands) index
      (nestingOf (openBefore (rolesOf commands) index))
      (framesOf (openBefore (rolesOf commands) index)) := by
  have hnext := hwell.succ_lt_of_while hrole
  rw [length_rolesOf] at hnext
  rw [AgreeOnWhile, nestingBefore?_eq hwell (Nat.le_of_lt hnext), framesBefore?_eq hnext,
    innermost?_nestingOf, openBefore_succ hrole, Bracket.advance]
  split
  case isTrue hdo => exact .inl ⟨hdo, rfl, rfl⟩
  case isFalse hown => exact .inr ⟨hown, rfl, rfl⟩

/-- In an accepted test, linking comes to every node with the frames of the blocks that are open
when outlining comes to the command.  The blocks lie at the levels of their depths, in the order in
which keywords of their kinds have opened them, and the level that outlining counts is their number.
So the two passes agree on which `while`s are loops of their own, and an `end` always finds a frame
to close. -/
theorem block_stacks_stay_in_step (hbuild : Graph.build? commands = .ok graph) :
    ∃ entries, outline? commands = .ok entries ∧ graph = .ofOutline entries ∧
      ∀ index < commands.length, ∃ nesting frames,
        nestingBefore? commands index = some nesting ∧
        framesBefore? entries index = some frames ∧
        outlineFrom commands index nesting (commands.drop index) = .ok (entries.drop index) ∧
        linkFrom index frames (entries.drop index) = graph.nodes.drop index ∧
        frames = nesting.blocks.map OpenBlock.frame ∧
        nesting.Regular commands index ∧
        ((rolesOf commands)[index]? = some (.loopTest .whileTest) →
          AgreeOnWhile commands entries index nesting frames) ∧
        ((rolesOf commands)[index]? = some .blockEnd → frames ≠ []) := by
  obtain ⟨hwell, rfl⟩ := build?_eq_ok_iff.mp hbuild
  refine ⟨leveled commands, outline?_eq_ok_iff.mpr ⟨hwell, rfl⟩, ?_, fun index hlt => ?_⟩
  · rw [← nodes_ofOutline]
  · have hindex := Nat.le_of_lt hlt
    refine ⟨_, _, nestingBefore?_eq hwell hindex, framesBefore?_eq hlt,
      outlineFrom_nestingOf hwell hindex, linkFrom_framesOf hindex,
      (map_frame_openBlocks _).symm, regular_nestingOf hwell hindex, agreeOnWhile hwell, ?_⟩
    intro hend hempty
    have hframes := congrArg List.length hempty
    rw [← map_frame_openBlocks, List.length_map, length_openBlocks] at hframes
    exact hwell.openBefore_ne_nil_of_end hend (List.eq_nil_of_length_eq_zero hframes)

/-- When they come to the `while` at position 6, both passes have an `if` open inside a `times`, and
a `do` inside that; the `while` is the test of the `do`. -/
theorem sample_stacks_stay_in_step :
    Graph.build? sampleTest = .ok sampleGraph ∧
      ∃ nesting frames, nestingBefore? sampleTest 6 = some nesting ∧
        framesBefore? (leveled sampleTest) 6 = some frames ∧
        frames = nesting.blocks.map OpenBlock.frame ∧
        frames = [⟨.doLoop, 2, 4⟩, ⟨.ifBlock, 1, 1⟩, ⟨.timesLoop, 0, 0⟩] ∧
        AgreeOnWhile sampleTest (leveled sampleTest) 6 nesting frames := by
  have hbuild : Graph.build? sampleTest = .ok sampleGraph := rfl
  obtain ⟨entries, hentries, _, hsteps⟩ := block_stacks_stay_in_step hbuild
  obtain ⟨nesting, frames, hnesting, hframes, _, _, hsame, _, hwhile, _⟩ :=
    hsteps 6 (by decide)
  obtain ⟨rfl⟩ : leveled sampleTest = entries := Except.ok.inj hentries
  have hfound : framesBefore? (leveled sampleTest) 6 =
      some [⟨.doLoop, 2, 4⟩, ⟨.ifBlock, 1, 1⟩, ⟨.timesLoop, 0, 0⟩] := rfl
  exact ⟨hbuild, nesting, frames, hnesting, hframes, hsame,
    Option.some.inj (hframes.symm.trans hfound), hwhile (by decide)⟩

end Passes

end StepFlow
