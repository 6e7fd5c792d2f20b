import StepFlow.Proofs.Derivations
import StepFlow.Proofs.Prefixes

/-!
# Unclosed blocks

When nothing is wrong with a test but that blocks are still open, a further `end` closes the
innermost of them.  It may find the arms of that block out of order.  Otherwise the block outside it
is the innermost one, and if there is none the test is accepted.  So the test is completed by as
many `end`s as blocks are open, unless one of these `end`s finds arms out of order.
Main statement: `end_closes_innermost_block`.
-/

namespace StepFlow

section Definitions

/-- The blocks that are open behind the last command, innermost first. -/
def unclosed (roles : List Role) : List Bracket := openBefore roles roles.length

variable {α : Type} [Step α]

/-- With up to `count` further `end`s the test still has unclosed blocks and no other fault, and one
more either completes it or finds arms out of order. -/
structure SettledBehind (commands : List α) (closing : α) (count : Nat) : Prop where
  unclosed : ∀ fewer ≤ count, ∃ keyword index,
    Graph.build? (commands ++ List.replicate fewer closing) = .error (.unclosedBlock keyword index)
  settled : (∃ graph, Graph.build? (commands ++ List.replicate (count + 1) closing) = .ok graph) ∨
    ∃ reason, Graph.build? (commands ++ List.replicate (count + 1) closing) =
      .error (.armDisorder (commands.length + count) reason)

end Definitions

section Roles

variable {roles : List Role} {bracket : Bracket} {outer : List Bracket}

/-- The unclosed blocks are those that are opened and never closed. -/
theorem mem_unclosed_iff :
    bracket ∈ unclosed roles ↔ Opens roles bracket ∧ ∀ last, ¬Closes roles bracket last := by
  constructor
  · intro hmem
    exact ⟨opens_of_mem hmem, fun last hlast => hlast.not_mem_length hmem⟩
  · rintro ⟨hopens, hnever⟩
    exact hopens.exists_closes_or_mem.resolve_left fun ⟨last, hlast⟩ => hnever last hlast

/-- Unclosed blocks further out were opened earlier. -/
theorem opener_lt_of_unclosed {around : Bracket} (hunclosed : unclosed roles = bracket :: outer)
    (haround : around ∈ outer) : around.opener < bracket.opener := by
  have hsuffix : bracket :: outer <:+ openBefore roles roles.length := ⟨[], hunclosed.symm⟩
  rw [← (openBefore_opener hsuffix).1] at haround
  exact opener_lt_of_mem haround

/-- Only one block is unclosed if all the openers are the same. -/
theorem forall_opener_eq_iff (hunclosed : unclosed roles = bracket :: outer) :
    (∀ block, Opens roles block → (∀ last, ¬Closes roles block last) →
      block.opener = bracket.opener) ↔ outer = [] := by
  simp only [← and_imp, ← mem_unclosed_iff, hunclosed, List.forall_mem_cons]
  constructor
  · rintro ⟨_, hsame⟩
    refine List.eq_nil_iff_forall_not_mem.mpr fun around haround => ?_
    exact Nat.ne_of_lt (opener_lt_of_unclosed hunclosed haround) (hsame around haround)
  · rintro rfl
    exact ⟨trivial, fun around haround => absurd haround List.not_mem_nil⟩

theorem Disordered.not_inOrder {arms : List Arm} {reason : ArmDisorder}
    (hdisordered : Disordered arms reason) : ¬InOrder arms := by
  rw [← armDisorder?_eq_none_iff, armDisorder?_eq_some_iff.mpr hdisordered]
  nofun

/-! ## A further end -/

theorem unclosed_append_end (roles : List Role) :
    unclosed (roles ++ [.blockEnd]) = (unclosed roles).tail := by
  have hrole : (roles ++ [.blockEnd])[roles.length]? = some .blockEnd := by simp
  rw [unclosed, List.length_append, List.length_singleton, openBefore_succ hrole,
    openBefore_append_of_le _ (Nat.le_refl _), Bracket.advance, unclosed]

/-- A further `end` is judged by the innermost unclosed block. -/
theorem misfit?_end_of_unclosed (hunclosed : unclosed roles = bracket :: outer) :
    misfit? roles roles.length .blockEnd =
      if bracket.block = .ifBlock then
        (armDisorder? (armsWithin roles bracket.opener roles.length)).map
          (.armDisorder roles.length)
      else none := by
  have hinner : innermost? roles roles.length = some bracket := by
    rw [innermost?, ← unclosed, hunclosed, List.head?_cons]
  simp only [misfit?, hinner]

theorem fitsBefore_append_end (hfits : FitsBefore roles roles.length)
    (hend : misfit? roles roles.length .blockEnd = none) :
    FitsBefore (roles ++ [Role.blockEnd]) (roles ++ [Role.blockEnd]).length := by
  intro index role hindex hrole
  rw [List.length_append, List.length_singleton, Nat.lt_succ_iff_lt_or_eq] at hindex
  rcases hindex with hbefore | rfl
  · exact (fitsBefore_append _ (Nat.le_refl _)).mpr hfits index role hbefore hrole
  · rw [List.getElem?_append_right (Nat.le_refl _), Nat.sub_self] at hrole
    obtain rfl : Role.blockEnd = role := by simpa using hrole
    rwa [← misfit?_eq_none_iff, misfit?_append _ (Nat.le_refl _)]

end Roles

section Commands

variable {α : Type} [Step α] {commands : List α} {closing : α} {keyword : Keyword} {index : Nat}
variable {bracket : Bracket} {outer : List Bracket} {reason : ArmDisorder}

/-! ## Accepted and unclosed tests -/

theorem exists_build?_eq_ok_iff :
    (∃ graph, Graph.build? commands = .ok graph) ↔
      FitsBefore (rolesOf commands) (rolesOf commands).length ∧
        unclosed (rolesOf commands) = [] := by
  simp only [build?_eq_ok_iff]
  constructor
  · rintro ⟨_, hwell, rfl⟩
    exact ⟨fun position role _ => hwell.fits position role, hwell.closed⟩
  · rintro ⟨hfits, hclosed⟩
    refine ⟨_, ⟨fun position role hrole => ?_, hclosed⟩, rfl⟩
    exact hfits position role (List.getElem?_eq_some_iff.mp hrole).1 hrole

/-- A block is reported as unclosed if all commands fit and it is the innermost open one. -/
theorem build?_eq_unclosedBlock_iff :
    Graph.build? commands = .error (.unclosedBlock keyword index) ↔
      FitsBefore (rolesOf commands) (rolesOf commands).length ∧
        ∃ bracket outer, unclosed (rolesOf commands) = bracket :: outer ∧
          bracket.block.keyword = keyword ∧ bracket.opener = index := by
  constructor
  · intro hbuild
    obtain ⟨bracket, hinner, hkeyword, hopener⟩ :=
      fault_unclosedBlock_iff.mp (build?_eq_error_iff.mp hbuild).1
    refine ⟨?_, bracket, _, openBefore_eq_of_innermost hinner, hkeyword, hopener⟩
    rw [length_rolesOf]
    exact atMostUnclosed_iff.mp (.inr ⟨keyword, index, hbuild⟩)
  · rintro ⟨hfits, bracket, outer, hunclosed, rfl, rfl⟩
    rw [length_rolesOf] at hfits
    rcases atMostUnclosed_iff.mpr hfits with haccepted | ⟨keyword, index, hbuild⟩
    · rw [(exists_build?_eq_ok_iff.mp haccepted).2] at hunclosed
      contradiction
    · obtain ⟨other, hinner, rfl, rfl⟩ :=
        fault_unclosedBlock_iff.mp (build?_eq_error_iff.mp hbuild).1
      rw [innermost?, ← unclosed, hunclosed, List.head?_cons, Option.some_inj] at hinner
      rw [hinner, hbuild]

theorem keyword_eq_ifWord_iff (block : Block) : block.keyword = .ifWord ↔ block = .ifBlock := by
  cases block <;> decide

/-! ## One more end -/

theorem rolesOf_append_end (hclosing : Step.role closing = .blockEnd) (commands : List α) :
    rolesOf (commands ++ [closing]) = rolesOf commands ++ [.blockEnd] := by
  rw [rolesOf_append, ← hclosing]
  rfl

/-- A further `end` finds the arms of the innermost unclosed block out of order, or leaves one block
less open. -/
theorem build?_append_end_cases (hclosing : Step.role closing = .blockEnd)
    (hfits : FitsBefore (rolesOf commands) (rolesOf commands).length)
    (hunclosed : unclosed (rolesOf commands) = bracket :: outer) :
    (bracket.block = .ifBlock ∧ ∃ reason,
        Disordered (armsWithin (rolesOf commands) bracket.opener commands.length) reason ∧
          Graph.build? (commands ++ [closing]) = .error (.armDisorder commands.length reason)) ∨
      (bracket.block = .ifBlock →
          InOrder (armsWithin (rolesOf commands) bracket.opener commands.length)) ∧
        FitsBefore (rolesOf (commands ++ [closing])) (rolesOf (commands ++ [closing])).length ∧
          unclosed (rolesOf (commands ++ [closing])) = outer := by
  have hmisfit := misfit?_end_of_unclosed hunclosed
  simp only [← armDisorder?_eq_some_iff, ← armDisorder?_eq_none_iff, ← length_rolesOf commands]
  by_cases hdisorder : bracket.block = .ifBlock ∧ ∃ reason,
      armDisorder? (armsWithin (rolesOf commands) bracket.opener (rolesOf commands).length) =
        some reason
  · obtain ⟨hif, reason, hreason⟩ := hdisorder
    rw [if_pos hif, hreason, Option.map_some] at hmisfit
    refine .inl ⟨hif, reason, hreason, (build?_eq_error_iff_misfit rfl).mpr ?_⟩
    rw [rolesOf_append_end hclosing]
    refine ⟨⟨.blockEnd, by simp [BuildError.index], ?_⟩, ?_⟩
    · rw [BuildError.index, misfit?_append _ (Nat.le_refl _), hmisfit]
    · exact (fitsBefore_append _ (Nat.le_refl _)).mpr hfits
  · have horder : bracket.block = .ifBlock → armDisorder? (armsWithin (rolesOf commands)
        bracket.opener (rolesOf commands).length) = none := fun hif =>
      Option.eq_none_iff_forall_ne_some.mpr fun reason hreason => hdisorder ⟨hif, reason, hreason⟩
    refine .inr ⟨horder, ?_⟩
    rw [rolesOf_append_end hclosing, unclosed_append_end, hunclosed, List.tail_cons]
    refine ⟨fitsBefore_append_end hfits ?_, rfl⟩
    rw [hmisfit]
    split
    next hif => rw [horder hif, Option.map_none]
    next => rfl

/-- The test is accepted exactly if no other block was unclosed and the arms of this one are in
order. -/
theorem exists_build?_append_end_iff (hclosing : Step.role closing = .blockEnd)
    (hfits : FitsBefore (rolesOf commands) (rolesOf commands).length)
    (hunclosed : unclosed (rolesOf commands) = bracket :: outer) :
    (∃ graph, Graph.build? (commands ++ [closing]) = .ok graph) ↔
      outer = [] ∧ (bracket.block = .ifBlock →
        InOrder (armsWithin (rolesOf commands) bracket.opener commands.length)) := by
  rcases build?_append_end_cases hclosing hfits hunclosed with
    ⟨hif, reason, hdisordered, hbuild⟩ | ⟨horder, hfitsMore, hunclosedMore⟩
  · simp [hbuild, hif, hdisordered.not_inOrder]
  · rw [exists_build?_eq_ok_iff, hunclosedMore, and_iff_right hfitsMore, and_iff_left horder]

/-- The arms are reported exactly if the block is an `if` and they are out of order. -/
theorem build?_append_end_eq_armDisorder_iff (hclosing : Step.role closing = .blockEnd)
    (hfits : FitsBefore (rolesOf commands) (rolesOf commands).length)
    (hunclosed : unclosed (rolesOf commands) = bracket :: outer) :
    Graph.build? (commands ++ [closing]) = .error (.armDisorder commands.length reason) ↔
      bracket.block = .ifBlock ∧
        Disordered (armsWithin (rolesOf commands) bracket.opener commands.length) reason := by
  rcases build?_append_end_cases hclosing hfits hunclosed with
    ⟨hif, found, hdisordered, hbuild⟩ | ⟨horder, hfitsMore, _⟩
  · rw [hbuild, and_iff_right hif, ← armDisorder?_eq_some_iff,
      armDisorder?_eq_some_iff.mpr hdisordered]
    simp
  · refine iff_of_false (fun hbuild => ?_) fun ⟨hif, hdisordered⟩ =>
      hdisordered.not_inOrder (horder hif)
    rw [length_rolesOf] at hfitsMore
    rcases atMostUnclosed_iff.mpr hfitsMore with ⟨graph, hok⟩ | ⟨keyword, index, herror⟩
    · cases hbuild.symm.trans hok
    · cases hbuild.symm.trans herror

/-- Any other error blames a block that was opened earlier. -/
theorem error_of_build?_append_end {error : BuildError} (hclosing : Step.role closing = .blockEnd)
    (hfits : FitsBefore (rolesOf commands) (rolesOf commands).length)
    (hunclosed : unclosed (rolesOf commands) = bracket :: outer)
    (hbuild : Graph.build? (commands ++ [closing]) = .error error) :
    (∃ reason, error = .armDisorder commands.length reason) ∨
      ∃ keyword earlier, error = .unclosedBlock keyword earlier ∧ earlier < bracket.opener := by
  rcases build?_append_end_cases hclosing hfits hunclosed with
    ⟨_, reason, _, hdisorder⟩ | ⟨_, hfitsMore, hunclosedMore⟩
  · cases hbuild.symm.trans hdisorder
    exact .inl ⟨reason, rfl⟩
  · cases outer with
    | nil =>
        obtain ⟨graph, hok⟩ := exists_build?_eq_ok_iff.mpr ⟨hfitsMore, hunclosedMore⟩
        cases hbuild.symm.trans hok
    | cons around outer =>
        have hlater := build?_eq_unclosedBlock_iff.mpr
          ⟨hfitsMore, around, outer, hunclosedMore, rfl, rfl⟩
        cases hbuild.symm.trans hlater
        exact .inr ⟨_, _, rfl, opener_lt_of_unclosed hunclosed List.mem_cons_self⟩

/-! ## Further ends -/

theorem SettledBehind.succ {count : Nat}
    (hbuild : Graph.build? commands = .error (.unclosedBlock keyword index))
    (hlater : SettledBehind (commands ++ [closing]) closing count) :
    SettledBehind commands closing (count + 1) := by
  have happend : ∀ more, commands ++ [closing] ++ List.replicate more closing =
      commands ++ List.replicate (more + 1) closing := by
    intro more
    rw [List.append_assoc, List.singleton_append, List.replicate_succ]
  obtain ⟨hunclosed, hsettled⟩ := hlater
  simp only [happend, List.length_append, List.length_singleton] at hunclosed hsettled
  refine ⟨fun fewer hfewer => ?_, ?_⟩
  · cases fewer with
    | zero => exact ⟨keyword, index, by simpa using hbuild⟩
    | succ fewer => exact hunclosed fewer (Nat.le_of_succ_le_succ hfewer)
  · rwa [Nat.add_assoc commands.length, Nat.add_comm 1] at hsettled

theorem settledBehind_zero
    (hbuild : Graph.build? commands = .error (.unclosedBlock keyword index))
    (hsettled : (∃ graph, Graph.build? (commands ++ [closing]) = .ok graph) ∨
      ∃ reason, Graph.build? (commands ++ [closing]) =
        .error (.armDisorder commands.length reason)) :
    SettledBehind commands closing 0 := by
  refine ⟨fun fewer hfewer => ?_, hsettled⟩
  rw [Nat.le_zero.mp hfewer, List.replicate_zero, List.append_nil]
  exact ⟨keyword, index, hbuild⟩

/-- As many `end`s as blocks are open complete the test, unless one finds arms out of order. -/
theorem exists_settledBehind (hclosing : Step.role closing = .blockEnd)
    (hfits : FitsBefore (rolesOf commands) (rolesOf commands).length)
    (hunclosed : unclosed (rolesOf commands) = bracket :: outer) :
    ∃ count ≤ outer.length, SettledBehind commands closing count := by
  induction outer generalizing commands bracket with
  | nil =>
      have hbuild := build?_eq_unclosedBlock_iff.mpr ⟨hfits, bracket, [], hunclosed, rfl, rfl⟩
      refine ⟨0, Nat.le_refl 0, settledBehind_zero hbuild ?_⟩
      rcases build?_append_end_cases hclosing hfits hunclosed with
        ⟨_, reason, _, hdisorder⟩ | ⟨_, hclosed⟩
      · exact .inr ⟨reason, hdisorder⟩
      · exact .inl (exists_build?_eq_ok_iff.mpr hclosed)
  | cons around outer ih =>
      have hbuild := build?_eq_unclosedBlock_iff.mpr ⟨hfits, bracket, _, hunclosed, rfl, rfl⟩
      rcases build?_append_end_cases hclosing hfits hunclosed with
        ⟨_, reason, _, hdisorder⟩ | ⟨_, hfitsMore, hunclosedMore⟩
      · exact ⟨0, Nat.zero_le _, settledBehind_zero hbuild (.inr ⟨reason, hdisorder⟩)⟩
      · obtain ⟨count, hcount, hlater⟩ := ih hfitsMore hunclosedMore
        exact ⟨count + 1, Nat.succ_le_succ hcount, hlater.succ hbuild⟩

/-- If the innermost unclosed block is blamed, a further `end` closes it.  The test is accepted
exactly if no other block was unclosed and the arms of this one are in order; the arms are reported,
at that `end`, exactly if the block is an `if` and they are out of order; and otherwise a block is
blamed that was opened earlier.  Repeated `end`s, at most as many as there are unclosed blocks, lead
to acceptance or to arms out of order. -/
theorem end_closes_innermost_block (hclosing : Step.role closing = .blockEnd)
    (hbuild : Graph.build? commands = .error (.unclosedBlock keyword index)) :
    ((∃ graph, Graph.build? (commands ++ [closing]) = .ok graph) ↔
      (∀ bracket, Opens (rolesOf commands) bracket →
          (∀ last, ¬Closes (rolesOf commands) bracket last) → bracket.opener = index) ∧
        (keyword = .ifWord → InOrder (armsWithin (rolesOf commands) index commands.length))) ∧
    (∀ reason,
      Graph.build? (commands ++ [closing]) = .error (.armDisorder commands.length reason) ↔
        keyword = .ifWord ∧
          Disordered (armsWithin (rolesOf commands) index commands.length) reason) ∧
    (∀ error, Graph.build? (commands ++ [closing]) = .error error →
      (∃ reason, error = .armDisorder commands.length reason) ∨
        ∃ around earlier, error = .unclosedBlock around earlier ∧ earlier < index) ∧
    ∃ count < (unclosed (rolesOf commands)).length, SettledBehind commands closing count := by
  obtain ⟨hfits, bracket, outer, hunclosed, rfl, rfl⟩ := build?_eq_unclosedBlock_iff.mp hbuild
  rw [forall_opener_eq_iff hunclosed, keyword_eq_ifWord_iff, hunclosed]
  refine ⟨exists_build?_append_end_iff hclosing hfits hunclosed,
    fun reason => build?_append_end_eq_armDisorder_iff hclosing hfits hunclosed,
    fun error => error_of_build?_append_end hclosing hfits hunclosed, ?_⟩
  obtain ⟨count, hcount, hsettled⟩ := exists_settledBehind hclosing hfits hunclosed
  exact ⟨count, Nat.lt_succ_of_le hcount, hsettled⟩

/-- Two `end`s complete a loop in an `if`; with a second `else`, the second of them finds it. -/
theorem sample_end_closes_innermost_block :
    Graph.build? ["if", "a", "else", "times", "b"] = .error (.unclosedBlock .timesWord 3) ∧
      (∃ count < 2, SettledBehind ["if", "a", "else", "times", "b"] "end" count) ∧
      Graph.build? ["if", "else", "else", "while", "end"] = .error (.unclosedBlock .ifWord 0) ∧
      Graph.build? ["if", "else", "else", "while", "end", "end"] =
        .error (.armDisorder 5 .tooManyElse) := by
  have hloop : Graph.build? ["if", "a", "else", "times", "b"] =
      .error (.unclosedBlock .timesWord 3) := rfl
  have harms : Graph.build? ["if", "else", "else", "while", "end"] =
      .error (.unclosedBlock .ifWord 0) := rfl
  have hclosing : Step.role "end" = .blockEnd := rfl
  refine ⟨hloop, (end_closes_innermost_block hclosing hloop).2.2.2, harms, ?_⟩
  exact ((end_closes_innermost_block hclosing harms).2.1 .tooManyElse).mpr
    ⟨rfl, .tooManyElse (by decide)⟩

end Commands

end StepFlow
