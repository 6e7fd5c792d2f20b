import Mathlib.Data.List.Nodup
import StepFlow.Proofs.Searches

/-!
# Blocks around a command

While a test is read, the blocks around a command are the brackets that are open before it.  Seen as
a whole, a valid test is a list of blocks, each with an opening command and an `end`, and the blocks
around a command are those that begin before it and end behind it.  This file lists the blocks and
proves that the two views agree.
-/

namespace StepFlow

/-- The command at `index` lies strictly inside the block that ends at `last`. -/
structure Encloses (roles : List Role) (block : Bracket) (last index : Nat) : Prop where
  closes : Closes roles block last
  opener_lt : block.opener < index
  lt_last : index < last

/-- Of all blocks around the command at `index` this one begins last. -/
structure EnclosesDirectly (roles : List Role) (block : Bracket) (last index : Nat) : Prop
    extends Encloses roles block last index where
  innermost : ∀ other otherLast, Encloses roles other otherLast index →
    other.opener ≤ block.opener

instance (roles : List Role) (chain : Bracket) (index : Nat) :
    Decidable (ArmOf roles chain index) :=
  decidable_of_iff
    ((roles[index]? = some (.branchArm .elseIf) ∨ roles[index]? = some (.branchArm .otherwise)) ∧
      innermost? roles index = some chain) <| by
    refine and_congr_left fun _ => ⟨?_, ?_⟩
    · rintro (helseIf | helse)
      · exact ⟨_, helseIf⟩
      · exact ⟨_, helse⟩
    · rintro ⟨arm, harm⟩
      cases arm with
      | elseIf => exact .inl harm
      | otherwise => exact .inr harm

instance (roles : List Role) (block : Bracket) (index : Nat) :
    Decidable (Marks roles block index) :=
  inferInstanceAs (Decidable (_ ∨ _))

/-- The blocks of a test, each with the position of its `end`, in the order in which they end. -/
def blocksOf (roles : List Role) : List (Bracket × Nat) :=
  (List.range roles.length).filterMap fun last =>
    if roles[last]? = some .blockEnd then (innermost? roles last).map (·, last) else none

/-- The blocks around the command at `index`.  An arm does not lie in its own chain. -/
def blocksAround (roles : List Role) (index : Nat) : List (Bracket × Nat) :=
  (blocksOf roles).filter fun (block, last) =>
    block.opener < index ∧ index < last ∧ ¬ArmOf roles block index

variable {roles : List Role} {role : Role} {block other : Bracket} {index last : Nat}

/-! ## The open brackets -/

/-- Inner brackets are opened later. -/
theorem pairwise_openBefore (roles : List Role) (index : Nat) :
    (openBefore roles index).Pairwise fun inner outer => outer.opener < inner.opener := by
  induction index with
  | zero => exact List.Pairwise.nil
  | succ index ih =>
      rcases openBefore_succ_cases roles index with ⟨block, hpush⟩ | hkeep | ⟨_, hpop⟩
      · rw [hpush]
        exact List.pairwise_cons.mpr ⟨fun outer => opener_lt_of_mem, ih⟩
      · rwa [hkeep]
      · rw [hpop]
        exact ih.sublist (List.tail_sublist _)

theorem nodup_openBefore (roles : List Role) (index : Nat) : (openBefore roles index).Nodup := by
  refine (pairwise_openBefore roles index).imp ?_
  rintro inner outer hlt rfl
  exact Nat.lt_irrefl _ hlt

theorem Encloses.mem_openBefore (hencloses : Encloses roles block last index) :
    block ∈ openBefore roles index :=
  hencloses.closes.mem_openBefore_iff.mpr
    ⟨hencloses.opener_lt, Nat.le_of_lt hencloses.lt_last⟩

/-- The open brackets are the blocks around a command, and the block that it closes. -/
theorem WellBracketed.exists_encloses_iff (hwell : WellBracketed roles)
    (hindex : index ≤ roles.length) :
    (∃ last, Encloses roles block last index) ↔
      block ∈ openBefore roles index ∧ ¬Closes roles block index := by
  constructor
  · rintro ⟨last, hencloses⟩
    refine ⟨hencloses.mem_openBefore, fun hhere => ?_⟩
    exact Nat.ne_of_lt hencloses.lt_last (hhere.unique hencloses.closes)
  · rintro ⟨hmem, hnot⟩
    obtain ⟨last, hle, hlast⟩ := hwell.exists_closes hmem hindex
    refine ⟨last, hlast, opener_lt_of_mem hmem, Nat.lt_of_le_of_ne hle ?_⟩
    rintro rfl
    exact hnot hlast

/-- Before any other command than an `end`, the open brackets are the blocks around it. -/
theorem WellBracketed.exists_encloses_iff_mem (hwell : WellBracketed roles)
    (hrole : roles[index]? = some role) (hnotEnd : role ≠ .blockEnd) :
    (∃ last, Encloses roles block last index) ↔ block ∈ openBefore roles index := by
  rw [hwell.exists_encloses_iff (Nat.le_of_lt (List.getElem?_eq_some_iff.mp hrole).1),
    and_iff_left_iff_imp]
  rintro - ⟨hend, -⟩
  exact hnotEnd (Option.some_inj.mp (hrole.symm.trans hend))

/-- The innermost open bracket is the block directly around the command. -/
theorem WellBracketed.exists_enclosesDirectly (hwell : WellBracketed roles)
    (hrole : roles[index]? = some role) (hnotEnd : role ≠ .blockEnd)
    (hinner : innermost? roles index = some block) :
    ∃ last, EnclosesDirectly roles block last index := by
  have hmem := mem_openBefore_of_innermost hinner
  obtain ⟨last, hencloses⟩ := (hwell.exists_encloses_iff_mem hrole hnotEnd).mpr hmem
  refine ⟨last, hencloses, fun other otherLast hother => ?_⟩
  have hotherMem := hother.mem_openBefore
  rw [openBefore_eq_of_innermost hinner, List.mem_cons] at hotherMem
  rcases hotherMem with rfl | houter
  · exact Nat.le_refl _
  · exact Nat.le_of_lt (opener_lt_of_mem houter)

/-! ## The list of the blocks -/

theorem mem_blocksOf : (block, last) ∈ blocksOf roles ↔ Closes roles block last := by
  simp only [blocksOf, List.mem_filterMap, List.mem_range, Option.ite_none_right_eq_some,
    Option.map_eq_some_iff, Prod.mk.injEq]
  constructor
  · rintro ⟨position, _, hend, found, hinner, rfl, rfl⟩
    exact ⟨hend, hinner⟩
  · intro hcloses
    exact ⟨last, hcloses.lt_length, hcloses.1, block, hcloses.2, rfl, rfl⟩

theorem nodup_blocksOf (roles : List Role) : (blocksOf roles).Nodup := by
  refine List.nodup_range.filterMap fun position other block hblock hother => ?_
  simp only [Option.mem_def, Option.ite_none_right_eq_some, Option.map_eq_some_iff]
    at hblock hother
  obtain ⟨_, _, _, rfl⟩ := hblock
  obtain ⟨_, _, _, heq⟩ := hother
  exact (congrArg Prod.snd heq).symm

theorem mem_blocksAround :
    (block, last) ∈ blocksAround roles index ↔
      Encloses roles block last index ∧ ¬ArmOf roles block index := by
  simp only [blocksAround, List.mem_filter, mem_blocksOf, decide_eq_true_eq]
  constructor
  · rintro ⟨hcloses, hopener, hlast, hnot⟩
    exact ⟨⟨hcloses, hopener, hlast⟩, hnot⟩
  · rintro ⟨⟨hcloses, hopener, hlast⟩, hnot⟩
    exact ⟨hcloses, hopener, hlast, hnot⟩

/-- A block ends once, so the blocks around a command differ in their brackets. -/
theorem nodup_map_fst_blocksAround (roles : List Role) (index : Nat) :
    ((blocksAround roles index).map Prod.fst).Nodup := by
  refine ((nodup_blocksOf roles).filter _).map_on ?_
  rintro ⟨block, last⟩ hblock ⟨other, otherLast⟩ hother rfl
  have hlast := (mem_blocksAround.mp hblock).1.closes
  rw [hlast.unique (mem_blocksAround.mp hother).1.closes]

/-- The blocks around a command are the open brackets that it does not mark as an arm or as an
`end`. -/
theorem WellBracketed.map_fst_blocksAround_perm (hwell : WellBracketed roles)
    (hindex : index ≤ roles.length) :
    ((blocksAround roles index).map Prod.fst).Perm
      ((openBefore roles index).filter fun block => ¬Marks roles block index) := by
  refine (List.perm_ext_iff_of_nodup (nodup_map_fst_blocksAround roles index)
    ((nodup_openBefore roles index).filter _)).mpr fun block => ?_
  simp only [List.mem_map, Prod.exists, exists_and_right, exists_eq_right, mem_blocksAround,
    List.mem_filter, decide_eq_true_eq, hwell.exists_encloses_iff hindex, Marks, not_or]
  exact and_assoc.trans (and_congr_right' and_comm)

end StepFlow
