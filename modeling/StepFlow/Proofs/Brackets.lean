import Mathlib.Data.Nat.Init
import StepFlow.Block

/-!
# Bracket matching

The blocks of a test can be found without any levels: `if`, `do` and `times` open a bracket, `while`
opens one unless the innermost open bracket is a `do`, and `end` closes the innermost one.  This
file defines that reading of a list of roles and proves its geometry: how long a bracket stays
open, what is open when it closes, and that a bracket has at most one closing position.  Nothing
here assumes that the roles form a valid test.
-/

namespace StepFlow

/-- A block as bracket matching sees it: its kind and the position of its opening command. -/
structure Bracket where
  block : Block
  opener : Nat
  deriving DecidableEq, Repr

/-- The open brackets after the command at `index`, from those before it.  The innermost bracket
comes first. -/
def Bracket.advance (index : Nat) (role : Role) (brackets : List Bracket) : List Bracket :=
  match role with
  | .opening opener => ⟨opener.block, index⟩ :: brackets
  | .loopTest .whileTest =>
      if brackets.head?.map Bracket.block = some .doLoop then brackets
      else ⟨.whileLoop, index⟩ :: brackets
  | .blockEnd => brackets.tail
  | .loopTest .repeatIf | .branchArm _ | .ordinary => brackets

/-- The brackets that are open just before position `index`. -/
def openBefore (roles : List Role) : Nat → List Bracket
  | 0 => []
  | index + 1 =>
      match roles[index]? with
      | none => openBefore roles index
      | some role => Bracket.advance index role (openBefore roles index)

/-- The innermost bracket that is open just before position `index`. -/
def innermost? (roles : List Role) (index : Nat) : Option Bracket :=
  (openBefore roles index).head?

/-- The command at `last` is the `end` that closes `bracket`. -/
def Closes (roles : List Role) (bracket : Bracket) (last : Nat) : Prop :=
  roles[last]? = some .blockEnd ∧ innermost? roles last = some bracket

instance (roles : List Role) (bracket : Bracket) (last : Nat) :
    Decidable (Closes roles bracket last) :=
  inferInstanceAs (Decidable (_ ∧ _))

variable {roles : List Role} {bracket : Bracket} {outer : List Bracket} {index last : Nat}

@[simp]
theorem openBefore_zero (roles : List Role) : openBefore roles 0 = [] := rfl

theorem openBefore_succ {role : Role} (hrole : roles[index]? = some role) :
    openBefore roles (index + 1) = Bracket.advance index role (openBefore roles index) := by
  rw [openBefore, hrole]

theorem openBefore_succ_of_none (hrole : roles[index]? = none) :
    openBefore roles (index + 1) = openBefore roles index := by
  rw [openBefore, hrole]

/-! ## One step of the reading -/

theorem Bracket.advance_cases (index : Nat) (role : Role) (brackets : List Bracket) :
    (∃ block, advance index role brackets = ⟨block, index⟩ :: brackets) ∨
      advance index role brackets = brackets ∨
      role = .blockEnd ∧ advance index role brackets = brackets.tail := by
  unfold advance
  split
  · exact .inl ⟨_, rfl⟩
  · split
    · exact .inr (.inl rfl)
    · exact .inl ⟨_, rfl⟩
  · exact .inr (.inr ⟨rfl, rfl⟩)
  · exact .inr (.inl rfl)
  · exact .inr (.inl rfl)
  · exact .inr (.inl rfl)

/-- One command opens one bracket, closes the innermost one, or changes nothing. -/
theorem openBefore_succ_cases (roles : List Role) (index : Nat) :
    (∃ block, openBefore roles (index + 1) = ⟨block, index⟩ :: openBefore roles index) ∨
      openBefore roles (index + 1) = openBefore roles index ∨
      roles[index]? = some .blockEnd ∧
        openBefore roles (index + 1) = (openBefore roles index).tail := by
  cases hrole : roles[index]? with
  | none => exact .inr (.inl (openBefore_succ_of_none hrole))
  | some role =>
      rw [openBefore_succ hrole, Option.some_inj]
      exact Bracket.advance_cases index role _

theorem mem_openBefore_of_mem_succ (hmem : bracket ∈ openBefore roles (index + 1))
    (hopener : bracket.opener ≠ index) : bracket ∈ openBefore roles index := by
  rcases openBefore_succ_cases roles index with ⟨block, hpush⟩ | hkeep | ⟨_, hpop⟩
  · rw [hpush, List.mem_cons] at hmem
    rcases hmem with rfl | hmem
    · exact absurd rfl hopener
    · exact hmem
  · rwa [hkeep] at hmem
  · rw [hpop] at hmem
    exact List.mem_of_mem_tail hmem

/-- A bracket is open only after its opening command. -/
theorem opener_lt_of_mem (hmem : bracket ∈ openBefore roles index) : bracket.opener < index := by
  induction index with
  | zero => simp at hmem
  | succ index ih =>
      by_cases hopener : bracket.opener = index
      · omega
      · have hbefore := ih (mem_openBefore_of_mem_succ hmem hopener)
        omega

/-! ## How long a bracket stays open -/

theorem suffix_openBefore_of_suffix_succ
    (hsuffix : bracket :: outer <:+ openBefore roles (index + 1))
    (hopener : bracket.opener ≠ index) : bracket :: outer <:+ openBefore roles index := by
  rcases openBefore_succ_cases roles index with ⟨block, hpush⟩ | hkeep | ⟨_, hpop⟩
  · rw [hpush, List.suffix_cons_iff] at hsuffix
    rcases hsuffix with heq | hsuffix
    · rw [List.cons.injEq] at heq
      exact absurd (congrArg Bracket.opener heq.1) hopener
    · exact hsuffix
  · rwa [hkeep] at hsuffix
  · rw [hpop] at hsuffix
    exact hsuffix.trans (List.tail_suffix _)

/-- A bracket that is open at `last` has been open, with the same brackets around it, ever since
its opening command. -/
theorem suffix_openBefore_of_le (hsuffix : bracket :: outer <:+ openBefore roles last)
    (hopener : bracket.opener < index) (hle : index ≤ last) :
    bracket :: outer <:+ openBefore roles index := by
  induction last with
  | zero => simp at hsuffix
  | succ last ih =>
      by_cases hlast : index = last + 1
      · rwa [hlast]
      · exact ih (suffix_openBefore_of_suffix_succ hsuffix (by omega)) (by omega)

/-- What is around an open bracket is what was open when it was opened. -/
theorem openBefore_opener (hsuffix : bracket :: outer <:+ openBefore roles index) :
    openBefore roles bracket.opener = outer ∧
      openBefore roles (bracket.opener + 1) = bracket :: outer := by
  have hlt := opener_lt_of_mem (hsuffix.mem List.mem_cons_self)
  have hfirst := suffix_openBefore_of_le hsuffix (Nat.lt_succ_self _) hlt
  -- Before its opening command the bracket is not open, so that command has to push it.
  have hnot : bracket ∉ openBefore roles bracket.opener := fun hmem =>
    Nat.lt_irrefl _ (opener_lt_of_mem hmem)
  rcases openBefore_succ_cases roles bracket.opener with ⟨block, hpush⟩ | hkeep | ⟨_, hpop⟩
  · rw [hpush, List.suffix_cons_iff] at hfirst
    rcases hfirst with heq | hinside
    · rw [hpush, ← heq]
      exact ⟨(List.cons.inj heq).2.symm, rfl⟩
    · exact absurd (hinside.mem List.mem_cons_self) hnot
  · rw [hkeep] at hfirst
    exact absurd (hfirst.mem List.mem_cons_self) hnot
  · rw [hpop] at hfirst
    exact absurd (List.mem_of_mem_tail (hfirst.mem List.mem_cons_self)) hnot

/-- The command that opened a bracket is an opening keyword of its kind, or a `while` that opens
its own loop. -/
theorem role_opener (hmem : bracket ∈ openBefore roles index) :
    (∃ opener : Opener, roles[bracket.opener]? = some (.opening opener) ∧
        bracket.block = opener.block) ∨
      roles[bracket.opener]? = some (.loopTest .whileTest) ∧ bracket.block = .whileLoop ∧
        (innermost? roles bracket.opener).map Bracket.block ≠ some .doLoop := by
  obtain ⟨inner, outer, hsplit⟩ := List.append_of_mem hmem
  obtain ⟨hbefore, hafter⟩ := openBefore_opener ⟨inner, hsplit.symm⟩
  have hgrows : (openBefore roles (bracket.opener + 1)).length = outer.length + 1 := by
    rw [hafter, List.length_cons]
  cases hrole : roles[bracket.opener]? with
  | none =>
      rw [openBefore_succ_of_none hrole, hbefore] at hgrows
      omega
  | some role =>
      rw [openBefore_succ hrole, hbefore] at hafter hgrows
      unfold Bracket.advance at hafter hgrows
      split at hafter
      · exact .inl ⟨_, rfl, (congrArg Bracket.block (List.cons.inj hafter).1).symm⟩
      · split at hafter
        · simp at hafter
        · refine .inr ⟨rfl, (congrArg Bracket.block (List.cons.inj hafter).1).symm, ?_⟩
          rwa [innermost?, hbefore]
      all_goals simp at hgrows

theorem exists_suffix_of_mem (hmem : bracket ∈ openBefore roles index) :
    bracket :: openBefore roles bracket.opener <:+ openBefore roles index := by
  obtain ⟨inner, outer, hsplit⟩ := List.append_of_mem hmem
  have hsuffix : bracket :: outer <:+ openBefore roles index := ⟨inner, hsplit.symm⟩
  rwa [(openBefore_opener hsuffix).1]

theorem mem_openBefore_of_le (hmem : bracket ∈ openBefore roles last)
    (hopener : bracket.opener < index) (hle : index ≤ last) : bracket ∈ openBefore roles index :=
  (suffix_openBefore_of_le (exists_suffix_of_mem hmem) hopener hle).mem List.mem_cons_self

theorem openBefore_eq_of_innermost (hinner : innermost? roles index = some bracket) :
    openBefore roles index = bracket :: openBefore roles bracket.opener := by
  obtain ⟨outer, houter⟩ := List.head?_eq_some_iff.mp hinner
  have hsuffix : bracket :: outer <:+ openBefore roles index := ⟨[], houter.symm⟩
  rw [houter, (openBefore_opener hsuffix).1]

theorem mem_openBefore_of_innermost (hinner : innermost? roles index = some bracket) :
    bracket ∈ openBefore roles index :=
  List.mem_of_mem_head? hinner

/-! ## Closing positions -/

theorem Closes.openBefore_eq (hcloses : Closes roles bracket last) :
    openBefore roles last = bracket :: openBefore roles bracket.opener :=
  openBefore_eq_of_innermost hcloses.2

theorem Closes.openBefore_succ_eq (hcloses : Closes roles bracket last) :
    openBefore roles (last + 1) = openBefore roles bracket.opener := by
  rw [openBefore_succ hcloses.1, Bracket.advance, hcloses.openBefore_eq, List.tail_cons]

theorem Closes.opener_lt (hcloses : Closes roles bracket last) : bracket.opener < last :=
  opener_lt_of_mem (mem_openBefore_of_innermost hcloses.2)

theorem Closes.lt_length (hcloses : Closes roles bracket last) : last < roles.length :=
  (List.getElem?_eq_some_iff.mp hcloses.1).1

/-- A closed bracket is open exactly between its opening command and its `end`. -/
theorem Closes.mem_openBefore_iff (hcloses : Closes roles bracket last) :
    bracket ∈ openBefore roles index ↔ bracket.opener < index ∧ index ≤ last := by
  constructor
  · intro hmem
    refine ⟨opener_lt_of_mem hmem, Nat.le_of_not_lt fun hafter => ?_⟩
    have hstill : bracket :: openBefore roles bracket.opener <:+ openBefore roles (last + 1) :=
      suffix_openBefore_of_le (exists_suffix_of_mem hmem)
        (Nat.lt_succ_of_lt hcloses.opener_lt) hafter
    rw [hcloses.openBefore_succ_eq] at hstill
    exact Nat.lt_irrefl _ (opener_lt_of_mem (hstill.mem List.mem_cons_self))
  · rintro ⟨hopener, hle⟩
    exact mem_openBefore_of_le (mem_openBefore_of_innermost hcloses.2) hopener hle

/-- The block around the next command ends behind this one. -/
theorem Closes.lt_of_innermost_succ (hcloses : Closes roles bracket last)
    (hinner : innermost? roles (index + 1) = some bracket) : index < last :=
  (hcloses.mem_openBefore_iff.mp (mem_openBefore_of_innermost hinner)).2

theorem Closes.unique {other : Nat} (hcloses : Closes roles bracket last)
    (hother : Closes roles bracket other) : last = other := by
  have hle := (hother.mem_openBefore_iff.mp (mem_openBefore_of_innermost hcloses.2)).2
  have hge := (hcloses.mem_openBefore_iff.mp (mem_openBefore_of_innermost hother.2)).2
  exact Nat.le_antisymm hle hge

/-- A bracket that is open at `index` and not at `last` any more is closed on the way. -/
theorem exists_closes (hsuffix : bracket :: outer <:+ openBefore roles index)
    (hle : index ≤ last) (hgone : ¬bracket :: outer <:+ openBefore roles last) :
    ∃ closing, index ≤ closing ∧ closing < last ∧ Closes roles bracket closing := by
  induction hle using Nat.decreasingInduction with
  | self => exact absurd hsuffix hgone
  | of_succ index hlt ih =>
      by_cases hstill : bracket :: outer <:+ openBefore roles (index + 1)
      · obtain ⟨closing, hge, hclosing⟩ := ih hstill
        exact ⟨closing, Nat.le_of_succ_le hge, hclosing⟩
      -- The bracket is not open any more: the command at `index` is its `end`.
      · rcases openBefore_succ_cases roles index with ⟨block, hpush⟩ | hkeep | ⟨hend, hpop⟩
        · exact absurd (hpush ▸ hsuffix.trans (List.suffix_cons _ _)) hstill
        · exact absurd (hkeep ▸ hsuffix) hstill
        · obtain ⟨inner, tail, hcons⟩ := List.exists_cons_of_ne_nil
            (List.ne_nil_of_mem (hsuffix.mem List.mem_cons_self))
          rw [hcons, List.suffix_cons_iff] at hsuffix
          rcases hsuffix with heq | hinside
          · refine ⟨index, Nat.le_refl _, hlt, hend, ?_⟩
            rw [innermost?, hcons, ← heq, List.head?_cons]
          · rw [hpop, hcons, List.tail_cons] at hstill
            exact absurd hinside hstill

end StepFlow
