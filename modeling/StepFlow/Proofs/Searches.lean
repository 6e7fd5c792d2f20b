import Mathlib.Data.Nat.Find
import StepFlow.Linking
import StepFlow.Proofs.Outlines

/-!
# Searches by level

Linking looks for the end of a block, or for the next arm of a chain, by scanning forward for a
level number.  While a bracket is open, every command inside it lies deeper than the bracket
itself, except for the bracket's own arms and its `end`.  Hence a scan that starts inside a bracket
and looks for the level of its opening command meets that bracket's own commands and no others.
-/

namespace StepFlow

/-- The command at `index` is an `elseIf` or `else` of the chain that `bracket` opened. -/
def ArmOf (roles : List Role) (bracket : Bracket) (index : Nat) : Prop :=
  (∃ arm, roles[index]? = some (.branchArm arm)) ∧ innermost? roles index = some bracket

/-- The command at `index` stands at the level of the bracket it belongs to: it is one of its arms
or its `end`. -/
def Marks (roles : List Role) (bracket : Bracket) (index : Nat) : Prop :=
  ArmOf roles bracket index ∨ Closes roles bracket index

/-- Where a chain goes on after `index`: at its next arm, or at its `end` if there is no other
arm. -/
def ChainGoesOn (roles : List Role) (bracket : Bracket) (index target : Nat) : Prop :=
  index < target ∧
    (ArmOf roles bracket target ∧
        (∀ between, index < between → between < target → ¬ArmOf roles bracket between) ∨
      Closes roles bracket target ∧ ∀ later, index < later → ¬ArmOf roles bracket later)

variable {roles : List Role} {bracket : Bracket} {index start target last : Nat}

theorem Marks.innermost (hmarks : Marks roles bracket index) :
    innermost? roles index = some bracket := by
  rcases hmarks with harm | hcloses
  · exact harm.2
  · exact hcloses.2

theorem Marks.lt_length (hmarks : Marks roles bracket index) : index < roles.length := by
  rcases hmarks with ⟨⟨arm, hrole⟩, _⟩ | hcloses
  · exact (List.getElem?_eq_some_iff.mp hrole).1
  · exact hcloses.lt_length

theorem levelAt_of_armOf (harm : ArmOf roles bracket index) :
    levelAt roles index = (openBefore roles bracket.opener).length := by
  obtain ⟨⟨arm, hrole⟩, hinner⟩ := harm
  simp [levelAt, hrole, openBefore_eq_of_innermost hinner]

theorem levelAt_of_closes (hcloses : Closes roles bracket index) :
    levelAt roles index = (openBefore roles bracket.opener).length := by
  simp [levelAt, hcloses.1, hcloses.openBefore_eq]

/-- Inside a bracket only its own arms and its `end` stand at the level of its opening command. -/
theorem levelAt_eq_iff_marks (hmem : bracket ∈ openBefore roles index) :
    levelAt roles index = (openBefore roles bracket.opener).length ↔
      Marks roles bracket index := by
  constructor
  · intro hlevel
    have hsuffix := exists_suffix_of_mem hmem
    have hlength := hsuffix.length_le
    rw [List.length_cons] at hlength
    -- The level can only fall below the number of open brackets at an arm or an `end`.
    have hinner : (openBefore roles index).length ≤ levelAt roles index + 1 →
        innermost? roles index = some bracket := by
      intro hle
      have heq := hsuffix.eq_of_length_le (by rw [List.length_cons]; omega)
      rw [innermost?, ← heq, List.head?_cons]
    unfold levelAt at hlevel hinner
    split at hlevel
    next arm hrole =>
      exact .inl ⟨⟨arm, hrole⟩, hinner (by simp [hrole]; omega)⟩
    next hrole =>
      exact .inr ⟨hrole, hinner (by simp [hrole]; omega)⟩
    next => omega
  · rintro (harm | hcloses)
    · exact levelAt_of_armOf harm
    · exact levelAt_of_closes hcloses

theorem Closes.not_armOf (hcloses : Closes roles bracket last) : ¬ArmOf roles bracket last := by
  rintro ⟨⟨arm, hrole⟩, _⟩
  rw [hcloses.1] at hrole
  cases hrole

/-- Whatever a chain meets first after `index` is where it goes on. -/
theorem chainGoesOn_of_marks (hlt : index < target) (hmarks : Marks roles bracket target)
    (hfirst : ∀ between, index < between → between < target → ¬Marks roles bracket between) :
    ChainGoesOn roles bracket index target := by
  refine ⟨hlt, ?_⟩
  rcases hmarks with harm | hcloses
  · exact .inl ⟨harm, fun between hafter hbefore hbetween =>
      hfirst between hafter hbefore (.inl hbetween)⟩
  · refine .inr ⟨hcloses, fun later hafter hlater => ?_⟩
    have hle := (hcloses.mem_openBefore_iff.mp (mem_openBefore_of_innermost hlater.2)).2
    rcases Nat.lt_or_eq_of_le hle with hbefore | rfl
    · exact hfirst later hafter hbefore (.inl hlater)
    · exact hcloses.not_armOf hlater

theorem ChainGoesOn.marks (hgoes : ChainGoesOn roles bracket index target) :
    Marks roles bracket target := by
  rcases hgoes with ⟨_, ⟨harm, _⟩ | ⟨hcloses, _⟩⟩
  · exact .inl harm
  · exact .inr hcloses

theorem ChainGoesOn.not_marks {between : Nat} (hgoes : ChainGoesOn roles bracket index target)
    (hafter : index < between) (hbefore : between < target) : ¬Marks roles bracket between := by
  have hopen := mem_openBefore_of_innermost hgoes.marks.innermost
  rintro (harm | hcloses)
  · rcases hgoes with ⟨_, ⟨_, hfirst⟩ | ⟨_, hnone⟩⟩
    · exact hfirst between hafter hbefore harm
    · exact hnone between hafter harm
  · exact absurd (hcloses.mem_openBefore_iff.mp hopen).2 (Nat.not_le_of_lt hbefore)

/-- A chain goes on at one place only. -/
theorem ChainGoesOn.unique {other : Nat} (hgoes : ChainGoesOn roles bracket index target)
    (hother : ChainGoesOn roles bracket index other) : target = other := by
  rcases Nat.lt_trichotomy target other with hbefore | heq | hafter
  · exact absurd hgoes.marks (hother.not_marks hgoes.1 hbefore)
  · exact heq
  · exact absurd hother.marks (hgoes.not_marks hother.1 hafter)

theorem exists_chainGoesOn (hcloses : Closes roles bracket last) (hlt : index < last) :
    ∃ target, ChainGoesOn roles bracket index target := by
  classical
  have hexists : ∃ position, index < position ∧ Marks roles bracket position :=
    ⟨last, hlt, .inr hcloses⟩
  obtain ⟨hafter, hmarks⟩ := Nat.find_spec hexists
  refine ⟨Nat.find hexists, chainGoesOn_of_marks hafter hmarks ?_⟩
  intro between hbetween hbefore hmarksBetween
  exact Nat.find_min hexists hbefore ⟨hbetween, hmarksBetween⟩

/-! ## What the two searches find -/

theorem findIdx?_drop_eq_some {β : Type} {items : List β} {found : β} {p : β → Bool}
    (hle : start ≤ target) (hfound : items[target]? = some found) (hp : p found = true)
    (hfirst : ∀ position item, start ≤ position → position < target →
      items[position]? = some item → p item = false) :
    ((items.drop start).findIdx? p).map (start + ·) = some target := by
  obtain ⟨hlength, rfl⟩ := List.getElem?_eq_some_iff.mp hfound
  rw [Option.map_eq_some_iff]
  refine ⟨target - start, List.findIdx?_eq_some_iff_getElem.mpr ⟨?_, ?_, ?_⟩, by omega⟩
  · rw [List.length_drop]
    omega
  · rw [List.getElem_drop]
    simpa [Nat.add_sub_cancel' hle] using hp
  · intro offset hoffset
    rw [List.getElem_drop, hfirst (start + offset) _ (by omega) (by omega)
      (List.getElem?_eq_getElem (by omega))]
    simp

section Leveled

variable {α : Type} [Step α] {commands : List α}

theorem getElem?_leveled_eq_some {entry : Entry α}
    (hentry : (leveled commands)[index]? = some entry) :
    (rolesOf commands)[index]? = some (Step.role entry.command) ∧
      entry.level = levelAt (rolesOf commands) index := by
  rw [leveled, List.getElem?_mapIdx, Option.map_eq_some_iff] at hentry
  obtain ⟨command, hcommand, rfl⟩ := hentry
  exact ⟨getElem?_rolesOf hcommand, rfl⟩

theorem exists_getElem?_leveled {role : Role} (hrole : (rolesOf commands)[index]? = some role) :
    ∃ command, Step.role command = role ∧
      (leveled commands)[index]? = some ⟨command, levelAt (rolesOf commands) index⟩ := by
  rw [rolesOf, List.getElem?_map, Option.map_eq_some_iff] at hrole
  obtain ⟨command, hcommand, hrole⟩ := hrole
  exact ⟨command, hrole, getElem?_leveled hcommand⟩

/-- From inside a bracket, the first `end` at the level of its opening command closes it. -/
theorem firstEndAt?_of_closes (hcloses : Closes (rolesOf commands) bracket last)
    (hopener : bracket.opener < start) (hle : start ≤ last) :
    firstEndAt? (openBefore (rolesOf commands) bracket.opener).length start
        ((leveled commands).drop start) = some last := by
  obtain ⟨command, hrole, hentry⟩ := exists_getElem?_leveled hcloses.1
  refine findIdx?_drop_eq_some hle hentry ?_ ?_
  · simp [levelAt_of_closes hcloses, hrole, Role.isEnd]
  · intro position entry hafter hbefore hposition
    obtain ⟨hrole, hlevel⟩ := getElem?_leveled_eq_some hposition
    have hmem : bracket ∈ openBefore (rolesOf commands) position :=
      hcloses.mem_openBefore_iff.mpr ⟨by omega, by omega⟩
    rw [Bool.eq_false_iff, Ne, Bool.and_eq_true, beq_iff_eq]
    rintro ⟨hdepth, hend⟩
    have hmarks := (levelAt_eq_iff_marks hmem).mp (hlevel ▸ hdepth)
    rcases hmarks with ⟨⟨arm, harm⟩, _⟩ | hclosesHere
    · rw [Option.some_inj.mp (hrole.symm.trans harm)] at hend
      contradiction
    · exact absurd (hcloses.unique hclosesHere) (by omega)

/-- From inside a bracket, the first command at the level of its opening command is where the chain
goes on. -/
theorem firstAt?_of_chainGoesOn (hgoes : ChainGoesOn (rolesOf commands) bracket index target)
    (hopener : bracket.opener ≤ index) :
    firstAt? (openBefore (rolesOf commands) bracket.opener).length (index + 1)
        ((leveled commands).drop (index + 1)) = some target := by
  have hopen := mem_openBefore_of_innermost hgoes.marks.innermost
  have hlevel := (levelAt_eq_iff_marks hopen).mpr hgoes.marks
  have hlength : target < (leveled commands).length := by
    simpa using hgoes.marks.lt_length
  refine findIdx?_drop_eq_some hgoes.1 (List.getElem?_eq_getElem hlength) ?_ ?_
  · simp [leveled, hlevel]
  · intro position entry hafter hbefore hposition
    obtain ⟨_, hlevelHere⟩ := getElem?_leveled_eq_some hposition
    have hmem := mem_openBefore_of_le hopen (Nat.lt_of_le_of_lt hopener hafter)
      (Nat.le_of_lt hbefore)
    rw [Bool.eq_false_iff, Ne, beq_iff_eq, hlevelHere, levelAt_eq_iff_marks hmem]
    exact hgoes.not_marks hafter hbefore

/-- The scan for the end of the block around the next command finds it. -/
theorem WellBracketed.exists_firstEndAt? (hwell : WellBracketed (rolesOf commands))
    (hinner : innermost? (rolesOf commands) (index + 1) = some bracket)
    (hindex : index + 1 ≤ (rolesOf commands).length) :
    ∃ last, Closes (rolesOf commands) bracket last ∧
      firstEndAt? (openBefore (rolesOf commands) bracket.opener).length (index + 1)
        ((leveled commands).drop (index + 1)) = some last := by
  have hmem := mem_openBefore_of_innermost hinner
  obtain ⟨last, hle, hlast⟩ := hwell.exists_closes hmem hindex
  exact ⟨last, hlast, firstEndAt?_of_closes hlast (opener_lt_of_mem hmem) hle⟩

/-- The scan for the next arm of the chain around the next command finds where it goes on. -/
theorem WellBracketed.exists_firstAt? (hwell : WellBracketed (rolesOf commands))
    (hinner : innermost? (rolesOf commands) (index + 1) = some bracket)
    (hindex : index + 1 ≤ (rolesOf commands).length) :
    ∃ target, ChainGoesOn (rolesOf commands) bracket index target ∧
      firstAt? (openBefore (rolesOf commands) bracket.opener).length (index + 1)
        ((leveled commands).drop (index + 1)) = some target := by
  have hmem := mem_openBefore_of_innermost hinner
  obtain ⟨last, hle, hlast⟩ := hwell.exists_closes hmem hindex
  obtain ⟨target, hgoes⟩ := exists_chainGoesOn hlast hle
  exact ⟨target, hgoes,
    firstAt?_of_chainGoesOn hgoes (Nat.le_of_lt_succ (opener_lt_of_mem hmem))⟩

end Leveled

end StepFlow
