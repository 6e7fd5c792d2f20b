import StepFlow.Outline
import StepFlow.Proofs.Brackets
import StepFlow.Proofs.Results

/-!
# Outlines by bracket matching

Outlining a test keeps a stack of open blocks and a level counter.  Both are functions of the open
brackets: the block opened at depth `d` has level `d`, and the counter is the number of open
brackets.  This file shows that outlining never leaves that form, so that the tests which can be
outlined are described, position by position, by bracket matching alone.  Main statement:
`outline?_eq_ok_iff`.
-/

namespace StepFlow

section Definitions

/-- All `elseIf` and `else` roles from position `first` up to, but not including, `last`. -/
def armsWithin (roles : List Role) (first last : Nat) : List Arm :=
  ((roles.take last).drop first).filterMap Role.arm?

/-- What bracket matching objects to in a command with this role at `index`. -/
def misfit? (roles : List Role) (index : Nat) : Role → Option BuildError
  | .branchArm arm =>
      if (innermost? roles index).map Bracket.block = some .ifBlock then none
      else some (.misplacedKeyword arm.keyword index .elseOutsideIf)
  | .loopTest .repeatIf =>
      if (innermost? roles index).map Bracket.block = some .doLoop then none
      else some (.misplacedKeyword .repeatIfWord index .repeatIfWithoutDo)
  | .blockEnd =>
      match innermost? roles index with
      | none => some (.misplacedKeyword .endWord index .endWithoutOpening)
      | some bracket =>
          if bracket.block = .ifBlock then
            (armDisorder? (armsWithin roles bracket.opener index)).map (.armDisorder index)
          else none
  | .opening _ | .loopTest .whileTest | .ordinary => none

/-- The open brackets allow a command with this role at `index`. -/
def Fits (roles : List Role) (index : Nat) : Role → Prop
  | .branchArm _ => (innermost? roles index).map Bracket.block = some .ifBlock
  | .loopTest .repeatIf => (innermost? roles index).map Bracket.block = some .doLoop
  | .blockEnd => ∃ bracket, innermost? roles index = some bracket ∧
      (bracket.block = .ifBlock →
        armDisorder? (armsWithin roles bracket.opener index) = none)
  | .opening _ | .loopTest .whileTest | .ordinary => True

/-- Every command stands where it may stand, and every bracket is closed. -/
structure WellBracketed (roles : List Role) : Prop where
  fits : ∀ index role, roles[index]? = some role → Fits roles index role
  closed : openBefore roles roles.length = []

/-- The number of brackets around a command; an arm or an `end` stands outside its own block. -/
def levelAt (roles : List Role) (index : Nat) : Nat :=
  match roles[index]? with
  | some (.branchArm _) | some .blockEnd => (openBefore roles index).length - 1
  | _ => (openBefore roles index).length

/-- Open brackets as blocks with a level, which is the number of brackets around them. -/
def openBlocks : List Bracket → List OpenBlock
  | [] => []
  | bracket :: outer => ⟨bracket.block, bracket.opener, outer.length⟩ :: openBlocks outer

def nestingOf (brackets : List Bracket) : Nesting := ⟨openBlocks brackets, brackets.length⟩

variable {α : Type} [Step α]

def rolesOf (commands : List α) : List Role := commands.map Step.role

/-- The commands with the levels that bracket matching gives them. -/
def leveled (commands : List α) : List (Entry α) :=
  commands.mapIdx fun index command => ⟨command, levelAt (rolesOf commands) index⟩

end Definitions

section Brackets

variable {roles : List Role} {index : Nat} {role : Role}

theorem misfit?_eq_none_iff : misfit? roles index role = none ↔ Fits roles index role := by
  unfold misfit? Fits
  split
  · simp
  · simp
  · cases innermost? roles index with
    | none => simp
    | some bracket => by_cases hif : bracket.block = .ifBlock <;> simp [hif]
  · simp
  · simp
  · simp

/-- In a well-bracketed test every open bracket is closed later. -/
theorem WellBracketed.exists_closes {bracket : Bracket} (hwell : WellBracketed roles)
    (hmem : bracket ∈ openBefore roles index) (hindex : index ≤ roles.length) :
    ∃ last, index ≤ last ∧ Closes roles bracket last := by
  have hgone : ¬bracket :: openBefore roles bracket.opener <:+ openBefore roles roles.length := by
    simp [hwell.closed]
  obtain ⟨last, hle, _, hlast⟩ :=
    StepFlow.exists_closes (exists_suffix_of_mem hmem) hindex hgone
  exact ⟨last, hle, hlast⟩

@[simp]
theorem innermost?_nestingOf (brackets : List Bracket) :
    (nestingOf brackets).innermost? = brackets.head?.map Bracket.block := by
  cases brackets <;> rfl

theorem enter_nestingOf (brackets : List Bracket) (block : Block) (index : Nat) :
    (nestingOf brackets).enter block index = nestingOf (⟨block, index⟩ :: brackets) := rfl

end Brackets

section Commands

variable {α : Type} [Step α] {commands : List α} {command : α} {index : Nat}

@[simp]
theorem length_rolesOf (commands : List α) : (rolesOf commands).length = commands.length := by
  simp [rolesOf]

theorem getElem?_rolesOf (hcommand : commands[index]? = some command) :
    (rolesOf commands)[index]? = some (Step.role command) := by
  simp [rolesOf, hcommand]

theorem armsBetween_eq_armsWithin (commands : List α) (first last : Nat) :
    Nesting.armsBetween commands first last = armsWithin (rolesOf commands) first last := by
  rw [armsWithin, rolesOf, ← List.map_take, ← List.map_drop, List.filterMap_map]
  rfl

@[simp]
theorem length_leveled (commands : List α) : (leveled commands).length = commands.length := by
  simp [leveled]

theorem getElem?_leveled (hcommand : commands[index]? = some command) :
    (leveled commands)[index]? = some ⟨command, levelAt (rolesOf commands) index⟩ := by
  simp [leveled, hcommand]

theorem drop_leveled (hcommand : commands[index]? = some command) :
    (leveled commands).drop index =
      ⟨command, levelAt (rolesOf commands) index⟩ :: (leveled commands).drop (index + 1) := by
  obtain ⟨hlt, hget⟩ := List.getElem?_eq_some_iff.mp (getElem?_leveled hcommand)
  rw [List.drop_eq_getElem_cons hlt, hget]

/-- Reading a command with the open brackets as nesting: a misfit is an error, and otherwise the
nesting is again that of the open brackets. -/
theorem read_nestingOf (hcommand : commands[index]? = some command) :
    (nestingOf (openBefore (rolesOf commands) index)).read commands index command =
      match misfit? (rolesOf commands) index (Step.role command) with
      | some error => .error error
      | none => .ok (levelAt (rolesOf commands) index,
          nestingOf (openBefore (rolesOf commands) (index + 1))) := by
  have hrole := getElem?_rolesOf hcommand
  rw [openBefore_succ hrole, levelAt, hrole]
  unfold Nesting.read misfit? innermost? Bracket.advance
  generalize Step.role command = role
  generalize openBefore (rolesOf commands) index = brackets
  cases role with
  | opening opener => rfl
  | ordinary => rfl
  | loopTest test =>
      cases test with
      | whileTest =>
          simp only [innermost?_nestingOf]
          by_cases hdo : brackets.head?.map Bracket.block = some .doLoop
          · rw [if_pos hdo, if_pos hdo]
            rfl
          · rw [if_neg hdo, if_neg hdo, enter_nestingOf]
            rfl
      | repeatIf =>
          simp only [innermost?_nestingOf]
          by_cases hdo : brackets.head?.map Bracket.block = some .doLoop
          · rw [if_pos hdo, if_pos hdo]
            rfl
          · rw [if_neg hdo, if_neg hdo]
  | branchArm arm =>
      cases brackets with
      | nil => rfl
      | cons bracket outer =>
          obtain ⟨block, opener⟩ := bracket
          cases block <;> rfl
  | blockEnd =>
      cases brackets with
      | nil => rfl
      | cons bracket outer =>
          obtain ⟨block, opener⟩ := bracket
          simp only [nestingOf, openBlocks, armsBetween_eq_armsWithin, List.head?_cons,
            List.length_cons, List.tail_cons, Nat.add_sub_cancel]
          cases block with
          | ifBlock =>
              cases armDisorder? (armsWithin (rolesOf commands) opener index) <;> rfl
          | doLoop | timesLoop | whileLoop => rfl

theorem finish_nestingOf_eq_ok_iff {brackets : List Bracket} :
    (nestingOf brackets).finish = .ok () ↔ brackets = [] := by
  cases brackets <;> simp [Nesting.finish, nestingOf, openBlocks]

/-- Outlining from `index` on succeeds exactly if all commands from there on fit and the brackets
are closed in the end. -/
theorem outlineFrom_eq_ok_iff {entries : List (Entry α)} (hindex : index ≤ commands.length) :
    outlineFrom commands index (nestingOf (openBefore (rolesOf commands) index))
        (commands.drop index) = .ok entries ↔
      (∀ position role, index ≤ position → (rolesOf commands)[position]? = some role →
        Fits (rolesOf commands) position role) ∧
      openBefore (rolesOf commands) commands.length = [] ∧
      entries = (leveled commands).drop index := by
  induction hindex using Nat.decreasingInduction generalizing entries with
  | self =>
      have hfits : ∀ position role, commands.length ≤ position →
          (rolesOf commands)[position]? = some role →
          Fits (rolesOf commands) position role := by
        intro position role hle hrole
        rw [List.getElem?_eq_none (by simpa using hle)] at hrole
        contradiction
      have hdrop : (leveled commands).drop commands.length = [] := by simp
      rw [List.drop_length, outlineFrom, map_eq_ok_iff, hdrop]
      constructor
      · rintro ⟨found, hfinish, rfl⟩
        exact ⟨hfits, finish_nestingOf_eq_ok_iff.mp hfinish, rfl⟩
      · rintro ⟨_, hclosed, rfl⟩
        exact ⟨(), finish_nestingOf_eq_ok_iff.mpr hclosed, rfl⟩
  | of_succ index hlt ih =>
      have hcommand : commands[index]? = some commands[index] := List.getElem?_eq_getElem hlt
      have hrole := getElem?_rolesOf hcommand
      rw [List.drop_eq_getElem_cons hlt, outlineFrom, read_nestingOf hcommand]
      cases hmisfit : misfit? (rolesOf commands) index (Step.role commands[index]) with
      | some error =>
          simp only [reduceCtorEq, false_iff]
          rintro ⟨hfits, _⟩
          have hfit := misfit?_eq_none_iff.mpr (hfits index _ (Nat.le_refl _) hrole)
          rw [hmisfit] at hfit
          contradiction
      | none =>
          simp only [map_eq_ok_iff, ih, drop_leveled hcommand]
          constructor
          · rintro ⟨found, ⟨hfits, hclosed, rfl⟩, rfl⟩
            refine ⟨fun position role hle hposition => ?_, hclosed, rfl⟩
            rcases Nat.eq_or_lt_of_le hle with rfl | hlater
            · rw [hrole, Option.some_inj] at hposition
              exact misfit?_eq_none_iff.mp (hposition ▸ hmisfit)
            · exact hfits position role hlater hposition
          · rintro ⟨hfits, hclosed, rfl⟩
            exact ⟨_, ⟨fun position role hle => hfits position role (Nat.le_of_succ_le hle),
              hclosed, rfl⟩, rfl⟩

/-- The tests that can be outlined are those that bracket matching has no objection to, and their
levels are the bracket depths. -/
theorem outline?_eq_ok_iff {entries : List (Entry α)} :
    outline? commands = .ok entries ↔
      WellBracketed (rolesOf commands) ∧ entries = leveled commands := by
  constructor
  · intro hok
    obtain ⟨hfits, hclosed, hentries⟩ := (outlineFrom_eq_ok_iff (Nat.zero_le _)).mp hok
    refine ⟨⟨fun position role => hfits position role (Nat.zero_le _), ?_⟩, hentries⟩
    rwa [length_rolesOf]
  · rintro ⟨⟨hfits, hclosed⟩, hentries⟩
    rw [length_rolesOf] at hclosed
    exact (outlineFrom_eq_ok_iff (Nat.zero_le _)).mpr
      ⟨fun position role _ => hfits position role, hclosed, hentries⟩

end Commands

end StepFlow
