import StepFlow.Proofs.Concatenation

/-!
# Prefixes

Whether a command fits depends on the commands before it and on nothing behind it.  So an error that
blames a command for its place is the same whatever follows, everything before that command is in
order, and no later check hides the error or comes before it.  Only an unclosed block is a fault of
the end of a test: a longer test may not have it.  Main statement:
`rejection_is_immediate`.
-/

namespace StepFlow

/-- The error is about the end of the test, not about a command that does not fit. -/
def BuildError.isUnclosed : BuildError → Bool
  | unclosedBlock _ _ => true
  | misplacedKeyword _ _ _ | armDisorder _ _ => false

/-- The test is accepted, or nothing is wrong with it but that a block is still open. -/
def AtMostUnclosed {α : Type} [Step α] (commands : List α) : Prop :=
  (∃ graph, Graph.build? commands = .ok graph) ∨
    ∃ keyword index, Graph.build? commands = .error (.unclosedBlock keyword index)

/-- Every command before position `bound` fits. -/
def FitsBefore (roles : List Role) (bound : Nat) : Prop :=
  ∀ index role, index < bound → roles[index]? = some role → Fits roles index role

section Roles

variable {front : List Role} {role : Role} {index bound : Nat} {error : BuildError}

@[simp]
theorem BuildError.shift_zero (error : BuildError) : error.shift 0 = error := by
  cases error <;> rfl

theorem BuildError.noticedAt_of_isUnclosed_eq_false (herror : error.isUnclosed = false)
    (size : Nat) : error.noticedAt size = error.index := by
  cases error with
  | unclosedBlock keyword index => cases herror
  | misplacedKeyword | armDisorder => rfl

/-- What does not fit in a test does not fit in any longer one, for the same reason. -/
theorem misfit?_append (back : List Role) (hindex : index ≤ front.length) :
    misfit? (front ++ back) index role = misfit? front index role := by
  have hmisfit : misfit? (front ++ back) (index + 0) role =
      (misfit? front index role).map (BuildError.shift 0) :=
    (embedded_front front back).misfit?_eq hindex
  simpa [funext BuildError.shift_zero] using hmisfit

theorem fitsBefore_append (back : List Role) (hbound : bound ≤ front.length) :
    FitsBefore (front ++ back) bound ↔ FitsBefore front bound := by
  have hsame : ∀ index role, index < bound →
      ((front ++ back)[index]? = some role → Fits (front ++ back) index role ↔
        front[index]? = some role → Fits front index role) := by
    intro index role hindex
    have hlt := Nat.lt_of_lt_of_le hindex hbound
    rw [List.getElem?_append_left hlt, ← misfit?_eq_none_iff, ← misfit?_eq_none_iff,
      misfit?_append back (Nat.le_of_lt hlt)]
  exact forall₂_congr fun index role => forall_congr' fun hindex => hsame index role hindex

theorem FitsBefore.mono {smaller : Nat} (hfits : FitsBefore front bound) (hle : smaller ≤ bound) :
    FitsBefore front smaller :=
  fun index role hindex => hfits index role (Nat.lt_of_lt_of_le hindex hle)

end Roles

section Commands

variable {α : Type} [Step α] {commands : List α} {error : BuildError}

/-- An error that blames a command for its place is reported exactly if that command does not fit
and all commands before it do. -/
theorem build?_eq_error_iff_misfit (herror : error.isUnclosed = false) :
    Graph.build? commands = .error error ↔
      (∃ role, (rolesOf commands)[error.index]? = some role ∧
        misfit? (rolesOf commands) error.index role = some error) ∧
      FitsBefore (rolesOf commands) error.index := by
  have hnoticed := error.noticedAt_of_isUnclosed_eq_false herror
  rw [build?_eq_error_iff, hnoticed]
  constructor
  · rintro ⟨hfault, hfirst⟩
    have hrole := List.getElem?_eq_getElem hfault.index_lt
    refine ⟨⟨_, hrole, (misfit?_eq_some_iff hrole).mpr ⟨hfault, hnoticed _⟩⟩, ?_⟩
    intro position role hposition hroleAt
    refine fits_of_forall_fault ?_ hposition hroleAt
    rwa [length_rolesOf]
  · rintro ⟨⟨role, hrole, hmisfit⟩, hfits⟩
    have hlt := (List.getElem?_eq_some_iff.mp hrole).1
    refine ⟨((misfit?_eq_some_iff hrole).mp hmisfit).1, fun other hother => ?_⟩
    rw [← length_rolesOf commands]
    exact hother.le_noticedAt (Nat.le_of_lt hlt) hfits

/-- Nothing but unclosed blocks is wrong exactly if every command fits. -/
theorem atMostUnclosed_iff :
    AtMostUnclosed commands ↔ FitsBefore (rolesOf commands) commands.length := by
  constructor
  · rintro (⟨graph, hbuild⟩ | ⟨keyword, index, hbuild⟩)
    · exact fun index role _ => (build?_eq_ok_iff.mp hbuild).1.fits index role
    · obtain ⟨_, hfirst⟩ := build?_eq_error_iff.mp hbuild
      intro position role hposition hrole
      refine fits_of_forall_fault ?_ hposition hrole
      rwa [length_rolesOf]
  · intro hfits
    cases hbuild : Graph.build? commands with
    | ok graph => exact .inl ⟨graph, hbuild⟩
    | error error =>
        -- Where everything fits, an error can only be noticed at the end.
        obtain ⟨hfault, _⟩ := build?_eq_error_iff.mp hbuild
        rw [← length_rolesOf commands] at hfits
        have hend := hfault.le_noticedAt (Nat.le_refl _) hfits
        obtain ⟨bracket, _, rfl⟩ :=
          hfault.eq_unclosedBlock (Nat.le_antisymm hfault.noticedAt_le hend)
        exact .inr ⟨_, _, hbuild⟩

/-- Every beginning of a test that contains the blamed command decides whether an error that blames
a command for its place is reported. -/
theorem build?_append_eq_error_iff {front : List α} (back : List α)
    (herror : error.isUnclosed = false) (hindex : error.index < front.length) :
    Graph.build? (front ++ back) = .error error ↔ Graph.build? front = .error error := by
  have hlt : error.index < (rolesOf front).length := by rwa [length_rolesOf]
  rw [build?_eq_error_iff_misfit herror, build?_eq_error_iff_misfit herror, rolesOf_append,
    List.getElem?_append_left hlt, fitsBefore_append _ (Nat.le_of_lt hlt)]
  simp only [misfit?_append _ (Nat.le_of_lt hlt)]

theorem AtMostUnclosed.of_append {front back : List α} (hboth : AtMostUnclosed (front ++ back)) :
    AtMostUnclosed front := by
  rw [atMostUnclosed_iff] at hboth ⊢
  have hfits : FitsBefore (rolesOf (front ++ back)) front.length := hboth.mono (by simp)
  rw [rolesOf_append, fitsBefore_append _ (by simp)] at hfits
  exact hfits

omit [Step α] in
theorem take_eq_take_of_agree {other : List α} {bound : Nat}
    (hagree : ∀ position ≤ bound, other[position]? = commands[position]?) :
    other.take (bound + 1) = commands.take (bound + 1) := by
  apply List.ext_getElem?
  intro position
  rw [List.getElem?_take, List.getElem?_take]
  by_cases hposition : position < bound + 1
  · rw [if_pos hposition, if_pos hposition, hagree position (Nat.le_of_lt_succ hposition)]
  · rw [if_neg hposition, if_neg hposition]

/-- Rejection is immediate.  If a command is blamed for its place, then every test that begins with
the same commands up to that one is rejected with the identical error, and the commands before it
are accepted or at most leave a block open.  Conversely, every beginning of a test that is accepted
or at most leaves a block open is of that kind itself. -/
theorem rejection_is_immediate (commands : List α) :
    (∀ error, Graph.build? commands = .error error → error.isUnclosed = false →
      (∀ other : List α, (∀ position ≤ error.index, other[position]? = commands[position]?) →
        Graph.build? other = .error error) ∧
      AtMostUnclosed (commands.take error.index)) ∧
    (AtMostUnclosed commands → ∀ front, front <+: commands → AtMostUnclosed front) := by
  constructor
  · intro error hbuild herror
    have hindex : error.index < commands.length := by
      rw [← length_rolesOf commands]
      exact (build?_eq_error_iff.mp hbuild).1.index_lt
    constructor
    · intro other hagree
      have hshort : error.index < (commands.take (error.index + 1)).length := by
        rw [List.length_take]
        omega
      have hfront : Graph.build? (commands.take (error.index + 1)) = .error error := by
        rw [← build?_append_eq_error_iff (commands.drop (error.index + 1)) herror hshort,
          List.take_append_drop]
        exact hbuild
      rw [← List.take_append_drop (error.index + 1) other, take_eq_take_of_agree hagree,
        build?_append_eq_error_iff _ herror hshort]
      exact hfront
    · have hfits := ((build?_eq_error_iff_misfit herror).mp hbuild).2
      rw [← List.take_append_drop error.index commands, rolesOf_append,
        fitsBefore_append _ (by rw [length_rolesOf, List.length_take]; omega)] at hfits
      rw [atMostUnclosed_iff, List.length_take]
      exact hfits.mono (Nat.min_le_left _ _)
  · rintro hcommands front ⟨back, rfl⟩
    exact hcommands.of_append

/-- Whatever follows a second `else`, the error is found at the `end` of its `if`. -/
theorem sample_rejection_is_immediate :
    Graph.build? ["while", "if", "else", "else", "end"] = .error (.armDisorder 4 .tooManyElse) ∧
      (∀ later : List String, Graph.build? (["while", "if", "else", "else", "end"] ++ later) =
        .error (.armDisorder 4 .tooManyElse)) ∧
      AtMostUnclosed ["while", "if", "else", "else"] ∧ AtMostUnclosed ["while", "if"] := by
  have hbuild : Graph.build? ["while", "if", "else", "else", "end"] =
      .error (.armDisorder 4 .tooManyElse) := rfl
  obtain ⟨hother, hbefore⟩ := (rejection_is_immediate _).1 _ hbuild rfl
  refine ⟨hbuild, fun later => hother _ fun position hposition => ?_, hbefore, ?_⟩
  · exact List.getElem?_append_left (Nat.lt_succ_of_le hposition)
  · exact (rejection_is_immediate _).2 hbefore _ ⟨["else", "else"], rfl⟩

end Commands

end StepFlow
