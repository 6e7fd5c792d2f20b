/-!
# Results

What it means for a result that is passed on to be a success, or to be an error.
-/

namespace StepFlow

section Results

variable {ε β γ : Type} {f : β → γ} {result : Except ε β}

theorem map_eq_ok_iff {value : γ} :
    result.map f = .ok value ↔ ∃ found, result = .ok found ∧ f found = value := by
  cases result <;> simp [Except.map]

theorem map_eq_error_iff {cause : ε} : result.map f = .error cause ↔ result = .error cause := by
  cases result <;> simp [Except.map]

theorem bind_eq_ok_iff {next : β → Except ε γ} {value : γ} :
    result >>= next = .ok value ↔ ∃ found, result = .ok found ∧ next found = .ok value := by
  cases result <;> simp [bind, Except.bind]

theorem toOption_eq_some_iff {value : β} : result.toOption = some value ↔ result = .ok value := by
  cases result <;> simp [Except.toOption]

theorem isSome_toOption_map : (result.map f).toOption.isSome = result.toOption.isSome := by
  cases result <;> rfl

end Results

end StepFlow
