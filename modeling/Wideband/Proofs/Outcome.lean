import Wideband.Outcome

namespace Wideband.Outcome

variable {ε α β : Type}

/-- A step and what follows it succeed together only if the step does. -/
theorem of_bind {step : Except ε α} {next : α → Except ε β} {result : β}
    (succeeded : (step >>= next) = .ok result) :
    ∃ value, step = .ok value ∧ next value = .ok result := by
  cases step with
  | error failure => cases succeeded
  | ok value => exact ⟨value, rfl, succeeded⟩

theorem of_unless {refused : Prop} [Decidable refused] {cause : ε}
    {next : PUnit → Except ε β} {result : β}
    (succeeded : (if refused then throw cause >>= next else next PUnit.unit) = .ok result) :
    ¬ refused ∧ next PUnit.unit = .ok result := by
  by_cases failed : refused
  · rw [if_pos failed] at succeeded
    cases succeeded
  · rw [if_neg failed] at succeeded
    exact ⟨failed, succeeded⟩

end Wideband.Outcome
