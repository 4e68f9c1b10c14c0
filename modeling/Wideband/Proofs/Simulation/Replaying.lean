import Wideband.Proofs.Sample.Exact
import Wideband.Proofs.Source.Honest
import Wideband.Proofs.Transform.Dft
import Wideband.Simulation.Replay
import Wideband.Source.Rotated

namespace Wideband

namespace Replay

/-- The endless replay of a signal that stands at a place. -/
def standing (signal : Array ℂ) (rate : ℕ) (multiplier : ℂ) (position : ℕ) : Replay ℂ :=
  ⟨signal, rate, position % signal.size, multiplier, none⟩

def content (signal : Array ℂ) (multiplier : ℂ) (position : ℕ) : ℂ :=
  entry signal (position % signal.size) * multiplier

variable {signal : Array ℂ}

theorem plays (room : 0 < signal.size) (rate : ℕ) (multiplier : ℂ) :
    Source.Plays (standing signal rate multiplier) (content signal multiplier) := by
  intro position out
  have available : (standing signal rate multiplier position).available out.size = out.size := by
    simp [available, standing, Nat.ne_of_gt room]
  have samples : (cyclic signal (position % signal.size) out.size).map (· * multiplier) =
      Source.stretch (content signal multiplier) position out.size := by
    refine Array.ext (by simp [size_cyclic room]) fun index inside _ => ?_
    simp [cyclic, room, Source.stretch, content, entry, Nat.mod_lt]
  change read (standing signal rate multiplier position) (.complex out) = _
  simp only [read, available]
  simp [standing, advance, samples]

theorem ofSignal_standing (signal : Array ℂ) (rate : ℕ) :
    ofSignal signal rate = standing signal rate 1 0 := by
  simp [ofSignal, standing]

theorem honest_given : Source.Honest (Metered.given : Metered (Replay ℂ) → ℕ) := by
  have bounded : ∀ (replay : Replay ℂ) (out : Array ℂ), replay.available out.size ≤ out.size := by
    intro replay out
    unfold available
    split
    · exact Nat.zero_le _
    · split
      · exact le_refl _
      · exact Nat.min_le_left _ _
  refine Metered.honest_given (fun replay view => ?_) (fun replay view => ?_)
    fun replay view count stored => ?_
  · cases view with
    | complex out =>
        have sized : (cyclic replay.signal replay.position (replay.available out.size)).size =
            replay.available out.size := by
          unfold available
          split
          · rename_i silent
            simp [cyclic, silent]
          · rename_i loud
            exact size_cyclic (Nat.pos_of_ne_zero loud) _ _
        have within := bounded replay out
        change ((cyclic replay.signal replay.position (replay.available out.size)).map
          (· * replay.multiplier) ++ out.extract (replay.available out.size) out.size).size =
          out.size
        rw [Array.size_append, Array.size_map, sized, Array.size_extract]
        omega
    | unsigned8 pairs => rfl
    | signed8 pairs => rfl
    | signed16 pairs => rfl
  · cases view <;> rfl
  · cases view with
    | complex out =>
        cases stored
        exact bounded replay out
    | unsigned8 pairs => cases stored
    | signed8 pairs => cases stored
    | signed16 pairs => cases stored

end Replay

namespace Rotated

variable {ρ : Type} [Source ρ ℂ]

theorem plays_rotated {stream : ℕ → ρ} {content : ℕ → ℂ} (plays : Source.Plays stream content)
    (multiplier : ℂ) :
    Source.Plays (fun position => (⟨stream position, multiplier⟩ : Rotated ρ ℂ))
      fun position => content position * multiplier := by
  intro position out
  change read ⟨stream position, multiplier⟩ (.complex out) = _
  by_cases neutral : multiplier = 1
  · simp [read, request, respond, plays position out, neutral]
  · have turned : ((Source.stretch content position out.size).extract 0 out.size).map
          (· * multiplier) =
        Source.stretch (fun position => content position * multiplier) position out.size := by
      rw [Array.extract_eq_self_of_le (by simp), Source.stretch, Array.map_ofFn]
      rfl
    simp only [read, request, respond, plays position out]
    simp [neutral, turned]

end Rotated

end Wideband
