import Wideband.Proofs.Source.Cutting
import Wideband.Simulation.Script

namespace Wideband

variable {ρ σ C : Type}

namespace Buffer

@[simp] theorem format_cyclic (buffer : Buffer C) (start count : Nat) :
    (buffer.cyclic start count).format = buffer.format := by
  cases buffer <;> rfl

theorem size_cyclic {buffer : Buffer C} (room : 0 < buffer.size) (start count : Nat) :
    (buffer.cyclic start count).size = count := by
  cases buffer <;> exact Wideband.size_cyclic room start count

theorem cyclic_zero (buffer : Buffer C) (start : Nat) : (buffer.cyclic start 0).size = 0 := by
  cases buffer <;> simp [Buffer.cyclic, Wideband.cyclic, size]

end Buffer

namespace Reading

/-- A read that keeps to the view it is lent: it stores at the front no more than there is room
for, and leaves the rest as it is. -/
structure Keeps (view : Buffer C) (reading : Reading ρ C) : Prop where
  format : reading.view.format = view.format
  size : reading.view.size = view.size
  bounded {count : Nat} (stored : reading.outcome = .ok count) : count ≤ view.size
  rest {count : Nat} (stored : reading.outcome = .ok count) :
    reading.view.drop count = view.drop count

variable {source : ρ} {signals : Signals}

theorem keeps_failed {view : Buffer C} {failure : Failure} :
    Keeps view ⟨.error failure, view, source, signals⟩ where
  format := rfl
  size := rfl
  bounded stored := by cases stored
  rest stored := by cases stored

theorem keeps_front {view front : Buffer C} (same : front.format = view.format)
    (fits : front.size ≤ view.size) :
    Keeps view ⟨.ok front.size, front.append (view.drop front.size), source, signals⟩ where
  format := by rw [Buffer.format_append, same]
  size := by
    rw [Buffer.size_append (by rw [Buffer.format_drop, same]), Buffer.size_drop]
    omega
  bounded stored := by
    cases stored
    exact fits
  rest stored := by
    cases stored
    exact Buffer.drop_append (by rw [Buffer.format_drop, same])

theorem Keeps.trans {view : Buffer C} {below : Reading ρ C} {reading : Reading σ C}
    (first : below.Keeps view) (second : reading.Keeps below.view)
    (same : reading.outcome = below.outcome) : reading.Keeps view where
  format := second.format.trans first.format
  size := second.size.trans first.size
  bounded stored := first.bounded (same ▸ stored)
  rest stored := (second.rest stored).trans (first.rest (same ▸ stored))

theorem Keeps.complex {out : Array C} {reading : Reading ρ C}
    (keeps : reading.Keeps (.complex out)) :
    ∃ view, reading.view = .complex view ∧ view.size = out.size := by
  have size := keeps.size
  have format := keeps.format
  cases viewed : reading.view with
  | complex view =>
      rw [viewed] at size
      exact ⟨view, rfl, size⟩
  | _ => rw [viewed] at format; cases format

end Reading

/-- Honest sources of any format. A read into a view of that format may be short, end the stream or
fail, at any point. -/
structure Source.Faithful [Source ρ C] (honest : ρ → Prop) : Prop where
  keeps {source : ρ} (trusted : honest source) {view : Buffer C}
    (fits : view.format = Source.format source) : (Source.read source view).Keeps view
  read {source : ρ} (trusted : honest source) {view : Buffer C}
    (fits : view.format = Source.format source) : honest (Source.read source view).source
  format {source : ρ} (trusted : honest source) {view : Buffer C}
    (fits : view.format = Source.format source) :
    Source.format (Source.read source view).source = Source.format source

namespace Scripted

theorem script_read (source : Scripted C) (view : Buffer C) :
    (source.read view).source.script = source.script := by
  unfold Scripted.read
  dsimp only
  repeat' split
  all_goals rfl

theorem size_available {source : Scripted C} {size count : Nat}
    (available : source.available size = some count) :
    count ≤ size ∧ (source.script.samples.cyclic source.position count).size = count := by
  obtain ⟨most, few, found⟩ : ∃ most ≤ size,
      (if source.script.loops && source.script.samples.size != 0 then some most
        else if source.script.samples.size < source.position then none
        else some (min most (source.script.samples.size - source.position))) = some count := by
    simp only [Scripted.available] at available
    cases chunk : source.script.chunk with
    | none => exact ⟨size, Nat.le_refl _, by simpa only [chunk] using available⟩
    | some most => exact ⟨min size most, Nat.min_le_left _ _, by simpa only [chunk] using available⟩
  split at found
  · cases found
    refine ⟨few, Buffer.size_cyclic (Nat.pos_of_ne_zero ?_) _ _⟩
    simp_all
  split at found
  · cases found
  · cases found
    refine ⟨by omega, ?_⟩
    by_cases some : 0 < source.script.samples.size
    · exact Buffer.size_cyclic some _ _
    · have nothing : min most (source.script.samples.size - source.position) = 0 := by omega
      rw [nothing]
      exact Buffer.cyclic_zero _ _

theorem keeps_read {source : Scripted C} (exact : source.script.overclaim = 0) (view : Buffer C) :
    (source.read view).Keeps view := by
  unfold Scripted.read
  dsimp only
  split
  · exact Reading.keeps_failed
  split
  · exact Reading.keeps_failed
  split
  · rename_i same
    split
    · exact Reading.keeps_failed
    · rename_i count available
      obtain ⟨few, stored⟩ := size_available available
      generalize front : source.script.samples.cyclic source.position count = stretch at stored ⊢
      subst stored
      have format : stretch.format = view.format := by rw [← front, Buffer.format_cyclic, same]
      have written : ∀ next signals, Reading.Keeps view
          (⟨.ok stretch.size, stretch.append (view.drop stretch.size), next, signals⟩ :
            Reading (Scripted C) C) :=
        fun next signals => Reading.keeps_front format few
      -- A position that does not fit breaks the read down behind the samples it has stored.
      split
      · simpa only [exact, Nat.add_zero] using written _ _
      · exact ⟨(written source .none).format, (written source .none).size, by simp, by simp⟩
  · exact Reading.keeps_failed

theorem faithful : Source.Faithful fun source : Scripted C => source.script.overclaim = 0 where
  keeps {_} exact {view} _ := keeps_read exact view
  read {source} exact {view} _ :=
    (congrArg Script.overclaim (source.script_read view)).trans exact
  format {source} _ {view} _ :=
    congrArg (fun script => script.samples.format) (source.script_read view)

end Scripted

end Wideband
