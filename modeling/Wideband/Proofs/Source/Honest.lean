import Wideband.Proofs.Source.Playing

namespace Wideband

/-!
Sources that keep to what a read promises. A view is lent, so it comes back with its size and its
format, and a read that succeeds moves the source by the count it answers (`Source.Honest`). The
reads may be short, end the stream or fail at any point. What follows for exact counts is that
filling a buffer or skipping samples, where it succeeds, moves the source by exactly that many.
-/

structure Metered (ρ : Type) where
  inner : ρ
  given : Nat

namespace Source

variable {ρ C : Type} [Source ρ C]

/-- The place of each source is `position`; only reads that succeed say how it moves. -/
structure Honest (position : ρ → Nat) : Prop where
  size (source : ρ) (view : Buffer C) : (Source.read source view).view.size = view.size
  format (source : ρ) (view : Buffer C) : (Source.read source view).view.format = view.format
  bounded {source : ρ} {view : Buffer C} {count : Nat}
    (stored : (Source.read source view).outcome = .ok count) : count ≤ view.size
  counted {source : ρ} {view : Buffer C} {count : Nat}
    (stored : (Source.read source view).outcome = .ok count) :
    position (Source.read source view).source = position source + count

namespace Honest

variable {position : ρ → Nat} {source : ρ} {buffer : Buffer C} {signals : Signals}
  {size stored count : Nat}

theorem stored_view (honest : Honest position) (source : ρ) (within : stored ≤ buffer.size) :
    ((buffer.take stored).append (Source.read source (buffer.drop stored)).view).size =
        buffer.size ∧
      ((buffer.take stored).append (Source.read source (buffer.drop stored)).view).format =
        buffer.format := by
  have same : (buffer.take stored).format =
      (Source.read source (buffer.drop stored)).view.format := by
    rw [honest.format, Buffer.format_take, Buffer.format_drop]
  refine ⟨?_, by rw [Buffer.format_append, Buffer.format_take]⟩
  rw [Buffer.size_append same, honest.size, Buffer.size_take, Buffer.size_drop]
  omega

theorem fillFrom_view (honest : Honest position) (whole : buffer.size = size)
    (within : stored ≤ size) :
    (fillFrom size source buffer stored signals).view.size = buffer.size ∧
      (fillFrom size source buffer stored signals).view.format = buffer.format := by
  fun_induction fillFrom size source buffer stored signals with
  | case1 source buffer stored signals room reading next merged failure outcome =>
      exact honest.stored_view source (whole ▸ within)
  | case2 source buffer stored signals room reading next merged outcome =>
      exact honest.stored_view source (whole ▸ within)
  | case3 source buffer stored signals room reading next merged more outcome ih =>
      obtain ⟨sameSize, sameFormat⟩ := honest.stored_view source (whole ▸ within)
      have bounded := honest.bounded outcome
      rw [Buffer.size_drop] at bounded
      obtain ⟨restSize, restFormat⟩ := ih (sameSize.trans whole) (by omega)
      exact ⟨restSize.trans sameSize, restFormat.trans sameFormat⟩
  | case4 source buffer stored signals full => exact ⟨rfl, rfl⟩

theorem fillFrom_counted (honest : Honest position) (whole : buffer.size = size)
    (within : stored ≤ size)
    (filled : (fillFrom size source buffer stored signals).outcome = .ok count) :
    position (fillFrom size source buffer stored signals).source =
      position source + (size - stored) := by
  fun_induction fillFrom size source buffer stored signals with
  | case1 source buffer stored signals room reading next merged failure outcome => cases filled
  | case2 source buffer stored signals room reading next merged outcome => cases filled
  | case3 source buffer stored signals room reading next merged more outcome ih =>
      obtain ⟨sameSize, _⟩ := honest.stored_view source (whole ▸ within)
      have bounded := honest.bounded outcome
      rw [Buffer.size_drop] at bounded
      have moved := honest.counted outcome
      rw [ih (sameSize.trans whole) (by omega) filled, moved]
      omega
  | case4 source buffer stored signals full => rw [Nat.sub_eq_zero_of_le (Nat.not_lt.mp full)]; rfl

theorem fill_view (honest : Honest position) (source : ρ) (buffer : Buffer C) :
    (fill source buffer).view.size = buffer.size ∧
      (fill source buffer).view.format = buffer.format :=
  honest.fillFrom_view rfl (Nat.zero_le _)

theorem fill_counted (honest : Honest position) (filled : (fill source buffer).outcome = .ok count) :
    position (fill source buffer).source = position source + buffer.size :=
  honest.fillFrom_counted rfl (Nat.zero_le _) filled

theorem skipChunks_counted [Zero C] (honest : Honest position) {scratch : Nat}
    {room : 0 < scratch}
    (skipped : (skipChunks scratch room source count signals).outcome = .ok ()) :
    position (skipChunks scratch room source count signals).source = position source + count := by
  fun_induction skipChunks scratch room source count signals with
  | case1 source signals => rfl
  | case2 source count signals something chunk reading merged failure outcome => cases skipped
  | case3 source count signals something chunk reading merged stored outcome ih =>
      have least : chunk ≤ count := Nat.min_le_left _ _
      have moved := honest.fill_counted outcome
      rw [Buffer.size_silent] at moved
      rw [ih skipped, moved]
      omega

theorem skip_counted [Zero C] (honest : Honest position) {scratch : Nat}
    (skipped : (skip source count scratch).outcome = .ok ()) :
    position (skip source count scratch).source = position source + count := by
  by_cases room : 0 < scratch
  · simp only [skip, dif_pos room] at skipped ⊢
    exact honest.skipChunks_counted skipped
  · by_cases nothing : count = 0
    · simp [skip, room, nothing]
    · simp [skip, room, nothing, Outcome.fail] at skipped

theorem fillAll_view (honest : Honest position) (stage : Stage) (sources : List ρ)
    {buffers : List (Buffer C)} {length : Nat}
    (sizes : ∀ buffer ∈ buffers, buffer.format = .complex ∧ buffer.size = length) :
    (fillAll stage sources buffers).buffers.length = buffers.length ∧
      ∀ buffer ∈ (fillAll stage sources buffers).buffers,
        buffer.format = .complex ∧ buffer.size = length := by
  unfold fillAll
  split
  · rename_i paired
    refine ⟨by simp [paired], ?_⟩
    clear paired
    induction sources generalizing buffers with
    | nil => simp
    | cons source sources ih =>
        cases buffers with
        | nil => simp
        | cons buffer buffers =>
            obtain ⟨sameSize, sameFormat⟩ := honest.fill_view source buffer
            obtain ⟨format, size⟩ := sizes buffer (by simp)
            intro view member
            simp only [List.zipWith_cons_cons, List.map_cons, List.mem_cons] at member
            rcases member with rfl | member
            · exact ⟨sameFormat.trans format, sameSize.trans size⟩
            · exact ih (fun buffer member => sizes buffer (by simp [member])) view member
  · exact ⟨rfl, sizes⟩

theorem fillAll_counted (honest : Honest position) {stage : Stage} {sources : List ρ}
    {buffers : List (Buffer C)} {length : Nat} (sizes : ∀ buffer ∈ buffers, buffer.size = length)
    (filled : (fillAll stage sources buffers).outcome = .ok ()) :
    (fillAll stage sources buffers).sources.map position =
      sources.map fun source => position source + length := by
  unfold fillAll at filled ⊢
  split at filled
  · rename_i paired
    rw [if_pos paired]
    have each := jointOutcome_ok_iff.mp filled
    clear filled
    induction sources generalizing buffers with
    | nil => rfl
    | cons source sources ih =>
        cases buffers with
        | nil => cases paired
        | cons buffer buffers =>
            simp only [List.zipWith_cons_cons, List.map_cons, List.mem_cons, forall_eq_or_imp]
              at each ⊢
            obtain ⟨⟨count, first⟩, rest⟩ := each
            rw [honest.fill_counted first, sizes buffer (by simp),
              ih (fun buffer member => sizes buffer (by simp [member])) (by simpa using paired) rest]
  · cases filled

end Honest

end Source

namespace Metered

variable {ρ C : Type} [Source ρ C]

instance : Source (Metered ρ) C where
  format metered := Source.format metered.inner
  rate metered := Source.rate metered.inner
  read metered view :=
    let reading := Source.read metered.inner view
    let more := match reading.outcome with
      | .ok count => count
      | .error _ => 0
    ⟨reading.outcome, reading.view, ⟨reading.source, metered.given + more⟩, reading.signals⟩
  close metered :=
    let (result, inner) := Source.close (C := C) metered.inner
    (result, { metered with inner })

theorem honest_given
    (size : ∀ (source : ρ) (view : Buffer C), (Source.read source view).view.size = view.size)
    (format : ∀ (source : ρ) (view : Buffer C),
      (Source.read source view).view.format = view.format)
    (bounded : ∀ (source : ρ) (view : Buffer C) (count : Nat),
      (Source.read source view).outcome = .ok count → count ≤ view.size) :
    Source.Honest (given : Metered ρ → Nat) where
  size metered view := size metered.inner view
  format metered view := format metered.inner view
  bounded {metered view count} stored := bounded metered.inner view count stored
  counted {metered view count} stored := by
    change (Source.read metered.inner view).outcome = .ok count at stored
    simp only [Source.read, stored]

theorem plays_metered {stream : Nat → ρ} {content : Nat → C}
    (plays : Source.Plays stream content) :
    Source.Plays (fun position => (⟨stream position, position⟩ : Metered ρ)) content := by
  intro position out
  have inner := plays position out
  simp only [Source.read] at inner ⊢
  simp only [inner]

end Metered

end Wideband
