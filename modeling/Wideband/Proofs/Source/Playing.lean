import Wideband.Proofs.Source.Cutting
import Wideband.Source.Converted
import Wideband.Source.Together

namespace Wideband

theorem sharedRate_same {rates : List (Except Error Nat)} {rate : Nat} (some : rates ≠ [])
    (same : ∀ answer ∈ rates, answer = .ok rate) : sharedRate rates = .ok rate := by
  have others : ∀ rates : List (Except Error Nat), (∀ answer ∈ rates, answer = .ok rate) →
      ∀ index, checkRates rate index rates = .ok rate := by
    intro rates same
    induction rates with
    | nil => exact fun _ => rfl
    | cons answer rates ih =>
        intro index
        rw [same answer (by simp), checkRates, if_pos rfl]
        exact ih (fun answer member => same answer (by simp [member])) (index + 1)
  cases rates with
  | nil => exact absurd rfl some
  | cons first rates =>
      rw [same first (by simp), sharedRate]
      exact others rates (fun answer member => same answer (by simp [member])) 1

namespace Source

variable {ρ C : Type}

theorem jointOutcome_ok_iff {stage : Stage} {outcomes : List (Outcome Nat)} :
    jointOutcome stage outcomes = .ok () ↔ ∀ outcome ∈ outcomes, ∃ count, outcome = .ok count := by
  have first : ∀ index, firstError stage index outcomes = .ok () ↔
      ∀ outcome ∈ outcomes, ∃ count, outcome = .ok count := by
    induction outcomes with
    | nil => simp [firstError]
    | cons outcome outcomes ih =>
        intro index
        cases outcome with
        | ok count => simp [firstError, ih]
        | error failure => cases failure <;> simp [firstError, Outcome.inStream]
  unfold jointOutcome
  split
  · rename_i broken
    obtain ⟨outcome, member, fault⟩ := List.any_eq_true.mp broken
    refine ⟨nofun, fun whole => ?_⟩
    obtain ⟨count, rfl⟩ := whole outcome member
    cases fault
  · exact first 0

/-- What a source plays from a place on. -/
def stretch (content : Nat → C) (position count : Nat) : Array C :=
  Array.ofFn fun index : Fin count => content (position + index)

@[simp] theorem size_stretch (content : Nat → C) (position count : Nat) :
    (stretch content position count).size = count := by
  simp [stretch]

/-- The source that stands at each place of some content without end. -/
def Plays [Source ρ C] (stream : Nat → ρ) (content : Nat → C) : Prop :=
  ∀ position (out : Array C), Source.read (stream position) (.complex out) =
    ⟨.ok out.size, .complex (stretch content position out.size), stream (position + out.size),
      .none⟩

namespace Plays

variable [Source ρ C] {stream : Nat → ρ} {content : Nat → C}

theorem fill (plays : Plays stream content) (position : Nat) (out : Array C) :
    Source.fill (stream position) (.complex out) =
      ⟨.ok out.size, .complex (stretch content position out.size), stream (position + out.size),
        .none⟩ := by
  cases size : out.size with
  | zero =>
      obtain rfl := Array.size_eq_zero_iff.mp size
      simp [Source.fill, fillFrom, Buffer.size, stretch]
  | succ rest =>
      have same : (Buffer.complex out).format =
          (Buffer.complex (stretch content position (rest + 1))).format := rfl
      have signals : Signals.none.and Signals.none = .none := rfl
      rw [Source.fill, fillFrom, if_pos (by simp [Buffer.size, size]), Buffer.drop_zero, plays, size]
      simp only [Buffer.append_take_zero same, signals, Nat.zero_add]
      rw [fillFrom, if_neg (by simp [Buffer.size, size])]

theorem skipChunks [Zero C] (plays : Plays stream content) {scratch : Nat} (room : 0 < scratch)
    (position count : Nat) :
    Source.skipChunks scratch room (stream position) count .none =
      ⟨.ok (), stream (position + count), .none⟩ := by
  induction count using Nat.strongRecOn generalizing position with
  | ind count ih =>
      unfold Source.skipChunks
      split
      · rename_i nothing
        rw [nothing, Nat.add_zero]
      · rename_i something
        have chunk : min count scratch ≤ count := Nat.min_le_left _ _
        have signals : Signals.none.and Signals.none = .none := rfl
        have filled := plays.fill position (Array.replicate (min count scratch) 0)
        rw [Array.size_replicate] at filled
        simp only [Buffer.silent, filled, signals]
        rw [ih _ (by omega), Nat.add_assoc, Nat.add_sub_cancel' chunk]

theorem skip [Zero C] (plays : Plays stream content) {scratch : Nat} (room : 0 < scratch)
    (position count : Nat) :
    Source.skip (stream position) count scratch = ⟨.ok (), stream (position + count), .none⟩ := by
  rw [Source.skip, dif_pos room, plays.skipChunks]

end Plays

theorem fillAll_plays [Source ρ C] {ι : Type} {stream : ι → Nat → ρ} {content : ι → Nat → C}
    (plays : ∀ item, Plays (stream item) (content item)) (stage : Stage) {count : Nat}
    (places : List (ι × Nat)) {buffers : List (Buffer C)} (paired : places.length = buffers.length)
    (sizes : ∀ buffer ∈ buffers, ∃ out : Array C, buffer = .complex out ∧ out.size = count) :
    fillAll stage (places.map fun place => stream place.1 place.2) buffers =
      ⟨.ok (), places.map fun place => stream place.1 (place.2 + count),
        places.map fun place => .complex (stretch (content place.1) place.2 count), .none⟩ := by
  have filled : List.zipWith fill (places.map fun place => stream place.1 place.2) buffers =
      places.map fun place => ⟨.ok count, .complex (stretch (content place.1) place.2 count),
        stream place.1 (place.2 + count), .none⟩ := by
    induction places generalizing buffers with
    | nil => rfl
    | cons place places ih =>
        cases buffers with
        | nil => cases paired
        | cons buffer buffers =>
            obtain ⟨out, rfl, rfl⟩ := sizes buffer (by simp)
            rw [List.map_cons, List.zipWith_cons_cons, (plays place.1).fill, List.map_cons,
              ih (by simpa using paired) fun buffer member => sizes buffer (by simp [member])]
  have quiet : ∀ readings : List (Reading ρ C), (∀ reading ∈ readings, reading.signals = .none) →
      readings.foldl (fun signals reading => signals.and reading.signals) Signals.none = .none := by
    intro readings silent
    induction readings with
    | nil => rfl
    | cons reading readings ih =>
        rw [List.foldl_cons, silent reading (by simp)]
        exact ih fun reading member => silent reading (by simp [member])
  rw [fillAll, if_pos (by simpa using paired), filled]
  simp only [List.map_map, Function.comp_def]
  rw [quiet, jointOutcome_ok_iff.mpr]
  · intro outcome member
    obtain ⟨_, _, rfl⟩ := List.mem_map.mp member
    exact ⟨count, rfl⟩
  · intro reading member
    obtain ⟨_, _, rfl⟩ := List.mem_map.mp member
    rfl

end Source

namespace Converted

variable {ρ C R : Type} [Component R] [Sample C R] [Source ρ C]

theorem plays_converted {stream : Nat → ρ} {content : Nat → C}
    (plays : Source.Plays stream content) :
    Source.Plays (fun position => (⟨stream position, none⟩ : Converted ρ C)) content := by
  intro position out
  change Converted.read ⟨stream position, none⟩ (.complex out) = _
  simp [Converted.read, request, respond, plays position out]

end Converted

end Wideband
