import Wideband.Proofs.Source.Honest

namespace Wideband.Source

variable {ρ C : Type} [Source ρ C] {position : ρ → Nat} {source : ρ} {buffer : Buffer C}
  {signals : Signals} {size stored count : Nat}

/-- Until so many complex samples have been read, every read gives some. -/
inductive Ample : ρ → Nat → Prop where
  | reads {source : ρ} {count : Nat}
      (gives : ∀ out : Array C, 0 < out.size → out.size ≤ count →
        ∃ given, 0 < given ∧ (Source.read source (.complex out)).outcome = .ok given)
      (onward : ∀ (out : Array C) (given : Nat), 0 < out.size → out.size ≤ count →
        (Source.read source (.complex out)).outcome = .ok given →
          Ample (Source.read source (.complex out)).source (count - given)) :
      Ample source count

theorem fillFrom_ample (honest : Honest position) (whole : buffer.size = size)
    (format : buffer.format = .complex) (within : stored ≤ size) :
    ∀ count, Ample source count → size - stored ≤ count →
      (fillFrom size source buffer stored signals).outcome = .ok size ∧
        Ample (fillFrom size source buffer stored signals).source (count - (size - stored)) := by
  have free (buffer : Buffer C) (stored : Nat) (whole : buffer.size = size)
      (format : buffer.format = .complex) :
      ∃ out : Array C, buffer.drop stored = .complex out ∧ out.size = size - stored := by
    cases buffer with
    | complex samples => exact ⟨_, rfl, by simp [← whole, Buffer.size]⟩
    | _ => cases format
  fun_induction fillFrom size source buffer stored signals with
  | case1 source buffer stored signals room reading next merged failure outcome =>
      rintro count ⟨gives, _⟩ enough
      obtain ⟨out, view, left⟩ := free buffer stored whole format
      obtain ⟨given, _, answer⟩ := gives out (by omega) (by omega)
      rw [← view] at answer
      cases answer.symm.trans outcome
  | case2 source buffer stored signals room reading next merged outcome =>
      rintro count ⟨gives, _⟩ enough
      obtain ⟨out, view, left⟩ := free buffer stored whole format
      obtain ⟨given, some, answer⟩ := gives out (by omega) (by omega)
      rw [← view] at answer
      obtain rfl : given = 0 := Except.ok.inj (answer.symm.trans outcome)
      exact absurd some (Nat.lt_irrefl 0)
  | case3 source buffer stored signals room reading next merged more outcome ih =>
      rintro count ⟨_, onward⟩ enough
      obtain ⟨sameSize, sameFormat⟩ := honest.stored_view source (whole ▸ within)
      have bounded := honest.bounded outcome
      rw [Buffer.size_drop] at bounded
      obtain ⟨out, view, left⟩ := free buffer stored whole format
      have rest := onward out (more + 1) (by omega) (by omega)
      rw [← view] at rest
      obtain ⟨filled, left⟩ := ih (sameSize.trans whole) (sameFormat.trans format) (by omega) _
        (rest outcome) (by omega)
      have total : count - (more + 1) - (size - (stored + (more + 1))) =
          count - (size - stored) := by omega
      exact ⟨filled, total ▸ left⟩
  | case4 source buffer stored signals full =>
      obtain rfl : stored = size := by omega
      intro count ample enough
      exact ⟨rfl, by simpa using ample⟩

theorem Ample.fill (ample : Ample source count) (honest : Honest position)
    (format : buffer.format = .complex) (enough : buffer.size ≤ count) :
    (Source.fill source buffer).outcome = .ok buffer.size ∧
      Ample (Source.fill source buffer).source (count - buffer.size) :=
  fillFrom_ample honest rfl format (Nat.zero_le _) count ample enough

theorem Plays.ample {stream : Nat → ρ} {content : Nat → C} (plays : Plays stream content)
    (place count : Nat) : Ample (stream place) count := by
  induction count using Nat.strongRecOn generalizing place with
  | ind count ih =>
      refine .reads (fun out room fits => ⟨out.size, room, by rw [plays]⟩) ?_
      intro out given room fits answer
      rw [plays] at answer ⊢
      cases answer
      exact ih _ (by omega) _

variable [Zero C]

theorem Ample.fill_silent (ample : Ample source count) (honest : Honest position)
    (enough : size ≤ count) :
    (Source.fill source (.silent .complex size)).outcome = .ok size ∧
      Ample (Source.fill source (.silent .complex size)).source (count - size) := by
  have enough : (Buffer.silent .complex size : Buffer C).size ≤ count := by
    rwa [Buffer.size_silent]
  have filled := ample.fill honest (Buffer.format_silent .complex size) enough
  rwa [Buffer.size_silent] at filled

theorem Ample.skip (ample : Ample source count) (honest : Honest position) {scratch : Nat}
    (room : 0 < scratch) : (Source.skip source count scratch).outcome = .ok () := by
  have chunks {signals : Signals} :
      (skipChunks scratch room source count signals).outcome = .ok () := by
    fun_induction skipChunks scratch room source count signals with
    | case1 source signals => rfl
    | case2 source count signals something chunk reading merged failure outcome =>
        have filled := (ample.fill_silent honest (Nat.min_le_left count scratch)).1
        cases filled.symm.trans outcome
    | case3 source count signals something chunk reading merged stored outcome ih =>
        exact ih (ample.fill_silent honest (Nat.min_le_left count scratch)).2
  simp only [Source.skip, dif_pos room, chunks]

end Wideband.Source
