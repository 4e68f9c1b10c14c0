import Wideband.Proofs.Source.Playing
import Wideband.Proofs.Source.Transparent

namespace Wideband.Source

variable {ρ C : Type}

def room : List (Array C) → ℕ
  | [] => 0
  | out :: later => out.size + room later

/-- How many samples go into a view, where only so many are left. -/
def portion (left : Option ℕ) (size : ℕ) : ℕ :=
  match left with
  | none => size
  | some left => min size left

def behind (left : Option ℕ) (count : ℕ) : Option ℕ :=
  left.map (· - count)

section Portions

variable {left : Option ℕ} {first second : ℕ}

theorem portion_add (left : Option ℕ) (first second : ℕ) :
    portion left (first + second) =
      portion left first + portion (behind left (portion left first)) second := by
  cases left with
  | none => rfl
  | some left =>
      change min (first + second) left = min first left + min second (left - min first left)
      omega

theorem behind_behind (left : Option ℕ) (first second : ℕ) :
    behind (behind left first) second = behind left (first + second) := by
  cases left with
  | none => rfl
  | some left => simp [behind, Nat.sub_sub]

end Portions

theorem stretch_append (content : ℕ → C) (position first second : ℕ) :
    stretch content position first ++ stretch content (position + first) second =
      stretch content position (first + second) := by
  apply Array.ext
  · simp
  · intro index inside _
    have within : index < first + second := by simpa using inside
    by_cases early : index < first
    · rw [Array.getElem_append_left (by simpa using early)]
      simp [stretch]
    · rw [Array.getElem_append_right (by simpa using early)]
      simp only [stretch, Array.getElem_ofFn, Array.size_ofFn]
      congr 1
      omega

variable [Source ρ C]

/-- A read that stores all it can of a line from a position on, and leaves the rest of its view as it
was. -/
structure Handed (content : ℕ → C) (position : ℕ) (left : Option ℕ) (out : Array C)
    (reading : Reading ρ C) : Prop where
  outcome : reading.outcome = .ok (portion left out.size)
  view : reading.view = .complex (stretch content position (portion left out.size) ++
    out.extract (portion left out.size) out.size)

/-- Reads of which each stores all it can of a line, from where the one before it stopped. -/
inductive Dealt (content : ℕ → C) :
    ℕ → Option ℕ → List (Array C) → List (Reading ρ C) → Prop where
  | nil {position : ℕ} {left : Option ℕ} : Dealt content position left [] []
  | cons {position : ℕ} {left : Option ℕ} {out : Array C} {reading : Reading ρ C}
      {later : List (Array C)} {readings : List (Reading ρ C)}
      (handed : Handed content position left out reading)
      (rest : Dealt content (position + portion left out.size)
        (behind left (portion left out.size)) later readings) :
      Dealt content position left (out :: later) (reading :: readings)

/-- Sources that stand at a position of a line, with so many samples left, and hand them out. -/
structure Deals (stands : ℕ → Option ℕ → ρ → Prop) (content : ℕ → C) : Prop where
  handed {position : ℕ} {left : Option ℕ} {source : ρ} (here : stands position left source)
    (out : Array C) : Handed content position left out (Source.read source (.complex out))
  onward {position : ℕ} {left : Option ℕ} {source : ρ} (here : stands position left source)
    (out : Array C) : stands (position + portion left out.size)
      (behind left (portion left out.size)) (Source.read source (.complex out)).source

variable {stands : ℕ → Option ℕ → ρ → Prop} {content : ℕ → C} {position : ℕ} {left : Option ℕ}
  {source : ρ} {views : List (Array C)} {readings : List (Reading ρ C)}

theorem Deals.dealt (deals : Deals stands content) (here : stands position left source)
    (views : List (Array C)) :
    Dealt content position left views (readEach source (views.map .complex)).1 := by
  induction views generalizing position left source with
  | nil => exact .nil
  | cons out later ih => exact .cons (deals.handed here out) (ih (deals.onward here out))

omit [Source ρ C] in
theorem Dealt.handed (dealt : Dealt content position left views readings) {index : ℕ}
    {out : Array C} (found : views[index]? = some out) :
    ∃ reading, readings[index]? = some reading ∧
      Handed content (position + portion left (room (views.take index)))
        (behind left (portion left (room (views.take index)))) out reading := by
  induction dealt generalizing index with
  | nil => simp at found
  | @cons position left first reading later readings handed rest ih =>
      cases index with
      | zero =>
          obtain rfl : first = out := by simpa using found
          refine ⟨reading, rfl, ?_⟩
          cases left with
          | none => exact handed
          | some left => simpa [room, portion, behind] using handed
      | succ index =>
          obtain ⟨other, present, also⟩ := ih (by simpa using found)
          refine ⟨other, by simpa using present, ?_⟩
          rw [Nat.add_assoc, ← portion_add, behind_behind, ← portion_add] at also
          exact also

variable {R : Type} [Component R] [Sample C R]

omit [Source ρ C] in
theorem Handed.samples {out : Array C} {reading : Reading ρ C}
    (handed : Handed content position left out reading) :
    reading.samples = (stretch content position (portion left out.size)).toList := by
  obtain ⟨outcome, view, next, signals⟩ := reading
  obtain ⟨stored, written⟩ := handed
  dsimp only at stored written
  subst stored written
  have size := size_stretch content position (portion left out.size)
  generalize stretch content position (portion left out.size) = front at size ⊢
  rw [← size, Reading.samples, Reading.answer_complex]
  rfl

omit [Source ρ C] in
theorem Dealt.samples (dealt : Dealt content position left views readings) :
    readings.flatMap Reading.samples =
      (stretch content position (portion left (room views))).toList := by
  induction dealt with
  | @nil position left =>
      cases left <;> simp [room, portion, stretch]
  | @cons position left out reading later readings handed rest ih =>
      rw [List.flatMap_cons, ih, handed.samples, ← Array.toList_append, stretch_append, room,
        portion_add]

end Wideband.Source
