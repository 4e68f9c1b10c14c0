import Wideband.Lock.Synchronizer
import Wideband.Proofs.Transform.Matching

namespace Wideband.Lock

/-!
Streams of one signal that stand at different places of it. What is measured of them are the
differences of their places around the signal, and skipping brings them to one place: each stream
is moved on by as much as it is behind the one that leads most (`Standing.settle`).
-/

structure Standing (ι : Type) where
  item : ι
  place : ℕ
  drained : ℕ

namespace Standing

variable {ι : Type}

def read (count : ℕ) (standing : Standing ι) : Standing ι :=
  { standing with place := standing.place + count }

def skip (count : ℕ) (standing : Standing ι) : Standing ι :=
  { standing with place := standing.place + count, drained := standing.drained + count }

@[simp] theorem map_read_zero (standings : List (Standing ι)) :
    standings.map (read 0) = standings :=
  List.map_id standings

theorem map_read_read (standings : List (Standing ι)) (a b : ℕ) :
    (standings.map (read a)).map (read b) = standings.map (read (a + b)) := by
  simp [read, Nat.add_assoc]

@[simp] theorem map_drained_read (standings : List (Standing ι)) (count : ℕ) :
    (standings.map (read count)).map drained = standings.map drained := by
  rw [List.map_map]
  rfl

@[simp] theorem skip_zero (standing : Standing ι) : standing.skip 0 = standing := rfl

theorem modify_drained (front : List (Standing ι)) (standing : Standing ι)
    (back : List (Standing ι)) (count : ℕ) :
    ((front ++ standing :: back).map drained).modify front.length (· + count) =
      (front ++ standing.skip count :: back).map drained := by
  induction front with
  | nil => rfl
  | cons other front ih =>
      rw [List.cons_append, List.map_cons, List.length_cons, List.modify_succ_cons, ih]
      rfl

def leads (length reference : ℕ) (standings : List (Standing ι)) : List ℤ :=
  standings.map fun standing => lead length reference standing.place

theorem lead_mem (length reference : ℕ) {standings : List (Standing ι)} {standing : Standing ι}
    (member : standing ∈ standings) :
    lead length reference standing.place ∈ leads length reference standings :=
  List.mem_map_of_mem member

theorem leads_read (length reference count : ℕ) (standings : List (Standing ι)) :
    leads length (reference + count) (standings.map (read count)) =
      leads length reference standings := by
  simp [leads, read, Function.comp_def]

end Standing

section Largest

variable {offset : ℤ} {offsets : List ℤ}

theorem max?_eq_largest (some : offsets ≠ []) : offsets.max? = .some (Work.largest offsets) := by
  cases offsets with
  | nil => exact absurd rfl some
  | cons first offsets => rfl

theorem le_largest (member : offset ∈ offsets) : offset ≤ Work.largest offsets :=
  (List.max?_eq_some_iff.mp (max?_eq_largest (List.ne_nil_of_mem member))).2 offset member

theorem largest_mem (some : offsets ≠ []) : Work.largest offsets ∈ offsets :=
  List.max?_mem (max?_eq_largest some)

end Largest

namespace Standing

variable {ι : Type} {length reference : ℕ} {standings : List (Standing ι)}

/-- How far a stream is behind the one that leads most. -/
def behind (length reference : ℕ) (standings : List (Standing ι)) (standing : Standing ι) : ℕ :=
  (Work.largest (leads length reference standings) - lead length reference standing.place).toNat

def settle (length reference : ℕ) (standings : List (Standing ι)) : List (Standing ι) :=
  standings.map fun standing => standing.skip (behind length reference standings standing)

theorem cast_behind {standing : Standing ι} (member : standing ∈ standings) :
    (behind length reference standings standing : ℤ) =
      Work.largest (leads length reference standings) - lead length reference standing.place := by
  have below := le_largest (lead_mem length reference member)
  exact Int.toNat_of_nonneg (by omega)

theorem exists_behind_zero (length reference : ℕ) (some : standings ≠ []) :
    ∃ standing ∈ standings, behind length reference standings standing = 0 := by
  have measured : leads length reference standings ≠ [] := by simpa [leads] using some
  obtain ⟨standing, member, top⟩ := List.mem_map.mp (largest_mem measured)
  refine ⟨standing, member, ?_⟩
  rw [behind, top]
  exact congrArg Int.toNat (sub_self _)

theorem settle_read (length reference count : ℕ) (standings : List (Standing ι)) :
    settle length (reference + count) (standings.map (read count)) =
      (settle length reference standings).map (read count) := by
  rw [settle, settle, List.map_map, List.map_map]
  refine List.map_congr_left fun standing _ => ?_
  simp [behind, leads_read, read, skip, Nat.add_right_comm]

theorem settle_still (zero : ∀ offset ∈ leads length reference standings, offset = 0) :
    settle length reference standings = standings := by
  refine Eq.trans (List.map_congr_left fun standing member => ?_) (List.map_id _)
  have measured : leads length reference standings ≠ [] :=
    List.ne_nil_of_mem (lead_mem length reference member)
  have still : behind length reference standings standing = 0 := by
    rw [behind, zero _ (largest_mem measured), zero _ (lead_mem length reference member)]
    rfl
  rw [still, skip_zero, id]

theorem dvd_settle (room : 0 < length) {standing other : Standing ι}
    (first : standing ∈ settle length reference standings)
    (second : other ∈ settle length reference standings) :
    (length : ℤ) ∣ (other.place : ℤ) - standing.place := by
  obtain ⟨before, member, rfl⟩ := List.mem_map.mp first
  obtain ⟨otherBefore, otherMember, rfl⟩ := List.mem_map.mp second
  have own := dvd_lead room reference before.place
  have others := dvd_lead room reference otherBefore.place
  have apart := dvd_sub own others
  have same : ((otherBefore.skip (behind length reference standings otherBefore)).place : ℤ) -
      (before.skip (behind length reference standings before)).place =
      lead length reference before.place - ((before.place : ℤ) - reference) -
        (lead length reference otherBefore.place - ((otherBefore.place : ℤ) - reference)) := by
    simp only [skip, Nat.cast_add, cast_behind member, cast_behind otherMember]
    ring
  rw [same]
  exact apart

theorem leads_settle (room : 0 < length) (reference : ℕ) {first : Standing ι}
    {rest : List (Standing ι)} :
    ∀ offset ∈ leads length (first.skip (behind length reference (first :: rest) first)).place
      (settle length reference (first :: rest)), offset = 0 := by
  intro offset member
  obtain ⟨standing, settled, rfl⟩ := List.mem_map.mp member
  exact lead_eq_zero (dvd_settle room (List.mem_map_of_mem List.mem_cons_self) settled)

end Standing

end Wideband.Lock
