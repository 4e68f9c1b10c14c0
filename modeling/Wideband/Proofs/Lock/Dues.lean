import Wideband.Proofs.Lock.Rounds
import Wideband.Proofs.Lock.Standing
import Wideband.Proofs.Simulation.Replaying
import Wideband.Proofs.Source.Ample

namespace Wideband.Lock

/-!
What draining skips. The stream that leads most stays where it is, and every other stream skips as
many samples as it is behind that one (`Work.due`). These are the fewest that bring all streams into
step, and the streams skip them in order, so that a stream which fails leaves those behind it alone
(`Work.drain_cancels`).
-/

variable {ρ C π : Type} [Zero C] [Source ρ C]

def Event.skips (stream : ℕ) : Event → Bool
  | .skip index _ _ => index == stream
  | _ => false

namespace Work

variable {position : ρ → ℕ} {work next : Work ρ C π} {amounts : ℕ → ℕ} {index count : ℕ}
  {offsets : List ℤ}

/-- Skipping so many samples of every stream brings all of them into step with the reference. -/
def Cancels (offsets : List ℤ) (amounts : ℕ → ℕ) : Prop :=
  ∀ stream < offsets.length, offsets.getD stream 0 + amounts stream - amounts 0 = 0

def due (offsets : List ℤ) (stream : ℕ) : ℕ :=
  (largest offsets - offsets.getD stream 0).toNat

structure Skipped (position : ρ → ℕ) (amounts : ℕ → ℕ) (index : ℕ) (work next : Work ρ C π) :
    Prop where
  place : ∀ stream < index,
    next.place position stream = work.place position stream + amounts stream
  entered : ∀ stream < index, next.skipped stream = work.skipped stream + amounts stream

inductive Drained (position : ρ → ℕ) (amounts : ℕ → ℕ) (work : Work ρ C π) :
    Outcome Unit × Work ρ C π → Prop where
  | whole (next : Work ρ C π)
      (skipped : Skipped position amounts work.sources.length work next) :
      Drained position amounts work (.ok (), next)
  | stuck (index : ℕ) (source : ρ) (failure : Failure) (next : Work ρ C π)
      (own : work.sources[index]? = some source) (some : 0 < amounts index)
      (failed : (Source.skip source (amounts index) work.synchronizer.settings.length).outcome =
        .error failure)
      (skipped : Skipped position amounts index work next)
      (unreported : ∀ stream ≥ index, next.skipped stream = work.skipped stream)
      (untouched : ∀ stream > index, next.sources[stream]? = work.sources[stream]?) :
      Drained position amounts work (Outcome.inStream index .draining (.error failure), next)

section Amounts

theorem getD_le_largest {stream : ℕ} (inside : stream < offsets.length) :
    offsets.getD stream 0 ≤ largest offsets := by
  rw [List.getD_eq_getElem _ _ inside]
  exact le_largest (List.getElem_mem inside)

theorem due_cancels (reference : offsets.head? = some 0) : Cancels offsets (due offsets) := by
  obtain ⟨others, rfl⟩ := List.head?_eq_some_iff.mp reference
  intro stream inside
  have zero : 0 ≤ largest (0 :: others) := le_largest List.mem_cons_self
  have below := getD_le_largest inside
  simp only [due, List.getD_cons_zero]
  omega

theorem exists_due_zero (some : offsets ≠ []) : ∃ stream < offsets.length, due offsets stream = 0 := by
  obtain ⟨stream, inside, same⟩ := List.getElem_of_mem (largest_mem some)
  refine ⟨stream, inside, ?_⟩
  rw [due, List.getD_eq_getElem _ _ inside, same]
  omega

theorem due_le (cancels : Cancels offsets amounts) {stream : ℕ} (inside : stream < offsets.length) :
    due offsets stream ≤ amounts stream := by
  have some : offsets ≠ [] := List.ne_nil_of_length_pos (by omega)
  obtain ⟨lead, within, same⟩ := List.getElem_of_mem (largest_mem some)
  have first := cancels lead within
  have own := cancels stream inside
  rw [List.getD_eq_getElem _ _ within, same] at first
  rw [due]
  omega

end Amounts

/-- Measured against the stream that leads most, no stream leads, so one pass skips all there is. -/
theorem drain_eq (reference : offsets.head? = some 0) (work : Work ρ C π) :
    work.drain offsets = work.drainLate 0 (offsets.map (· - largest offsets)) ∧
      work.drainLog offsets = work.drainLateLog 0 (offsets.map (· - largest offsets)) := by
  obtain ⟨others, rfl⟩ := List.head?_eq_some_iff.mp reference
  by_cases lead : 0 < largest (0 :: others)
  · have behind : 0 - largest (0 :: others) < 0 := by omega
    have same : (0 - largest (0 :: others)).natAbs = (largest (0 :: others)).toNat := by omega
    refine ⟨?_, ?_⟩
    · simp only [drain, lead, if_true, List.map_cons, drainLate, behind, same, Int.lt_irrefl, if_false]
    · simp only [drainLog, lead, if_true, List.map_cons, drainLateLog, behind, same, Int.lt_irrefl,
        if_false]
  · have none : largest (0 :: others) = 0 := by
      have zero : 0 ≤ largest (0 :: others) := le_largest List.mem_cons_self
      omega
    simp [drain, drainLog, none]

structure Advanced (position : ρ → ℕ) (index count : ℕ) (work next : Work ρ C π) : Prop where
  settings : next.synchronizer.settings = work.synchronizer.settings
  streams : next.sources.length = work.sources.length
  columns : next.synchronizer.report.drained.length = work.synchronizer.report.drained.length
  others : ∀ stream ≠ index, next.sources[stream]? = work.sources[stream]?
  unreported : ∀ stream ≠ index, next.skipped stream = work.skipped stream
  place : next.place position index = work.place position index + count
  entered : next.skipped index = work.skipped index + count

theorem advanced_discard (honest : Source.Honest (C := C) position) {source : ρ}
    (own : work.sources[index]? = some source)
    (column : index < work.synchronizer.report.drained.length)
    (skip : (Source.skip (C := C) source count work.synchronizer.settings.length).outcome = .ok ()) :
    Advanced position index count work
      ((work.passed index source count).reporting fun report =>
        { report with drained := report.drained.modify index (· + count) }) := by
  have moved := honest.skip_counted skip
  obtain ⟨inside, same⟩ := List.getElem?_eq_some_iff.mp own
  refine ⟨rfl, by simp [reporting, passed], by simp [reporting, passed],
    fun stream other => List.getElem?_set_ne other.symm, fun stream other => ?_, ?_, ?_⟩
  · simp [skipped, reporting, passed, other.symm]
  · simp [place, reporting, passed, inside, same, moved]
  · simp [skipped, reporting, passed, column]

omit [Zero C] [Source ρ C] in
theorem place_congr {stream : ℕ} (same : next.sources[stream]? = work.sources[stream]?) :
    next.place position stream = work.place position stream := by
  rw [place, place, List.getElem?_map, List.getElem?_map, same]

theorem Drained.after {result : Outcome Unit × Work ρ C π}
    (advanced : Advanced position index (amounts index) work next)
    (early : ∀ stream < index, amounts stream = 0)
    (rest : Drained position (Function.update amounts index 0) next result) :
    Drained position amounts work result := by
  have moved (stream : ℕ) : next.place position stream + Function.update amounts index 0 stream =
      work.place position stream + amounts stream := by
    by_cases same : stream = index
    · rw [same, Function.update_self, advanced.place, Nat.add_zero]
    · rw [Function.update_of_ne same, place_congr (advanced.others stream same)]
  have booked (stream : ℕ) : next.skipped stream + Function.update amounts index 0 stream =
      work.skipped stream + amounts stream := by
    by_cases same : stream = index
    · rw [same, Function.update_self, advanced.entered, Nat.add_zero]
    · rw [Function.update_of_ne same, advanced.unreported stream same]
  cases rest with
  | whole last skipped =>
      refine .whole last ⟨fun stream inside => ?_, fun stream inside => ?_⟩
      · exact (skipped.place stream (advanced.streams ▸ inside)).trans (moved stream)
      · exact (skipped.entered stream (advanced.streams ▸ inside)).trans (booked stream)
  | stuck stop source failure last own some failed skipped silent untouched =>
      -- The stream that stops the rest has samples to skip, so it comes later.
      have other : stop ≠ index := by
        rintro rfl
        rw [Function.update_self] at some
        exact absurd some (Nat.lt_irrefl 0)
      rw [Function.update_of_ne other] at some failed
      have behind : index < stop := by
        by_contra front
        have none := early stop (by omega)
        omega
      refine .stuck stop source failure last (advanced.others stop other ▸ own) some
        (advanced.settings ▸ failed) ⟨fun stream inside => ?_, fun stream inside => ?_⟩
        (fun stream after => ?_) fun stream after => ?_
      · exact (skipped.place stream inside).trans (moved stream)
      · exact (skipped.entered stream inside).trans (booked stream)
      · exact (silent stream after).trans (advanced.unreported stream (by omega))
      · exact (untouched stream after).trans (advanced.others stream (by omega))

theorem Drained.of_failed {source : ρ} {failure : Failure}
    (early : ∀ stream < index, amounts stream = 0) (amount : 0 < amounts index)
    (own : work.sources[index]? = some source)
    (failed : (Source.skip source (amounts index) work.synchronizer.settings.length).outcome =
      .error failure) :
    Drained position amounts work (Outcome.inStream index .draining (.error failure),
      work.passed index source (amounts index)) := by
  have others (stream : ℕ) (other : stream ≠ index) :
      (work.passed index source (amounts index)).sources[stream]? = work.sources[stream]? :=
    List.getElem?_set_ne other.symm
  refine .stuck index source failure _ own amount failed
    ⟨fun stream inside => ?_, fun stream inside => ?_⟩ (fun stream _ => rfl)
    fun stream after => others stream (by omega)
  · rw [place_congr (others stream (by omega)), early stream inside, Nat.add_zero]
  · rw [early stream inside]
    rfl

theorem drainLate_drained (honest : Source.Honest position)
    (paired : work.sources.length = index + offsets.length)
    (columns : work.synchronizer.report.drained.length = work.sources.length)
    (early : ∀ stream < index, amounts stream = 0)
    (due : ∀ stream < offsets.length,
      amounts (index + stream) = (-(offsets.getD stream 0)).toNat) :
    Drained position amounts work (work.drainLate index offsets) := by
  induction offsets generalizing index work amounts with
  | nil =>
      have none : ∀ stream < work.sources.length, amounts stream = 0 := by
        simpa [paired] using early
      refine .whole work ⟨fun stream inside => ?_, fun stream inside => ?_⟩
      · rw [none stream inside]
        rfl
      · rw [none stream inside]
        rfl
  | cons offset offsets ih =>
      rw [List.length_cons] at paired
      have own : amounts index = (-offset).toNat := by simpa using due 0 (Nat.succ_pos _)
      have later : ∀ stream < offsets.length,
          amounts (index + 1 + stream) = (-(offsets.getD stream 0)).toNat := by
        intro stream inside
        have next := due (stream + 1) (Nat.succ_lt_succ inside)
        rwa [List.getD_cons_succ, Nat.add_comm stream, ← Nat.add_assoc] at next
      by_cases late : offset < 0
      · have count : offset.natAbs = amounts index := by omega
        simp only [drainLate, late, if_true, count]
        have ways := work.discards index (amounts index)
        generalize work.discard index (amounts index) = result at ways ⊢
        cases ways with
        | absent none =>
            rw [List.getElem?_eq_none_iff] at none
            omega
        | failed source failure mine skip =>
            have stuck : Drained position amounts work _ :=
              .of_failed early (by omega) mine skip
            cases failure with
            | error cause => exact stuck
            | fault => exact stuck
        | done source mine skip =>
            have advanced := advanced_discard honest mine (by omega) skip
            have streams := advanced.streams
            have kept := advanced.columns
            refine Drained.after advanced early (ih (by omega) (by omega) ?_ ?_)
            · intro stream inside
              by_cases same : stream = index
              · rw [same, Function.update_self]
              · rw [Function.update_of_ne same, early stream (by omega)]
            · intro stream inside
              rw [Function.update_of_ne (by omega), later stream inside]
      · simp only [drainLate, late, if_false]
        refine ih (by omega) columns (fun stream inside => ?_) later
        by_cases same : stream = index
        · rw [same]
          omega
        · exact early stream (by omega)

theorem skips_drainLateLog (index : ℕ) (offsets : List ℤ) (work : Work ρ C π) (stream : ℕ) :
    (work.drainLateLog index offsets).countP (Event.skips stream) ≤ 1 ∧
      (stream < index → (work.drainLateLog index offsets).countP (Event.skips stream) = 0) := by
  induction offsets generalizing index work with
  | nil => exact ⟨Nat.zero_le 1, fun _ => rfl⟩
  | cons offset offsets ih =>
      by_cases late : offset < 0
      · simp only [drainLateLog, late, if_true]
        cases work.discard index offset.natAbs with
        | mk outcome next =>
            simp only [List.countP_cons, Event.skips, beq_iff_eq]
            cases outcome with
            | error failure =>
                rw [List.countP_nil]
                exact ⟨by split <;> omega, fun front => by rw [if_neg (by omega)]⟩
            | ok _ =>
                obtain ⟨once, early⟩ := ih (index + 1) next
                refine ⟨?_, fun front => by rw [early (by omega), if_neg (by omega)]⟩
                by_cases same : index = stream
                · rw [early (by omega), if_pos same]
                · rwa [if_neg same]
      · simp only [drainLateLog, late, if_false]
        exact ⟨(ih (index + 1) work).1, fun front => (ih (index + 1) work).2 (by omega)⟩

/-- Draining brings streams into step by the fewest skips, each stream skipping at most once. It
succeeds where the streams have enough to skip; where one of them fails, the streams before it have
skipped all they had to, and the streams behind it have not been read. -/
theorem drain_cancels (honest : Source.Honest position) (reference : offsets.head? = some 0)
    (room : 0 < work.synchronizer.settings.length)
    (paired : work.sources.length = offsets.length)
    (columns : work.synchronizer.report.drained.length = offsets.length) :
    (Cancels offsets (due offsets) ∧ (∃ stream < offsets.length, due offsets stream = 0) ∧
      ∀ amounts, Cancels offsets amounts →
        ∀ stream < offsets.length, due offsets stream ≤ amounts stream) ∧
    (∀ stream, (work.drainLog offsets).countP (Event.skips stream) ≤ 1) ∧
    Drained position (due offsets) work (work.drain offsets) ∧
    ((∀ stream source, work.sources[stream]? = some source →
      Source.Ample source (due offsets stream)) → (work.drain offsets).1 = .ok ()) := by
  have some : offsets ≠ [] := by
    rintro rfl
    cases reference
  obtain ⟨same, log⟩ := drain_eq reference work
  have drained : Drained position (due offsets) work (work.drain offsets) := by
    rw [same]
    refine drainLate_drained honest (by simp [paired]) (columns.trans paired.symm) (by simp) ?_
    intro stream inside
    rw [List.length_map] at inside
    have shifted : (offsets.map (· - largest offsets)).getD stream 0 =
        offsets.getD stream 0 - largest offsets := by
      simp [inside]
    rw [shifted, Int.neg_sub, Nat.zero_add, due]
  refine ⟨⟨due_cancels reference, exists_due_zero some, fun amounts cancels stream inside =>
    due_le cancels inside⟩, fun stream => ?_, drained, fun ample => ?_⟩
  · rw [log]
    exact (skips_drainLateLog 0 _ work stream).1
  · generalize work.drain offsets = result at drained ⊢
    cases drained with
    | whole next skipped => rfl
    | stuck index source failure next own some failed skipped unreported untouched =>
        cases failed.symm.trans ((ample index source own).skip honest room)

theorem drain_cancels_pulses :
    ∃ (fresh : Synchronizer ℂ Plan) (work : Work (Metered (Replay ℂ)) ℂ Plan),
      Synchronizer.prepare (Planner.ofKernel Dft.transform) 3 ⟨2, 1, none⟩ = .ok fresh ∧
      work.synchronizer = fresh ∧ work.sources = List.replicate 3 ⟨.standing #[1, 0] 1 1 0, 0⟩ ∧
      (work.drain [0, 1, -2]).1 = .ok () ∧
      (List.range 3).map (due [0, 1, -2]) = [1, 0, 3] ∧
      Skipped Metered.given (due [0, 1, -2]) 3 work (work.drain [0, 1, -2]).2 := by
  obtain ⟨fresh, prepared⟩ : ∃ fresh : Synchronizer ℂ Plan,
      Synchronizer.prepare (Planner.ofKernel Dft.transform) 3 ⟨2, 1, none⟩ = .ok fresh := ⟨_, rfl⟩
  let stream (place : ℕ) : Metered (Replay ℂ) := ⟨.standing #[1, 0] 1 1 place, place⟩
  let work : Work (Metered (Replay ℂ)) ℂ Plan := ⟨fresh, List.replicate 3 (stream 0), false⟩
  have fit := (Synchronizer.prepare_fit prepared).1
  have loud : 0 < (#[1, 0] : Array ℂ).size := by simp
  have plays := Metered.plays_metered (Replay.plays loud 1 1)
  have paired : work.sources.length = [(0 : ℤ), 1, -2].length := rfl
  obtain ⟨_, _, drained, succeeds⟩ := drain_cancels Replay.honest_given rfl
    (by rw [fit.fixed]; decide) paired fit.columns
  have whole := succeeds fun index source own => by
    obtain rfl := List.eq_of_mem_replicate (List.mem_of_getElem? own)
    exact plays.ample 0 _
  refine ⟨fresh, work, prepared, rfl, rfl, whole, by decide, ?_⟩
  generalize work.drain [0, 1, -2] = result at drained whole ⊢
  cases drained with
  | whole next skipped => exact skipped
  | stuck index source failure next own some failed skipped unreported untouched =>
      cases failure with
      | error cause => cases whole
      | fault => cases whole

end Work

end Wideband.Lock
