import Mathlib.Data.Int.Notation
import Wideband.Proofs.Source.Dealing
import Wideband.Sample.Complex32
import Wideband.Simulation.Replay

namespace Wideband.Replay

variable {C R : Type} [Sample C R]

/-- The replays of a signal, with the delays so far added up. Of several angles or limits the last
counts. -/
inductive Built (signal : Array C) (rate : ℕ) : Replay C → ℤ → C → Option ℕ → Prop where
  | ofSignal : Built signal rate (ofSignal signal rate) 0 1 none
  | delayed {replay : Replay C} {delay : ℤ} {multiplier : C} {limit : Option ℕ}
      (earlier : Built signal rate replay delay multiplier limit) (more : ℤ) :
      Built signal rate (replay.delayed more) (delay + more) multiplier limit
  | turned {replay : Replay C} {delay : ℤ} {multiplier : C} {limit : Option ℕ}
      (earlier : Built signal rate replay delay multiplier limit) (angle : R) :
      Built signal rate (replay.turned angle) delay (Sample.unit angle) limit
  | limited {replay : Replay C} {delay : ℤ} {multiplier : C} {limit : Option ℕ}
      (earlier : Built signal rate replay delay multiplier limit) (count : ℕ) :
      Built signal rate (replay.limited count) delay multiplier (some count)

/-- The sample of a signal at a place that is counted around it, in either direction. -/
def around (signal : Array C) (loud : 0 < signal.size) (place : ℤ) : C :=
  have inside : (place % signal.size).toNat < signal.size := by
    have least := Int.emod_nonneg place (b := signal.size) (by omega)
    have most := Int.emod_lt_of_pos place (b := signal.size) (by omega)
    omega
  signal[(place % signal.size).toNat]

structure Stands (signal : Array C) (delay : ℤ) (multiplier : C) (position : ℕ) (left : Option ℕ)
    (replay : Replay C) : Prop where
  repeated : replay.signal = signal
  factor : replay.multiplier = multiplier
  place : (replay.position : ℤ) = (position + delay) % signal.size
  rest : replay.left = left

variable {signal : Array C} {rate : ℕ} {replay : Replay C} {delay : ℤ} {multiplier : C}
  {limit left : Option ℕ} {position : ℕ}

theorem Built.repeated (built : Built signal rate replay delay multiplier limit) :
    replay.signal = signal := by
  induction built with
  | ofSignal => rfl
  | delayed _ _ ih => exact ih
  | turned _ _ ih => exact ih
  | limited _ _ ih => exact ih

theorem Built.stands (loud : 0 < signal.size)
    (built : Built signal rate replay delay multiplier limit) :
    Stands signal delay multiplier 0 limit replay := by
  have some : (signal.size : ℤ) ≠ 0 := by omega
  induction built with
  | ofSignal => exact ⟨rfl, rfl, by simp [Replay.ofSignal], rfl⟩
  | @delayed replay delay multiplier limit earlier more ih =>
      obtain ⟨same, factor, place, rest⟩ := ih
      refine ⟨same, factor, ?_, rest⟩
      -- Delays add up because a remainder may be taken before or after the sum.
      calc ((replay.delayed more).position : ℤ)
          _ = (replay.position + more) % signal.size := by
            rw [Replay.delayed, same]
            exact Int.toNat_of_nonneg (Int.emod_nonneg _ some)
          _ = ((0 : ℕ) + (delay + more)) % signal.size := by
            rw [place, Int.emod_add_emod, Int.add_assoc]
  | turned _ angle ih => exact ⟨ih.repeated, rfl, ih.place, ih.rest⟩
  | limited _ count ih => exact ⟨ih.repeated, ih.factor, ih.place, rfl⟩

theorem available_eq (loud : 0 < replay.signal.size) (size : ℕ) :
    replay.available size = Source.portion replay.left size := by
  rw [available, if_neg (Nat.ne_of_gt loud)]
  rfl

theorem cyclic_around (loud : 0 < signal.size) {place position : ℕ}
    (same : (place : ℤ) = (position + delay) % signal.size) (count : ℕ) :
    (cyclic signal place count).map (· * multiplier) =
      Source.stretch (fun index => around signal loud (index + delay) * multiplier) position
        count := by
  apply Array.ext
  · simp [size_cyclic loud]
  · intro index inside _
    have within : index < count := by simpa [size_cyclic loud] using inside
    have turns : (place + index) % signal.size =
        (((position + index : ℕ) + delay) % signal.size).toNat := by
      have whole : (((position + index : ℕ) : ℤ) + delay) % signal.size =
          ((place + index : ℕ) : ℤ) % signal.size := by
        rw [Int.natCast_add place, same, Int.emod_add_emod, Int.natCast_add]
        congr 1
        omega
      rw [whole, ← Int.natCast_emod, Int.toNat_natCast]
    simp [cyclic, loud, Source.stretch, around, turns]

theorem Stands.advance (here : Stands signal delay multiplier position left replay) (count : ℕ) :
    Stands signal delay multiplier (position + count) (Source.behind left count)
      (replay.advance count) := by
  obtain ⟨rfl, factor, place, rfl⟩ := here
  refine ⟨rfl, factor, ?_, rfl⟩
  change (((replay.position + count) % replay.signal.size : ℕ) : ℤ) = _
  rw [Int.natCast_emod, Int.natCast_add, place, Int.emod_add_emod, Int.natCast_add]
  congr 1
  omega

theorem deals (loud : 0 < signal.size) (delay : ℤ) (multiplier : C) :
    Source.Deals (Stands signal delay multiplier)
      fun index => around signal loud (index + delay) * multiplier where
  handed {position left replay} here out := by
    obtain ⟨rfl, rfl, place, rfl⟩ := here
    have count := available_eq loud out.size
    constructor
    case outcome => exact congrArg Except.ok count
    case view =>
      rw [← count, ← cyclic_around loud place]
      rfl
  onward {position left replay} here out := by
    have count := available_eq (here.repeated ▸ loud) out.size
    rw [← here.rest, ← count, here.rest]
    exact here.advance _

theorem read_silent (silent : replay.signal.size = 0) (out : Array C) :
    (Source.read replay (.complex out)).outcome = .ok 0 ∧
      (Source.read replay (.complex out)).view = .complex out ∧
      (Source.read replay (.complex out)).source.signal.size = 0 := by
  have count : replay.available out.size = 0 := if_pos silent
  refine ⟨congrArg Except.ok count, ?_, silent⟩
  change Buffer.complex ((cyclic replay.signal replay.position (replay.available out.size)).map _ ++
    out.extract (replay.available out.size) out.size) = _
  simp [count, cyclic, silent]

theorem readEach_silent (silent : replay.signal.size = 0) (views : List (Array C)) :
    List.Forall₂ (fun out reading => reading.outcome = .ok 0 ∧ reading.view = .complex out) views
      (Source.readEach replay (views.map .complex)).1 := by
  induction views generalizing replay with
  | nil => exact .nil
  | cons out later ih =>
      obtain ⟨nothing, same, still⟩ := read_silent silent out
      exact .cons ⟨nothing, same⟩ (ih still)

/-- Sample `n` of a replay is the sample of its signal at `n` and all delays, counted around the
signal, times the constant. -/
theorem repeats [Component R] (built : Built signal rate replay delay multiplier limit)
    (views : List (Array C)) :
    (∀ loud : 0 < signal.size,
      let content := fun index : ℕ => around signal loud (index + delay) * multiplier
      let readings := (Source.readEach replay (views.map .complex)).1
      Source.Dealt content 0 limit views readings ∧
        readings.flatMap Reading.samples =
          (Source.stretch content 0 (Source.portion limit (Source.room views))).toList) ∧
      (signal.size = 0 →
        List.Forall₂ (fun out reading => reading.outcome = .ok 0 ∧ reading.view = .complex out)
          views (Source.readEach replay (views.map .complex)).1) := by
  constructor
  · intro loud content readings
    have dealt := (deals loud delay multiplier).dealt (built.stands loud) views
    exact ⟨dealt, dealt.samples⟩
  · intro silent
    exact readEach_silent (built.repeated ▸ silent) views

def ramp : Array Complex32 := #[⟨0, 0⟩, ⟨1, 0⟩, ⟨2, 0⟩]

def threeViews : List (Array Complex32) := [#[0, 0], #[], #[0, 0, 0, 0]]

theorem repeats_ramp :
    let replay := (((ofSignal ramp 100).delayed (-3)).limited 5).delayed 2
    let readings := (Source.readEach replay (threeViews.map .complex)).1
    Built ramp 100 replay (-1) 1 (some 5) ∧
      readings[2]?.map Reading.outcome = some (.ok 3) ∧
      readings.flatMap Reading.samples =
        [⟨2, 0⟩ * 1, ⟨0, 0⟩ * 1, ⟨1, 0⟩ * 1, ⟨2, 0⟩ * 1, ⟨0, 0⟩ * 1] := by
  have built : Built ramp 100 _ (-1) 1 (some 5) :=
    ((Built.ofSignal.delayed (-3)).limited 5).delayed 2
  obtain ⟨repeated, _⟩ := repeats built threeViews
  obtain ⟨dealt, samples⟩ := repeated (by decide)
  obtain ⟨reading, found, handed⟩ := dealt.handed (show threeViews[2]? = some #[0, 0, 0, 0] from rfl)
  refine ⟨built, ?_, samples.trans ?_⟩
  · rw [found]
    exact congrArg some handed.outcome
  · have count : Source.portion (some 5) (Source.room threeViews) = 5 := rfl
    rw [count, Source.stretch, Array.toList_ofFn]
    rfl

end Wideband.Replay
