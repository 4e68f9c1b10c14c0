import Wideband.Proofs.Transform.Planners

namespace Wideband

namespace Plan

variable {C : Type} {kernel : Kernel C} {direction : Direction} {size : ℕ} {closed : Bool}

/-- Why a transform of so many points turns away buffers of such sizes. A reason counts only where
none of those above it does. -/
inductive Refusal (size : ℕ) (closed : Bool) (time frequency : ℕ) : Error → Prop where
  | closed (shut : closed = true) : Refusal size closed time frequency (.transform .closed)
  | misfit (opened : closed = false) (differs : time ≠ size) :
      Refusal size closed time frequency (.lengthMismatch [size, time])
  | narrow (opened : closed = false) (same : time = size) (few : frequency < size) :
      Refusal size closed time frequency (.bufferTooSmall size frequency)

theorem check_cases (size : ℕ) (direction : Direction) (closed : Bool) (time frequency : ℕ) :
    (check ⟨size, direction, closed⟩ time frequency = .ok () ∧
        closed = false ∧ time = size ∧ size ≤ frequency) ∨
      ∃ cause, check ⟨size, direction, closed⟩ time frequency = .error cause ∧
        Refusal size closed time frequency cause := by
  unfold check
  dsimp only
  cases closed with
  | true => exact .inr ⟨_, rfl, .closed rfl⟩
  | false =>
      rw [if_neg (by decide)]
      by_cases differs : time = size
      · rw [if_neg (not_not.mpr differs)]
        by_cases few : frequency < size
        · rw [if_pos few]
          exact .inr ⟨_, rfl, .narrow rfl differs few⟩
        · rw [if_neg few]
          exact .inl ⟨rfl, rfl, differs, Nat.not_lt.mp few⟩
      · rw [if_pos differs]
        exact .inr ⟨_, rfl, .misfit rfl differs⟩

theorem not_refusal {time frequency : ℕ} {cause : Error}
    (refusal : Refusal size closed time frequency cause) :
    ¬(closed = false ∧ time = size ∧ size ≤ frequency) := by
  rintro ⟨opened, same, fits⟩
  cases refusal with
  | closed shut => rw [opened] at shut; cases shut
  | misfit _ differs => exact differs same
  | narrow _ _ few => omega

/-- What a transform leaves that keeps to its window: all of the time buffer and as many bins of the
frequency buffer as it has points. Of the one it reads, nothing changes. -/
structure Keeps (kernel : Kernel C) (direction : Direction) (size : ℕ) (closed : Bool)
    (time frequency : Array C) (left : Applied Plan C) : Prop where
  succeeds : left.result = .ok () ↔ closed = false ∧ time.size = size ∧ size ≤ frequency.size
  refused {cause : Error} (failed : left.result = .error cause) :
    Refusal size closed time.size frequency.size cause ∧ left.time = time ∧
      left.frequency = frequency
  forward (done : left.result = .ok ()) (there : direction = .forward) :
    left.time = time ∧ left.frequency.size = frequency.size ∧
      left.frequency.extract 0 size = kernel .forward time ∧
      left.frequency.extract size frequency.size = frequency.extract size frequency.size
  backward (done : left.result = .ok ()) (back : direction = .backward) :
    left.frequency = frequency ∧ left.time = kernel .backward (frequency.extract 0 size)

theorem keeps_apply (sizes : ∀ direction (samples : Array C), 0 < samples.size →
      (kernel direction samples).size = samples.size)
    (room : 0 < size) (direction : Direction) (closed : Bool) (time frequency : Array C) :
    Keeps kernel direction size closed time frequency
      (apply kernel ⟨size, direction, closed⟩ time frequency) := by
  rcases check_cases size direction closed time.size frequency.size with
    ⟨accepted, fits⟩ | ⟨cause, rejected, refusal⟩
  · obtain ⟨opened, same, within⟩ := fits
    cases direction with
    | forward =>
        have bins : (kernel .forward time).size = size :=
          (sizes .forward time (same ▸ room)).trans same
        simp only [apply, accepted]
        constructor
        case succeeds => exact iff_of_true rfl ⟨opened, same, within⟩
        case refused => intro cause failed; cases failed
        case backward => intro _ back; cases back
        case forward =>
          intro _ _
          refine ⟨rfl, ?_, ?_, ?_⟩
          · rw [Array.size_append, Array.size_extract, bins]
            omega
          · simp [← bins]
          · rw [Array.extract_append, bins, Nat.sub_self, Array.extract_extract, Nat.add_zero,
              Nat.add_sub_cancel' within, Nat.min_self]
            simp [bins]
    | backward =>
        simp only [apply, accepted]
        constructor
        case succeeds => exact iff_of_true rfl ⟨opened, same, within⟩
        case refused => intro cause failed; cases failed
        case forward => intro _ there; cases there
        case backward => exact fun _ _ => ⟨rfl, rfl⟩
  · simp only [apply, rejected]
    constructor
    case succeeds => exact iff_of_false (by simp) (not_refusal refusal)
    case refused =>
      intro other failed
      cases failed
      exact ⟨refusal, rfl, rfl⟩
    case forward => intro done; cases done
    case backward => intro done; cases done

/-- The life of a transform of so many points: it is prepared, applied to any buffers, with success
or without, and possibly closed. -/
inductive Life (kernel : Kernel C) (direction : Direction) (size : ℕ) : Bool → Plan → Prop where
  | prepared {time : Buffer C} {frequency : Array C} {plan : Plan}
      (made : (Planner.ofKernel kernel).prepare time frequency direction = .ok plan)
      (fits : time.size = size) : Life kernel direction size false plan
  | applied {closed : Bool} {plan : Plan} (earlier : Life kernel direction size closed plan)
      (time frequency : Array C) :
      Life kernel direction size closed ((Planner.ofKernel kernel).apply plan time frequency).plan
  | closed {closed : Bool} {plan : Plan} (earlier : Life kernel direction size closed plan) :
      Life kernel direction size true ((Planner.ofKernel kernel).close plan).2

theorem Life.eq {plan : Plan} (life : Life kernel direction size closed plan) :
    0 < size ∧ plan = ⟨size, direction, closed⟩ := by
  induction life with
  | prepared made fits =>
      obtain ⟨samples, rfl, room, _, same⟩ := prepare_ok_iff.mp made
      obtain rfl : samples.size = size := fits
      exact ⟨room, same⟩
  | applied _ time frequency ih =>
      obtain ⟨room, rfl⟩ := ih
      exact ⟨room, plan_apply _ time frequency⟩
  | closed _ ih =>
      obtain ⟨room, rfl⟩ := ih
      exact ⟨room, rfl⟩

theorem Life.keeps {plan : Plan} (life : Life kernel direction size closed plan)
    (sizes : ∀ direction (samples : Array C), 0 < samples.size →
      (kernel direction samples).size = samples.size)
    (time frequency : Array C) : Keeps kernel direction size closed time frequency
      ((Planner.ofKernel kernel).apply plan time frequency) := by
  obtain ⟨room, rfl⟩ := life.eq
  exact keeps_apply sizes room direction closed time frequency

theorem transform_once (kernel : Kernel C) (direction : Direction) {samples : Array C}
    (room : 0 < samples.size) (frequency : Array C) :
    let applied := apply kernel ⟨samples.size, direction, false⟩ samples frequency
    (Planner.ofKernel kernel).transform (.complex samples) frequency direction =
      ⟨applied.result, .complex applied.time, applied.frequency⟩ := by
  intro applied
  by_cases fits : samples.size ≤ frequency.size
  · have prepared : (Planner.ofKernel kernel).prepare (.complex samples) frequency direction =
        .ok ⟨samples.size, direction, false⟩ := prepare_ok_iff.mpr ⟨samples, rfl, room, fits, rfl⟩
    simp only [Planner.transform, prepared]
    rfl
  · have few : frequency.size < samples.size := Nat.not_le.mp fits
    have refused : (Planner.ofKernel kernel).prepare (.complex samples) frequency direction =
        .error (.bufferTooSmall samples.size frequency.size) := by
      simp [Planner.ofKernel, prepare, lengthFor, Nat.ne_of_gt room, few]
    have rejected : check ⟨samples.size, direction, false⟩ samples.size frequency.size =
        .error (.bufferTooSmall samples.size frequency.size) := by
      simp [check, few]
    simp only [Planner.transform, refused, applied, apply, rejected]

theorem transform_refused (kernel : Kernel C) (direction : Direction) {time : Buffer C}
    (unfit : time.format ≠ .complex ∨ time.size = 0) (frequency : Array C) :
    ∃ cause, (Planner.ofKernel kernel).transform time frequency direction =
      ⟨.error cause, time, frequency⟩ := by
  cases prepared : (Planner.ofKernel kernel).prepare time frequency direction with
  | error cause => exact ⟨cause, by simp only [Planner.transform, prepared]⟩
  | ok plan =>
      obtain ⟨samples, rfl, room, _⟩ := prepare_ok_iff.mp prepared
      rcases unfit with native | empty
      · exact absurd rfl native
      · exact absurd empty (Nat.ne_of_gt room)

end Plan

def Kernel.IsFourier (kernel : Kernel ℂ) : Prop :=
  ∀ direction (block : Array ℂ), 0 < block.size →
    kernel direction block = Dft.transform direction block

theorem Kernel.IsFourier.sizes {kernel : Kernel ℂ} (exact : kernel.IsFourier)
    (direction : Direction) (samples : Array ℂ) (room : 0 < samples.size) :
    (kernel direction samples).size = samples.size := by
  rw [exact direction samples room, Dft.size_transform]

theorem Dft.transform_back {block : Array ℂ} (room : 0 < block.size) :
    transform .backward (transform .forward block) = block.map ((block.size : ℂ) * ·) := by
  apply Array.ext
  · simp
  · intro index inside _
    have within : index < block.size := by simpa using inside
    have opposite : Direction.backward ≠ .forward := by decide
    have back := bin_transform room opposite index
    have around : ((index : ℤ) % (block.size : ℤ)).toNat = index := by
      rw [Int.emod_eq_of_lt (by omega) (by omega), Int.toNat_natCast]
    rw [around, entry_of_lt within] at back
    simp only [transform, Array.getElem_ofFn, Array.getElem_map] at back ⊢
    exact back

namespace Plan

variable {kernel : Kernel ℂ} {size : ℕ} {plan : Plan}

theorem Keeps.fourier {direction : Direction} {closed : Bool} {time frequency : Array ℂ}
    {left : Applied Plan ℂ} (exact : kernel.IsFourier) (room : 0 < size)
    (keeps : Keeps kernel direction size closed time frequency left) :
    Keeps Dft.transform direction size closed time frequency left := by
  constructor
  case succeeds => exact keeps.succeeds
  case refused => exact keeps.refused
  case forward =>
    intro done there
    obtain ⟨_, same, _⟩ := keeps.succeeds.mp done
    rw [← exact .forward time (same ▸ room)]
    exact keeps.forward done there
  case backward =>
    intro done back
    obtain ⟨_, _, within⟩ := keeps.succeeds.mp done
    have window : 0 < (frequency.extract 0 size).size := by
      rw [Array.size_extract]
      omega
    rw [← exact .backward _ window]
    exact keeps.backward done back

theorem Keeps.round_trip {time frequency other : Array ℂ} {there back : Applied Plan ℂ}
    {early late : Bool} (room : 0 < size)
    (first : Keeps Dft.transform .forward size early time frequency there)
    (second : Keeps Dft.transform .backward size late other there.frequency back)
    (done : there.result = .ok ()) (again : back.result = .ok ()) :
    back.time = time.map ((size : ℂ) * ·) := by
  obtain ⟨_, rfl, _⟩ := first.succeeds.mp done
  obtain ⟨_, _, bins, _⟩ := first.forward done rfl
  rw [(second.backward again rfl).2, bins, Dft.transform_back room]

/-- A transform with exact samples keeps to its window, at any time of its life. A transform back
that follows one of the same length undoes it but for the factor, and a transform that is prepared
for just one application does what it would have done at any other time. -/
theorem keeps_window (exact : kernel.IsFourier) {direction : Direction} {closed : Bool}
    (life : Life kernel direction size closed plan) (time frequency : Array ℂ) :
    let planner := Planner.ofKernel kernel
    Keeps Dft.transform direction size closed time frequency
        (planner.apply plan time frequency) ∧
      (direction = .forward → ∀ back : Plan, Life kernel .backward size false back →
        (planner.apply plan time frequency).result = .ok () →
          ∀ other : Array ℂ, other.size = size →
            let again := planner.apply back other (planner.apply plan time frequency).frequency
            again.result = .ok () ∧ again.time = time.map ((size : ℂ) * ·)) ∧
      (time.size = size → ∃ once : Applied Plan ℂ,
        Keeps Dft.transform direction size false time frequency once ∧
          planner.transform (.complex time) frequency direction =
            ⟨once.result, .complex once.time, once.frequency⟩) ∧
      ∀ buffer : Buffer ℂ, buffer.format ≠ .complex ∨ buffer.size = 0 →
        ∃ cause, planner.transform buffer frequency direction =
          ⟨.error cause, buffer, frequency⟩ := by
  intro planner
  obtain ⟨room, _⟩ := life.eq
  have keeps := (life.keeps exact.sizes time frequency).fourier exact room
  refine ⟨keeps, ?_, ?_, ?_⟩
  · rintro rfl back later done other fits again
    have follows := (later.keeps exact.sizes other
      (planner.apply plan time frequency).frequency).fourier exact room
    obtain ⟨_, _, within⟩ := keeps.succeeds.mp done
    obtain ⟨_, bins, _⟩ := keeps.forward done rfl
    have succeeded : again.result = .ok () := follows.succeeds.mpr ⟨rfl, fits, bins ▸ within⟩
    exact ⟨succeeded, keeps.round_trip room follows done succeeded⟩
  · rintro rfl
    exact ⟨_, (keeps_apply exact.sizes room direction false time frequency).fourier exact room,
      transform_once kernel direction room frequency⟩
  · intro buffer unfit
    exact transform_refused kernel direction unfit frequency

theorem keeps_window_pair : ∃ there back : Plan,
    Life Dft.transform .forward 2 false there ∧ Life Dft.transform .backward 2 false back ∧
      (let planner := Planner.ofKernel Dft.transform
      let first := planner.apply there #[3, 4] #[5, 6, 7]
      let again := planner.apply back #[8, 9] first.frequency
      first.result = .ok () ∧ first.time = #[3, 4] ∧
        first.frequency.extract 2 3 = #[7] ∧ again.result = .ok () ∧ again.time = #[2 * 3, 2 * 4] ∧
        (planner.apply (planner.close back).2 #[8, 9] first.frequency).time = #[8, 9]) := by
  have exact : Kernel.IsFourier Dft.transform := fun _ _ _ => rfl
  have made (direction : Direction) : (Planner.ofKernel Dft.transform).prepare
      (.complex #[1, 2]) #[5, 6] direction = .ok ⟨2, direction, false⟩ := by
    change prepare (.complex #[1, 2]) #[5, 6] direction = _
    apply prepare_ok_iff.mpr
    exact ⟨#[1, 2], rfl, by simp, by simp, rfl⟩
  have there : Life Dft.transform .forward 2 false _ :=
    .applied (.prepared (made .forward) rfl) #[1, 2, 3] #[4]
  have back : Life Dft.transform .backward 2 false _ := .prepared (made .backward) rfl
  obtain ⟨keeps, returns, _⟩ := keeps_window exact there #[3, 4] #[5, 6, 7]
  have done := keeps.succeeds.mpr ⟨rfl, rfl, by decide⟩
  obtain ⟨time, _, _, behind⟩ := keeps.forward done rfl
  obtain ⟨again, doubled⟩ := returns rfl _ back done #[8, 9] rfl
  obtain ⟨shut, _⟩ := keeps_window exact back.closed #[8, 9]
    ((Planner.ofKernel Dft.transform).apply _ #[3, 4] #[5, 6, 7]).frequency
  refine ⟨_, _, there, back, done, time, behind, again, by simpa using doubled, ?_⟩
  cases rejected : ((Planner.ofKernel Dft.transform).apply _ #[8, 9] _).result with
  | ok _ => exact absurd (shut.succeeds.mp rejected).1 (by decide)
  | error cause => exact (shut.refused rejected).2.1

end Plan

end Wideband
