import Wideband.Proofs.Transform.Dft

namespace Wideband

/-!
What may be asked of a planner. A prepared transform is bound to the direction and the size it was
prepared for, however often it has been applied (`Planner.Prepared`). `Planner.IsFourier` says what
transforms compute when they succeed, `Planner.Reliable` that they succeed on buffers that fit, and
`Planner.KeepsSizes` that buffers, which are lent to a transform, keep their length. The planner of
the kernel `Dft.transform` is all of this. `Planner.Computes` is the same without a word about what
the kernel is, and `Planner.Evaluates` asks for nothing but one function of the buffer that is read.
-/

namespace Plan

variable {C : Type} {kernel : Kernel C} {direction : Direction} {plan : Plan}

theorem lengthFor_ok_iff {time : Buffer C} {frequency : Array C} {length : ℕ} :
    lengthFor time frequency = .ok length ↔ ∃ samples, time = .complex samples ∧
      0 < samples.size ∧ samples.size ≤ frequency.size ∧ samples.size = length := by
  cases time with
  | complex samples =>
      unfold lengthFor
      constructor
      · intro accepted
        dsimp only at accepted
        split at accepted
        · cases accepted
        split at accepted
        · cases accepted
        · cases accepted
          exact ⟨samples, rfl, by omega, by omega, rfl⟩
      · rintro ⟨_, ⟨⟩, room, fits, rfl⟩
        dsimp only
        rw [if_neg (by omega), if_neg (by omega)]
  | _ => simp [lengthFor]

theorem prepare_ok_iff {time : Buffer C} {frequency : Array C} :
    prepare time frequency direction = .ok plan ↔ ∃ samples, time = .complex samples ∧
      0 < samples.size ∧ samples.size ≤ frequency.size ∧
      plan = ⟨samples.size, direction, false⟩ := by
  constructor
  · intro prepared
    cases length : lengthFor time frequency with
    | error cause => simp [prepare, length] at prepared
    | ok found =>
        obtain ⟨samples, complex, room, fits, rfl⟩ := lengthFor_ok_iff.mp length
        simp only [prepare, length, Except.ok.injEq] at prepared
        exact ⟨samples, complex, room, fits, prepared.symm⟩
  · rintro ⟨samples, complex, room, fits, rfl⟩
    have length := lengthFor_ok_iff.mpr ⟨samples, complex, room, fits, rfl⟩
    simp only [prepare, length]

theorem check_ok_iff {time frequency : ℕ} : plan.check time frequency = .ok () ↔
    plan.closed = false ∧ time = plan.length ∧ plan.length ≤ frequency := by
  unfold check
  split
  · simp_all
  split
  · simp_all
  split
  · simp_all
  · simp_all

theorem check_fitting {size time frequency : ℕ} (same : time = size) (fits : size ≤ frequency) :
    check ⟨size, direction, false⟩ time frequency = .ok () :=
  check_ok_iff.mpr ⟨rfl, same, fits⟩

theorem plan_apply (plan : Plan) (time frequency : Array C) :
    (apply kernel plan time frequency).plan = plan := by
  unfold apply
  split
  · rfl
  · split <;> rfl

end Plan

namespace Planner

variable {C π : Type}

/-- A transform of so many points that has not been released. -/
inductive Prepared (planner : Planner C π) (direction : Direction) (size : ℕ) : π → Prop where
  | prepare {time : Buffer C} {frequency : Array C} {plan : π} (fits : time.size = size)
      (prepared : planner.prepare time frequency direction = .ok plan) :
      Prepared planner direction size plan
  | apply {plan : π} (earlier : Prepared planner direction size plan) (time frequency : Array C) :
      Prepared planner direction size (planner.apply plan time frequency).plan

/-- A transform that succeeds has checked the shapes of its buffers and computes the unnormalised
discrete Fourier transform. It reads one buffer and writes the other; what it leaves of the bins
behind its own is not said, nor what it does to the bins it has read. -/
structure IsFourier (planner : Planner ℂ π) : Prop where
  fits {direction : Direction} {size : ℕ} {plan : π} {time frequency : Array ℂ}
    (prepared : planner.Prepared direction size plan)
    (applied : (planner.apply plan time frequency).result = .ok ()) :
    time.size = size ∧ size ≤ frequency.size ∧
      (planner.apply plan time frequency).frequency.size = frequency.size
  forward {size : ℕ} {plan : π} {time frequency : Array ℂ}
    (prepared : planner.Prepared .forward size plan)
    (applied : (planner.apply plan time frequency).result = .ok ()) :
    (planner.apply plan time frequency).time = time ∧
      (planner.apply plan time frequency).frequency.extract 0 size = Dft.transform .forward time
  backward {size : ℕ} {plan : π} {time frequency : Array ℂ}
    (prepared : planner.Prepared .backward size plan)
    (applied : (planner.apply plan time frequency).result = .ok ()) :
    (planner.apply plan time frequency).time =
      Dft.transform .backward (frequency.extract 0 size)

/-- Transforms can be prepared for buffers that fit, applied to them and released. -/
structure Reliable (planner : Planner C π) : Prop where
  prepares {samples frequency : Array C} (direction : Direction) (room : 0 < samples.size)
    (fits : samples.size ≤ frequency.size) :
    ∃ plan, planner.prepare (.complex samples) frequency direction = .ok plan
  applies {direction : Direction} {size : ℕ} {plan : π} {time frequency : Array C}
    (prepared : planner.Prepared direction size plan) (same : time.size = size)
    (fits : size ≤ frequency.size) :
    (planner.apply plan time frequency).result = .ok ()
  closes {direction : Direction} {size : ℕ} {plan : π}
    (prepared : planner.Prepared direction size plan) : (planner.close plan).1 = .ok ()

/-- Transforms between buffers of one size can be prepared and succeed, each time with what the
kernel makes of the buffer they read. What they do to that buffer is not said, but for its size. -/
structure Computes (planner : Planner C π) (kernel : Kernel C) : Prop where
  prepares {samples frequency : Array C} (direction : Direction) (room : 0 < samples.size)
    (same : frequency.size = samples.size) :
    ∃ plan, planner.prepare (.complex samples) frequency direction = .ok plan
  applies {direction : Direction} {size : ℕ} {plan : π} {time frequency : Array C}
    (prepared : planner.Prepared direction size plan) (fits : time.size = size)
    (filled : frequency.size = size) :
    (planner.apply plan time frequency).result = .ok () ∧
      (planner.apply plan time frequency).time.size = size ∧
      (planner.apply plan time frequency).frequency.size = size
  forward {size : ℕ} {plan : π} {time frequency : Array C}
    (prepared : planner.Prepared .forward size plan) (fits : time.size = size)
    (filled : frequency.size = size) :
    (planner.apply plan time frequency).frequency = kernel .forward time
  backward {size : ℕ} {plan : π} {time frequency : Array C}
    (prepared : planner.Prepared .backward size plan) (fits : time.size = size)
    (filled : frequency.size = size) :
    (planner.apply plan time frequency).time = kernel .backward frequency

/-- A transform that succeeds has done what the kernel makes of the buffer it reads. Nothing is said
of what it does to that buffer, of the bins behind its own, nor of when it succeeds. -/
structure Evaluates (planner : Planner C π) (kernel : Kernel C) : Prop where
  forward {size : ℕ} {plan : π} {time frequency : Array C}
    (prepared : planner.Prepared .forward size plan)
    (applied : (planner.apply plan time frequency).result = .ok ()) :
    (planner.apply plan time frequency).frequency.extract 0 size = kernel .forward time
  backward {size : ℕ} {plan : π} {time frequency : Array C}
    (prepared : planner.Prepared .backward size plan)
    (applied : (planner.apply plan time frequency).result = .ok ()) :
    (planner.apply plan time frequency).time = kernel .backward (frequency.extract 0 size)

def KeepsBins (planner : Planner C π) : Prop :=
  ∀ {direction : Direction} {size : ℕ} {plan : π} (time frequency : Array C),
    planner.Prepared direction size plan → (planner.apply plan time frequency).result = .ok () →
      (planner.apply plan time frequency).frequency.size = frequency.size

def KeepsTime (planner : Planner C π) : Prop :=
  ∀ {size : ℕ} {plan : π} (time frequency : Array C),
    planner.Prepared .forward size plan → (planner.apply plan time frequency).result = .ok () →
      (planner.apply plan time frequency).time = time

/-- A transform can not change the length of the samples it is lent. -/
def KeepsSizes (planner : Planner C π) : Prop :=
  ∀ plan time frequency, (planner.apply plan time frequency).time.size = time.size

theorem IsFourier.evaluates {planner : Planner ℂ π} (exact : planner.IsFourier) :
    planner.Evaluates Dft.transform where
  forward prepared applied := (exact.forward prepared applied).2
  backward prepared applied := exact.backward prepared applied

theorem IsFourier.keepsBins {planner : Planner ℂ π} (exact : planner.IsFourier) :
    planner.KeepsBins :=
  fun _ _ prepared applied => (exact.fits prepared applied).2.2

theorem IsFourier.keepsTime {planner : Planner ℂ π} (exact : planner.IsFourier) :
    planner.KeepsTime :=
  fun _ _ prepared applied => (exact.forward prepared applied).1

theorem IsFourier.forward_exact {planner : Planner ℂ π} (exact : planner.IsFourier) {size : ℕ}
    {plan : π} {time frequency : Array ℂ} (prepared : planner.Prepared .forward size plan)
    (applied : (planner.apply plan time frequency).result = .ok ())
    (filled : frequency.size = size) :
    (planner.apply plan time frequency).frequency = Dft.transform .forward time := by
  obtain ⟨_, _, kept⟩ := exact.fits prepared applied
  rw [← (exact.forward prepared applied).2, ← filled, ← kept, Array.extract_size]

theorem IsFourier.backward_exact {planner : Planner ℂ π} (exact : planner.IsFourier) {size : ℕ}
    {plan : π} {time frequency : Array ℂ} (prepared : planner.Prepared .backward size plan)
    (applied : (planner.apply plan time frequency).result = .ok ())
    (filled : frequency.size = size) :
    (planner.apply plan time frequency).time = Dft.transform .backward frequency := by
  rw [exact.backward prepared applied, ← filled, Array.extract_size]

section Kernel

variable {kernel : Kernel C} {direction : Direction} {size : ℕ} {plan : Plan}

theorem prepared_ofKernel (prepared : (ofKernel kernel).Prepared direction size plan) :
    plan = ⟨size, direction, false⟩ := by
  induction prepared with
  | prepare fits prepared =>
      obtain ⟨samples, rfl, _, _, same⟩ := Plan.prepare_ok_iff.mp prepared
      obtain rfl : samples.size = size := fits
      exact same
  | @apply plan earlier time frequency ih => exact (Plan.plan_apply plan time frequency).trans ih

theorem reliable_ofKernel (kernel : Kernel C) : (ofKernel kernel).Reliable where
  prepares direction room fits := ⟨_, Plan.prepare_ok_iff.mpr ⟨_, rfl, room, fits, rfl⟩⟩
  applies {direction size plan time frequency} prepared same fits := by
    obtain rfl := prepared_ofKernel prepared
    simp only [ofKernel, Plan.apply, Plan.check_fitting same fits]
    cases direction <;> rfl
  closes _ := rfl

theorem computes_ofKernel
    (sizes : ∀ direction samples, (kernel direction samples).size = samples.size) :
    (ofKernel kernel).Computes kernel where
  prepares direction room same := (reliable_ofKernel kernel).prepares direction room same.ge
  applies {direction size plan time frequency} prepared fits filled := by
    obtain rfl := prepared_ofKernel prepared
    simp only [ofKernel, Plan.apply, Plan.check_fitting fits filled.ge]
    cases direction <;> simp [sizes, fits, filled]
  forward {size plan time frequency} prepared fits filled := by
    obtain rfl := prepared_ofKernel prepared
    simp only [ofKernel, Plan.apply, Plan.check_fitting fits filled.ge]
    simp [filled]
  backward {size plan time frequency} prepared fits filled := by
    obtain rfl := prepared_ofKernel prepared
    simp only [ofKernel, Plan.apply, Plan.check_fitting fits filled.ge]
    simp [← filled]

theorem check_of_applied {time frequency : Array C}
    (applied : ((ofKernel kernel).apply ⟨size, direction, false⟩ time frequency).result = .ok ()) :
    Plan.check ⟨size, direction, false⟩ time.size frequency.size = .ok () := by
  cases accepted : Plan.check ⟨size, direction, false⟩ time.size frequency.size with
  | ok _ => rfl
  | error cause => simp [ofKernel, Plan.apply, accepted] at applied

theorem fits_of_check {time frequency : ℕ} (accepted : plan.check time frequency = .ok ()) :
    time = plan.length ∧ plan.length ≤ frequency :=
  (Plan.check_ok_iff.mp accepted).2

theorem evaluates_ofKernel
    (sizes : ∀ direction samples, (kernel direction samples).size = samples.size) :
    (ofKernel kernel).Evaluates kernel where
  forward {size plan time frequency} prepared applied := by
    obtain rfl := prepared_ofKernel prepared
    have accepted := check_of_applied applied
    obtain ⟨same, _⟩ : time.size = size ∧ size ≤ frequency.size := fits_of_check accepted
    simp only [ofKernel, Plan.apply, accepted]
    simp [← same, ← sizes .forward time]
  backward {size plan time frequency} prepared applied := by
    obtain rfl := prepared_ofKernel prepared
    have accepted := check_of_applied applied
    simp [ofKernel, Plan.apply, accepted]

theorem keepsBins_ofKernel
    (sizes : ∀ direction samples, (kernel direction samples).size = samples.size) :
    (ofKernel kernel).KeepsBins := by
  intro direction size plan time frequency prepared applied
  obtain rfl := prepared_ofKernel prepared
  have accepted := check_of_applied applied
  obtain ⟨same, fits⟩ : time.size = size ∧ size ≤ frequency.size := fits_of_check accepted
  simp only [ofKernel, Plan.apply, accepted]
  cases direction with
  | forward =>
      simp only [Array.size_append, sizes, Array.size_extract]
      omega
  | backward => rfl

theorem keepsTime_ofKernel : (ofKernel kernel).KeepsTime := by
  intro size plan time frequency prepared _
  obtain rfl := prepared_ofKernel prepared
  simp only [ofKernel, Plan.apply]
  split <;> rfl

theorem isFourier_ofKernel : (ofKernel Dft.transform).IsFourier where
  fits {direction size plan time frequency} prepared applied := by
    obtain rfl := prepared_ofKernel prepared
    have accepted := check_of_applied applied
    obtain ⟨same, fits⟩ := fits_of_check accepted
    refine ⟨same, fits, ?_⟩
    simp only [ofKernel, Plan.apply, accepted]
    cases direction with
    | forward => simp [same, fits]
    | backward => rfl
  forward {size plan time frequency} prepared applied := by
    obtain rfl := prepared_ofKernel prepared
    have accepted := check_of_applied applied
    obtain ⟨same, _⟩ : time.size = size ∧ size ≤ frequency.size := fits_of_check accepted
    simp only [ofKernel, Plan.apply, accepted]
    simp [← same]
  backward {size plan time frequency} prepared applied := by
    obtain rfl := prepared_ofKernel prepared
    have accepted := check_of_applied applied
    simp [ofKernel, Plan.apply, accepted]

theorem keepsSizes_ofKernel : (ofKernel Dft.transform).KeepsSizes := by
  intro plan time frequency
  cases accepted : plan.check time.size frequency.size with
  | error cause => simp [ofKernel, Plan.apply, accepted]
  | ok _ =>
      obtain ⟨same, fits⟩ := fits_of_check accepted
      simp only [ofKernel, Plan.apply, accepted]
      cases plan.direction with
      | forward => rfl
      | backward => simp [same, fits]

end Kernel

end Planner

end Wideband
