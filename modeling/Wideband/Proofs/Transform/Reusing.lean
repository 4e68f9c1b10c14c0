import Wideband.Proofs.Transform.Convolving
import Wideband.Transform.Fourier

namespace Wideband.Convolver

/-!
A convolver over a kernel has no memory (`life_forgets`). Its spectra are lent to all its runs, but
each run that succeeds has written every bin before it reads it. A run that fails has been turned away,
for its buffers or because the convolver was closed, before it wrote to any of them.
-/

structure Attempt (C π : Type) where
  result : Except Error Unit
  convolver : Convolver C π
  destination : Buffer C
  a : Buffer C
  b : Buffer C

theorem room_of_prepare {C : Type} [Zero C] {kernel : Kernel C} {combination : Combination}
    {destination a b : Buffer C} {convolver : Convolver C Plan}
    (prepared : prepare (.ofKernel kernel) combination destination a b = .ok convolver) :
    0 < destination.size := by
  obtain ⟨length, shared, rest⟩ := Outcome.of_bind prepared
  obtain ⟨plan, first, _⟩ := Outcome.of_bind rest
  have shapes := Buffer.sharedLength_eq_ok_iff.mp shared
  obtain ⟨_, rfl⟩ := shapes destination (by simp)
  obtain ⟨_, size⟩ := shapes a (by simp)
  obtain ⟨samples, rfl, room, _⟩ := Plan.prepare_ok_iff.mp first
  exact size ▸ room

variable {C R : Type} [Component R] [Sample C R] {kernel : Kernel C} {combination : Combination}
  {length : ℕ} {convolver : Convolver C Plan} {destination a b : Buffer C}

def attempt {π : Type} (planner : Planner C π) (convolver : Convolver C π)
    (destination a b : Buffer C) : Attempt C π :=
  match convolver.runBuffers planner destination a b with
  | .error cause => ⟨.error cause, convolver, destination, a, b⟩
  | .ok left =>
      ⟨left.result, left.convolver, .complex left.destination, .complex left.a, .complex left.b⟩

/-- A run that keeps its operands and, unless it succeeds, its destination. It succeeds just on buffers
that fit as long as the convolver is open, and writes what every convolver writes that is newly built
for that length. -/
structure Attempt.Forgets (kernel : Kernel C) (combination : Combination) (length : ℕ) (closed : Bool)
    (destination a b : Buffer C) (left : Attempt C Plan) : Prop where
  keptA : left.a = a
  keptB : left.b = b
  succeeds : left.result = .ok () ↔ closed = false ∧
    ∀ buffer ∈ [destination, a, b], buffer.format = .complex ∧ buffer.size = length
  fails (failed : left.result ≠ .ok ()) : left.destination = destination
  built (done : left.result = .ok ()) :
    ∃ fresh, prepare (.ofKernel kernel) combination destination a b = .ok fresh
  same (done : left.result = .ok ()) {x y z : Buffer C} {fresh : Convolver C Plan}
    (prepared : prepare (.ofKernel kernel) combination x y z = .ok fresh) (fits : x.size = length)
    {spare : Buffer C} (complex : spare.format = .complex) (whole : spare.size = length) :
    (fresh.attempt (.ofKernel kernel) spare a b).result = .ok () ∧
      (fresh.attempt (.ofKernel kernel) spare a b).destination = left.destination

/-- The life of a convolver for one length: it is built, run on any buffers, and possibly closed. -/
inductive Life (kernel : Kernel C) (combination : Combination) (length : ℕ) :
    Bool → Convolver C Plan → Prop where
  | built {destination a b : Buffer C} {convolver : Convolver C Plan}
      (prepared : prepare (.ofKernel kernel) combination destination a b = .ok convolver)
      (fits : destination.size = length) : Life kernel combination length false convolver
  | run {closed : Bool} {convolver : Convolver C Plan}
      (earlier : Life kernel combination length closed convolver) (destination a b : Buffer C) :
      Life kernel combination length closed
        (convolver.attempt (.ofKernel kernel) destination a b).convolver
  | close {closed : Bool} {convolver : Convolver C Plan}
      (earlier : Life kernel combination length closed convolver) :
      Life kernel combination length true (convolver.close (.ofKernel kernel)).2

theorem apply_closed {plan : Plan} (closed : plan.closed = true) (time frequency : Array C) :
    (Planner.ofKernel kernel).apply plan time frequency =
      ⟨.error (.transform .closed), plan, time, frequency⟩ := by
  have refused : plan.check time.size frequency.size = .error (.transform .closed) :=
    if_pos closed
  simp only [Planner.ofKernel, Plan.apply, refused]

theorem attempt_cases {π : Type} (planner : Planner C π) (convolver : Convolver C π)
    (destination a b : Buffer C) :
    (∃ cause, convolver.attempt planner destination a b =
        ⟨.error cause, convolver, destination, a, b⟩) ∨
      ∃ target left right, destination = .complex target ∧ a = .complex left ∧ b = .complex right ∧
        checkLengths convolver.length [target.size, left.size, right.size] = .ok () ∧
        convolver.runBuffers planner destination a b =
          .ok (convolver.run planner target left right) := by
  rcases convolver.runBuffers_cases planner destination a b with
    ⟨target, left, right, rfl, rfl, rfl, ran⟩ | ⟨_, cause, refused⟩
  · cases lengths : checkLengths convolver.length [target.size, left.size, right.size] with
    | error cause => exact .inl ⟨cause, by simp only [attempt, ran, Convolver.run, lengths]⟩
    | ok _ => exact .inr ⟨target, left, right, rfl, rfl, rfl, lengths, ran⟩
  · exact .inl ⟨cause, by simp only [attempt, refused]⟩

theorem Built.refuses (built : convolver.Built (.ofKernel kernel) combination length)
    (misfits : ¬∀ buffer ∈ [destination, a, b], buffer.format = .complex ∧ buffer.size = length) :
    ∃ cause, convolver.attempt (.ofKernel kernel) destination a b =
      ⟨.error cause, convolver, destination, a, b⟩ := by
  refine (convolver.attempt_cases (.ofKernel kernel) destination a b).resolve_right ?_
  rintro ⟨target, left, right, rfl, rfl, rfl, lengths, _⟩
  obtain ⟨whole, first, second⟩ := built.sizes lengths
  exact misfits (by simp [Buffer.format, Buffer.size, whole, first, second])

theorem refuses_of_closed (kernel : Kernel C) (closed : convolver.forwardA.closed = true)
    (destination a b : Buffer C) :
    ∃ cause, convolver.attempt (.ofKernel kernel) destination a b =
      ⟨.error cause, convolver, destination, a, b⟩ := by
  rcases convolver.attempt_cases (.ofKernel kernel) destination a b with
    refused | ⟨target, left, right, rfl, rfl, rfl, lengths, ran⟩
  · exact refused
  · refine ⟨.transform .closed, ?_⟩
    simp only [attempt, ran, Convolver.run, lengths, apply_closed closed]

section Sized

variable (sizes : ∀ direction samples, (kernel direction samples).size = samples.size)

include sizes

theorem Fit.accepts (fit : convolver.Fit (.ofKernel kernel) combination length)
    (fits : ∀ buffer ∈ [destination, a, b], buffer.format = .complex ∧ buffer.size = length) :
    ∃ left right after, a = .complex left ∧ b = .complex right ∧
      convolver.attempt (.ofKernel kernel) destination a b =
        ⟨.ok (), after, .complex (combination.block kernel left right), a, b⟩ := by
  rcases convolver.runBuffers_cases (.ofKernel kernel) destination a b with
    ⟨target, left, right, rfl, rfl, rfl, ran⟩ | ⟨native, _⟩
  · obtain ⟨⟨_, whole⟩, ⟨_, first⟩, ⟨_, second⟩⟩ := by simpa using fits
    have done := fit.succeeds (Planner.reliable_ofKernel kernel) (Planner.keepsBins_ofKernel sizes)
      whole first second
    have same := fit.run_ok (Planner.evaluates_ofKernel sizes) Planner.keepsTime_ofKernel done
    refine ⟨left, right, (convolver.run (.ofKernel kernel) target left right).convolver, rfl, rfl, ?_⟩
    rw [same] at ran
    simp only [attempt, ran]
  · exact absurd (fun buffer member => (fits buffer member).1) native

theorem Life.fit {closed : Bool} (life : Life kernel combination length closed convolver)
    (opened : closed = false) : convolver.Fit (.ofKernel kernel) combination length := by
  induction life with
  | built prepared fits => exact fits ▸ fit_prepare prepared
  | @run _ convolver earlier destination a b fit =>
      rcases convolver.attempt_cases (.ofKernel kernel) destination a b with
        ⟨cause, refused⟩ | ⟨target, left, right, rfl, rfl, rfl, _, ran⟩
      · rw [refused]
        exact fit opened
      · simp only [attempt, ran]
        exact (fit opened).run (Planner.reliable_ofKernel kernel) (Planner.keepsBins_ofKernel sizes)
          target left right
  | close => cases opened

end Sized

theorem Life.shut {closed : Bool} (life : Life kernel combination length closed convolver)
    (ended : closed = true) : convolver.forwardA.closed = true := by
  induction life with
  | built => cases ended
  | run earlier destination a b shut =>
      obtain ⟨_, left⟩ := refuses_of_closed kernel (shut ended) destination a b
      rw [left]
      exact shut ended
  | close => rfl

theorem Life.room {closed : Bool} (life : Life kernel combination length closed convolver) :
    0 < length := by
  induction life with
  | built prepared fits => exact fits ▸ room_of_prepare prepared
  | run _ _ _ _ room => exact room
  | close _ room => exact room

/-- What was done with a convolver before makes no difference to a run. -/
theorem life_forgets (sizes : ∀ direction samples, (kernel direction samples).size = samples.size)
    {closed : Bool} (life : Life kernel combination length closed convolver)
    (destination a b : Buffer C) :
    (convolver.attempt (.ofKernel kernel) destination a b).Forgets kernel combination length closed
      destination a b := by
  by_cases fits : closed = false ∧
      ∀ buffer ∈ [destination, a, b], buffer.format = .complex ∧ buffer.size = length
  · obtain ⟨left, right, after, rfl, rfl, ran⟩ :=
      (life.fit sizes fits.1).accepts sizes fits.2
    rw [ran]
    exact {
      keptA := rfl
      keptB := rfl
      succeeds := iff_of_true rfl fits
      fails := fun failed => absurd rfl failed
      built := fun _ => exists_fit (Planner.reliable_ofKernel kernel) combination life.room fits.2
      same := fun _ _ _ _ _ prepared size _ complex whole => by
        have fit := size ▸ fit_prepare prepared
        obtain ⟨_, _, _, ⟨⟩, ⟨⟩, also⟩ := fit.accepts sizes (List.forall_mem_cons.mpr
          ⟨⟨complex, whole⟩, (List.forall_mem_cons.mp fits.2).2⟩)
        rw [also]
        exact ⟨rfl, rfl⟩ }
  · have refused : ∃ cause, convolver.attempt (.ofKernel kernel) destination a b =
        ⟨.error cause, convolver, destination, a, b⟩ := by
      cases closed with
      | true => exact refuses_of_closed kernel (life.shut rfl) destination a b
      | false => exact (life.fit sizes rfl).refuses fun shapes => fits ⟨rfl, shapes⟩
    obtain ⟨cause, left⟩ := refused
    rw [left]
    have failed : (Except.error cause : Except Error Unit) ≠ .ok () := by simp
    exact {
      keptA := rfl
      keptB := rfl
      succeeds := iff_of_false failed fits
      fails := fun _ => rfl
      built := fun done => absurd done failed
      same := fun done => absurd done failed }

theorem life_forgets_fourier : ∃ convolver : Convolver Complex32 Plan,
    prepare .fourier .correlation (.silent .complex 3) (.silent .complex 3) (.silent .complex 3) =
      .ok convolver ∧
    ((convolver.attempt .fourier (.silent .complex 3) (.silent .signed8 3)
        (.silent .complex 3)).convolver.attempt .fourier (.silent .complex 3) (.silent .complex 3)
          (.silent .complex 3)).result = .ok () ∧
    ((convolver.close .fourier).2.attempt .fourier (.silent .complex 3) (.silent .complex 3)
      (.silent .complex 3)).result ≠ .ok () := by
  have fits (buffer : Buffer Complex32)
      (member : buffer ∈ [.silent .complex 3, .silent .complex 3, .silent .complex 3]) :
      buffer.format = .complex ∧ buffer.size = 3 := by
    simp only [List.mem_cons, List.not_mem_nil, or_false, or_self] at member
    simp [member]
  obtain ⟨convolver, prepared⟩ :=
    exists_fit (Planner.reliable_ofKernel fourier) .correlation (by decide) fits
  have life : Life fourier .correlation 3 false convolver := .built prepared (by simp)
  have opened := life_forgets size_fourier (.run life (.silent .complex 3) (.silent .signed8 3)
    (.silent .complex 3)) (.silent .complex 3) (.silent .complex 3) (.silent .complex 3)
  have closed := life_forgets size_fourier (.close life) (.silent .complex 3) (.silent .complex 3)
    (.silent .complex 3)
  exact ⟨convolver, prepared, opened.succeeds.mpr ⟨rfl, fits⟩,
    fun done => Bool.noConfusion (closed.succeeds.mp done).1⟩

end Wideband.Convolver
