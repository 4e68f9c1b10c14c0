import Wideband.Proofs.Transform.Convolving
import Wideband.Transform.Filter
import Wideband.Transform.Fourier

namespace Wideband

/-!
A filter is a convolver whose second operand has been transformed beforehand. Whatever the transforms
compute, both write the same wherever they succeed (`Filter.runs_as_convolver`): a run of either comes
down to `Combination.block`, and the response that a filter is made with is never written to.
-/

section Once

variable {C π : Type} {planner : Planner C π} {samples frequency : Array C} {direction : Direction}

theorem Planner.transform_ok
    (done : (planner.transform (.complex samples) frequency direction).result = .ok ()) :
    ∃ plan, planner.Prepared direction samples.size plan ∧
      (planner.apply plan samples frequency).result = .ok () ∧
      (planner.transform (.complex samples) frequency direction).frequency =
        (planner.apply plan samples frequency).frequency := by
  cases prepared : planner.prepare (.complex samples) frequency direction with
  | error cause => simp [transform, prepared] at done
  | ok plan =>
      refine ⟨plan, .prepare rfl prepared, ?_, ?_⟩
      · simp only [transform, prepared, Buffer.samples] at done
        split at done
        · cases done
        · exact done
      · simp only [transform, prepared, Buffer.samples]

theorem Planner.Reliable.transform (reliable : planner.Reliable) (kept : planner.KeepsBins)
    (direction : Direction) (room : 0 < samples.size) (same : frequency.size = samples.size) :
    (planner.transform (.complex samples) frequency direction).result = .ok () ∧
      (planner.transform (.complex samples) frequency direction).frequency.size =
        samples.size := by
  obtain ⟨plan, prepared⟩ := reliable.prepares direction room same.ge
  have ready : planner.Prepared direction samples.size plan := .prepare rfl prepared
  have applied := reliable.applies ready rfl same.ge
  have closed := reliable.closes (.apply ready samples frequency)
  constructor
  · simp only [Planner.transform, prepared, Buffer.samples]
    rw [← applied]
    split
    · simp_all
    · rfl
  · simp only [Planner.transform, prepared, Buffer.samples]
    exact (kept samples frequency ready applied).trans same

end Once

namespace Filter

variable {C R π : Type} {planner : Planner C π} {response : Array C} {length : ℕ}

/-- A filter of one response and the length of it. What its spectrum holds is left open. -/
structure Built (planner : Planner C π) (response : Array C) (length : ℕ) (filter : Filter C π) :
    Prop where
  kernel : filter.kernel = response
  fixed : response.size = length
  forward : planner.Prepared .forward length filter.forward
  backward : planner.Prepared .backward length filter.backward

structure Fit (planner : Planner C π) (response : Array C) (length : ℕ) (filter : Filter C π) :
    Prop extends Built planner response length filter where
  spectrum : filter.spectrum.size = length

theorem fit_prepare [Zero C] {destination source : Buffer C} {filter : Filter C π}
    (prepared : prepare planner destination source response = .ok filter) :
    filter.Fit planner response response.size := by
  obtain ⟨length, shared, rest⟩ := Outcome.of_bind prepared
  split at rest
  · rename_i same
    obtain ⟨forward, first, rest⟩ := Outcome.of_bind rest
    obtain ⟨backward, last, rest⟩ := Outcome.of_bind rest
    cases rest
    have sizes := Buffer.sharedLength_eq_ok_iff.mp shared
    subst same
    exact {
      kernel := rfl
      fixed := rfl
      forward := .prepare (sizes source (by simp)).2 first
      backward := .prepare (sizes destination (by simp)).2 last
      spectrum := Array.size_replicate }
  · cases rest

theorem exists_fit [Zero C] (reliable : planner.Reliable) {destination source : Buffer C}
    (room : 0 < response.size) (shapes : ∀ buffer ∈ [destination, source],
      buffer.format = .complex ∧ buffer.size = response.size) :
    ∃ filter, prepare planner destination source response = .ok filter := by
  have shared := Buffer.sharedLength_eq_ok_iff.mpr shapes
  obtain ⟨forward, first⟩ := reliable.exists_plan room (shapes source (by simp)) .forward
  obtain ⟨backward, last⟩ := reliable.exists_plan room (shapes destination (by simp)) .backward
  exact ⟨_, by simp only [prepare, shared, bind, Except.bind, if_pos, first, last]; rfl⟩

variable [Component R] [Sample C R]

section Stages

variable (planner) (filter : Filter C π) (destination source : Array C)

def first : Applied π C :=
  planner.apply filter.forward source filter.spectrum

/-- The product of the response with the spectrum that the forward transform of a run leaves. -/
def product : Array C :=
  Array.zipWith (Combination.convolution.bin (Component.reciprocal filter.kernel.size))
    (filter.first planner source).frequency filter.kernel

def last : Applied π C :=
  planner.apply filter.backward destination (filter.product planner source)

def afterFirst : Filter C π :=
  { filter with
    forward := (filter.first planner source).plan
    spectrum := (filter.first planner source).frequency }

def afterLast : Filter C π :=
  { filter.afterFirst planner source with
    backward := (filter.last planner destination source).plan
    spectrum := (filter.last planner destination source).frequency }

/-- The ways in which a run can go, with what it leaves behind. -/
inductive Ran : Filtered C π → Prop where
  | refused {cause : Error}
      (lengths : checkLengths filter.kernel.size [destination.size, source.size] =
        .error cause) :
      Ran ⟨.error cause, filter, destination, source⟩
  | first {cause : Error}
      (lengths : checkLengths filter.kernel.size [destination.size, source.size] = .ok ())
      (failed : (filter.first planner source).result = .error cause) :
      Ran ⟨.error cause, filter.afterFirst planner source, destination,
        (filter.first planner source).time⟩
  | last
      (lengths : checkLengths filter.kernel.size [destination.size, source.size] = .ok ())
      (done : (filter.first planner source).result = .ok ()) :
      Ran ⟨(filter.last planner destination source).result,
        filter.afterLast planner destination source,
        (filter.last planner destination source).time, (filter.first planner source).time⟩

theorem ran_run : filter.Ran planner destination source (filter.run planner destination source) := by
  cases lengths : checkLengths filter.kernel.size [destination.size, source.size] with
  | error cause =>
      simp only [run, lengths]
      exact .refused lengths
  | ok _ =>
      cases done : (planner.apply filter.forward source filter.spectrum).result with
      | error cause =>
          simp only [run, lengths, done]
          exact .first lengths done
      | ok _ =>
          simp only [run, lengths, done]
          exact .last lengths done

end Stages

variable {filter : Filter C π} {destination source : Array C}

theorem Built.sizes (built : filter.Built planner response length)
    (lengths : checkLengths filter.kernel.size [destination.size, source.size] = .ok ()) :
    destination.size = length ∧ source.size = length := by
  simpa [built.kernel, built.fixed] using checkLengths_ok_iff.mp lengths

theorem Built.run (built : filter.Built planner response length) (destination source : Array C) :
    (filter.run planner destination source).filter.Built planner response length := by
  have ran := filter.ran_run planner destination source
  generalize filter.run planner destination source = left at ran ⊢
  obtain ⟨kernel, fixed, forward, backward⟩ := built
  cases ran with
  | refused => exact ⟨kernel, fixed, forward, backward⟩
  | first => exact ⟨kernel, fixed, .apply forward .., backward⟩
  | last => exact ⟨kernel, fixed, .apply forward .., .apply backward ..⟩

theorem Built.block {kernel : Kernel C} {impulse : Array C}
    (built : filter.Built planner response length) (evaluates : planner.Evaluates kernel)
    (done : (filter.run planner destination source).result = .ok ()) :
    source.size = length ∧ (response.extract 0 length = kernel .forward impulse →
      (filter.run planner destination source).destination =
        Combination.convolution.block kernel source impulse) := by
  have ran := filter.ran_run planner destination source
  generalize filter.run planner destination source = left at ran done ⊢
  cases ran with
  | refused => cases done
  | first => cases done
  | last lengths first =>
      obtain ⟨_, long⟩ := built.sizes lengths
      refine ⟨long, fun transformed => ?_⟩
      have spectrum := evaluates.forward built.forward first
      rw [Combination.block, long, ← spectrum, ← transformed, ← Array.take_zipWith, ← built.kernel,
        ← built.fixed, ← built.kernel]
      exact (evaluates.backward (built.kernel ▸ built.fixed ▸ built.backward) done)

section Reliable

variable (fit : filter.Fit planner response length) (reliable : planner.Reliable)
  (kept : planner.KeepsBins)

include fit reliable kept

theorem Fit.first (long : source.size = length) : (filter.first planner source).result = .ok () ∧
    (filter.first planner source).frequency.size = length := by
  have done : (filter.first planner source).result = .ok () :=
    reliable.applies fit.forward long fit.spectrum.ge
  exact ⟨done, (kept source _ fit.forward done).trans fit.spectrum⟩

theorem Fit.last (target : destination.size = length) (long : source.size = length) :
    (filter.last planner destination source).result = .ok () ∧
      (filter.last planner destination source).frequency.size = length := by
  have width : (filter.product planner source).size = length := by
    rw [product, Array.size_zipWith, (fit.first reliable kept long).2, fit.kernel, fit.fixed,
      min_self]
  have done : (filter.last planner destination source).result = .ok () :=
    reliable.applies fit.backward target width.ge
  exact ⟨done, (kept destination _ fit.backward done).trans width⟩

theorem Fit.succeeds (target : destination.size = length) (long : source.size = length) :
    (filter.run planner destination source).result = .ok () := by
  have ran := filter.ran_run planner destination source
  generalize filter.run planner destination source = after at ran ⊢
  cases ran with
  | refused lengths =>
      rw [fit.kernel, fit.fixed, checkLengths_ok_iff.mpr (by simp [target, long])] at lengths
      cases lengths
  | first _ failed => cases (fit.first reliable kept long).1.symm.trans failed
  | last => exact (fit.last reliable kept target long).1

theorem Fit.run (destination source : Array C) :
    (filter.run planner destination source).filter.Fit planner response length := by
  have built := fit.toBuilt.run destination source
  have ran := filter.ran_run planner destination source
  generalize filter.run planner destination source = after at ran built ⊢
  cases ran with
  | refused => exact fit
  | first lengths failed =>
      obtain ⟨_, long⟩ := fit.sizes lengths
      cases (fit.first reliable kept long).1.symm.trans failed
  | last lengths =>
      obtain ⟨target, long⟩ := fit.sizes lengths
      exact { built with spectrum := (fit.last reliable kept target long).2 }

end Reliable

inductive Serves (planner : Planner C π) (response : Array C) : Filter C π → Prop where
  | fresh {destination source : Buffer C} {filter : Filter C π}
      (prepared : prepare planner destination source response = .ok filter) :
      Serves planner response filter
  | run {filter : Filter C π} (earlier : Serves planner response filter)
      (destination source : Array C) :
      Serves planner response (filter.run planner destination source).filter

theorem Serves.built (serves : Serves planner response filter) :
    filter.Built planner response response.size := by
  induction serves with
  | fresh prepared => exact (fit_prepare prepared).toBuilt
  | run earlier destination source built => exact built.run destination source

theorem Serves.fit (serves : Serves planner response filter) (reliable : planner.Reliable)
    (kept : planner.KeepsBins) : filter.Fit planner response response.size := by
  induction serves with
  | fresh prepared => exact fit_prepare prepared
  | run earlier destination source fit => exact fit.run reliable kept destination source

theorem runBuffers_ok {destination source : Buffer C} {left : Filtered C π}
    (ran : filter.runBuffers planner destination source = .ok left) :
    ∃ target samples, destination = .complex target ∧ source = .complex samples ∧
      left = filter.run planner target samples := by
  obtain ⟨target, first, rest⟩ := Outcome.of_bind ran
  obtain ⟨samples, second, rest⟩ := Outcome.of_bind rest
  cases rest
  cases destination with
  | complex _ =>
      cases source with
      | complex _ =>
          cases first
          cases second
          exact ⟨_, _, rfl, rfl, rfl⟩
      | _ => cases second
  | _ => cases first

theorem Serves.succeeds (serves : Serves planner response filter) (reliable : planner.Reliable)
    (kept : planner.KeepsBins) {destination source : Buffer C} (shapes : ∀ buffer ∈
      [destination, source], buffer.format = .complex ∧ buffer.size = response.size) :
    ∃ left, filter.runBuffers planner destination source = .ok left ∧ left.result = .ok () := by
  obtain ⟨⟨format, target⟩, ⟨other, long⟩⟩ := by simpa using shapes
  cases destination with
  | complex =>
      cases source with
      | complex => exact ⟨_, rfl, (serves.fit reliable kept).succeeds reliable kept target long⟩
      | _ => cases other
  | _ => cases format

/-- A filter and a convolver with its impulse response write the same of one source, whatever
either has run before. -/
def Matches (planner : Planner C π) (response impulse : Array C) : Prop :=
  ∀ filter, Serves planner response filter →
    ∀ convolver, Convolver.Serves planner .convolution impulse.size convolver →
      ∀ destination spare source filtered convolved,
        filter.runBuffers planner destination source = .ok filtered → filtered.result = .ok () →
        convolver.runBuffers planner spare source (.complex impulse) = .ok convolved →
        convolved.result = .ok () → filtered.destination = convolved.destination

/-- The transform of an impulse response stands in for it. This takes no more than transforms that
compute one function of what they read. Transforms that can be relied on make such a filter, and
every run of it and of the convolver succeeds on blocks of the length of the response. -/
theorem runs_as_convolver {kernel : Kernel C} (evaluates : planner.Evaluates kernel)
    (impulse spectrum : Array C) :
    (∀ time response, planner.transform (.complex impulse) spectrum .forward =
        ⟨.ok (), time, response⟩ → Matches planner response impulse) ∧
      (planner.Reliable → planner.KeepsBins → 0 < impulse.size → spectrum.size = impulse.size →
        ∃ time response, planner.transform (.complex impulse) spectrum .forward =
            ⟨.ok (), time, response⟩ ∧
          ∀ destination source : Buffer C,
            (∀ buffer ∈ [destination, source],
              buffer.format = .complex ∧ buffer.size = impulse.size) →
            (∃ filter, prepare planner destination source response = .ok filter) ∧
            (∃ convolver, Convolver.prepare planner .convolution destination source
              (.complex impulse) = .ok convolver) ∧
            (∀ filter, Serves planner response filter → ∃ filtered,
              filter.runBuffers planner destination source = .ok filtered ∧
                filtered.result = .ok ()) ∧
            ∀ convolver, Convolver.Serves planner .convolution impulse.size convolver →
              ∃ convolved, convolver.runBuffers planner destination source (.complex impulse) =
                .ok convolved ∧ convolved.result = .ok ()) := by
  constructor
  · intro time response transformed filter serves convolver also destination spare source filtered
      convolved ran done alongside succeeded
    obtain ⟨target, samples, rfl, rfl, rfl⟩ := runBuffers_ok ran
    obtain ⟨_, _, _, rfl, ⟨⟩, ⟨⟩, rfl⟩ := Convolver.runBuffers_ok alongside
    obtain ⟨plan, ready, applied, bins⟩ := planner.transform_ok (by rw [transformed])
    obtain ⟨_, whole, _, written⟩ := also.built.block evaluates succeeded
    obtain ⟨long, filtered⟩ := serves.built.block evaluates done
    have left : response = (planner.apply plan impulse spectrum).frequency := by
      rw [← bins, transformed]
    rw [written]
    refine filtered ?_
    rw [← long, whole, left]
    exact evaluates.forward ready applied
  · intro reliable kept room same
    obtain ⟨done, size⟩ := reliable.transform kept .forward room same
    generalize planner.transform (.complex impulse) spectrum .forward = made at done size ⊢
    obtain ⟨_, time, response⟩ := made
    refine ⟨time, response, by rw [← done], fun destination source shapes => ?_⟩
    have operands (buffer : Buffer C)
        (member : buffer ∈ [destination, source, .complex impulse]) :
        buffer.format = .complex ∧ buffer.size = impulse.size := by
      rw [List.mem_cons, List.mem_cons, List.mem_singleton, ← or_assoc] at member
      rcases member with member | rfl
      · exact shapes buffer (by simpa using member)
      · exact ⟨rfl, rfl⟩
    exact ⟨exists_fit reliable (size ▸ room) (size ▸ shapes),
      Convolver.exists_fit reliable .convolution room operands,
      fun filter serves => serves.succeeds reliable kept (size ▸ shapes),
      fun convolver serves => serves.succeeds reliable kept operands⟩

def taps : Array Complex32 := #[⟨1, 0⟩, ⟨0, 2⟩, ⟨3, 0⟩]

def tones : Array Complex32 := #[⟨4, 0⟩, ⟨5, 0⟩, ⟨0, 6⟩]

theorem runs_as_convolver_fourier : ∃ response filter convolver filtered convolved,
    (Planner.fourier.transform (.complex taps) #[0, 0, 0] .forward).frequency = response ∧
    prepare .fourier (.complex #[0, 0, 0]) (.complex tones) response = .ok filter ∧
    Convolver.prepare .fourier .convolution (.complex #[0, 0, 0]) (.complex tones)
      (.complex taps) = .ok convolver ∧
    (filter.run .fourier #[] #[]).filter.runBuffers .fourier (.complex #[0, 0, 0])
      (.complex tones) = .ok filtered ∧
    convolver.runBuffers .fourier (.complex #[0, 0, 0]) (.complex tones) (.complex taps) =
      .ok convolved ∧
    filtered.result = .ok () ∧ filtered.destination = convolved.destination := by
  have evaluates : Planner.fourier.Evaluates fourier := Planner.evaluates_ofKernel size_fourier
  have kept : Planner.fourier.KeepsBins := Planner.keepsBins_ofKernel size_fourier
  obtain ⟨agree, runs⟩ := runs_as_convolver evaluates taps #[0, 0, 0]
  obtain ⟨time, response, made, serves⟩ :=
    runs (Planner.reliable_ofKernel fourier) kept (by decide) rfl
  obtain ⟨⟨filter, first⟩, ⟨convolver, second⟩, filters, convolves⟩ :=
    serves (.complex #[0, 0, 0]) (.complex tones) (by simp [Buffer.format, Buffer.size, taps, tones])
  have reused : Serves .fourier response (filter.run .fourier #[] #[]).filter :=
    .run (.fresh first) _ _
  have fresh : Convolver.Serves .fourier .convolution taps.size convolver := .fresh second rfl
  obtain ⟨filtered, ran, done⟩ := filters _ reused
  obtain ⟨convolved, alongside, also⟩ := convolves _ fresh
  exact ⟨response, filter, convolver, filtered, convolved, by rw [made], first, second, ran,
    alongside, done, agree time response made _ reused _ fresh _ _ _ _ _ ran done alongside also⟩

end Filter

end Wideband
