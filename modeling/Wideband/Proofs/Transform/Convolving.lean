import Wideband.Proofs.Outcome
import Wideband.Proofs.Transform.Planners
import Wideband.Transform.Convolver

namespace Wideband

/-!
What a convolver writes, whatever its transforms are. A run goes through three transforms and ends at
the first one that fails (`Convolver.Ran`). One that succeeds writes what the two operands alone
decide (`Combination.block`), however often the convolver was run before and however those runs ended
(`Convolver.Built.block`).
-/

namespace Combination

variable {C R : Type} [Component R] [Sample C R]

/-- Two blocks combined through their transforms, of which the kernel says what they are. -/
def block (combination : Combination) (kernel : Kernel C) (a b : Array C) : Array C :=
  kernel .backward (Array.zipWith (combination.bin (Component.reciprocal a.size))
    (kernel .forward a) (kernel .forward b))

end Combination

namespace Buffer

variable {C : Type} {first : Buffer C} {others : List (Buffer C)} {length : ℕ}

theorem sharedLength_eq_ok_iff : first.sharedLength others = .ok length ↔
    ∀ buffer ∈ first :: others, buffer.format = .complex ∧ buffer.size = length := by
  rw [List.forall_mem_cons]
  by_cases sizes : others.all fun other => other.size == first.size
  · rw [sharedLength, if_pos sizes]
    rw [List.all_eq_true] at sizes
    cases found : others.find? fun other => other.format != first.format with
    | some other =>
        have member := List.mem_of_find?_eq_some found
        have differs := List.find?_some found
        simp only [reduceCtorEq, false_iff]
        rintro ⟨⟨complex, _⟩, rest⟩
        simp [complex, rest other member] at differs
    | none =>
        have same := List.find?_eq_none.mp found
        cases format : first.format with
        | complex => simp_all
        | _ => simp
  · rw [sharedLength, if_neg sizes]
    simp only [reduceCtorEq, false_iff]
    rintro ⟨⟨_, rfl⟩, rest⟩
    exact sizes (List.all_eq_true.mpr fun other member => by simp [rest other member])

end Buffer

theorem Planner.Reliable.exists_plan {C π : Type} [Zero C] {planner : Planner C π}
    (reliable : planner.Reliable) {length : ℕ} (room : 0 < length) {buffer : Buffer C}
    (shape : buffer.format = .complex ∧ buffer.size = length) (direction : Direction) :
    ∃ plan, planner.prepare buffer (Array.replicate length 0) direction = .ok plan := by
  obtain ⟨format, rfl⟩ := shape
  cases buffer with
  | complex samples => exact reliable.prepares direction room Array.size_replicate.ge
  | _ => cases format

theorem checkLengths_ok_iff {length : ℕ} {sizes : List ℕ} :
    checkLengths length sizes = .ok () ↔ ∀ size ∈ sizes, size = length := by
  unfold checkLengths
  split
  · rename_i same
    simpa using same
  · rename_i other
    simpa using other

namespace Convolver

variable {C R π : Type} {planner : Planner C π} {combination : Combination} {length : ℕ}

/-- A convolver with transforms for blocks of one length. What its spectra hold is left open. -/
structure Built (planner : Planner C π) (combination : Combination) (length : ℕ)
    (convolver : Convolver C π) : Prop where
  kind : convolver.combination = combination
  fixed : convolver.length = length
  forwardA : planner.Prepared .forward length convolver.forwardA
  forwardB : planner.Prepared .forward length convolver.forwardB
  backward : planner.Prepared .backward length convolver.backward

structure Fit (planner : Planner C π) (combination : Combination) (length : ℕ)
    (convolver : Convolver C π) : Prop extends Built planner combination length convolver where
  spectrumA : convolver.spectrumA.size = length
  spectrumB : convolver.spectrumB.size = length

theorem fit_prepare [Zero C] {destination a b : Buffer C} {convolver : Convolver C π}
    (prepared : prepare planner combination destination a b = .ok convolver) :
    convolver.Fit planner combination destination.size := by
  obtain ⟨length, shared, rest⟩ := Outcome.of_bind prepared
  obtain ⟨forwardA, first, rest⟩ := Outcome.of_bind rest
  obtain ⟨forwardB, second, rest⟩ := Outcome.of_bind rest
  obtain ⟨backward, last, rest⟩ := Outcome.of_bind rest
  cases rest
  have sizes := Buffer.sharedLength_eq_ok_iff.mp shared
  obtain rfl : destination.size = length := (sizes destination (by simp)).2
  exact {
    kind := rfl
    fixed := rfl
    forwardA := .prepare (sizes a (by simp)).2 first
    forwardB := .prepare (sizes b (by simp)).2 second
    backward := .prepare rfl last
    spectrumA := Array.size_replicate
    spectrumB := Array.size_replicate }

theorem exists_fit [Zero C] (reliable : planner.Reliable) (combination : Combination)
    {destination a b : Buffer C} (room : 0 < length)
    (shapes : ∀ buffer ∈ [destination, a, b], buffer.format = .complex ∧ buffer.size = length) :
    ∃ convolver, prepare planner combination destination a b = .ok convolver := by
  have shared := Buffer.sharedLength_eq_ok_iff.mpr shapes
  have plan (buffer : Buffer C) (member : buffer ∈ [destination, a, b]) (direction : Direction) :
      ∃ plan, planner.prepare buffer (Array.replicate length 0) direction = .ok plan :=
    reliable.exists_plan room (shapes buffer member) direction
  obtain ⟨forwardA, first⟩ := plan a (by simp) .forward
  obtain ⟨forwardB, second⟩ := plan b (by simp) .forward
  obtain ⟨backward, last⟩ := plan destination (by simp) .backward
  exact ⟨_, by simp only [prepare, shared, bind, Except.bind, first, second, last]; rfl⟩

variable [Component R] [Sample C R]

section Stages

variable (planner) (convolver : Convolver C π) (destination a b : Array C)

def first : Applied π C :=
  planner.apply convolver.forwardA a convolver.spectrumA

def second : Applied π C :=
  planner.apply convolver.forwardB b convolver.spectrumB

def product : Array C :=
  Array.zipWith (convolver.combination.bin (Component.reciprocal convolver.length))
    (convolver.first planner a).frequency (convolver.second planner b).frequency

def last : Applied π C :=
  planner.apply convolver.backward destination (convolver.product planner a b)

def afterFirst : Convolver C π :=
  { convolver with
    forwardA := (convolver.first planner a).plan
    spectrumA := (convolver.first planner a).frequency }

def afterSecond : Convolver C π :=
  { convolver.afterFirst planner a with
    forwardB := (convolver.second planner b).plan
    spectrumB := (convolver.second planner b).frequency }

def afterLast : Convolver C π :=
  { convolver.afterSecond planner a b with
    backward := (convolver.last planner destination a b).plan
    spectrumA := (convolver.last planner destination a b).frequency }

/-- The ways in which a run can go, with what it leaves behind. -/
inductive Ran : Convolved C π → Prop where
  | refused {cause : Error}
      (lengths : checkLengths convolver.length [destination.size, a.size, b.size] =
        .error cause) :
      Ran ⟨.error cause, convolver, destination, a, b⟩
  | first {cause : Error}
      (lengths : checkLengths convolver.length [destination.size, a.size, b.size] = .ok ())
      (failed : (convolver.first planner a).result = .error cause) :
      Ran ⟨.error cause, convolver.afterFirst planner a, destination,
        (convolver.first planner a).time, b⟩
  | second {cause : Error}
      (lengths : checkLengths convolver.length [destination.size, a.size, b.size] = .ok ())
      (done : (convolver.first planner a).result = .ok ())
      (failed : (convolver.second planner b).result = .error cause) :
      Ran ⟨.error cause, convolver.afterSecond planner a b, destination,
        (convolver.first planner a).time, (convolver.second planner b).time⟩
  | last
      (lengths : checkLengths convolver.length [destination.size, a.size, b.size] = .ok ())
      (done : (convolver.first planner a).result = .ok ())
      (also : (convolver.second planner b).result = .ok ()) :
      Ran ⟨(convolver.last planner destination a b).result,
        convolver.afterLast planner destination a b,
        (convolver.last planner destination a b).time,
        (convolver.first planner a).time, (convolver.second planner b).time⟩

theorem ran_run : convolver.Ran planner destination a b (convolver.run planner destination a b) := by
  cases lengths : checkLengths convolver.length [destination.size, a.size, b.size] with
  | error cause =>
      simp only [run, lengths]
      exact .refused lengths
  | ok _ =>
      cases done : (planner.apply convolver.forwardA a convolver.spectrumA).result with
      | error cause =>
          simp only [run, lengths, done]
          exact .first lengths done
      | ok _ =>
          cases also : (planner.apply convolver.forwardB b convolver.spectrumB).result with
          | error cause =>
              simp only [run, lengths, done, also]
              exact .second lengths done also
          | ok _ =>
              simp only [run, lengths, done, also]
              exact .last lengths done also

end Stages

variable {convolver : Convolver C π} {destination a b : Array C}

theorem Built.sizes (built : convolver.Built planner combination length)
    (lengths : checkLengths convolver.length [destination.size, a.size, b.size] = .ok ()) :
    destination.size = length ∧ a.size = length ∧ b.size = length := by
  simpa [built.fixed] using checkLengths_ok_iff.mp lengths

theorem Built.run (built : convolver.Built planner combination length) (destination a b : Array C) :
    (convolver.run planner destination a b).convolver.Built planner combination length := by
  have ran := convolver.ran_run planner destination a b
  generalize convolver.run planner destination a b = left at ran ⊢
  obtain ⟨kind, fixed, forwardA, forwardB, backward⟩ := built
  cases ran with
  | refused => exact ⟨kind, fixed, forwardA, forwardB, backward⟩
  | first => exact ⟨kind, fixed, .apply forwardA .., forwardB, backward⟩
  | second => exact ⟨kind, fixed, .apply forwardA .., .apply forwardB .., backward⟩
  | last => exact ⟨kind, fixed, .apply forwardA .., .apply forwardB .., .apply backward ..⟩

theorem Built.close {C : Type} {planner : Planner C π} {convolver : Convolver C π}
    (built : convolver.Built planner combination length) (reliable : planner.Reliable) :
    (convolver.close planner).1 = .ok () := by
  simp only [Convolver.close, reliable.closes built.forwardA, reliable.closes built.forwardB,
    reliable.closes built.backward]
  rfl

/-- What a run that succeeds writes depends on its operands only. -/
theorem Built.block {kernel : Kernel C} (built : convolver.Built planner combination length)
    (evaluates : planner.Evaluates kernel)
    (done : (convolver.run planner destination a b).result = .ok ()) :
    destination.size = length ∧ a.size = length ∧ b.size = length ∧
      (convolver.run planner destination a b).destination = combination.block kernel a b := by
  have ran := convolver.ran_run planner destination a b
  generalize convolver.run planner destination a b = left at ran done ⊢
  cases ran with
  | refused => cases done
  | first => cases done
  | second => cases done
  | last lengths first second =>
      obtain ⟨target, left, right⟩ := built.sizes lengths
      refine ⟨target, left, right, ?_⟩
      have spectrumA := evaluates.forward built.forwardA first
      have spectrumB := evaluates.forward built.forwardB second
      rw [Combination.block, left, ← spectrumA, ← spectrumB, ← Array.take_zipWith, ← built.kind,
        ← built.fixed]
      exact (evaluates.backward (built.fixed ▸ built.backward) done)

theorem Built.run_ok {kernel : Kernel C} (built : convolver.Built planner combination length)
    (evaluates : planner.Evaluates kernel) (reads : planner.KeepsTime)
    (done : (convolver.run planner destination a b).result = .ok ()) :
    convolver.run planner destination a b =
      ⟨.ok (), (convolver.run planner destination a b).convolver, combination.block kernel a b,
        a, b⟩ := by
  obtain ⟨_, _, _, written⟩ := built.block evaluates done
  have ran := convolver.ran_run planner destination a b
  generalize convolver.run planner destination a b = left at ran done written ⊢
  cases ran with
  | refused => cases done
  | first => cases done
  | second => cases done
  | last _ first second =>
      have operandA : (convolver.first planner a).time = a := reads a _ built.forwardA first
      have operandB : (convolver.second planner b).time = b := reads b _ built.forwardB second
      rw [operandA, operandB, ← written, ← done]

section Reliable

variable (fit : convolver.Fit planner combination length) (reliable : planner.Reliable)
  (kept : planner.KeepsBins)

include fit reliable kept

theorem Fit.first (left : a.size = length) : (convolver.first planner a).result = .ok () ∧
    (convolver.first planner a).frequency.size = length := by
  have done : (convolver.first planner a).result = .ok () :=
    reliable.applies fit.forwardA left fit.spectrumA.ge
  exact ⟨done, (kept a _ fit.forwardA done).trans fit.spectrumA⟩

theorem Fit.second (right : b.size = length) : (convolver.second planner b).result = .ok () ∧
    (convolver.second planner b).frequency.size = length := by
  have done : (convolver.second planner b).result = .ok () :=
    reliable.applies fit.forwardB right fit.spectrumB.ge
  exact ⟨done, (kept b _ fit.forwardB done).trans fit.spectrumB⟩

theorem Fit.last (target : destination.size = length) (left : a.size = length)
    (right : b.size = length) : (convolver.last planner destination a b).result = .ok () ∧
      (convolver.last planner destination a b).frequency.size = length := by
  have width : (convolver.product planner a b).size = length := by
    rw [product, Array.size_zipWith, (fit.first reliable kept left).2,
      (fit.second reliable kept right).2, min_self]
  have done : (convolver.last planner destination a b).result = .ok () :=
    reliable.applies fit.backward target width.ge
  exact ⟨done, (kept destination _ fit.backward done).trans width⟩

theorem Fit.succeeds (target : destination.size = length) (left : a.size = length)
    (right : b.size = length) : (convolver.run planner destination a b).result = .ok () := by
  have ran := convolver.ran_run planner destination a b
  generalize convolver.run planner destination a b = after at ran ⊢
  cases ran with
  | refused lengths =>
      rw [fit.fixed, checkLengths_ok_iff.mpr (by simp [target, left, right])] at lengths
      cases lengths
  | first _ failed => cases (fit.first reliable kept left).1.symm.trans failed
  | second _ _ failed => cases (fit.second reliable kept right).1.symm.trans failed
  | last => exact (fit.last reliable kept target left right).1

theorem Fit.run (destination a b : Array C) :
    (convolver.run planner destination a b).convolver.Fit planner combination length := by
  have built := fit.toBuilt.run destination a b
  have ran := convolver.ran_run planner destination a b
  generalize convolver.run planner destination a b = after at ran built ⊢
  cases ran with
  | refused => exact fit
  | first lengths failed =>
      obtain ⟨_, left, _⟩ := fit.sizes lengths
      cases (fit.first reliable kept left).1.symm.trans failed
  | second lengths _ failed =>
      obtain ⟨_, _, right⟩ := fit.sizes lengths
      cases (fit.second reliable kept right).1.symm.trans failed
  | last lengths =>
      obtain ⟨target, left, right⟩ := fit.sizes lengths
      exact { built with
        spectrumA := (fit.last reliable kept target left right).2
        spectrumB := (fit.second reliable kept right).2 }

end Reliable

inductive Serves (planner : Planner C π) (combination : Combination) (length : ℕ) :
    Convolver C π → Prop where
  | fresh {destination a b : Buffer C} {convolver : Convolver C π}
      (prepared : prepare planner combination destination a b = .ok convolver)
      (fits : destination.size = length) : Serves planner combination length convolver
  | run {convolver : Convolver C π} (earlier : Serves planner combination length convolver)
      (destination a b : Array C) :
      Serves planner combination length (convolver.run planner destination a b).convolver

theorem Serves.built (serves : Serves planner combination length convolver) :
    convolver.Built planner combination length := by
  induction serves with
  | fresh prepared fits => exact fits ▸ (fit_prepare prepared).toBuilt
  | run earlier destination a b built => exact built.run destination a b

theorem Serves.fit (serves : Serves planner combination length convolver)
    (reliable : planner.Reliable) (kept : planner.KeepsBins) :
    convolver.Fit planner combination length := by
  induction serves with
  | fresh prepared fits => exact fits ▸ fit_prepare prepared
  | run earlier destination a b fit => exact fit.run reliable kept destination a b

theorem runBuffers_cases (planner : Planner C π) (convolver : Convolver C π)
    (destination a b : Buffer C) :
    (∃ target left right, destination = .complex target ∧ a = .complex left ∧
      b = .complex right ∧ convolver.runBuffers planner destination a b =
        .ok (convolver.run planner target left right)) ∨
      (¬∀ buffer ∈ [destination, a, b], buffer.format = .complex) ∧
        ∃ cause, convolver.runBuffers planner destination a b = .error cause := by
  cases destination with
  | complex target =>
      cases a with
      | complex left =>
          cases b with
          | complex right => exact .inl ⟨target, left, right, rfl, rfl, rfl, rfl⟩
          | _ => exact .inr ⟨by simp [Buffer.format], _, rfl⟩
      | _ => exact .inr ⟨by simp [Buffer.format], _, rfl⟩
  | _ => exact .inr ⟨by simp [Buffer.format], _, rfl⟩

theorem runBuffers_ok {destination a b : Buffer C} {left : Convolved C π}
    (ran : convolver.runBuffers planner destination a b = .ok left) :
    ∃ target x y, destination = .complex target ∧ a = .complex x ∧ b = .complex y ∧
      left = convolver.run planner target x y := by
  rcases convolver.runBuffers_cases planner destination a b with
    ⟨target, x, y, rfl, rfl, rfl, same⟩ | ⟨_, _, refused⟩
  · cases same.symm.trans ran
    exact ⟨target, x, y, rfl, rfl, rfl, rfl⟩
  · cases refused.symm.trans ran

theorem Serves.succeeds (serves : Serves planner combination length convolver)
    (reliable : planner.Reliable) (kept : planner.KeepsBins) {destination a b : Buffer C}
    (shapes : ∀ buffer ∈ [destination, a, b], buffer.format = .complex ∧ buffer.size = length) :
    ∃ left, convolver.runBuffers planner destination a b = .ok left ∧ left.result = .ok () := by
  rcases convolver.runBuffers_cases planner destination a b with
    ⟨target, left, right, rfl, rfl, rfl, ran⟩ | ⟨native, _⟩
  · obtain ⟨⟨_, whole⟩, ⟨_, first⟩, ⟨_, second⟩⟩ := by simpa using shapes
    exact ⟨_, ran, (serves.fit reliable kept).succeeds reliable kept whole first second⟩
  · exact absurd (fun buffer member => (shapes buffer member).1) native

end Convolver

section Once

variable {C R π : Type} [Component R] [Sample C R] {planner : Planner C π}
  {destination a b : Buffer C}

theorem Buffer.convolve_ok (done : (destination.convolve planner a b).result = .ok ()) :
    ∃ convolver target left right, destination = .complex target ∧ a = .complex left ∧
      b = .complex right ∧ Convolver.Serves planner .convolution target.size convolver ∧
      (convolver.run planner target left right).result = .ok () ∧
      destination.convolve planner a b =
        ⟨.ok (), .complex (convolver.run planner target left right).destination,
          .complex (convolver.run planner target left right).a,
          .complex (convolver.run planner target left right).b⟩ := by
  cases prepared : Convolver.prepare planner .convolution destination a b with
  | error cause => simp [convolve, prepared] at done
  | ok convolver =>
      rcases convolver.runBuffers_cases planner destination a b with
        ⟨target, left, right, rfl, rfl, rfl, ran⟩ | ⟨_, cause, refused⟩
      · simp only [convolve, prepared, ran] at done ⊢
        cases closed : ((convolver.run planner target left right).convolver.close planner).1 with
        | error cause => simp [closed] at done
        | ok _ =>
            simp only [closed] at done ⊢
            exact ⟨convolver, target, left, right, rfl, rfl, rfl, .fresh prepared rfl, done,
              by rw [done]⟩
      · simp only [convolve, prepared, refused] at done
        split at done <;> cases done

theorem Buffer.convolve_succeeds (reliable : planner.Reliable) (kept : planner.KeepsBins)
    {length : ℕ} (room : 0 < length)
    (shapes : ∀ buffer ∈ [destination, a, b], buffer.format = .complex ∧ buffer.size = length) :
    (destination.convolve planner a b).result = .ok () := by
  obtain ⟨convolver, prepared⟩ := Convolver.exists_fit reliable .convolution room shapes
  have fit := Convolver.fit_prepare prepared
  rcases convolver.runBuffers_cases planner destination a b with
    ⟨target, left, right, rfl, rfl, rfl, ran⟩ | ⟨native, _⟩
  · obtain ⟨⟨_, whole⟩, ⟨_, first⟩, ⟨_, second⟩⟩ := by simpa using shapes
    simp only [convolve, prepared, ran, (fit.toBuilt.run target left right).close reliable]
    exact fit.succeeds reliable kept rfl (first.trans whole.symm) (second.trans whole.symm)
  · exact absurd (fun buffer member => (shapes buffer member).1) native

end Once

end Wideband
