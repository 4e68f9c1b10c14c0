import Wideband.Array.Tiled
import Wideband.Proofs.Array.Calls
import Wideband.Proofs.Source.Playing
import Wideband.Proofs.Spectrum.Ordered
import Wideband.Transform.Fourier

namespace Wideband

/-!
Setting the rate and the centre of a tiled array. The rates of the receivers, their frequencies and
the remembered centre change one after the other, and a call may fail at any receiver, with the ones
before it changed already. Whatever such calls have left behind, the next one that succeeds puts
every receiver in its place (`TiledArray.settings_agree`).
-/

variable {τ ρ C π F : Type}

namespace Receiver

variable [Receiver τ ρ F]

/-- Receivers that keep what they are set to. Of a call that fails nothing is known. -/
structure Obeys (tuned : τ → Option F) : Prop where
  setRate {receiver next : τ} {rate : Nat}
    (done : Receiver.setRate receiver rate = (.ok (), next)) : Receiver.rate next = .ok rate
  tune {receiver next : τ} {frequency : F}
    (done : Receiver.tune receiver frequency = (.ok (), next)) :
    tuned next = some frequency ∧ Receiver.rate next = Receiver.rate receiver

omit [Receiver τ ρ F] in
theorem each_ok {act : τ → Except Error Unit × τ} {receivers next : List τ}
    (done : each act receivers = (.ok (), next)) :
    (∀ receiver ∈ receivers, (act receiver).1 = .ok ()) ∧
      next = receivers.map fun receiver => (act receiver).2 := by
  have passed := each_passed act receivers
  rw [done] at passed
  cases passed with
  | whole _ all => exact ⟨all, rfl⟩

theorem length_tuneEach (receivers : List τ) (frequencies : List F) :
    (tuneEach receivers frequencies).2.length = receivers.length := by
  induction receivers generalizing frequencies with
  | nil => simp [tuneEach]
  | cons receiver rest ih =>
      cases frequencies with
      | nil => simp [tuneEach]
      | cons frequency frequencies =>
          unfold tuneEach
          split
          · rfl
          · rw [List.length_cons, List.length_cons, ih]

namespace Obeys

variable {tuned : τ → Option F} {receivers next : List τ}

theorem each_setRate (obeys : Obeys tuned) {rate : Nat}
    (done : each (fun receiver => Receiver.setRate receiver rate) receivers = (.ok (), next)) :
    ∀ receiver ∈ next, Receiver.rate receiver = .ok rate := by
  obtain ⟨all, rfl⟩ := each_ok done
  refine List.forall_mem_map.mpr fun receiver member => ?_
  exact obeys.setRate (Prod.ext (all receiver member) rfl)

theorem tuneEach (obeys : Obeys tuned) {frequencies : List F}
    (paired : receivers.length = frequencies.length)
    (done : Receiver.tuneEach receivers frequencies = (.ok (), next)) :
    next.map tuned = frequencies.map some ∧
      next.map Receiver.rate = receivers.map Receiver.rate := by
  induction receivers generalizing next frequencies with
  | nil =>
      obtain rfl := List.length_eq_zero_iff.mp paired.symm
      cases done
      exact ⟨rfl, rfl⟩
  | cons receiver rest ih =>
      cases frequencies with
      | nil => cases paired
      | cons frequency frequencies =>
          unfold Receiver.tuneEach at done
          split at done
          · cases done
          · rename_i own first
            cases others : Receiver.tuneEach rest frequencies with
            | mk result last =>
                rw [others] at done
                cases done
                obtain ⟨placed, kept⟩ := ih (by simpa using paired) others
                obtain ⟨here, same⟩ := obeys.tune first
                rw [List.map_cons, List.map_cons, List.map_cons, List.map_cons, placed, kept, here,
                  same]
                exact ⟨rfl, rfl⟩

end Obeys

end Receiver

structure Dial (F : Type) where
  limit : Nat
  rate : Nat
  tuned : Option F

namespace Dial

instance : Receiver (Dial F) Unit F where
  rate dial := .ok dial.rate
  setRate dial rate :=
    if dial.limit < rate then (.error Receiver.noRateControl, dial) else (.ok (), { dial with rate })
  tune dial frequency := (.ok (), { dial with tuned := some frequency })
  start dial := (.ok (), dial)
  switchNoise _ := none

theorem obeys : Receiver.Obeys (tuned : Dial F → Option F) where
  setRate {receiver next rate} done := by
    change (if receiver.limit < rate then (_, receiver) else (_, _)) = _ at done
    split at done
    · cases done
    · cases done
      rfl
  tune done := by
    cases done
    exact ⟨rfl, rfl⟩

end Dial

namespace TiledArray

theorem ofReceivers_ok {planner : Planner C π} {receivers : List τ}
    {array : TiledArray τ ρ C π F} (accepted : ofReceivers planner receivers = .ok array) :
    array = ⟨⟨receivers, planner, .standard, false⟩, none, .standard, []⟩ ∧
      receivers ≠ [] ∧ (receivers.length = 1 ∨ Even receivers.length) := by
  unfold ofReceivers at accepted
  split at accepted
  · cases accepted
  · rename_i even
    unfold LockedArray.ofReceivers at accepted
    by_cases none : receivers = []
    · simp [none] at accepted
    · have some : receivers.isEmpty = false := by simpa using none
      have length := List.length_pos_iff.mpr none
      simp only [some, Bool.false_eq_true, if_false] at accepted
      cases accepted
      refine ⟨rfl, none, ?_⟩
      rw [Nat.even_iff]
      omega

def passed (array : TiledArray τ ρ C π F) (receivers : List τ) : TiledArray τ ρ C π F :=
  { array with locked := { array.locked with receivers } }

variable [Receiver τ ρ F] [Frequency F]

inductive Setting (F : Type) where
  | rate (rate : Nat)
  | center (center : F)

abbrev Calls (F : Type) :=
  List (Setting F × Except Error Unit)

def Setting.held : Setting F → Except Error Unit → Option F
  | .center frequency, .ok () => some frequency
  | _, _ => none

/-- The centre of the last tuning that succeeded. -/
def lastCenter (calls : Calls F) : Option F :=
  calls.findSome? fun call => call.1.held call.2

def set (array : TiledArray τ ρ C π F) : Setting F → Except Error Unit × TiledArray τ ρ C π F
  | .rate rate => array.setRate rate
  | .center center => array.tune center

inductive Operated (planner : Planner C π) (receivers : List τ) :
    Calls F → TiledArray τ ρ C π F → Prop where
  | fresh {array : TiledArray τ ρ C π F} (accepted : ofReceivers planner receivers = .ok array) :
      Operated planner receivers [] array
  | configured {array : TiledArray τ ρ C π F} {calls : Calls F} (lock : Lock.Settings)
      (stitch : Stitch.Settings) (before : Operated planner receivers calls array) :
      Operated planner receivers calls (array.withSettings lock stitch)
  | called {array : TiledArray τ ρ C π F} {calls : Calls F} (setting : Setting F)
      (before : Operated planner receivers calls array) :
      Operated planner receivers ((setting, (array.set setting).1) :: calls) (array.set setting).2

inductive Tuning (array : TiledArray τ ρ C π F) (center : F) :
    Except Error Unit × TiledArray τ ρ C π F → Prop where
  | unshared {cause : Error} (apart : array.locked.rate = .error cause) :
      Tuning array center (.error cause, array)
  | passed {rate : Nat} {result : Except Error Unit} {receivers : List τ}
      (shared : array.locked.rate = .ok rate)
      (each : Receiver.tuneEach array.locked.receivers (tiling center rate array.size) =
        (result, receivers)) :
      Tuning array center (result, { array.passed receivers with
        center := ((Setting.center center).held result).or array.center })

inductive Rating (array : TiledArray τ ρ C π F) (rate : Nat) :
    Except Error Unit × TiledArray τ ρ C π F → Prop where
  | uneven (remainder : ¬array.size ∣ rate) :
      Rating array rate (.error (.misfit (.indivisibleRate rate array.size)), array)
  | stopped {cause : Error} {receivers : List τ}
      (each : Receiver.each (fun receiver => Receiver.setRate receiver (rate / array.size))
        array.locked.receivers = (.error cause, receivers)) :
      Rating array rate (.error cause, array.passed receivers)
  | untuned {receivers : List τ} (divides : array.size ∣ rate)
      (each : Receiver.each (fun receiver => Receiver.setRate receiver (rate / array.size))
        array.locked.receivers = (.ok (), receivers))
      (free : array.center = none) : Rating array rate (.ok (), array.passed receivers)
  | tuned {receivers : List τ} {center : F} (divides : array.size ∣ rate)
      (each : Receiver.each (fun receiver => Receiver.setRate receiver (rate / array.size))
        array.locked.receivers = (.ok (), receivers))
      (remembered : array.center = some center) :
      Rating array rate ((array.passed receivers).tune center)

variable {array next : TiledArray τ ρ C π F} {receivers : List τ} {rate : Nat} {center : F}
  {planner : Planner C π} {calls : Calls F}

theorem tune_ways (array : TiledArray τ ρ C π F) (center : F) :
    Tuning array center (array.tune center) := by
  cases shared : array.locked.rate with
  | error cause =>
      rw [tune, shared]
      exact .unshared shared
  | ok rate =>
      cases each : Receiver.tuneEach array.locked.receivers (tiling center rate array.size) with
      | mk result receivers =>
          have went : array.tune center = (result, { array.passed receivers with
              center := ((Setting.center center).held result).or array.center }) := by
            simp only [tune, shared, each]
            cases result <;> rfl
          rw [went]
          exact .passed shared each

theorem setRate_ways (array : TiledArray τ ρ C π F) (rate : Nat) :
    Rating array rate (array.setRate rate) := by
  by_cases remainder : rate % array.size ≠ 0
  · rw [setRate, if_pos remainder]
    exact .uneven (mt Nat.mod_eq_zero_of_dvd remainder)
  · have divides : array.size ∣ rate := Nat.dvd_of_mod_eq_zero (not_not.mp remainder)
    cases each : Receiver.each (fun receiver => Receiver.setRate receiver (rate / array.size))
      array.locked.receivers with
    | mk result receivers =>
        cases result with
        | error cause =>
            simp only [setRate, if_neg remainder, each]
            exact .stopped each
        | ok _ =>
            simp only [setRate, if_neg remainder, each]
            split
            · rename_i free
              exact .untuned divides each free
            · rename_i center remembered
              exact .tuned divides each remembered

theorem tune_keeps (array : TiledArray τ ρ C π F) (center : F) :
    (array.tune center).2.size = array.size ∧ (array.tune center).2.center =
      ((Setting.center center).held (array.tune center).1).or array.center := by
  have way := array.tune_ways center
  generalize array.tune center = gone at way ⊢
  cases way with
  | unshared apart => exact ⟨rfl, rfl⟩
  | @passed rate result receivers shared each =>
      have number := Receiver.length_tuneEach array.locked.receivers (tiling center rate array.size)
      rw [each] at number
      exact ⟨number, rfl⟩

theorem setRate_keeps (array : TiledArray τ ρ C π F) (rate : Nat) :
    (array.setRate rate).2.size = array.size ∧ (array.setRate rate).2.center = array.center := by
  have number := Receiver.length_each
    (fun receiver => Receiver.setRate receiver (rate / array.size)) array.locked.receivers
  have way := array.setRate_ways rate
  generalize array.setRate rate = gone at way ⊢
  cases way with
  | uneven remainder => exact ⟨rfl, rfl⟩
  | stopped each =>
      rw [each] at number
      exact ⟨number, rfl⟩
  | untuned divides each free =>
      rw [each] at number
      exact ⟨number, rfl⟩
  | @tuned receivers center divides each remembered =>
      rw [each] at number
      obtain ⟨same, kept⟩ := (array.passed receivers).tune_keeps center
      refine ⟨same.trans number, kept.trans ?_⟩
      -- The centre that the tuning holds, if any, is the remembered one.
      change (Setting.held _ _).or array.center = array.center
      rw [remembered]
      cases ((array.passed receivers).tune center).1 <;> rfl

theorem set_keeps (array : TiledArray τ ρ C π F) (setting : Setting F) :
    (array.set setting).2.size = array.size ∧ (array.set setting).2.center =
      (setting.held (array.set setting).1).or array.center := by
  cases setting with
  | rate rate => exact array.setRate_keeps rate
  | center center => exact array.tune_keeps center

theorem Operated.present (operated : Operated planner receivers calls array) :
    0 < array.size := by
  induction operated with
  | fresh accepted =>
      obtain ⟨rfl, some, _⟩ := ofReceivers_ok accepted
      exact List.length_pos_iff.mpr some
  | configured lock stitch before ih => exact ih
  | @called array calls setting before ih => rwa [(array.set_keeps setting).1]

theorem Operated.remembers (operated : Operated planner receivers calls array) :
    array.size = receivers.length ∧ array.center = lastCenter calls := by
  induction operated with
  | fresh accepted =>
      obtain ⟨rfl, _⟩ := ofReceivers_ok accepted
      exact ⟨rfl, rfl⟩
  | configured lock stitch before ih => exact ih
  | @called array calls setting before ih =>
      obtain ⟨same, kept⟩ := array.set_keeps setting
      refine ⟨same.trans ih.1, kept.trans ?_⟩
      rw [ih.2, lastCenter, lastCenter, List.findSome?_cons]
      cases setting.held (array.set setting).1 <;> rfl

variable {tuned : τ → Option F}

omit [Frequency F] in
theorem rate_same (present : 0 < array.size)
    (same : ∀ receiver ∈ array.locked.receivers, Receiver.rate receiver = .ok rate) :
    array.locked.rate = .ok rate := by
  refine sharedRate_same ?_ (List.forall_mem_map.mpr same)
  exact mt List.map_eq_nil_iff.mp (List.length_pos_iff.mp present)

theorem tune_ok (obeys : Receiver.Obeys tuned) (done : array.tune center = (.ok (), next)) :
    ∃ rate, array.locked.rate = .ok rate ∧
      next.locked.receivers.map Receiver.rate = array.locked.receivers.map Receiver.rate ∧
      next.locked.receivers.map tuned = (tiling center rate array.size).map some := by
  have way := array.tune_ways center
  rw [done] at way
  cases way with
  | @passed rate _ receivers shared each =>
      have paired : array.locked.receivers.length = (tiling center rate array.size).length := by
        simp [tiling, size]
      obtain ⟨placed, kept⟩ := obeys.tuneEach paired each
      exact ⟨rate, shared, kept, placed⟩

theorem setRate_ok (obeys : Receiver.Obeys tuned) (present : 0 < array.size)
    (done : array.setRate rate = (.ok (), next)) :
    array.size ∣ rate ∧
      (∀ receiver ∈ next.locked.receivers, Receiver.rate receiver = .ok (rate / array.size)) ∧
      ∀ center, array.center = some center → next.locked.receivers.map tuned =
        (tiling center (rate / array.size) array.size).map some := by
  have number := Receiver.length_each
    (fun receiver => Receiver.setRate receiver (rate / array.size)) array.locked.receivers
  have way := array.setRate_ways rate
  generalize gone : array.setRate rate = result at way
  cases way with
  | uneven remainder => cases gone.symm.trans done
  | stopped each => cases gone.symm.trans done
  | untuned divides each free =>
      cases gone.symm.trans done
      refine ⟨divides, obeys.each_setRate each, fun center remembered => ?_⟩
      cases free.symm.trans remembered
  | @tuned receivers center divides each remembered =>
      rw [each] at number
      have sized : (array.passed receivers).size = array.size := number
      have each := obeys.each_setRate each
      -- The new tuning goes by the rate that has just been set everywhere.
      have agreed : (array.passed receivers).locked.rate = .ok (rate / array.size) :=
        rate_same (sized.symm ▸ present) each
      obtain ⟨found, shared, kept, placed⟩ := tune_ok obeys (gone.symm.trans done)
      obtain rfl : rate / array.size = found := Except.ok.inj (agreed.symm.trans shared)
      have answers : ∀ answer ∈ next.locked.receivers.map Receiver.rate,
          answer = .ok (rate / array.size) := by
        rw [kept]
        exact List.forall_mem_map.mpr each
      refine ⟨divides, fun receiver member => answers _ (List.mem_map_of_mem member), ?_⟩
      intro other same
      obtain rfl : center = other := Option.some.inj (remembered.symm.trans same)
      rw [placed, sized]

/-- After any calls, however they went, the rate, the frequencies and the remembered centre of a
tiled array agree again as soon as a call succeeds. -/
theorem settings_agree (obeys : Receiver.Obeys tuned)
    (operated : Operated planner receivers calls array) :
    (∀ rate next, rate ≤ Stitch.highestRate → array.setRate rate = (.ok (), next) →
        (∀ receiver ∈ next.locked.receivers,
          Receiver.rate receiver = .ok (rate / receivers.length)) ∧
        next.rate = .ok rate ∧
        ∀ center, lastCenter calls = some center → next.locked.receivers.map tuned =
          (tiling center (rate / receivers.length) receivers.length).map some) ∧
      (∀ center next, array.tune center = (.ok (), next) →
        ∃ rate, array.locked.rate = .ok rate ∧ next.locked.rate = .ok rate ∧
          next.locked.receivers.map tuned = (tiling center rate receivers.length).map some) ∧
      (∀ center cause next, array.tune center = (.error cause, next) →
        next.center = array.center) ∧
      (∀ rate, ¬receivers.length ∣ rate → array.setRate rate =
        (.error (.misfit (.indivisibleRate rate receivers.length)), array)) ∧
      array.center = lastCenter calls := by
  obtain ⟨size, remembered⟩ := operated.remembers
  have present := operated.present
  rw [← size, ← remembered]
  refine ⟨?_, ?_, ?_, ?_, rfl⟩
  · intro rate next within done
    obtain ⟨divides, each, placed⟩ := setRate_ok obeys present done
    refine ⟨each, ?_, placed⟩
    have kept : next.size = array.size := by
      have kept := (array.setRate_keeps rate).1
      rwa [done] at kept
    have whole : rate / array.size * next.size = rate := by
      rw [kept, Nat.div_mul_cancel divides]
    rw [TiledArray.rate, rate_same (kept.symm ▸ present) each]
    simp only [whole]
    rw [if_neg (not_lt.mpr within)]
  · intro center next done
    obtain ⟨rate, shared, kept, placed⟩ := tune_ok obeys done
    refine ⟨rate, shared, ?_, placed⟩
    rw [← shared]
    exact congrArg sharedRate kept
  · intro center cause next failed
    have kept := (array.tune_keeps center).2
    rw [failed] at kept
    exact kept
  · intro rate uneven
    rw [setRate, if_pos (mt Nat.dvd_of_mod_eq_zero uneven)]

attribute [local instance] Frequency.ordered

theorem settings_agree_refused :
    ∃ (array next : TiledArray (Dial ℚ) Unit Complex32 Plan ℚ) (refusal mismatch : Error),
      Operated .fourier [⟨100, 8, none⟩, ⟨50, 8, none⟩]
          [(.center 200, .error mismatch), (.rate 160, .error refusal), (.center 100, .ok ())]
          array ∧
        60 ≤ Stitch.highestRate ∧ array.setRate 60 = (.ok (), next) ∧ next.rate = .ok 60 ∧
        next.locked.receivers.map Dial.tuned = [some 115, some 85] := by
  have fresh : Operated .fourier [⟨100, 8, none⟩, ⟨50, 8, none⟩] []
      (⟨⟨[⟨100, 8, none⟩, ⟨50, 8, none⟩], .fourier, .standard, false⟩, none, .standard, []⟩ :
        TiledArray (Dial ℚ) Unit Complex32 Plan ℚ) := .fresh rfl
  have operated := ((fresh.called (.center 100)).called (.rate 160)).called (.center 200)
  obtain ⟨rates, _⟩ := settings_agree Dial.obeys operated
  obtain ⟨_, rate, placed⟩ := rates 60 _ (by decide) rfl
  refine ⟨_, _, _, _, operated, by decide, rfl, rate, ?_⟩
  rw [placed 100 rfl]
  decide +kernel

end TiledArray

end Wideband
