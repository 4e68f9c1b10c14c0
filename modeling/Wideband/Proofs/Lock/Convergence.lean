import Wideband.Proofs.Lock.Rounds
import Wideband.Proofs.Lock.Standing

namespace Wideband.Lock

open Replay

variable {ρ π ι : Type}

structure Work.Stands (planner : Planner ℂ π) (signal : Array ℂ) (settings : Settings)
    (stream : ι → ℕ → ρ) (standings : List (Standing ι)) (phase : Phase)
    (attempts rejected : ℕ) (work : Work ρ ℂ π) : Prop where
  fit : work.synchronizer.Fit settings standings.length phase
  ready : work.synchronizer.correlator.Ready planner signal.size
  sources : work.sources = standings.map fun standing => stream standing.item standing.place
  books : work.synchronizer.report = ⟨attempts, rejected, standings.map Standing.drained⟩
  live : work.cancelled = false

namespace Work

variable {planner : Planner ℂ π} {signal : Array ℂ} {settings : Settings} {stream : ι → ℕ → ρ}
  {standings : List (Standing ι)} {phase : Phase} {attempts rejected : ℕ} {work : Work ρ ℂ π}

theorem Stands.inPhase
    (stands : work.Stands planner signal settings stream standings phase attempts rejected)
    (next : Phase) :
    (work.inPhase next).Stands planner signal settings stream standings next attempts rejected where
  fit := inPhase_fit stands.fit next
  ready := stands.ready
  sources := stands.sources
  books := stands.books
  live := stands.live

theorem Stands.begun
    (stands : work.Stands planner signal settings stream standings phase attempts rejected) :
    work.begun.Stands planner signal settings stream standings phase (attempts + 1) rejected where
  fit := begun_fit stands.fit
  ready := stands.ready
  sources := stands.sources
  books := by simp only [Work.begun, Work.reporting, stands.books]
  live := stands.live

end Work

variable [Source ρ ℂ]

/-- Streams that all play one signal at one rate, each times a factor of its own, and a planner with
which they can be measured. -/
structure Scene (planner : Planner ℂ π) (signal : Array ℂ) (settings : Settings)
    (stream : ι → ℕ → ρ) (factor : ι → ℂ) : Prop where
  exact : planner.IsFourier
  reliable : planner.Reliable
  distinct : Distinct signal
  long : 2 ≤ signal.size
  length : settings.length = signal.size
  plays : ∀ item, Source.Plays (stream item) (content signal (factor item))
  unit : ∀ item, ‖factor item‖ = 1
  format : ∀ item place, Source.format (stream item place) = .complex
  rate : ∃ rate, ∀ item place, Source.rate (stream item place) = rate

section Measuring

variable {planner : Planner ℂ π} {signal : Array ℂ} {settings : Settings} {stream : ι → ℕ → ρ}
  {factor : ι → ℂ}

def played (signal : Array ℂ) (factor : ι → ℂ) (standings : List (Standing ι)) :
    List (Buffer ℂ) :=
  standings.map fun standing =>
    .complex (Source.stretch (content signal (factor standing.item)) standing.place signal.size)

theorem Scene.room (scene : Scene planner signal settings stream factor) : 0 < signal.size :=
  Nat.lt_of_lt_of_le (by decide) scene.long

theorem Scene.factor_ne_zero (scene : Scene planner signal settings stream factor) (item : ι) :
    factor item ≠ 0 := by
  rw [← norm_ne_zero_iff, scene.unit]
  exact one_ne_zero

theorem Scene.measureLags (scene : Scene planner signal settings stream factor)
    {correlator : Correlator ℂ π} (ready : correlator.Ready planner signal.size)
    (reference : Standing ι) (index : ℕ) (standings : List (Standing ι)) :
    ∃ after : Correlator ℂ π,
      measureLags planner correlator
          (Source.stretch (content signal (factor reference.item)) reference.place signal.size) index
          (played signal factor standings) =
        ⟨.ok (Standing.leads signal.size reference.place standings), after,
          Source.stretch (content signal (factor reference.item)) reference.place signal.size,
          played signal factor standings⟩ ∧
      after.Ready planner signal.size := by
  induction standings generalizing correlator index with
  | nil => exact ⟨correlator, rfl, ready⟩
  | cons standing standings ih =>
      obtain ⟨next, lag, readyNext⟩ := ready.lag scene.exact scene.reliable scene.distinct
        (scene.distinct.loud scene.long) (scene.factor_ne_zero reference.item)
        (scene.factor_ne_zero standing.item) reference.place standing.place index
      obtain ⟨after, rest, readyAfter⟩ := ih readyNext (index + 1)
      refine ⟨after, ?_, readyAfter⟩
      simp only [played, List.map_cons] at rest ⊢
      simp only [Lock.measureLags, Buffer.samples, lag, rest, Except.map]
      rfl

namespace Work

variable {first : Standing ι} {rest standings : List (Standing ι)} {phase : Phase}
  {attempts rejected : ℕ} {work : Work ρ ℂ π}

theorem Stands.gathered (scene : Scene planner signal settings stream factor)
    (stands : work.Stands planner signal settings stream standings phase attempts rejected) :
    work.gathered = ⟨.ok (),
      (standings.map (Standing.read signal.size)).map fun standing =>
        stream standing.item standing.place,
      played signal factor standings, .none⟩ := by
  have sized : ∀ buffer ∈ work.synchronizer.buffers,
      ∃ out : Array ℂ, buffer = .complex out ∧ out.size = signal.size := by
    intro buffer member
    obtain ⟨format, size⟩ := stands.fit.sizes buffer member
    cases buffer with
    | complex out => exact ⟨out, rfl, size.trans scene.length⟩
    | unsigned8 pairs => cases format
    | signed8 pairs => cases format
    | signed16 pairs => cases format
  have filled := Source.fillAll_plays scene.plays .measuring
    (standings.map fun standing => (standing.item, standing.place))
    (by rw [List.length_map, stands.fit.paired]) sized
  rw [List.map_map] at filled
  rw [Work.gathered, stands.sources]
  refine filled.trans ?_
  simp [played, Standing.read, Function.comp_def]

theorem Stands.trial (scene : Scene planner signal settings stream factor)
    (stands : work.Stands planner signal settings stream (first :: rest) phase attempts rejected) :
    ∃ next, work.trial planner =
        (.ok (Standing.leads signal.size first.place (first :: rest)), next) ∧
      next.Stands planner signal settings stream ((first :: rest).map (Standing.read signal.size))
        phase attempts rejected := by
  have gathered := stands.gathered scene
  have buffers : work.fetched.synchronizer.buffers = played signal factor (first :: rest) := by
    simp only [Work.fetched, gathered]
  obtain ⟨correlator, lags, ready⟩ := scene.measureLags stands.ready first 1 rest
  have own : Standing.leads signal.size first.place (first :: rest) =
      0 :: Standing.leads signal.size first.place rest := by
    simp [Standing.leads]
  have measured : work.fetched.correlate planner =
      (.ok (Standing.leads signal.size first.place (first :: rest)),
        { work.fetched with
          synchronizer := { work.fetched.synchronizer with
            correlator := correlator
            buffers := played signal factor (first :: rest) } }) := by
    rw [own]
    simp only [Work.correlate, buffers, played, List.map_cons, Buffer.samples] at lags ⊢
    have same : work.fetched.synchronizer.correlator = work.synchronizer.correlator := rfl
    rw [same, lags]
    rfl
  have trial : work.trial planner = (.ok (Standing.leads signal.size first.place (first :: rest)),
      { work.fetched with
        synchronizer := { work.fetched.synchronizer with
          correlator := correlator
          buffers := played signal factor (first :: rest) } }) := by
    rw [Work.trial_eq, measured, gathered]
    rfl
  refine ⟨_, trial, {
    fit := ⟨stands.fit.fixed, stands.fit.stage, ?_, ?_, ?_⟩
    ready := ready
    sources := ?_
    books := ?_
    live := ?_ }⟩
  · simp [played]
  · intro buffer member
    obtain ⟨standing, _, rfl⟩ := List.mem_map.mp member
    exact ⟨rfl, (Source.size_stretch _ _ _).trans scene.length.symm⟩
  · rw [List.length_map]
    exact stands.fit.columns
  · simp only [Work.fetched, gathered]
  · rw [Standing.map_drained_read]
    exact stands.books
  · simp only [Work.fetched, gathered, stands.live]
    rfl

/-- All trials of a round agree. -/
theorem Stands.measure (scene : Scene planner signal settings stream factor)
    (stands : work.Stands planner signal settings stream (first :: rest) phase attempts rejected)
    (trials : ℕ) {agreed : Option (List ℤ)}
    (before : ∀ offsets ∈ agreed, offsets = Standing.leads signal.size first.place (first :: rest)) :
    ∃ next, work.measure planner trials agreed =
        (.ok (if trials = 0 then agreed
          else some (Standing.leads signal.size first.place (first :: rest))), next) ∧
      next.Stands planner signal settings stream
        ((first :: rest).map (Standing.read (trials * signal.size))) phase attempts rejected := by
  -- Each trial reads from all streams, so the places move on but what is measured of them does not.
  induction trials generalizing first rest work agreed with
  | zero =>
      refine ⟨work, rfl, ?_⟩
      rwa [Nat.zero_mul, Standing.map_read_zero]
  | succ trials ih =>
      obtain ⟨next, trial, later⟩ := stands.trial scene
      have unchanged := Standing.leads_read signal.size first.place signal.size (first :: rest)
      have known : ∀ offsets ∈ some (Standing.leads signal.size first.place (first :: rest)),
          offsets = Standing.leads signal.size (first.read signal.size).place
            ((first :: rest).map (Standing.read signal.size)) := by
        rintro offsets ⟨rfl⟩
        exact unchanged.symm
      obtain ⟨last, measured, stood⟩ := ih later known
      have moved : ((first :: rest).map (Standing.read signal.size)).map
          (Standing.read (trials * signal.size)) =
          (first :: rest).map (Standing.read ((trials + 1) * signal.size)) := by
        rw [Standing.map_read_read, Nat.succ_mul, Nat.add_comm]
      have whole : work.measure planner (trials + 1) agreed =
          next.measure planner trials
            (some (Standing.leads signal.size first.place (first :: rest))) := by
        cases agreed with
        | none => simp [Work.measure, stands.live, trial]
        | some offsets =>
            obtain rfl := before offsets rfl
            simp [Work.measure, stands.live, trial]
      refine ⟨last, ?_, moved ▸ stood⟩
      rw [whole, measured, if_neg (Nat.succ_ne_zero trials), ← unchanged]
      split <;> simp [Standing.leads, Standing.read]

theorem Stands.discard (scene : Scene planner signal settings stream factor)
    {front back : List (Standing ι)} {standing : Standing ι}
    (stands : work.Stands planner signal settings stream (front ++ standing :: back) phase attempts
      rejected) (count : ℕ) :
    ∃ next, work.discard front.length count = (.ok (), next) ∧
      next.Stands planner signal settings stream (front ++ standing.skip count :: back) phase
        attempts rejected := by
  have room : 0 < work.synchronizer.settings.length := by
    rw [stands.fit.fixed, scene.length]
    exact scene.room
  have found : work.sources[front.length]? = some (stream standing.item standing.place) := by
    simp [stands.sources]
  have skipped := (scene.plays standing.item).skip room standing.place count
  have done : work.discard front.length count = (.ok (),
      ({ work with
        sources := work.sources.set front.length (stream standing.item (standing.place + count))
        cancelled := work.cancelled || Signals.none.cancels } : Work ρ ℂ π).reporting
        fun report => { report with drained := report.drained.modify front.length (· + count) }) := by
    simp only [Work.discard, found, skipped]
  have columns := Standing.modify_drained front standing back count
  refine ⟨_, done, {
    fit := ⟨stands.fit.fixed, stands.fit.stage, ?_, stands.fit.sizes, ?_⟩
    ready := stands.ready
    sources := ?_
    books := ?_
    live := ?_ }⟩
  · have paired := stands.fit.paired
    rw [List.length_append, List.length_cons] at paired ⊢
    exact paired
  · simp [Work.reporting, stands.books]
  · simp [Work.reporting, stands.sources, Standing.skip]
  · simp only [Work.reporting, stands.books, columns]
  · simp [Work.reporting, stands.live, Signals.none]

theorem Stands.drainLate (scene : Scene planner signal settings stream factor)
    {front : List (Standing ι)} {late : List (Standing ι × ℤ)}
    (stands : work.Stands planner signal settings stream (front ++ late.map Prod.fst) phase attempts
      rejected) :
    ∃ next, work.drainLate front.length (late.map Prod.snd) = (.ok (), next) ∧
      next.Stands planner signal settings stream
        (front ++ late.map fun (standing, offset) => standing.skip (-offset).toNat) phase attempts
        rejected := by
  induction late generalizing front work with
  | nil => exact ⟨work, rfl, stands⟩
  | cons pair late ih =>
      obtain ⟨standing, offset⟩ := pair
      have head : ∃ next : Work ρ ℂ π,
          (∀ offsets, work.drainLate front.length (offset :: offsets) =
            next.drainLate (front.length + 1) offsets) ∧
          next.Stands planner signal settings stream
            ((front ++ [standing.skip (-offset).toNat]) ++ late.map Prod.fst) phase attempts
            rejected := by
        by_cases negative : offset < 0
        · have amount : (-offset).toNat = offset.natAbs := by omega
          obtain ⟨next, skipped, later⟩ := stands.discard scene offset.natAbs
          refine ⟨next, fun offsets => ?_, by simpa [amount] using later⟩
          simp only [Work.drainLate, negative, skipped, if_true]
        · have amount : (-offset).toNat = 0 := by omega
          refine ⟨work, fun offsets => ?_, by simpa [amount] using stands⟩
          simp only [Work.drainLate, negative, if_false]
      obtain ⟨next, passed, later⟩ := head
      obtain ⟨last, done, settled⟩ := ih later
      rw [List.length_append, List.length_singleton] at done
      refine ⟨last, ?_, by simpa using settled⟩
      rw [List.map_cons, passed]
      exact done

theorem Stands.drain (scene : Scene planner signal settings stream factor)
    (stands : work.Stands planner signal settings stream (first :: rest) phase attempts rejected) :
    ∃ next, work.drain (Standing.leads signal.size first.place (first :: rest)) = (.ok (), next) ∧
      next.Stands planner signal settings stream
        (Standing.settle signal.size first.place (first :: rest)) phase attempts rejected := by
  let top := largest (Standing.leads signal.size first.place (first :: rest))
  let lag : Standing ι → ℤ := fun standing => lead signal.size first.place standing.place
  have own : lag first = 0 := lead_self _ _
  have least : 0 ≤ top :=
    own ▸ le_largest (Standing.lead_mem signal.size first.place List.mem_cons_self)
  by_cases ahead : 0 < top
  · have headed : work.Stands planner signal settings stream ([] ++ first :: rest) phase attempts
        rejected := stands
    obtain ⟨next, skipped, later⟩ := headed.discard scene top.toNat
    -- The reference has moved up to the stream that leads most, so no offset is positive any more.
    let late : List (Standing ι × ℤ) :=
      (first.skip top.toNat, 0) :: rest.map fun standing => (standing, lag standing - top)
    have offsets : 0 :: (Standing.leads signal.size first.place rest).map (· - top) =
        late.map Prod.snd := by
      simp [late, Standing.leads, lag, Function.comp_def]
    have sources : next.Stands planner signal settings stream ([] ++ late.map Prod.fst) phase
        attempts rejected := by
      simpa [late, Function.comp_def] using later
    obtain ⟨last, done, settled⟩ := Stands.drainLate scene sources
    refine ⟨last, ?_, ?_⟩
    · have whole : Standing.leads signal.size first.place (first :: rest) =
          0 :: Standing.leads signal.size first.place rest := by
        simp [Standing.leads]
      change 0 < largest (Standing.leads signal.size first.place (first :: rest)) at ahead
      simp only [top] at skipped offsets
      rw [whole] at ahead skipped offsets ⊢
      simp only [Work.drain, ahead, List.length_nil] at skipped done ⊢
      simp only [skipped, offsets, done, if_true]
    · simpa [late, top, lag, own, Standing.settle, Standing.behind, Function.comp_def] using settled
  · have none : top = 0 := by omega
    let late : List (Standing ι × ℤ) :=
      (first :: rest).map fun standing => (standing, lag standing)
    have offsets : Standing.leads signal.size first.place (first :: rest) = late.map Prod.snd := by
      simp [late, Standing.leads, lag]
    have sources : work.Stands planner signal settings stream ([] ++ late.map Prod.fst) phase
        attempts rejected := by
      simpa [late, Function.comp_def] using stands
    obtain ⟨last, done, settled⟩ := Stands.drainLate scene sources
    refine ⟨last, ?_, ?_⟩
    · rw [Work.drain, if_neg ahead, offsets]
      exact done
    · change largest (Standing.leads signal.size first.place (first :: rest)) = 0 at none
      simpa [late, lag, Standing.settle, Standing.behind, none, Function.comp_def] using settled

theorem Stands.measuring_step (scene : Scene planner signal settings stream factor)
    (stands : work.Stands planner signal settings stream (first :: rest) .measuring attempts
      rejected)
    (trials : settings.trials ≠ 0) (allowed : ∀ limit ∈ settings.maxAttempts, attempts < limit) :
    ∃ next, work.step planner = (.ongoing, next) ∧
      next.Stands planner signal settings stream
        ((first :: rest).map (Standing.read (settings.trials * signal.size)))
        (.draining (Standing.leads signal.size first.place (first :: rest))) (attempts + 1)
        rejected := by
  have none : ∀ offsets ∈ (none : Option (List ℤ)),
      offsets = Standing.leads signal.size first.place (first :: rest) := by simp
  obtain ⟨next, measured, stood⟩ := stands.begun.measure scene settings.trials none
  have more : work.exhausted = false := by
    rw [Work.exhausted, stands.fit.fixed, stands.books]
    cases limited : settings.maxAttempts with
    | none => rfl
    | some limit => simpa using allowed limit limited
  rw [if_neg trials] at measured
  refine ⟨_, ?_, stood.inPhase _⟩
  rw [step_measuring stands.fit.stage more, stands.fit.fixed, measured]

theorem Stands.draining_step (scene : Scene planner signal settings stream factor)
    (stands : work.Stands planner signal settings stream (first :: rest)
      (.draining (Standing.leads signal.size first.place (first :: rest))) attempts rejected)
    (apart : ¬∀ offset ∈ Standing.leads signal.size first.place (first :: rest), offset = 0) :
    ∃ next, work.step planner = (.ongoing, next) ∧
      next.Stands planner signal settings stream
        (Standing.settle signal.size first.place (first :: rest)) .measuring attempts rejected := by
  obtain ⟨next, drained, stood⟩ := (stands.inPhase .measuring).drain scene
  refine ⟨next, ?_, stood⟩
  rw [step_draining stands.fit.stage stands.live (by simpa using apart), drained]

theorem Stands.settled_step {offsets : List ℤ}
    (stands : work.Stands planner signal settings stream standings (.draining offsets) attempts
      rejected)
    (zero : ∀ offset ∈ offsets, offset = 0) :
    work.step planner = (.ongoing, work.inPhase .locked) := by
  have live : (work.inPhase .measuring).cancelled = false := stands.live
  have all : offsets.all (· == 0) = true := by simpa using zero
  simp only [Work.step, stands.fit.stage, live, all]
  rfl

theorem stepsFor_ongoing {next : Work ρ ℂ π} (went : work.step planner = (.ongoing, next))
    (steps : ℕ) : work.stepsFor planner (steps + 1) = next.stepsFor planner steps := by
  simp only [stepsFor, went]

theorem Stands.confirms (scene : Scene planner signal settings stream factor)
    (stands : work.Stands planner signal settings stream (first :: rest) .measuring attempts
      rejected)
    (trials : settings.trials ≠ 0) (allowed : ∀ limit ∈ settings.maxAttempts, attempts < limit)
    (zero : ∀ offset ∈ Standing.leads signal.size first.place (first :: rest), offset = 0)
    (steps : ℕ) :
    ∃ last : Work ρ ℂ π, work.stepsFor planner (steps + 3) =
        (.ok ⟨attempts + 1, rejected, (first :: rest).map Standing.drained⟩, last) ∧
      last.Stands planner signal settings stream
        ((first :: rest).map (Standing.read (settings.trials * signal.size))) .locked (attempts + 1)
        rejected := by
  obtain ⟨next, measured, stood⟩ := stands.measuring_step scene trials allowed
  have locked := stood.inPhase .locked
  refine ⟨next.inPhase .locked, ?_, locked⟩
  rw [stepsFor_ongoing measured, stepsFor_ongoing (stood.settled_step zero)]
  simp only [stepsFor, Work.step, locked.fit.stage, locked.books, Standing.map_drained_read]

theorem Stands.converges (scene : Scene planner signal settings stream factor)
    (stands : work.Stands planner signal settings stream (first :: rest) .measuring 0 rejected)
    (trials : settings.trials ≠ 0) (patient : ∀ limit ∈ settings.maxAttempts, 2 ≤ limit)
    (steps : ℕ) :
    ∃ (last : Work ρ ℂ π) (attempts count : ℕ), attempts ≤ 2 ∧
      work.stepsFor planner (steps + 5) =
        (.ok ⟨attempts, rejected,
          (Standing.settle signal.size first.place (first :: rest)).map Standing.drained⟩, last) ∧
      last.Stands planner signal settings stream
        ((Standing.settle signal.size first.place (first :: rest)).map (Standing.read count))
        .locked attempts rejected := by
  have early : ∀ limit ∈ settings.maxAttempts, 0 < limit := fun limit member =>
    Nat.lt_of_lt_of_le (by decide) (patient limit member)
  by_cases zero : ∀ offset ∈ Standing.leads signal.size first.place (first :: rest), offset = 0
  · obtain ⟨last, done, stood⟩ := stands.confirms scene trials early zero (steps + 2)
    rw [Standing.settle_still zero]
    exact ⟨last, 1, _, by decide, done, stood⟩
  · obtain ⟨next, measured, waiting⟩ := stands.measuring_step scene trials early
    rw [← Standing.leads_read _ _ (settings.trials * signal.size)] at waiting zero
    obtain ⟨drained, skipped, level⟩ := Stands.draining_step scene waiting zero
    have late : ∀ limit ∈ settings.maxAttempts, 1 < limit := patient
    obtain ⟨last, done, stood⟩ := Stands.confirms scene level trials late
      (Standing.leads_settle scene.room _) steps
    -- The first round has read from all streams alike, which moves the drained places on but
    -- changes no entry of the report.
    let settled := Standing.settle signal.size first.place (first :: rest)
    have moved : Standing.settle signal.size (first.place + settings.trials * signal.size)
        ((first :: rest).map (Standing.read (settings.trials * signal.size))) =
        settled.map (Standing.read (settings.trials * signal.size)) :=
      Standing.settle_read _ _ _ _
    change _ = ((.ok ⟨2, rejected, (Standing.settle signal.size
      (first.place + settings.trials * signal.size)
      ((first :: rest).map (Standing.read (settings.trials * signal.size)))).map
        Standing.drained⟩, last) : Outcome Report × Work ρ ℂ π) at done
    change last.Stands planner signal settings stream ((Standing.settle signal.size
      (first.place + settings.trials * signal.size)
      ((first :: rest).map (Standing.read (settings.trials * signal.size)))).map
        (Standing.read (settings.trials * signal.size))) .locked 2 rejected at stood
    rw [moved, Standing.map_drained_read] at done
    rw [moved, Standing.map_read_read] at stood
    refine ⟨last, 2, _, le_refl _, ?_, stood⟩
    rw [stepsFor_ongoing measured, stepsFor_ongoing skipped, done]

end Work

theorem checkFormats_complex {formats : List Format} (complex : ∀ format ∈ formats, format = .complex)
    (index : ℕ) : checkFormats index formats = .ok () := by
  induction formats generalizing index with
  | nil => rfl
  | cons format formats ih =>
      obtain rfl := complex format (by simp)
      exact ih (fun format member => complex format (by simp [member])) (index + 1)

theorem Settings.trials_ne_zero (checked : settings.check = .ok ()) : settings.trials ≠ 0 := by
  intro none
  simp only [check, none, if_true] at checked
  split at checked <;> cases checked

theorem Settings.le_steps (patient : ∀ limit ∈ settings.maxAttempts, 2 ≤ limit) :
    ∃ steps, settings.steps = steps + 5 := by
  refine Nat.exists_eq_add_of_le' ?_
  unfold steps
  cases limited : settings.maxAttempts with
  | none => decide
  | some limit =>
      have enough := patient limit limited
      simp only
      omega

theorem Scene.checkSources (scene : Scene planner signal settings stream factor)
    {synchronizer : Synchronizer ℂ π} (first : Standing ι) (rest : List (Standing ι))
    (paired : synchronizer.buffers.length = (first :: rest).length) :
    synchronizer.checkSources
      ((first :: rest).map fun standing => stream standing.item standing.place) = .ok () := by
  let sources := (first :: rest).map fun standing => stream standing.item standing.place
  obtain ⟨rate, same⟩ := scene.rate
  have formats : checkFormats 0 (sources.map (Source.format (C := ℂ))) = .ok () := by
    refine checkFormats_complex (fun format member => ?_) 0
    obtain ⟨_, among, rfl⟩ := List.mem_map.mp member
    obtain ⟨standing, _, rfl⟩ := List.mem_map.mp among
    exact scene.format standing.item standing.place
  have rates : Source.sharedRate sources = .ok rate := by
    refine sharedRate_same (by simp [sources]) fun answer member => ?_
    obtain ⟨_, among, rfl⟩ := List.mem_map.mp member
    obtain ⟨standing, _, rfl⟩ := List.mem_map.mp among
    rw [same]
  have length : sources.length = synchronizer.buffers.length := by
    rw [List.length_map, paired]
  change Synchronizer.checkSources synchronizer sources = _
  simp [Synchronizer.checkSources, length, formats, rates, bind, Except.bind, pure, Except.pure]

/-- Streams of one signal are locked in at most two rounds, none of them rejected. Each stream is
skipped by as much as it was behind, and then all have been read alike. -/
theorem Synchronizer.run_converges (scene : Scene planner signal settings stream factor)
    (checked : settings.check = .ok ()) (patient : ∀ limit ∈ settings.maxAttempts, 2 ≤ limit)
    (first : Standing ι) (rest : List (Standing ι))
    (fresh : ∀ standing ∈ first :: rest, standing.drained = 0) :
    ∃ (synchronizer : Synchronizer ℂ π) (last : Work ρ ℂ π) (attempts count : ℕ), attempts ≤ 2 ∧
      prepare planner (first :: rest).length settings = .ok synchronizer ∧
      synchronizer.run planner
          ((first :: rest).map fun standing => stream standing.item standing.place) false =
        (.ok ⟨attempts, 0,
          (Standing.settle signal.size first.place (first :: rest)).map Standing.drained⟩, last) ∧
      last.Stands planner signal settings stream
        ((Standing.settle signal.size first.place (first :: rest)).map (Standing.read count))
        .locked attempts 0 := by
  obtain ⟨correlator, equipped, ready⟩ := Correlator.exists_prepare scene.reliable scene.room
  let sources := (first :: rest).map fun standing => stream standing.item standing.place
  let synchronizer : Synchronizer ℂ π := ⟨settings, correlator,
    List.replicate (first :: rest).length (.silent .complex settings.length), .measuring,
    ⟨0, 0, List.replicate (first :: rest).length 0⟩⟩
  have prepared : prepare planner (first :: rest).length settings = .ok synchronizer := by
    rw [← scene.length] at equipped
    simp [prepare, checked, equipped, bind, Except.bind, pure, Except.pure, synchronizer]
  have fit := (prepare_fit prepared).1
  have zero : (first :: rest).map Standing.drained = List.replicate (first :: rest).length 0 :=
    List.eq_replicate_iff.mpr ⟨List.length_map _, by simpa using fresh⟩
  have stands : (Work.mk synchronizer sources false).Stands planner signal settings stream
      (first :: rest) .measuring 0 0 := ⟨fit, ready, rfl, by rw [zero], rfl⟩
  obtain ⟨steps, enough⟩ := Settings.le_steps patient
  obtain ⟨last, attempts, count, few, done, stood⟩ :=
    stands.converges scene (Settings.trials_ne_zero checked) patient steps
  refine ⟨synchronizer, last, attempts, count, few, prepared, ?_, stood⟩
  simp only [run, scene.checkSources first rest fit.paired]
  rw [← done, ← enough]

theorem synchronize_converges (scene : Scene planner signal settings stream factor)
    (checked : settings.check = .ok ()) (patient : ∀ limit ∈ settings.maxAttempts, 2 ≤ limit)
    (first : Standing ι) (rest : List (Standing ι))
    (fresh : ∀ standing ∈ first :: rest, standing.drained = 0) :
    ∃ attempts count, attempts ≤ 2 ∧
      synchronize planner settings
          ((first :: rest).map fun standing => stream standing.item standing.place) false =
        ⟨.ok ⟨attempts, 0,
            (Standing.settle signal.size first.place (first :: rest)).map Standing.drained⟩,
          ((Standing.settle signal.size first.place (first :: rest)).map
            (Standing.read count)).map fun standing => stream standing.item standing.place,
          false⟩ := by
  obtain ⟨synchronizer, last, attempts, count, few, prepared, ran, stood⟩ :=
    Synchronizer.run_converges scene checked patient first rest fresh
  have closed := stood.ready.close scene.reliable
  refine ⟨attempts, count, few, ?_⟩
  rw [synchronize, List.length_map]
  simp only [prepared, ran, Synchronizer.close, closed, stood.sources, stood.live]

end Measuring

end Wideband.Lock
