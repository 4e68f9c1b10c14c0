import Wideband.Proofs.Source.Cutting
import Wideband.Proofs.Source.Wear
import Wideband.Sample.Complex32

namespace Wideband

/-!
Exact counts from short reads. An honest source stores the samples it gives at the front of a view
and leaves the rest of it alone (`Source.Serves`); how many it gives to a read is its own affair. A
buffer that is filled from it holds what the reads gave, in one piece. A source that plays the same
tape however it is read (`Source.Follows`) comes to the same end whether it is asked for its samples
at once or in chunks (`Source.chunks_immaterial`).
-/

variable {ρ C : Type}

namespace Reading

/-- A read that stores samples at the front of its view and answers their number. Where it fails, it
leaves some of the view free. -/
structure Stores (view more : Buffer C) (reading : Reading ρ C) : Prop where
  same : more.format = view.format
  written : reading.view = view.overwrite 0 more
  within : more.size ≤ view.size
  counted {count : ℕ} (stored : reading.outcome = .ok count) : more.size = count
  short {failure : Failure} (failed : reading.outcome = .error failure) : more.size < view.size

inductive Halts (reading : Reading ρ C) : Failure → Prop where
  | failed {failure : Failure} (own : reading.outcome = .error failure) : Halts reading failure
  | ended (nothing : reading.outcome = .ok 0) : Halts reading (.error .endOfStream)

end Reading

/-- What is on a tape: its first samples, however many, and after how many of them it ends, if it
ends, and how. -/
structure Tape (C : Type) where
  samples : ℕ → Buffer C
  ending : Option (ℕ × Failure)

namespace Tape

variable {tape : Tape C} {early late : ℕ} {failure : Failure}

def reach (tape : Tape C) (place : ℕ) : ℕ :=
  match tape.ending with
  | none => place
  | some (last, _) => min place last

def verdict (tape : Tape C) (place : ℕ) : Outcome Unit :=
  match tape.ending with
  | none => .ok ()
  | some (last, failure) => if last < place then .error failure else .ok ()

theorem ended (ends : tape.ending = some (early, failure)) (before : early < late) :
    tape.verdict late = .error failure ∧ tape.reach late = early := by
  rw [verdict, reach, ends]
  exact ⟨if_pos before, Nat.min_eq_right (Nat.le_of_lt before)⟩

theorem playing (within : ∀ last failure, tape.ending = some (last, failure) → late ≤ last) :
    tape.verdict late = .ok () ∧ tape.reach late = late := by
  rw [verdict, reach]
  cases ends : tape.ending with
  | none => exact ⟨rfl, rfl⟩
  | some ending =>
      have before := within ending.1 ending.2 ends
      exact ⟨if_neg (Nat.not_lt.mpr before), Nat.min_eq_left before⟩

theorem fails_later (fails : tape.verdict early = .error failure) (further : early ≤ late) :
    tape.verdict late = .error failure ∧ tape.reach late = tape.reach early := by
  cases ends : tape.ending with
  | none => simp [verdict, ends] at fails
  | some ending =>
      obtain ⟨last, cause⟩ := ending
      by_cases before : last < early
      · obtain ⟨same, reached⟩ := ended ends before
        obtain rfl : cause = failure := by
          rw [same] at fails
          exact Except.error.inj fails
        obtain ⟨still, stays⟩ := ended ends (Nat.lt_of_lt_of_le before further)
        exact ⟨still, stays.trans reached.symm⟩
      · simp [verdict, ends, before] at fails

end Tape

namespace Source

variable [Source ρ C] {format : Format} {sound : ρ → Prop} {given : ρ → Buffer C}

/-- Honest sources, for views of a format. `given` is all that a source has given so far. -/
structure Serves (format : Format) (sound : ρ → Prop) (given : ρ → Buffer C) : Prop where
  shape {source : ρ} (trusted : sound source) : (given source).format = format
  read {source : ρ} (trusted : sound source) {view : Buffer C} (fits : view.format = format)
    (room : 0 < view.size) : ∃ more, (Source.read source view).Stores view more ∧
      given (Source.read source view).source = (given source).append more
  onward {source : ρ} (trusted : sound source) {view : Buffer C} (fits : view.format = format)
    (room : 0 < view.size) {count : ℕ}
    (stored : (Source.read source view).outcome = .ok (count + 1)) :
    sound (Source.read source view).source

inductive Fetched (format : Format) (sound : ρ → Prop) (source : ρ) (stored size : ℕ)
    (more : Buffer C) : Outcome ℕ → ρ → Prop where
  | full {next : ρ} (whole : stored + more.size = size) (trusted : sound next) :
      Fetched format sound source stored size more (.ok size) next
  | halted {used : ρ} {view : Buffer C} {failure : Failure} (lacks : stored + more.size < size)
      (worn : Worn source used) (trusted : sound used) (fits : view.format = format)
      (room : 0 < view.size) (halts : (Source.read used view).Halts failure) :
      Fetched format sound source stored size more (.error failure) (Source.read used view).source

theorem Fetched.behind {source next last : ρ} {stored size : ℕ} {part more : Buffer C}
    {outcome : Outcome ℕ} (worn : Worn source next) (same : part.format = more.format)
    (fetched : Fetched format sound next (stored + part.size) size more outcome last) :
    Fetched format sound source stored size (part.append more) outcome last := by
  have total : stored + (part.append more).size = stored + part.size + more.size := by
    rw [Buffer.size_append same, Nat.add_assoc]
  cases fetched with
  | full whole trusted => exact .full (total.trans whole) trusted
  | halted lacks later trusted fits room halts =>
      exact .halted (total ▸ lacks) (worn.trans later) trusted fits room halts

namespace Serves

variable {source : ρ} {buffer : Buffer C} {size stored : ℕ} {signals : Signals}

theorem step (serves : Serves format sound given) (trusted : sound source)
    (fits : buffer.format = format) (room : stored < buffer.size) :
    ∃ more, (Source.read source (buffer.drop stored)).Stores (buffer.drop stored) more ∧
      more.format = format ∧
      (buffer.take stored).append (Source.read source (buffer.drop stored)).view =
        buffer.overwrite stored more ∧
      given (Source.read source (buffer.drop stored)).source = (given source).append more := by
  have view : (buffer.drop stored).format = format := (buffer.format_drop stored).trans fits
  obtain ⟨more, stores, gave⟩ := serves.read trusted view (Buffer.drop_free room)
  have same : more.format = format := stores.same.trans view
  refine ⟨more, stores, same, ?_, gave⟩
  rw [stores.written, Buffer.append_overwrite (same.trans fits.symm)]

theorem fillFrom (serves : Serves format sound given) (trusted : sound source)
    (fits : buffer.format = format) (whole : buffer.size = size) (within : stored ≤ size) :
    ∃ more, more.format = format ∧
      (fillFrom size source buffer stored signals).view = buffer.overwrite stored more ∧
      given (fillFrom size source buffer stored signals).source = (given source).append more ∧
      Fetched format sound source stored size more
        (fillFrom size source buffer stored signals).outcome
        (fillFrom size source buffer stored signals).source := by
  -- What later reads fetch goes behind what the first one has stored.
  fun_induction Source.fillFrom size source buffer stored signals with
  | case1 source buffer stored signals room reading next merged failure outcome =>
      have view : (buffer.drop stored).format = format := (buffer.format_drop stored).trans fits
      obtain ⟨more, stores, same, written, gave⟩ := serves.step trusted fits (whole ▸ room)
      have short := stores.short outcome
      rw [Buffer.size_drop] at short
      exact ⟨more, same, written, gave, .halted (by omega) (.refl source) trusted view
        (Buffer.drop_free (whole ▸ room)) (.failed outcome)⟩
  | case2 source buffer stored signals room reading next merged outcome =>
      have view : (buffer.drop stored).format = format := (buffer.format_drop stored).trans fits
      obtain ⟨more, stores, same, written, gave⟩ := serves.step trusted fits (whole ▸ room)
      have nothing := stores.counted outcome
      exact ⟨more, same, written, gave, .halted (by omega) (.refl source) trusted view
        (Buffer.drop_free (whole ▸ room)) (.ended outcome)⟩
  | case3 source buffer stored signals room reading next merged count outcome ih =>
      have view : (buffer.drop stored).format = format := (buffer.format_drop stored).trans fits
      obtain ⟨part, stores, same, written, gave⟩ := serves.step trusted fits (whole ▸ room)
      have counted : part.size = count + 1 := stores.counted outcome
      have bounded := stores.within
      rw [Buffer.size_drop] at bounded
      have sized : next.size = size := by
        rw [← whole]
        exact (congrArg Buffer.size written).trans
          (Buffer.size_overwrite (same.trans fits.symm) (by omega))
      have formed : next.format = format :=
        (congrArg Buffer.format written).trans ((buffer.format_overwrite part stored).trans fits)
      obtain ⟨more, also, later, gives, fetched⟩ :=
        ih (serves.onward trusted view (Buffer.drop_free (whole ▸ room)) outcome) formed sized
          (by omega)
      rw [← counted] at later gives fetched ⊢
      refine ⟨part.append more, (part.format_append more).trans same, ?_, ?_,
        fetched.behind (worn_read source _) (same.trans also.symm)⟩
      · rw [later]
        change ((buffer.take stored).append _).overwrite _ _ = _
        rw [written, Buffer.overwrite_overwrite (same.trans fits.symm) (also.trans same.symm)
          (by omega)]
      · rw [gives, gave, Buffer.append_assoc ((serves.shape trusted).trans same.symm)]
  | case4 source buffer stored signals full =>
      have nothing : (buffer.take 0).size = 0 := by rw [Buffer.size_take, Nat.zero_min]
      obtain rfl : stored = size := by omega
      exact ⟨buffer.take 0, (buffer.format_take 0).trans fits,
        (Buffer.overwrite_nothing nothing).symm, (Buffer.append_nothing nothing).symm,
        .full (by rw [nothing, Nat.add_zero]) trusted⟩

theorem fill (serves : Serves format sound given) (trusted : sound source)
    (fits : buffer.format = format) :
    ∃ more, more.format = format ∧ (fill source buffer).view = buffer.overwrite 0 more ∧
      given (fill source buffer).source = (given source).append more ∧
      Fetched format sound source 0 buffer.size more (fill source buffer).outcome
        (fill source buffer).source :=
  serves.fillFrom trusted fits rfl (Nat.zero_le _)

end Serves

/-- Honest sources that play a tape. Wherever the reads are cut, they give its samples, and give out
where it ends. -/
structure Follows (format : Format) (sound : ρ → Prop) (given : ρ → Buffer C) (tape : Tape C) :
    Prop extends Serves format sound given where
  told {source : ρ} (trusted : sound source) : given source = tape.samples (given source).size
  before {source : ρ} (trusted : sound source) {last : ℕ} {failure : Failure}
    (ends : tape.ending = some (last, failure)) : (given source).size ≤ last
  halted {source : ρ} (trusted : sound source) {view : Buffer C} (fits : view.format = format)
    (room : 0 < view.size) {failure : Failure} (halts : (Source.read source view).Halts failure) :
    tape.ending = some ((given (Source.read source view).source).size, failure) ∧
      given (Source.read source view).source =
        tape.samples (given (Source.read source view).source).size

/-- Where a source that plays a tape stands when it was to go on to a place. -/
structure Arrived (sound : ρ → Prop) (given : ρ → Buffer C) (tape : Tape C) (place : ℕ)
    (outcome : Outcome Unit) (next : ρ) : Prop where
  verdict : outcome = tape.verdict place
  told : given next = tape.samples (tape.reach place)
  played (plays : tape.verdict place = .ok ()) : sound next ∧ (given next).size = place

omit [Source ρ C] in
theorem Arrived.later {tape : Tape C} {early late : ℕ} {failure : Failure} {next : ρ}
    (arrived : Arrived sound given tape early (.error failure) next) (further : early ≤ late) :
    Arrived sound given tape late (.error failure) next := by
  obtain ⟨fails, reached⟩ := tape.fails_later arrived.verdict.symm further
  refine ⟨fails.symm, arrived.told.trans (by rw [reached]), fun plays => ?_⟩
  cases fails.symm.trans plays

namespace Follows

variable {tape : Tape C} {source : ρ} {buffer : Buffer C} {place count scratch : ℕ}
  {signals : Signals}

theorem stays (follows : Follows format sound given tape) (trusted : sound source) :
    Arrived sound given tape (given source).size (.ok ()) source := by
  obtain ⟨plays, reached⟩ := tape.playing fun _ _ ends => follows.before trusted ends
  refine ⟨plays.symm, ?_, fun _ => ⟨trusted, rfl⟩⟩
  rw [reached]
  exact follows.told trusted

theorem fill (follows : Follows format sound given tape) (trusted : sound source)
    (fits : buffer.format = format) :
    Arrived sound given tape ((given source).size + buffer.size)
      ((fill source buffer).outcome.map fun _ => ()) (fill source buffer).source := by
  obtain ⟨more, same, -, gave, fetched⟩ := follows.toServes.fill trusted fits
  have shape : (given source).format = more.format := (follows.shape trusted).trans same.symm
  generalize Source.fill source buffer = reading at gave fetched ⊢
  obtain ⟨outcome, view, next, signals⟩ := reading
  have size : (given next).size = (given source).size + more.size :=
    (congrArg Buffer.size gave).trans (Buffer.size_append shape)
  cases fetched with
  | full whole sure =>
      have place : (given next).size = (given source).size + buffer.size := by omega
      rw [← place]
      exact follows.stays sure
  | @halted used view failure lacks worn sure fits room halts =>
      obtain ⟨ends, told⟩ := follows.halted sure fits room halts
      have early : (given (Source.read used view).source).size <
          (given source).size + buffer.size := by
        calc (given (Source.read used view).source).size
            _ = (given source).size + more.size := size
            _ < (given source).size + buffer.size := by omega
      obtain ⟨fails, reached⟩ := tape.ended ends early
      refine ⟨fails.symm, ?_, fun plays => ?_⟩
      · rw [reached]
        exact told
      · cases fails.symm.trans plays

theorem skipChunks [Zero C] (follows : Follows .complex sound given tape) (trusted : sound source)
    {room : 0 < scratch} :
    Arrived sound given tape ((given source).size + count)
      (skipChunks scratch room source count signals).outcome
      (skipChunks scratch room source count signals).source := by
  fun_induction Source.skipChunks scratch room source count signals with
  | case1 source signals => exact follows.stays trusted
  | case2 source count signals something chunk reading merged failure outcome =>
      have least : chunk ≤ count := Nat.min_le_left _ _
      have arrived := follows.fill trusted (Buffer.format_silent .complex chunk)
      rw [Buffer.size_silent] at arrived
      have stopped : reading.outcome.map (fun _ => ()) = .error failure :=
        congrArg (Except.map _) outcome
      exact (stopped ▸ arrived).later (Nat.add_le_add_left least _)
  | case3 source count signals something chunk reading merged stored outcome ih =>
      have least : chunk ≤ count := Nat.min_le_left _ _
      have arrived := follows.fill trusted (Buffer.format_silent .complex chunk)
      rw [Buffer.size_silent] at arrived
      have plays : tape.verdict ((given source).size + chunk) = .ok () := by
        rw [← arrived.verdict]
        exact congrArg (Except.map _) outcome
      obtain ⟨sure, size⟩ := arrived.played plays
      have rest := ih sure
      rwa [size, Nat.add_assoc, Nat.add_sub_cancel' least] at rest

theorem skip [Zero C] (follows : Follows .complex sound given tape) (trusted : sound source)
    (room : 0 < scratch) (count : ℕ) :
    Arrived sound given tape ((given source).size + count) (skip source count scratch).outcome
      (skip source count scratch).source := by
  rw [Source.skip, dif_pos room]
  exact follows.skipChunks trusted

theorem fill_outcome (follows : Follows format sound given tape) (trusted : sound source)
    (fits : buffer.format = format) :
    (Source.fill source buffer).outcome =
      (tape.verdict ((given source).size + buffer.size)).map fun _ => buffer.size := by
  have arrived := follows.fill trusted fits
  obtain ⟨more, -, -, -, fetched⟩ := follows.toServes.fill trusted fits
  rw [← arrived.verdict]
  generalize Source.fill source buffer = reading at fetched ⊢
  obtain ⟨outcome, view, next, signals⟩ := reading
  cases fetched <;> rfl

theorem fill_view (follows : Follows format sound given tape) (trusted : sound source)
    (fits : buffer.format = format) :
    (Source.fill source buffer).view = buffer.overwrite 0
      ((tape.samples (tape.reach ((given source).size + buffer.size))).drop
        (given source).size) := by
  have arrived := follows.fill trusted fits
  obtain ⟨more, same, written, gave, -⟩ := follows.toServes.fill trusted fits
  have shape : (given source).format = more.format := (follows.shape trusted).trans same.symm
  rw [written, ← arrived.told, gave, Buffer.drop_append shape]

end Follows

def Alike (given : ρ → Buffer C) (skip other : Skip ρ) : Prop :=
  skip.outcome = other.outcome ∧ given skip.source = given other.source

omit [Source ρ C] in
theorem Arrived.alike {tape : Tape C} {place : ℕ} {skip other : Skip ρ}
    (here : Arrived sound given tape place skip.outcome skip.source)
    (there : Arrived sound given tape place other.outcome other.source) : Alike given skip other :=
  ⟨here.verdict.trans there.verdict.symm, here.told.trans there.told.symm⟩

def skipTwice [Zero C] (source : ρ) (first second scratch other : ℕ) : Skip ρ :=
  let early := skip source first scratch
  match early.outcome with
  | .error failure => ⟨.error failure, early.source, early.signals⟩
  | .ok () =>
      let late := skip early.source second other
      { late with signals := early.signals.and late.signals }

theorem Follows.skipTwice [Zero C] {tape : Tape C} {source : ρ} {scratch other : ℕ}
    (follows : Follows .complex sound given tape) (trusted : sound source) (room : 0 < scratch)
    (free : 0 < other) (first second : ℕ) :
    Arrived sound given tape ((given source).size + (first + second))
      (Source.skipTwice source first second scratch other).outcome
      (Source.skipTwice source first second scratch other).source := by
  have early := follows.skip trusted room first
  cases outcome : (Source.skip source first scratch).outcome with
  | error failure =>
      simp only [Source.skipTwice, outcome]
      exact (outcome ▸ early).later (Nat.add_le_add_left (Nat.le_add_right first second) _)
  | ok _ =>
      obtain ⟨sure, size⟩ := early.played (early.verdict.symm.trans outcome)
      have late := follows.skip sure free second
      rw [size, Nat.add_assoc] at late
      simpa only [Source.skipTwice, outcome] using late

/-- Filling a buffer and skipping samples do not depend on how an honest source cuts its samples into
reads. -/
theorem chunks_immaterial [Zero C] (serves : Serves format sound given) {source : ρ}
    (trusted : sound source) :
    (∀ buffer : Buffer C, buffer.format = format →
      ∃ more, more.format = format ∧ (fill source buffer).view = buffer.overwrite 0 more ∧
        given (fill source buffer).source = (given source).append more ∧
        Fetched format sound source 0 buffer.size more (fill source buffer).outcome
          (fill source buffer).source) ∧
      ∀ tape, Follows format sound given tape →
        (∀ buffer : Buffer C, buffer.format = format →
          let place := (given source).size + buffer.size
          (fill source buffer).outcome = (tape.verdict place).map (fun _ => buffer.size) ∧
            given (fill source buffer).source = tape.samples (tape.reach place) ∧
            (fill source buffer).view = buffer.overwrite 0
              ((tape.samples (tape.reach place)).drop (given source).size)) ∧
        (format = .complex → ∀ scratch > 0,
          (∀ buffer : Buffer C, buffer.format = .complex →
            (skip source buffer.size scratch).outcome =
                (fill source buffer).outcome.map (fun _ => ()) ∧
              given (skip source buffer.size scratch).source =
                given (fill source buffer).source) ∧
          (∀ count, ∀ other > 0,
            Alike given (skip source count scratch) (skip source count other)) ∧
          ∀ first second, ∀ early > 0, ∀ late > 0,
            Alike given (skipTwice source first second early late)
              (skip source (first + second) scratch)) := by
  refine ⟨fun buffer fits => serves.fill trusted fits, fun tape follows => ⟨?_, ?_⟩⟩
  · intro buffer fits
    exact ⟨follows.fill_outcome trusted fits, (follows.fill trusted fits).told,
      follows.fill_view trusted fits⟩
  · rintro rfl scratch room
    refine ⟨fun buffer fits => ?_, fun count other free => ?_, ?_⟩
    · have skipped := follows.skip trusted room buffer.size
      have filled := follows.fill trusted fits
      exact ⟨skipped.verdict.trans filled.verdict.symm, skipped.told.trans filled.told.symm⟩
    · exact (follows.skip trusted room count).alike (follows.skip trusted free count)
    · intro first second early some late free
      exact (follows.skipTwice trusted some free first second).alike
        (follows.skip trusted room (first + second))

end Source

structure Trickle (C : Type) where
  samples : Array C
  pace : ℕ → ℕ
  position : ℕ
  reads : ℕ

namespace Trickle

def available (trickle : Trickle C) (size : ℕ) : ℕ :=
  min (min size (trickle.pace trickle.reads + 1)) (trickle.samples.size - trickle.position)

def read (trickle : Trickle C) (view : Buffer C) : Reading (Trickle C) C :=
  match view with
  | .complex out =>
      let count := trickle.available out.size
      let stretch := trickle.samples.extract trickle.position (trickle.position + count)
      ⟨.ok count, .complex (stretch ++ out.extract count out.size),
        { trickle with position := trickle.position + count, reads := trickle.reads + 1 }, .none⟩
  | other => ⟨.fail (.formatMismatch .complex other.format), view, trickle, .none⟩

instance : Source (Trickle C) C where
  format _ := .complex
  rate _ := 0
  read := Trickle.read
  close trickle := (.ok (), trickle)

def given (trickle : Trickle C) : Buffer C :=
  .complex (trickle.samples.extract 0 trickle.position)

def tape (samples : Array C) : Tape C where
  samples count := .complex (samples.extract 0 count)
  ending := some (samples.size, .error .endOfStream)

structure Of (samples : Array C) (trickle : Trickle C) : Prop where
  same : trickle.samples = samples
  within : trickle.position ≤ samples.size

variable {samples : Array C} {trickle : Trickle C} {view : Buffer C}

theorem Of.size (trusted : Of samples trickle) : trickle.given.size = trickle.position := by
  obtain ⟨rfl, within⟩ := trusted
  change (trickle.samples.extract 0 trickle.position).size = trickle.position
  rw [Array.size_extract, Nat.min_eq_left within, Nat.sub_zero]

theorem Of.told (trusted : Of samples trickle) :
    trickle.given = (tape samples).samples trickle.given.size := by
  rw [trusted.size, given, trusted.same]
  rfl

theorem Of.read (trusted : Of samples trickle) (fits : view.format = .complex) :
    ∃ more, (Source.read trickle view).Stores view more ∧
      (Source.read trickle view).outcome = .ok (trickle.available view.size) ∧
      more.size = trickle.available view.size ∧ Of samples (Source.read trickle view).source ∧
      given (Source.read trickle view).source = trickle.given.append more := by
  cases view with
  | complex out =>
      obtain ⟨rfl, within⟩ := trusted
      have few : trickle.available out.size ≤ trickle.samples.size - trickle.position :=
        Nat.min_le_right _ _
      have fit : trickle.available out.size ≤ out.size :=
        Nat.le_trans (Nat.min_le_left _ _) (Nat.min_le_left _ _)
      let stretch := trickle.samples.extract trickle.position
        (trickle.position + trickle.available out.size)
      have size : stretch.size = trickle.available out.size := by
        rw [Array.size_extract]
        omega
      refine ⟨.complex stretch, ⟨rfl, ?_, Nat.le_trans (Nat.le_of_eq size) fit, ?_, nofun⟩, rfl,
        size, ⟨rfl, ?_⟩, ?_⟩
      · change Buffer.complex (stretch ++ out.extract _ out.size) =
          .complex (out.extract 0 0 ++ stretch ++ out.extract (0 + stretch.size) out.size)
        rw [Array.extract_zero, Array.empty_append, Nat.zero_add, size]
      · rintro _ ⟨⟩
        exact size
      · change trickle.position + trickle.available out.size ≤ trickle.samples.size
        omega
      · change Buffer.complex (trickle.samples.extract 0 (trickle.position + _)) =
          .complex (_ ++ stretch)
        rw [Array.extract_append_extract, Nat.zero_min, Nat.max_eq_right (Nat.le_add_right _ _)]
  | _ => cases fits

theorem follows (samples : Array C) :
    Source.Follows .complex (Of samples) given (tape samples) where
  shape _ := rfl
  read {source} trusted {view} fits room := by
    obtain ⟨more, stores, -, -, -, gave⟩ := trusted.read fits
    exact ⟨more, stores, gave⟩
  onward {source} trusted {view} fits room {count} stored := by
    obtain ⟨more, -, -, -, next, -⟩ := trusted.read fits
    exact next
  told trusted := trusted.told
  before {source} trusted {last failure} ends := by
    cases ends
    rw [trusted.size]
    exact trusted.within
  halted {source} trusted {view} fits room {failure} halts := by
    obtain ⟨more, -, answered, counted, next, gave⟩ := trusted.read fits
    cases halts with
    | failed own =>
        rw [own] at answered
        cases answered
    | ended nothing =>
        have none : source.available view.size = 0 := by
          rw [nothing] at answered
          exact (Except.ok.inj answered).symm
        have least : min (min view.size (source.pace source.reads + 1))
          (source.samples.size - source.position) = 0 := none
        have last : source.position = samples.size := by
          have within := trusted.within
          rw [trusted.same] at least
          omega
        refine ⟨?_, next.told⟩
        rw [gave, Buffer.append_nothing (counted.trans none), trusted.size, last]
        rfl

def uneven : Trickle Complex32 :=
  ⟨#[⟨1, 0⟩, ⟨2, 0⟩, ⟨3, 0⟩, ⟨4, 0⟩, ⟨5, 0⟩, ⟨6, 0⟩, ⟨7, 0⟩], fun reads => reads % 2, 0, 0⟩

end Trickle

theorem Source.chunks_immaterial_trickle :
    Source.Follows .complex (Trickle.Of Trickle.uneven.samples) Trickle.given
        (Trickle.tape Trickle.uneven.samples) ∧
      Trickle.Of Trickle.uneven.samples Trickle.uneven ∧
      Source.Alike Trickle.given (Source.skipTwice Trickle.uneven 2 3 1 2)
        (Source.skip Trickle.uneven 5 4) ∧
      (Source.fill Trickle.uneven (.complex #[0, 0, 0, 0])).outcome = .ok 4 ∧
      (Source.fill Trickle.uneven (.complex #[0, 0, 0, 0])).view =
        .complex #[⟨1, 0⟩, ⟨2, 0⟩, ⟨3, 0⟩, ⟨4, 0⟩] ∧
      (Source.fill Trickle.uneven (.complex (Array.replicate 9 0))).outcome = .fail .endOfStream ∧
      (Source.fill Trickle.uneven (.complex (Array.replicate 9 0))).view =
        .complex #[⟨1, 0⟩, ⟨2, 0⟩, ⟨3, 0⟩, ⟨4, 0⟩, ⟨5, 0⟩, ⟨6, 0⟩, ⟨7, 0⟩, 0, 0] := by
  have follows := Trickle.follows Trickle.uneven.samples
  have trusted : Trickle.Of Trickle.uneven.samples Trickle.uneven := ⟨rfl, Nat.zero_le _⟩
  obtain ⟨_, exact⟩ := Source.chunks_immaterial follows.toServes trusted
  obtain ⟨fills, skips⟩ := exact _ follows
  obtain ⟨_, _, twice⟩ := skips rfl 4 (by decide)
  obtain ⟨whole, _, held⟩ := fills (.complex #[0, 0, 0, 0]) rfl
  obtain ⟨short, _, kept⟩ := fills (.complex (Array.replicate 9 0)) rfl
  exact ⟨follows, trusted, twice 2 3 1 (by decide) 2 (by decide), whole, held, short, kept⟩

end Wideband
