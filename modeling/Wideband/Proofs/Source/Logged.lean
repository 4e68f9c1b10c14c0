import Mathlib.Data.List.Forall2
import Wideband.Proofs.Source.Keeping
import Wideband.Proofs.Source.Playing

namespace Wideband

/-!
Sources whose calls are on record. The record of a source says of each call what came of it
(`Visit`), so it tells which samples the source has given, in what order, whether it was closed and
whether it was read after that. Any source can be put on record (`Logged`). An honest source keeps
to the view that it is lent; filling a buffer from it either takes the samples that it gives next,
or ends with the call that gave none (`Filled`).
-/

variable {ρ C : Type}

inductive Visit (C : Type) where
  | gave (samples : List C)
  | failed (failure : Failure)
  | closed

namespace Visit

def samples : Visit C → List C
  | .gave samples => samples
  | _ => []

def Gives : Visit C → Prop
  | .gave _ => True
  | _ => False

/-- The calls that keep a buffer from being filled, each with the failure that it counts as. -/
inductive Stops : Visit C → Failure → Prop where
  | failed (failure : Failure) : Stops (.failed failure) failure
  | ended : Stops (.gave []) (.error .endOfStream)

end Visit

def told (visits : List (Visit C)) : List C :=
  visits.flatMap Visit.samples

theorem told_append (visits later : List (Visit C)) :
    told (visits ++ later) = told visits ++ told later :=
  List.flatMap_append

theorem Visit.Stops.samples {last : Visit C} {failure : Failure} (stops : last.Stops failure) :
    last.samples = [] := by
  cases stops <;> rfl

/-- The samples number `count` to `count + size` that a source has given. -/
def cut (count size : Nat) (visits : List (Visit C)) : Array C :=
  (((told visits).drop count).take size).toArray

theorem told_prefix {visits later : List (Visit C)} (grown : visits <+: later) :
    told visits <+: told later := by
  obtain ⟨more, rfl⟩ := grown
  exact ⟨told more, (told_append visits more).symm⟩

theorem told_closed (visits : List (Visit C)) : told (visits ++ [.closed]) = told visits := by
  simp [told, Visit.samples]

theorem cut_of_prefix {visits later : List (Visit C)} {count size : Nat}
    (grown : told visits <+: told later) (covered : count + size ≤ (told visits).length) :
    cut count size later = cut count size visits := by
  obtain ⟨more, whole⟩ := grown
  rw [cut, cut, ← whole, List.drop_append_of_le_length (by omega),
    List.take_append_of_le_length (by rw [List.length_drop]; omega)]

/-- The record of a source that has given `count` samples and done nothing else. -/
structure Given (count : Nat) (visits : List (Visit C)) : Prop where
  gave : ∀ visit ∈ visits, visit.Gives
  size : (told visits).length = count

/-- The record of a source that was to give `count` samples and did not, and the failure that this
counts as. -/
structure Stalled (count : Nat) (failure : Failure) (visits : List (Visit C)) : Prop where
  lacks : (told visits).length < count
  stops : ∃ earlier last, visits = earlier ++ [last] ∧ (∀ visit ∈ earlier, visit.Gives) ∧
    last.Stops failure

theorem Given.size_cut {count size : Nat} {visits : List (Visit C)}
    (given : Given (count + size) visits) : (cut count size visits).size = size := by
  rw [cut, List.size_toArray, List.length_take, List.length_drop, given.size]
  omega

theorem Visit.Gives.ne_closed {visit : Visit C} (gives : visit.Gives) : visit ≠ .closed := by
  rintro rfl
  exact gives

theorem Given.opened {count : Nat} {visits : List (Visit C)} (given : Given count visits) :
    .closed ∉ visits :=
  fun member => (given.gave _ member).ne_closed rfl

theorem Stalled.opened {count : Nat} {failure : Failure} {visits : List (Visit C)}
    (stalled : Stalled count failure visits) : .closed ∉ visits := by
  obtain ⟨earlier, last, rfl, gave, stops⟩ := stalled.stops
  intro member
  rcases List.mem_append.mp member with before | after
  · exact (gave _ before).ne_closed rfl
  · obtain rfl := List.mem_singleton.mp after
    cases stops

theorem Stalled.broken {count : Nat} {visits : List (Visit C)}
    (stalled : Stalled count .fault visits) : .failed .fault ∈ visits := by
  obtain ⟨earlier, last, rfl, _, stops⟩ := stalled.stops
  cases stops
  simp

def Buffer.front (buffer : Buffer C) (count : Nat) : List C :=
  match buffer with
  | .complex held => (held.extract 0 count).toList
  | _ => []

@[simp] theorem Buffer.front_complex (held : Array C) (count : Nat) :
    (Buffer.complex held).front count = (held.extract 0 count).toList :=
  rfl

def Reading.visit (reading : Reading ρ C) : Visit C :=
  match reading.outcome, reading.view with
  | .error failure, _ => .failed failure
  | .ok count, .complex view => .gave (view.extract 0 count).toList
  | .ok _, _ => .gave []

namespace Source

variable {honest : ρ → Prop} {log : ρ → List (Visit C)}

inductive Filled (log : ρ → List (Visit C)) (source : ρ) (size : Nat) (front : List C) :
    Reading ρ C → Prop where
  | full {next : ρ} {signals : Signals} {count : Nat} {view : Array C} {visits : List (Visit C)}
      (whole : view.size = size) (stored : view.toList = front ++ told visits)
      (gave : ∀ visit ∈ visits, visit.Gives) (logged : log next = log source ++ visits) :
      Filled log source size front ⟨.ok count, .complex view, next, signals⟩
  | short {next : ρ} {signals : Signals} {failure : Failure} {view : Array C}
      {visits : List (Visit C)} {last : Visit C} (whole : view.size = size)
      (lacks : (front ++ told visits).length < size) (gave : ∀ visit ∈ visits, visit.Gives)
      (stops : last.Stops failure) (logged : log next = log source ++ (visits ++ [last])) :
      Filled log source size front ⟨.error failure, .complex view, next, signals⟩

theorem Filled.after_gave {size : Nat} {source next : ρ} {front samples : List C}
    {reading : Reading ρ C} (filled : Filled log next size (front ++ samples) reading)
    (logged : log next = log source ++ [.gave samples]) : Filled log source size front reading := by
  have gives (visits : List (Visit C)) (gave : ∀ visit ∈ visits, visit.Gives) :
      ∀ visit ∈ Visit.gave samples :: visits, visit.Gives := by
    simpa [Visit.Gives] using gave
  cases filled with
  | @full last signals count view visits whole stored gave later =>
      refine .full whole ?_ (gives visits gave) (by rw [later, logged, List.append_assoc]; rfl)
      rw [stored, List.append_assoc]
      rfl
  | @short last signals failure view visits stop whole lacks gave stops later =>
      refine .short whole ?_ (gives visits gave) stops ?_
      · rw [List.append_assoc] at lacks
        exact lacks
      · rw [later, logged, List.append_assoc]
        rfl

theorem Filled.given {size count : Nat} {source : ρ} {reading : Reading ρ C}
    (filled : Filled log source size [] reading) (given : Given count (log source)) {stored : Nat}
    (full : reading.outcome = .ok stored) :
    Given (count + size) (log reading.source) ∧
      reading.view = .complex (cut count size (log reading.source)) := by
  cases filled with
  | short => cases full
  | @full next signals stored view visits whole held gave logged =>
      have counted : (told visits).length = size := by
        rw [← whole, ← Array.length_toList, held]
        rfl
      have same : cut count size (log next) = view := by
        rw [cut, logged, told_append, List.drop_left' given.size, ← counted, List.take_length]
        exact congrArg List.toArray held.symm
      refine ⟨⟨?_, ?_⟩, by rw [same]⟩
      · rw [logged]
        exact List.forall_mem_append.mpr ⟨given.gave, gave⟩
      · rw [logged, told_append, List.length_append, given.size, counted]

theorem Filled.stalled {size count : Nat} {source : ρ} {reading : Reading ρ C}
    (filled : Filled log source size [] reading) (given : Given count (log source))
    {failure : Failure} (short : reading.outcome = .error failure) :
    Stalled (count + size) failure (log reading.source) := by
  cases filled with
  | full => cases short
  | @short next signals failure view visits last whole lacks gave stops logged =>
      cases short
      refine ⟨?_, log source ++ visits, last, by rw [logged, List.append_assoc],
        List.forall_mem_append.mpr ⟨given.gave, gave⟩, stops⟩
      have nothing : told [last] = [] := by simp [told, stops.samples]
      rw [logged, told_append, told_append, nothing, List.append_nil, List.length_append,
        given.size]
      exact Nat.add_lt_add_left lacks count

theorem Filled.view {size : Nat} {source : ρ} {front : List C} {reading : Reading ρ C}
    (filled : Filled log source size front reading) :
    ∃ view, reading.view = .complex view ∧ view.size = size := by
  cases filled with
  | full whole => exact ⟨_, rfl, whole⟩
  | short whole => exact ⟨_, rfl, whole⟩

theorem Filled.logged {size : Nat} {source : ρ} {front : List C} {reading : Reading ρ C}
    (filled : Filled log source size front reading) :
    ∃ visits, log reading.source = log source ++ visits := by
  cases filled with
  | full _ _ _ logged => exact ⟨_, logged⟩
  | short _ _ _ _ logged => exact ⟨_, logged⟩

/-- A member of several sources, all of which had given `count` samples and were asked for `size`
more each. -/
structure Answered (honest : ρ → Prop) (log : ρ → List (Visit C)) (count size : Nat)
    (reading : Reading ρ C) : Prop where
  trusted : honest reading.source
  view : ∃ view, reading.view = .complex view ∧ view.size = size
  full {stored : Nat} (full : reading.outcome = .ok stored) :
    Given (count + size) (log reading.source) ∧
      reading.view = .complex (cut count size (log reading.source))
  short {failure : Failure} (short : reading.outcome = .error failure) :
    Stalled (count + size) failure (log reading.source)

theorem Filled.answered {size count : Nat} {source : ρ} {reading : Reading ρ C}
    (filled : Filled log source size [] reading) (given : Given count (log source))
    (trusted : honest reading.source) : Answered honest log count size reading where
  trusted := trusted
  view := filled.view
  full := filled.given given
  short := filled.stalled given

theorem Answered.opened {count size : Nat} {reading : Reading ρ C}
    (answered : Answered honest log count size reading) : .closed ∉ log reading.source := by
  cases outcome : reading.outcome with
  | ok stored => exact (answered.full outcome).1.opened
  | error failure => exact (answered.short outcome).opened

theorem fault_of_jointOutcome {stage : Stage} {outcomes : List (Outcome Nat)}
    (joint : jointOutcome stage outcomes = .error .fault) : .error .fault ∈ outcomes := by
  by_cases broken : outcomes.any faulted = true
  · obtain ⟨outcome, member, fault⟩ := List.any_eq_true.mp broken
    rcases outcome with (cause | _) | count
    · cases fault
    · exact member
    · cases fault
  · rw [jointOutcome, if_neg broken] at joint
    -- The index that errors are counted from is another in every step.
    have first : ∀ index, firstError stage index outcomes = .error .fault →
        .error .fault ∈ outcomes := by
      clear joint broken
      induction outcomes with
      | nil => exact fun _ => nofun
      | cons outcome outcomes ih =>
          intro index found
          rcases outcome with (cause | _) | count
          · cases found
          · exact List.mem_cons_self
          · exact List.mem_cons_of_mem _ (ih _ found)
    exact first 0 joint

theorem first_of_jointOutcome {stage : Stage} {outcomes : List (Outcome Nat)} {cause : Error}
    (joint : jointOutcome stage outcomes = .error (.error cause)) :
    ∃ earlier source later, outcomes = earlier ++ .error (.error source) :: later ∧
      (∀ outcome ∈ earlier, ∃ count, outcome = .ok count) ∧
      cause = .stream earlier.length stage source := by
  have first : ∀ index, firstError stage index outcomes = .error (.error cause) →
      ∃ earlier source later, outcomes = earlier ++ .error (.error source) :: later ∧
        (∀ outcome ∈ earlier, ∃ count, outcome = .ok count) ∧
        cause = .stream (index + earlier.length) stage source := by
    clear joint
    induction outcomes with
    | nil => exact fun _ => nofun
    | cons outcome outcomes ih =>
        intro index found
        rcases outcome with (source | _) | count
        · cases found
          exact ⟨[], source, outcomes, rfl, nofun, rfl⟩
        · cases found
        · obtain ⟨earlier, source, later, rfl, stored, rfl⟩ := ih _ found
          refine ⟨.ok count :: earlier, source, later, rfl, ?_, ?_⟩
          · exact List.forall_mem_cons.mpr ⟨⟨count, rfl⟩, stored⟩
          · rw [List.length_cons, Nat.add_right_comm, Nat.add_assoc]
  unfold jointOutcome at joint
  split at joint
  · cases joint
  · simpa using first 0 joint

/-- What several sources that were asked for their samples number `count` to `count + size` have
come to. -/
inductive Gathered (log : ρ → List (Visit C)) (stage : Stage) (count size : Nat) (sources : List ρ)
    (buffers : List (Buffer C)) : Outcome Unit → Prop where
  | filled (given : ∀ source ∈ sources, Given (count + size) (log source))
      (held : buffers = sources.map fun source => .complex (cut count size (log source))) :
      Gathered log stage count size sources buffers (.ok ())
  | stalled {earlier later : List ρ} {source : ρ} {cause : Error}
      (split : sources = earlier ++ source :: later)
      (given : ∀ source ∈ earlier, Given (count + size) (log source))
      (stalled : Stalled (count + size) (.error cause) (log source)) :
      Gathered log stage count size sources buffers
        (.error (.error (.stream earlier.length stage cause)))
  | broken {source : ρ} (member : source ∈ sources)
      (stalled : Stalled (count + size) .fault (log source)) :
      Gathered log stage count size sources buffers (.error .fault)

theorem Answered.gathered {readings : List (Reading ρ C)} {count size : Nat}
    (answered : ∀ reading ∈ readings, Answered honest log count size reading) (stage : Stage) :
    Gathered log stage count size (readings.map Reading.source) (readings.map Reading.view)
      (jointOutcome stage (readings.map Reading.outcome)) := by
  rcases joint : jointOutcome stage (readings.map Reading.outcome) with (cause | _) | _
  · obtain ⟨earlier, source, later, split, stored, rfl⟩ := first_of_jointOutcome joint
    obtain ⟨before, after, rfl, rfl, rest⟩ := List.map_eq_append_iff.mp split
    obtain ⟨reading, others, rfl, failed, rfl⟩ := List.map_eq_cons_iff.mp rest
    have given : ∀ source ∈ before.map Reading.source, Given (count + size) (log source) := by
      refine List.forall_mem_map.mpr fun earlier member => ?_
      obtain ⟨count, full⟩ := stored _ (List.mem_map_of_mem member)
      exact ((answered earlier (List.mem_append_left _ member)).full full).1
    have index : (before.map Reading.outcome).length = (before.map Reading.source).length := by simp
    rw [index]
    exact .stalled (by rw [List.map_append, List.map_cons]) given
      ((answered reading (by simp)).short failed)
  · obtain ⟨reading, member, broken⟩ := List.mem_map.mp (fault_of_jointOutcome joint)
    exact .broken (List.mem_map_of_mem member) ((answered reading member).short broken)
  · have full (reading : Reading ρ C) (member : reading ∈ readings) :
        Given (count + size) (log reading.source) ∧
          reading.view = .complex (cut count size (log reading.source)) := by
      obtain ⟨stored, full⟩ := jointOutcome_ok_iff.mp joint _ (List.mem_map_of_mem member)
      exact (answered reading member).full full
    refine .filled ?_ ?_
    · exact List.forall_mem_map.mpr fun reading member => (full reading member).1
    · rw [List.map_map]
      exact List.map_congr_left fun reading member => (full reading member).2

variable [Source ρ C]

/-- Honest sources of complex samples. A view is lent to a read, which answers at most as many
samples as the view holds; everything else about the answers is free. -/
structure Lends (honest : ρ → Prop) : Prop where
  view {source : ρ} (trusted : honest source) (out : Array C) :
    ∃ view, (Source.read source (.complex out)).view = .complex view ∧ view.size = out.size
  bounded {source : ρ} (trusted : honest source) {out : Array C} {count : Nat}
    (stored : (Source.read source (.complex out)).outcome = .ok count) : count ≤ out.size
  read {source : ρ} (trusted : honest source) (out : Array C) :
    honest (Source.read source (.complex out)).source
  close {source : ρ} (trusted : honest source) : honest (Source.close (C := C) source).2

structure Logs (honest : ρ → Prop) (log : ρ → List (Visit C)) : Prop extends
    Lends (C := C) honest where
  logRead {source : ρ} (trusted : honest source) (out : Array C) :
    log (Source.read source (.complex out)).source =
      log source ++ [(Source.read source (.complex out)).visit]
  logClose {source : ρ} (trusted : honest source) :
    log (Source.close (C := C) source).2 = log source ++ [.closed]

theorem Lends.stored_view (lends : Lends (C := C) honest) {source : ρ} (trusted : honest source)
    {held : Array C} {stored : Nat} (within : stored ≤ held.size) :
    ∃ view : Array C,
      (Source.read source ((Buffer.complex held).drop stored)).view = .complex view ∧
      ((Buffer.complex held).take stored).append
        (Source.read source ((Buffer.complex held).drop stored)).view =
          .complex (held.extract 0 stored ++ view) ∧
      (held.extract 0 stored ++ view).size = held.size := by
  obtain ⟨view, same, size⟩ := lends.view trusted (held.extract stored held.size)
  have viewed : (Source.read source ((Buffer.complex held).drop stored)).view = .complex view :=
    same
  refine ⟨view, viewed, by rw [viewed]; rfl, ?_⟩
  rw [Array.size_append, size, Array.size_extract, Array.size_extract]
  omega

theorem Logs.fillFrom_filled (logs : Logs honest log) {size stored : Nat} {source : ρ}
    {buffer : Buffer C} (signals : Signals)
    (shape : ∃ held, buffer = .complex held ∧ held.size = size) (trusted : honest source)
    (within : stored ≤ size) :
    Filled log source size (buffer.front stored) (fillFrom size source buffer stored signals) ∧
      honest (fillFrom size source buffer stored signals).source := by
  have silent : ∀ visit ∈ ([] : List (Visit C)), visit.Gives := nofun
  fun_induction fillFrom size source buffer stored signals with
  | case1 source buffer stored signals room reading next merged failure outcome =>
      obtain ⟨held, rfl, whole⟩ := shape
      obtain ⟨view, viewed, kept, fits⟩ := logs.stored_view trusted (whole ▸ within)
      have logged := logs.logRead trusted (held.extract stored held.size)
      have visit : reading.visit = .failed failure := by simp only [Reading.visit, outcome]
      change next = _ at kept
      rw [kept]
      exact ⟨.short (fits.trans whole) (by simp [told, whole]; omega) silent (.failed failure)
        (logged.trans (by rw [← visit]; rfl)), logs.read trusted _⟩
  | case2 source buffer stored signals room reading next merged outcome =>
      obtain ⟨held, rfl, whole⟩ := shape
      obtain ⟨view, viewed, kept, fits⟩ := logs.stored_view trusted (whole ▸ within)
      have logged := logs.logRead trusted (held.extract stored held.size)
      have visit : reading.visit = .gave [] := by
        change reading.view = _ at viewed
        simp [Reading.visit, outcome, viewed]
      change next = _ at kept
      rw [kept]
      exact ⟨.short (fits.trans whole) (by simp [told, whole]; omega) silent .ended
        (logged.trans (by rw [← visit]; rfl)), logs.read trusted _⟩
  | case3 source buffer stored signals room reading next merged more outcome ih =>
      obtain ⟨held, rfl, whole⟩ := shape
      obtain ⟨view, viewed, kept, fits⟩ := logs.stored_view trusted (whole ▸ within)
      have logged := logs.logRead trusted (held.extract stored held.size)
      have visit : reading.visit = .gave (view.extract 0 (more + 1)).toList := by
        change reading.view = _ at viewed
        simp [Reading.visit, outcome, viewed]
      have bounded := logs.bounded trusted outcome
      rw [Array.size_extract] at bounded
      obtain ⟨filled, later⟩ := ih ⟨_, kept, fits.trans whole⟩ (logs.read trusted _) (by omega)
      change next = _ at kept
      -- What this read gave stands right behind what was stored before it.
      have front : next.front (stored + (more + 1)) =
          (held.extract 0 stored).toList ++ (view.extract 0 (more + 1)).toList := by
        have held : (held.extract 0 stored).size = stored := by simp; omega
        rw [kept, Buffer.front_complex, Array.extract_append, held, Array.toList_append]
        simp
      rw [front] at filled
      exact ⟨filled.after_gave (logged.trans (by rw [← visit]; rfl)), later⟩
  | case4 source buffer stored signals full =>
      obtain ⟨held, rfl, whole⟩ := shape
      obtain rfl : stored = held.size := by omega
      exact ⟨.full whole (by simp [told]) silent (List.append_nil _).symm, trusted⟩

theorem Logs.fill_filled (logs : Logs honest log) {source : ρ} (trusted : honest source)
    (out : Array C) :
    Filled log source out.size [] (fill source (.complex out)) ∧
      honest (fill source (.complex out)).source := by
  have filled := logs.fillFrom_filled .none ⟨out, rfl, rfl⟩ trusted (Nat.zero_le out.size)
  rwa [show (Buffer.complex out).front 0 = [] by simp] at filled

theorem Logs.fill_each (logs : Logs honest log) {sources : List ρ} {buffers : List (Buffer C)}
    {count size : Nat} (trusted : ∀ source ∈ sources, honest source)
    (given : ∀ source ∈ sources, Given count (log source))
    (paired : sources.length = buffers.length)
    (shapes : ∀ buffer ∈ buffers, ∃ held, buffer = .complex held ∧ held.size = size) :
    List.Forall₂ (fun source reading =>
      Answered honest log count size reading ∧ log source <+: log reading.source)
      sources (List.zipWith fill sources buffers) := by
  induction sources generalizing buffers with
  | nil => exact .nil
  | cons source sources ih =>
      cases buffers with
      | nil => cases paired
      | cons buffer buffers =>
          obtain ⟨honestFirst, honestRest⟩ := List.forall_mem_cons.mp trusted
          obtain ⟨givenFirst, givenRest⟩ := List.forall_mem_cons.mp given
          obtain ⟨⟨out, same, fits⟩, shapes⟩ := List.forall_mem_cons.mp shapes
          obtain ⟨filled, kept⟩ := logs.fill_filled honestFirst out
          rw [← same, fits] at filled
          rw [← same] at kept
          obtain ⟨visits, logged⟩ := filled.logged
          exact .cons ⟨filled.answered givenFirst kept, visits, logged.symm⟩
            (ih honestRest givenRest (Nat.succ.inj paired) shapes)

theorem Logs.fillAll_answered (logs : Logs honest log) (stage : Stage) {sources : List ρ}
    {buffers : List (Buffer C)} {count size : Nat} (trusted : ∀ source ∈ sources, honest source)
    (given : ∀ source ∈ sources, Given count (log source))
    (paired : sources.length = buffers.length)
    (shapes : ∀ buffer ∈ buffers, ∃ held, buffer = .complex held ∧ held.size = size) :
    ∃ readings : List (Reading ρ C),
      (∀ reading ∈ readings, Answered honest log count size reading) ∧
      List.Forall₂ (fun source reading => log source <+: log reading.source) sources readings ∧
      (fillAll stage sources buffers).outcome =
        jointOutcome stage (readings.map Reading.outcome) ∧
      (fillAll stage sources buffers).sources = readings.map Reading.source ∧
      (fillAll stage sources buffers).buffers = readings.map Reading.view := by
  have each := logs.fill_each trusted given paired shapes
  have answered := ((List.forall₂_and_left _ _).mp each.flip).1
  rw [fillAll, if_pos paired]
  exact ⟨_, answered, each.imp fun _ _ both => both.2, rfl, rfl, rfl⟩

theorem sources_closeAll (sources : List ρ) :
    (closeAll (C := C) sources).2 = sources.map fun source => (Source.close (C := C) source).2 := by
  simp [closeAll]

end Source

structure Logged (ρ C : Type) where
  inner : ρ
  visits : List (Visit C)

namespace Logged

variable [Source ρ C]

def ofSource (source : ρ) : Logged ρ C :=
  ⟨source, []⟩

instance : Source (Logged ρ C) C where
  format logged := Source.format logged.inner
  rate logged := Source.rate logged.inner
  read logged view :=
    let reading := Source.read logged.inner view
    ⟨reading.outcome, reading.view, ⟨reading.source, logged.visits ++ [reading.visit]⟩,
      reading.signals⟩
  close logged :=
    let (result, inner) := Source.close (C := C) logged.inner
    (result, ⟨inner, logged.visits ++ [.closed]⟩)

theorem logs_visits {honest : ρ → Prop} (lends : Source.Lends (C := C) honest) :
    Source.Logs (fun logged : Logged ρ C => honest logged.inner) visits where
  view trusted out := lends.view trusted out
  bounded trusted := lends.bounded trusted
  read trusted out := lends.read trusted out
  close trusted := lends.close trusted
  logRead _ _ := rfl
  logClose _ := rfl

end Logged

namespace Scripted

def Sincere (source : Scripted C) : Prop :=
  (∃ samples, source.script.samples = .complex samples) ∧ source.script.overclaim = 0

theorem lends_sincere : Source.Lends (C := C) (Sincere : Scripted C → Prop) where
  view sincere out := (keeps_read sincere.2 (.complex out)).complex
  bounded sincere := (keeps_read sincere.2 _).bounded
  read {source} sincere out := by
    change Sincere (source.read (.complex out)).source
    rwa [Sincere, script_read]
  close sincere := sincere

end Scripted

end Wideband
