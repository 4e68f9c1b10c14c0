import Wideband.Proofs.Source.Cutting
import Wideband.Proofs.Source.Logged
import Wideband.Sample.Complex32

namespace Wideband

/-!
Several sources that are read at once. Each has a lane of its own, in which it is read until its
buffer is full or a read fails, and the reads of the lanes follow each other in any order
(`Interleaves`). What is still to come in a lane depends on that lane alone, so every order comes to
the same end: what filling the buffers one after the other makes of them
(`Source.order_independent`).
-/

variable {ρ C : Type}

def Reading.stored (reading : Reading ρ C) : ℕ :=
  match reading.outcome with
  | .ok count => count
  | .error _ => 0

/-- A buffer into which the given reads were made. Each of them leaves its view behind, of which the
next one gets the part that has no samples yet. -/
def written : List (Reading ρ C) → Buffer C → Buffer C
  | [], buffer => buffer
  | reading :: later, _ =>
      (reading.view.take reading.stored).append
        (written later (reading.view.drop reading.stored))

theorem written_last {reading : Reading ρ C} (nothing : reading.stored = 0) (buffer : Buffer C) :
    written [reading] buffer = reading.view := by
  rw [written, written, nothing, Buffer.append_take_drop]

namespace Source

inductive Verdict (stage : Stage) (readings : List (Reading ρ C)) : Outcome Unit → Prop where
  | filled (every : ∀ reading ∈ readings, ∃ count, reading.outcome = .ok count) :
      Verdict stage readings (.ok ())
  | failed {index : ℕ} {reading : Reading ρ C} {cause : Error}
      (whole : ∀ reading ∈ readings, reading.outcome ≠ .error .fault)
      (found : readings[index]? = some reading)
      (own : reading.outcome = .error (.error cause))
      (lowest : ∀ earlier < index, ∀ other, readings[earlier]? = some other →
        ∃ count, other.outcome = .ok count) :
      Verdict stage readings (.error (.error (.stream index stage cause)))
  | broken {reading : Reading ρ C} (member : reading ∈ readings)
      (own : reading.outcome = .error .fault) : Verdict stage readings (.error .fault)

theorem verdict_jointOutcome (stage : Stage) (readings : List (Reading ρ C)) :
    Verdict stage readings (jointOutcome stage (readings.map Reading.outcome)) := by
  rcases joint : jointOutcome stage (readings.map Reading.outcome) with (cause | _) | _
  · have whole : ∀ reading ∈ readings, reading.outcome ≠ .error .fault := by
      intro reading member broken
      have any : (readings.map Reading.outcome).any faulted = true :=
        List.any_eq_true.mpr ⟨_, List.mem_map_of_mem member, by rw [broken]; rfl⟩
      rw [jointOutcome, if_pos any] at joint
      cases joint
    obtain ⟨earlier, source, later, split, stored, rfl⟩ := first_of_jointOutcome joint
    obtain ⟨before, after, rfl, rfl, rest⟩ := List.map_eq_append_iff.mp split
    obtain ⟨reading, others, rfl, own, rfl⟩ := List.map_eq_cons_iff.mp rest
    rw [List.length_map]
    refine .failed whole (by simp) own fun index lower other found => ?_
    rw [List.getElem?_append_left lower] at found
    exact stored _ (List.mem_map_of_mem (List.mem_of_getElem? found))
  · obtain ⟨reading, member, own⟩ := List.mem_map.mp (fault_of_jointOutcome joint)
    exact .broken member own
  · refine .filled fun reading member => ?_
    exact jointOutcome_ok_iff.mp joint _ (List.mem_map_of_mem member)

variable [Source ρ C]

/-- A view is lent to a read, which can change neither its size nor its format. -/
structure Borrows (ρ : Type) {C : Type} [Source ρ C] : Prop where
  size (source : ρ) (view : Buffer C) : (Source.read source view).view.size = view.size
  format (source : ρ) (view : Buffer C) : (Source.read source view).view.format = view.format

def readsFrom (size : ℕ) (source : ρ) (buffer : Buffer C) (stored : ℕ) : List (Reading ρ C) :=
  if stored < size then
    let reading := Source.read source (buffer.drop stored)
    if reading.stored = 0 then [reading]
    else
      reading :: readsFrom size reading.source ((buffer.take stored).append reading.view)
        (stored + reading.stored)
  else []
termination_by size - stored
decreasing_by
  exact Nat.sub_lt_sub_left ‹stored < size›
    (Nat.lt_add_of_pos_right (Nat.pos_of_ne_zero ‹¬ reading.stored = 0›))

def reads (source : ρ) (buffer : Buffer C) : List (Reading ρ C) :=
  readsFrom buffer.size source buffer 0

section Reads

variable {size stored : ℕ} {source : ρ} {buffer : Buffer C}

theorem readsFrom_last (room : stored < size)
    (nothing : (Source.read source (buffer.drop stored)).stored = 0) :
    readsFrom size source buffer stored = [Source.read source (buffer.drop stored)] := by
  rw [readsFrom, if_pos room]
  exact if_pos nothing

theorem readsFrom_onward (room : stored < size) {more : ℕ}
    (some : (Source.read source (buffer.drop stored)).stored = more + 1) :
    readsFrom size source buffer stored = Source.read source (buffer.drop stored) ::
      readsFrom size (Source.read source (buffer.drop stored)).source
        ((buffer.take stored).append (Source.read source (buffer.drop stored)).view)
        (stored + (more + 1)) := by
  rw [readsFrom, if_pos room, ← some]
  exact if_neg (by omega)

theorem fillFrom_written (borrows : Borrows (C := C) ρ) {signals : Signals} (whole : buffer.size = size) :
    (fillFrom size source buffer stored signals).view =
      (buffer.take stored).append
        (written (readsFrom size source buffer stored) (buffer.drop stored)) := by
  fun_induction fillFrom size source buffer stored signals with
  | case1 source buffer stored signals room reading next merged failure outcome =>
      have nothing : reading.stored = 0 := by rw [Reading.stored, outcome]
      rw [readsFrom_last room nothing, written_last nothing]
  | case2 source buffer stored signals room reading next merged outcome =>
      have nothing : reading.stored = 0 := by rw [Reading.stored, outcome]
      rw [readsFrom_last room nothing, written_last nothing]
  | case3 source buffer stored signals room reading next merged more outcome ih =>
      have some : reading.stored = more + 1 := by rw [Reading.stored, outcome]
      have same : (buffer.take stored).format = reading.view.format := by
        rw [borrows.format, Buffer.format_take, Buffer.format_drop]
      have full : (buffer.take stored).size = stored := by
        rw [Buffer.size_take]
        omega
      have kept : next.size = size := by
        rw [Buffer.size_append same, borrows.size, Buffer.size_drop, full]
        omega
      have front := Buffer.take_append_behind same (more + 1)
      have rest := Buffer.drop_append_behind same (more + 1)
      rw [full] at front rest
      rw [ih kept, front, rest, readsFrom_onward room some, written, some,
        Buffer.append_assoc (by rw [same, Buffer.format_take])]
  | case4 source buffer stored signals full =>
      rw [readsFrom, if_neg full, written, Buffer.append_take_drop]

theorem fill_written (borrows : Borrows (C := C) ρ) (source : ρ) (buffer : Buffer C) :
    (fill source buffer).view = written (reads source buffer) buffer := by
  have format : buffer.format = (written (reads source buffer) buffer).format := by
    rw [reads, readsFrom]
    split
    · dsimp only
      split <;>
        rw [written, Buffer.format_append, Buffer.format_take, borrows.format, Buffer.format_drop]
    · rfl
  rw [fill, fillFrom_written borrows rfl, buffer.drop_zero]
  exact Buffer.append_take_zero format

end Reads

end Source

structure Filling (ρ C : Type) where
  size : ℕ
  source : ρ
  buffer : Buffer C
  /-- Number of samples that are there already. -/
  stored : ℕ
  signals : Signals
  room : stored < size

inductive Lane (ρ C : Type) where
  | busy (filling : Filling ρ C)
  | done (reading : Reading ρ C)

namespace Lane

def resume (size : ℕ) (source : ρ) (buffer : Buffer C) (stored : ℕ) (signals : Signals) :
    Lane ρ C :=
  if room : stored < size then .busy ⟨size, source, buffer, stored, signals, room⟩
  else .done ⟨.ok stored, buffer, source, signals⟩

def start (source : ρ) (buffer : Buffer C) : Lane ρ C :=
  resume buffer.size source buffer 0 .none

theorem done_or_busy (lanes : List (Lane ρ C)) :
    (∃ readings : List (Reading ρ C), lanes = readings.map .done) ∨
      ∃ (index : ℕ) (filling : Filling ρ C), lanes[index]? = some (.busy filling) := by
  induction lanes with
  | nil => exact .inl ⟨[], rfl⟩
  | cons lane lanes ih =>
      cases lane with
      | busy filling => exact .inr ⟨0, filling, rfl⟩
      | done reading =>
          rcases ih with ⟨readings, rfl⟩ | ⟨index, filling, busy⟩
          · exact .inl ⟨reading :: readings, rfl⟩
          · exact .inr ⟨index + 1, filling, busy⟩

end Lane

variable [Source ρ C]

namespace Filling

def read (filling : Filling ρ C) : Reading ρ C :=
  Source.read filling.source (filling.buffer.drop filling.stored)

def next (filling : Filling ρ C) : Lane ρ C :=
  let reading := filling.read
  let buffer := (filling.buffer.take filling.stored).append reading.view
  let signals := filling.signals.and reading.signals
  match reading.outcome with
  | .error failure => .done ⟨.error failure, buffer, reading.source, signals⟩
  | .ok 0 => .done ⟨.fail .endOfStream, buffer, reading.source, signals⟩
  | .ok (more + 1) =>
      .resume filling.size reading.source buffer (filling.stored + (more + 1)) signals

end Filling

namespace Lane

/-- What the lane comes to when nothing but its own reads is done. -/
def alone : Lane ρ C → Reading ρ C
  | .busy filling =>
      Source.fillFrom filling.size filling.source filling.buffer filling.stored filling.signals
  | .done reading => reading

/-- The reads that are still to come when nothing else is done. -/
def toCome : Lane ρ C → List (Reading ρ C)
  | .busy filling =>
      Source.readsFrom filling.size filling.source filling.buffer filling.stored
  | .done _ => []

variable {size stored : ℕ} {source : ρ} {buffer : Buffer C} {signals : Signals}

theorem alone_resume : (resume size source buffer stored signals).alone =
    Source.fillFrom size source buffer stored signals := by
  unfold resume
  split
  · rfl
  · rename_i full
    rw [Source.fillFrom, if_neg full]
    rfl

theorem toCome_resume : (resume size source buffer stored signals).toCome =
    Source.readsFrom size source buffer stored := by
  unfold resume
  split
  · rfl
  · rename_i full
    rw [Source.readsFrom, if_neg full]
    rfl

theorem alone_next (filling : Filling ρ C) : filling.next.alone = (busy filling).alone := by
  change _ = Source.fillFrom filling.size filling.source filling.buffer filling.stored _
  rw [Source.fillFrom, if_pos filling.room]
  rcases outcome : (Source.read filling.source (filling.buffer.drop filling.stored)).outcome with
    failure | _ | more
  · simp only [Filling.next, Filling.read, outcome, alone]
  · simp only [Filling.next, Filling.read, outcome, alone]
  · simp only [Filling.next, Filling.read, outcome, alone_resume]

theorem toCome_busy (filling : Filling ρ C) :
    (busy filling).toCome = filling.read :: filling.next.toCome := by
  rcases outcome : filling.read.outcome with failure | _ | more
  · have nothing : filling.read.stored = 0 := by rw [Reading.stored, outcome]
    rw [Filling.next, outcome]
    exact Source.readsFrom_last filling.room nothing
  · have nothing : filling.read.stored = 0 := by rw [Reading.stored, outcome]
    rw [Filling.next, outcome]
    exact Source.readsFrom_last filling.room nothing
  · have some : filling.read.stored = more + 1 := by rw [Reading.stored, outcome]
    rw [Filling.next, outcome]
    dsimp only
    rw [toCome_resume]
    exact Source.readsFrom_onward filling.room some

def due (lanes : List (Lane ρ C)) : ℕ :=
  (lanes.flatMap toCome).length

theorem due_set {lanes : List (Lane ρ C)} {index : ℕ} {filling : Filling ρ C}
    (busy : lanes[index]? = some (.busy filling)) :
    due (lanes.set index filling.next) + 1 = due lanes := by
  induction lanes generalizing index with
  | nil => cases busy
  | cons lane lanes ih =>
      cases index with
      | zero =>
          obtain rfl : lane = .busy filling := Option.some.inj busy
          simp only [due, List.set_cons_zero, List.flatMap_cons, List.length_append, toCome_busy,
            List.length_cons]
          omega
      | succ index =>
          have rest := ih busy
          simp only [due, List.set_cons_succ, List.flatMap_cons, List.length_append] at rest ⊢
          omega

end Lane

def callsOf (index : ℕ) (calls : List (ℕ × Reading ρ C)) : List (Reading ρ C) :=
  calls.filterMap fun call => if call.1 = index then some call.2 else none

/-- Reads of several lanes that follow each other in some order, each with the index of its lane, and
the lanes after them. -/
inductive Interleaves (start : List (Lane ρ C)) :
    List (ℕ × Reading ρ C) → List (Lane ρ C) → Prop where
  | start : Interleaves start [] start
  | read {calls : List (ℕ × Reading ρ C)} {lanes : List (Lane ρ C)} {index : ℕ}
      {filling : Filling ρ C} (earlier : Interleaves start calls lanes)
      (busy : lanes[index]? = some (.busy filling)) :
      Interleaves start (calls ++ [(index, filling.read)]) (lanes.set index filling.next)

namespace Interleaves

variable {start lanes : List (Lane ρ C)} {calls : List (ℕ × Reading ρ C)}

theorem alone (run : Interleaves start calls lanes) :
    lanes.map Lane.alone = start.map Lane.alone := by
  induction run with
  | start => rfl
  | @read calls lanes index filling earlier busy ih =>
      have kept : (lanes.map Lane.alone)[index]? = some filling.next.alone := by
        rw [List.getElem?_map, busy, Option.map_some, Lane.alone_next]
      obtain ⟨inside, same⟩ := List.getElem?_eq_some_iff.mp kept
      rw [List.map_set, ← same, List.set_getElem_self, ih]

theorem calls_toCome (run : Interleaves start calls lanes) (index : ℕ) :
    callsOf index calls ++ (lanes[index]?.map Lane.toCome).getD [] =
      (start[index]?.map Lane.toCome).getD [] := by
  induction run with
  | start => rfl
  | @read calls lanes place filling earlier busy ih =>
      obtain ⟨inside, same⟩ := List.getElem?_eq_some_iff.mp busy
      rw [← ih, callsOf, List.filterMap_append, List.append_assoc, List.getElem?_set, ← callsOf]
      congr 1
      by_cases here : place = index
      · subst here
        simp [inside, same, Lane.toCome_busy]
      · simp [here]

theorem length_calls (run : Interleaves start calls lanes) :
    calls.length + Lane.due lanes = Lane.due start := by
  induction run with
  | start => simp
  | @read calls lanes index filling earlier busy ih =>
      have spent := Lane.due_set busy
      rw [List.length_append, List.length_singleton]
      omega

theorem ends (run : Interleaves start calls lanes) :
    ∃ (more : List (ℕ × Reading ρ C)) (readings : List (Reading ρ C)),
      Interleaves start (calls ++ more) (readings.map .done) := by
  induction left : Lane.due lanes generalizing calls lanes with
  | zero =>
      rcases Lane.done_or_busy lanes with ⟨readings, rfl⟩ | ⟨index, filling, busy⟩
      · exact ⟨[], readings, by rwa [List.append_nil]⟩
      · have spent := Lane.due_set busy
        omega
  | succ count ih =>
      rcases Lane.done_or_busy lanes with ⟨readings, rfl⟩ | ⟨index, filling, busy⟩
      · exact ⟨[], readings, by rwa [List.append_nil]⟩
      · have spent := Lane.due_set busy
        obtain ⟨more, readings, later⟩ := ih (run.read busy) (by omega)
        rw [List.append_assoc] at later
        exact ⟨_, readings, later⟩

end Interleaves

namespace Source

def joined (stage : Stage) (readings : List (Reading ρ C)) : Gathering ρ C where
  outcome := jointOutcome stage (readings.map Reading.outcome)
  sources := readings.map Reading.source
  buffers := readings.map Reading.view
  signals := readings.foldl (fun signals reading => signals.and reading.signals) .none

/-- The ways in which reading several sources at once can go: the reads in their order, and what is
left behind when all sources have come to their end. -/
inductive Gathers (stage : Stage) (sources : List ρ) (buffers : List (Buffer C)) :
    List (ℕ × Reading ρ C) → Gathering ρ C → Prop where
  | refused (different : sources.length ≠ buffers.length) :
      Gathers stage sources buffers []
        ⟨.fail (.lengthMismatch [sources.length, buffers.length]), sources, buffers, .none⟩
  | joined {calls : List (ℕ × Reading ρ C)} {readings : List (Reading ρ C)}
      (paired : sources.length = buffers.length)
      (run : Interleaves (List.zipWith Lane.start sources buffers) calls (readings.map .done)) :
      Gathers stage sources buffers calls (joined stage readings)

structure OrderFree (stage : Stage) (sources : List ρ) (buffers : List (Buffer C))
    (calls : List (ℕ × Reading ρ C)) (left : Gathering ρ C) : Prop where
  /-- The same is left behind as when the buffers are filled one after the other. -/
  inTurn : left = fillAll stage sources buffers
  /-- Without a buffer for every source nothing is read. -/
  refused (different : sources.length ≠ buffers.length) : calls = [] ∧
    left = ⟨.fail (.lengthMismatch [sources.length, buffers.length]), sources, buffers, .none⟩
  /-- Every source is read as if it were alone, to the end, whatever becomes of the others. -/
  own (paired : sources.length = buffers.length) {index : ℕ} {source : ρ} {buffer : Buffer C}
    (listed : sources[index]? = some source) (beside : buffers[index]? = some buffer) :
    callsOf index calls = reads source buffer ∧
      left.sources[index]? = some (fill source buffer).source ∧
      left.buffers[index]? = some (fill source buffer).view
  /-- Into every buffer go the samples of its own source and no others. -/
  fed (borrows : Borrows (C := C) ρ) (paired : sources.length = buffers.length) {index : ℕ}
    {buffer : Buffer C} (beside : buffers[index]? = some buffer) :
    left.buffers[index]? = some (written (callsOf index calls) buffer)
  verdict (paired : sources.length = buffers.length) :
    Verdict stage (List.zipWith fill sources buffers) left.outcome

theorem alone_start (source : ρ) (buffer : Buffer C) :
    (Lane.start source buffer).alone = fill source buffer :=
  Lane.alone_resume

theorem toCome_start (source : ρ) (buffer : Buffer C) :
    (Lane.start source buffer).toCome = reads source buffer :=
  Lane.toCome_resume

theorem map_alone_start (sources : List ρ) (buffers : List (Buffer C)) :
    (List.zipWith Lane.start sources buffers).map Lane.alone =
      List.zipWith fill sources buffers := by
  rw [List.map_zipWith]
  simp only [alone_start]

theorem ended_eq {sources : List ρ} {buffers : List (Buffer C)}
    {calls : List (ℕ × Reading ρ C)} {readings : List (Reading ρ C)}
    (run : Interleaves (List.zipWith Lane.start sources buffers) calls (readings.map .done)) :
    readings = List.zipWith fill sources buffers := by
  have same := run.alone
  rw [map_alone_start, List.map_map] at same
  rw [← same]
  exact (List.map_id readings).symm

theorem callsOf_ended {sources : List ρ} {buffers : List (Buffer C)}
    {calls : List (ℕ × Reading ρ C)} {readings : List (Reading ρ C)}
    (run : Interleaves (List.zipWith Lane.start sources buffers) calls (readings.map .done))
    {index : ℕ} {source : ρ} {buffer : Buffer C} (listed : sources[index]? = some source)
    (beside : buffers[index]? = some buffer) : callsOf index calls = reads source buffer := by
  have whole := run.calls_toCome index
  have nothing : ((readings.map Lane.done)[index]?.map Lane.toCome).getD [] = [] := by
    cases found : readings[index]? <;> simp [found, Lane.toCome]
  have start : (List.zipWith Lane.start sources buffers)[index]? =
      some (.start source buffer) := by
    rw [List.getElem?_zipWith, listed, beside]
  rw [nothing, List.append_nil, start] at whole
  exact whole.trans (toCome_start source buffer)

theorem Gathers.orderFree {stage : Stage} {sources : List ρ} {buffers : List (Buffer C)}
    {calls : List (ℕ × Reading ρ C)} {left : Gathering ρ C}
    (gathers : Gathers stage sources buffers calls left) :
    OrderFree stage sources buffers calls left := by
  cases gathers with
  | refused different =>
      exact {
        inTurn := by rw [fillAll, if_neg different]
        refused := fun _ => ⟨rfl, rfl⟩
        own := fun paired => absurd paired different
        fed := fun _ paired => absurd paired different
        verdict := fun paired => absurd paired different }
  | @joined calls readings paired run =>
      obtain rfl := ended_eq run
      exact {
        inTurn := by rw [fillAll, if_pos paired]; rfl
        refused := fun different => absurd paired different
        own := fun _ _ _ _ listed beside => ⟨callsOf_ended run listed beside,
          by simp [Source.joined, List.getElem?_zipWith, listed, beside],
          by simp [Source.joined, List.getElem?_zipWith, listed, beside]⟩
        fed := by
          intro borrows _ index buffer beside
          obtain ⟨inside, _⟩ := List.getElem?_eq_some_iff.mp beside
          obtain ⟨source, listed⟩ : ∃ source, sources[index]? = some source :=
            ⟨_, List.getElem?_eq_getElem (paired ▸ inside)⟩
          rw [callsOf_ended run listed beside, ← fill_written borrows]
          simp [Source.joined, List.getElem?_zipWith, listed, beside]
        verdict := fun _ => verdict_jointOutcome stage _ }

/-- The order in which several sources are read does not matter. Whatever the order, it can be carried
on until every source has come to its end, no order goes on for ever, and all of them come to the same:
what filling the buffers one after the other makes of the sources. -/
theorem order_independent (stage : Stage) (sources : List ρ) (buffers : List (Buffer C)) :
    (∀ calls lanes, sources.length = buffers.length →
      Interleaves (List.zipWith Lane.start sources buffers) calls lanes →
        calls.length ≤ (List.zipWith reads sources buffers).flatten.length ∧
        ∃ more left, Gathers stage sources buffers (calls ++ more) left) ∧
      ∀ calls left, Gathers stage sources buffers calls left →
        OrderFree stage sources buffers calls left := by
  refine ⟨fun calls lanes paired run => ⟨?_, ?_⟩, fun calls left gathers => gathers.orderFree⟩
  · have total : Lane.due (List.zipWith Lane.start sources buffers) =
        (List.zipWith reads sources buffers).flatten.length := by
      rw [Lane.due, List.flatMap_def, List.map_zipWith]
      simp only [toCome_start]
    have spent := run.length_calls
    omega
  · obtain ⟨more, readings, later⟩ := run.ends
    exact ⟨more, _, .joined paired later⟩

def trio : List (Scripted Complex32) :=
  [.ofScript ⟨.complex #[.one, .zero, .one], 1000, some 2, false, none, none, 0, none, none, none,
      none⟩ 0,
    .ofScript ⟨.complex #[.one], 1000, none, false, none, none, 0, none, none, none, none⟩ 0,
    .ofScript ⟨.complex #[.one], 1000, none, false, some (0, .transform .closed), none, 0, none,
      none, none, none⟩ 0]

def vacant : List (Buffer Complex32) :=
  [.complex #[.zero, .zero, .zero], .complex #[.zero, .zero], .complex #[.zero]]

theorem order_independent_trio :
    ∃ calls left, Gathers .fetching trio vacant calls left ∧
      calls.map Prod.fst = [2, 1, 1, 0, 0] ∧
      left.outcome = .error (.error (.stream 1 .fetching .endOfStream)) := by
  have first : Interleaves (List.zipWith Lane.start trio vacant) [(2, _)] _ := .read .start rfl
  have second := @Interleaves.read _ _ _ _ _ _ 1 _ first rfl
  have third := @Interleaves.read _ _ _ _ _ _ 1 _ second rfl
  have fourth := @Interleaves.read _ _ _ _ _ _ 0 _ third rfl
  have last := @Interleaves.read _ _ _ _ _ _ 0 _ fourth rfl
  have gathers : Gathers .fetching trio vacant _ (joined .fetching [_, _, _]) := .joined rfl last
  refine ⟨_, _, gathers, rfl, ?_⟩
  rw [((order_independent _ _ _).2 _ _ gathers).inTurn]
  with_unfolding_all rfl

end Source

end Wideband
