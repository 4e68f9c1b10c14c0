import Mathlib.Logic.Relation
import Wideband.Proofs.Pipe.Ledger

namespace Wideband

open Relation

/-!
Calls on a pipe that overlap. A call is a sequence of actions on the channel, and between two of
them anybody else may act: the reader is somewhere inside a read (`Reader`), the writer inside a
write or a close (`Writer`), and any number of calls on handles have recorded their error without
having given the wake-up. `Overlap.Reads`, `Overlap.Writes` and `Overlap.Closes` are the actions of
the three. A call during which nobody else acts does what it does on a pipe (`Overlap.read_alone`,
`Overlap.write_alone`, `Overlap.close_alone`).
-/

namespace Channel

variable {C : Type} {channel after : Channel C} {block : Array C} {cause : Error}

theorem take_block (taken : channel.take = (.block block, after)) :
    channel.blocks = block :: after.blocks ∧ after = { channel with blocks := after.blocks } := by
  cases queued : channel.blocks with
  | nil =>
      cases gone : channel.writerGone <;> simp [take, queued, gone] at taken
  | cons first rest =>
      simp only [take, queued, Prod.mk.injEq, Take.block.injEq] at taken
      obtain ⟨rfl, rfl⟩ := taken
      exact ⟨rfl, rfl⟩

theorem take_gone (taken : channel.take.1 = .gone) :
    channel.blocks = [] ∧ channel.writerGone = true := by
  cases queued : channel.blocks with
  | nil => cases gone : channel.writerGone <;> simp [take, queued, gone] at taken ⊢
  | cons first rest => simp [take, queued] at taken

theorem take_empty (taken : channel.take.1 = .empty) :
    channel.blocks = [] ∧ channel.writerGone = false := by
  cases queued : channel.blocks with
  | nil => cases gone : channel.writerGone <;> simp [take, queued, gone] at taken ⊢
  | cons first rest => simp [take, queued] at taken

theorem put_queued (put : channel.put block = (.queued, after)) :
    after = { channel with blocks := channel.blocks ++ [block] } := by
  unfold Channel.put at put
  split at put
  · cases put
  · split at put <;> cases put
    rfl

theorem record_eq (channel : Channel C) (cause : Error) :
    channel.record cause = { channel with latched := some (channel.latched.getD cause) } := by
  cases found : channel.latched with
  | none => simp [record, found]
  | some earlier =>
      simp only [record, found, Option.getD_some]
      rw [← found]

end Channel

inductive Reader (C : Type) where
  | idle
  /-- About to look for an error that discards the queue. -/
  | entered (view : Array C)
  /-- About to take a block, if there is one. -/
  | polling (view : Array C)
  /-- The queue was empty; about to look for an error. -/
  | checking (view : Array C)
  /-- There was no error either; waits for a block, for the writer to go or for the wake-up. -/
  | waiting (view : Array C)
  /-- Got the wake-up; about to take a block, if there is one. -/
  | woken (view : Array C)
  /-- Nothing is left; about to look up why. -/
  | finishing (view : Array C)

def Reader.asks {C : Type} : Reader C → Option (Array C)
  | .polling view => some view
  | .waiting view => some view
  | .woken view => some view
  | _ => none

/-- The reader has used up the pending block, and has not got the next one yet. -/
def Reader.dry {C : Type} : Reader C → Prop
  | .idle => False
  | .entered _ => False
  | _ => True

inductive Writer (C : Type) where
  | idle
  | offering (block : Array C)
  | recording (cause : Error)
  | releasing
  | gone

structure Overlap (C : Type) where
  pipe : Pipe C
  reader : Reader C
  writer : Writer C
  /-- Calls on handles that have recorded their error and have yet to give the wake-up. -/
  handles : Nat
  closed : Nat
  accepted : List C
  answers : List (Except Error (List C))

namespace Overlap

variable {C : Type} {s t : Overlap C}

def ofPipe (pipe : Pipe C) : Overlap C :=
  ⟨pipe, .idle, .idle, 0, 0, [], []⟩

def received : Except Error (List C) → List C
  | .ok samples => samples
  | .error _ => []

def delivered (s : Overlap C) : List C :=
  s.answers.flatMap received

def goTo (s : Overlap C) (reader : Reader C) : Overlap C :=
  { s with reader }

def answer (s : Overlap C) (result : Except Error (List C)) : Overlap C :=
  { s with reader := .idle, answers := s.answers ++ [result] }

def deliver (s : Overlap C) (view : Array C) : Overlap C :=
  { s with pipe := (s.pipe.deliver view).reader }.answer (.ok (s.pipe.deliver view).taken)

def withChannel (s : Overlap C) (channel : Channel C) : Overlap C :=
  { s with pipe := { s.pipe with channel } }

def pull (s : Overlap C) (block : Array C) (channel : Channel C) : Overlap C :=
  { s with pipe := { s.pipe with channel, pending := block } }

inductive Reads (s : Overlap C) : Overlap C → Prop where
  | calls (free : s.reader = .idle) (view : Array C) : Reads s (s.goTo (.entered view))
  | terminated {view : Array C} (stage : s.reader = .entered view) {cause : Error}
      (found : s.pipe.channel.latched.filter Error.terminal = some cause) :
      Reads s (s.answer (.error cause))
  | nothing {view : Array C} (stage : s.reader = .entered view)
      (going : s.pipe.channel.latched.filter Error.terminal = none) (empty : view.size = 0) :
      Reads s (s.answer (.ok []))
  | continues {view : Array C} (stage : s.reader = .entered view)
      (going : s.pipe.channel.latched.filter Error.terminal = none) (room : 0 < view.size)
      (pending : 0 < s.pipe.pending.size) : Reads s (s.deliver view)
  | polls {view : Array C} (stage : s.reader = .entered view)
      (going : s.pipe.channel.latched.filter Error.terminal = none) (room : 0 < view.size)
      (pending : s.pipe.pending.size = 0) : Reads s (s.goTo (.polling view))
  | takes {view : Array C} (stage : s.reader.asks = some view) {block : Array C}
      {channel : Channel C} (taken : s.pipe.channel.take = (.block block, channel)) :
      Reads s ((s.pull block channel).deliver view)
  | abandoned {view : Array C} (stage : s.reader.asks = some view)
      (taken : s.pipe.channel.take.1 = .gone) : Reads s (s.goTo (.finishing view))
  | misses {view : Array C} (stage : s.reader = .polling view)
      (taken : s.pipe.channel.take.1 = .empty) : Reads s (s.goTo (.checking view))
  | refused {view : Array C} (stage : s.reader = .checking view) {cause : Error}
      (found : s.pipe.channel.latched = some cause) : Reads s (s.answer (.error cause))
  | waits {view : Array C} (stage : s.reader = .checking view)
      (found : s.pipe.channel.latched = none) : Reads s (s.goTo (.waiting view))
  | wakes {view : Array C} (stage : s.reader = .waiting view)
      (released : s.pipe.channel.released = true) : Reads s (s.goTo (.woken view))
  | lacks {view : Array C} (stage : s.reader = .woken view)
      (taken : s.pipe.channel.take.1 = .empty) : Reads s (s.goTo (.finishing view))
  | finishes {view : Array C} (stage : s.reader = .finishing view) :
      Reads s (s.answer (.error s.pipe.channel.closedError))

inductive Writes (s : Overlap C) : Overlap C → Prop where
  | rejected (free : s.writer = .idle) {cause : Error}
      (found : s.pipe.channel.latched = some cause) : Writes s s
  | offers (free : s.writer = .idle) (found : s.pipe.channel.latched = none) (block : Array C) :
      Writes s { s with writer := .offering block }
  | queues {block : Array C} (stage : s.writer = .offering block) {channel : Channel C}
      (put : s.pipe.channel.put block = (.queued, channel)) :
      Writes s { s.withChannel channel with
        writer := .idle, accepted := s.accepted ++ block.toList }
  | overruns {block : Array C} (stage : s.writer = .offering block)
      (put : (s.pipe.channel.put block).1 = .full) :
      Writes s { s with writer := .recording .overrun }
  | deserted {block : Array C} (stage : s.writer = .offering block)
      (put : (s.pipe.channel.put block).1 = .gone) :
      Writes s { s with writer := .recording .pipeClosed }
  | closes (free : s.writer = .idle) (cause : Error) :
      Writes s { s with writer := .recording cause }
  | records {cause : Error} (stage : s.writer = .recording cause) :
      Writes s { s.withChannel (s.pipe.channel.record cause) with writer := .releasing }
  | releases (stage : s.writer = .releasing) :
      Writes s { s.withChannel s.pipe.channel.release with writer := .idle, closed := s.closed + 1 }
  | leaves (free : s.writer = .idle) :
      Writes s { s.withChannel s.pipe.channel.dropWriter with writer := .gone }

inductive Closes (s : Overlap C) : Overlap C → Prop where
  | records (cause : Error) :
      Closes s { s.withChannel (s.pipe.channel.record cause) with handles := s.handles + 1 }
  | releases (begun : 0 < s.handles) :
      Closes s { s.withChannel s.pipe.channel.release with
        handles := s.handles - 1, closed := s.closed + 1 }

@[simp] theorem channel_withChannel (s : Overlap C) (channel : Channel C) :
    (s.withChannel channel).pipe.channel = channel :=
  rfl

@[simp] theorem delivered_answer (s : Overlap C) (result : Except Error (List C)) :
    (s.answer result).delivered = s.delivered ++ received result := by
  simp [answer, delivered]

@[simp] theorem delivered_deliver (s : Overlap C) (view : Array C) :
    (s.deliver view).delivered = s.delivered ++ (s.pipe.deliver view).taken :=
  delivered_answer _ _

def readTo (s : Overlap C) (view : Array C) (drawn : Drawn (Pipe C) C) : Overlap C :=
  match drawn.poll with
  | .ready result => { s with pipe := drawn.reader }.answer (result.map fun _ => drawn.taken)
  | .waiting => s.goTo (.waiting view)

theorem exhausts_alone {view : Array C} (stage : s.reader = .polling view)
    (queued : s.pipe.channel.blocks = [])
    (ended : ¬(s.pipe.channel.latched = none ∧ s.pipe.channel.writerGone = false)) :
    ReflTransGen Reads s (s.answer (.error s.pipe.channel.closedError)) := by
  have asking : s.reader.asks = some view := by rw [stage]; rfl
  cases gone : s.pipe.channel.writerGone with
  | true =>
      have taken : s.pipe.channel.take.1 = .gone := by simp [Channel.take, queued, gone]
      exact .tail (.single (.abandoned asking taken)) (.finishes rfl)
  | false =>
      have missing : s.pipe.channel.take.1 = .empty := by simp [Channel.take, queued, gone]
      have checking : ReflTransGen Reads s (s.goTo (.checking view)) :=
        .single (.misses stage missing)
      cases latched : s.pipe.channel.latched with
      | none => exact absurd ⟨latched, gone⟩ ended
      | some cause =>
          have reason : s.pipe.channel.closedError = cause := by
            rw [Channel.closedError, latched]
            rfl
          exact reason ▸ checking.tail (.refused rfl latched)

/-- A read during which nobody else acts answers as a read of the pipe does, or waits. -/
theorem read_alone (free : s.reader = .idle) (view : Array C) :
    ReflTransGen Reads s (s.readTo view (s.pipe.read (.complex view))) := by
  have entered : ReflTransGen Reads s (s.goTo (.entered view)) := .single (.calls free view)
  cases ended : s.pipe.channel.latched.filter Error.terminal with
  | some cause =>
      simp only [Pipe.read, ended]
      exact entered.tail (.terminated rfl ended)
  | none =>
      by_cases empty : view.size = 0
      · have nothing : (view.extract 0 0).toList = [] := by simp
        simp only [Pipe.read, ended, if_pos empty, readTo, Drawn.taken, nothing]
        exact entered.tail (.nothing rfl ended empty)
      have room : 0 < view.size := Nat.pos_of_ne_zero empty
      by_cases pending : s.pipe.pending.size = 0
      · have polling := entered.tail (.polls rfl ended room pending)
        simp only [Pipe.read, ended, if_neg empty, if_pos pending]
        cases queued : s.pipe.channel.blocks with
        | nil =>
            rw [Pipe.nextBlock_drained queued]
            by_cases waits : s.pipe.channel.latched = none ∧ s.pipe.channel.writerGone = false
            · have missing : s.pipe.channel.take.1 = .empty := by
                simp [Channel.take, queued, waits.2]
              rw [if_pos waits]
              exact (polling.tail (.misses rfl missing)).tail (.waits rfl waits.1)
            · rw [if_neg waits]
              exact polling.trans (exhausts_alone rfl queued waits)
        | cons block rest =>
            have taken : s.pipe.channel.take =
                (.block block, { s.pipe.channel with blocks := rest }) := by
              simp only [Channel.take, queued]
            simp only [Pipe.nextBlock, taken]
            exact polling.tail (.takes rfl taken)
      · simp only [Pipe.read, ended, if_neg empty, if_neg pending]
        exact entered.tail (.continues rfl ended room (Nat.pos_of_ne_zero pending))

theorem write_alone (free : s.writer = .idle) (block : Array C) :
    ∃ t, ReflTransGen Writes s t ∧ t.pipe = (s.pipe.write block).2 ∧ t.writer = .idle ∧
      t.reader = s.reader ∧ t.answers = s.answers ∧
      t.accepted = s.accepted ++
        (match (s.pipe.write block).1 with
          | .ok _ => block.toList
          | .error _ => []) := by
  have ways := s.pipe.written block
  generalize s.pipe.write block = result at ways ⊢
  cases ways with
  | ended cause latched => exact ⟨s, .refl, rfl, free, rfl, rfl, (List.append_nil _).symm⟩
  | queued running heard room =>
      have put : s.pipe.channel.put block = (.queued, (s.pipe.queue block).channel) := by
        simp [Channel.put, heard, Nat.not_le.mpr room, Pipe.queue]
      exact ⟨_, .tail (.single (.offers free running block)) (.queues rfl put), rfl, rfl, rfl, rfl,
        rfl⟩
  | overrun running heard full =>
      have put : (s.pipe.channel.put block).1 = .full := by simp [Channel.put, heard, full]
      exact ⟨_, .tail (.tail (.tail (.single (.offers free running block)) (.overruns rfl put))
        (.records rfl)) (.releases rfl), rfl, rfl, rfl, rfl, (List.append_nil _).symm⟩
  | deserted running alone =>
      have put : (s.pipe.channel.put block).1 = .gone := by simp [Channel.put, alone]
      exact ⟨_, .tail (.tail (.tail (.single (.offers free running block)) (.deserted rfl put))
        (.records rfl)) (.releases rfl), rfl, rfl, rfl, rfl, (List.append_nil _).symm⟩

theorem close_alone (s : Overlap C) (cause : Error) :
    ReflTransGen Closes s { s with pipe := s.pipe.closeWith cause, closed := s.closed + 1 } :=
  .tail (.single (.records cause)) (.releases (Nat.zero_lt_succ _))

theorem Reads.channel (step : Reads s t) :
    t.pipe.channel = { s.pipe.channel with blocks := t.pipe.channel.blocks } := by
  cases step with
  | takes stage taken =>
      obtain ⟨_, rest⟩ := Channel.take_block taken
      exact rest
  | _ => rfl

theorem Reads.answers (step : Reads s t) : ∃ more, t.answers = s.answers ++ more := by
  cases step <;> first | exact ⟨[], (List.append_nil _).symm⟩ | exact ⟨_, rfl⟩

theorem Reads.others (step : Reads s t) :
    t.writer = s.writer ∧ t.handles = s.handles ∧ t.closed = s.closed ∧
      t.accepted = s.accepted := by
  cases step <;> exact ⟨rfl, rfl, rfl, rfl⟩

theorem Writes.reader (step : Writes s t) : t.reader = s.reader ∧ t.answers = s.answers := by
  cases step <;> exact ⟨rfl, rfl⟩

theorem Closes.reader (step : Closes s t) : t.reader = s.reader ∧ t.answers = s.answers := by
  cases step <;> exact ⟨rfl, rfl⟩

theorem Writes.ending_of_some (step : Writes s t) {cause : Error}
    (ended : s.pipe.ending = some cause) : t.pipe.ending = some cause := by
  cases step with
  | queues stage put =>
      rw [Channel.put_queued put]
      exact ended
  | records stage =>
      have found : s.pipe.channel.latched = some cause := ended
      simp [withChannel, Pipe.ending, Channel.record_eq, found]
  | _ => exact ended

theorem Closes.ending_of_some (step : Closes s t) {cause : Error}
    (ended : s.pipe.ending = some cause) : t.pipe.ending = some cause := by
  cases step with
  | records other =>
      have found : s.pipe.channel.latched = some cause := ended
      simp [withChannel, Pipe.ending, Channel.record_eq, found]
  | releases begun => exact ended

theorem Reads.ending (step : Reads s t) : t.pipe.ending = s.pipe.ending := by
  rw [Pipe.ending, step.channel]
  rfl

/-- A wake-up that was given lasts, and whoever gives one has recorded an error before. -/
structure Alert (s : Overlap C) : Prop where
  released : 0 < s.closed → s.pipe.channel.released = true
  recorded : s.pipe.channel.released = true ∨ 0 < s.handles ∨ s.writer = .releasing →
    s.pipe.channel.latched ≠ none
  woken (view : Array C) : s.reader = .woken view → s.pipe.channel.released = true

theorem Alert.start (pipe : Pipe C) (asleep : pipe.channel.released = false) :
    Alert (ofPipe pipe) where
  released := nofun
  recorded
    | .inl released => absurd (asleep.symm.trans released) Bool.false_ne_true
    | .inr (.inr releasing) => nomatch releasing
  woken := nofun

theorem Alert.reads (alert : Alert s) (step : Reads s t) : Alert t := by
  obtain ⟨writer, handles, closed, _⟩ := step.others
  have latched : t.pipe.channel.latched = s.pipe.channel.latched := by rw [step.channel]
  have released : t.pipe.channel.released = s.pipe.channel.released := by rw [step.channel]
  refine ⟨?_, ?_, ?_⟩
  · rw [closed, released]
    exact alert.released
  · rw [released, handles, writer, latched]
    exact alert.recorded
  · intro view woken
    cases step with
    | wakes stage given => exact given
    | _ => cases woken

theorem Alert.writes (alert : Alert s) (step : Writes s t) : Alert t := by
  have recorded := alert.recorded
  cases step with
  | rejected free found => exact alert
  | offers free found block => exact ⟨alert.released, by simpa [free] using recorded, alert.woken⟩
  | queues stage put =>
      obtain rfl := Channel.put_queued put
      exact ⟨alert.released, by simpa [stage, withChannel] using recorded, alert.woken⟩
  | overruns stage put => exact ⟨alert.released, by simpa [stage] using recorded, alert.woken⟩
  | deserted stage put => exact ⟨alert.released, by simpa [stage] using recorded, alert.woken⟩
  | closes free cause => exact ⟨alert.released, by simpa [free] using recorded, alert.woken⟩
  | records stage =>
      refine ⟨?_, ?_, ?_⟩ <;> simp [Channel.record_eq]
      · exact alert.released
      · exact alert.woken
  | releases stage =>
      exact ⟨fun _ => rfl, fun _ => recorded (.inr (.inr stage)), fun _ _ => rfl⟩
  | leaves free =>
      refine ⟨alert.released, ?_, alert.woken⟩
      simpa [free, withChannel, Channel.dropWriter] using recorded

theorem Alert.closes (alert : Alert s) (step : Closes s t) : Alert t := by
  cases step with
  | records cause =>
      refine ⟨?_, ?_, ?_⟩ <;> simp [Channel.record_eq]
      · exact alert.released
      · exact alert.woken
  | releases begun =>
      exact ⟨fun _ => rfl, fun _ => alert.recorded (.inr (.inl begun)), fun _ _ => rfl⟩

end Overlap

end Wideband
