import Wideband.Proofs.Pipe.Overlap

namespace Wideband.Overlap

open Relation

/-!
What a consumer gets before it gets an error, when only the producer ends the pipe. Every accepted
sample, unless the block and the error both come between the reader's look at the queue and its look
for an error (`Raced`): there the error overtakes the block, which the next read returns. A reader
that waits looks at the queue once more when it is woken, so there the order is kept.
-/

variable {C : Type} {s t u : Overlap C} {cause : Error} {capacity rate : Nat} {pipe : Pipe C}

inductive Paired (s t : Overlap C) : Prop where
  | reads (step : Reads s t)
  | writes (step : Writes s t)

/-- The reader found the queue empty and is about to look for an error, but by now there is a
block. -/
def Raced (s : Overlap C) : Prop :=
  ∃ view, s.reader = .checking view ∧ s.pipe.channel.blocks ≠ []

/-- No block can be accepted any more. -/
def Sealed (s : Overlap C) : Prop :=
  s.writer = .gone ∨ s.pipe.channel.latched ≠ none ∧ ∀ block, s.writer ≠ .offering block

structure Orderly (s : Overlap C) : Prop where
  kept : s.accepted = s.delivered ++ s.pipe.held
  dry : s.reader.dry → s.pipe.pending = #[]
  ended : s.pipe.channel.latched ≠ none → Sealed s
  left : s.pipe.channel.writerGone = true → s.writer = .gone
  finishing (view : Array C) : s.reader = .finishing view → s.pipe.channel.blocks = [] ∧ Sealed s

theorem Orderly.start (capacity rate : Nat) :
    Orderly (ofPipe (C := C) ⟨.ofCapacity capacity, rate, #[]⟩) where
  kept := rfl
  dry := nofun
  ended := fun ended => absurd rfl ended
  left := nofun
  finishing := nofun

theorem held_pull {block : Array C} {channel : Channel C} (empty : s.pipe.pending = #[])
    (taken : s.pipe.channel.take = (.block block, channel)) :
    (s.pull block channel).pipe.held = s.pipe.held := by
  obtain ⟨queued, _⟩ := Channel.take_block taken
  simp [pull, Pipe.held, empty, queued]

theorem Reads.sealed (step : Reads s t) (closed : Sealed s) : Sealed t := by
  obtain ⟨writer, _⟩ := step.others
  rw [Sealed, writer, step.channel]
  exact closed

theorem Orderly.pending_of_asks (orderly : Orderly s) {view : Array C}
    (asks : s.reader.asks = some view) : s.pipe.pending = #[] := by
  apply orderly.dry
  cases reader : s.reader <;> simp_all [Reader.asks, Reader.dry]

theorem Orderly.kept_reads (orderly : Orderly s) (step : Reads s t) :
    t.accepted = t.delivered ++ t.pipe.held := by
  have kept := orderly.kept
  have refused (cause : Error) : (s.answer (.error cause)).delivered = s.delivered := by
    simp [received]
  cases step with
  | continues stage going room pending =>
      rw [delivered_deliver, List.append_assoc]
      exact kept.trans (congrArg _ (Ledger.taken_deliver s.pipe _).symm)
  | takes stage taken =>
      rw [delivered_deliver, List.append_assoc]
      refine kept.trans (congrArg _ ?_)
      rw [← held_pull (orderly.pending_of_asks stage) taken]
      exact (Ledger.taken_deliver _ _).symm
  | nothing stage going empty =>
      rw [delivered_answer, received, List.append_nil]
      exact kept
  | terminated stage found => exact (refused _).symm ▸ kept
  | refused stage found => exact (refused _).symm ▸ kept
  | finishes stage => exact (refused _).symm ▸ kept
  | _ => exact kept

theorem Orderly.reads (orderly : Orderly s) (alert : Alert s) (step : Reads s t) : Orderly t := by
  obtain ⟨writer, _⟩ := step.others
  refine ⟨orderly.kept_reads step, ?_, ?_, ?_, ?_⟩
  · intro dry
    cases step with
    | polls stage going room pending => exact Array.eq_empty_of_size_eq_zero pending
    | abandoned stage taken => exact orderly.pending_of_asks stage
    | misses stage taken => exact orderly.pending_of_asks (by rw [stage]; rfl)
    | waits stage found => exact orderly.dry (by rw [stage]; trivial)
    | wakes stage released => exact orderly.dry (by rw [stage]; trivial)
    | lacks stage taken => exact orderly.dry (by rw [stage]; trivial)
    | _ => cases dry
  · intro latched
    rw [step.channel] at latched
    exact step.sealed (orderly.ended latched)
  · intro gone
    rw [step.channel] at gone
    exact writer.trans (orderly.left gone)
  · intro view finishing
    cases step with
    | abandoned stage taken =>
        obtain ⟨empty, gone⟩ := Channel.take_gone taken
        exact ⟨empty, .inl (orderly.left gone)⟩
    | lacks stage taken =>
        -- A reader that got the wake-up finds an error recorded, so nothing can follow.
        have latched := alert.recorded (.inl (alert.woken _ stage))
        exact ⟨(Channel.take_empty taken).1, orderly.ended latched⟩
    | _ => cases finishing

theorem Sealed.writes (closed : Sealed s) (step : Writes s t) :
    Sealed t ∧ t.pipe.channel.blocks = s.pipe.channel.blocks ∧ t.accepted = s.accepted := by
  rcases closed with gone | ⟨latched, resting⟩
  · cases step <;> simp_all
  · cases step with
    | rejected free found => exact ⟨.inr ⟨latched, resting⟩, rfl, rfl⟩
    | offers free found block => exact absurd found latched
    | queues stage put => exact absurd stage (resting _)
    | overruns stage put => exact absurd stage (resting _)
    | deserted stage put => exact absurd stage (resting _)
    | closes free cause => exact ⟨.inr ⟨latched, by simp⟩, rfl, rfl⟩
    | records stage => simp [Sealed, withChannel, Channel.record_eq]
    | releases stage => exact ⟨.inr ⟨latched, by simp⟩, rfl, rfl⟩
    | leaves free => exact ⟨.inl rfl, rfl, rfl⟩

theorem Orderly.kept_writes (orderly : Orderly s) (step : Writes s t) :
    t.accepted = t.delivered ++ t.pipe.held := by
  have kept := orderly.kept
  cases step with
  | @queues block stage channel put =>
      obtain rfl := Channel.put_queued put
      calc
        s.accepted ++ block.toList = (s.delivered ++ s.pipe.held) ++ block.toList := by rw [kept]
        _ = s.delivered ++ (s.pipe.queue block).held := by rw [Pipe.held_queue, List.append_assoc]
  | records stage => simpa [withChannel, Channel.record_eq, Pipe.held, delivered] using kept
  | _ => exact kept

theorem Writes.ended (step : Writes s t) (running : s.pipe.channel.latched = none)
    (ended : t.pipe.channel.latched ≠ none) : Sealed t := by
  cases step with
  | queues stage put =>
      obtain rfl := Channel.put_queued put
      exact absurd running ended
  | records stage => exact .inr ⟨ended, nofun⟩
  | _ => exact absurd running ended

theorem Orderly.writes (orderly : Orderly s) (step : Writes s t) : Orderly t := by
  obtain ⟨reader, answers⟩ := step.reader
  refine ⟨orderly.kept_writes step, ?_, ?_, ?_, ?_⟩
  · intro dry
    have empty := orderly.dry (reader ▸ dry)
    cases step <;> exact empty
  · intro latched
    by_cases running : s.pipe.channel.latched = none
    · exact step.ended running latched
    · exact ((orderly.ended running).writes step).1
  · intro gone
    -- A writer that is gone does not act, so it is this action that took it away.
    have left := orderly.left
    cases step with
    | queues stage put =>
        obtain rfl := Channel.put_queued put
        exact absurd (left gone) (by simp [stage])
    | records stage =>
        rw [channel_withChannel, Channel.record_eq] at gone
        exact absurd (left gone) (by simp [stage])
    | leaves free => rfl
    | releases stage => exact absurd (left gone) (by simp [stage])
    | _ => simp_all
  · intro view finishing
    obtain ⟨empty, closed⟩ := orderly.finishing view (reader ▸ finishing)
    obtain ⟨closed, blocks, _⟩ := closed.writes step
    exact ⟨blocks.trans empty, closed⟩

theorem Paired.answers (step : Paired s t) : ∃ more, t.answers = s.answers ++ more := by
  cases step with
  | reads step => exact step.answers
  | writes step => exact ⟨[], by rw [step.reader.2, List.append_nil]⟩

theorem Sealed.paired (closed : Sealed s) (step : Paired s t) :
    Sealed t ∧ t.accepted = s.accepted := by
  cases step with
  | reads step => exact ⟨step.sealed closed, step.others.2.2.2⟩
  | writes step => exact ⟨(closed.writes step).1, (closed.writes step).2.2⟩

theorem Sealed.run (closed : Sealed s) (onward : ReflTransGen Paired s t) :
    Sealed t ∧ t.accepted = s.accepted ∧ s.delivered <+: t.delivered := by
  induction onward with
  | refl => exact ⟨closed, rfl, List.prefix_rfl⟩
  | tail _ step ih =>
      obtain ⟨closed, accepted, front⟩ := ih
      obtain ⟨closed', same⟩ := closed.paired step
      obtain ⟨more, answers⟩ := step.answers
      refine ⟨closed', same.trans accepted, front.trans ?_⟩
      rw [delivered, delivered, answers, List.flatMap_append]
      exact List.prefix_append _ _

theorem Orderly.run (orderly : Orderly s) (alert : Alert s) (onward : ReflTransGen Paired s t) :
    Orderly t ∧ Alert t := by
  induction onward with
  | refl => exact ⟨orderly, alert⟩
  | tail _ step ih =>
      cases step with
      | reads step => exact ⟨ih.1.reads ih.2 step, ih.2.reads step⟩
      | writes step => exact ⟨ih.1.writes step, ih.2.writes step⟩

theorem Orderly.settled (orderly : Orderly s) (alert : Alert s) (closed : Sealed s)
    (drained : s.delivered = s.accepted) (onward : ReflTransGen Paired s t) :
    t.accepted = s.accepted ∧ t.delivered = s.delivered := by
  obtain ⟨_, accepted, front⟩ := closed.run onward
  have kept := (orderly.run alert onward).1.kept
  rw [accepted, ← drained] at kept
  exact ⟨accepted, (front.eq_of_length_le (by simp [kept])).symm⟩

inductive Fails (s : Overlap C) : Error → Prop where
  | terminated {cause : Error} (ended : s.pipe.ending = some cause)
      (terminal : cause.terminal = true) : Fails s cause
  | refused {cause : Error} (ended : s.pipe.ending = some cause) {view : Array C}
      (stage : s.reader = .checking view) : Fails s cause
  | finishes {view : Array C} (stage : s.reader = .finishing view) :
      Fails s s.pipe.channel.closedError

theorem Reads.fails (step : Reads s t) (answered : t.answers = s.answers ++ [.error cause]) :
    Fails s cause ∧ t = s.answer (.error cause) := by
  cases step with
  | terminated stage found =>
      obtain ⟨ended, terminal⟩ := Option.filter_eq_some_iff.mp found
      obtain rfl := by simpa [answer] using answered
      exact ⟨.terminated ended terminal, rfl⟩
  | refused stage found =>
      obtain rfl := by simpa [answer] using answered
      exact ⟨.refused found stage, rfl⟩
  | finishes stage =>
      obtain rfl := by simpa [answer] using answered
      exact ⟨.finishes stage, rfl⟩
  | _ => simp [answer, deliver, goTo] at answered

theorem Orderly.held_of_dry (orderly : Orderly s) (dry : s.reader.dry)
    (empty : s.pipe.channel.blocks = []) : s.pipe.held = [] := by
  simp [Pipe.held, orderly.dry dry, empty]

theorem Orderly.spent (orderly : Orderly s) (fails : Fails s cause)
    (going : ∀ last, s.pipe.ending = some last → last.terminal = false) :
    Raced s ∨ s.pipe.held = [] ∧ Sealed s := by
  cases fails with
  | terminated ended terminal => exact absurd terminal (by simp [going _ ended])
  | @refused cause ended view stage =>
      -- The queue was empty when the reader looked at it; a block may have come since.
      by_cases empty : s.pipe.channel.blocks = []
      · have closed : Sealed s := orderly.ended (Option.ne_none_iff_exists'.mpr ⟨_, ended⟩)
        exact .inr ⟨orderly.held_of_dry (by rw [stage]; trivial) empty, closed⟩
      · exact .inl ⟨view, stage, empty⟩
  | finishes stage =>
      obtain ⟨empty, closed⟩ := orderly.finishing _ stage
      exact .inr ⟨orderly.held_of_dry (by rw [stage]; trivial) empty, closed⟩

theorem Orderly.reason (orderly : Orderly s) (fails : Fails s cause) :
    s.pipe.ending = some cause ∨
      s.pipe.ending = none ∧ s.writer = .gone ∧ cause = .pipeClosed := by
  cases fails with
  | terminated ended terminal => exact .inl ended
  | refused ended stage => exact .inl ended
  | finishes stage =>
      obtain ⟨_, closed⟩ := orderly.finishing _ stage
      cases latched : s.pipe.channel.latched with
      | some cause => exact .inl (by simp [Pipe.ending, Channel.closedError, latched])
      | none =>
          refine .inr ⟨latched, ?_, by simp [Channel.closedError, latched]⟩
          exact closed.resolve_right fun ended => ended.1 latched

/-- An error that leaves the queue alone is the one that ended the pipe, and a reader gets it after
every accepted sample, with nothing to follow. A block that races the error is not lost either, but
the reader gets it afterwards. -/
theorem drained_unless_raced (opened : Pipe.ofCapacity capacity rate = .ok pipe)
    (reached : ReflTransGen Paired (ofPipe pipe) s) (step : Reads s t)
    (answered : t.answers = s.answers ++ [.error cause])
    (going : ∀ last, s.pipe.ending = some last → last.terminal = false) :
    (s.pipe.ending = some cause ∨
      s.pipe.ending = none ∧ s.writer = .gone ∧ cause = .pipeClosed) ∧
    t.accepted = t.delivered ++ t.pipe.held ∧
    (Raced s ∨ t.delivered = t.accepted ∧ ∀ u, ReflTransGen Paired t u →
      u.accepted = t.accepted ∧ u.delivered = t.delivered) := by
  obtain ⟨_, rfl⟩ := Pipe.eq_of_ofCapacity opened
  obtain ⟨orderly, alert⟩ := (Orderly.start capacity rate).run (.start _ rfl) reached
  have after := orderly.reads alert step
  obtain ⟨fails, rfl⟩ := step.fails answered
  refine ⟨orderly.reason fails, after.kept, (orderly.spent fails going).imp_right ?_⟩
  rintro ⟨empty, closed⟩
  have drained : (s.answer (.error cause)).delivered = (s.answer (.error cause)).accepted := by
    have kept := after.kept.symm
    rwa [show (s.answer (.error cause)).pipe.held = [] from empty, List.append_nil] at kept
  exact ⟨drained, fun u => after.settled (alert.reads step) closed drained⟩

theorem drained_unless_raced_failure :
    ∃ (pipe : Pipe Nat) (s t : Overlap Nat), Pipe.ofCapacity 1 1000 = .ok pipe ∧
      ReflTransGen Paired (ofPipe pipe) s ∧ Reads s t ∧
      t.answers = [.ok [7], .error .endOfStream] ∧ t.delivered = t.accepted ∧
      ∀ u, ReflTransGen Paired t u → u.accepted = [7] ∧ u.delivered = [7] := by
  let pipe : Pipe Nat := ⟨.ofCapacity 1, 1000, #[]⟩
  have opened : Pipe.ofCapacity 1 1000 = .ok pipe := rfl
  let ended : Overlap Nat :=
    { ofPipe ((pipe.queue #[7]).closeWith .endOfStream) with accepted := [7], closed := 1 }
  let read : Overlap Nat := (ended.pull #[7] (pipe.closeWith .endOfStream).channel).deliver #[0]
  have writes : ReflTransGen Paired (ofPipe pipe)
      { ofPipe (pipe.queue #[7]) with accepted := [7] } :=
    .tail (.single (.writes (.offers rfl rfl #[7]))) (.writes (.queues rfl rfl))
  have ends : ReflTransGen Paired { ofPipe (pipe.queue #[7]) with accepted := [7] } ended :=
    .tail (.tail (.single (.writes (.closes rfl .endOfStream))) (.writes (.records rfl)))
      (.writes (.releases rfl))
  have reads : ReflTransGen Paired ended read :=
    .tail (.tail (.single (.reads (.calls rfl #[0]))) (.reads (.polls rfl rfl Nat.zero_lt_one rfl)))
      (.reads (.takes rfl rfl))
  have looks : ReflTransGen Paired read (read.goTo (.checking #[0])) :=
    .tail (.tail (.single (.reads (.calls rfl #[0]))) (.reads (.polls rfl rfl Nat.zero_lt_one rfl)))
      (.reads (.misses rfl rfl))
  have reached := ((writes.trans ends).trans reads).trans looks
  have refused : Reads (read.goTo (.checking #[0])) (read.answer (.error .endOfStream)) :=
    .refused rfl rfl
  obtain ⟨_, _, raced | ⟨drained, settled⟩⟩ :=
    drained_unless_raced opened reached refused rfl fun last ended => by
      cases ended
      rfl
  · obtain ⟨_, _, queued⟩ := raced
    exact absurd rfl queued
  · exact ⟨pipe, _, _, opened, reached, refused, rfl, drained, settled⟩

/-- A reader looks at an empty queue; then a block is written and the pipe ended, and the reader,
looking for an error, reports that. Its next read returns the block. -/
theorem error_before_block :
    ∃ (pipe : Pipe Nat) (s : Overlap Nat), Pipe.ofCapacity 1 1000 = .ok pipe ∧
      ReflTransGen Paired (ofPipe pipe) s ∧ s.pipe.ending = some .endOfStream ∧
      s.accepted = [7] ∧ s.answers = [.error .endOfStream, .ok [7]] := by
  let pipe : Pipe Nat := ⟨.ofCapacity 1, 1000, #[]⟩
  let looked : Overlap Nat := (ofPipe pipe).goTo (.checking #[0])
  let ended : Overlap Nat :=
    { looked with pipe := (pipe.queue #[7]).closeWith .endOfStream, accepted := [7], closed := 1 }
  have looks : ReflTransGen Paired (ofPipe pipe) looked :=
    .tail (.tail (.single (.reads (.calls rfl #[0]))) (.reads (.polls rfl rfl Nat.zero_lt_one rfl)))
      (.reads (.misses rfl rfl))
  have writes : ReflTransGen Paired looked
      { looked with pipe := pipe.queue #[7], accepted := [7] } :=
    .tail (.single (.writes (.offers rfl rfl #[7]))) (.writes (.queues rfl rfl))
  have ends : ReflTransGen Paired { looked with pipe := pipe.queue #[7], accepted := [7] } ended :=
    .tail (.tail (.single (.writes (.closes rfl .endOfStream))) (.writes (.records rfl)))
      (.writes (.releases rfl))
  have refused : Paired ended (ended.answer (.error .endOfStream)) := .reads (.refused rfl rfl)
  have returns : ReflTransGen Paired (ended.answer (.error .endOfStream)) _ :=
    .tail (.tail (.single (.reads (.calls rfl #[0]))) (.reads (.polls rfl rfl Nat.zero_lt_one rfl)))
      (.reads (.takes rfl rfl))
  exact ⟨pipe, _, rfl, ((looks.trans writes).trans ends).trans (.head refused returns), rfl, rfl,
    rfl⟩

end Wideband.Overlap
