import Wideband.Proofs.Pipe.Overlap

namespace Wideband.Overlap

open Relation

/-!
A reader that waits is not left waiting. An error is recorded before the wake-up is given, and the
reader looks for an error before it starts to wait, so neither passes the other unseen: whatever
should end the wait can end it (`Roused`), and after the wake-up there is an error to report.
-/

variable {C : Type} {s t u : Overlap C} {view : Array C} {cause : Error} {capacity rate : Nat}
  {pipe : Pipe C}

inductive Acts (s t : Overlap C) : Prop where
  | reads (step : Reads s t)
  | writes (step : Writes s t)
  | closes (step : Closes s t)

def Roused (s : Overlap C) : Prop :=
  0 < s.closed ∨ s.pipe.channel.writerGone = true ∨ s.pipe.channel.blocks ≠ []

/-- The reader can bring the read that is going on to an answer by itself. -/
def Completes (s : Overlap C) : Prop :=
  ∃ t answer, ReflTransGen Reads s t ∧ t.reader = .idle ∧ t.answers = s.answers ++ [answer]

inductive Stirred (s : Overlap C) : Prop where
  | waiting {view : Array C} (stage : s.reader = .waiting view) (roused : Roused s)
  | woken {view : Array C} (stage : s.reader = .woken view)
  | finishing {view : Array C} (stage : s.reader = .finishing view)

/-- What a read that got the wake-up in state `s` may answer: the front of a block that it found
queued, or the error that was recorded. -/
inductive Woke (s : Overlap C) (view : Array C) (cause : Error) : Except Error (List C) → Prop where
  | block {t : Overlap C} (onward : ReflTransGen Acts s t) {block : Array C}
      (queued : t.pipe.channel.blocks.head? = some block) :
      Woke s view cause (.ok (block.extract 0 (min view.size block.size)).toList)
  | error : Woke s view cause (.error cause)

theorem Alert.acts (alert : Alert s) (step : Acts s t) : Alert t := by
  cases step with
  | reads step => exact alert.reads step
  | writes step => exact alert.writes step
  | closes step => exact alert.closes step

theorem Alert.run (alert : Alert s) (onward : ReflTransGen Acts s t) : Alert t := by
  induction onward with
  | refl => exact alert
  | tail _ step ih => exact ih.acts step

theorem Acts.ending_of_some (step : Acts s t) (ended : s.pipe.ending = some cause) :
    t.pipe.ending = some cause := by
  cases step with
  | reads step => rw [step.ending, ended]
  | writes step => exact step.ending_of_some ended
  | closes step => exact step.ending_of_some ended

theorem Acts.answers (step : Acts s t) : ∃ more, t.answers = s.answers ++ more := by
  cases step with
  | writes step => exact ⟨[], by rw [step.reader.2, List.append_nil]⟩
  | closes step => exact ⟨[], by rw [step.reader.2, List.append_nil]⟩
  | reads step => exact step.answers

theorem ending_run (onward : ReflTransGen Acts s t) (ended : s.pipe.ending = some cause) :
    t.pipe.ending = some cause := by
  induction onward with
  | refl => exact ended
  | tail _ step ih => exact step.ending_of_some ih

theorem Roused.writes (roused : Roused s) (step : Writes s t) : Roused t := by
  cases step with
  | queues stage put =>
      obtain rfl := Channel.put_queued put
      exact .inr (.inr (by simp [withChannel]))
  | records stage => simpa [Roused, withChannel, Channel.record_eq] using roused
  | releases stage => exact .inl (Nat.zero_lt_succ _)
  | leaves free => exact .inr (.inl rfl)
  | _ => exact roused

theorem Roused.closes (roused : Roused s) (step : Closes s t) : Roused t := by
  cases step with
  | records cause => simpa [Roused, withChannel, Channel.record_eq] using roused
  | releases begun => exact .inl (Nat.zero_lt_succ _)

theorem Stirred.acts (stirred : Stirred s) (step : Acts s t) :
    t.answers = s.answers ∧ Stirred t ∨ ∃ answer, t.answers = s.answers ++ [answer] := by
  have standing (reader : t.reader = s.reader) (roused : Roused s → Roused t) : Stirred t := by
    cases stirred with
    | waiting stage before => exact .waiting (reader.trans stage) (roused before)
    | woken stage => exact .woken (reader.trans stage)
    | finishing stage => exact .finishing (reader.trans stage)
  cases step with
  | writes step =>
      exact .inl ⟨step.reader.2, standing step.reader.1 fun roused => roused.writes step⟩
  | closes step =>
      exact .inl ⟨step.reader.2, standing step.reader.1 fun roused => roused.closes step⟩
  | reads step =>
      cases step with
      | takes stage taken => exact .inr ⟨_, rfl⟩
      | abandoned stage taken => exact .inl ⟨rfl, .finishing rfl⟩
      | wakes stage released => exact .inl ⟨rfl, .woken rfl⟩
      | lacks stage taken => exact .inl ⟨rfl, .finishing rfl⟩
      | finishes stage => exact .inr ⟨_, rfl⟩
      -- The other actions start from elsewhere.
      | _ => cases stirred <;> simp_all

theorem until_answered {P : Overlap C → Prop} {Q : Except Error (List C) → Prop} (holds : P s)
    (kept : ∀ {t u}, ReflTransGen Acts s t → P t → Acts t u →
      u.answers = t.answers ∧ P u ∨ ∃ answer, u.answers = t.answers ++ [answer] ∧ Q answer)
    (onward : ReflTransGen Acts s t) :
    t.answers = s.answers ∧ P t ∨
      ∃ answer more, t.answers = s.answers ++ answer :: more ∧ Q answer := by
  induction onward with
  | refl => exact .inl ⟨rfl, holds⟩
  | tail onward step ih =>
      rcases ih with ⟨same, holds⟩ | ⟨answer, more, grown, told⟩
      · rcases kept onward holds step with ⟨still, holds⟩ | ⟨answer, added, told⟩
        · exact .inl ⟨still.trans same, holds⟩
        · exact .inr ⟨answer, [], by rw [added, same], told⟩
      · obtain ⟨added, later⟩ := step.answers
        refine .inr ⟨answer, more ++ added, ?_, told⟩
        rw [later, grown, List.append_assoc, List.cons_append]

theorem completes_finishing (stage : s.reader = .finishing view) : Completes s :=
  ⟨_, _, .single (.finishes stage), rfl, rfl⟩

theorem Completes.before (step : Reads s t) (kept : t.answers = s.answers)
    (completes : Completes t) :
    Completes s := by
  obtain ⟨last, answer, onward, idle, added⟩ := completes
  exact ⟨last, answer, .head step onward, idle, kept ▸ added⟩

theorem completes_asking (stage : s.reader.asks = some view)
    (found : s.pipe.channel.take.1 ≠ .empty) : Completes s := by
  rcases taken : s.pipe.channel.take with ⟨block | _ | _, channel⟩
  · exact ⟨_, _, .single (.takes stage taken), rfl, rfl⟩
  · exact absurd (congrArg Prod.fst taken) found
  · exact .before (.abandoned stage (congrArg Prod.fst taken)) rfl (completes_finishing rfl)

theorem completes_woken (stage : s.reader = .woken view) : Completes s := by
  by_cases empty : s.pipe.channel.take.1 = .empty
  · exact .before (.lacks stage empty) rfl (completes_finishing rfl)
  · exact completes_asking (by rw [stage]; rfl) empty

theorem Stirred.completes (stirred : Stirred s) (alert : Alert s) : Completes s := by
  cases stirred with
  | finishing stage => exact completes_finishing stage
  | woken stage => exact completes_woken stage
  | @waiting view stage roused =>
      by_cases empty : s.pipe.channel.take.1 = .empty
      · obtain ⟨nothing, present⟩ := Channel.take_empty empty
        -- Only a call that closed the pipe can have roused the reader, and its wake-up lasts.
        have closed : 0 < s.closed := by
          rcases roused with closed | gone | queued
          · exact closed
          · exact absurd (present.symm.trans gone) Bool.false_ne_true
          · exact absurd nothing queued
        exact .before (.wakes stage (alert.released closed)) rfl (completes_woken rfl)
      · exact completes_asking (by rw [stage]; rfl) empty

theorem view_of_asks {other : Array C} (stands : s.reader = .woken view ∨ s.reader = .finishing view)
    (asks : s.reader.asks = some other) : view = other := by
  rcases stands with stands | stands <;> rw [stands] at asks <;> cases asks
  rfl

theorem woke_run (stage : s.reader = .woken view) (ended : s.pipe.ending = some cause)
    (onward : ReflTransGen Acts s t) :
    t.answers = s.answers ∧ (t.reader = .woken view ∨ t.reader = .finishing view) ∨
      ∃ answer more, t.answers = s.answers ++ answer :: more ∧ Woke s view cause answer := by
  refine until_answered (P := fun t => t.reader = .woken view ∨ t.reader = .finishing view)
    (.inl stage) (fun {t u} onward stands step => ?_) onward
  cases step with
  | writes step => exact .inl ⟨step.reader.2, step.reader.1 ▸ stands⟩
  | closes step => exact .inl ⟨step.reader.2, step.reader.1 ▸ stands⟩
  | reads step =>
      cases step with
      | takes asks taken =>
          obtain ⟨queued, _⟩ := Channel.take_block taken
          obtain rfl := view_of_asks stands asks
          refine .inr ⟨_, rfl, ?_⟩
          rw [Ledger.taken_eq_front]
          exact .block onward (by rw [queued]; rfl)
      | abandoned asks taken =>
          obtain rfl := view_of_asks stands asks
          exact .inl ⟨rfl, .inr rfl⟩
      | @lacks other stage taken =>
          obtain rfl : view = other := by rcases stands with stands | stands <;> simp_all
          exact .inl ⟨rfl, .inr rfl⟩
      | finishes stage =>
          -- The error that was recorded before the wake-up is still the one.
          have latched : t.pipe.channel.latched = some cause := ending_run onward ended
          have reason : t.pipe.channel.closedError = cause := by
            rw [Channel.closedError, latched]
            rfl
          exact .inr ⟨_, rfl, reason ▸ .error⟩
      -- The other actions start from elsewhere.
      | _ => rcases stands with stands | stands <;> simp_all

/-- In every state that calls on a pipe can bring about, however their actions fall between one
another, a reader that waits for what is there already can complete its read, now and until it does.
One that got the wake-up answers with a block, or with the error that ended the pipe. -/
theorem wakes_reader (opened : Pipe.ofCapacity capacity rate = .ok pipe)
    (reached : ReflTransGen Acts (ofPipe pipe) s) :
    (∀ view, s.reader = .waiting view → Roused s →
      ∀ t, ReflTransGen Acts s t → t.answers = s.answers → Completes t) ∧
    (∀ view, s.reader = .woken view → ∃ cause, s.pipe.ending = some cause ∧
      ∀ t answer more, ReflTransGen Acts s t → t.answers = s.answers ++ answer :: more →
        Woke s view cause answer) := by
  have alert : Alert s := by
    obtain ⟨_, rfl⟩ := Pipe.eq_of_ofCapacity opened
    exact (Alert.start _ rfl).run reached
  refine ⟨fun view stage roused t onward same => ?_, fun view stage => ?_⟩
  · have kept {t u} (_ : ReflTransGen Acts s t) (stirred : Stirred t) (step : Acts t u) :=
      (stirred.acts step).imp_right fun ⟨answer, added⟩ =>
        (⟨answer, added, trivial⟩ : ∃ answer, u.answers = t.answers ++ [answer] ∧ True)
    rcases until_answered (Stirred.waiting stage roused) kept onward with
      ⟨_, stirred⟩ | ⟨answer, more, grown⟩
    · exact stirred.completes (alert.run onward)
    · simp [same] at grown
  · have recorded := alert.recorded (.inl (alert.woken view stage))
    obtain ⟨cause, ended⟩ := Option.ne_none_iff_exists'.mp recorded
    refine ⟨cause, ended, fun t answer more onward added => ?_⟩
    rcases woke_run stage ended onward with ⟨same, _⟩ | ⟨first, rest, grown, woke⟩
    · simp [same] at added
    · rw [added, List.append_cancel_left_eq] at grown
      cases grown
      exact woke

theorem wakes_reader_closed :
    ∃ (pipe : Pipe Nat) (s t : Overlap Nat), Pipe.ofCapacity 1 1000 = .ok pipe ∧
      ReflTransGen Acts (ofPipe pipe) s ∧ s.reader = .waiting #[0] ∧ Roused s ∧ Completes s ∧
      Acts s t ∧ t.reader = .woken #[0] ∧ t.pipe.ending = some .endOfStream ∧
      ∀ u answer more, ReflTransGen Acts t u → u.answers = t.answers ++ answer :: more →
        Woke t #[0] .endOfStream answer := by
  let pipe : Pipe Nat := ⟨.ofCapacity 1, 1000, #[]⟩
  have opened : Pipe.ofCapacity 1 1000 = .ok pipe := rfl
  have polling : ReflTransGen Acts (ofPipe pipe) ((ofPipe pipe).goTo (.polling #[0])) :=
    .tail (.single (.reads (.calls rfl #[0]))) (.reads (.polls rfl rfl (Nat.zero_lt_one) rfl))
  have waiting : ReflTransGen Acts (ofPipe pipe) ((ofPipe pipe).goTo (.waiting #[0])) :=
    .tail (.tail polling (.reads (.misses rfl rfl))) (.reads (.waits rfl rfl))
  let s : Overlap Nat :=
    { ofPipe (pipe.closeWith .endOfStream) with reader := .waiting #[0], closed := 1 }
  have closed : ReflTransGen Acts (ofPipe pipe) s :=
    .tail (.tail waiting (.closes (.records .endOfStream))) (.closes (.releases Nat.zero_lt_one))
  have roused : Roused s := .inl Nat.zero_lt_one
  have wakes : Acts s (s.goTo (.woken #[0])) := .reads (.wakes rfl rfl)
  obtain ⟨cause, ended, woke⟩ := (wakes_reader opened (closed.tail wakes)).2 #[0] rfl
  cases ended
  exact ⟨pipe, s, _, opened, closed, rfl, roused,
    (wakes_reader opened closed).1 #[0] rfl roused s .refl rfl, wakes, rfl, rfl, woke⟩

end Wideband.Overlap
