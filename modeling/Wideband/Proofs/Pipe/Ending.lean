import Mathlib.Logic.Relation
import Wideband.Proofs.Pipe.Ledger

namespace Wideband.Pipe

open Relation

/-!
How a pipe ends. Calls may come from either end or from a handle, in any order (`Next`), and there
are four ways in which one of them ends a pipe that goes on (`Ends`). The first that does decides:
its error stays for good, and with it go the answers of every later call (`Ended`).
-/

variable {C : Type} {pipe fresh next : Pipe C} {cause : Error} {capacity rate : Nat}

inductive Next (pipe : Pipe C) : Pipe C → Prop where
  | write (block : Array C) : Next pipe (pipe.write block).2
  | writeBuffer (buffer : Buffer C) : Next pipe (pipe.writeBuffer buffer).2
  | read (view : Buffer C) : Next pipe (pipe.read view).reader
  | close : Next pipe pipe.close
  | closeWith (cause : Error) : Next pipe (pipe.closeWith cause)
  | dropWriter : Next pipe pipe.dropWriter
  | dropReader : Next pipe pipe.dropReader

/-- The calls that end a pipe, with the error that they end it with. -/
inductive Ends (pipe : Pipe C) : Error → Pipe C → Prop where
  | overrun (block : Array C) (heard : pipe.channel.readerGone = false)
      (full : pipe.channel.capacity ≤ pipe.channel.blocks.length) :
      Ends pipe .overrun (pipe.write block).2
  | deserted (block : Array C) (alone : pipe.channel.readerGone = true) :
      Ends pipe .pipeClosed (pipe.write block).2
  | closed : Ends pipe .pipeClosed pipe.close
  | failed (cause : Error) : Ends pipe cause (pipe.closeWith cause)

/-- A pipe that has ended. An overrun and a closed pipe also discard what is left to read. -/
structure Ended (cause : Error) (pipe : Pipe C) : Prop where
  latched : pipe.ending = some cause
  refuses (block : Array C) : pipe.write block = (.error cause, pipe)
  refusesBuffer (samples : Array C) : pipe.writeBuffer (.complex samples) = (.error cause, pipe)
  discards (discarding : cause = .overrun ∨ cause = .pipeClosed) (out : Array C) :
    pipe.read (.complex out) = ⟨.ready (.error cause), .complex out, pipe⟩

theorem ending_closeWith (pipe : Pipe C) (cause : Error) :
    (pipe.closeWith cause).ending = some (pipe.ending.getD cause) := by
  simp [ending, closeWith]

theorem write_of_ending (block : Array C) (ended : pipe.ending = some cause) :
    pipe.write block = (.error cause, pipe) := by
  have latched : pipe.channel.latched = some cause := ended
  simp only [write, latched]

theorem ending_write (block : Array C) (going : pipe.ending = none) :
    (pipe.write block).2.ending =
      if pipe.channel.readerGone then some .pipeClosed
      else if pipe.channel.capacity ≤ pipe.channel.blocks.length then some .overrun
      else none := by
  have ways := pipe.written block
  generalize pipe.write block = result at ways ⊢
  cases ways with
  | ended cause latched => cases going.symm.trans latched
  | queued running heard room =>
      rw [heard, if_neg Bool.false_ne_true, if_neg (Nat.not_le.mpr room)]
      exact going
  | overrun running heard full => simp [ending_closeWith, going, heard, full]
  | deserted running alone => simp [ending_closeWith, going, alone]

theorem ends_write (block : Array C) (going : pipe.ending = none)
    (ended : (pipe.write block).2.ending = some cause) : Ends pipe cause (pipe.write block).2 := by
  rw [ending_write block going] at ended
  cases gone : pipe.channel.readerGone with
  | true =>
      obtain rfl : .pipeClosed = cause := by simpa [gone] using ended
      exact .deserted block gone
  | false =>
      obtain ⟨full, rfl⟩ :
          pipe.channel.capacity ≤ pipe.channel.blocks.length ∧ .overrun = cause := by
        simpa [gone] using ended
      exact .overrun block gone full

theorem ending_read (pipe : Pipe C) (view : Buffer C) :
    (pipe.read view).reader.ending = pipe.ending := by
  obtain ⟨_, blocks, channel, _⟩ := Ledger.taken_read pipe view
  rw [ending, channel, ending]

theorem Ends.ending (ends : Ends pipe cause next) (going : pipe.ending = none) :
    next.ending = some cause := by
  cases ends with
  | overrun block heard full => simp [ending_write block going, heard, full]
  | deserted block alone => simp [ending_write block going, alone]
  | closed => rw [Pipe.close, ending_closeWith, going]; rfl
  | failed => rw [ending_closeWith, going]; rfl

theorem Next.ending_of_some (step : Next pipe next) (ended : pipe.ending = some cause) :
    next.ending = some cause := by
  cases step with
  | write block => rw [write_of_ending block ended]; exact ended
  | writeBuffer buffer =>
      cases buffer with
      | complex samples =>
          have answer : pipe.writeBuffer (.complex samples) = (.error cause, pipe) :=
            write_of_ending samples ended
          rw [answer]
          exact ended
      | _ => exact ended
  | read view => rw [ending_read]; exact ended
  | close => rw [Pipe.close, ending_closeWith, ended]; rfl
  | closeWith => rw [ending_closeWith, ended]; rfl
  | dropWriter => exact ended
  | dropReader => exact ended

theorem Next.ends (step : Next pipe next) (going : pipe.ending = none)
    (ended : next.ending = some cause) : Ends pipe cause next := by
  cases step with
  | write block => exact ends_write block going ended
  | writeBuffer buffer =>
      cases buffer with
      | complex samples => exact ends_write samples going ended
      | _ => cases going.symm.trans ended
  | read view =>
      rw [ending_read, going] at ended
      cases ended
  | close =>
      rw [Pipe.close, ending_closeWith, going] at ended
      cases ended
      exact .closed
  | closeWith cause =>
      rw [ending_closeWith, going] at ended
      cases ended
      exact .failed cause
  | dropWriter => cases going.symm.trans ended
  | dropReader => cases going.symm.trans ended

theorem ending_run (onward : ReflTransGen Next pipe next) (ended : pipe.ending = some cause) :
    next.ending = some cause := by
  induction onward with
  | refl => exact ended
  | tail _ step ih => exact step.ending_of_some ih

theorem ends_of_run (reached : ReflTransGen Next fresh pipe) (going : fresh.ending = none)
    (ended : pipe.ending = some cause) :
    ∃ before after, ReflTransGen Next fresh before ∧ before.ending = none ∧
      Ends before cause after ∧ ReflTransGen Next after pipe := by
  -- From the last call back to the first after which the pipe has ended.
  induction reached with
  | refl => cases going.symm.trans ended
  | @tail last pipe earlier step ih =>
      cases state : last.ending with
      | none => exact ⟨last, pipe, earlier, state, step.ends state ended, .refl⟩
      | some other =>
          obtain rfl : other = cause :=
            Option.some.inj ((step.ending_of_some state).symm.trans ended)
          obtain ⟨before, after, reached, running, ends, onward⟩ := ih state
          exact ⟨before, after, reached, running, ends, onward.tail step⟩

theorem Ended.of_ending (ended : pipe.ending = some cause) : Ended cause pipe where
  latched := ended
  refuses block := write_of_ending block ended
  refusesBuffer samples := write_of_ending samples ended
  discards discarding out := by
    have terminal : cause.terminal = true := by rcases discarding with rfl | rfl <;> rfl
    have latched : pipe.channel.latched = some cause := ended
    simp only [read, latched, Option.filter, terminal, if_true]

/-- The first call that ends a pipe decides with which error, for good. -/
theorem ended_for_good (opened : Pipe.ofCapacity capacity rate = .ok fresh)
    (reached : ReflTransGen Next fresh pipe) :
    (pipe.ending = some cause ↔
      ∃ before after, ReflTransGen Next fresh before ∧ before.ending = none ∧
        Ends before cause after ∧ ReflTransGen Next after pipe) ∧
    (pipe.ending = some cause → ∀ later, ReflTransGen Next pipe later → Ended cause later) := by
  have going : fresh.ending = none := by
    obtain ⟨_, rfl⟩ := Pipe.eq_of_ofCapacity opened
    rfl
  refine ⟨⟨fun ended => ends_of_run reached going ended, ?_⟩, ?_⟩
  · rintro ⟨before, after, _, running, ends, onward⟩
    exact ending_run onward (ends.ending running)
  · intro ended later onward
    exact .of_ending (ending_run onward ended)

theorem ended_for_good_overrun :
    ∃ fresh pipe : Pipe Nat, Pipe.ofCapacity 1 1000 = .ok fresh ∧ ReflTransGen Next fresh pipe ∧
      pipe.ending = some .overrun ∧ pipe.channel.blocks = [#[7]] ∧
      ∀ later, ReflTransGen Next pipe later → Ended .overrun later := by
  let fresh : Pipe Nat := ⟨.ofCapacity 1, 1000, #[]⟩
  have opened : Pipe.ofCapacity 1 1000 = .ok fresh := rfl
  have reached : ReflTransGen Next fresh ((fresh.write #[7]).2.write #[8]).2.close :=
    .tail (.tail (.single (.write #[7])) (.write #[8])) .close
  exact ⟨fresh, _, opened, reached, rfl, rfl, (ended_for_good opened reached).2 rfl⟩

end Wideband.Pipe
