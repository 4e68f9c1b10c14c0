import Wideband.Proofs.Pipe.Ending

namespace Wideband

open Relation

variable {C : Type}

namespace Pipe

variable {pipe next later : Pipe C} {got : List C} {cause : Error}

inductive Serves (pipe : Pipe C) : List C → Pipe C → Prop where
  | start : Serves pipe [] pipe
  | read {got : List C} {next : Pipe C} (earlier : Serves pipe got next) (view : Buffer C) :
      Serves pipe (got ++ (next.read view).taken) (next.read view).reader
  | write {got : List C} {next : Pipe C} (earlier : Serves pipe got next) (block : Array C) :
      Serves pipe got (next.write block).2
  | closeWith {got : List C} {next : Pipe C} (earlier : Serves pipe got next) (cause : Error) :
      Serves pipe got (next.closeWith cause)
  | dropWriter {got : List C} {next : Pipe C} (earlier : Serves pipe got next) :
      Serves pipe got next.dropWriter
  | dropReader {got : List C} {next : Pipe C} (earlier : Serves pipe got next) :
      Serves pipe got next.dropReader

theorem Serves.onward (serves : Serves pipe got later) : ReflTransGen Next pipe later := by
  induction serves with
  | start => exact .refl
  | read earlier view ih => exact ih.tail (.read view)
  | write earlier block ih => exact ih.tail (.write block)
  | closeWith earlier cause ih => exact ih.tail (.closeWith cause)
  | dropWriter earlier ih => exact ih.tail .dropWriter
  | dropReader earlier ih => exact ih.tail .dropReader

theorem taken_of_discarding (ended : pipe.ending = some cause)
    (discarding : cause = .overrun ∨ cause = .pipeClosed) (view : Buffer C) :
    (pipe.read view).taken = [] := by
  cases view with
  | complex out =>
      rw [(Ended.of_ending ended).discards discarding out]
      rfl
  | unsigned8 pairs => rfl
  | signed8 pairs => rfl
  | signed16 pairs => rfl

theorem Serves.nothing (serves : Serves pipe got later) (ended : pipe.ending = some cause)
    (discarding : cause = .overrun ∨ cause = .pipeClosed) : got = [] := by
  induction serves with
  | start => rfl
  | read earlier view ih =>
      rw [ih, taken_of_discarding (ending_run earlier.onward ended) discarding view]
      rfl
  | write earlier block ih => exact ih
  | closeWith earlier cause ih => exact ih
  | dropWriter earlier ih => exact ih
  | dropReader earlier ih => exact ih

/-- What comes from a pipe that has ended is what it held then, from the front. Only a reader that goes
away leaves some of it behind. -/
theorem Serves.kept (serves : Serves pipe got later) (ended : pipe.ending = some cause) :
    got ++ later.held <+: pipe.held ∧
      (later.channel.readerGone = false → got ++ later.held = pipe.held) := by
  induction serves with
  | start => exact ⟨List.prefix_rfl, fun _ => rfl⟩
  | @read got next earlier view ih =>
      obtain ⟨moved, blocks, channel, _⟩ := Ledger.taken_read next view
      have gone : (next.read view).reader.channel.readerGone = next.channel.readerGone := by
        rw [channel]
      rw [List.append_assoc, moved, gone]
      exact ih
  | write earlier block ih =>
      rw [write_of_ending block (ending_run earlier.onward ended)]
      exact ih
  | @closeWith got next earlier other ih =>
      have gone : (next.closeWith other).channel.readerGone = next.channel.readerGone := by
        simp [Pipe.closeWith]
      rw [held_closeWith, gone]
      exact ih
  | dropWriter earlier ih => exact ih
  | @dropReader got next earlier ih =>
      have rest : next.dropReader.held <+: next.held := by
        simp [held, Pipe.dropReader, Channel.dropReader]
      refine ⟨((List.prefix_append_right_inj got).mpr rest).trans ih.1, fun heard => ?_⟩
      cases heard

/-- What a reader is left with that got some samples since its pipe was closed in the given state,
where `read` is how it reads what is left of the pipe. -/
structure Shut {σ : Type} (pipe : Pipe C) (got : List C) (left : Pipe C) (reader : σ)
    (read : Buffer C → Drawn σ C) : Prop where
  final : (∀ cause, pipe.ending = some cause → cause = .overrun ∨ cause = .pipeClosed) →
    got = [] ∧ ∀ out : Array C,
      read (.complex out) =
        ⟨.ready (.error (pipe.ending.getD .pipeClosed)), .complex out, reader⟩
  /-- Closing does not overtake a failure that was handed over before. -/
  handed : ∀ cause, pipe.ending = some cause → ¬(cause = .overrun ∨ cause = .pipeClosed) →
    got <+: pipe.held ∧
      (left.channel.readerGone = false → got ++ left.held = pipe.held ∧
        ∀ out : Array C, 0 < out.size →
          (∃ count, (read (.complex out)).poll = .ready (.ok count)) ∨
            got = pipe.held ∧ read (.complex out) = ⟨.ready (.error cause), .complex out, reader⟩)

theorem read_of_ending (ended : pipe.ending = some cause)
    (keeping : ¬(cause = .overrun ∨ cause = .pipeClosed)) {out : Array C} (room : 0 < out.size) :
    (∃ count, (pipe.read (.complex out)).poll = .ready (.ok count)) ∨
      pipe.held = [] ∧
        pipe.read (.complex out) = ⟨.ready (.error cause), .complex out, pipe⟩ := by
  have latched : pipe.channel.latched = some cause := ended
  have ways := pipe.received out
  generalize pipe.read (.complex out) = drawn at ways ⊢
  cases ways with
  | terminated other same terminal =>
      obtain rfl : other = cause := Option.some.inj (same.symm.trans latched)
      exact absurd (Error.terminal_iff.mp terminal) keeping
  | nothing going empty => exact absurd empty (Nat.ne_of_gt room)
  | delivered going room stocked => exact .inl ⟨_, rfl⟩
  | exhausted going room drained finished =>
      have reason : pipe.channel.closedError = cause := by simp [Channel.closedError, latched]
      rw [reason]
      exact .inr ⟨drained, rfl⟩
  | waits running room drained writable => cases running.symm.trans latched

theorem Serves.shut (serves : Serves pipe.close got later) :
    Shut pipe got later later later.read := by
  have closed : pipe.close.ending = some (pipe.ending.getD .pipeClosed) :=
    ending_closeWith pipe .pipeClosed
  have whole : pipe.close.held = pipe.held := held_closeWith .pipeClosed
  refine ⟨fun discarding => ?_, fun cause ended keeping => ?_⟩
  · have terminal : pipe.ending.getD .pipeClosed = .overrun ∨
        pipe.ending.getD .pipeClosed = .pipeClosed := by
      cases state : pipe.ending with
      | none => exact .inr rfl
      | some cause => exact discarding cause state
    refine ⟨serves.nothing closed terminal, fun out => ?_⟩
    exact (Ended.of_ending (ending_run serves.onward closed)).discards terminal out
  · rw [ended, Option.getD_some] at closed
    obtain ⟨front, all⟩ := serves.kept closed
    rw [whole] at front all
    refine ⟨(List.prefix_append got _).trans front, fun heard => ⟨all heard, fun out room => ?_⟩⟩
    refine (read_of_ending (ending_run serves.onward closed) keeping room).imp_right ?_
    rintro ⟨drained, answer⟩
    have total := all heard
    rw [drained, List.append_nil] at total
    exact ⟨total, answer⟩

end Pipe

namespace Ledger

theorem serves_act {ledger : Ledger C} {pipe : Pipe C} {before got : List C}
    (serves : pipe.Serves got ledger.pipe) (entered : ledger.delivered = before ++ got)
    (call : Call C) :
    ∃ more, pipe.Serves more (ledger.act call).pipe ∧
      (ledger.act call).delivered = before ++ more := by
  cases call with
  | write block =>
      refine ⟨got, ?_, ?_⟩ <;> simp only [act, write] <;> split
      · exact serves
      · have next := serves.write block
        split <;> rename_i written <;> rwa [written] at next
      · exact entered
      · split <;> exact entered
  | read view =>
      simp only [act, read]
      split
      · exact ⟨got, serves, entered⟩
      · refine ⟨_, serves.read view, ?_⟩
        rw [entered, List.append_assoc]
  | close => exact ⟨got, serves.closeWith .pipeClosed, entered⟩
  | closeWith cause => exact ⟨got, serves.closeWith cause, entered⟩
  | dropWriter => exact ⟨got, serves.dropWriter, entered⟩
  | dropReader => exact ⟨got, serves.dropReader, entered⟩

theorem serves_run {ledger : Ledger C} {pipe : Pipe C} {before got : List C}
    (serves : pipe.Serves got ledger.pipe) (entered : ledger.delivered = before ++ got)
    (calls : List (Call C)) :
    ∃ more, pipe.Serves more (calls.foldl act ledger).pipe ∧
      (calls.foldl act ledger).delivered = before ++ more := by
  induction calls generalizing ledger got with
  | nil => exact ⟨got, serves, entered⟩
  | cons call calls ih =>
      obtain ⟨more, next, others⟩ := serves_act serves entered call
      exact ih next others

end Ledger

end Wideband
