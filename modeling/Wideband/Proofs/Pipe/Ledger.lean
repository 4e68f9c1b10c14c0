import Wideband.Proofs.Pipe.Calls

namespace Wideband

def Drawn.taken {σ C : Type} (drawn : Drawn σ C) : List C :=
  match drawn.poll, drawn.view with
  | .ready (.ok count), .complex out => (out.extract 0 count).toList
  | _, _ => []

/-- A call on a pipe. Either end can be closed, and so can the pipe through a handle of its own;
all of them do the same. -/
inductive Call (C : Type) where
  | write (block : Array C)
  | read (view : Buffer C)
  | close
  | closeWith (cause : Error)
  | dropWriter
  | dropReader

structure Ledger (C : Type) where
  pipe : Pipe C
  accepted : List C
  delivered : List C

namespace Ledger

variable {C : Type}

def ofPipe (pipe : Pipe C) : Ledger C :=
  ⟨pipe, [], []⟩

def write (ledger : Ledger C) (block : Array C) : Ledger C :=
  if ledger.pipe.channel.writerGone then ledger
  else match ledger.pipe.write block with
    | (.error _, pipe) => { ledger with pipe }
    | (.ok _, pipe) => { ledger with pipe, accepted := ledger.accepted ++ block.toList }

/-- Enters a read, unless the reader has been dropped. A read that has to wait leaves everything as
it is, and is made again after the other end has acted. -/
def read (ledger : Ledger C) (view : Buffer C) : Ledger C :=
  if ledger.pipe.channel.readerGone then ledger
  else
    let drawn := ledger.pipe.read view
    { ledger with pipe := drawn.reader, delivered := ledger.delivered ++ drawn.taken }

def act (ledger : Ledger C) : Call C → Ledger C
  | .write block => ledger.write block
  | .read view => ledger.read view
  | .close => { ledger with pipe := ledger.pipe.close }
  | .closeWith cause => { ledger with pipe := ledger.pipe.closeWith cause }
  | .dropWriter => { ledger with pipe := ledger.pipe.dropWriter }
  | .dropReader => { ledger with pipe := ledger.pipe.dropReader }

def after (pipe : Pipe C) (calls : List (Call C)) : Ledger C :=
  calls.foldl act (ofPipe pipe)

/-- The queue keeps within its capacity, only accepted samples are delivered, in their order, and
what a reader has not got yet is still in the pipe. -/
structure Balanced (capacity : Nat) (ledger : Ledger C) : Prop where
  fixed : ledger.pipe.channel.capacity = capacity
  bounded : ledger.pipe.channel.blocks.length ≤ capacity
  ordered : ledger.delivered <+: ledger.accepted
  kept : ledger.pipe.channel.readerGone = false →
    ledger.accepted = ledger.delivered ++ ledger.pipe.held

variable {capacity : Nat} {ledger : Ledger C}

theorem Balanced.start (capacity rate : Nat) :
    Balanced capacity (ofPipe (C := C) ⟨.ofCapacity capacity, rate, #[]⟩) where
  fixed := rfl
  bounded := Nat.zero_le _
  ordered := List.prefix_rfl
  kept := fun _ => rfl

theorem Balanced.closeWith (balanced : Balanced capacity ledger) (cause : Error) :
    Balanced capacity { ledger with pipe := ledger.pipe.closeWith cause } where
  fixed := by simpa [Pipe.closeWith] using balanced.fixed
  bounded := by simpa [Pipe.closeWith] using balanced.bounded
  ordered := balanced.ordered
  kept := fun heard => by
    have before := balanced.kept (by simpa [Pipe.closeWith] using heard)
    simpa using before

theorem Balanced.write (balanced : Balanced capacity ledger) (block : Array C) :
    Balanced capacity (ledger.write block) := by
  unfold Ledger.write
  split
  · exact balanced
  have ways := ledger.pipe.written block
  generalize ledger.pipe.write block = answer at ways ⊢
  cases ways with
  | ended cause latched => exact balanced
  | overrun running heard full => exact balanced.closeWith .overrun
  | deserted running alone => exact balanced.closeWith .pipeClosed
  | queued running heard room =>
      refine ⟨balanced.fixed, ?_, balanced.ordered.trans (List.prefix_append _ _), fun _ => ?_⟩
      · simp only [Pipe.queue, List.length_append, List.length_singleton]
        exact balanced.fixed ▸ room
      · simp [balanced.kept heard]

theorem taken_eq_front (pipe : Pipe C) (out : Array C) :
    (pipe.deliver out).taken =
      (pipe.pending.extract 0 (min out.size pipe.pending.size)).toList := by
  simp [Pipe.deliver, Drawn.taken]

theorem taken_deliver (pipe : Pipe C) (out : Array C) :
    (pipe.deliver out).taken ++ (pipe.deliver out).reader.held = pipe.held := by
  have whole : pipe.pending.extract 0 (min out.size pipe.pending.size) ++
      pipe.pending.extract (min out.size pipe.pending.size) pipe.pending.size = pipe.pending := by
    rw [Array.extract_append_extract, Nat.max_eq_right (Nat.min_le_right _ _), Nat.min_eq_left
      (Nat.zero_le _), Array.extract_size]
  rw [taken_eq_front, Pipe.held, Pipe.held, ← List.append_assoc]
  congr 1
  exact (Array.toList_append ..).symm.trans (congrArg Array.toList whole)

theorem taken_read (pipe : Pipe C) (view : Buffer C) :
    (pipe.read view).taken ++ (pipe.read view).reader.held = pipe.held ∧
      ∃ blocks, (pipe.read view).reader.channel = { pipe.channel with blocks } ∧
        blocks.length ≤ pipe.channel.blocks.length := by
  have unchanged : ∃ blocks, pipe.channel = { pipe.channel with blocks } ∧
      blocks.length ≤ pipe.channel.blocks.length :=
    ⟨_, rfl, Nat.le_refl _⟩
  cases view with
  | complex out =>
      have ways := pipe.received out
      generalize pipe.read (.complex out) = drawn at ways ⊢
      cases ways with
      | terminated cause latched terminal => exact ⟨rfl, unchanged⟩
      | nothing going empty => exact ⟨by simp [Drawn.taken], unchanged⟩
      | exhausted going room drained finished => exact ⟨rfl, unchanged⟩
      | waits running room drained writable => exact ⟨rfl, unchanged⟩
      | delivered going room stocked =>
          exact ⟨(taken_deliver pipe.refill out).trans Pipe.held_refill, pipe.channel_refill⟩
  | unsigned8 pairs => exact ⟨rfl, unchanged⟩
  | signed8 pairs => exact ⟨rfl, unchanged⟩
  | signed16 pairs => exact ⟨rfl, unchanged⟩

theorem Balanced.read (balanced : Balanced capacity ledger) (view : Buffer C) :
    Balanced capacity (ledger.read view) := by
  unfold Ledger.read
  split
  · exact balanced
  rename_i heard
  obtain ⟨moved, blocks, channel, shorter⟩ := taken_read ledger.pipe view
  have accepted : ledger.accepted =
      (ledger.delivered ++ (ledger.pipe.read view).taken) ++ (ledger.pipe.read view).reader.held := by
    rw [List.append_assoc, moved, balanced.kept (by simpa using heard)]
  refine ⟨?_, ?_, ⟨_, accepted.symm⟩, fun _ => accepted⟩
  · simpa [channel] using balanced.fixed
  · simpa [channel] using Nat.le_trans shorter balanced.bounded

theorem Balanced.act (balanced : Balanced capacity ledger) (call : Call C) :
    Balanced capacity (ledger.act call) := by
  cases call with
  | write block => exact balanced.write block
  | read view => exact balanced.read view
  | close => exact balanced.closeWith .pipeClosed
  | closeWith cause => exact balanced.closeWith cause
  | dropWriter => exact ⟨balanced.fixed, balanced.bounded, balanced.ordered, balanced.kept⟩
  | dropReader => exact ⟨balanced.fixed, Nat.zero_le _, balanced.ordered, nofun⟩

theorem Balanced.run (balanced : Balanced capacity ledger) (calls : List (Call C)) :
    Balanced capacity (calls.foldl Ledger.act ledger) := by
  induction calls generalizing ledger with
  | nil => exact balanced
  | cons call rest ih => exact ih (balanced.act call)

/-- What a pipe of the given capacity promises its two ends. -/
structure Faithful (capacity : Nat) (ledger : Ledger C) : Prop where
  ordered : ledger.delivered <+: ledger.accepted
  /-- What a reader has not got yet is still in the pipe. -/
  kept : ledger.pipe.channel.readerGone = false →
    ledger.accepted = ledger.delivered ++ ledger.pipe.held
  bounded : ledger.pipe.channel.blocks.length ≤ capacity
  /-- As long as the pipe goes on and has a reader, only a full queue refuses a block, -/
  refused : ledger.pipe.channel.latched = none → ledger.pipe.channel.readerGone = false →
    ∀ block, (∃ cause, (ledger.pipe.write block).1 = .error cause) ↔
      ledger.pipe.channel.blocks.length = capacity
  /-- and does so with an overrun. -/
  overrun : ledger.pipe.channel.latched = none → ledger.pipe.channel.readerGone = false →
    ∀ block cause, (ledger.pipe.write block).1 = .error cause → cause = .overrun
  /-- Unless the pipe ended with an error that discards the queue, a reader gets every accepted
  sample before it gets an error, which is the one that ended the pipe, or the absence of the
  writer. -/
  drained : (∀ cause, ledger.pipe.channel.latched = some cause →
      cause ≠ .overrun ∧ cause ≠ .pipeClosed) →
    ledger.pipe.channel.readerGone = false → ∀ (out : Array C) (cause : Error), 0 < out.size →
      (ledger.pipe.read (.complex out)).poll = .ready (.error cause) →
        ledger.delivered = ledger.accepted ∧
          (ledger.pipe.channel.latched = some cause ∨
            ledger.pipe.channel.latched = none ∧ ledger.pipe.channel.writerGone = true ∧
              cause = .pipeClosed)

theorem Balanced.refused (balanced : Balanced capacity ledger)
    (running : ledger.pipe.channel.latched = none)
    (heard : ledger.pipe.channel.readerGone = false) (block : Array C) :
    (∃ cause, (ledger.pipe.write block).1 = .error cause) ↔
      ledger.pipe.channel.blocks.length = capacity := by
  have bounded := balanced.bounded
  have ways := ledger.pipe.written block
  generalize ledger.pipe.write block = answer at ways ⊢
  cases ways with
  | ended cause latched => simp [running] at latched
  | deserted _ alone => simp [heard] at alone
  | overrun _ _ full =>
      rw [balanced.fixed] at full
      exact ⟨fun _ => Nat.le_antisymm bounded full, fun _ => ⟨_, rfl⟩⟩
  | queued _ _ room =>
      rw [balanced.fixed] at room
      exact ⟨nofun, fun full => absurd full (Nat.ne_of_lt room)⟩

theorem overrun_of_refused {pipe : Pipe C} {block : Array C} {cause : Error}
    (running : pipe.channel.latched = none) (heard : pipe.channel.readerGone = false)
    (refused : (pipe.write block).1 = .error cause) : cause = .overrun := by
  have ways := pipe.written block
  generalize pipe.write block = answer at ways refused
  cases ways with
  | ended cause latched => simp [running] at latched
  | deserted _ alone => simp [heard] at alone
  | overrun _ _ full => exact (Except.error.inj refused).symm
  | queued _ _ room => contradiction

theorem Balanced.drained (balanced : Balanced capacity ledger)
    (going : ∀ cause, ledger.pipe.channel.latched = some cause →
      cause ≠ .overrun ∧ cause ≠ .pipeClosed)
    (heard : ledger.pipe.channel.readerGone = false) {out : Array C} {cause : Error}
    (room : 0 < out.size)
    (answer : (ledger.pipe.read (.complex out)).poll = .ready (.error cause)) :
    ledger.delivered = ledger.accepted ∧
      (ledger.pipe.channel.latched = some cause ∨
        ledger.pipe.channel.latched = none ∧ ledger.pipe.channel.writerGone = true ∧
          cause = .pipeClosed) := by
  have kept := balanced.kept heard
  have ways := ledger.pipe.received out
  generalize ledger.pipe.read (.complex out) = drawn at ways answer
  cases ways with
  | terminated ending latched terminal =>
      obtain ⟨full, closed⟩ := going ending latched
      cases ending <;> simp_all [Error.terminal]
  | nothing _ empty => omega
  | delivered _ _ _ => simp [Pipe.deliver] at answer
  | waits _ _ _ _ => simp at answer
  | exhausted _ _ drained finished =>
      obtain rfl : ledger.pipe.channel.closedError = cause := by simpa using answer
      refine ⟨by simp [kept, drained], ?_⟩
      cases latched : ledger.pipe.channel.latched with
      | some ending => exact .inl (by simp [Channel.closedError, latched])
      | none => exact .inr ⟨rfl, finished latched, by simp [Channel.closedError, latched]⟩

/-- A pipe is faithful after any calls on it. -/
theorem faithful_after {capacity : Nat} (room : 0 < capacity) (rate : Nat)
    (calls : List (Call C)) :
    ∃ pipe, Pipe.ofCapacity capacity rate = .ok pipe ∧ Faithful capacity (after pipe calls) := by
  have balanced := (Balanced.start (C := C) capacity rate).run calls
  refine ⟨_, if_neg (Nat.ne_of_gt room), ?_⟩
  exact {
    ordered := balanced.ordered
    kept := balanced.kept
    bounded := balanced.bounded
    refused := balanced.refused
    overrun := fun running heard _ _ => overrun_of_refused running heard
    drained := fun going heard _ _ => balanced.drained going heard }

theorem faithful_after_failure :
    0 < 2 ∧ ∃ pipe, Pipe.ofCapacity 2 1000 = .ok pipe ∧
      Faithful 2 (after pipe [.write #[7, 8], .write #[9], .read (.complex #[0]),
        .closeWith .endOfStream, .dropWriter]) :=
  ⟨by decide, faithful_after (by decide) 1000 _⟩

end Ledger

end Wideband
