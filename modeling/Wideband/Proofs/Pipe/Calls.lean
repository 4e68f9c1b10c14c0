import Wideband.Pipe.Basic

namespace Wideband

/-!
What each call on a pipe does. `Pipe.Written` and `Pipe.Received` list the ways a write and a read
can go, each with the state it needs and the one it leaves behind; `Pipe.written` and
`Pipe.received` say that there are no others. Nothing after this module opens the calls themselves.
-/

theorem Error.terminal_iff {cause : Error} :
    cause.terminal = true ↔ cause = .overrun ∨ cause = .pipeClosed := by
  cases cause <;> simp [terminal]

namespace Channel

variable {C : Type} {channel : Channel C} {cause : Error}

@[simp] theorem capacity_latch : (channel.latch cause).capacity = channel.capacity := by
  cases ended : channel.latched <;> simp [latch, record, release, ended]

@[simp] theorem readerGone_latch : (channel.latch cause).readerGone = channel.readerGone := by
  cases ended : channel.latched <;> simp [latch, record, release, ended]

end Channel

namespace Pipe

variable {C : Type} {pipe : Pipe C} {block out : Array C}

/-- Samples in the pipe: the rest of the pending block, then the queued blocks. -/
def held (pipe : Pipe C) : List C :=
  pipe.pending.toList ++ pipe.channel.blocks.flatMap Array.toList

def queue (pipe : Pipe C) (block : Array C) : Pipe C :=
  { pipe with channel := { pipe.channel with blocks := pipe.channel.blocks ++ [block] } }

/-- The pipe with the oldest queued block as its pending block, if nothing is pending. -/
def refill (pipe : Pipe C) : Pipe C :=
  if pipe.pending.size = 0 then
    match pipe.channel.blocks with
    | block :: rest =>
        { pipe with channel := { pipe.channel with blocks := rest }, pending := block }
    | [] => pipe
  else pipe

inductive Written (pipe : Pipe C) (block : Array C) : Except Error Nat × Pipe C → Prop where
  | ended (cause : Error) (latched : pipe.channel.latched = some cause) :
      Written pipe block (.error cause, pipe)
  | queued (running : pipe.channel.latched = none) (heard : pipe.channel.readerGone = false)
      (room : pipe.channel.blocks.length < pipe.channel.capacity) :
      Written pipe block (.ok block.size, pipe.queue block)
  | overrun (running : pipe.channel.latched = none) (heard : pipe.channel.readerGone = false)
      (full : pipe.channel.capacity ≤ pipe.channel.blocks.length) :
      Written pipe block (.error .overrun, pipe.closeWith .overrun)
  | deserted (running : pipe.channel.latched = none) (alone : pipe.channel.readerGone = true) :
      Written pipe block (.error .pipeClosed, pipe.closeWith .pipeClosed)

inductive Received (pipe : Pipe C) (out : Array C) : Drawn (Pipe C) C → Prop where
  | terminated (cause : Error) (latched : pipe.channel.latched = some cause)
      (terminal : cause.terminal = true) :
      Received pipe out ⟨.ready (.error cause), .complex out, pipe⟩
  | nothing (going : pipe.channel.latched.filter Error.terminal = none) (empty : out.size = 0) :
      Received pipe out ⟨.ready (.ok 0), .complex out, pipe⟩
  | delivered (going : pipe.channel.latched.filter Error.terminal = none) (room : 0 < out.size)
      (stocked : pipe.pending.size = 0 → pipe.channel.blocks ≠ []) :
      Received pipe out (pipe.refill.deliver out)
  | exhausted (going : pipe.channel.latched.filter Error.terminal = none) (room : 0 < out.size)
      (drained : pipe.held = [])
      (finished : pipe.channel.latched = none → pipe.channel.writerGone = true) :
      Received pipe out ⟨.ready (.error pipe.channel.closedError), .complex out, pipe⟩
  | waits (running : pipe.channel.latched = none) (room : 0 < out.size)
      (drained : pipe.held = []) (writable : pipe.channel.writerGone = false) :
      Received pipe out ⟨.waiting, .complex out, pipe⟩

theorem eq_of_ofCapacity {capacity rate : Nat} (opened : Pipe.ofCapacity capacity rate = .ok pipe) :
    0 < capacity ∧ pipe = ⟨.ofCapacity capacity, rate, #[]⟩ := by
  unfold Pipe.ofCapacity at opened
  split at opened
  · cases opened
  · rename_i some
    cases opened
    exact ⟨Nat.pos_of_ne_zero some, rfl⟩

theorem written (pipe : Pipe C) (block : Array C) : Written pipe block (pipe.write block) := by
  cases ended : pipe.channel.latched with
  | some cause =>
      have answer : pipe.write block = (.error cause, pipe) := by simp [write, ended]
      exact answer ▸ .ended cause ended
  | none =>
      cases gone : pipe.channel.readerGone with
      | true =>
          have answer : pipe.write block = (.error .pipeClosed, pipe.closeWith .pipeClosed) := by
            simp [write, ended, Channel.put, gone, refuse, closeWith, Channel.closedError]
          exact answer ▸ .deserted ended gone
      | false =>
          by_cases full : pipe.channel.capacity ≤ pipe.channel.blocks.length
          · have answer : pipe.write block = (.error .overrun, pipe.closeWith .overrun) := by
              simp [write, ended, Channel.put, gone, full, refuse, closeWith, Channel.closedError]
            exact answer ▸ .overrun ended gone full
          · have answer : pipe.write block = (.ok block.size, pipe.queue block) := by
              simp [write, ended, Channel.put, gone, full, queue]
            exact answer ▸ .queued ended gone (by omega)

theorem nextBlock_drained (queued : pipe.channel.blocks = []) :
    pipe.nextBlock =
      if pipe.channel.latched = none ∧ pipe.channel.writerGone = false then (none, pipe)
      else (some (.error pipe.channel.closedError), pipe) := by
  cases gone : pipe.channel.writerGone <;> cases latched : pipe.channel.latched <;>
    simp [nextBlock, Channel.take, queued, gone, latched, Channel.closedError]

private theorem received_drained
    (going : pipe.channel.latched.filter Error.terminal = none) (room : 0 < out.size)
    (pending : pipe.pending.size = 0) (queued : pipe.channel.blocks = []) :
    Received pipe out (pipe.read (.complex out)) := by
  have drained : pipe.held = [] := by
    have nothing : pipe.pending.toList = [] := by simpa using pending
    simp [held, nothing, queued]
  have visible : out.size ≠ 0 := Nat.ne_of_gt room
  by_cases waits : pipe.channel.latched = none ∧ pipe.channel.writerGone = false
  · have answer : pipe.read (.complex out) = ⟨.waiting, .complex out, pipe⟩ := by
      simp only [read, going, if_neg visible, if_pos pending, nextBlock_drained queued, if_pos waits]
    exact answer ▸ .waits waits.1 room drained waits.2
  · have answer : pipe.read (.complex out) =
        ⟨.ready (.error pipe.channel.closedError), .complex out, pipe⟩ := by
      simp only [read, going, if_neg visible, if_pos pending, nextBlock_drained queued, if_neg waits]
    exact answer ▸ .exhausted going room drained fun running => by
      simpa [running] using waits

theorem received (pipe : Pipe C) (out : Array C) :
    Received pipe out (pipe.read (.complex out)) := by
  cases ended : pipe.channel.latched.filter Error.terminal with
  | some cause =>
      obtain ⟨latched, terminal⟩ := Option.filter_eq_some_iff.mp ended
      have answer : pipe.read (.complex out) = ⟨.ready (.error cause), .complex out, pipe⟩ := by
        simp only [read, ended]
      exact answer ▸ .terminated cause latched terminal
  | none =>
      by_cases empty : out.size = 0
      · have answer : pipe.read (.complex out) = ⟨.ready (.ok 0), .complex out, pipe⟩ := by
          simp only [read, ended, if_pos empty]
        exact answer ▸ .nothing ended empty
      have room : 0 < out.size := Nat.pos_of_ne_zero empty
      by_cases pending : pipe.pending.size = 0
      · cases queued : pipe.channel.blocks with
        | nil => exact received_drained ended room pending queued
        | cons block rest =>
            have answer : pipe.read (.complex out) = pipe.refill.deliver out := by
              simp only [read, ended, if_neg empty, if_pos pending, nextBlock, Channel.take, queued,
                refill]
            exact answer ▸ .delivered ended room fun _ => by simp [queued]
      · have answer : pipe.read (.complex out) = pipe.refill.deliver out := by
          simp only [read, ended, if_neg empty, if_neg pending, refill]
        exact answer ▸ .delivered ended room fun none => absurd none pending

@[simp] theorem held_closeWith (cause : Error) : (pipe.closeWith cause).held = pipe.held := by
  simp [held, closeWith]

@[simp] theorem held_queue : (pipe.queue block).held = pipe.held ++ block.toList := by
  simp [held, queue]

@[simp] theorem held_refill : pipe.refill.held = pipe.held := by
  unfold refill
  split
  · rename_i pending
    have nothing : pipe.pending.toList = [] := by simpa using pending
    split
    · rename_i queued
      simp [held, nothing, queued]
    · rfl
  · rfl

theorem channel_refill :
    ∃ blocks, pipe.refill.channel = { pipe.channel with blocks } ∧
      blocks.length ≤ pipe.channel.blocks.length := by
  unfold refill
  split
  · split
    · rename_i queued
      exact ⟨_, rfl, by simp [queued]⟩
    · exact ⟨_, rfl, Nat.le_refl _⟩
  · exact ⟨_, rfl, Nat.le_refl _⟩

end Pipe

end Wideband
