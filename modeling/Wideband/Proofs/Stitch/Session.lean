import Wideband.Proofs.Pipe.Ending
import Wideband.Proofs.Pipe.Refilling
import Wideband.Proofs.Source.Logged
import Wideband.Proofs.Stitch.Weaving
import Wideband.Proofs.Stitch.Worker

namespace Wideband.Stitch

/-!
A stitched stream from its start to its end, with a consumer that reads, closes and cancels at any
time between two actions of the worker. What the consumer gets is a front part of `song`, which is a
function of nothing but the samples that the inputs give. Where an error of the inputs or the
cancellation is all that ends the stream, the consumer first gets every block that was completed
(`Session.after_refines`).
-/

variable {ρ C R π : Type}

structure Session (ρ C π : Type) where
  stitcher : Stitcher ρ C π
  made : ℕ
  delivered : List C

inductive Action (C : Type) where
  /-- A block of the worker, with nothing in between. -/
  | work
  /-- The worker has its inputs asked for a block, -/
  | ask
  /-- and goes on with what they have answered. -/
  | resume
  | read (view : Buffer C)
  | close
  | cancel

def Stage.runs : Stage → Bool
  | .running => true
  | _ => false

def Stage.waits : Stage → Bool
  | .lingering _ => true
  | _ => false

def Stitcher.ask [Source ρ C] (stitcher : Stitcher ρ C π) : Stitcher ρ C π :=
  match stitcher.stage with
  | .running =>
      if stitcher.cancelled then stitcher.stop .cancelled
      else { stitcher.gathering with stage := .lingering stitcher.asked.outcome }
  | _ => stitcher

namespace Session

section Acting

variable [Component R] [Sample C R] [Source ρ C]

/-- A worker that has done something for a block and is ready for the next has completed the
block. -/
def act (session : Session ρ C π) : Action C → Session ρ C π
  | .work =>
      let after := session.stitcher.work
      { session with
        stitcher := after
        made := session.made + (session.stitcher.stage.runs && after.stage.runs).toNat }
  | .ask => { session with stitcher := session.stitcher.ask }
  | .resume =>
      let after := session.stitcher.resume
      { session with
        stitcher := after
        made := session.made + (session.stitcher.stage.waits && after.stage.runs).toNat }
  | .read view =>
      let drawn := session.stitcher.draw view
      { session with
        stitcher := drawn.reader
        delivered := session.delivered ++ drawn.taken }
  | .close => { session with stitcher := session.stitcher.close }
  | .cancel => { session with stitcher := session.stitcher.cancel }

def after (stitcher : Stitcher ρ C π) (actions : List (Action C)) : Session ρ C π :=
  actions.foldl act ⟨stitcher, 0, []⟩

end Acting

end Session

def bands (log : ρ → List (Visit C)) (length : ℕ) (inputs : List ρ) (number : ℕ) :
    List (Array C) :=
  inputs.map fun input => cut (number * length) length (log input)

def song [Component R] [Sample C R] (kernel : Kernel C) (log : ρ → List (Visit C)) (length : ℕ)
    (inputs : List ρ) (made : ℕ) : List C :=
  (List.range made).flatMap fun number =>
    (weave kernel length (bands log length inputs number)).toList

section Songs

variable {log : ρ → List (Visit C)} {length made : ℕ} {inputs later : List ρ}

theorem bands_congr (grown : List.Forall₂ (fun a b => told (log a) <+: told (log b)) inputs later)
    {number : ℕ} (covered : ∀ input ∈ inputs, (number + 1) * length ≤ (told (log input)).length) :
    bands log length later number = bands log length inputs number := by
  induction grown with
  | nil => rfl
  | @cons a b inputs later first rest ih =>
      obtain ⟨enough, others⟩ := List.forall_mem_cons.mp covered
      rw [Nat.succ_mul] at enough
      simp only [bands, List.map_cons] at ih ⊢
      rw [ih others, cut_of_prefix first enough]

theorem covered_grown {size : ℕ}
    (grown : List.Forall₂ (fun a b => told (log a) <+: told (log b)) inputs later)
    (covered : ∀ input ∈ inputs, size ≤ (told (log input)).length) :
    ∀ input ∈ later, size ≤ (told (log input)).length := by
  induction grown with
  | nil => exact nofun
  | cons first rest ih =>
      obtain ⟨enough, others⟩ := List.forall_mem_cons.mp covered
      exact List.forall_mem_cons.mpr ⟨enough.trans first.length_le, ih others⟩

variable [Component R] [Sample C R] {kernel : Kernel C}

theorem song_congr (grown : List.Forall₂ (fun a b => told (log a) <+: told (log b)) inputs later)
    (covered : ∀ input ∈ inputs, made * length ≤ (told (log input)).length) :
    song kernel log length later made = song kernel log length inputs made := by
  refine List.flatMap_congr fun number member => ?_
  rw [bands_congr grown fun input member' => ?_]
  have early : number + 1 ≤ made := List.mem_range.mp member
  exact (Nat.mul_le_mul_right length early).trans (covered input member')

theorem song_succ (kernel : Kernel C) (log : ρ → List (Visit C)) (length : ℕ) (inputs : List ρ)
    (made : ℕ) :
    song kernel log length inputs (made + 1) =
      song kernel log length inputs made ++
        (weave kernel length (bands log length inputs made)).toList := by
  simp [song, List.range_succ]

end Songs

section Halves

variable [Component R] [Sample C R] [Source ρ C]

theorem Stitcher.finish_stage (stitcher : Stitcher ρ C π) (stage : Stage) (outcome : Outcome Unit) :
    { stitcher with stage }.finish outcome = stitcher.finish outcome := by
  rcases outcome with (cause | _) | _
  · rfl
  · rfl
  · simp only [finish]
    rfl

theorem Stitcher.ask_running {stitcher : Stitcher ρ C π} (running : stitcher.stage = .running)
    (live : stitcher.cancelled = false) :
    stitcher.ask = { stitcher.gathering with stage := .lingering stitcher.asked.outcome } := by
  simp only [ask, running, live]
  rfl

theorem Session.act_work (session : Session ρ C π) :
    session.act .work = session ∨ session.act .work = session.act .ask ∨
      session.act .work = (session.act .ask).act .resume := by
  cases stage : session.stitcher.stage with
  | stopped => exact .inl (by simp [act, Stitcher.work, stage, Stage.runs])
  | lingering outcome => exact .inl (by simp [act, Stitcher.work, stage, Stage.runs])
  | running =>
      cases live : session.stitcher.cancelled with
      | true =>
          refine .inr (.inl ?_)
          simp [act, Stitcher.work, Stitcher.ask, stage, live, Stitcher.stop, Stage.runs]
      | false =>
          have asks := Stitcher.ask_running stage live
          have ways := Stitcher.worked stage
          generalize same : session.stitcher.work = next at ways
          cases ways with
          | cancelled ended => cases live.symm.trans ended
          | lingers outcome answered =>
              refine .inr (.inl ?_)
              simp [act, same, asks, answered, Stage.runs]
          | finishes outcome answered =>
              -- The second half overwrites the stage that the first has left.
              have resumes : session.stitcher.ask.resume =
                  session.stitcher.gathering.finish outcome := by
                rw [asks, answered, Stitcher.resume]
                exact Stitcher.finish_stage _ _ _
              have waits : session.stitcher.ask.stage.waits = true := by rw [asks]; rfl
              exact .inr (.inr (by simp [act, same, resumes, waits, stage, Stage.runs]))

end Halves

theorem checkFormats_complex {formats : List Format}
    (complex : ∀ format ∈ formats, format = .complex) : checkFormats formats = .ok () := by
  induction formats with
  | nil => rfl
  | cons format formats ih =>
      obtain ⟨first, rest⟩ := List.forall_mem_cons.mp complex
      rw [first]
      exact ih rest

/-- The errors that leave the queue to the consumer, with what the inputs have to do with it: the
first of them that could not fill its block number `made` stopped the worker, and was closed. -/
inductive Ended (log : ρ → List (Visit C)) (length made : ℕ) (inputs : List ρ) : Error → Prop where
  | cancelled : Ended log length made inputs .cancelled
  | stalled {earlier later : List ρ} {input : ρ} {cause : Error} {visits : List (Visit C)}
      {last : Visit C} (split : inputs = earlier ++ input :: later)
      (full : ∀ other ∈ earlier, (made + 1) * length ≤ (told (log other)).length)
      (lacks : (told (log input)).length < (made + 1) * length)
      (logged : log input = visits ++ [last, .closed]) (stops : last.Stops (.error cause)) :
      Ended log length made inputs (.stream earlier.length .stitching cause)

namespace Session

variable [Component R] [Sample C R] {planner : Planner C π} {kernel : Kernel C}
  {honest : ρ → Prop} {log : ρ → List (Visit C)} {length count : ℕ} {session : Session ρ C π}

/-- The completed blocks are made of what the inputs have given, and are with the consumer or in the
pipe. -/
structure Booked (kernel : Kernel C) (honest : ρ → Prop) (log : ρ → List (Visit C))
    (length count : ℕ) (session : Session ρ C π) : Prop where
  present : session.stitcher.inputs.length = count
  trusted : ∀ input ∈ session.stitcher.inputs, honest input
  covered : ∀ input ∈ session.stitcher.inputs,
    session.made * length ≤ (told (log input)).length
  heard : session.stitcher.pipe.channel.readerGone = false
  kept : song kernel log length session.stitcher.inputs session.made =
    session.delivered ++ session.stitcher.pipe.held
  room : 0 < length * count
  solid : #[] ∉ session.stitcher.pipe.channel.blocks

inductive Stands (planner : Planner C π) (log : ρ → List (Visit C)) (length count : ℕ)
    (session : Session ρ C π) : Prop where
  | running (stage : session.stitcher.stage = .running)
      (stocked : session.stitcher.Stocked planner count length)
      (given : ∀ input ∈ session.stitcher.inputs, Given (session.made * length) (log input))
      (shapes : ∀ buffer ∈ session.stitcher.buffers,
        ∃ held, buffer = .complex held ∧ held.size = length)
  | lingering {outcome : Outcome Unit} (stage : session.stitcher.stage = .lingering outcome)
      (stocked : session.stitcher.Stocked planner count length)
      (opened : ∀ input ∈ session.stitcher.inputs, .closed ∉ log input)
      (gathered : Source.Gathered log .stitching (session.made * length) length
        session.stitcher.inputs session.stitcher.buffers outcome)
  | broken (stage : session.stitcher.stage = .stopped) {input : ρ}
      (member : input ∈ session.stitcher.inputs) (fault : .failed .fault ∈ log input)
  | closed (stage : session.stitcher.stage = .stopped)
      (closed : ∀ input ∈ session.stitcher.inputs,
        ∃ visits, log input = visits ++ [.closed] ∧ .closed ∉ visits)

structure Sound (planner : Planner C π) (kernel : Kernel C) (honest : ρ → Prop)
    (log : ρ → List (Visit C)) (length count : ℕ) (session : Session ρ C π) : Prop where
  booked : Booked kernel honest log length count session
  ended (cause : Error) : session.stitcher.pipe.ending = some cause → cause.terminal = true ∨
    session.stitcher.stage = .stopped ∧
      Ended log length session.made session.stitcher.inputs cause
  stands : Stands planner log length count session

theorem Booked.abandon (booked : Booked kernel honest log length count session)
    (going : ∀ cause, session.stitcher.pipe.ending = some cause → cause.terminal = true)
    {input : ρ} (member : input ∈ session.stitcher.inputs) (fault : .failed .fault ∈ log input) :
    Sound planner kernel honest log length count
      { session with stitcher := session.stitcher.abandon } where
  booked := { booked with }
  ended cause ended := .inl (going cause ended)
  stands := .broken rfl member fault

theorem Sound.going (sound : Sound planner kernel honest log length count session)
    (going : session.stitcher.stage ≠ .stopped) (cause : Error)
    (ended : session.stitcher.pipe.ending = some cause) : cause.terminal = true :=
  (sound.ended cause ended).resolve_right fun stopped => going stopped.1

theorem Stands.outside (stands : Stands planner log length count session) (pipe : Pipe C)
    (cancelled : Bool) (delivered : List C) :
    Stands planner log length count
      { session with stitcher := { session.stitcher with pipe, cancelled }, delivered } := by
  cases stands with
  | running stage stocked given shapes => exact .running stage { stocked with } given shapes
  | lingering stage stocked opened gathered =>
      exact .lingering stage { stocked with } opened gathered
  | broken stage member fault => exact .broken stage member fault
  | closed stage closed => exact .closed stage closed

structure Refines (kernel : Kernel C) (log : ρ → List (Visit C)) (length count : ℕ)
    (session : Session ρ C π) : Prop where
  present : session.stitcher.inputs.length = count
  /-- A block is made of samples that the inputs have given. -/
  covered : ∀ input ∈ session.stitcher.inputs, session.made * length ≤ (told (log input)).length
  /-- The consumer gets the blocks in their order, from the front, -/
  delivered : session.delivered <+: song kernel log length session.stitcher.inputs session.made
  /-- and all of them before a read answers that the session was cancelled or an input failed. -/
  drained (view : Buffer C) (cause : Error) :
    (session.stitcher.draw view).poll = .ready (.error cause) →
    (cause = .cancelled ∨ ∃ index source, cause = .stream index .stitching source) →
      session.delivered = song kernel log length session.stitcher.inputs session.made
  /-- The input that it is told of is the first that could not fill the block after those. -/
  stalled (view : Buffer C) (index : ℕ) (source : Error) :
    (session.stitcher.draw view).poll = .ready (.error (.stream index .stitching source)) →
      ∃ earlier input later visits last, session.stitcher.inputs = earlier ++ input :: later ∧
        earlier.length = index ∧
        (∀ other ∈ earlier, (session.made + 1) * length ≤ (told (log other)).length) ∧
        (told (log input)).length < (session.made + 1) * length ∧
        log input = visits ++ [last, .closed] ∧ last.Stops (.error source)
  /-- While a completed block is left, a read with room gets some of it, unless the queue is
  discarded. -/
  served (out : Array C) : 0 < out.size →
    session.delivered ≠ song kernel log length session.stitcher.inputs session.made →
      (session.stitcher.draw (.complex out)).taken ≠ [] ∨
        ∃ cause, (cause = .overrun ∨ cause = .pipeClosed) ∧
          session.stitcher.pipe.ending = some cause ∧
          (session.stitcher.draw (.complex out)).poll = .ready (.error cause)
  /-- Inputs are open until the worker stops. -/
  opened : session.stitcher.stage ≠ .stopped → ∀ input ∈ session.stitcher.inputs,
    .closed ∉ log input
  /-- Unless the worker breaks down, closing them is the last that happens to them. -/
  closed : session.stitcher.stage = .stopped →
    (∃ input ∈ session.stitcher.inputs, .failed .fault ∈ log input) ∨
      ∀ input ∈ session.stitcher.inputs, ∃ visits, log input = visits ++ [.closed] ∧
        .closed ∉ visits

theorem drained_of_read {pipe : Pipe C} {view : Buffer C} {cause : Error}
    (answer : (pipe.read view).poll = .ready (.error cause))
    (reason : cause = .cancelled ∨ ∃ index source, cause = .stream index .stitching source) :
    pipe.held = [] ∧ pipe.ending = some cause := by
  cases view with
  | complex out =>
      have ways := pipe.received out
      generalize pipe.read (.complex out) = drawn at ways answer
      cases ways with
      | terminated other latched terminal =>
          cases answer
          rcases reason with rfl | ⟨index, source, rfl⟩ <;> cases terminal
      | nothing going empty => cases answer
      | delivered going room stocked => cases answer
      | exhausted going room drained finished =>
          cases latched : pipe.channel.latched with
          | some ending =>
              obtain rfl : ending = cause := by simpa [Channel.closedError, latched] using answer
              exact ⟨drained, latched⟩
          | none =>
              obtain rfl : .pipeClosed = cause := by
                simpa [Channel.closedError, latched] using answer
              rcases reason with closed | ⟨index, source, closed⟩ <;> cases closed
      | waits running room drained writable => cases answer
  -- Views of another format are refused, which is neither of the two reasons.
  | unsigned8 pairs | signed8 pairs | signed16 pairs =>
      cases answer
      rcases reason with other | ⟨index, source, other⟩ <;> cases other

theorem served_of_held {pipe : Pipe C} {out : Array C} (solid : #[] ∉ pipe.channel.blocks)
    (left : pipe.held ≠ []) (room : 0 < out.size) :
    (pipe.read (.complex out)).taken ≠ [] ∨
      ∃ cause, (cause = .overrun ∨ cause = .pipeClosed) ∧ pipe.ending = some cause ∧
        (pipe.read (.complex out)).poll = .ready (.error cause) := by
  cases ended : pipe.channel.latched.filter Error.terminal with
  | some cause =>
      obtain ⟨latched, terminal⟩ := Option.filter_eq_some_iff.mp ended
      exact .inr ⟨cause, Error.terminal_iff.mp terminal, latched,
        by simp only [Pipe.read, ended]⟩
  | none =>
      rw [← Pipe.reach_eq_held solid] at left
      obtain ⟨block, next, some, _, answer, _⟩ := Pipe.read_reaching ended room left
      refine .inl ?_
      rw [answer]
      simpa [Drawn.taken, ← Array.size_pos_iff] using some

theorem Sound.refines (sound : Sound planner kernel honest log length count session) :
    Refines kernel log length count session where
  present := sound.booked.present
  covered := sound.booked.covered
  delivered := ⟨_, sound.booked.kept.symm⟩
  drained view cause answer reason := by
    have nothing := (drained_of_read answer reason).1
    rw [sound.booked.kept, nothing, List.append_nil]
  stalled view index source answer := by
    have ended := (drained_of_read answer (.inr ⟨index, source, rfl⟩)).2
    obtain terminal | ⟨_, facts⟩ := sound.ended _ ended
    · cases terminal
    cases facts with
    | stalled split full lacks logged stops =>
        exact ⟨_, _, _, _, _, split, rfl, full, lacks, logged, stops⟩
  served out room behind := by
    have left : session.stitcher.pipe.held ≠ [] := fun none =>
      behind (by rw [sound.booked.kept, none, List.append_nil])
    exact served_of_held sound.booked.solid left room
  opened going := by
    cases sound.stands with
    | running stage stocked given shapes => exact fun input member => (given input member).opened
    | lingering stage stocked opened gathered => exact opened
    | broken stage member fault => exact absurd stage going
    | closed stage closed => exact absurd stage going
  closed stopped := by
    cases sound.stands with
    | running stage stocked given shapes => cases stage.symm.trans stopped
    | lingering stage stocked opened gathered => cases stage.symm.trans stopped
    | broken stage member fault => exact .inl ⟨_, member, fault⟩
    | closed stage closed => exact .inr closed

variable [Source ρ C]

theorem Booked.stop (logs : Source.Logs honest log)
    (booked : Booked kernel honest log length count session)
    (opened : ∀ input ∈ session.stitcher.inputs, .closed ∉ log input)
    (going : ∀ cause, session.stitcher.pipe.ending = some cause → cause.terminal = true)
    {cause : Error} (reason : cause.terminal = true ∨
      Ended log length session.made (session.stitcher.stop cause).inputs cause) :
    Sound planner kernel honest log length count
      { session with stitcher := session.stitcher.stop cause } := by
  have inputs : (session.stitcher.stop cause).inputs =
      session.stitcher.inputs.map fun input => (Source.close (C := C) input).2 :=
    Source.sources_closeAll _
  have logged (input : ρ) (member : input ∈ session.stitcher.inputs) :
      log (Source.close (C := C) input).2 = log input ++ [.closed] :=
    logs.logClose (booked.trusted input member)
  have held : (session.stitcher.pipe.closeWith cause).held = session.stitcher.pipe.held :=
    Pipe.held_closeWith cause
  refine ⟨⟨?_, ?_, ?_, ?_, ?_, booked.room, ?_⟩, ?_, ?_⟩
  · rw [inputs, List.length_map]
    exact booked.present
  · rw [inputs]
    exact List.forall_mem_map.mpr fun input member => logs.close (booked.trusted input member)
  · rw [inputs]
    refine List.forall_mem_map.mpr fun input member => ?_
    rw [logged input member, told_closed]
    exact booked.covered input member
  · simpa [Stitcher.stop, Pipe.dropWriter, Channel.dropWriter, Pipe.closeWith] using booked.heard
  · rw [inputs]
    refine Eq.trans (song_congr ?_ booked.covered) (booked.kept.trans (congrArg _ held.symm))
    refine List.forall₂_map_right_iff.mpr (List.forall₂_same.mpr fun input member => ?_)
    rw [logged input member, told_closed]
  · simpa [Stitcher.stop, Pipe.dropWriter, Channel.dropWriter, Pipe.closeWith] using booked.solid
  · intro last ended
    -- An error from before is the consumer's, and stays.
    have first : last = session.stitcher.pipe.ending.getD cause := by
      have found : some (session.stitcher.pipe.ending.getD cause) = some last := by
        simpa [Stitcher.stop, Pipe.dropWriter, Channel.dropWriter, Pipe.closeWith, Pipe.ending]
          using ended
      exact (Option.some.inj found).symm
    cases earlier : session.stitcher.pipe.ending with
    | none =>
        obtain rfl : last = cause := by rw [first, earlier]; rfl
        exact reason.imp_right fun facts => ⟨rfl, facts⟩
    | some other =>
        obtain rfl : last = other := by rw [first, earlier]; rfl
        exact .inl (going last earlier)
  · refine .closed rfl ?_
    rw [inputs]
    exact List.forall_mem_map.mpr fun input member => ⟨_, logged input member, opened input member⟩

theorem Sound.gathered (logs : Source.Logs honest log)
    (sound : Sound planner kernel honest log length count session)
    (running : session.stitcher.stage = .running)
    (stocked : session.stitcher.Stocked planner count length)
    (given : ∀ input ∈ session.stitcher.inputs, Given (session.made * length) (log input))
    (shapes : ∀ buffer ∈ session.stitcher.buffers,
      ∃ held, buffer = .complex held ∧ held.size = length) :
    Sound planner kernel honest log length count { session with
      stitcher := { session.stitcher.gathering with
        stage := .lingering session.stitcher.asked.outcome } } := by
  obtain ⟨readings, answered, grown, outcome, sources, buffers⟩ :=
    logs.fillAll_answered .stitching sound.booked.trusted given
      (stocked.sources.trans stocked.buffers.symm) shapes
  -- Answering adds to the records, so the blocks made so far stay what they are.
  have onward : List.Forall₂ (fun a b => told (log a) <+: told (log b)) session.stitcher.inputs
      session.stitcher.asked.sources := by
    rw [Stitcher.asked, sources]
    exact List.forall₂_map_right_iff.mpr (grown.imp fun _ _ => told_prefix)
  refine ⟨⟨stocked.gathering.sources, ?_, covered_grown onward sound.booked.covered,
    sound.booked.heard, ?_, sound.booked.room, sound.booked.solid⟩, ?_, ?_⟩
  · change ∀ input ∈ session.stitcher.asked.sources, honest input
    rw [Stitcher.asked, sources]
    exact List.forall_mem_map.mpr fun reading member => (answered reading member).trusted
  · exact (song_congr onward sound.booked.covered).trans sound.booked.kept
  · exact fun cause ended => .inl (sound.going (by simp [running]) cause ended)
  · refine .lingering rfl { stocked.gathering with } ?_ ?_
    · change ∀ input ∈ session.stitcher.asked.sources, .closed ∉ log input
      rw [Stitcher.asked, sources]
      exact List.forall_mem_map.mpr fun reading member => (answered reading member).opened
    · change Source.Gathered log .stitching _ length session.stitcher.asked.sources
        session.stitcher.asked.buffers session.stitcher.asked.outcome
      rw [Stitcher.asked, sources, buffers, outcome]
      exact Source.Answered.gathered answered .stitching

theorem Sound.ask (logs : Source.Logs honest log)
    (sound : Sound planner kernel honest log length count session) :
    Sound planner kernel honest log length count (session.act .ask) := by
  have still (idle : session.stitcher.ask = session.stitcher) :
      Sound planner kernel honest log length count (session.act .ask) := by
    rw [act, idle]
    exact sound
  cases sound.stands with
  | lingering stage => exact still (by simp [Stitcher.ask, stage])
  | broken stage => exact still (by simp [Stitcher.ask, stage])
  | closed stage => exact still (by simp [Stitcher.ask, stage])
  | running stage stocked given shapes =>
      have going := sound.going (by simp [stage])
      cases live : session.stitcher.cancelled with
      | true =>
          have stops : session.stitcher.ask = session.stitcher.stop .cancelled := by
            simp [Stitcher.ask, stage, live]
          rw [act, stops]
          exact sound.booked.stop logs (fun input member => (given input member).opened) going
            (.inr .cancelled)
      | false =>
          rw [act, Stitcher.ask_running stage live]
          exact sound.gathered logs stage stocked given shapes

theorem ended_of_stalled (logs : Source.Logs honest log) {inputs earlier later : List ρ} {input : ρ}
    {made : ℕ} {cause : Error} (trusted : ∀ input ∈ inputs, honest input)
    (split : inputs = earlier ++ input :: later)
    (given : ∀ other ∈ earlier, Given (made * length + length) (log other))
    (stalled : Stalled (made * length + length) (.error cause) (log input)) :
    Ended log length made (Source.closeAll (C := C) inputs).2
      (.stream earlier.length .stitching cause) := by
  have logged (other : ρ) (member : other ∈ inputs) :
      log (Source.close (C := C) other).2 = log other ++ [.closed] :=
    logs.logClose (trusted other member)
  obtain ⟨visits, last, same, _, stops⟩ := stalled.stops
  have here := logged input (by simp [split])
  have index : (earlier.map fun other => (Source.close (C := C) other).2).length =
      earlier.length := List.length_map _
  rw [Source.sources_closeAll, ← index]
  have record : log (Source.close (C := C) input).2 = visits ++ [last, .closed] := by
    rw [here, same, List.append_assoc]
    rfl
  refine .stalled (by rw [split, List.map_append, List.map_cons]) ?_ ?_ record stops
  · refine List.forall_mem_map.mpr fun other member => ?_
    rw [logged other (by simp [split, member]), told_closed, (given other member).size,
      Nat.succ_mul]
  · rw [here, told_closed, Nat.succ_mul]
    exact stalled.lacks

theorem Sound.completed (logs : Source.Logs honest log) (computes : planner.Computes kernel)
    (sound : Sound planner kernel honest log length count session)
    (stage : session.stitcher.stage = .lingering (.ok ()))
    (stocked : session.stitcher.Stocked planner count length)
    (given : ∀ input ∈ session.stitcher.inputs,
      Given (session.made * length + length) (log input))
    (held : session.stitcher.buffers = session.stitcher.inputs.map fun input =>
      .complex (cut (session.made * length) length (log input))) :
    Sound planner kernel honest log length count (session.act .resume) := by
  obtain rfl := stocked.planned
  have going := sound.going (by simp [stage])
  have opened : ∀ input ∈ session.stitcher.inputs, .closed ∉ log input :=
    fun input member => (given input member).opened
  have split : session.stitcher.buffers =
      (bands log length session.stitcher.inputs session.made).map .complex := by
    rw [held, bands, List.map_map]
    rfl
  have paired : (bands log length session.stitcher.inputs session.made).length = count := by
    rw [bands, List.length_map, stocked.sources]
  have sizes : ∀ block ∈ bands log length session.stitcher.inputs session.made,
      block.size = length :=
    List.forall_mem_map.mpr fun input member => (given input member).size_cut
  obtain ⟨made, ready, output, bufferCount, shapes⟩ :=
    stocked.bench.weaves computes paired sizes
  have finishes : session.stitcher.resume = session.stitcher.finish (.ok ()) := by
    simp [Stitcher.resume, stage]
  have waits : session.stitcher.stage.waits = true := by rw [stage]; rfl
  have ways := session.stitcher.pipe.written
    (weave kernel length (bands log length session.stitcher.inputs session.made))
  simp only [act, finishes, waits, Stitcher.finish, split, made, output]
  generalize session.stitcher.bench.make session.stitcher.planner _ = block at *
  generalize session.stitcher.pipe.write _ = answer at ways ⊢
  cases ways with
  | deserted running alone => cases sound.booked.heard.symm.trans alone
  | ended cause latched =>
      -- The worker goes on, so this is not its own error but that of a consumer that is done.
      have booked : Booked kernel honest log length count { session with
          stitcher := { session.stitcher with bench := block.bench, buffers := block.buffers } } :=
        { sound.booked with }
      exact booked.stop logs opened going (.inl (going cause latched))
  | overrun running heard full =>
      have booked : Booked kernel honest log length count { session with
          stitcher := { session.stitcher with
            bench := block.bench
            buffers := block.buffers
            pipe := session.stitcher.pipe.closeWith .overrun } } :=
        { sound.booked with
          heard := by simpa [Pipe.closeWith] using sound.booked.heard
          kept := by simpa using sound.booked.kept
          solid := by simpa [Pipe.closeWith] using sound.booked.solid }
      refine booked.stop logs opened (fun cause ended => ?_) (.inl rfl)
      have first : some Error.overrun = some cause := by
        simpa [Pipe.ending, Pipe.closeWith, running] using ended
      cases first
      rfl
  | queued running heard room =>
      have enough : ∀ input ∈ session.stitcher.inputs,
          Given ((session.made + 1) * length) (log input) := by
        intro input member
        rw [Nat.succ_mul]
        exact given input member
      have some : #[] ≠ weave kernel length
          (bands log length session.stitcher.inputs session.made) := by
        refine (Array.size_pos_iff.mp ?_).symm
        rw [← output, ready.output]
        exact sound.booked.room
      refine ⟨⟨stocked.sources, sound.booked.trusted, ?_, sound.booked.heard, ?_,
        sound.booked.room, by simp [Pipe.queue, sound.booked.solid, some]⟩, ?_, ?_⟩
      · exact fun input member => (enough input member).size.ge
      · have longer := song_succ kernel log length session.stitcher.inputs session.made
        rw [sound.booked.kept, List.append_assoc] at longer
        exact longer.trans (congrArg _ Pipe.held_queue.symm)
      · intro cause ended
        cases running.symm.trans ended
      · exact .running rfl ⟨rfl, stocked.sources, bufferCount, ready⟩ enough shapes

theorem Sound.resume (logs : Source.Logs honest log) (computes : planner.Computes kernel)
    (sound : Sound planner kernel honest log length count session) :
    Sound planner kernel honest log length count (session.act .resume) := by
  have still (idle : session.stitcher.resume = session.stitcher)
      (idler : session.stitcher.stage.waits = false) :
      Sound planner kernel honest log length count (session.act .resume) := by
    rw [act, idle, idler]
    exact sound
  cases sound.stands with
  | running stage => exact still (by simp [Stitcher.resume, stage]) (by rw [stage]; rfl)
  | broken stage => exact still (by simp [Stitcher.resume, stage]) (by rw [stage]; rfl)
  | closed stage => exact still (by simp [Stitcher.resume, stage]) (by rw [stage]; rfl)
  | @lingering outcome stage stocked opened gathered =>
      have going := sound.going (by simp [stage])
      have finishes : session.act .resume =
          { session with
            stitcher := session.stitcher.finish outcome
            made := session.made + (session.stitcher.finish outcome).stage.runs.toNat } := by
        simp [act, Stitcher.resume, stage, Stage.waits]
      cases gathered with
      | filled given held => exact sound.completed logs computes stage stocked given held
      | @stalled earlier later input cause split given stalled =>
          rw [finishes]
          exact sound.booked.stop logs opened going
            (.inr (ended_of_stalled logs sound.booked.trusted split given stalled))
      | @broken input member stalled =>
          rw [finishes]
          exact sound.booked.abandon going member stalled.broken

theorem Sound.work (logs : Source.Logs honest log) (computes : planner.Computes kernel)
    (sound : Sound planner kernel honest log length count session) :
    Sound planner kernel honest log length count (session.act .work) := by
  rcases session.act_work with idle | asks | both
  · rwa [idle]
  · rw [asks]
    exact sound.ask logs
  · rw [both]
    exact (sound.ask logs).resume logs computes

theorem Sound.read (sound : Sound planner kernel honest log length count session)
    (view : Buffer C) :
    Sound planner kernel honest log length count (session.act (.read view)) := by
  obtain ⟨moved, blocks, channel, _⟩ := Ledger.taken_read session.stitcher.pipe view
  have booked : Booked kernel honest log length count (session.act (.read view)) := {
    present := sound.booked.present
    trusted := sound.booked.trusted
    covered := sound.booked.covered
    heard := (congrArg Channel.readerGone channel).trans sound.booked.heard
    kept := (sound.booked.kept.trans (congrArg _ moved.symm)).trans
      (List.append_assoc _ _ _).symm
    room := sound.booked.room
    solid := fun member =>
      sound.booked.solid ((session.stitcher.pipe.blocks_read view).subset member) }
  have latched := session.stitcher.pipe.ending_read view
  exact ⟨booked, fun cause ended => sound.ended cause (latched.symm.trans ended),
    sound.stands.outside _ _ _⟩

theorem Sound.close (sound : Sound planner kernel honest log length count session) :
    Sound planner kernel honest log length count (session.act .close) := by
  have latched : (session.act .close).stitcher.pipe.ending =
      some (session.stitcher.pipe.ending.getD .pipeClosed) :=
    Channel.latched_latch _ _
  have booked : Booked kernel honest log length count (session.act .close) := {
    present := sound.booked.present
    trusted := sound.booked.trusted
    covered := sound.booked.covered
    heard := Channel.readerGone_latch.trans sound.booked.heard
    kept := sound.booked.kept.trans (congrArg _ (Pipe.held_closeWith _).symm)
    room := sound.booked.room
    solid := (Channel.blocks_latch _ _).symm ▸ sound.booked.solid }
  refine ⟨booked, fun cause ended => ?_, sound.stands.outside _ _ _⟩
  have first := Option.some.inj (latched.symm.trans ended)
  cases earlier : session.stitcher.pipe.ending with
  | none =>
      obtain rfl : .pipeClosed = cause := by simpa [earlier] using first
      exact .inl rfl
  | some other =>
      obtain rfl : other = cause := by simpa [earlier] using first
      exact sound.ended other earlier

theorem Sound.cancel (sound : Sound planner kernel honest log length count session) :
    Sound planner kernel honest log length count (session.act .cancel) :=
  ⟨{ sound.booked with }, sound.ended, sound.stands.outside _ _ _⟩

theorem Sound.act (logs : Source.Logs honest log) (computes : planner.Computes kernel)
    (sound : Sound planner kernel honest log length count session) (action : Action C) :
    Sound planner kernel honest log length count (session.act action) := by
  cases action with
  | work => exact sound.work logs computes
  | ask => exact sound.ask logs
  | resume => exact sound.resume logs computes
  | read view => exact sound.read view
  | close => exact sound.close
  | cancel => exact sound.cancel

theorem Sound.run (logs : Source.Logs honest log) (computes : planner.Computes kernel)
    (sound : Sound planner kernel honest log length count session) (actions : List (Action C)) :
    Sound planner kernel honest log length count (actions.foldl Session.act session) := by
  induction actions generalizing session with
  | nil => exact sound
  | cons action rest ih => exact ih (sound.act logs computes action)

theorem start_sound (computes : planner.Computes kernel) {settings : Settings}
    (checked : settings.check = .ok ()) {inputs : List ρ} (some : inputs ≠ [])
    (complex : ∀ input ∈ inputs, Source.format (C := C) input = .complex) {rate : ℕ}
    (rates : ∀ input ∈ inputs, Source.rate (C := C) input = rate)
    (fits : rate * inputs.length ≤ highestRate)
    (fresh : ∀ input ∈ inputs, honest input ∧ log input = []) (cancelled : Bool) :
    ∃ stitcher, Stitcher.start planner settings inputs cancelled = .ok stitcher ∧
      Sound planner kernel honest log settings.length inputs.length ⟨stitcher, 0, []⟩ := by
  obtain ⟨long, queue⟩ : 2 ≤ settings.length ∧ settings.queue ≠ 0 := by
    unfold Settings.check at checked
    split at checked
    · cases checked
    split at checked
    · cases checked
    · exact ⟨by omega, by assumption⟩
  have shared : Source.sharedRate inputs = .ok rate :=
    sharedRate_same (by simpa using some) (List.forall_mem_map.mpr fun input member => by
      rw [rates input member])
  have formats : checkFormats (inputs.map (Source.format (C := C))) = .ok () :=
    checkFormats_complex (List.forall_mem_map.mpr complex)
  obtain ⟨bench, prepared⟩ :=
    Bench.prepare_exists computes (List.length_pos_iff.mpr some) (show 0 < settings.length by omega)
  have silence : ∀ buffer : Buffer C,
      buffer ∈ List.replicate inputs.length (.silent .complex settings.length) →
        ∃ held, buffer = .complex held ∧ held.size = settings.length := by
    intro buffer member
    obtain rfl := List.eq_of_mem_replicate member
    exact ⟨_, rfl, Array.size_replicate⟩
  have started : Stitcher.start planner settings inputs cancelled = .ok {
      planner, inputs, bench, cancelled
      buffers := List.replicate inputs.length (.silent .complex settings.length)
      pipe := ⟨.ofCapacity settings.queue, rate * inputs.length, #[]⟩
      stage := .running } := by
    simp [Stitcher.start, checked, shared, formats, Nat.not_lt.mpr fits, prepared,
      Pipe.ofCapacity, queue, bind, Except.bind, pure, Except.pure]
  have room : 0 < settings.length * inputs.length :=
    Nat.mul_pos (by omega) (List.length_pos_iff.mpr some)
  refine ⟨_, started, ⟨rfl, fun input member => (fresh input member).1, ?_, rfl, rfl, room,
    List.not_mem_nil⟩, nofun, ?_⟩
  · simp
  · refine .running rfl ⟨rfl, rfl, List.length_replicate, Bench.ready_prepare prepared⟩ ?_ silence
    intro input member
    rw [(fresh input member).2]
    exact ⟨nofun, by simp [told]⟩

/-- Whatever a worker and its consumer do in turn, the consumer gets the blocks that belong to what
the inputs have given. -/
theorem after_refines (logs : Source.Logs honest log) (computes : planner.Computes kernel)
    {settings : Settings} (checked : settings.check = .ok ()) {inputs : List ρ}
    (some : inputs ≠ []) (complex : ∀ input ∈ inputs, Source.format (C := C) input = .complex)
    {rate : ℕ} (rates : ∀ input ∈ inputs, Source.rate (C := C) input = rate)
    (fits : rate * inputs.length ≤ highestRate)
    (fresh : ∀ input ∈ inputs, honest input ∧ log input = []) (cancelled : Bool) :
    ∃ stitcher, Stitcher.start planner settings inputs cancelled = .ok stitcher ∧
      ∀ actions, Refines kernel log settings.length inputs.length (after stitcher actions) := by
  obtain ⟨stitcher, started, sound⟩ :=
    start_sound computes checked some complex rates fits fresh cancelled
  exact ⟨stitcher, started, fun actions => (sound.run logs computes actions).refines⟩

theorem after_refines_uneven :
    ∃ stitcher : Stitcher (Logged (Scripted ℂ) ℂ) ℂ Plan,
      Stitcher.start (Planner.ofKernel Dft.transform) ⟨2, 1⟩
        [.ofSource (.ofScript ⟨.complex #[1, 2, 3, 4, 5], 1000, none, false, none, none, 0, none,
          none, none, none⟩ 0),
        .ofSource (.ofScript ⟨.complex #[6, 7, 8], 1000, some 1, false, none, none, 0, none, none,
          none, none⟩ 0)] false = .ok stitcher ∧
      ∀ actions, Refines Dft.transform Logged.visits 2 2 (after stitcher actions) :=
  after_refines (Logged.logs_visits Scripted.lends_sincere)
    (Planner.computes_ofKernel Dft.size_transform) rfl (by simp)
    (by simp [Source.format, Logged.ofSource, Scripted.ofScript, Buffer.format])
    (by simp [Source.rate, Logged.ofSource, Scripted.ofScript])
    (show 1000 * 2 ≤ highestRate by decide)
    (by simp [Scripted.Sincere, Logged.ofSource, Scripted.ofScript]) false

end Session

end Wideband.Stitch
