import Wideband.Proofs.Outcome
import Wideband.Proofs.Pipe.Calls
import Wideband.Proofs.Simulation.Replaying
import Wideband.Proofs.Stitch.Stacking
import Wideband.Stitch.Stitcher

namespace Wideband.Stitch.Stitcher

/-!
Every block of a stitched stream. Whatever its worker and its consumer do in turn, the transforms
of a worker that has not stopped fit its inputs (`Stocked`). So each block that the worker queues
carries one block of every input in a band of its own (`Completes.carries_inputs`).
-/

variable {ρ C R π : Type}

inductive Reachable [Zero C] [Component R] [Sample C R] [Source ρ C] (planner : Planner C π)
    (settings : Settings) (inputs : List ρ) (cancelled : Bool) : Stitcher ρ C π → Prop where
  | start {stitcher : Stitcher ρ C π}
      (started : start planner settings inputs cancelled = .ok stitcher) :
      Reachable planner settings inputs cancelled stitcher
  | work {stitcher : Stitcher ρ C π}
      (earlier : Reachable planner settings inputs cancelled stitcher) :
      Reachable planner settings inputs cancelled stitcher.work
  | resume {stitcher : Stitcher ρ C π}
      (earlier : Reachable planner settings inputs cancelled stitcher) :
      Reachable planner settings inputs cancelled stitcher.resume
  | draw {stitcher : Stitcher ρ C π}
      (earlier : Reachable planner settings inputs cancelled stitcher) (view : Buffer C) :
      Reachable planner settings inputs cancelled (stitcher.draw view).reader
  | close {stitcher : Stitcher ρ C π}
      (earlier : Reachable planner settings inputs cancelled stitcher) :
      Reachable planner settings inputs cancelled stitcher.close
  | cancel {stitcher : Stitcher ρ C π}
      (earlier : Reachable planner settings inputs cancelled stitcher) :
      Reachable planner settings inputs cancelled stitcher.cancel

/-- An action with which the worker completes a block, and what it has read for that block. A block
is completed when the worker is ready for the next one. -/
inductive Completes [Component R] [Sample C R] [Source ρ C] (before : Stitcher ρ C π) :
    List (Buffer C) → Stitcher ρ C π → Prop where
  | work (running : before.stage = .running) (done : before.work.stage = .running) :
      Completes before (Source.fillAll .stitching before.inputs before.buffers).buffers before.work
  | resume (outcome : Outcome Unit) (lingering : before.stage = .lingering outcome)
      (done : before.resume.stage = .running) :
      Completes before before.buffers before.resume

section Steps

variable [Source ρ C] {planner : Planner C π} {inputs length : ℕ} {stitcher : Stitcher ρ C π}

/-- There is a buffer for every input, and the transforms fit them. -/
structure Stocked (planner : Planner C π) (inputs length : ℕ) (stitcher : Stitcher ρ C π) :
    Prop where
  planned : stitcher.planner = planner
  sources : stitcher.inputs.length = inputs
  buffers : stitcher.buffers.length = inputs
  bench : stitcher.bench.Ready planner inputs length

theorem Stocked.start [Zero C] {settings : Settings} {sources : List ρ} {cancelled : Bool}
    (started : start planner settings sources cancelled = .ok stitcher) :
    2 ≤ settings.length ∧ stitcher.Stocked planner sources.length settings.length := by
  unfold Stitcher.start at started
  obtain ⟨_, checked, started⟩ := Outcome.of_bind started
  obtain ⟨rate, _, started⟩ := Outcome.of_bind started
  obtain ⟨_, _, started⟩ := Outcome.of_bind started
  obtain ⟨_, started⟩ := Outcome.of_unless started
  obtain ⟨bench, prepared, started⟩ := Outcome.of_bind started
  obtain ⟨pipe, _, started⟩ := Outcome.of_bind started
  cases started
  refine ⟨?_, {
    planned := rfl
    sources := rfl
    buffers := List.length_replicate
    bench := Bench.ready_prepare prepared }⟩
  unfold Settings.check at checked
  split at checked
  · cases checked
  · omega

def asked (stitcher : Stitcher ρ C π) : Gathering ρ C :=
  Source.fillAll .stitching stitcher.inputs stitcher.buffers

def gathering (stitcher : Stitcher ρ C π) : Stitcher ρ C π :=
  { stitcher with
    inputs := stitcher.asked.sources
    buffers := stitcher.asked.buffers
    cancelled := stitcher.asked.signals.cancels }

theorem Stocked.gathering (stocked : stitcher.Stocked planner inputs length) :
    stitcher.gathering.Stocked planner inputs length where
  planned := stocked.planned
  sources := by
    simp [Stitcher.gathering, asked, Source.fillAll, stocked.sources, stocked.buffers]
  buffers := by
    simp [Stitcher.gathering, asked, Source.fillAll, stocked.sources, stocked.buffers]
  bench := stocked.bench

variable [Component R] [Sample C R]

theorem finish_running {outcome : Outcome Unit}
    (done : (stitcher.finish outcome).stage = .running) :
    (stitcher.bench.make stitcher.planner stitcher.buffers).result = .ok () ∧
      stitcher.finish outcome =
        { stitcher with
          bench := (stitcher.bench.make stitcher.planner stitcher.buffers).bench
          buffers := (stitcher.bench.make stitcher.planner stitcher.buffers).buffers
          pipe := stitcher.pipe.queue
            (stitcher.bench.make stitcher.planner stitcher.buffers).bench.output
          stage := .running } := by
  cases outcome with
  | error failure => cases failure <;> simp [finish, abandon, stop] at done
  | ok _ =>
      cases made : (stitcher.bench.make stitcher.planner stitcher.buffers).result with
      | error cause => simp [finish, made, stop] at done
      | ok _ =>
          simp only [finish, made] at done ⊢
          have ways := stitcher.pipe.written
            (stitcher.bench.make stitcher.planner stitcher.buffers).bench.output
          generalize stitcher.pipe.write _ = answer at ways done ⊢
          cases ways with
          | queued running heard room => exact ⟨trivial, rfl⟩
          | ended cause latched => simp [stop] at done
          | overrun running heard full => simp [stop] at done
          | deserted running alone => simp [stop] at done

theorem finish_stopped {outcome : Outcome Unit}
    (halted : (stitcher.finish outcome).stage ≠ .running) :
    (stitcher.finish outcome).stage = .stopped := by
  cases outcome with
  | error failure => cases failure <;> rfl
  | ok _ =>
      cases made : (stitcher.bench.make stitcher.planner stitcher.buffers).result with
      | error cause => simp [finish, made, stop]
      | ok _ =>
          simp only [finish, made] at halted ⊢
          generalize stitcher.pipe.write _ = answer at halted ⊢
          obtain ⟨result, pipe⟩ := answer
          cases result with
          | error cause => rfl
          | ok count => exact absurd rfl halted

inductive Worked (stitcher : Stitcher ρ C π) : Stitcher ρ C π → Prop where
  | cancelled (ended : stitcher.cancelled = true) : Worked stitcher (stitcher.stop .cancelled)
  | lingers (outcome : Outcome Unit) (answered : stitcher.asked.outcome = outcome) :
      Worked stitcher { stitcher.gathering with stage := .lingering outcome }
  | finishes (outcome : Outcome Unit) (answered : stitcher.asked.outcome = outcome) :
      Worked stitcher (stitcher.gathering.finish outcome)

theorem worked (running : stitcher.stage = .running) : Worked stitcher stitcher.work := by
  cases ended : stitcher.cancelled with
  | true =>
      have answer : stitcher.work = stitcher.stop .cancelled := by simp [work, running, ended]
      exact answer ▸ .cancelled ended
  | false =>
      have answer : stitcher.work =
          if stitcher.asked.signals.lingers && !stitcher.gathering.cancelled then
            { stitcher.gathering with stage := .lingering stitcher.asked.outcome }
          else stitcher.gathering.finish stitcher.asked.outcome := by
        simp only [work, running, ended]
        rfl
      rw [answer]
      split
      · exact .lingers _ rfl
      · exact .finishes _ rfl

theorem work_prompt (running : stitcher.stage = .running) (live : stitcher.cancelled = false)
    (prompt : stitcher.asked.signals.lingers = false) :
    stitcher.work = stitcher.gathering.finish stitcher.asked.outcome := by
  have waits : (stitcher.asked.signals.lingers && !stitcher.gathering.cancelled) = false := by
    rw [prompt, Bool.false_and]
  simp only [asked, gathering] at waits
  simp [work, running, live, waits, asked, gathering]

end Steps

variable [Source ρ ℂ] {planner : Planner ℂ π} {inputs length : ℕ} {stitcher : Stitcher ρ ℂ π}

theorem Stocked.finish (stocked : stitcher.Stocked planner inputs length)
    (exact : planner.IsFourier) (room : 0 < length) {outcome : Outcome Unit}
    (done : (stitcher.finish outcome).stage = .running) :
    (stitcher.finish outcome).Stocked planner inputs length ∧
      ∃ (blocks : List (Array ℂ)) (joined : Array ℂ),
        stitcher.buffers = blocks.map .complex ∧ blocks.length = inputs ∧
        (∀ block ∈ blocks, block.size = length) ∧
        (stitcher.finish outcome).pipe = stitcher.pipe.queue joined ∧
        Joined length blocks joined := by
  obtain ⟨made, state⟩ := finish_running done
  rw [stocked.planned] at made state
  obtain ⟨ready, same, blocks, split, sizes, joined⟩ :=
    stocked.bench.make exact room stocked.buffers made
  have count : blocks.length = inputs := by rw [← stocked.buffers, split, List.length_map]
  rw [state]
  exact ⟨⟨rfl, stocked.sources, by rw [same, stocked.buffers], ready⟩,
    blocks, _, split, count, sizes, rfl, joined⟩

theorem Stocked.completes (stocked : stitcher.Stocked planner inputs length)
    (exact : planner.IsFourier) (reliable : planner.Reliable) {blocks : List (Array ℂ)}
    (split : stitcher.buffers = blocks.map .complex) (sizes : ∀ block ∈ blocks, block.size = length)
    (running : stitcher.pipe.channel.latched = none)
    (heard : stitcher.pipe.channel.readerGone = false)
    (room : stitcher.pipe.channel.blocks.length < stitcher.pipe.channel.capacity) :
    (stitcher.finish (.ok ())).stage = .running := by
  have count : blocks.length = inputs := by rw [← stocked.buffers, split, List.length_map]
  have made := stocked.bench.makes exact reliable count sizes
  have taken : ∀ block, stitcher.pipe.write block = (.ok block.size, stitcher.pipe.queue block) := by
    intro block
    simp [Pipe.write, running, Channel.put, heard, Nat.not_le.mpr room, Pipe.queue]
  simp [Stitcher.finish, stocked.planned, split, made, taken]

theorem Stocked.continues (stocked : stitcher.Stocked planner inputs length)
    (exact : planner.IsFourier) (room : 0 < length) {outcome : Outcome Unit}
    (going : (stitcher.finish outcome).stage ≠ .stopped) :
    (stitcher.finish outcome).Stocked planner inputs length := by
  by_cases done : (stitcher.finish outcome).stage = .running
  · exact (stocked.finish exact room done).1
  · exact absurd (finish_stopped done) going

theorem Stocked.work (stocked : stitcher.Stocked planner inputs length)
    (exact : planner.IsFourier) (room : 0 < length) (going : stitcher.work.stage ≠ .stopped) :
    stitcher.work.Stocked planner inputs length := by
  cases stage : stitcher.stage with
  | stopped => simpa [Stitcher.work, stage] using stocked
  | lingering outcome => simpa [Stitcher.work, stage] using stocked
  | running =>
      have ways := worked stage
      generalize stitcher.work = next at ways going ⊢
      cases ways with
      | cancelled ended => exact absurd rfl going
      | lingers outcome => exact { stocked.gathering with }
      | finishes outcome => exact stocked.gathering.continues exact room going

theorem Stocked.resume (stocked : stitcher.Stocked planner inputs length)
    (exact : planner.IsFourier) (room : 0 < length) (going : stitcher.resume.stage ≠ .stopped) :
    stitcher.resume.Stocked planner inputs length := by
  cases stage : stitcher.stage with
  | stopped => simpa [Stitcher.resume, stage] using stocked
  | running => simpa [Stitcher.resume, stage] using stocked
  | lingering outcome =>
      have answer : stitcher.resume = stitcher.finish outcome := by
        simp [Stitcher.resume, stage]
      rw [answer] at going ⊢
      exact stocked.continues exact room going

theorem Reachable.stocked {settings : Settings} {sources : List ρ} {cancelled : Bool}
    (reachable : Reachable planner settings sources cancelled stitcher)
    (exact : planner.IsFourier) (going : stitcher.stage ≠ .stopped) :
    2 ≤ settings.length ∧ stitcher.Stocked planner sources.length settings.length := by
  induction reachable with
  | start started => exact Stocked.start started
  | draw earlier view ih =>
      obtain ⟨long, stocked⟩ := ih going
      exact ⟨long, { stocked with }⟩
  | close earlier ih =>
      obtain ⟨long, stocked⟩ := ih going
      exact ⟨long, { stocked with }⟩
  | cancel earlier ih =>
      obtain ⟨long, stocked⟩ := ih going
      exact ⟨long, { stocked with }⟩
  | @work stitcher earlier ih =>
      have before : stitcher.stage ≠ .stopped := by
        intro stopped
        simp [Stitcher.work, stopped] at going
      obtain ⟨long, stocked⟩ := ih before
      exact ⟨long, stocked.work exact (by omega) going⟩
  | @resume stitcher earlier ih =>
      have before : stitcher.stage ≠ .stopped := by
        intro stopped
        simp [Stitcher.resume, stopped] at going
      obtain ⟨long, stocked⟩ := ih before
      exact ⟨long, stocked.resume exact (by omega) going⟩

/-- Every block that a worker completes carries a block of each input in a band of its own, in
ascending frequency order, with one gain for all of them, and is queued behind the earlier ones. -/
theorem Completes.carries_inputs (exact : planner.IsFourier) {settings : Settings} {sources : List ρ}
    {cancelled : Bool} (reachable : Reachable planner settings sources cancelled stitcher)
    {buffers : List (Buffer ℂ)} {after : Stitcher ρ ℂ π}
    (completes : stitcher.Completes buffers after) :
    ∃ (blocks : List (Array ℂ)) (joined : Array ℂ),
      buffers = blocks.map .complex ∧ blocks.length = sources.length ∧
      (∀ block ∈ blocks, block.size = settings.length) ∧
      after.pipe.channel.blocks = stitcher.pipe.channel.blocks ++ [joined] ∧
      Joined settings.length blocks joined := by
  cases completes with
  | work running done =>
      obtain ⟨long, stocked⟩ := reachable.stocked exact (by simp [running])
      have ways := worked running
      generalize stitcher.work = next at ways done ⊢
      cases ways with
      | cancelled ended => cases done
      | lingers outcome => cases done
      | finishes outcome =>
          obtain ⟨_, blocks, joined, split, count, sizes, queued, carried⟩ :=
            stocked.gathering.finish exact (by omega) done
          exact ⟨blocks, joined, split, count, sizes, by rw [queued]; rfl, carried⟩
  | resume outcome lingering done =>
      obtain ⟨long, stocked⟩ := reachable.stocked exact (by simp [lingering])
      have answer : stitcher.resume = stitcher.finish outcome := by
        simp [Stitcher.resume, lingering]
      rw [answer] at done ⊢
      obtain ⟨_, blocks, joined, split, count, sizes, queued, carried⟩ :=
        stocked.finish exact (by omega) done
      exact ⟨blocks, joined, split, count, sizes, by rw [queued]; rfl, carried⟩

theorem Completes.carries_pulses :
    ∃ stitcher after : Stitcher (Replay ℂ) ℂ Plan,
      start (Planner.ofKernel Dft.transform) ⟨3, 1⟩
        [.ofSignal #[1, 0, 0] 1, .ofSignal #[0, 1, 0] 1] false = .ok stitcher ∧
      stitcher.Completes stitcher.asked.buffers after ∧
      ∃ blocks joined, stitcher.asked.buffers = blocks.map .complex ∧ blocks.length = 2 ∧
        after.pipe.channel.blocks = [joined] ∧ Joined 3 blocks joined := by
  obtain ⟨stitcher, started, sources, buffers, running, live, pipe⟩ :
      ∃ stitcher : Stitcher (Replay ℂ) ℂ Plan,
        start (Planner.ofKernel Dft.transform) ⟨3, 1⟩
          [.ofSignal #[1, 0, 0] 1, .ofSignal #[0, 1, 0] 1] false = .ok stitcher ∧
        stitcher.inputs = [.ofSignal #[1, 0, 0] 1, .ofSignal #[0, 1, 0] 1] ∧
        stitcher.buffers = [.silent .complex 3, .silent .complex 3] ∧
        stitcher.stage = .running ∧ stitcher.cancelled = false ∧
        stitcher.pipe = ⟨.ofCapacity 1, 2, #[]⟩ :=
    ⟨_, rfl, rfl, rfl, rfl, rfl, rfl⟩
  obtain ⟨_, stocked⟩ := Stocked.start started
  let pulses : List {signal : Array ℂ // 0 < signal.size} :=
    [⟨#[1, 0, 0], by decide⟩, ⟨#[0, 1, 0], by decide⟩]
  let blocks := pulses.map fun signal => Source.stretch (Replay.content signal.val 1) 0 3
  have sized : ∀ buffer ∈ stitcher.buffers,
      ∃ out : Array ℂ, buffer = .complex out ∧ out.size = 3 := by
    simp [buffers, Buffer.silent]
  have filled := Source.fillAll_plays
    (fun pulse : {signal : Array ℂ // 0 < signal.size} => Replay.plays pulse.property 1 1) .stitching
    (pulses.map fun signal => (signal, 0)) (by simp [buffers, pulses]) sized
  have inputs : (pulses.map fun signal => (signal, 0)).map
      (fun place => Replay.standing place.1.val 1 1 place.2) = stitcher.inputs := by
    simp [pulses, sources, Replay.ofSignal_standing]
  rw [inputs] at filled
  have answered : stitcher.asked.outcome = .ok () := by rw [asked, filled]
  have prompt : stitcher.asked.signals.lingers = false := by rw [asked, filled]; rfl
  have split : stitcher.asked.buffers = blocks.map .complex := by rw [asked, filled]; rfl
  have sizes : ∀ block ∈ blocks, block.size = 3 := by
    intro block member
    obtain ⟨_, _, rfl⟩ := List.mem_map.mp member
    exact Source.size_stretch _ _ _
  have done : stitcher.work.stage = .running := by
    rw [work_prompt running live prompt, answered]
    exact stocked.gathering.completes Planner.isFourier_ofKernel (Planner.reliable_ofKernel _)
      split sizes (by rw [gathering, pipe]; rfl) (by rw [gathering, pipe]; rfl)
      (by rw [gathering, pipe]; decide)
  have completes : stitcher.Completes stitcher.asked.buffers stitcher.work := .work running done
  obtain ⟨blocks, joined, same, count, _, queued, carried⟩ :=
    Completes.carries_inputs Planner.isFourier_ofKernel (.start started) completes
  refine ⟨stitcher, _, started, completes, blocks, joined, same, count, ?_, carried⟩
  rw [queued, pipe]
  rfl

end Wideband.Stitch.Stitcher
