import Wideband.Array.Tiled
import Wideband.Proofs.Array.Alike
import Wideband.Proofs.Array.Coherence
import Wideband.Proofs.Stitch.Session

namespace Wideband

/-!
What becomes of a tiled array over many sessions. All of its sessions watch one token, which the end
of any session raises (`TiledArray.History.kept`). As long as no session has ended a further start
goes as the first one did; after that none succeeds (`TiledArray.start_again`).
-/

variable {τ ρ C R π F : Type}

theorem Rotated.calm [Component R] [Sample C R] [Source ρ C] (calm : Source.Calm ρ) :
    Source.Calm (Rotated ρ C) := by
  intro source view
  change (source.read view).signals.cancels = false
  unfold read
  split
  · rfl
  · exact calm source.inner _

namespace Stitch

inductive Handling (C : Type) where
  | work
  | ask
  | resume
  | read (view : Buffer C)
  | close
  | drop

def Handling.ends : Handling C → Bool
  | .close => true
  | .drop => true
  | _ => false

namespace Stitcher

variable [Component R] [Sample C R] [Source ρ C]

def handle (stitcher : Stitcher ρ C π) : Handling C → Stitcher ρ C π
  | .work => stitcher.work
  | .ask => stitcher.ask
  | .resume => stitcher.resume
  | .read view => (stitcher.draw view).reader
  | .close => stitcher.close
  | .drop => stitcher.drop

theorem cancelled_finish (stitcher : Stitcher ρ C π) (outcome : Outcome Unit) :
    (stitcher.finish outcome).cancelled = stitcher.cancelled := by
  unfold finish
  split
  · rfl
  · rfl
  · dsimp only
    split
    · rfl
    · split <;> rfl

theorem cancelled_work (calm : Source.Calm ρ) (stitcher : Stitcher ρ C π) :
    stitcher.work.cancelled = stitcher.cancelled := by
  have silent : stitcher.asked.signals.cancels = false := Source.fillAll_calm calm _ _ _
  cases stage : stitcher.stage with
  | stopped => simp only [work, stage]
  | lingering outcome => simp only [work, stage]
  | running =>
      cases live : stitcher.cancelled with
      | true =>
          have halted : stitcher.work = stitcher.stop .cancelled := by simp [work, stage, live]
          rw [halted]
          exact live
      | false =>
          have way := worked stage
          generalize stitcher.work = next at way ⊢
          cases way with
          | cancelled ended => exact live
          | lingers outcome answered => exact silent
          | finishes outcome answered =>
              rw [cancelled_finish]
              exact silent

theorem cancelled_ask (calm : Source.Calm ρ) (stitcher : Stitcher ρ C π) :
    stitcher.ask.cancelled = stitcher.cancelled := by
  have silent : stitcher.asked.signals.cancels = false := Source.fillAll_calm calm _ _ _
  unfold ask
  split
  · split
    · rfl
    · rename_i live
      rw [Bool.not_eq_true] at live
      rw [live]
      exact silent
  · rfl

theorem cancelled_resume (stitcher : Stitcher ρ C π) :
    stitcher.resume.cancelled = stitcher.cancelled := by
  unfold resume
  split
  · exact stitcher.cancelled_finish _
  · rfl

theorem cancelled_handle (calm : Source.Calm ρ) (stitcher : Stitcher ρ C π)
    (handling : Handling C) :
    (stitcher.handle handling).cancelled = (stitcher.cancelled || handling.ends) := by
  cases handling with
  | work => exact (stitcher.cancelled_work calm).trans (Bool.or_false _).symm
  | ask => exact (stitcher.cancelled_ask calm).trans (Bool.or_false _).symm
  | resume => exact stitcher.cancelled_resume.trans (Bool.or_false _).symm
  | read view => exact (Bool.or_false _).symm
  | close => exact (Bool.or_true _).symm
  | drop => exact (Bool.or_true _).symm

end Stitcher

end Stitch

namespace LockedArray

variable [Receiver τ ρ F] [Component R] [Sample C R] [Source ρ C]

theorem lock_kept (calm : Source.Calm ρ) (array : LockedArray τ C π) :
    ∃ receivers, (lock array).array = { array with receivers } := by
  unfold lock
  split
  · exact ⟨_, rfl⟩
  · rename_i streams receivers begun
    have kept := (lockStreams_keeps array.planner array.settings streams array.cancelled).calm
      (Converted.calm calm)
    dsimp only
    rw [kept]
    split
    · exact ⟨_, rfl⟩
    · exact ⟨_, rfl⟩

theorem quiet_kept (left : Start τ ρ C π) :
    ∃ receivers, (quiet left).array = { left.array with receivers } := by
  unfold quiet
  split
  · exact ⟨_, rfl⟩
  · exact ⟨_, rfl⟩
  · dsimp only
    split
    · exact ⟨_, rfl⟩
    · exact ⟨_, rfl⟩

theorem start_kept (calm : Source.Calm ρ) (array : LockedArray τ C π) :
    ∃ receivers, (start array).array = { array with receivers } := by
  unfold start
  split
  · exact ⟨_, rfl⟩
  · cases on : Receiver.each (Receiver.switch true) array.receivers with
    | mk result noisy =>
        cases result with
        | error cause =>
            simp only [switchNoise, on]
            exact ⟨_, rfl⟩
        | ok _ =>
            simp only [switchNoise, on]
            obtain ⟨started, locked⟩ := lock_kept calm { array with receivers := noisy }
            obtain ⟨quieted, left⟩ := quiet_kept (lock { array with receivers := noisy })
            exact ⟨quieted, by rw [left, locked]⟩

end LockedArray

namespace TiledArray

variable [Receiver τ ρ F] [Component R] [Sample C R] [Source ρ C]

theorem outcome_start (calm : Source.Calm ρ) (array : TiledArray τ ρ C π F) :
    (start array).outcome.map (fun _ => ()) = (do
      let session ← array.locked.start.outcome
      Outcome.ofResult ((Stitch.Stitcher.start array.locked.planner array.settings session.readers
        array.locked.cancelled).map fun _ => ())) := by
  obtain ⟨receivers, kept⟩ := LockedArray.start_kept calm array.locked
  unfold start
  dsimp only
  rw [kept]
  cases array.locked.start.outcome with
  | error failure => rfl
  | ok session =>
      dsimp only [bind, Except.bind]
      cases Stitch.Stitcher.start array.locked.planner array.settings session.readers
          array.locked.cancelled with
      | error cause => rfl
      | ok stitcher => rfl

theorem start_kept (calm : Source.Calm ρ) (array : TiledArray τ ρ C π F) :
    ∃ receivers sessions, (start array).array =
      { array with locked := { array.locked with receivers }, sessions } := by
  obtain ⟨receivers, kept⟩ := LockedArray.start_kept calm array.locked
  unfold start
  dsimp only
  rw [kept]
  split
  · exact ⟨receivers, array.sessions, rfl⟩
  · split
    · exact ⟨receivers, array.sessions, rfl⟩
    · exact ⟨receivers, _, rfl⟩

/-- What an array can go through whose owner cancels nothing, and whether one of its sessions has
ended meanwhile. -/
inductive History (first : TiledArray τ ρ C π F) : TiledArray τ ρ C π F → Bool → Prop where
  | fresh : History first first false
  | started {array : TiledArray τ ρ C π F} {ended : Bool} (earlier : History first array ended) :
      History first (start array).array ended
  /-- The receivers are tuned, or used otherwise, or replaced. -/
  | used {array : TiledArray τ ρ C π F} {ended : Bool} (earlier : History first array ended)
      (receivers : List τ) (center : Option F) :
      History first { array with locked := { array.locked with receivers }, center } ended
  | handled {array next : TiledArray τ ρ C π F} {ended : Bool} (earlier : History first array ended)
      (index : ℕ) (handling : Stitch.Handling C)
      (done : array.inSession index (fun session => ((), session.handle handling)) =
        some ((), next)) :
      History first next (ended || handling.ends)

variable {first later : TiledArray τ ρ C π F} {ended : Bool}

theorem History.kept (calm : Source.Calm ρ) (live : first.locked.cancelled = false)
    (history : History first later ended) :
    later.settings = first.settings ∧ ∃ receivers,
      later.locked = { first.locked with receivers, cancelled := ended } := by
  induction history with
  | fresh => exact ⟨rfl, first.locked.receivers, by rw [← live]⟩
  | @started array ended earlier ih =>
      obtain ⟨settings, receivers, locked⟩ := ih
      obtain ⟨next, sessions, kept⟩ := start_kept calm array
      exact ⟨by rw [kept, ← settings], next, by rw [kept, locked]⟩
  | used earlier receivers center ih =>
      obtain ⟨settings, _, locked⟩ := ih
      exact ⟨settings, receivers, by rw [locked]⟩
  | @handled array next ended earlier index handling done ih =>
      obtain ⟨settings, receivers, locked⟩ := ih
      unfold inSession at done
      split at done
      · cases done
      · rename_i session found
        -- A session looks at the token of the array, whatever it last saw of it.
        have token := Stitch.Stitcher.cancelled_handle (Rotated.calm (Converted.calm calm))
          { session with cancelled := array.locked.cancelled } handling
        cases done
        refine ⟨settings, receivers, ?_⟩
        dsimp only
        rw [token, locked]

end TiledArray

section Silence

open Lock

variable {π : Type} {signal : Array ℂ} {rate : ℕ}

def Listener.silent (signal : Array ℂ) (rate : ℕ) (skew : Skew) : Listener :=
  ⟨signal, rate, skew, none⟩

theorem Replay.calm : Source.Calm (Replay ℂ) := by
  intro replay view
  cases view <;> rfl

theorem Receiver.each_silent (enabled : Bool) (skews : List Skew) :
    Receiver.each (Receiver.switch enabled) (skews.map (Listener.silent signal rate)) =
      (.ok (), skews.map (Listener.silent signal rate)) := by
  induction skews with
  | nil => rfl
  | cons skew skews ih =>
      have own : Receiver.switch enabled (Listener.silent signal rate skew) =
          (.ok (), Listener.silent signal rate skew) := rfl
      simp only [List.map_cons, Receiver.each, own, ih]

theorem LockedArray.startEach_silent (room : 0 < signal.size) (skews : List Skew) :
    LockedArray.startEach (skews.map (Listener.silent signal rate)) =
      (.ok (), skews.map fun skew => skew.reader signal rate (skew.place signal.size),
        skews.map (Listener.silent signal rate)) := by
  induction skews with
  | nil => rfl
  | cons skew skews ih =>
      have own : Receiver.start (Listener.silent signal rate skew) =
          (.ok (skew.stream signal rate), Listener.silent signal rate skew) := rfl
      simp only [List.map_cons, LockedArray.startEach, own, ih, Skew.stream_standing room]
      rfl

theorem LockedArray.start_silent {array : LockedArray Listener ℂ π} {first : Skew}
    {rest : List Skew} (exact : array.planner.IsFourier) (reliable : array.planner.Reliable)
    (distinct : Distinct signal) (long : 2 ≤ signal.size)
    (hears : array.receivers = (first :: rest).map (Listener.silent signal rate))
    (checked : array.settings.check = .ok ()) (length : array.settings.length = signal.size)
    (patient : ∀ limit ∈ array.settings.maxAttempts, 2 ≤ limit)
    (live : array.cancelled = false) :
    ∃ session place, start array = ⟨.ok session, [], array⟩ ∧
      session.readers.map Rotated.inner =
        (first :: rest).map fun skew => skew.reader signal rate place := by
  have room : 0 < signal.size := Nat.lt_of_lt_of_le (by decide) long
  obtain ⟨attempts, place, _, locked⟩ := lockStreams_skews
    (scene_skews exact reliable distinct long length rate) checked patient first rest
  have rates : array.rate = .ok rate := by
    refine sharedRate_same (by simp [hears]) fun answer member => ?_
    rw [hears, List.map_map] at member
    obtain ⟨skew, _, rfl⟩ := List.mem_map.mp member
    rfl
  have same : (⟨(first :: rest).map (Listener.silent signal rate), array.planner, array.settings,
      false⟩ : LockedArray Listener ℂ π) = array := by
    rw [← hears, ← live]
  let session : Session (Replay ℂ) ℂ := sessionOf
    ⟨.ok (⟨attempts, 0, (first :: rest).map fun skew => (settled signal.size first rest skew).drained⟩,
        1 :: rest.map fun skew => first.factor * starRingEnd ℂ skew.factor),
      (first :: rest).map fun skew => skew.reader signal rate place, false⟩
    ⟨attempts, 0, (first :: rest).map fun skew => (settled signal.size first rest skew).drained⟩
    (1 :: rest.map fun skew => first.factor * starRingEnd ℂ skew.factor)
  refine ⟨session, place, ?_, inner_rotated (by simp)⟩
  have done : lock array = (⟨.ok session, [], array⟩ : Start Listener (Replay ℂ) ℂ π) := by
    simp only [lock, hears, startEach_silent room, live, locked, same]
    rfl
  have switched : ∀ enabled, array.switchNoise enabled = (.ok (), array) := by
    intro enabled
    simp only [switchNoise, hears, Receiver.each_silent]
    rw [← hears]
  have passed : (do array.settings.check; array.rate : Except Error ℕ) = .ok rate := by
    simp only [checked, rates, bind, Except.bind]
  simp only [start, passed, switched, done, quiet]

theorem TiledArray.start_silent {array : TiledArray Listener (Replay ℂ) ℂ π ℕ}
    {kernel : Kernel ℂ} {first : Skew} {rest : List Skew}
    (exact : array.locked.planner.IsFourier) (reliable : array.locked.planner.Reliable)
    (computes : array.locked.planner.Computes kernel) (distinct : Distinct signal)
    (long : 2 ≤ signal.size)
    (hears : array.locked.receivers = (first :: rest).map (Listener.silent signal rate))
    (checked : array.locked.settings.check = .ok ())
    (length : array.locked.settings.length = signal.size)
    (patient : ∀ limit ∈ array.locked.settings.maxAttempts, 2 ≤ limit)
    (live : array.locked.cancelled = false) (stitched : array.settings.check = .ok ())
    (fits : rate * (rest.length + 1) ≤ Stitch.highestRate) :
    ∃ stitcher, start array = ⟨.ok array.sessions.length, [],
      { array with sessions := array.sessions ++ [stitcher] }⟩ := by
  obtain ⟨session, place, started, inner⟩ :=
    LockedArray.start_silent exact reliable distinct long hears checked length patient live
  have size : session.readers.length = rest.length + 1 := by
    have counted := congrArg List.length inner
    simpa using counted
  have rates : ∀ reader ∈ session.readers, Source.rate (C := ℂ) reader = rate := by
    intro reader member
    have among := List.mem_map_of_mem (f := Rotated.inner) member
    rw [inner] at among
    obtain ⟨skew, _, same⟩ := List.mem_map.mp among
    change Source.rate (C := ℂ) reader.inner = rate
    rw [← same]
    rfl
  have some : session.readers ≠ [] := List.ne_nil_of_length_pos (by omega)
  have fresh : ∀ reader ∈ session.readers,
      (fun _ => True) reader ∧ (fun _ => ([] : List (Visit ℂ))) reader = [] :=
    fun _ _ => ⟨trivial, rfl⟩
  obtain ⟨stitcher, stitching, _⟩ := Stitch.Session.start_sound computes stitched some
    (fun _ _ => rfl) rates (by rwa [size]) fresh array.locked.cancelled
  refine ⟨stitcher, ?_⟩
  simp only [start, started, stitching]

noncomputable def TiledArray.pulsed : TiledArray Listener (Replay ℂ) ℂ Plan ℕ :=
  ⟨⟨[.silent #[1, 0] 48000 ⟨0, 0⟩], Planner.ofKernel Dft.transform, ⟨2, 3, some 2⟩, false⟩, none,
    ⟨2, 4⟩, []⟩

theorem TiledArray.start_pulsed :
    ∃ stitcher, start pulsed = ⟨.ok 0, [], { pulsed with sessions := [stitcher] }⟩ := by
  have hears : pulsed.locked.receivers = [⟨0, 0⟩].map (Listener.silent #[1, 0] 48000) := rfl
  exact start_silent Planner.isFourier_ofKernel (Planner.reliable_ofKernel _)
    (Planner.computes_ofKernel Dft.size_transform) distinct_pulse (by simp) hears rfl rfl
    (by simp [pulsed]) rfl rfl (by decide)

end Silence

namespace TiledArray

variable [Receiver τ ρ F] [Component R] [Sample C R] [Source ρ C]
  {first later : TiledArray τ ρ C π F} {ended : Bool}

variable {alike : τ → τ → Prop}

/-- A further start, with receivers that answer as those of the first start did, goes as the first one
went if no session has ended meanwhile. If one has, it fails. -/
theorem start_again (congruent : Receiver.Alike alike) (calm : Source.Calm ρ)
    (live : first.locked.cancelled = false) (history : History first later ended)
    (again : List.Forall₂ alike first.locked.receivers later.locked.receivers) :
    (ended = false →
        (start later).outcome.map (fun _ => ()) = (start first).outcome.map fun _ => ()) ∧
      (ended = true → ∃ failure, (start later).outcome = .error failure ∧
        Lock.Barred first.locked.planner (start first).outcome failure) := by
  obtain ⟨settings, receivers, locked⟩ := history.kept calm live
  rw [locked] at again
  have same := LockedArray.start_alike (C := C) (R := R) congruent again
  constructor
  · rintro rfl
    have fresh : later.locked = { first.locked with receivers } := by rw [locked, ← live]
    rw [outcome_start calm, outcome_start calm, fresh, settings, same]
  · rintro rfl
    have untouched : ({ first.locked with receivers } : LockedArray τ C π).cancelled = false := live
    obtain ⟨failure, failed, barred⟩ := LockedArray.start_cancelled untouched
    have raised : later.locked = LockedArray.cancel { first.locked with receivers } := locked
    refine ⟨failure, ?_, barred.mono fun failure refused => ?_⟩
    · simp only [start, raised, failed]
    · rw [same] at refused
      simp only [start, refused]

theorem start_again_closed :
    ∃ (later : TiledArray Listener (Replay ℂ) ℂ Plan ℕ) (failure : Failure),
      (start pulsed).outcome = .ok 0 ∧ History pulsed later true ∧
      later.locked.receivers = pulsed.locked.receivers ∧
      (start later).outcome = .error failure := by
  obtain ⟨stitcher, started⟩ := start_pulsed
  let closed : TiledArray Listener (Replay ℂ) ℂ Plan ℕ :=
    { pulsed with
      locked := pulsed.locked.cancel
      sessions := [{ stitcher with cancelled := false }.close] }
  have history : History pulsed closed true := by
    refine .handled (.started .fresh) 0 .close ?_
    rw [started]
    rfl
  have again : List.Forall₂ Eq pulsed.locked.receivers closed.locked.receivers :=
    List.forall₂_same.mpr fun _ _ => rfl
  obtain ⟨_, barred⟩ := start_again Receiver.alike_eq Replay.calm rfl history again
  obtain ⟨failure, failed, _⟩ := barred rfl
  exact ⟨closed, failure, by rw [started], history, rfl, failed⟩

theorem cancelled_by_close :
    ∃ (first started closed : TiledArray Listener (Replay ℂ) ℂ Plan ℕ),
      first.locked.cancelled = false ∧ start first = ⟨.ok 0, [], started⟩ ∧
      started.inSession 0 (fun session => ((), session.close)) = some ((), closed) ∧
      closed.locked.receivers = first.locked.receivers ∧
      (start closed).outcome = .fail .cancelled := by
  obtain ⟨stitcher, started⟩ := start_pulsed
  have live : pulsed.locked.cancelled = false := rfl
  obtain ⟨failure, failed, barred⟩ := LockedArray.start_cancelled live
  have cause : failure = .error .cancelled := by
    cases barred with
    | cancelled => rfl
    | unreleased kept => cases kept
    | refused same =>
        simp only [start, same] at started
        cases started
  refine ⟨pulsed, _, { pulsed with
    locked := pulsed.locked.cancel
    sessions := [{ stitcher with cancelled := false }.close] }, live, started, rfl, rfl, ?_⟩
  rw [cause] at failed
  simp only [start, failed]
  rfl

end TiledArray

end Wideband
