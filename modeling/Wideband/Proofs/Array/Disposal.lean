import Wideband.Array.Tiled
import Wideband.Proofs.Array.Accounts

namespace Wideband

open Receiver

variable {τ ρ C R π F : Type}

namespace Feed

theorem closes_read (feed : Feed) (view : Buffer Complex32) :
    (feed.read view).source.closes = feed.closes := by
  induction feed generalizing view with
  | replay replay => rfl
  | recording player => rfl
  | scripted source =>
      simp only [read, wrap, closes, Scripted.read]
      repeat' split
      all_goals rfl
  | noisy inner noise ih => exact ih view
  | converted inner staging ih =>
      unfold read
      split
      · rfl
      · rename_i asked _
        exact ih asked
  | rotated inner multiplier ih =>
      unfold read
      split
      · rfl
      · rename_i asked _
        exact ih asked

theorem closes_worn {feed used : Feed} (worn : Source.Worn feed used) :
    used.closes = feed.closes := by
  induction worn with
  | refl => rfl
  | tail _ last ih =>
      obtain ⟨view, rfl⟩ := last
      exact (closes_read _ view).trans ih

theorem closes_close (feed : Feed) : feed.close.2.closes = feed.closes.map (· + 1) := by
  induction feed with
  | replay replay => rfl
  | recording player => rfl
  | scripted source => rfl
  | noisy inner noise ih => exact ih
  | converted inner staging ih => exact ih
  | rotated inner multiplier ih => exact ih

theorem closes_once {feed final : Feed} (closed : Source.ClosedOnce feed final) :
    final.closes = feed.closes.map (· + 1) := by
  obtain ⟨used, worn, rfl⟩ := closed
  exact (closes_close used).trans (by rw [closes_worn worn])

end Feed

theorem Stitch.Stitcher.inputs_start [Zero C] [Source ρ C] {planner : Planner C π}
    {settings : Stitch.Settings} {inputs : List ρ} {cancelled : Bool}
    {stitcher : Stitch.Stitcher ρ C π}
    (started : Stitch.Stitcher.start planner settings inputs cancelled = .ok stitcher) :
    stitcher.inputs = inputs := by
  unfold Stitch.Stitcher.start at started
  obtain ⟨_, _, started⟩ := Outcome.of_bind started
  obtain ⟨_, _, started⟩ := Outcome.of_bind started
  obtain ⟨_, _, started⟩ := Outcome.of_bind started
  obtain ⟨_, started⟩ := Outcome.of_unless started
  obtain ⟨_, _, started⟩ := Outcome.of_bind started
  obtain ⟨_, _, started⟩ := Outcome.of_bind started
  cases started
  rfl

variable [Receiver τ ρ F] {log : τ → List (Receiver.Call ρ)}

theorem LockedArray.worn_readers [Source ρ C] {receivers : List τ}
    {readers : List (Rotated (Converted ρ C) C)}
    (own : List.Forall₂ (fun receiver reader => ∃ stream, handed (log receiver) = [stream] ∧
      Source.Worn stream reader.inner.inner) receivers readers) :
    List.Forall₂ Source.Worn (streamsOf log receivers)
      (readers.map fun reader => reader.inner.inner) := by
  induction own with
  | nil => exact .nil
  | cons first _ ih =>
      obtain ⟨stream, given, worn⟩ := first
      simp only [streamsOf, List.flatMap_cons, given, List.map_cons]
      exact .cons worn ih

namespace TiledArray

variable [Component R] [Sample C R] [Source ρ C]

/-- What a start has done with the streams that its receivers handed out meanwhile. -/
inductive Disposed (log : τ → List (Receiver.Call ρ)) (array : TiledArray τ ρ C π F)
    (left : TiledStart τ ρ C π F) : Prop where
  | closed {cause : Error} (unlocked : array.locked.start.outcome = .fail cause)
      (failed : left.outcome = .fail cause)
      (once : List.Forall₂ Source.ClosedOnce (streamsOf log left.array.locked.receivers)
        (left.retired.map Converted.inner))
  | dropped {session : Session ρ C} {cause : Error}
      (locked : array.locked.start.outcome = .ok session)
      (refused : Stitch.Stitcher.start left.array.locked.planner array.settings session.readers
        left.array.locked.cancelled = .error cause)
      (failed : left.outcome = .fail cause)
      (unclosed : List.Forall₂ Source.Worn (streamsOf log left.array.locked.receivers)
        (left.retired.map Converted.inner))
  | kept {stitcher : TiledSession ρ C π} (begun : left.outcome = .ok array.sessions.length)
      (sessions : left.array.sessions = array.sessions ++ [stitcher]) (none : left.retired = [])
      (unclosed : List.Forall₂ Source.Worn (streamsOf log left.array.locked.receivers)
        (stitcher.inputs.map fun reader => reader.inner.inner))

/-- Every start disposes of the streams that were handed out: they are closed once if they could not be
locked, and let go of unclosed if they could be locked and not stitched. -/
theorem start_disposes (logs : Logs log) {array : TiledArray τ ρ C π F}
    (fresh : ∀ receiver ∈ array.locked.receivers, log receiver = [])
    (intact : (start array).outcome ≠ .error .fault) : Disposed log array (start array) := by
  have silent : ∀ receiver ∈ array.locked.receivers, starts (log receiver) = [] := by
    intro receiver member
    rw [fresh receiver member]
    rfl
  cases locked : array.locked.start.outcome with
  | error failure =>
      have ended : start array =
          ⟨.error failure, array.locked.start.retired,
            { array with locked := array.locked.start.array }⟩ := by
        simp only [start, locked]
      rw [ended] at intact ⊢
      cases failure with
      | fault => exact absurd rfl intact
      | error cause => exact .closed locked rfl (LockedArray.start_closed logs silent locked)
  | ok session =>
      obtain ⟨_, _, own⟩ := LockedArray.start_opened logs silent locked
      have worn := LockedArray.worn_readers own
      cases stitched : Stitch.Stitcher.start array.locked.start.array.planner array.settings
          session.readers array.locked.start.array.cancelled with
      | error cause =>
          have ended : start array = ⟨.fail cause, session.unrotated,
              { array with locked := array.locked.start.array }⟩ := by
            simp only [start, locked, stitched]
          rw [ended]
          refine .dropped locked stitched rfl ?_
          rw [Session.unrotated, List.map_map]
          exact worn
      | ok stitcher =>
          have ended : start array = ⟨.ok array.sessions.length, [],
              { array with
                locked := array.locked.start.array
                sessions := array.sessions ++ [stitcher] }⟩ := by
            simp only [start, locked, stitched]
          rw [ended]
          refine .kept rfl rfl rfl ?_
          rw [Stitch.Stitcher.inputs_start stitched]
          exact worn

def overcut : TiledArray (Recorded ScriptedReceiver Feed) Feed Complex32 Plan Float :=
  let script : Script Complex32 :=
    ⟨.complex #[.one], 1000, none, true, none, none, 0, none, none, none, none⟩
  let receiver : ScriptedReceiver :=
    ⟨.ok (.scripted (.ofScript script 0)), 1, 1000, none, none, none, none, none, false, [], 0⟩
  ⟨⟨[⟨receiver, []⟩], Planner.ofKernel fun _ samples => samples, ⟨2, 1, none⟩, false⟩, none,
    ⟨1, 4⟩, []⟩

theorem outcome_overcut : (start overcut).outcome = .fail (.misfit (.shortBlock 1)) := by
  with_unfolding_all rfl

theorem start_disposes_overcut :
    (∀ receiver ∈ overcut.locked.receivers, receiver.calls = []) ∧
      (start overcut).outcome ≠ .error .fault ∧
      Disposed Recorded.calls overcut (start overcut) := by
  have fresh : ∀ receiver ∈ overcut.locked.receivers, receiver.calls = [] := by simp [overcut]
  have intact : (start overcut).outcome ≠ .error .fault := by
    simp [outcome_overcut, Outcome.fail]
  exact ⟨fresh, intact, start_disposes Recorded.logs_calls fresh intact⟩

/-- A start fails and leaves a stream unclosed that was handed out meanwhile. -/
theorem unclosed_by_refusal :
    ∃ stream : Feed, (start overcut).outcome = .fail (.misfit (.shortBlock 1)) ∧
      streamsOf Recorded.calls (start overcut).array.locked.receivers = [stream] ∧
      (start overcut).retired.map (fun left => left.inner.closes) = [[0]] ∧
      ¬List.Forall₂ Source.ClosedOnce [stream] ((start overcut).retired.map Converted.inner) := by
  have given : ∃ script, streamsOf Recorded.calls (start overcut).array.locked.receivers =
      [.scripted (.ofScript script 0)] := ⟨_, by with_unfolding_all rfl⟩
  have unclosed : (start overcut).retired.map (fun left => left.inner.closes) = [[0]] := by
    with_unfolding_all rfl
  obtain ⟨script, given⟩ := given
  refine ⟨_, outcome_overcut, given, unclosed, fun closed => ?_⟩
  rw [List.forall₂_map_right_iff] at closed
  cases retired : (start overcut).retired with
  | nil => simp [retired] at unclosed
  | cons left others =>
      rw [retired] at closed unclosed
      cases closed with
      | cons once rest =>
          have counted : left.inner.closes = [1] := Feed.closes_once once
          simp [counted] at unclosed

end TiledArray

end Wideband
