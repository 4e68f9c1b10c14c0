import Wideband.Proofs.Pipe.Closing
import Wideband.Proofs.Stitch.Session

namespace Wideband.Stitch

/-!
What the consumer of a stitched stream gets after closing it, next to what the reader of a bare pipe
gets (`closed_for_good`). Closing also cancels the session, and the worker then hands `cancelled` over;
whichever of the two comes first decides.
-/

variable {ρ C R π : Type} {stitcher : Stitcher ρ C π} {pipe : Pipe C} {got : List C}

theorem shut_drawn (shut : pipe.Shut got stitcher.pipe stitcher.pipe stitcher.pipe.read) :
    pipe.Shut got stitcher.pipe stitcher stitcher.draw := by
  have same {poll : Poll} {out : Array C}
      (answer : stitcher.pipe.read (.complex out) = ⟨poll, .complex out, stitcher.pipe⟩) :
      stitcher.draw (.complex out) = ⟨poll, .complex out, stitcher⟩ := by
    rw [Stitcher.draw, answer]
  refine ⟨fun discarding => ?_, fun cause ended keeping => ?_⟩
  · obtain ⟨none, fails⟩ := shut.final discarding
    exact ⟨none, fun out => same (fails out)⟩
  · obtain ⟨front, all⟩ := shut.handed cause ended keeping
    refine ⟨front, fun heard => ⟨(all heard).1, fun out room => ?_⟩⟩
    exact ((all heard).2 out room).imp_right fun drained => ⟨drained.1, same drained.2⟩

variable [Source ρ C]

theorem Stitcher.serves_stop (serves : pipe.Serves got stitcher.pipe) (cause : Error) :
    pipe.Serves got (stitcher.stop cause).pipe :=
  (serves.closeWith cause).dropWriter

variable [Component R] [Sample C R]

theorem Stitcher.serves_finish (serves : pipe.Serves got stitcher.pipe) (outcome : Outcome Unit) :
    pipe.Serves got (stitcher.finish outcome).pipe := by
  cases outcome with
  | error failure =>
      cases failure with
      | fault => exact serves.dropWriter
      | error cause => exact serves_stop serves cause
  | ok _ =>
      cases made : (stitcher.bench.make stitcher.planner stitcher.buffers).result with
      | error cause =>
          simp only [finish, made]
          exact (serves.closeWith cause).dropWriter
      | ok _ =>
          simp only [finish, made]
          have written := serves.write
            (stitcher.bench.make stitcher.planner stitcher.buffers).bench.output
          generalize stitcher.pipe.write _ = answer at written ⊢
          obtain ⟨result, after⟩ := answer
          cases result with
          | error cause => exact (written.closeWith cause).dropWriter
          | ok _ => exact written

theorem Stitcher.serves_work (serves : pipe.Serves got stitcher.pipe) :
    pipe.Serves got stitcher.work.pipe := by
  cases stage : stitcher.stage with
  | stopped => simpa only [work, stage] using serves
  | lingering outcome => simpa only [work, stage] using serves
  | running =>
      have ways := worked stage
      generalize stitcher.work = next at ways ⊢
      cases ways with
      | cancelled ended => exact serves_stop serves .cancelled
      | lingers outcome answered => exact serves
      | finishes outcome answered =>
          have gathered : pipe.Serves got stitcher.gathering.pipe := serves
          exact serves_finish gathered outcome

theorem Stitcher.serves_ask (serves : pipe.Serves got stitcher.pipe) :
    pipe.Serves got stitcher.ask.pipe := by
  unfold ask
  split
  · split
    · exact serves_stop serves .cancelled
    · exact serves
  · exact serves

theorem Stitcher.serves_resume (serves : pipe.Serves got stitcher.pipe) :
    pipe.Serves got stitcher.resume.pipe := by
  unfold resume
  split
  · exact serves_finish serves _
  · exact serves

namespace Session

variable {session : Session ρ C π} {before : List C}

theorem serves_act (serves : pipe.Serves got session.stitcher.pipe)
    (entered : session.delivered = before ++ got) (action : Action C) :
    ∃ more, pipe.Serves more (session.act action).stitcher.pipe ∧
      (session.act action).delivered = before ++ more := by
  cases action with
  | work => exact ⟨got, Stitcher.serves_work serves, entered⟩
  | ask => exact ⟨got, Stitcher.serves_ask serves, entered⟩
  | resume => exact ⟨got, Stitcher.serves_resume serves, entered⟩
  | read view =>
      refine ⟨_, serves.read view, ?_⟩
      rw [← List.append_assoc, ← entered]
      rfl
  | close => exact ⟨got, serves.closeWith .pipeClosed, entered⟩
  | cancel => exact ⟨got, serves, entered⟩

theorem serves_run (serves : pipe.Serves got session.stitcher.pipe)
    (entered : session.delivered = before ++ got) (actions : List (Action C)) :
    ∃ more, pipe.Serves more (actions.foldl act session).stitcher.pipe ∧
      (actions.foldl act session).delivered = before ++ more := by
  induction actions generalizing session got with
  | nil => exact ⟨got, serves, entered⟩
  | cons action actions ih =>
      obtain ⟨more, next, others⟩ := serves_act serves entered action
      exact ih next others

end Session

/-- After the reader of a pipe or of a stitched stream has closed it, in whatever state, it gets
nothing more unless a failure was handed over before, whoever acts how from then on. -/
theorem closed_for_good :
    (∀ (before : Ledger C) (calls : List (Call C)), ∃ got,
      (calls.foldl Ledger.act (before.act .close)).delivered = before.delivered ++ got ∧
        let after := (calls.foldl Ledger.act (before.act .close)).pipe
        before.pipe.Shut got after after after.read) ∧
    (∀ (before : Session ρ C π) (actions : List (Action C)), ∃ got,
      (actions.foldl Session.act (before.act .close)).delivered = before.delivered ++ got ∧
        let after := (actions.foldl Session.act (before.act .close)).stitcher
        before.stitcher.pipe.Shut got after.pipe after after.draw) := by
  refine ⟨fun before calls => ?_, fun before actions => ?_⟩
  · have shut : before.pipe.close.Serves [] (before.act .close).pipe := .start
    obtain ⟨got, serves, entered⟩ :=
      Ledger.serves_run shut (List.append_nil before.delivered).symm calls
    exact ⟨got, entered, serves.shut⟩
  · have shut : before.stitcher.pipe.close.Serves [] (before.act .close).stitcher.pipe := .start
    obtain ⟨got, serves, entered⟩ :=
      Session.serves_run shut (List.append_nil before.delivered).symm actions
    exact ⟨got, entered, shut_drawn serves.shut⟩

/-- A producer that fails behind a block of one sample, and a reader that closes the pipe and then
gets the sample. -/
theorem read_behind_close :
    ∃ fresh : Pipe Nat, Pipe.ofCapacity 2 1000 = .ok fresh ∧
      (((Ledger.after fresh [.write #[7], .closeWith .endOfStream, .close]).pipe.read
        (.complex #[0])).poll = .ready (.ok 1)) ∧
      (Ledger.after fresh
        [.write #[7], .closeWith .endOfStream, .close, .read (.complex #[0])]).delivered = [7] :=
  ⟨⟨.ofCapacity 2, 1000, #[]⟩, rfl, rfl, rfl⟩

end Wideband.Stitch
