import Wideband.Proofs.Lock.Cancelling
import Wideband.Proofs.Lock.Interrupting

namespace Wideband.Lock

/-!
What becomes of a run whose token is raised. Whenever that happens, all that is still read belongs to
one fetch or to one draining that a poll has let go on before (`Brief`), and the run ends soon. It
ends well only if everything that a lock takes has happened by then: the round that found all streams
in step in every trial, and the poll behind it (`Run.Doomed`, `Run.Traced`).
-/

variable {ρ C R π : Type}

def Event.reads : Event → Bool
  | .fetch _ => true
  | .skip _ _ _ => true
  | _ => false

def Quiet (log : List Event) : Prop :=
  ∀ event ∈ log, event.reads = false

/-- Nothing is read but in one fetch or in one draining, which come before everything else. -/
inductive Brief : List Event → Prop where
  | fetch (outcome : Outcome Unit) {rest : List Event} (quiet : Quiet rest) :
      Brief (.fetch outcome :: rest)
  | drain {skips rest : List Event}
      (drains : ∀ event ∈ skips, ∃ stream count outcome, event = .skip stream count outcome)
      (quiet : Quiet rest) : Brief (skips ++ rest)

theorem Quiet.append {log later : List Event} (first : Quiet log) (second : Quiet later) :
    Quiet (log ++ later) := by
  intro event member
  rcases List.mem_append.mp member with early | late
  · exact first event early
  · exact second event late

theorem Quiet.brief {log : List Event} (quiet : Quiet log) : Brief log := by
  have brief : Brief ([] ++ log) := .drain (by simp) quiet
  exact brief

theorem agreeingRound_succ (streams trials : ℕ) :
    agreeingRound streams (trials + 1) = agreeingRound streams trials ++ agreeingTrial streams := by
  simp [agreeingRound, List.replicate_succ']

namespace Work

variable {work : Work ρ C π}

theorem synchronizer_discard [Zero C] [Source ρ C] (work : Work ρ C π) (index count : ℕ) :
    ∃ report, (work.discard index count).2.synchronizer = { work.synchronizer with report } := by
  have ways := work.discards index count
  generalize work.discard index count = result at ways ⊢
  cases ways with
  | absent none => exact ⟨_, rfl⟩
  | failed source failure own skip => exact ⟨_, rfl⟩
  | done source own skip => exact ⟨_, rfl⟩

theorem cancelled_discard [Zero C] [Source ρ C] (index count : ℕ)
    (raised : work.cancelled = true) : (work.discard index count).2.cancelled = true := by
  have ways := work.discards index count
  generalize work.discard index count = result at ways ⊢
  cases ways with
  | absent none => exact raised
  | failed source failure own skip => exact Bool.or_eq_true_iff.mpr (.inl raised)
  | done source own skip => exact Bool.or_eq_true_iff.mpr (.inl raised)

variable [Component R] [Sample C R]

theorem correlate_kept (planner : Planner C π) (work : Work ρ C π) :
    (work.correlate planner).2.sources = work.sources ∧
      (work.correlate planner).2.cancelled = work.cancelled := by
  unfold correlate
  repeat' split
  · exact ⟨rfl, rfl⟩
  · exact ⟨rfl, rfl⟩
  · exact ⟨rfl, rfl⟩

theorem quiet_correlateLog (planner : Planner C π) (work : Work ρ C π) :
    Quiet (work.correlateLog planner) := by
  intro event member
  have measures := measures_correlateLog planner work event member
  have none := List.countP_eq_zero.mp (fetches_correlateLog planner work) event member
  cases event with
  | fetch outcome => exact absurd rfl none
  | skip stream count outcome => exact measures.elim
  | round => rfl
  | poll cancelled => rfl
  | lag stream peak offset => rfl

end Work

namespace Run

variable [Component R] [Sample C R] [Source ρ C] {planner : Planner C π} {run : Run ρ C π}
  {settings : Settings} {streams : ℕ} {log : List Event}

theorem sources_act (quiet : Quiet (run.act planner).1) :
    (run.act planner).2.work.sources = run.work.sources := by
  obtain ⟨work, place⟩ := run
  have ways := acted planner work place
  generalize act planner ⟨work, place⟩ = result at ways quiet ⊢
  cases ways with
  | starved trials agreed failure answered => simp [Quiet, Event.reads] at quiet
  | fetches trials agreed answered => simp [Quiet, Event.reads] at quiet
  | skips index count rest next done => simp [Quiet, Event.reads] at quiet
  | stuck index count rest failure next failed => simp [Quiet, Event.reads] at quiet
  | lost trials agreed cause found => exact (work.correlate_kept planner).1
  | agrees trials agreed offsets found same => exact (work.correlate_kept planner).1
  | differs trials first offsets found other => exact (work.correlate_kept planner).1
  | _ => rfl

theorem cancelled_act (planner : Planner C π) (raised : run.work.cancelled = true) :
    (run.act planner).2.work.cancelled = true := by
  obtain ⟨work, place⟩ := run
  have ways := acted planner work place
  generalize act planner ⟨work, place⟩ = result at ways ⊢
  cases ways with
  | starved trials agreed failure answered => exact Bool.or_eq_true_iff.mpr (.inl raised)
  | fetches trials agreed answered => exact Bool.or_eq_true_iff.mpr (.inl raised)
  | skips index count rest next done =>
      have kept := Work.cancelled_discard index count raised
      rwa [done] at kept
  | stuck index count rest failure next failed =>
      have kept := Work.cancelled_discard index count raised
      rwa [failed] at kept
  | lost trials agreed cause found => exact (work.correlate_kept planner).2.trans raised
  | agrees trials agreed offsets found same => exact (work.correlate_kept planner).2.trans raised
  | differs trials first offsets found other => exact (work.correlate_kept planner).2.trans raised
  | _ => exact raised

/-- The token is raised, and no poll has let the run go on to read. -/
structure Resting (run : Run ρ C π) : Prop where
  raised : run.work.cancelled = true
  fetching : ∀ trials agreed, run.place ≠ .fetching trials agreed
  skipping : ∀ arrears, run.place ≠ .skipping arrears

theorem Resting.act (resting : Resting run) (planner : Planner C π) :
    Quiet (run.act planner).1 ∧ Resting (run.act planner).2 := by
  have still := cancelled_act planner resting.raised
  obtain ⟨work, place⟩ := run
  have raised : work.cancelled = true := resting.raised
  have ways := acted planner work place
  generalize Run.act planner ⟨work, place⟩ = result at ways still ⊢
  have quiet := work.quiet_correlateLog planner
  cases ways with
  | fetches trials agreed answered => exact absurd rfl (resting.fetching trials agreed)
  | starved trials agreed failure answered => exact absurd rfl (resting.fetching trials agreed)
  | drained => exact absurd rfl (resting.skipping [])
  | skips index count rest next done => exact absurd rfl (resting.skipping _)
  | stuck index count rest failure next failed => exact absurd rfl (resting.skipping _)
  | tries trials agreed live => cases live.symm.trans raised
  | locks offsets live zero => cases live.symm.trans raised
  | drains offsets live apart => cases live.symm.trans raised
  | lost trials agreed cause found => exact ⟨quiet, still, by simp, by simp⟩
  | agrees trials agreed offsets found same => exact ⟨quiet, still, by simp, by simp⟩
  | differs trials first offsets found other => exact ⟨quiet, still, by simp, by simp⟩
  | _ => exact ⟨by simp [Quiet, Event.reads], still, by simp, by simp⟩

theorem Resting.play (resting : Resting run) (planner : Planner C π) (moves : List Move) :
    Quiet (run.play planner moves).1 := by
  induction moves generalizing run with
  | nil => simp [Run.play, Quiet]
  | cons first moves ih =>
      cases first with
      | raise => exact ih ⟨rfl, resting.fetching, resting.skipping⟩
      | act =>
          obtain ⟨quiet, next⟩ := resting.act planner
          exact quiet.append (ih next)

theorem brief_of_skipping {work : Work ρ C π} (planner : Planner C π)
    (raised : work.cancelled = true) (arrears : List (ℕ × ℕ)) (moves : List Move) :
    ∃ skips rest, (Run.play planner moves ⟨work, .skipping arrears⟩).1 = skips ++ rest ∧
      (∀ event ∈ skips, ∃ stream count outcome, event = Event.skip stream count outcome) ∧
      Quiet rest := by
  induction moves generalizing work arrears with
  | nil => exact ⟨[], [], rfl, by simp, by simp [Quiet]⟩
  | cons first moves ih =>
      cases first with
      | raise => exact ih rfl arrears
      | act =>
          have still : (Run.act planner ⟨work, .skipping arrears⟩).2.work.cancelled = true :=
            cancelled_act planner raised
          have ways := acted planner work (.skipping arrears)
          simp only [Run.play, move]
          generalize Run.act planner ⟨work, .skipping arrears⟩ = result at ways still ⊢
          cases ways with
          | drained =>
              have resting : Resting (⟨work, .turning⟩ : Run ρ C π) := ⟨raised, by simp, by simp⟩
              exact ⟨[], _, rfl, by simp, resting.play planner moves⟩
          | skips index count rest next done =>
              obtain ⟨skips, later, split, drains, quiet⟩ := ih still rest
              exact ⟨.skip index count (.ok ()) :: skips, later, by simp [split],
                by simpa using drains, quiet⟩
          | stuck index count rest failure next failed =>
              have resting : Resting (⟨next, .ended (.error failure)⟩ : Run ρ C π) :=
                ⟨still, by simp, by simp⟩
              exact ⟨[.skip index count (.error failure)], _, rfl, by simp,
                resting.play planner moves⟩

theorem brief_of_fetching {work : Work ρ C π} (planner : Planner C π)
    (raised : work.cancelled = true) (trials : ℕ) (agreed : Option (List ℤ)) (moves : List Move) :
    Brief (Run.play planner moves ⟨work, .fetching trials agreed⟩).1 := by
  induction moves generalizing work with
  | nil => exact Quiet.brief (by simp [Run.play, Quiet])
  | cons first moves ih =>
      cases first with
      | raise => exact ih rfl
      | act =>
          have still : (Run.act planner ⟨work, .fetching trials agreed⟩).2.work.cancelled = true :=
            cancelled_act planner raised
          have ways := acted planner work (.fetching trials agreed)
          simp only [Run.play, move]
          generalize Run.act planner ⟨work, .fetching trials agreed⟩ = result at ways still ⊢
          cases ways with
          | starved _ _ failure answered =>
              have resting : Resting (⟨work.fetched, .ended (.error failure)⟩ : Run ρ C π) :=
                ⟨still, by simp, by simp⟩
              exact .fetch _ (resting.play planner moves)
          | fetches _ _ answered =>
              have resting : Resting (⟨work.fetched, .comparing trials agreed⟩ : Run ρ C π) :=
                ⟨still, by simp, by simp⟩
              exact .fetch _ (resting.play planner moves)

theorem brief_play (planner : Planner C π) (raised : run.work.cancelled = true)
    (moves : List Move) : Brief (run.play planner moves).1 := by
  obtain ⟨work, place⟩ := run
  cases place with
  | fetching trials agreed => exact brief_of_fetching planner raised trials agreed moves
  | skipping arrears =>
      obtain ⟨skips, rest, split, drains, quiet⟩ :=
        brief_of_skipping planner raised arrears moves
      exact split ▸ .drain drains quiet
  | _ => exact (Resting.play ⟨raised, by simp, by simp⟩ planner moves).brief

/-- The token is raised, and the lock is not complete. -/
structure Doomed (run : Run ρ C π) : Prop where
  raised : run.work.cancelled = true
  unlocked : run.work.synchronizer.phase ≠ .locked
  unfinished : ∀ report, run.place ≠ .ended (.ok report)

theorem Doomed.act (doomed : Doomed run) (planner : Planner C π) :
    Doomed (run.act planner).2 := by
  have still := cancelled_act planner doomed.raised
  obtain ⟨work, place⟩ := run
  have raised : work.cancelled = true := doomed.raised
  have phase : work.synchronizer.phase ≠ .locked := doomed.unlocked
  have same := (work.correlate_booked planner).phase
  have ways := acted planner work place
  generalize Run.act planner ⟨work, place⟩ = result at ways still ⊢
  cases ways with
  | finished stage => exact absurd stage phase
  | locks offsets live zero => cases live.symm.trans raised
  | rests outcome => exact doomed
  | lost trials agreed cause found => exact ⟨still, same ▸ phase, by simp [Outcome.fail]⟩
  | agrees trials agreed offsets found _ => exact ⟨still, same ▸ phase, by simp⟩
  | differs trials first offsets found other => exact ⟨still, same ▸ phase, by simp⟩
  | skips index count rest next done =>
      obtain ⟨report, kept⟩ := work.synchronizer_discard index count
      rw [done] at kept
      exact ⟨still, kept ▸ phase, by simp⟩
  | stuck index count rest failure next failed =>
      obtain ⟨report, kept⟩ := work.synchronizer_discard index count
      rw [failed] at kept
      exact ⟨still, kept ▸ phase, by simp⟩
  | settles offsets stage => exact ⟨still, by simp [Work.inPhase], by simp⟩
  | agreed offsets => exact ⟨still, by simp [Work.inPhase], by simp⟩
  | _ => exact ⟨still, phase, by simp [Outcome.fail]⟩

theorem Doomed.play (doomed : Doomed run) (planner : Planner C π) (moves : List Move) :
    Doomed (run.play planner moves).2 := by
  induction moves generalizing run with
  | nil => exact doomed
  | cons first moves ih =>
      cases first with
      | raise => exact ih ⟨rfl, doomed.unlocked, doomed.unfinished⟩
      | act => exact ih (doomed.act planner)

structure Kept (settings : Settings) (streams : ℕ) (run : Run ρ C π) : Prop where
  fixed : run.work.synchronizer.settings = settings
  paired : run.work.synchronizer.buffers.length = streams
  idle : run.place = .turning ∨ run.work.synchronizer.phase = .measuring ∨
    run.work.synchronizer.phase = .locked

theorem Kept.act (kept : Kept settings streams run) (planner : Planner C π) :
    Kept settings streams (run.act planner).2 := by
  obtain ⟨work, place⟩ := run
  obtain ⟨fixed, paired, idle⟩ := kept
  have booked := work.correlate_booked planner
  have ways := acted planner work place
  generalize Run.act planner ⟨work, place⟩ = result at ways ⊢
  cases ways with
  | accepted yes => exact ⟨fixed, paired, .inl rfl⟩
  | gaveUp stage => exact ⟨fixed, paired, .inr (.inl stage)⟩
  | begins stage more => exact ⟨fixed, paired, .inr (.inl stage)⟩
  | settles offsets stage => exact ⟨fixed, paired, .inr (.inl rfl)⟩
  | finished stage => exact ⟨fixed, paired, .inr (.inr stage)⟩
  | agreed offsets => exact ⟨fixed, paired, .inl rfl⟩
  | untried => exact ⟨fixed, paired, .inl rfl⟩
  | locks offsets live zero => exact ⟨fixed, paired, .inl rfl⟩
  | drained => exact ⟨fixed, paired, .inl rfl⟩
  | starved trials agreed failure answered =>
      exact ⟨fixed, work.fetched_booked.buffers.trans paired, .inr (idle.resolve_left (by simp))⟩
  | fetches trials agreed answered =>
      exact ⟨fixed, work.fetched_booked.buffers.trans paired, .inr (idle.resolve_left (by simp))⟩
  | lost trials agreed cause found =>
      exact ⟨booked.settings.trans fixed, booked.buffers.trans paired,
        .inr (booked.phase.symm ▸ idle.resolve_left (by simp))⟩
  | agrees trials agreed offsets found same =>
      exact ⟨booked.settings.trans fixed, booked.buffers.trans paired,
        .inr (booked.phase.symm ▸ idle.resolve_left (by simp))⟩
  | differs trials first offsets found other =>
      exact ⟨booked.settings.trans fixed, booked.buffers.trans paired, .inl rfl⟩
  | skips index count rest next done =>
      obtain ⟨report, same⟩ := work.synchronizer_discard index count
      rw [done] at same
      exact ⟨same ▸ fixed, same ▸ paired, .inr (same ▸ idle.resolve_left (by simp))⟩
  | stuck index count rest failure next failed =>
      obtain ⟨report, same⟩ := work.synchronizer_discard index count
      rw [failed] at same
      exact ⟨same ▸ fixed, same ▸ paired, .inr (same ▸ idle.resolve_left (by simp))⟩
  | rests outcome => exact ⟨fixed, paired, idle⟩
  | _ => exact ⟨fixed, paired, .inr (idle.resolve_left (by simp))⟩

theorem Kept.play (kept : Kept settings streams run) (planner : Planner C π) (moves : List Move) :
    Kept settings streams (run.play planner moves).2 := by
  induction moves generalizing run with
  | nil => exact kept
  | cons first moves ih =>
      cases first with
      | raise => exact ih ⟨kept.fixed, kept.paired, kept.idle⟩
      | act => exact ih (kept.act planner)

/-- The log of a round so far that has `left` trials to go, if what it has agreed on is zero. -/
structure InRound (settings : Settings) (streams : ℕ) (log : List Event) (left : ℕ)
    (agreed : Option (List ℤ)) : Prop where
  within : left ≤ settings.trials
  opened : agreed = none → left = settings.trials
  agreeing : (∀ offsets, agreed = some offsets → ∀ offset ∈ offsets, offset = 0) →
    ∃ before, log = before ++ agreeingRound streams (settings.trials - left)

inductive Stands (settings : Settings) (streams : ℕ) (log : List Event) : Place → Phase → Prop where
  | entering : Stands settings streams log .entering .measuring
  | turning : Stands settings streams log .turning .measuring
  | agreed (offsets : List ℤ) (round : (∀ offset ∈ offsets, offset = 0) →
      ∃ before, log = before ++ agreeingRound streams settings.trials) :
      Stands settings streams log .turning (.draining offsets)
  | locked (concludes : Work.Concludes settings streams log) :
      Stands settings streams log .turning .locked
  | polling (left : ℕ) (agreed : Option (List ℤ)) (round : InRound settings streams log left agreed) :
      Stands settings streams log (.polling left agreed) .measuring
  | fetching (left : ℕ) (agreed : Option (List ℤ)) (earlier : List Event)
      (split : log = earlier ++ [.poll false])
      (round : InRound settings streams earlier (left + 1) agreed) :
      Stands settings streams log (.fetching left agreed) .measuring
  | comparing (left : ℕ) (agreed : Option (List ℤ)) (earlier : List Event)
      (split : log = earlier ++ [.poll false, .fetch (.ok ())])
      (round : InRound settings streams earlier (left + 1) agreed) :
      Stands settings streams log (.comparing left agreed) .measuring
  | settling (offsets : List ℤ) (round : (∀ offset ∈ offsets, offset = 0) →
      ∃ before, log = before ++ agreeingRound streams settings.trials) :
      Stands settings streams log (.settling offsets) .measuring
  | skipping (arrears : List (ℕ × ℕ)) : Stands settings streams log (.skipping arrears) .measuring
  | failed (failure : Failure) : Stands settings streams log (.ended (.error failure)) .measuring
  | finished (report : Report) (concludes : Work.Concludes settings streams log) :
      Stands settings streams log (.ended (.ok report)) .locked

structure Traced (settings : Settings) (streams : ℕ) (log : List Event) (run : Run ρ C π) : Prop
    extends Kept settings streams run where
  stands : Stands settings streams log run.place run.work.synchronizer.phase

omit [Source ρ C] in
theorem InRound.next {work : Work ρ C π} {left : ℕ} {agreed : Option (List ℤ)} {offsets : List ℤ}
    (round : InRound settings streams log (left + 1) agreed)
    (paired : work.synchronizer.buffers.length = streams)
    (found : (work.correlate planner).1 = .ok offsets) (same : agreed.getD offsets = offsets) :
    InRound settings streams
      (log ++ [.poll false, .fetch (.ok ())] ++ work.correlateLog planner) left (some offsets) where
  within := Nat.le_of_succ_le round.within
  opened := by simp
  agreeing zero := by
    have still : ∀ offset ∈ offsets, offset = 0 := zero offsets rfl
    obtain ⟨before, rfl⟩ := round.agreeing fun others own => by
      subst own
      obtain rfl : others = offsets := same
      exact still
    have within := round.within
    have count : settings.trials - left = settings.trials - (left + 1) + 1 := by omega
    refine ⟨before, ?_⟩
    rw [Work.correlateLog_zero paired found still, count, agreeingRound_succ]
    simp [agreeingTrial]

theorem Traced.act (traced : Traced settings streams log run) (planner : Planner C π) :
    Traced settings streams (log ++ (run.act planner).1) (run.act planner).2 := by
  refine ⟨traced.toKept.act planner, ?_⟩
  obtain ⟨work, place⟩ := run
  obtain ⟨⟨fixed, paired, _⟩, stands⟩ := traced
  have booked := work.correlate_booked planner
  have ways := acted planner work place
  generalize Run.act planner ⟨work, place⟩ = result at ways ⊢
  simp only at fixed paired stands
  generalize phased : work.synchronizer.phase = phase at stands
  cases ways with
  | refused cause no => cases stands with | entering => exact phased ▸ .failed (.error cause)
  | accepted yes => cases stands with | entering => exact phased ▸ .turning
  | gaveUp stage => exact stage ▸ .failed _
  | begins stage more =>
      have round : InRound settings streams (log ++ [.round]) work.synchronizer.settings.trials
          none := by
        refine ⟨by rw [fixed], fun _ => by rw [fixed], fun _ => ⟨log, ?_⟩⟩
        rw [fixed, Nat.sub_self]
        rfl
      exact stage ▸ .polling _ none round
  | settles offsets stage =>
      obtain rfl := phased.symm.trans stage
      rw [List.append_nil]
      cases stands with | agreed _ round => exact .settling offsets round
  | finished stage =>
      obtain rfl := phased.symm.trans stage
      rw [List.append_nil]
      cases stands with | locked concludes => exact stage ▸ .finished _ concludes
  | agreed offsets =>
      rw [List.append_nil]
      cases stands with
      | polling _ _ round =>
          refine .agreed offsets fun zero => round.agreeing fun others own => ?_
          cases own
          exact zero
  | untried => cases stands with | polling _ _ round => exact phased ▸ .turning
  | halted trials agreed raised => cases stands with | polling _ _ round => exact phased ▸ .failed _
  | tries trials agreed live =>
      cases stands with | polling _ _ round => exact phased ▸ .fetching trials agreed log rfl round
  | starved trials agreed failure answered =>
      cases stands with | fetching _ _ earlier split round => exact phased ▸ .failed failure
  | fetches trials agreed answered =>
      cases stands with
      | fetching _ _ earlier split round =>
          refine phased ▸ .comparing trials agreed earlier ?_ round
          rw [split, List.append_assoc]
          rfl
  | lost trials agreed cause found =>
      cases stands with
      | comparing _ _ earlier split round =>
          exact (booked.phase.trans phased) ▸ .failed (.error cause)
  | agrees trials agreed offsets found same =>
      cases stands with
      | comparing _ _ earlier split round =>
          rw [split]
          exact (booked.phase.trans phased) ▸ .polling trials _ (round.next paired found same)
  | differs trials first offsets found other =>
      cases stands with
      | comparing _ _ earlier split round => exact (booked.phase.trans phased) ▸ .turning
  | stopped offsets raised => cases stands with | settling _ round => exact phased ▸ .failed _
  | locks offsets live zero =>
      cases stands with
      | settling _ round =>
          obtain ⟨before, rfl⟩ := round zero
          exact .locked ⟨before, rfl⟩
  | drains offsets live apart => cases stands with | settling _ round => exact phased ▸ .skipping _
  | drained => cases stands with | skipping _ => exact phased ▸ .turning
  | skips index count rest next done =>
      obtain ⟨report, kept⟩ := work.synchronizer_discard index count
      rw [done] at kept
      cases stands with | skipping _ => exact kept ▸ phased ▸ .skipping rest
  | stuck index count rest failure next failed =>
      obtain ⟨report, kept⟩ := work.synchronizer_discard index count
      rw [failed] at kept
      cases stands with | skipping _ => exact kept ▸ phased ▸ .failed failure
  | rests outcome =>
      rw [List.append_nil]
      exact phased ▸ stands

theorem Traced.play (traced : Traced settings streams log run) (planner : Planner C π)
    (moves : List Move) :
    Traced settings streams (log ++ (run.play planner moves).1) (run.play planner moves).2 := by
  induction moves generalizing run log with
  | nil => simpa [Run.play] using traced
  | cons first moves ih =>
      cases first with
      | raise => exact ih ⟨⟨traced.fixed, traced.paired, traced.idle⟩, traced.stands⟩
      | act =>
          have rest := ih (traced.act planner)
          rwa [List.append_assoc] at rest

/-- A bound on the actions that are left to a run whose token is raised. -/
def leeway : Place → ℕ
  | .entering => 3
  | .turning => 2
  | .polling 0 _ => 3
  | .polling (_ + 1) _ => 1
  | .fetching _ _ => 5
  | .comparing _ _ => 4
  | .settling _ => 1
  | .skipping arrears => arrears.length + 3
  | .ended _ => 0

theorem leeway_act {work : Work ρ C π} (place : Place) (planner : Planner C π)
    (raised : work.cancelled = true) (trials : work.synchronizer.settings.trials ≠ 0) :
    (∃ outcome, place = .ended outcome) ∨
      leeway (Run.act planner ⟨work, place⟩).2.place < leeway place := by
  have polling (left : ℕ) (agreed : Option (List ℤ)) : leeway (.polling left agreed) ≤ 3 := by
    cases left <;> simp [leeway]
  have ways := acted planner work place
  generalize Run.act planner ⟨work, place⟩ = result at ways ⊢
  cases ways with
  | rests outcome => exact .inl ⟨outcome, rfl⟩
  -- The actions that start a fetch, a lock or a draining come behind a poll.
  | tries left agreed live => cases live.symm.trans raised
  | locks offsets live zero => cases live.symm.trans raised
  | drains offsets live apart => cases live.symm.trans raised
  | begins stage more =>
      obtain ⟨left, some⟩ := Nat.exists_eq_succ_of_ne_zero trials
      exact .inr (by simp [some, leeway])
  | agrees left agreed offsets found same => exact .inr (Nat.lt_succ_of_le (polling left _))
  | _ => exact .inr (by simp [leeway])

theorem Traced.ends (traced : Traced settings streams log run) (trials : settings.trials ≠ 0)
    (raised : run.work.cancelled = true) (planner : Planner C π) :
    ∃ acts outcome, (run.play planner (List.replicate acts .act)).2.place = .ended outcome := by
  induction bound : leeway run.place using Nat.strongRecOn generalizing run log with
  | _ bound ih =>
      subst bound
      have next := traced.act planner
      obtain ⟨work, place⟩ := run
      rcases leeway_act place planner raised (traced.fixed.symm ▸ trials) with
        ⟨outcome, rfl⟩ | less
      · exact ⟨0, outcome, rfl⟩
      · obtain ⟨acts, outcome, ended⟩ := ih _ less next (cancelled_act planner raised) rfl
        exact ⟨acts + 1, outcome, ended⟩

omit [Source ρ C] in
theorem Traced.confirmed (traced : Traced settings streams log run) {report : Report}
    (ended : run.place = .ended (.ok report)) : Work.Concludes settings streams log := by
  have stands := traced.stands
  rw [ended] at stands
  generalize run.work.synchronizer.phase = phase at stands
  cases stands with | finished _ concludes => exact concludes

theorem Traced.concluded (traced : Traced settings streams log run)
    (raised : run.work.cancelled = true) {planner : Planner C π} {moves : List Move}
    {report : Report} (ended : (run.play planner moves).2.place = .ended (.ok report)) :
    Work.Concludes settings streams log := by
  -- A raised token keeps the phase as it is, so a lock that is not complete stays so.
  by_cases locked : run.work.synchronizer.phase = .locked
  · have stands := traced.stands
    rw [locked] at stands
    generalize run.place = place at stands
    cases stands with
    | locked concludes => exact concludes
    | finished _ concludes => exact concludes
  · by_contra incomplete
    have doomed : Doomed run :=
      ⟨raised, locked, fun other done => incomplete (traced.confirmed done)⟩
    exact (doomed.play planner moves).unfinished report ended

end Run

namespace Synchronizer

variable [Component R] [Sample C R] {planner : Planner C π} {settings : Settings} {streams : ℕ}
  {fresh current : Synchronizer C π}

inductive Interrupted (planner : Planner C π) (fresh : Synchronizer C π) :
    Synchronizer C π → Prop where
  | fresh : Interrupted planner fresh fresh
  | call {current : Synchronizer C π} (earlier : Interrupted planner fresh current) {ρ : Type}
      [Source ρ C] (sources : List ρ) (cancelled : Bool) (moves : List Move) {last : Work ρ C π}
      {outcome : Outcome Report}
      (ended : (Run.play planner moves (.start current sources cancelled)).2 =
        ⟨last, .ended outcome⟩) :
      Interrupted planner fresh last.synchronizer

/-- What raising its token does to a run, whenever it happens. -/
structure Stops [Source ρ C] (planner : Planner C π) (settings : Settings) (streams : ℕ)
    (run : Run ρ C π) : Prop where
  prompt : ∀ earlier later, (run.play planner earlier).2.work.cancelled = true →
    Brief ((run.play planner earlier).2.play planner later).1
  ends : ∀ earlier, (run.play planner earlier).2.work.cancelled = true →
    ∃ acts outcome, ((run.play planner earlier).2.play planner
      (List.replicate acts .act)).2.place = .ended outcome
  unread : run.work.cancelled = true → ∀ moves, Quiet (run.play planner moves).1
  confirmed : ∀ moves report, (run.play planner moves).2.place = .ended (.ok report) →
    Work.Concludes settings streams (run.play planner moves).1
  complete : ∀ earlier later report,
    (run.play planner (earlier ++ later)).2.place = .ended (.ok report) →
      (run.play planner earlier).2.work.cancelled = true →
        Work.Concludes settings streams (run.play planner earlier).1

theorem Interrupted.kept (prepared : prepare planner streams settings = .ok fresh)
    (interrupted : Interrupted planner fresh current) :
    current.settings = settings ∧ current.buffers.length = streams ∧
      (current.phase = .measuring ∨ current.phase = .locked) := by
  induction interrupted with
  | fresh =>
      obtain ⟨fit, _⟩ := prepare_fit prepared
      exact ⟨fit.fixed, fit.paired, .inl fit.stage⟩
  | call earlier sources cancelled moves ended ih =>
      obtain ⟨fixed, paired, idle⟩ := ih
      have start : Run.Kept settings streams (.start _ sources cancelled) :=
        ⟨fixed, paired, .inr idle⟩
      have kept := start.play planner moves
      rw [ended] at kept
      exact ⟨kept.fixed, kept.paired, kept.idle.resolve_left (by simp)⟩

/-- Once the token of a run is raised, nothing is read that had not been let go on before, and the run
ends; it ends well only if the lock was complete by then. -/
theorem Interrupted.stops [Source ρ C] (prepared : prepare planner streams settings = .ok fresh)
    (interrupted : Interrupted planner fresh current) (unlocked : current.phase ≠ .locked)
    (sources : List ρ) (cancelled : Bool) :
    Stops planner settings streams (.start current sources cancelled) ∧
    (∀ run : Run ρ C π, Quiet (run.act planner).1 →
      (run.act planner).2.work.sources = run.work.sources) ∧
    (∃ place, Run.Alone planner (.start current sources cancelled)
        (current.log planner sources cancelled)
        ⟨(current.run planner sources cancelled).2, place⟩ ∧
      (place = .ended (current.run planner sources cancelled).1 ∨
        (current.run planner sources cancelled).1 = .error .fault ∧ place = .turning)) ∧
    (fresh.checkSources sources = .ok () →
      (fresh.run planner sources true).1 = .fail .cancelled ∧
        (fresh.run planner sources true).2.sources = sources ∧
        Quiet (fresh.log planner sources true)) := by
  obtain ⟨fixed, paired, idle⟩ := interrupted.kept prepared
  have measuring := idle.resolve_right unlocked
  obtain ⟨checked, _⟩ := prepare_report prepared
  have begins : Run.Traced settings streams [] (.start current sources cancelled) := by
    refine ⟨⟨fixed, paired, .inr idle⟩, ?_⟩
    have stands : Run.Stands settings streams [] .entering current.phase := measuring ▸ .entering
    exact stands
  refine ⟨?_, fun run quiet => Run.sources_act quiet, Run.alone_run planner current sources cancelled,
    fun accepted => ?_⟩
  · exact {
      prompt := fun earlier later raised => Run.brief_play planner raised later
      ends := fun earlier raised =>
        (begins.play planner earlier).ends (Settings.trials_ne_zero checked) raised planner
      unread := fun raised moves =>
        Run.Resting.play ⟨raised, by simp [Run.start], by simp [Run.start]⟩ planner moves
      confirmed := fun moves report ended => (begins.play planner moves).confirmed ended
      complete := fun earlier later report ended raised => by
        rw [Run.play_append] at ended
        exact (begins.play planner earlier).concluded raised ended }
  · obtain ⟨ran, log⟩ := run_cancelled prepared accepted
    rw [ran, log]
    exact ⟨rfl, rfl, by simp [Quiet, Event.reads]⟩

theorem Interrupted.stops_pulse :
    ∃ (sources : List (Metered (Replay ℂ))) (fresh : Synchronizer ℂ Plan),
      sources = [⟨.standing #[1, 0] 1 1 0, 0⟩, ⟨.standing #[1, 0] 1 1 1, 1⟩] ∧
      prepare (Planner.ofKernel Dft.transform) 2 ⟨2, 3, some 2⟩ = .ok fresh ∧
      fresh.phase ≠ .locked ∧
      Stops (Planner.ofKernel Dft.transform) ⟨2, 3, some 2⟩ 2 (.start fresh sources false) ∧
      fresh.checkSources sources = .ok () ∧
      (fresh.run (Planner.ofKernel Dft.transform) sources true).1 = .fail .cancelled := by
  let sources : List (Metered (Replay ℂ)) :=
    [⟨.standing #[1, 0] 1 1 0, 0⟩, ⟨.standing #[1, 0] 1 1 1, 1⟩]
  obtain ⟨fresh, prepared⟩ : ∃ fresh : Synchronizer ℂ Plan,
      prepare (Planner.ofKernel Dft.transform) 2 ⟨2, 3, some 2⟩ = .ok fresh := ⟨_, rfl⟩
  obtain ⟨fit, _⟩ := prepare_fit prepared
  have unlocked : fresh.phase ≠ .locked := by simp [fit.stage]
  have accepted : fresh.checkSources sources = .ok () := by
    simp only [checkSources, fit.paired]
    rfl
  obtain ⟨stops, _, _, barred⟩ := Interrupted.stops prepared .fresh unlocked sources false
  exact ⟨sources, fresh, rfl, prepared, unlocked, stops, accepted, (barred accepted).1⟩

end Synchronizer

end Wideband.Lock
