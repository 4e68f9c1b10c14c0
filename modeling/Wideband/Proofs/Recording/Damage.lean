import Wideband.Proofs.Recording.Lossless

namespace Wideband

/-!
Recordings with a value that can not be read. The reads before it fill their views, and the read that
comes to it fails. What that read has stored by then is neither reported nor played again, so how much
a caller gets depends on how the views are cut (`Recording.Player.Yields.until_damage`): all of it if
some view ends where the damage begins, which views of one sample always do.
-/

namespace Source

variable {ρ C R : Type}

/-- The views in front of the first one that is not filled where only so many samples are left. -/
def filled : ℕ → List (Array C) → List (Array C)
  | _, [] => []
  | left, out :: later => if out.size ≤ left then out :: filled (left - out.size) later else []

variable {left : ℕ} {views : List (Array C)}

theorem room_filled_le (left : ℕ) (views : List (Array C)) : room (filled left views) ≤ left := by
  induction views generalizing left with
  | nil => exact Nat.zero_le left
  | cons out later ih =>
      rw [filled]
      split
      · rename_i fits
        have rest := ih (left - out.size)
        rw [room]
        omega
      · exact Nat.zero_le left

theorem filled_all (enough : room views ≤ left) : filled left views = views := by
  induction views generalizing left with
  | nil => rfl
  | cons out later ih =>
      rw [room] at enough
      rw [filled, if_pos (by omega), ih (by omega)]

theorem room_filled_single (single : ∀ out ∈ views, out.size ≤ 1) (enough : left ≤ room views) :
    room (filled left views) = left := by
  induction views generalizing left with
  | nil => exact (Nat.le_zero.mp enough).symm
  | cons out later ih =>
      have one := single out (by simp)
      have others : ∀ out ∈ later, out.size ≤ 1 := fun out member => single out (by simp [member])
      rw [room] at enough
      rw [filled]
      split
      · have rest : room (filled (left - out.size) later) = left - out.size :=
          ih others (by omega)
        rw [room, rest]
        omega
      · rw [room]
        omega

theorem length_readEach [Source ρ C] (source : ρ) (views : List (Buffer C)) :
    (readEach source views).1.length = views.length := by
  induction views generalizing source with
  | nil => rfl
  | cons view views ih => exact congrArg Nat.succ (ih _)

def delivered [Component R] [Sample C R] : List (Reading ρ C) → List C
  | [] => []
  | reading :: later =>
      match reading.outcome with
      | .ok _ => reading.samples ++ delivered later
      | .error _ => []

end Source

namespace Recording.Player

open Source

section Reads

variable {δ φ : Type} [Decoder δ φ Float32]

structure Stopped (samples : List Complex32) (cause : Error) (behind : Player δ)
    (views : List (Array Complex32)) (readings : List (Reading (Player δ) Complex32)) : Prop where
  fills : (readings.take (filled samples.length views).length).map Reading.outcome =
    (filled samples.length views).map fun out => .ok out.size
  delivered : delivered readings = samples.take (room (filled samples.length views))
  /-- The read that comes to the damage leaves the samples before it in its view, and the player
  behind it. -/
  fails (beyond : samples.length < room views) :
    let rest := samples.drop (room (filled samples.length views))
    ∃ out, views[(filled samples.length views).length]? = some out ∧ rest.length < out.size ∧
      readings[(filled samples.length views).length]? =
        some ⟨.fail cause, .complex (rest.toArray ++ out.extract rest.length out.size), behind,
          .none⟩

variable {player last next : Player δ} {samples : List Complex32} {cause : Error}

theorem Yields.stopped (yields : player.Yields samples last)
    (damaged : last.sample (C := Complex32) = (some (.error cause), next))
    (views : List (Array Complex32)) :
    Stopped samples cause next views (readEach player (views.map .complex)).1 := by
  induction views generalizing player samples with
  | nil => exact ⟨rfl, rfl, nofun⟩
  | cons out later ih =>
      rcases Nat.lt_or_ge samples.length out.size with beyond | fits
      · have read : Source.read player (.complex out) = _ := yields.read_damaged damaged beyond
        have none : filled samples.length (out :: later) = [] := if_neg (by omega)
        constructor
        case fills => simp [none]
        case delivered => simp [none, readEach, read, delivered, Outcome.fail, room]
        case fails =>
          intro _
          exact ⟨out, by simpa [none, readEach, read, room] using beyond⟩
      · obtain ⟨middle, onward, read⟩ := yields.read_full fits
        have read : Source.read player (.complex out) = _ := read
        have first : filled samples.length (out :: later) =
            out :: filled (samples.drop out.size).length later := by
          rw [filled, if_pos fits, List.length_drop]
        have size : (samples.take out.size).length = out.size := List.length_take_of_le fits
        have rest := ih onward
        constructor
        case fills =>
          rw [first]
          simpa [readEach, read] using rest.fills
        case delivered =>
          have got : (Source.read player (.complex out)).samples = samples.take out.size := by
            simp [read, Reading.samples, Reading.answer, Except.map, Buffer.take, Buffer.extract,
              Buffer.toComplex]
          rw [List.map_cons, readEach, delivered, read]
          dsimp only
          rw [rest.delivered, first, room, ← read, got, List.take_add]
        case fails =>
          intro beyond
          rw [room] at beyond
          obtain ⟨other, found, stopped⟩ := rest.fails (by rw [List.length_drop]; omega)
          refine ⟨other, ?_, ?_⟩
          · simpa [first] using found
          · rw [first, room]
            simpa [readEach, read, List.drop_drop] using stopped

/-- Reads into any views of a recording with damage behind some samples. A caller gets what the views
in front of the failing one hold, which is all there is only where one of them ends at the damage. -/
theorem Yields.until_damage (yields : player.Yields samples last)
    (damaged : last.sample (C := Complex32) = (some (.error cause), next))
    (views : List (Array Complex32)) :
    let readings := (readEach player (views.map .complex)).1
    Stopped samples cause next views readings ∧
      (room views ≤ samples.length → readings.map Reading.outcome =
        views.map (fun out => .ok out.size) ∧ delivered readings = samples.take (room views)) ∧
      (delivered readings = samples ↔ room (filled samples.length views) = samples.length) ∧
      ((∀ out ∈ views, out.size ≤ 1) → samples.length ≤ room views →
        delivered readings = samples) := by
  intro readings
  have stopped : Stopped samples cause next views readings := yields.stopped damaged views
  have most := room_filled_le samples.length views
  have all : delivered readings = samples ↔
      room (filled samples.length views) = samples.length := by
    rw [stopped.delivered, List.take_eq_self_iff]
    omega
  refine ⟨stopped, ?_, all, ?_⟩
  · intro enough
    have whole := filled_all enough
    have every : readings.length ≤ views.length := by
      rw [length_readEach, List.length_map]
    have fills := stopped.fills
    rw [whole, List.take_of_length_le every] at fills
    exact ⟨fills, by rw [stopped.delivered, whole]⟩
  · intro single enough
    exact all.mpr (room_filled_single single enough)

end Reads

theorem sample_torn {rate count left : ℕ} (value : Float32) :
    (⟨.ahead rate count [value] (left + 1) [], .pairs rate, 1⟩ : Player WaveReader).sample =
      ((some (.error (.transfer .exhausted)), ⟨.ahead rate count [] left [], .pairs rate, 1⟩) :
        Option (Except Error Complex32) × Player WaveReader) := by
  rw [Player.sample, next_pairs, WaveReader.nextFloat_ahead]
  dsimp only
  rw [next_pairs, WaveReader.nextFloat_cut]
  rfl

def torn : List UInt8 :=
  (Stored.pairs 1000).header 16 ++ bytesOf [1, 2, 3]

theorem opens_torn : ∃ player last next : Player WaveReader,
    ofFile torn = .ok player ∧ Yields player [(⟨1, 2⟩ : Complex32)] last ∧
      last.sample (C := Complex32) = (some (.error (.transfer .exhausted)), next) := by
  have opens := WaveReader.ofFile_ahead [1, 2, 3] 1 [] (by decide : 1000 * 8 < _) (by decide) rfl
  rw [List.append_nil] at opens
  have first : Hands (WaveReader.ahead 1000 4 [1, 2, 3] 1 [])
      ([(⟨1, 2⟩ : Complex32)].flatMap Recorder.valuesOf) (.ahead 1000 4 [3] 1 []) :=
    WaveReader.hands_ahead [1, 2] [3]
  exact ⟨_, _, _, ofFile_pairs opens rfl, yields_hands first, sample_torn 3⟩

/-- Read in views of one sample, the file gives the sample in front of the damage. Read in a view of
two, it gives none. -/
theorem lost_in_one_read : ∃ player last next : Player WaveReader,
    ofFile torn = .ok player ∧ Yields player [(⟨1, 2⟩ : Complex32)] last ∧
      last.sample (C := Complex32) = (some (.error (.transfer .exhausted)), next) ∧
      delivered (readEach player [.complex #[0], .complex #[0]]).1 = [⟨1, 2⟩] ∧
      delivered (readEach player [.complex #[0, 0]]).1 = [] := by
  obtain ⟨player, last, next, opened, yields, damaged⟩ := opens_torn
  exact ⟨player, last, next, opened, yields, damaged,
    (yields.stopped damaged [#[0], #[0]]).delivered, (yields.stopped damaged [#[0, 0]]).delivered⟩

theorem Yields.until_damage_torn : ∃ player last next : Player WaveReader,
    ofFile torn = .ok player ∧ Yields player [(⟨1, 2⟩ : Complex32)] last ∧
      last.sample (C := Complex32) = (some (.error (.transfer .exhausted)), next) ∧
      (readEach player [.complex #[0, 0]]).1[0]? = some ⟨.fail (.transfer .exhausted),
        .complex #[⟨1, 2⟩, 0], next, .none⟩ ∧
      delivered (readEach player [.complex #[0], .complex #[0]]).1 = [⟨1, 2⟩] := by
  obtain ⟨player, last, next, opened, yields, damaged⟩ := opens_torn
  obtain ⟨one, _, _, whole⟩ := yields.until_damage damaged [#[0], #[0]]
  obtain ⟨two, _⟩ := yields.until_damage damaged [#[0, 0]]
  obtain ⟨out, found, _, failed⟩ := two.fails (by decide)
  obtain rfl : #[0, 0] = out := Option.some.inj found
  exact ⟨player, last, next, opened, yields, damaged, failed, whole (by decide) (by decide)⟩

end Recording.Player

end Wideband
