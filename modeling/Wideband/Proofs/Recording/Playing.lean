import Wideband.Proofs.Source.Dealing
import Wideband.Recording.Player

namespace Wideband.Recording.Player

/-!
A recording played sample by sample. `Player.sample` takes the two values of the next sample, a read
is a run of such steps (`play_succ`), and `Yields` is a run in which all of them succeed. What a read
stores depends only on where it starts in such a run: it stores as many samples as it has room for,
unless the recording ends before (`Yields.read_ended`) or a value can not be read
(`Yields.read_damaged`). A recording that can be played to its end is dealt out in order (`deals`).
-/

variable {δ φ C R : Type}

section Steps

variable [Decoder δ φ R] [Component R] [Sample C R]

def sampleOf (divisor : Int) : Except Error R → Except Error R → Except Error C
  | .error cause, _ => .error cause
  | .ok _, .error cause => .error cause
  | .ok inPhase, .ok quadrature =>
      .ok (Sample.ofParts (inPhase / Component.ofInt divisor)
        (quadrature / Component.ofInt divisor))

def sample (player : Player δ) : Option (Except Error C) × Player δ :=
  match player.next with
  | (none, player) => (none, player)
  | (some inPhase, player) =>
      match player.next with
      | (none, player) => (some (.error .endOfStream), player)
      | (some quadrature, player) => (some (sampleOf player.divisor inPhase quadrature), player)

/-- The samples that a player comes to in a row, and the player behind them. -/
inductive Yields : Player δ → List C → Player δ → Prop where
  | nil {player : Player δ} : Yields player [] player
  | cons {player next last : Player δ} {sample : C} {samples : List C}
      (first : player.sample = (some (.ok sample), next)) (rest : Yields next samples last) :
      Yields player (sample :: samples) last

variable {player last next : Player δ} {stored : Array C} {samples front back : List C}
  {cause : Error} {room : ℕ}

theorem play_succ (player : Player δ) (stored : Array C) (room : ℕ) :
    player.play stored (room + 1) =
      match player.sample (C := C) with
      | (none, next) => (.ok (), stored, next)
      | (some (.error cause), next) => (.error cause, stored, next)
      | (some (.ok sample), next) => next.play (stored.push sample) room := by
  rw [play, sample]
  rcases player.next with ⟨_ | inPhase, middle⟩
  · rfl
  · dsimp only
    rcases middle.next with ⟨_ | quadrature, next⟩
    · rfl
    · cases inPhase <;> cases quadrature <;> rfl

theorem Yields.play (yields : Yields player samples last) (stored : Array C) (room : ℕ) :
    player.play stored (samples.length + room) = last.play (stored ++ samples.toArray) room := by
  induction yields generalizing stored with
  | nil => simp
  | @cons player next last sample samples first rest ih =>
      have room : (sample :: samples).length + room = samples.length + room + 1 := by
        simp only [List.length_cons]
        omega
      rw [room, play_succ, first]
      dsimp only
      rw [ih]
      simp

theorem Yields.split (yields : Yields player (front ++ back) last) :
    ∃ middle, Yields player front middle ∧ Yields middle back last := by
  induction front generalizing player with
  | nil => exact ⟨player, .nil, yields⟩
  | cons sample front ih =>
      cases yields with
      | cons first rest =>
          obtain ⟨middle, early, late⟩ := ih rest
          exact ⟨middle, .cons first early, late⟩

section Reads

variable {out : Array C}

theorem Yields.read_full (yields : Yields player samples last) (fits : out.size ≤ samples.length) :
    ∃ next, Yields next (samples.drop out.size) last ∧ player.read (.complex out) =
      ⟨.ok out.size, .complex (samples.take out.size).toArray, next, .none⟩ := by
  rw [← List.take_append_drop out.size samples] at yields
  obtain ⟨next, early, late⟩ := yields.split
  have played := early.play #[] 0
  rw [List.length_take_of_le fits, Nat.add_zero, Player.play] at played
  exact ⟨next, late, by simp [Player.read, played, fits]⟩

theorem Yields.read_ended (yields : Yields player samples last)
    (ended : last.sample (C := C) = (none, last)) (beyond : samples.length < out.size) :
    player.read (.complex out) =
      ⟨.ok samples.length, .complex (samples.toArray ++ out.extract samples.length out.size), last,
        .none⟩ := by
  obtain ⟨room, size⟩ := Nat.exists_eq_add_of_lt beyond
  have played := yields.play #[] (room + 1)
  rw [play_succ, ended] at played
  simp [Player.read, size, played, Nat.add_assoc]

/-- A read that comes to a value which can not be read. The samples before it are in its view, but
the read does not say so, and the player is behind them. -/
theorem Yields.read_damaged (yields : Yields player samples last)
    (damaged : last.sample (C := C) = (some (.error cause), next))
    (beyond : samples.length < out.size) :
    player.read (.complex out) =
      ⟨.fail cause, .complex (samples.toArray ++ out.extract samples.length out.size), next,
        .none⟩ := by
  obtain ⟨room, size⟩ := Nat.exists_eq_add_of_lt beyond
  have played := yields.play #[] (room + 1)
  rw [play_succ, damaged] at played
  simp [Player.read, size, played, Nat.add_assoc]

end Reads

end Steps

section Whole

variable [Decoder δ φ Float32] {samples : List Complex32}

structure Stands (samples : List Complex32) (position : ℕ) (left : Option ℕ) (player : Player δ) :
    Prop where
  within : position ≤ samples.length
  left : left = some (samples.length - position)
  yields : ∃ last, player.Yields (samples.drop position) last ∧
    last.sample (C := Complex32) = (none, last)

theorem stretch_getD {position count : ℕ} (within : position + count ≤ samples.length) :
    Source.stretch (samples.getD · 0) position count =
      ((samples.drop position).take count).toArray := by
  apply Array.ext
  · simp
    omega
  · intro index inside _
    have inside : index < count := by simpa using inside
    simp [Source.stretch, show position + index < samples.length by omega]

theorem Stands.read {position : ℕ} {left : Option ℕ} {player : Player δ}
    (here : Stands samples position left player) (out : Array Complex32) :
    let count := Source.portion left out.size
    ∃ next, Stands samples (position + count) (Source.behind left count) next ∧
      Source.read player (.complex out) = ⟨.ok count,
        .complex (Source.stretch (samples.getD · 0) position count ++ out.extract count out.size),
        next, .none⟩ := by
  obtain ⟨within, rfl, last, yields, ended⟩ := here
  have rest : (samples.drop position).length = samples.length - position := List.length_drop
  intro count
  have most : position + count ≤ samples.length := by
    have share : count ≤ samples.length - position := Nat.min_le_right _ _
    omega
  have behind : Source.behind (some (samples.length - position)) count =
      some (samples.length - (position + count)) := by
    rw [Nat.sub_add_eq]
    rfl
  rw [stretch_getD most]
  rcases Nat.lt_or_ge (samples.length - position) out.size with beyond | fits
  · have all : count = (samples.drop position).length := by
      rw [rest]
      exact Nat.min_eq_right (Nat.le_of_lt beyond)
    refine ⟨last, ⟨most, behind, last, ?_, ended⟩, ?_⟩
    · rw [← List.drop_drop, all, List.drop_length]
      exact .nil
    · rw [all, List.take_length]
      exact yields.read_ended ended (rest ▸ beyond)
  · obtain ⟨next, onward, read⟩ := yields.read_full (rest ▸ fits)
    have all : count = out.size := Nat.min_eq_left fits
    refine ⟨next, ⟨most, behind, last, ?_, ended⟩, ?_⟩
    · rw [← List.drop_drop, all]
      exact onward
    · rw [all, Array.extract_eq_empty_of_le (by omega), Array.append_empty]
      exact read

theorem deals (samples : List Complex32) :
    Source.Deals (Stands (δ := δ) samples) (samples.getD · 0) where
  handed here out := by
    obtain ⟨next, _, read⟩ := here.read out
    rw [read]
    exact ⟨rfl, rfl⟩
  onward here out := by
    obtain ⟨next, stands, read⟩ := here.read out
    rw [read]
    exact stands

end Whole

end Wideband.Recording.Player
