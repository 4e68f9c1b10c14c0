import Wideband.Proofs.Recording.Playing
import Wideband.Proofs.Recording.Wave
import Wideband.Proofs.Sample.Single
import Wideband.Recording.Recorder

namespace Wideband.Recording

variable {ε δ φ : Type}

namespace Recorder

inductive Request where
  | write (buffer : Buffer Complex32)
  | close

def Late : Request → Except Error ℕ → Prop
  | .write _, answer => ∃ cause, answer = .error cause
  | .close, answer => answer = .ok 0

variable [Encoder ε φ Float32]

/-- Requests one after the other: the answers and what is left of the recorder. Closing counts as
nothing written. -/
def serve (recorder : Recorder ε φ) : List Request → List (Except Error ℕ) × Recorder ε φ
  | [] => ([], recorder)
  | .write buffer :: requests =>
      let (answer, recorder) := recorder.write buffer
      let later := recorder.serve requests
      (answer :: later.1, later.2)
  | .close :: requests =>
      let (answer, recorder) := recorder.close
      let later := recorder.serve requests
      (answer.map (fun _ => 0) :: later.1, later.2)

theorem putEach_append {encoder written : ε} {front back : List Float32}
    (put : Encoder.putEach encoder (front ++ back) = (.ok (), written)) :
    ∃ middle, Encoder.putEach encoder front = (.ok (), middle) ∧
      Encoder.putEach middle back = (.ok (), written) := by
  induction front generalizing encoder with
  | nil => exact ⟨encoder, rfl, put⟩
  | cons value front ih =>
      rw [List.cons_append, Encoder.putEach] at put
      rcases first : Encoder.put encoder value with ⟨_ | _, next⟩
      · simp [first] at put
      · simp only [first] at put
        obtain ⟨middle, early, late⟩ := ih put
        exact ⟨middle, by simp only [Encoder.putEach, first, early], late⟩

theorem serve_writes {rate : ℕ} {encoder written : ε} (buffers : List (Array Complex32))
    (put : Encoder.putEach encoder ((buffers.flatMap Array.toList).flatMap valuesOf) =
      (.ok (), written)) :
    (⟨rate, .running encoder⟩ : Recorder ε φ).serve (buffers.map fun out => .write (.complex out)) =
      (buffers.map fun out => .ok out.size, ⟨rate, .running written⟩) := by
  induction buffers generalizing encoder with
  | nil =>
      cases put
      rfl
  | cons out buffers ih =>
      rw [List.flatMap_cons, List.flatMap_append] at put
      obtain ⟨middle, first, rest⟩ := putEach_append put
      simp only [List.map_cons, serve, write, first, ih rest]
      rfl

theorem serve_complete (rate : ℕ) (file : φ) (requests : List Request) :
    ((⟨rate, .complete file⟩ : Recorder ε φ).serve requests).2 = ⟨rate, .complete file⟩ ∧
      List.Forall₂ Late requests ((⟨rate, .complete file⟩ : Recorder ε φ).serve requests).1 := by
  induction requests with
  | nil => exact ⟨rfl, .nil⟩
  | cons request requests ih =>
      obtain ⟨same, late⟩ := ih
      cases request with
      | write buffer =>
          have refused : ∃ cause, (⟨rate, .complete file⟩ : Recorder ε φ).write buffer =
              (.error cause, ⟨rate, .complete file⟩) := by
            cases buffer <;> exact ⟨_, rfl⟩
          obtain ⟨cause, refused⟩ := refused
          simp only [serve, refused]
          exact ⟨same, .cons ⟨cause, rfl⟩ late⟩
      | close => exact ⟨same, .cons rfl late⟩

end Recorder

namespace Player

variable [Decoder δ φ Float32] {rate : ℕ}

theorem ofFile_pairs {file : φ} {decoder : δ} (opens : Decoder.ofFile file = .ok decoder)
    (layout : Decoder.layout decoder = .pairs rate) :
    ofFile file = .ok ⟨decoder, .pairs rate, 1⟩ := by
  simp only [ofFile, opens, layout]
  rfl

theorem next_pairs (decoder : δ) : next ⟨decoder, .pairs rate, 1⟩ =
    ((Decoder.nextFloat decoder).1, ⟨(Decoder.nextFloat decoder).2, .pairs rate, 1⟩) := rfl

theorem yields_hands {decoder last : δ} {samples : List Complex32}
    (hands : Hands decoder (samples.flatMap Recorder.valuesOf) last) :
    Yields (⟨decoder, .pairs rate, 1⟩ : Player δ) samples ⟨last, .pairs rate, 1⟩ := by
  induction samples generalizing decoder with
  | nil =>
      cases hands
      exact .nil
  | cons sample samples ih =>
      cases hands with
      | cons inPhase hands =>
          cases hands with
          | cons quadrature rest =>
              refine .cons ?_ (ih rest)
              rw [Player.sample, next_pairs, inPhase]
              dsimp only
              rw [next_pairs, quadrature]
              dsimp only [sampleOf]
              rw [Single.div_one, Single.div_one]
              rfl

end Player

/-- How a recording of samples plays back. -/
structure PlaysBack [Decoder δ φ Float32] (rate : ℕ) (samples : List Complex32)
    (player : Player δ) : Prop where
  size : player.size = samples.length
  rate : Source.rate player = rate
  dealt (views : List (Array Complex32)) :
    Source.Dealt (samples.getD · 0) 0 (some samples.length) views
      (Source.readEach player (views.map .complex)).1
  delivered (views : List (Array Complex32)) :
    (Source.readEach player (views.map .complex)).1.flatMap Reading.samples =
      samples.take (Source.room views)
  /-- Only the end of the recording looks like one. -/
  ends {views : List (Array Complex32)} {index : ℕ} {out : Array Complex32}
    {reading : Reading (Player δ) Complex32} (into : views[index]? = some out)
    (found : (Source.readEach player (views.map .complex)).1[index]? = some reading)
    (none : reading.outcome = .ok 0) :
    out.size = 0 ∨ samples.length ≤ Source.room (views.take index)

theorem length_values (samples : List Complex32) :
    (samples.flatMap Recorder.valuesOf).length = 2 * samples.length := by
  rw [List.length_flatMap]
  simp [Recorder.valuesOf, Nat.mul_comm]

theorem Holds.playsBack [Decoder δ φ Float32] {rate : ℕ} {samples : List Complex32} {file : φ}
    {decoder : δ} (holds : Holds δ rate (samples.flatMap Recorder.valuesOf) file decoder) :
    PlaysBack rate samples (⟨decoder, .pairs rate, 1⟩ : Player δ) := by
  obtain ⟨last, hands, ended⟩ := holds.hands
  have silent : Player.sample (⟨last, .pairs rate, 1⟩ : Player δ) =
      ((none, ⟨last, .pairs rate, 1⟩) : Option (Except Error Complex32) × Player δ) := by
    rw [Player.sample, Player.next_pairs, ended]
  have whole : Player.Stands samples 0 (some samples.length) (⟨decoder, .pairs rate, 1⟩ : Player δ) :=
    ⟨Nat.zero_le _, rfl, _, Player.yields_hands hands, silent⟩
  have dealt := (Player.deals samples).dealt whole
  constructor
  case size =>
    have twice := holds.duration
    rw [length_values] at twice
    exact Nat.eq_of_mul_eq_mul_left (by decide) twice
  case rate => rfl
  case dealt => exact dealt
  case delivered =>
    intro views
    rw [(dealt views).samples, Player.stretch_getD (by simp [Source.portion])]
    simp [Source.portion]
  case ends =>
    intro views index out reading into found none
    obtain ⟨same, present, handed⟩ := (dealt views).handed into
    obtain rfl : same = reading := Option.some.inj (present.symm.trans found)
    have count := Except.ok.inj (handed.outcome.symm.trans none)
    simp only [Source.portion, Source.behind, Option.map_some] at count
    omega

/-- Whatever is recorded reads back sample by sample, in views of any sizes, and nothing that is asked
of the recorder afterwards changes the file. -/
theorem Recorder.reads_back [Encoder ε φ Float32] [Decoder δ φ Float32] [Lossless ε δ] {rate : ℕ}
    {recorder : Recorder ε φ} (started : Recorder.start rate = .ok recorder)
    (buffers : List (Array Complex32))
    (fits : 60 + 8 * (buffers.flatMap Array.toList).length < 0x100000000) :
    let written := recorder.serve (buffers.map fun out => .write (.complex out))
    let closed := written.2.close
    written.1 = buffers.map (fun out => .ok out.size) ∧ closed.1 = .ok () ∧
      (∃ player : Player δ, Player.ofFile closed.2.file = .ok player ∧
        PlaysBack rate (buffers.flatMap Array.toList) player) ∧
      ∀ requests, List.Forall₂ Late requests (closed.2.serve requests).1 ∧
        (closed.2.serve requests).2.file = closed.2.file := by
  have values := length_values (buffers.flatMap Array.toList)
  have whole : ((buffers.flatMap Array.toList).flatMap valuesOf).length % 2 = 0 := by omega
  have fits : 60 + 4 * ((buffers.flatMap Array.toList).flatMap valuesOf).length < 0x100000000 := by
    omega
  unfold start at started
  cases created : (Encoder.create (.pairs rate) : Outcome ε) with
  | error failure => simp [created] at started
  | ok encoder =>
      simp only [created, Except.ok.injEq] at started
      subst started
      obtain ⟨written, file, decoder, put, finished, holds⟩ :=
        Lossless.kept (δ := δ) created whole fits
      rw [serve_writes buffers put]
      simp only [close, finished]
      refine ⟨trivial, trivial,
        ⟨_, Player.ofFile_pairs holds.opens holds.layout, holds.playsBack⟩, ?_⟩
      intro requests
      obtain ⟨same, late⟩ := serve_complete (ε := ε) rate file requests
      exact ⟨late, congrArg Recorder.file same⟩

theorem Recorder.reads_back_three :
    let recorder : Recorder WaveWriter (List UInt8) := ⟨48000, .running ⟨.pairs 48000, #[]⟩⟩
    let buffers : List (Array Complex32) := [#[⟨1, -2⟩, ⟨3, -4⟩], #[], #[⟨5, -6⟩]]
    let closed := (recorder.serve (buffers.map fun out => .write (.complex out))).2.close.2
    Recorder.start 48000 = .ok recorder ∧
      (closed.serve [.close, .write (.complex #[0])]).2.file = closed.file ∧
      ∃ player : Player WaveReader, Player.ofFile closed.file = .ok player ∧ player.size = 3 ∧
        (Source.readEach player [.complex #[0, 0], .complex #[0, 0]]).1.flatMap Reading.samples =
          [⟨1, -2⟩, ⟨3, -4⟩, ⟨5, -6⟩] := by
  have started : Recorder.start 48000 =
      .ok (⟨48000, .running ⟨.pairs 48000, #[]⟩⟩ : Recorder WaveWriter (List UInt8)) := rfl
  obtain ⟨_, _, ⟨player, opened, back⟩, late⟩ := reads_back (δ := WaveReader)
    started [#[⟨1, -2⟩, ⟨3, -4⟩], #[], #[⟨5, -6⟩]] (by decide)
  exact ⟨started, (late _).2, player, opened, back.size, back.delivered [#[0, 0], #[0, 0]]⟩

end Wideband.Recording
