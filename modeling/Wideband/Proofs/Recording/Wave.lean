import Mathlib
import Wideband.Proofs.Recording.Header
import Wideband.Recording.Wave

namespace Wideband.Recording

/-!
What is asked of a library of files (`Lossless`): values come back in the order in which they were
written, bit by bit. Files of bytes do that.
-/

section Law

variable {ε δ φ R : Type}

inductive Hands [Decoder δ φ R] : δ → List R → δ → Prop where
  | nil {decoder : δ} : Hands decoder [] decoder
  | cons {decoder next last : δ} {value : R} {values : List R}
      (first : Decoder.nextFloat decoder = (some (.ok value), next))
      (rest : Hands next values last) : Hands decoder (value :: values) last

/-- A file that opens as a recording of pairs with the given values and no others. -/
structure Holds (δ : Type) [Decoder δ φ R] (rate : ℕ) (values : List R) (file : φ)
    (decoder : δ) : Prop where
  opens : Decoder.ofFile file = .ok decoder
  layout : Decoder.layout decoder = .pairs rate
  duration : 2 * Decoder.duration decoder = values.length
  hands : ∃ last, Hands decoder values last ∧ Decoder.nextFloat last = (none, last)

/-- Files of pairs keep the values written to them, up to the size that fits into their header. -/
class Lossless (ε δ : Type) {φ R : Type} [Encoder ε φ R] [Decoder δ φ R] : Prop where
  kept {rate : ℕ} {encoder : ε} {values : List R}
    (created : Encoder.create (.pairs rate) = .ok encoder) (whole : values.length % 2 = 0)
    (fits : 60 + 4 * values.length < 0x100000000) :
    ∃ written file decoder, Encoder.putEach encoder values = (.ok (), written) ∧
      Encoder.finish written = (.ok (), file) ∧ Holds δ rate values file decoder

end Law

def bytesOf (values : List Float32) : List UInt8 :=
  values.flatMap fun value => littleEndian 4 value.toBits.toNat

theorem length_bytesOf (values : List Float32) : (bytesOf values).length = 4 * values.length := by
  induction values with
  | nil => rfl
  | cons value values ih =>
      rw [bytesOf, List.flatMap_cons, List.length_append, length_littleEndian, ← bytesOf, ih,
        List.length_cons]
      omega

namespace WaveWriter

variable {rate : ℕ}

theorem create_ok {writer : WaveWriter} (created : Encoder.create (.pairs rate) = .ok writer) :
    writer = ⟨.pairs rate, #[]⟩ ∧ rate * 8 < 0x100000000 := by
  simp only [Encoder.create, Stored.ofLayout_pairs] at created
  split at created
  · cases created
  · rename_i within
    cases created
    dsimp only [Stored.pairs, Layout.pairs] at within
    exact ⟨rfl, by omega⟩

theorem putEach_pairs (words : Array UInt32) (values : List Float32) :
    Encoder.putEach (⟨.pairs rate, words⟩ : WaveWriter) values =
      (.ok (), ⟨.pairs rate, words ++ (values.map Float32.toBits).toArray⟩) := by
  induction values generalizing words with
  | nil => simp [Encoder.putEach]
  | cons value values ih =>
      have first : Encoder.put (⟨.pairs rate, words⟩ : WaveWriter) value =
          (.ok (), ⟨.pairs rate, words.push value.toBits⟩) := by
        simp [Encoder.put, Stored.pairs, Layout.pairs]
      rw [Encoder.putEach, first]
      dsimp only
      rw [ih]
      simp

theorem finish_pairs (values : List Float32) :
    Encoder.finish (⟨.pairs rate, #[] ++ (values.map Float32.toBits).toArray⟩ : WaveWriter) =
      (.ok (), (Stored.pairs rate).header (4 * values.length) ++ bytesOf values) := by
  simp [Encoder.finish, ← length_bytesOf, bytesOf, List.flatMap_map]

end WaveWriter

namespace WaveReader

/-- A reader with some values in front of it, and behind them `rest`, which is to be `left` values
more. -/
def ahead (rate count : ℕ) (values : List Float32) (left : ℕ) (rest : List UInt8) : WaveReader :=
  ⟨.pairs rate, count, values.length + left, bytesOf values ++ rest⟩

variable {rate count left : ℕ} {rest : List UInt8}

theorem ofFile_ahead (values : List Float32) (missing : ℕ) (rest : List UInt8)
    (fits : rate * 8 < 0x100000000) (sized : 4 * (values.length + missing) < 0x100000000)
    (whole : (values.length + missing) % 2 = 0) :
    Decoder.ofFile ((Stored.pairs rate).header (4 * (values.length + missing)) ++
      (bytesOf values ++ rest)) = .ok (ahead rate (values.length + missing) values missing rest) := by
  have pairs : 4 * (values.length + missing) % 8 = 0 := by omega
  have count : 4 * (values.length + missing) / 4 = values.length + missing := by omega
  have parsed := Header.parse_pairs fits sized pairs (bytesOf values ++ rest)
  rw [count] at parsed
  have parsed : Header.parse.run _ = _ := parsed
  simp only [Decoder.ofFile, ofFile, parsed, ahead]

theorem nextFloat_ahead (value : Float32) (values : List Float32) :
    Decoder.nextFloat (ahead rate count (value :: values) left rest) =
      (some (.ok value), ahead rate count values left rest) := by
  have size := length_littleEndian 4 value.toBits.toNat
  have number : ofLittleEndian (littleEndian 4 value.toBits.toNat) = value.toBits.toNat :=
    ofLittleEndian_littleEndian value.toBits.toNat_lt
  have bytes : bytesOf (value :: values) ++ rest =
      littleEndian 4 value.toBits.toNat ++ (bytesOf values ++ rest) := by
    simp [bytesOf]
  have enough : 4 ≤ (littleEndian 4 value.toBits.toNat ++ (bytesOf values ++ rest)).length := by
    rw [List.length_append, size]
    omega
  have left : (value :: values).length + left = values.length + left + 1 := by
    rw [List.length_cons]
    omega
  have form : floatForm (.pairs rate) =
      some (4, fun bytes => Float32.ofBits (UInt32.ofNat (ofLittleEndian bytes))) := rfl
  have kept : Float32.ofBits value.toBits = value := Float32.ofBits_toBits value
  simp only [Decoder.nextFloat, ahead, next, bytes, left, form, if_neg (Nat.succ_ne_zero _),
    if_pos enough, List.take_left' size, List.drop_left' size, number, UInt32.ofNat_toNat, kept,
    Nat.add_sub_cancel]

theorem hands_ahead (front back : List Float32) :
    Hands (ahead rate count (front ++ back) left rest) front (ahead rate count back left rest) := by
  induction front with
  | nil => exact .nil
  | cons value front ih => exact .cons (nextFloat_ahead value (front ++ back)) ih

theorem nextFloat_cut : Decoder.nextFloat (ahead rate count [] (left + 1) []) =
    (some (.error (.transfer .exhausted)), ahead rate count [] left []) := by
  simp [Decoder.nextFloat, ahead, next, bytesOf, floatForm, Stored.pairs, Layout.pairs]

end WaveReader

instance : Lossless WaveWriter WaveReader where
  kept {rate encoder values} created whole fits := by
    obtain ⟨rfl, bytes⟩ := WaveWriter.create_ok created
    have opens := WaveReader.ofFile_ahead values 0 [] bytes (by omega) whole
    have hands : Hands (.ahead rate values.length (values ++ []) 0 []) values
        (WaveReader.ahead rate values.length [] 0 []) :=
      WaveReader.hands_ahead values []
    rw [List.append_nil] at opens hands
    refine ⟨_, _, _, WaveWriter.putEach_pairs #[] values, WaveWriter.finish_pairs values, opens, rfl,
      ?_, _, hands, rfl⟩
    exact Nat.mul_div_cancel' (Nat.dvd_of_mod_eq_zero whole)

end Wideband.Recording
