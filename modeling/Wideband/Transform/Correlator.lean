import Wideband.Outcome
import Wideband.Transform.Convolver

namespace Wideband

/-- The strongest sample so far: its index and its power. A sample without power is no peak, and
a later sample has to be stronger to take over. -/
def strongest {C R : Type} [Component R] [Sample C R] (best : Option (Nat × R))
    (index : Nat) (sample : C) : Option (Nat × R) :=
  let power : R := Sample.power sample
  if Component.same power 0 then best
  else match best with
    | none => some (index, power)
    | some (_, highest) => if Component.atLeast highest power then best else some (index, power)

/-- Index of the sample of greatest power, the first of several; nothing when no sample has any
power. -/
def peak {C R : Type} [Component R] [Sample C R] (samples : Array C) : Option Nat :=
  let best : Option (Nat × R) :=
    samples.toList.zipIdx.foldl (fun best (sample, index) => strongest best index sample) none
  best.map Prod.fst

/-- A circular index as a signed offset: indices past the middle count back from the end. -/
def signedOffset (index length : Nat) : Int :=
  if length / 2 < index then (index : Int) - length else index

/-- The same for an index and a length that are kept in words of 64 bits, with a signed word as
the answer. Words count as negative from the middle of their range on, and a difference that does
not fit into a word is a fault. -/
def wordOffset (index length : UInt64) : Outcome Int :=
  let offset := index.toInt64.toInt
  if length / 2 < index then
    let folded := offset - length.toInt64.toInt
    if Int64.minValue.toInt ≤ folded ∧ folded ≤ Int64.maxValue.toInt then .ok folded
    else .error .fault
  else .ok offset

theorem toInt_toInt64_ofNat {count : Nat} (bounded : count < 0x8000000000000000) :
    (UInt64.ofNat count).toInt64.toInt = count := by
  have word : (UInt64.ofNat count).toInt64 = Int64.ofNat count := rfl
  rw [word]
  exact Int64.toInt_ofNat_of_lt bounded

/-- Words give the offset itself wherever indices and lengths are below the middle of their range. -/
theorem wordOffset_ofNat {index length : Nat} (inside : index < length)
    (bounded : length < 0x8000000000000000) :
    wordOffset (.ofNat index) (.ofNat length) = .ok (signedOffset index length) := by
  have indexWord := toInt_toInt64_ofNat (Nat.lt_trans inside bounded)
  have lengthWord := toInt_toInt64_ofNat bounded
  have lowest : Int64.minValue.toInt = -0x8000000000000000 := by decide
  have highest : Int64.maxValue.toInt = 0x7fffffffffffffff := by decide
  have indexFits : index < UInt64.size := by
    change index < 0x10000000000000000
    omega
  have lengthFits : length < UInt64.size := by
    change length < 0x10000000000000000
    omega
  have halves : UInt64.ofNat length / 2 < UInt64.ofNat index ↔ length / 2 < index := by
    rw [UInt64.lt_iff_toNat_lt, UInt64.toNat_div, UInt64.toNat_ofNat_of_lt' indexFits,
      UInt64.toNat_ofNat_of_lt' lengthFits]
    rfl
  simp only [wordOffset, signedOffset, indexWord, lengthWord, halves, lowest, highest]
  split
  · exact if_pos (by omega)
  · rfl

structure Correlator (C π : Type) where
  convolver : Convolver C π
  output : Array C

structure Lag (C π : Type) where
  result : Except Error Int
  correlator : Correlator C π
  reference : Array C
  stream : Array C

namespace Correlator

variable {C R π : Type}

def prepare [Zero C] (planner : Planner C π) (length : Nat) :
    Except Error (Correlator C π) := do
  let template := Buffer.silent .complex length
  let convolver ← Convolver.prepare planner .correlation template template template
  return ⟨convolver, Array.replicate length 0⟩

/-- By how many samples `stream` leads `reference`. The index of the stream only labels a failure
to find a peak. -/
def lag [Component R] [Sample C R] (planner : Planner C π) (correlator : Correlator C π)
    (reference stream : Array C) (index : Nat) : Lag C π :=
  let ran := correlator.convolver.run planner correlator.output reference stream
  let correlator := ⟨ran.convolver, ran.destination⟩
  let result := match ran.result with
    | .error cause => .error cause
    | .ok () =>
        match peak correlator.output with
        | none => .error (.noPeak index)
        | some found => .ok (signedOffset found correlator.output.size)
  ⟨result, correlator, ran.a, ran.b⟩

def close (planner : Planner C π) (correlator : Correlator C π) :
    Except Error Unit × Correlator C π :=
  let (result, convolver) := correlator.convolver.close planner
  (result, { correlator with convolver })

end Correlator

end Wideband
