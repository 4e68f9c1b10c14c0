import Wideband.Outcome

namespace Wideband.Recording

/-!
Files are written and read value by value by a library of their own, which is a parameter here:
recorders and players work with every `Encoder` and every `Decoder`. `Recording/Wave.lean` is one
library, whose files are bytes.
-/

structure Layout where
  floating : Bool
  channels : Nat
  rate : Nat
  bits : Nat
deriving DecidableEq

def Layout.pairs (rate : Nat) : Layout := ⟨true, 2, rate, 32⟩

/-- Writers of files `φ` with floating point values `R`, the channels in turn. -/
class Encoder (ε : Type) (φ R : outParam Type) where
  create : Layout → Outcome ε
  put : ε → R → Except Error Unit × ε
  finish : ε → Except Error Unit × φ

/-- Readers of files `φ`. A value is asked for in the form in which the layout says it is stored;
behind the last one there are none. -/
class Decoder (δ : Type) (φ R : outParam Type) where
  ofFile : φ → Except Error δ
  layout : δ → Layout
  /-- Number of values of one channel in the whole file. -/
  duration : δ → Nat
  nextFloat : δ → Option (Except Error R) × δ
  nextInt : δ → Option (Except Error Int) × δ

def Encoder.putEach {ε φ R : Type} [Encoder ε φ R] (encoder : ε) :
    List R → Except Error Unit × ε
  | [] => (.ok (), encoder)
  | value :: values =>
      match put encoder value with
      | (.error cause, encoder) => (.error cause, encoder)
      | (.ok (), encoder) => putEach encoder values

end Wideband.Recording
