import Wideband.Error
import Wideband.Frequency

namespace Wideband

/-!
Bins and frequencies. A grid of `size` bins at a sample rate covers the frequencies above minus
the Nyquist frequency up to and including the Nyquist frequency. A bin is named by its signed
index, counted from 0 Hz, and stored at a place that depends on the order of the grid.

A frequency between two bins belongs to the one nearer to 0 Hz, and one within the snap tolerance
of a bin belongs to that bin. For an even size the bin at the edge counts as plus the Nyquist
frequency in both orders.
-/

inductive Order where
  | zeroFirst
  /-- From the most negative frequency up; 0 Hz lies in the middle. -/
  | negativeFirst
deriving DecidableEq

def Order.flipped : Order → Order
  | .zeroFirst => .negativeFirst
  | .negativeFirst => .zeroFirst

@[simp] theorem Order.flipped_flipped (order : Order) : order.flipped.flipped = order := by
  cases order <;> rfl

structure Band (F : Type) where
  low : F
  high : F

namespace Band

variable {F : Type} [Frequency F]

def center (band : Band F) : F :=
  (band.low + band.high) / Frequency.ofInt 2

def width (band : Band F) : F :=
  band.high - band.low

end Band

structure Grid where
  size : Nat
  rate : Nat
  order : Order
deriving DecidableEq

namespace Grid

def origin (grid : Grid) : Nat :=
  match grid.order with
  | .zeroFirst => 0
  | .negativeFirst => grid.size / 2

/-- Where the bin with a signed index is stored. -/
def place (grid : Grid) (index : Int) : Nat :=
  ((index + grid.origin) % grid.size).toNat

theorem place_lt {grid : Grid} (room : 0 < grid.size) (index : Int) :
    grid.place index < grid.size := by
  have below := Int.emod_lt_of_pos (index + grid.origin) (Int.natCast_pos.mpr room)
  have above := Int.emod_nonneg (index + grid.origin) (by omega : (grid.size : Int) ≠ 0)
  unfold place
  omega

/-- Signed index of the bin stored at a place, folded into the upper half-open half of the
grid: above `-size / 2`, at most `size / 2`. -/
def signedIndex (grid : Grid) (bin : Nat) : Int :=
  let index : Int := bin - grid.origin
  if 2 * index > grid.size then index - grid.size
  else if 2 * index ≤ -grid.size then index + grid.size
  else index

variable {F : Type} [Frequency F]

def bandwidth (grid : Grid) : F :=
  Frequency.ofInt grid.rate / Frequency.ofInt grid.size

def nyquist (grid : Grid) : F :=
  Frequency.ofInt grid.rate / Frequency.ofInt 2

/-- Part of a bin by which a frequency may miss it and still belong to it. -/
def snap : F :=
  Frequency.ofInt 1 / Frequency.ofInt 1000000000

def check (grid : Grid) (frequency : F) : Except (BinFault F) Unit :=
  let nyquist : F := grid.nyquist
  if Frequency.below nyquist frequency || Frequency.atMost frequency (-nyquist)
      || grid.size == 0 then
    .error (.outOfBand frequency nyquist)
  else .ok ()

theorem size_pos_of_check {grid : Grid} {frequency : F} (accepted : grid.check frequency = .ok ()) :
    0 < grid.size := by
  unfold check at accepted
  simp only [Bool.or_eq_true, beq_iff_eq] at accepted
  split at accepted
  · contradiction
  · omega

def indexOf (grid : Grid) (frequency : F) : Int :=
  let bins := frequency / grid.bandwidth
  let nearest := Frequency.round bins
  if Frequency.below (Frequency.abs (bins - nearest)) snap then Frequency.truncate nearest
  else Frequency.truncate bins

def binOf (grid : Grid) (frequency : F) : Except (BinFault F) Nat :=
  match grid.check frequency with
  | .error fault => .error fault
  | .ok () => .ok (grid.place (grid.indexOf frequency))

theorem binOf_ok_iff {grid : Grid} {frequency : F} {bin : Nat} :
    grid.binOf frequency = .ok bin ↔
      grid.check frequency = .ok () ∧ grid.place (grid.indexOf frequency) = bin := by
  unfold binOf
  cases grid.check frequency <;> simp

def frequencyOf (grid : Grid) (bin : Nat) : Except (BinFault F) F :=
  if bin < grid.size then .ok (Frequency.ofInt (grid.signedIndex bin) * grid.bandwidth)
  else .error (.noSuchBin bin grid.size)

def indices (low high : Int) : List Int :=
  (List.range (high + 1 - low).toNat).map fun (offset : Nat) => low + (offset : Int)

/-- The bins that cover a band, in ascending frequency order. -/
def binsOf (grid : Grid) (band : Band F) : Except (BinFault F) (List Nat) :=
  if Frequency.below band.high band.low then .error (.reversedRange band.low band.high)
  else
    match grid.check band.low with
    | .error fault => .error fault
    | .ok () =>
        match grid.check band.high with
        | .error fault => .error fault
        | .ok () => .ok ((indices (grid.indexOf band.low) (grid.indexOf band.high)).map grid.place)

end Grid

end Wideband
