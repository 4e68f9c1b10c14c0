import Mathlib
import Wideband.Spectrum.Grid

namespace Wideband

/-!
Frequencies without rounding, over any ordered field in which numbers have integer parts, such as
the rational or the real numbers. A grid gives a frequency the signed index on which it settles
(`Grid.indexOf_settles`); the higher of two frequencies never settles on the lower index
(`Settles.mono`).
-/

variable {F : Type} [Field F] [LinearOrder F] [FloorRing F]

namespace Frequency

@[reducible] def ordered (F : Type) [Field F] [LinearOrder F] [FloorRing F] : Frequency F where
  ofInt number := number
  below a b := decide (a < b)
  atMost a b := decide (a ≤ b)
  abs a := |a|
  round a := if 0 ≤ a then ⌊a + (1 : ℤ) / (2 : ℤ)⌋ else ⌈a - (1 : ℤ) / (2 : ℤ)⌉
  truncate a := if 0 ≤ a then ⌊a⌋ else ⌈a⌉

end Frequency

/-- The signed index of a frequency that lies `bins` bins from 0 Hz: the integer that it misses by
less than the tolerance, and without one the next integer toward 0 Hz. -/
structure Settles (bins : F) (index : ℤ) : Prop where
  near : ∀ number : ℤ, |bins - number| < 1 / 1000000000 → index = number
  above : (∀ number : ℤ, 1 / 1000000000 ≤ |bins - number|) → 0 ≤ bins → index = ⌊bins⌋
  below : (∀ number : ℤ, 1 / 1000000000 ≤ |bins - number|) → bins < 0 → index = ⌈bins⌉

namespace Settles

variable [IsStrictOrderedRing F] {bins other : F} {index next : ℤ}

theorem eq_of_cast (settled : Settles (index : F) next) : next = index :=
  settled.near index (by rw [sub_self, abs_zero]; norm_num)

theorem neg (settled : Settles bins index) : Settles (-bins) (-index) := by
  have mirrored (number : ℤ) : |-bins - number| = |bins - (-number : ℤ)| := by
    rw [← abs_neg]
    push_cast
    ring_nf
  have apart (far : ∀ number : ℤ, 1 / 1000000000 ≤ |-bins - number|) (number : ℤ) :
      1 / 1000000000 ≤ |bins - number| := by
    simpa only [mirrored, neg_neg] using far (-number)
  constructor
  case near =>
    intro number close
    rw [settled.near (-number) (mirrored number ▸ close), neg_neg]
  case above =>
    intro far side
    have nonzero : bins ≠ 0 := by
      rintro rfl
      have missed := far 0
      norm_num at missed
    rw [settled.below (apart far) (lt_of_le_of_ne (neg_nonneg.mp side) nonzero), Int.floor_neg]
  case below =>
    intro far side
    rw [settled.above (apart far) (neg_lt_zero.mp side).le, Int.ceil_neg]

theorem of_nonneg (settled : Settles bins index) (side : 0 ≤ bins) :
    0 ≤ index ∧ index - 1 / 1000000000 < bins ∧ bins + 1 / 1000000000 ≤ index + 1 := by
  by_cases close : ∃ number : ℤ, |bins - number| < 1 / 1000000000
  · obtain ⟨number, close⟩ := close
    rw [settled.near number close]
    obtain ⟨left, right⟩ := abs_lt.mp close
    have positive : -1 < number := by
      have cast : ((-1 : ℤ) : F) < number := by push_cast; linarith
      exact_mod_cast cast
    exact ⟨by omega, by linarith, by linarith⟩
  · push Not at close
    rw [settled.above close side]
    have left := Int.floor_le bins
    have right := Int.lt_floor_add_one bins
    have gap := close (⌊bins⌋ + 1)
    push_cast at gap
    rw [abs_of_neg (by linarith)] at gap
    exact ⟨Int.floor_nonneg.mpr side, by linarith, by linarith⟩

theorem of_nonpos (settled : Settles bins index) (side : bins ≤ 0) :
    index ≤ 0 ∧ bins < index + 1 / 1000000000 ∧ index - 1 + 1 / 1000000000 ≤ bins := by
  obtain ⟨sign, left, right⟩ := settled.neg.of_nonneg (neg_nonneg.mpr side)
  push_cast at left right
  exact ⟨by omega, by linarith, by linarith⟩

theorem mono (settled : Settles bins index) (also : Settles other next) (ordered : bins ≤ other) :
    index ≤ next := by
  rcases le_total 0 bins with side | side
  · obtain ⟨_, low, _⟩ := settled.of_nonneg side
    obtain ⟨_, _, high⟩ := also.of_nonneg (side.trans ordered)
    have cast : (index : F) < (next + 1 : ℤ) := by push_cast; linarith
    have := Int.cast_lt.mp cast
    omega
  · obtain ⟨sign, _, low⟩ := settled.of_nonpos side
    rcases le_total 0 other with across | same
    · exact sign.trans (also.of_nonneg across).1
    · obtain ⟨_, high, _⟩ := also.of_nonpos same
      have cast : ((index - 1 : ℤ) : F) < next := by push_cast; linarith
      have := Int.cast_lt.mp cast
      omega

variable {size : ℕ}

/-- The tolerance does not carry a frequency of the band past the bins at its edges. -/
theorem within (settled : Settles bins index) (above : -(size / 2) < bins)
    (atMost : bins ≤ size / 2) : -(size : ℤ) ≤ 2 * index ∧ 2 * index ≤ size := by
  rcases le_total 0 bins with side | side
  · obtain ⟨sign, low, _⟩ := settled.of_nonneg side
    have cast : ((2 * index : ℤ) : F) < (size + 1 : ℤ) := by push_cast; linarith
    have := Int.cast_lt.mp cast
    omega
  · obtain ⟨sign, low, _⟩ := settled.of_nonpos side
    have cast : ((-size - 1 : ℤ) : F) < (2 * index : ℤ) := by push_cast; linarith
    have := Int.cast_lt.mp cast
    omega

theorem upper_iff (settled : Settles bins index) (room : 0 < size) (atMost : bins ≤ size / 2) :
    2 * index = size ↔ Even size ∧ size / 2 - 1 / 1000000000 < bins := by
  constructor
  · intro edge
    have cast : (2 : F) * index = size := by exact_mod_cast edge
    have side : 0 ≤ bins := by
      by_contra negative
      have := (settled.of_nonpos (not_le.mp negative).le).1
      omega
    obtain ⟨sign, low, _⟩ := settled.of_nonneg side
    exact ⟨⟨index.toNat, by omega⟩, by linarith⟩
  · rintro ⟨⟨half, rfl⟩, close⟩
    push_cast at close atMost
    have missed : |bins - (half : ℤ)| < 1 / 1000000000 := by
      rw [abs_lt]
      push_cast
      constructor <;> linarith
    rw [settled.near half missed]
    push_cast
    ring

theorem lower_iff (settled : Settles bins index) (room : 0 < size) (above : -(size / 2) < bins) :
    2 * index = -size ↔ Even size ∧ bins < -(size / 2) + 1 / 1000000000 := by
  have mirrored := settled.neg.upper_iff room (by linarith)
  rw [show 2 * index = -size ↔ 2 * -index = size by omega, mirrored]
  refine and_congr_right fun _ => ⟨fun close => by linarith, fun close => by linarith⟩

end Settles

attribute [local instance] Frequency.ordered

-- What a frequency computes is what the field computes, so its own operations come last here.
attribute [local instance (low)]
  Frequency.toAdd Frequency.toSub Frequency.toMul Frequency.toDiv Frequency.toNeg

namespace Frequency

theorem below_ordered (a b : F) : below a b = true ↔ a < b :=
  decide_eq_true_iff

theorem atMost_ordered (a b : F) : atMost a b = true ↔ a ≤ b :=
  decide_eq_true_iff

end Frequency

namespace Grid

variable {grid : Grid} {frequency : F}

theorem bandwidth_ordered (grid : Grid) : (grid.bandwidth : F) = grid.rate / grid.size := by
  change ((grid.rate : ℤ) : F) / ((grid.size : ℤ) : F) = _
  rw [Int.cast_natCast, Int.cast_natCast]

theorem nyquist_ordered (grid : Grid) : (grid.nyquist : F) = grid.rate / 2 := by
  change ((grid.rate : ℤ) : F) / ((2 : ℤ) : F) = _
  rw [Int.cast_natCast, Int.cast_ofNat]

theorem check_ok_iff :
    grid.check frequency = .ok () ↔
      0 < grid.size ∧ -(grid.rate / 2 : F) < frequency ∧ frequency ≤ grid.rate / 2 := by
  unfold check
  rw [nyquist_ordered]
  dsimp only
  split
  · rename_i outside
    simp only [Bool.or_eq_true, Frequency.below_ordered, Frequency.atMost_ordered,
      beq_iff_eq] at outside
    refine iff_of_false (by simp) fun ⟨room, above, atMost⟩ => ?_
    rcases outside with (high | low) | empty
    · exact absurd atMost (not_le.mpr high)
    · exact absurd above (not_lt.mpr low)
    · exact absurd empty room.ne'
  · rename_i inside
    simp only [Bool.or_eq_true, Frequency.below_ordered, Frequency.atMost_ordered, beq_iff_eq,
      not_or, not_lt, not_le] at inside
    obtain ⟨⟨atMost, above⟩, room⟩ := inside
    exact iff_of_true rfl ⟨Nat.pos_of_ne_zero room, above, atMost⟩

end Grid

variable [IsStrictOrderedRing F]

namespace Frequency

theorem exists_round (a : F) :
    ∃ nearest : ℤ, Frequency.round a = nearest ∧ |a - nearest| ≤ 1 / 2 := by
  by_cases side : 0 ≤ a
  · refine ⟨⌊a + (1 : ℤ) / (2 : ℤ)⌋, if_pos side, abs_le.mpr ?_⟩
    have low := Int.floor_le (a + (1 : ℤ) / (2 : ℤ))
    have high := Int.lt_floor_add_one (a + (1 : ℤ) / (2 : ℤ))
    push_cast at low high ⊢
    constructor <;> linarith
  · refine ⟨⌈a - (1 : ℤ) / (2 : ℤ)⌉, if_neg side, abs_le.mpr ?_⟩
    have low := Int.le_ceil (a - (1 : ℤ) / (2 : ℤ))
    have high := Int.ceil_lt_add_one (a - (1 : ℤ) / (2 : ℤ))
    push_cast at low high ⊢
    constructor <;> linarith

@[simp] theorem truncate_cast (number : ℤ) : truncate (number : F) = number := by
  change (if 0 ≤ (number : F) then ⌊(number : F)⌋ else ⌈(number : F)⌉) = number
  rw [Int.floor_intCast, Int.ceil_intCast, ite_self]

end Frequency

namespace Grid

variable {grid : Grid} {frequency : F}

theorem indexOf_settles (grid : Grid) (frequency : F) :
    Settles (frequency / (grid.rate / grid.size)) (grid.indexOf frequency) := by
  unfold indexOf
  rw [bandwidth_ordered]
  generalize frequency / (grid.rate / grid.size) = bins
  obtain ⟨nearest, rounded, close⟩ := Frequency.exists_round bins
  -- No other integer comes as close as the nearest one.
  have sole (number : ℤ) (hit : |bins - number| < 1 / 1000000000) : nearest = number := by
    have distance := abs_sub_le (nearest : F) bins number
    rw [abs_sub_comm (nearest : F) bins] at distance
    have cast : ((|nearest - number| : ℤ) : F) < (1 : ℤ) := by push_cast; linarith
    have := Int.cast_lt.mp cast
    exact sub_eq_zero.mp (Int.abs_lt_one_iff.mp this)
  have tolerance : (snap : F) = 1 / 1000000000 := by
    change ((1 : ℤ) : F) / ((1000000000 : ℤ) : F) = _
    push_cast
    rfl
  dsimp only
  rw [rounded, tolerance]
  split
  · rename_i hit
    rw [Frequency.below_ordered] at hit
    rw [Frequency.truncate_cast]
    exact ⟨sole, fun far => absurd hit (not_lt.mpr (far nearest)),
      fun far => absurd hit (not_lt.mpr (far nearest))⟩
  · rename_i missed
    rw [Frequency.below_ordered] at missed
    exact ⟨fun number hit => absurd (sole number hit ▸ hit) missed, fun _ side => if_pos side,
      fun _ side => if_neg (not_le.mpr side)⟩

end Grid

end Wideband
