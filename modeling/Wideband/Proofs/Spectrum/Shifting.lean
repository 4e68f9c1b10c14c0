import Wideband.Proofs.Spectrum.Ordered
import Wideband.Proofs.Spectrum.Rotation
import Wideband.Sample.Complex32

namespace Wideband.Spectrum

variable {C R F : Type} {bins : Array C}

theorem rotateLeft_rotateLeft {count rest : ℕ} (whole : count + rest = bins.size) :
    rotateLeft (rotateLeft bins count) rest = bins := by
  refine Array.ext_getElem? fun index => ?_
  by_cases inside : index < bins.size
  · have target : (index + rest) % bins.size < bins.size := Nat.mod_lt _ (by omega)
    have around : ((index + rest) % bins.size + count) % bins.size = index := by
      rw [Nat.mod_add_mod, add_assoc, add_comm rest, whole, Nat.add_mod_right,
        Nat.mod_eq_of_lt inside]
    rw [getElem?_rotateLeft (by rw [size_rotateLeft]; omega) (by rwa [size_rotateLeft]),
      size_rotateLeft, getElem?_rotateLeft (by omega) target, around]
  · rw [Array.getElem?_eq_none (by rw [size_rotateLeft, size_rotateLeft]; omega),
      Array.getElem?_eq_none (by omega)]

theorem rotateLeft_rotateRight {count : ℕ} (fits : count ≤ bins.size) :
    rotateLeft (rotateRight bins count) count = bins :=
  rotateLeft_rotateLeft (Nat.sub_add_cancel fits)

theorem rotateRight_rotateLeft {count : ℕ} (fits : count ≤ bins.size) :
    rotateRight (rotateLeft bins count) count = bins := by
  rw [rotateRight, size_rotateLeft]
  exact rotateLeft_rotateLeft (Nat.add_sub_cancel' fits)

@[simp] theorem size_shift (spectrum : Spectrum C) :
    spectrum.shift.bins.size = spectrum.bins.size := by
  obtain ⟨bins, rate, order⟩ := spectrum
  cases order <;> simp [shift]

theorem shift_shift (spectrum : Spectrum C) : spectrum.shift.shift = spectrum := by
  obtain ⟨bins, rate, order⟩ := spectrum
  have half : bins.size / 2 ≤ bins.size := Nat.div_le_self _ _
  cases order
  · simp [shift, Order.flipped, rotateLeft_rotateRight half]
  · simp [shift, Order.flipped, rotateRight_rotateLeft half]

theorem grid_shift (spectrum : Spectrum C) :
    spectrum.shift.grid = { spectrum.grid with order := spectrum.order.flipped } := by
  rw [grid, size_shift]
  rfl

theorem shift_place (spectrum : Spectrum C) (room : 0 < spectrum.bins.size) (index : ℤ) :
    spectrum.shift.bins[spectrum.shift.grid.place index]? =
      spectrum.bins[spectrum.grid.place index]? := by
  have same : spectrum.shift.grid.size = spectrum.bins.size := size_shift spectrum
  have inside := Grid.place_lt (same ▸ room) index
  rw [same] at inside
  obtain ⟨bins, rate, order⟩ := spectrum
  rw [grid_shift] at inside ⊢
  have half : bins.size / 2 ≤ bins.size := Nat.div_le_self _ _
  have nonzero : (bins.size : ℤ) ≠ 0 := by exact_mod_cast room.ne'
  -- Each rotation undoes the offset by which the two orders place an index apart.
  cases order
  case zeroFirst =>
    have source : ((((index + (bins.size / 2 : ℕ)) % bins.size).toNat : ℤ) - (bins.size / 2 : ℕ)) %
        bins.size = (index + (0 : ℕ)) % bins.size := by
      rw [Int.toNat_of_nonneg (Int.emod_nonneg _ nonzero), Int.emod_sub_emod,
        add_sub_cancel_right, Nat.cast_zero, add_zero]
    exact (getElem?_rotateRight half inside).trans (congrArg (bins[·.toNat]?) source)
  case negativeFirst =>
    have source : (((index + (0 : ℕ)) % bins.size).toNat + bins.size / 2) % bins.size =
        ((index + (bins.size / 2 : ℕ)) % bins.size).toNat := by
      zify
      rw [Int.toNat_of_nonneg (Int.emod_nonneg _ nonzero),
        Int.toNat_of_nonneg (Int.emod_nonneg _ nonzero), add_zero, Int.emod_add_emod]
    exact (getElem?_rotateLeft half inside).trans (congrArg (bins[·]?) source)

theorem binOf_shift [Frequency F] {spectrum : Spectrum C} {frequency : F}
    (accepted : spectrum.grid.check frequency = .ok ()) :
    spectrum.shift.grid.binOf frequency =
      .ok (spectrum.shift.grid.place (spectrum.grid.indexOf frequency)) := by
  refine Grid.binOf_ok_iff.mpr ?_
  rw [grid_shift]
  exact ⟨accepted, rfl⟩

/-- Shifting twice changes nothing. The sample at the bin of a frequency is afterwards at the bin
that the other order has for the frequency, multiplied by the factor if there is one. -/
theorem shift_keeps_content [Sample C R] [Frequency F] (spectrum : Spectrum C) :
    spectrum.shift.shift = spectrum ∧
    spectrum.shift.grid = { spectrum.grid with order := spectrum.order.flipped } ∧
    ∀ (frequency : F) (bin : ℕ), spectrum.grid.binOf frequency = .ok bin →
      ∃ (sample : C) (moved : ℕ), spectrum.bins[bin]? = some sample ∧
        spectrum.shift.grid.binOf frequency = .ok moved ∧
        spectrum.shift.bins[moved]? = some sample ∧
        ∀ factor : R, (spectrum.shiftScaled factor).grid = spectrum.shift.grid ∧
          (spectrum.shiftScaled factor).bins[moved]? = some (Sample.scale sample factor) := by
  refine ⟨shift_shift spectrum, grid_shift spectrum, fun frequency bin held => ?_⟩
  obtain ⟨accepted, rfl⟩ := Grid.binOf_ok_iff.mp held
  have room : 0 < spectrum.bins.size := Grid.size_pos_of_check accepted
  have inside : spectrum.grid.place (spectrum.grid.indexOf frequency) < spectrum.bins.size :=
    Grid.place_lt room _
  have sample := Array.getElem?_eq_getElem inside
  have moved := (shift_place spectrum room (spectrum.grid.indexOf frequency)).trans sample
  refine ⟨_, _, sample, binOf_shift accepted, moved, fun factor => ⟨?_, ?_⟩⟩
  · simp only [grid, shiftScaled, Array.size_map]
  · rw [shiftScaled, Array.getElem?_map, moved]
    rfl

attribute [local instance] Frequency.ordered

theorem shift_keeps_content_odd : ∃ (spectrum : Spectrum Complex32) (moved : ℕ),
    spectrum.bins = #[⟨1, 0⟩, ⟨2, 0⟩, ⟨3, 0⟩] ∧
    spectrum.grid.binOf (-1 : ℚ) = .ok 2 ∧ spectrum.shift.grid.binOf (-1 : ℚ) = .ok moved ∧
    spectrum.shift.bins[moved]? = some ⟨3, 0⟩ := by
  let spectrum : Spectrum Complex32 := ⟨#[⟨1, 0⟩, ⟨2, 0⟩, ⟨3, 0⟩], 3, .zeroFirst⟩
  have index : spectrum.grid.indexOf (-1 : ℚ) = -1 :=
    (Grid.indexOf_settles _ _).near (-1) (by norm_num [spectrum, grid])
  have held : spectrum.grid.binOf (-1 : ℚ) = .ok 2 := by
    have accepted : spectrum.grid.check (-1 : ℚ) = .ok () :=
      Grid.check_ok_iff.mpr ⟨by decide, by norm_num [spectrum, grid]⟩
    refine Grid.binOf_ok_iff.mpr ⟨accepted, ?_⟩
    rw [index]
    rfl
  obtain ⟨_, _, keeps⟩ := shift_keeps_content (F := ℚ) spectrum
  obtain ⟨sample, moved, stored, found, kept, _⟩ := keeps (-1) 2 held
  have third : some ⟨3, 0⟩ = some sample := stored
  exact ⟨spectrum, moved, rfl, held, found, third ▸ kept⟩

end Wideband.Spectrum
