import Wideband.Proofs.Spectrum.Mapping

namespace Wideband.Grid

variable {low high index : ℤ}

theorem mem_indices : index ∈ indices low high ↔ low ≤ index ∧ index ≤ high := by
  change index ∈ Int.range low (high + 1) ↔ _
  rw [Int.mem_range_iff, Int.lt_add_one_iff]

theorem length_indices (low high : ℤ) : (indices low high).length = (high + 1 - low).toNat := by
  simp [indices]

theorem indices_ascending (low high : ℤ) : (indices low high).Pairwise (· < ·) :=
  List.pairwise_map.mpr (List.pairwise_lt_range.imp fun below => by omega)

theorem indices_chain (low high : ℤ) :
    (indices low high).IsChain fun index next => next = index + 1 := by
  unfold indices
  generalize (high + 1 - low).toNat = count
  rw [List.isChain_map, List.isChain_range]
  intro offset _
  push_cast
  ring

theorem indices_append (middle : ℤ) (left : low ≤ middle + 1) (right : middle ≤ high) :
    indices low high = indices low middle ++ indices (middle + 1) high := by
  have total : (high + 1 - low).toNat = (middle + 1 - low).toNat + (high - middle).toNat := by omega
  have rest : (high + 1 - (middle + 1)).toNat = (high - middle).toNat := by omega
  unfold indices
  rw [total, rest, List.range_add, List.map_append, List.map_map]
  congr 1
  refine List.map_congr_left fun offset _ => ?_
  simp only [Function.comp_apply]
  omega

theorem indices_single (index : ℤ) : indices index index = [index] := by
  simp [indices]

theorem indices_cons (ordered : low ≤ high) : indices low high = low :: indices (low + 1) high := by
  rw [indices_append low (by omega) ordered, indices_single]
  rfl

theorem getLast?_indices (ordered : low ≤ high) : (indices low high).getLast? = some high := by
  rw [indices_append (high - 1) (by omega) (by omega), sub_add_cancel, indices_single,
    List.getLast?_concat]

variable {grid : Grid}

theorem place_succ (room : 0 < grid.size) (index : ℤ) :
    grid.place (index + 1) = (grid.place index + 1) % grid.size := by
  have above := Int.emod_nonneg (index + grid.origin) (by omega : (grid.size : ℤ) ≠ 0)
  have moved : (index + 1 + grid.origin) % grid.size =
      ((index + grid.origin) % grid.size + 1) % grid.size := by
    rw [Int.emod_add_emod, add_right_comm]
  rw [place, place, moved]
  zify
  rw [Int.toNat_of_nonneg above, Int.toNat_of_nonneg (Int.emod_nonneg _ (by omega))]

theorem places_around (first : grid.order = .zeroFirst) {tail head : ℕ} (behind : tail ≤ grid.size)
    (ahead : head < grid.size) :
    (indices (-tail) head).map grid.place =
      List.range' (grid.size - tail) tail ++ List.range (head + 1) := by
  have start : grid.origin = 0 := by rw [origin, first]
  rw [indices_append (-1) (by omega) (by omega), List.map_append]
  congr 1
  · rw [List.range'_eq_map_range, indices, List.map_map]
    have count : (-1 + 1 - -(tail : ℤ)).toNat = tail := by omega
    rw [count]
    refine List.map_congr_left fun offset member => ?_
    have inside := List.mem_range.mp member
    have turned : (-(tail : ℤ) + offset) % grid.size = (grid.size - tail + offset : ℤ) := by
      rw [← Int.add_emod_right, Int.emod_eq_of_lt (by omega) (by omega)]
      ring
    rw [Function.comp_apply, place, start, Nat.cast_zero, add_zero, turned]
    omega
  · rw [indices, List.map_map]
    have count : ((head : ℤ) + 1 - (-1 + 1)).toNat = head + 1 := by omega
    rw [count]
    refine (List.map_congr_left fun offset member => ?_).trans (List.map_id _)
    have inside := List.mem_range.mp member
    rw [Function.comp_apply, place, start, Nat.cast_zero, add_zero, id_eq,
      Int.emod_eq_of_lt (by omega) (by omega)]
    omega

variable {F : Type} [Field F] [LinearOrder F] [FloorRing F]

attribute [local instance] Frequency.ordered

attribute [local instance (low)]
  Frequency.toAdd Frequency.toSub Frequency.toMul Frequency.toDiv Frequency.toNeg

/-- The bins of a band, one after the other around the grid. -/
structure Covers (grid : Grid) (band : Band F) (bins : List ℕ) : Prop where
  holds : ∀ frequency, band.low ≤ frequency → frequency ≤ band.high →
    ∃ bin ∈ bins, grid.binOf frequency = .ok bin
  reached : ∀ bin ∈ bins, ∃ frequency, band.low ≤ frequency ∧ frequency ≤ band.high ∧
    grid.binOf frequency = .ok bin
  first : ∃ bin, bins.head? = some bin ∧ grid.binOf band.low = .ok bin
  last : ∃ bin, bins.getLast? = some bin ∧ grid.binOf band.high = .ok bin
  steps : bins.IsChain fun bin next => next = (bin + 1) % grid.size
  around : grid.order = .zeroFirst → band.low ≤ 0 → 0 ≤ band.high →
    ∃ tail head, 2 * tail ≤ grid.size ∧ 2 * head ≤ grid.size ∧
      bins = List.range' (grid.size - tail) tail ++ List.range (head + 1)

variable {band : Band F} {bins : List ℕ} {frequency : F}

theorem binsOf_ok_iff :
    grid.binsOf band = .ok bins ↔ band.low ≤ band.high ∧ grid.check band.low = .ok () ∧
      grid.check band.high = .ok () ∧
      (indices (grid.indexOf band.low) (grid.indexOf band.high)).map grid.place = bins := by
  unfold binsOf
  split
  · rename_i reversed
    rw [Frequency.below_ordered] at reversed
    simp [reversed]
  · rename_i ordered
    rw [Frequency.below_ordered, not_lt] at ordered
    cases grid.check band.low <;> cases grid.check band.high <;> simp [ordered]

theorem check_between (low : grid.check band.low = .ok ()) (high : grid.check band.high = .ok ())
    (left : band.low ≤ frequency) (right : frequency ≤ band.high) :
    grid.check frequency = .ok () := by
  obtain ⟨room, above, _⟩ := check_ok_iff.mp low
  obtain ⟨_, _, atMost⟩ := check_ok_iff.mp high
  exact check_ok_iff.mpr ⟨room, above.trans_le left, right.trans atMost⟩

variable [IsStrictOrderedRing F]

theorem indexOf_mono (room : 0 < grid.size) (positive : 0 < grid.rate) {other : F}
    (ordered : frequency ≤ other) : grid.indexOf frequency ≤ grid.indexOf other :=
  (grid.indexOf_settles frequency).mono (grid.indexOf_settles other)
    (div_le_div_of_nonneg_right ordered (bandwidth_pos room positive).le)

theorem binsOf_near (first last : ℤ) (ordered : band.low ≤ band.high)
    (low : grid.check band.low = .ok ()) (high : grid.check band.high = .ok ())
    (left : |band.low / (grid.rate / grid.size) - first| < 1 / 1000000000)
    (right : |band.high / (grid.rate / grid.size) - last| < 1 / 1000000000)
    (placed : (indices first last).map grid.place = bins) : grid.binsOf band = .ok bins := by
  rw [← (grid.indexOf_settles band.low).near first left,
    ← (grid.indexOf_settles band.high).near last right] at placed
  exact binsOf_ok_iff.mpr ⟨ordered, low, high, placed⟩

theorem exists_indexOf (room : 0 < grid.size) (positive : 0 < grid.rate)
    (ordered : band.low ≤ band.high) (left : grid.indexOf band.low ≤ index)
    (right : index ≤ grid.indexOf band.high) :
    ∃ frequency, band.low ≤ frequency ∧ frequency ≤ band.high ∧ grid.indexOf frequency = index := by
  rcases left.eq_or_lt with rfl | above
  · exact ⟨band.low, le_refl _, ordered, rfl⟩
  rcases right.eq_or_lt with rfl | below
  · exact ⟨band.high, ordered, le_refl _, rfl⟩
  have middle : grid.indexOf (index * (grid.rate / grid.size) : F) = index :=
    indexOf_steps room positive index
  refine ⟨_, ?_, ?_, middle⟩
  · by_contra under
    have := indexOf_mono room positive (not_le.mp under).le
    omega
  · by_contra past
    have := indexOf_mono room positive (not_le.mp past).le
    omega

theorem covers (listed : grid.binsOf band = .ok bins) : grid.Covers band bins := by
  obtain ⟨ordered, low, high, rfl⟩ := binsOf_ok_iff.mp listed
  have room := (check_ok_iff.mp low).1
  have positive := rate_pos_of_check low
  have between := indexOf_mono room positive ordered
  obtain ⟨least, _⟩ := indexOf_within low
  obtain ⟨_, most⟩ := indexOf_within high
  constructor
  case holds =>
    intro frequency left right
    have member := mem_indices.mpr
      ⟨indexOf_mono room positive left, indexOf_mono room positive right⟩
    exact ⟨_, List.mem_map_of_mem member,
      binOf_ok_iff.mpr ⟨check_between low high left right, rfl⟩⟩
  case reached =>
    intro bin member
    obtain ⟨index, listed, rfl⟩ := List.mem_map.mp member
    obtain ⟨left, right⟩ := mem_indices.mp listed
    obtain ⟨frequency, above, below, rfl⟩ := exists_indexOf room positive ordered left right
    exact ⟨frequency, above, below,
      binOf_ok_iff.mpr ⟨check_between low high above below, rfl⟩⟩
  case first =>
    exact ⟨_, by rw [indices_cons between]; rfl, binOf_ok_iff.mpr ⟨low, rfl⟩⟩
  case last =>
    exact ⟨_, by rw [List.getLast?_map, getLast?_indices between]; rfl,
      binOf_ok_iff.mpr ⟨high, rfl⟩⟩
  case steps =>
    refine List.isChain_map_of_isChain grid.place (fun index next follows => ?_)
      (indices_chain _ _)
    rw [follows, place_succ room]
  case around =>
    intro start left right
    have width : (0 : F) ≤ grid.rate / grid.size := (bandwidth_pos room positive).le
    have tail := ((grid.indexOf_settles band.low).of_nonpos
      (div_nonpos_of_nonpos_of_nonneg left width)).1
    have head := ((grid.indexOf_settles band.high).of_nonneg (div_nonneg right width)).1
    obtain ⟨behind, lowest⟩ := Int.exists_eq_neg_ofNat tail
    obtain ⟨ahead, highest⟩ := Int.eq_ofNat_of_zero_le head
    rw [lowest] at least ⊢
    rw [highest] at most ⊢
    exact ⟨behind, ahead, by omega, by omega, places_around start (by omega) (by omega)⟩

/-- A band has bins exactly if the grid covers both of its ends, and these are the bins of its
frequencies. -/
theorem binsOf_covers (room : 0 < grid.size) (ordered : band.low ≤ band.high) :
    ((∃ bins, grid.binsOf band = .ok bins) ↔
      (-(grid.rate / 2 : F) < band.low ∧ band.low ≤ grid.rate / 2) ∧
        -(grid.rate / 2 : F) < band.high ∧ band.high ≤ grid.rate / 2) ∧
    ∀ bins, grid.binsOf band = .ok bins → grid.Covers band bins := by
  refine ⟨⟨?_, ?_⟩, fun _ => covers⟩
  · rintro ⟨bins, listed⟩
    obtain ⟨_, low, high, _⟩ := binsOf_ok_iff.mp listed
    exact ⟨(check_ok_iff.mp low).2, (check_ok_iff.mp high).2⟩
  · rintro ⟨low, high⟩
    exact ⟨_, binsOf_ok_iff.mpr
      ⟨ordered, check_ok_iff.mpr ⟨room, low⟩, check_ok_iff.mpr ⟨room, high⟩, rfl⟩⟩

theorem binsOf_covers_around : 0 < 10 ∧ (-2 : ℚ) ≤ 2 ∧
    (Grid.mk 10 10 .zeroFirst).binsOf (⟨-2, 2⟩ : Band ℚ) = .ok [8, 9, 0, 1, 2] ∧
    (Grid.mk 10 10 .zeroFirst).Covers (⟨-2, 2⟩ : Band ℚ) [8, 9, 0, 1, 2] := by
  have room : 0 < (Grid.mk 10 10 .zeroFirst).size := by decide
  have ordered : (⟨-2, 2⟩ : Band ℚ).low ≤ (⟨-2, 2⟩ : Band ℚ).high := by norm_num
  have listed : (Grid.mk 10 10 .zeroFirst).binsOf (⟨-2, 2⟩ : Band ℚ) = .ok [8, 9, 0, 1, 2] :=
    binsOf_near (-2) 2 ordered (check_ok_iff.mpr ⟨room, by norm_num⟩)
      (check_ok_iff.mpr ⟨room, by norm_num⟩) (by norm_num) (by norm_num) (by decide)
  exact ⟨room, ordered, listed, (binsOf_covers room ordered).2 _ listed⟩

end Wideband.Grid
