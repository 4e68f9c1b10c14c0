import Wideband.Proofs.Spectrum.Ranges

namespace Wideband.Grid

variable {grid : Grid} {low high index next : ℤ}

theorem place_add_size (grid : Grid) (index : ℤ) :
    grid.place (index + grid.size) = grid.place index := by
  rw [place, place, add_right_comm, Int.add_emod_right]

theorem eq_of_place (room : 0 < grid.size) (near : |index - next| < grid.size)
    (same : grid.place index = grid.place next) : index = next := by
  obtain ⟨first, placed⟩ := place_turns room index
  obtain ⟨second, also⟩ := place_turns room next
  have split : index = next + (second - first) * grid.size := by
    rw [same] at placed
    linear_combination also - placed
  exact eq_of_turns split near

theorem nodup_places (room : 0 < grid.size) (narrow : high + 1 - low ≤ grid.size) :
    ((indices low high).map grid.place).Nodup := by
  refine List.Nodup.map_on (fun index member next also same => ?_)
    ((indices_ascending low high).imp ne_of_lt)
  obtain ⟨_, _⟩ := mem_indices.mp member
  obtain ⟨_, _⟩ := mem_indices.mp also
  refine eq_of_place room ?_ same
  rw [abs_lt]
  constructor <;> omega

variable {F : Type} [Field F] [LinearOrder F] [FloorRing F]

attribute [local instance] Frequency.ordered

attribute [local instance (low)]
  Frequency.toAdd Frequency.toSub Frequency.toMul Frequency.toDiv Frequency.toNeg

/-- An even grid counts a frequency as minus the Nyquist frequency, whose bin is that of plus the
Nyquist frequency. -/
@[mk_iff lowEdge_iff] structure LowEdge (grid : Grid) (frequency : F) : Prop where
  even : Even grid.size
  below : frequency < -(grid.rate / 2) + grid.rate / grid.size / 1000000000

/-- An even grid counts a frequency as plus the Nyquist frequency. -/
@[mk_iff highEdge_iff] structure HighEdge (grid : Grid) (frequency : F) : Prop where
  even : Even grid.size
  above : grid.rate / 2 - grid.rate / grid.size / 1000000000 < frequency

def Ascends (F : Type) [Field F] [LinearOrder F] [FloorRing F] (grid : Grid) (bins : List ℕ) :
    Prop :=
  ∃ frequencies : List F, bins.map grid.frequencyOf = frequencies.map .ok ∧
    frequencies.Pairwise (· < ·)

variable {band : Band F} {bins : List ℕ} {frequency : F}

theorem Ascends.nodup (ascends : Ascends F grid bins) : bins.Nodup := by
  obtain ⟨frequencies, shown, rising⟩ := ascends
  refine List.Nodup.of_map grid.frequencyOf (β := Except (BinFault F) F) ?_
  rw [shown]
  exact List.Nodup.map (fun _ _ => Except.ok.inj) (rising.imp ne_of_lt)

theorem ascends_single {bin : ℕ} (inside : bin < grid.size) : Ascends F grid [bin] :=
  ⟨[_], by rw [List.map_singleton, List.map_singleton, frequencyOf_inside inside],
    List.pairwise_singleton _ _⟩

theorem frequencyOf_place (room : 0 < grid.size) (above : -(grid.size : ℤ) < 2 * index)
    (atMost : 2 * index ≤ grid.size) :
    grid.frequencyOf (grid.place index) = .ok (index * (grid.rate / grid.size) : F) := by
  rw [frequencyOf_inside (place_lt room index), signedIndex_place room above atMost]

variable [IsStrictOrderedRing F]

theorem indexOf_eq_low_iff (accepted : grid.check frequency = .ok ()) :
    2 * grid.indexOf frequency = -grid.size ↔ grid.LowEdge frequency := by
  obtain ⟨above, _⟩ := bins_of_check accepted
  have room := (check_ok_iff.mp accepted).1
  have width : (0 : F) < grid.rate / grid.size := bandwidth_pos room (rate_pos_of_check accepted)
  have whole : (grid.size : F) * (grid.rate / grid.size) = grid.rate := size_mul_bandwidth room
  rw [(grid.indexOf_settles frequency).lower_iff room above, lowEdge_iff, div_lt_iff₀ width]
  refine and_congr_right fun _ => ?_
  rw [show (-(grid.size / 2) + 1 / 1000000000 : F) * (grid.rate / grid.size) =
    -(grid.rate / 2) + grid.rate / grid.size / 1000000000 by linear_combination -whole / 2]

theorem indexOf_eq_high_iff (accepted : grid.check frequency = .ok ()) :
    2 * grid.indexOf frequency = grid.size ↔ grid.HighEdge frequency := by
  obtain ⟨_, atMost⟩ := bins_of_check accepted
  have room := (check_ok_iff.mp accepted).1
  have width : (0 : F) < grid.rate / grid.size := bandwidth_pos room (rate_pos_of_check accepted)
  have whole : (grid.size : F) * (grid.rate / grid.size) = grid.rate := size_mul_bandwidth room
  rw [(grid.indexOf_settles frequency).upper_iff room atMost, highEdge_iff, lt_div_iff₀ width]
  refine and_congr_right fun _ => ?_
  rw [show (grid.size / 2 - 1 / 1000000000 : F) * (grid.rate / grid.size) =
    grid.rate / 2 - grid.rate / grid.size / 1000000000 by linear_combination whole / 2]

theorem ascends_places (room : 0 < grid.size) (positive : 0 < grid.rate)
    (above : -(grid.size : ℤ) < 2 * low) (atMost : 2 * high ≤ grid.size) :
    Ascends F grid ((indices low high).map grid.place) := by
  refine ⟨(indices low high).map fun index : ℤ => index * (grid.rate / grid.size), ?_, ?_⟩
  · rw [List.map_map, List.map_map]
    refine List.map_congr_left fun index member => ?_
    obtain ⟨_, _⟩ := mem_indices.mp member
    exact frequencyOf_place room (by omega) (by omega)
  · refine List.pairwise_map.mpr ((indices_ascending low high).imp fun below => ?_)
    exact mul_lt_mul_of_pos_right (Int.cast_lt.mpr below) (bandwidth_pos room positive)

/-- The first bin of a band whose low end counts as minus the Nyquist frequency shows the highest
frequency of all. -/
theorem not_ascends_places (room : 0 < grid.size) (positive : 0 < grid.rate)
    (edge : 2 * low = -grid.size) (longer : low < high) :
    ¬ Ascends F grid ((indices low high).map grid.place) := by
  rintro ⟨frequencies, shown, rising⟩
  have turned : grid.place low = grid.place (low + grid.size) := (place_add_size grid low).symm
  have width : (0 : F) < grid.rate / grid.size := bandwidth_pos room positive
  rw [indices_cons longer.le, indices_cons (by omega), List.map_cons, List.map_cons, turned,
    List.map_cons, List.map_cons, frequencyOf_place (F := F) room (by omega) (by omega),
    frequencyOf_place (F := F) room (by omega) (by omega)] at shown
  obtain ⟨top, others, rfl, same, shown⟩ := List.map_eq_cons_iff.mp shown.symm
  obtain ⟨second, _, rfl, also, _⟩ := List.map_eq_cons_iff.mp shown
  cases same
  cases also
  have below := (List.pairwise_cons.mp rising).1 _ List.mem_cons_self
  have order := Int.cast_lt.mp (lt_of_mul_lt_mul_right below width.le)
  omega

/-- The bins of a band repeat, and are more than the grid has, exactly if its ends count as minus
and plus the Nyquist frequency. They ascend in frequency unless only the low end counts as minus the
Nyquist frequency, and behind the first one they always do. -/
theorem binsOf_ascends (listed : grid.binsOf band = .ok bins) :
    (bins.Nodup ∧ bins.length ≤ grid.size ↔
      ¬ (grid.LowEdge band.low ∧ grid.HighEdge band.high)) ∧
    (Ascends F grid bins ↔ (grid.LowEdge band.low → grid.LowEdge band.high)) ∧
    Ascends F grid bins.tail := by
  obtain ⟨ordered, low, high, rfl⟩ := binsOf_ok_iff.mp listed
  have room := (check_ok_iff.mp low).1
  have positive := rate_pos_of_check low
  have between := indexOf_mono room positive ordered
  have least := (indexOf_within low).1
  have most := (indexOf_within high).2
  rw [← indexOf_eq_low_iff low, ← indexOf_eq_low_iff high, ← indexOf_eq_high_iff high]
  generalize grid.indexOf band.low = first at *
  generalize grid.indexOf band.high = last at *
  refine ⟨⟨?_, ?_⟩, ⟨?_, ?_⟩, ?_⟩
  · rintro ⟨_, fits⟩
    rw [List.length_map, length_indices] at fits
    omega
  · intro inside
    refine ⟨nodup_places room (by omega), ?_⟩
    rw [List.length_map, length_indices]
    omega
  · intro ascends edge
    by_contra beyond
    exact not_ascends_places room positive edge (by omega) ascends
  · intro inside
    by_cases edge : 2 * first = -grid.size
    · have same : first = last := by have := inside edge; omega
      rw [same, indices_single]
      exact ascends_single (place_lt room last)
    · exact ascends_places room positive (by omega) most
  · rw [indices_cons between]
    exact ascends_places room positive (by omega) most

theorem binsOf_ascends_top :
    (Grid.mk 8 8000 .zeroFirst).binsOf (⟨-2000, 4000⟩ : Band ℚ) = .ok [6, 7, 0, 1, 2, 3, 4] ∧
      [6, 7, 0, 1, 2, 3, 4].Nodup ∧ [6, 7, 0, 1, 2, 3, 4].length ≤ 8 ∧
      Ascends ℚ ⟨8, 8000, .zeroFirst⟩ [6, 7, 0, 1, 2, 3, 4] := by
  have room : 0 < (Grid.mk 8 8000 .zeroFirst).size := by decide
  have listed : (Grid.mk 8 8000 .zeroFirst).binsOf (⟨-2000, 4000⟩ : Band ℚ) =
      .ok [6, 7, 0, 1, 2, 3, 4] :=
    binsOf_near (-2) 4 (by norm_num) (check_ok_iff.mpr ⟨room, by norm_num⟩)
      (check_ok_iff.mpr ⟨room, by norm_num⟩) (by norm_num) (by norm_num) (by decide)
  have inside : ¬ (Grid.mk 8 8000 .zeroFirst).LowEdge (-2000 : ℚ) := by
    intro edge
    have below := edge.below
    norm_num at below
  obtain ⟨unrepeated, ascends, _⟩ := binsOf_ascends listed
  obtain ⟨distinct, few⟩ := unrepeated.mpr fun edges => inside edges.1
  exact ⟨listed, distinct, few, ascends.mpr fun edge => absurd edge inside⟩

theorem nyquist_listed_twice :
    -(8000 / 2 : ℚ) < -3999.9999999 ∧ (-3999.9999999 : ℚ) ≤ 4000 ∧ (4000 : ℚ) ≤ 8000 / 2 ∧
      (Grid.mk 8 8000 .zeroFirst).binsOf (⟨-3999.9999999, 4000⟩ : Band ℚ) =
        .ok [4, 5, 6, 7, 0, 1, 2, 3, 4] ∧
      ¬ [4, 5, 6, 7, 0, 1, 2, 3, 4].Nodup ∧ ¬ [4, 5, 6, 7, 0, 1, 2, 3, 4].length ≤ 8 ∧
      ¬ Ascends ℚ ⟨8, 8000, .zeroFirst⟩ [4, 5, 6, 7, 0, 1, 2, 3, 4] := by
  have room : 0 < (Grid.mk 8 8000 .zeroFirst).size := by decide
  have twice : ¬ [4, 5, 6, 7, 0, 1, 2, 3, 4].Nodup := by decide
  refine ⟨by norm_num, by norm_num, by norm_num, ?_, twice, by decide,
    fun ascends => twice ascends.nodup⟩
  exact binsOf_near (-4) 4 (by norm_num) (check_ok_iff.mpr ⟨room, by norm_num⟩)
    (check_ok_iff.mpr ⟨room, by norm_num⟩) (by norm_num [abs_lt]) (by norm_num) (by decide)

end Wideband.Grid
