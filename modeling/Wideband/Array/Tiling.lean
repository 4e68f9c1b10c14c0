import Wideband.Frequency

namespace Wideband

/-- The centre frequency of each receiver, so that their bands cover `count * rate` around
`center`. The receivers of the upper half of the list take the bands below the centre, which is
the order in which the inputs of a stitched stream land. One receiver or an even number of them
leave no gap. -/
def tiling {F : Type} [Frequency F] (center : F) (rate count : Nat) : List F :=
  let width : F := Frequency.ofInt rate
  (List.range count).map fun (index : Nat) =>
    let offset := (Frequency.ofInt index + Frequency.half) * width
    let offset :=
      if count ≤ 2 * index then offset - Frequency.ofInt count * width else offset
    center + offset

end Wideband
