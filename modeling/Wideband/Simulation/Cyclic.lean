import Wideband.Buffer

namespace Wideband

/-- The `count` items from index `start` on of the sequence that repeats `items`. -/
def cyclic {α : Type} (items : Array α) (start count : Nat) : Array α :=
  if room : 0 < items.size then
    Array.ofFn fun index : Fin count =>
      have inside := Nat.mod_lt (start + index) room
      items[(start + index) % items.size]
  else #[]

theorem size_cyclic {α : Type} {items : Array α} (room : 0 < items.size) (start count : Nat) :
    (cyclic items start count).size = count := by
  simp [cyclic, room]

def Buffer.cyclic {C : Type} (buffer : Buffer C) (start count : Nat) : Buffer C :=
  match buffer with
  | .complex samples => .complex (Wideband.cyclic samples start count)
  | .unsigned8 pairs => .unsigned8 (Wideband.cyclic pairs start count)
  | .signed8 pairs => .signed8 (Wideband.cyclic pairs start count)
  | .signed16 pairs => .signed16 (Wideband.cyclic pairs start count)

end Wideband
