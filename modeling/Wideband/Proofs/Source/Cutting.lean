import Wideband.Buffer

namespace Wideband.Buffer

variable {C : Type} {buffer front middle rest part more : Buffer C} {first : Nat}

theorem drop_zero (buffer : Buffer C) : buffer.drop 0 = buffer := by
  cases buffer <;> simp [drop, extract, size]

theorem take_append {count : Nat} (within : count ≤ front.size) :
    (front.append rest).take count = front.take count := by
  cases front <;> cases rest <;> simp_all [append, take, extract, size, Array.extract_append]

theorem append_assoc (same : front.format = middle.format) (rest : Buffer C) :
    (front.append middle).append rest = front.append (middle.append rest) := by
  cases front <;> cases middle <;> cases rest <;> simp_all [append, format]

theorem append_take_zero (same : front.format = rest.format) :
    (front.take 0).append rest = rest := by
  cases front <;> cases rest <;> simp_all [append, take, extract, format]

theorem take_append_behind (same : front.format = rest.format) (count : Nat) :
    (front.append rest).take (front.size + count) = front.append (rest.take count) := by
  cases front <;> cases rest <;>
    simp_all [append, take, extract, size, format, Array.extract_append,
      Array.extract_eq_self_of_le]

theorem drop_append_behind (same : front.format = rest.format) (count : Nat) :
    (front.append rest).drop (front.size + count) = rest.drop count := by
  cases front <;> cases rest <;>
    simp_all [append, drop, extract, size, format, Array.extract_append]

theorem drop_append (same : front.format = rest.format) :
    (front.append rest).drop front.size = rest :=
  (drop_append_behind same 0).trans rest.drop_zero

theorem drop_drop (buffer : Buffer C) (first second : Nat) :
    (buffer.drop first).drop second = buffer.drop (first + second) := by
  cases buffer with
  | _ items =>
      refine congrArg _ (Array.ext ?_ fun index _ _ => ?_)
      · simp
        omega
      · simp [Nat.add_assoc]

theorem take_append_front (front rest : Buffer C) : (front.append rest).take front.size = front := by
  cases front <;> cases rest <;> simp [append, take, extract, size, Array.extract_append]

theorem format_overwrite (buffer part : Buffer C) (first : Nat) :
    (buffer.overwrite first part).format = buffer.format := by
  rw [overwrite, format_append, format_append, format_take]

theorem size_overwrite (same : part.format = buffer.format)
    (within : first + part.size ≤ buffer.size) :
    (buffer.overwrite first part).size = buffer.size := by
  have front : (buffer.take first).format = part.format := by rw [format_take, same]
  have whole : ((buffer.take first).append part).format =
      (buffer.drop (first + part.size)).format := by
    rw [format_append, format_take, format_drop]
  rw [overwrite, size_append whole, size_append front, size_take, size_drop]
  omega

theorem append_nothing (nothing : part.size = 0) : front.append part = front := by
  cases front <;> cases part <;> simp_all [append, size]

theorem overwrite_nothing (nothing : part.size = 0) : buffer.overwrite first part = buffer := by
  rw [overwrite, append_nothing nothing, nothing, Nat.add_zero, append_take_drop]

theorem drop_free (room : first < buffer.size) : 0 < (buffer.drop first).size := by
  rw [size_drop]
  omega

theorem append_overwrite (same : part.format = buffer.format) :
    (buffer.take first).append ((buffer.drop first).overwrite 0 part) =
      buffer.overwrite first part := by
  have behind : (buffer.drop first).format = part.format := by rw [format_drop, same]
  have front : (buffer.take first).format = part.format := by rw [format_take, same]
  have written : (buffer.drop first).overwrite 0 part =
      part.append (buffer.drop (first + part.size)) := by
    rw [overwrite, append_take_zero behind, drop_drop, Nat.zero_add]
  rw [written, overwrite, append_assoc front]

theorem overwrite_overwrite (same : part.format = buffer.format) (also : more.format = part.format)
    (within : first ≤ buffer.size) :
    (buffer.overwrite first part).overwrite (first + part.size) more =
      buffer.overwrite first (part.append more) := by
  have front : (buffer.take first).format = part.format := by rw [format_take, same]
  have size : ((buffer.take first).append part).size = first + part.size := by
    rw [size_append front, size_take]
    omega
  have behind : ((buffer.take first).append part).format =
      (buffer.drop (first + part.size)).format := by
    rw [format_append, format_take, format_drop]
  have next : ((buffer.take first).append part).append (buffer.drop (first + part.size)) =
      buffer.overwrite first part := rfl
  have taken : (buffer.overwrite first part).take (first + part.size) =
      (buffer.take first).append part := by
    rw [← next, ← size, take_append_front]
  have left : (buffer.overwrite first part).drop (first + part.size + more.size) =
      buffer.drop (first + (part.append more).size) := by
    have cut := drop_append_behind behind more.size
    rw [size, drop_drop, next] at cut
    rw [cut, Nat.add_assoc, size_append also.symm]
  rw [overwrite, taken, left, overwrite, append_assoc front]

end Wideband.Buffer
