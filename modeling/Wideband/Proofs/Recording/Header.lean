import Wideband.Recording.Header

namespace Wideband.Recording

/-!
The one header that recordings of pairs have reads back as it was written, whatever bytes follow it
(`Header.parse_pairs`). Every part of it is as long as the parser asks for, so the proofs go through
the header from the front, a part at a time.
-/

def Stored.pairs (rate : Nat) : Stored := ⟨.pairs rate, 4⟩

theorem Stored.ofLayout_pairs (rate : Nat) : Stored.ofLayout (.pairs rate) = .pairs rate := by
  simp [ofLayout, pairs, Layout.pairs]

namespace Parse

variable {front rest file : List UInt8} {count number : Nat}

theorem bind_ok {α β : Type} {step : Parse α} {next : α → Parse β} {value : α}
    (done : step file = .ok (value, rest)) : (step >>= next) file = next value rest := by
  simp only [bind, StateT.bind, done, Except.bind]

theorem bytes_append (sized : front.length = count) :
    bytes count (front ++ rest) = .ok (front, rest) := by
  subst sized
  simp [bytes]

theorem number_append (fits : number < Nat.pow 256 count) :
    Parse.number count (littleEndian count number ++ rest) = .ok (number, rest) := by
  rw [Parse.number, bind_ok (bytes_append (length_littleEndian count number)),
    ofLittleEndian_littleEndian fits]
  rfl

theorem longLayout_pairs (stored : Stored) :
    longLayout 40 stored (littleEndian 2 22 ++ (littleEndian 2 32 ++ (littleEndian 4 3 ++
      (littleEndian 2 floatTag ++ (encodingTail ++ rest))))) =
        .ok ({ stored with bits := 32, floating := true }, rest) := by
  have encoding : bytes 16 (littleEndian 2 floatTag ++ (encodingTail ++ rest)) =
      .ok (littleEndian 2 floatTag ++ encodingTail, rest) := by
    rw [← List.append_assoc]
    exact bytes_append rfl
  rw [longLayout, if_neg (by decide), bind_ok (number_append (by decide)), if_neg (by decide)]
  dsimp only
  rw [bind_ok (number_append (by decide)), bind_ok (bytes_append (by rfl)), bind_ok encoding]
  simp only [if_neg (show (32 : Nat) ≠ 0 by decide),
    if_neg (show littleEndian 2 floatTag ++ encodingTail ≠
      littleEndian 2 integerTag ++ encodingTail by decide)]
  rfl

theorem layout_pairs {rate : Nat} (fits : rate * 8 < 0x100000000) :
    layout 40 (littleEndian 2 longTag ++ (littleEndian 2 2 ++ (littleEndian 4 rate ++
      (littleEndian 4 (rate * 8) ++ (littleEndian 2 8 ++ (littleEndian 2 32 ++
        (littleEndian 2 22 ++ (littleEndian 2 32 ++ (littleEndian 4 3 ++
          (littleEndian 2 floatTag ++ (encodingTail ++ rest))))))))))) =
            .ok (Stored.pairs rate, rest) := by
  have words : Nat.pow 256 4 = 0x100000000 := rfl
  rw [layout, if_neg (by decide), bind_ok (number_append (by decide)),
    bind_ok (number_append (by decide)), bind_ok (number_append (by omega)),
    bind_ok (number_append (by omega)), bind_ok (number_append (by decide)),
    bind_ok (number_append (by decide))]
  have product : ¬rate * 8 ≠ 8 * rate := by omega
  simp only [if_neg product]
  exact longLayout_pairs _

theorem chunks_pairs {rate length steps : Nat} (fits : rate * 8 < 0x100000000)
    (sized : length < 0x100000000) :
    chunks (steps + 2) none (tag "fmt " ++ (littleEndian 4 40 ++ (littleEndian 2 longTag ++
      (littleEndian 2 2 ++ (littleEndian 4 rate ++ (littleEndian 4 (rate * 8) ++
        (littleEndian 2 8 ++ (littleEndian 2 32 ++ (littleEndian 2 22 ++ (littleEndian 2 32 ++
          (littleEndian 4 3 ++ (littleEndian 2 floatTag ++ (encodingTail ++ (tag "data" ++
            (littleEndian 4 length ++ rest))))))))))))))) =
              .ok ((Stored.pairs rate, length), rest) := by
  rw [chunks, bind_ok (bytes_append (by rfl)), bind_ok (number_append (by decide)), if_pos rfl,
    bind_ok (layout_pairs fits), chunks, bind_ok (bytes_append (by rfl)),
    bind_ok (number_append sized), if_neg (by decide), if_neg (by decide), if_pos rfl]
  rfl

end Parse

theorem length_tag (name : String) : (tag name).length = name.toList.length := by
  rw [tag, List.length_map]

theorem Stored.header_pairs (rate length : Nat) :
    (Stored.pairs rate).header length = tag "RIFF" ++ (littleEndian 4 (60 + length) ++
      (tag "WAVE" ++ (tag "fmt " ++ (littleEndian 4 40 ++ (littleEndian 2 longTag ++
        (littleEndian 2 2 ++ (littleEndian 4 rate ++ (littleEndian 4 (rate * 8) ++
          (littleEndian 2 8 ++ (littleEndian 2 32 ++ (littleEndian 2 22 ++ (littleEndian 2 32 ++
            (littleEndian 4 3 ++ (littleEndian 2 floatTag ++ (encodingTail ++ (tag "data" ++
              littleEndian 4 length)))))))))))))))) := by
  have tail : encodingTail.length = 14 := rfl
  simp only [header, List.append_assoc, List.length_append, length_littleEndian, length_tag, tail]
  rfl

theorem Header.parse_pairs {rate length : Nat} (fits : rate * 8 < 0x100000000)
    (sized : length < 0x100000000) (whole : length % 8 = 0) (rest : List UInt8) :
    Header.parse ((Stored.pairs rate).header length ++ rest) =
      .ok (⟨Stored.pairs rate, length / 4⟩, rest) := by
  simp only [Stored.header_pairs, List.append_assoc]
  rw [Header.parse, Parse.bind_ok (Parse.bytes_append (by rfl)), if_neg (by simp),
    Parse.bind_ok (Parse.bytes_append (by rfl)), Parse.bind_ok (Parse.bytes_append (by rfl)),
    if_neg (by simp)]
  -- The parser has as many steps as there are bytes left, and a chunk is left that takes some.
  have first : ∀ {bytes : List UInt8}, (get : Parse (List UInt8)) bytes = .ok (bytes, bytes) := rfl
  rw [Parse.bind_ok first]
  have steps (more : List UInt8) : (tag "fmt " ++ more).length + 1 = more.length + 3 + 2 := by
    have four : (tag "fmt ").length = 4 := rfl
    rw [List.length_append, four]
    omega
  rw [steps, Parse.bind_ok (Parse.chunks_pairs fits sized)]
  have values : length / 4 * 4 = length := by omega
  have pairs : length / 4 % 2 = 0 := by omega
  dsimp only [Stored.pairs]
  rw [if_neg (fun differs => differs values), if_neg (fun differs => differs pairs)]
  rfl

end Wideband.Recording
