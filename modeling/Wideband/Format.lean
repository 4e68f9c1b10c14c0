namespace Wideband

inductive Format where
  | complex
  /-- Pairs of unsigned bytes; 127.5 stands for zero. -/
  | unsigned8
  | signed8
  | signed16
deriving DecidableEq

namespace Format

def bytes : Format → Nat
  | .complex => 8
  | .unsigned8 => 2
  | .signed8 => 2
  | .signed16 => 4

def name : Format → String
  | .complex => "complex64"
  | .unsigned8 => "interleaved uint8"
  | .signed8 => "interleaved int8"
  | .signed16 => "interleaved int16"

end Format

end Wideband
