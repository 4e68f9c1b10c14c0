namespace Wideband

/-- What a double-precision number stands for; a finite one is
`significand * 2 ^ exponent` with its sign. -/
inductive Binary64 where
  | notANumber
  | infinite (negative : Bool)
  | finite (negative : Bool) (significand : Nat) (exponent : Int)

namespace Binary64

def storedBits : Nat := 52

/-- Exponent of the smallest numbers, where significands lose their leading bit. -/
def leastExponent : Int := -1074

def ofFloat (x : Float) : Binary64 :=
  let bits := x.toBits.toNat
  let negative := bits / Nat.pow 2 63 == 1
  let field := bits / Nat.pow 2 storedBits % 2048
  let stored := bits % Nat.pow 2 storedBits
  if field == 2047 then
    if stored == 0 then .infinite negative else .notANumber
  else if field == 0 then
    .finite negative stored leastExponent
  else
    .finite negative (stored + Nat.pow 2 storedBits) (leastExponent + (field - 1 : Nat))

def scaled (negative : Bool) (significand : Nat) (exponent : Int) : Float :=
  let size := (Float.ofNat significand).scaleB exponent
  if negative then -size else size

/-- Remainder of `x` modulo a positive finite `modulus`, in `[0, modulus)`; computed exactly,
so that only the last addition for a negative `x` rounds. -/
def remainder (x modulus : Float) : Float :=
  match ofFloat x, ofFloat modulus with
  | .finite negative a p, .finite _ b q =>
      let exponent := min p q
      let numerator := a * Nat.pow 2 (p - exponent).toNat
      let divisor := b * Nat.pow 2 (q - exponent).toNat
      let rest := scaled negative (numerator % divisor) exponent
      if rest < 0 then rest + modulus else rest
  | _, _ => 0 / 0

end Binary64

end Wideband
