import Wideband.Sample.Complex32

namespace Wideband

namespace Signal

def nextState (state : Nat) : Nat :=
  (state * 1103515245 + 12345) % 0x80000000

def wholeNumber (amplitude state : Nat) : Float32 :=
  Float32.ofInt ((state / 0x10000 % (2 * amplitude + 1) : Nat) - (amplitude : Int))

/-- Appends so many pseudo-random samples; the in-phase part of each is drawn first. -/
def appendRandom (amplitude : Nat) : Nat → Nat → Array Complex32 → Array Complex32
  | 0, _, done => done
  | count + 1, state, done =>
      let first := nextState state
      let second := nextState first
      let sample := ⟨wholeNumber amplitude first, wholeNumber amplitude second⟩
      appendRandom amplitude count second (done.push sample)

def random (amplitude seed count : Nat) : Array Complex32 :=
  appendRandom amplitude count seed #[]

def ramp (count : Nat) : Array Complex32 :=
  (Array.range count).map fun index => ⟨Float32.ofNat index, -Float32.ofNat index⟩

def impulse (count index : Nat) (value : Complex32) : Array Complex32 :=
  (Array.replicate count 0).setIfInBounds index value

end Signal

end Wideband
