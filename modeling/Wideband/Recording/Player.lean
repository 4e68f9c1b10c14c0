import Wideband.Recording.Library
import Wideband.Sample.Complex32
import Wideband.Source.Basic

namespace Wideband.Recording

/-- A recording played as a source of complex samples. In-phase and quadrature parts are the two
channels of the file; integers are scaled to `[-1, 1]` by the divisor. -/
structure Player (δ : Type) where
  decoder : δ
  layout : Layout
  divisor : Int

namespace Player

def divisorFor (layout : Layout) : Except Error Int :=
  if layout.channels ≠ 2 then .error (.recording (.channels layout.channels))
  else if layout.floating then
    if layout.bits = 32 then .ok 1 else .error (.recording (.layout true layout.bits))
  else if layout.bits = 8 then .ok 128
  else if 16 ≤ layout.bits ∧ layout.bits ≤ 32 then .ok (Nat.pow 2 (layout.bits - 1) - 1 : Nat)
  else .error (.recording (.layout false layout.bits))

variable {δ φ C R : Type} [Decoder δ φ R]

def ofFile (file : φ) : Except Error (Player δ) :=
  match Decoder.ofFile file with
  | .error cause => .error cause
  | .ok decoder =>
      let layout := Decoder.layout decoder
      match divisorFor layout with
      | .error cause => .error cause
      | .ok divisor => .ok ⟨decoder, layout, divisor⟩

def size (player : Player δ) : Nat :=
  Decoder.duration player.decoder

variable [Component R]

def next (player : Player δ) : Option (Except Error R) × Player δ :=
  if player.layout.floating then
    let (value, decoder) := Decoder.nextFloat player.decoder
    (value, { player with decoder })
  else
    let (value, decoder) := Decoder.nextInt player.decoder
    (value.map fun number => number.map Component.ofInt, { player with decoder })

/-- Plays up to `room` samples behind those in `stored`. Both parts of a sample are consumed
before either is looked at. -/
def play [Sample C R] (player : Player δ) (stored : Array C) :
    Nat → Except Error Unit × Array C × Player δ
  | 0 => (.ok (), stored, player)
  | room + 1 =>
      match player.next with
      | (none, player) => (.ok (), stored, player)
      | (some inPhase, player) =>
          match player.next with
          | (none, player) => (.error .endOfStream, stored, player)
          | (some quadrature, player) =>
              match inPhase, quadrature with
              | .error cause, _ => (.error cause, stored, player)
              | .ok _, .error cause => (.error cause, stored, player)
              | .ok i, .ok q =>
                  let divisor : R := Component.ofInt player.divisor
                  play player (stored.push (Sample.ofParts (i / divisor) (q / divisor))) room

def read [Sample C R] (player : Player δ) (view : Buffer C) : Reading (Player δ) C :=
  match view with
  | .complex out =>
      let (result, stored, player) := player.play (#[] : Array C) out.size
      let outcome := match result with
        | .ok () => .ok stored.size
        | .error cause => .fail cause
      ⟨outcome, .complex (stored ++ out.extract stored.size out.size), player, .none⟩
  | other => ⟨.fail (.formatMismatch .complex other.format), view, player, .none⟩

instance [Decoder δ φ Float32] : Source (Player δ) Complex32 where
  format _ := .complex
  rate player := player.layout.rate
  read := Player.read
  close player := (.ok (), player)

end Player

end Wideband.Recording
