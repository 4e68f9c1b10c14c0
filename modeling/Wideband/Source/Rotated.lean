import Wideband.Source.Basic

namespace Wideband

/-!
A source whose every sample is multiplied by a constant. With a multiplier of magnitude one this
turns the carrier phase of the stream. A multiplier of exactly one leaves samples alone, bit for
bit.
-/

structure Rotated (ρ C : Type) where
  inner : ρ
  multiplier : C

namespace Rotated

variable {ρ C R : Type}

def checkFormat (format : Format) : Except Error Unit :=
  match format with
  | .complex => .ok ()
  | other => .error (.formatUnsupported other)

def ofSource [Source ρ C] (inner : ρ) (multiplier : C) : Except Error (Rotated ρ C) :=
  match checkFormat (Source.format inner) with
  | .error cause => .error cause
  | .ok () => .ok ⟨inner, multiplier⟩

def request (view : Buffer C) : Except Error (Buffer C) :=
  match view with
  | .complex _ => .ok view
  | other => .error (.formatMismatch .complex other.format)

/-- What becomes of the inner source's answer: its first `count` samples are multiplied, which is
a fault when the view holds fewer. -/
def respond [Sample C R] (multiplier : C) (outcome : Outcome Nat) (answered : Buffer C) :
    Outcome Nat × Buffer C :=
  match outcome, answered with
  | .ok count, .complex out =>
      if Sample.same multiplier 1 then (outcome, answered)
      else if out.size < count then (.error .fault, answered)
      else
        let turned := (out.extract 0 count).map (· * multiplier)
        (outcome, .complex (turned ++ out.extract count out.size))
  | _, _ => (outcome, answered)

def read [Sample C R] [Source ρ C] (source : Rotated ρ C) (view : Buffer C) :
    Reading (Rotated ρ C) C :=
  match request view with
  | .error cause => ⟨.fail cause, view, source, .none⟩
  | .ok asked =>
      let reading := Source.read source.inner asked
      let (outcome, view) := respond source.multiplier reading.outcome reading.view
      ⟨outcome, view, { source with inner := reading.source }, reading.signals⟩

instance [Sample C R] [Source ρ C] : Source (Rotated ρ C) C where
  format _ := .complex
  rate source := Source.rate source.inner
  read := Rotated.read
  close source :=
    let (result, inner) := Source.close (C := C) source.inner
    (result, { source with inner })

end Rotated

end Wideband
