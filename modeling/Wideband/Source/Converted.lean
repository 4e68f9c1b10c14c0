import Wideband.Source.Basic

namespace Wideband

/-!
Presents any source as a source of complex samples. Native samples land in a staging buffer and
are converted from there; a source that is complex already is read straight through. A read asks
for no more than the view and the staging buffer hold, so nothing is read ahead.

The read is split at the inner read (`Converted.request`, `Converted.respond`), so that closed
families of sources can run it by recursion on their own shape.
-/

structure Converted (ρ C : Type) where
  inner : ρ
  staging : Option (Buffer C)

namespace Converted

variable {ρ C R : Type}

def stagingSize : Nat := 16 * 1024

/-- The staging buffer for a source of the given format; it holds at least one sample. -/
def stagingFor [Zero C] (format : Format) (size : Nat) : Option (Buffer C) :=
  match format with
  | .complex => none
  | native => some (.silent native (max size 1))

def withStaging [Zero C] [Source ρ C] (inner : ρ) (size : Nat) : Converted ρ C :=
  ⟨inner, stagingFor (Source.format inner) size⟩

def ofSource [Zero C] [Source ρ C] (inner : ρ) : Converted ρ C :=
  withStaging inner stagingSize

/-- The view that the inner source is read into, to fill a complex view. -/
def request (staging : Option (Buffer C)) (view : Buffer C) : Except Error (Buffer C) :=
  match view, staging with
  | .complex _, none => .ok view
  | .complex out, some held => .ok (held.take (min out.size held.size))
  | other, _ => .error (.formatMismatch .complex other.format)

/-- What becomes of the inner source's answer: the outcome, the view and the staging buffer after
the read, from those before it. -/
def respond [Component R] [Sample C R] (staging : Option (Buffer C)) (view : Buffer C)
    (outcome : Outcome Nat) (answered : Buffer C) :
    Outcome Nat × Buffer C × Option (Buffer C) :=
  match view, staging with
  | .complex out, some held =>
      let held := answered.append (held.drop answered.size)
      match outcome with
      | .error failure => (.error failure, view, some held)
      | .ok count =>
          match held.convertInto count out with
          | .error cause => (.fail cause, view, some held)
          | .ok converted => (.ok count, .complex converted, some held)
  | _, _ => (outcome, answered, staging)

def read [Component R] [Sample C R] [Source ρ C] (source : Converted ρ C) (view : Buffer C) :
    Reading (Converted ρ C) C :=
  match request source.staging view with
  | .error cause => ⟨.fail cause, view, source, .none⟩
  | .ok asked =>
      let reading := Source.read source.inner asked
      let (outcome, view, staging) := respond source.staging view reading.outcome reading.view
      ⟨outcome, view, ⟨reading.source, staging⟩, reading.signals⟩

instance [Component R] [Sample C R] [Source ρ C] : Source (Converted ρ C) C where
  format _ := .complex
  rate source := Source.rate source.inner
  read := Converted.read
  close source :=
    let (result, inner) := Source.close (C := C) source.inner
    (result, { source with inner })

end Converted

end Wideband
