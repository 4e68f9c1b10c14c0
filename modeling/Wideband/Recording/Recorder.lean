import Wideband.Buffer
import Wideband.Recording.Library

namespace Wideband.Recording

/-- How far a file has come: it is still written, or it is complete. -/
inductive Tape (ε φ : Type) where
  | running (encoder : ε)
  | complete (file : φ)

structure Recorder (ε φ : Type) where
  rate : Nat
  tape : Tape ε φ

namespace Recorder

variable {ε φ C R : Type} [Encoder ε φ R]

def start (rate : Nat) : Outcome (Recorder ε φ) :=
  match Encoder.create (.pairs rate) with
  | .error failure => .error failure
  | .ok encoder => .ok ⟨rate, .running encoder⟩

def valuesOf [Sample C R] (sample : C) : List R := [Sample.re sample, Sample.im sample]

def write [Sample C R] (recorder : Recorder ε φ) (buffer : Buffer C) :
    Except Error Nat × Recorder ε φ :=
  match buffer with
  | .complex samples =>
      match recorder.tape with
      | .complete _ => (.error .pipeClosed, recorder)
      | .running encoder =>
          let (result, encoder) := Encoder.putEach encoder (samples.toList.flatMap valuesOf)
          (result.map fun _ => samples.size, { recorder with tape := .running encoder })
  | other => (.error (.formatMismatch .complex other.format), recorder)

/-- Ends the recording, also where the file can not be completed. Ending it again changes
nothing. -/
def close (recorder : Recorder ε φ) : Except Error Unit × Recorder ε φ :=
  match recorder.tape with
  | .complete _ => (.ok (), recorder)
  | .running encoder =>
      let (result, file) := Encoder.finish encoder
      (result, { recorder with tape := .complete file })

/-- The file that the recorder leaves behind when it is closed or abandoned. -/
def file (recorder : Recorder ε φ) : φ :=
  match recorder.tape with
  | .complete file => file
  | .running encoder => (Encoder.finish encoder).2

end Recorder

end Wideband.Recording
