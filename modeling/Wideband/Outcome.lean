import Wideband.Error

namespace Wideband

/-!
How an operation can end. Besides a result and a reported error there is the fault: an operation
that broke a rule nobody may break, such as a source that claims more samples than the buffer it
was given can hold. A fault ends the operation on the spot, and nothing is put in order behind it.
-/

inductive Failure where
  | error (cause : Error)
  | fault

instance : Inhabited Failure := ⟨.fault⟩

abbrev Outcome (α : Type) := Except Failure α

namespace Outcome

def ofResult {α : Type} : Except Error α → Outcome α
  | .ok value => .ok value
  | .error cause => .error (.error cause)

def fail {α : Type} (cause : Error) : Outcome α :=
  .error (.error cause)

def inStream {α : Type} (index : Nat) (stage : Stage) : Outcome α → Outcome α
  | .ok value => .ok value
  | .error (.error cause) => .error (.error (.stream index stage cause))
  | .error .fault => .error .fault

end Outcome

end Wideband
