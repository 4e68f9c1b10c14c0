import Wideband.Array.Locked

namespace Wideband

/-!
Receivers whose calls are on record. The record of a receiver says of every start and of every switch
of its noise source what came of it, so it tells which streams the receiver has handed out and
whether its noise source was left on. Any receiver can be put on record (`Recorded`).
-/

variable {τ ρ F : Type}

namespace Receiver

inductive Call (ρ : Type) where
  | started (outcome : Outcome ρ)
  | switched (enabled : Bool) (result : Except Error Unit)

def Call.start : Call ρ → Option (Outcome ρ)
  | .started outcome => some outcome
  | .switched _ _ => none

def starts (calls : List (Call ρ)) : List (Outcome ρ) :=
  calls.filterMap Call.start

def handed (calls : List (Call ρ)) : List ρ :=
  (starts calls).filterMap Except.toOption

/-- A noise source was switched on and not off again since. -/
def Lit (calls : List (Call ρ)) : Prop :=
  ∃ before after, calls = before ++ .switched true (.ok ()) :: after ∧
    .switched false (.ok ()) ∉ after

/-- The last call was to switch the noise source off, and failed. -/
def Stuck (calls : List (Call ρ)) : Prop :=
  ∃ earlier cause, calls = earlier ++ [.switched false (.error cause)]

theorem starts_append (calls later : List (Call ρ)) :
    starts (calls ++ later) = starts calls ++ starts later :=
  List.filterMap_append

theorem handed_of_starts {calls : List (Call ρ)} (none : starts calls = []) : handed calls = [] := by
  rw [handed, none, List.filterMap_nil]

theorem not_lit_off (earlier : List (Call ρ)) :
    ¬Lit (earlier ++ [.switched false (.ok ())]) := by
  rintro ⟨before, after, split, never⟩
  -- Either nothing followed the switching on, or what followed ends in the switching off.
  rcases List.eq_nil_or_concat after with rfl | ⟨middle, last, rfl⟩
  · have ends := (List.append_inj' split rfl).2
    cases ends
  · have grouped : earlier ++ [.switched false (.ok ())] =
        (before ++ .switched true (.ok ()) :: middle) ++ [last] := by simpa using split
    obtain ⟨_, ends⟩ := List.append_inj' grouped rfl
    cases ends
    simp at never

theorem not_lit_dark {calls : List (Call ρ)} (dark : .switched true (.ok ()) ∉ calls) :
    ¬Lit calls := by
  rintro ⟨before, after, rfl, _⟩
  simp at dark

/-- The receivers that a pass has changed: all of them, or those up to the first failure. -/
inductive Passed (act : τ → Except Error Unit × τ) : List τ → Except Error Unit × List τ → Prop where
  | whole (receivers : List τ) (done : ∀ receiver ∈ receivers, (act receiver).1 = .ok ()) :
      Passed act receivers (.ok (), receivers.map fun receiver => (act receiver).2)
  | stopped (front : List τ) (receiver : τ) (rest : List τ) (cause : Error)
      (done : ∀ receiver ∈ front, (act receiver).1 = .ok ())
      (failed : (act receiver).1 = .error cause) :
      Passed act (front ++ receiver :: rest)
        (.error cause, front.map (fun receiver => (act receiver).2) ++ (act receiver).2 :: rest)

theorem each_passed (act : τ → Except Error Unit × τ) (receivers : List τ) :
    Passed act receivers (each act receivers) := by
  induction receivers with
  | nil => exact .whole [] nofun
  | cons receiver rest ih =>
      cases acted : act receiver with
      | mk result next =>
          have own : next = (act receiver).2 := by rw [acted]
          cases result with
          | error cause =>
              simp only [each, acted]
              rw [own]
              exact .stopped [] receiver rest cause nofun (by rw [acted])
          | ok _ =>
              have done : (act receiver).1 = .ok () := by rw [acted]
              simp only [each, acted]
              generalize each act rest = passed at ih
              cases ih with
              | whole _ others =>
                  rw [own]
                  exact .whole (receiver :: rest) (List.forall_mem_cons.mpr ⟨done, others⟩)
              | stopped front failing rest cause others failed =>
                  rw [own]
                  exact .stopped (receiver :: front) failing rest cause
                    (List.forall_mem_cons.mpr ⟨done, others⟩) failed

theorem map_each {β : Type} {act : τ → Except Error Unit × τ} {view : τ → β}
    (same : ∀ receiver, view (act receiver).2 = view receiver) (receivers : List τ) :
    (each act receivers).2.map view = receivers.map view := by
  have passed := each_passed act receivers
  generalize each act receivers = result at passed
  cases passed with
  | whole _ done => simp [Function.comp_def, same]
  | stopped front failing rest cause done failed => simp [Function.comp_def, same]

theorem length_each (act : τ → Except Error Unit × τ) (receivers : List τ) :
    (each act receivers).2.length = receivers.length := by
  have same : (each act receivers).2.map (fun _ => ()) = receivers.map fun _ => () :=
    map_each (fun _ => rfl) receivers
  have counted := congrArg List.length same
  rwa [List.length_map, List.length_map] at counted

theorem forall_each {act : τ → Except Error Unit × τ} {kept : τ → Prop}
    (step : ∀ receiver, kept receiver → kept (act receiver).2) {receivers : List τ}
    (before : ∀ receiver ∈ receivers, kept receiver) :
    ∀ receiver ∈ (each act receivers).2, kept receiver := by
  have passed := each_passed act receivers
  generalize each act receivers = result at passed
  cases passed with
  | whole _ done =>
      exact List.forall_mem_map.mpr fun receiver member => step receiver (before receiver member)
  | stopped front failing rest cause done failed =>
      obtain ⟨first, others⟩ := List.forall_mem_append.mp before
      obtain ⟨own, last⟩ := List.forall_mem_cons.mp others
      refine List.forall_mem_append.mpr ⟨?_, List.forall_mem_cons.mpr ⟨step failing own, last⟩⟩
      exact List.forall_mem_map.mpr fun receiver member => step receiver (first receiver member)

variable [Receiver τ ρ F]

structure Logs (log : τ → List (Call ρ)) : Prop where
  start (receiver : τ) : log (Receiver.start receiver).2 =
    log receiver ++ [.started (Receiver.start receiver).1]
  switch {receiver : τ} {act : Bool → Except Error Unit × τ}
    (offered : Receiver.switchNoise receiver = some act) (enabled : Bool) :
    log (act enabled).2 = log receiver ++ [.switched enabled (act enabled).1]

variable {log : τ → List (Call ρ)} {receiver : τ}

theorem switch_absent (absent : Receiver.switchNoise receiver = none) (enabled : Bool) :
    switch enabled receiver = (.ok (), receiver) := by
  simp only [switch, absent]

theorem Logs.switched (logs : Logs log) {act : Bool → Except Error Unit × τ}
    (offered : Receiver.switchNoise receiver = some act) (enabled : Bool) :
    log (Receiver.switch enabled receiver).2 =
      log receiver ++ [.switched enabled (Receiver.switch enabled receiver).1] := by
  simp only [Receiver.switch, offered]
  exact logs.switch offered enabled

theorem Logs.starts_switch (logs : Logs log) (enabled : Bool) (receiver : τ) :
    starts (log (Receiver.switch enabled receiver).2) = starts (log receiver) := by
  cases offered : Receiver.switchNoise receiver with
  | none => rw [switch_absent offered]
  | some act =>
      rw [logs.switched offered, starts_append]
      exact List.append_nil _

end Receiver

/-- A receiver with a record of its calls. -/
structure Recorded (τ ρ : Type) where
  inner : τ
  calls : List (Receiver.Call ρ)

namespace Recorded

variable [Receiver τ ρ F]

instance : Receiver (Recorded τ ρ) ρ F where
  rate recorded := Receiver.rate recorded.inner
  setRate recorded rate :=
    let (result, inner) := Receiver.setRate recorded.inner rate
    (result, { recorded with inner })
  tune recorded frequency :=
    let (result, inner) := Receiver.tune recorded.inner frequency
    (result, { recorded with inner })
  start recorded :=
    let (outcome, inner) := Receiver.start recorded.inner
    (outcome, ⟨inner, recorded.calls ++ [.started outcome]⟩)
  switchNoise recorded := (Receiver.switchNoise recorded.inner).map fun act enabled =>
    let (result, inner) := act enabled
    (result, ⟨inner, recorded.calls ++ [.switched enabled result]⟩)

theorem logs_calls : Receiver.Logs (calls : Recorded τ ρ → List (Receiver.Call ρ)) where
  start _ := rfl
  switch {recorded act} offered enabled := by
    cases inner : Receiver.switchNoise recorded.inner with
    | none =>
        change (Receiver.switchNoise recorded.inner).map _ = some act at offered
        rw [inner] at offered
        cases offered
    | some switch =>
        change (Receiver.switchNoise recorded.inner).map _ = some act at offered
        rw [inner] at offered
        cases offered
        rfl

end Recorded

end Wideband
