import Mathlib.Data.List.Forall2
import Wideband.Proofs.Source.Keeping
import Wideband.Source.Converted
import Wideband.Source.Rotated
import Wideband.Sample.Complex32

namespace Wideband

/-!
Conversions and rotations on top of each other, over a source of any format. Whatever the sizes of
the views, of the staging buffer and of the short reads below, a read through such a nesting is one
read of the source at the bottom, which is asked for no more than the caller has room for: its
samples come back converted and turned, its failures as they are (`Source.Nesting.transparent`).
-/

variable {ρ σ C R : Type}

theorem Converted.stagingFor_native [Zero C] {format : Format} (native : format ≠ .complex)
    (size : Nat) :
    Converted.stagingFor (C := C) format size = some (.silent format (max size 1)) := by
  cases format with
  | complex => exact absurd rfl native
  | _ => rfl

section Turning

variable [Sample C R]

/-- What one sample becomes under factors, the first of them first; a factor of one leaves it as
it is. -/
def multiplied (factors : List C) (sample : C) : C :=
  factors.foldl (fun sample factor =>
    if Sample.same factor 1 then sample else sample * factor) sample

theorem map_multiplied_nil (samples : Array C) : samples.map (multiplied []) = samples := by
  have same : multiplied ([] : List C) = id := rfl
  rw [same, Array.map_id]

theorem map_multiplied_one {factor : C} (one : Sample.same factor 1 = true) (samples : Array C) :
    samples.map (multiplied [factor]) = samples := by
  have same : multiplied [factor] = id := by
    funext sample
    simp [multiplied, one]
  rw [same, Array.map_id]

theorem multiplied_other {factor : C} (other : ¬ Sample.same factor 1 = true) :
    multiplied [factor] = (· * factor) := by
  funext sample
  simp [multiplied, other]

end Turning

variable [Component R] [Sample C R]

namespace Buffer

@[simp] theorem size_toComplex (buffer : Buffer C) : buffer.toComplex.size = buffer.size := by
  cases buffer <;> simp [toComplex, size]

def carried (factors : List C) (given : Buffer C) : Buffer C :=
  .complex (given.toComplex.map (multiplied factors))

theorem carried_nil {given : Buffer C} (complex : given.format = .complex) :
    given.carried [] = given := by
  cases given with
  | complex samples => exact congrArg Buffer.complex (map_multiplied_nil samples)
  | _ => cases complex

theorem carried_append (factors later : List C) (given : Buffer C) :
    given.carried (factors ++ later) = (given.carried factors).carried later := by
  simp [carried, toComplex, multiplied, Function.comp_def]

end Buffer

namespace Reading

def answer (reading : Reading ρ C) : Outcome (Buffer C) :=
  reading.outcome.map reading.view.take

def samples (reading : Reading ρ C) : List C :=
  match reading.answer with
  | .ok given => given.toComplex.toList
  | .error _ => []

theorem keeps_complex {front out : Array C} {source : ρ} {signals : Signals}
    (fits : front.size ≤ out.size) : Keeps (.complex out)
      ⟨.ok front.size, .complex (front ++ out.extract front.size out.size), source, signals⟩ := by
  have same : (Buffer.complex front).format = (Buffer.complex out).format := rfl
  exact keeps_front same fits

theorem answer_complex {front out : Array C} {source : ρ} {signals : Signals} : answer
    ⟨.ok front.size, .complex (front ++ out.extract front.size out.size), source, signals⟩ =
      .ok (.complex front) := by
  simp [answer, Except.map, Buffer.take, Buffer.extract]

/-- A reading through an adapter, from the reading below it. -/
structure Carries (reading : Reading σ C) (factors : List C) (view : Buffer C)
    (below : Reading ρ C) : Prop where
  keeps : reading.Keeps view
  outcome : reading.outcome = below.outcome
  answer : reading.answer = below.answer.map (Buffer.carried factors)

theorem Carries.trans {factors later : List C} {view : Buffer C} {base : Reading ρ C}
    {below : Reading σ C} {τ : Type} {reading : Reading τ C}
    (first : below.Carries factors view base)
    (second : reading.Carries later view below) : reading.Carries (factors ++ later) view base where
  keeps := second.keeps
  outcome := second.outcome.trans first.outcome
  answer := by
    rw [second.answer, first.answer]
    cases base.answer with
    | error failure => rfl
    | ok given => exact congrArg Except.ok (Buffer.carried_append factors later given).symm

theorem Carries.samples {factors : List C} {view : Buffer C} {below : Reading ρ C}
    {reading : Reading σ C} (carries : reading.Carries factors view below) :
    reading.samples = below.samples.map (multiplied factors) := by
  simp only [Reading.samples, carries.answer]
  cases below.answer with
  | error failure => rfl
  | ok given => exact Array.toList_map

theorem carries_self {out : Array C} {reading : Reading ρ C}
    (keeps : reading.Keeps (.complex out)) :
    reading.Carries [] (.complex out) reading := by
  refine ⟨keeps, rfl, ?_⟩
  cases outcome : reading.outcome with
  | error failure => simp [answer, outcome, Except.map]
  | ok count =>
      have viewed : (reading.view.take count).format = .complex := by
        rw [Buffer.format_take, keeps.format]
        rfl
      simp [answer, outcome, Except.map, Buffer.carried_nil viewed]

end Reading

section Adapters

variable [Source ρ C] {source : ρ} {out : Array C}

theorem Converted.carries_straight
    (keeps : (Source.read source (.complex out)).Keeps (.complex out)) :
    (Source.read (⟨source, none⟩ : Converted ρ C) (.complex out)).Carries [] (.complex out)
      (Source.read source (.complex out)) := by
  have carries := Reading.carries_self keeps
  exact ⟨⟨keeps.format, keeps.size, keeps.bounded, keeps.rest⟩, rfl, carries.answer⟩

theorem Converted.request_staged {held asked : Buffer C}
    (asks : Converted.request (some held) (.complex out) = .ok asked) :
    asked.format = held.format ∧ asked.size = min out.size held.size := by
  cases asks
  rw [Buffer.format_take, Buffer.size_take]
  exact ⟨rfl, by omega⟩

theorem Converted.read_staged {held asked : Buffer C} {reading : Reading ρ C}
    (asks : Converted.request (some held) (.complex out) = .ok asked)
    (read : Source.read source asked = reading) (keeps : reading.Keeps asked) :
    Source.read (⟨source, some held⟩ : Converted ρ C) (.complex out) =
      let left : Converted ρ C :=
        ⟨reading.source, some (reading.view.append (held.drop reading.view.size))⟩
      match reading.outcome with
      | .error failure => ⟨.error failure, .complex out, left, reading.signals⟩
      | .ok count =>
          let front := (reading.view.take count).toComplex
          ⟨.ok front.size, .complex (front ++ out.extract front.size out.size), left,
            reading.signals⟩ := by
  obtain ⟨askedFormat, askedSize⟩ := request_staged asks
  change Converted.read _ _ = _
  unfold Converted.read
  rw [asks]
  dsimp only
  rw [read]
  obtain ⟨outcome, answered, next, signals⟩ := reading
  cases outcome with
  | error failure => rfl
  | ok count =>
      have size : answered.size = min out.size held.size := keeps.size.trans askedSize
      have within : count ≤ answered.size := keeps.size ▸ keeps.bounded rfl
      have same : answered.format = (held.drop answered.size).format := by
        rw [Buffer.format_drop]
        exact keeps.format.trans askedFormat
      have stored : (answered.take count).toComplex.size = count := by
        rw [Buffer.size_toComplex, Buffer.size_take]
        omega
      have converted : (answered.append (held.drop answered.size)).convertInto count out =
          .ok ((answered.take count).toComplex ++ out.extract count out.size) := by
        have room : ¬ (answered.append (held.drop answered.size)).size < count := by
          rw [Buffer.size_append same]
          omega
        rw [Buffer.convertInto, if_neg room, if_neg (by omega), Buffer.take_append within]
      simp only [Converted.respond, converted, stored]

theorem Converted.carries_staged {held asked : Buffer C}
    (asks : Converted.request (some held) (.complex out) = .ok asked)
    (keeps : (Source.read source asked).Keeps asked) :
    (Source.read (⟨source, some held⟩ : Converted ρ C) (.complex out)).Carries [] (.complex out)
      (Source.read source asked) := by
  rw [Converted.read_staged asks rfl keeps]
  generalize Source.read source asked = reading at keeps ⊢
  obtain ⟨outcome, answered, next, signals⟩ := reading
  cases outcome with
  | error failure => exact ⟨Reading.keeps_failed, rfl, rfl⟩
  | ok count =>
      have bounded : count ≤ asked.size := keeps.bounded rfl
      have size : answered.size = asked.size := keeps.size
      have askedSize := (request_staged asks).2
      have stored : (answered.take count).toComplex.size = count := by
        rw [Buffer.size_toComplex, Buffer.size_take]
        omega
      have fits : (answered.take count).toComplex.size ≤ out.size := by omega
      refine ⟨Reading.keeps_complex fits, congrArg Except.ok stored,
        Reading.answer_complex.trans ?_⟩
      exact congrArg (Except.ok ∘ Buffer.complex) (map_multiplied_nil _).symm

theorem Converted.source_staged {held asked : Buffer C}
    (asks : Converted.request (some held) (.complex out) = .ok asked)
    (keeps : (Source.read source asked).Keeps asked) :
    (Source.read (⟨source, some held⟩ : Converted ρ C) (.complex out)).source =
      let reading := Source.read source asked
      ⟨reading.source, some (reading.view.append (held.drop reading.view.size))⟩ := by
  rw [Converted.read_staged asks rfl keeps]
  cases (Source.read source asked).outcome <;> rfl

theorem Rotated.carries (factor : C)
    (keeps : (Source.read source (.complex out)).Keeps (.complex out)) :
    (Source.read (⟨source, factor⟩ : Rotated ρ C) (.complex out)).Carries [factor] (.complex out)
      (Source.read source (.complex out)) := by
  change Reading.Carries (Rotated.read _ _) _ _ _
  unfold Rotated.read
  dsimp only [Rotated.request]
  generalize Source.read source (.complex out) = reading at keeps ⊢
  obtain ⟨outcome, answered, next, signals⟩ := reading
  cases answered with
  | complex answered =>
      cases outcome with
      | error failure => exact ⟨keeps.trans Reading.keeps_failed rfl, rfl, rfl⟩
      | ok count =>
          have size : answered.size = out.size := keeps.size
          have bounded : count ≤ out.size := keeps.bounded rfl
          simp only [Rotated.respond]
          split
          · rename_i one
            have kept := map_multiplied_one one (answered.extract 0 count)
            exact ⟨⟨rfl, size, keeps.bounded, keeps.rest⟩, rfl,
              congrArg (Except.ok ∘ Buffer.complex) kept.symm⟩
          · rename_i other
            rw [if_neg (by omega), ← multiplied_other other]
            generalize front : (answered.extract 0 count).map (multiplied [factor]) = turned
            have stored : turned.size = count := by
              rw [← front, Array.size_map, Array.size_extract]
              omega
            subst stored
            refine ⟨keeps.trans (Reading.keeps_complex (by omega)) rfl, rfl,
              Reading.answer_complex.trans ?_⟩
            exact congrArg (Except.ok ∘ Buffer.complex) front.symm
  | _ => cases keeps.format

end Adapters

namespace Source

variable [Source ρ C]

/-- What conversions and rotations make of a source, with the factors of the rotations from the
innermost one on. -/
inductive Nesting (base : ρ) : {σ : Type} → [Source σ C] → σ → List C → Prop where
  | bare : Nesting base base []
  | converted {σ : Type} [Source σ C] {source : σ} {factors : List C}
      (inner : Nesting base source factors) (staging : Nat) :
      Nesting base (Converted.withStaging source staging) factors
  | rotated {σ : Type} [Source σ C] {source : σ} {factors : List C} {rotated : Rotated σ C}
      {factor : C} (inner : Nesting base source factors)
      (made : Rotated.ofSource source factor = .ok rotated) :
      Nesting base rotated (factors ++ [factor])

/-- A nesting that presents complex samples, at any time of its life: only the source at the bottom
can have a staging buffer above it, with whatever earlier reads left there. -/
inductive Stack (base : ρ) : {σ : Type} → [Source σ C] → σ → List C → Prop where
  | plain (complex : Source.format base = .complex) : Stack base base []
  | staged {held : Buffer C} (same : held.format = Source.format base) (room : 0 < held.size) :
      Stack base (⟨base, some held⟩ : Converted ρ C) []
  | converted {σ : Type} [Source σ C] {source : σ} {factors : List C}
      (below : Stack base source factors) :
      Stack base (⟨source, none⟩ : Converted σ C) factors
  | rotated {σ : Type} [Source σ C] {source : σ} {factors : List C}
      (below : Stack base source factors) (factor : C) :
      Stack base (⟨source, factor⟩ : Rotated σ C) (factors ++ [factor])

theorem Nesting.stack {base : ρ} [Source σ C] {source : σ} {factors : List C}
    (nesting : Nesting base source factors) (presents : Source.format source = .complex) :
    Stack base source factors := by
  induction nesting with
  | bare => exact .plain presents
  | @converted _ _ source factors inner staging ih =>
      by_cases complex : Source.format source = .complex
      · have unstaged : Converted.stagingFor (C := C) (Source.format source) staging = none := by
          rw [complex]
          rfl
        rw [Converted.withStaging, unstaged]
        exact .converted (ih complex)
      · -- Only the source at the bottom has another format.
        cases inner with
        | bare =>
            rw [Converted.withStaging, Converted.stagingFor_native complex]
            exact .staged (Buffer.format_silent ..) (by rw [Buffer.size_silent]; omega)
        | converted inner staging => exact absurd rfl complex
        | rotated inner made => exact absurd rfl complex
  | @rotated _ _ source factors rotated factor inner made ih =>
      unfold Rotated.ofSource at made
      split at made
      · cases made
      · rename_i checked
        cases made
        refine .rotated (ih ?_) factor
        cases format : Source.format source with
        | complex => rfl
        | _ => rw [format] at checked; cases checked

structure Stack.Passes (base : ρ) [Source σ C] (source : σ) (factors : List C) (out : Array C)
    (asked : Buffer C) : Prop where
  format : asked.format = Source.format base
  within : asked.size ≤ out.size
  /-- A read with room for samples asks for some, so an empty answer is the end of the stream. -/
  some : asked.size = 0 → out.size = 0
  stack : Stack (Source.read base asked).source (Source.read source (.complex out)).source factors
  carries : (Source.read source (.complex out)).Carries factors (.complex out)
    (Source.read base asked)

namespace Stack

variable {honest : ρ → Prop} {base : ρ} {factors : List C}

theorem passes (faithful : Faithful (C := C) honest) (trusted : honest base) [Source σ C]
    {source : σ} (stack : Stack base source factors) (out : Array C) :
    ∃ asked, Passes base source factors out asked := by
  induction stack with
  | plain complex =>
      have fits : (Buffer.complex out).format = Source.format base := complex.symm
      exact ⟨.complex out, fits, Nat.le_refl _, id,
        .plain ((faithful.format trusted fits).trans complex),
        Reading.carries_self (faithful.keeps trusted fits)⟩
  | @staged held same room =>
      obtain ⟨asked, asks⟩ : ∃ asked, Converted.request (.some held) (.complex out) = .ok asked :=
        ⟨_, rfl⟩
      obtain ⟨askedFormat, askedSize⟩ := Converted.request_staged asks
      have fits : asked.format = Source.format base := askedFormat.trans same
      have keeps := faithful.keeps trusted fits
      have joined : (Source.read base asked).view.format =
          (held.drop (Source.read base asked).view.size).format := by
        rw [keeps.format, askedFormat, Buffer.format_drop]
      refine ⟨asked, fits, by omega, by omega, ?_, Converted.carries_staged asks keeps⟩
      rw [Converted.source_staged asks keeps]
      refine .staged ?_ ?_
      · rw [Buffer.format_append, keeps.format, fits, faithful.format trusted fits]
      · rw [Buffer.size_append joined, Buffer.size_drop, keeps.size]
        omega
  | converted below ih =>
      obtain ⟨asked, passes⟩ := ih
      refine ⟨asked, passes.format, passes.within, passes.some, .converted passes.stack, ?_⟩
      have carries := passes.carries.trans (Converted.carries_straight passes.carries.keeps)
      rwa [List.append_nil] at carries
  | rotated below factor ih =>
      obtain ⟨asked, passes⟩ := ih
      exact ⟨asked, passes.format, passes.within, passes.some, .rotated passes.stack factor,
        passes.carries.trans (Rotated.carries factor passes.carries.keeps)⟩

end Stack

def readEach (source : ρ) : List (Buffer C) → List (Reading ρ C) × ρ
  | [] => ([], source)
  | view :: views =>
      let reading := Source.read source view
      let later := readEach reading.source views
      (reading :: later.1, later.2)

/-- What a caller gets who reads complex samples into the views `outs` through a stack, and the
reads of the source at the bottom behind it, one for each of the caller's. -/
structure Transparent (base : ρ) [Source σ C] (source : σ) (factors : List C)
    (outs : List (Array C)) (asked : List (Buffer C)) : Prop where
  /-- The source at the bottom has done these reads and no others. -/
  stack : Stack (readEach base asked).2 (readEach source (outs.map .complex)).2 factors
  asks : List.Forall₂ (fun out view => view.format = Source.format base ∧
    view.size ≤ out.size ∧ (view.size = 0 → out.size = 0)) outs asked
  keeps : List.Forall₂ (fun out reading => reading.Keeps (.complex out)) outs
    (readEach source (outs.map .complex)).1
  /-- The same counts, the same ends and the same failures. -/
  outcomes : (readEach source (outs.map .complex)).1.map Reading.outcome =
    (readEach base asked).1.map Reading.outcome
  delivered : (readEach source (outs.map .complex)).1.flatMap Reading.samples =
    ((readEach base asked).1.flatMap Reading.samples).map (multiplied factors)

theorem Stack.reads {honest : ρ → Prop} {base : ρ} {factors : List C}
    (faithful : Faithful (C := C) honest) (trusted : honest base) [Source σ C] {source : σ}
    (stack : Stack base source factors) (outs : List (Array C)) :
    ∃ asked, Transparent base source factors outs asked := by
  induction outs generalizing base source with
  | nil => exact ⟨[], stack, .nil, .nil, rfl, rfl⟩
  | cons out outs ih =>
      obtain ⟨view, passes⟩ := stack.passes faithful trusted out
      obtain ⟨asked, later⟩ := ih (faithful.read trusted passes.format) passes.stack
      have format := faithful.format trusted passes.format
      refine ⟨view :: asked, later.stack, .cons ⟨passes.format, passes.within, passes.some⟩ ?_,
        .cons passes.carries.keeps later.keeps,
        congrArg₂ List.cons passes.carries.outcome later.outcomes, ?_⟩
      · rw [← format]
        exact later.asks
      · change (_ :: _).flatMap _ = List.map _ ((_ :: _).flatMap _)
        rw [List.flatMap_cons, List.flatMap_cons, List.map_append, passes.carries.samples,
          later.delivered]

/-- Whatever is built of conversions and rotations on top of an honest source, and presents complex
samples, hands out what the source at the bottom gives. -/
theorem Nesting.transparent {honest : ρ → Prop} {base : ρ} {factors : List C}
    (faithful : Faithful (C := C) honest) (trusted : honest base) [Source σ C] {source : σ}
    (nesting : Nesting base source factors) (presents : Source.format source = .complex)
    (outs : List (Array C)) : ∃ asked, Transparent base source factors outs asked :=
  (nesting.stack presents).reads faithful trusted outs

def bytes : Scripted Complex32 :=
  .ofScript ⟨.unsigned8 #[(0, 255), (1, 254), (2, 253), (3, 252), (4, 251), (5, 250), (6, 249)],
    1000, some 3, false, none, none, 0, none, none, none, none⟩ 0

theorem Nesting.transparent_bytes :
    ∃ asked, Transparent bytes
      (Converted.withStaging (⟨Converted.withStaging bytes 5, ⟨0, 1⟩⟩ : Rotated _ Complex32) 0)
      [⟨0, 1⟩] [#[.zero, .zero, .zero, .zero], #[], #[.one, .one], #[.zero, .one, .zero]]
      asked := by
  have converted : Nesting bytes (Converted.withStaging bytes 5) [] := .converted .bare 5
  have rotated : Nesting bytes (⟨Converted.withStaging bytes 5, ⟨0, 1⟩⟩ : Rotated _ Complex32)
      [⟨0, 1⟩] := converted.rotated rfl
  exact transparent Scripted.faithful rfl (rotated.converted 0) rfl _

end Source

end Wideband
