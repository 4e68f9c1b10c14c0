import Mathlib.Logic.Relation
import Mathlib.Data.List.Forall2
import Wideband.Source.Converted
import Wideband.Source.Together

namespace Wideband

/-!
Sources that are read and not closed. Filling buffers and skipping samples, whether they succeed or
fail, lead from a source to what some reads make of it (`Source.Worn`), and cancel the session only if
a read does.
-/

/-- Two relations between lists, member by member, one after the other. -/
theorem forall₂_trans {α β γ : Type} {r : α → β → Prop} {s : β → γ → Prop} {t : α → γ → Prop}
    (trans : ∀ {a b c}, r a b → s b c → t a c) {before : List α} {between : List β}
    {after : List γ} (first : List.Forall₂ r before between)
    (second : List.Forall₂ s between after) : List.Forall₂ t before after := by
  induction first generalizing after with
  | nil =>
      cases second
      exact .nil
  | cons head _ ih =>
      cases second with
      | cons next rest => exact .cons (trans head next) (ih rest)

theorem Signals.cancels_and (before : Signals) {signals : Signals}
    (silent : signals.cancels = false) : (before.and signals).cancels = before.cancels := by
  rw [and, silent, Bool.or_false]

namespace Source

variable {ρ C : Type} [Source ρ C]

def Reads (source next : ρ) : Prop :=
  ∃ view : Buffer C, next = (Source.read source view).source

def Worn : ρ → ρ → Prop :=
  Relation.ReflTransGen Reads

/-- A source that was read, and then closed once. -/
def ClosedOnce (source final : ρ) : Prop :=
  ∃ used, Worn source used ∧ final = (Source.close (C := C) used).2

def Calm (ρ : Type) {C : Type} [Source ρ C] : Prop :=
  ∀ (source : ρ) (view : Buffer C), (Source.read source view).signals.cancels = false

theorem Worn.refl (source : ρ) : Worn source source :=
  Relation.ReflTransGen.refl

theorem Worn.trans {source next last : ρ} (first : Worn source next) (second : Worn next last) :
    Worn source last :=
  Relation.ReflTransGen.trans first second

theorem worn_read (source : ρ) (view : Buffer C) : Worn source (Source.read source view).source :=
  Relation.ReflTransGen.single ⟨view, rfl⟩

theorem worn_same (sources : List ρ) : List.Forall₂ Worn sources sources :=
  List.forall₂_same.mpr fun source _ => .refl source

section Exact

variable {size stored count : Nat} {source : ρ} {buffer : Buffer C} {signals : Signals}

theorem fillFrom_worn : Worn source (fillFrom size source buffer stored signals).source := by
  fun_induction fillFrom size source buffer stored signals with
  | case1 source buffer stored signals room reading next merged failure outcome =>
      exact worn_read source _
  | case2 source buffer stored signals room reading next merged outcome =>
      exact worn_read source _
  | case3 source buffer stored signals room reading next merged more outcome ih =>
      exact (worn_read source _).trans ih
  | case4 source buffer stored signals full => exact .refl source

theorem fillFrom_calm (calm : Calm ρ) :
    (fillFrom size source buffer stored signals).signals.cancels = signals.cancels := by
  fun_induction fillFrom size source buffer stored signals with
  | case1 source buffer stored signals room reading next merged failure outcome =>
      exact signals.cancels_and (calm source _)
  | case2 source buffer stored signals room reading next merged outcome =>
      exact signals.cancels_and (calm source _)
  | case3 source buffer stored signals room reading next merged more outcome ih =>
      exact ih.trans (signals.cancels_and (calm source _))
  | case4 source buffer stored signals full => rfl

theorem fill_worn (source : ρ) (buffer : Buffer C) : Worn source (fill source buffer).source :=
  fillFrom_worn

theorem fill_calm (calm : Calm ρ) (source : ρ) (buffer : Buffer C) :
    (fill source buffer).signals.cancels = false :=
  fillFrom_calm calm

variable [Zero C] {scratch : Nat}

theorem skipChunks_worn {room : 0 < scratch} :
    Worn source (skipChunks scratch room source count signals).source := by
  fun_induction skipChunks scratch room source count signals with
  | case1 source signals => exact .refl source
  | case2 source count signals something chunk reading merged failure outcome =>
      exact fill_worn source _
  | case3 source count signals something chunk reading merged stored outcome ih =>
      exact (fill_worn source _).trans ih

theorem skipChunks_calm (calm : Calm ρ) {room : 0 < scratch} :
    (skipChunks scratch room source count signals).signals.cancels = signals.cancels := by
  fun_induction skipChunks scratch room source count signals with
  | case1 source signals => rfl
  | case2 source count signals something chunk reading merged failure outcome =>
      exact signals.cancels_and (fill_calm calm source _)
  | case3 source count signals something chunk reading merged stored outcome ih =>
      exact ih.trans (signals.cancels_and (fill_calm calm source _))

theorem skip_worn (source : ρ) (count scratch : Nat) :
    Worn source (skip source count scratch).source := by
  unfold skip
  split
  · exact skipChunks_worn
  split
  · exact .refl source
  · exact .refl source

theorem skip_calm (calm : Calm ρ) (source : ρ) (count scratch : Nat) :
    (skip source count scratch).signals.cancels = false := by
  unfold skip
  split
  · exact skipChunks_calm calm
  split
  · rfl
  · rfl

end Exact

theorem fillAll_worn (stage : Stage) (sources : List ρ) (buffers : List (Buffer C)) :
    List.Forall₂ Worn sources (fillAll stage sources buffers).sources := by
  unfold fillAll
  split
  · rename_i paired
    change List.Forall₂ Worn sources ((List.zipWith fill sources buffers).map Reading.source)
    induction sources generalizing buffers with
    | nil => exact .nil
    | cons source sources ih =>
        cases buffers with
        | nil => cases paired
        | cons buffer buffers =>
            exact .cons (fill_worn source buffer) (ih buffers (Nat.succ.inj paired))
  · exact worn_same sources

theorem fillAll_calm (calm : Calm ρ) (stage : Stage) (sources : List ρ)
    (buffers : List (Buffer C)) :
    (fillAll stage sources buffers).signals.cancels = false := by
  have quiet : ∀ readings : List (Reading ρ C), ∀ signals : Signals,
      (∀ reading ∈ readings, reading.signals.cancels = false) →
      (readings.foldl (fun signals reading => signals.and reading.signals) signals).cancels =
        signals.cancels := by
    intro readings
    induction readings with
    | nil => exact fun _ _ => rfl
    | cons reading readings ih =>
        intro signals silent
        obtain ⟨first, rest⟩ := List.forall_mem_cons.mp silent
        rw [List.foldl_cons, ih _ rest, signals.cancels_and first]
  unfold fillAll
  split
  · refine quiet _ .none fun reading member => ?_
    obtain ⟨index, inside, rfl⟩ := List.getElem_of_mem member
    rw [List.getElem_zipWith]
    exact fill_calm calm _ _
  · rfl

end Source

namespace Converted

variable {ρ C R : Type} [Component R] [Sample C R] [Source ρ C]

theorem inner_worn {source next : Converted ρ C} (worn : Source.Worn source next) :
    Source.Worn source.inner next.inner := by
  refine Relation.ReflTransGen.lift' inner ?_ source next worn
  rintro source _ ⟨view, rfl⟩
  change Source.Worn source.inner (source.read view).source.inner
  unfold read
  split
  · exact .refl source.inner
  · exact Source.worn_read source.inner _

theorem calm (calm : Source.Calm ρ) : Source.Calm (Converted ρ C) := by
  intro source view
  change (source.read view).signals.cancels = false
  unfold read
  split
  · rfl
  · exact calm source.inner _

end Converted

end Wideband
