import Mathlib.Data.List.Induction
import Mathlib.Data.List.Infix

/-!
# Runs of a machine and their histories

A run is given by its inputs, and every state of it by the inputs before. An
invariant may speak of both, and of a condition that every step of the run meets.
-/
namespace Esp32Shell.Library.Run

variable {σ ι : Type} (step : σ → ι → σ) (start : σ)

/-- The state that a sequence of inputs leads to. -/
def after (inputs : List ι) : σ := inputs.foldl step start

variable {step start}

@[simp] theorem after_nil : after step start [] = start := rfl

theorem after_cons (x : ι) (inputs : List ι) :
    after step start (x :: inputs) = after step (step start x) inputs := rfl

theorem after_snoc (inputs : List ι) (x : ι) :
    after step start (inputs ++ [x]) = step (after step start inputs) x := by
  simp [after]

theorem after_append (inputs more : List ι) :
    after step start (inputs ++ more) = after step (after step start inputs) more :=
  List.foldl_append

/-- The inputs of a run, each beside the state that takes it. -/
def moments (step : σ → ι → σ) : σ → List ι → List (σ × ι)
  | _, [] => []
  | s, x :: xs => (s, x) :: moments step (step s x) xs

theorem moments_append (s : σ) (inputs more : List ι) : moments step s (inputs ++ more) =
    moments step s inputs ++ moments step (after step s inputs) more := by
  induction inputs generalizing s with
  | nil => rfl
  | cons y inputs ih =>
    rw [List.cons_append, moments, ih]
    rfl

theorem moments_snoc (s : σ) (inputs : List ι) (x : ι) : moments step s (inputs ++ [x]) =
    moments step s inputs ++ [(after step s inputs, x)] := moments_append s inputs [x]

theorem moments_begins (step : σ → ι → σ) {past inputs : List ι} (h : past <+: inputs) (s : σ) :
    moments step s past <+: moments step s inputs := by
  obtain ⟨rest, rfl⟩ := h
  exact ⟨_, (moments_append s past rest).symm⟩

/-- The run takes `x` right behind the inputs `past`. -/
def Taken (inputs past : List ι) (x : ι) : Prop := past ++ [x] <+: inputs

theorem Taken.snoc {inputs past : List ι} {x : ι} (h : Taken inputs past x) (y : ι) :
    Taken (inputs ++ [y]) past x := h.trans (List.prefix_append _ _)

theorem taken_last (inputs : List ι) (x : ι) : Taken (inputs ++ [x]) inputs x := List.prefix_rfl

theorem taken_singleton {past : List ι} {x y : ι} (h : Taken [x] past y) : past = [] ∧ y = x := by
  obtain ⟨rest, hrest⟩ := h
  cases past with
  | nil => exact ⟨rfl, (List.cons_eq_cons.mp hrest).1⟩
  | cons z past =>
    have hlength := congrArg List.length hrest
    simp at hlength

theorem taken_snoc_cases {inputs past : List ι} {x y : ι} (h : Taken (inputs ++ [y]) past x) :
    Taken inputs past x ∨ past = inputs ∧ x = y := by
  obtain ⟨rest, hrest⟩ := h
  cases rest using List.reverseRecOn with
  | nil =>
    rw [List.append_nil] at hrest
    obtain ⟨hpast, hx⟩ := List.append_inj' hrest rfl
    exact .inr ⟨hpast, List.singleton_inj.mp hx⟩
  | append_singleton rest z =>
    rw [← List.append_assoc] at hrest
    obtain ⟨hbefore, -⟩ := List.append_inj' hrest rfl
    exact .inl ⟨rest, hbefore⟩

theorem not_taken_nil {past : List ι} {x : ι} : ¬ Taken [] past x := fun h => by
  simpa using List.prefix_nil.mp h

theorem taken_cons_cases {inputs past : List ι} {x y : ι} (h : Taken (y :: inputs) past x) :
    past = [] ∧ x = y ∨ ∃ rest, past = y :: rest ∧ Taken inputs rest x := by
  cases past with
  | nil => exact .inl ⟨rfl, (List.cons_prefix_cons.mp h).1⟩
  | cons z past =>
    obtain ⟨rfl, hrest⟩ := List.cons_prefix_cons.mp h
    exact .inr ⟨past, rfl, hrest⟩

theorem taken_cons_ne {inputs past : List ι} {x y : ι} (h : Taken (y :: inputs) past x) (hne : x ≠ y) :
    ∃ rest, past = y :: rest ∧ Taken inputs rest x :=
  (taken_cons_cases h).resolve_left fun hfirst => hne hfirst.2

theorem Taken.mem {inputs past : List ι} {x : ι} (h : Taken inputs past x) :
    x ∈ inputs ∧ past ⊆ inputs := by
  have hsub : past ++ [x] ⊆ inputs := h.subset
  exact ⟨hsub (by simp), fun y hy => hsub (by simp [hy])⟩

/-- What holds at the start and survives every step that meets a condition holds after every run
whose steps all meet it. -/
theorem after_induction {P : List ι → σ → Prop} {C : List ι → ι → Prop} (hstart : P [] start)
    (hstep : ∀ past x, P past (after step start past) → C past x →
      P (past ++ [x]) (step (after step start past) x))
    {inputs : List ι} (h : ∀ past x, Taken inputs past x → C past x) :
    P inputs (after step start inputs) := by
  induction inputs using List.reverseRecOn with
  | nil => exact hstart
  | append_singleton inputs x ih =>
    have hpast := ih fun past y hy => h past y (hy.snoc x)
    rw [after_snoc]
    exact hstep inputs x hpast (h inputs x (taken_last inputs x))

/-- An invariant of the states alone. -/
theorem after_invariant {P : σ → Prop} (hstart : P start) (hstep : ∀ s x, P s → P (step s x))
    (inputs : List ι) : P (after step start inputs) := by
  induction inputs using List.reverseRecOn with
  | nil => exact hstart
  | append_singleton inputs x ih =>
    rw [after_snoc]
    exact hstep _ x ih

end Esp32Shell.Library.Run
