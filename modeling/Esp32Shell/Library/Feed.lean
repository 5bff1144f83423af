import Mathlib.Data.List.Basic
import Mathlib.Data.List.Induction
import Mathlib.Control.Basic

/-!
# Machines fed from a list, with an early halt

A machine consumes its inputs one by one; `.error` is a halt, after which the
rest of the input is not looked at. Feeding is a fold in `Except`, so cutting
the input into pieces, with any number of idle turns between them, is invisible.
-/
namespace Esp32Shell.Library.Feed

variable {σ ι ε κ : Type}

/-- Feed every input until the machine halts. -/
def feed (step : σ → ι → Except ε σ) (s : σ) (inputs : List ι) : Except ε σ := inputs.foldlM step s

variable (step : σ → ι → Except ε σ)

@[simp] theorem feed_nil (s : σ) : feed step s [] = .ok s := rfl

theorem feed_cons (s : σ) (x : ι) (xs : List ι) :
    feed step s (x :: xs) = (step s x).bind fun s' => feed step s' xs := rfl

theorem feed_cons_ok {s s' : σ} {x : ι} (h : step s x = .ok s') (xs : List ι) :
    feed step s (x :: xs) = feed step s' xs := by
  rw [feed_cons, h]
  rfl

theorem feed_cons_error {s : σ} {x : ι} {e : ε} (h : step s x = .error e) (xs : List ι) :
    feed step s (x :: xs) = .error e := by
  rw [feed_cons, h]
  rfl

theorem feed_append (s : σ) (xs ys : List ι) :
    feed step s (xs ++ ys) = (feed step s xs).bind fun s' => feed step s' ys :=
  List.foldlM_append

theorem feed_append_ok {s s' : σ} {xs : List ι} (h : feed step s xs = .ok s') (ys : List ι) :
    feed step s (xs ++ ys) = feed step s' ys := by
  rw [feed_append, h]
  rfl

theorem feed_append_error {s : σ} {xs : List ι} {e : ε} (h : feed step s xs = .error e)
    (ys : List ι) : feed step s (xs ++ ys) = .error e := by
  rw [feed_append, h]
  rfl

theorem feed_singleton (s : σ) (x : ι) : feed step s [x] = step s x := by
  rw [feed_cons]
  cases step s x <;> rfl

/-- `running` of a machine that is still running, `halted` of one that has halted. -/
def Holds (running : σ → Prop) (halted : ε → Prop) : Except ε σ → Prop
  | .ok s => running s
  | .error e => halted e

/-- What every step preserves holds after every run. -/
theorem feed_holds {step : σ → ι → Except ε σ} {running : σ → Prop} {halted : ε → Prop}
    (hstep : ∀ s x, running s → Holds running halted (step s x)) {s : σ} (hs : running s)
    (inputs : List ι) : Holds running halted (feed step s inputs) := by
  induction inputs generalizing s with
  | nil => exact hs
  | cons x xs ih =>
    have hx := hstep s x hs
    cases h : step s x with
    | ok s' =>
      rw [h] at hx
      rw [feed_cons_ok _ h]
      exact ih hx
    | error e =>
      rw [h] at hx
      rw [feed_cons_error _ h]
      exact hx

/-- What every step on an admitted input preserves holds after every run of admitted inputs. -/
theorem feed_holds_of {step : σ → ι → Except ε σ} {admitted : ι → Prop} {running : σ → Prop}
    {halted : ε → Prop} (hstep : ∀ s x, admitted x → running s → Holds running halted (step s x)) {s : σ}
    (hs : running s) {inputs : List ι} (hinputs : ∀ x ∈ inputs, admitted x) :
    Holds running halted (feed step s inputs) := by
  induction inputs generalizing s with
  | nil => exact hs
  | cons x xs ih =>
    obtain ⟨hx, hxs⟩ := List.forall_mem_cons.mp hinputs
    have hnext := hstep s x hx hs
    cases h : step s x with
    | ok s' =>
      rw [h] at hnext
      rw [feed_cons_ok _ h]
      exact ih hnext hxs
    | error e =>
      rw [h] at hnext
      rw [feed_cons_error _ h]
      exact hnext

/-- Two machines that both run on, or have both halted. -/
def Agree {τ δ : Type} (running : σ → τ → Prop) (halted : ε → δ → Prop) :
    Except ε σ → Except δ τ → Prop
  | .ok s, .ok t => running s t
  | .error e, .error d => halted e d
  | _, _ => False

/-- What follows for the first of two machines that agree. -/
theorem Agree.holds {τ δ : Type} {running : σ → τ → Prop} {halted : ε → δ → Prop} {P : σ → Prop}
    {Q : ε → Prop} {x : Except ε σ} {y : Except δ τ} (h : Agree running halted x y)
    (hrunning : ∀ s t, running s t → P s) (hhalted : ∀ e d, halted e d → Q e) : Holds P Q x := by
  cases x with
  | ok s =>
    cases y with
    | ok t => exact hrunning s t h
    | error d => exact h.elim
  | error e =>
    cases y with
    | ok t => exact h.elim
    | error d => exact hhalted e d h

/-- What every step keeps of two machines is kept by their runs over the same inputs. -/
theorem feed_agree {τ δ : Type} {step : σ → ι → Except ε σ} {step' : τ → ι → Except δ τ}
    {running : σ → τ → Prop} {halted : ε → δ → Prop}
    (hstep : ∀ s t x, running s t → Agree running halted (step s x) (step' t x)) {s : σ} {t : τ}
    (h : running s t) (inputs : List ι) :
    Agree running halted (feed step s inputs) (feed step' t inputs) := by
  induction inputs generalizing s t with
  | nil => exact h
  | cons x xs ih =>
    have hx := hstep s t x h
    cases hs : step s x with
    | ok s' =>
      cases ht : step' t x with
      | ok t' =>
        rw [hs, ht] at hx
        rw [feed_cons_ok _ hs, feed_cons_ok _ ht]
        exact ih hx
      | error d =>
        rw [hs, ht] at hx
        exact hx.elim
    | error e =>
      cases ht : step' t x with
      | ok t' =>
        rw [hs, ht] at hx
        exact hx.elim
      | error d =>
        rw [hs, ht] at hx
        rw [feed_cons_error _ hs, feed_cons_error _ ht]
        exact hx

/-- A halted run, cut at the input that halted it. -/
theorem feed_error_cut {step : σ → ι → Except ε σ} {s : σ} {xs : List ι} {e : ε}
    (h : feed step s xs = .error e) :
    ∃ pre x post s', xs = pre ++ x :: post ∧ feed step s pre = .ok s' ∧ step s' x = .error e := by
  induction xs generalizing s with
  | nil => cases h
  | cons x xs ih =>
    cases hx : step s x with
    | error e' =>
      rw [feed_cons_error _ hx] at h
      cases h
      exact ⟨[], x, xs, s, rfl, rfl, hx⟩
    | ok s₁ =>
      rw [feed_cons_ok _ hx] at h
      obtain ⟨pre, y, post, s', rfl, hpre, hy⟩ := ih h
      exact ⟨x :: pre, y, post, s', rfl, by rw [feed_cons_ok _ hx, hpre], hy⟩

/-- The list up to and including its first element that satisfies `p`. -/
def takeThrough (p : κ → Bool) : List κ → List κ
  | [] => []
  | x :: xs => if p x then [x] else x :: takeThrough p xs

theorem takeThrough_begins (p : κ → Bool) (l : List κ) : takeThrough p l <+: l := by
  induction l with
  | nil => exact List.nil_prefix
  | cons x xs ih =>
    rw [takeThrough]
    by_cases h : p x = true
    · rw [if_pos h]
      exact ⟨xs, rfl⟩
    · rw [if_neg h]
      exact (List.prefix_cons_inj x).mpr ih

/-- Nothing behind the first element that stops the list counts. -/
theorem takeThrough_cut {p : κ → Bool} {before : List κ} {x : κ} (hbefore : ∀ y ∈ before, p y = false)
    (hx : p x = true) (after : List κ) : takeThrough p (before ++ x :: after) = before ++ [x] := by
  induction before with
  | nil => exact if_pos hx
  | cons y before ih =>
    obtain ⟨hy, hrest⟩ := List.forall_mem_cons.mp hbefore
    rw [List.cons_append, takeThrough, if_neg (by simp [hy]), ih hrest, List.cons_append]

theorem takeThrough_map {μ : Type} (f : μ → κ) (p : κ → Bool) (l : List μ) :
    takeThrough p (l.map f) = (takeThrough (p ∘ f) l).map f := by
  induction l with
  | nil => rfl
  | cons x xs ih => by_cases h : p (f x) <;> simp [takeThrough, h, ih]

/-- Dropping elements that do not stop the list commutes with stopping it. -/
theorem takeThrough_filter {p q : κ → Bool} (h : ∀ x, p x = true → q x = true) (l : List κ) :
    takeThrough p (l.filter q) = (takeThrough p l).filter q := by
  induction l with
  | nil => rfl
  | cons x xs ih =>
    by_cases hp : p x = true
    · simp [takeThrough, hp, h x hp]
    · by_cases hq : q x = true <;> simp [takeThrough, hp, hq, ih]

/-- Where an element stands in a list with one more: last, or before the last. -/
theorem snoc_cut {events before after : List κ} {e c : κ}
    (h : events ++ [e] = before ++ c :: after) :
    (after = [] ∧ events = before ∧ e = c) ∨
      ∃ rest, after = rest ++ [e] ∧ events = before ++ c :: rest := by
  cases after using List.reverseRecOn with
  | nil =>
    obtain ⟨hevents, hlast⟩ := List.append_inj' h rfl
    exact .inl ⟨rfl, hevents, List.head_eq_of_cons_eq hlast⟩
  | append_singleton rest last =>
    have hcut : events ++ [e] = (before ++ c :: rest) ++ [last] := by rw [h]; simp
    obtain ⟨hevents, hlast⟩ := List.append_inj' hcut rfl
    exact .inr ⟨rest, by rw [List.head_eq_of_cons_eq hlast], hevents⟩

end Esp32Shell.Library.Feed
