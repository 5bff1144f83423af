import Mathlib.Logic.Basic

/-!
# Programs that make calls

A program either ends with a result or makes a call and goes on with its answer.
What it can ask for is a matter of the program alone; what is answered is left
to whoever serves the calls.
-/
namespace Esp32Shell.Library.Interaction

/-- Programs over the calls `C`, where a call `c` is answered by an `A c`. -/
inductive Program (C : Type) (A : C → Type) (α : Type) where
  | done (result : α)
  | call (c : C) (next : A c → Program C A α)

namespace Program

variable {C α σ : Type} {A : C → Type}

/-- The result of a program whose calls are served over a state. -/
def run (serve : (c : C) → σ → A c × σ) : Program C A α → σ → α × σ
  | done result, s => (result, s)
  | call c next, s => (next (serve c s).1).run serve (serve c s).2

/-- The calls that are made, each with its answer. -/
def trace (serve : (c : C) → σ → A c × σ) : Program C A α → σ → List ((c : C) × A c)
  | done _, _ => []
  | call c next, s => ⟨c, (serve c s).1⟩ :: (next (serve c s).1).trace serve (serve c s).2

/-- Some answers to the calls before make the program make this one. -/
def Makes : Program C A α → C → Prop
  | done _, _ => False
  | call c next, c' => c' = c ∨ ∃ a, (next a).Makes c'

/-- Whatever is answered, the program makes calls of one kind alone. -/
def Only (P : C → Prop) (p : Program C A α) : Prop := ∀ c, p.Makes c → P c

variable {P : C → Prop}

@[simp] theorem run_done (serve : (c : C) → σ → A c × σ) (result : α) (s : σ) :
    (done result : Program C A α).run serve s = (result, s) := rfl

@[simp] theorem run_call (serve : (c : C) → σ → A c × σ) (c : C) (next : A c → Program C A α)
    (s : σ) : (call c next).run serve s = (next (serve c s).1).run serve (serve c s).2 := rfl

@[simp] theorem trace_done (serve : (c : C) → σ → A c × σ) (result : α) (s : σ) :
    (done result : Program C A α).trace serve s = [] := rfl

@[simp] theorem trace_call (serve : (c : C) → σ → A c × σ) (c : C) (next : A c → Program C A α)
    (s : σ) : (call c next).trace serve s =
      ⟨c, (serve c s).1⟩ :: (next (serve c s).1).trace serve (serve c s).2 := rfl

@[simp] theorem only_done (result : α) : (done result : Program C A α).Only P := fun _ h => h.elim

theorem only_call_iff {c : C} {next : A c → Program C A α} :
    (call c next).Only P ↔ P c ∧ ∀ a, (next a).Only P := by
  constructor
  · intro h
    exact ⟨h c (Or.inl rfl), fun a c' hmakes => h c' (Or.inr ⟨a, hmakes⟩)⟩
  · intro h c' hmakes
    obtain rfl | ⟨a, hmakes⟩ := hmakes
    · exact h.1
    · exact h.2 a c' hmakes

end Program

end Esp32Shell.Library.Interaction
