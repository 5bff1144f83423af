import Mathlib.Data.List.Basic
import Mathlib.Data.List.Nodup
import Mathlib.Logic.Function.Basic

/-!
# Exclusive ownership

Places hold tokens out of a pool of live ones. Every live token belongs to one
place, and a place holds its own token or none.
-/
namespace Esp32Shell.Library.Ownership

variable {ι τ : Type}

/-- The tokens that the places hold are exactly the live ones, each of them once. -/
structure Owned (held : ι → Option τ) (live : List (τ × ι)) : Prop where
  nodup : (live.map Prod.fst).Nodup
  held_iff : ∀ i t, held i = some t ↔ (t, i) ∈ live

namespace Owned

variable {held : ι → Option τ} {live : List (τ × ι)} {i : ι} {t : τ}

theorem empty : Owned (fun _ : ι => (none : Option τ)) [] :=
  ⟨List.nodup_nil, fun _ _ => by simp⟩

theorem eq_of_held (h : Owned held live) {j : ι} (hi : held i = some t) (hj : held j = some t) :
    i = j := by
  have hmi := (h.held_iff i t).mp hi
  have hmj := (h.held_iff j t).mp hj
  have heq := List.inj_on_of_nodup_map h.nodup hmi hmj rfl
  exact (Prod.mk.inj heq).2

/-- A live token has exactly one owner. -/
theorem existsUnique (h : Owned held live) (hm : (t, i) ∈ live) : ∃! j, held j = some t := by
  have hi := (h.held_iff i t).mpr hm
  exact ⟨i, hi, fun j hj => h.eq_of_held hj hi⟩

/-- A place without a token takes a fresh one. -/
theorem acquire [DecidableEq ι] (h : Owned held live) (hfree : held i = none)
    (hfresh : t ∉ live.map Prod.fst) :
    Owned (Function.update held i (some t)) ((t, i) :: live) := by
  refine ⟨List.nodup_cons.mpr ⟨hfresh, h.nodup⟩, fun j u => ?_⟩
  rw [List.mem_cons, Prod.mk.injEq, ← h.held_iff]
  by_cases hj : j = i
  · rw [hj, Function.update_self, hfree, Option.some_inj]
    constructor
    · intro he
      exact Or.inl ⟨he.symm, rfl⟩
    · intro h'
      rcases h' with he | he
      · exact he.1.symm
      · cases he
  · rw [Function.update_of_ne hj]
    constructor
    · exact Or.inr
    · intro h'
      rcases h' with he | he
      · exact absurd he.2 hj
      · exact he

/-- A place gives its token back. -/
theorem release [DecidableEq ι] [DecidableEq τ] (h : Owned held live) (hheld : held i = some t) :
    Owned (Function.update held i none) (live.filter (·.1 ≠ t)) := by
  refine ⟨h.nodup.sublist (List.filter_sublist.map _), fun j u => ?_⟩
  rw [List.mem_filter, decide_eq_true_iff, ← h.held_iff]
  by_cases hj : j = i
  · rw [hj, Function.update_self, hheld, Option.some_inj]
    constructor
    · intro he
      cases he
    · intro h'
      exact absurd h'.1.symm h'.2
  · rw [Function.update_of_ne hj]
    refine ⟨fun he => ⟨he, ?_⟩, And.left⟩
    rintro rfl
    exact hj (h.eq_of_held he hheld)

end Owned

end Esp32Shell.Library.Ownership
