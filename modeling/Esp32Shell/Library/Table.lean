import Mathlib.Data.List.Basic

/-!
# Tables of keyed slots

A slot is found under its key, as the first one with that key. A change of the
first slot with a key is seen under that key and under the key that the slot
gets, and under no other.
-/
namespace Esp32Shell.Library.Table

variable {κ σ : Type} [DecidableEq κ] (key : σ → κ)

def lookup (k : κ) (slots : List σ) : Option σ := slots.find? fun slot => key slot = k

/-- The first slot with the key is changed. -/
def change (k : κ) (f : σ → σ) (slots : List σ) : List σ :=
  slots.replaceF fun slot => if key slot = k then some (f slot) else none

/-- The number of slots with the key. -/
def tally (k : κ) (slots : List σ) : Nat := slots.countP fun slot => key slot = k

variable {key} {k k' : κ} {f : σ → σ} {slot : σ} {slots : List σ}

theorem lookup_cons_self (h : key slot = k) (slots : List σ) :
    lookup key k (slot :: slots) = some slot := List.find?_cons_of_pos (by simpa using h)

theorem lookup_cons_ne (h : key slot ≠ k) (slots : List σ) :
    lookup key k (slot :: slots) = lookup key k slots := List.find?_cons_of_neg (by simpa using h)

theorem lookup_eq_none_iff : lookup key k slots = none ↔ ∀ slot ∈ slots, key slot ≠ k := by
  simp [lookup]

theorem lookup_of_mem (hunique : (slots.map key).Nodup) (h : slot ∈ slots) :
    lookup key (key slot) slots = some slot := by
  induction slots with
  | nil => cases h
  | cons slot' slots ih =>
    rw [List.map_cons, List.nodup_cons] at hunique
    rcases List.mem_cons.mp h with rfl | h
    · exact lookup_cons_self rfl slots
    · have hne : key slot' ≠ key slot := fun he => hunique.1 (he ▸ List.mem_map_of_mem h)
      rw [lookup_cons_ne hne]
      exact ih hunique.2 h

theorem change_cons_self (h : key slot = k) (f : σ → σ) (slots : List σ) :
    change key k f (slot :: slots) = f slot :: slots := by simp [change, h]

theorem change_cons_ne (h : key slot ≠ k) (f : σ → σ) (slots : List σ) :
    change key k f (slot :: slots) = slot :: change key k f slots := by simp [change, h]

/-- The slots in front of the first one with the key are passed by. -/
theorem change_append {front : List σ} (h : ∀ slot ∈ front, key slot ≠ k) (f : σ → σ)
    (slots : List σ) : change key k f (front ++ slots) = front ++ change key k f slots := by
  induction front with
  | nil => rfl
  | cons slot front ih =>
    rw [List.cons_append, change_cons_ne (h slot List.mem_cons_self),
      ih fun slot' hslot => h slot' (List.mem_cons_of_mem slot hslot), List.cons_append]

@[simp] theorem length_change (k : κ) (f : σ → σ) (slots : List σ) :
    (change key k f slots).length = slots.length := by
  induction slots with
  | nil => rfl
  | cons slot slots ih =>
    by_cases h : key slot = k
    · rw [change_cons_self h, List.length_cons, List.length_cons]
    · rw [change_cons_ne h, List.length_cons, ih, List.length_cons]

theorem change_of_absent (h : lookup key k slots = none) (f : σ → σ) :
    change key k f slots = slots := by
  refine List.replaceF_of_forall_none fun slot hslot => ?_
  rw [if_neg (lookup_eq_none_iff.mp h slot hslot)]

/-- The changed slot is found under its new key, which was not in use. -/
theorem lookup_change_new (hf : ∀ slot, key slot = k → key (f slot) = k')
    (h : lookup key k' slots = none ∨ k' = k) :
    lookup key k' (change key k f slots) = (lookup key k slots).map f := by
  induction slots with
  | nil => rfl
  | cons slot slots ih =>
    by_cases hslot : key slot = k
    · rw [change_cons_self hslot, lookup_cons_self (hf slot hslot), lookup_cons_self hslot]
      rfl
    · have hne : key slot ≠ k' := by
        rcases h with h | rfl
        · exact lookup_eq_none_iff.mp h slot List.mem_cons_self
        · exact hslot
      rw [change_cons_ne hslot, lookup_cons_ne hne, lookup_cons_ne hslot]
      exact ih (h.imp_left fun h => by rwa [lookup_cons_ne hne] at h)

theorem lookup_change_self (hf : ∀ slot, key slot = k → key (f slot) = k) :
    lookup key k (change key k f slots) = (lookup key k slots).map f :=
  lookup_change_new hf (.inr rfl)

theorem lookup_change_ne (hne : k' ≠ k) (hf : ∀ slot, key slot = k → key (f slot) ≠ k') :
    lookup key k' (change key k f slots) = lookup key k' slots := by
  induction slots with
  | nil => rfl
  | cons slot slots ih =>
    by_cases hslot : key slot = k
    · rw [change_cons_self hslot, lookup_cons_ne (hf slot hslot),
        lookup_cons_ne fun h => hne (h.symm.trans hslot)]
    · rw [change_cons_ne hslot]
      by_cases hk : key slot = k'
      · rw [lookup_cons_self hk, lookup_cons_self hk]
      · rw [lookup_cons_ne hk, lookup_cons_ne hk, ih]

theorem tally_cons_self (h : key slot = k) (slots : List σ) :
    tally key k (slot :: slots) = tally key k slots + 1 := List.countP_cons_of_pos (by simpa using h)

theorem tally_cons_ne (h : key slot ≠ k) (slots : List σ) :
    tally key k (slot :: slots) = tally key k slots := List.countP_cons_of_neg (by simpa using h)

theorem tally_change_kept (hf : ∀ slot, key slot = k → key (f slot) = k) :
    tally key k' (change key k f slots) = tally key k' slots := by
  induction slots with
  | nil => rfl
  | cons slot slots ih =>
    by_cases hslot : key slot = k
    · rw [change_cons_self hslot]
      by_cases hk : k = k'
      · rw [tally_cons_self ((hf slot hslot).trans hk), tally_cons_self (hslot.trans hk)]
      · rw [tally_cons_ne (by rwa [hf slot hslot]), tally_cons_ne (by rwa [hslot])]
    · rw [change_cons_ne hslot]
      by_cases hk : key slot = k'
      · rw [tally_cons_self hk, tally_cons_self hk, ih]
      · rw [tally_cons_ne hk, tally_cons_ne hk, ih]

/-- One slot less has the key that the changed slot had. -/
theorem tally_change_moved (h : lookup key k slots ≠ none)
    (hf : ∀ slot, key slot = k → key (f slot) ≠ k) :
    tally key k (change key k f slots) + 1 = tally key k slots := by
  induction slots with
  | nil => exact absurd rfl h
  | cons slot slots ih =>
    by_cases hslot : key slot = k
    · rw [change_cons_self hslot, tally_cons_ne (hf slot hslot), tally_cons_self hslot]
    · rw [lookup_cons_ne hslot] at h
      rw [change_cons_ne hslot, tally_cons_ne hslot, tally_cons_ne hslot, ih h]

end Esp32Shell.Library.Table
