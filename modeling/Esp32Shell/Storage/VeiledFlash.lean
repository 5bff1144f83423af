import Esp32Shell.Storage.Nvs

/-!
# Two flashes behind a veil

A veil says what values of a key are not told apart. The calls of NVS, with the
same arguments on two flashes whose values it covers, succeed or fail together
and leave two such flashes.
-/
namespace Esp32Shell.Storage.VeiledFlash

open Esp32Shell.Library.CText
open Nvs

/-- A value is not told from itself, and a missing one is told from any other. -/
structure Veil where
  covers : Text → Option NvsValue → Option NvsValue → Prop
  refl : ∀ key v, covers key v v
  isSome : ∀ key v v', covers key v v' → v.isSome = v'.isSome

/-- The values of some keys are secret, but not whether there are any, nor their types. -/
def ofKeys (keys : List Text) : Veil where
  covers key v v' := v = v' ∨ key ∈ keys ∧ v.map NvsValue.type = v'.map NvsValue.type
  refl _ _ := .inl rfl
  isSome _ v v' h := by
    rcases h with rfl | ⟨-, htype⟩
    · rfl
    · rw [← Option.isSome_map (f := NvsValue.type), htype, Option.isSome_map]

variable {veil : Veil}

def Covered (veil : Veil) (s s' : Store) : Prop := ∀ key, veil.covers key (s.find key) (s'.find key)

theorem covered_ofKeys_iff {keys : List Text} {s s' : Store} :
    Covered (ofKeys keys) s s' ↔ Store.Alike (· ∈ keys) s s' := by
  constructor
  · intro h
    exact ⟨fun key => (h key).elim (fun he => by rw [he]) fun hsecret => hsecret.2,
      fun key hkey => (h key).resolve_right fun hsecret => hkey hsecret.1⟩
  · intro h key
    by_cases hkey : key ∈ keys
    · exact .inr ⟨hkey, h.type key⟩
    · exact .inl (h.find key hkey)

/-- The same change of one key in both stores. -/
theorem Covered.update {s s' t t' : Store} (h : Covered veil s s') {key : Text} {v : Option NvsValue}
    (ht : t.find = Function.update s.find key v) (ht' : t'.find = Function.update s'.find key v) :
    Covered veil t t' := by
  intro k
  rw [ht, ht']
  by_cases hk : k = key
  · rw [hk, Function.update_self, Function.update_self]
    exact veil.refl key v
  · rw [Function.update_of_ne hk, Function.update_of_ne hk]
    exact h k

/-- Two flashes whose calls answer alike. -/
structure SameFlash (veil : Veil) (n n' : Flash) : Prop where
  results : n.results = n'.results
  covered : Covered veil n.store n'.store

/-- The answer of a call does not tell the flashes apart, and they stay alike. -/
def BlindCall (veil : Veil) (c : Call) : Prop :=
  ∀ n n', SameFlash veil n n' → (c n).1 = (c n').1 ∧ SameFlash veil (c n).2 (c n').2

theorem blind_fallible {effect : Store → Option Store}
    (h : ∀ s s', Covered veil s s' → (effect s = none ∧ effect s' = none) ∨
      ∃ t t', effect s = some t ∧ effect s' = some t' ∧ Covered veil t t') :
    BlindCall veil (fallible effect) := by
  intro n n' hn
  obtain ⟨store, results⟩ := n
  obtain ⟨store', results'⟩ := n'
  obtain rfl : results = results' := hn.results
  simp only [fallible]
  cases results.headD true with
  | false => exact ⟨rfl, rfl, hn.covered⟩
  | true =>
    rcases h _ _ hn.covered with ⟨hs, hs'⟩ | ⟨t, t', hs, hs', ht⟩
    · simp only [if_true, hs, hs']
      exact ⟨trivial, rfl, hn.covered⟩
    · simp only [if_true, hs, hs']
      exact ⟨trivial, rfl, ht⟩

theorem blind_open : BlindCall veil nvsOpen := blind_fallible fun s s' h => .inr ⟨s, s', rfl, rfl, h⟩

theorem blind_commit : BlindCall veil nvsCommit := blind_open

theorem blind_eraseAll : BlindCall veil nvsEraseAll :=
  blind_fallible fun _ _ _ => .inr ⟨.empty, .empty, rfl, rfl, fun key => veil.refl key none⟩

theorem blind_setStr (key value : Text) : BlindCall veil (nvsSetStr key value) := by
  refine blind_fallible fun s s' h => ?_
  by_cases hle : key.length ≤ maxKeyLength
  · obtain ⟨t, ht⟩ : ∃ t, s.setStr key value = some t := ⟨_, dif_pos hle⟩
    obtain ⟨t', ht'⟩ : ∃ t', s'.setStr key value = some t' := ⟨_, dif_pos hle⟩
    exact .inr ⟨t, t', ht, ht', h.update (Store.setStr_eq_some ht) (Store.setStr_eq_some ht')⟩
  · exact .inl ⟨dif_neg hle, dif_neg hle⟩

theorem blind_setBlob (key : Text) (bytes : List UInt8) : BlindCall veil (nvsSetBlob key bytes) := by
  refine blind_fallible fun s s' h => ?_
  by_cases hle : key.length ≤ maxKeyLength
  · obtain ⟨t, ht⟩ : ∃ t, s.setBlob key bytes = some t := ⟨_, dif_pos hle⟩
    obtain ⟨t', ht'⟩ : ∃ t', s'.setBlob key bytes = some t' := ⟨_, dif_pos hle⟩
    exact .inr ⟨t, t', ht, ht', h.update (Store.setBlob_eq_some ht) (Store.setBlob_eq_some ht')⟩
  · exact .inl ⟨dif_neg hle, dif_neg hle⟩

theorem BlindCall.and {a b : Call} (ha : BlindCall veil a) (hb : BlindCall veil b) :
    BlindCall veil (a.and b) := by
  intro n n' hn
  obtain ⟨hanswer, hafter⟩ := ha n n' hn
  simp only [Call.and, hanswer]
  split
  · exact hb _ _ hafter
  · exact ⟨hanswer, hafter⟩

theorem same_erase {n n' : Flash} (h : SameFlash veil n n') (key : Text) :
    (nvsEraseKey key n).1 = (nvsEraseKey key n').1 ∧
      SameFlash veil (nvsEraseKey key n).2 (nvsEraseKey key n').2 := by
  obtain ⟨store, results⟩ := n
  obtain ⟨store', results'⟩ := n'
  obtain rfl : results = results' := h.results
  have hnone : store.find key = none ↔ store'.find key = none := by
    have hsome := veil.isSome key _ _ (h.covered key)
    rw [← Option.not_isSome_iff_eq_none, ← Option.not_isSome_iff_eq_none, hsome]
  simp only [nvsEraseKey, hnone]
  split
  · exact ⟨rfl, rfl, h.covered⟩
  split
  · exact ⟨rfl, rfl, h.covered⟩
  · exact ⟨rfl, rfl, h.covered.update rfl rfl⟩

end Esp32Shell.Storage.VeiledFlash
