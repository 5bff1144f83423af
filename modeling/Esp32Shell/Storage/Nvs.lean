import Esp32Shell.Library.CText
import Mathlib.Logic.Function.Basic

/-!
# Non-volatile storage

One namespace of NVS: a map from short keys to typed values, where reading a
value as another type fails. The calls that can fail take their outcome from a
list, and succeed when none is left; a failed call changes nothing.
-/
namespace Esp32Shell.Storage.Nvs

open Esp32Shell.Library.CText

inductive NumberType where
  | u8 | i8 | u16 | i16 | u32 | i32 | u64 | i64
  deriving DecidableEq, Repr

inductive NvsValue where
  | str (text : Text)
  | blob (bytes : List UInt8)
  | number (type : NumberType) (bits : UInt64)
  deriving DecidableEq

inductive NvsType where
  | str
  | blob
  | number (type : NumberType)
  deriving DecidableEq

def NvsValue.type : NvsValue → NvsType
  | .str _ => .str
  | .blob _ => .blob
  | .number type _ => .number type

/-- `NVS_KEY_NAME_MAX_SIZE - 1`. -/
def maxKeyLength : Nat := 15

/-- No key is longer than NVS allows, and no stored string holds its terminator. -/
structure Store where
  find : Text → Option NvsValue
  key_le : ∀ key, find key ≠ none → key.length ≤ maxKeyLength
  text_ok : ∀ key text, find key = some (.str text) → 0 ∉ text

namespace Store

theorem ext {s s' : Store} (h : ∀ key, s.find key = s'.find key) : s = s' := by
  obtain ⟨find, _, _⟩ := s
  obtain ⟨find', _, _⟩ := s'
  obtain rfl : find = find' := funext h
  rfl

def empty : Store where
  find := fun _ => none
  key_le := fun _ h => absurd rfl h
  text_ok := fun _ _ h => by cases h

def set (s : Store) (key : Text) (value : NvsValue) (hkey : key.length ≤ maxKeyLength)
    (hvalue : ∀ text, value = .str text → 0 ∉ text) : Store where
  find := Function.update s.find key (some value)
  key_le k h := by
    by_cases hk : k = key
    · rw [hk]
      exact hkey
    · rw [Function.update_of_ne hk] at h
      exact s.key_le k h
  text_ok k text h := by
    by_cases hk : k = key
    · rw [hk, Function.update_self] at h
      exact hvalue text (Option.some_inj.mp h)
    · rw [Function.update_of_ne hk] at h
      exact s.text_ok k text h

def erase (s : Store) (key : Text) : Store where
  find := Function.update s.find key none
  key_le k h := by
    by_cases hk : k = key
    · rw [hk, Function.update_self] at h
      exact absurd rfl h
    · rw [Function.update_of_ne hk] at h
      exact s.key_le k h
  text_ok k text h := by
    by_cases hk : k = key
    · rw [hk, Function.update_self] at h
      cases h
    · rw [Function.update_of_ne hk] at h
      exact s.text_ok k text h

/-- The effect of `nvs_set_str`. -/
def setStr (s : Store) (key value : Text) : Option Store :=
  if hkey : key.length ≤ maxKeyLength then
    some (s.set key (.str (cString value)) hkey fun text h => by
      cases h
      exact zero_notMem_cString value)
  else none

/-- The effect of `nvs_set_blob`. -/
def setBlob (s : Store) (key : Text) (bytes : List UInt8) : Option Store :=
  if hkey : key.length ≤ maxKeyLength then
    some (s.set key (.blob bytes) hkey fun text h => by cases h)
  else none

/-- `nvs_get_str` into a buffer of `capacity` bytes, the terminator included. -/
def getStr (s : Store) (key : Text) (capacity : Nat) : Option Text :=
  match s.find key with
  | some (.str text) => if text.length < capacity then some text else none
  | _ => none

/-- `nvs_get_blob` into a buffer of `capacity` bytes. -/
def getBlob (s : Store) (key : Text) (capacity : Nat) : Option (List UInt8) :=
  match s.find key with
  | some (.blob bytes) => if bytes.length ≤ capacity then some bytes else none
  | _ => none

theorem setStr_eq_some {s s' : Store} {key value : Text} (h : s.setStr key value = some s') :
    s'.find = Function.update s.find key (some (.str (cString value))) := by
  unfold setStr at h
  split at h
  · cases h
    rfl
  · cases h

theorem setBlob_eq_some {s s' : Store} {key : Text} {bytes : List UInt8}
    (h : s.setBlob key bytes = some s') :
    s'.find = Function.update s.find key (some (.blob bytes)) := by
  unfold setBlob at h
  split at h
  · cases h
    rfl
  · cases h

theorem getStr_eq_some_iff {s : Store} {key text : Text} {capacity : Nat} :
    s.getStr key capacity = some text ↔ s.find key = some (.str text) ∧ text.length < capacity := by
  unfold getStr
  cases s.find key with
  | none => simp
  | some value =>
    cases value with
    | str t =>
      simp only [Option.ite_none_right_eq_some, Option.some_inj, NvsValue.str.injEq]
      constructor
      · rintro ⟨hl, rfl⟩
        exact ⟨rfl, hl⟩
      · rintro ⟨rfl, hl⟩
        exact ⟨hl, rfl⟩
    | blob bytes => simp
    | number type bits => simp

theorem getBlob_eq_some_iff {s : Store} {key : Text} {bytes : List UInt8} {capacity : Nat} :
    s.getBlob key capacity = some bytes ↔
      s.find key = some (.blob bytes) ∧ bytes.length ≤ capacity := by
  unfold getBlob
  cases s.find key with
  | none => simp
  | some value =>
    cases value with
    | str t => simp
    | blob b =>
      simp only [Option.ite_none_right_eq_some, Option.some_inj, NvsValue.blob.injEq]
      constructor
      · rintro ⟨hl, rfl⟩
        exact ⟨rfl, hl⟩
      · rintro ⟨rfl, hl⟩
        exact ⟨hl, rfl⟩
    | number type bits => simp

theorem getStr_congr {s s' : Store} {key : Text} (h : s.find key = s'.find key) (capacity : Nat) :
    s.getStr key capacity = s'.getStr key capacity := by rw [getStr, getStr, h]

theorem getBlob_congr {s s' : Store} {key : Text} (h : s.find key = s'.find key) (capacity : Nat) :
    s.getBlob key capacity = s'.getBlob key capacity := by rw [getBlob, getBlob, h]

/-- Two stores with the same keys and types, and the same values under every key but the secret
ones. -/
structure Alike (secret : Text → Prop) (s s' : Store) : Prop where
  type : ∀ key, (s.find key).map NvsValue.type = (s'.find key).map NvsValue.type
  find : ∀ key, ¬ secret key → s.find key = s'.find key

theorem Alike.isSome {secret : Text → Prop} {s s' : Store} (h : Alike secret s s') (key : Text) :
    (s.find key).isSome = (s'.find key).isSome := by
  rw [← Option.isSome_map (f := NvsValue.type), h.type, Option.isSome_map]

/-- A string stands where the other store has one. -/
theorem Alike.str {secret : Text → Prop} {s s' : Store} (h : Alike secret s s') {key text : Text}
    (hs : s.find key = some (.str text)) : ∃ text', s'.find key = some (.str text') := by
  have htype := h.type key
  rw [hs] at htype
  obtain ⟨value, hvalue, hstr⟩ := Option.map_eq_some_iff.mp htype.symm
  cases value with
  | str text' => exact ⟨text', hvalue⟩
  | blob bytes => cases hstr
  | number type bits => cases hstr

theorem Alike.symm {secret : Text → Prop} {s s' : Store} (h : Alike secret s s') : Alike secret s' s where
  type key := (h.type key).symm
  find key hkey := (h.find key hkey).symm

end Store

/-! ### Calls that can fail -/

inductive EspErr where
  | ok | nvsNotFound | fail
  deriving DecidableEq, Repr

structure Flash where
  store : Store
  /-- The outcomes of the next calls. -/
  results : List Bool

/-- Every further call succeeds. -/
def Flash.Reliable (n : Flash) : Prop := n.results = []

/-- The outcome of one call and what it leaves. -/
abbrev Call := Flash → Bool × Flash

def fallible (effect : Store → Option Store) : Call := fun n =>
  match if n.results.headD true then effect n.store else none with
  | some store => (true, ⟨store, n.results.tail⟩)
  | none => (false, ⟨n.store, n.results.tail⟩)

/-- `a == ESP_OK && b == ESP_OK`. -/
def Call.and (a b : Call) : Call := fun n =>
  let first := a n
  if first.1 then b first.2 else first

def nvsOpen : Call := fallible some
def nvsCommit : Call := fallible some
def nvsSetStr (key value : Text) : Call := fallible fun s => s.setStr key value
def nvsSetBlob (key : Text) (bytes : List UInt8) : Call := fallible fun s => s.setBlob key bytes

def nvsEraseAll : Call := fallible fun _ => some .empty

def nvsEraseKey (key : Text) : Flash → EspErr × Flash := fun n =>
  if ¬ n.results.headD true then (.fail, ⟨n.store, n.results.tail⟩)
  else if n.store.find key = none then (.nvsNotFound, ⟨n.store, n.results.tail⟩)
  else (.ok, ⟨n.store.erase key, n.results.tail⟩)

theorem fallible_reliable {n : Flash} (h : n.Reliable) {effect : Store → Option Store} {s : Store}
    (he : effect n.store = some s) : fallible effect n = (true, ⟨s, []⟩) := by
  obtain ⟨store, results⟩ := n
  obtain rfl : results = [] := h
  replace he : effect store = some s := he
  simp [fallible, he]

theorem nvsOpen_eq (n : Flash) : nvsOpen n = (n.results.headD true, ⟨n.store, n.results.tail⟩) := by
  cases h : n.results.headD true <;> simp only [nvsOpen, fallible, h, if_true, Bool.false_eq_true, if_false]

theorem nvsCommit_eq (n : Flash) : nvsCommit n = (n.results.headD true, ⟨n.store, n.results.tail⟩) :=
  nvsOpen_eq n

theorem nvsOpen_reliable {n : Flash} (h : n.Reliable) : nvsOpen n = (true, ⟨n.store, []⟩) :=
  fallible_reliable h rfl

theorem Call.and_ok {a b : Call} {n m : Flash} (h : a n = (true, m)) : a.and b n = b m := by
  simp [Call.and, h]

theorem nvsSetStr_reliable {n : Flash} (h : n.Reliable) {key : Text} (hk : key.length ≤ maxKeyLength)
    (value : Text) : ∃ m, nvsSetStr key value n = (true, m) ∧ m.Reliable ∧
      m.store.find = Function.update n.store.find key (some (.str (cString value))) := by
  have hset : n.store.setStr key value ≠ none := by simp [Store.setStr, hk]
  obtain ⟨s, hs⟩ := Option.ne_none_iff_exists'.mp hset
  exact ⟨⟨s, []⟩, fallible_reliable h hs, rfl, Store.setStr_eq_some hs⟩

theorem nvsSetBlob_reliable {n : Flash} (h : n.Reliable) {key : Text}
    (hk : key.length ≤ maxKeyLength) (bytes : List UInt8) :
    ∃ m, nvsSetBlob key bytes n = (true, m) ∧ m.Reliable ∧
      m.store.find = Function.update n.store.find key (some (.blob bytes)) := by
  have hset : n.store.setBlob key bytes ≠ none := by simp [Store.setBlob, hk]
  obtain ⟨s, hs⟩ := Option.ne_none_iff_exists'.mp hset
  exact ⟨⟨s, []⟩, fallible_reliable h hs, rfl, Store.setBlob_eq_some hs⟩

/-- A key that is erased or was not there holds nothing afterwards. -/
theorem nvsEraseKey_gone {n : Flash} {key : Text}
    (h : (nvsEraseKey key n).1 = .ok ∨ (nvsEraseKey key n).1 = .nvsNotFound) :
    (nvsEraseKey key n).2.store.find = Function.update n.store.find key none := by
  unfold nvsEraseKey at h ⊢
  by_cases hfails : ¬ n.results.headD true = true
  · simp only [if_pos hfails, reduceCtorEq, or_self] at h
  · rw [if_neg hfails]
    by_cases hkey : n.store.find key = none
    · rw [if_pos hkey, ← hkey, Function.update_eq_self]
    · rw [if_neg hkey]
      rfl

theorem nvsEraseKey_reliable {n : Flash} (h : n.Reliable) (key : Text) :
    ((nvsEraseKey key n).1 = .ok ∨ (nvsEraseKey key n).1 = .nvsNotFound) ∧
      (nvsEraseKey key n).2.Reliable := by
  obtain ⟨store, results⟩ := n
  obtain rfl : results = [] := h
  by_cases hkey : store.find key = none <;> simp [nvsEraseKey, hkey, Flash.Reliable]

theorem and_commit {set : Call} {n m : Flash} (h : set n = (true, m)) (hr : m.Reliable) :
    set.and nvsCommit n = (true, ⟨m.store, []⟩) := by
  rw [Call.and_ok h]
  exact fallible_reliable hr rfl

end Esp32Shell.Storage.Nvs
