import Esp32Shell.Storage.Nvs

/-!
# Preferences

The key-value store of the Arduino core, which is one NVS namespace. Every
change is committed at once.
-/
namespace Esp32Shell.Arduino.Preferences

open Esp32Shell.Library.CText
open Storage.Nvs

def isKey (preferences : Flash) (key : Text) : Bool := (preferences.store.find key).isSome

/-- The default stands for a missing value and for a value of another type. -/
def getString (preferences : Flash) (key defaultValue : Text) : Text :=
  match preferences.store.find key with
  | some (.str text) => text
  | _ => defaultValue

def putString (key value : Text) : Call := (nvsSetStr key value).and nvsCommit

def putBytes (key : Text) (bytes : List UInt8) : Call := (nvsSetBlob key bytes).and nvsCommit

def remove (key : Text) : Call :=
  Call.and (fun n => let erased := nvsEraseKey key n; (erased.1 = .ok, erased.2)) nvsCommit

def clear : Call := nvsEraseAll.and nvsCommit

theorem getString_congr {p p' : Flash} {key : Text} (h : p.store.find key = p'.store.find key)
    (defaultValue : Text) : getString p key defaultValue = getString p' key defaultValue := by
  rw [getString, getString, h]

theorem getString_of_not_isKey {p : Flash} {key : Text} (h : isKey p key = false)
    (defaultValue : Text) : getString p key defaultValue = defaultValue := by
  have hnone : p.store.find key = none := Option.not_isSome_iff_eq_none.mp (by simpa [isKey] using h)
  rw [getString, hnone]

/-! What a call leaves as long as every call of NVS succeeds. -/

theorem putString_reliable {n : Flash} (h : n.Reliable) {key : Text} (hk : key.length ≤ maxKeyLength)
    (value : Text) : (putString key value n).2.Reliable ∧ (putString key value n).2.store.find =
      Function.update n.store.find key (some (.str (cString value))) := by
  obtain ⟨m, hset, hm, hfind⟩ := nvsSetStr_reliable h hk value
  rw [putString, and_commit hset hm]
  exact ⟨rfl, hfind⟩

theorem putBytes_reliable {n : Flash} (h : n.Reliable) {key : Text} (hk : key.length ≤ maxKeyLength)
    (bytes : List UInt8) : (putBytes key bytes n).2.Reliable ∧ (putBytes key bytes n).2.store.find =
      Function.update n.store.find key (some (.blob bytes)) := by
  obtain ⟨m, hset, hm, hfind⟩ := nvsSetBlob_reliable h hk bytes
  rw [putBytes, and_commit hset hm]
  exact ⟨rfl, hfind⟩

theorem remove_reliable {n : Flash} (h : n.Reliable) (key : Text) : (remove key n).2.Reliable ∧
    (remove key n).2.store.find = Function.update n.store.find key none := by
  obtain ⟨store, results⟩ := n
  obtain rfl : results = [] := h
  by_cases hkey : store.find key = none
  · have hsame : Function.update store.find key none = store.find := by
      rw [← hkey, Function.update_eq_self]
    have hdone : remove key ⟨store, []⟩ = (false, ⟨store, []⟩) := by
      simp [remove, Call.and, nvsEraseKey, hkey]
    rw [hdone, hsame]
    exact ⟨rfl, rfl⟩
  · have hdone : remove key ⟨store, []⟩ = (true, ⟨store.erase key, []⟩) := by
      simp [remove, Call.and, nvsEraseKey, hkey, nvsCommit, fallible]
    rw [hdone]
    exact ⟨rfl, rfl⟩

theorem clear_reliable {n : Flash} (h : n.Reliable) : (clear n).2.Reliable ∧
    (clear n).2.store.find = fun _ => none := by
  have herase : nvsEraseAll n = (true, ⟨.empty, []⟩) := fallible_reliable h rfl
  rw [clear, and_commit herase rfl]
  exact ⟨rfl, rfl⟩

end Esp32Shell.Arduino.Preferences
