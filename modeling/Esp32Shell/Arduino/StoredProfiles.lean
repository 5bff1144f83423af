import Esp32Shell.Arduino.Reboot

/-!
# The stored profiles

The six keys of the Wi-Fi profiles as two pairs and a legacy SSID and password.
Every change of the store is one of this model, and a store that is reached from
an empty one never holds half a pair.
-/
namespace Esp32Shell.Arduino.StoredProfiles

open Esp32Shell.Library.CText Esp32Shell.Library.Sha256
open Shell.CommandCore Shell.CommandLines
open Storage.Nvs WifiService WifiRuns Preferences Esp32Services Changes Reboot
open Idf.WifiProfiles (setEntries profileEntries)

variable {ρ : Type}

structure Stored where
  pair : Fin 2 → Option (Text × Text)
  ssid : Option Text
  password : Option Text

def Stored.empty : Stored := ⟨fun _ => none, none, none⟩

/-- A pair is stored in its slot, and for slot 0 as the legacy values too. -/
def Stored.setPair (m : Stored) (slot : Fin 2) (pair : Option (Text × Text)) : Stored where
  pair := Function.update m.pair slot pair
  ssid := if slot.val = 0 then pair.map Prod.fst else m.ssid
  password := if slot.val = 0 then pair.map Prod.snd else m.password

/-- The stored profiles after a change. -/
def Stored.change (m : Stored) : Change → Stored
  | .profile slot ssid password => m.setPair slot (some (ssid, password))
  | .clearProfile slot => m.setPair slot none
  | .text key value =>
    { m with
      ssid := if key = lit "wifi_ssid" then some value else m.ssid
      password := if key = lit "wifi_password" then some value else m.password }
  | .digest _ => m
  | .hostKey _ => m
  | .clear => .empty

/-- The profile of a slot; slot 0 without a pair takes the legacy values, if both are there. -/
def Stored.profile (m : Stored) (slot : Fin 2) : Option (Text × Text) :=
  (m.pair slot).or
    (if slot.val = 0 then m.ssid.bind fun ssid => m.password.map fun password => (ssid, password)
      else none)

/-- What the stored values say of the six keys. -/
structure Holds (find : Find) (m : Stored) : Prop where
  ssid : ∀ slot : Fin 2, find (ssidKey slot) = (m.pair slot).map fun p => .str p.1
  password : ∀ slot : Fin 2, find (passwordKey slot) = (m.pair slot).map fun p => .str p.2
  legacySsid : find (lit "wifi_ssid") = m.ssid.map .str
  legacyPassword : find (lit "wifi_password") = m.password.map .str

/-- No half is empty, the SSID of a pair fits, and slot 0 is never without its legacy values. -/
structure Whole (m : Stored) : Prop where
  pair : ∀ slot ssid password, m.pair slot = some (ssid, password) →
    ssid ≠ [] ∧ password ≠ [] ∧ ssid.length ≤ 32
  ssid : m.ssid ≠ some []
  password : m.password ≠ some []
  legacy : m.pair 0 ≠ none → m.ssid ≠ none ∧ m.password ≠ none

/-! ### Changes -/

theorem legacyKeys_mem : lit "wifi_ssid" ∈ profileKeys 0 ∧ lit "wifi_password" ∈ profileKeys 0 ∧
    lit "wifi_ssid" ∉ profileKeys 1 ∧ lit "wifi_password" ∉ profileKeys 1 := by decide

theorem slotKeys_mem (slot : Fin 2) : ssidKey slot ∈ profileKeys slot ∧
    passwordKey slot ∈ profileKeys slot := by
  revert slot
  decide

@[simp] theorem Stored.setPair_self (m : Stored) (slot : Fin 2) (pair : Option (Text × Text)) :
    (m.setPair slot pair).pair slot = pair := Function.update_self _ _ _

theorem Stored.setPair_of_ne (m : Stored) {i slot : Fin 2} (h : i ≠ slot)
    (pair : Option (Text × Text)) : (m.setPair slot pair).pair i = m.pair i :=
  Function.update_of_ne h _ _

/-- A change that sets the keys of one slot, to the halves of a pair or to nothing. -/
theorem Holds.setPair {find find' : Find} {m : Stored} (h : Holds find m) {slot : Fin 2}
    {pair : Option (Text × Text)}
    (hssid : find' (ssidKey slot) = pair.map fun p => .str p.1)
    (hpassword : find' (passwordKey slot) = pair.map fun p => .str p.2)
    (hlegacy : slot.val = 0 → find' (lit "wifi_ssid") = (pair.map fun p => .str p.1) ∧
      find' (lit "wifi_password") = pair.map fun p => .str p.2)
    (hother : ∀ key, key ∉ profileKeys slot → find' key = find key) :
    Holds find' (m.setPair slot pair) := by
  have hkeys : ∀ i, i ≠ slot → find' (ssidKey i) = find (ssidKey i) ∧
      find' (passwordKey i) = find (passwordKey i) := fun i hi =>
    ⟨hother _ (profileKeys_disjoint (Ne.symm hi) _ (slotKeys_mem i).1),
      hother _ (profileKeys_disjoint (Ne.symm hi) _ (slotKeys_mem i).2)⟩
  have hone : slot.val ≠ 0 → slot = 1 := by omega
  refine ⟨fun i => ?_, fun i => ?_, ?_, ?_⟩
  · by_cases hi : i = slot
    · rw [hi, hssid, Stored.setPair_self]
    · rw [(hkeys i hi).1, h.ssid, Stored.setPair_of_ne m hi]
  · by_cases hi : i = slot
    · rw [hi, hpassword, Stored.setPair_self]
    · rw [(hkeys i hi).2, h.password, Stored.setPair_of_ne m hi]
  · by_cases hzero : slot.val = 0
    · simp only [Stored.setPair, if_pos hzero, (hlegacy hzero).1, Option.map_map]
      rfl
    · have hnot : lit "wifi_ssid" ∉ profileKeys slot := by
        rw [hone hzero]
        exact legacyKeys_mem.2.2.1
      simp only [Stored.setPair, if_neg hzero, hother _ hnot, h.legacySsid]
  · by_cases hzero : slot.val = 0
    · simp only [Stored.setPair, if_pos hzero, (hlegacy hzero).2, Option.map_map]
      rfl
    · have hnot : lit "wifi_password" ∉ profileKeys slot := by
        rw [hone hzero]
        exact legacyKeys_mem.2.2.2
      simp only [Stored.setPair, if_neg hzero, hother _ hnot, h.legacyPassword]

/-- A change of a key that is none of the six. -/
theorem Holds.other {find find' : Find} {m : Stored} (h : Holds find m)
    (hother : ∀ slot : Fin 2, ∀ key ∈ profileKeys slot, find' key = find key) : Holds find' m where
  ssid slot := (hother slot _ (slotKeys_mem slot).1).trans (h.ssid slot)
  password slot := (hother slot _ (slotKeys_mem slot).2).trans (h.password slot)
  legacySsid := (hother 0 _ legacyKeys_mem.1).trans h.legacySsid
  legacyPassword := (hother 0 _ legacyKeys_mem.2.1).trans h.legacyPassword

theorem Holds.profile (sha256 : List UInt8 → Digest) {find : Find} {m : Stored} (h : Holds find m)
    (slot : Fin 2) {ssid password : Text} (hs : 0 ∉ ssid) (hp : 0 ∉ password) :
    Holds ((Change.profile slot ssid password).store sha256 find)
      (m.setPair slot (some (ssid, password))) := by
  obtain ⟨hssidKey, hpasswordKey⟩ := keys_eq slot
  apply h.setPair
  · rw [hssidKey]
    exact store_profile_mem sha256 find slot (by simp [profileEntries]) hs
  · rw [hpasswordKey]
    exact store_profile_mem sha256 find slot (by simp [profileEntries]) hp
  · intro hzero
    exact ⟨store_profile_mem sha256 find slot (by simp [profileEntries, hzero]) hs,
      store_profile_mem sha256 find slot (by simp [profileEntries, hzero]) hp⟩
  · intro key hkey
    exact store_profile_notMem sha256 find ssid password hkey

theorem Holds.clearProfile (sha256 : List UInt8 → Digest) {find : Find} {m : Stored} (h : Holds find m)
    (slot : Fin 2) : Holds ((Change.clearProfile slot).store sha256 find) (m.setPair slot none) := by
  obtain ⟨hssid, hpassword⟩ := slotKeys_mem slot
  simp only [Change.store]
  apply h.setPair
  · rw [eraseEntries_eq, if_pos hssid, Option.map_none]
  · rw [eraseEntries_eq, if_pos hpassword, Option.map_none]
  · intro hzero
    rw [eraseEntries_eq, eraseEntries_eq, hzero, if_pos legacyKeys_mem.1, if_pos legacyKeys_mem.2.1]
    exact ⟨rfl, rfl⟩
  · intro key hkey
    rw [eraseEntries_eq, if_neg hkey]

/-- A text is stored under a legacy key, or under one that no profile has. -/
theorem Holds.text (sha256 : List UInt8 → Digest) {find : Find} {m : Stored} (h : Holds find m)
    {key : Text} (hkey : key = lit "wifi_ssid" ∨ key = lit "wifi_password" ∨ key = lit "ssh_username")
    (value : Text) : Holds ((Change.text key value).store sha256 find) (m.change (.text key value)) := by
  have hslot : ∀ slot : Fin 2, ssidKey slot ≠ key ∧ passwordKey slot ≠ key := by
    rcases hkey with rfl | rfl | rfl <;> decide
  refine ⟨fun slot => ?_, fun slot => ?_, ?_, ?_⟩
  · exact (Function.update_of_ne (hslot slot).1 _ _).trans (h.ssid slot)
  · exact (Function.update_of_ne (hslot slot).2 _ _).trans (h.password slot)
  · simp only [Change.store, Stored.change, Function.update_apply, eq_comm, h.legacySsid]
    split_ifs <;> rfl
  · simp only [Change.store, Stored.change, Function.update_apply, eq_comm, h.legacyPassword]
    split_ifs <;> rfl

theorem sshKeys_other : ∀ slot : Fin 2, ∀ key ∈ profileKeys slot,
    key ≠ lit "ssh_password" ∧ key ≠ lit "ssh_pw_hash" ∧ key ≠ lit "ssh_host_key" := by decide

theorem Holds.change (sha256 : List UInt8 → Digest) {find : Find} {m : Stored} (h : Holds find m)
    {c : Change} (hc : c.Proper) : Holds (c.store sha256 find) (m.change c) := by
  cases c with
  | profile slot ssid password =>
    obtain ⟨-, -, hs0, hp0⟩ := hc
    exact h.profile sha256 slot hs0 hp0
  | clearProfile slot => exact h.clearProfile sha256 slot
  | text key value => exact h.text sha256 hc.1 value
  | digest password =>
    apply h.other
    intro slot key hkey
    obtain ⟨hplain, hhash, -⟩ := sshKeys_other slot key hkey
    exact (Function.update_of_ne hplain _ _).trans (Function.update_of_ne hhash _ _)
  | hostKey bytes =>
    apply h.other
    intro slot key hkey
    exact Function.update_of_ne (sshKeys_other slot key hkey).2.2 _ _
  | clear => exact ⟨fun _ => rfl, fun _ => rfl, rfl, rfl⟩

theorem whole_empty : Whole .empty :=
  ⟨by simp [Stored.empty], by simp [Stored.empty], by simp [Stored.empty], by simp [Stored.empty]⟩

theorem Whole.setPair {m : Stored} (h : Whole m) (slot : Fin 2) {pair : Option (Text × Text)}
    (hpair : ∀ ssid password, pair = some (ssid, password) →
      ssid ≠ [] ∧ password ≠ [] ∧ ssid.length ≤ 32) : Whole (m.setPair slot pair) := by
  have hone : slot.val ≠ 0 → slot = 1 := by omega
  refine ⟨fun i ssid password hi => ?_, ?_, ?_, ?_⟩
  · by_cases hslot : i = slot
    · rw [hslot, Stored.setPair_self] at hi
      exact hpair ssid password hi
    · rw [Stored.setPair_of_ne m hslot] at hi
      exact h.pair i ssid password hi
  · by_cases hzero : slot.val = 0
    · simp only [Stored.setPair, if_pos hzero]
      intro hempty
      obtain ⟨p, hp, hnil⟩ := Option.map_eq_some_iff.mp hempty
      exact (hpair p.1 p.2 hp).1 hnil
    · simp only [Stored.setPair, if_neg hzero]
      exact h.ssid
  · by_cases hzero : slot.val = 0
    · simp only [Stored.setPair, if_pos hzero]
      intro hempty
      obtain ⟨p, hp, hnil⟩ := Option.map_eq_some_iff.mp hempty
      exact (hpair p.1 p.2 hp).2.1 hnil
    · simp only [Stored.setPair, if_neg hzero]
      exact h.password
  · by_cases hzero : slot.val = 0
    · obtain rfl : slot = 0 := Fin.ext hzero
      rw [Stored.setPair_self]
      intro hsome
      simpa [Stored.setPair] using hsome
    · rw [hone hzero, Stored.setPair_of_ne m (by decide)]
      exact h.legacy

theorem Whole.change {m : Stored} (h : Whole m) {c : Change} (hc : c.Proper) : Whole (m.change c) := by
  cases c with
  | profile slot ssid password =>
    obtain ⟨⟨hssid, hpassword⟩, hle, -, -⟩ := hc
    apply h.setPair
    intro s p hp
    cases hp
    exact ⟨hssid, hpassword, hle⟩
  | clearProfile slot =>
    apply h.setPair
    intro s p hp
    cases hp
  | text key value =>
    obtain ⟨-, hvalue, -⟩ := hc
    refine ⟨h.pair, ?_, ?_, fun hpair => ?_⟩
    · simp only [Stored.change]
      split_ifs
      · simpa using hvalue
      · exact h.ssid
    · simp only [Stored.change]
      split_ifs
      · simpa using hvalue
      · exact h.password
    · obtain ⟨hssid, hpassword⟩ := h.legacy hpair
      simp only [Stored.change]
      split_ifs <;> simp [hssid, hpassword]
  | digest password => exact h
  | hostKey bytes => exact h
  | clear => exact whole_empty

/-! ### What is loaded -/

theorem textAt_map (find : Find) {key : Text} {value : Option Text} (h : find key = value.map .str) :
    textAt find key = value.getD [] := by
  rw [textAt, h]
  cases value <;> rfl

/-- The Arduino image loads the profiles of the model. -/
theorem loaded_of_holds {find : Find} {m : Stored} (hm : Whole m) (h : Holds find m) (slot : Fin 2) :
    loaded find slot = profileOf (m.profile slot) := by
  have hssid := h.ssid slot
  have hpassword := h.password slot
  cases hp : m.pair slot with
  | some p =>
    obtain ⟨hs, hq, -⟩ := hm.pair slot p.1 p.2 hp
    rw [hp, Option.map_some] at hssid hpassword
    rw [Stored.profile, hp, Option.some_or]
    exact loaded_of_texts hssid hs hpassword hq
  | none =>
    rw [hp, Option.map_none] at hssid hpassword
    have hs : textAt find (ssidKey slot) = [] := by rw [textAt, hssid]
    have hq : textAt find (passwordKey slot) = [] := by rw [textAt, hpassword]
    by_cases hzero : slot.val = 0
    · have hlegacySsid : textOf find slot (ssidKey slot) (lit "wifi_ssid") = m.ssid.getD [] := by
        rw [textOf, if_pos ⟨hs, hzero⟩, textAt_map find h.legacySsid]
      have hlegacyPassword : textOf find slot (passwordKey slot) (lit "wifi_password") =
          m.password.getD [] := by
        rw [textOf, if_pos ⟨hq, hzero⟩, textAt_map find h.legacyPassword]
      have hne := hm.ssid
      have hne' := hm.password
      simp only [loaded, hlegacySsid, hlegacyPassword, Stored.profile, hp, if_pos hzero, Option.none_or]
      cases hms : m.ssid with
      | none => simp [profileOf]
      | some ssid =>
        cases hmp : m.password with
        | none => simp [profileOf]
        | some password =>
          have hssid_ne : ssid ≠ [] := fun he => hne (by rw [hms, he])
          have hpassword_ne : password ≠ [] := fun he => hne' (by rw [hmp, he])
          simp [profileOf, hssid_ne, hpassword_ne]
    · have hnone : textOf find slot (ssidKey slot) (lit "wifi_ssid") = [] := by
        rw [textOf, if_neg fun hz => hzero hz.2, hs]
      simp [loaded, hnone, Stored.profile, hp, hzero, profileOf]

/-- The model after lines that start from an empty store. -/
def storedProfiles (lines : List (List UInt8)) : Stored :=
  (lines.filterMap changeOf).foldl Stored.change .empty

theorem storedProfiles_snoc (lines : List (List UInt8)) (input : List UInt8) :
    storedProfiles (lines ++ [input]) =
      (changeOf input).elim (storedProfiles lines) (storedProfiles lines).change := by
  rw [storedProfiles, List.filterMap_append, List.foldl_append, ← storedProfiles]
  cases h : changeOf input <;> simp [h]

/-- Only the accepted lines matter. -/
theorem storedProfiles_filter (lines : List (List UInt8)) :
    storedProfiles (lines.filter fun input => (changeOf input).isSome) = storedProfiles lines := by
  rw [storedProfiles, filterMap_accepted, ← storedProfiles]

/-- After any lines the store is one of the model. -/
theorem storedAfter_holds (sha256 : List UInt8 → Digest) {lines : List (List UInt8)}
    (hlines : ∀ input ∈ lines, word input ∈ changing) :
    Whole (storedProfiles lines) ∧
      Holds (storedAfter sha256 (fun _ => none) lines) (storedProfiles lines) := by
  induction lines using List.reverseRecOn with
  | nil => exact ⟨whole_empty, fun _ => rfl, fun _ => rfl, rfl, rfl⟩
  | append_singleton lines input ih =>
    obtain ⟨hwhole, hholds⟩ := ih fun x hx => hlines x (List.mem_append_left _ hx)
    have hw := hlines input (by simp)
    rw [storedProfiles_snoc, storedAfter_snoc]
    cases hc : changeOf input with
    | none => exact ⟨hwhole, hholds⟩
    | some c =>
      have hproper := changeOf_proper hw hc
      exact ⟨hwhole.change hproper, hholds.change sha256 hproper⟩

/-- A device that has been given lines since it was flashed holds the model of these lines. -/
theorem afterLines_holds (sha256 : List UInt8 → Digest) (others : DeviceServices (Device ρ))
    {d : Device ρ} (hr : d.preferences_.Reliable) (hempty : d.preferences_.store = .empty)
    {lines : List (List UInt8)} (hlines : ∀ input ∈ lines, word input ∈ changing) :
    let after := afterLines (services sha256 others) d lines
    after.preferences_.Reliable ∧ Whole (storedProfiles lines) ∧
      Holds after.preferences_.store.find (storedProfiles lines) := by
  obtain ⟨hreliable, hstore⟩ := afterLines_store sha256 others hr hlines
  obtain ⟨hwhole, hholds⟩ := storedAfter_holds sha256 hlines
  rw [hempty] at hstore
  exact ⟨hreliable, hwhole, hstore ▸ hholds⟩

end Esp32Shell.Arduino.StoredProfiles
