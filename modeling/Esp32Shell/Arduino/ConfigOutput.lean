import Esp32Shell.Arduino.Esp32Services
import Esp32Shell.Shell.CommandLines

/-!
# What the configuration commands show

Two devices that differ in their secrets alone, and what `config-get`,
`config-list` and `wifi-profiles` print on both. The keys that hold secrets are
chosen by the writers; the redaction has a list of its own, without the keys of
the Wi-Fi passwords of the two slots.
-/
namespace Esp32Shell.Arduino.ConfigOutput

open Esp32Shell.Library.CText Esp32Shell.Library.Sha256
open Shell.CommandCore Shell.CommandTable Shell.CommandLines
open Storage.Nvs WifiService Preferences Esp32Services

variable {ρ : Type}

/-- The keys under which both images keep secrets. -/
def secretKeys : List Text :=
  [lit "wifi_password", lit "wifi_password_0", lit "wifi_password_1", lit "ssh_password",
   lit "ssh_pw_hash", lit "ssh_host_key"]

/-- The keys of `secretKeys` that are not redacted. -/
def slotPasswordKeys : List Text := [lit "wifi_password_0", lit "wifi_password_1"]

/-- Two devices whose preferences differ in secret values alone, and whose Wi-Fi services show the
same profiles. -/
structure Alike (d d' : Device ρ) : Prop where
  preferences : Store.Alike (· ∈ secretKeys) d.preferences_.store d'.preferences_.store
  wifi : ∀ slot, shownSsid d.wifiService slot = shownSsid d'.wifiService slot

theorem isSecretKey_iff (key : Text) : isSecretKey key = true ↔
    key ∈ [lit "wifi_password", lit "ssh_password", lit "ssh_pw_hash", lit "ssh_private_key",
      lit "ssh_host_key"] := by
  simp [isSecretKey, or_assoc]

/-- A secret key is redacted, unless it is that of the password of a slot. -/
theorem redacted_of_secret {key : Text} (h : key ∈ secretKeys) (hslot : key ∉ slotPasswordKeys) :
    isSecretKey key = true := by
  rw [isSecretKey_iff]
  simp only [secretKeys, slotPasswordKeys, List.mem_cons, List.not_mem_nil, or_false] at *
  rcases h with h | h | h | h | h | h
  · exact .inl h
  · exact absurd (.inl h) hslot
  · exact absurd (.inr h) hslot
  · exact .inr (.inl h)
  · exact .inr (.inr (.inl h))
  · exact .inr (.inr (.inr (.inr h)))

theorem not_redacted {key : Text} (h : key ∈ slotPasswordKeys) : isSecretKey key = false := by
  simp only [slotPasswordKeys, List.mem_cons, List.not_mem_nil, or_false] at h
  rcases h with rfl | rfl <;> decide

theorem Alike.isKey {d d' : Device ρ} (h : Alike d d') (key : Text) :
    isKey d.preferences_ key = isKey d'.preferences_ key := h.preferences.isSome key

theorem configList_lines {d d' : Device ρ} (h : Alike d d') :
    (configList d).lines = (configList d').lines := by
  simp only [configList, h.isKey]

theorem wifiProfiles_lines {d d' : Device ρ} (h : Alike d d') :
    (wifiProfiles d).lines = (wifiProfiles d').lines := by
  simp only [wifiProfiles, h.wifi]

/-- `config-get` shows the same exactly if it is not asked for the password of a slot that is
another one there. -/
theorem configGet_lines {d d' : Device ρ} (h : Alike d d') {key : Text} (hne : key ≠ []) :
    (configGet key d).lines = (configGet key d').lines ↔
      (key ∈ slotPasswordKeys → getString d.preferences_ key [] = getString d'.preferences_ key []) := by
  by_cases hsecret : isSecretKey key = true
  · rw [configGet, configGet, if_neg hne, if_neg hne, if_pos hsecret, if_pos hsecret]
    refine iff_of_true rfl fun hslot => ?_
    rw [not_redacted hslot] at hsecret
    cases hsecret
  by_cases hkey : isKey d.preferences_ key = true
  · have hkey' : isKey d'.preferences_ key = true := by rw [← h.isKey, hkey]
    have hlines : ∀ e : Device ρ, Preferences.isKey e.preferences_ key = true →
        (configGet key e).lines = [getString e.preferences_ key []] := fun e he => by
      rw [configGet, if_neg hne, if_neg hsecret, if_neg (not_not.mpr he)]
    rw [hlines d hkey, hlines d' hkey', List.singleton_inj]
    by_cases hslot : key ∈ slotPasswordKeys
    · rw [forall_prop_of_true hslot]
    · have hpublic : key ∉ secretKeys := fun hs => hsecret (redacted_of_secret hs hslot)
      exact iff_of_true (getString_congr (h.preferences.find key hpublic) []) fun hs => absurd hs hslot
  · have hkey' : ¬ isKey d'.preferences_ key = true := by rwa [← h.isKey]
    rw [configGet, configGet, if_neg hne, if_neg hne, if_neg hsecret, if_neg hsecret, if_pos hkey,
      if_pos hkey']
    refine iff_of_true rfl fun _ => ?_
    rw [getString_of_not_isKey (by simpa using hkey), getString_of_not_isKey (by simpa using hkey')]

/-- The three commands show the same on both devices, unless a line reads the password of a slot
that is another one there. -/
theorem config_output_alike (sha256 : List UInt8 → Digest) (others : DeviceServices (Device ρ))
    {d d' : Device ρ} (h : Alike d d') (input : List UInt8)
    (hw : word input = lit "config-get" ∨ word input = lit "config-list" ∨
      word input = lit "wifi-profiles") :
    (dispatch (services sha256 others) d (some input)).lines =
      (dispatch (services sha256 others) d' (some input)).lines ↔
    ∀ key ∈ slotPasswordKeys, route input = .invoke (.configGet key) →
      getString d.preferences_ key [] = getString d'.preferences_ key [] := by
  have hrefused : Refused input → ((dispatch (services sha256 others) d (some input)).lines =
      (dispatch (services sha256 others) d' (some input)).lines ↔
      ∀ key ∈ slotPasswordKeys, route input = .invoke (.configGet key) →
        getString d.preferences_ key [] = getString d'.preferences_ key []) := fun hr =>
    iff_of_true (hr.lines_eq (services sha256 others) d d') fun key _ hget =>
      absurd hget (hr.route_ne _)
  rcases hw with hw | hw | hw
  · rcases route_reads hw rfl with hr | ⟨hne, hroute⟩
    · exact hrefused hr
    · rw [lines_of_invoke hroute, lines_of_invoke hroute, hroute]
      refine (configGet_lines h hne).trans ?_
      constructor
      · intro hsame key hslot hkey
        cases hkey
        exact hsame hslot
      · exact fun hall hslot => hall _ hslot rfl
  · rcases route_calls hw rfl with hr | hroute
    · exact hrefused hr
    · rw [lines_of_invoke hroute, lines_of_invoke hroute, hroute]
      refine iff_of_true (configList_lines h) fun key _ => ?_
      simp
  · rcases route_calls hw rfl with hr | hroute
    · exact hrefused hr
    · rw [lines_of_invoke hroute, lines_of_invoke hroute, hroute]
      refine iff_of_true (wifiProfiles_lines h) fun key _ => ?_
      simp

/-- A device with the password of slot 0 in its preferences. -/
def provisioned (password : Text) (h : 0 ∉ password) : Device Unit where
  preferences_ := ⟨Store.empty.set (lit "wifi_password_0") (.str password) (by decide)
    (fun _ he => by cases he; exact h), []⟩
  wifiService := WifiService.initial
  driverCalls := []
  millis := 0
  rest := ()

theorem provisioned_alike {password password' : Text} (h : 0 ∉ password) (h' : 0 ∉ password') :
    Alike (provisioned password h) (provisioned password' h') := by
  refine ⟨⟨fun key => ?_, fun key hkey => ?_⟩, fun _ => rfl⟩
  · by_cases hk : key = lit "wifi_password_0"
    · simp [provisioned, Store.set, hk, NvsValue.type]
    · simp [provisioned, Store.set, hk]
  · have hne : key ≠ lit "wifi_password_0" := fun he => hkey (by rw [he]; decide)
    simp [provisioned, Store.set, hne]

def silent : DeviceServices (Device Unit) := ⟨fun _ d => ⟨d, [], true⟩⟩

theorem config_output_alike_listed :
    let d := provisioned (lit "first") (by decide)
    let d' := provisioned (lit "second") (by decide)
    (dispatch (services sha256 silent) d (some (lit "config-list"))).lines =
      (dispatch (services sha256 silent) d' (some (lit "config-list"))).lines ↔
    ∀ key ∈ slotPasswordKeys, route (lit "config-list") = .invoke (.configGet key) →
      getString d.preferences_ key [] = getString d'.preferences_ key [] :=
  config_output_alike sha256 silent (provisioned_alike _ _) _ (by decide)

/-- `config-get` prints the password of a slot. -/
theorem slot_password_shown :
    let d := provisioned (lit "first") (by decide)
    let d' := provisioned (lit "second") (by decide)
    Alike d d' ∧
    (dispatch (services sha256 silent) d (some (lit "config-get wifi_password_0"))).lines =
      [lit "first"] ∧
    (dispatch (services sha256 silent) d' (some (lit "config-get wifi_password_0"))).lines =
      [lit "second"] :=
  ⟨provisioned_alike _ _, by decide, by decide⟩

/-! ### From boot -/

theorem shownSsid_configure (s : Service) (slot : Fin maxProfiles) {ssid : Text} (hne : ssid ≠ [])
    (password : Text) (now : UInt32) (i : Fin maxProfiles) :
    shownSsid (configure s slot (some ssid) (some password) now).1 i =
      if i = slot then some (ssid.take 32) else shownSsid s i := by
  rw [configure]
  simp only [hne, ne_eq, not_false_eq_true, and_true, slot.isLt, dif_pos, Fin.eta]
  by_cases hi : i = slot
  · simp [shownSsid, setProfile, hi, Profile.copied]
  · simp [shownSsid, setProfile, hi]

def wifiPasswordKeys : List Text :=
  [lit "wifi_password", lit "wifi_password_0", lit "wifi_password_1"]

/-- The Wi-Fi passwords are set on both devices, or on neither. -/
def SamePasswordsSet (d d' : Device ρ) : Prop :=
  ∀ key ∈ wifiPasswordKeys,
    getString d.preferences_ key [] = [] ↔ getString d'.preferences_ key [] = []

theorem storedValue_eq_nil_iff (preferences : Flash) (slot : Nat) (key legacy : Text) :
    storedValue preferences slot key legacy = [] ↔
      getString preferences key [] = [] ∧ (slot = 0 → getString preferences legacy [] = []) := by
  by_cases hvalue : getString preferences key [] = []
  · by_cases hslot : slot = 0 <;> simp [storedValue, hvalue, hslot]
  · simp [storedValue, hvalue]

theorem slotKeys (slot : Fin maxProfiles) : ssidKey slot ∉ secretKeys ∧
    passwordKey slot ∈ wifiPasswordKeys := by
  revert slot
  decide

theorem loadSlot_alike {d d' : Device ρ} (h : Alike d d') (hset : SamePasswordsSet d d')
    (slot : Fin maxProfiles) : Alike (loadSlot d slot) (loadSlot d' slot) := by
  obtain ⟨hssidKey, hpasswordKey⟩ := slotKeys slot
  have hpublic : ∀ key, key ∉ secretKeys →
      getString d.preferences_ key [] = getString d'.preferences_ key [] := fun key hkey =>
    getString_congr (h.preferences.find key hkey) []
  have hssid : storedValue d.preferences_ slot (ssidKey slot) (lit "wifi_ssid") =
      storedValue d'.preferences_ slot (ssidKey slot) (lit "wifi_ssid") := by
    rw [storedValue, storedValue, hpublic _ hssidKey, hpublic (lit "wifi_ssid") (by decide)]
  have hpassword : storedValue d.preferences_ slot (passwordKey slot) (lit "wifi_password") = [] ↔
      storedValue d'.preferences_ slot (passwordKey slot) (lit "wifi_password") = [] := by
    rw [storedValue_eq_nil_iff, storedValue_eq_nil_iff, hset _ hpasswordKey,
      hset (lit "wifi_password") (by decide)]
  simp only [loadSlot, hssid]
  by_cases hload : storedValue d'.preferences_ slot (ssidKey slot) (lit "wifi_ssid") ≠ [] ∧
      storedValue d'.preferences_ slot (passwordKey slot) (lit "wifi_password") ≠ []
  · rw [if_pos hload, if_pos ⟨hload.1, fun he => hload.2 (hpassword.mp he)⟩]
    refine ⟨h.preferences, fun i => ?_⟩
    rw [shownSsid_configure _ slot hload.1, shownSsid_configure _ slot hload.1, h.wifi]
  · rw [if_neg hload, if_neg fun he => hload ⟨he.1, fun hn => he.2 (hpassword.mpr hn)⟩]
    exact h

/-- Two devices that differ in secrets alone when they boot show the same afterwards, as long as
each Wi-Fi password is set on both or on neither. -/
theorem loadWifi_alike {d d' : Device ρ} (h : Alike d d') (hset : SamePasswordsSet d d') :
    Alike (loadWifi d) (loadWifi d') := by
  have hfirst := loadSlot_alike h hset ⟨0, Nat.zero_lt_two⟩
  have hset' : SamePasswordsSet (loadSlot d 0) (loadSlot d' 0) := fun key hkey => by
    rw [loadSlot_preferences, loadSlot_preferences]
    exact hset key hkey
  exact loadSlot_alike hfirst hset' ⟨1, Nat.one_lt_two⟩

end Esp32Shell.Arduino.ConfigOutput
