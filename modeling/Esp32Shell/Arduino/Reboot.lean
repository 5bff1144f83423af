import Esp32Shell.Arduino.Changes
import Esp32Shell.Library.Run

/-!
# Profiles across a reboot

The profiles in memory against those that `loadWifi` would find in the store.
Loading commutes with every change of the three commands, whatever half-filled
profiles the store was inherited with.
-/
namespace Esp32Shell.Arduino.Reboot

open Esp32Shell.Library.CText Esp32Shell.Library.Run Esp32Shell.Library.Sha256
open Shell.CommandCore Shell.CommandTable Shell.CommandLines
open Storage.Nvs WifiService WifiRuns Preferences Esp32Services Changes
open Idf.WifiProfiles (setEntries profileEntries)

variable {ρ : Type}

/-- What happens to a running device: a line, or a turn of the main loop. -/
inductive Event where
  | line (input : List UInt8)
  | loop (now : UInt32) (driver : Driver)

def happen (services : DeviceServices (Device ρ)) (d : Device ρ) : Event → Device ρ
  | .line input => (dispatch services d (some input)).device
  | .loop now driver => { d with millis := now }.wifi (tick d.wifiService now driver)

/-- The device after a restart of its services. -/
def reboot (d : Device ρ) : Device ρ := loadWifi { d with wifiService := initial }

/-! ### What is loaded -/

/-- The text under a key. -/
def textAt (find : Find) (key : Text) : Text :=
  match find key with
  | some (.str text) => text
  | _ => []

def textOf (find : Find) (slot : Nat) (key legacy : Text) : Text :=
  if textAt find key = [] ∧ slot = 0 then textAt find legacy else textAt find key

/-- The profile that is loaded from stored values. -/
def loaded (find : Find) (slot : Fin maxProfiles) : Profile :=
  let ssid := textOf find slot (ssidKey slot) (lit "wifi_ssid")
  let password := textOf find slot (passwordKey slot) (lit "wifi_password")
  if ssid ≠ [] ∧ password ≠ [] then .copied ssid password else .cleared

theorem loadSlot_profiles (d : Device ρ) (i slot : Fin maxProfiles) :
    (loadSlot d i).wifiService.profiles_ slot =
      if i = slot ∧ (loaded d.preferences_.store.find i).enabled = true then
        loaded d.preferences_.store.find i
      else d.wifiService.profiles_ slot := by
  by_cases hload : textOf d.preferences_.store.find i (ssidKey i) (lit "wifi_ssid") ≠ [] ∧
      textOf d.preferences_.store.find i (passwordKey i) (lit "wifi_password") ≠ []
  · have hslot : loadSlot d i = { d with wifiService := (configure d.wifiService i
        (some (textOf d.preferences_.store.find i (ssidKey i) (lit "wifi_ssid")))
        (some (textOf d.preferences_.store.find i (passwordKey i) (lit "wifi_password")))
        d.millis).1 } := if_pos hload
    have hloaded : loaded d.preferences_.store.find i =
        .copied (textOf d.preferences_.store.find i (ssidKey i) (lit "wifi_ssid"))
          (textOf d.preferences_.store.find i (passwordKey i) (lit "wifi_password")) := if_pos hload
    rw [hslot, hloaded, configure_profiles, configured]
    by_cases hi : i = slot
    · rw [if_pos ⟨congrArg Fin.val hi, hload.1⟩, if_pos ⟨hi, rfl⟩]
      rfl
    · rw [if_neg fun h => hi (Fin.ext h.1), if_neg fun h => hi h.1]
      rfl
  · have hslot : loadSlot d i = d := if_neg hload
    have hloaded : loaded d.preferences_.store.find i = .cleared := if_neg hload
    rw [hslot, hloaded, if_neg fun h => Bool.false_ne_true h.2]

theorem loaded_of_disabled {find : Find} {slot : Fin maxProfiles}
    (h : ¬ (loaded find slot).enabled = true) : loaded find slot = .cleared := by
  simp only [loaded] at h ⊢
  split_ifs at h ⊢ with hload
  · exact absurd rfl h
  · rfl

theorem reboot_profiles (d : Device ρ) (slot : Fin maxProfiles) :
    (reboot d).wifiService.profiles_ slot = loaded d.preferences_.store.find slot := by
  have hboot : reboot d = loadSlot (loadSlot { d with wifiService := initial } (0 : Fin maxProfiles))
      (1 : Fin maxProfiles) := rfl
  have hloads : ∀ i : Fin maxProfiles, (if i = i ∧ (loaded d.preferences_.store.find i).enabled = true then
      loaded d.preferences_.store.find i else .cleared) = loaded d.preferences_.store.find i := by
    intro i
    by_cases henabled : (loaded d.preferences_.store.find i).enabled = true
    · exact if_pos ⟨rfl, henabled⟩
    · rw [if_neg fun h : _ ∧ _ => henabled h.2]
      exact (loaded_of_disabled henabled).symm
  have hslots : ∀ i : Fin maxProfiles, i = 0 ∨ i = 1 := by decide
  rw [hboot, loadSlot_profiles, loadSlot_preferences, loadSlot_profiles]
  rcases hslots slot with rfl | rfl
  · rw [if_neg fun h : _ ∧ _ => absurd h.1 (by decide)]
    exact hloads 0
  · rw [if_neg fun h : (0 : Fin maxProfiles) = 1 ∧ _ => absurd h.1 (by decide)]
    exact hloads 1

/-! ### Loading and changing -/

theorem loaded_congr {find find' : Find} {slot : Fin maxProfiles}
    (h : ∀ key ∈ profileKeys slot, find' key = find key) : loaded find' slot = loaded find slot := by
  have hkeys : ∀ slot : Fin 2, ssidKey slot ∈ profileKeys slot ∧ passwordKey slot ∈ profileKeys slot ∧
      ((slot : Nat) = 0 → lit "wifi_ssid" ∈ profileKeys slot ∧ lit "wifi_password" ∈ profileKeys slot) := by
    decide
  obtain ⟨hssidKey, hpasswordKey, hlegacy⟩ := hkeys slot
  have htext : ∀ key ∈ profileKeys slot, textAt find' key = textAt find key := fun key hkey => by
    rw [textAt, textAt, h key hkey]
  have hof : ∀ key ∈ profileKeys slot, ∀ legacy, ((slot : Nat) = 0 → legacy ∈ profileKeys slot) →
      textOf find' slot key legacy = textOf find slot key legacy := fun key hkey legacy hleg => by
    by_cases hzero : (slot : Nat) = 0
    · rw [textOf, textOf, htext key hkey, htext legacy (hleg hzero)]
    · rw [textOf, textOf, htext key hkey, if_neg fun hz => hzero hz.2, if_neg fun hz => hzero hz.2]
  rw [loaded, loaded, hof _ hssidKey _ fun hz => (hlegacy hz).1,
    hof _ hpasswordKey _ fun hz => (hlegacy hz).2]

theorem loaded_of_texts {find : Find} {slot : Fin maxProfiles} {ssid password : Text}
    (hssid : find (ssidKey slot) = some (.str ssid)) (hne : ssid ≠ [])
    (hpassword : find (passwordKey slot) = some (.str password)) (hne' : password ≠ []) :
    loaded find slot = .copied ssid password := by
  have hs : textAt find (ssidKey slot) = ssid := by rw [textAt, hssid]
  have hp : textAt find (passwordKey slot) = password := by rw [textAt, hpassword]
  simp [loaded, textOf, hs, hp, hne, hne']

theorem loaded_of_none {find : Find} {slot : Fin maxProfiles}
    (h : ∀ key ∈ profileKeys slot, find key = none) : loaded find slot = .cleared := by
  have hempty : loaded (fun _ => none) slot = .cleared := by
    simp [loaded, textOf, textAt]
  rw [← hempty]
  exact loaded_congr h

/-- A change by one of the commands for whole profiles. -/
def WholeProfiles : Change → Prop
  | .profile _ _ _ => True
  | .clearProfile _ => True
  | .clear => True
  | _ => False

/-- Loading commutes with the commands for whole profiles. -/
theorem loaded_change (sha256 : List UInt8 → Digest) {c : Change} (hw : WholeProfiles c)
    (hc : c.Proper) (find : Find) : loaded (c.store sha256 find) = c.profiles (loaded find) := by
  funext i
  cases c with
  | profile slot ssid password =>
    obtain ⟨⟨hssid, hpassword⟩, -, hs0, hp0⟩ := hc
    rw [Change.profiles, Function.update_apply]
    by_cases hi : i = slot
    · subst hi
      obtain ⟨hssidKey, hpasswordKey⟩ := keys_eq i
      rw [if_pos rfl]
      apply loaded_of_texts _ hssid _ hpassword
      · rw [hssidKey]
        exact store_profile_mem sha256 find i (by simp [profileEntries]) hs0
      · rw [hpasswordKey]
        exact store_profile_mem sha256 find i (by simp [profileEntries]) hp0
    · rw [if_neg hi]
      exact loaded_congr fun key hkey => store_profile_notMem sha256 find ssid password
        (profileKeys_disjoint (Ne.symm hi) key hkey)
  | clearProfile slot =>
    rw [Change.profiles, Function.update_apply, Change.store]
    by_cases hi : i = slot
    · rw [if_pos hi]
      apply loaded_of_none
      intro key hkey
      rw [eraseEntries_eq, if_pos (hi ▸ hkey)]
    · rw [if_neg hi]
      apply loaded_congr
      intro key hkey
      rw [eraseEntries_eq, if_neg (profileKeys_disjoint (Ne.symm hi) key hkey)]
  | clear => exact loaded_of_none fun _ _ => rfl
  | text key value => exact hw.elim
  | digest password => exact hw.elim
  | hostKey bytes => exact hw.elim

/-- The commands for whole profiles. -/
def profileCommands : List Text := [lit "wifi-config", lit "wifi-profile-clear", lit "config-clear"]

theorem wholeProfiles_of_word {input : List UInt8} (hw : word input ∈ profileCommands) {c : Change}
    (h : changeOf input = some c) : WholeProfiles c := by
  simp only [profileCommands, List.mem_cons, List.not_mem_nil, or_false] at hw
  rcases hw with hw | hw | hw
  · obtain ⟨-, hchange⟩ := Option.ite_none_right_eq_some.mp (changeOf_wifiConfig hw h)
    cases hchange
    trivial
  · have hclear := changeOf_wifiProfileClear hw h
    unfold clearChange at hclear
    split_ifs at hclear
    · cases hclear
      trivial
    · cases hclear
      trivial
  · obtain ⟨-, hchange⟩ := Option.ite_none_right_eq_some.mp (changeOf_configClear hw h)
    cases hchange
    trivial

/-- The profiles in memory are those that would be loaded. -/
structure Mirrors (d : Device ρ) : Prop where
  reliable : d.preferences_.Reliable
  profiles : d.wifiService.profiles_ = loaded d.preferences_.store.find

theorem Mirrors.line (sha256 : List UInt8 → Digest) (others : DeviceServices (Device ρ))
    {d : Device ρ} (h : Mirrors d) {input : List UInt8} (hw : word input ∈ profileCommands) :
    Mirrors (dispatch (services sha256 others) d (some input)).device := by
  have hsub : ∀ name ∈ profileCommands, name ∈ changing := by decide
  obtain ⟨hreliable, hfind, hprofiles⟩ :=
    (line_changes sha256 others h.reliable (hsub _ hw)).changed
  refine ⟨hreliable, ?_⟩
  rw [hprofiles, hfind]
  cases hc : changeOf input with
  | none => exact h.profiles
  | some c =>
    have hproper := changeOf_proper (hsub _ hw) hc
    have hloaded := loaded_change sha256 (wholeProfiles_of_word hw hc) hproper d.preferences_.store.find
    exact (congrArg c.profiles h.profiles).trans hloaded.symm

theorem Mirrors.loop {d : Device ρ} (h : Mirrors d) (services : DeviceServices (Device ρ)) (now : UInt32)
    (driver : Driver) : Mirrors (happen services d (.loop now driver)) :=
  ⟨h.reliable, (tick_profiles d.wifiService now driver).trans h.profiles⟩

/-- From boot on, after any lines of these commands and any turns of the main loop, a reboot finds
every profile as it is in memory. -/
theorem reboot_keeps_profiles (sha256 : List UInt8 → Digest) (others : DeviceServices (Device ρ))
    (d : Device ρ) (hr : d.preferences_.Reliable) (events : List Event)
    (hlines : ∀ input, .line input ∈ events → word input ∈ profileCommands) :
    let running := after (happen (services sha256 others)) (reboot d) events
    ∀ slot, running.wifiService.profiles_ slot = (reboot running).wifiService.profiles_ slot := by
  have hboot : Mirrors (reboot d) := by
    have hpreferences : (reboot d).preferences_ = d.preferences_ := by
      show (loadSlot (loadSlot { d with wifiService := initial } 0) 1).preferences_ = _
      rw [loadSlot_preferences, loadSlot_preferences]
    exact ⟨by rw [hpreferences]; exact hr, funext fun slot => by rw [reboot_profiles, hpreferences]⟩
  intro running slot
  have hrun : Mirrors running := by
    refine after_induction (P := fun _ d => Mirrors d)
      (C := fun _ e => ∀ input, e = .line input → word input ∈ profileCommands) hboot ?_ ?_
    · intro past e hpast he
      cases e with
      | line input => exact hpast.line sha256 others (he input rfl)
      | loop now driver => exact hpast.loop _ now driver
    · intro past e htaken input he
      exact hlines input (he ▸ htaken.mem.1)
  rw [reboot_profiles, hrun.profiles]

theorem password0_length_le : (lit "wifi_password_0").length ≤ maxKeyLength := by decide

theorem secret_text : ∀ text, NvsValue.str (lit "secret") = .str text → 0 ∉ text := by
  intro text h
  cases h
  decide

/-- Half a profile: a password without an SSID. -/
def halfProfile : Store :=
  Store.empty.set (lit "wifi_password_0") (.str (lit "secret")) password0_length_le secret_text

theorem reboot_keeps_profiles_halfProfile :
    let d : Device Unit := { blank with preferences_ := ⟨halfProfile, []⟩ }
    let events := [.line (lit "wifi-config 1 work secret"), .loop 70 ⟨false, false⟩,
      .line (lit "wifi-profile-clear 2"), .line (lit "wifi-config home secret"),
      .line (lit "wifi-profile-clear 1 --confirm")]
    let running := after (happen (services sha256 quiet)) (reboot d) events
    ∀ slot, running.wifiService.profiles_ slot = (reboot running).wifiService.profiles_ slot := by
  intro d events
  have hlines : ∀ input, .line input ∈ events → word input ∈ profileCommands := by
    intro input h
    simp only [events, List.mem_cons, Event.line.injEq, reduceCtorEq, List.not_mem_nil, or_false,
      false_or] at h
    rcases h with rfl | rfl | rfl | rfl <;> decide
  exact reboot_keeps_profiles sha256 quiet d rfl events hlines

end Esp32Shell.Arduino.Reboot
