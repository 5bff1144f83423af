import Esp32Shell.Arduino.StoredProfiles
import Esp32Shell.Idf.WifiProfiles

/-!
# Wi-Fi profiles across the images

What the ESP-IDF image loads from the profiles that the Arduino image has stored.
Its buffers take no longer values than those of the other image, but a value
that does not fit is no value for it, where the other image cuts it off.
-/
namespace Esp32Shell.Handover.WifiProfiles

open Esp32Shell.Library.CText Esp32Shell.Library.Sha256
open Shell.CommandCore Shell.CommandLines
open Storage.Nvs Arduino.WifiService Arduino.WifiRuns Arduino.Esp32Services
open Arduino.Changes Arduino.Reboot Arduino.StoredProfiles
open Idf.CommandServices (readString readString_eq_some_iff)
open Idf.WifiProfiles (loadProfile loadProfiles)

variable {ρ : Type}

/-- The profile that one image loads is that of the other: enabled or not, with the same bytes. -/
def SameProfile (idf : Option (Text × Text)) (arduino : Profile) : Prop :=
  (idf.isSome = true ↔ arduino.enabled = true) ∧
    ∀ p ∈ idf, arduino.ssid = p.1 ∧ arduino.password = p.2

/-- The stored values fit the buffers of the other image, apart from a pair of slot 0 whose legacy
values are what is left of it when it is cut off. -/
structure Portable (s : Store) : Prop where
  slot1 : ∀ password, s.find (lit "wifi_password_1") = some (.str password) → password.length ≤ 64
  slot0 : ∀ ssid password, s.find (lit "wifi_ssid_0") = some (.str ssid) →
    s.find (lit "wifi_password_0") = some (.str password) → password.length ≤ 64 ∨
      s.find (lit "wifi_ssid") = some (.str ssid) ∧
      s.find (lit "wifi_password") = some (.str (password.take 64))
  legacy : ∀ ssid password, s.find (lit "wifi_ssid_0") = none →
    s.find (lit "wifi_ssid") = some (.str ssid) → s.find (lit "wifi_password") = some (.str password) →
    ssid.length ≤ 32 ∧ password.length ≤ 64

/-! ### The other loader -/

/-- The profile fits `char ssid[33]` and `char password[65]`. -/
def Fits (p : Text × Text) : Prop := p.1.length ≤ 32 ∧ p.2.length ≤ 64

instance : DecidablePred Fits := fun p =>
  inferInstanceAs (Decidable (p.1.length ≤ 32 ∧ p.2.length ≤ 64))

theorem readString_of_map {s : Store} {key : Text} {value : Option Text} {capacity : Nat}
    (h : s.find key = value.map .str) (hne : value ≠ some []) :
    readString s key (capacity + 1) = value.filter fun text => text.length ≤ capacity := by
  ext text
  rw [readString_eq_some_iff, h, Option.filter_eq_some_iff]
  cases value with
  | none => simp
  | some v =>
    simp only [Option.map_some, Option.some_inj, NvsValue.str.injEq, decide_eq_true_eq]
    constructor
    · intro hall
      exact ⟨hall.1, by omega⟩
    · intro hall
      obtain ⟨rfl, hle⟩ := hall
      exact ⟨rfl, by omega, fun hnil => hne (by rw [hnil])⟩

theorem loadProfile_of_map {s : Store} {ssidKey passwordKey : Text} {ssid password : Option Text}
    (hs : s.find ssidKey = ssid.map .str) (hp : s.find passwordKey = password.map .str)
    (hsne : ssid ≠ some []) (hpne : password ≠ some []) :
    loadProfile s ssidKey passwordKey =
      (ssid.bind fun a => password.map fun b => (a, b)).filter fun p => decide (Fits p) := by
  rw [loadProfile, readString_of_map hs hsne, readString_of_map hp hpne]
  cases ssid with
  | none => rfl
  | some a =>
    cases password with
    | none => cases hfit : decide (a.length ≤ 32) <;> simp [Option.filter, hfit]
    | some b =>
      by_cases ha : a.length ≤ 32
      · by_cases hb : b.length ≤ 64 <;> simp [Option.filter, Fits, ha, hb]
      · simp [Option.filter, Fits, ha]

/-- The legacy values, if both are there. -/
def legacyPair (m : Stored) : Option (Text × Text) :=
  m.ssid.bind fun ssid => m.password.map fun password => (ssid, password)

/-- What the other image makes of the stored profiles. -/
def fitting (m : Stored) (slot : Fin 2) : Option (Text × Text) :=
  ((m.pair slot).filter fun p => decide (Fits p)).or
    (if slot.val = 0 then (legacyPair m).filter fun p => decide (Fits p) else none)

theorem loadProfiles_of_holds {nvs : Flash} (hr : nvs.Reliable) {m : Stored} (hm : Whole m)
    (h : Holds nvs.store.find m) (slot : Fin 2) : loadProfiles nvs slot = fitting m slot := by
  have hopen := nvsOpen_reliable hr
  obtain ⟨hssidKey, hpasswordKey⟩ := keys_eq slot
  have hpair : ((m.pair slot).map Prod.fst).bind
      (fun a => ((m.pair slot).map Prod.snd).map fun b => (a, b)) = m.pair slot := by
    cases m.pair slot <;> rfl
  have hslot : loadProfile nvs.store (Idf.CommandServices.ssidKey slot)
      (Idf.CommandServices.passwordKey slot) = (m.pair slot).filter fun p => decide (Fits p) := by
    rw [← hssidKey, ← hpasswordKey, loadProfile_of_map
      (by rw [h.ssid, Option.map_map]; rfl) (by rw [h.password, Option.map_map]; rfl), hpair]
    · intro hnil
      obtain ⟨p, hp, hempty⟩ := Option.map_eq_some_iff.mp hnil
      exact (hm.pair slot p.1 p.2 hp).1 hempty
    · intro hnil
      obtain ⟨p, hp, hempty⟩ := Option.map_eq_some_iff.mp hnil
      exact (hm.pair slot p.1 p.2 hp).2.1 hempty
  have hlegacy := loadProfile_of_map h.legacySsid h.legacyPassword hm.ssid hm.password
  simp only [loadProfiles, hopen, hslot, hlegacy, fitting]
  by_cases hzero : slot.val = 0
  · rw [if_pos hzero, if_pos hzero]
    rfl
  · rw [if_neg hzero, if_neg hzero, Option.or_none]

/-! ### The two loaders -/

/-- A value that fits is loaded alike, and one that does not fit is not. -/
theorem same_filter (o : Option (Text × Text)) :
    SameProfile (o.filter fun p => decide (Fits p)) (profileOf o) ↔ ∀ p ∈ o, Fits p := by
  cases o with
  | none => simp [SameProfile, profileOf, Profile.cleared]
  | some p =>
    by_cases hfits : Fits p
    · obtain ⟨hs, hp⟩ := hfits
      simp [SameProfile, profileOf, Profile.copied, Option.filter, Fits, hs, hp,
        List.take_of_length_le hs, List.take_of_length_le hp]
    · simp [SameProfile, profileOf, Profile.copied, Option.filter, hfits]

/-- What is left of a pair that is cut off is loaded from the legacy values alone. -/
theorem same_legacy {ssid password : Text} (hs : ssid.length ≤ 32) (o : Option (Text × Text)) :
    SameProfile (o.filter fun p => decide (Fits p)) (.copied ssid password) ↔
      o = some (ssid, password.take 64) := by
  have htake : ssid.take 32 = ssid := List.take_of_length_le hs
  constructor
  · intro h
    obtain ⟨p, hp⟩ := Option.isSome_iff_exists.mp (h.1.mpr rfl)
    obtain ⟨hssid, hpassword⟩ := h.2 p hp
    rw [(Option.filter_eq_some_iff.mp hp).1, Option.some_inj, Prod.ext_iff]
    exact ⟨hssid.symm.trans htake, hpassword.symm⟩
  · intro h
    have hfits : Fits (ssid, password.take 64) := ⟨hs, List.length_take_le 64 password⟩
    rw [h]
    simp [SameProfile, Profile.copied, Option.filter, hfits, htake]

/-- The stored profiles of the model are portable. -/
structure StoredPortable (m : Stored) : Prop where
  slot1 : ∀ p ∈ m.pair 1, p.2.length ≤ 64
  slot0 : ∀ p ∈ m.pair 0, p.2.length ≤ 64 ∨ legacyPair m = some (p.1, p.2.take 64)
  legacy : m.pair 0 = none → ∀ p ∈ legacyPair m, Fits p

theorem same_slot1 {m : Stored} (hm : Whole m) :
    SameProfile (fitting m 1) (profileOf (m.profile 1)) ↔ ∀ p ∈ m.pair 1, p.2.length ≤ 64 := by
  have hprofile : m.profile 1 = m.pair 1 := Option.or_none
  have hfitting : fitting m 1 = (m.pair 1).filter fun p => decide (Fits p) := Option.or_none
  rw [hprofile, hfitting, same_filter]
  constructor
  · intro h p hp
    exact (h p hp).2
  · intro h p hp
    exact ⟨(hm.pair 1 p.1 p.2 hp).2.2, h p hp⟩

theorem same_slot0_of_none {m : Stored} (hpair : m.pair 0 = none) :
    SameProfile (fitting m 0) (profileOf (m.profile 0)) ↔ ∀ p ∈ legacyPair m, Fits p := by
  have hprofile : m.profile 0 = legacyPair m := by
    rw [Stored.profile, hpair, Option.none_or]
    rfl
  have hfitting : fitting m 0 = (legacyPair m).filter fun p => decide (Fits p) := by
    rw [fitting, hpair, Option.filter_none, Option.none_or]
    rfl
  rw [hprofile, hfitting, same_filter]

theorem same_slot0_of_some {m : Stored} {p : Text × Text} (hpair : m.pair 0 = some p)
    (hle : p.1.length ≤ 32) : SameProfile (fitting m 0) (profileOf (m.profile 0)) ↔
      p.2.length ≤ 64 ∨ legacyPair m = some (p.1, p.2.take 64) := by
  have hprofile : m.profile 0 = some p := by rw [Stored.profile, hpair, Option.some_or]
  by_cases hp : p.2.length ≤ 64
  · have hfits : Fits p := ⟨hle, hp⟩
    have hkept : (some p).filter (fun p => decide (Fits p)) = some p := by simp [Option.filter, hfits]
    have hsame := (same_filter (some p)).mpr fun q hq => Option.some_inj.mp hq ▸ hfits
    have hfitting : fitting m 0 = some p := by rw [fitting, hpair, hkept, Option.some_or]
    rw [hkept] at hsame
    rw [hprofile, hfitting]
    exact iff_of_true hsame (.inl hp)
  · have hdropped : (some p).filter (fun p => decide (Fits p)) = none := by
      simp [Option.filter, Fits, hp]
    have hfitting : fitting m 0 = (legacyPair m).filter fun p => decide (Fits p) := by
      rw [fitting, hpair, hdropped, Option.none_or]
      rfl
    rw [hprofile, hfitting]
    refine (same_legacy hle (legacyPair m)).trans ?_
    exact (or_iff_right hp).symm

theorem same_iff {m : Stored} (hm : Whole m) :
    (∀ slot : Fin 2, SameProfile (fitting m slot) (profileOf (m.profile slot))) ↔ StoredPortable m := by
  constructor
  · intro h
    refine ⟨(same_slot1 hm).mp (h 1), fun p hpair => ?_, fun hnone => (same_slot0_of_none hnone).mp (h 0)⟩
    exact (same_slot0_of_some hpair (hm.pair 0 p.1 p.2 hpair).2.2).mp (h 0)
  · intro h slot
    have hslots : ∀ slot : Fin 2, slot = 0 ∨ slot = 1 := by decide
    rcases hslots slot with rfl | rfl
    · cases hpair : m.pair 0 with
      | none => exact (same_slot0_of_none hpair).mpr (h.legacy hpair)
      | some p =>
        exact (same_slot0_of_some hpair (hm.pair 0 p.1 p.2 hpair).2.2).mpr (h.slot0 p hpair)
    · exact (same_slot1 hm).mpr h.slot1

theorem legacyPair_eq_some_iff {s : Store} {m : Stored} (h : Holds s.find m) (ssid password : Text) :
    legacyPair m = some (ssid, password) ↔
      s.find (lit "wifi_ssid") = some (.str ssid) ∧ s.find (lit "wifi_password") = some (.str password) := by
  rw [h.legacySsid, h.legacyPassword, legacyPair]
  cases m.ssid <;> cases m.password <;> simp

theorem portable_iff {s : Store} {m : Stored} (h : Holds s.find m) :
    Portable s ↔ StoredPortable m := by
  have hssid0 : s.find (lit "wifi_ssid_0") = (m.pair 0).map fun p => .str p.1 := h.ssid 0
  have hpassword0 : s.find (lit "wifi_password_0") = (m.pair 0).map fun p => .str p.2 := h.password 0
  have hpassword1 : s.find (lit "wifi_password_1") = (m.pair 1).map fun p => .str p.2 := h.password 1
  constructor
  · intro hp
    refine ⟨fun p hpair => ?_, fun p hpair => ?_, fun hnone p hlegacy => ?_⟩
    · exact hp.slot1 p.2 (by rw [hpassword1, hpair]; rfl)
    · rw [legacyPair_eq_some_iff h]
      exact hp.slot0 p.1 p.2 (by rw [hssid0, hpair]; rfl) (by rw [hpassword0, hpair]; rfl)
    · obtain ⟨hs, hq⟩ := (legacyPair_eq_some_iff h p.1 p.2).mp hlegacy
      exact hp.legacy p.1 p.2 (by rw [hssid0, hnone]; rfl) hs hq
  · intro hp
    refine ⟨fun password hq => ?_, fun ssid password hs hq => ?_, fun ssid password hs hls hlq => ?_⟩
    · obtain ⟨p, hpair, hstr⟩ := Option.map_eq_some_iff.mp (hpassword1.symm.trans hq)
      rw [← NvsValue.str.inj hstr]
      exact hp.slot1 p hpair
    · obtain ⟨p, hpair, hstr⟩ := Option.map_eq_some_iff.mp (hssid0.symm.trans hs)
      rw [hpassword0, hpair, Option.map_some, Option.some_inj] at hq
      rw [← NvsValue.str.inj hstr, ← NvsValue.str.inj hq, ← legacyPair_eq_some_iff h]
      exact hp.slot0 p hpair
    · have hnone := Option.map_eq_none_iff.mp (hssid0.symm.trans hs)
      exact hp.legacy hnone (ssid, password) ((legacyPair_eq_some_iff h ssid password).mpr ⟨hls, hlq⟩)

/-- After any lines that change the configuration, the other image loads the same profiles exactly
when the stored values are portable. -/
theorem profiles_survive_iff (sha256 : List UInt8 → Digest) (others : DeviceServices (Device ρ))
    (d : Device ρ) (hr : d.preferences_.Reliable) (hempty : d.preferences_.store = .empty)
    (lines : List (List UInt8)) (hlines : ∀ input ∈ lines, word input ∈ changing) :
    let after := afterLines (services sha256 others) d lines
    (∀ slot, SameProfile (loadProfiles after.preferences_ slot) ((reboot after).wifiService.profiles_ slot)) ↔
      Portable after.preferences_.store := by
  intro after
  obtain ⟨hreliable, hwhole, hholds⟩ := afterLines_holds sha256 others hr hempty hlines
  rw [portable_iff hholds, ← same_iff hwhole]
  apply forall_congr'
  intro slot
  rw [loadProfiles_of_holds hreliable hwhole hholds, reboot_profiles, loaded_of_holds hwhole hholds]

theorem profiles_survive_iff_home :
    let lines := [lit "wifi-config home secret", lit "wifi-config 1 work secret",
      lit "config-set wifi_ssid away", lit "wifi-profile-clear 0 --confirm"]
    let after := afterLines (services sha256 quiet) blank lines
    (∀ slot, SameProfile (loadProfiles after.preferences_ slot) ((reboot after).wifiService.profiles_ slot)) ↔
      Portable after.preferences_.store := by
  intro lines
  exact profiles_survive_iff sha256 quiet blank rfl rfl lines (by decide)

/-- A profile with a password of 65 bytes. -/
def overlong : List UInt8 := lit "wifi-config 1 work " ++ List.replicate 65 97

/-- It is accepted and loaded by one image, and not enabled by the other. -/
theorem overlong_password_lost :
    let after := afterLines (services sha256 quiet) blank [overlong]
    acceptedLines (services sha256 quiet) blank [overlong] = [overlong] ∧
    ¬ ∀ slot, SameProfile (loadProfiles after.preferences_ slot) ((reboot after).wifiService.profiles_ slot) := by
  intro after
  have hidf : loadProfiles after.preferences_ 1 = none := by decide +kernel
  have harduino : ((reboot after).wifiService.profiles_ 1).enabled = true := by decide +kernel
  refine ⟨by decide +kernel, fun hsame => ?_⟩
  have henabled := (hsame 1).1.mpr harduino
  rw [hidf] at henabled
  cases henabled

end Esp32Shell.Handover.WifiProfiles
