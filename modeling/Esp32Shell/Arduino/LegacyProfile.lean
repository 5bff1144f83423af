import Esp32Shell.Arduino.StoredProfiles
import Esp32Shell.Library.Register

/-!
# The two copies of profile 0

`wifi-config` writes both copies of profile 0, `config-set` the legacy one alone,
and `loadWifi` prefers the other. So an update by `config-set` is loaded only as
long as no `wifi-config` came before it, or where it repeats what was stored.
-/
namespace Esp32Shell.Arduino.LegacyProfile

open Esp32Shell.Library.CText Esp32Shell.Library.Register Esp32Shell.Library.Sha256
open Shell.CommandCore Shell.CommandLines
open Storage.Nvs WifiService WifiRuns Esp32Services Changes Reboot StoredProfiles
open Idf.SshAuth (assignment)
open Idf.WifiProfiles (setting)

variable {ρ : Type}

/-- What a `wifi-config` line gives profile 0. -/
def pairGiven (input : List UInt8) : Option (Text × Text) :=
  let v := setting (argument input)
  if word input = lit "wifi-config" ∧ v.slot.val = 0 then some (v.ssid, v.password) else none

/-- The SSID that a line of either command gives profile 0. -/
def ssidGiven (input : List UInt8) : Option Text :=
  ((pairGiven input).map Prod.fst).or (valueGiven (lit "wifi_ssid") input)

/-- The password that a line of either command gives profile 0. -/
def passwordGiven (input : List UInt8) : Option Text :=
  ((pairGiven input).map Prod.snd).or (valueGiven (lit "wifi_password") input)

/-- The profile carries what it was most recently given, once both values have been given. -/
def Carries (profile : Profile) (accepted : List (List UInt8)) : Prop :=
  ∀ ssid password, latch ssidGiven accepted = some ssid → latch passwordGiven accepted = some password →
    profile.enabled = true ∧ profile.ssid = ssid ∧ profile.password = password

/-- After the last `wifi-config` of profile 0, the last `config-set` of its SSID and that of its
password, if there are such lines, repeat its values. -/
def Repeats (accepted : List (List UInt8)) : Prop :=
  ∀ before input after ssid password, accepted = before ++ input :: after →
    pairGiven input = some (ssid, password) → (∀ x ∈ after, pairGiven x = none) →
    (∀ s, latch (valueGiven (lit "wifi_ssid")) after = some s → s = ssid) ∧
    ∀ p, latch (valueGiven (lit "wifi_password")) after = some p → p = password

/-! ### Lines and the stored profiles -/

/-- The accepted lines of the two commands write the latches. -/
structure Latched (m : Stored) (accepted : List (List UInt8)) : Prop where
  pair : m.pair 0 = latch pairGiven accepted
  ssid : m.ssid = latch ssidGiven accepted
  password : m.password = latch passwordGiven accepted

theorem Latched.wifiConfig {m : Stored} {accepted : List (List UInt8)} (h : Latched m accepted)
    {input : List UInt8} (hw : word input = lit "wifi-config") {c : Change}
    (hc : changeOf input = some c) : Latched (m.change c) (accepted ++ [input]) := by
  obtain ⟨-, hchange⟩ := Option.ite_none_right_eq_some.mp (changeOf_wifiConfig hw hc)
  obtain rfl := Option.some_inj.mp hchange
  have hvalue : ∀ key, valueGiven key input = none := fun key => if_neg fun hset =>
    absurd (hw.symm.trans hset.1) (by decide)
  by_cases hzero : (setting (argument input)).slot.val = 0
  · have hpair : pairGiven input =
        some ((setting (argument input)).ssid, (setting (argument input)).password) := if_pos ⟨hw, hzero⟩
    have hslot : (setting (argument input)).slot = 0 := Fin.ext hzero
    constructor
    · rw [latch_snoc, hpair, Stored.change, hslot, Stored.setPair_self]
      rfl
    · rw [latch_snoc, ssidGiven, hpair]
      simp [Stored.change, Stored.setPair, hzero]
    · rw [latch_snoc, passwordGiven, hpair]
      simp [Stored.change, Stored.setPair, hzero]
  · have hpair : pairGiven input = none := if_neg fun hset => hzero hset.2
    have hslot : (0 : Fin 2) ≠ (setting (argument input)).slot := fun he => hzero (he ▸ rfl)
    constructor
    · rw [latch_snoc, hpair, Option.none_or, ← h.pair]
      exact Stored.setPair_of_ne m hslot _
    · rw [latch_snoc, ssidGiven, hpair, hvalue]
      simp [Stored.change, Stored.setPair, hzero, h.ssid]
    · rw [latch_snoc, passwordGiven, hpair, hvalue]
      simp [Stored.change, Stored.setPair, hzero, h.password]

theorem Latched.configSet {m : Stored} {accepted : List (List UInt8)} (h : Latched m accepted)
    {input : List UInt8} (hw : word input = lit "config-set") {c : Change}
    (hc : changeOf input = some c) : Latched (m.change c) (accepted ++ [input]) := by
  have hvalue := changeOf_configSet hw hc
  have hpair : pairGiven input = none := if_neg fun hset => absurd (hw.symm.trans hset.1) (by decide)
  have hgiven := valueGiven_configSet hw
  generalize assignment (argument input) = a at hvalue hgiven
  have hssid : latch ssidGiven (accepted ++ [input]) =
      if a.1 = lit "wifi_ssid" then some a.2 else m.ssid := by
    rw [latch_snoc, ssidGiven, hpair, hgiven, h.ssid]
    split_ifs <;> rfl
  have hpassword : latch passwordGiven (accepted ++ [input]) =
      if a.1 = lit "wifi_password" then some a.2 else m.password := by
    rw [latch_snoc, passwordGiven, hpair, hgiven, h.password]
    split_ifs <;> rfl
  have hstill : latch pairGiven (accepted ++ [input]) = m.pair 0 := by
    rw [latch_snoc, hpair, Option.none_or, h.pair]
  unfold valueChange at hvalue
  split_ifs at hvalue with hbad hplain hacceptable hhostKey
  · cases hvalue
    exact ⟨hstill.symm, by rw [hssid, if_neg (by rw [hplain]; decide)]; rfl,
      by rw [hpassword, if_neg (by rw [hplain]; decide)]; rfl⟩
  · obtain ⟨bytes, -, rfl⟩ := Option.map_eq_some_iff.mp hvalue
    exact ⟨hstill.symm, by rw [hssid, if_neg (by rw [hhostKey]; decide)]; rfl,
      by rw [hpassword, if_neg (by rw [hhostKey]; decide)]; rfl⟩
  · cases hvalue
    exact ⟨hstill.symm, hssid.symm, hpassword.symm⟩

theorem storedProfiles_latched {accepted : List (List UInt8)}
    (hw : ∀ input ∈ accepted, word input = lit "wifi-config" ∨ word input = lit "config-set")
    (hsome : ∀ input ∈ accepted, (changeOf input).isSome = true) :
    Latched (storedProfiles accepted) accepted := by
  refine accepted_induction (P := fun lines => Latched (storedProfiles lines) lines) ⟨rfl, rfl, rfl⟩
    (fun accepted input c hpast hword hc => ?_) hw hsome
  rw [storedProfiles_snoc, hc]
  rcases hword with hword | hword
  · exact hpast.wifiConfig hword hc
  · exact hpast.configSet hword hc

/-! ### What is loaded -/

/-- Lines behind a `wifi-config` give the values of their own `config-set` lines. -/
theorem latch_given_of_quiet {after : List (List UInt8)} (h : ∀ x ∈ after, pairGiven x = none) :
    latch ssidGiven after = latch (valueGiven (lit "wifi_ssid")) after ∧
    latch passwordGiven after = latch (valueGiven (lit "wifi_password")) after := by
  induction after using List.reverseRecOn with
  | nil => exact ⟨rfl, rfl⟩
  | append_singleton after input ih =>
    obtain ⟨hssid, hpassword⟩ := ih fun x hx => h x (by simp [hx])
    have hpair := h input (by simp)
    simp only [latch_snoc, ssidGiven, passwordGiven, hpair, Option.map_none, Option.none_or]
      at hssid hpassword ⊢
    rw [hssid, hpassword]
    exact ⟨rfl, rfl⟩

/-- What the whole history gives, by the lines behind its last `wifi-config`. -/
theorem latch_given_of_cut (before : List (List UInt8)) {after : List (List UInt8)}
    {input : List UInt8} {ssid password : Text} (hpair : pairGiven input = some (ssid, password))
    (hafter : ∀ x ∈ after, pairGiven x = none) :
    latch ssidGiven (before ++ input :: after) =
      (latch (valueGiven (lit "wifi_ssid")) after).or (some ssid) ∧
    latch passwordGiven (before ++ input :: after) =
      (latch (valueGiven (lit "wifi_password")) after).or (some password) := by
  obtain ⟨hssid, hpassword⟩ := latch_given_of_quiet hafter
  constructor
  · rw [latch_append, latch_cons, hssid, ssidGiven, hpair, Option.or_assoc]
    rfl
  · rw [latch_append, latch_cons, hpassword, passwordGiven, hpair, Option.or_assoc]
    rfl

/-- The bounds of the SSID and the password that a line gives. -/
def Fits (input : List UInt8) : Prop :=
  (∀ ssid ∈ ssidGiven input, ssid.length ≤ 32) ∧ ∀ password ∈ passwordGiven input, password.length ≤ 64

instance : DecidablePred Fits := fun input => inferInstanceAs (Decidable
  ((∀ ssid ∈ ssidGiven input, ssid.length ≤ 32) ∧
    ∀ password ∈ passwordGiven input, password.length ≤ 64))

theorem copied_fields {ssid password : Text} (hs : ssid.length ≤ 32) (hp : password.length ≤ 64) :
    (Profile.copied ssid password).ssid = ssid ∧ (Profile.copied ssid password).password = password :=
  ⟨List.take_of_length_le hs, List.take_of_length_le hp⟩

/-- A profile without a stored pair carries the latest values. -/
theorem carries_of_legacy {m : Stored} {accepted : List (List UInt8)} (h : Latched m accepted)
    (hfits : ∀ input ∈ accepted, Fits input) (hnone : m.pair 0 = none) :
    Carries (profileOf (m.profile 0)) accepted := by
  intro ssid password hssid hpassword
  obtain ⟨x, hx, hxs⟩ := exists_of_latch_eq_some hssid
  obtain ⟨y, hy, hyp⟩ := exists_of_latch_eq_some hpassword
  have hprofile : m.profile 0 = some (ssid, password) := by
    rw [Stored.profile, hnone, h.ssid, h.password, hssid, hpassword]
    rfl
  rw [hprofile]
  exact ⟨rfl, copied_fields ((hfits x hx).1 ssid hxs) ((hfits y hy).2 password hyp)⟩

theorem eq_of_repeats {given : Option Text} {stored value : Text}
    (h : ∀ v, given = some v → v = stored) (hv : given.or (some stored) = some value) :
    value = stored := by
  cases given with
  | none => exact (Option.some_inj.mp hv).symm
  | some v => exact (Option.some_inj.mp hv).symm.trans (h v rfl)

/-- A profile with a stored pair carries the latest values exactly when they repeat the pair. -/
theorem carries_of_pair {accepted : List (List UInt8)} {m : Stored} (h : Latched m accepted)
    (hfits : ∀ input ∈ accepted, Fits input) {ssid password : Text}
    (hpair : m.pair 0 = some (ssid, password)) :
    Carries (profileOf (m.profile 0)) accepted ↔ Repeats accepted := by
  have hprofile : m.profile 0 = some (ssid, password) := by rw [Stored.profile, hpair, Option.some_or]
  have hlast := h.pair.symm.trans hpair
  obtain ⟨x, hx, hxpair⟩ := exists_of_latch_eq_some hlast
  obtain ⟨hs, hp⟩ := copied_fields ((hfits x hx).1 ssid (by rw [ssidGiven, hxpair]; rfl))
    ((hfits x hx).2 password (by rw [passwordGiven, hxpair]; rfl))
  rw [hprofile]
  constructor
  · intro hcarries before input after s p hcut hinput hafter
    subst hcut
    have hsame := hlast.symm.trans ((latch_eq_some_iff pairGiven _ (s, p)).mpr
      ⟨before, input, after, rfl, hinput, hafter⟩)
    cases hsame
    obtain ⟨hssids, hpasswords⟩ := latch_given_of_cut before hinput hafter
    have hgiven := hcarries _ _ (hssids.trans (Option.or_some ..)) (hpasswords.trans (Option.or_some ..))
    constructor
    · intro s hlatch
      rw [hlatch] at hgiven
      exact hgiven.2.1.symm.trans hs
    · intro p hlatch
      rw [hlatch] at hgiven
      exact hgiven.2.2.symm.trans hp
  · intro hrepeats s p hssid hpassword
    obtain ⟨before, input, after, rfl, hinput, hafter⟩ := (latch_eq_some_iff pairGiven _ _).mp hlast
    obtain ⟨hsame, hsame'⟩ := hrepeats before input after ssid password rfl hinput hafter
    obtain ⟨hssids, hpasswords⟩ := latch_given_of_cut before hinput hafter
    rw [hssids] at hssid
    rw [hpasswords] at hpassword
    have hs' : s = ssid := eq_of_repeats hsame hssid
    have hp' : p = password := eq_of_repeats hsame' hpassword
    rw [hs', hp']
    exact ⟨rfl, hs, hp⟩

/-- After any lines of the two commands, a reboot loads profile 0 as it was most recently given
exactly when no `config-set` since its last `wifi-config` gave another value. -/
theorem latest_profile_loaded_iff (sha256 : List UInt8 → Digest) (others : DeviceServices (Device ρ))
    (d : Device ρ) (hr : d.preferences_.Reliable) (hempty : d.preferences_.store = .empty)
    (lines : List (List UInt8))
    (hlines : ∀ input ∈ lines, word input = lit "wifi-config" ∨ word input = lit "config-set")
    (hfits : ∀ input ∈ acceptedLines (services sha256 others) d lines, Fits input) :
    let accepted := acceptedLines (services sha256 others) d lines
    Carries ((reboot (afterLines (services sha256 others) d lines)).wifiService.profiles_ 0) accepted ↔
      Repeats accepted := by
  intro accepted
  have hchanging : ∀ input ∈ lines, word input ∈ changing := by
    intro input hinput
    rcases hlines input hinput with hw | hw <;> rw [hw] <;> decide
  obtain ⟨-, hwhole, hholds⟩ := afterLines_holds sha256 others hr hempty hchanging
  have haccepted : accepted = lines.filter fun input => (changeOf input).isSome :=
    acceptedLines_eq sha256 others hr hchanging
  have hlatched : Latched (storedProfiles lines) accepted := by
    rw [← storedProfiles_filter, ← haccepted]
    apply storedProfiles_latched
    · intro input hinput
      rw [haccepted] at hinput
      exact hlines input (List.mem_of_mem_filter hinput)
    · intro input hinput
      rw [haccepted] at hinput
      exact (List.mem_filter.mp hinput).2
  rw [reboot_profiles, loaded_of_holds hwhole hholds]
  cases hpair : (storedProfiles lines).pair 0 with
  | some p => exact carries_of_pair hlatched hfits hpair
  | none =>
    have hnone := (latch_eq_none_iff pairGiven accepted).mp (hlatched.pair.symm.trans hpair)
    refine iff_of_true (carries_of_legacy hlatched hfits hpair) ?_
    intro before input after ssid password hcut hinput _
    rw [hnone input (by rw [hcut]; simp)] at hinput
    cases hinput

/-- A profile that is set by `wifi-config`, then its password by `config-set`. -/
def renewed : List (List UInt8) :=
  [lit "wifi-config home first", lit "config-set wifi_password second"]

theorem latest_profile_loaded_iff_legacy :
    let lines := [lit "config-set wifi_ssid home", lit "config-set wifi_password secret"]
    let accepted := acceptedLines (services sha256 quiet) blank lines
    Carries ((reboot (afterLines (services sha256 quiet) blank lines)).wifiService.profiles_ 0) accepted ↔
      Repeats accepted := by
  intro lines
  exact latest_profile_loaded_iff sha256 quiet blank rfl rfl lines (by decide) (by decide +kernel)

/-- The second password is accepted, and the first one is loaded. -/
theorem renewed_password_lost :
    let accepted := acceptedLines (services sha256 quiet) blank renewed
    accepted = renewed ∧ (∀ input ∈ accepted, Fits input) ∧
    ¬ Carries ((reboot (afterLines (services sha256 quiet) blank renewed)).wifiService.profiles_ 0)
      accepted := by
  refine ⟨by decide +kernel, by decide +kernel, fun hcarries => ?_⟩
  have hlatest := hcarries (lit "home") (lit "second") (by decide +kernel) (by decide +kernel)
  have hloaded : ((reboot (afterLines (services sha256 quiet) blank renewed)).wifiService.profiles_
      0).password = lit "first" := by decide +kernel
  exact absurd (hloaded.symm.trans hlatest.2.2) (by decide)

end Esp32Shell.Arduino.LegacyProfile
