import Esp32Shell.Idf.CommandServices
import Esp32Shell.Library.Register
import Esp32Shell.Shell.CommandLines

/-!
# The stored Wi-Fi profiles

`loadProfiles` against the map from slots to credentials that the commands are
meant to keep. Every `wifi-config` is a write of its slot; `wifi-profile-clear`
is meant as a clear, but its test of the arguments rejects every text.
-/
namespace Esp32Shell.Idf.WifiProfiles

open Esp32Shell.Library.CText Esp32Shell.Library.Register
open Shell.CommandCore Shell.CommandTable Shell.CommandLines
open Storage.Nvs CommandServices

variable {ρ : Type}

/-- The enabled profiles, as SSID and password. -/
abbrev Slots := Fin 2 → Option (Text × Text)

def loadProfile (s : Store) (ssidKey passwordKey : Text) : Option (Text × Text) :=
  match readString s ssidKey 33 with
  | none => none
  | some ssid => (readString s passwordKey 65).map fun password => (ssid, password)

/-- `loadProfiles`: slot 0 falls back to the legacy keys. -/
def loadProfiles (nvs : Flash) : Slots :=
  match nvsOpen nvs with
  | (false, _) => fun _ => none
  | (true, nvs) => fun slot =>
    let profile := loadProfile nvs.store (ssidKey slot) (passwordKey slot)
    if slot.val = 0 then profile.or (loadProfile nvs.store (lit "wifi_ssid") (lit "wifi_password"))
    else profile

/-! ### What the commands mean -/

structure Setting where
  slot : Fin 2
  ssid : Text
  password : Text
  deriving DecidableEq

/-- The slot in front of the text, if there is one, and the text behind it. -/
def addressed (arguments : Text) : Fin 2 × Text :=
  let zero := ⟨0, Nat.zero_lt_two⟩
  let one := ⟨1, Nat.one_lt_two⟩
  if byteAt arguments 1 = space ∧ byteAt arguments 0 = digitZero then (zero, arguments.drop 2)
  else if byteAt arguments 1 = space ∧ byteAt arguments 0 = digitOne then (one, arguments.drop 2)
  else (zero, arguments)

/-- The SSID ends at the first space; the password is all the rest. -/
def setting (arguments : Text) : Setting :=
  let rest := (addressed arguments).2
  ⟨(addressed arguments).1, rest.takeWhile (· ≠ space), (rest.dropWhile (· ≠ space)).tail⟩

def Setting.Acceptable (s : Setting) : Prop :=
  s.ssid ≠ [] ∧ s.password ≠ [] ∧ s.ssid.length ≤ 32 ∧ s.password.length ≤ 64

instance (s : Setting) : Decidable s.Acceptable := inferInstanceAs (Decidable (_ ∧ _))

/-- `wifi-profile-clear <slot> --confirm`. -/
def clears (slot : Fin 2) (input : List UInt8) : Bool :=
  word input == lit "wifi-profile-clear" && argument input == decimal slot ++ lit " --confirm"

/-- The map after a line that was answered with or without success. -/
def Slots.after (m : Slots) (input : List UInt8) (ok : Bool) : Slots := fun slot =>
  let s := setting (argument input)
  if word input = lit "wifi-config" ∧ ok ∧ s.slot = slot then some (s.ssid, s.password)
  else if clears slot input then none
  else m slot

/-- The map after a sequence of lines, by what each line reports. -/
def expected (services : DeviceServices (Device ρ)) (d : Device ρ) (m : Slots) :
    List (List UInt8) → Slots
  | [] => m
  | input :: lines =>
    let done := dispatch services d (some input)
    expected services done.device (m.after input (done.status = .ok)) lines

/-- The profile that a line writes to a slot: a `wifi-config` line with an acceptable setting. -/
def configured (slot : Fin 2) (input : List UInt8) : Option (Text × Text) :=
  match route input with
  | .ask (.wifiConfig arguments) =>
    let s := setting arguments
    if s.Acceptable ∧ s.slot = slot then some (s.ssid, s.password) else none
  | _ => none

/-! ### The code -/

theorem digit_iff (b : UInt8) : digitZero ≤ b ∧ b ≤ digitOne ↔ b = digitZero ∨ b = digitOne := by
  rw [UInt8.le_iff_toNat_le, UInt8.le_iff_toNat_le, ← UInt8.toNat_inj, ← UInt8.toNat_inj]
  show 48 ≤ b.toNat ∧ b.toNat ≤ 49 ↔ b.toNat = 48 ∨ b.toNat = 49
  omega

/-- `wifi-profile-clear` asks for a space where `parseSlot` asks for the terminator. -/
theorem wifiProfileClear_rejects (arguments : Text) (d : Device ρ) :
    ∃ line, wifiProfileClear arguments d = ⟨d, [line], false⟩ := by
  refine ⟨lit "error: usage wifi-profile-clear <0|1> --confirm", ?_⟩
  have hreject : arguments.length < 10 ∨ arguments.drop 2 ≠ lit "--confirm" ∨
      byteAt arguments 1 ≠ space ∨ parseSlot arguments = none := by
    by_cases hspace : byteAt arguments 1 = space
    · right; right; right
      rw [parseSlot, if_pos (.inr (.inr (by rw [hspace]; decide)))]
    · exact .inr (.inr (.inl hspace))
  rw [wifiProfileClear, if_pos hreject]
  rfl

/-- The slot and the text behind it, as `wifiConfig` computes them. -/
theorem addressed_eq (arguments : Text) :
    let given := digitZero ≤ byteAt arguments 0 ∧ byteAt arguments 0 ≤ digitOne ∧
      byteAt arguments 1 = space
    (if given then (byteAt arguments 0).toNat - digitZero.toNat else 0) = (addressed arguments).1 ∧
    (if given then arguments.drop 2 else arguments) = (addressed arguments).2 := by
  have hgiven : (digitZero ≤ byteAt arguments 0 ∧ byteAt arguments 0 ≤ digitOne ∧
      byteAt arguments 1 = space) ↔
      (byteAt arguments 0 = digitZero ∨ byteAt arguments 0 = digitOne) ∧ byteAt arguments 1 = space := by
    rw [← and_assoc, digit_iff]
  by_cases hspace : byteAt arguments 1 = space
  · by_cases hzero : byteAt arguments 0 = digitZero
    · simp [addressed, hspace, hzero, (by decide : digitZero ≤ digitOne)]
    · by_cases hone : byteAt arguments 0 = digitOne
      · simp [addressed, hspace, hone, digitZero, digitOne]
      · simp [hgiven, addressed, hzero, hone]
  · simp [addressed, hspace]

/-- The values under the keys of a profile after it is saved. -/
def profileEntries (slot : Nat) (ssid password : Text) : List (Text × Text) :=
  [(ssidKey slot, ssid), (passwordKey slot, password)] ++
    if slot = 0 then [(lit "wifi_ssid", ssid), (lit "wifi_password", password)] else []

/-- `nvs_set_str` of every entry in turn. -/
def setEntries (find : Text → Option NvsValue) (entries : List (Text × Text)) :
    Text → Option NvsValue :=
  entries.foldl (fun find e => Function.update find e.1 (some (.str (cString e.2)))) find

theorem slotKeys_le (slot : Fin 2) :
    (ssidKey slot).length ≤ maxKeyLength ∧ (passwordKey slot).length ≤ maxKeyLength := by
  revert slot
  decide

theorem legacyKeys_le : (lit "wifi_ssid").length ≤ maxKeyLength ∧
    (lit "wifi_password").length ≤ maxKeyLength := by decide

theorem saveProfile_reliable {n : Flash} (h : n.Reliable) (slot : Fin 2) (ssid password : Text) :
    ∃ m, saveProfile slot ssid password n = (true, m) ∧ m.Reliable ∧
      m.store.find = setEntries n.store.find (profileEntries slot ssid password) := by
  obtain ⟨hssid, hpassword⟩ := slotKeys_le slot
  obtain ⟨n₁, h₁, hr₁, hf₁⟩ := nvsSetStr_reliable h hssid ssid
  obtain ⟨n₂, h₂, hr₂, hf₂⟩ := nvsSetStr_reliable hr₁ hpassword password
  have hprofile : ((nvsSetStr (ssidKey slot) ssid).and (nvsSetStr (passwordKey slot) password)) n =
      (true, n₂) := by rw [Call.and_ok h₁, h₂]
  by_cases h0 : (slot : Nat) = 0
  · obtain ⟨n₃, h₃, hr₃, hf₃⟩ := nvsSetStr_reliable hr₂ legacyKeys_le.1 ssid
    obtain ⟨n₄, h₄, hr₄, hf₄⟩ := nvsSetStr_reliable hr₃ legacyKeys_le.2 password
    have hlegacy : ((nvsSetStr (lit "wifi_ssid") ssid).and (nvsSetStr (lit "wifi_password") password))
        n₂ = (true, n₄) := by rw [Call.and_ok h₃, h₄]
    refine ⟨⟨n₄.store, []⟩, ?_, rfl, ?_⟩
    · rw [saveProfile, if_pos h0]
      exact and_commit (by rw [Call.and_ok hprofile, hlegacy]) hr₄
    · simp [setEntries, profileEntries, h0, hf₁, hf₂, hf₃, hf₄]
  · refine ⟨⟨n₂.store, []⟩, ?_, rfl, ?_⟩
    · rw [saveProfile, if_neg h0]
      exact and_commit hprofile hr₂
    · simp [setEntries, profileEntries, h0, hf₁, hf₂]

/-- `wifiConfig` on a text that is cut by its first space, by what opening the store answers. -/
theorem wifiConfig_cut {arguments pre post : Text} (h0 : 0 ∉ arguments)
    (hcut : (addressed arguments).2 = pre ++ space :: post) (hspace : space ∉ pre) (d : Device ρ)
    {opened : Bool} {nvs : Flash} (hopen : nvsOpen d.nvs = (opened, nvs)) :
    let saved := saveProfile (addressed arguments).1 pre post nvs
    wifiConfig arguments d =
      if pre = [] ∨ post = [] then
        d.answerNvs d.nvs [lit "error: usage wifi-config [<0|1> ]<ssid> <password>"] false
      else if pre.length ≥ 33 ∨ post.length ≥ 65 then
        d.answerNvs d.nvs [lit "error: Wi-Fi credential is too long"] false
      else if opened then
        d.answerNvs saved.2
          [if saved.1 then lit "wifi profile accepted and persisted"
            else lit "error: Wi-Fi profile save failed"] saved.1
      else d.answerNvs nvs [nvsUnavailable] false := by
  obtain ⟨hslot, hcursor⟩ := addressed_eq arguments
  have hzero : 0 ∉ (addressed arguments).2 := by
    unfold addressed
    split_ifs
    · exact fun h => h0 (List.mem_of_mem_drop h)
    · exact fun h => h0 (List.mem_of_mem_drop h)
    · exact h0
  have hpost := byteAt_cut (hcut ▸ hzero)
  simp only [wifiConfig, hslot, hcursor, hcut, strchr_append hspace, hpost, drop_cut,
    List.length_eq_zero_iff, List.take_left', hopen]
  cases opened <;> rfl

theorem setting_cut {arguments pre post : Text} (hcut : (addressed arguments).2 = pre ++ space :: post)
    (hspace : space ∉ pre) : setting arguments = ⟨(addressed arguments).1, pre, post⟩ := by
  rw [setting, hcut, takeWhile_cut hspace, dropWhile_cut hspace, List.tail_cons]

/-- A rejected `wifi-config` leaves the device as it is. -/
theorem wifiConfig_rejects {arguments : Text} (h0 : 0 ∉ arguments)
    (hs : ¬ (setting arguments).Acceptable) (d : Device ρ) :
    ∃ line, wifiConfig arguments d = ⟨d, [line], false⟩ := by
  cases hc : strchr (addressed arguments).2 space with
  | none =>
    obtain ⟨-, hcursor⟩ := addressed_eq arguments
    refine ⟨lit "error: usage wifi-config [<0|1> ]<ssid> <password>", ?_⟩
    simp only [wifiConfig, hcursor, hc]
    rfl
  | some separator =>
    obtain ⟨pre, post, hcut, hspace, -⟩ := (strchr_eq_some_iff _ _ _).mp hc
    rw [setting_cut hcut hspace, Setting.Acceptable] at hs
    rw [wifiConfig_cut h0 hcut hspace d (show nvsOpen d.nvs = (_, _) from rfl)]
    by_cases hempty : pre = [] ∨ post = []
    · exact ⟨_, if_pos hempty⟩
    · have hlong : pre.length ≥ 33 ∨ post.length ≥ 65 := by
        by_contra hshort
        push Not at hempty hshort
        exact hs ⟨hempty.1, hempty.2, Nat.le_of_lt_succ hshort.1, Nat.le_of_lt_succ hshort.2⟩
      rw [if_neg hempty, if_pos hlong]
      exact ⟨_, rfl⟩

/-- An accepted `wifi-config` saves its setting. -/
theorem wifiConfig_accepts {arguments : Text} (h0 : 0 ∉ arguments)
    (hs : (setting arguments).Acceptable) {d : Device ρ} (hr : d.nvs.Reliable) :
    let s := setting arguments
    ∃ nvs line, wifiConfig arguments d = ⟨{ d with nvs := nvs }, [line], true⟩ ∧ nvs.Reliable ∧
      nvs.store.find = setEntries d.nvs.store.find (profileEntries s.slot s.ssid s.password) := by
  cases hc : strchr (addressed arguments).2 space with
  | none =>
    have hnot := (strchr_eq_none_iff _ _).mp hc
    have hpassword : (setting arguments).password = [] := by
      rw [setting, dropWhile_of_notMem hnot, List.tail_nil]
    exact absurd hpassword hs.2.1
  | some separator =>
    obtain ⟨pre, post, hcut, hspace, -⟩ := (strchr_eq_some_iff _ _ _).mp hc
    rw [setting_cut hcut hspace] at hs ⊢
    obtain ⟨hpre, hpost, hssid, hpassword⟩ := hs
    obtain ⟨nvs, hsave, hreliable, hfind⟩ :=
      saveProfile_reliable (n := ⟨d.nvs.store, []⟩) rfl (addressed arguments).1 pre post
    refine ⟨nvs, lit "wifi profile accepted and persisted", ?_, hreliable, hfind⟩
    have hfits : ¬ (pre.length ≥ 33 ∨ post.length ≥ 65) := by
      simp only at hssid hpassword
      omega
    rw [wifiConfig_cut h0 hcut hspace d (nvsOpen_reliable hr), if_neg (by simp [hpre, hpost]),
      if_neg hfits, hsave]
    rfl

/-! ### The store mirrors the last writes -/

/-- The entries under two keys hold a profile, or nothing. -/
def Holds (s : Store) (ssidKey passwordKey : Text) : Option (Text × Text) → Prop
  | none => s.find ssidKey = none ∧ s.find passwordKey = none
  | some (ssid, password) => s.find ssidKey = some (.str ssid) ∧
      s.find passwordKey = some (.str password) ∧ ∀ slot, Setting.Acceptable ⟨slot, ssid, password⟩

structure Mirrors (s : Store) (profiles : Slots) : Prop where
  slot : ∀ i : Fin 2, Holds s (ssidKey i) (passwordKey i) (profiles i)
  legacy : Holds s (lit "wifi_ssid") (lit "wifi_password") (profiles 0)

theorem loadProfile_of_holds {s : Store} {ssidKey passwordKey : Text} {profile : Option (Text × Text)}
    (h : Holds s ssidKey passwordKey profile) : loadProfile s ssidKey passwordKey = profile := by
  cases profile with
  | none => simp [loadProfile, readString, Store.getStr, h.1]
  | some p =>
    obtain ⟨hs, hp, ha⟩ := h
    obtain ⟨hne, hne', hl, hl'⟩ := ha 0
    have hssid : readString s ssidKey 33 = some p.1 :=
      readString_eq_some_iff.mpr ⟨hs, Nat.lt_succ_of_le hl, hne⟩
    have hpassword : readString s passwordKey 65 = some p.2 :=
      readString_eq_some_iff.mpr ⟨hp, Nat.lt_succ_of_le hl', hne'⟩
    simp only [loadProfile, hssid, hpassword]
    rfl

/-- What a mirroring store holds is what is loaded. -/
theorem loadProfiles_of_mirrors {nvs : Flash} (hr : nvs.Reliable) {profiles : Slots}
    (h : Mirrors nvs.store profiles) : loadProfiles nvs = profiles := by
  have hopen := nvsOpen_reliable hr
  funext slot
  have hslot := loadProfile_of_holds (h.slot slot)
  simp only [loadProfiles, hopen, hslot]
  by_cases h0 : slot.val = 0
  · obtain rfl : slot = 0 := Fin.ext h0
    rw [if_pos h0, loadProfile_of_holds h.legacy, Option.or_self]
  · rw [if_neg h0]

theorem holds_congr {s s' : Store} {ssidKey passwordKey : Text} {profile : Option (Text × Text)}
    (hs : s'.find ssidKey = s.find ssidKey) (hp : s'.find passwordKey = s.find passwordKey)
    (h : Holds s ssidKey passwordKey profile) : Holds s' ssidKey passwordKey profile := by
  cases profile with
  | none => exact ⟨hs.trans h.1, hp.trans h.2⟩
  | some p => exact ⟨hs.trans h.1, hp.trans h.2.1, h.2.2⟩

theorem setEntries_of_notMem {find : Text → Option NvsValue} {entries : List (Text × Text)}
    {key : Text} (h : key ∉ entries.map Prod.fst) : setEntries find entries key = find key := by
  induction entries generalizing find with
  | nil => rfl
  | cons e entries ih =>
    rw [List.map_cons, List.mem_cons, not_or] at h
    show setEntries (Function.update find e.1 _) entries key = find key
    rw [ih h.2, Function.update_of_ne h.1]

theorem setEntries_of_mem {find : Text → Option NvsValue} {entries : List (Text × Text)}
    (hn : (entries.map Prod.fst).Nodup) {key value : Text} (h : (key, value) ∈ entries) :
    setEntries find entries key = some (.str (cString value)) := by
  induction entries generalizing find with
  | nil => cases h
  | cons e entries ih =>
    rw [List.map_cons, List.nodup_cons] at hn
    show setEntries (Function.update find e.1 _) entries key = _
    rcases List.mem_cons.mp h with rfl | h
    · rw [setEntries_of_notMem hn.1, Function.update_self]
    · exact ih hn.2 h

/-- The keys of a profile are the same for every setting. -/
theorem profileKeys_eq (slot : Nat) (ssid password : Text) :
    (profileEntries slot ssid password).map Prod.fst = (profileEntries slot [] []).map Prod.fst := by
  unfold profileEntries
  split_ifs <;> rfl

theorem profileKeys_nodup (slot : Fin 2) : ((profileEntries slot [] []).map Prod.fst).Nodup := by
  revert slot
  decide

theorem setEntries_profile {slot : Fin 2} {ssid password key value : Text}
    (h : (key, value) ∈ profileEntries slot ssid password) (h0 : 0 ∉ value)
    (find : Text → Option NvsValue) :
    setEntries find (profileEntries slot ssid password) key = some (.str value) := by
  have hnodup : ((profileEntries slot ssid password).map Prod.fst).Nodup := by
    rw [profileKeys_eq]
    exact profileKeys_nodup slot
  rw [setEntries_of_mem hnodup h, (cString_eq_self_iff value).mpr h0]

theorem profileEntries_value {slot : Nat} {ssid password : Text} :
    ∀ e ∈ profileEntries slot ssid password, e.2 = ssid ∨ e.2 = password := by
  intro e he
  simp only [profileEntries] at he
  grind

/-- A saved profile is found again, entry by entry. -/
theorem setEntries_saved {slot : Fin 2} {ssid password : Text} (hs : 0 ∉ ssid) (hp : 0 ∉ password)
    (find : Text → Option NvsValue) : ∀ e ∈ profileEntries slot ssid password,
      setEntries find (profileEntries slot ssid password) e.1 = some (.str e.2) := by
  intro e he
  have h0 : 0 ∉ e.2 := by
    rcases profileEntries_value e he with h | h
    · rwa [h]
    · rwa [h]
  exact setEntries_profile he h0 find

theorem setEntries_other {slot : Nat} {key : Text} (h : key ∉ (profileEntries slot [] []).map Prod.fst)
    (find : Text → Option NvsValue) (ssid password : Text) :
    setEntries find (profileEntries slot ssid password) key = find key := by
  rw [← profileKeys_eq slot ssid password] at h
  exact setEntries_of_notMem h

theorem profileKeys_disjoint {i slot : Fin 2} (h : i ≠ slot) :
    ssidKey i ∉ (profileEntries slot [] []).map Prod.fst ∧
    passwordKey i ∉ (profileEntries slot [] []).map Prod.fst := by
  revert i slot
  decide

theorem legacyKeys_notMem : lit "wifi_ssid" ∉ (profileEntries 1 [] []).map Prod.fst ∧
    lit "wifi_password" ∉ (profileEntries 1 [] []).map Prod.fst := by decide

/-- Saving a profile is a write of its slot. -/
theorem Mirrors.save {s s' : Store} {profiles : Slots} (h : Mirrors s profiles) {v : Setting}
    (ha : v.Acceptable) (hs0 : 0 ∉ v.ssid) (hp0 : 0 ∉ v.password)
    (hs : s'.find = setEntries s.find (profileEntries v.slot v.ssid v.password)) :
    Mirrors s' (Function.update profiles v.slot (some (v.ssid, v.password))) := by
  obtain ⟨slot, ssid, password⟩ := v
  have hin : ∀ e ∈ profileEntries slot ssid password, s'.find e.1 = some (.str e.2) := by
    rw [hs]
    exact setEntries_saved hs0 hp0 s.find
  have hout : ∀ key, key ∉ (profileEntries slot [] []).map Prod.fst → s'.find key = s.find key := by
    intro key hkey
    rw [hs, setEntries_other hkey]
  constructor
  · intro i
    by_cases hi : i = slot
    · subst hi
      rw [Function.update_self]
      exact ⟨hin (ssidKey i, ssid) (by simp [profileEntries]),
        hin (passwordKey i, password) (by simp [profileEntries]), fun _ => ha⟩
    · rw [Function.update_of_ne hi]
      obtain ⟨hssid, hpassword⟩ := profileKeys_disjoint hi
      exact holds_congr (hout _ hssid) (hout _ hpassword) (h.slot i)
  · by_cases h0 : slot = 0
    · subst h0
      rw [Function.update_self]
      exact ⟨hin (lit "wifi_ssid", ssid) (by simp [profileEntries]),
        hin (lit "wifi_password", password) (by simp [profileEntries]), fun _ => ha⟩
    · obtain rfl : slot = 1 := by omega
      rw [Function.update_of_ne (show (0 : Fin 2) ≠ 1 by decide)]
      exact holds_congr (hout _ legacyKeys_notMem.1) (hout _ legacyKeys_notMem.2) h.legacy

/-! ### Lines -/

theorem zero_notMem_setting {arguments : Text} (h0 : 0 ∉ arguments) :
    0 ∉ (setting arguments).ssid ∧ 0 ∉ (setting arguments).password := by
  have hrest : 0 ∉ (addressed arguments).2 := by
    unfold addressed
    split_ifs
    · exact fun h => h0 (List.mem_of_mem_drop h)
    · exact fun h => h0 (List.mem_of_mem_drop h)
    · exact h0
  constructor
  · exact fun h => hrest ((List.takeWhile_prefix _).subset h)
  · exact fun h => hrest ((List.dropWhile_suffix _).subset (List.mem_of_mem_tail h))

theorem configured_of_refused {input : List UInt8} (h : Refused input) (slot : Fin 2) :
    configured slot input = none := by
  obtain ⟨lines, status, hr, -⟩ := h
  rw [configured, hr]

theorem clears_of_config {input : List UInt8} (hw : word input = lit "wifi-config") (slot : Fin 2) :
    clears slot input = false := by
  have hne : (lit "wifi-config" == lit "wifi-profile-clear") = false := by decide
  rw [clears, hw, hne, Bool.false_and]

theorem configured_of_clears (slot : Fin 2) (input : List UInt8) (h : clears slot input = true) :
    configured slot input = none := by
  rw [clears, Bool.and_eq_true, beq_iff_eq] at h
  rcases route_asks h.1 rfl with hr | ⟨-, hroute⟩
  · exact configured_of_refused hr slot
  · rw [configured, hroute]

/-- What a line does to a reliable device that mirrors `profiles`. -/
structure LineStep (d : Device ρ) (profiles : Slots) (input : List UInt8)
    (done : Dispatched (Device ρ)) : Prop where
  reliable : done.device.nvs.Reliable
  mirrors : Mirrors done.device.nvs.store fun slot => (configured slot input).or (profiles slot)
  reported : ∀ m : Slots, m.after input (done.status = .ok) =
    fun slot => registerStep (configured slot) (clears slot) (m slot) input

/-- A line that writes nothing and reports no success. -/
theorem lineStep_of_unchanged {d : Device ρ} (hr : d.nvs.Reliable) {profiles : Slots}
    (hm : Mirrors d.nvs.store profiles) {input : List UInt8} {done : Dispatched (Device ρ)}
    (hdevice : done.device = d) (hstatus : done.status ≠ .ok)
    (hnone : ∀ slot, configured slot input = none) : LineStep d profiles input done where
  reliable := by rw [hdevice]; exact hr
  mirrors := by
    rw [hdevice]
    simpa only [hnone, Option.none_or] using hm
  reported m := by
    funext slot
    simp [Slots.after, registerStep, hnone, hstatus]

/-- A line with an acceptable setting. -/
theorem lineStep_accepted (others : DeviceServices (Device ρ)) {d : Device ρ} (hr : d.nvs.Reliable)
    {profiles : Slots} (hm : Mirrors d.nvs.store profiles) {input : List UInt8}
    (hw : word input = lit "wifi-config") (hroute : route input = .ask (.wifiConfig (argument input)))
    (ha : (setting (argument input)).Acceptable) :
    LineStep d profiles input (dispatch (services others) d (some input)) := by
  have h0 := zero_notMem_argument input
  obtain ⟨nvs, line, hreply, hreliable, hfind⟩ := wifiConfig_accepts h0 ha hr
  obtain ⟨hs0, hp0⟩ := zero_notMem_setting h0
  have hdone : dispatch (services others) d (some input) =
      ⟨.ok, [.wifiConfig (argument input)], [line], { d with nvs := nvs }⟩ :=
    dispatch_accepted hroute hreply
  have hconfigured : ∀ slot, configured slot input =
      if (setting (argument input)).slot = slot then
        some ((setting (argument input)).ssid, (setting (argument input)).password)
      else none := fun slot => by
    simp only [configured, hroute, ha, true_and]
  rw [hdone]
  refine ⟨hreliable, ?_, fun m => funext fun slot => ?_⟩
  · have hsaved := hm.save ha hs0 hp0 hfind
    have hsame : Function.update profiles (setting (argument input)).slot
        (some ((setting (argument input)).ssid, (setting (argument input)).password)) =
        fun slot => (configured slot input).or (profiles slot) := funext fun slot => by
      rw [hconfigured]
      by_cases hslot : (setting (argument input)).slot = slot
      · subst hslot
        simp
      · rw [if_neg hslot, Option.none_or, Function.update_of_ne (Ne.symm hslot)]
    rwa [hsame] at hsaved
  · rw [registerStep, hconfigured, clears_of_config hw]
    by_cases hslot : (setting (argument input)).slot = slot <;>
      simp [Slots.after, hw, hslot, clears_of_config hw]

theorem line_step (others : DeviceServices (Device ρ)) {d : Device ρ} (hr : d.nvs.Reliable)
    {profiles : Slots} (hm : Mirrors d.nvs.store profiles) {input : List UInt8}
    (hw : word input = lit "wifi-config" ∨ word input = lit "wifi-profile-clear") :
    LineStep d profiles input (dispatch (services others) d (some input)) := by
  have hrefused : Refused input →
      LineStep d profiles input (dispatch (services others) d (some input)) := fun h => by
    obtain ⟨hdevice, hstatus⟩ := h.dispatch_eq (services others) d
    exact lineStep_of_unchanged hr hm hdevice hstatus (configured_of_refused h)
  rcases hw with hw | hw
  · rcases route_asks hw rfl with h | ⟨-, hroute⟩
    · exact hrefused h
    · by_cases ha : (setting (argument input)).Acceptable
      · exact lineStep_accepted others hr hm hw hroute ha
      · obtain ⟨line, hreply⟩ := wifiConfig_rejects (zero_notMem_argument input) ha d
        have hdone : dispatch (services others) d (some input) =
            ⟨.invalid, [.wifiConfig (argument input)], [line], d⟩ := dispatch_rejected hroute hreply
        rw [hdone]
        refine lineStep_of_unchanged hr hm rfl (by simp) fun slot => ?_
        simp only [configured, hroute, ha, false_and, if_false]
  · rcases route_asks hw rfl with h | ⟨-, hroute⟩
    · exact hrefused h
    · obtain ⟨line, hreply⟩ := wifiProfileClear_rejects (argument input) d
      have hdone : dispatch (services others) d (some input) =
          ⟨.invalid, [.wifiProfileClear (argument input)], [line], d⟩ :=
        dispatch_rejected hroute hreply
      rw [hdone]
      refine lineStep_of_unchanged hr hm rfl (by simp) fun slot => ?_
      simp only [configured, hroute]

theorem mirrors_none {s : Store}
    (h : ∀ key ∈ (profileEntries 0 [] [] ++ profileEntries 1 [] []).map Prod.fst, s.find key = none) :
    Mirrors s fun _ => none where
  slot i := by
    have hkeys : ∀ i : Fin 2,
        ssidKey i ∈ (profileEntries 0 [] [] ++ profileEntries 1 [] []).map Prod.fst ∧
        passwordKey i ∈ (profileEntries 0 [] [] ++ profileEntries 1 [] []).map Prod.fst := by decide
    exact ⟨h _ (hkeys i).1, h _ (hkeys i).2⟩
  legacy := ⟨h _ (by decide), h _ (by decide)⟩

/-- After any lines the store mirrors the last writes, and the reports follow the register. -/
theorem afterLines_mirrors (others : DeviceServices (Device ρ)) {d : Device ρ} (hr : d.nvs.Reliable)
    {profiles : Slots} (hm : Mirrors d.nvs.store profiles) (m : Slots) {lines : List (List UInt8)}
    (hlines : ∀ input ∈ lines,
      word input = lit "wifi-config" ∨ word input = lit "wifi-profile-clear") :
    let after := afterLines (services others) d lines
    after.nvs.Reliable ∧
    Mirrors after.nvs.store (fun slot =>
      lines.foldl (fun held input => (configured slot input).or held) (profiles slot)) ∧
    expected (services others) d m lines = fun slot =>
      lines.foldl (registerStep (configured slot) (clears slot)) (m slot) := by
  induction lines generalizing d profiles m with
  | nil => exact ⟨hr, hm, rfl⟩
  | cons input lines ih =>
    obtain ⟨hreliable, hmirrors, hreported⟩ := line_step others hr hm (hlines input List.mem_cons_self)
    have hrest := ih hreliable hmirrors
      (m.after input ((dispatch (services others) d (some input)).status = .ok))
      fun x hx => hlines x (List.mem_cons_of_mem input hx)
    refine ⟨hrest.1, hrest.2.1, ?_⟩
    rw [expected, hrest.2.2, hreported]
    rfl

/-- The loaded profiles are the map of the commands exactly when every clear of a profile that was
configured is followed by another configuration of its slot. -/
theorem stored_profiles (others : DeviceServices (Device ρ)) (d : Device ρ) (hr : d.nvs.Reliable)
    (hnone : ∀ key ∈ [lit "wifi_ssid", lit "wifi_password", lit "wifi_ssid_0", lit "wifi_password_0",
      lit "wifi_ssid_1", lit "wifi_password_1"], d.nvs.store.find key = none)
    (lines : List (List UInt8)) (hlines : ∀ input ∈ lines,
      word input = lit "wifi-config" ∨ word input = lit "wifi-profile-clear") :
    loadProfiles (afterLines (services others) d lines).nvs =
      expected (services others) d (fun _ => none) lines ↔
    ∀ slot, Rewritten (configured slot) (clears slot) lines := by
  have hkeys : ∀ key ∈ (profileEntries 0 [] [] ++ profileEntries 1 [] []).map Prod.fst,
      key ∈ [lit "wifi_ssid", lit "wifi_password", lit "wifi_ssid_0", lit "wifi_password_0",
        lit "wifi_ssid_1", lit "wifi_password_1"] := by decide
  obtain ⟨hreliable, hmirrors, hexpected⟩ := afterLines_mirrors others hr
    (mirrors_none fun key hkey => hnone key (hkeys key hkey)) (fun _ => none) hlines
  rw [loadProfiles_of_mirrors hreliable hmirrors, hexpected, funext_iff]
  exact forall_congr' fun slot => latch_eq_register_iff (configured_of_clears slot) lines

theorem stored_profiles_home :
    let lines := [lit "wifi-config home secret", lit "wifi-config 1 work secret"]
    loadProfiles (afterLines silentServices blank lines).nvs =
      expected silentServices blank (fun _ => none) lines ↔
    ∀ slot, Rewritten (configured slot) (clears slot) lines :=
  stored_profiles _ blank rfl (fun _ _ => rfl) _ (by decide)

/-- A cleared profile is still loaded. -/
theorem cleared_profile_loaded :
    let lines := [lit "wifi-config 0 home secret", lit "wifi-profile-clear 0 --confirm"]
    loadProfiles (afterLines silentServices blank lines).nvs 0 = some (lit "home", lit "secret") ∧
    expected silentServices blank (fun _ => none) lines 0 = none := by
  decide

end Esp32Shell.Idf.WifiProfiles
