import Esp32Shell.Arduino.WifiRuns
import Esp32Shell.Arduino.Esp32Services
import Esp32Shell.Idf.SshAuth
import Esp32Shell.Idf.WifiProfiles

/-!
# What the configuration commands change

An accepted line of `wifi-config`, `wifi-profile-clear`, `config-set` or
`config-clear` as one change of the stored values and of the profiles in memory.
Both images cut the arguments alike, and neither looks at the device to accept
them.
-/
namespace Esp32Shell.Arduino.Changes

open Esp32Shell.Library.CText Esp32Shell.Library.Sha256
open Shell.CommandCore Shell.CommandTable Shell.CommandLines
open Storage.Nvs WifiService WifiRuns Preferences Esp32Services
open Idf.SshAuth (assignment assignment_cut assignment_of_notMem)
open Idf.WifiProfiles (addressed setting setEntries profileEntries)

variable {ρ : Type}

inductive Change where
  | profile (slot : Fin 2) (ssid password : Text)
  | clearProfile (slot : Fin 2)
  | text (key value : Text)
  | digest (password : Text)
  | hostKey (bytes : List UInt8)
  | clear
  deriving DecidableEq

abbrev Find := Text → Option NvsValue

def eraseEntries (find : Find) (keys : List Text) : Find :=
  keys.foldl (fun find key => Function.update find key none) find

def profileKeys (slot : Nat) : List Text := (profileEntries slot [] []).map Prod.fst

/-- The stored values after a change. -/
def Change.store (sha256 : List UInt8 → Digest) (find : Find) : Change → Find
  | .profile slot ssid password => setEntries find (profileEntries slot ssid password)
  | .clearProfile slot => eraseEntries find (profileKeys slot)
  | .text key value => Function.update find key (some (.str value))
  | .digest password => Function.update
      (Function.update find (lit "ssh_pw_hash") (some (.blob (sha256 password))))
      (lit "ssh_password") none
  | .hostKey bytes => Function.update find (lit "ssh_host_key") (some (.blob bytes))
  | .clear => fun _ => none

/-- The profiles in memory after a change. -/
def Change.profiles (profiles : Fin maxProfiles → Profile) : Change → Fin maxProfiles → Profile
  | .profile slot ssid password => Function.update profiles slot (.copied ssid password)
  | .clearProfile slot => Function.update profiles slot .cleared
  | .clear => fun _ => .cleared
  | _ => profiles

/-! ### The changes that lines ask for -/

def profileChange (arguments : Text) : Option Change :=
  let v := setting arguments
  if v.ssid ≠ [] ∧ v.password ≠ [] ∧ v.ssid.length ≤ 32 then
    some (.profile v.slot v.ssid v.password)
  else none

def clearChange (arguments : Text) : Option Change :=
  if arguments = lit "0 --confirm" then some (.clearProfile ⟨0, Nat.zero_lt_two⟩)
  else if arguments = lit "1 --confirm" then some (.clearProfile ⟨1, Nat.one_lt_two⟩)
  else none

/-- The change of a value that is given under a key. -/
def valueChange (key value : Text) : Option Change :=
  if value = [] ∨ ¬ isAllowedConfigKey key then none
  else if key = lit "ssh_password" then
    if passwordIsAcceptable value then some (.digest value) else none
  else if key = lit "ssh_host_key" then
    ((decodeHex value 1984).filter fun bytes => 128 ≤ bytes.length).map .hostKey
  else some (.text key value)

def resetChange (arguments : Text) : Option Change :=
  if arguments = lit "--confirm" then some .clear else none

/-- The change that a line asks for, if it is accepted. -/
def changeOf (input : List UInt8) : Option Change :=
  match route input with
  | .ask (.wifiConfig arguments) => profileChange arguments
  | .ask (.wifiProfileClear arguments) => clearChange arguments
  | .ask (.configSet arguments) => valueChange (assignment arguments).1 (assignment arguments).2
  | .ask (.configClear arguments) => resetChange arguments
  | _ => none

/-- What a `config-set` line gives under a key. -/
def valueGiven (key : Text) (input : List UInt8) : Option Text :=
  let a := assignment (argument input)
  if word input = lit "config-set" ∧ a.1 = key then some a.2 else none

/-- The commands that change the configuration. -/
def changing : List Text :=
  [lit "wifi-config", lit "wifi-profile-clear", lit "config-set", lit "config-clear"]

/-! ### The code -/

/-- A reliable device after a change, or after none. -/
structure Changed (sha256 : List UInt8 → Digest) (c : Option Change) (d d' : Device ρ) : Prop where
  reliable : d'.preferences_.Reliable
  find : d'.preferences_.store.find =
    c.elim d.preferences_.store.find (Change.store sha256 d.preferences_.store.find)
  profiles : d'.wifiService.profiles_ =
    c.elim d.wifiService.profiles_ (Change.profiles d.wifiService.profiles_)

/-- A method whose reply tells whether it made a change. -/
structure Answers (sha256 : List UInt8 → Digest) (c : Option Change) (d : Device ρ)
    (reply : Reply (Device ρ)) : Prop where
  changed : Changed sha256 c d reply.device
  answer : reply.answer = c.isSome

theorem answers_none {sha256 : List UInt8 → Digest} {c : Option Change} (hc : c = none)
    {d : Device ρ} (hr : d.preferences_.Reliable) {reply : Reply (Device ρ)} {lines : List Text}
    (hreply : reply = ⟨d, lines, false⟩) : Answers sha256 c d reply := by
  subst hc hreply
  exact ⟨⟨hr, rfl, rfl⟩, rfl⟩

theorem putStrings_reliable {d : Device ρ} (hr : d.preferences_.Reliable) {entries : List (Text × Text)}
    (hk : ∀ e ∈ entries, e.1.length ≤ maxKeyLength) :
    let saved := entries.foldl (fun d e => d.store (putString e.1 e.2)) d
    saved.preferences_.Reliable ∧ saved.wifiService = d.wifiService ∧
      saved.preferences_.store.find = setEntries d.preferences_.store.find entries := by
  induction entries generalizing d with
  | nil => exact ⟨hr, rfl, rfl⟩
  | cons e entries ih =>
    obtain ⟨hput, hfind⟩ := putString_reliable hr (hk e List.mem_cons_self) e.2
    obtain ⟨hreliable, hservice, hrest⟩ :=
      ih (d := d.store (putString e.1 e.2)) hput fun x hx => hk x (List.mem_cons_of_mem e hx)
    refine ⟨hreliable, hservice, hrest.trans ?_⟩
    show setEntries (putString e.1 e.2 d.preferences_).2.store.find entries = _
    rw [hfind]
    rfl

theorem removes_reliable {d : Device ρ} (hr : d.preferences_.Reliable) (keys : List Text) :
    let removed := keys.foldl (fun d key => d.store (remove key)) d
    removed.preferences_.Reliable ∧ removed.wifiService = d.wifiService ∧
      removed.preferences_.store.find = eraseEntries d.preferences_.store.find keys := by
  induction keys generalizing d with
  | nil => exact ⟨hr, rfl, rfl⟩
  | cons key keys ih =>
    obtain ⟨hremove, hfind⟩ := remove_reliable hr key
    obtain ⟨hreliable, hservice, hrest⟩ := ih (d := d.store (remove key)) hremove
    refine ⟨hreliable, hservice, hrest.trans ?_⟩
    show eraseEntries (remove key d.preferences_).2.store.find keys = _
    rw [hfind]
    rfl

/-- Both images store a profile under the same keys. -/
theorem keys_eq (slot : Fin 2) : ssidKey slot = Idf.CommandServices.ssidKey slot ∧
    passwordKey slot = Idf.CommandServices.passwordKey slot := by
  revert slot
  decide

theorem profileEntries_le (slot : Fin 2) (ssid password : Text) :
    ∀ e ∈ profileEntries slot ssid password, e.1.length ≤ maxKeyLength := by
  have hkeys : ∀ slot : Fin 2, ∀ key ∈ profileKeys slot, key.length ≤ maxKeyLength := by decide
  intro e he
  apply hkeys slot
  rw [profileKeys, ← Idf.WifiProfiles.profileKeys_eq slot ssid password]
  exact List.mem_map_of_mem he

/-- The slot and the text behind it, as `wifiConfig` computes them. -/
theorem addressed_eq (arguments : Text) :
    let given := (byteAt arguments 0 = 48 ∨ byteAt arguments 0 = 49) ∧ byteAt arguments 1 = space
    (if given then (byteAt arguments 0).toNat - 48 else 0) = (addressed arguments).1 ∧
    (if given then arguments.drop 2 else arguments) = (addressed arguments).2 := by
  by_cases hspace : byteAt arguments 1 = space
  · by_cases hzero : byteAt arguments 0 = 48
    · simp [addressed, hspace, hzero, Idf.CommandServices.digitZero]
    · by_cases hone : byteAt arguments 0 = 49
      · simp [addressed, hspace, hone, Idf.CommandServices.digitZero, Idf.CommandServices.digitOne]
      · simp [addressed, hzero, hone, Idf.CommandServices.digitZero, Idf.CommandServices.digitOne]
  · simp [addressed, hspace]

theorem zero_notMem_addressed {arguments : Text} (h0 : 0 ∉ arguments) : 0 ∉ (addressed arguments).2 := by
  intro h
  unfold addressed at h
  split_ifs at h
  · exact h0 (List.mem_of_mem_drop h)
  · exact h0 (List.mem_of_mem_drop h)
  · exact h0 h

/-- `wifi-config` on a text that is cut by its first space. -/
theorem wifiConfig_saves {d : Device ρ} {arguments pre post : Text} (h0 : 0 ∉ arguments)
    (hcut : (addressed arguments).2 = pre ++ space :: post) (hspace : space ∉ pre) (hpre : pre ≠ [])
    (hpost : post ≠ []) (hle : pre.length ≤ 32) :
    wifiConfig arguments d =
      ⟨(profileEntries (addressed arguments).1 pre post).foldl (fun d e => d.store (putString e.1 e.2))
          (d.wifi (accepted d.wifiService (addressed arguments).1 pre post d.millis, [])),
        [lit "wifi profile accepted and persisted"], true⟩ := by
  obtain ⟨hslot, hcursor⟩ := addressed_eq arguments
  obtain ⟨hssidKey, hpasswordKey⟩ := keys_eq (addressed arguments).1
  have hpost0 : byteAt (pre ++ space :: post) (pre.length + 1) ≠ 0 := by
    have hzero : 0 ∉ pre ++ space :: post := hcut ▸ zero_notMem_addressed h0
    rw [Ne, byteAt_cut hzero]
    exact hpost
  have hlength : ¬ pre.length ≥ 33 := by omega
  have hconfigure : configure d.wifiService (addressed arguments).1 (some pre) (some post) d.millis =
      (accepted d.wifiService (addressed arguments).1 pre post d.millis, true) :=
    dif_pos ⟨(addressed arguments).1.isLt, hpre⟩
  simp only [wifiConfig, hslot, hcursor, hcut, strchr_append hspace, drop_cut, List.length_eq_zero_iff,
    List.take_left', hpre, hpost0, or_self, if_false, hlength, hconfigure, profileEntries,
    ← hssidKey, ← hpasswordKey]
  by_cases hzero : ((addressed arguments).1 : Nat) = 0
  · simp only [if_pos hzero]
    rfl
  · simp only [if_neg hzero]
    rfl

/-- `wifi-config` on anything else leaves the device as it is. -/
theorem wifiConfig_refuses {d : Device ρ} {arguments : Text} (h0 : 0 ∉ arguments)
    (hc : profileChange arguments = none) :
    ∃ line, wifiConfig arguments d = ⟨d, [line], false⟩ := by
  obtain ⟨hslot, hcursor⟩ := addressed_eq arguments
  cases hcut : strchr (addressed arguments).2 space with
  | none =>
    refine ⟨lit "error: usage wifi-config [<0|1> ]<ssid> <password>", ?_⟩
    simp only [wifiConfig, hcursor, hcut]
  | some separator =>
    obtain ⟨pre, post, hrest, hspace, rfl⟩ := (strchr_eq_some_iff _ _ _).mp hcut
    have hzero : 0 ∉ pre ++ space :: post := hrest ▸ zero_notMem_addressed h0
    have hsetting := Idf.WifiProfiles.setting_cut hrest hspace
    simp only [wifiConfig, hcursor, hrest, strchr_append hspace, byteAt_cut hzero, List.length_eq_zero_iff]
    by_cases hempty : pre = [] ∨ post = []
    · exact ⟨_, if_pos hempty⟩
    rw [if_neg hempty]
    by_cases hlong : pre.length ≥ 33
    · exact ⟨_, if_pos hlong⟩
    · have hle : pre.length ≤ 32 := by omega
      push Not at hempty
      simp only [profileChange, hsetting, hempty.1, hempty.2, hle, ne_eq, not_false_eq_true, and_self,
        if_true, reduceCtorEq] at hc

theorem wifiConfig_answers (sha256 : List UInt8 → Digest) {d : Device ρ}
    (hr : d.preferences_.Reliable) {arguments : Text} (h0 : 0 ∉ arguments) :
    Answers sha256 (profileChange arguments) d (wifiConfig arguments d) := by
  cases hc : profileChange arguments with
  | none =>
    obtain ⟨line, hreply⟩ := wifiConfig_refuses (d := d) h0 hc
    exact answers_none rfl hr hreply
  | some c =>
    obtain ⟨⟨hssid, hpassword, hle⟩, hchange⟩ := Option.ite_none_right_eq_some.mp hc
    obtain rfl := Option.some_inj.mp hchange
    cases hcut : strchr (addressed arguments).2 space with
    | none =>
      have hnot := (strchr_eq_none_iff _ _).mp hcut
      have hnone : (setting arguments).password = [] := by
        rw [setting, dropWhile_of_notMem hnot, List.tail_nil]
      exact absurd hnone hpassword
    | some separator =>
      obtain ⟨pre, post, hrest, hspace, -⟩ := (strchr_eq_some_iff _ _ _).mp hcut
      have hsetting := Idf.WifiProfiles.setting_cut hrest hspace
      rw [hsetting] at hssid hpassword hle ⊢
      rw [wifiConfig_saves h0 hrest hspace hssid hpassword hle]
      obtain ⟨hreliable, hservice, hfind⟩ := putStrings_reliable
        (d := d.wifi (accepted d.wifiService (addressed arguments).1 pre post d.millis, [])) hr
        (profileEntries_le (addressed arguments).1 pre post)
      refine ⟨⟨hreliable, hfind, ?_⟩, rfl⟩
      simp only [hservice]
      funext slot
      symm
      exact Function.update_apply d.wifiService.profiles_ (addressed arguments).1 (.copied pre post) slot

theorem clearChange_digit {arguments : Text} (h : arguments.drop 1 = lit " --confirm") :
    clearChange arguments =
      if byteAt arguments 0 = 48 then some (.clearProfile 0)
      else if byteAt arguments 0 = 49 then some (.clearProfile 1)
      else none := by
  have hcons : arguments = byteAt arguments 0 :: lit " --confirm" := by
    cases arguments with
    | nil => exact absurd h (by decide)
    | cons b rest => exact congrArg (b :: ·) h
  have hzero : arguments = lit "0 --confirm" ↔ byteAt arguments 0 = 48 := by
    rw [hcons]
    exact List.cons_eq_cons.trans (and_iff_left rfl)
  have hone : arguments = lit "1 --confirm" ↔ byteAt arguments 0 = 49 := by
    rw [hcons]
    exact List.cons_eq_cons.trans (and_iff_left rfl)
  simp only [clearChange, hzero, hone]
  rfl

theorem wifiProfileClear_removes (d : Device ρ) {arguments : Text} (slot : Fin 2)
    (hslot : (byteAt arguments 0).toNat - 48 = slot)
    (hdigit : byteAt arguments 0 = 48 ∨ byteAt arguments 0 = 49)
    (h : arguments.drop 1 = lit " --confirm") :
    wifiProfileClear arguments d =
      ⟨(profileKeys slot).foldl (fun d key => d.store (remove key)) (d.wifi (clearSlot d.wifiService slot)),
        [lit "wifi profile cleared"], true⟩ := by
  obtain ⟨hssidKey, hpasswordKey⟩ := keys_eq slot
  have hok : ¬ ((byteAt arguments 0 ≠ 48 ∧ byteAt arguments 0 ≠ 49) ∨
      arguments.drop 1 ≠ lit " --confirm") := by
    intro hbad
    rcases hbad with hbad | hbad
    · exact hdigit.elim hbad.1 hbad.2
    · exact hbad h
  simp only [wifiProfileClear, if_neg hok, hslot, profileKeys, profileEntries, ← hssidKey, ← hpasswordKey]
  by_cases hzero : (slot : Nat) = 0
  · simp only [if_pos hzero]
    rfl
  · simp only [if_neg hzero]
    rfl

theorem wifiProfileClear_answers (sha256 : List UInt8 → Digest) {d : Device ρ}
    (hr : d.preferences_.Reliable) (arguments : Text) :
    Answers sha256 (clearChange arguments) d (wifiProfileClear arguments d) := by
  have hclears : ∀ slot : Fin 2, (byteAt arguments 0).toNat - 48 = slot →
      (byteAt arguments 0 = 48 ∨ byteAt arguments 0 = 49) → arguments.drop 1 = lit " --confirm" →
      Answers sha256 (some (.clearProfile slot)) d (wifiProfileClear arguments d) := by
    intro slot hslot hdigit h
    rw [wifiProfileClear_removes d slot hslot hdigit h]
    obtain ⟨hreliable, hservice, hfind⟩ := removes_reliable
      (d := d.wifi (clearSlot d.wifiService slot)) hr (profileKeys slot)
    refine ⟨⟨hreliable, hfind, ?_⟩, rfl⟩
    simp only [hservice]
    funext i
    show (clearSlot d.wifiService slot).1.profiles_ i =
      Function.update d.wifiService.profiles_ slot .cleared i
    rw [clearSlot_profiles, Function.update_apply]
    simp only [Fin.ext_iff, eq_comm]
  by_cases h : arguments.drop 1 = lit " --confirm"
  · rw [clearChange_digit h]
    by_cases hzero : byteAt arguments 0 = 48
    · rw [if_pos hzero]
      exact hclears 0 (by rw [hzero]; rfl) (.inl hzero) h
    rw [if_neg hzero]
    by_cases hone : byteAt arguments 0 = 49
    · rw [if_pos hone]
      exact hclears 1 (by rw [hone]; rfl) (.inr hone) h
    · rw [if_neg hone]
      exact answers_none rfl hr (if_pos (.inl ⟨hzero, hone⟩))
  · have hnone : clearChange arguments = none := by
      rw [clearChange, if_neg, if_neg]
      · intro he
        exact h (by rw [he]; rfl)
      · intro he
        exact h (by rw [he]; rfl)
    exact answers_none hnone hr (if_pos (.inr h))

theorem configClear_answers (sha256 : List UInt8 → Digest) {d : Device ρ}
    (hr : d.preferences_.Reliable) (arguments : Text) :
    Answers sha256 (resetChange arguments) d (configClear arguments d) := by
  by_cases h : arguments = lit "--confirm"
  · rw [resetChange, if_pos h, configClear, if_neg (not_not.mpr h)]
    obtain ⟨hreliable, hfind⟩ := clear_reliable hr
    exact ⟨⟨hreliable, hfind, funext fun slot => clear_profiles d.wifiService slot⟩, rfl⟩
  · exact answers_none (if_neg h) hr (if_pos h)

theorem isAllowedConfigKey_bounds {key : Text} (h : isAllowedConfigKey key = true) :
    key ≠ [] ∧ key.length ≤ maxKeyLength := by
  simp only [isAllowedConfigKey, Bool.or_eq_true, beq_iff_eq] at h
  rcases h with (((rfl | rfl) | rfl) | rfl) | rfl <;> decide

/-- `config-set` of an allowed key. -/
theorem configSet_allowed (sha256 : List UInt8 → Digest) {d : Device ρ}
    (hr : d.preferences_.Reliable) {key value : Text} (h0 : 0 ∉ key ++ space :: value)
    (hspace : space ∉ key) (hkey : isAllowedConfigKey key = true) (hvalue : value ≠ []) :
    Answers sha256 (valueChange key value) d (configSet sha256 (key ++ space :: value) d) := by
  obtain ⟨hne, hle⟩ := isAllowedConfigKey_bounds hkey
  have hmax : maxKeyLength = 15 := rfl
  have hlength : ¬ key.length ≥ 32 := by omega
  simp only [configSet, strchr_append hspace, byteAt_cut h0, drop_cut, List.length_eq_zero_iff,
    List.take_left', hne, hvalue, or_self, if_false, hlength, hkey, not_true_eq_false, valueChange]
  by_cases hpassword : key = lit "ssh_password"
  · rw [if_pos hpassword, if_pos hpassword]
    by_cases hacceptable : passwordIsAcceptable value = true
    · rw [if_pos hacceptable, if_neg (not_not.mpr hacceptable)]
      obtain ⟨hput, hputFind⟩ := putBytes_reliable hr
        (show (lit "ssh_pw_hash").length ≤ maxKeyLength by decide) (sha256 value)
      obtain ⟨hremove, hremoveFind⟩ := remove_reliable hput (lit "ssh_password")
      refine ⟨⟨hremove, hremoveFind.trans ?_, rfl⟩, rfl⟩
      rw [hputFind]
      rfl
    · rw [if_neg hacceptable]
      exact answers_none rfl hr (if_pos hacceptable)
  rw [if_neg hpassword, if_neg hpassword]
  by_cases hhostKey : key = lit "ssh_host_key"
  · rw [if_pos hhostKey, if_pos hhostKey]
    cases hdecode : decodeHex value 1984 with
    | none => exact answers_none rfl hr rfl
    | some bytes =>
      by_cases hshort : bytes.length < 128
      · have hnone : (some bytes).filter (fun bytes => decide (128 ≤ bytes.length)) = none :=
          Option.filter_eq_none_iff.mpr fun b hb => by
            obtain rfl := Option.some_inj.mp hb
            simpa using hshort
        exact answers_none (by rw [hnone]; rfl) hr (if_pos hshort)
      · have hsome : (some bytes).filter (fun bytes => decide (128 ≤ bytes.length)) = some bytes :=
          Option.filter_eq_some_iff.mpr ⟨rfl, by simpa using hshort⟩
        obtain ⟨hput, hfind⟩ := putBytes_reliable hr
          (show (lit "ssh_host_key").length ≤ maxKeyLength by decide) bytes
        rw [hsome]
        simp only [if_neg hshort]
        exact ⟨⟨hput, hfind, rfl⟩, rfl⟩
  · rw [if_neg hhostKey, if_neg hhostKey]
    have hzero : 0 ∉ value := fun h => h0 (by simp [h])
    obtain ⟨hput, hfind⟩ := putString_reliable hr hle value
    rw [(cString_eq_self_iff value).mpr hzero] at hfind
    exact ⟨⟨hput, hfind, rfl⟩, rfl⟩

theorem configSet_answers (sha256 : List UInt8 → Digest) {d : Device ρ}
    (hr : d.preferences_.Reliable) {arguments : Text} (h0 : 0 ∉ arguments) :
    Answers sha256 (valueChange (assignment arguments).1 (assignment arguments).2) d
      (configSet sha256 arguments d) := by
  cases hc : strchr arguments space with
  | none =>
    have hvalue := assignment_of_notMem ((strchr_eq_none_iff _ _).mp hc)
    have hreply : configSet sha256 arguments d =
        ⟨d, [lit "error: usage config-set <key> <value>"], false⟩ := by rw [configSet, hc]
    exact answers_none (if_pos (.inl hvalue)) hr hreply
  | some separator =>
    obtain ⟨key, value, rfl, hspace, rfl⟩ := (strchr_eq_some_iff _ _ _).mp hc
    rw [assignment_cut hspace]
    by_cases hgiven : value = [] ∨ ¬ isAllowedConfigKey key = true
    · have hnone : valueChange key value = none := if_pos hgiven
      simp only [configSet, hc, byteAt_cut h0, drop_cut, List.length_eq_zero_iff, List.take_left']
      by_cases hempty : key = [] ∨ value = []
      · exact answers_none hnone hr (if_pos hempty)
      have hforbidden := hgiven.resolve_left fun h => hempty (.inr h)
      rw [if_neg hempty]
      by_cases hlong : key.length ≥ 32
      · exact answers_none hnone hr (if_pos hlong)
      · rw [if_neg hlong]
        exact answers_none hnone hr (if_pos hforbidden)
    · push Not at hgiven
      exact configSet_allowed sha256 hr h0 hspace hgiven.2 hgiven.1

/-! ### Lines -/

/-- A line on a reliable device: the change it makes, and that it reports success for it. -/
structure LineChanges (sha256 : List UInt8 → Digest) (input : List UInt8) (d : Device ρ)
    (done : Dispatched (Device ρ)) : Prop where
  changed : Changed sha256 (changeOf input) d done.device
  status : done.status = .ok ↔ (changeOf input).isSome = true

theorem lineChanges_of_refused {sha256 : List UInt8 → Digest} (others : DeviceServices (Device ρ))
    {d : Device ρ} (hr : d.preferences_.Reliable) {input : List UInt8} (h : Refused input) :
    LineChanges sha256 input d (dispatch (services sha256 others) d (some input)) := by
  obtain ⟨hdevice, hstatus⟩ := h.dispatch_eq (services sha256 others) d
  have hnone : changeOf input = none := by
    obtain ⟨lines, status, hroute, -⟩ := h
    rw [changeOf, hroute]
  constructor
  · rw [hnone, hdevice]
    exact ⟨hr, rfl, rfl⟩
  · rw [hnone]
    exact iff_of_false hstatus Bool.false_ne_true

theorem lineChanges_of_answers {sha256 : List UInt8 → Digest} {others : DeviceServices (Device ρ)}
    {d : Device ρ} {input : List UInt8} {call : ServiceCall} (hroute : route input = .ask call)
    (h : Answers sha256 (changeOf input) d ((services sha256 others).respond call d)) :
    LineChanges sha256 input d (dispatch (services sha256 others) d (some input)) := by
  generalize hreply : (services sha256 others).respond call d = reply at h
  obtain ⟨device, lines, answer⟩ := reply
  obtain ⟨hchanged, hanswer⟩ := h
  rw [dispatch_ask hroute hreply]
  refine ⟨hchanged, ?_⟩
  rw [← hanswer]
  cases answer <;> simp

/-- A line of a command whose method answers makes the change of the method. -/
theorem lineChanges_of_asks {sha256 : List UInt8 → Digest} (others : DeviceServices (Device ρ))
    {d : Device ρ} (hr : d.preferences_.Reliable) {input : List UInt8} {name usage : Text}
    {method : Text → ServiceCall} (hw : word input = name)
    (hb : behaviourOf name = some (.asks usage method))
    (h : route input = .ask (method (argument input)) → Answers sha256 (changeOf input) d
      ((services sha256 others).respond (method (argument input)) d)) :
    LineChanges sha256 input d (dispatch (services sha256 others) d (some input)) := by
  rcases route_asks hw hb with hrefused | ⟨-, hroute⟩
  · exact lineChanges_of_refused others hr hrefused
  · exact lineChanges_of_answers hroute (h hroute)

/-- What a line of one of the four commands does to a reliable device. -/
theorem line_changes (sha256 : List UInt8 → Digest) (others : DeviceServices (Device ρ))
    {d : Device ρ} (hr : d.preferences_.Reliable) {input : List UInt8} (hw : word input ∈ changing) :
    LineChanges sha256 input d (dispatch (services sha256 others) d (some input)) := by
  have h0 := zero_notMem_argument input
  simp only [changing, List.mem_cons, List.not_mem_nil, or_false] at hw
  rcases hw with hw | hw | hw | hw
  · refine lineChanges_of_asks others hr hw rfl fun hroute => ?_
    simp only [changeOf, hroute]
    exact wifiConfig_answers sha256 hr h0
  · refine lineChanges_of_asks others hr hw rfl fun hroute => ?_
    simp only [changeOf, hroute]
    exact wifiProfileClear_answers sha256 hr _
  · refine lineChanges_of_asks others hr hw rfl fun hroute => ?_
    simp only [changeOf, hroute]
    exact configSet_answers sha256 hr h0
  · refine lineChanges_of_asks others hr hw rfl fun hroute => ?_
    simp only [changeOf, hroute]
    exact configClear_answers sha256 hr _

/-- What an accepted change is known to be. -/
def Change.Proper : Change → Prop
  | .profile _ ssid password =>
    (ssid ≠ [] ∧ password ≠ []) ∧ ssid.length ≤ 32 ∧ 0 ∉ ssid ∧ 0 ∉ password
  | .text key value =>
    (key = lit "wifi_ssid" ∨ key = lit "wifi_password" ∨ key = lit "ssh_username") ∧
      value ≠ [] ∧ 0 ∉ value
  | .hostKey bytes => 128 ≤ bytes.length ∧ bytes.length ≤ 1984
  | _ => True

theorem decodeHex_length {text : Text} {capacity : Nat} {bytes : List UInt8}
    (h : decodeHex text capacity = some bytes) : bytes.length ≤ capacity := by
  obtain ⟨hfits, hdecode⟩ := Option.ite_none_left_eq_some.mp h
  have hlength := Library.Hex.decodePairs_length hdecode
  omega

theorem valueChange_proper {key value : Text} (h0 : 0 ∉ value) {c : Change}
    (h : valueChange key value = some c) : c.Proper := by
  unfold valueChange at h
  split_ifs at h with hgiven hpassword hacceptable hhostKey
  · cases h
    trivial
  · obtain ⟨bytes, hbytes, rfl⟩ := Option.map_eq_some_iff.mp h
    obtain ⟨hdecode, hlength⟩ := Option.filter_eq_some_iff.mp hbytes
    exact ⟨by simpa using hlength, decodeHex_length hdecode⟩
  · cases h
    push Not at hgiven
    have hkey := hgiven.2
    simp only [isAllowedConfigKey, Bool.or_eq_true, beq_iff_eq] at hkey
    refine ⟨?_, hgiven.1, h0⟩
    rcases hkey with (((hkey | hkey) | hkey) | hkey) | hkey
    · exact .inl hkey
    · exact .inr (.inl hkey)
    · exact .inr (.inr hkey)
    · exact absurd hkey hpassword
    · exact absurd hkey hhostKey

theorem store_profile_mem (sha256 : List UInt8 → Digest) (find : Find) (slot : Fin 2)
    {ssid password key value : Text} (hmem : (key, value) ∈ profileEntries slot ssid password)
    (h0 : 0 ∉ value) :
    (Change.profile slot ssid password).store sha256 find key = some (.str value) :=
  Idf.WifiProfiles.setEntries_profile hmem h0 find

theorem store_profile_notMem (sha256 : List UInt8 → Digest) (find : Find) {slot : Fin 2}
    (ssid password : Text) {key : Text} (h : key ∉ profileKeys slot) :
    (Change.profile slot ssid password).store sha256 find key = find key :=
  Idf.WifiProfiles.setEntries_other h find ssid password

theorem eraseEntries_eq (find : Find) (keys : List Text) (key : Text) :
    eraseEntries find keys key = if key ∈ keys then none else find key := by
  induction keys generalizing find with
  | nil => simp [eraseEntries]
  | cons k keys ih =>
    show eraseEntries (Function.update find k none) keys key = _
    rw [ih]
    by_cases hk : key = k
    · simp [hk]
    · simp [hk]

theorem profileKeys_disjoint {i slot : Fin 2} (h : i ≠ slot) :
    ∀ key ∈ profileKeys slot, key ∉ profileKeys i := by
  revert i slot
  decide

/-- A line that asks for a change reaches its method. -/
theorem route_of_changeOf {name usage : Text} {method : Text → ServiceCall} {input : List UInt8}
    (hw : word input = name) (hb : behaviourOf name = some (.asks usage method)) {c : Change}
    (h : changeOf input = some c) : route input = .ask (method (argument input)) := by
  rcases route_asks hw hb with hr | ⟨-, hroute⟩
  · obtain ⟨lines, status, hsay, -⟩ := hr
    rw [changeOf, hsay] at h
    cases h
  · exact hroute

theorem changeOf_wifiConfig {input : List UInt8} (hw : word input = lit "wifi-config") {c : Change}
    (h : changeOf input = some c) : profileChange (argument input) = some c := by
  rwa [changeOf, route_of_changeOf hw rfl h] at h

theorem changeOf_wifiProfileClear {input : List UInt8} (hw : word input = lit "wifi-profile-clear")
    {c : Change} (h : changeOf input = some c) : clearChange (argument input) = some c := by
  rwa [changeOf, route_of_changeOf hw rfl h] at h

theorem changeOf_configSet {input : List UInt8} (hw : word input = lit "config-set") {c : Change}
    (h : changeOf input = some c) :
    valueChange (assignment (argument input)).1 (assignment (argument input)).2 = some c := by
  rwa [changeOf, route_of_changeOf hw rfl h] at h

theorem valueGiven_configSet {input : List UInt8} (hw : word input = lit "config-set") (key : Text) :
    valueGiven key input =
      if (assignment (argument input)).1 = key then some (assignment (argument input)).2 else none := by
  simp only [valueGiven, hw, true_and]

theorem changeOf_configClear {input : List UInt8} (hw : word input = lit "config-clear") {c : Change}
    (h : changeOf input = some c) : resetChange (argument input) = some c := by
  rwa [changeOf, route_of_changeOf hw rfl h] at h

theorem changeOf_proper {input : List UInt8} (hw : word input ∈ changing) {c : Change}
    (h : changeOf input = some c) : c.Proper := by
  have h0 := zero_notMem_argument input
  simp only [changing, List.mem_cons, List.not_mem_nil, or_false] at hw
  rcases hw with hw | hw | hw | hw
  · obtain ⟨⟨hssid, hpassword, hle⟩, hchange⟩ :=
      Option.ite_none_right_eq_some.mp (changeOf_wifiConfig hw h)
    obtain rfl := Option.some_inj.mp hchange
    exact ⟨⟨hssid, hpassword⟩, hle, Idf.WifiProfiles.zero_notMem_setting h0⟩
  · have hclear := changeOf_wifiProfileClear hw h
    unfold clearChange at hclear
    split_ifs at hclear
    · cases hclear
      trivial
    · cases hclear
      trivial
  · have hzero : 0 ∉ (assignment (argument input)).2 := fun hmem =>
      h0 ((List.dropWhile_suffix _).subset (List.mem_of_mem_tail hmem))
    exact valueChange_proper hzero (changeOf_configSet hw h)
  · obtain ⟨-, hchange⟩ := Option.ite_none_right_eq_some.mp (changeOf_configClear hw h)
    cases hchange
    trivial

theorem filterMap_accepted (lines : List (List UInt8)) :
    (lines.filter fun input => (changeOf input).isSome).filterMap changeOf = lines.filterMap changeOf := by
  have hsame : ∀ input, (if (changeOf input).isSome = true then changeOf input else none) =
      changeOf input := fun input => by cases changeOf input <;> rfl
  simp only [List.filterMap_filter, hsame]

/-- The stored values after lines that start from `find`. -/
def storedAfter (sha256 : List UInt8 → Digest) (find : Find) (lines : List (List UInt8)) : Find :=
  (lines.filterMap changeOf).foldl (Change.store sha256) find

theorem storedAfter_snoc (sha256 : List UInt8 → Digest) (find : Find) (lines : List (List UInt8))
    (input : List UInt8) : storedAfter sha256 find (lines ++ [input]) =
      (changeOf input).elim (storedAfter sha256 find lines)
        (Change.store sha256 (storedAfter sha256 find lines)) := by
  simp only [storedAfter, List.filterMap_append, List.foldl_append]
  cases h : changeOf input <;> simp [h]

/-- What every accepted line of a kind keeps holds after all of them. -/
theorem accepted_induction {P : List (List UInt8) → Prop} {C : List UInt8 → Prop} (hnil : P [])
    (hsnoc : ∀ accepted input c, P accepted → C input → changeOf input = some c → P (accepted ++ [input]))
    {accepted : List (List UInt8)} (hkind : ∀ input ∈ accepted, C input)
    (hsome : ∀ input ∈ accepted, (changeOf input).isSome = true) : P accepted := by
  induction accepted using List.reverseRecOn with
  | nil => exact hnil
  | append_singleton accepted input ih =>
    have hpast := ih (fun x hx => hkind x (by simp [hx])) fun x hx => hsome x (by simp [hx])
    obtain ⟨c, hc⟩ := Option.isSome_iff_exists.mp (hsome input (by simp))
    exact hsnoc accepted input c hpast (hkind input (by simp)) hc

/-- Only the accepted lines matter. -/
theorem storedAfter_filter (sha256 : List UInt8 → Digest) (find : Find) (lines : List (List UInt8)) :
    storedAfter sha256 find (lines.filter fun input => (changeOf input).isSome) =
      storedAfter sha256 find lines := by
  rw [storedAfter, filterMap_accepted, ← storedAfter]

/-- After any lines the store holds what the accepted ones changed. -/
theorem afterLines_store (sha256 : List UInt8 → Digest) (others : DeviceServices (Device ρ))
    {d : Device ρ} (hr : d.preferences_.Reliable) {lines : List (List UInt8)}
    (hlines : ∀ input ∈ lines, word input ∈ changing) :
    let after := afterLines (services sha256 others) d lines
    after.preferences_.Reliable ∧
      after.preferences_.store.find = storedAfter sha256 d.preferences_.store.find lines := by
  induction lines generalizing d with
  | nil => exact ⟨hr, rfl⟩
  | cons input lines ih =>
    obtain ⟨hreliable, hfind, -⟩ := (line_changes sha256 others hr (hlines input List.mem_cons_self)).changed
    obtain ⟨hafter, hstore⟩ := ih hreliable fun x hx => hlines x (List.mem_cons_of_mem input hx)
    refine ⟨hafter, ?_⟩
    show (afterLines (services sha256 others) _ lines).preferences_.store.find = _
    rw [hstore, hfind, storedAfter, storedAfter, List.filterMap_cons]
    cases changeOf input <;> rfl

theorem acceptedLines_eq (sha256 : List UInt8 → Digest) (others : DeviceServices (Device ρ))
    {d : Device ρ} (hr : d.preferences_.Reliable) {lines : List (List UInt8)}
    (hlines : ∀ input ∈ lines, word input ∈ changing) :
    acceptedLines (services sha256 others) d lines = lines.filter fun input => (changeOf input).isSome :=
  acceptedLines_eq_filter (fun _ _ hdevice hinput =>
    have hline := line_changes sha256 others hdevice hinput
    ⟨hline.changed.reliable, hline.status⟩) hr hlines

end Esp32Shell.Arduino.Changes
