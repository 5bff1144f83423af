import Esp32Shell.Idf.ConfigOutput
import Esp32Shell.Idf.FileCalls
import Esp32Shell.Idf.SshLifetime
import Esp32Shell.Shell.Twins
import Esp32Shell.Storage.VeiledFlash

/-!
# Secrets in whole sessions

Two devices that differ in the secrets of their configuration alone, through any
number of sessions with all the commands. Neither a line nor a turn of another
task tells the devices apart, and what differs stays within the secrets.
-/
namespace Esp32Shell.Idf.Secrecy

open Esp32Shell.Library.CText
open Shell.CommandCore Shell.Session Shell.Twins
open Storage.Nvs Storage.VeiledFlash CommandServices ConfigOutput Firmware
open Arduino.ConfigOutput (secretKeys)

variable {ρ : Type}

/-! ### Two flashes -/

/-- What no command tells apart under a key. -/
def secretVeil : Veil where
  covers key v v' := v = v' ∨ key ∈ secretKeys ∧ v.map NvsValue.type = v'.map NvsValue.type ∧
    ∀ text text', v = some (.str text) → v' = some (.str text') →
      (key ∈ listedKeys → (text.length ≤ 1 ↔ text'.length ≤ 1)) ∧
      (key = lit "ssh_pw_hash" → printed text = printed text')
  refl _ _ := .inl rfl
  isSome key v v' h :=
    (ofKeys secretKeys).isSome key v v' (h.imp_right fun hsecret => ⟨hsecret.1, hsecret.2.1⟩)

theorem covered_of_alike {s s' : Store} (h : Store.Alike (· ∈ secretKeys) s s')
    (hlisted : SameListed s s') (hdigest : SameDigest s s') : Covered secretVeil s s' := by
  intro key
  by_cases hkey : key ∈ secretKeys
  · refine .inr ⟨hkey, h.type key, fun text text' hs hs' => ⟨fun hl => ?_, fun hd => ?_⟩⟩
    · exact hlisted key hkey hl text text' hs hs'
    · rw [hd] at hs hs'
      exact hdigest text text' hs hs'
  · exact .inl (h.find key hkey)

section
variable {s s' : Store}

theorem alike_of_covered (h : Covered secretVeil s s') : Store.Alike (· ∈ secretKeys) s s' :=
  covered_ofKeys_iff.mp fun key => (h key).imp_right fun hsecret => ⟨hsecret.1, hsecret.2.1⟩

theorem sameListed_of_covered (h : Covered secretVeil s s') : SameListed s s' := by
  intro key _ hl text text' hs hs'
  rcases h key with he | hsecret
  · rw [hs, hs'] at he
    cases he
    exact Iff.rfl
  · exact (hsecret.2.2 text text' hs hs').1 hl

theorem sameDigest_of_covered (h : Covered secretVeil s s') : SameDigest s s' := by
  intro text text' hs hs'
  rcases h (lit "ssh_pw_hash") with he | hsecret
  · rw [hs, hs'] at he
    cases he
    rfl
  · exact (hsecret.2.2 text text' hs hs').2 rfl

end

theorem blind_saveProfile (slot : Nat) (ssid password : Text) :
    BlindCall secretVeil (saveProfile slot ssid password) := by
  have hboth : ∀ ssidKey passwordKey,
      BlindCall secretVeil ((nvsSetStr ssidKey ssid).and (nvsSetStr passwordKey password)) :=
    fun ssidKey passwordKey => (blind_setStr ssidKey ssid).and (blind_setStr passwordKey password)
  unfold saveProfile
  refine BlindCall.and ?_ blind_commit
  split
  · exact (hboth _ _).and (hboth _ _)
  · exact hboth _ _

theorem same_eraseKeys {n n' : Flash} (h : SameFlash secretVeil n n') (keys : List Text) :
    SameFlash secretVeil (eraseKeys keys n) (eraseKeys keys n') := by
  induction keys generalizing n n' with
  | nil => exact h
  | cons key keys ih => exact ih (same_erase h key).2

/-! ### Two devices -/

/-- Devices that differ in their secrets, and beside them as far as `R` lets them. -/
structure Twin (R : ρ → ρ → Prop) (d d' : Device ρ) : Prop where
  nvs : SameFlash secretVeil d.nvs d'.nvs
  fs : d.fs = d'.fs
  rest : R d.rest d'.rest

section
variable {R : ρ → ρ → Prop} {d d' : Device ρ}

theorem alike_answerNvs (h : Twin R d d') {n n' : Flash} (hn : SameFlash secretVeil n n')
    (lines : List Text) (answer : Bool) :
    Alike (Twin R) (d.answerNvs n lines answer) (d'.answerNvs n' lines answer) :=
  ⟨⟨hn, h.fs, h.rest⟩, rfl, rfl⟩

theorem alike_unchanged (h : Twin R d d') (lines : List Text) (answer : Bool) :
    Alike (Twin R) (d.answerNvs d.nvs lines answer) (d'.answerNvs d'.nvs lines answer) :=
  alike_answerNvs h h.nvs lines answer

/-- A call whose outcome is reported. -/
theorem alike_called (h : Twin R d d') {c : Call} (hc : BlindCall secretVeil c) {n n' : Flash}
    (hn : SameFlash secretVeil n n') (report : Bool → Text) :
    Alike (Twin R) (d.answerNvs (c n).2 [report (c n).1] (c n).1)
      (d'.answerNvs (c n').2 [report (c n').1] (c n').1) := by
  obtain ⟨hanswer, hafter⟩ := hc n n' hn
  rw [hanswer]
  exact alike_answerNvs h hafter _ _

/-- Both devices open NVS, or neither does. -/
theorem opened_alike (h : Twin R d d') : ∃ opened n n', nvsOpen d.nvs = (opened, n) ∧
    nvsOpen d'.nvs = (opened, n') ∧ SameFlash secretVeil n n' := by
  have hopen := blind_open _ _ h.nvs
  generalize nvsOpen d.nvs = first at hopen ⊢
  generalize nvsOpen d'.nvs = second at hopen ⊢
  obtain ⟨opened, n⟩ := first
  obtain ⟨opened', n'⟩ := second
  obtain ⟨rfl, hn⟩ := hopen
  exact ⟨opened, n, n', rfl, rfl, hn⟩

theorem alike_wifiConfig (h : Twin R d d') (arguments : Text) :
    Alike (Twin R) (wifiConfig arguments d) (wifiConfig arguments d') := by
  obtain ⟨opened, n, n', hopen, hopen', hn⟩ := opened_alike h
  simp only [wifiConfig, hopen, hopen']
  generalize (if digitZero ≤ byteAt arguments 0 ∧ byteAt arguments 0 ≤ digitOne ∧
    byteAt arguments 1 = space then (byteAt arguments 0).toNat - digitZero.toNat else 0) = slot
  generalize (if digitZero ≤ byteAt arguments 0 ∧ byteAt arguments 0 ≤ digitOne ∧
    byteAt arguments 1 = space then arguments.drop 2 else arguments) = cursor
  split
  · exact alike_unchanged h _ _
  split
  · exact alike_unchanged h _ _
  split
  · exact alike_unchanged h _ _
  cases opened with
  | false => exact alike_answerNvs h hn _ _
  | true => exact alike_called h (blind_saveProfile slot _ _) hn fun saved =>
      if saved then lit "wifi profile accepted and persisted"
      else lit "error: Wi-Fi profile save failed"

/-- A command that only reads changes nothing but the calls that are left. -/
theorem alike_reads (h : Twin R d d') {command : Device ρ → Reply (Device ρ)}
    (hreads : ∀ d opened n, nvsOpen d.nvs = (opened, n) → command d = d.answerNvs n (command d).lines true)
    (hlines : (command d).lines = (command d').lines) : Alike (Twin R) (command d) (command d') := by
  obtain ⟨opened, n, n', hopen, hopen', hn⟩ := opened_alike h
  rw [hreads d opened n hopen, hreads d' opened n' hopen', hlines]
  exact alike_answerNvs h hn _ _

theorem alike_wifiProfiles (h : Twin R d d') : Alike (Twin R) (wifiProfiles d) (wifiProfiles d') := by
  refine alike_reads h (fun d opened n hopen => ?_)
    (wifiProfiles_alike h.nvs.results (alike_of_covered h.nvs.covered))
  simp only [wifiProfiles, hopen]
  cases opened <;> rfl

theorem alike_wifiProfileClear (h : Twin R d d') (arguments : Text) :
    Alike (Twin R) (wifiProfileClear arguments d) (wifiProfileClear arguments d') := by
  obtain ⟨opened, n, n', hopen, hopen', hn⟩ := opened_alike h
  simp only [wifiProfileClear, hopen, hopen']
  split
  · exact alike_unchanged h _ _
  cases opened with
  | false => exact alike_answerNvs h hn _ _
  | true => exact alike_called h blind_commit (same_eraseKeys hn _) fun committed =>
      if committed then lit "wifi profile cleared" else lit "error: Wi-Fi profile clear failed"

theorem alike_configList (h : Twin R d d') : Alike (Twin R) (configList d) (configList d') := by
  have hlines := (configList_alike h.nvs.results (alike_of_covered h.nvs.covered)).mpr fun _ =>
    sameListed_of_covered h.nvs.covered
  refine alike_reads h (fun d opened n hopen => ?_) hlines
  simp only [configList, hopen]
  cases opened <;> rfl

theorem alike_configGet (h : Twin R d d') (arguments : Text) :
    Alike (Twin R) (configGet arguments d) (configGet arguments d') := by
  by_cases hne : arguments = []
  · simp only [configGet, if_pos hne]
    exact alike_unchanged h _ _
  have hlines := (configGet_alike h.nvs.results (alike_of_covered h.nvs.covered) hne).mpr fun _ _ =>
    sameDigest_of_covered h.nvs.covered
  refine alike_reads h (fun d opened n hopen => ?_) hlines
  simp only [configGet, if_neg hne, hopen]
  cases opened with
  | false => rfl
  | true =>
    simp only
    split
    · rfl
    · split <;> rfl

theorem alike_configSet (h : Twin R d d') (arguments : Text) :
    Alike (Twin R) (configSet arguments d) (configSet arguments d') := by
  obtain ⟨opened, n, n', hopen, hopen', hn⟩ := opened_alike h
  simp only [configSet, hopen, hopen']
  split
  · exact alike_unchanged h _ _
  next separator _ =>
    have hreport : ∀ set : Call, BlindCall secretVeil set → _ := fun set hset =>
      alike_called h (hset.and blind_commit) hn fun saved =>
        if saved then
          (if isSecret (arguments.take separator) then lit "configuration updated (redacted)"
            else lit "configuration updated")
        else lit "error: configuration save failed"
    split
    · exact alike_unchanged h _ _
    split
    · exact alike_unchanged h _ _
    split
    · exact alike_unchanged h _ _
    cases opened with
    | false => exact alike_answerNvs h hn _ _
    | true =>
      simp only
      split
      · split
        · exact alike_answerNvs h hn _ _
        split
        · exact alike_answerNvs h hn _ _
        next publicKey _ => exact hreport _ (blind_setBlob _ publicKey)
      · exact hreport _ (blind_setStr _ _)

theorem alike_configClear (h : Twin R d d') (arguments : Text) :
    Alike (Twin R) (configClear arguments d) (configClear arguments d') := by
  obtain ⟨opened, n, n', hopen, hopen', hn⟩ := opened_alike h
  simp only [configClear, hopen, hopen']
  split
  · exact alike_unchanged h _ _
  cases opened with
  | false => exact alike_answerNvs h hn _ _
  | true =>
    obtain ⟨happ, hafter⟩ := same_erase hn (lit "app_public_key")
    obtain ⟨hota, hgone⟩ := same_erase hafter (lit "ota_public_key")
    simp only [happ, hota]
    split
    · exact alike_called h blind_commit hgone fun committed =>
        if committed then lit "configuration cleared (credentials preserved)"
        else lit "error: configuration clear failed"
    · exact alike_answerNvs h hgone _ _

/-! ### The files -/

theorem alike_answerFs (h : Twin R d d') (fs : Storage.LittleFs.FileSystem) (lines : List Text)
    (answer : Bool) : Alike (Twin R) (d.answerFs fs lines answer) (d'.answerFs fs lines answer) :=
  ⟨⟨h.nvs, rfl, h.rest⟩, rfl, rfl⟩

theorem alike_fsRead (h : Twin R d d') (arguments : Text) :
    Alike (Twin R) (fsRead arguments d) (fsRead arguments d') := by
  simp only [fsRead, h.fs]
  split
  · exact alike_answerFs h _ _ _
  split
  · exact alike_answerFs h _ _ _
  · split <;> exact alike_answerFs h _ _ _

theorem alike_answered (h : Twin R d d') (p : FileCalls.FileProgram) :
    Alike (Twin R) (FileCalls.answered p d) (FileCalls.answered p d') := by
  simp only [FileCalls.answered, h.fs]
  exact alike_answerFs h _ _ _

/-- The services of the configuration and of single files, beside any others that are blind. -/
theorem blind_services {others : DeviceServices (Device ρ)} (hothers : ∀ c, Blind others (Twin R) c)
    (c : ServiceCall) : Blind (services others) (Twin R) c := by
  intro d d' h
  cases c with
  | wifiConfig arguments => exact alike_wifiConfig h arguments
  | wifiProfiles => exact alike_wifiProfiles h
  | wifiProfileClear arguments => exact alike_wifiProfileClear h arguments
  | configList => exact alike_configList h
  | configGet arguments => exact alike_configGet h arguments
  | configSet arguments => exact alike_configSet h arguments
  | configClear arguments => exact alike_configClear h arguments
  | fsRead arguments => exact alike_fsRead h arguments
  | fsWrite arguments =>
    simp only [services, FileCalls.fsWrite_eq]
    exact alike_answered h _
  | fsRemove arguments =>
    simp only [services, FileCalls.fsRemove_eq]
    exact alike_answered h _
  | _ => exact hothers _ d d' h

end

/-! ### The station -/

/-- Setups of the station that differ in the passwords of the profiles. -/
structure SameSetup (w w' : WifiStation.Setup) : Prop where
  tickRateHz : w.tickRateHz = w'.tickRateHz
  ssid : ∀ slot, (w.profiles slot).ssid = (w'.profiles slot).ssid
  enabled : ∀ slot, (w.profiles slot).enabled = (w'.profiles slot).enabled

section
open WifiStation (Station Setup)
variable {w w' : Setup}

theorem SameSetup.configured (h : SameSetup w w') : w.configured = w'.configured := by
  rw [Setup.configured, Setup.configured, h.enabled, h.enabled]

/-- An attempt goes the same way, with another password. -/
theorem applyProfile_same (h : SameSetup w w') (s : Station) (slot : Fin 2) (a : WifiStation.Attempt) :
    (WifiStation.applyProfile w s slot a).1 = (WifiStation.applyProfile w' s slot a).1 ∧
    (WifiStation.applyProfile w s slot a).2.ok = (WifiStation.applyProfile w' s slot a).2.ok := by
  obtain ⟨hstation, -, hok⟩ := WifiStation.applyProfile_eq w s slot a
  obtain ⟨hstation', -, hok'⟩ := WifiStation.applyProfile_eq w' s slot a
  rw [hstation, hstation', hok, hok', h.enabled]
  exact ⟨rfl, rfl⟩

theorem applyProfiles_same (h : SameSetup w w') (attempts : Fin 2 → WifiStation.Attempt)
    (offsets : List (Fin 2)) (s : Station) : (WifiStation.applyProfiles w attempts offsets s).1 =
      (WifiStation.applyProfiles w' attempts offsets s).1 := by
  induction offsets generalizing s with
  | nil => rfl
  | cons offset offsets ih =>
    obtain ⟨hstation, hok⟩ := applyProfile_same h s (s.nextSlot + offset) (attempts offset)
    simp only [WifiStation.applyProfiles, hstation, hok]
    split
    · rfl
    · exact ih _

theorem next_same (h : SameSetup w w') (s : Station) (e : WifiStation.Event) :
    WifiStation.next w s e = WifiStation.next w' s e := by
  cases e with
  | pass p =>
    have hswitch : w.switchCooldownTicks = w'.switchCooldownTicks := by
      rw [Setup.switchCooldownTicks, Setup.switchCooldownTicks, h.tickRateHz]
    have hattempt : w.attemptTicks = w'.attemptTicks := by
      rw [Setup.attemptTicks, Setup.attemptTicks, h.tickRateHz]
    simp only [WifiStation.next, WifiStation.turn, WifiStation.failoverPass, h.configured, hswitch, hattempt]
    split_ifs
    · exact applyProfiles_same h p.attempts [0, 1] s
    · rfl
    · rfl
    · rfl
  | _ => rfl

theorem wifiStatus_same (h : SameSetup w w') (s : Station) (r : WifiStation.Readings) :
    WifiStation.wifiStatus w s r = WifiStation.wifiStatus w' s r := by
  simp only [WifiStation.wifiStatus, h.configured, h.ssid]

end

/-! ### The rest of the image -/

/-- What is neither in NVS nor in the files differs in the passwords that the station has loaded. -/
def SameRest (r r' : Rest) : Prop := ∃ w, SameSetup r.setup w ∧ r' = { r with setup := w }

theorem setup_meanwhile (r : Rest) (turns : List Turn) : (turns.foldl Rest.turn r).setup = r.setup := by
  induction turns generalizing r with
  | nil => rfl
  | cons t turns ih =>
    rw [List.foldl_cons, ih]
    cases t <;> rfl

theorem turn_same {r : Rest} {w : WifiStation.Setup} (h : SameSetup r.setup w) (t : Turn) :
    ({ r with setup := w } : Rest).turn t = { r.turn t with setup := w } := by
  cases t with
  | supervise now platforms => simp only [Rest.turn, h.tickRateHz]
  | station event => simp only [Rest.turn, next_same h]
  | _ => rfl

theorem turns_same {w : WifiStation.Setup} (turns : List Turn) {r : Rest} (h : SameSetup r.setup w) :
    turns.foldl Rest.turn { r with setup := w } = { turns.foldl Rest.turn r with setup := w } := by
  induction turns generalizing r with
  | nil => rfl
  | cons t turns ih =>
    have hturn : SameSetup (r.turn t).setup w := by
      have hsetup := setup_meanwhile r [t]
      rw [List.foldl_cons, List.foldl_nil] at hsetup
      rwa [hsetup]
    rw [List.foldl_cons, List.foldl_cons, turn_same h, ih hturn]

theorem SameRest.meanwhile {r r' : Rest} (h : SameRest r r') : SameRest r.meanwhile r'.meanwhile := by
  obtain ⟨w, hw, rfl⟩ := h
  refine ⟨w, ?_, turns_same _ hw⟩
  rw [Rest.meanwhile, setup_meanwhile]
  exact hw

/-- Whether a signed app can run is not told by the secrets. -/
theorem run_same {d d' : Image} (hnvs : SameFlash secretVeil d.nvs d'.nvs) (hfs : d.fs = d'.fs)
    {w : WifiStation.Setup} (hrest : d'.rest = { d.rest with setup := w }) (name : Text)
    (rt : AppRuntime.Runtime) : AppRuntime.run name (board d) rt = AppRuntime.run name (board d') rt := by
  have hkey : lit "app_signing_pub" ∉ secretKeys := by decide
  have hverifier : AppRuntime.loadSignatureVerifier d.nvs d.rest.crypto =
      AppRuntime.loadSignatureVerifier d'.nvs d'.rest.crypto := by
    rw [AppRuntime.loadSignatureVerifier, AppRuntime.loadSignatureVerifier, nvsOpen_eq, nvsOpen_eq,
      hnvs.results, hrest]
    cases d'.nvs.results.headD true with
    | false => rfl
    | true => simp only [Store.getBlob_congr ((alike_of_covered hnvs.covered).find _ hkey)]
  have hload : AppRuntime.loadAndVerify name (board d) = AppRuntime.loadAndVerify name (board d') := by
    simp only [AppRuntime.loadAndVerify, board, hfs, hverifier, hrest]
    rfl
  have hplatform : (board d).platform = (board d').platform := by
    simp only [board, hrest]
    rfl
  have hbehind : (board d).behind = (board d').behind := by
    simp only [board, hrest]
    rfl
  simp only [AppRuntime.run, AppRuntime.appToRun, hload, hplatform, hbehind]

abbrev Twins (d d' : Image) : Prop := Twin SameRest d d'

theorem alike_answer {d d' : Image} (h : Twins d d') {r r' : Rest} (hr : SameRest r r')
    (lines : List Text) (b : Bool) : Alike Twins (answer d r lines b) (answer d' r' lines b) := by
  obtain ⟨w, hw, rfl⟩ := hr
  exact ⟨⟨h.nvs, h.fs, w, hw, rfl⟩, rfl, rfl⟩

theorem blind_others (c : ServiceCall) : Blind others Twins c := by
  rintro ⟨nvs, fs, before⟩ ⟨nvs', fs', before'⟩ ⟨hnvs, hfs, hbefore⟩
  have hrest := hbefore.meanwhile
  have h : Twins ⟨nvs, fs, before.meanwhile⟩ ⟨nvs', fs', before'.meanwhile⟩ := ⟨hnvs, hfs, hrest⟩
  simp only [others]
  generalize before.meanwhile = r at hrest h ⊢
  generalize before'.meanwhile = r' at hrest h ⊢
  obtain ⟨w, hw, rfl⟩ := hrest
  have hsame : SameRest r { r with setup := w } := ⟨w, hw, rfl⟩
  have hchanged : ∀ {changed : Rest} (lines : List Text) (b : Bool), changed.setup = r.setup →
      Alike Twins (answer ⟨nvs, fs, r⟩ changed lines b)
        (answer ⟨nvs', fs', { r with setup := w }⟩ { changed with setup := w } lines b) :=
    fun lines b hsetup => alike_answer h ⟨w, hsetup ▸ hw, rfl⟩ lines b
  cases c with
  | wifiStatus =>
    simp only [wifiStatus, Rest.now, wifiStatus_same hw]
    exact hchanged _ _ rfl
  | fsList arguments =>
    simp only [fsList, Rest.now]
    split
    · exact alike_answer h hsame _ _
    split
    · exact alike_answer h hsame _ _
    split <;> exact alike_answer h hsame _ _
  | gpioRead arguments =>
    simp only [gpioRead]
    split <;> exact alike_answer h hsame _ _
  | gpioWrite arguments =>
    simp only [gpioWrite]
    split
    · exact alike_answer h hsame _ _
    · exact hchanged _ _ rfl
  | appRun arguments =>
    have hrun : AppRuntime.run arguments (board ⟨nvs, fs, r⟩) r.apps =
        AppRuntime.run arguments (board ⟨nvs', fs', { r with setup := w }⟩) r.apps :=
      run_same h.nvs h.fs rfl arguments r.apps
    simp only [appRun, ← hrun]
    exact hchanged _ _ rfl
  | appStop arguments => exact hchanged _ _ rfl
  | _ => exact alike_answer h hsame _ _

/-! ### Sessions -/

/-- The device of the factory with one SSH password and another Wi-Fi password. -/
def keptBy (password wifiPassword : Text) : Image :=
  { SshLifetime.factory with
    nvs := (withPassword password).nvs
    rest := { SshLifetime.factory.rest with
      setup := ⟨fun _ => .loaded (lit "home") wifiPassword, 100⟩ } }

theorem keptBy_string {password wifiPassword key text : Text}
    (h : (keptBy password wifiPassword).nvs.store.find key = some (.str text)) :
    key = lit "ssh_password" ∧ text = cString password := by
  have hfind : (withPassword password).nvs.store.find key = some (.str text) := h
  rw [withPassword_find] at hfind
  by_cases hkey : key = lit "ssh_password"
  · rw [hkey, Function.update_self] at hfind
    cases hfind
    exact ⟨hkey, rfl⟩
  · rw [Function.update_of_ne hkey] at hfind
    cases hfind

end Esp32Shell.Idf.Secrecy
