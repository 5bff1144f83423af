import Esp32Shell.Idf.AppRuntime
import Esp32Shell.Idf.Firmware
import Esp32Shell.Shell.CommandLines

/-!
# What a line leaves alone

Every line of the shell, whatever the flash and the file system do, changes the
keys of the configuration alone, and writes no file with a zero byte.
-/
namespace Esp32Shell.Idf.LineFrame

open Esp32Shell.Library.CText
open Shell.CommandCore Shell.CommandLines Storage.Nvs Storage.LittleFs CommandServices Firmware

variable {ρ : Type}

/-! ### Keys -/

/-- The keys that some line writes or erases. -/
def configurationKeys : List Text :=
  [lit "wifi_ssid", lit "wifi_password", lit "wifi_ssid_0", lit "wifi_password_0",
   lit "wifi_ssid_1", lit "wifi_password_1", lit "ssh_username", lit "ssh_password",
   lit "ssh_host_key", lit "ota_public_key", lit "app_public_key"]

/-- The value under a key stays. -/
def KeepsKey (key : Text) (n m : Flash) : Prop := m.store.find key = n.store.find key

section
variable {key : Text} {n : Flash}

theorem keeps_fallible {effect : Store → Option Store}
    (h : ∀ s, effect n.store = some s → s.find key = n.store.find key) :
    KeepsKey key n (fallible effect n).2 := by
  unfold fallible KeepsKey
  split
  next s hs =>
    split at hs
    · exact h s hs
    · cases hs
  next => rfl

theorem keeps_open (key : Text) (n : Flash) : KeepsKey key n (nvsOpen n).2 :=
  keeps_fallible fun s hs => by cases hs; rfl

theorem keeps_opened {opened : Bool} {m : Flash} (h : nvsOpen n = (opened, m)) : KeepsKey key n m := by
  have hkeeps := keeps_open key n
  rwa [h] at hkeeps

theorem keeps_commit (key : Text) (n : Flash) : KeepsKey key n (nvsCommit n).2 := keeps_open key n

theorem keeps_setStr {key' : Text} (h : key ≠ key') (value : Text) (n : Flash) :
    KeepsKey key n (nvsSetStr key' value n).2 :=
  keeps_fallible fun s hs => by rw [Store.setStr_eq_some hs, Function.update_of_ne h]

theorem keeps_setBlob {key' : Text} (h : key ≠ key') (bytes : List UInt8) (n : Flash) :
    KeepsKey key n (nvsSetBlob key' bytes n).2 :=
  keeps_fallible fun s hs => by rw [Store.setBlob_eq_some hs, Function.update_of_ne h]

theorem keeps_erase {key' : Text} (h : key ≠ key') (n : Flash) :
    KeepsKey key n (nvsEraseKey key' n).2 := by
  unfold nvsEraseKey KeepsKey
  split
  · rfl
  split
  · rfl
  · exact Function.update_of_ne h _ _

theorem keeps_and {a b : Call} (ha : KeepsKey key n (a n).2)
    (hb : ∀ m, KeepsKey key m (b m).2) : KeepsKey key n (a.and b n).2 := by
  simp only [Call.and]
  split
  · exact (hb _).trans ha
  · exact ha

theorem keeps_eraseKeys {keys : List Text} (h : key ∉ keys) (n : Flash) :
    KeepsKey key n (eraseKeys keys n) := by
  induction keys generalizing n with
  | nil => rfl
  | cons key' keys ih =>
    rw [List.mem_cons, not_or] at h
    exact (ih h.2 _).trans (keeps_erase h.1 n)

/-- The keys of a slot. -/
theorem slot_keys (h : key ∉ configurationKeys) {slot : Nat} (hslot : slot ≤ 1) :
    key ≠ ssidKey slot ∧ key ≠ passwordKey slot := by
  have hkeys : ∀ s ≤ 1, ssidKey s ∈ configurationKeys ∧ passwordKey s ∈ configurationKeys := by
    decide
  obtain ⟨hssid, hpassword⟩ := hkeys slot hslot
  exact ⟨fun he => h (he ▸ hssid), fun he => h (he ▸ hpassword)⟩

theorem keeps_saveProfile (h : key ∉ configurationKeys) {slot : Nat} (hslot : slot ≤ 1)
    (ssid password : Text) (n : Flash) : KeepsKey key n (saveProfile slot ssid password n).2 := by
  obtain ⟨hssid, hpassword⟩ := slot_keys h hslot
  have hlegacy : key ≠ lit "wifi_ssid" ∧ key ≠ lit "wifi_password" := by
    constructor <;> rintro rfl <;> exact h (by decide)
  have hprofile : ∀ n, KeepsKey key n
      (((nvsSetStr (ssidKey slot) ssid).and (nvsSetStr (passwordKey slot) password)) n).2 := fun n =>
    keeps_and (keeps_setStr hssid ssid n) fun m => keeps_setStr hpassword password m
  refine keeps_and ?_ fun m => keeps_commit key m
  split
  · exact keeps_and (hprofile n) fun m =>
      keeps_and (keeps_setStr hlegacy.1 ssid m) fun m => keeps_setStr hlegacy.2 password m
  · exact hprofile n

/-! ### The commands of the configuration -/

variable {d : Device ρ}

theorem given_slot_le (arguments : Text) :
    (if digitZero ≤ byteAt arguments 0 ∧ byteAt arguments 0 ≤ digitOne ∧ byteAt arguments 1 = space then
      (byteAt arguments 0).toNat - digitZero.toNat else 0) ≤ 1 := by
  split
  next hslot =>
    have hle := UInt8.le_iff_toNat_le.mp hslot.2.1
    have hone : digitOne.toNat = 49 := rfl
    have hzero : digitZero.toNat = 48 := rfl
    omega
  next => exact Nat.zero_le 1

theorem keeps_wifiConfig (h : key ∉ configurationKeys) (arguments : Text) (d : Device ρ) :
    KeepsKey key d.nvs (wifiConfig arguments d).device.nvs := by
  have hslot := given_slot_le arguments
  simp only [wifiConfig]
  generalize (if digitZero ≤ byteAt arguments 0 ∧ byteAt arguments 0 ≤ digitOne ∧
    byteAt arguments 1 = space then (byteAt arguments 0).toNat - digitZero.toNat else 0) = slot at hslot ⊢
  generalize (if digitZero ≤ byteAt arguments 0 ∧ byteAt arguments 0 ≤ digitOne ∧
    byteAt arguments 1 = space then arguments.drop 2 else arguments) = cursor
  split
  · rfl
  split
  · rfl
  split
  · rfl
  split
  next nvs hopen => exact keeps_opened hopen
  next nvs hopen =>
    have hnvs : KeepsKey key d.nvs nvs := keeps_opened hopen
    exact (keeps_saveProfile h hslot _ _ nvs).trans hnvs

theorem keeps_wifiProfiles (key : Text) (d : Device ρ) :
    KeepsKey key d.nvs (wifiProfiles d).device.nvs := by
  simp only [wifiProfiles]
  split
  next nvs hopen => exact keeps_opened hopen
  next nvs hopen => exact keeps_opened hopen

theorem keeps_wifiProfileClear (h : key ∉ configurationKeys) (arguments : Text) (d : Device ρ) :
    KeepsKey key d.nvs (wifiProfileClear arguments d).device.nvs := by
  simp only [wifiProfileClear]
  split
  · rfl
  next hargs =>
    split
    next nvs hopen => exact keeps_opened hopen
    next nvs hopen =>
      have hnvs : KeepsKey key d.nvs nvs := keeps_opened hopen
      refine (keeps_commit key _).trans ((keeps_eraseKeys ?_ nvs).trans hnvs)
      push Not at hargs
      have hslot : (byteAt arguments 0).toNat - digitZero.toNat ≤ 1 := by
        have hparse := hargs.2.2.2
        unfold parseSlot at hparse
        split at hparse
        · exact absurd rfl hparse
        next hdigit =>
          rw [not_or, not_or] at hdigit
          have hle := UInt8.le_iff_toNat_le.mp (UInt8.not_lt.mp hdigit.2.1)
          have hone : digitOne.toNat = 49 := rfl
          have hzero : digitZero.toNat = 48 := rfl
          omega
      obtain ⟨hssid, hpassword⟩ := slot_keys h hslot
      have hlegacy : key ≠ lit "wifi_ssid" ∧ key ≠ lit "wifi_password" := by
        constructor <;> rintro rfl <;> exact h (by decide)
      split <;> simp [hssid, hpassword, hlegacy]

theorem keeps_configList (key : Text) (d : Device ρ) :
    KeepsKey key d.nvs (configList d).device.nvs := by
  simp only [configList]
  split
  next nvs hopen => exact keeps_opened hopen
  next nvs hopen => exact keeps_opened hopen

theorem keeps_configGet (key : Text) (arguments : Text) (d : Device ρ) :
    KeepsKey key d.nvs (configGet arguments d).device.nvs := by
  simp only [configGet]
  split
  · rfl
  split
  next nvs hopen => exact keeps_opened hopen
  next nvs hopen =>
    have hnvs : KeepsKey key d.nvs nvs := keeps_opened hopen
    split
    · exact hnvs
    split <;> exact hnvs

theorem keeps_configSet (h : key ∉ configurationKeys) (arguments : Text) (d : Device ρ) :
    KeepsKey key d.nvs (configSet arguments d).device.nvs := by
  simp only [configSet]
  split
  · rfl
  next separator _ =>
    split
    · rfl
    split
    · rfl
    split
    · rfl
    next hallowed =>
      have hkey : key ≠ arguments.take separator := by
        rintro rfl
        apply h
        by_cases hota : arguments.take separator = lit "ota_public_key"
        · rw [hota]
          decide
        · have hcredential : allowedConfigKey (arguments.take separator) = true := by
            by_contra hnot
            exact hallowed ⟨hnot, hota⟩
          simp only [allowedConfigKey, Bool.or_eq_true, beq_iff_eq] at hcredential
          rcases hcredential with (hname | hname) | hname <;> rw [hname] <;> decide
      split
      next nvs hopen => exact keeps_opened hopen
      next nvs hopen =>
        have hnvs : KeepsKey key d.nvs nvs := keeps_opened hopen
        split
        · split
          · exact hnvs
          split
          · exact hnvs
          · exact (keeps_and (keeps_setBlob hkey _ nvs) fun m => keeps_commit key m).trans hnvs
        · exact (keeps_and (keeps_setStr hkey _ nvs) fun m => keeps_commit key m).trans hnvs

theorem keeps_configClear (h : key ∉ configurationKeys) (arguments : Text) (d : Device ρ) :
    KeepsKey key d.nvs (configClear arguments d).device.nvs := by
  have hkeys : key ≠ lit "app_public_key" ∧ key ≠ lit "ota_public_key" := by
    constructor <;> rintro rfl <;> exact h (by decide)
  simp only [configClear]
  split
  · rfl
  split
  next nvs hopen => exact keeps_opened hopen
  next nvs hopen =>
    have hnvs : KeepsKey key d.nvs nvs := keeps_opened hopen
    have hgone := (keeps_erase hkeys.2 _).trans ((keeps_erase hkeys.1 nvs).trans hnvs)
    split
    · exact (keeps_commit key _).trans hgone
    · exact hgone

end

/-! ### Files -/

/-- Every file is one that was there, under the same path, or has no zero byte. -/
def Planted (fs fs' : FileSystem) : Prop :=
  ∀ p content, fs'.tree.file p = some content → fs.tree.file p = some content ∨ 0 ∉ content

theorem Planted.trans {fs fs' fs'' : FileSystem} (h : Planted fs fs') (h' : Planted fs' fs'') :
    Planted fs fs'' := fun p content hp => (h' p content hp).elim (h p content) .inr

theorem planted_of_eq {fs fs' : FileSystem} (h : fs'.tree.file = fs.tree.file) : Planted fs fs' := by
  intro p content hp
  rw [h] at hp
  exact .inl hp

/-- A tree that differs in one file, which is gone or has no zero byte. -/
theorem planted_update {fs fs' : FileSystem} {p : Path} {placed : Option (List UInt8)}
    (h : fs'.tree.file = Function.update fs.tree.file p placed)
    (hzero : ∀ content, placed = some content → 0 ∉ content) : Planted fs fs' := by
  intro q content hq
  rw [h] at hq
  by_cases hqp : q = p
  · rw [hqp, Function.update_self] at hq
    exact .inr (hzero content hq)
  · rw [Function.update_of_ne hqp] at hq
    exact .inl hq

section
variable {fs : FileSystem} {p : Path}

theorem planted_remove (fs : FileSystem) (p : Path) : Planted fs (fs.remove p).2 := by
  unfold FileSystem.remove
  split
  next h => exact planted_update (Tree.file_removeFile fs.tree p h.2.2) (by simp)
  next => exact planted_of_eq rfl

/-- An open file is empty. -/
theorem planted_fopenWb (fs : FileSystem) (p : Path) : Planted fs (fs.fopenWb p).2 ∧
    ((fs.fopenWb p).1 = true → (fs.fopenWb p).2.tree.file p = some []) := by
  unfold FileSystem.fopenWb
  split
  next h =>
    refine ⟨planted_update (Tree.file_setFile fs.tree p [] h.2.1 h.2.2) (by simp), fun _ => ?_⟩
    rw [Tree.file_setFile, Function.update_self]
  next => exact ⟨planted_of_eq rfl, fun h => by cases h⟩

theorem fwrite_writes (fs : FileSystem) (p : Path) (content : List UInt8) : ∃ written,
    written <+: content ∧ fs.fwrite p content =
      if h : fs.tree.entry p ≠ some .dir ∧ fs.tree.entry p.dropLast = some .dir then
        (written.length,
          ⟨fs.tree.setFile p ((fs.tree.file p).getD [] ++ written) h.1 h.2, fs.results.tail⟩)
      else (0, fs.spent) := by
  cases houtcome : fs.outcome with
  | none => exact ⟨content, List.prefix_rfl, by simp only [FileSystem.fwrite, houtcome]⟩
  | some k => exact ⟨content.take k, List.take_prefix k content, by simp only [FileSystem.fwrite, houtcome]⟩

theorem planted_fwrite {held content : List UInt8} (hheld : fs.tree.file p = some held) (h0 : 0 ∉ held)
    (hcontent : 0 ∉ content) : Planted fs (fs.fwrite p content).2 ∧
      ∃ held', (fs.fwrite p content).2.tree.file p = some held' ∧ 0 ∉ held' := by
  obtain ⟨written, hbegins, heq⟩ := fwrite_writes fs p content
  rw [heq]
  split
  next h =>
    have hfile := Tree.file_setFile fs.tree p ((fs.tree.file p).getD [] ++ written) h.1 h.2
    have hzero : 0 ∉ (fs.tree.file p).getD [] ++ written := by
      rw [hheld]
      exact fun hm => (List.mem_append.mp hm).elim h0 fun hw => hcontent (hbegins.subset hw)
    exact ⟨planted_update hfile fun c hc => by cases hc; exact hzero,
      _, (congrFun hfile p).trans (Function.update_self ..), hzero⟩
  next => exact ⟨planted_of_eq rfl, held, hheld, h0⟩

theorem planted_rename {old : Path} {held : List UInt8} (hheld : fs.tree.file old = some held)
    (h0 : 0 ∉ held) (new : Path) : Planted fs (fs.rename old new).2 := by
  unfold FileSystem.rename
  split
  next content hold =>
    have heq : content = held := by
      have hfile := Tree.file_eq_some_iff.mp hheld
      rw [hold] at hfile
      simpa using hfile
    split
    next h =>
      intro q c hq
      rw [Tree.file_moveFile] at hq
      by_cases hqn : q = new
      · rw [hqn, Function.update_self] at hq
        obtain rfl := Option.some_inj.mp hq
        exact .inr (heq ▸ h0)
      · rw [Function.update_of_ne hqn] at hq
        by_cases hqo : q = old
        · rw [hqo, Function.update_self] at hq
          cases hq
        · rw [Function.update_of_ne hqo] at hq
          exact .inl hq
    next => exact planted_of_eq rfl
  next => exact planted_of_eq rfl

/-- An upload of a text, from an empty temporary file. -/
theorem planted_upload {temp : Path} (htemp : fs.tree.file temp = some []) {content : Text}
    (h0 : 0 ∉ content) (path : Path) : Planted fs (upload content temp path fs).2 := by
  obtain ⟨hwrite, held, hheld, hzero⟩ := planted_fwrite htemp (by simp) h0
  simp only [upload]
  split
  next hwritten =>
    split
    next =>
      have hspent : (fs.fwrite temp content).2.spent.tree.file temp = some held := hheld
      exact hwrite.trans (planted_rename hspent hzero path)
    next => exact hwrite.trans (planted_remove (fs.fwrite temp content).2.spent temp)
  next => exact hwrite.trans (planted_remove (fs.fwrite temp content).2 temp)

end

theorem planted_fsWrite {arguments : Text} (h0 : 0 ∉ arguments) (d : Device ρ) :
    Planted d.fs (fsWrite arguments d).device.fs := by
  have hsame : Planted d.fs d.fs := planted_of_eq rfl
  simp only [fsWrite]
  split
  · exact hsame
  next separator _ =>
    split
    · exact hsame
    split
    · exact hsame
    split
    · exact hsame
    split
    · exact hsame
    next path _ _ =>
      have hopen := planted_fopenWb d.fs (resolve (path ++ lit ".tmp"))
      split
      next fs hfs =>
        rw [hfs] at hopen
        exact hopen.1
      next fs hfs =>
        rw [hfs] at hopen
        have hcontent : 0 ∉ arguments.drop (separator + 1) := fun hm => h0 (List.mem_of_mem_drop hm)
        exact hopen.1.trans (planted_upload (hopen.2 rfl) hcontent (resolve path))

theorem planted_fsRemove (arguments : Text) (d : Device ρ) :
    Planted d.fs (fsRemove arguments d).device.fs := by
  have hsame : Planted d.fs d.fs := planted_of_eq rfl
  simp only [fsRemove]
  split
  · exact hsame
  split
  · exact hsame
  split
  · exact hsame
  split
  · exact hsame
  · exact planted_remove d.fs _

theorem planted_fsRead (arguments : Text) (d : Device ρ) :
    Planted d.fs (fsRead arguments d).device.fs := by
  have hsame : Planted d.fs d.fs := planted_of_eq rfl
  simp only [fsRead]
  split
  · exact hsame
  next path _ =>
    have hopen : ∀ answer fs, d.fs.fopenRb (resolve path) = (answer, fs) → Planted d.fs fs := by
      intro answer fs hfs
      obtain rfl : d.fs.spent = fs := congrArg Prod.snd hfs
      exact planted_of_eq rfl
    split
    next fs hfs => exact hopen _ _ hfs
    next content fs hfs =>
      split <;> exact hopen _ _ hfs

/-! ### Lines -/

/-- The other methods read the flash at most. -/
theorem others_keep (call : ServiceCall) (d : Image) :
    (others.respond call d).device.nvs = d.nvs ∧ (others.respond call d).device.fs = d.fs := by
  cases call with
  | fsList arguments =>
    have hdevice := fsList_device arguments { d with rest := d.rest.meanwhile }
    have hnvs := congrArg Device.nvs hdevice
    have hfs := congrArg Device.fs hdevice
    exact ⟨hnvs, hfs⟩
  | gpioRead arguments =>
    have hdevice := gpioRead_device arguments { d with rest := d.rest.meanwhile }
    have hnvs := congrArg Device.nvs hdevice
    have hfs := congrArg Device.fs hdevice
    exact ⟨hnvs, hfs⟩
  | gpioWrite arguments =>
    have hdevice := gpioWrite_device arguments { d with rest := d.rest.meanwhile }
    have hnvs := congrArg Device.nvs hdevice
    have hfs := congrArg Device.fs hdevice
    exact ⟨hnvs, hfs⟩
  | _ => exact ⟨rfl, rfl⟩

/-- The methods that are about NVS alone. -/
def ofConfiguration : ServiceCall → Bool
  | .wifiConfig _ | .wifiProfiles | .wifiProfileClear _ | .configList | .configGet _ | .configSet _
  | .configClear _ => true
  | _ => false

theorem configuration_scope (others : DeviceServices (Device ρ)) {call : ServiceCall}
    (h : ofConfiguration call = true) (d : Device ρ) :
    ((services others).respond call d).device.fs = d.fs ∧
      ((services others).respond call d).device.rest = d.rest := by
  cases call with
  | wifiConfig arguments =>
    simp only [services, wifiConfig, Device.answerNvs]
    repeat' split
    all_goals exact ⟨rfl, rfl⟩
  | wifiProfiles =>
    simp only [services, wifiProfiles, Device.answerNvs]
    split <;> exact ⟨rfl, rfl⟩
  | wifiProfileClear arguments =>
    simp only [services, wifiProfileClear, Device.answerNvs]
    repeat' split
    all_goals exact ⟨rfl, rfl⟩
  | configList =>
    simp only [services, configList, Device.answerNvs]
    split <;> exact ⟨rfl, rfl⟩
  | configGet arguments =>
    simp only [services, configGet, Device.answerNvs]
    repeat' split
    all_goals exact ⟨rfl, rfl⟩
  | configSet arguments =>
    simp only [services, configSet, Device.answerNvs]
    repeat' split
    all_goals exact ⟨rfl, rfl⟩
  | configClear arguments =>
    simp only [services, configClear, Device.answerNvs]
    repeat' split
    all_goals exact ⟨rfl, rfl⟩
  | _ => cases h

theorem configuration_keeps (others : DeviceServices (Device ρ)) {key : Text}
    (hkey : key ∉ configurationKeys) {call : ServiceCall} (h : ofConfiguration call = true)
    (d : Device ρ) :
    KeepsKey key d.nvs ((services others).respond call d).device.nvs := by
  cases call with
  | wifiConfig arguments => exact keeps_wifiConfig hkey arguments d
  | wifiProfiles => exact keeps_wifiProfiles key d
  | wifiProfileClear arguments => exact keeps_wifiProfileClear hkey arguments d
  | configList => exact keeps_configList key d
  | configGet arguments => exact keeps_configGet key arguments d
  | configSet arguments => exact keeps_configSet hkey arguments d
  | configClear arguments => exact keeps_configClear hkey arguments d
  | _ => cases h

theorem fsWrite_scope (arguments : Text) (d : Device ρ) :
    (fsWrite arguments d).device.nvs = d.nvs ∧ (fsWrite arguments d).device.rest = d.rest := by
  simp only [fsWrite, Device.answerFs]
  repeat' split
  all_goals exact ⟨rfl, rfl⟩

theorem fsRemove_scope (arguments : Text) (d : Device ρ) :
    (fsRemove arguments d).device.nvs = d.nvs ∧ (fsRemove arguments d).device.rest = d.rest := by
  simp only [fsRemove, Device.answerFs]
  repeat' split
  all_goals exact ⟨rfl, rfl⟩

theorem fsRead_scope (arguments : Text) (d : Device ρ) :
    (fsRead arguments d).device.nvs = d.nvs ∧ (fsRead arguments d).device.rest = d.rest := by
  simp only [fsRead, Device.answerFs]
  repeat' split
  all_goals exact ⟨rfl, rfl⟩

/-- What the lines of a shell leave alone. -/
structure Kept (d d' : Device ρ) : Prop where
  keys : ∀ key, key ∉ configurationKeys → KeepsKey key d.nvs d'.nvs
  files : Planted d.fs d'.fs

theorem kept_refl (d : Device ρ) : Kept d d := ⟨fun _ _ => rfl, planted_of_eq rfl⟩

theorem kept_of_eq {d d' : Device ρ} (hnvs : d'.nvs = d.nvs) (hfiles : Planted d.fs d'.fs) : Kept d d' :=
  ⟨fun key _ => by rw [KeepsKey, hnvs], hfiles⟩

theorem kept_configuration (others : DeviceServices (Device ρ)) {call : ServiceCall}
    (h : ofConfiguration call = true) (d : Device ρ) :
    Kept d ((services others).respond call d).device :=
  ⟨fun _ hkey => configuration_keeps others hkey h d,
    planted_of_eq (by rw [(configuration_scope others h d).1])⟩

/-- The methods that are about single files. -/
def ofFiles : ServiceCall → Bool
  | .fsRead _ | .fsWrite _ | .fsRemove _ => true
  | _ => false

theorem firmware_others {call : ServiceCall} (hconfiguration : ofConfiguration call ≠ true)
    (hfiles : ofFiles call ≠ true) (d : Image) : firmware.respond call d = others.respond call d := by
  cases call <;> first | rfl | exact absurd rfl hconfiguration | exact absurd rfl hfiles

/-- A call whose text has no terminator in it. -/
theorem kept_respond {call : ServiceCall} (h0 : 0 ∉ carried call) (d : Image) :
    Kept d (firmware.respond call d).device := by
  by_cases hconfiguration : ofConfiguration call = true
  · exact kept_configuration others hconfiguration d
  by_cases hfiles : ofFiles call = true
  · cases call with
    | fsRead arguments => exact kept_of_eq (fsRead_scope arguments d).1 (planted_fsRead arguments d)
    | fsWrite arguments => exact kept_of_eq (fsWrite_scope arguments d).1 (planted_fsWrite h0 d)
    | fsRemove arguments => exact kept_of_eq (fsRemove_scope arguments d).1 (planted_fsRemove arguments d)
    | _ => cases hfiles
  · obtain ⟨hnvs, hfs⟩ := others_keep call d
    rw [firmware_others hconfiguration hfiles]
    exact kept_of_eq hnvs (planted_of_eq (by rw [hfs]))

/-- A line does to the device what one call does, or nothing. -/
theorem line_call {σ : Type} (services : DeviceServices σ) (device : σ) (input : List UInt8) :
    (dispatch services device (some input)).device = device ∨
    ∃ call, 0 ∉ carried call ∧ (dispatch services device (some input)).calls = [call] ∧
      (dispatch services device (some input)).device = (services.respond call device).device := by
  cases hr : route input with
  | say lines status =>
    left
    simp only [dispatch, hr, Action.perform]
  | invoke call =>
    right
    refine ⟨call, zero_notMem_carried (.inl hr), ?_⟩
    simp only [dispatch, hr, Action.perform, and_self]
  | ask call =>
    right
    refine ⟨call, zero_notMem_carried (.inr hr), ?_⟩
    simp only [dispatch, hr, Action.perform, and_self]
  | close =>
    right
    refine ⟨.closeSession, by simp [carried], ?_⟩
    simp only [dispatch, hr, Action.perform, and_self]

theorem kept_line (d : Image) (input : List UInt8) :
    Kept d (dispatch firmware d (some input)).device := by
  rcases line_call firmware d input with hsame | ⟨call, h0, -, hcall⟩
  · rw [hsame]
    exact kept_refl d
  · rw [hcall]
    exact kept_respond h0 d

end Esp32Shell.Idf.LineFrame
