import Esp32Shell.Arduino.ConsoleLines
import Esp32Shell.Arduino.FileMap
import Esp32Shell.Arduino.Secrecy

/-!
# What is typed and what is stored

The console of the sketch over whole runs, restarts included. The stored values
are those that the typed lines have changed, one after the other; the profiles in
memory are those that the last restart has loaded, with the changes since.
-/
namespace Esp32Shell.Arduino.ConsoleStore

open Esp32Shell.Library.CText Esp32Shell.Library.Sha256
open Shell.CommandCore Shell.CommandTable Shell.CommandLines Shell.LineReading
open Storage.Nvs WifiService WifiRuns Esp32Services Changes Sketch ConsoleLines
open SerialLoop hiding readByte loop afterTurns
open Idf.LineFrame (ofConfiguration)

/-- The profiles in memory after lines that start from `profiles`. -/
def profilesAfter (profiles : Fin maxProfiles → Profile) (lines : List (List UInt8)) :
    Fin maxProfiles → Profile :=
  (lines.filterMap changeOf).foldl Change.profiles profiles

/-- The profiles in memory after lines that are typed from a restart on, at given stored values. -/
def consoleProfiles (stored : Find) (lines : List Text) : Fin maxProfiles → Profile :=
  profilesAfter (Reboot.loaded (storedAfter sha256 stored (untilReboot lines))) (sinceReboot lines)

/-- The device has made the changes of the lines. -/
structure Settled (stored : Find) (lines : List Text) (d : Image) : Prop where
  reliable : d.preferences_.Reliable
  find : d.preferences_.store.find = storedAfter sha256 stored lines
  profiles : d.wifiService.profiles_ = consoleProfiles stored lines

/-! ### One line -/

/-- What the other commands leave alone. -/
def configuration (d : Image) : Flash × (Fin maxProfiles → Profile) :=
  (d.preferences_, d.wifiService.profiles_)

theorem others_configuration {call : ServiceCall} (h : call ≠ .reboot) (d : Image) :
    configuration (others.respond call d).device = configuration d := by
  cases call with
  | reboot => exact absurd rfl h
  | fsList arguments => exact (congrArg configuration (fsList_device arguments d)).trans rfl
  | gpioRead arguments => exact (congrArg configuration (gpioRead_device arguments d)).trans rfl
  | gpioWrite arguments => exact (congrArg configuration (gpioWrite_device arguments d)).trans rfl
  | _ => rfl

theorem sketch_configuration {call : ServiceCall} (h : commandName call ∉ changing) (hreboot : call ≠ .reboot)
    (d : Image) : configuration (sketch.respond call d).device = configuration d := by
  by_cases hconfiguration : ofConfiguration call = true
  · cases call with
    | wifiConfig arguments | wifiProfileClear arguments | configSet arguments | configClear arguments =>
      exact absurd (List.mem_of_elem_eq_true rfl) h
    | wifiProfiles | configList => rfl
    | configGet arguments =>
      simp only [sketch, services, configGet]
      repeat' split
      all_goals rfl
    | _ => cases hconfiguration
  · rw [FileMap.sketch_others hconfiguration]
    exact others_configuration hreboot d

/-- A line with another first word changes nothing. -/
theorem changeOf_eq_none {input : List UInt8} (hw : word input ∉ changing) : changeOf input = none := by
  have hother : ∀ call, route input = .ask call → commandName call ∉ changing := fun call hroute =>
    word_of_call (.inr hroute) ▸ hw
  unfold changeOf
  split
  next arguments hroute => exact absurd (List.mem_of_elem_eq_true rfl) (hother _ hroute)
  next arguments hroute => exact absurd (List.mem_of_elem_eq_true rfl) (hother _ hroute)
  next arguments hroute => exact absurd (List.mem_of_elem_eq_true rfl) (hother _ hroute)
  next arguments hroute => exact absurd (List.mem_of_elem_eq_true rfl) (hother _ hroute)
  next => rfl

/-- A line that does not restart makes its change on a reliable device, and no other. -/
theorem changed_line {d : Image} (hr : d.preferences_.Reliable) {input : List UInt8}
    (hruns : reboots input = false) :
    Changed sha256 (changeOf input) d (dispatch sketch d (some input)).device := by
  by_cases hw : word input ∈ changing
  · exact (line_changes sha256 others hr hw).changed
  · obtain ⟨hpreferences, hprofiles⟩ := Prod.mk.inj (kept_of_call configuration
      (fun call hroute d => sketch_configuration (word_of_call hroute ▸ hw) (call_of_runs hruns hroute) d)
      (fun d => sketch_configuration (by decide) (by decide) d) d)
    rw [changeOf_eq_none hw]
    exact ⟨by rw [hpreferences]; exact hr, by rw [hpreferences]; rfl, hprofiles⟩

/-- A line that restarts changes nothing that is stored. -/
theorem changeOf_reboots {input : List UInt8} (h : reboots input = true) : changeOf input = none := by
  unfold reboots at h
  split at h
  next hroute => rw [changeOf, hroute]
  next hroute => rw [changeOf, hroute]
  next => cases h

theorem profilesAfter_snoc (profiles : Fin maxProfiles → Profile) (lines : List (List UInt8))
    (input : List UInt8) : profilesAfter profiles (lines ++ [input]) =
      (changeOf input).elim (profilesAfter profiles lines)
        (Change.profiles (profilesAfter profiles lines)) := by
  simp only [profilesAfter, List.filterMap_append, List.foldl_append]
  cases h : changeOf input <;> simp [h]

section
variable {stored : Find} {lines : List Text}

/-- A restart loads the profiles anew. -/
theorem consoleProfiles_reboots {input : Text} (h : reboots input = true) :
    consoleProfiles stored (lines ++ [input]) = Reboot.loaded (storedAfter sha256 stored (lines ++ [input])) := by
  rw [consoleProfiles, sinceReboot_of_reboots lines h, untilReboot_of_reboots lines h]
  rfl

/-- Any other line makes its change. -/
theorem consoleProfiles_runs {input : Text} (h : reboots input = false) :
    consoleProfiles stored (lines ++ [input]) =
      (changeOf input).elim (consoleProfiles stored lines) (Change.profiles (consoleProfiles stored lines)) := by
  rw [consoleProfiles, sinceReboot_of_runs lines h, untilReboot_of_runs lines h]
  exact profilesAfter_snoc _ _ input

theorem restarted_profiles (d : Image) :
    (restarted d).wifiService.profiles_ = Reboot.loaded d.preferences_.store.find :=
  funext fun slot => Reboot.reboot_profiles _ slot

theorem Settled.restarts {d : Image} (h : Settled stored lines d) {line : Text} (hreboots : reboots line = true) :
    Settled stored (lines ++ [line]) (restarted d) := by
  have hfind : storedAfter sha256 stored (lines ++ [line]) = d.preferences_.store.find := by
    rw [storedAfter_snoc, changeOf_reboots hreboots, h.find]
    rfl
  refine ⟨?_, ?_, ?_⟩
  · rw [restarted_preferences]
    exact h.reliable
  · rw [restarted_preferences, hfind]
  · rw [consoleProfiles_reboots hreboots, hfind, restarted_profiles]

theorem Settled.runs {d : Image} (h : Settled stored lines d) {line : Text} (hruns : reboots line = false) :
    Settled stored (lines ++ [line]) (dispatch sketch d (some line)).device := by
  obtain ⟨hreliable, hfind, hprofiles⟩ := changed_line h.reliable hruns
  rw [h.find] at hfind
  rw [h.profiles] at hprofiles
  refine ⟨hreliable, ?_, ?_⟩
  · rw [storedAfter_snoc, hfind]
  · rw [consoleProfiles_runs hruns, hprofiles]

theorem Settled.tick {d : Image} (h : Settled stored lines d) (now : UInt32) (driver : Driver) :
    Settled stored lines (Reboot.happen sketch d (.loop now driver)) :=
  ⟨h.reliable, h.find, (tick_profiles _ now driver).trans h.profiles⟩

theorem carried_settled (stored : Find) : Carried (Settled stored) :=
  ⟨fun _ _ _ hruns h => h.runs hruns, fun _ _ _ hreboots h => h.restarts hreboots,
    fun _ _ now driver h => h.tick now driver⟩

end

theorem settled_setup {d : Image} (hr : d.preferences_.Reliable) :
    Settled d.preferences_.store.find [] (setup d).device := by
  have hpreferences : (setup d).device.preferences_ = d.preferences_ := restarted_preferences d
  exact ⟨by rw [hpreferences]; exact hr, by rw [hpreferences]; rfl, restarted_profiles d⟩

theorem settled_turns {d : Image} (hr : d.preferences_.Reliable) (turns : List Turn) :
    Settled d.preferences_.store.find (linesTyped turns) (afterTurns d turns).device :=
  ((carried_settled _).turns (settled_setup hr) turns).2

/-! ### The next restart -/

/-- No line stores one of the values without a slot that older firmware used. -/
def WithoutLegacy (lines : List (List UInt8)) : Prop :=
  ∀ input ∈ lines, ∀ key value, changeOf input = some (.text key value) → key = lit "ssh_username"

theorem loaded_changed {input : List UInt8} {c : Change} (hc : changeOf input = some c)
    (hlegacy : ∀ key value, c = .text key value → key = lit "ssh_username") (find : Find) :
    Reboot.loaded (c.store sha256 find) = c.profiles (Reboot.loaded find) := by
  have hkeys : ∀ slot : Fin 2, ∀ key ∈ profileKeys slot, key ≠ lit "ssh_username" ∧
      key ≠ lit "ssh_pw_hash" ∧ key ≠ lit "ssh_password" ∧ key ≠ lit "ssh_host_key" := by decide
  have hw : word input ∈ changing := by
    by_contra hw
    rw [changeOf_eq_none hw] at hc
    cases hc
  cases c with
  | profile slot ssid password =>
    exact Reboot.loaded_change sha256 (c := .profile slot ssid password) trivial (changeOf_proper hw hc) find
  | clearProfile slot =>
    exact Reboot.loaded_change sha256 (c := .clearProfile slot) trivial (changeOf_proper hw hc) find
  | clear => exact Reboot.loaded_change sha256 (c := .clear) trivial (changeOf_proper hw hc) find
  | text key value =>
    obtain rfl := hlegacy key value rfl
    exact funext fun slot => Reboot.loaded_congr fun key hkey =>
      Function.update_of_ne (hkeys slot key hkey).1 _ _
  | digest password =>
    refine funext fun slot => Reboot.loaded_congr fun key hkey => ?_
    obtain ⟨-, hhash, hpassword, -⟩ := hkeys slot key hkey
    exact (Function.update_of_ne hpassword _ _).trans (Function.update_of_ne hhash _ _)
  | hostKey bytes =>
    exact funext fun slot => Reboot.loaded_congr fun key hkey =>
      Function.update_of_ne (hkeys slot key hkey).2.2.2 _ _

theorem consoleProfiles_loaded (stored : Find) {lines : List Text} (h : WithoutLegacy lines) :
    consoleProfiles stored lines = Reboot.loaded (storedAfter sha256 stored lines) := by
  induction lines using List.reverseRecOn with
  | nil => rfl
  | append_singleton lines input ih =>
    have hpast := ih fun x hx => h x (List.mem_append_left _ hx)
    cases hreboots : reboots input with
    | true => exact consoleProfiles_reboots hreboots
    | false =>
      rw [consoleProfiles_runs hreboots, storedAfter_snoc, hpast]
      cases hc : changeOf input with
      | none => rfl
      | some c =>
        refine (loaded_changed hc (fun key value he => ?_) _).symm
        exact h input (by simp) key value (he ▸ hc)

/-- From a restart on, whatever is typed in whatever turns, further restarts included, the stored values are
the earlier ones with the changes of the lines that are entered, in their order. The profiles in memory are
those that the last restart has loaded with the changes since, and a restart at any turn finds these again
if no line has stored a value without a slot. -/
theorem console_store {d : Image} (hr : d.preferences_.Reliable) (turns : List Turn) :
    let stored := d.preferences_.store.find
    let lines := linesTyped turns
    let running := (afterTurns d turns).device
    entered (afterTurns d turns).events = lines ∧
      running.preferences_.store.find = storedAfter sha256 stored lines ∧
      running.wifiService.profiles_ = consoleProfiles stored lines ∧
      (WithoutLegacy lines →
        (restarted running).wifiService.profiles_ = running.wifiService.profiles_) := by
  intro stored lines running
  obtain ⟨hentered, -, hfind, hprofiles⟩ := (carried_settled stored).turns (settled_setup hr) turns
  refine ⟨hentered, hfind, hprofiles, fun h => ?_⟩
  rw [restarted_profiles, hfind, hprofiles, consoleProfiles_loaded stored h]

/-- A profile and a username, cut anywhere, with a blank line and a restart between them. -/
def setUp : List Turn :=
  [⟨lit "wifi-config ho", 0, ⟨false, false⟩⟩,
    ⟨lit "me secret\r\n \nreboot\rconfig-clear --confirm\r", 5, ⟨false, false⟩⟩,
    ⟨lit "heap\rconfig-set ssh", 2, ⟨false, false⟩⟩, ⟨lit "_username root\nconf", 9, ⟨true, false⟩⟩]

theorem console_store_setUp :
    let shop := Secrecy.shop (lit "first") (by decide)
    let stored := shop.preferences_.store.find
    let lines := linesTyped setUp
    let running := (afterTurns shop setUp).device
    entered (afterTurns shop setUp).events = lines ∧
      running.preferences_.store.find = storedAfter sha256 stored lines ∧
      running.wifiService.profiles_ = consoleProfiles stored lines ∧
      (WithoutLegacy lines →
        (restarted running).wifiService.profiles_ = running.wifiService.profiles_) :=
  console_store (d := Secrecy.shop (lit "first") (by decide)) rfl setUp

example : (linesTyped setUp).filterMap changeOf =
    [.profile 0 (lit "home") (lit "secret"), .text (lit "ssh_username") (lit "root")] := by decide +kernel

end Esp32Shell.Arduino.ConsoleStore
