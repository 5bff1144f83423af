import Esp32Shell.Arduino.ConsoleStore
import Esp32Shell.Handover.HostKey
import Esp32Shell.Handover.Provisioning
import Esp32Shell.Idf.SshProgress

/-!
# Onboarding

`provision_ssh.ps1` sends four lines to the console of the Arduino image: a Wi-Fi
profile, the SSH username and password, and a new host key. The ESP-IDF image,
which is flashed next, finds them in the preferences.
-/
namespace Esp32Shell.Handover.Onboarding

open Esp32Shell.Library.CText Esp32Shell.Library.Hex Esp32Shell.Library.Sha256
open Shell.CommandCore Shell.CommandTable Shell.CommandLines Shell.LineReading Shell.Routing
open Storage.Nvs Arduino.Esp32Services Arduino.Changes Arduino.Sketch Arduino.ConsoleLines
open Arduino.SerialLoop hiding readByte loop afterTurns
open Arduino.ConsoleStore
open Idf.SshAuth Idf.SshSessions Idf.SshProgress
open Idf.Chip (afterInputs)
open Idf.CommandServices (readString_eq_some_iff)
open Idf.WifiProfiles (setting setting_cut addressed profileEntries loadProfile loadProfiles)
open Provisioning (rdropWhile_append_cons)

/-! ### The script -/

/-- What the script is given, as it goes over the line, and the key that it has made. -/
structure Request where
  ssid : Text
  wifiPassword : Text
  username : Text
  password : Text
  hostKey : List UInt8

/-- A letter as `-eq` compares it. -/
def upper (c : UInt8) : UInt8 := if 97 ≤ c ∧ c ≤ 122 then c - 32 else c

/-- The tests of `$SshPassword`. -/
def passwordTaken (password : Text) : Bool :=
  decide (12 ≤ password.length) && password.any (fun c => 65 ≤ c ∧ c ≤ 90) &&
    password.any (fun c => 97 ≤ c ∧ c ≤ 122) && password.any (fun c => 48 ≤ c ∧ c ≤ 57) &&
    password.map upper != lit "ESP32S3-WROOM-2"

def digit (value : Nat) : UInt8 := (lit "0123456789ABCDEF").getD value 0

/-- `[BitConverter]::ToString(..).Replace('-', '')`. -/
def hex (bytes : List UInt8) : Text := bytes.flatMap fun b => [digit (b.toNat / 16), digit (b.toNat % 16)]

def configSetLine (key value : Text) : Text := lit "config-set" ++ space :: (key ++ space :: value)

namespace Request

def wifiLine (r : Request) : Text := lit "wifi-config" ++ space :: (r.ssid ++ space :: r.wifiPassword)

def assignments (r : Request) : List (Text × Text) :=
  [(lit "ssh_username", r.username), (lit "ssh_password", r.password), (lit "ssh_host_key", hex r.hostKey)]

/-- The arguments of `Send-Command`: a command, and the text that confirms it. -/
def exchanges (r : Request) : List (Text × Text) :=
  (r.wifiLine, lit "wifi profile accepted and persisted") ::
    r.assignments.map fun a => (configSetLine a.1 a.2, lit "configuration updated")

def commands (r : Request) : List Text := r.exchanges.map Prod.fst

/-- What `$serial.WriteLine` sends of the commands. -/
def sent (r : Request) : List UInt8 := r.commands.flatMap fun line => line ++ [Shell.Session.lineFeed]

/-- A text that can stand in a line. -/
def Plain (text : Text) : Prop := ∀ b ∈ text, b ≠ 0 ∧ isEnding b = false

/-- What both images can keep: the lines cut the SSID at a space, and take `0` or `1` in front of one for
a slot; the ESP-IDF image has 32 bytes for the username. -/
structure Fit (r : Request) : Prop where
  ssid_ne : r.ssid ≠ []
  ssid_le : r.ssid.length ≤ 32
  ssid_word : ∀ b ∈ r.ssid, isBlank b = false
  ssid_slot : r.ssid ≠ lit "0" ∧ r.ssid ≠ lit "1"
  wifiPassword_ne : r.wifiPassword ≠ []
  wifiPassword_le : r.wifiPassword.length ≤ 64
  username_ne : r.username ≠ []
  username_lt : r.username.length < maxUsername
  taken : passwordTaken r.password = true
  password_le : r.password.length ≤ 4072
  hostKey : HostKey.Admissible r.hostKey
  plain : Plain r.ssid ∧ Plain r.wifiPassword ∧ Plain r.username ∧ Plain r.password

end Request

/-! ### The key -/

theorem isDigit_digit {value : Nat} (h : value < 16) : IsDigit (digit value) value := by
  have hall : ∀ value < 16, IsDigit (digit value) value := by decide
  exact hall value h

theorem spells_hex (bytes : List UInt8) : Spells (hex bytes) bytes := by
  induction bytes with
  | nil => exact .nil
  | cons b bytes ih =>
    have hhigh : b.toNat / 16 < 16 := Nat.div_lt_of_lt_mul b.toNat_lt
    have hlow : b.toNat % 16 < 16 := Nat.mod_lt _ (by decide)
    exact .cons (isDigit_digit hhigh) (isDigit_digit hlow) ih

/-! ### The lines -/

/-- The script takes no password that the image does not take. -/
theorem acceptable_of_taken {password : Text} (h : passwordTaken password = true) :
    passwordIsAcceptable password = true := (Bool.and_eq_true_iff.mp h).1

/-- A command with an argument that does not begin with a blank. -/
theorem route_command {name usage : Text} {method : Text → ServiceCall}
    (hb : behaviourOf name = some (.asks usage method)) (hname : 0 ∉ name) (hne : name ≠ [])
    (hfirst : isBlank (name.head hne) = false) {b : UInt8} {rest : Text} (hblank : isBlank b = false)
    (h0 : 0 ∉ b :: rest) (hlength : (name ++ space :: b :: rest).length ≤ maxCommandLength) :
    route (name ++ space :: b :: rest) = .ask (method (b :: rest)) := by
  have hzero : 0 ∉ name ++ space :: b :: rest := by
    have hspace : (0 : UInt8) ≠ space := by decide
    rw [List.mem_append, List.mem_cons, not_or, not_or]
    exact ⟨hname, hspace, h0⟩
  have hstripped : stripped (name ++ space :: b :: rest) = name ++ space :: b :: rest := by
    obtain ⟨first, more, rfl⟩ := List.exists_cons_of_ne_nil hne
    have hnot : isBlank first = false := hfirst
    rw [stripped, (cString_eq_self_iff _).mpr hzero, List.cons_append,
      List.dropWhile_cons_of_neg (by rw [hnot]; exact Bool.false_ne_true)]
  have htrimmed : trimmed (name ++ space :: b :: rest) = name ++ space :: b :: rest.rdropWhile isBlank := by
    have hcut : name ++ space :: b :: rest = (name ++ [space]) ++ b :: rest := by simp
    rw [trimmed, hstripped, hcut, rdropWhile_append_cons hblank]
    simp
  have hle := (trimmed_begins (name ++ space :: b :: rest)).length_le
  rw [hstripped] at hle
  exact route_argument (hle.trans hlength) (mem_of_behaviourOf hb) rfl (List.cons_ne_nil _ _) htrimmed
    hstripped

def sshKeys : List Text := [lit "ssh_username", lit "ssh_password", lit "ssh_host_key"]

theorem sshKeys_shape : ∀ key ∈ sshKeys,
    key.length = 12 ∧ space ∉ key ∧ 0 ∉ key ∧ isBlank (key.headD space) = false := by decide

theorem route_configSetLine {key value : Text} (hkey : key ∈ sshKeys) (h0 : 0 ∉ value)
    (hlength : value.length ≤ 4072) :
    route (configSetLine key value) = .ask (.configSet (key ++ space :: value)) := by
  obtain ⟨hsize, -, hzero, hblank⟩ := sshKeys_shape key hkey
  cases key with
  | nil => cases hsize
  | cons b rest =>
    have hnone : 0 ∉ b :: (rest ++ space :: value) := by
      have hother : (0 : UInt8) ≠ space := by decide
      rw [← List.cons_append, List.mem_append, not_or, List.mem_cons (b := space), not_or]
      exact ⟨hzero, hother, h0⟩
    rw [configSetLine, List.cons_append]
    have hb : behaviourOf (lit "config-set") = some (.asks _ .configSet) := rfl
    refine route_command hb (by decide) (by decide) (by decide) hblank hnone ?_
    have hname : (lit "config-set").length = 10 := by decide
    have hroom : maxCommandLength = 4096 := rfl
    simp only [List.length_append, List.length_cons] at hsize ⊢
    omega

section
variable {r : Request}

theorem zero_notMem_plain {text : Text} (h : Request.Plain text) : 0 ∉ text := fun h0 => (h 0 h0).1 rfl

theorem setting_wifi (h : r.Fit) :
    setting (r.ssid ++ space :: r.wifiPassword) = ⟨0, r.ssid, r.wifiPassword⟩ := by
  have hspace : space ∉ r.ssid := fun hs => absurd (h.ssid_word space hs) (by decide)
  have haddressed : addressed (r.ssid ++ space :: r.wifiPassword) =
      (0, r.ssid ++ space :: r.wifiPassword) := by
    have hdigit : ∀ c : UInt8, r.ssid ≠ [c] →
        ¬ (byteAt (r.ssid ++ space :: r.wifiPassword) 1 = space ∧
          byteAt (r.ssid ++ space :: r.wifiPassword) 0 = c) := by
      rintro c hne ⟨hone, hzero⟩
      obtain ⟨first, more, hssid⟩ := List.exists_cons_of_ne_nil h.ssid_ne
      rw [hssid] at hone hzero hne hspace
      cases more with
      | nil => exact hne (congrArg (fun c => [c]) hzero)
      | cons second more =>
        have hsecond : second = space := hone
        exact hspace (by simp [hsecond])
    rw [addressed, if_neg (hdigit Idf.CommandServices.digitZero h.ssid_slot.1),
      if_neg (hdigit Idf.CommandServices.digitOne h.ssid_slot.2)]
    rfl
  rw [setting_cut (congrArg Prod.snd haddressed) hspace, haddressed]

theorem route_wifi (h : r.Fit) :
    route r.wifiLine = .ask (.wifiConfig (r.ssid ++ space :: r.wifiPassword)) := by
  obtain ⟨hssid, hwifiPassword, -, -⟩ := h.plain
  obtain ⟨first, more, hcons⟩ := List.exists_cons_of_ne_nil h.ssid_ne
  have hblank : isBlank first = false := h.ssid_word first (by rw [hcons]; exact List.mem_cons_self)
  have h0 : 0 ∉ r.ssid ++ space :: r.wifiPassword := by
    have hspace : (0 : UInt8) ≠ space := by decide
    simp [zero_notMem_plain hssid, zero_notMem_plain hwifiPassword, hspace]
  have hssidLe := h.ssid_le
  have hpasswordLe := h.wifiPassword_le
  rw [Request.wifiLine]
  rw [hcons, List.cons_append] at h0 ⊢
  rw [hcons, List.length_cons] at hssidLe
  have hb : behaviourOf (lit "wifi-config") = some (.asks _ .wifiConfig) := rfl
  refine route_command hb (by decide) (by decide) (by decide) hblank h0 ?_
  have hname : (lit "wifi-config").length = 11 := by decide
  have hroom : maxCommandLength = 4096 := rfl
  simp only [List.length_append, List.length_cons]
  omega

theorem changeOf_wifi (h : r.Fit) :
    changeOf r.wifiLine = some (.profile 0 r.ssid r.wifiPassword) := by
  rw [changeOf, route_wifi h]
  simp only [profileChange, setting_wifi h, h.ssid_ne, h.wifiPassword_ne, h.ssid_le, ne_eq, not_false_eq_true,
    and_self, if_true]

theorem Request.Fit.assigned (h : r.Fit) :
    ∀ a ∈ r.assignments, a.1 ∈ sshKeys ∧ Request.Plain a.2 ∧ a.2.length ≤ 4072 := by
  obtain ⟨-, -, husername, hpassword⟩ := h.plain
  have hspells := spells_hex r.hostKey
  have hlength := hspells.length
  obtain ⟨-, hroom⟩ := h.hostKey
  have hname : r.username.length ≤ 4072 := (Nat.le_of_lt h.username_lt).trans (by decide)
  have hdigits : Request.Plain (hex r.hostKey) := fun b hb => by
    obtain ⟨hzero, -, hend⟩ := HostKey.digit_plain hspells b hb
    exact ⟨hzero, hend⟩
  intro a ha
  simp only [Request.assignments, List.mem_cons, List.not_mem_nil, or_false] at ha
  rcases ha with rfl | rfl | rfl
  · exact ⟨List.mem_of_elem_eq_true rfl, husername, hname⟩
  · exact ⟨List.mem_of_elem_eq_true rfl, hpassword, h.password_le⟩
  · exact ⟨List.mem_of_elem_eq_true rfl, hdigits, show (hex r.hostKey).length ≤ 4072 by omega⟩

theorem changeOf_assignment (h : r.Fit) {a : Text × Text} (ha : a ∈ r.assignments) :
    changeOf (configSetLine a.1 a.2) = valueChange a.1 a.2 := by
  obtain ⟨hkey, hplain, hlength⟩ := h.assigned a ha
  obtain ⟨-, hspace, -, -⟩ := sshKeys_shape a.1 hkey
  rw [changeOf, route_configSetLine hkey (zero_notMem_plain hplain) hlength]
  simp only [assignment_cut hspace]

/-- The changes that the lines ask for. -/
theorem changes (h : r.Fit) : r.commands.map changeOf =
    [some (.profile 0 r.ssid r.wifiPassword), some (.text (lit "ssh_username") r.username),
      some (.digest r.password), some (.hostKey r.hostKey)] := by
  have hpassword_ne : r.password ≠ [] := by
    intro hnil
    have htaken := h.taken
    rw [hnil] at htaken
    exact absurd htaken (by decide)
  have husername : valueChange (lit "ssh_username") r.username =
      some (.text (lit "ssh_username") r.username) := by
    rw [valueChange, if_neg (not_or.mpr ⟨h.username_ne, by decide⟩), if_neg (by decide),
      if_neg (by decide)]
  have hpassword : valueChange (lit "ssh_password") r.password = some (.digest r.password) := by
    rw [valueChange, if_neg (not_or.mpr ⟨hpassword_ne, by decide⟩), if_pos rfl,
      if_pos (acceptable_of_taken h.taken)]
  have hhostKey : valueChange (lit "ssh_host_key") (hex r.hostKey) = some (.hostKey r.hostKey) :=
    (HostKey.valueChange_eq_some_iff _ _).mpr ⟨r.hostKey, h.hostKey, spells_hex r.hostKey, rfl⟩
  have hassigned : r.assignments.map (fun a => changeOf (configSetLine a.1 a.2)) =
      r.assignments.map fun a => valueChange a.1 a.2 :=
    List.map_congr_left fun a ha => changeOf_assignment h ha
  simp only [Request.commands, Request.exchanges, List.map_cons, List.map_map, changeOf_wifi h,
    Function.comp_def, hassigned]
  simp only [Request.assignments, List.map_cons, List.map_nil, husername, hpassword, hhostKey]

/-! ### The confirmations -/

/-- A text that the script waits for is in one of the lines. -/
def Confirmed (expected : Text) (lines : List Text) : Prop := ∃ line ∈ lines, expected <:+: line

/-- A method that reports success prints the text that the script waits for. -/
def Confirms {ρ : Type} (expected : Text) (reply : Reply (Device ρ)) : Prop :=
  reply.answer = true → Confirmed expected reply.lines

theorem confirms_of_rejected {ρ : Type} (expected : Text) (d : Device ρ) (lines : List Text) :
    Confirms expected ⟨d, lines, false⟩ := fun h => by cases h

theorem confirms_of_prefix {ρ : Type} {expected line : Text} (h : expected <+: line) (d : Device ρ)
    (lines : List Text) : Confirms expected ⟨d, line :: lines, true⟩ :=
  fun _ => ⟨line, List.mem_cons_self, h.isInfix⟩

theorem wifiConfig_confirms {ρ : Type} (arguments : Text) (d : Device ρ) :
    Confirms (lit "wifi profile accepted and persisted") (wifiConfig arguments d) := by
  simp only [wifiConfig]
  repeat' split
  all_goals first
    | exact confirms_of_rejected _ d _
    | exact confirms_of_prefix (List.prefix_refl _) _ _

theorem configSet_confirms {ρ : Type} (arguments : Text) (d : Device ρ) :
    Confirms (lit "configuration updated") (configSet sha256 arguments d) := by
  simp only [configSet]
  repeat' split
  all_goals first
    | exact confirms_of_rejected _ d _
    | exact confirms_of_prefix (List.prefix_refl _) _ _
    | exact confirms_of_prefix ⟨lit " (redacted)", rfl⟩ _ _

variable {r : Request}

theorem confirmed_of_route {d : Image} (hr : d.preferences_.Reliable) {input : List UInt8}
    {call : ServiceCall} (hroute : route input = .ask call) (hsome : (changeOf input).isSome = true)
    {expected : Text} (h : Confirms expected (sketch.respond call d)) :
    Confirmed expected (dispatch sketch d (some input)).lines := by
  have hw : word input ∈ changing := by
    by_contra hw
    rw [changeOf_eq_none hw] at hsome
    cases hsome
  have hok := (line_changes sha256 others hr hw).status.mpr hsome
  replace hok : (dispatch sketch d (some input)).status = .ok := hok
  generalize hreply : sketch.respond call d = reply at h
  obtain ⟨device, lines, answer⟩ := reply
  rw [dispatch_ask hroute hreply] at hok ⊢
  cases answer with
  | true => exact h rfl
  | false => cases hok

theorem Request.Fit.exchanged (h : r.Fit) {d : Image} (hr : d.preferences_.Reliable) :
    ∀ e ∈ r.exchanges, Confirmed e.2 (dispatch sketch d (some e.1)).lines := by
  have hsome : ∀ e ∈ r.exchanges, (changeOf e.1).isSome = true := by
    have hall : ∀ c ∈ r.commands.map changeOf, c.isSome = true := by
      rw [changes h]
      simp
    exact fun e he => hall _ (List.mem_map_of_mem (List.mem_map_of_mem he))
  intro e he
  have hchange := hsome e he
  rcases List.mem_cons.mp he with rfl | he
  · exact confirmed_of_route hr (route_wifi h) hchange (wifiConfig_confirms _ d)
  · obtain ⟨a, ha, rfl⟩ := List.mem_map.mp he
    obtain ⟨hkey, hplain, hlength⟩ := h.assigned a ha
    exact confirmed_of_route hr (route_configSetLine hkey (zero_notMem_plain hplain) hlength) hchange
      (configSet_confirms _ d)

/-- The keys that the lines write. -/
def provisionedKeys : List Text :=
  profileKeys 0 ++ [lit "ssh_username", lit "ssh_pw_hash", lit "ssh_password", lit "ssh_host_key"]

/-- What the other image finds in a flash that the lines have been stored in, over what was there before. -/
structure Onboarded (r : Request) (before : Find) (flash : Flash) : Prop where
  credentials : loadAuthConfig flash = some ⟨r.username, sha256 r.password, r.hostKey⟩
  login : ∀ data : UserAuthData,
    userAuth sha256 true .password (some data) (loadAuthConfig flash) = .success ↔
      data.username = r.username ∧ sha256 data.password = sha256 r.password
  profile : loadProfiles flash 0 = some (r.ssid, r.wifiPassword)
  others : ∀ key, key ∉ provisionedKeys → flash.store.find key = before key

theorem onboarded_of_stored (h : r.Fit) {before : Find} {flash : Flash} (hr : flash.Reliable)
    (hfind : flash.store.find = (r.commands.filterMap changeOf).foldl (Change.store sha256) before) :
    Onboarded r before flash := by
  have hmap : r.commands.filterMap changeOf = (r.commands.map changeOf).filterMap id := by
    rw [List.filterMap_map]
    rfl
  rw [hmap, changes h] at hfind
  let profile : Find := (Change.profile 0 r.ssid r.wifiPassword).store sha256 before
  replace hfind : flash.store.find = Change.store sha256 (Change.store sha256 (Change.store sha256 profile
      (.text (lit "ssh_username") r.username)) (.digest r.password)) (.hostKey r.hostKey) := hfind
  obtain ⟨hssid, hwifiPassword, -, -⟩ := h.plain
  have hcredentials : loadAuthConfig flash = some ⟨r.username, sha256 r.password, r.hostKey⟩ := by
    have hmin := h.hostKey.1
    have hmax := h.hostKey.2
    have hroom : maxBlob = 8192 := rfl
    have hne : r.hostKey ≠ [] := by
      intro hnil
      rw [hnil] at hmin
      exact absurd hmin (by decide)
    rw [loadAuthConfig_eq_some_iff hr]
    exact ⟨by rw [hfind]; rfl, h.username_ne, h.username_lt, by rw [hfind]; rfl, by rw [hfind]; rfl, hne,
      show r.hostKey.length ≤ maxBlob by omega⟩
  refine ⟨hcredentials, fun data => ?_, ?_, fun key hkey => ?_⟩
  · rw [hcredentials]
    exact userAuth_eq_success_iff sha256 data _
  · have hssidLe := h.ssid_le
    have hpasswordLe := h.wifiPassword_le
    have hssidKey : flash.store.find (lit "wifi_ssid_0") = some (.str r.ssid) := by
      have hsaved : profile (lit "wifi_ssid_0") = some (.str r.ssid) :=
        store_profile_mem sha256 before 0 List.mem_cons_self (zero_notMem_plain hssid)
      rw [hfind]
      exact hsaved
    have hpasswordKey : flash.store.find (lit "wifi_password_0") = some (.str r.wifiPassword) := by
      have hsaved : profile (lit "wifi_password_0") = some (.str r.wifiPassword) :=
        store_profile_mem sha256 before 0 (List.mem_cons_of_mem _ List.mem_cons_self)
          (zero_notMem_plain hwifiPassword)
      rw [hfind]
      exact hsaved
    have hload : loadProfile flash.store (lit "wifi_ssid_0") (lit "wifi_password_0") =
        some (r.ssid, r.wifiPassword) := by
      rw [loadProfile, readString_eq_some_iff.mpr ⟨hssidKey, by omega, h.ssid_ne⟩,
        readString_eq_some_iff.mpr ⟨hpasswordKey, by omega, h.wifiPassword_ne⟩]
      rfl
    rw [loadProfiles, nvsOpen_reliable hr]
    show Option.or (loadProfile flash.store (lit "wifi_ssid_0") (lit "wifi_password_0")) _ = _
    rw [hload]
    rfl
  · simp only [provisionedKeys, List.mem_append, List.mem_cons, List.not_mem_nil, or_false, not_or] at hkey
    obtain ⟨hprofile, husername, hhash, hpassword, hhostKey⟩ := hkey
    rw [hfind]
    simp only [Change.store, Function.update_of_ne husername, Function.update_of_ne hhash,
      Function.update_of_ne hpassword, Function.update_of_ne hhostKey]
    exact store_profile_notMem sha256 before r.ssid r.wifiPassword hprofile

theorem plain_append {text more : Text} (h : Request.Plain text) (h' : Request.Plain more) :
    Request.Plain (text ++ space :: more) := by
  intro b hb
  rcases List.mem_append.mp hb with hb | hb
  · exact h b hb
  · rcases List.mem_cons.mp hb with rfl | hb
    · decide
    · exact h' b hb

/-- A line that begins with the name of a command is not blank. -/
theorem sendable_command {name arguments : Text} (hname : Request.Plain name)
    (hfirst : isBlank (name.headD space) = false) (harguments : Request.Plain arguments)
    (hlength : name.length + arguments.length < maxCommandLength) :
    Sendable (name ++ space :: arguments) ∧ nonBlank (name ++ space :: arguments) = true := by
  have hblank : nonBlank (name ++ space :: arguments) = true := by
    cases name with
    | nil => exact absurd hfirst (by decide)
    | cons b rest =>
      have hb : isBlank b = false := hfirst
      exact List.any_eq_true.mpr ⟨b, List.mem_cons_self, by rw [hb]; rfl⟩
  refine ⟨⟨by simp, ?_, plain_append hname harguments⟩, hblank⟩
  rw [List.length_append, List.length_cons]
  omega

theorem commands_sendable (h : r.Fit) : ∀ line ∈ r.commands, Sendable line ∧ nonBlank line = true := by
  have hnames : ∀ name ∈ lit "wifi-config" :: lit "config-set" :: sshKeys, Request.Plain name := by
    unfold Request.Plain
    decide +kernel
  have hroom : maxCommandLength = 4096 := rfl
  obtain ⟨hssid, hwifiPassword, -, -⟩ := h.plain
  intro line hline
  obtain ⟨e, he, rfl⟩ := List.mem_map.mp hline
  rcases List.mem_cons.mp he with rfl | he
  · refine sendable_command (hnames (lit "wifi-config") (by decide)) rfl
      (plain_append hssid hwifiPassword) ?_
    have hssidLe := h.ssid_le
    have hpasswordLe := h.wifiPassword_le
    have hname : (lit "wifi-config").length = 11 := by decide
    rw [List.length_append, List.length_cons]
    omega
  · obtain ⟨a, ha, rfl⟩ := List.mem_map.mp he
    obtain ⟨hkey, hplain, hlength⟩ := h.assigned a ha
    obtain ⟨hsize, -, -, -⟩ := sshKeys_shape a.1 hkey
    refine sendable_command (hnames (lit "config-set") (by decide)) rfl
      (plain_append (hnames a.1 (by simp [hkey])) hplain) ?_
    have hname : (lit "config-set").length = 10 := by decide
    rw [List.length_append, List.length_cons]
    omega

theorem commands_run (h : r.Fit) : ∀ line ∈ r.commands, reboots line = false := by
  intro line hline
  refine Bool.eq_false_iff.mpr fun hreboots => ?_
  have hchange : changeOf line ∈ r.commands.map changeOf := List.mem_map_of_mem hline
  rw [changes h, changeOf_reboots hreboots] at hchange
  simp at hchange

/-- The ESP-IDF image on a flash: its server starts with the credentials of the request, and serves every
behaving visitor with a session of the shell, as long as none restarts the chip. -/
def Serves (r : Request) (flash : Flash) : Prop :=
  ∀ (ρ : Type) (services : DeviceServices (Idf.CommandServices.Device ρ))
    (boot : Idf.CommandServices.Device ρ → ρ) (fs : Storage.LittleFs.FileSystem) (rest : ρ) (listener : Nat)
    (visits : List Visit), (∀ v ∈ visits, v.Behaves) →
    let device : Idf.CommandServices.Device ρ := ⟨flash, fs, rest⟩
    Lasting services device visits →
    let s := afterInputs sha256 services boot device
      (.startAfterWifi true :: (startup listener ++ visits.flatMap Visit.answers).map .answer)
    s.task = some (.accepting listener) ∧ s.auth = some ⟨r.username, sha256 r.password, r.hostKey⟩ ∧
      s.device = afterVisits services device visits ∧
      terminals s.log = (transcripts services device visits).reverse

theorem serves_of_onboarded {before : Find} {flash : Flash} (hr : flash.Reliable)
    (h : Onboarded r before flash) : Serves r flash := by
  intro ρ services boot fs rest listener visits hvisits device hlasting
  have hreliable : device.nvs.Reliable := hr
  exact starts_and_serves sha256 services boot hreliable h.credentials listener hvisits hlasting

end

def home : Request :=
  ⟨lit "home", lit "secret 12", lit "root", lit "Correct4Horse", List.replicate 128 48⟩

theorem home_fit : home.Fit where
  ssid_ne := by decide
  ssid_le := by decide
  ssid_word := by decide +kernel
  ssid_slot := by decide
  wifiPassword_ne := by decide
  wifiPassword_le := by decide
  username_ne := by decide
  username_lt := by decide
  taken := by decide +kernel
  password_le := by decide
  hostKey := by
    unfold HostKey.Admissible
    decide +kernel
  plain := by
    unfold Request.Plain
    decide +kernel

end Esp32Shell.Handover.Onboarding
