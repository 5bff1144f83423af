import Esp32Shell.Arduino.Preferences
import Esp32Shell.Arduino.WifiService
import Esp32Shell.Library.Hex
import Esp32Shell.Library.Sha256
import Esp32Shell.Shell.CommandCore

/-!
# The command services of the Arduino image

The methods of `Esp32Services` that read or change the configuration. The other
methods are a parameter. `dispatch` never hands over a null pointer, so an
argument is a text.
-/
namespace Esp32Shell.Arduino.Esp32Services

open Esp32Shell.Library.CText Esp32Shell.Library.Hex Esp32Shell.Library.Sha256
open Shell.CommandCore Storage.Nvs WifiService Preferences

variable {ρ : Type}

structure Device (ρ : Type) where
  preferences_ : Flash
  wifiService : Service
  /-- The calls that reached the driver of the Wi-Fi service. -/
  driverCalls : List DriverCall
  millis : UInt32
  rest : ρ

/-- A change of the preferences whose outcome is not looked at. -/
def Device.store (d : Device ρ) (call : Call) : Device ρ :=
  { d with preferences_ := (call d.preferences_).2 }

/-- A change of the Wi-Fi service with its calls to the driver. -/
def Device.wifi (d : Device ρ) (change : Service × List DriverCall) : Device ρ :=
  { d with wifiService := change.1, driverCalls := d.driverCalls ++ change.2 }

/-- `SecurityPolicy::passwordIsAcceptable`. -/
def passwordIsAcceptable (password : Text) : Bool :=
  decide (12 ≤ password.length) && password.any (fun c => 65 ≤ c ∧ c ≤ 90) &&
    password.any (fun c => 97 ≤ c ∧ c ≤ 122) && password.any fun c => 48 ≤ c ∧ c ≤ 57

/-- `ConfigOutputPolicy::isSecretKey`. -/
def isSecretKey (key : Text) : Bool :=
  key == lit "wifi_password" || key == lit "ssh_password" || key == lit "ssh_pw_hash" ||
    key == lit "ssh_private_key" || key == lit "ssh_host_key"

def isAllowedConfigKey (key : Text) : Bool :=
  key == lit "wifi_ssid" || key == lit "wifi_password" || key == lit "ssh_username" ||
    key == lit "ssh_password" || key == lit "ssh_host_key"

def decodeHex (text : Text) (capacity : Nat) : Option (List UInt8) :=
  if text.length = 0 ∨ text.length % 2 ≠ 0 ∨ text.length / 2 > capacity then none
  else decodePairs text

def ssidKey (slot : Nat) : Text := snprintf 18 (lit "wifi_ssid_" ++ decimal slot)
def passwordKey (slot : Nat) : Text := snprintf 22 (lit "wifi_password_" ++ decimal slot)

def wifiConfig (arguments : Text) (d : Device ρ) : Reply (Device ρ) :=
  let slotGiven := (byteAt arguments 0 = 48 ∨ byteAt arguments 0 = 49) ∧ byteAt arguments 1 = space
  let slot := if slotGiven then (byteAt arguments 0).toNat - 48 else 0
  let profileArguments := if slotGiven then arguments.drop 2 else arguments
  let usage : Reply (Device ρ) := ⟨d, [lit "error: usage wifi-config [<0|1> ]<ssid> <password>"], false⟩
  match strchr profileArguments space with
  | none => usage
  | some separator =>
    if separator = 0 ∨ byteAt profileArguments (separator + 1) = 0 then usage
    else if separator ≥ 33 then ⟨d, [lit "error: SSID is too long"], false⟩
    else
      let ssid := profileArguments.take separator
      let password := profileArguments.drop (separator + 1)
      match configure d.wifiService slot (some ssid) (some password) d.millis with
      | (_, false) => ⟨d, [lit "error: invalid Wi-Fi configuration"], false⟩
      | (service, true) =>
        let saved := ((d.wifi (service, [])).store (putString (ssidKey slot) ssid)).store
          (putString (passwordKey slot) password)
        let legacy := (saved.store (putString (lit "wifi_ssid") ssid)).store
          (putString (lit "wifi_password") password)
        ⟨if slot = 0 then legacy else saved, [lit "wifi profile accepted and persisted"], true⟩

/-- What `wifi-profiles` shows of a slot: its SSID, if it is configured. -/
def shownSsid (s : Service) (slot : Fin maxProfiles) : Option Text :=
  if (s.profiles_ slot).enabled then some (s.profiles_ slot).ssid else none

def wifiProfiles (d : Device ρ) : Reply (Device ρ) :=
  let profile := fun slot : Fin maxProfiles =>
    let ssid := shownSsid d.wifiService slot
    snprintf 64 (lit "wifi_profile_" ++ decimal slot ++ lit "=" ++
      (if ssid.isSome then lit "set" else lit "unset") ++ lit " ssid=" ++ ssid.getD (lit "<unset>"))
  ⟨d, (List.finRange maxProfiles).map profile, true⟩

def wifiProfileClear (arguments : Text) (d : Device ρ) : Reply (Device ρ) :=
  if (byteAt arguments 0 ≠ 48 ∧ byteAt arguments 0 ≠ 49) ∨ arguments.drop 1 ≠ lit " --confirm" then
    ⟨d, [lit "error: usage wifi-profile-clear <0|1> --confirm"], false⟩
  else
    let slot := (byteAt arguments 0).toNat - 48
    let removed := ((d.wifi (clearSlot d.wifiService slot)).store (remove (ssidKey slot))).store
      (remove (passwordKey slot))
    let legacy := (removed.store (remove (lit "wifi_ssid"))).store (remove (lit "wifi_password"))
    ⟨if slot = 0 then legacy else removed, [lit "wifi profile cleared"], true⟩

/-- The keys that `config-list` looks for, each under its shown name and with the mark it gets. -/
def listed : List (Text × Text × Text) :=
  [(lit "wifi_ssid", lit "wifi_ssid", lit "set"),
   (lit "wifi_password", lit "wifi_password", lit "<redacted>"),
   (lit "wifi_ssid_0", lit "wifi_ssid_0", lit "set"),
   (lit "wifi_password_0", lit "wifi_password_0", lit "<redacted>"),
   (lit "wifi_ssid_1", lit "wifi_ssid_1", lit "set"),
   (lit "wifi_password_1", lit "wifi_password_1", lit "<redacted>"),
   (lit "ssh_username", lit "ssh_username", lit "set"),
   (lit "ssh_pw_hash", lit "ssh_password", lit "<protected>"),
   (lit "ssh_host_key", lit "ssh_host_key", lit "<protected>")]

def configList (d : Device ρ) : Reply (Device ρ) :=
  let entry := fun e : Text × Text × Text =>
    e.2.1 ++ lit "=" ++ if isKey d.preferences_ e.1 then e.2.2 else lit "unset"
  ⟨d, lit "config keys:" :: listed.map entry, true⟩

def configGet (arguments : Text) (d : Device ρ) : Reply (Device ρ) :=
  if arguments = [] then ⟨d, [lit "error: usage config-get <key>"], true⟩
  else if isSecretKey arguments then ⟨d, [lit "<redacted>"], true⟩
  else if ¬ isKey d.preferences_ arguments then ⟨d, [lit "error: key is not set"], true⟩
  else ⟨d, [getString d.preferences_ arguments []], true⟩

def configSet (sha256 : List UInt8 → Digest) (arguments : Text) (d : Device ρ) : Reply (Device ρ) :=
  let usage : Reply (Device ρ) := ⟨d, [lit "error: usage config-set <key> <value>"], false⟩
  match strchr arguments space with
  | none => usage
  | some separator =>
    if separator = 0 ∨ byteAt arguments (separator + 1) = 0 then usage
    else if separator ≥ 32 then ⟨d, [lit "error: key is too long"], false⟩
    else
      let key := arguments.take separator
      let value := arguments.drop (separator + 1)
      let updated := [if isSecretKey key then lit "configuration updated (redacted)"
        else lit "configuration updated"]
      if ¬ isAllowedConfigKey key then ⟨d, [lit "error: key is not allowed"], false⟩
      else if key = lit "ssh_password" then
        if ¬ passwordIsAcceptable value then
          ⟨d, [lit "error: password needs 12+ chars with upper, lower, and digit"], false⟩
        else
          ⟨(d.store (putBytes (lit "ssh_pw_hash") (sha256 value))).store (remove (lit "ssh_password")),
            updated, true⟩
      else if key = lit "ssh_host_key" then
        -- a 2048-bit RSA private key fits the NVS bound
        match decodeHex value 1984 with
        | some keyBytes =>
          if keyBytes.length < 128 then
            ⟨d, [lit "error: host key must be a bounded ASN.1 DER blob in hexadecimal data"], false⟩
          else ⟨d.store (putBytes (lit "ssh_host_key") keyBytes), updated, true⟩
        | none =>
          ⟨d, [lit "error: host key must be a bounded ASN.1 DER blob in hexadecimal data"], false⟩
      else ⟨d.store (putString key value), updated, true⟩

def configClear (arguments : Text) (d : Device ρ) : Reply (Device ρ) :=
  if arguments ≠ lit "--confirm" then ⟨d, [lit "error: config-clear requires --confirm"], false⟩
  else ⟨(d.store Preferences.clear).wifi (WifiService.clear d.wifiService),
    [lit "configuration cleared"], true⟩

/-- A value of a slot; slot 0 falls back to the legacy key, for each value on its own. -/
def storedValue (preferences : Flash) (slot : Nat) (key legacy : Text) : Text :=
  let value := getString preferences key []
  if value = [] ∧ slot = 0 then getString preferences legacy [] else value

/-- `loadWifi` for one slot. -/
def loadSlot (d : Device ρ) (slot : Nat) : Device ρ :=
  let ssid := storedValue d.preferences_ slot (ssidKey slot) (lit "wifi_ssid")
  let password := storedValue d.preferences_ slot (passwordKey slot) (lit "wifi_password")
  if ssid ≠ [] ∧ password ≠ [] then
    { d with wifiService := (configure d.wifiService slot (some ssid) (some password) d.millis).1 }
  else d

theorem loadSlot_preferences (d : Device ρ) (slot : Nat) :
    (loadSlot d slot).preferences_ = d.preferences_ := by
  simp only [loadSlot]
  split_ifs <;> rfl

/-- `loadWifi`, at boot. -/
def loadWifi (d : Device ρ) : Device ρ := (List.range maxProfiles).foldl loadSlot d

/-- `Esp32Services`. `others` answers what is not about the configuration. -/
def services (sha256 : List UInt8 → Digest) (others : DeviceServices (Device ρ)) :
    DeviceServices (Device ρ) where
  respond call d :=
    match call with
    | .wifiConfig arguments => wifiConfig arguments d
    | .wifiProfiles => wifiProfiles d
    | .wifiProfileClear arguments => wifiProfileClear arguments d
    | .configList => configList d
    | .configGet arguments => configGet arguments d
    | .configSet arguments => configSet sha256 arguments d
    | .configClear arguments => configClear arguments d
    | call => others.respond call d

/-- A device as it is flashed, with nothing stored. -/
def blank : Device Unit := ⟨⟨.empty, []⟩, initial, [], 0, ()⟩

/-- Other services that do nothing. -/
def quiet : DeviceServices (Device Unit) := ⟨fun _ d => ⟨d, [], true⟩⟩

end Esp32Shell.Arduino.Esp32Services
