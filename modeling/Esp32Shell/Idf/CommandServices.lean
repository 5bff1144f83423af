import Esp32Shell.Library.Hex
import Esp32Shell.Shell.CommandCore
import Esp32Shell.Storage.LittleFs
import Esp32Shell.Storage.Nvs

/-!
# The command services of the ESP-IDF image

The methods of `CommandServices` that read or change the configuration or the
files. The other methods are a parameter. `dispatch` never hands over a null
pointer, so an argument is a text.
-/
namespace Esp32Shell.Idf.CommandServices

open Esp32Shell.Library.CText Esp32Shell.Library.Hex
open Shell.CommandCore Storage.Nvs Storage.LittleFs

variable {ρ : Type}

structure Device (ρ : Type) where
  nvs : Flash
  fs : FileSystem
  rest : ρ

/-- A reply that changed NVS alone. -/
def Device.answerNvs (d : Device ρ) (nvs : Flash) (lines : List Text) (answer : Bool) :
    Reply (Device ρ) := ⟨{ d with nvs := nvs }, lines, answer⟩

/-- A reply that changed the files alone. -/
def Device.answerFs (d : Device ρ) (fs : FileSystem) (lines : List Text) (answer : Bool) :
    Reply (Device ρ) := ⟨{ d with fs := fs }, lines, answer⟩

def nvsUnavailable : Text := lit "error: NVS unavailable"

/-- A value that is set and not empty. -/
def readString (s : Store) (key : Text) (capacity : Nat) : Option Text :=
  (s.getStr key capacity).filter (· ≠ [])

theorem readString_eq_some_iff {s : Store} {key text : Text} {capacity : Nat} :
    readString s key capacity = some text ↔
      s.find key = some (.str text) ∧ text.length < capacity ∧ text ≠ [] := by
  rw [readString, Option.filter_eq_some_iff, Store.getStr_eq_some_iff, decide_eq_true_iff, and_assoc]

def digitZero : UInt8 := 48
def digitOne : UInt8 := 49

def parseSlot (value : Text) : Option Nat :=
  if byteAt value 0 < digitZero ∨ byteAt value 0 > digitOne ∨ byteAt value 1 ≠ 0 then none
  else some ((byteAt value 0).toNat - digitZero.toNat)

def allowedConfigKey (key : Text) : Bool :=
  key == lit "ssh_username" || key == lit "ssh_password" || key == lit "ssh_host_key"

def ssidKey (slot : Nat) : Text := snprintf 20 (lit "wifi_ssid_" ++ decimal slot)
def passwordKey (slot : Nat) : Text := snprintf 24 (lit "wifi_password_" ++ decimal slot)

/-- `nvs_set_str` of a profile, with its legacy copies for slot 0, and the commit. -/
def saveProfile (slot : Nat) (ssid password : Text) : Call :=
  let profile := (nvsSetStr (ssidKey slot) ssid).and (nvsSetStr (passwordKey slot) password)
  let all := if slot = 0 then
      profile.and ((nvsSetStr (lit "wifi_ssid") ssid).and (nvsSetStr (lit "wifi_password") password))
    else profile
  all.and nvsCommit

def wifiConfig (arguments : Text) (d : Device ρ) : Reply (Device ρ) :=
  let slotGiven := digitZero ≤ byteAt arguments 0 ∧ byteAt arguments 0 ≤ digitOne ∧
    byteAt arguments 1 = space
  let slot := if slotGiven then (byteAt arguments 0).toNat - digitZero.toNat else 0
  let cursor := if slotGiven then arguments.drop 2 else arguments
  let usage := d.answerNvs d.nvs [lit "error: usage wifi-config [<0|1> ]<ssid> <password>"] false
  match strchr cursor space with
  | none => usage
  | some separator =>
    if separator = 0 ∨ byteAt cursor (separator + 1) = 0 then usage
    else
      let ssid := cursor.take separator
      let password := cursor.drop (separator + 1)
      if separator ≥ 33 ∨ password.length ≥ 65 then
        d.answerNvs d.nvs [lit "error: Wi-Fi credential is too long"] false
      else
        match nvsOpen d.nvs with
        | (false, nvs) => d.answerNvs nvs [nvsUnavailable] false
        | (true, nvs) =>
          let saved := saveProfile slot ssid password nvs
          d.answerNvs saved.2
            [if saved.1 then lit "wifi profile accepted and persisted"
              else lit "error: Wi-Fi profile save failed"] saved.1

def wifiProfiles (d : Device ρ) : Reply (Device ρ) :=
  match nvsOpen d.nvs with
  | (false, nvs) => d.answerNvs nvs [nvsUnavailable] true
  | (true, nvs) =>
    let profile := fun slot => match readString nvs.store (ssidKey slot) 33 with
      | some ssid => snprintf 80 (lit "wifi_profile_" ++ decimal slot ++ lit "=set ssid=" ++ ssid)
      | none => snprintf 48 (lit "wifi_profile_" ++ decimal slot ++ lit "=unset")
    d.answerNvs nvs [profile 0, profile 1] true

/-- `nvs_erase_key` of every key in turn, whatever each answers. -/
def eraseKeys (keys : List Text) (nvs : Flash) : Flash :=
  keys.foldl (fun nvs key => (nvsEraseKey key nvs).2) nvs

def wifiProfileClear (arguments : Text) (d : Device ρ) : Reply (Device ρ) :=
  if arguments.length < 10 ∨ arguments.drop 2 ≠ lit "--confirm" ∨ byteAt arguments 1 ≠ space ∨
      parseSlot arguments = none then
    d.answerNvs d.nvs [lit "error: usage wifi-profile-clear <0|1> --confirm"] false
  else
    let slot := (byteAt arguments 0).toNat - digitZero.toNat
    match nvsOpen d.nvs with
    | (false, nvs) => d.answerNvs nvs [nvsUnavailable] false
    | (true, nvs) =>
      let legacy := if slot = 0 then [lit "wifi_ssid", lit "wifi_password"] else []
      let committed := nvsCommit (eraseKeys ([ssidKey slot, passwordKey slot] ++ legacy) nvs)
      d.answerNvs committed.2
        [if committed.1 then lit "wifi profile cleared" else lit "error: Wi-Fi profile clear failed"]
        committed.1

def listedKeys : List Text :=
  [lit "wifi_ssid", lit "wifi_password", lit "wifi_ssid_0", lit "wifi_password_0",
   lit "wifi_ssid_1", lit "wifi_password_1", lit "ssh_username", lit "ssh_password",
   lit "ssh_host_key", lit "ota_public_key"]

def contains (key part : Text) : Bool := (strstr part key).isSome

/-- The keys whose values `config-list` and `config-set` do not name. -/
def isSecret (key : Text) : Bool :=
  contains key (lit "password") || contains key (lit "public_key") || key == lit "ssh_host_key"

def configList (d : Device ρ) : Reply (Device ρ) :=
  match nvsOpen d.nvs with
  | (false, nvs) => d.answerNvs nvs [nvsUnavailable] true
  | (true, nvs) =>
    let entry := fun key =>
      let present := (nvs.store.getStr key 2).isSome
      snprintf 64 (key ++ lit "=" ++
        if present then (if isSecret key then lit "<protected>" else lit "set") else lit "unset")
    d.answerNvs nvs (listedKeys.map entry) true

def configGet (arguments : Text) (d : Device ρ) : Reply (Device ρ) :=
  if arguments = [] then d.answerNvs d.nvs [lit "error: usage config-get <key>"] true
  else
    match nvsOpen d.nvs with
    | (false, nvs) => d.answerNvs nvs [nvsUnavailable] true
    | (true, nvs) =>
      let secret := contains arguments (lit "password") || contains arguments (lit "host_key") ||
        contains arguments (lit "public_key")
      if secret then d.answerNvs nvs [lit "value=<protected>"] true
      else
        match nvs.store.getStr arguments 128 with
        | some value => d.answerNvs nvs [value] true
        | none => d.answerNvs nvs [lit "error: key not found"] true

def configSet (arguments : Text) (d : Device ρ) : Reply (Device ρ) :=
  let usage := d.answerNvs d.nvs [lit "error: usage config-set <key> <value>"] false
  match strchr arguments space with
  | none => usage
  | some separator =>
    if separator = 0 ∨ byteAt arguments (separator + 1) = 0 then usage
    else if separator ≥ 32 then d.answerNvs d.nvs [lit "error: key is too long"] false
    else
      let key := arguments.take separator
      let value := arguments.drop (separator + 1)
      if ¬ allowedConfigKey key ∧ key ≠ lit "ota_public_key" then
        d.answerNvs d.nvs [lit "error: key is not allowed"] false
      else
        match nvsOpen d.nvs with
        | (false, nvs) => d.answerNvs nvs [nvsUnavailable] false
        | (true, nvs) =>
          let finish := fun (set : Call) =>
            let saved := set.and nvsCommit nvs
            d.answerNvs saved.2
              [if saved.1 then
                  (if isSecret key then lit "configuration updated (redacted)"
                    else lit "configuration updated")
                else lit "error: configuration save failed"] saved.1
          if key = lit "ota_public_key" then
            if value.length ≠ 64 then
              d.answerNvs nvs [lit "error: OTA public key must be 32 bytes of hexadecimal data"] false
            else
              match decodePairs value with
              | none => d.answerNvs nvs [lit "error: OTA public key must be hexadecimal data"] false
              | some publicKey => finish (nvsSetBlob key publicKey)
          else finish (nvsSetStr key value)

/-- `app_public_key` and `ota_public_key` alone; credentials survive. -/
def configClear (arguments : Text) (d : Device ρ) : Reply (Device ρ) :=
  if arguments ≠ lit "--confirm" then
    d.answerNvs d.nvs [lit "error: config-clear requires --confirm"] false
  else
    match nvsOpen d.nvs with
    | (false, nvs) => d.answerNvs nvs [nvsUnavailable] false
    | (true, nvs) =>
      let app := nvsEraseKey (lit "app_public_key") nvs
      let ota := nvsEraseKey (lit "ota_public_key") app.2
      let gone := (app.1 = .ok ∨ app.1 = .nvsNotFound) ∧ (ota.1 = .ok ∨ ota.1 = .nvsNotFound)
      let committed := if gone then nvsCommit ota.2 else (false, ota.2)
      d.answerNvs committed.2
        [if committed.1 then lit "configuration cleared (credentials preserved)"
          else lit "error: configuration clear failed"] committed.1

def validFsPath (path : Text) : Bool :=
  byteAt path 0 == slash && decide (path.length ≤ 64) && (strstr (lit "..") path).isNone &&
    (strstr (lit "//") path).isNone

def buildFsPath (userPath : Text) (capacity : Nat) : Option Text :=
  let path := lit "/littlefs" ++ userPath
  if validFsPath userPath ∧ path.length < capacity then some path else none

def fsRead (arguments : Text) (d : Device ρ) : Reply (Device ρ) :=
  match buildFsPath arguments 96 with
  | none => d.answerFs d.fs [lit "error: usage fs-read <path>"] true
  | some path =>
    match d.fs.fopenRb (resolve path) with
    | (none, fs) => d.answerFs fs [lit "error: file not found"] true
    | (some content, fs) =>
      if content.length > 512 then d.answerFs fs [lit "error: file is too large"] true
      else d.answerFs fs [cString content] true

/-- The open temporary file is filled and put in the place of the target. -/
def upload (content : Text) (tempPath path : Path) (fs : FileSystem) : Bool × FileSystem :=
  let written := fs.fwrite tempPath content
  let flushed := if written.1 = content.length then written.2.fflush else (false, written.2)
  if flushed.1 then (true, (flushed.2.rename tempPath path).2)
  else (false, (flushed.2.remove tempPath).2)

def fsWrite (arguments : Text) (d : Device ρ) : Reply (Device ρ) :=
  let usage := d.answerFs d.fs [lit "error: usage fs-write /apps/<path> <content>"] false
  match strchr arguments space with
  | none => usage
  | some separator =>
    let content := arguments.drop (separator + 1)
    if separator = 0 ∨ byteAt arguments (separator + 1) = 0 ∨ content.length > 512 then usage
    else if separator ≥ 65 ∨ separator < 7 ∨ ¬ strncmpEq arguments (lit "/apps/") 6 then
      d.answerFs d.fs [lit "error: upload path must be under /apps"] false
    else
      match buildFsPath (arguments.take separator) 96 with
      | none => d.answerFs d.fs [lit "error: invalid path"] false
      | some path =>
        let tempPath := path ++ lit ".tmp"
        if tempPath.length ≥ 96 then d.answerFs d.fs [lit "error: path is too long"] false
        else
          match d.fs.fopenWb (resolve tempPath) with
          | (false, fs) => d.answerFs fs [lit "error: LittleFS is not mounted"] false
          | (true, fs) =>
            let done := upload content (resolve tempPath) (resolve path) fs
            d.answerFs done.2
              [if done.1 then lit "upload=complete" else lit "error: upload write failed"] done.1

def fsRemove (arguments : Text) (d : Device ρ) : Reply (Device ρ) :=
  let usage := d.answerFs d.fs [lit "error: usage fs-remove /apps/<path> --confirm"] false
  match strstr (lit " --confirm") arguments with
  | none => usage
  | some confirm =>
    if byteAt arguments (confirm + 10) ≠ 0 then usage
    else if confirm ≥ 65 ∨ ¬ strncmpEq arguments (lit "/apps/") 6 then
      d.answerFs d.fs [lit "error: invalid path"] false
    else
      match buildFsPath (arguments.take confirm) 96 with
      | none => d.answerFs d.fs [lit "error: invalid path"] false
      | some path =>
        let removed := d.fs.remove (resolve path)
        d.answerFs removed.2
          [if removed.1 then lit "file removed" else lit "error: file remove failed"] removed.1

/-- `CommandServices`. `others` answers what is not about the configuration or single files. -/
def services (others : DeviceServices (Device ρ)) : DeviceServices (Device ρ) where
  respond call d :=
    match call with
    | .wifiConfig arguments => wifiConfig arguments d
    | .wifiProfiles => wifiProfiles d
    | .wifiProfileClear arguments => wifiProfileClear arguments d
    | .configList => configList d
    | .configGet arguments => configGet arguments d
    | .configSet arguments => configSet arguments d
    | .configClear arguments => configClear arguments d
    | .fsRead arguments => fsRead arguments d
    | .fsWrite arguments => fsWrite arguments d
    | .fsRemove arguments => fsRemove arguments d
    | call => others.respond call d

/-- A device as it is flashed, with nothing stored, whose other services are silent. -/
def blank : Device Unit := ⟨⟨.empty, []⟩, ⟨.mounted, []⟩, ()⟩

def silentServices : DeviceServices (Device Unit) := services ⟨fun _ d => ⟨d, [], true⟩⟩

end Esp32Shell.Idf.CommandServices
