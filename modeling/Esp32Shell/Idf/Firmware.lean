import Esp32Shell.Idf.AppRegistry
import Esp32Shell.Idf.CommandServices
import Esp32Shell.Idf.LogBuffer
import Esp32Shell.Idf.WifiStation
import Esp32Shell.Library.Scan

/-!
# All commands of the ESP-IDF image

The other methods of `CommandServices`, and with them the whole of its services.
What the chip answers, and what the other tasks have done meanwhile, is told for
each call of a method.
-/
namespace Esp32Shell.Idf.Firmware

open Esp32Shell.Library.CText Esp32Shell.Library.Scan
open Shell.CommandCore CommandServices
open AppRuntime (AppRecord AppState Crypto Runtime)

/-- `%d`. -/
def signedDecimal (z : Int) : Text := lit (toString z)

structure OtaPartition where
  label : Text
  address : Nat
  deriving DecidableEq

structure TaskStatus where
  name : Text
  stackHighWaterMark : Nat
  state : Nat
  deriving DecidableEq

/-- A turn of another task. -/
inductive Turn where
  | supervise (now : UInt32) (platforms : Nat → AppRuntime.Platform)
  | app (handle : AppRuntime.Handle) (ticks : UInt32) (watermark : Nat)
  | logged (formatted : List UInt8)
  | station (event : WifiStation.Event)

/-- What the chip and the system answer to the calls of one method. -/
structure Readings where
  /-- The turns of the other tasks since the readings before. -/
  meanwhile : List Turn
  target : Text
  cores : Nat
  revision : Nat
  flashSize : Nat
  psramSize : Nat
  idfVersion : Text
  uptimeMs : Nat
  freeHeap : Nat
  minimumFreeHeap : Nat
  psramFree : Nat
  resetReason : Int
  /-- At most the 24 tasks that are asked for. -/
  tasks : List TaskStatus
  level : Int → Int
  runningPartition : Option OtaPartition
  bootPartition : Option OtaPartition
  wifi : WifiStation.Readings
  /-- What `opendir` and `readdir` list, each name with whether it is a directory. -/
  directory : Text → Option (List (Text × Bool))
  allocated : Bool
  behind : List UInt8
  platform : AppRuntime.Platform

/-- What is neither in NVS nor in the file system. -/
structure Rest where
  apps : Runtime
  log : LogBuffer.Buffer
  setup : WifiStation.Setup
  station : WifiStation.Station
  crypto : Crypto
  /-- The levels that `gpio_set_level` was given, with the pins. -/
  pins : List (Int × Int)
  readings : Nat → Readings
  calls : Nat

abbrev Image := Device Rest

/-- The readings of the next call. -/
def Rest.now (r : Rest) : Readings := r.readings r.calls

def Rest.turn (r : Rest) : Turn → Rest
  | .supervise now platforms =>
    { r with apps := AppRuntime.supervise r.setup.tickRateHz.toNat now platforms r.apps }
  | .app handle ticks watermark => { r with apps := AppRuntime.taskTurn handle ticks watermark r.apps }
  | .logged formatted => { r with log := (LogBuffer.capture_vprintf none formatted r.log).1 }
  | .station event => { r with station := WifiStation.next r.setup r.station event }

def Rest.meanwhile (r : Rest) : Rest := r.now.meanwhile.foldl Rest.turn r

/-- The answers to one call have been read. -/
def Rest.asked (r : Rest) : Rest := { r with calls := r.calls + 1 }

/-- A reply that changed neither NVS nor the files. -/
def answer (d : Image) (rest : Rest) (lines : List Text) (answer : Bool) : Reply Image :=
  ⟨{ d with rest := rest.asked }, lines, answer⟩

def usageGpioWrite : Text := lit "error: usage gpio-write <allowlisted-pin> <0|1>"

def kAllowedPins : List Int := [38]

def allowedPin (pin : Int) : Bool := kAllowedPins.contains pin

def parsePin (value : Text) : Option Int :=
  if value = [] then none
  else
    let parsed := strtol value
    if parsed.2 ≠ [] ∨ parsed.1 < 0 ∨ parsed.1 > 48 then none
    else if allowedPin parsed.1 then some parsed.1 else none

def deviceInfo (d : Image) : Reply Image :=
  let r := d.rest.now
  answer d d.rest
    [snprintf 128 (lit "chip=" ++ r.target ++ lit " cores=" ++ decimal r.cores ++ lit " revision=" ++
        decimal r.revision),
     snprintf 128 (lit "flash_bytes=" ++ decimal r.flashSize ++ lit " psram_bytes=" ++
        decimal r.psramSize ++ lit " idf=" ++ r.idfVersion)] true

def uptime (d : Image) : Reply Image :=
  answer d d.rest [snprintf 48 (lit "uptime_ms=" ++ decimal d.rest.now.uptimeMs)] true

def heap (d : Image) : Reply Image :=
  let r := d.rest.now
  answer d d.rest [snprintf 64 (lit "free_heap=" ++ decimal r.freeHeap ++ lit " min_free_heap=" ++
    decimal r.minimumFreeHeap ++ lit " psram_free=" ++ decimal r.psramFree)] true

def wifiStatus (d : Image) : Reply Image :=
  let (status, station) := WifiStation.wifiStatus d.rest.setup d.rest.station d.rest.now.wifi
  let state := if status.rssi = 0 then (if status.connecting then lit "connecting" else lit "offline")
    else lit "connected"
  answer d { d.rest with station := station }
    [snprintf 128 (lit "wifi=" ++ state ++ lit " configured=" ++
      (if status.configured then lit "yes" else lit "no") ++ lit " active_profile=" ++
      decimal status.activeSlot ++ lit " ssid=" ++
      (if status.activeSsid = [] then lit "<unset>" else status.activeSsid) ++ lit " ip=" ++
      status.ipAddress ++ lit " rssi=" ++ signedDecimal status.rssi)] true

/-- What is shown of one entry of a directory. -/
def listedName (entry : Text × Bool) : Text :=
  let name := entry.1.take 94
  if entry.2 ∧ name.length < 95 then name ++ [47] else name

def fsList (arguments : Text) (d : Image) : Reply Image :=
  let path := if arguments = [] then some (lit "/littlefs") else buildFsPath arguments 96
  if arguments ≠ [] ∧ ¬ validFsPath arguments then
    answer d d.rest [lit "error: usage fs-list <directory>"] true
  else
    match path with
    | none => answer d d.rest [lit "error: path is too long"] true
    | some path =>
      match d.rest.now.directory path with
      | none => answer d d.rest [lit "error: LittleFS directory unavailable"] true
      | some entries =>
        let shown := (entries.take 64).map listedName
        answer d d.rest (if shown = [] then [lit "fs=empty"] else shown) true

def psram (d : Image) : Reply Image :=
  answer d d.rest [snprintf 64 (lit "psram_free=" ++ decimal d.rest.now.psramFree)] true

def resetReason (d : Image) : Reply Image :=
  answer d d.rest [snprintf 64 (lit "reset-reason=" ++ signedDecimal d.rest.now.resetReason)] true

def tasks (d : Image) : Reply Image :=
  let tasks := d.rest.now.tasks
  answer d d.rest (snprintf 96 (lit "tasks=" ++ decimal tasks.length) :: tasks.map fun task =>
    snprintf 96 (task.name ++ lit " stack=" ++ decimal task.stackHighWaterMark ++ lit " state=" ++
      decimal task.state)) true

def gpioModes (d : Image) : Reply Image := answer d d.rest [lit "gpio=allowlisted pins=38"] true

def gpioRead (arguments : Text) (d : Image) : Reply Image :=
  match parsePin arguments with
  | none => answer d d.rest [lit "error: usage gpio-read <allowlisted-pin>"] true
  | some pin =>
    answer d d.rest [snprintf 48 (lit "gpio=" ++ signedDecimal pin ++ lit " value=" ++
      signedDecimal (d.rest.now.level pin))] true

/-- The pin and the level that an argument of `gpio-write` names. -/
def gpioTarget (arguments : Text) : Option (Int × Int) :=
  match strchr arguments space with
  | none => none
  | some separator =>
    let level := byteAt arguments (separator + 1)
    if separator ≥ 8 ∨ (level ≠ 48 ∧ level ≠ 49) ∨ byteAt arguments (separator + 2) ≠ 0 then none
    else (parsePin (arguments.take separator)).map fun pin => (pin, (level.toNat : Int) - 48)

def gpioWrite (arguments : Text) (d : Image) : Reply Image :=
  match gpioTarget arguments with
  | none => answer d d.rest [usageGpioWrite] false
  | some write => answer d { d.rest with pins := d.rest.pins ++ [write] } [lit "gpio=updated"] true

def logs (d : Image) : Reply Image := answer d d.rest (LogBuffer.log_dump d.rest.log) true

/-- `ota_status`. -/
def otaStatus (d : Image) : Reply Image :=
  let r := d.rest.now
  let label := fun partition : Option OtaPartition => (partition.map OtaPartition.label).getD (lit "unknown")
  let active : Bool := match r.runningPartition, r.bootPartition with
    | some running, some boot => running.address == boot.address
    | _, _ => false
  answer d d.rest
    [snprintf 128 (lit "ota-running=" ++ label r.runningPartition),
     snprintf 128 (lit "ota-boot=" ++ label r.bootPartition),
     if active then lit "ota-state=active" else lit "ota-state=pending-reboot"] true

/-- `AppRuntime::stateName`. -/
def stateName : AppState → Text
  | .stopped => lit "stopped"
  | .running => lit "running"
  | .failed => lit "failed"

/-- A line of `AppRuntime::list`. -/
def listedApp (app : AppRecord) : Text :=
  snprintf 112 (lit "app=" ++ app.name ++ lit " type=" ++
    (if app.builtin then lit "builtin" else lit "signed") ++ lit " state=" ++ stateName app.state)

def appList (d : Image) : Reply Image :=
  answer d d.rest (d.rest.apps.apps.map listedApp ++ [lit "apps=signed-bundles-require-signature"]) true

/-- A line of `AppRuntime::status`. -/
def appStatusLine (app : AppRecord) : Text :=
  snprintf 112 <| if app.state = .failed then
      lit "app=" ++ app.name ++ lit " state=failed reason=" ++ app.failure ++ lit " restarts=" ++
        decimal app.restartCount
    else
      lit "app=" ++ app.name ++ lit " state=" ++ stateName app.state ++ lit " stack_free=" ++
        decimal app.stackWatermark ++ lit " restarts=" ++ decimal app.restartCount

def appStatus (d : Image) : Reply Image :=
  answer d d.rest (d.rest.apps.apps.map appStatusLine) true

/-- All that a call of `AppRuntime::run` meets. -/
def board (d : Image) : AppRuntime.Board where
  fs := d.fs
  nvs := d.nvs
  crypto := d.rest.crypto
  allocated := d.rest.now.allocated
  behind := d.rest.now.behind
  platform := d.rest.now.platform

def appRun (arguments : Text) (d : Image) : Reply Image :=
  let ran := AppRuntime.run arguments (board d) d.rest.apps
  answer d { d.rest with apps := ran.device } ran.lines ran.answer

def appStop (arguments : Text) (d : Image) : Reply Image :=
  let stopped := AppRuntime.stop arguments d.rest.apps
  answer d { d.rest with apps := stopped.device } stopped.lines stopped.answer

/-! ### What these methods change -/

theorem fsList_device (arguments : Text) (d : Image) :
    (fsList arguments d).device = { d with rest := d.rest.asked } := by
  simp only [fsList]
  repeat' split
  all_goals rfl

theorem gpioRead_device (arguments : Text) (d : Image) :
    (gpioRead arguments d).device = { d with rest := d.rest.asked } := by
  simp only [gpioRead]
  split <;> rfl

theorem gpioWrite_device (arguments : Text) (d : Image) : (gpioWrite arguments d).device =
    { d with rest := { d.rest with pins := d.rest.pins ++ (gpioTarget arguments).toList }.asked } := by
  simp only [gpioWrite]
  split
  next hnone => simp [hnone, answer]
  next write hwrite => simp [hwrite, answer]

/-- What is not about the configuration or single files. -/
def others : DeviceServices Image where
  respond call d :=
    let d := { d with rest := d.rest.meanwhile }
    match call with
    | .deviceInfo => deviceInfo d
    | .uptime => uptime d
    | .heap => heap d
    -- `esp_restart()` does not return, and the chip starts anew behind this line
    | .reboot => answer d d.rest [lit "rebooting"] true
    | .wifiStatus => wifiStatus d
    | .fsList arguments => fsList arguments d
    | .psram => psram d
    | .resetReason => resetReason d
    | .tasks => tasks d
    | .gpioModes => gpioModes d
    | .gpioRead arguments => gpioRead arguments d
    | .gpioWrite arguments => gpioWrite arguments d
    | .logs => logs d
    | .otaStatus => otaStatus d
    | .appList => appList d
    | .appRun arguments => appRun arguments d
    | .appStop arguments => appStop arguments d
    | .appStatus => appStatus d
    | _ => answer d d.rest [lit "bye"] true

/-- The services of the image. -/
def firmware : DeviceServices Image := services others

end Esp32Shell.Idf.Firmware
