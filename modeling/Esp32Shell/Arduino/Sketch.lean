import Esp32Shell.Arduino.AppCommands
import Esp32Shell.Arduino.FileRemoval
import Esp32Shell.Arduino.OtaService
import Esp32Shell.Arduino.SerialLoop
import Esp32Shell.Library.Scan

/-!
# All commands of the Arduino image

The other methods of `Esp32Services`, and with them the whole of the sketch and
its console, which `reboot` starts anew in the middle of a turn. What a method
prints with `Serial.printf` and ends with an empty line is one line here. What
the chip answers is told for each call of a method.
-/
namespace Esp32Shell.Arduino.Sketch

open Esp32Shell.Library.CText Esp32Shell.Library.Feed Esp32Shell.Library.Scan
open Esp32Shell.Library.Sha256
open Shell.CommandCore Storage.LittleFs WifiService Esp32Services
open AppCommands (App Apps TaskHandle)
open FileRemoval (maxPathLength validPath)

/-- `%d`. -/
def signedDecimal (z : Int) : Text := lit (toString z)

inductive PinCall where
  | pinMode (pin : Int) (output : Bool)
  | digitalWrite (pin value : Int)
  deriving DecidableEq

/-- What the chip and the core answer to the calls of one method. -/
structure Readings where
  chipModel : Text
  chipCores : Nat
  cpuFreqMHz : Nat
  flashChipSize : Nat
  psramSize : Nat
  freePsram : Nat
  uptimeMs : Nat
  freeHeap : Nat
  minFreeHeap : Nat
  resetReason : Int
  /-- At most the 12 tasks that are asked for, each with its stack watermark. -/
  tasks : List (Text × Nat)
  level : Int → Int
  wifi : Driver
  rssi : Int
  localIP : Text
  /-- What `openNextFile` finds, each name with its size. -/
  directory : Text → Option (List (Text × Nat))
  created : Option TaskHandle

/-- What is neither in the preferences nor about Wi-Fi. -/
structure Rest where
  fs : FileSystem
  apps : Apps
  ota_ : OtaService.OtaSlotManager
  pins : List PinCall
  readings : Nat → Readings
  calls : Nat

abbrev Image := Device Rest

/-- The readings of the next call. -/
def Rest.now (r : Rest) : Readings := r.readings r.calls

/-- The answers to one call have been read. -/
def Rest.asked (r : Rest) : Rest := { r with calls := r.calls + 1 }

/-- A reply that changed neither the preferences nor the Wi-Fi service. -/
def answer (d : Image) (rest : Rest) (lines : List Text) (answer : Bool) : Reply Image :=
  ⟨{ d with rest := rest.asked }, lines, answer⟩

def deviceInfo (d : Image) : Reply Image :=
  let r := d.rest.now
  answer d d.rest
    [lit "chip=" ++ r.chipModel ++ lit " cores=" ++ decimal r.chipCores ++ lit " cpu_mhz=" ++
        decimal r.cpuFreqMHz,
     lit "flash=" ++ decimal r.flashChipSize ++ lit " bytes psram=" ++ decimal r.psramSize ++
        lit " bytes"] true

def uptime (d : Image) : Reply Image :=
  answer d d.rest [decimal d.rest.now.uptimeMs ++ lit " ms"] true

def heap (d : Image) : Reply Image :=
  answer d d.rest [lit "free_heap=" ++ decimal d.rest.now.freeHeap ++ lit " min_free_heap=" ++
    decimal d.rest.now.minFreeHeap] true

def wifiStatus (d : Image) : Reply Image :=
  let r := d.rest.now
  let state := match d.wifiService.state_ with
    | .connected => lit "connected"
    | .connecting => lit "connecting"
    | .offline => lit "offline"
  answer d d.rest
    [lit "wifi=" ++ state ++ lit " configured=" ++
      (if d.wifiService.configured_ then lit "yes" else lit "no") ++ lit " active_profile=" ++
      decimal d.wifiService.activeSlot_ ++ lit " ip=" ++
      (if r.wifi.connected then r.localIP else lit "0.0.0.0") ++ lit " rssi=" ++
      signedDecimal (if r.wifi.connected then r.rssi else 0)] true

/-! ### Files -/

def fsList (arguments : Text) (d : Image) : Reply Image :=
  let path := if arguments = [] then lit "/" else arguments
  if ¬ validPath path then answer d d.rest [lit "error: invalid path"] true
  else
    match d.rest.now.directory path with
    | none => answer d d.rest [lit "error: directory not found"] true
    | some entries =>
      answer d d.rest ((entries.take 32).map fun entry => entry.1 ++ lit " " ++ decimal entry.2 ++
        lit " bytes") true

def fsRead (arguments : Text) (fs : FileSystem) : Reply FileSystem :=
  if ¬ validPath arguments then ⟨fs, [lit "error: invalid path"], true⟩
  else
    match fs.fopenRb (resolve arguments) with
    | (none, fs) => ⟨fs, [lit "error: file not found"], true⟩
    | (some content, fs) =>
      if content.length > 512 then ⟨fs, [lit "error: file is too large"], true⟩
      else ⟨fs, [cString content], true⟩

/-- `LittleFS.open(path, FILE_WRITE)` and `print`, whose result is not looked at. A directory is opened as
one, and nothing is printed to it. -/
def written (p : Path) (content : Text) (fs : FileSystem) : Bool × FileSystem :=
  if fs.tree.entry p = some .dir then (true, fs)
  else
    let opened := fs.fopenWb p
    if opened.1 then (true, (opened.2.fwrite p content).2) else opened

def fsWrite (arguments : Text) (fs : FileSystem) : Reply FileSystem :=
  match strchr arguments space with
  | none => ⟨fs, [lit "error: usage fs-write <path> <content>"], false⟩
  | some separator =>
    if separator = 0 then ⟨fs, [lit "error: usage fs-write <path> <content>"], false⟩
    else if separator > maxPathLength then ⟨fs, [lit "error: path is too long"], false⟩
    else
      let path := arguments.take separator
      let content := arguments.drop (separator + 1)
      if ¬ validPath path ∨ content.length > 512 then
        ⟨fs, [lit "error: invalid path or content too large"], false⟩
      else
        let done := written (resolve path) content fs
        ⟨done.2, [if done.1 then lit "file written" else lit "error: cannot open file"], done.1⟩

/-- What a command did to the files. -/
def onFiles (command : FileSystem → Reply FileSystem) (d : Image) : Reply Image :=
  let done := command d.rest.fs
  answer d { d.rest with fs := done.device } done.lines done.answer

/-! ### The chip -/

def psram (d : Image) : Reply Image :=
  let r := d.rest.now
  answer d d.rest [lit "psram=" ++ (if r.psramSize > 0 then lit "yes" else lit "no") ++ lit " size=" ++
    decimal r.psramSize ++ lit " free=" ++ decimal r.freePsram] true

def resetReason (d : Image) : Reply Image :=
  answer d d.rest [lit "reset-reason=" ++ signedDecimal d.rest.now.resetReason] true

def tasks (d : Image) : Reply Image :=
  let tasks := d.rest.now.tasks
  answer d d.rest ((lit "tasks=" ++ decimal tasks.length) ::
    (tasks.take 12).map fun task => task.1 ++ lit " stack=" ++ decimal task.2) true

def allowedPins : List Int := [1, 2, 4, 5, 6, 7, 15, 16, 17, 18, 38]

def gpioAllowed (pin : Int) : Bool := allowedPins.contains pin

def gpioModes (d : Image) : Reply Image :=
  answer d d.rest [lit "gpio allowlist: 1,2,4,5,6,7,15,16,17,18,38"] true

/-- `sscanf(arguments, "%d", &pin)`, where the pin is allowed. -/
def readPin (arguments : Text) : Option Int :=
  ((scanInt arguments).map Prod.fst).filter gpioAllowed

def gpioRead (arguments : Text) (d : Image) : Reply Image :=
  match readPin arguments with
  | none => answer d d.rest [lit "error: GPIO pin is not allowlisted"] true
  | some pin =>
    answer d { d.rest with pins := d.rest.pins ++ [.pinMode pin false] }
      [lit "gpio=" ++ signedDecimal pin ++ lit " value=" ++ signedDecimal (d.rest.now.level pin)] true

/-- `sscanf(arguments, "%d %d", &pin, &value)`. -/
def scanPair (arguments : Text) : Option (Int × Int) :=
  (scanInt arguments).bind fun pin => (scanInt pin.2).map fun value => (pin.1, value.1)

/-- The pin and the level that an argument of `gpio-write` names. -/
def gpioTarget (arguments : Text) : Option (Int × Int) :=
  (scanPair arguments).filter fun write => gpioAllowed write.1 && (write.2 == 0 || write.2 == 1)

def gpioWrite (arguments : Text) (d : Image) : Reply Image :=
  match gpioTarget arguments with
  | none => answer d d.rest [lit "error: usage gpio-write <allowlisted-pin> <0|1>"] false
  | some write =>
    answer d
      { d.rest with pins := d.rest.pins ++ [.pinMode write.1 true, .digitalWrite write.1 write.2] }
      [lit "gpio updated"] true

/-! ### Logs, updates and apps -/

def logs (d : Image) : Reply Image :=
  let log := d.rest.apps.logs_
  answer d d.rest (if DeviceToolbox.count log = 0 then [lit "logs=empty"]
    else (List.range (DeviceToolbox.count log)).map (DeviceToolbox.entryAt log)) true

def otaStatus (d : Image) : Reply Image := answer d d.rest [OtaService.state d.rest.ota_] true

def appList (d : Image) : Reply Image :=
  let apps := d.rest.apps
  answer d d.rest
    [if apps.diagnosticsTask_ = none then lit "diagnostics stopped" else lit "diagnostics running",
     if apps.ledBlinkTask_ = none then lit "led-blink stopped" else lit "led-blink running"] true

/-- What a command did to the apps. -/
def onApps (command : Apps → Reply Apps) (d : Image) : Reply Image :=
  let done := command d.rest.apps
  answer d { d.rest with apps := done.device } done.lines done.answer

def appStatus (d : Image) : Reply Image :=
  let state := Supervisor.state d.rest.apps.supervisor_
  answer d d.rest
    [if state (lit "diagnostics") = .running then lit "diagnostics=running" else lit "diagnostics=stopped",
     if state (lit "led-blink") = .running then lit "led-blink=running" else lit "led-blink=stopped"] true

/-! ### What these methods change -/

theorem fsList_device (arguments : Text) (d : Image) :
    (fsList arguments d).device = { d with rest := d.rest.asked } := by
  simp only [fsList]
  repeat' split
  all_goals rfl

theorem gpioRead_device (arguments : Text) (d : Image) : (gpioRead arguments d).device =
    { d with rest := { d.rest with
      pins := d.rest.pins ++ (readPin arguments).toList.map fun pin => PinCall.pinMode pin false }.asked } := by
  simp only [gpioRead]
  split
  next hnone => simp [hnone, answer]
  next pin hpin => simp [hpin, answer]

theorem gpioWrite_device (arguments : Text) (d : Image) : (gpioWrite arguments d).device =
    { d with rest := { d.rest with
      pins := d.rest.pins ++ (gpioTarget arguments).toList.flatMap fun write : Int × Int =>
        [PinCall.pinMode write.1 true, PinCall.digitalWrite write.1 write.2] }.asked } := by
  simp only [gpioWrite]
  split
  next hnone => simp [hnone, answer]
  next write hwrite => simp [hwrite, answer]

/-! ### The restart -/

/-- The objects of the sketch as they are constructed at a restart, with the first line of the log. -/
def Rest.restarted (r : Rest) : Rest :=
  let apps := AppCommands.constructed
  { r with
    apps := { apps with logs_ := (DeviceToolbox.append apps.logs_ (some (lit "boot complete"))).1 }
    ota_ := OtaService.initial
    pins := [] }

/-- The device behind a restart and `setup()`, at the time that `millis()` then tells. -/
def restarted (d : Image) : Image :=
  Reboot.reboot { d with
    millis := UInt32.ofNat d.rest.now.uptimeMs
    rest := d.rest.asked.restarted }

theorem loadSlot_rest (d : Image) (slot : Nat) : (loadSlot d slot).rest = d.rest := by
  simp only [loadSlot]
  split_ifs <;> rfl

theorem restarted_rest (d : Image) : (restarted d).rest = d.rest.asked.restarted := by
  show (loadSlot (loadSlot _ 0) 1).rest = _
  rw [loadSlot_rest, loadSlot_rest]

theorem restarted_preferences (d : Image) : (restarted d).preferences_ = d.preferences_ := by
  show (loadSlot (loadSlot _ 0) 1).preferences_ = _
  rw [loadSlot_preferences, loadSlot_preferences]

/-- What is not about the configuration. -/
def others : DeviceServices Image where
  respond call d :=
    match call with
    | .deviceInfo => deviceInfo d
    | .uptime => uptime d
    | .heap => heap d
    -- `ESP.restart()` does not return, and the device is the one that starts next
    | .reboot => ⟨restarted d, [lit "rebooting"], true⟩
    | .wifiStatus => wifiStatus d
    | .fsList arguments => fsList arguments d
    | .fsRead arguments => onFiles (fsRead arguments) d
    | .fsWrite arguments => onFiles (fsWrite arguments) d
    | .fsRemove arguments => onFiles (FileRemoval.fsRemove arguments) d
    | .psram => psram d
    | .resetReason => resetReason d
    | .tasks => tasks d
    | .gpioModes => gpioModes d
    | .gpioRead arguments => gpioRead arguments d
    | .gpioWrite arguments => gpioWrite arguments d
    | .logs => logs d
    | .otaStatus => otaStatus d
    | .appList => appList d
    | .appRun arguments =>
      onApps (AppCommands.appRun arguments d.rest.now.freeHeap d.rest.now.created) d
    | .appStop arguments => onApps (AppCommands.appStop arguments) d
    | .appStatus => appStatus d
    | _ => answer d d.rest [lit "serial monitor remains active; press Ctrl-C to exit"] true

/-- The services of the sketch. -/
def sketch : DeviceServices Image := services sha256 others

/-! ### The console -/

open SerialLoop (Console Turn println)
open Shell.Session (carriageReturn lineFeed)

/-- A line that calls `reboot`. -/
def reboots (input : List UInt8) : Bool :=
  match route input with
  | .invoke .reboot | .ask .reboot => true
  | _ => false

/-- The console after a restart and `setup()`. -/
def setup (d : Image) : Console Rest := SerialLoop.booted (restarted d)

/-- A line in which the chip restarts: nothing behind the call is written, and `setup()` follows. -/
def rebooted (c : Console Rest) : Console Rest :=
  let d := dispatch sketch c.device (some c.readLine)
  let next := SerialLoop.booted d.device
  { next with
    events := c.events ++ println [] ++ .dispatched (cString c.readLine) :: d.calls.map .called ++
      d.lines.flatMap println ++ next.events }

/-- The body of `while (Serial.available())`, which a restart leaves. -/
def readByte (c : Console Rest) (b : UInt8) : Except (Console Rest) (Console Rest) :=
  if (b = carriageReturn ∨ b = lineFeed) ∧ c.lineEndingSeen = false ∧ reboots c.readLine = true then
    .error (rebooted { c with events := c.events ++ [.received b] })
  else .ok (SerialLoop.readByte sketch c b)

/-- `loop()`. What is available behind a restart is lost, and so is the rest of the turn. -/
def loop (c : Console Rest) (t : Turn) : Console Rest :=
  match feed readByte c t.available with
  | .ok drained => { drained with device := Reboot.happen sketch drained.device (.loop t.now t.driver) }
  | .error next => next

/-- The console after a number of turns. -/
def afterTurns (d : Image) (turns : List Turn) : Console Rest := turns.foldl loop (setup d)

end Esp32Shell.Arduino.Sketch
