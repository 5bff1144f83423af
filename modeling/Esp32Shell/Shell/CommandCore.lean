import Esp32Shell.Library.CText

/-!
# The command core

`CommandCore::dispatch` strips blanks, bounds the line and walks a chain of
comparisons. `DeviceServices` is any state machine: its answer to a call depends
on its own state and the call. A `void` method's answer is never read.
-/
namespace Esp32Shell.Shell.CommandCore

open Esp32Shell.Library.CText

inductive CommandStatus where
  | ok | empty | unknown | invalid | sessionClosed
  deriving DecidableEq, Repr

/-- The methods of `DeviceServices`, each with the argument text it receives. -/
inductive ServiceCall where
  | deviceInfo | uptime | heap | reboot | wifiStatus
  | wifiConfig (arguments : Text)
  | wifiProfiles
  | wifiProfileClear (arguments : Text)
  | configList
  | configGet (arguments : Text)
  | configSet (arguments : Text)
  | configClear (arguments : Text)
  | fsList (arguments : Text)
  | fsRead (arguments : Text)
  | fsWrite (arguments : Text)
  | fsRemove (arguments : Text)
  | psram | resetReason | tasks | gpioModes
  | gpioRead (arguments : Text)
  | gpioWrite (arguments : Text)
  | logs | otaStatus | appList
  | appRun (arguments : Text)
  | appStop (arguments : Text)
  | appStatus | closeSession
  deriving DecidableEq, Repr

/-- The methods declared `bool`. -/
def ServiceCall.returnsBool : ServiceCall → Bool
  | .wifiConfig _ | .wifiProfileClear _ | .configSet _ | .configClear _ | .fsWrite _
  | .fsRemove _ | .gpioWrite _ | .appRun _ | .appStop _ => true
  | _ => false

/-- What a method leaves behind: the device, the lines given to `output.line`, the result. -/
structure Reply (σ : Type) where
  device : σ
  lines : List Text
  answer : Bool

structure DeviceServices (σ : Type) where
  respond : ServiceCall → σ → Reply σ

/-- Everything a call of `dispatch` does. -/
structure Dispatched (σ : Type) where
  status : CommandStatus
  calls : List ServiceCall
  lines : List Text
  device : σ

/-- One arm of `dispatch`. -/
inductive Action where
  | say (lines : List Text) (status : CommandStatus)
  | invoke (call : ServiceCall)
  | ask (call : ServiceCall)
  | close

/-- `output.line(..); return status`, a `void` call, `return f(..) ? Ok : Invalid`, or `exit`. -/
def Action.perform {σ : Type} (services : DeviceServices σ) (device : σ) : Action → Dispatched σ
  | .say lines status => ⟨status, [], lines, device⟩
  | .invoke call =>
    let reply := services.respond call device
    ⟨.ok, [call], reply.lines, reply.device⟩
  | .ask call =>
    let reply := services.respond call device
    ⟨if reply.answer then .ok else .invalid, [call], reply.lines, reply.device⟩
  | .close =>
    let reply := services.respond .closeSession device
    ⟨.sessionClosed, [.closeSession], reply.lines, reply.device⟩

def maxCommandLength : Nat := 4096

def space : UInt8 := 32
def tab : UInt8 := 9

def isBlank (b : UInt8) : Bool := b == space || b == tab

/-- `while (length > 0 && blank(command[length - 1])) --length;` -/
def trimmedLength (command : Text) : Nat → Nat
  | 0 => 0
  | length + 1 => if isBlank (byteAt command length) then trimmedLength command length else length + 1

def equals (value : Text) (length : Nat) (expected : Text) : Bool :=
  expected.length == length && strncmpEq value expected length

def startsWith (value : Text) (length : Nat) (pre : Text) : Bool :=
  decide (pre.length < length) && strncmpEq value pre pre.length

def helpLines : List Text :=
  [lit "Commands:",
   lit "  help         Show this help",
   lit "  version      Show firmware version",
   lit "  device-info  Show chip information",
   lit "  uptime       Show uptime in milliseconds",
   lit "  heap         Show free heap",
   lit "  reboot       Restart the device",
   lit "  wifi-status  Show Wi-Fi state",
   lit "  wifi-config  Configure and persist Wi-Fi profile",
   lit "  wifi-profiles List configured Wi-Fi profiles",
   lit "  wifi-profile-clear Clear a profile with --confirm",
   lit "  config-list   List persisted configuration keys",
   lit "  config-get    Read a configuration value",
   lit "  config-set    Set a configuration value",
   lit "  config-clear  Clear configuration with --confirm",
   lit "  fs-list       List LittleFS files",
   lit "  fs-read       Read a LittleFS file",
   lit "  fs-write      Write a LittleFS file",
   lit "  fs-remove     Remove a file with --confirm",
   lit "  psram         Show PSRAM usage",
   lit "  reset-reason  Show the last reset reason",
   lit "  tasks         Show bounded task diagnostics",
   lit "  gpio-modes    Show allowlisted GPIO pins",
   lit "  gpio-read     Read an allowlisted GPIO pin",
   lit "  gpio-write    Write an allowlisted GPIO pin",
   lit "  logs          Show bounded device logs",
   lit "  ota-status    Show OTA slot state",
   lit "  app-list      List built-in apps",
   lit "  app-run       Launch a built-in app",
   lit "  app-stop      Stop a built-in app",
   lit "  app-status    Show app lifecycle state",
   lit "  exit         Close the current shell session",
   lit "  quit         Close the current shell session"]

/-- The chain of tests after the length checks, in the order of the source. -/
def compareChain (command : Text) (length : Nat) : Action :=
  if equals command length (lit "help") then .say helpLines .ok
  else if equals command length (lit "version") then .say [lit "esp32shell 0.1.0"] .ok
  else if equals command length (lit "device-info") then .invoke .deviceInfo
  else if equals command length (lit "uptime") then .invoke .uptime
  else if equals command length (lit "heap") then .invoke .heap
  else if equals command length (lit "reboot") then .invoke .reboot
  else if equals command length (lit "wifi-status") then .invoke .wifiStatus
  else if equals command length (lit "exit") ∨ equals command length (lit "quit") then .close
  else if equals command length (lit "wifi-config") then
    .say [lit "error: usage wifi-config [<0|1> ]<ssid> <password>"] .invalid
  else if startsWith command length (lit "wifi-config ") then .ask (.wifiConfig (command.drop 12))
  else if equals command length (lit "wifi-profiles") then .invoke .wifiProfiles
  else if equals command length (lit "wifi-profile-clear") then
    .say [lit "error: usage wifi-profile-clear <0|1> --confirm"] .invalid
  else if startsWith command length (lit "wifi-profile-clear ") then
    .ask (.wifiProfileClear (command.drop 19))
  else if equals command length (lit "config-list") then .invoke .configList
  else if equals command length (lit "config-get") then
    .say [lit "error: usage config-get <key>"] .invalid
  else if startsWith command length (lit "config-get ") then .invoke (.configGet (command.drop 11))
  else if equals command length (lit "config-set") then
    .say [lit "error: usage config-set <key> <value>"] .invalid
  else if startsWith command length (lit "config-set ") then .ask (.configSet (command.drop 11))
  else if equals command length (lit "config-clear") then
    .say [lit "error: usage config-clear --confirm"] .invalid
  else if startsWith command length (lit "config-clear ") then .ask (.configClear (command.drop 13))
  else if equals command length (lit "fs-list") then
    .say [lit "error: usage fs-list <directory>"] .invalid
  else if startsWith command length (lit "fs-list ") then .invoke (.fsList (command.drop 8))
  else if equals command length (lit "fs-read") then
    .say [lit "error: usage fs-read <path>"] .invalid
  else if startsWith command length (lit "fs-read ") then .invoke (.fsRead (command.drop 8))
  else if equals command length (lit "fs-write") then
    .say [lit "error: usage fs-write <path> <content>"] .invalid
  else if startsWith command length (lit "fs-write ") then .ask (.fsWrite (command.drop 9))
  else if equals command length (lit "fs-remove") then
    .say [lit "error: usage fs-remove <path> --confirm"] .invalid
  else if startsWith command length (lit "fs-remove ") then .ask (.fsRemove (command.drop 10))
  else if equals command length (lit "psram") then .invoke .psram
  else if equals command length (lit "reset-reason") then .invoke .resetReason
  else if equals command length (lit "tasks") then .invoke .tasks
  else if equals command length (lit "gpio-modes") then .invoke .gpioModes
  else if equals command length (lit "gpio-read") then
    .say [lit "error: usage gpio-read <allowlisted-pin>"] .invalid
  else if startsWith command length (lit "gpio-read ") then .invoke (.gpioRead (command.drop 10))
  else if equals command length (lit "gpio-write") then
    .say [lit "error: usage gpio-write <allowlisted-pin> <0|1>"] .invalid
  else if startsWith command length (lit "gpio-write ") then .ask (.gpioWrite (command.drop 11))
  else if equals command length (lit "logs") then .invoke .logs
  else if equals command length (lit "ota-status") then .invoke .otaStatus
  else if equals command length (lit "app-list") then .invoke .appList
  else if equals command length (lit "app-run") then
    .say [lit "error: usage app-run <name>"] .invalid
  else if startsWith command length (lit "app-run ") then .ask (.appRun (command.drop 8))
  else if equals command length (lit "app-stop") then
    .say [lit "error: usage app-stop <name>"] .invalid
  else if startsWith command length (lit "app-stop ") then .ask (.appStop (command.drop 9))
  else if equals command length (lit "app-status") then .invoke .appStatus
  else .say [lit "error: unknown command; try 'help'"] .unknown

/-- The action `dispatch` takes on a non-null input. It depends on the input alone. -/
def route (input : List UInt8) : Action :=
  let command := (cString input).dropWhile isBlank
  let length := trimmedLength command command.length
  if length = 0 then .say [] .empty
  else if maxCommandLength < length then .say [lit "error: command is too long"] .invalid
  else compareChain command length

/-- `CommandCore::dispatch`; `none` is the null pointer. -/
def dispatch {σ : Type} (services : DeviceServices σ) (device : σ) :
    Option (List UInt8) → Dispatched σ
  | none => (Action.say [lit "error: invalid command"] .invalid).perform services device
  | some input => (route input).perform services device

end Esp32Shell.Shell.CommandCore
