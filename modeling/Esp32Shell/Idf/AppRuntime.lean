import Esp32Shell.Idf.SignedAppBundle
import Esp32Shell.Library.Rollover
import Esp32Shell.Shell.CommandCore
import Esp32Shell.Storage.LittleFs
import Esp32Shell.Storage.Nvs

/-!
# The app runtime of the ESP-IDF image

`AppRuntime` and the FreeRTOS tasks that it creates. A pointer to a record is
its index; a call of `run`, `stop` or `supervise` and one turn of an app's task
are one step each. The LED and the log are left out: nothing reads them.
-/
namespace Esp32Shell.Idf.AppRuntime

open Esp32Shell.Library.CText Esp32Shell.Library.Sha256
open Esp32Shell.Library.Rollover (pdMsToTicks)
open Shell.CommandCore Storage.LittleFs Storage.Nvs SignedAppBundle

inductive AppState where
  | stopped | running | failed
  deriving DecidableEq

abbrev Handle := Nat

structure AppRecord where
  name : Text
  builtin : Bool
  state : AppState
  task : Option Handle
  pin : Int
  periodMs : Nat
  failure : Text
  heartbeat : UInt32
  stackWatermark : Nat
  restartCount : Nat
  deriving DecidableEq

def maxApps : Nat := 4
def minimumFreeHeap : Nat := 16 * 1024
def minimumStackWords : Nat := 256
def maximumRestarts : Nat := 3

/-- The records in use, and the live tasks of apps with the records they were given. -/
structure Runtime where
  apps : List AppRecord
  tasks : List (Handle × Nat)
  deriving DecidableEq

/-- `AppRuntime::AppRuntime`. -/
def initial : Runtime where
  apps :=
    [⟨lit "diagnostics", true, .stopped, none, -1, 1000, [], 0, 0, 0⟩,
     ⟨lit "led-blink", true, .stopped, none, 38, 500, [], 0, 0, 0⟩]
  tasks := []

/-- What the heap, the scheduler and the clock answer. -/
structure Platform where
  freeHeap : Nat
  created : Option Handle
  ticks : UInt32

/-- The keys and the hash of the crypto library. -/
structure Crypto where
  sha256 : AppBundleDigest
  importPublic : List UInt8 → Bool
  verifyMsg : List UInt8 → AppBundleSignatureVerifier

/-- All that a call of `run` meets. -/
structure Board where
  fs : FileSystem
  nvs : Flash
  crypto : Crypto
  allocated : Bool
  /-- The bytes of the heap behind the payload. -/
  behind : List UInt8
  platform : Platform

def Runtime.update (rt : Runtime) (i : Nat) (change : AppRecord → AppRecord) : Runtime :=
  { rt with apps := rt.apps.modify i change }

/-- `vTaskDelete`. -/
def Runtime.deleteTask (rt : Runtime) (handle : Handle) : Runtime :=
  { rt with tasks := rt.tasks.filter (·.1 ≠ handle) }

/-- The handle that `xTaskCreate` gives out, never one that is in use. -/
def Runtime.freshHandle (rt : Runtime) (platform : Platform) : Option Handle :=
  platform.created.filter (· ∉ rt.tasks.map Prod.fst)

/-! ### Names and bundles -/

def isAlnum (c : UInt8) : Bool :=
  (48 ≤ c && c ≤ 57) || (65 ≤ c && c ≤ 90) || (97 ≤ c && c ≤ 122)

def dash : UInt8 := 45
def underscore : UInt8 := 95

def safeName (name : Text) : Bool :=
  name != [] && decide (name.length < 24) &&
    name.all fun c => isAlnum c || c == dash || c == underscore

def find (name : Text) (rt : Runtime) : Option Nat := rt.apps.findIdx? (·.name == name)

def signedRecord (name : Text) : AppRecord :=
  ⟨name.take 23, false, .stopped, none, 38, 500, [], 0, 0, 0⟩

def findOrCreateSigned (name : Text) (rt : Runtime) : Option Nat × Runtime :=
  match find name rt with
  | some i => (some i, rt)
  | none =>
    if ¬ safeName name ∨ rt.apps.length ≥ maxApps then (none, rt)
    else (some rt.apps.length, { rt with apps := rt.apps ++ [signedRecord name] })

def bundlePath (name : Text) : Text :=
  snprintf 64 (lit "/littlefs/apps/" ++ name ++ lit ".bundle")

/-- `WolfSignatureVerifier::load`. -/
def loadSignatureVerifier (nvs : Flash) (crypto : Crypto) : Option AppBundleSignatureVerifier :=
  match nvsOpen nvs with
  | (false, _) => none
  | (true, nvs) =>
    match nvs.store.getBlob (lit "app_signing_pub") 32 with
    | none => none
    | some publicKey =>
      if publicKey.length = 32 ∧ crypto.importPublic publicKey then some (crypto.verifyMsg publicKey)
      else none

def loadAndVerify (name : Text) (board : Board) : Except Text (List UInt8) :=
  if ¬ safeName name then .error (lit "error: invalid app name")
  else
    match (board.fs.fopenRb (resolve (bundlePath name))).1 with
    | none => .error (lit "error: signed app bundle not found")
    | some file =>
      let header := SignedAppBundleHeader.read (file.take headerSize)
      if file.length < headerSize ∨ header.payloadLength = 0 ∨
          header.payloadLength > maxPayloadLength then
        .error (lit "error: invalid app bundle header")
      else
        let payload := (file.drop headerSize).take header.payloadLength
        if ¬ board.allocated ∨ payload.length ≠ header.payloadLength then
          .error (lit "error: app bundle payload read failed")
        else
          let valid : Bool := match loadSignatureVerifier board.nvs board.crypto with
            | none => false
            | some verifier => verify header name payload board.crypto.sha256 verifier
          if ¬ valid then .error (lit "error: app bundle signature rejected") else .ok payload

def descriptor : Text := lit "builtin=led-blink"

/-- The test of the descriptor, over the payload and what lies behind it in memory. -/
def supported (payload behind : List UInt8) : Bool :=
  decide (payload.length < 128) && strncmpEq (cString (payload ++ behind)) descriptor 18

/-! ### The entry points -/

/-- `start` up to the creation of the task: the record and its new task, or the line of a refusal. -/
def createTask (app : Option Nat) (platform : Platform) (rt : Runtime) :
    Except Text (Nat × Text × Handle) × Runtime :=
  match app.bind fun i => (rt.apps[i]?).map fun record => (i, record) with
  | none => (.error (lit "error: app is unavailable"), rt)
  | some (i, app) =>
    if app.task ≠ none then (.error (lit "error: app is already running"), rt)
    else if platform.freeHeap < minimumFreeHeap then
      (.error (lit "error: app resource limit reached"), rt.update i fun app =>
        { app with failure := lit "insufficient heap", state := .failed })
    else
      match rt.freshHandle platform with
      | none =>
        (.error (lit "error: app task could not start"), rt.update i fun app =>
          { app with failure := lit "task allocation failed", state := .failed })
      | some handle =>
        (.ok (i, app.name, handle), ({ rt with tasks := (handle, i) :: rt.tasks } : Runtime).update i
          fun app => { app with task := some handle })

def start (app : Option Nat) (platform : Platform) (rt : Runtime) : Reply Runtime :=
  match createTask app platform rt with
  | (.error line, rt) => ⟨rt, [line], false⟩
  | (.ok (i, name, _), rt) =>
    ⟨rt.update i fun app =>
        { app with state := .running, failure := [], heartbeat := platform.ticks },
      [snprintf 64 (lit "app-started=" ++ name)], true⟩

/-- `run` up to its call of `start`: the record to start, or the line of a refusal. -/
def appToRun (name : Text) (board : Board) (rt : Runtime) : Except Text (Option Nat × Runtime) :=
  match find name rt with
  | some i => .ok (some i, rt)
  | none =>
    match loadAndVerify name board with
    | .error line => .error line
    | .ok payload =>
      if ¬ supported payload board.behind then .error (lit "error: signed app descriptor is unsupported")
      else .ok (findOrCreateSigned name rt)

def run (name : Text) (board : Board) (rt : Runtime) : Reply Runtime :=
  match appToRun name board rt with
  | .error line => ⟨rt, [line], false⟩
  | .ok (app, rt) => start app board.platform rt

def stop (name : Text) (rt : Runtime) : Reply Runtime :=
  match (find name rt).bind fun i => (rt.apps[i]?).bind fun app => app.task.map fun task =>
      (i, app, task) with
  | none => ⟨rt, [lit "error: app is not running"], false⟩
  | some (i, app, task) =>
    ⟨(rt.deleteTask task).update i fun app => { app with task := none, state := .stopped },
      [snprintf 64 (lit "app-stopped=" ++ app.name)], true⟩

/-- One turn of the loop of `taskThunk`, in the task with this handle. -/
def taskTurn (handle : Handle) (ticks : UInt32) (watermark : Nat) (rt : Runtime) : Runtime :=
  match rt.tasks.lookup handle with
  | none => rt
  | some i =>
    let rt := rt.update i fun app => { app with heartbeat := ticks, stackWatermark := watermark }
    if watermark < minimumStackWords then
      (rt.update i fun app =>
        { app with failure := lit "stack resource limit", state := .failed, task := none }).deleteTask
          handle
    else rt

/-- One pass of the loop of `supervise`. -/
def superviseApp (tickRateHz : Nat) (now : UInt32) (platform : Platform) (i : Nat) (rt : Runtime) :
    Runtime :=
  match rt.apps[i]? with
  | none => rt
  | some app =>
    match app.task with
    | none => rt
    | some task =>
      let timeout := pdMsToTicks tickRateHz (UInt32.ofNat app.periodMs * 4)
      if app.state ≠ .running ∨ now - app.heartbeat ≤ timeout then rt
      else
        let rt := (rt.deleteTask task).update i fun app => { app with task := none }
        if app.restartCount ≥ maximumRestarts then
          rt.update i fun app => { app with state := .failed, failure := lit "heartbeat timeout" }
        else
          let rt := rt.update i fun app => { app with restartCount := app.restartCount + 1 }
          (start (some i) platform rt).device

/-- `supervise`, where each record meets its own answers of the platform. -/
def supervise (tickRateHz : Nat) (now : UInt32) (platforms : Nat → Platform) (rt : Runtime) :
    Runtime :=
  (List.range rt.apps.length).foldl (fun rt i => superviseApp tickRateHz now (platforms i) i rt) rt

/-! ### What the functions answer -/

/-- The file under the path of this very name verifies with the stored key, and holds this payload. -/
def Passed (name : Text) (board : Board) (payload : List UInt8) : Prop :=
  ∃ file verifier,
    (board.fs.fopenRb (resolve (lit "/littlefs/apps/" ++ name ++ lit ".bundle"))).1 = some file ∧
    loadSignatureVerifier board.nvs board.crypto = some verifier ∧
    payload = (file.drop headerSize).take
      (SignedAppBundleHeader.read (file.take headerSize)).payloadLength ∧
    verify (SignedAppBundleHeader.read (file.take headerSize)) name payload board.crypto.sha256
      verifier = true

theorem safeName_length {name : Text} (h : safeName name = true) : name.length < 24 := by
  simp only [safeName, Bool.and_eq_true, decide_eq_true_eq] at h
  exact h.1.2

theorem bundlePath_of_safe {name : Text} (h : safeName name = true) :
    bundlePath name = lit "/littlefs/apps/" ++ name ++ lit ".bundle" := by
  have hshort := safeName_length h
  have hfront : (lit "/littlefs/apps/").length = 15 := by decide
  have hback : (lit ".bundle").length = 7 := by decide
  apply List.take_of_length_le
  rw [List.length_append, List.length_append]
  omega

/-- The header and the payload that `loadAndVerify` reads from a file. -/
def readBundle (file : List UInt8) : Option (SignedAppBundleHeader × List UInt8) :=
  let header := SignedAppBundleHeader.read (file.take headerSize)
  let payload := (file.drop headerSize).take header.payloadLength
  if file.length < headerSize ∨ header.payloadLength = 0 ∨ header.payloadLength > maxPayloadLength ∨
      payload.length ≠ header.payloadLength then none
  else some (header, payload)

theorem readBundle_eq_some_iff {file payload : List UInt8} {header : SignedAppBundleHeader} :
    readBundle file = some (header, payload) ↔
      header = SignedAppBundleHeader.read (file.take headerSize) ∧
      payload = (file.drop headerSize).take header.payloadLength ∧
      ¬ (file.length < headerSize ∨ header.payloadLength = 0 ∨ header.payloadLength > maxPayloadLength) ∧
      payload.length = header.payloadLength := by
  simp only [readBundle, Option.ite_none_left_eq_some, Option.some_inj, Prod.mk.injEq]
  grind

/-- All that `loadAndVerify` accepts. -/
theorem loadAndVerify_eq_ok_iff {name : Text} {board : Board} {payload : List UInt8} :
    loadAndVerify name board = .ok payload ↔ safeName name = true ∧ board.allocated = true ∧
      ∃ file verifier header, (board.fs.fopenRb (resolve (bundlePath name))).1 = some file ∧
        loadSignatureVerifier board.nvs board.crypto = some verifier ∧
        readBundle file = some (header, payload) ∧
        verify header name payload board.crypto.sha256 verifier = true := by
  simp only [readBundle_eq_some_iff]
  constructor
  · intro h
    unfold loadAndVerify at h
    split at h
    · cases h
    next hsafe =>
      split at h
      · cases h
      next file hfile =>
        simp only at h
        split at h
        · cases h
        next hheader =>
          split at h
          · cases h
          next hread =>
            rw [not_or, not_not, ne_eq, not_not] at hread
            cases hverifier : loadSignatureVerifier board.nvs board.crypto with
            | none =>
              rw [hverifier] at h
              cases h
            | some verifier =>
              simp only [hverifier] at h
              split at h
              · cases h
              next hvalid =>
                cases h
                exact ⟨not_not.mp hsafe, hread.1, file, verifier, _, hfile, rfl,
                  ⟨rfl, rfl, hheader, hread.2⟩, not_not.mp hvalid⟩
  · intro h
    obtain ⟨hsafe, hallocated, file, verifier, header, hfile, hverifier, hread, hvalid⟩ := h
    obtain ⟨rfl, rfl, hheader, hlength⟩ := hread
    have hsafe' : ¬ ¬ safeName name = true := not_not.mpr hsafe
    have hread : ¬ (¬ board.allocated = true ∨ ((file.drop headerSize).take
        (SignedAppBundleHeader.read (file.take headerSize)).payloadLength).length ≠
          (SignedAppBundleHeader.read (file.take headerSize)).payloadLength) := by
      simp only [hallocated, hlength, not_true, ne_eq, or_self, not_false_eq_true]
    simp only [loadAndVerify, if_neg hsafe', hfile, if_neg hheader, if_neg hread, hverifier, hvalid,
      not_true, if_false]

/-- The file under the path of the name passes. -/
theorem loadAndVerify_eq_ok {name : Text} {board : Board} {payload : List UInt8}
    (h : loadAndVerify name board = .ok payload) :
    safeName name = true ∧ Passed name board payload := by
  obtain ⟨hsafe, -, file, verifier, header, hfile, hverifier, hread, hvalid⟩ :=
    loadAndVerify_eq_ok_iff.mp h
  obtain ⟨rfl, rfl, -⟩ := readBundle_eq_some_iff.mp hread
  rw [bundlePath_of_safe hsafe] at hfile
  exact ⟨hsafe, file, verifier, hfile, hverifier, rfl, hvalid⟩

theorem find_eq_none_iff {name : Text} {rt : Runtime} :
    find name rt = none ↔ ∀ app ∈ rt.apps, app.name ≠ name := by
  rw [find, List.findIdx?_eq_none_iff]
  simp

/-- Crypto calls that all fail. -/
def noCrypto : Crypto := ⟨fun _ _ => none, fun _ => false, fun _ _ _ => false⟩

/-- Nothing is on the disk and no key is stored, but a task can be created. -/
def emptyBoard (handle : Handle) : Board where
  fs := ⟨.mounted, []⟩
  nvs := ⟨.empty, []⟩
  crypto := noCrypto
  allocated := true
  behind := []
  platform := ⟨minimumFreeHeap, some handle, 0⟩

end Esp32Shell.Idf.AppRuntime
