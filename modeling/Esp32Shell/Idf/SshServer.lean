import Esp32Shell.Idf.SshAuth
import Esp32Shell.Library.Ledger
import Esp32Shell.Library.Run
import Esp32Shell.Shell.Session

/-!
# The SSH server of the ESP-IDF image

`ssh_server_task` and what it calls, as a machine that takes one answer of
wolfSSH, the sockets or the heap after the other. It starts with the address of
the station, serves one client at a time, and has no end of its own: its loop
asks for a flag that nothing clears.
-/
namespace Esp32Shell.Idf.SshServer

open Esp32Shell.Library.CText Esp32Shell.Library.Ledger Esp32Shell.Library.Run Esp32Shell.Library.Sha256
open Shell.CommandCore Storage.LittleFs Storage.Nvs CommandServices SshAuth
open Shell (Session.Chunk Session.ShellRead Session.opened Session.greeting Session.stepPoll)

variable {ρ : Type}

/-- The codes of wolfSSH that the server tells apart. -/
inductive Code where
  | success | sftpComplete | wantRead | wantWrite | authPending | chanRxd | windowFull | eof
  | channelClosed | other
  deriving DecidableEq, Repr

/-- What wolfSSH calls back: `user_auth`, and `shell_request` with a channel or without. -/
inductive Callback where
  | userAuth (hashed : Bool) (authType : UserAuthType) (data : Option UserAuthData)
  | shellRequest (channel : Bool)

/-- What a call of wolfSSH does on a connection: the callbacks meanwhile, its result, and what
`wolfSSH_get_error` returns next. -/
structure Served where
  callbacks : List Callback
  result : Code
  error : Code

/-- `wolfSSH_stream_read` into the 64 bytes of the session. -/
inductive StreamRead where
  | received (chunk : Session.Chunk)
  | failed (code : Code)

/-- `SshTransport::read`. -/
def read : StreamRead → Session.ShellRead
  | .received chunk => if chunk.val = [] then .closed else .data chunk
  | .failed .wantRead | .failed .wantWrite => .wouldBlock
  | .failed .success => .closed
  | .failed _ => .error

/-- What one turn of the loop of `serve_sftp` meets: whether a reply is pending, the result of
`select`, that of `wolfSSH_SFTP_read` or `wolfSSH_worker`, and the files that the former leaves. -/
structure SftpTurn where
  pendingSend : Bool
  selected : Int
  served : Served
  files : FileSystem

inductive Resource where
  | library | context
  | socket (fd : Nat)
  | session
  deriving DecidableEq

inductive Event (ρ : Type) where
  | moved (move : Move Resource)
  | loaded (auth : Option AuthConfig)
  | userAuth (data : Option UserAuthData) (result : UserAuthResult)
  | shellRequest (accepted : Bool)
  | handshake (result : Code)
  | shell (event : Shell.Session.Event)
  | files (fs : FileSystem)
  | restarted (rest : ρ)

/-- Where the service of a client stands. -/
inductive Phase (ρ : Type) where
  | handshake (attempts : Nat)
  | defaultPath
  | sftp (result : Code)
  | worker
  | allocating
  | shell (session : Shell.Session.State (Device ρ))
  | closing

/-- The call that the task makes next. -/
inductive Stage (ρ : Type) where
  | starting
  | context
  | privateKey
  | socket
  | binding (listener : Nat)
  | accepting (listener : Nat)
  | creating (listener client : Nat)
  | connected (listener client : Nat) (phase : Phase ρ)

/-- The globals of the server, the device, and what has happened. -/
structure Server (ρ : Type) where
  device : Device ρ
  startRequested : Bool
  auth : Option AuthConfig
  shellRequestAccepted : Bool
  task : Option (Stage ρ)
  log : List (Event ρ)

/-- One answer to the call that the task makes. -/
inductive Answer where
  | initialized (ok : Bool)
  | contextNew (ok : Bool)
  | privateKey (ok : Bool)
  | socket (fd : Option Nat)
  | bound (bind listen : Bool)
  | accepted (client : Option Nat)
  | sessionNew (ok : Bool)
  | served (served : Served)
  | defaultPath (ok : Bool)
  | sftp (turn : SftpTurn)
  | allocated (ok : Bool)
  | streamRead (callbacks : List Callback) (result : StreamRead)

/-- `esp32shell_ssh_start_after_wifi` with the outcome of `xTaskCreate`, an answer, or a restart of the
chip, after which the memory outside of the flash is as given. -/
inductive Input (ρ : Type) where
  | startAfterWifi (created : Bool)
  | answer (answer : Answer)
  | restart (rest : ρ)

namespace Server

def note (s : Server ρ) (events : List (Event ρ)) : Server ρ := { s with log := s.log ++ events }

def take (s : Server ρ) (r : Resource) : Server ρ := s.note [.moved (.take r)]

def goTo (s : Server ρ) (stage : Stage ρ) : Server ρ := { s with task := some stage }

/-- Everything is given back, `g_task` is cleared and the task deleted. -/
def delete (s : Server ρ) (held : List Resource) : Server ρ :=
  { s.note (held.map fun r => .moved (.release r)) with task := none }

/-- `while (g_startRequested)`. -/
def loop (s : Server ρ) (listener : Nat) : Server ρ :=
  if s.startRequested then s.goTo (.accepting listener)
  else s.delete [.socket listener, .context, .library]

/-- `close_session` behind `wolfSSH_shutdown`, and the next turn of the loop. -/
def closeSession (s : Server ρ) (listener client : Nat) : Server ρ :=
  (s.note [.moved (.release .session), .moved (.release (.socket client))]).loop listener

def callback (sha256 : List UInt8 → Digest) (s : Server ρ) : Callback → Server ρ
  | .userAuth hashed authType data => s.note [.userAuth data (userAuth sha256 hashed authType data s.auth)]
  | .shellRequest channel =>
    { s.note [.shellRequest channel] with
      shellRequestAccepted := s.shellRequestAccepted || channel }

def callbacks (sha256 : List UInt8 → Digest) (s : Server ρ) (made : List Callback) : Server ρ :=
  made.foldl (callback sha256) s

/-- The entry of a callback, where these credentials are loaded. -/
def entry (sha256 : List UInt8 → Digest) (auth : Option AuthConfig) : Callback → Event ρ
  | .userAuth hashed authType data => .userAuth data (userAuth sha256 hashed authType data auth)
  | .shellRequest channel => .shellRequest channel

/-- A shell is asked for, with a channel. -/
def withChannel : Callback → Bool
  | .shellRequest channel => channel
  | .userAuth _ _ _ => false

/-- Callbacks leave their entries, and a request for a shell the flag. -/
theorem callbacks_eq (sha256 : List UInt8 → Digest) (s : Server ρ) (made : List Callback) :
    s.callbacks sha256 made = { s.note (made.map (entry sha256 s.auth)) with
      shellRequestAccepted := s.shellRequestAccepted || made.any withChannel } := by
  induction made generalizing s with
  | nil => simp [callbacks, note]
  | cons c made ih =>
    refine (ih (s.callback sha256 c)).trans ?_
    cases c with
    | userAuth hashed authType data => simp [callback, note, entry, withChannel]
    | shellRequest channel => simp [callback, note, entry, withChannel, Bool.or_assoc]

/-- What has happened, the session under way included. -/
def history (s : Server ρ) : List (Event ρ) :=
  match s.task with
  | some (.connected _ _ (.shell session)) => s.log ++ session.events.map .shell
  | _ => s.log

/-- The device as it is now. -/
def current (s : Server ρ) : Device ρ :=
  match s.task with
  | some (.connected _ _ (.shell session)) => session.device
  | _ => s.device

end Server

/-- The credentials that the task has loaded, by one more event. -/
def noteLoaded (auth : Option AuthConfig) : Event ρ → Option AuthConfig
  | .loaded auth => auth
  | .restarted _ => none
  | _ => auth

/-- The credentials that the task has loaded since the last restart. -/
def loadedAuth (log : List (Event ρ)) : Option AuthConfig := log.foldl noteLoaded none

theorem loadedAuth_append (log : List (Event ρ)) {more : List (Event ρ)}
    (h : ∀ e ∈ more, ∀ auth, noteLoaded auth e = auth) : loadedAuth (log ++ more) = loadedAuth log := by
  rw [loadedAuth, List.foldl_append]
  exact List.foldlRecOn more noteLoaded (motive := fun auth => auth = loadedAuth log) rfl
    fun auth hauth e he => (h e he auth).trans hauth

/-- The call of `load_auth_config`. -/
def load (s : Server ρ) : Server ρ :=
  { s with
    device.nvs := (nvsOpen s.device.nvs).2
    auth := loadAuthConfig s.device.nvs }.note [.loaded (loadAuthConfig s.device.nvs)]

/-- `ssh_server_task` up to `wolfSSH_CTX_new`. -/
def begin (s : Server ρ) (initialized : Bool) : Server ρ :=
  if (loadAuthConfig s.device.nvs).isSome ∧ initialized then ((load s).take .library).goTo .context
  else (load s).delete []

/-- The head of the loop of `serve_shell` over `wolfSSH_worker`. -/
def awaitShell (s : Server ρ) (listener client : Nat) : Server ρ :=
  s.goTo (.connected listener client (if s.shellRequestAccepted then .allocating else .worker))

def maxHandshakeAttempts : Nat := 300

/-- A code for which the handshake is tried again. -/
def pending (code : Code) : Bool := code == .wantRead || code == .wantWrite || code == .authPending

/-- A turn of the loop over `wolfSSH_accept`, and what is behind the loop. -/
def handshake (s : Server ρ) (listener client attempts : Nat) (served : Served) : Server ρ :=
  let s := s.note [.handshake served.result]
  let next := fun phase => s.goTo (.connected listener client phase)
  if served.result = .success then awaitShell s listener client
  else if served.result = .sftpComplete then next .defaultPath
  else if (pending served.result ∨ pending served.error) ∧ attempts + 1 < maxHandshakeAttempts then
    next (.handshake (attempts + 1))
  else next .closing

/-- A turn of the loop of `serve_shell`. -/
def worker (s : Server ρ) (listener client : Nat) (served : Served) : Server ρ :=
  if served.result = .success ∨ served.result = .chanRxd ∨ served.result = .wantRead ∨
      served.result = .wantWrite then awaitShell s listener client
  else s.goTo (.connected listener client .closing)

/-- What `serve_sftp` does with the result of a call: it returns, or goes on with it. -/
def sftpNext (served : Served) : Option Code :=
  let ended := fun code => code == Code.eof || code == .channelClosed
  let goes := fun code => code == Code.chanRxd || code == .wantRead || code == .wantWrite
  if ended served.error ∨ ended served.result then none
  else if goes served.result ∨ served.result = .success ∨ goes served.error ∨
      served.error = .windowFull then some served.result
  else none

/-- Where a call leaves `serve_sftp`. -/
def sftpPhase (served : Served) : Phase ρ :=
  match sftpNext served with
  | some result => .sftp result
  | none => .closing

/-- A turn of the loop of `serve_sftp`. -/
def sftp (sha256 : List UInt8 → Digest) (s : Server ρ) (listener client : Nat) (result : Code)
    (turn : SftpTurn) : Server ρ :=
  let next := fun (s : Server ρ) => s.goTo (.connected listener client (sftpPhase turn.served))
  if result = .chanRxd ∨ result = .wantWrite ∨ turn.pendingSend then
    next ({ s.callbacks sha256 turn.served.callbacks with device.fs := turn.files }.note
      [.files turn.files])
  else if turn.selected < 0 then s.goTo (.connected listener client .closing)
  else if turn.selected = 0 then s
  else next (s.callbacks sha256 turn.served.callbacks)

/-- `ShellSession::run` behind its greeting. -/
def allocated (s : Server ρ) (listener client : Nat) (ok : Bool) : Server ρ :=
  if ok then s.goTo (.connected listener client (.shell (Session.opened s.device)))
  else (s.note (Session.greeting.map .shell)).goTo (.connected listener client .closing)

/-- One read of the session. `connected` is true of every session. -/
def shell (services : DeviceServices (Device ρ)) (s : Server ρ) (listener client : Nat)
    (session : Shell.Session.State (Device ρ)) (result : StreamRead) : Server ρ :=
  match Session.stepPoll services session (.connected (read result)) with
  | .ok session => s.goTo (.connected listener client (.shell session))
  | .error finished =>
    ({ s with device := finished.device }.note (finished.events.map .shell)).goTo
      (.connected listener client .closing)

/-- The service of a client, by one answer. -/
def serve (sha256 : List UInt8 → Digest) (services : DeviceServices (Device ρ)) (s : Server ρ)
    (listener client : Nat) : Phase ρ → Answer → Server ρ
  | .handshake attempts, .served served =>
    handshake (s.callbacks sha256 served.callbacks) listener client attempts served
  | .defaultPath, .defaultPath ok =>
    s.goTo (.connected listener client (if ok then .sftp .chanRxd else .closing))
  | .sftp result, .sftp turn => sftp sha256 s listener client result turn
  | .worker, .served served => worker (s.callbacks sha256 served.callbacks) listener client served
  | .allocating, .allocated ok => allocated s listener client ok
  | .shell session, .streamRead made result =>
    shell services (s.callbacks sha256 made) listener client session result
  | .closing, .served served => (s.callbacks sha256 served.callbacks).closeSession listener client
  | _, _ => s

/-- `ssh_server_task`, by one answer. An answer to another call than the one it makes is none. -/
def advance (sha256 : List UInt8 → Digest) (services : DeviceServices (Device ρ)) (s : Server ρ) :
    Stage ρ → Answer → Server ρ
  | .starting, .initialized ok => begin s ok
  | .context, .contextNew ok =>
    if ok then (s.take .context).goTo .privateKey else s.delete [.library]
  | .privateKey, .privateKey ok => if ok then s.goTo .socket else s.delete [.context, .library]
  | .socket, .socket (some listener) => (s.take (.socket listener)).goTo (.binding listener)
  | .socket, .socket none => s.delete [.context, .library]
  | .binding listener, .bound bind listen =>
    if bind ∧ listen then s.loop listener else s.delete [.socket listener, .context, .library]
  | .accepting listener, .accepted (some client) =>
    (s.take (.socket client)).goTo (.creating listener client)
  | .accepting listener, .accepted none => s.loop listener
  | .creating listener client, .sessionNew ok =>
    if ok then
      { s.take .session with shellRequestAccepted := false }.goTo
        (.connected listener client (.handshake 0))
    else (s.note [.moved (.release (.socket client))]).loop listener
  | .connected listener client phase, answer => serve sha256 services s listener client phase answer
  | _, _ => s

/-- `esp32shell_ssh_start_after_wifi`. -/
def startAfterWifi (s : Server ρ) (created : Bool) : Server ρ :=
  if s.startRequested ∨ s.task.isSome then s
  else { s with startRequested := true, task := if created then some .starting else none }

/-- The memory starts anew, the flash is kept. -/
def restart (s : Server ρ) (rest : ρ) : Server ρ where
  device := { s.current with rest := rest }
  startRequested := false
  auth := none
  shellRequestAccepted := false
  task := none
  log := s.history ++ [.restarted rest, .moved .lose]

def step (sha256 : List UInt8 → Digest) (services : DeviceServices (Device ρ)) (s : Server ρ) :
    Input ρ → Server ρ
  | .startAfterWifi created => startAfterWifi s created
  | .answer answer =>
    match s.task with
    | none => s
    | some stage => advance sha256 services s stage answer
  | .restart rest => restart s rest

/-- An answer reaches the task, if there is one. -/
theorem step_answer (sha256 : List UInt8 → Digest) (services : DeviceServices (Device ρ)) (s : Server ρ)
    (answer : Answer) : step sha256 services s (.answer answer) = s ∨ ∃ stage, s.task = some stage ∧
      step sha256 services s (.answer answer) = advance sha256 services s stage answer := by
  cases htask : s.task with
  | none => exact .inl (by simp only [step, htask])
  | some stage => exact .inr ⟨stage, rfl, by simp only [step, htask]⟩

theorem sftpPhase_cases (served : Served) :
    (sftpPhase served : Phase ρ) = .closing ∨ ∃ result, (sftpPhase served : Phase ρ) = .sftp result := by
  unfold sftpPhase
  cases sftpNext served with
  | none => exact .inl rfl
  | some result => exact .inr ⟨result, rfl⟩

/-- A device that has just started. -/
def powered (device : Device ρ) : Server ρ := ⟨device, false, none, false, none, []⟩

abbrev afterInputs (sha256 : List UInt8 → Digest) (services : DeviceServices (Device ρ))
    (device : Device ρ) (inputs : List (Input ρ)) : Server ρ :=
  after (step sha256 services) (powered device) inputs

def admin : UserAuthData := ⟨lit "admin", lit "secret"⟩

def adminDevice : Device Unit := { blank with nvs := ⟨provisioned (sha256 (lit "secret")), []⟩ }

theorem exit_fits : (lit "exit\r").length ≤ 64 := by decide

/-- A client logs in, asks for a shell, and types. -/
def typing (typed : Session.Chunk) : List (Input ρ) :=
  [.startAfterWifi true, .answer (.initialized true), .answer (.contextNew true),
   .answer (.privateKey true), .answer (.socket (some 3)), .answer (.bound true true),
   .answer (.accepted (some 4)), .answer (.sessionNew true),
   .answer (.served ⟨[.userAuth true .password (some admin), .shellRequest true], .success, .success⟩),
   .answer (.allocated true), .answer (.streamRead [] (.received typed))]

/-- A client logs in, asks for a shell, and leaves it. -/
def visit : List (Input Unit) := typing ⟨lit "exit\r", exit_fits⟩

end Esp32Shell.Idf.SshServer
