import Esp32Shell.Idf.SshServer

/-!
# The resources of the SSH server

In every run of the server, through every failure of a call and every end of a
client, what is given back is what was taken last, and what is held is what the
stage of the task needs. A task that waits for a client holds its listener alone.
-/
namespace Esp32Shell.Idf.SshResources

open Esp32Shell.Library.Ledger Esp32Shell.Library.Run Esp32Shell.Library.Sha256
open Shell.CommandCore CommandServices SshAuth SshServer

variable {ρ : Type}

def moves (log : List (Event ρ)) : List (Move Resource) :=
  log.filterMap fun | .moved move => some move | _ => none

/-- What a task that listens holds. -/
def listening (listener : Nat) : List Resource := [.socket listener, .context, .library]

/-- What a task that serves a client holds. -/
def serving (listener client : Nat) : List Resource := .session :: .socket client :: listening listener

/-- What the task holds at a stage. -/
def holds : Option (Stage ρ) → List Resource
  | none | some .starting => []
  | some .context => [.library]
  | some .privateKey | some .socket => [.context, .library]
  | some (.binding listener) | some (.accepting listener) => listening listener
  | some (.creating listener client) => .socket client :: listening listener
  | some (.connected listener client _) => serving listener client

/-- The ledger is nested so far and leaves these held. -/
def Held (s : Server ρ) (held : List Resource) : Prop := holding [] (moves s.log) = some held

def Sound (s : Server ρ) : Prop := Held s (holds s.task)

theorem moves_append (log more : List (Event ρ)) : moves (log ++ more) = moves log ++ moves more :=
  List.filterMap_append

theorem moves_released (held : List Resource) :
    moves (held.map fun r => (.moved (.release r) : Event ρ)) = held.map .release := by
  induction held with
  | nil => rfl
  | cons r held ih => exact congrArg (Move.release r :: ·) ih

theorem moves_shell (events : List Shell.Session.Event) :
    moves (events.map (.shell : _ → Event ρ)) = [] :=
  List.filterMap_eq_nil_iff.mpr fun e he => by
    obtain ⟨event, -, rfl⟩ := List.mem_map.mp he
    rfl

theorem moves_history (s : Server ρ) : moves s.history = moves s.log := by
  unfold Server.history
  split
  · rw [moves_append, moves_shell, List.append_nil]
  · rfl

/-! ### The operations -/

section
variable {s : Server ρ} {held : List Resource}

theorem Held.note (h : Held s held) (events : List (Event ρ)) :
    Held (s.note events) = fun held' => holding held (moves events) = some held' := by
  funext held'
  rw [Held, Server.note, moves_append, holding_append_of h]

theorem Held.quiet (h : Held s held) {events : List (Event ρ)} (hquiet : moves events = []) :
    Held (s.note events) held := by
  rw [h.note, hquiet, holding_nil]

theorem Held.take (h : Held s held) (r : Resource) : Held (s.take r) (r :: held) := by
  rw [Server.take, h.note]
  exact holding_take held r

/-- Everything held is given back, and no task is left. -/
theorem Held.delete (h : Held s held) : Sound (s.delete held) := by
  show Held (s.note _) []
  rw [h.note, moves_released]
  simpa using holding_releases held []

theorem moves_entries (sha256 : List UInt8 → Digest) (auth : Option AuthConfig) (made : List Callback) :
    moves (made.map (Server.entry sha256 auth) : List (Event ρ)) = [] :=
  List.filterMap_eq_nil_iff.mpr fun e he => by
    obtain ⟨c, -, rfl⟩ := List.mem_map.mp he
    cases c <;> rfl

theorem Held.callbacks (h : Held s held) (sha256 : List UInt8 → Digest) (made : List Callback) :
    Held (s.callbacks sha256 made) held := by
  rw [Server.callbacks_eq]
  exact h.quiet (moves_entries sha256 s.auth made)

theorem Held.loop {listener : Nat} (h : Held s (listening listener)) : Sound (s.loop listener) := by
  rw [Server.loop]
  split
  · exact h
  · exact h.delete

theorem Held.closeSession {listener client : Nat} (h : Held s (serving listener client)) :
    Sound (s.closeSession listener client) := by
  apply Held.loop
  rw [h.note]
  exact holding_releases [.session, .socket client] (listening listener)

end

/-! ### The stages -/

section
variable {sha256 : List UInt8 → Digest} {services : DeviceServices (Device ρ)}

theorem sound_begin {s : Server ρ} (h : Held s []) (initialized : Bool) : Sound (begin s initialized) := by
  have hload : Held (load s) [] := Held.quiet (s := { s with device.nvs := _, auth := _ }) h rfl
  unfold begin
  split_ifs
  · exact hload.take .library
  · exact hload.delete

/-- A step within the service of a client. -/
theorem sound_serve {s : Server ρ} {listener client : Nat} {phase : Phase ρ}
    (htask : s.task = some (.connected listener client phase)) (h : Held s (serving listener client))
    (answer : Answer) : Sound (serve sha256 services s listener client phase answer) := by
  have hstay : Sound s := by
    rw [Sound, htask]
    exact h
  have hgo : ∀ {s : Server ρ} (phase : Phase ρ), Held s (serving listener client) →
      Sound (s.goTo (.connected listener client phase)) := fun _ h => h
  unfold serve
  split
  case h_1 attempts served =>
    have hnoted : Held ((s.callbacks sha256 served.callbacks).note [.handshake served.result])
        (serving listener client) := (h.callbacks sha256 served.callbacks).quiet rfl
    unfold handshake awaitShell
    split_ifs <;> exact hgo _ hnoted
  case h_2 ok => exact hgo _ h
  case h_3 result turn =>
    unfold sftp
    have hcalls := h.callbacks sha256 turn.served.callbacks
    split_ifs
    · exact hgo _ (Held.quiet (s := { s.callbacks sha256 _ with device.fs := _ }) hcalls rfl)
    · exact hgo _ h
    · exact hstay
    · exact hgo _ hcalls
  case h_4 served =>
    have hcalls := h.callbacks sha256 served.callbacks
    unfold worker awaitShell
    split_ifs <;> exact hgo _ hcalls
  case h_5 ok =>
    unfold allocated
    split_ifs
    · exact hgo _ h
    · exact hgo _ (h.quiet (moves_shell _))
  case h_6 session made result =>
    have hcalls := h.callbacks sha256 made
    unfold shell
    split
    · exact hgo _ hcalls
    next finished _ =>
      exact hgo _ (Held.quiet (s := { s.callbacks sha256 made with device := finished.device }) hcalls
        (moves_shell _))
  case h_7 served => exact (h.callbacks sha256 served.callbacks).closeSession
  case h_8 => exact hstay

theorem sound_advance {s : Server ρ} {stage : Stage ρ} (htask : s.task = some stage) (h : Sound s)
    (answer : Answer) : Sound (advance sha256 services s stage answer) := by
  have hheld : Held s (holds (some stage)) := htask ▸ h
  unfold advance
  split
  case h_1 ok => exact sound_begin hheld ok
  case h_2 ok =>
    split_ifs
    · exact hheld.take .context
    · exact hheld.delete
  case h_3 ok =>
    split_ifs
    · exact hheld
    · exact hheld.delete
  case h_4 listener => exact hheld.take (.socket listener)
  case h_5 => exact hheld.delete
  case h_6 listener bind listen =>
    split_ifs
    · exact hheld.loop
    · exact hheld.delete
  case h_7 listener client => exact hheld.take (.socket client)
  case h_8 listener => exact hheld.loop
  case h_9 listener client ok =>
    split_ifs
    · exact hheld.take .session
    · apply Held.loop
      rw [hheld.note]
      exact holding_releases [.socket client] (listening listener)
  case h_10 listener client phase => exact sound_serve htask hheld answer
  case h_11 => exact h

theorem sound_step {s : Server ρ} (h : Sound s) (input : Input ρ) :
    Sound (step sha256 services s input) := by
  cases input with
  | startAfterWifi created =>
    show Sound (startAfterWifi s created)
    unfold startAfterWifi
    split
    · exact h
    next hrunning =>
      have htask : s.task = none := by simpa using (not_or.mp hrunning).2
      have hheld : Held s [] := by simpa [Sound, htask, holds] using h
      cases created <;> exact hheld
  | answer a =>
    rcases step_answer sha256 services s a with hsame | ⟨stage, htask, hstep⟩
    · rwa [hsame]
    · rw [hstep]
      exact sound_advance htask h a
  | restart rest =>
    show holding [] (moves (s.history ++ [.restarted rest, .moved .lose])) = some []
    rw [moves_append, moves_history, holding_append_of h]
    rfl

end

/-- In every run of the server each socket, context and session is given back at most once, in the
opposite order of their taking, and what is held at any moment is what the stage of the task says. -/
theorem server_resources (sha256 : List UInt8 → Digest) (services : DeviceServices (Device ρ))
    (device : Device ρ) (inputs : List (Input ρ)) :
    let s := afterInputs sha256 services device inputs
    holding [] (moves s.history) = some (holds s.task) := by
  intro s
  have hstart : Sound (powered device) := rfl
  have hsound : Sound s := after_invariant (P := Sound) hstart (fun _ input h => sound_step h input) inputs
  rw [moves_history]
  exact hsound

/-! ### The flag -/

section
variable {sha256 : List UInt8 → Digest} {services : DeviceServices (Device ρ)}

/-- A task runs only behind a request for it. -/
def Requested (s : Server ρ) : Prop := s.task ≠ none → s.startRequested = true

theorem requested_callbacks (s : Server ρ) (made : List Callback) :
    (s.callbacks sha256 made).startRequested = s.startRequested := by
  rw [Server.callbacks_eq]
  rfl

theorem requested_loop (s : Server ρ) (listener : Nat) :
    (s.loop listener).startRequested = s.startRequested := by
  unfold Server.loop
  split <;> rfl

/-- The task does not change the flag that it asks for. -/
theorem requested_serve (s : Server ρ) (listener client : Nat) (phase : Phase ρ) (answer : Answer) :
    (serve sha256 services s listener client phase answer).startRequested = s.startRequested := by
  have hcalls : ∀ made, (s.callbacks sha256 made).startRequested = s.startRequested :=
    requested_callbacks s
  unfold serve
  split
  case h_1 attempts served =>
    unfold handshake awaitShell
    split_ifs <;> exact hcalls _
  case h_2 ok => rfl
  case h_3 result turn =>
    unfold sftp
    split_ifs
    · exact hcalls _
    · rfl
    · rfl
    · exact hcalls _
  case h_4 served =>
    unfold worker awaitShell
    split_ifs <;> exact hcalls _
  case h_5 ok =>
    unfold allocated
    split_ifs <;> rfl
  case h_6 session made result =>
    unfold shell
    split <;> exact hcalls _
  case h_7 served => exact (requested_loop _ listener).trans (hcalls _)
  case h_8 => rfl

theorem requested_advance (s : Server ρ) (stage : Stage ρ) (answer : Answer) :
    (advance sha256 services s stage answer).startRequested = s.startRequested := by
  unfold advance
  split
  case h_1 ok =>
    unfold begin
    split <;> rfl
  case h_6 listener bind listen =>
    split
    · exact requested_loop s listener
    · rfl
  case h_8 listener => exact requested_loop s listener
  case h_9 listener client ok =>
    split
    · rfl
    · exact requested_loop _ listener
  case h_10 listener client phase => exact requested_serve s listener client phase answer
  all_goals first | rfl | (split <;> rfl)

theorem requested_step {s : Server ρ} (h : Requested s) (input : Input ρ) :
    Requested (step sha256 services s input) := by
  cases input with
  | startAfterWifi created =>
    show Requested (startAfterWifi s created)
    unfold startAfterWifi
    split
    · exact h
    · exact fun _ => rfl
  | answer a =>
    rcases step_answer sha256 services s a with hsame | ⟨stage, htask, hstep⟩
    · rwa [hsame]
    · intro _
      rw [hstep, requested_advance]
      exact h (by simp [htask])
  | restart rest => exact fun htask => absurd rfl htask

/-! ### The listener -/

/-- The listener of a task that waits for a client or serves one. -/
def listenerOf : Stage ρ → Option Nat
  | .accepting listener | .creating listener _ | .connected listener _ _ => some listener
  | _ => none

/-- The task listens, and its loop goes on. -/
def Listening (listener : Nat) (s : Server ρ) : Prop :=
  s.startRequested = true ∧ ∃ stage, s.task = some stage ∧ listenerOf stage = some listener

variable {s : Server ρ} {listener : Nat}

theorem listening_goTo (hrequested : s.startRequested = true) {stage : Stage ρ}
    (hstage : listenerOf stage = some listener) : Listening listener (s.goTo stage) :=
  ⟨hrequested, stage, rfl, hstage⟩

theorem listening_loop (hrequested : s.startRequested = true) : Listening listener (s.loop listener) := by
  rw [Server.loop, if_pos hrequested]
  exact listening_goTo hrequested rfl

theorem listening_serve (h : Listening listener s) {client : Nat} {phase : Phase ρ}
    (htask : s.task = some (.connected listener client phase)) (answer : Answer) :
    Listening listener (serve sha256 services s listener client phase answer) := by
  have hcalls : ∀ made, (s.callbacks sha256 made).startRequested = true := fun made =>
    (requested_callbacks s made).trans h.1
  have hgo : ∀ {s : Server ρ} (phase : Phase ρ), s.startRequested = true →
      Listening listener (s.goTo (.connected listener client phase)) := fun _ h => listening_goTo h rfl
  unfold serve
  split
  case h_1 attempts served =>
    have hnoted : ((s.callbacks sha256 served.callbacks).note
        [.handshake served.result]).startRequested = true := hcalls _
    unfold handshake awaitShell
    split_ifs <;> exact hgo _ hnoted
  case h_2 ok => exact hgo _ h.1
  case h_3 result turn =>
    unfold sftp
    split_ifs
    · exact hgo (s := { s.callbacks sha256 turn.served.callbacks with
        device.fs := turn.files }.note [.files turn.files]) _ (hcalls _)
    · exact hgo _ h.1
    · exact h
    · exact hgo _ (hcalls _)
  case h_4 served =>
    unfold worker awaitShell
    split_ifs <;> exact hgo _ (hcalls _)
  case h_5 ok =>
    unfold allocated
    split_ifs
    · exact hgo _ h.1
    · exact hgo (s := s.note _) _ h.1
  case h_6 session made result =>
    unfold shell
    split
    · exact hgo _ (hcalls _)
    next finished _ =>
      exact hgo (s := { s.callbacks sha256 made with
        device := finished.device }.note (finished.events.map .shell)) _ (hcalls _)
  case h_7 served =>
    exact listening_loop (s := (s.callbacks sha256 served.callbacks).note _) (hcalls _)
  case h_8 => exact h

/-- Nothing but a restart takes the listener down. -/
theorem listening_step (h : Listening listener s) {input : Input ρ}
    (hinput : ∀ rest, input ≠ .restart rest) : Listening listener (step sha256 services s input) := by
  obtain ⟨hrequested, stage, htask, hstage⟩ := h
  cases input with
  | startAfterWifi created =>
    show Listening listener (startAfterWifi s created)
    rw [startAfterWifi, if_pos (.inl hrequested)]
    exact ⟨hrequested, stage, htask, hstage⟩
  | answer a =>
    have hstep : step sha256 services s (.answer a) = advance sha256 services s stage a := by
      simp only [step, htask]
    rw [hstep]
    unfold advance
    split
    case h_7 listener' client =>
      exact listening_goTo (s := s.take _) hrequested hstage
    case h_8 listener' =>
      obtain rfl : listener' = listener := Option.some_inj.mp hstage
      exact listening_loop hrequested
    case h_9 listener' client ok =>
      obtain rfl : listener' = listener := Option.some_inj.mp hstage
      split
      · exact listening_goTo (s := { s.take .session with shellRequestAccepted := false }) hrequested rfl
      · exact listening_loop (s := s.note _) hrequested
    case h_10 listener' client phase =>
      obtain rfl : listener' = listener := Option.some_inj.mp hstage
      exact listening_serve ⟨hrequested, _, htask, rfl⟩ htask a
    case h_11 => exact ⟨hrequested, _, htask, hstage⟩
    all_goals cases hstage
  | restart rest => exact absurd rfl (hinput rest)

end

/-- A server that waits for a client has a listener that no client, no failure of a call and no new
address of the station takes down before the chip restarts: it is serving a client of that listener,
or waiting for the next. -/
theorem listener_stays (sha256 : List UInt8 → Digest) (services : DeviceServices (Device ρ))
    (device : Device ρ) (past more : List (Input ρ)) {listener : Nat}
    (hlistens : (afterInputs sha256 services device past).task = some (.accepting listener))
    (hmore : ∀ input ∈ more, ∀ rest, input ≠ .restart rest) :
    ∃ stage, (afterInputs sha256 services device (past ++ more)).task = some stage ∧
      listenerOf stage = some listener := by
  have hstart : Requested (powered device) := fun htask => absurd rfl htask
  have hrequested : (afterInputs sha256 services device past).startRequested = true :=
    after_invariant (P := Requested) hstart (fun _ input h => requested_step h input) past
      (by simp [hlistens])
  have hlistening : Listening listener (afterInputs sha256 services device (past ++ more)) := by
    rw [afterInputs, after_append]
    refine after_induction (P := fun _ s => Listening listener s)
      (C := fun _ input => ∀ rest, input ≠ .restart rest) ⟨hrequested, _, hlistens, rfl⟩
      (fun _ input h hinput => listening_step h hinput) fun before input htaken => ?_
    exact hmore input htaken.mem.1
  exact hlistening.2

theorem listener_stays_visit : ∃ stage,
    (afterInputs sha256 silentServices adminDevice (visit.take 6 ++ visit.drop 6)).task = some stage ∧
      listenerOf stage = some 3 :=
  listener_stays sha256 silentServices adminDevice (visit.take 6) (visit.drop 6) rfl (by simp [visit, typing])

end Esp32Shell.Idf.SshResources
