import Esp32Shell.Idf.SshServer
import Esp32Shell.Library.Precedence
import Esp32Shell.Shell.LineReading
import Esp32Shell.Shell.CommandLines

/-!
# The sessions of the SSH server

What is on the device is what the dispatched lines, the files of SFTP and the
restarts have made of it, in their order, and every answer of `user_auth` is
about the credentials that were stored when the task began. The terminal of
every connection is that of one run of the shell, which starts with an empty line.
-/
namespace Esp32Shell.Idf.SshSessions

open Esp32Shell.Library.CText Esp32Shell.Library.Feed Esp32Shell.Library.Ledger
open Esp32Shell.Library.Precedence Esp32Shell.Library.Run Esp32Shell.Library.Sha256
open Shell.CommandCore Shell.CommandLines Shell.LineReading
open Shell.Session (Poll Finished opened greeting eventsOf stepByte stepPoll)
open CommandServices SshAuth SshServer

variable {ρ : Type}

/-- What an event does to the device. -/
def replayEvent (services : DeviceServices (Device ρ)) (d : Device ρ) : Event ρ → Device ρ
  | .shell (.dispatched command) => (dispatch services d (some command)).device
  | .files fs => { d with fs := fs }
  | .loaded _ => { d with nvs := (Storage.Nvs.nvsOpen d.nvs).2 }
  | .restarted rest => { d with rest := rest }
  | _ => d

def replay (services : DeviceServices (Device ρ)) (d : Device ρ) (log : List (Event ρ)) : Device ρ :=
  log.foldl (replayEvent services) d

/-- An answer of `user_auth`, or of `load_auth_config`, follows from what has happened before. -/
def Accounted (sha256 : List UInt8 → Digest) (services : DeviceServices (Device ρ)) (device : Device ρ)
    (before : List (Event ρ)) : Event ρ → Prop
  | .userAuth data result => ∃ hashed authType,
      result = userAuth sha256 hashed authType data (loadedAuth before)
  | .loaded auth => auth = loadAuthConfig (replay services device before).nvs
  | _ => True

/-- The terminals of the connections so far, the last first. -/
def noteTerminal : List (List Shell.Session.Event) → Event ρ → List (List Shell.Session.Event)
  | terminals, .moved (.take .session) => [] :: terminals
  | terminal :: terminals, .shell e => (terminal ++ [e]) :: terminals
  | terminals, _ => terminals

def terminals (log : List (Event ρ)) : List (List Shell.Session.Event) := log.foldl noteTerminal []

/-- Nothing, or the terminal of one run of the shell. -/
def IsSession (services : DeviceServices (Device ρ)) (terminal : List Shell.Session.Event) : Prop :=
  terminal = [] ∨ ∃ allocated device polls,
    terminal = eventsOf (Shell.Session.run services allocated device polls)

section
variable {sha256 : List UInt8 → Digest} {services : DeviceServices (Device ρ)} {device : Device ρ}

theorem replay_append (log more : List (Event ρ)) :
    replay services device (log ++ more) = replay services (replay services device log) more :=
  List.foldl_append

/-- A shell changes the device by its dispatches alone. -/
theorem replay_shell (events : List Shell.Session.Event) (d : Device ρ) :
    replay services d (events.map .shell) = afterLines services d (dispatchedTexts events) := by
  induction events generalizing d with
  | nil => rfl
  | cons e events ih =>
    cases e with
    | dispatched command => exact ih _
    | _ => exact ih d

/-! ### The device of a session -/

/-- The device is what the dispatched lines have made of the one the session began on. -/
def Replayed (services : DeviceServices (Device ρ)) (d now : Device ρ)
    (events : List Shell.Session.Event) : Prop := now = afterLines services d (dispatchedTexts events)

theorem afterLines_snoc (d : Device ρ) (lines : List (List UInt8)) (input : List UInt8) :
    afterLines services d (lines ++ [input]) =
      (dispatch services (afterLines services d lines) (some input)).device := by
  simp [afterLines]

theorem replayed_byte {d : Device ρ} (s : Shell.Session.State (Device ρ)) (b : UInt8)
    (h : Replayed services d s.device s.events) :
    Holds (fun s' => Replayed services d s'.device s'.events)
      (fun f => Replayed services d f.device f.events) (stepByte services s b) := by
  have hended : Replayed services d (dispatch services s.device (some s.buffer.text)).device
      (endingEvents services s b) := by
    have htext : dispatch services s.device (some (cString s.buffer.text)) =
        dispatch services s.device (some s.buffer.text) := by
      apply dispatch_congr
      exact (cString_eq_self_iff _).mpr (zero_notMem_cString _)
    rw [Replayed, dispatchedTexts_endingEvents, afterLines_snoc, ← h, htext]
  have hcases := stepByte_cases services s b
  generalize stepByte services s b = next at hcases
  cases hcases with
  | edit s' hb hedits =>
    obtain ⟨output, hevents, hquiet⟩ := hedits.events_eq
    show Replayed services d s'.device s'.events
    have hreceived : dispatchedTexts (.received b :: output) = [] := hquiet.dispatchedTexts_eq
    rw [Replayed, hevents, dispatchedTexts_append, hreceived, List.append_nil, hedits.device_eq]
    exact h
  | swallow hb hf =>
    show Replayed services d s.device (s.events ++ [.received Shell.Session.lineFeed])
    have hreceived : dispatchedTexts [.received Shell.Session.lineFeed] = [] := rfl
    rw [Replayed, dispatchedTexts_append, hreceived, List.append_nil]
    exact h
  | ending hb hc =>
    show Replayed services d _ (endingEvents services s b ++ Shell.Session.prompt)
    rw [Replayed, dispatchedTexts_append, quiet_prompt.dispatchedTexts_eq, List.append_nil]
    exact hended
  | closing hb hc => exact hended

theorem replayed_poll (services : DeviceServices (Device ρ)) {d : Device ρ}
    (s : Shell.Session.State (Device ρ)) (poll : Poll) (h : Replayed services d s.device s.events) :
    Holds (fun s' => Replayed services d s'.device s'.events)
      (fun f => Replayed services d f.device f.events) (stepPoll services s poll) := by
  rcases poll with _ | chunk | _ | _ | _
  · exact h
  · exact feed_holds (fun s b hs => replayed_byte s b hs) h chunk.val
  · exact h
  · exact h
  · exact h

theorem replayed_opened (services : DeviceServices (Device ρ)) (d : Device ρ) :
    Replayed services d (opened d).device (opened d).events := rfl

/-! ### The terminals -/

/-- An event that neither a terminal shows nor the device, where these credentials are loaded. -/
def Silent (sha256 : List UInt8 → Digest) (auth : Option AuthConfig) : Event ρ → Prop
  | .moved (.take .session) | .shell _ | .files _ | .loaded _ | .restarted _ => False
  | .userAuth data result => ∃ hashed authType, result = userAuth sha256 hashed authType data auth
  | _ => True

theorem replayEvent_silent {auth : Option AuthConfig} {e : Event ρ} (h : Silent sha256 auth e)
    (d : Device ρ) : replayEvent services d e = d := by
  cases e with
  | shell event => exact h.elim
  | files fs => exact h.elim
  | loaded auth => exact h.elim
  | restarted rest => exact h.elim
  | _ => rfl

theorem noteLoaded_silent {auth : Option AuthConfig} {e : Event ρ} (h : Silent sha256 auth e)
    (before : Option AuthConfig) : noteLoaded before e = before := by
  cases e with
  | loaded auth => exact h.elim
  | restarted rest => exact h.elim
  | _ => rfl

theorem terminals_append (log more : List (Event ρ)) :
    terminals (log ++ more) = more.foldl noteTerminal (terminals log) := List.foldl_append

theorem noteTerminal_eq {e : Event ρ} (hshell : ∀ event, e ≠ .shell event)
    (htake : e ≠ .moved (.take .session)) (ts : List (List Shell.Session.Event)) :
    noteTerminal ts e = ts := by
  cases ts <;> cases e <;> simp_all [noteTerminal]

theorem terminals_other (log : List (Event ρ)) {e : Event ρ} (hshell : ∀ event, e ≠ .shell event)
    (htake : e ≠ .moved (.take .session)) : terminals (log ++ [e]) = terminals log := by
  rw [terminals_append]
  exact noteTerminal_eq hshell htake (terminals log)

theorem terminals_shell {log : List (Event ρ)} {terminal : List Shell.Session.Event}
    {others : List (List Shell.Session.Event)} (h : terminals log = terminal :: others)
    (events : List Shell.Session.Event) :
    terminals (log ++ events.map .shell) = (terminal ++ events) :: others := by
  induction events generalizing log terminal with
  | nil => rw [List.map_nil, List.append_nil, List.append_nil, h]
  | cons e events ih =>
    have he : terminals (log ++ [.shell e]) = (terminal ++ [e]) :: others := by
      rw [terminals_append, h]
      rfl
    have hrest := ih he
    rwa [List.append_assoc, List.append_assoc] at hrest

/-! ### The server -/

/-- What the log says of the device, of the credentials and of the terminals. -/
structure Account (sha256 : List UInt8 → Digest) (services : DeviceServices (Device ρ))
    (device : Device ρ) (log : List (Event ρ)) (now : Device ρ) (auth : Option AuthConfig) : Prop where
  device_eq : now = replay services device log
  auth_eq : auth = loadedAuth log
  accounted : Guarded (Accounted sha256 services device) log
  sessions : ∀ terminal ∈ terminals log, IsSession services terminal

abbrev Quiet (sha256 : List UInt8 → Digest) (services : DeviceServices (Device ρ)) (device : Device ρ)
    (s : Server ρ) : Prop := Account sha256 services device s.log s.device s.auth

/-- The same, and what is known of the session under way. -/
structure Sound (sha256 : List UInt8 → Digest) (services : DeviceServices (Device ρ)) (device : Device ρ)
    (s : Server ρ) : Prop where
  quiet : Quiet sha256 services device s
  /-- The terminal of a connection is empty until its session ends. -/
  fresh : ∀ listener client phase, s.task = some (.connected listener client phase) →
    phase = .closing ∨ ∃ others, terminals s.log = [] :: others
  session : ∀ listener client session, s.task = some (.connected listener client (.shell session)) →
    ∃ polls, feed (stepPoll services) (opened s.device) polls = .ok session

variable {s : Server ρ}

/-- One more entry, which follows from those before it. -/
theorem Account.snoc {log : List (Event ρ)} {now : Device ρ} {auth : Option AuthConfig}
    (h : Account sha256 services device log now auth) {e : Event ρ}
    (hok : Accounted sha256 services device log e)
    (hsessions : ∀ terminal ∈ terminals (log ++ [e]), IsSession services terminal) :
    Account sha256 services device (log ++ [e]) (replayEvent services now e) (noteLoaded auth e) := by
  refine ⟨?_, ?_, ?_, hsessions⟩
  · rw [replay_append, ← h.device_eq]
    rfl
  · rw [loadedAuth, List.foldl_append, ← loadedAuth.eq_1, ← h.auth_eq]
    rfl
  · exact h.accounted.snoc hok

/-- An entry that no terminal shows. -/
theorem Account.snoc_other {log : List (Event ρ)} {now : Device ρ} {auth : Option AuthConfig}
    (h : Account sha256 services device log now auth) {e : Event ρ} (hshell : ∀ event, e ≠ .shell event)
    (htake : e ≠ .moved (.take .session)) (hok : Accounted sha256 services device log e) :
    Account sha256 services device (log ++ [e]) (replayEvent services now e) (noteLoaded auth e) := by
  refine h.snoc hok ?_
  rw [terminals_other log hshell htake]
  exact h.sessions

/-- Entries that say nothing of the device or the credentials. -/
theorem Account.silent {log : List (Event ρ)} {now : Device ρ} {auth : Option AuthConfig}
    (h : Account sha256 services device log now auth) {events : List (Event ρ)}
    (hsilent : ∀ e ∈ events, Silent sha256 auth e) :
    Account sha256 services device (log ++ events) now auth ∧
      terminals (log ++ events) = terminals log := by
  induction events generalizing log with
  | nil =>
    rw [List.append_nil]
    exact ⟨h, rfl⟩
  | cons e events ih =>
    have he := hsilent e List.mem_cons_self
    have hshell : ∀ event, e ≠ .shell event := by
      rintro event rfl
      exact he
    have htake : e ≠ .moved (.take .session) := by
      rintro rfl
      exact he
    have hok : Accounted sha256 services device log e := by
      cases e with
      | userAuth data result =>
        obtain ⟨hashed, authType, hresult⟩ := he
        exact ⟨hashed, authType, by rw [hresult, ← h.auth_eq]⟩
      | loaded auth => exact he.elim
      | _ => trivial
    have hnext := h.snoc_other hshell htake hok
    rw [replayEvent_silent he, noteLoaded_silent he] at hnext
    obtain ⟨hall, hterminals⟩ := ih hnext fun e' he' => hsilent e' (List.mem_cons_of_mem e he')
    rw [List.append_cons]
    exact ⟨hall, hterminals.trans (terminals_other log hshell htake)⟩

theorem Quiet.note (h : Quiet sha256 services device s) {events : List (Event ρ)}
    (hsilent : ∀ e ∈ events, Silent sha256 s.auth e) : Quiet sha256 services device (s.note events) ∧
      terminals (s.note events).log = terminals s.log := Account.silent h hsilent

theorem Quiet.callbacks (h : Quiet sha256 services device s) (made : List Callback) :
    Quiet sha256 services device (s.callbacks sha256 made) ∧
      terminals (s.callbacks sha256 made).log = terminals s.log ∧
      (s.callbacks sha256 made).device = s.device := by
  have hsilent : ∀ e ∈ made.map (Server.entry sha256 s.auth), Silent sha256 s.auth (e : Event ρ) := by
    intro e he
    obtain ⟨c, -, rfl⟩ := List.mem_map.mp he
    cases c with
    | userAuth hashed authType data => exact ⟨hashed, authType, rfl⟩
    | shellRequest channel => trivial
  obtain ⟨hquiet, hterminals⟩ := h.note hsilent
  rw [Server.callbacks_eq]
  exact ⟨hquiet, hterminals, rfl⟩

theorem sound_unconnected (h : Quiet sha256 services device s) {stage : Stage ρ}
    (hstage : ∀ listener client phase, stage ≠ .connected listener client phase) :
    Sound sha256 services device (s.goTo stage) := by
  have hnot : ∀ listener client phase, (s.goTo stage).task ≠ some (.connected listener client phase) :=
    fun listener client phase htask => hstage listener client phase (Option.some_inj.mp htask)
  exact ⟨h, fun l c phase htask => absurd htask (hnot l c phase),
    fun l c session htask => absurd htask (hnot l c _)⟩

/-- A phase whose terminal is not a running session's. -/
theorem sound_phase (h : Quiet sha256 services device s) (listener client : Nat) {phase : Phase ρ}
    (hfresh : phase = .closing ∨ ∃ others, terminals s.log = [] :: others)
    (hphase : ∀ session, phase ≠ .shell session) :
    Sound sha256 services device (s.goTo (.connected listener client phase)) := by
  refine ⟨h, fun l c phase' htask => ?_, fun l c session htask => ?_⟩
  · cases htask
    exact hfresh
  · cases htask
    exact absurd rfl (hphase session)

theorem sound_awaitShell (h : Quiet sha256 services device s)
    (hfresh : ∃ others, terminals s.log = [] :: others) (listener client : Nat) :
    Sound sha256 services device (awaitShell s listener client) := by
  refine sound_phase h listener client (.inr hfresh) fun session => ?_
  split <;> simp

theorem sound_delete (h : Quiet sha256 services device s) (held : List Resource) :
    Sound sha256 services device (s.delete held) := by
  have hsilent : ∀ e ∈ held.map fun r => (.moved (.release r) : Event ρ), Silent sha256 s.auth e := by
    intro e he
    obtain ⟨r, -, rfl⟩ := List.mem_map.mp he
    trivial
  obtain ⟨hquiet, -⟩ := h.note hsilent
  exact ⟨hquiet, fun l c phase htask => (by cases htask),
    fun l c session htask => (by cases htask)⟩

theorem sound_loop (h : Quiet sha256 services device s) (listener : Nat) :
    Sound sha256 services device (s.loop listener) := by
  unfold Server.loop
  split
  · exact sound_unconnected h (by simp)
  · exact sound_delete h _

/-- A session that ends leaves its device and its terminal. -/
theorem Account.ended {log : List (Event ρ)} {before : Device ρ} {auth : Option AuthConfig}
    (h : Account sha256 services device log before auth) (hfresh : ∃ others, terminals log = [] :: others)
    {now : Device ρ} {events : List Shell.Session.Event} (hnow : Replayed services before now events)
    (hsession : IsSession services events) :
    Account sha256 services device (log ++ events.map .shell) now auth := by
  obtain ⟨others, hothers⟩ := hfresh
  refine ⟨?_, ?_, ?_, ?_⟩
  · rw [replay_append, ← h.device_eq, replay_shell]
    exact hnow
  · refine h.auth_eq.trans (loadedAuth_append log fun e he a => ?_).symm
    obtain ⟨event, -, rfl⟩ := List.mem_map.mp he
    rfl
  · refine h.accounted.free fun e he before => ?_
    obtain ⟨event, -, rfl⟩ := List.mem_map.mp he
    trivial
  · rw [terminals_shell hothers, List.nil_append]
    intro terminal hmem
    rcases List.mem_cons.mp hmem with rfl | hmem
    · exact hsession
    · exact h.sessions terminal (by rw [hothers]; exact List.mem_cons_of_mem _ hmem)

/-- A read of the session takes it one poll further. -/
theorem sound_shell (h : Quiet sha256 services device s) (hfresh : ∃ others, terminals s.log = [] :: others)
    (listener client : Nat) {session : Shell.Session.State (Device ρ)}
    (hsession : ∃ polls, feed (stepPoll services) (opened s.device) polls = .ok session)
    (result : StreamRead) :
    Sound sha256 services device (shell services s listener client session result) := by
  obtain ⟨polls, hpolls⟩ := hsession
  have hrun : feed (stepPoll services) (opened s.device) (polls ++ [.connected (read result)]) =
      stepPoll services session (.connected (read result)) := by
    rw [feed_append_ok _ hpolls, feed_singleton]
  have hreplayed := feed_holds (replayed_poll services (d := s.device))
    (replayed_opened services s.device) (polls ++ [.connected (read result)])
  rw [hrun] at hreplayed
  unfold shell
  split
  next session' hnext =>
    rw [hnext] at hrun
    refine ⟨h, fun l c phase htask => ?_, fun l c s' htask => ?_⟩
    · exact .inr hfresh
    · cases htask
      exact ⟨_, hrun⟩
  next finished hnext =>
    rw [hnext] at hrun hreplayed
    have heq : finished.events = eventsOf (Shell.Session.run services true s.device
        (polls ++ [.connected (read result)])) := by
      rw [Shell.Session.run, if_pos rfl, hrun]
      rfl
    exact sound_phase (s := { s with device := finished.device }.note _)
      (Account.ended h hfresh hreplayed (.inr ⟨true, s.device, _, heq⟩)) listener client (.inl rfl) (by simp)

theorem sound_serve (h : Sound sha256 services device s) {listener client : Nat} {phase : Phase ρ}
    (htask : s.task = some (.connected listener client phase)) (answer : Answer) :
    Sound sha256 services device (serve sha256 services s listener client phase answer) := by
  have hfresh := h.fresh listener client phase htask
  have hcalls := Quiet.callbacks h.quiet
  unfold serve
  split
  case h_1 attempts served =>
    obtain ⟨hquiet, hterminals, -⟩ := hcalls served.callbacks
    have hresult : ∀ e ∈ [(.handshake served.result : Event ρ)],
        Silent sha256 (s.callbacks sha256 served.callbacks).auth e := by simp [Silent]
    obtain ⟨hnoted, hsame⟩ := Quiet.note hquiet hresult
    have hfresh' : ∃ others, terminals ((s.callbacks sha256 served.callbacks).note
        [.handshake served.result]).log = [] :: others := by
      rw [hsame, hterminals]
      exact hfresh.resolve_left (by simp)
    unfold handshake
    split_ifs
    · exact sound_awaitShell hnoted hfresh' listener client
    all_goals exact sound_phase hnoted listener client (.inr hfresh') (by simp)
  case h_2 ok =>
    refine sound_phase h.quiet listener client (.inr (hfresh.resolve_left (by simp))) ?_
    cases ok <;> simp
  case h_3 result turn =>
    obtain ⟨hquiet, hterminals, -⟩ := hcalls turn.served.callbacks
    have hfresh' : ∃ others, terminals (s.callbacks sha256 turn.served.callbacks).log =
        [] :: others := hterminals ▸ hfresh.resolve_left (by simp)
    have hnext : ∀ session, (sftpPhase turn.served : Phase ρ) ≠ .shell session := by
      intro session
      rcases sftpPhase_cases (ρ := ρ) turn.served with hphase | ⟨result, hphase⟩ <;> simp [hphase]
    unfold sftp
    split_ifs
    · refine sound_phase (s := { s.callbacks sha256 _ with device.fs := turn.files }.note _)
        (Account.snoc_other hquiet (e := .files turn.files) (by simp) (by simp) trivial) listener client
        (.inr ?_) hnext
      show ∃ others, terminals ((s.callbacks sha256 turn.served.callbacks).log ++ _) = _
      rw [terminals_other _ (by simp) (by simp)]
      exact hfresh'
    · exact sound_phase h.quiet listener client (.inl rfl) (by simp)
    · exact h
    · exact sound_phase hquiet listener client (.inr hfresh') hnext
  case h_4 served =>
    obtain ⟨hquiet, hterminals, -⟩ := hcalls served.callbacks
    have hfresh' : ∃ others, terminals (s.callbacks sha256 served.callbacks).log =
        [] :: others := hterminals ▸ hfresh.resolve_left (by simp)
    unfold worker
    split_ifs
    · exact sound_awaitShell hquiet hfresh' listener client
    · exact sound_phase hquiet listener client (.inr hfresh') (by simp)
  case h_5 ok =>
    have hfresh' := hfresh.resolve_left (by simp)
    unfold allocated
    split_ifs
    · refine ⟨h.quiet, fun l c phase htask => .inr hfresh', fun l c s' htask => ?_⟩
      cases htask
      exact ⟨[], rfl⟩
    · have hgreeting : Replayed services s.device s.device greeting := replayed_opened services s.device
      exact sound_phase (s := s.note _)
        (Account.ended h.quiet hfresh' hgreeting (.inr ⟨false, s.device, [], rfl⟩)) listener client
        (.inl rfl) (by simp)
  case h_6 session made result =>
    obtain ⟨hquiet, hterminals, hdevice⟩ := hcalls made
    refine sound_shell hquiet (hterminals ▸ hfresh.resolve_left (by simp)) listener client ?_ result
    rw [hdevice]
    exact h.session listener client session htask
  case h_7 served =>
    obtain ⟨hquiet, -, -⟩ := hcalls served.callbacks
    exact sound_loop (hquiet.note (by simp [Silent])).1 listener
  case h_8 => exact h

theorem sound_begin (h : Quiet sha256 services device s) (initialized : Bool) :
    Sound sha256 services device (begin s initialized) := by
  have hload : Quiet sha256 services device (load s) :=
    Account.snoc_other h (e := .loaded (loadAuthConfig s.device.nvs)) (by simp) (by simp)
      (congrArg (fun d : Device ρ => loadAuthConfig d.nvs) h.device_eq)
  unfold begin
  split
  · exact sound_unconnected (hload.note (by simp [Silent])).1 (by simp)
  · exact sound_delete hload _

theorem sound_advance (h : Sound sha256 services device s) {stage : Stage ρ} (htask : s.task = some stage)
    (answer : Answer) : Sound sha256 services device (advance sha256 services s stage answer) := by
  unfold advance
  split
  case h_1 ok => exact sound_begin h.quiet ok
  case h_2 ok =>
    split
    · exact sound_unconnected (h.quiet.note (by simp [Silent])).1 (by simp)
    · exact sound_delete h.quiet _
  case h_3 ok =>
    split
    · exact sound_unconnected h.quiet (by simp)
    · exact sound_delete h.quiet _
  case h_4 listener => exact sound_unconnected (h.quiet.note (by simp [Silent])).1 (by simp)
  case h_5 => exact sound_delete h.quiet _
  case h_6 listener bind listen =>
    split
    · exact sound_loop h.quiet listener
    · exact sound_delete h.quiet _
  case h_7 listener client => exact sound_unconnected (h.quiet.note (by simp [Silent])).1 (by simp)
  case h_8 listener => exact sound_loop h.quiet listener
  case h_9 listener client ok =>
    split
    · -- a new connection has a new terminal
      have hopened : terminals (s.log ++ [.moved (.take .session)]) = [] :: terminals s.log := by
        rw [terminals_append]
        cases terminals s.log <;> rfl
      refine sound_phase (s := { s.take .session with shellRequestAccepted := false })
        (Account.snoc h.quiet (e := .moved (.take .session)) trivial ?_) listener client
        (.inr ⟨_, hopened⟩) (by simp)
      rw [hopened]
      exact List.forall_mem_cons.mpr ⟨.inl rfl, h.quiet.sessions⟩
    · exact sound_loop (h.quiet.note (by simp [Silent])).1 listener
  case h_10 listener client phase => exact sound_serve h htask answer
  case h_11 => exact h

/-- The whole history, with the session under way. -/
theorem account_history (h : Sound sha256 services device s) :
    Account sha256 services device s.history s.current s.auth := by
  unfold Server.current Server.history
  split
  next listener client session htask =>
    obtain ⟨polls, hpolls⟩ := h.session listener client session htask
    have hreplayed := feed_holds (replayed_poll services (d := s.device))
      (replayed_opened services s.device) polls
    rw [hpolls] at hreplayed
    have hsession : session.events = eventsOf (Shell.Session.run services true s.device polls) := by
      rw [Shell.Session.run, if_pos rfl, hpolls]
      rfl
    exact Account.ended h.quiet ((h.fresh listener client _ htask).resolve_left (by simp)) hreplayed
      (.inr ⟨true, s.device, polls, hsession⟩)
  next => exact h.quiet

theorem sound_step (h : Sound sha256 services device s) (input : Input ρ) :
    Sound sha256 services device (step sha256 services s input) := by
  cases input with
  | startAfterWifi created =>
    show Sound sha256 services device (startAfterWifi s created)
    unfold startAfterWifi
    split
    · exact h
    · refine ⟨h.quiet, fun l c phase htask => ?_, fun l c session htask => ?_⟩
      · cases created <;> cases htask
      · cases created <;> cases htask
  | answer a =>
    rcases step_answer sha256 services s a with hsame | ⟨stage, htask, hstep⟩
    · rwa [hsame]
    · rw [hstep]
      exact sound_advance h htask a
  | restart rest =>
    have hrestarted := (account_history h).snoc_other (e := .restarted rest) (by simp) (by simp) trivial
    have hmoved : ∀ e ∈ [(.moved .lose : Event ρ)], Silent sha256 none e := by simp [Silent]
    have hlost := (hrestarted.silent hmoved).1
    rw [← List.append_cons] at hlost
    exact ⟨hlost, fun l c phase htask => (by cases htask), fun l c session htask => (by cases htask)⟩

theorem account_run (sha256 : List UInt8 → Digest) (services : DeviceServices (Device ρ))
    (device : Device ρ) (inputs : List (Input ρ)) :
    let s := afterInputs sha256 services device inputs
    Account sha256 services device s.history s.current s.auth := by
  have hstart : Sound sha256 services device (powered device) :=
    ⟨⟨rfl, rfl, guarded_nil, fun terminal hmem => (by cases hmem)⟩,
      fun l c phase htask => (by cases htask), fun l c session htask => (by cases htask)⟩
  exact account_history (after_invariant (P := Sound sha256 services device) hstart
    (fun _ input h => sound_step h input) inputs)

end

/-- After every run of the server the device is what the dispatched lines, the files of SFTP and the
restarts of its history make of the device it began with; the credentials are those that were stored
when they were last loaded, and every answer of `user_auth` is about those loaded then; and every
connection's terminal is empty or that of one run of the shell, with a line of its own. -/
theorem server_sessions (sha256 : List UInt8 → Digest) (services : DeviceServices (Device ρ))
    (device : Device ρ) (inputs : List (Input ρ)) :
    let s := afterInputs sha256 services device inputs
    s.current = replay services device s.history ∧ s.auth = loadedAuth s.history ∧
      (∀ before e after, s.history = before ++ e :: after → Accounted sha256 services device before e) ∧
      ∀ terminal ∈ terminals s.history, IsSession services terminal := by
  intro s
  have haccount := account_run sha256 services device inputs
  exact ⟨haccount.device_eq, haccount.auth_eq, haccount.accounted, haccount.sessions⟩

end Esp32Shell.Idf.SshSessions
