import Esp32Shell.Idf.Chip
import Esp32Shell.Idf.SshResources
import Esp32Shell.Idf.SshSessions

/-!
# Visitors are served

What a client gets that behaves and does not restart the chip: after a handshake
within its 300 calls and a request for a shell it has a session of its own, over
the device as the visitor before has left it, and the server then waits for the
next one.
-/
namespace Esp32Shell.Idf.SshProgress

open Esp32Shell.Library.CText Esp32Shell.Library.Feed Esp32Shell.Library.Run Esp32Shell.Library.Sha256
open Shell.CommandCore
open Shell.Session (Poll Finished opened eventsOf stepPoll)
open CommandServices SshAuth SshSessions
open SshServer hiding afterInputs step
open Chip (afterInputs restarts step step_at)

variable {ρ : Type}

/-! ### Visits -/

/-- A call of `wolfSSH_accept` that is tried again. -/
def Retries (served : Served) : Prop :=
  served.result ≠ .success ∧ served.result ≠ .sftpComplete ∧
    (pending served.result = true ∨ pending served.error = true)

/-- A call of `wolfSSH_worker` behind which the request for a shell is awaited further. -/
def GoesOn (served : Served) : Prop :=
  served.result = .success ∨ served.result = .chanRxd ∨ served.result = .wantRead ∨
    served.result = .wantWrite

/-- A shell is asked for with a channel. -/
def asks (made : List Callback) : Bool :=
  made.any fun | .shellRequest channel => channel | .userAuth _ _ _ => false

/-- The calls of `wolfSSH_worker` up to the one that meets the request for a shell. -/
def Awaits : Bool → List Served → Prop
  | requested, [] => requested = true
  | requested, served :: turns => requested = false ∧ GoesOn served ∧ Awaits (asks served.callbacks) turns

/-- A connection, by what the calls of the task return. -/
structure Visit where
  client : Nat
  handshakes : List Served
  granted : Served
  turns : List Served
  reads : List (List Callback × StreamRead)
  farewell : Served

namespace Visit

def answers (v : Visit) : List Answer :=
  .accepted (some v.client) :: .sessionNew true :: (v.handshakes.map .served ++
    .served v.granted :: (v.turns.map .served ++
      .allocated true :: (v.reads.map (fun r => .streamRead r.1 r.2) ++ [.served v.farewell])))

/-- The handshake succeeds in time, a shell is asked for, and the client leaves, at the latest with the
last read. -/
structure Behaves (v : Visit) : Prop where
  attempts : v.handshakes.length < maxHandshakeAttempts
  retries : ∀ served ∈ v.handshakes, Retries served
  granted : v.granted.result = .success
  awaits : Awaits (asks (v.handshakes.flatMap Served.callbacks ++ v.granted.callbacks)) v.turns
  leaves : ∃ r ∈ v.reads, read r.2 = .closed ∨ read r.2 = .error

/-- What the session reads. -/
def polls (v : Visit) : List Poll := v.reads.map fun r => .connected (read r.2)

end Visit

/-- The device that a session leaves. -/
def deviceOf {σ : Type} : Except (Finished σ) (Shell.Session.State σ) → σ
  | .ok s => s.device
  | .error f => f.device

/-- What a visitor sees on a device, and what is left of the device. -/
def session (services : DeviceServices (Device ρ)) (d : Device ρ) (v : Visit) :
    Except (Finished (Device ρ)) (Shell.Session.State (Device ρ)) :=
  Shell.Session.run services true d v.polls

/-- The terminals of visitors who come one after the other. -/
def transcripts (services : DeviceServices (Device ρ)) :
    Device ρ → List Visit → List (List Shell.Session.Event)
  | _, [] => []
  | d, v :: visits =>
    eventsOf (session services d v) :: transcripts services (deviceOf (session services d v)) visits

def afterVisits (services : DeviceServices (Device ρ)) (d : Device ρ) (visits : List Visit) : Device ρ :=
  visits.foldl (fun d v => deviceOf (session services d v)) d

section
variable {sha256 : List UInt8 → Digest} {services : DeviceServices (Device ρ)} {boot : Device ρ → ρ}
  {s : Server ρ} {listener client : Nat}

/-! ### Between the sessions -/

/-- The server has gone on without a terminal showing it. -/
structure Keeps (s s' : Server ρ) : Prop where
  device : s'.device = s.device
  auth : s'.auth = s.auth
  startRequested : s'.startRequested = s.startRequested
  terminals : terminals s'.log = terminals s.log

theorem keeps_refl (s : Server ρ) : Keeps s s := ⟨rfl, rfl, rfl, rfl⟩

theorem Keeps.trans {s s' s'' : Server ρ} (h : Keeps s s') (h' : Keeps s' s'') : Keeps s s'' :=
  ⟨h'.device.trans h.device, h'.auth.trans h.auth, h'.startRequested.trans h.startRequested,
    h'.terminals.trans h.terminals⟩

theorem keeps_note (s : Server ρ) {e : Event ρ} (hshell : ∀ event, e ≠ .shell event)
    (htake : e ≠ .moved (.take .session)) : Keeps s (s.note [e]) :=
  ⟨rfl, rfl, rfl, terminals_other s.log hshell htake⟩

theorem keeps_goTo (s : Server ρ) (stage : Stage ρ) : Keeps s (s.goTo stage) := ⟨rfl, rfl, rfl, rfl⟩

theorem terminals_entries (sha256 : List UInt8 → Digest) (auth : Option AuthConfig) (made : List Callback)
    (log : List (Event ρ)) : terminals (log ++ made.map (Server.entry sha256 auth)) = terminals log := by
  induction made generalizing log with
  | nil => rw [List.map_nil, List.append_nil]
  | cons c made ih =>
    rw [List.map_cons, List.append_cons, ih]
    cases c <;> exact terminals_other log (by simp [Server.entry]) (by simp [Server.entry])

theorem keeps_callbacks (sha256 : List UInt8 → Digest) (s : Server ρ) (made : List Callback) :
    Keeps s (s.callbacks sha256 made) ∧
      (s.callbacks sha256 made).shellRequestAccepted = (s.shellRequestAccepted || asks made) ∧
      (s.callbacks sha256 made).task = s.task := by
  rw [Server.callbacks_eq]
  exact ⟨⟨rfl, rfl, rfl, terminals_entries sha256 s.auth made s.log⟩, rfl, rfl⟩

/-- The answers of a run that begins behind a start of the server. -/
def answered : Input ρ → Option Answer
  | .answer answer => some answer
  | _ => none

/-- The server behind a number of answers. -/
def behind (sha256 : List UInt8 → Digest) (services : DeviceServices (Device ρ)) (boot : Device ρ → ρ)
    (s : Server ρ) (answers : List Answer) : Server ρ :=
  after (step sha256 services boot) s (answers.map .answer)

theorem behind_append (s : Server ρ) (answers more : List Answer) :
    behind sha256 services boot s (answers ++ more) =
      behind sha256 services boot (behind sha256 services boot s answers) more := by
  rw [behind, List.map_append, after_append]
  rfl

theorem behind_cons {stage : Stage ρ} (htask : s.task = some stage)
    (hstage : ∀ listener client session, stage ≠ .connected listener client (.shell session))
    (answer : Answer) (more : List Answer) : behind sha256 services boot s (answer :: more) =
      behind sha256 services boot (advance sha256 services s stage answer) more := by
  rw [← step_at sha256 boot htask hstage answer]
  rfl

/-- No answer has the server asked for, and a restart forgets that it was. -/
theorem requested_answer {answer : Answer}
    (h : (step sha256 services boot s (.answer answer)).startRequested = true) : s.startRequested = true := by
  obtain ⟨answer', htaken⟩ := Chip.taken_answer services s answer
  rcases Chip.step_cases sha256 services boot s (.answer answer) with hstep | ⟨rest, hstep⟩
  · rw [hstep, htaken] at h
    rcases step_answer sha256 services s answer' with hsame | ⟨stage, -, hnext⟩
    · rwa [hsame] at h
    · rwa [hnext, SshResources.requested_advance] at h
  · rw [hstep] at h
    cases h

theorem requested_behind {answers : List Answer}
    (h : (behind sha256 services boot s answers).startRequested = true) : s.startRequested = true := by
  induction answers generalizing s with
  | nil => exact h
  | cons answer answers ih => exact requested_answer (ih h)

/-- The network may come up again at any time: only the answers matter, where none restarts the chip. -/
theorem after_answered {inputs : List (Input ρ)} (hrestart : ∀ rest, .restart rest ∉ inputs)
    (h : (behind sha256 services boot s (inputs.filterMap answered)).startRequested = true) :
    after (step sha256 services boot) s inputs =
      behind sha256 services boot s (inputs.filterMap answered) := by
  induction inputs generalizing s with
  | nil => rfl
  | cons input inputs ih =>
    have hrest : ∀ rest, .restart rest ∉ inputs := fun rest hmem =>
      hrestart rest (List.mem_cons_of_mem input hmem)
    cases input with
    | startAfterWifi created =>
      have hsame : step sha256 services boot s (.startAfterWifi created) = s :=
        (Chip.step_of_runs sha256 boot rfl).trans (if_pos (.inl (requested_behind h)))
      rw [after_cons, hsame]
      exact ih hrest h
    | answer answer => exact ih hrest h
    | restart rest => exact absurd List.mem_cons_self (hrestart rest)

/-! ### The handshake -/

theorem asks_append (made more : List Callback) : asks (made ++ more) = (asks made || asks more) :=
  List.any_append

/-- Calls that are tried again, within the bound. -/
theorem handshakes_retried {tries : List Served} (hretries : ∀ served ∈ tries, Retries served) {n : Nat}
    (hroom : n + tries.length < maxHandshakeAttempts)
    (htask : s.task = some (.connected listener client (.handshake n))) :
    let s' := behind sha256 services boot s (tries.map .served)
    s'.task = some (.connected listener client (.handshake (n + tries.length))) ∧ Keeps s s' ∧
      s'.shellRequestAccepted = (s.shellRequestAccepted || asks (tries.flatMap Served.callbacks)) := by
  induction tries generalizing s n with
  | nil => exact ⟨htask, keeps_refl s, (Bool.or_false _).symm⟩
  | cons served tries ih =>
    obtain ⟨hsuccess, hsftp, hpending⟩ := hretries served List.mem_cons_self
    rw [List.length_cons] at hroom
    obtain ⟨hkeeps, hasked, -⟩ := keeps_callbacks sha256 s served.callbacks
    let noted := (s.callbacks sha256 served.callbacks).note [.handshake served.result]
    let next := noted.goTo (.connected listener client (.handshake (n + 1)))
    have hnext : advance sha256 services s (.connected listener client (.handshake n)) (.served served) =
        next := by
      show handshake (s.callbacks sha256 served.callbacks) listener client n served = _
      rw [handshake, if_neg hsuccess, if_neg hsftp, if_pos ⟨hpending, by omega⟩]
    have hnoted : Keeps (s.callbacks sha256 served.callbacks) noted :=
      keeps_note _ (e := .handshake served.result) (by simp) (by simp)
    obtain ⟨htask', hkeeps', hasked'⟩ := ih (s := next) (n := n + 1)
      (fun x hx => hretries x (List.mem_cons_of_mem _ hx)) (by omega) rfl
    intro s'
    have hs' : s' = behind sha256 services boot next (tries.map .served) := by
      rw [← hnext]
      exact behind_cons htask (by simp) _ _
    rw [hs']
    refine ⟨?_, ((hkeeps.trans hnoted).trans (keeps_goTo noted _)).trans hkeeps', ?_⟩
    · rw [htask', List.length_cons, Nat.add_right_comm n 1, Nat.add_assoc]
    · rw [hasked', List.flatMap_cons, asks_append, ← Bool.or_assoc, ← hasked]
      rfl

/-- The loop of `serve_shell` up to the request for a shell. -/
theorem shell_awaited {turns : List Served} (h : Awaits s.shellRequestAccepted turns) :
    let s' := behind sha256 services boot (awaitShell s listener client) (turns.map .served)
    s'.task = some (.connected listener client .allocating) ∧ Keeps s s' := by
  induction turns generalizing s with
  | nil =>
    have hrequested : s.shellRequestAccepted = true := h
    have hgo : awaitShell s listener client = s.goTo (.connected listener client .allocating) := by
      rw [awaitShell, if_pos hrequested]
    intro s'
    have hs' : s' = s.goTo (.connected listener client .allocating) := hgo
    rw [hs']
    exact ⟨rfl, keeps_goTo s _⟩
  | cons served turns ih =>
    obtain ⟨hnot, hgoes, hrest⟩ := h
    have hgo : awaitShell s listener client = s.goTo (.connected listener client .worker) := by
      rw [awaitShell, hnot, if_neg Bool.false_ne_true]
    let waiting := s.goTo (.connected listener client .worker)
    obtain ⟨hkeeps, hasked, -⟩ := keeps_callbacks sha256 waiting served.callbacks
    have hnext : advance sha256 services waiting (.connected listener client .worker) (.served served) =
        awaitShell (waiting.callbacks sha256 served.callbacks) listener client := by
      show worker (waiting.callbacks sha256 served.callbacks) listener client served = _
      exact if_pos hgoes
    have hflag : (waiting.callbacks sha256 served.callbacks).shellRequestAccepted =
        asks served.callbacks := by
      have hwaiting : waiting.shellRequestAccepted = false := hnot
      rw [hasked, hwaiting, Bool.false_or]
    obtain ⟨htask', hkeeps'⟩ := ih (s := waiting.callbacks sha256 served.callbacks) (by rwa [hflag])
    intro s'
    have hs' : s' = behind sha256 services boot
        (awaitShell (waiting.callbacks sha256 served.callbacks) listener client) (turns.map .served) := by
      rw [← hnext]
      show behind sha256 services boot (awaitShell s listener client) _ = _
      rw [hgo]
      exact behind_cons rfl (by simp) _ _
    rw [hs']
    exact ⟨htask', ((keeps_goTo s _).trans hkeeps).trans hkeeps'⟩

/-! ### The session -/

/-- Behind the end of a session nothing is read. -/
theorem closing_unread (htask : s.task = some (.connected listener client .closing))
    (reads : List (List Callback × StreamRead)) :
    behind sha256 services boot s (reads.map fun r => .streamRead r.1 r.2) = s := by
  induction reads with
  | nil => rfl
  | cons r reads ih => exact (behind_cons htask (by simp) _ _).trans ih

/-- The reads of a session that ends among them. -/
theorem session_read {reads : List (List Callback × StreamRead)}
    {session : Shell.Session.State (Device ρ)} {finished : Finished (Device ρ)}
    (hruns : restarts finished.events = false)
    (hends : feed (stepPoll services) session (reads.map fun r => .connected (read r.2)) = .error finished)
    (htask : s.task = some (.connected listener client (.shell session)))
    {others : List (List Shell.Session.Event)} (hfresh : terminals s.log = [] :: others) :
    let s' := behind sha256 services boot s (reads.map fun r => .streamRead r.1 r.2)
    s'.task = some (.connected listener client .closing) ∧ s'.device = finished.device ∧
      s'.auth = s.auth ∧ s'.startRequested = s.startRequested ∧
      terminals s'.log = finished.events :: others := by
  induction reads generalizing s session with
  | nil => cases hends
  | cons r reads ih =>
    obtain ⟨hkeeps, -, -⟩ := keeps_callbacks sha256 s r.1
    have hpolled : restarts (eventsOf (stepPoll services session (.connected (read r.2)))) = false := by
      have hfirst := Chip.events_first (Chip.events_poll services) session (.connected (read r.2))
        (reads.map fun r => .connected (read r.2))
      rw [List.map_cons] at hends
      rw [hends] at hfirst
      exact Chip.runs_of_begins hfirst hruns
    intro s'
    have hs' : s' = behind sha256 services boot
        (shell services (s.callbacks sha256 r.1) listener client session r.2)
        (reads.map fun r => .streamRead r.1 r.2) := by
      rw [← Chip.step_read sha256 boot htask r.1 hpolled]
      rfl
    rw [hs']
    cases hpoll : stepPoll services session (.connected (read r.2)) with
    | ok next =>
      have hnext : shell services (s.callbacks sha256 r.1) listener client session r.2 =
          (s.callbacks sha256 r.1).goTo (.connected listener client (.shell next)) := by
        rw [shell, hpoll]
      rw [hnext]
      rw [List.map_cons, feed_cons_ok _ hpoll] at hends
      obtain ⟨hclosing, hdevice, hauth, hrequested, hterminals⟩ := ih hends
        (s := (s.callbacks sha256 r.1).goTo (.connected listener client (.shell next))) rfl
        (hkeeps.terminals.trans hfresh)
      exact ⟨hclosing, hdevice, hauth.trans hkeeps.auth, hrequested.trans hkeeps.startRequested,
        hterminals⟩
    | error ended =>
      rw [List.map_cons, feed_cons_error _ hpoll] at hends
      obtain rfl := Except.error.inj hends
      have hnext : shell services (s.callbacks sha256 r.1) listener client session r.2 =
          ({ s.callbacks sha256 r.1 with device := ended.device }.note (ended.events.map .shell)).goTo
            (.connected listener client .closing) := by
        rw [shell, hpoll]
      rw [hnext, closing_unread rfl]
      have hterminals : terminals ((s.callbacks sha256 r.1).log ++ ended.events.map .shell) =
          ended.events :: others := terminals_shell (hkeeps.terminals.trans hfresh) ended.events
      exact ⟨rfl, rfl, hkeeps.auth, hkeeps.startRequested, hterminals⟩

/-- A client that leaves ends its session. -/
theorem session_ends (services : DeviceServices (Device ρ)) {v : Visit}
    (hleaves : ∃ r ∈ v.reads, read r.2 = .closed ∨ read r.2 = .error)
    (d : Device ρ) : ∃ finished, session services d v = .error finished := by
  obtain ⟨r, hr, hleaves⟩ := hleaves
  obtain ⟨before, more, hreads⟩ := List.append_of_mem hr
  have hpolls : v.polls = before.map (fun r => .connected (read r.2)) ++
      .connected (read r.2) :: more.map fun r => .connected (read r.2) := by
    rw [Visit.polls, hreads, List.map_append, List.map_cons]
  have hlast : ∀ s : Shell.Session.State (Device ρ),
      stepPoll services s (.connected (read r.2)) = .error ⟨.closed, s.device, s.events⟩ := by
    intro s
    rcases hleaves with hclosed | hfailed
    · rw [hclosed]
      rfl
    · rw [hfailed]
      rfl
  rw [session, Shell.Session.run, if_pos rfl, hpolls]
  cases hbefore : feed (stepPoll services) (opened d) (before.map fun r => .connected (read r.2)) with
  | ok s => exact ⟨_, by rw [feed_append_ok _ hbefore, feed_cons_error _ (hlast s)]⟩
  | error finished => exact ⟨finished, by rw [feed_append_error _ hbefore]⟩

/-! ### The start -/

/-- What the calls of a start return that succeeds. -/
def startup (listener : Nat) : List Answer :=
  [.initialized true, .contextNew true, .privateKey true, .socket (some listener), .bound true true]

theorem server_starts (sha256 : List UInt8 → Digest) (services : DeviceServices (Device ρ))
    (boot : Device ρ → ρ) {device : Device ρ} {auth : AuthConfig} (hauth : loadAuthConfig device.nvs = some auth)
    (listener : Nat) :
    let s := afterInputs sha256 services boot device (.startAfterWifi true :: (startup listener).map .answer)
    s.task = some (.accepting listener) ∧ s.startRequested = true ∧ s.auth = some auth ∧
      s.device = { device with nvs := (Storage.Nvs.nvsOpen device.nvs).2 } ∧ terminals s.log = [] := by
  let s : Server ρ := startAfterWifi (powered device) true
  have htask : s.task = some .starting := rfl
  have hbegin : begin s true = ((load s).take .library).goTo .context :=
    if_pos ⟨Option.isSome_iff_exists.mpr ⟨auth, hauth⟩, rfl⟩
  have hrun : afterInputs sha256 services boot device (.startAfterWifi true :: (startup listener).map .answer) =
      behind sha256 services boot (((load s).take .library).goTo .context) (startup listener).tail := by
    rw [← hbegin]
    exact behind_cons htask (by simp) _ _
  rw [hrun]
  exact ⟨rfl, rfl, hauth, rfl, rfl⟩

/-! ### The visits -/

/-- A visitor of a server that waits for one. -/
theorem visit_served (sha256 : List UInt8 → Digest) (services : DeviceServices (Device ρ))
    (boot : Device ρ → ρ) {v : Visit} (hv : v.Behaves)
    (hruns : restarts (eventsOf (session services s.device v)) = false)
    (htask : s.task = some (.accepting listener)) (hrequested : s.startRequested = true) :
    let s' := behind sha256 services boot s v.answers
    s'.task = some (.accepting listener) ∧ s'.startRequested = true ∧ s'.auth = s.auth ∧
      s'.device = deviceOf (session services s.device v) ∧
      terminals s'.log = eventsOf (session services s.device v) :: terminals s.log := by
  let begun := { ((s.take (.socket v.client)).goTo (.creating listener v.client)).take .session with
    shellRequestAccepted := false }.goTo (.connected listener v.client (.handshake 0))
  have hfresh : terminals begun.log = [] :: terminals s.log := by
    have hsocket : terminals (s.log ++ [.moved (.take (.socket v.client))]) = terminals s.log :=
      terminals_other s.log (by simp) (by simp)
    show terminals ((s.log ++ [.moved (.take (.socket v.client))]) ++ [.moved (.take .session)]) = _
    rw [terminals_append, hsocket]
    cases terminals s.log <;> rfl
  let shaken := behind sha256 services boot begun (v.handshakes.map .served)
  obtain ⟨hshaken, hkeeps₁, hasked₁⟩ : shaken.task = some (.connected listener v.client
      (.handshake (0 + v.handshakes.length))) ∧ Keeps begun shaken ∧ shaken.shellRequestAccepted =
        (false || asks (v.handshakes.flatMap Served.callbacks)) :=
    handshakes_retried hv.retries (by rw [Nat.zero_add]; exact hv.attempts) rfl
  let granted := (shaken.callbacks sha256 v.granted.callbacks).note [.handshake v.granted.result]
  obtain ⟨hkeeps₂, hasked₂, -⟩ := keeps_callbacks sha256 shaken v.granted.callbacks
  have hkeeps₃ : Keeps (shaken.callbacks sha256 v.granted.callbacks) granted :=
    keeps_note _ (e := .handshake v.granted.result) (by simp) (by simp)
  have hawaits : Awaits granted.shellRequestAccepted v.turns := by
    have hflag : granted.shellRequestAccepted =
        asks (v.handshakes.flatMap Served.callbacks ++ v.granted.callbacks) := by
      rw [asks_append, ← Bool.false_or (asks (v.handshakes.flatMap Served.callbacks)), ← hasked₁]
      exact hasked₂
    rw [hflag]
    exact hv.awaits
  let ready := behind sha256 services boot (awaitShell granted listener v.client) (v.turns.map .served)
  obtain ⟨hready, hkeeps₄⟩ : ready.task = some (.connected listener v.client .allocating) ∧
      Keeps granted ready := shell_awaited hawaits
  have hkeeps : Keeps begun ready := ((hkeeps₁.trans hkeeps₂).trans hkeeps₃).trans hkeeps₄
  obtain ⟨finished, hfinished⟩ := session_ends services hv.leaves s.device
  have hends : feed (stepPoll services) (opened ready.device)
      (v.reads.map fun r => .connected (read r.2)) = .error finished := by
    have hdevice : ready.device = s.device := hkeeps.device
    rw [hdevice]
    exact hfinished
  let started := ready.goTo (.connected listener v.client (.shell (opened ready.device)))
  let ended := behind sha256 services boot started (v.reads.map fun r => .streamRead r.1 r.2)
  obtain ⟨hclosing, hdevice, hauth, hasks, hterminals⟩ :
      ended.task = some (.connected listener v.client .closing) ∧ ended.device = finished.device ∧
      ended.auth = started.auth ∧ ended.startRequested = started.startRequested ∧
      terminals ended.log = finished.events :: terminals s.log :=
    session_read (by rwa [hfinished] at hruns) hends rfl (hkeeps.terminals.trans hfresh)
  have hgranted : advance sha256 services shaken (.connected listener v.client
      (.handshake (0 + v.handshakes.length))) (.served v.granted) = awaitShell granted listener v.client := by
    show handshake (shaken.callbacks sha256 v.granted.callbacks) listener v.client _ v.granted = _
    rw [handshake, if_pos hv.granted]
  have hrun : behind sha256 services boot s v.answers =
      (ended.callbacks sha256 v.farewell.callbacks).closeSession listener v.client := by
    have hcreating : ((s.take (.socket v.client)).goTo (.creating listener v.client)).task =
        some (.creating listener v.client) := rfl
    have hbegun : behind sha256 services boot s v.answers = behind sha256 services boot begun
        (v.handshakes.map .served ++ .served v.granted :: (v.turns.map .served ++
          .allocated true :: (v.reads.map (fun r => .streamRead r.1 r.2) ++ [.served v.farewell]))) :=
      (behind_cons htask (by simp) _ _).trans (behind_cons hcreating (by simp) _ _)
    rw [hbegun, behind_append, behind_cons hshaken (by simp), hgranted, behind_append,
      behind_cons hready (by simp)]
    show behind sha256 services boot started _ = _
    rw [behind_append, behind_cons hclosing (by simp)]
    rfl
  obtain ⟨hkeeps₅, -, -⟩ := keeps_callbacks sha256 ended v.farewell.callbacks
  have hclosed : (ended.callbacks sha256 v.farewell.callbacks).closeSession listener v.client =
      ((ended.callbacks sha256 v.farewell.callbacks).note [.moved (.release .session),
        .moved (.release (.socket v.client))]).goTo (.accepting listener) := by
    have hstill : (ended.callbacks sha256 v.farewell.callbacks).startRequested = true := by
      rw [hkeeps₅.startRequested, hasks]
      exact hkeeps.startRequested.trans hrequested
    exact if_pos hstill
  have hsession : session services s.device v = .error finished := hfinished
  intro s'
  have hs' : s' = _ := hrun.trans hclosed
  rw [hs', hsession]
  refine ⟨rfl, ?_, ?_, hkeeps₅.device.trans hdevice, ?_⟩
  · exact hkeeps₅.startRequested.trans (hasks.trans (hkeeps.startRequested.trans hrequested))
  · exact hkeeps₅.auth.trans (hauth.trans hkeeps.auth)
  · show terminals ((ended.callbacks sha256 v.farewell.callbacks).log ++ ([.moved (.release .session)] ++
      [.moved (.release (.socket v.client))])) = _
    rw [← List.append_assoc, terminals_other _ (by simp) (by simp), terminals_other _ (by simp) (by simp)]
    exact hkeeps₅.terminals.trans hterminals

/-- The server behind visits, and what it has shown. -/
structure Waits (services : DeviceServices (Device ρ)) (s : Server ρ) (visits : List Visit) (listener : Nat)
    (s' : Server ρ) : Prop where
  task : s'.task = some (.accepting listener)
  auth : s'.auth = s.auth
  device : s'.device = afterVisits services s.device visits
  terminals : terminals s'.log = (transcripts services s.device visits).reverse ++ terminals s.log

/-- No visitor calls `reboot`. -/
def Lasting (services : DeviceServices (Device ρ)) (d : Device ρ) (visits : List Visit) : Prop :=
  ∀ terminal ∈ transcripts services d visits, restarts terminal = false

theorem visits_served (sha256 : List UInt8 → Digest) (services : DeviceServices (Device ρ))
    (boot : Device ρ → ρ) {visits : List Visit} (hvisits : ∀ v ∈ visits, v.Behaves)
    (hlasting : Lasting services s.device visits) (htask : s.task = some (.accepting listener))
    (hrequested : s.startRequested = true) :
    let s' := behind sha256 services boot s (visits.flatMap Visit.answers)
    s'.startRequested = true ∧ Waits services s visits listener s' := by
  induction visits generalizing s with
  | nil => exact ⟨hrequested, htask, rfl, rfl, rfl⟩
  | cons v visits ih =>
    obtain ⟨hfirst, hothers⟩ := List.forall_mem_cons.mp hlasting
    obtain ⟨htask', hrequested', hauth, hdevice, hterminals⟩ :=
      visit_served sha256 services boot (hvisits v List.mem_cons_self) hfirst htask hrequested
    rw [← hdevice] at hothers
    obtain ⟨hstill, hrest⟩ := ih (fun x hx => hvisits x (List.mem_cons_of_mem v hx)) hothers htask' hrequested'
    rw [List.flatMap_cons, behind_append]
    refine ⟨hstill, hrest.task, hrest.auth.trans hauth, ?_, ?_⟩
    · rw [hrest.device, hdevice]
      rfl
    · rw [hrest.terminals, hdevice, hterminals, transcripts, List.reverse_cons, List.append_assoc]
      rfl

/-- A server that starts on stored credentials serves the visitors on the device as it is. -/
theorem starts_and_serves (sha256 : List UInt8 → Digest) (services : DeviceServices (Device ρ))
    (boot : Device ρ → ρ) {device : Device ρ} (hr : device.nvs.Reliable) {auth : AuthConfig}
    (hauth : loadAuthConfig device.nvs = some auth) (listener : Nat) {visits : List Visit}
    (hvisits : ∀ v ∈ visits, v.Behaves) (hlasting : Lasting services device visits) :
    let s := afterInputs sha256 services boot device
      (.startAfterWifi true :: (startup listener ++ visits.flatMap Visit.answers).map .answer)
    s.task = some (.accepting listener) ∧ s.auth = some auth ∧
      s.device = afterVisits services device visits ∧
      terminals s.log = (transcripts services device visits).reverse := by
  obtain ⟨htask, hrequested, hloaded, hdevice, hterminals⟩ :=
    server_starts sha256 services boot hauth listener
  have hsame : { device with nvs := (Storage.Nvs.nvsOpen device.nvs).2 } = device := by
    obtain ⟨⟨store, results⟩, fs, rest⟩ := device
    obtain rfl : results = [] := hr
    rfl
  rw [hsame] at hdevice
  obtain ⟨-, hserved⟩ :=
    visits_served sha256 services boot hvisits (by rwa [hdevice]) htask hrequested
  have hrun : afterInputs sha256 services boot device
      (.startAfterWifi true :: (startup listener ++ visits.flatMap Visit.answers).map .answer) =
      behind sha256 services boot (afterInputs sha256 services boot device
        (.startAfterWifi true :: (startup listener).map .answer)) (visits.flatMap Visit.answers) := by
    rw [List.map_append, ← List.cons_append]
    exact after_append _ _
  rw [hrun]
  refine ⟨hserved.task, hserved.auth.trans hloaded, ?_, ?_⟩
  · rw [hserved.device, hdevice]
  · rw [hserved.terminals, hdevice, hterminals, List.append_nil]

end

/-- A client that logs in at the second call, asks for a shell behind the handshake, types and leaves. -/
def guest (client : Nat) (typed : Shell.Session.Chunk) : Visit where
  client := client
  handshakes := [⟨[.userAuth true .password (some admin)], .wantRead, .wantRead⟩]
  granted := ⟨[], .success, .success⟩
  turns := [⟨[.shellRequest true], .chanRxd, .success⟩]
  reads := [([], .received typed), ([], .failed .wantRead), ([], .received ⟨[], Nat.zero_le _⟩)]
  farewell := ⟨[], .success, .success⟩

theorem guest_behaves (client : Nat) (typed : Shell.Session.Chunk) : (guest client typed).Behaves where
  attempts := Nat.lt_of_sub_eq_succ rfl
  retries := by simp [guest, Retries, pending]
  granted := rfl
  awaits := ⟨rfl, .inr (.inl rfl), rfl⟩
  leaves := ⟨([], .received ⟨[], Nat.zero_le _⟩), by simp [guest], .inl rfl⟩

end Esp32Shell.Idf.SshProgress
