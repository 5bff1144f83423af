import Esp32Shell.Idf.SshServer
import Esp32Shell.Library.Precedence

/-!
# Who reaches the shell

Whatever a client does, every line that is dispatched and every file that SFTP
changes stands behind a login of the same connection, which was checked against
the credentials that the task has loaded. A shell also stands behind a request
for one, and a handshake is given up after 300 calls.
-/
namespace Esp32Shell.Idf.SshAccess

open Esp32Shell.Library.CText Esp32Shell.Library.Ledger Esp32Shell.Library.Precedence
open Esp32Shell.Library.Run Esp32Shell.Library.Sha256
open Shell.CommandCore CommandServices SshAuth SshServer

variable {ρ : Type}

/-- What has happened on the connection under way, by one more event. -/
def noteConnection (connection : Option (List (Event ρ))) : Event ρ → Option (List (Event ρ))
  | .moved (.take .session) => some []
  | .moved (.release .session) | .moved .lose => none
  | e => connection.map (· ++ [e])

/-- What has happened on the connection under way. -/
def connection (log : List (Event ρ)) : Option (List (Event ρ)) := log.foldl noteConnection none

/-- The calls of `wolfSSH_accept` that have returned. -/
def handshakes (log : List (Event ρ)) : Nat :=
  log.countP fun | .handshake _ => true | _ => false

/-- A login of the connection under way has been accepted. -/
def LoggedIn (log : List (Event ρ)) : Prop :=
  ∃ since login, connection log = some since ∧ .userAuth (some login) .success ∈ since

/-- wolfSSH ends a handshake only for a client that `user_auth` has accepted. -/
def Vouches (sha256 : List UInt8 → Digest) (services : DeviceServices (Device ρ)) (device : Device ρ)
    (inputs : List (Input ρ)) : Prop :=
  ∀ past served listener client attempts, Taken inputs past (.answer (.served served)) →
    let s := afterInputs sha256 services device past
    s.task = some (.connected listener client (.handshake attempts)) →
    served.result = .success ∨ served.result = .sftpComplete →
    LoggedIn (s.callbacks sha256 served.callbacks).log

/-- What stands before an event of a shell, or of SFTP. -/
def Admitted (sha256 : List UInt8 → Digest) (complete : Code) (before : List (Event ρ)) : Prop :=
  ∃ auth since login, loadedAuth before = some auth ∧ connection before = some since ∧
    .userAuth (some login) .success ∈ since ∧
    login.username = auth.username ∧ sha256 login.password = auth.passwordDigest ∧
    .handshake complete ∈ since ∧ handshakes since ≤ maxHandshakeAttempts ∧
    (complete = .success → .shellRequest true ∈ since)

/-- The end of the handshake that an event stands behind. -/
def required : Event ρ → Option Code
  | .shell _ => some .success
  | .files _ => some .sftpComplete
  | _ => none

def Justified (sha256 : List UInt8 → Digest) (before : List (Event ρ)) (e : Event ρ) : Prop :=
  ∀ complete, required e = some complete → Admitted sha256 complete before

/-! ### Events of a connection -/

/-- Neither a new connection nor the end of one, and no new credentials. -/
def Stays : Event ρ → Prop
  | .moved _ | .loaded _ | .restarted _ => False
  | _ => True

theorem Stays.noteLoaded_eq {e : Event ρ} (h : Stays e) (auth : Option AuthConfig) :
    noteLoaded auth e = auth := by
  cases e with
  | loaded auth => exact h.elim
  | restarted rest => exact h.elim
  | _ => rfl

theorem connection_append {log more : List (Event ρ)} {since : List (Event ρ)}
    (h : connection log = some since) (hstays : ∀ e ∈ more, Stays e) :
    connection (log ++ more) = some (since ++ more) := by
  induction more generalizing log since with
  | nil => rw [List.append_nil, List.append_nil, h]
  | cons e more ih =>
    have hnote : connection (log ++ [e]) = some (since ++ [e]) := by
      have he := hstays e List.mem_cons_self
      rw [connection, List.foldl_append]
      show noteConnection (connection log) e = _
      rw [h]
      cases e with
      | moved move => exact he.elim
      | loaded auth => exact he.elim
      | restarted rest => exact he.elim
      | _ => rfl
    have hrest := ih hnote fun e' he' => hstays e' (List.mem_cons_of_mem e he')
    rwa [List.append_assoc, List.append_assoc] at hrest

theorem connection_taken (log : List (Event ρ)) :
    connection (log ++ [.moved (.take .session)]) = some [] := by
  rw [connection, List.foldl_append]
  rfl

theorem stays_shell {events : List Shell.Session.Event} :
    ∀ e ∈ events.map (.shell : _ → Event ρ), Stays e := by
  intro e he
  obtain ⟨event, -, rfl⟩ := List.mem_map.mp he
  trivial

theorem handshakes_append (log more : List (Event ρ)) :
    handshakes (log ++ more) = handshakes log + handshakes more := List.countP_append

theorem handshakes_eq_zero {log : List (Event ρ)} (h : ∀ e ∈ log, ∀ code, e ≠ .handshake code) :
    handshakes log = 0 := by
  refine List.countP_eq_zero.mpr fun e he => ?_
  cases e with
  | handshake code => exact absurd rfl (h _ he code)
  | _ => simp

theorem Admitted.append {sha256 : List UInt8 → Digest} {complete : Code} {log more : List (Event ρ)}
    (h : Admitted sha256 complete log) (hstays : ∀ e ∈ more, Stays e)
    (hquiet : ∀ e ∈ more, ∀ code, e ≠ .handshake code) : Admitted sha256 complete (log ++ more) := by
  obtain ⟨auth, since, login, hloaded, hconn, hlogin, hname, hpassword, hhandshake, hcount, hrequest⟩ := h
  have hloaded' := (loadedAuth_append log fun e he => (hstays e he).noteLoaded_eq).trans hloaded
  refine ⟨auth, since ++ more, login, hloaded', connection_append hconn hstays,
    List.mem_append_left _ hlogin, hname, hpassword, List.mem_append_left _ hhandshake, ?_,
    fun hc => List.mem_append_left _ (hrequest hc)⟩
  rw [handshakes_append, handshakes_eq_zero hquiet]
  exact hcount

/-! ### The state behind the log -/

/-- The credentials of the task are loaded. -/
def Loaded (auth : AuthConfig) (s : Server ρ) : Prop :=
  s.auth = some auth ∧ loadedAuth s.log = some auth

/-- A connection under way, and what has happened on it. -/
structure Under (sha256 : List UInt8 → Digest) (auth : AuthConfig) (log : List (Event ρ))
    (requested : Bool) (since : List (Event ρ)) : Prop where
  connection_eq : connection log = some since
  logins : ∀ login, .userAuth (some login) .success ∈ since →
    login.username = auth.username ∧ sha256 login.password = auth.passwordDigest
  request : requested = true → .shellRequest true ∈ since

def Client (sha256 : List UInt8 → Digest) (auth : AuthConfig) (s : Server ρ)
    (since : List (Event ρ)) : Prop :=
  Loaded auth s ∧ Under sha256 auth s.log s.shellRequestAccepted since

/-- The handshake of the connection has ended with a login. -/
def Joined (sha256 : List UInt8 → Digest) (complete : Code) (s : Server ρ) : Prop :=
  ∃ auth since login, Client sha256 auth s since ∧ .userAuth (some login) .success ∈ since ∧
    .handshake complete ∈ since ∧ handshakes since ≤ maxHandshakeAttempts

/-- What is known at each phase of a connection. -/
def PhaseOk (sha256 : List UInt8 → Digest) (s : Server ρ) : Phase ρ → Prop
  | .handshake attempts => attempts < maxHandshakeAttempts ∧
      ∃ auth since, Client sha256 auth s since ∧ handshakes since = attempts
  | .defaultPath | .sftp _ => Joined sha256 .sftpComplete s
  | .worker => Joined sha256 .success s
  | .allocating | .shell _ => Joined sha256 .success s ∧ s.shellRequestAccepted = true
  | .closing => True

def StageOk (sha256 : List UInt8 → Digest) (s : Server ρ) : Stage ρ → Prop
  | .starting => True
  | .connected _ _ phase => (∃ auth, Loaded auth s) ∧ PhaseOk sha256 s phase
  | _ => ∃ auth, Loaded auth s

structure Sound (sha256 : List UInt8 → Digest) (s : Server ρ) : Prop where
  guarded : Guarded (Justified sha256) s.log
  stage : ∀ stage, s.task = some stage → StageOk sha256 s stage

theorem login_of_success {sha256 : List UInt8 → Digest} {hashed : Bool} {authType : UserAuthType}
    {login : UserAuthData} {auth : AuthConfig}
    (h : userAuth sha256 hashed authType (some login) (some auth) = .success) :
    login.username = auth.username ∧ sha256 login.password = auth.passwordDigest := by
  simp only [userAuth] at h
  split_ifs at h with htype hname hhashed hpassword
  push Not at hname
  exact ⟨hname.2, hpassword⟩

section
variable {sha256 : List UInt8 → Digest} {s : Server ρ}

/-! ### What the operations keep -/

theorem Loaded.note {auth : AuthConfig} (h : Loaded auth s) {events : List (Event ρ)}
    (hkeep : ∀ e ∈ events, ∀ auth, noteLoaded auth e = auth) : Loaded auth (s.note events) :=
  ⟨h.1, (loadedAuth_append s.log hkeep).trans h.2⟩

theorem Loaded.moved {auth : AuthConfig} (h : Loaded auth s) (moves : List (Move Resource)) :
    Loaded auth (s.note (moves.map .moved)) := by
  refine h.note fun e he auth => ?_
  obtain ⟨move, -, rfl⟩ := List.mem_map.mp he
  rfl

theorem Loaded.shell {auth : AuthConfig} (h : Loaded auth s) (events : List Shell.Session.Event) :
    Loaded auth (s.note (events.map .shell)) :=
  h.note fun e he => (stays_shell e he).noteLoaded_eq

theorem guarded_free {log : List (Event ρ)} (h : Guarded (Justified sha256) log) {more : List (Event ρ)}
    (hfree : ∀ e ∈ more, required e = none) : Guarded (Justified sha256) (log ++ more) :=
  h.free fun e he before complete hc => by simp [hfree e he] at hc

theorem guarded_callbacks (h : Guarded (Justified sha256) s.log) (made : List Callback) :
    Guarded (Justified sha256) (s.callbacks sha256 made).log := by
  rw [Server.callbacks_eq]
  refine guarded_free h fun e he => ?_
  obtain ⟨c, -, rfl⟩ := List.mem_map.mp he
  cases c <;> rfl

theorem loaded_callbacks {auth : AuthConfig} (h : Loaded auth s) (made : List Callback) :
    Loaded auth (s.callbacks sha256 made) := by
  rw [Server.callbacks_eq]
  refine h.note fun e he auth => ?_
  obtain ⟨c, -, rfl⟩ := List.mem_map.mp he
  cases c <;> rfl

/-- Callbacks add to what has happened on the connection, but no handshake. -/
theorem Client.callbacks {auth : AuthConfig} {since : List (Event ρ)} (h : Client sha256 auth s since)
    (made : List Callback) : ∃ more, Client sha256 auth (s.callbacks sha256 made) (since ++ more) ∧
      handshakes (since ++ more) = handshakes since := by
  obtain ⟨hloaded, hunder⟩ := h
  have hauth : s.auth = some auth := hloaded.1
  refine ⟨made.map (Server.entry sha256 s.auth), ⟨loaded_callbacks hloaded made, ?_⟩, ?_⟩
  · rw [Server.callbacks_eq]
    refine ⟨?_, fun login hmem => ?_, fun hrequest => ?_⟩
    · refine connection_append hunder.connection_eq fun e he => ?_
      obtain ⟨c, -, rfl⟩ := List.mem_map.mp he
      cases c <;> trivial
    · rcases List.mem_append.mp hmem with hmem | hmem
      · exact hunder.logins login hmem
      · obtain ⟨c, -, hentry⟩ := List.mem_map.mp hmem
        cases c with
        | userAuth hashed authType data =>
          obtain ⟨rfl, hsuccess⟩ := Event.userAuth.inj hentry
          rw [hauth] at hsuccess
          exact login_of_success hsuccess
        | shellRequest channel => cases hentry
    · rcases Bool.or_eq_true_iff.mp hrequest with hbefore | hnow
      · exact List.mem_append_left _ (hunder.request hbefore)
      · obtain ⟨c, hc, hchannel⟩ := List.any_eq_true.mp hnow
        cases c with
        | userAuth hashed authType data => cases hchannel
        | shellRequest channel =>
          obtain rfl : channel = true := hchannel
          exact List.mem_append_right _ (List.mem_map.mpr ⟨_, hc, rfl⟩)
  · have hnone : handshakes (made.map (Server.entry sha256 s.auth) : List (Event ρ)) = 0 := by
      refine handshakes_eq_zero fun e he code => ?_
      obtain ⟨c, -, rfl⟩ := List.mem_map.mp he
      cases c <;> simp [Server.entry]
    rw [handshakes_append, hnone, Nat.add_zero]

theorem Joined.callbacks {complete : Code} (h : Joined sha256 complete s) (made : List Callback) :
    Joined sha256 complete (s.callbacks sha256 made) := by
  obtain ⟨auth, since, login, hclient, hlogin, hhandshake, hcount⟩ := h
  obtain ⟨more, hmore, hsame⟩ := hclient.callbacks made
  exact ⟨auth, since ++ more, login, hmore, List.mem_append_left _ hlogin,
    List.mem_append_left _ hhandshake, by rwa [hsame]⟩

theorem requested_callbacks (h : s.shellRequestAccepted = true) (made : List Callback) :
    (s.callbacks sha256 made).shellRequestAccepted = true := by
  rw [Server.callbacks_eq]
  exact Bool.or_eq_true_iff.mpr (.inl h)

/-- What a connection that is joined admits. -/
theorem Joined.admitted {complete : Code} (h : Joined sha256 complete s)
    (hrequest : complete = .success → s.shellRequestAccepted = true) :
    Admitted sha256 complete s.log := by
  obtain ⟨auth, since, login, hclient, hlogin, hhandshake, hcount⟩ := h
  obtain ⟨hloaded, hunder⟩ := hclient
  obtain ⟨hname, hpassword⟩ := hunder.logins login hlogin
  exact ⟨auth, since, login, hloaded.2, hunder.connection_eq, hlogin, hname, hpassword, hhandshake,
    hcount, fun hc => hunder.request (hrequest hc)⟩

theorem Joined.files {complete : Code} (h : Joined sha256 complete s) (fs : Storage.LittleFs.FileSystem) :
    Joined sha256 complete ({ s with device.fs := fs }.note [.files fs]) := by
  obtain ⟨auth, since, login, ⟨hloaded, hunder⟩, hlogin, hhandshake, hcount⟩ := h
  refine ⟨auth, since ++ [.files fs], login, ⟨?_, ?_, ?_, ?_⟩, List.mem_append_left _ hlogin,
    List.mem_append_left _ hhandshake, ?_⟩
  · exact Loaded.note (s := { s with device.fs := fs }) hloaded (by simp [noteLoaded])
  · exact connection_append hunder.connection_eq (by simp [Stays])
  · exact fun login hmem => hunder.logins login (by simpa using hmem)
  · exact fun hrequest => List.mem_append_left _ (hunder.request hrequest)
  · have hfiles : handshakes [(.files fs : Event ρ)] = 0 := rfl
    rwa [handshakes_append, hfiles, Nat.add_zero]

/-- The events of a shell are admitted as a whole. -/
theorem guarded_shell (h : Guarded (Justified sha256) s.log) (hadmitted : Admitted sha256 .success s.log)
    (events : List Shell.Session.Event) :
    Guarded (Justified sha256) (s.log ++ events.map .shell) := by
  apply h.covered
  intro before hbefore e he complete hc
  obtain ⟨event, -, rfl⟩ := List.mem_map.mp he
  obtain rfl : Code.success = complete := by simpa [required] using hc
  refine hadmitted.append (fun e he => stays_shell e (hbefore.subset he)) fun e he code => ?_
  obtain ⟨event, -, rfl⟩ := List.mem_map.mp (hbefore.subset he)
  simp

/-! ### The stages -/

theorem sound_goTo (hguarded : Guarded (Justified sha256) s.log) {stage : Stage ρ}
    (hstage : StageOk sha256 s stage) : Sound sha256 (s.goTo stage) := by
  refine ⟨hguarded, fun stage' htask => ?_⟩
  obtain rfl : stage = stage' := Option.some_inj.mp htask
  cases stage with
  | connected listener client phase => cases phase <;> exact hstage
  | _ => exact hstage

theorem sound_delete (hguarded : Guarded (Justified sha256) s.log) (held : List Resource) :
    Sound sha256 (s.delete held) := by
  refine ⟨guarded_free hguarded fun e he => ?_, fun stage htask => by cases htask⟩
  obtain ⟨r, -, rfl⟩ := List.mem_map.mp he
  rfl

theorem sound_loop (hguarded : Guarded (Justified sha256) s.log) (hloaded : ∃ auth, Loaded auth s)
    (listener : Nat) : Sound sha256 (s.loop listener) := by
  unfold Server.loop
  split
  · exact sound_goTo hguarded hloaded
  · exact sound_delete hguarded _

theorem sound_closing (hguarded : Guarded (Justified sha256) s.log) (hloaded : ∃ auth, Loaded auth s)
    (listener client : Nat) : Sound sha256 (s.goTo (.connected listener client .closing)) :=
  sound_goTo hguarded ⟨hloaded, trivial⟩

theorem sound_awaitShell (hguarded : Guarded (Justified sha256) s.log) (hloaded : ∃ auth, Loaded auth s)
    (hjoined : Joined sha256 .success s) (listener client : Nat) :
    Sound sha256 (awaitShell s listener client) := by
  refine sound_goTo hguarded ⟨hloaded, ?_⟩
  by_cases hrequest : s.shellRequestAccepted = true
  · rw [if_pos hrequest]
    exact ⟨hjoined, hrequest⟩
  · rw [if_neg hrequest]
    exact hjoined

/-- A turn of the handshake, whose end wolfSSH vouches for. -/
theorem sound_handshake {attempts : Nat} {auth : AuthConfig} {since : List (Event ρ)}
    (hguarded : Guarded (Justified sha256) s.log) (hclient : Client sha256 auth s since)
    (hcount : handshakes since = attempts) (hlt : attempts < maxHandshakeAttempts) {served : Served}
    (hvouched : served.result = .success ∨ served.result = .sftpComplete → LoggedIn s.log)
    (listener client : Nat) : Sound sha256 (handshake s listener client attempts served) := by
  have hguarded' : Guarded (Justified sha256) (s.note [.handshake served.result]).log :=
    guarded_free hguarded (by simp [required])
  have hclient' : Client sha256 auth (s.note [.handshake served.result])
      (since ++ [.handshake served.result]) := by
    refine ⟨hclient.1.note (by simp [noteLoaded]), connection_append hclient.2.connection_eq (by simp [Stays]), ?_, ?_⟩
    · exact fun login hmem => hclient.2.logins login (by simpa using hmem)
    · exact fun hrequest => List.mem_append_left _ (hclient.2.request hrequest)
  have hcount' : handshakes (since ++ [.handshake served.result]) = attempts + 1 := by
    rw [handshakes_append, hcount]
    rfl
  have hloaded : ∃ auth, Loaded auth (s.note [.handshake served.result]) := ⟨auth, hclient'.1⟩
  have hjoined : served.result = .success ∨ served.result = .sftpComplete →
      Joined sha256 served.result (s.note [.handshake served.result]) := by
    intro hend
    obtain ⟨since', login, hconn, hlogin⟩ := hvouched hend
    obtain rfl : since = since' := Option.some_inj.mp (hclient.2.connection_eq.symm.trans hconn)
    exact ⟨auth, _, login, hclient', List.mem_append_left _ hlogin, by simp, by omega⟩
  unfold handshake
  split_ifs with hsuccess hsftp hpending
  · exact sound_awaitShell hguarded' hloaded (hsuccess ▸ hjoined (.inl hsuccess)) listener client
  · exact sound_goTo hguarded' ⟨hloaded, hsftp ▸ hjoined (.inr hsftp)⟩
  · exact sound_goTo hguarded' ⟨hloaded, hpending.2, auth, _, hclient', hcount'⟩
  · exact sound_closing hguarded' hloaded listener client

theorem phaseOk_sftp (h : Joined sha256 .sftpComplete s) (served : Served) :
    PhaseOk sha256 s (sftpPhase served) := by
  rcases sftpPhase_cases (ρ := ρ) served with hphase | ⟨result, hphase⟩
  · rw [hphase]
    trivial
  · rw [hphase]
    exact h

theorem sound_sftp (h : Sound sha256 s) (hloaded : ∃ auth, Loaded auth s)
    (hjoined : Joined sha256 .sftpComplete s) (listener client : Nat) (result : Code) (turn : SftpTurn) :
    Sound sha256 (sftp sha256 s listener client result turn) := by
  have hguarded := guarded_callbacks h.guarded turn.served.callbacks
  have hloaded' : ∃ auth, Loaded auth (s.callbacks sha256 turn.served.callbacks) :=
    hloaded.imp fun _ hl => loaded_callbacks hl _
  have hjoined' := hjoined.callbacks turn.served.callbacks
  unfold sftp
  split_ifs
  · have hfiles := hjoined'.files turn.files
    have hadmitted : Admitted sha256 .sftpComplete (s.callbacks sha256 turn.served.callbacks).log :=
      hjoined'.admitted fun hc => by cases hc
    have hguarded' : Guarded (Justified sha256) ((s.callbacks sha256 turn.served.callbacks).log ++
        [.files turn.files]) := by
      apply hguarded.append
      intro before e after hcut complete hc
      obtain ⟨rfl, rfl, -⟩ : before = [] ∧ e = .files turn.files ∧ after = [] := by
        cases before with
        | nil => simpa [eq_comm] using hcut
        | cons e' before => simp at hcut
      obtain rfl : Code.sftpComplete = complete := by simpa [required] using hc
      rwa [List.append_nil]
    obtain ⟨auth, hl⟩ := hloaded'
    have hkeeps : ∀ e ∈ [(.files turn.files : Event ρ)], ∀ auth, noteLoaded auth e = auth := by
      simp [noteLoaded]
    have hloaded'' := Loaded.note (s := { s.callbacks sha256 turn.served.callbacks with
      device.fs := turn.files }) hl hkeeps
    exact sound_goTo hguarded' ⟨⟨auth, hloaded''⟩, phaseOk_sftp hfiles turn.served⟩
  · exact sound_closing h.guarded hloaded listener client
  · exact h
  · exact sound_goTo hguarded ⟨hloaded', phaseOk_sftp hjoined' turn.served⟩

theorem sound_shell {services : DeviceServices (Device ρ)}
    (hguarded : Guarded (Justified sha256) s.log) (hloaded : ∃ auth, Loaded auth s)
    (hjoined : Joined sha256 .success s) (hrequest : s.shellRequestAccepted = true)
    (listener client : Nat) (session : Shell.Session.State (Device ρ)) (result : StreamRead) :
    Sound sha256 (shell services s listener client session result) := by
  unfold shell
  split
  · exact sound_goTo hguarded ⟨hloaded, hjoined, hrequest⟩
  next finished _ =>
    have hguarded' := guarded_shell hguarded (hjoined.admitted fun _ => hrequest) finished.events
    obtain ⟨auth, hl⟩ := hloaded
    have hloaded' := Loaded.shell (s := { s with device := finished.device }) hl finished.events
    exact sound_closing (s := { s with device := finished.device }.note _) hguarded' ⟨auth, hloaded'⟩
      listener client

/-- The service of a client, where wolfSSH vouches for the end of the handshake. -/
theorem sound_serve {services : DeviceServices (Device ρ)} (h : Sound sha256 s)
    {listener client : Nat} {phase : Phase ρ} (htask : s.task = some (.connected listener client phase))
    {answer : Answer} (hvouched : ∀ served attempts, answer = .served served →
      phase = .handshake attempts → served.result = .success ∨ served.result = .sftpComplete →
      LoggedIn (s.callbacks sha256 served.callbacks).log) :
    Sound sha256 (serve sha256 services s listener client phase answer) := by
  obtain ⟨hloaded, hphase⟩ := h.stage _ htask
  have hcalls : ∀ made, Guarded (Justified sha256) (s.callbacks sha256 made).log :=
    guarded_callbacks h.guarded
  have hloads : ∀ made, ∃ auth, Loaded auth (s.callbacks sha256 made) := fun made =>
    hloaded.imp fun _ hl => loaded_callbacks hl made
  unfold serve
  split
  case h_1 attempts served =>
    obtain ⟨hlt, auth, since, hclient, hcount⟩ := hphase
    obtain ⟨more, hmore, hsame⟩ := hclient.callbacks served.callbacks
    exact sound_handshake (hcalls _) hmore (hsame.trans hcount) hlt (hvouched served attempts rfl rfl)
      listener client
  case h_2 ok =>
    refine sound_goTo h.guarded ⟨hloaded, ?_⟩
    cases ok
    · trivial
    · exact hphase
  case h_3 result turn => exact sound_sftp h hloaded hphase listener client result turn
  case h_4 served =>
    unfold worker
    split_ifs
    · exact sound_awaitShell (hcalls _) (hloads _) (Joined.callbacks hphase _) listener client
    · exact sound_closing (hcalls _) (hloads _) listener client
  case h_5 ok =>
    unfold allocated
    split_ifs
    · exact sound_goTo h.guarded ⟨hloaded, hphase⟩
    · exact sound_closing (guarded_shell h.guarded (hphase.1.admitted fun _ => hphase.2) _)
        (hloaded.imp fun _ hl => hl.shell _) listener client
  case h_6 session made result =>
    exact sound_shell (hcalls _) (hloads _) (hphase.1.callbacks made) (requested_callbacks hphase.2 made)
      listener client session result
  case h_7 served =>
    refine sound_loop (guarded_free (hcalls _) (by simp [required])) ?_ listener
    exact (hloads _).imp fun _ hl => hl.moved [_, _]
  case h_8 => exact h

theorem sound_begin (hguarded : Guarded (Justified sha256) s.log) (initialized : Bool) :
    Sound sha256 (begin s initialized) := by
  have hload : Guarded (Justified sha256) (load s).log := guarded_free hguarded (by simp [required])
  unfold begin
  split
  next hboth =>
    obtain ⟨auth, hauth⟩ := Option.isSome_iff_exists.mp hboth.1
    refine sound_goTo (guarded_free hload (by simp [required])) ⟨auth, hauth, ?_⟩
    simp [load, Server.take, Server.note, hauth, loadedAuth, noteLoaded]
  next => exact sound_delete hload _

theorem sound_advance {services : DeviceServices (Device ρ)} (h : Sound sha256 s) {stage : Stage ρ}
    (htask : s.task = some stage) {answer : Answer}
    (hvouched : ∀ served listener client attempts, answer = .served served →
      stage = .connected listener client (.handshake attempts) →
      served.result = .success ∨ served.result = .sftpComplete →
      LoggedIn (s.callbacks sha256 served.callbacks).log) :
    Sound sha256 (advance sha256 services s stage answer) := by
  have hstage := h.stage _ htask
  have hmoved : ∀ move, Guarded (Justified sha256) (s.note [.moved move]).log := fun move =>
    guarded_free h.guarded (by simp [required])
  unfold advance
  split
  case h_1 ok => exact sound_begin h.guarded ok
  case h_2 ok =>
    split
    · exact sound_goTo (hmoved _) (hstage.imp fun _ hl => hl.moved [_])
    · exact sound_delete h.guarded _
  case h_3 ok =>
    split
    · exact sound_goTo h.guarded hstage
    · exact sound_delete h.guarded _
  case h_4 listener => exact sound_goTo (hmoved _) (hstage.imp fun _ hl => hl.moved [_])
  case h_5 => exact sound_delete h.guarded _
  case h_6 listener bind listen =>
    split
    · exact sound_loop h.guarded hstage listener
    · exact sound_delete h.guarded _
  case h_7 listener client => exact sound_goTo (hmoved _) (hstage.imp fun _ hl => hl.moved [_])
  case h_8 listener => exact sound_loop h.guarded hstage listener
  case h_9 listener client ok =>
    split
    · obtain ⟨auth, hloaded⟩ := hstage
      have hnew : Loaded auth (s.take .session) := hloaded.moved [_]
      refine sound_goTo (s := { s.take .session with shellRequestAccepted := false }) (hmoved _)
        ⟨⟨auth, hnew⟩, by decide, auth, [], ⟨hnew, connection_taken s.log, ?_, ?_⟩, rfl⟩
      · exact fun login hmem => by cases hmem
      · exact fun hrequest => by cases hrequest
    · exact sound_loop (hmoved _) (hstage.imp fun _ hl => hl.moved [_]) listener
  case h_10 listener client phase =>
    refine sound_serve h htask fun served attempts hanswer hphase hend => ?_
    subst hphase
    exact hvouched served listener client attempts hanswer rfl hend
  case h_11 => exact h

theorem guarded_history (h : Sound sha256 s) : Guarded (Justified sha256) s.history := by
  unfold Server.history
  split
  next listener client session htask =>
    obtain ⟨-, hjoined, hrequest⟩ := h.stage _ htask
    exact guarded_shell h.guarded (hjoined.admitted fun _ => hrequest) _
  next => exact h.guarded

theorem sound_step {services : DeviceServices (Device ρ)} (h : Sound sha256 s) {input : Input ρ}
    (hvouched : ∀ served listener client attempts, input = .answer (.served served) →
      s.task = some (.connected listener client (.handshake attempts)) →
      served.result = .success ∨ served.result = .sftpComplete →
      LoggedIn (s.callbacks sha256 served.callbacks).log) :
    Sound sha256 (step sha256 services s input) := by
  cases input with
  | startAfterWifi created =>
    show Sound sha256 (startAfterWifi s created)
    unfold startAfterWifi
    split
    · exact h
    · refine ⟨h.guarded, fun stage htask => ?_⟩
      cases created with
      | false => cases htask
      | true =>
        obtain rfl : Stage.starting = stage := Option.some_inj.mp htask
        trivial
  | answer a =>
    rcases step_answer sha256 services s a with hsame | ⟨stage, htask, hstep⟩
    · rwa [hsame]
    · rw [hstep]
      refine sound_advance h htask fun served listener client attempts hanswer hstage => ?_
      exact hvouched served listener client attempts (by rw [hanswer]) (by rw [htask, hstage])
  | restart rest =>
    refine ⟨guarded_free (guarded_history h) ?_, fun stage htask => by cases htask⟩
    simp [required]

end

/-- In every run in which wolfSSH vouches for the logins, whatever a shell does and every change of a
file by SFTP stands behind a login of its own connection, with the name and the password of the
credentials that were loaded since the last restart, and behind at most 300 calls for the handshake; a
shell stands behind a request for one besides. -/
theorem server_access (sha256 : List UInt8 → Digest) (services : DeviceServices (Device ρ))
    (device : Device ρ) (inputs : List (Input ρ)) (hvouches : Vouches sha256 services device inputs) :
    ∀ before e after complete,
      (afterInputs sha256 services device inputs).history = before ++ e :: after →
      required e = some complete → Admitted sha256 complete before := by
  have hsound : Sound sha256 (afterInputs sha256 services device inputs) := by
    refine after_induction (P := fun _ s => Sound sha256 s)
      (C := fun past x => Taken inputs past x) ⟨guarded_nil, fun stage htask => by cases htask⟩ ?_
      fun past x htaken => htaken
    intro past x hpast htaken
    refine sound_step hpast fun served listener client attempts hx htask hend => ?_
    subst hx
    exact hvouches past served listener client attempts htaken htask hend
  intro before e after complete hcut hrequired
  exact guarded_history hsound before e after hcut complete hrequired

theorem vouches_visit : Vouches sha256 silentServices adminDevice visit := by
  intro past served listener client attempts htaken s htask hend
  have hlogin : userAuth sha256 true .password (some admin)
      (some ⟨lit "admin", sha256 (lit "secret"), [1, 2, 3]⟩) = .success :=
    (userAuth_eq_success_iff ..).mpr ⟨rfl, rfl⟩
  -- the one answer to `wolfSSH_accept` is the ninth input
  iterate 8
    replace htaken := taken_cons_ne htaken (by simp)
    obtain ⟨_, rfl, htaken⟩ := htaken
  rcases taken_cons_cases htaken with ⟨rfl, hx⟩ | ⟨_, rfl, hlate⟩
  · cases hx
    refine ⟨[.userAuth (some admin) (userAuth sha256 true .password (some admin)
      (some ⟨lit "admin", sha256 (lit "secret"), [1, 2, 3]⟩)), .shellRequest true], admin, rfl, ?_⟩
    rw [hlogin]
    exact List.mem_cons_self
  · iterate 2
      replace hlate := taken_cons_ne hlate (by simp)
      obtain ⟨_, rfl, hlate⟩ := hlate
    exact absurd hlate not_taken_nil

theorem visit_requires : (afterInputs sha256 silentServices adminDevice visit).history.any
    (fun e => (required e).isSome) = true := by decide +kernel

theorem server_access_visit : ∃ before e after complete,
    (afterInputs sha256 silentServices adminDevice visit).history = before ++ e :: after ∧
      required e = some complete ∧ Admitted sha256 complete before := by
  obtain ⟨e, hmem, hsome⟩ := List.any_eq_true.mp visit_requires
  obtain ⟨before, after, hcut⟩ := List.append_of_mem hmem
  obtain ⟨complete, hrequired⟩ := Option.isSome_iff_exists.mp hsome
  exact ⟨before, e, after, complete, hcut, hrequired,
    server_access sha256 silentServices adminDevice visit vouches_visit before e after complete hcut hrequired⟩

end Esp32Shell.Idf.SshAccess
