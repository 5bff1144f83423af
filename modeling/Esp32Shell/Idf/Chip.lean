import Esp32Shell.Idf.SshServer
import Esp32Shell.Shell.LineReading

/-!
# The chip under the SSH server

`esp_restart()` does not return. A session reads nothing behind the line that
calls `reboot`, and the chip starts anew. Every run of the chip is one of the
server, so what holds of these holds of it; where nothing restarts, the chip
takes an input as the server does.
-/
namespace Esp32Shell.Idf.Chip

open Esp32Shell.Library.CText Esp32Shell.Library.Feed Esp32Shell.Library.Run Esp32Shell.Library.Sha256
open Shell.CommandCore Shell.LineReading
open Shell.Session (State Poll eventsOf stepByte stepPoll)
open CommandServices SshServer

variable {ρ σ : Type}

/-- `reboot` has been called in a session. -/
def restarts (events : List Shell.Session.Event) : Bool := events.contains (.called .reboot)

/-- What a session reads of some bytes: all, or those up to the ending of the line that calls `reboot`. -/
def reached (services : DeviceServices σ) (session : State σ) : List UInt8 → List UInt8
  | [] => []
  | b :: bytes =>
    match stepByte services session b with
    | .ok next => if restarts next.events then [b] else b :: reached services next bytes
    | .error finished => if restarts finished.events then [b] else b :: bytes

theorem reached_begins (services : DeviceServices σ) (session : State σ) (bytes : List UInt8) :
    reached services session bytes <+: bytes := by
  induction bytes generalizing session with
  | nil => exact List.prefix_rfl
  | cons b bytes ih =>
    have hone : [b] <+: b :: bytes := ⟨bytes, rfl⟩
    rw [reached]
    split
    · split
      · exact hone
      · exact (List.prefix_cons_inj b).mpr (ih _)
    · split
      · exact hone
      · exact List.prefix_rfl

/-- What the chip takes of an input. -/
def taken (services : DeviceServices (Device ρ)) (s : Server ρ) : Input ρ → Input ρ
  | .answer (.streamRead made (.received chunk)) =>
    match s.task with
    | some (.connected _ _ (.shell session)) =>
      .answer (.streamRead made (.received ⟨reached services session chunk.val,
        (reached_begins services session chunk.val).length_le.trans chunk.property⟩))
    | _ => .answer (.streamRead made (.received chunk))
  | input => input

theorem taken_answer (services : DeviceServices (Device ρ)) (s : Server ρ) (answer : Answer) :
    ∃ answer', taken services s (.answer answer) = .answer answer' := by
  unfold taken
  split
  · split
    · exact ⟨_, rfl⟩
    · exact ⟨_, rfl⟩
  · exact ⟨answer, rfl⟩

/-- `reboot` is called in the bytes of an input. -/
def restarting (services : DeviceServices (Device ρ)) (s : Server ρ) : Input ρ → Bool
  | .answer (.streamRead _ (.received chunk)) =>
    match s.task with
    | some (.connected _ _ (.shell session)) =>
      restarts (eventsOf (feed (stepByte services) session chunk.val))
    | _ => false
  | _ => false

/-- The chip by one input. What is in its memory behind a restart is given by `boot`. -/
def step (sha256 : List UInt8 → Digest) (services : DeviceServices (Device ρ)) (boot : Device ρ → ρ)
    (s : Server ρ) (input : Input ρ) : Server ρ :=
  let next := SshServer.step sha256 services s (taken services s input)
  if restarting services s input then restart next (boot next.current) else next

abbrev afterInputs (sha256 : List UInt8 → Digest) (services : DeviceServices (Device ρ))
    (boot : Device ρ → ρ) (device : Device ρ) (inputs : List (Input ρ)) : Server ρ :=
  after (step sha256 services boot) (powered device) inputs

/-! ### A run of the chip as one of the server -/

/-- The chip makes one step of the server, or that and a restart. -/
theorem step_cases (sha256 : List UInt8 → Digest) (services : DeviceServices (Device ρ))
    (boot : Device ρ → ρ) (s : Server ρ) (input : Input ρ) :
    let next := SshServer.step sha256 services s (taken services s input)
    step sha256 services boot s input = next ∨
      ∃ rest, step sha256 services boot s input = SshServer.step sha256 services next (.restart rest) := by
  intro next
  rw [step]
  split
  · exact .inr ⟨boot next.current, rfl⟩
  · exact .inl rfl

/-- Every run of the chip is a run of the server, with the restarts among the inputs. -/
theorem run_of_chip (sha256 : List UInt8 → Digest) (services : DeviceServices (Device ρ))
    (boot : Device ρ → ρ) (device : Device ρ) (inputs : List (Input ρ)) : ∃ inputs',
    afterInputs sha256 services boot device inputs = SshServer.afterInputs sha256 services device inputs' := by
  induction inputs using List.reverseRecOn with
  | nil => exact ⟨[], rfl⟩
  | append_singleton inputs input ih =>
    obtain ⟨inputs', hpast⟩ := ih
    have hlast : afterInputs sha256 services boot device (inputs ++ [input]) =
        step sha256 services boot (SshServer.afterInputs sha256 services device inputs') input := by
      rw [← hpast]
      exact after_snoc inputs input
    let past := SshServer.afterInputs sha256 services device inputs'
    rw [hlast]
    rcases step_cases sha256 services boot past input with hstep | ⟨rest, hstep⟩
    · exact ⟨inputs' ++ [taken services past input], hstep.trans (after_snoc _ _).symm⟩
    · refine ⟨inputs' ++ [taken services past input] ++ [.restart rest], hstep.trans ?_⟩
      rw [SshServer.afterInputs, after_snoc, after_snoc]

/-! ### Where nothing restarts -/

theorem runs_of_begins {events more : List Shell.Session.Event} (h : events <+: more)
    (hruns : restarts more = false) : restarts events = false :=
  Bool.eq_false_iff.mpr fun hrestarts => Bool.eq_false_iff.mp hruns
    (List.contains_iff_mem.mpr (h.subset (List.contains_iff_mem.mp hrestarts)))

theorem events_byte (services : DeviceServices σ) (s : State σ) (b : UInt8) :
    s.events <+: eventsOf (stepByte services s b) := by
  have hending : s.events <+: endingEvents services s b := by
    rw [endingEvents, List.append_assoc]
    exact List.prefix_append _ _
  have hcases := stepByte_cases services s b
  generalize stepByte services s b = next at hcases
  cases hcases with
  | edit s' hb hedits =>
    obtain ⟨output, hevents, -⟩ := hedits.events_eq
    exact ⟨_, hevents.symm⟩
  | swallow hb hf => exact List.prefix_append _ _
  | ending hb hc => exact hending.trans (List.prefix_append _ _)
  | closing hb hc => exact hending

/-- What a machine of sessions adds to the events in a step it adds in a run. -/
theorem events_feed {ι : Type} {next : State σ → ι → Except (Shell.Session.Finished σ) (State σ)}
    (hnext : ∀ s x, s.events <+: eventsOf (next s x)) (s : State σ) (inputs : List ι) :
    s.events <+: eventsOf (feed next s inputs) := by
  have hstep : ∀ s' x, s.events <+: s'.events → Holds (fun s' => s.events <+: s'.events)
      (fun f => s.events <+: f.events) (next s' x) := by
    intro s' x hs'
    have hx := hs'.trans (hnext s' x)
    cases hnext' : next s' x <;> rwa [hnext'] at hx
  have hall := feed_holds hstep List.prefix_rfl inputs
  cases hfed : feed next s inputs <;> rwa [hfed] at hall

/-- What the first step adds is added by the run. -/
theorem events_first {ι : Type} {next : State σ → ι → Except (Shell.Session.Finished σ) (State σ)}
    (hnext : ∀ s x, s.events <+: eventsOf (next s x)) (s : State σ) (x : ι) (inputs : List ι) :
    eventsOf (next s x) <+: eventsOf (feed next s (x :: inputs)) := by
  cases hx : next s x with
  | ok s' =>
    rw [feed_cons_ok _ hx]
    exact events_feed hnext s' inputs
  | error finished =>
    rw [feed_cons_error _ hx]

theorem events_poll (services : DeviceServices σ) (s : State σ) (poll : Poll) :
    s.events <+: eventsOf (stepPoll services s poll) := by
  rcases poll with _ | chunk | _ | _ | _
  · exact List.prefix_rfl
  · exact events_feed (events_byte services) s chunk.val
  · exact List.prefix_rfl
  · exact List.prefix_rfl
  · exact List.prefix_rfl

/-- Bytes that call no `reboot` are all read. -/
theorem reached_of_runs {services : DeviceServices σ} {session : State σ} {bytes : List UInt8}
    (h : restarts (eventsOf (feed (stepByte services) session bytes)) = false) :
    reached services session bytes = bytes := by
  induction bytes generalizing session with
  | nil => rfl
  | cons b bytes ih =>
    have hfirst := runs_of_begins (events_first (events_byte services) session b bytes) h
    rw [reached]
    cases hnext : stepByte services session b with
    | ok next =>
      rw [feed_cons_ok _ hnext] at h
      rw [hnext] at hfirst
      show (if restarts next.events = true then [b] else _) = _
      rw [if_neg (Bool.eq_false_iff.mp hfirst : ¬ restarts next.events = true), ih h]
    | error finished =>
      rw [hnext] at hfirst
      exact if_neg (Bool.eq_false_iff.mp hfirst)

section
variable (sha256 : List UInt8 → Digest) {services : DeviceServices (Device ρ)} (boot : Device ρ → ρ)
  {s : Server ρ}

theorem step_of_runs {input : Input ρ} (h : restarting services s input = false) :
    step sha256 services boot s input = SshServer.step sha256 services s input := by
  have htaken : taken services s input = input := by
    unfold taken
    split
    next made chunk =>
      split
      next listener client session htask =>
        have hbytes : restarts (eventsOf (feed (stepByte services) session chunk.val)) = false := by
          simpa only [restarting, htask] using h
        simp only [reached_of_runs hbytes]
      next => rfl
    next => rfl
  rw [step, htaken, h, if_neg Bool.false_ne_true]

/-- Only a session reads a line. -/
theorem step_at {stage : Stage ρ} (htask : s.task = some stage)
    (hstage : ∀ listener client session, stage ≠ .connected listener client (.shell session))
    (answer : Answer) :
    step sha256 services boot s (.answer answer) = advance sha256 services s stage answer := by
  have hruns : restarting services s (.answer answer) = false := by
    unfold restarting
    split
    next made chunk =>
      split
      next listener client session hshell =>
        rw [htask] at hshell
        exact absurd (Option.some_inj.mp hshell) (hstage listener client session)
      next => rfl
    next => rfl
  rw [step_of_runs sha256 boot hruns]
  simp only [SshServer.step, htask]

/-- A read of a session that calls no `reboot`. -/
theorem step_read {listener client : Nat} {session : State (Device ρ)}
    (htask : s.task = some (.connected listener client (.shell session))) (made : List Callback)
    {result : StreamRead}
    (h : restarts (eventsOf (stepPoll services session (.connected (read result)))) = false) :
    step sha256 services boot s (.answer (.streamRead made result)) =
      shell services (s.callbacks sha256 made) listener client session result := by
  have hruns : restarting services s (.answer (.streamRead made result)) = false := by
    cases result with
    | failed code => rfl
    | received chunk =>
      simp only [restarting, htask]
      simp only [SshServer.read] at h
      split at h
      next hempty =>
        rw [hempty]
        exact h
      next => exact h
  rw [step_of_runs sha256 boot hruns]
  simp only [SshServer.step, htask]
  rfl

end

/-- `heap` behind `reboot` in one read is lost, and the next start of the network finds no task. -/
example :
    let rebooting : List (Input Unit) := typing ⟨lit "reboot\rheap\r", by decide⟩
    let s := afterInputs sha256 silentServices (fun _ => ()) adminDevice rebooting
    s.task.isNone = true ∧ s.history.any (fun
      | .shell (.dispatched command) => command = lit "heap"
      | _ => false) = false := by decide +kernel

end Esp32Shell.Idf.Chip
