import Esp32Shell.Shell.LineReading

/-!
# Cuts of the stream

However the transport cuts a stream into reads and wherever it would block, the
session goes through the same states. The trace of a session ends with the first
dispatch that closes it.
-/
namespace Esp32Shell.Shell.Chunking

open Esp32Shell.Library.CText Esp32Shell.Library.Feed
open CommandCore Session LineReading

variable {σ : Type}

/-- The bytes a turn of the loop takes from the transport; none when the turn ends the session. -/
def bytesOf : Poll → Option (List UInt8)
  | .connected (.data chunk) => some chunk.val
  | .connected .wouldBlock => some []
  | .disconnected | .connected .closed | .connected .error => none

/-- The bytes taken before the first turn that ends the session. -/
def received : List Poll → List UInt8
  | [] => []
  | poll :: polls =>
    match bytesOf poll with
    | some bytes => bytes ++ received polls
    | none => []

/-- Some turn ends the session. -/
def ended (polls : List Poll) : Bool := polls.any fun poll => (bytesOf poll).isNone

theorem stepPoll_some (services : DeviceServices σ) (s : State σ) {poll : Poll} {bytes : List UInt8}
    (h : bytesOf poll = some bytes) : stepPoll services s poll = feed (stepByte services) s bytes := by
  rcases poll with _ | _ | _ | _ | _ <;> cases h <;> rfl

theorem stepPoll_none (services : DeviceServices σ) (s : State σ) {poll : Poll}
    (h : bytesOf poll = none) : stepPoll services s poll = .error ⟨.closed, s.device, s.events⟩ := by
  rcases poll with _ | _ | _ | _ | _ <;> cases h <;> rfl

/-- A run whose input is over returns `Closed` unless it has returned before. -/
def finishedBy (ended : Bool) (s : State σ) : Except (Finished σ) (State σ) :=
  if ended then .error ⟨.closed, s.device, s.events⟩ else .ok s

/-- The loop over the polls is the loop over their bytes. -/
theorem feed_polls (services : DeviceServices σ) (s : State σ) (polls : List Poll) :
    feed (stepPoll services) s polls =
      (feed (stepByte services) s (received polls)).bind (finishedBy (ended polls)) := by
  induction polls generalizing s with
  | nil => rfl
  | cons poll polls ih =>
    cases h : bytesOf poll with
    | none =>
      have hr : received (poll :: polls) = [] := by simp only [received, h]
      have he : ended (poll :: polls) = true := by simp [ended, h]
      rw [feed_cons_error _ (stepPoll_none services s h), hr, he]
      rfl
    | some bytes =>
      have hr : received (poll :: polls) = bytes ++ received polls := by simp only [received, h]
      have he : ended (poll :: polls) = ended polls := by simp [ended, h]
      rw [feed_cons, stepPoll_some services s h, hr, he, feed_append]
      cases feed (stepByte services) s bytes with
      | error f => rfl
      | ok s' => exact ih s'

theorem run_eq (services : DeviceServices σ) (device : σ) (polls : List Poll) :
    run services true device polls =
      (feed (stepByte services) (opened device) (received polls)).bind (finishedBy (ended polls)) :=
  feed_polls services (opened device) polls

theorem eventsOf_run (services : DeviceServices σ) (device : σ) (polls : List Poll) :
    eventsOf (run services true device polls) =
      eventsOf (feed (stepByte services) (opened device) (received polls)) := by
  rw [run_eq]
  cases feed (stepByte services) (opened device) (received polls) with
  | error f => rfl
  | ok s =>
    show eventsOf (finishedBy (ended polls) s) = s.events
    cases ended polls <;> rfl

/-! ### Nothing follows a closing dispatch -/

def Open (events : List Event) : Prop := Event.returned .sessionClosed ∉ events

/-- A dispatch that closes the session is the last event. -/
def ClosesLast (events : List Event) : Prop :=
  ∀ before after, events = before ++ .returned .sessionClosed :: after → after = []

theorem Open.append {xs ys : List Event} (hx : Open xs) (hy : Open ys) : Open (xs ++ ys) :=
  fun h => (List.mem_append.mp h).elim hx hy

theorem Open.closesLast {events : List Event} (h : Open events) : ClosesLast events := by
  intro before after he
  refine absurd ?_ h
  simp [he]

theorem Open.closesLast_returned {events : List Event} (h : Open events) (status : CommandStatus) :
    ClosesLast (events ++ [.returned status]) := by
  intro before after he
  rcases snoc_cut he with ⟨hafter, -, -⟩ | ⟨rest, -, hevents⟩
  · exact hafter
  · exact absurd (by simp [hevents]) h

theorem open_of_quiet {events : List Event} (h : Quiet events) : Open events := by
  intro hm
  obtain ⟨bytes, hb⟩ := h _ hm
  cases hb

/-- The events of a dispatch before it returns. -/
theorem open_dispatchEvents (command : Text) (d : Dispatched σ) :
    ∃ inner, dispatchEvents command d = inner ++ [.returned d.status] ∧ Open inner := by
  refine ⟨.dispatched command :: d.calls.map .called ++ d.lines.flatMap line, rfl, ?_⟩
  have hq : Quiet (d.lines.flatMap line) := by
    intro e he
    obtain ⟨t, -, ht⟩ := List.mem_flatMap.mp he
    exact quiet_line t e ht
  have hcalls : Open (.dispatched command :: d.calls.map Event.called) := by simp [Open]
  exact hcalls.append (open_of_quiet hq)

theorem endingEvents_cut (services : DeviceServices σ) {s : State σ} (h : Open s.events) (b : UInt8) :
    ∃ inner, Open inner ∧ endingEvents services s b =
      inner ++ [.returned (dispatch services s.device (some s.buffer.text)).status] := by
  obtain ⟨inner, hd, hi⟩ := open_dispatchEvents (cString s.buffer.text)
    (dispatch services s.device (some s.buffer.text))
  have hbyte : Open [.received b] := by simp [Open]
  refine ⟨s.events ++ [.received b] ++ raw [carriageReturn, lineFeed] ++ inner,
    ((h.append hbyte).append (open_of_quiet (quiet_raw _))).append hi, ?_⟩
  simp [endingEvents, hd]

/-- One byte keeps the trace open, or ends it with the dispatch that closes the session. -/
theorem stepByte_closesLast (services : DeviceServices σ) (s : State σ) (b : UInt8)
    (h : Open s.events) :
    Holds (fun s' => Open s'.events) (fun f => ClosesLast f.events) (stepByte services s b) := by
  have hbyte : ∀ events, Open events → Open (s.events ++ .received b :: events) := fun events he =>
    h.append (by simpa [Open] using he)
  have hcases := stepByte_cases services s b
  generalize stepByte services s b = next at hcases
  cases hcases with
  | edit s' hb hedits =>
    obtain ⟨output, he, hq⟩ := hedits.events_eq
    show Open s'.events
    rw [he]
    exact hbyte output (open_of_quiet hq)
  | swallow hb hf =>
    subst hb
    exact hbyte [] (by simp [Open])
  | ending hb hc =>
    obtain ⟨inner, hi, hcut⟩ := endingEvents_cut services h b
    have hstatus : Open [.returned (dispatch services s.device (some s.buffer.text)).status] := by
      have hne := (closed_iff services s.device s.buffer.text).not.mpr (Bool.eq_false_iff.mp hc)
      simpa [Open, eq_comm] using hne
    show Open (endingEvents services s b ++ prompt)
    rw [hcut]
    exact (hi.append hstatus).append (open_of_quiet quiet_prompt)
  | closing hb hc =>
    obtain ⟨inner, hi, hcut⟩ := endingEvents_cut services h b
    show ClosesLast (endingEvents services s b)
    rw [hcut]
    exact hi.closesLast_returned _

theorem open_greeting : Open greeting :=
  ((open_of_quiet (quiet_line _)).append (open_of_quiet (quiet_line _))).append
    (open_of_quiet quiet_prompt)

theorem run_closesLast (services : DeviceServices σ) (allocated : Bool) (device : σ)
    (polls : List Poll) : ClosesLast (eventsOf (run services allocated device polls)) := by
  cases allocated with
  | false => exact open_greeting.closesLast
  | true =>
    rw [eventsOf_run]
    have h := feed_holds (stepByte_closesLast services) (s := opened device) open_greeting
      (received polls)
    cases hf : feed (stepByte services) (opened device) (received polls) with
    | ok s =>
      rw [hf] at h
      exact Open.closesLast h
    | error f =>
      rw [hf] at h
      exact h

/-- Two sessions that receive the same bytes, cut in any way, are the same session: the same
trace of dispatches, calls and writes, the same result. Nothing happens after a dispatch that
returns `SessionClosed`. -/
theorem run_chunking (services : DeviceServices σ) (allocated : Bool) (device : σ)
    (polls polls' : List Poll) (hbytes : received polls = received polls')
    (hend : ended polls = ended polls') :
    run services allocated device polls = run services allocated device polls' ∧
      ∀ before after, eventsOf (run services allocated device polls) =
        before ++ .returned .sessionClosed :: after → ∀ call, Event.called call ∉ after := by
  constructor
  · cases allocated with
    | false => rfl
    | true => rw [run_eq, run_eq, hbytes, hend]
  · intro before after h call
    rw [run_closesLast services allocated device polls before after h]
    exact List.not_mem_nil

def chunk (bytes : List UInt8) (h : bytes.length ≤ 64) : Poll := .connected (.data ⟨bytes, h⟩)

/-- `exit` CR LF `reboot` CR in one read, and with the CR LF cut by an idle turn. -/
theorem run_chunking_exit :
    let whole := [chunk (lit "exit\r\nreboot\r") (by decide), .disconnected]
    let cut := [chunk (lit "exit\r") (by decide), .connected .wouldBlock,
      chunk (lit "\nreboot\r") (by decide), .connected .closed]
    run Routing.silent true () whole = run Routing.silent true () cut ∧
      ∀ before after, eventsOf (run Routing.silent true () whole) =
        before ++ .returned .sessionClosed :: after → ∀ call, Event.called call ∉ after :=
  run_chunking Routing.silent true () _ _ (by decide) (by decide)

end Esp32Shell.Shell.Chunking
