import Esp32Shell.Shell.CommandLines
import Esp32Shell.Shell.Session

/-!
# One conversation with two devices

Two devices that answer every call alike, and stay related, cannot be told apart
by lines or sessions: what is shown of one call is carried to any number of
whole conversations.
-/
namespace Esp32Shell.Shell.Twins

open Esp32Shell.Library.CText Esp32Shell.Library.Feed
open CommandCore CommandLines Session

variable {σ : Type} {R : σ → σ → Prop} {services : DeviceServices σ}

/-- Two replies that read alike and leave related devices. -/
structure Alike (R : σ → σ → Prop) (r r' : Reply σ) : Prop where
  device : R r.device r'.device
  lines : r.lines = r'.lines
  answer : r.answer = r'.answer

/-- A call does not tell related devices apart. -/
def Blind (services : DeviceServices σ) (R : σ → σ → Prop) (call : ServiceCall) : Prop :=
  ∀ d d', R d d' → Alike R (services.respond call d) (services.respond call d')

/-- The call that an action makes, if any. -/
def call : Action → Option ServiceCall
  | .say _ _ => none
  | .invoke call | .ask call => some call
  | .close => some .closeSession

/-- Two dispatches of one line that read alike. -/
structure SameDispatch (R : σ → σ → Prop) (done done' : Dispatched σ) : Prop where
  device : R done.device done'.device
  status : done.status = done'.status
  calls : done.calls = done'.calls
  lines : done.lines = done'.lines

theorem same_dispatch (input : List UInt8) (hblind : ∀ c, call (route input) = some c → Blind services R c)
    {d d' : σ} (h : R d d') :
    SameDispatch R (dispatch services d (some input)) (dispatch services d' (some input)) := by
  simp only [dispatch]
  generalize route input = action at hblind ⊢
  cases action with
  | say lines status => exact ⟨h, rfl, rfl, rfl⟩
  | invoke c =>
    have hc := hblind c rfl d d' h
    exact ⟨hc.device, rfl, rfl, hc.lines⟩
  | ask c =>
    have hc := hblind c rfl d d' h
    exact ⟨hc.device, by rw [Action.perform, Action.perform, hc.answer], rfl, hc.lines⟩
  | close =>
    have hc := hblind .closeSession rfl d d' h
    exact ⟨hc.device, rfl, rfl, hc.lines⟩

/-! ### Sessions -/

/-- Two sessions that have read and shown the same. -/
structure SameState (R : σ → σ → Prop) (s s' : State σ) : Prop where
  device : R s.device s'.device
  buffer : s.buffer = s'.buffer
  flag : s.previousWasCarriageReturn = s'.previousWasCarriageReturn
  events : s.events = s'.events

structure SameFinish (R : σ → σ → Prop) (f f' : Finished σ) : Prop where
  result : f.result = f'.result
  device : R f.device f'.device
  events : f.events = f'.events

theorem same_endLine (hblind : ∀ c, Blind services R c) {s s' : State σ} (h : SameState R s s')
    (ch : UInt8) : Agree (SameState R) (SameFinish R) (endLine services s ch) (endLine services s' ch) := by
  obtain ⟨device, buffer, flag, events⟩ := s
  obtain ⟨device', buffer', flag', events'⟩ := s'
  obtain ⟨hdevice, rfl, rfl, rfl⟩ := h
  have hdone := same_dispatch buffer.terminate.line (fun c _ => hblind c) hdevice
  have hevents : dispatchEvents (cString buffer.terminate.line)
      (dispatch services device (some buffer.terminate.line)) =
        dispatchEvents (cString buffer.terminate.line)
          (dispatch services device' (some buffer.terminate.line)) := by
    rw [dispatchEvents, dispatchEvents, hdone.calls, hdone.lines, hdone.status]
  simp only [endLine, hdone.status, hevents]
  split
  · exact ⟨rfl, hdone.device, rfl⟩
  · exact ⟨hdone.device, rfl, rfl, rfl⟩

theorem same_byte (hblind : ∀ c, Blind services R c) (s s' : State σ) (ch : UInt8)
    (h : SameState R s s') :
    Agree (SameState R) (SameFinish R) (stepByte services s ch) (stepByte services s' ch) := by
  have hreceived : SameState R (s.emit [.received ch]) (s'.emit [.received ch]) :=
    ⟨h.device, h.buffer, h.flag, by rw [State.emit, State.emit, h.events]⟩
  simp only [stepByte]
  generalize s.emit [.received ch] = t at hreceived
  generalize s'.emit [.received ch] = t' at hreceived
  by_cases hend : ch = carriageReturn ∨ ch = lineFeed
  · simp only [if_pos hend]
    rw [hreceived.flag]
    split
    · exact ⟨hreceived.device, hreceived.buffer, rfl, hreceived.events⟩
    · exact same_endLine hblind hreceived ch
  obtain ⟨device, buffer, flag, events⟩ := t
  obtain ⟨device', buffer', flag', events'⟩ := t'
  obtain ⟨hdevice, rfl, rfl, rfl⟩ := hreceived
  simp only [if_neg hend]
  by_cases herase : ch = backspace ∨ ch = del
  · simp only [if_pos herase]
    split <;> exact ⟨hdevice, rfl, rfl, rfl⟩
  · simp only [if_neg herase]
    split <;> exact ⟨hdevice, rfl, rfl, rfl⟩

theorem same_poll (hblind : ∀ c, Blind services R c) (s s' : State σ) (poll : Poll)
    (h : SameState R s s') :
    Agree (SameState R) (SameFinish R) (stepPoll services s poll) (stepPoll services s' poll) := by
  rcases poll with _ | chunk | _ | _ | _
  · exact ⟨rfl, h.device, h.events⟩
  · exact feed_agree (fun s t b hs => same_byte hblind s t b hs) h chunk.val
  · exact h
  · exact ⟨rfl, h.device, h.events⟩
  · exact ⟨rfl, h.device, h.events⟩

theorem same_run (hblind : ∀ c, Blind services R c) {d d' : σ} (h : R d d') (allocated : Bool)
    (polls : List Poll) :
    Agree (SameState R) (SameFinish R) (run services allocated d polls)
      (run services allocated d' polls) := by
  cases allocated with
  | true =>
    have hopened : SameState R (opened d) (opened d') := ⟨h, rfl, rfl, rfl⟩
    exact feed_agree (fun s t p hs => same_poll hblind s t p hs) hopened polls
  | false => exact ⟨rfl, h, rfl⟩

/-- The device that a session leaves behind. -/
def deviceOf : Except (Finished σ) (State σ) → σ
  | .ok s => s.device
  | .error f => f.device

/-- What a number of sessions show, one after the other. -/
def transcripts (services : DeviceServices σ) : σ → List (Bool × List Poll) → List (List Event)
  | _, [] => []
  | d, (allocated, polls) :: sessions =>
    let session := run services allocated d polls
    eventsOf session :: transcripts services (deviceOf session) sessions

theorem transcripts_same (hblind : ∀ c, Blind services R c) {d d' : σ} (h : R d d')
    (sessions : List (Bool × List Poll)) :
    transcripts services d sessions = transcripts services d' sessions := by
  induction sessions generalizing d d' with
  | nil => rfl
  | cons session sessions ih =>
    have hrun := same_run hblind h session.1 session.2
    rw [transcripts, transcripts]
    generalize run services session.1 d session.2 = ran at hrun ⊢
    generalize run services session.1 d' session.2 = ran' at hrun ⊢
    have hboth : eventsOf ran = eventsOf ran' ∧ R (deviceOf ran) (deviceOf ran') := by
      cases ran with
      | ok s =>
        cases ran' with
        | ok s' => exact ⟨hrun.events, hrun.device⟩
        | error f => exact hrun.elim
      | error f =>
        cases ran' with
        | ok s' => exact hrun.elim
        | error f' => exact ⟨hrun.events, hrun.device⟩
    rw [hboth.1, ih hboth.2]

end Esp32Shell.Shell.Twins
