import Esp32Shell.Library.Register
import Esp32Shell.Shell.LineReading

/-!
# The memory of the line buffer

The loop of `ShellSession::run` over an array and a counter that nothing holds
together, with a log of what is done with them. It is the session over the
bounded buffer: no write leaves the array, and of what the array shows at a
dispatch everything was written since the counter was last reset.
-/
namespace Esp32Shell.Shell.LineMemory

open Esp32Shell.Library.CText Esp32Shell.Library.Feed Esp32Shell.Library.Register
open CommandCore CommandTable
open Session (carriageReturn lineFeed backspace del Event ShellSessionResult State Finished Chunk
  ShellRead Poll raw line prompt greeting dispatchEvents LineBuffer)

variable {σ : Type}

inductive Access where
  /-- `line[index] = ch`. -/
  | write (index : Nat) (ch : UInt8)
  /-- `used` behind `used++` or `--used`. -/
  | count (used : Nat)
  /-- `used = 0`: another line begins. -/
  | reset
  /-- `core_.dispatch(line.get(), ...)`. -/
  | dispatch (memory : List UInt8) (used : Nat)

structure Loop (σ : Type) where
  device : σ
  line : List UInt8
  used : Nat
  previousWasCarriageReturn : Bool
  events : List Event
  accesses : List Access

structure Ended (σ : Type) where
  finished : Finished σ
  accesses : List Access

/-! ### The code -/

def Loop.emit (s : Loop σ) (events : List Event) : Loop σ := { s with events := s.events ++ events }

def Loop.write (s : Loop σ) (index : Nat) (ch : UInt8) : Loop σ :=
  { s with line := s.line.set index ch, accesses := s.accesses ++ [.write index ch] }

def Loop.count (s : Loop σ) (used : Nat) : Loop σ :=
  { s with used := used, accesses := s.accesses ++ [.count used] }

def Loop.reset (s : Loop σ) : Loop σ := { s with used := 0, accesses := s.accesses ++ [.reset] }

def endLine (services : DeviceServices σ) (before : Loop σ) (ch : UInt8) :
    Except (Ended σ) (Loop σ) :=
  let s := (before.emit (raw [carriageReturn, lineFeed])).write before.used 0
  let d := dispatch services s.device (some s.line)
  let events := s.events ++ dispatchEvents (cString s.line) d
  let accesses := s.accesses ++ [.dispatch s.line s.used]
  if d.status = .sessionClosed then .error ⟨⟨.commandRequestedClose, d.device, events⟩, accesses⟩
  else
    .ok (({ s with
      device := d.device
      previousWasCarriageReturn := ch = carriageReturn
      events := events
      accesses := accesses } : Loop σ).reset.emit prompt)

def stepByte (services : DeviceServices σ) (before : Loop σ) (ch : UInt8) :
    Except (Ended σ) (Loop σ) :=
  let s := before.emit [.received ch]
  if ch = carriageReturn ∨ ch = lineFeed then
    if ch = lineFeed ∧ s.previousWasCarriageReturn then
      .ok { s with previousWasCarriageReturn := false }
    else endLine services s ch
  else if ch = backspace ∨ ch = del then
    if 0 < s.used then .ok ((s.count (s.used - 1)).emit (raw [backspace, space, backspace]))
    else .ok s
  else if s.used < maxCommandLength then
    let s := { s with previousWasCarriageReturn := false }
    .ok (((s.write s.used ch).count (s.used + 1)).emit (raw [ch, 0]))
  else
    let s := { s with previousWasCarriageReturn := false }
    .ok (s.reset.emit (line (lit "error: command is too long")))

def stepPoll (services : DeviceServices σ) (s : Loop σ) : Poll → Except (Ended σ) (Loop σ)
  | .connected (.data chunk) => feed (stepByte services) s chunk.val
  | .connected .wouldBlock => .ok s
  | .disconnected | .connected .closed | .connected .error =>
    .error ⟨⟨.closed, s.device, s.events⟩, s.accesses⟩

def opened (device : σ) : Loop σ where
  device := device
  line := List.replicate (maxCommandLength + 1) 0
  used := 0
  previousWasCarriageReturn := false
  events := greeting
  accesses := []

/-- `ShellSession::run`, as in the session over the bounded buffer. -/
def run (services : DeviceServices σ) (allocated : Bool) (device : σ) (polls : List Poll) :
    Except (Ended σ) (Loop σ) :=
  if allocated then feed (stepPoll services) (opened device) polls
  else .error ⟨⟨.error, device, greeting⟩, []⟩

/-! ### The log -/

def writtenAt (index : Nat) : Access → Option UInt8
  | .write i ch => if i = index then some ch else none
  | _ => none

def isReset : Access → Bool
  | .reset => true
  | _ => false

/-- The last byte that the current line has written at the index. -/
def current (index : Nat) (accesses : List Access) : Option UInt8 :=
  register (writtenAt index) isReset accesses

/-- The string that is handed to `dispatch`, after all these accesses. -/
structure Terminated (before : List Access) (memory : List UInt8) (used : Nat) : Prop where
  used_le : used ≤ maxCommandLength
  terminator : memory[used]? = some 0
  shown : (cString memory).length ≤ used
  written : ∀ i < used, ∃ ch, memory[i]? = some ch ∧ current i before = some ch
  /-- The length that `dispatch` compares. -/
  admitted : ¬ maxCommandLength < trimmedLength (stripped memory) (stripped memory).length

/-- What an access has to be after the ones before it. -/
def Access.Fits (before : List Access) : Access → Prop
  | .write index _ => index ≤ maxCommandLength
  | .count used => used ≤ maxCommandLength
  | .reset => True
  | .dispatch memory used => Terminated before memory used

def InBounds (accesses : List Access) : Prop :=
  ∀ before access after, accesses = before ++ access :: after → access.Fits before

theorem inBounds_nil : InBounds [] := by
  intro before access after h
  have hlength := congrArg List.length h
  simp at hlength

theorem InBounds.snoc {accesses : List Access} (h : InBounds accesses) {access : Access}
    (hfits : access.Fits accesses) : InBounds (accesses ++ [access]) := by
  intro before access' after hcut
  obtain ⟨-, rfl, rfl⟩ | ⟨rest, -, hbefore⟩ := snoc_cut hcut
  · exact hfits
  · exact h before access' rest hbefore

theorem InBounds.write {accesses : List Access} (h : InBounds accesses) {index : Nat}
    (hindex : index ≤ maxCommandLength) (ch : UInt8) : InBounds (accesses ++ [.write index ch]) :=
  h.snoc hindex

theorem InBounds.count {accesses : List Access} (h : InBounds accesses) {used : Nat}
    (hused : used ≤ maxCommandLength) : InBounds (accesses ++ [.count used]) := h.snoc hused

theorem InBounds.dispatch {accesses : List Access} (h : InBounds accesses) {memory : List UInt8}
    {used : Nat} (hmemory : Terminated accesses memory used) :
    InBounds (accesses ++ [.dispatch memory used]) := h.snoc hmemory

theorem current_snoc (index : Nat) (accesses : List Access) (access : Access) :
    current index (accesses ++ [access]) =
      registerStep (writtenAt index) isReset (current index accesses) access :=
  register_snoc _ _ _ _

theorem current_write_self (index : Nat) (ch : UInt8) (accesses : List Access) :
    current index (accesses ++ [.write index ch]) = some ch := by
  simp [current_snoc, registerStep, writtenAt]

theorem current_write_ne {index i : Nat} (h : i ≠ index) (ch : UInt8) (accesses : List Access) :
    current index (accesses ++ [.write i ch]) = current index accesses := by
  simp [current_snoc, registerStep, writtenAt, isReset, h]

theorem current_count (index used : Nat) (accesses : List Access) :
    current index (accesses ++ [.count used]) = current index accesses := by
  simp [current_snoc, registerStep, writtenAt, isReset]

/-! ### The session over the bounded buffer -/

/-- The loop in the state of a session. -/
def Loop.of (t : State σ) (accesses : List Access) : Loop σ where
  device := t.device
  line := t.buffer.line
  used := t.buffer.used
  previousWasCarriageReturn := t.previousWasCarriageReturn
  events := t.events
  accesses := accesses

/-- What the log says of a line buffer: all accesses fit, and the characters in use are the current line's. -/
structure Logged (accesses : List Access) (b : LineBuffer) : Prop where
  inBounds : InBounds accesses
  written : ∀ i < b.used, current i accesses = b.line[i]?

/-- The loop goes on as the session does. -/
def Runs (s : Loop σ) (t : State σ) : Prop := ∃ accesses, s = .of t accesses ∧ Logged accesses t.buffer

def Ends (e : Ended σ) (f : Finished σ) : Prop := e.finished = f ∧ InBounds e.accesses

variable {accesses : List Access} {b : LineBuffer}

theorem logged_empty : Logged [] .empty := ⟨inBounds_nil, fun _ hi => absurd hi (Nat.not_lt_zero _)⟩

theorem Logged.push (h : Logged accesses b) (ch : UInt8) (hused : b.used < maxCommandLength) :
    Logged (accesses ++ [.write b.used ch] ++ [.count (b.used + 1)]) (b.push ch hused) where
  inBounds := (h.inBounds.write b.used_le ch).count hused
  written i hi := by
    rw [current_count]
    show current i (accesses ++ [.write b.used ch]) = (b.line.set b.used ch)[i]?
    by_cases he : i = b.used
    · rw [he, current_write_self, List.getElem?_set_self b.used_lt_size]
    · have hlt : i < b.used := Nat.lt_of_le_of_ne (Nat.le_of_lt_succ hi) he
      rw [current_write_ne (Ne.symm he), List.getElem?_set_ne (Ne.symm he), h.written i hlt]

theorem Logged.erase (h : Logged accesses b) : Logged (accesses ++ [.count (b.used - 1)]) b.erase where
  inBounds := h.inBounds.count b.erase.used_le
  written i hi := by
    have hlt : i < b.used := Nat.lt_of_lt_of_le hi (Nat.sub_le _ _)
    rw [current_count, h.written i hlt]
    rfl

theorem Logged.reset (h : InBounds accesses) : Logged (accesses ++ [.reset]) b.reset :=
  ⟨h.snoc trivial, fun _ hi => absurd hi (Nat.not_lt_zero _)⟩

theorem trimmedLength_le (command : Text) (length : Nat) : trimmedLength command length ≤ length := by
  induction length with
  | zero => exact Nat.le_refl _
  | succ length ih =>
    rw [trimmedLength]
    split
    · exact ih.trans (Nat.le_succ length)
    · exact Nat.le_refl _

theorem cString_terminate_length (b : LineBuffer) : (cString b.terminate.line).length ≤ b.used := by
  have hshown : (cString b.text).length ≤ b.text.length := (List.takeWhile_prefix _).length_le
  rw [b.cString_terminate]
  rwa [b.text_length] at hshown

/-- The terminated buffer shows the characters in use, and these are not too many for `dispatch`. -/
theorem Logged.terminated (h : Logged accesses b) :
    Terminated (accesses ++ [.write b.used 0]) b.terminate.line b.used where
  used_le := b.used_le
  terminator := List.getElem?_set_self b.used_lt_size
  shown := cString_terminate_length b
  written i hi := by
    have hlt : i < b.line.length := hi.trans b.used_lt_size
    have hne : b.used ≠ i := Nat.ne_of_gt hi
    refine ⟨b.line[i], ?_, ?_⟩
    · show (b.line.set b.used 0)[i]? = some b.line[i]
      rw [List.getElem?_set_ne hne, List.getElem?_eq_getElem hlt]
    · rw [current_write_ne hne, h.written i hi, List.getElem?_eq_getElem hlt]
  admitted := by
    have htrimmed := trimmedLength_le (stripped b.terminate.line) (stripped b.terminate.line).length
    have hstripped : (stripped b.terminate.line).length ≤ (cString b.terminate.line).length :=
      (List.dropWhile_suffix _).length_le
    have hshown := cString_terminate_length b
    have hused := b.used_le
    omega

theorem endLine_agree (services : DeviceServices σ) (t : State σ) (ch : UInt8)
    (h : Logged accesses t.buffer) :
    Agree Runs Ends (endLine services (.of t accesses) ch) (Session.endLine services t ch) := by
  have hdispatch := (h.inBounds.write t.buffer.used_le 0).dispatch h.terminated
  by_cases hclosed : (dispatch services t.device (some t.buffer.terminate.line)).status = .sessionClosed
  · have hraw : endLine services (.of t accesses) ch = .error _ := if_pos hclosed
    have hsession : Session.endLine services t ch = .error _ := if_pos hclosed
    rw [hraw, hsession]
    exact ⟨rfl, hdispatch⟩
  · have hraw : endLine services (.of t accesses) ch = .ok _ := if_neg hclosed
    have hsession : Session.endLine services t ch = .ok _ := if_neg hclosed
    rw [hraw, hsession]
    exact ⟨_, rfl, Logged.reset hdispatch⟩

theorem stepByte_agree (services : DeviceServices σ) (s : Loop σ) (t : State σ) (ch : UInt8)
    (h : Runs s t) : Agree Runs Ends (stepByte services s ch) (Session.stepByte services t ch) := by
  obtain ⟨accesses, rfl, hlogged⟩ := h
  by_cases hend : ch = carriageReturn ∨ ch = lineFeed
  · by_cases hsecond : ch = lineFeed ∧ t.previousWasCarriageReturn = true
    · have hraw : stepByte services (.of t accesses) ch = .ok _ := (if_pos hend).trans (if_pos hsecond)
      have hsession : Session.stepByte services t ch = .ok _ := (if_pos hend).trans (if_pos hsecond)
      rw [hraw, hsession]
      exact ⟨accesses, rfl, hlogged⟩
    · have hraw : stepByte services (.of t accesses) ch = endLine services _ ch :=
        (if_pos hend).trans (if_neg hsecond)
      have hsession : Session.stepByte services t ch = Session.endLine services _ ch :=
        (if_pos hend).trans (if_neg hsecond)
      rw [hraw, hsession]
      exact endLine_agree services (t.emit [.received ch]) ch hlogged
  by_cases herase : ch = backspace ∨ ch = del
  · by_cases hused : 0 < t.buffer.used
    · have hraw : stepByte services (.of t accesses) ch = .ok _ :=
        ((if_neg hend).trans (if_pos herase)).trans (if_pos hused)
      have hsession : Session.stepByte services t ch = .ok _ :=
        ((if_neg hend).trans (if_pos herase)).trans (if_pos hused)
      rw [hraw, hsession]
      exact ⟨_, rfl, hlogged.erase⟩
    · have hraw : stepByte services (.of t accesses) ch = .ok _ :=
        ((if_neg hend).trans (if_pos herase)).trans (if_neg hused)
      have hsession : Session.stepByte services t ch = .ok _ :=
        ((if_neg hend).trans (if_pos herase)).trans (if_neg hused)
      rw [hraw, hsession]
      exact ⟨accesses, rfl, hlogged⟩
  by_cases hused : t.buffer.used < maxCommandLength
  · have hraw : stepByte services (.of t accesses) ch = .ok _ :=
      ((if_neg hend).trans (if_neg herase)).trans (if_pos hused)
    have hsession : Session.stepByte services t ch = .ok _ :=
      ((if_neg hend).trans (if_neg herase)).trans (dif_pos hused)
    rw [hraw, hsession]
    exact ⟨_, rfl, hlogged.push ch hused⟩
  · have hraw : stepByte services (.of t accesses) ch = .ok _ :=
      ((if_neg hend).trans (if_neg herase)).trans (if_neg hused)
    have hsession : Session.stepByte services t ch = .ok _ :=
      ((if_neg hend).trans (if_neg herase)).trans (dif_neg hused)
    rw [hraw, hsession]
    exact ⟨_, rfl, Logged.reset hlogged.inBounds⟩

theorem stepPoll_agree (services : DeviceServices σ) (s : Loop σ) (t : State σ) (poll : Poll)
    (h : Runs s t) : Agree Runs Ends (stepPoll services s poll) (Session.stepPoll services t poll) := by
  have hended : Ends ⟨⟨.closed, s.device, s.events⟩, s.accesses⟩ ⟨.closed, t.device, t.events⟩ := by
    obtain ⟨accesses, rfl, hlogged⟩ := h
    exact ⟨rfl, hlogged.inBounds⟩
  cases poll with
  | disconnected => exact hended
  | connected read =>
    cases read with
    | data chunk => exact feed_agree (stepByte_agree services) h chunk.val
    | wouldBlock => exact h
    | closed => exact hended
    | error => exact hended

/-- The loop over the array is the session over the bounded buffer, and its log is in bounds. -/
theorem run_agree (services : DeviceServices σ) (allocated : Bool) (device : σ) (polls : List Poll) :
    Agree Runs Ends (run services allocated device polls) (Session.run services allocated device polls) := by
  cases allocated with
  | false => exact ⟨rfl, inBounds_nil⟩
  | true =>
    have hopened : Runs (opened device) (Session.opened device) := ⟨[], rfl, logged_empty⟩
    exact feed_agree (stepPoll_agree services) hopened polls

/-- In every run of the loop, however its bytes are cut: the counter, the indices written and the strings
dispatched are in bounds, and no string is refused for its length. -/
theorem run_inBounds (services : DeviceServices σ) (allocated : Bool) (device : σ) (polls : List Poll) :
    Holds (fun s => s.used ≤ maxCommandLength ∧ s.line.length = maxCommandLength + 1 ∧
        InBounds s.accesses)
      (fun e => InBounds e.accesses) (run services allocated device polls) := by
  refine (run_agree services allocated device polls).holds (fun s t hruns => ?_) fun e f hends => hends.2
  obtain ⟨accesses, rfl, hlogged⟩ := hruns
  exact ⟨t.buffer.used_le, t.buffer.size_eq, hlogged.inBounds⟩

end Esp32Shell.Shell.LineMemory
