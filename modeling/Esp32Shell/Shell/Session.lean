import Esp32Shell.Library.Feed
import Esp32Shell.Shell.CommandCore

/-!
# The shell session

`ShellSession::run` reads chunks from a transport into a line buffer that is
never cleared, echoes, edits and dispatches. Every effect is an event of one
trace: bytes taken from the input, writes to the transport, and what `dispatch`
was given, called and returned.
-/
namespace Esp32Shell.Shell.Session

open Esp32Shell.Library.CText Esp32Shell.Library.Feed
open CommandCore

variable {σ : Type}

def carriageReturn : UInt8 := 13
def lineFeed : UInt8 := 10
def backspace : UInt8 := 8
def del : UInt8 := 0x7f

/-- `char[kMaxCommandLength + 1]` and the number of characters in use. -/
structure LineBuffer where
  line : List UInt8
  used : Nat
  size_eq : line.length = maxCommandLength + 1
  used_le : used ≤ maxCommandLength

namespace LineBuffer

/-- `new char[kMaxCommandLength + 1]()`. -/
def empty : LineBuffer where
  line := List.replicate (maxCommandLength + 1) 0
  used := 0
  size_eq := by simp
  used_le := Nat.zero_le _

/-- `line[used++] = ch`. -/
def push (b : LineBuffer) (ch : UInt8) (h : b.used < maxCommandLength) : LineBuffer where
  line := b.line.set b.used ch
  used := b.used + 1
  size_eq := by simp [b.size_eq]
  used_le := h

/-- `--used`. -/
def erase (b : LineBuffer) : LineBuffer where
  line := b.line
  used := b.used - 1
  size_eq := b.size_eq
  used_le := Nat.le_trans (Nat.sub_le _ _) b.used_le

/-- `line[used] = '\0'`. -/
def terminate (b : LineBuffer) : LineBuffer where
  line := b.line.set b.used 0
  used := b.used
  size_eq := by simp [b.size_eq]
  used_le := b.used_le

/-- `used = 0`. -/
def reset (b : LineBuffer) : LineBuffer where
  line := b.line
  used := 0
  size_eq := b.size_eq
  used_le := Nat.zero_le _

/-- The characters in use: the line as it is edited so far. -/
def text (b : LineBuffer) : Text := b.line.take b.used

theorem used_lt_size (b : LineBuffer) : b.used < b.line.length := by
  have h := b.used_le
  rw [b.size_eq]
  omega

theorem text_length (b : LineBuffer) : b.text.length = b.used := by
  have h := b.used_lt_size
  rw [text, List.length_take]
  omega

@[simp] theorem text_empty : empty.text = [] := rfl
@[simp] theorem text_reset (b : LineBuffer) : b.reset.text = [] := rfl

@[simp] theorem text_push (b : LineBuffer) (ch : UInt8) (h : b.used < maxCommandLength) :
    (b.push ch h).text = b.text ++ [ch] := by
  have hl : b.used < (b.line.set b.used ch).length := by
    rw [List.length_set]
    exact b.used_lt_size
  show (b.line.set b.used ch).take (b.used + 1) = b.line.take b.used ++ [ch]
  rw [List.take_succ_eq_append_getElem hl, List.take_set_of_le le_rfl, List.getElem_set_self]

@[simp] theorem text_erase (b : LineBuffer) : b.erase.text = b.text.dropLast := by
  rw [text, text, List.dropLast_take b.used_lt_size]
  rfl

/-- The terminated buffer shows the characters in use and nothing of an earlier line. -/
theorem cString_terminate (b : LineBuffer) : cString b.terminate.line = cString b.text := by
  have hl := b.used_lt_size
  have he : b.terminate.line = b.text ++ 0 :: b.line.drop (b.used + 1) := by
    show b.line.set b.used 0 = _
    rw [List.set_eq_take_append_cons_drop, if_pos hl, text]
  rw [he, cString_terminated]

end LineBuffer

inductive Event where
  | received (byte : UInt8)
  | wrote (bytes : List UInt8)
  | dispatched (command : Text)
  | called (call : ServiceCall)
  | returned (status : CommandStatus)
  deriving DecidableEq

inductive ShellSessionResult where
  | closed | error | commandRequestedClose
  deriving DecidableEq, Repr

structure State (σ : Type) where
  device : σ
  buffer : LineBuffer
  previousWasCarriageReturn : Bool
  events : List Event

/-- A finished `run`. -/
structure Finished (σ : Type) where
  result : ShellSessionResult
  device : σ
  events : List Event

/-- `SessionOutput::raw`: `transport_.write(text, strlen(text))`. -/
def raw (memory : List UInt8) : List Event := [.wrote (cString memory)]

/-- `SessionOutput::line`. -/
def line (text : Text) : List Event := raw text ++ raw [carriageReturn, lineFeed]

/-- `SessionOutput::prompt`. -/
def prompt : List Event := raw (lit "esp32shell>")

def State.emit (s : State σ) (events : List Event) : State σ := { s with events := s.events ++ events }

/-- The trace of one dispatch, in order: the string, the calls, their output, the status. -/
def dispatchEvents (command : Text) (d : Dispatched σ) : List Event :=
  .dispatched command :: d.calls.map .called ++ d.lines.flatMap line ++ [.returned d.status]

/-- A line ending that is not the second half of CR LF. -/
def endLine (services : DeviceServices σ) (s : State σ) (ch : UInt8) :
    Except (Finished σ) (State σ) :=
  let buffer := s.buffer.terminate
  let d := dispatch services s.device (some buffer.line)
  let events := s.events ++ raw [carriageReturn, lineFeed] ++ dispatchEvents (cString buffer.line) d
  if d.status = .sessionClosed then .error ⟨.commandRequestedClose, d.device, events⟩
  else .ok ⟨d.device, buffer.reset, ch = carriageReturn, events ++ prompt⟩

/-- The body of the loop over the bytes of one read. -/
def stepByte (services : DeviceServices σ) (before : State σ) (ch : UInt8) :
    Except (Finished σ) (State σ) :=
  let s := before.emit [.received ch]
  if ch = carriageReturn ∨ ch = lineFeed then
    if ch = lineFeed ∧ s.previousWasCarriageReturn then
      .ok { s with previousWasCarriageReturn := false }
    else endLine services s ch
  else if ch = backspace ∨ ch = del then
    if 0 < s.buffer.used then .ok ({ s with buffer := s.buffer.erase }.emit (raw [backspace, space, backspace]))
    else .ok s
  else if h : s.buffer.used < maxCommandLength then
    .ok ({ s with previousWasCarriageReturn := false, buffer := s.buffer.push ch h }.emit (raw [ch, 0]))
  else
    .ok ({ s with previousWasCarriageReturn := false, buffer := s.buffer.reset }.emit
      (line (lit "error: command is too long")))

/-- One read fills at most `uint8_t input[64]`. -/
abbrev Chunk := { bytes : List UInt8 // bytes.length ≤ 64 }

inductive ShellRead where
  | data (chunk : Chunk)
  | wouldBlock
  | closed
  | error

/-- One turn of `while (transport_.connected())`. -/
inductive Poll where
  | disconnected
  | connected (read : ShellRead)

def stepPoll (services : DeviceServices σ) (s : State σ) : Poll → Except (Finished σ) (State σ)
  | .connected (.data chunk) => feed (stepByte services) s chunk.val
  | .connected .wouldBlock => .ok s
  | .disconnected | .connected .closed | .connected .error => .error ⟨.closed, s.device, s.events⟩

def greeting : List Event :=
  line (lit "esp32shell ssh shell") ++ line (lit "Type 'help' for commands.") ++ prompt

def opened (device : σ) : State σ := ⟨device, .empty, false, greeting⟩

/-- `ShellSession::run`, as far as the polls so far take it. `allocated` is the outcome of the
allocation of the line buffer. -/
def run (services : DeviceServices σ) (allocated : Bool) (device : σ) (polls : List Poll) :
    Except (Finished σ) (State σ) :=
  if allocated then feed (stepPoll services) (opened device) polls
  else .error ⟨.error, device, greeting⟩

def eventsOf : Except (Finished σ) (State σ) → List Event
  | .ok s => s.events
  | .error f => f.events

end Esp32Shell.Shell.Session
