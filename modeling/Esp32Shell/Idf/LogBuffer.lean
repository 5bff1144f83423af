import Esp32Shell.Arduino.DeviceToolbox
import Esp32Shell.Library.CText
import Esp32Shell.Library.Ring
import Esp32Shell.Library.Run

/-!
# The log of the ESP-IDF image

The ring that `capture_vprintf` fills and `log_dump` prints, and the log rings of
both images as bounded queues. A block is not cleared before it is written again,
so an entry ends at its own terminator.
-/
namespace Esp32Shell.Idf.LogBuffer

open Esp32Shell.Library.CText Esp32Shell.Library.Ring Esp32Shell.Library.Run
open Arduino.DeviceToolbox (append accepted afterAppends count entryAt)

def kMaxEntries : Nat := 64
def kMaxMessageLength : Nat := 128

structure Buffer where
  entries : List (List UInt8)
  nextEntry : Nat
  entryCount : Nat
  capturing : Bool

def Buffer.empty : Buffer :=
  ⟨List.replicate kMaxEntries (List.replicate kMaxMessageLength 0), 0, 0, false⟩

/-- The loop that drops the line ends behind a message. -/
def stripped (message : Text) : Nat → Nat
  | 0 => 0
  | length + 1 =>
    if byteAt message length = 10 ∨ byteAt message length = 13 then stripped message length
    else length + 1

/-- What is written over a block. -/
def entered (message : Text) (length : Nat) (entry : List UInt8) : List UInt8 :=
  let bounded := if length < kMaxMessageLength - 1 then length else kMaxMessageLength - 1
  (memcpy entry message bounded).set bounded 0

/-- A call with all that the format and its arguments print; it answers with their length, or with
what the writer in front of it answers. -/
def capture_vprintf (previousVprintf : Option (List UInt8 → Int)) (formatted : List UInt8)
    (buffer : Buffer) : Buffer × Int :=
  let message := cString (snprintf kMaxMessageLength formatted)
  let answer := match previousVprintf with
    | some previous => previous formatted
    | none => formatted.length
  if buffer.capturing then (buffer, answer)
  else
    let length := stripped message message.length
    if length > 0 then
      (⟨buffer.entries.modify buffer.nextEntry (entered message length),
        (buffer.nextEntry + 1) % kMaxEntries,
        if buffer.entryCount < kMaxEntries then buffer.entryCount + 1 else buffer.entryCount, false⟩, answer)
    else ({ buffer with capturing := false }, answer)

/-- The header of `log_dump`. -/
def header (count : Nat) : Text :=
  snprintf 48 (lit "logs=count=" ++ decimal count ++ lit " capacity=" ++ decimal kMaxEntries)

/-- The lines of `log_dump`. -/
def log_dump (buffer : Buffer) : List Text :=
  let count := buffer.entryCount
  let first := (buffer.nextEntry + kMaxEntries - count) % kMaxEntries
  let snapshot := (List.range count).map fun index =>
    strncpy (List.replicate kMaxMessageLength 0)
      (cString (buffer.entries.getD ((first + index) % kMaxEntries) [])) (kMaxMessageLength - 1)
  header count :: snapshot.map cString

/-! ### The ring -/

/-- What is kept of a message: its first 127 bytes, without the line ends behind them. -/
def shown (formatted : List UInt8) : Text :=
  ((cString formatted).take (kMaxMessageLength - 1)).rdropWhile fun c => c = 10 ∨ c = 13

/-- The message that a call adds. -/
def captured (formatted : List UInt8) : Option Text :=
  if shown formatted = [] then none else some (shown formatted)

/-- The calls one after the other, each with what it prints. -/
def afterCaptures (previousVprintf : Option (List UInt8 → Int)) (calls : List (List UInt8)) : Buffer :=
  after (fun buffer formatted => (capture_vprintf previousVprintf formatted buffer).1) .empty calls

theorem take_stripped (message : Text) {length : Nat} (h : length ≤ message.length) :
    message.take (stripped message length) =
      (message.take length).rdropWhile fun c => c = 10 ∨ c = 13 := by
  induction length with
  | zero => simp [stripped]
  | succ length ih =>
    have hlast : byteAt message length = message[length] := by
      simp [byteAt, List.getElem?_eq_getElem h]
    rw [stripped, List.take_succ_eq_append_getElem h, ← hlast]
    split_ifs with hend
    · rw [ih (by omega), List.rdropWhile_concat_pos _ _ _ (by simpa using hend)]
    · rw [List.rdropWhile_concat_neg _ _ _ (by simpa using hend), hlast,
        ← List.take_succ_eq_append_getElem h]

theorem stripped_le (message : Text) (length : Nat) : stripped message length ≤ length := by
  induction length with
  | zero => exact Nat.le_refl 0
  | succ length ih =>
    rw [stripped]
    split_ifs <;> omega

/-- A message is read back up to the terminator written behind it, whatever the block held. -/
theorem cString_entered {message : Text} (hzero : 0 ∉ message) {length : Nat}
    (hle : length ≤ message.length) (hbound : length ≤ kMaxMessageLength - 1) (entry : List UInt8) :
    cString (entered message length entry) = message.take length := by
  have hlength : (message.take length).length = length := List.length_take_of_le hle
  have hend := cString_set_end (fun hmem => hzero (List.mem_of_mem_take hmem) : 0 ∉ message.take length)
    (entry.drop length)
  rw [hlength] at hend
  have hbounded : (if length < kMaxMessageLength - 1 then length else kMaxMessageLength - 1) = length := by
    split_ifs <;> omega
  rw [entered, hbounded, memcpy]
  exact hend

/-- What a call measures is the length of what is shown. -/
theorem take_measured {formatted : List UInt8} {message : Text}
    (h : message = cString (snprintf kMaxMessageLength formatted)) :
    message.take (stripped message message.length) = shown formatted := by
  rw [take_stripped message le_rfl, List.take_length, h, snprintf, cString_take]
  rfl

inductive CaptureStep (formatted : List UInt8) (buffer : Buffer) : Buffer → Prop where
  | drops (h : captured formatted = none) : CaptureStep formatted buffer buffer
  | enters (write : List UInt8 → List UInt8) (h : captured formatted = some (shown formatted))
      (hwrite : ∀ entry, cString (write entry) = shown formatted) :
      CaptureStep formatted buffer ⟨buffer.entries.modify buffer.nextEntry write,
        (buffer.nextEntry + 1) % kMaxEntries,
        if buffer.entryCount < kMaxEntries then buffer.entryCount + 1 else buffer.entryCount, false⟩

theorem capture_cases (previousVprintf : Option (List UInt8 → Int)) (formatted : List UInt8)
    {buffer : Buffer} (h : buffer.capturing = false) :
    CaptureStep formatted buffer (capture_vprintf previousVprintf formatted buffer).1 := by
  unfold capture_vprintf
  simp only [h, Bool.false_eq_true, if_false]
  generalize hmessage : cString (snprintf kMaxMessageLength formatted) = message
  have htake := take_measured hmessage.symm
  have hmeasured := stripped_le message message.length
  have hbound : message.length ≤ kMaxMessageLength - 1 := by
    rw [← hmessage, snprintf, cString_take]
    exact List.length_take_le _ _
  by_cases hpos : stripped message message.length > 0
  · rw [if_pos hpos]
    have hlength := congrArg List.length htake
    rw [List.length_take_of_le hmeasured] at hlength
    refine .enters _ (if_neg fun hempty => ?_) fun entry => ?_
    · rw [hempty, List.length_nil] at hlength
      omega
    · rw [← htake]
      exact cString_entered (hmessage ▸ zero_notMem_cString _) hmeasured (hmeasured.trans hbound) entry
  · rw [if_neg hpos]
    have hzero : stripped message message.length = 0 := by omega
    rw [hzero, List.take_zero] at htake
    have hsame : { buffer with capturing := false } = buffer := by rw [← h]
    rw [hsame]
    exact .drops (if_pos htake.symm)

theorem afterCaptures_snoc (previousVprintf : Option (List UInt8 → Int)) (calls : List (List UInt8))
    (formatted : List UInt8) : afterCaptures previousVprintf (calls ++ [formatted]) =
      (capture_vprintf previousVprintf formatted (afterCaptures previousVprintf calls)).1 :=
  after_snoc calls formatted

theorem holds_afterCaptures (previousVprintf : Option (List UInt8 → Int)) (calls : List (List UInt8)) :
    (afterCaptures previousVprintf calls).capturing = false ∧
      Holds kMaxEntries cString (afterCaptures previousVprintf calls).entries
        (afterCaptures previousVprintf calls).nextEntry (afterCaptures previousVprintf calls).entryCount
        (calls.filterMap captured) := by
  induction calls using List.reverseRecOn with
  | nil => exact ⟨rfl, holds_nil List.length_replicate⟩
  | append_singleton calls formatted ih =>
    obtain ⟨hidle, hring⟩ := ih
    have hcases := capture_cases previousVprintf formatted hidle
    rw [afterCaptures_snoc, List.filterMap_append]
    generalize (capture_vprintf previousVprintf formatted (afterCaptures previousVprintf calls)).1 = buffer
      at hcases
    cases hcases with
    | drops hnone =>
      rw [List.filterMap_cons_none hnone, List.filterMap_nil, List.append_nil]
      exact ⟨hidle, hring⟩
    | enters write hsome hwrite =>
      rw [List.filterMap_cons_some hsome, List.filterMap_nil]
      exact ⟨rfl, hring.push (by decide) fun entry _ => hwrite entry⟩

theorem length_of_captured {formatted : List UInt8} {text : Text} (h : captured formatted = some text) :
    text.length ≤ kMaxMessageLength - 1 := by
  unfold captured at h
  split_ifs at h
  cases h
  exact (List.rdropWhile_prefix _ _).length_le.trans (List.length_take_le _ _)

/-! ### The two rings -/

theorem log_dump_eq (previousVprintf : Option (List UInt8 → Int)) (calls : List (List UInt8)) :
    log_dump (afterCaptures previousVprintf calls) =
      header (min (calls.filterMap captured).length kMaxEntries) ::
        (calls.filterMap captured).rtake kMaxEntries := by
  have hring := (holds_afterCaptures previousVprintf calls).2
  unfold log_dump
  simp only
  rw [← hring.count_eq, ← hring.listed hring.first_of_behind []]
  refine congrArg (header _ :: ·) ?_
  rw [List.map_map]
  refine List.map_congr_left fun index hindex => ?_
  rw [Function.comp, cString_strncpy_zeros (zero_notMem_cString _)]
  refine List.take_of_length_le ?_
  have hmem : ∀ text ∈ (calls.filterMap captured).rtake kMaxEntries,
      text.length ≤ kMaxMessageLength - 1 := fun text htext => by
    obtain ⟨formatted, -, hsome⟩ := List.mem_filterMap.mp (List.mem_of_mem_drop htext)
    exact length_of_captured hsome
  rw [← hring.listed hring.first_of_behind []] at hmem
  exact hmem _ (List.mem_map_of_mem hindex)

/-- Either ring lists the last 64 of its messages in order, and nothing else. -/
theorem logs_bounded (messages : List (Option (List UInt8))) (previousVprintf : Option (List UInt8 → Int))
    (calls : List (List UInt8)) :
    ((List.range (count (afterAppends messages))).map (entryAt (afterAppends messages)) =
        (messages.filterMap accepted).rtake 64 ∧
      ∀ message, ((append (afterAppends messages) message).2 = false ↔ accepted message = none) ∧
        (accepted message = none → (append (afterAppends messages) message).1 = afterAppends messages)) ∧
      log_dump (afterCaptures previousVprintf calls) =
        header (min (calls.filterMap captured).length 64) :: (calls.filterMap captured).rtake 64 :=
  ⟨⟨Arduino.DeviceToolbox.entries_eq messages,
      fun message => Arduino.DeviceToolbox.append_refused (afterAppends messages) message⟩,
    log_dump_eq previousVprintf calls⟩

/-- An entry that is shorter than the one it overwrites shows nothing of it. -/
example : log_dump (capture_vprintf none (lit "up\r\n") ⟨[lit "old entry" ++ [0]], 0, 0, false⟩).1 =
    [lit "logs=count=1 capacity=64", lit "up"] := by decide

end Esp32Shell.Idf.LogBuffer
