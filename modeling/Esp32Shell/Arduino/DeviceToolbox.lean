import Esp32Shell.Library.CText
import Esp32Shell.Library.Ring
import Esp32Shell.Library.Run

/-!
# The log of the Arduino image

`BoundedLog` as a ring of memory blocks. A message that is longer than a block
is refused; every other one replaces the oldest.
-/
namespace Esp32Shell.Arduino.DeviceToolbox

open Esp32Shell.Library.CText Esp32Shell.Library.Ring Esp32Shell.Library.Run

def kMaxEntries : Nat := 64
def kMaxMessageLength : Nat := 96

structure BoundedLog where
  count_ : Nat
  next_ : Nat
  entries_ : List (List UInt8)

def BoundedLog.empty : BoundedLog :=
  ⟨0, 0, List.replicate kMaxEntries (List.replicate (kMaxMessageLength + 1) 0)⟩

/-- The loop that measures a message: it stops at the terminator, or behind the bound. -/
def measure : List UInt8 → Nat → Nat
  | [], length => length
  | c :: message, length =>
    if c ≠ 0 ∧ length ≤ kMaxMessageLength then measure message (length + 1) else length

/-- What `append` writes over a block. -/
def entered (message entry : List UInt8) : List UInt8 :=
  (strncpy entry (cString message) kMaxMessageLength).set kMaxMessageLength 0

/-- `none` is a null pointer. -/
def append (log : BoundedLog) (message : Option (List UInt8)) : BoundedLog × Bool :=
  match message with
  | none => (log, false)
  | some message =>
    if measure message 0 > kMaxMessageLength then (log, false)
    else
      (⟨if log.count_ < kMaxEntries then log.count_ + 1 else log.count_, (log.next_ + 1) % kMaxEntries,
        log.entries_.modify log.next_ (entered message)⟩, true)

def count (log : BoundedLog) : Nat := log.count_

/-- `at`. -/
def entryAt (log : BoundedLog) (index : Nat) : Text :=
  if index ≥ log.count_ then []
  else
    let first := if log.count_ = kMaxEntries then log.next_ else 0
    cString (log.entries_.getD ((first + index) % kMaxEntries) [])

/-! ### The ring -/

def next (log : BoundedLog) (message : Option (List UInt8)) : BoundedLog := (append log message).1

def afterAppends (messages : List (Option (List UInt8))) : BoundedLog := after next .empty messages

/-- The text of a message that is accepted. -/
def accepted (message : Option (List UInt8)) : Option Text :=
  (message.map cString).filter fun text => text.length ≤ kMaxMessageLength

theorem measure_eq (message : List UInt8) {length : Nat} (h : length ≤ kMaxMessageLength + 1) :
    measure message length = min (length + (cString message).length) (kMaxMessageLength + 1) := by
  induction message generalizing length with
  | nil => exact (Nat.min_eq_left h).symm
  | cons c message ih =>
    rw [measure]
    split_ifs with hc
    · rw [ih (by omega), cString_cons hc.1, List.length_cons]
      omega
    · rcases not_and_or.mp hc with hzero | hlong
      · rw [not_not.mp hzero, show cString (0 :: message) = [] from rfl, List.length_nil]
        omega
      · omega

theorem measure_le_iff (message : List UInt8) :
    measure message 0 > kMaxMessageLength ↔ ¬ (cString message).length ≤ kMaxMessageLength := by
  rw [measure_eq message (Nat.zero_le _)]
  omega

/-- A message that fits in its block is read back whole, whatever the block held. -/
theorem cString_entered {message : List UInt8} (h : (cString message).length ≤ kMaxMessageLength)
    (entry : List UInt8) : cString (entered message entry) = cString message := by
  have hzero := zero_notMem_cString message
  rw [entered, strncpy, List.take_of_length_le h]
  by_cases hshort : (cString message).length < kMaxMessageLength
  · obtain ⟨k, hk⟩ : ∃ k, kMaxMessageLength - (cString message).length = k + 1 :=
      ⟨kMaxMessageLength - (cString message).length - 1, by omega⟩
    rw [hk, List.replicate_succ, List.append_assoc, List.cons_append,
      List.set_append_right _ _ (by omega), hk, List.set_cons_succ, cString_append_zero hzero]
  · have hfull : (cString message).length = kMaxMessageLength := by omega
    have hend := cString_set_end hzero (entry.drop kMaxMessageLength)
    rw [hfull] at hend
    rwa [hfull, Nat.sub_self, List.replicate_zero, List.append_nil]

inductive AppendStep (log : BoundedLog) (message : Option (List UInt8)) : BoundedLog × Bool → Prop where
  | refuses (h : accepted message = none) : AppendStep log message (log, false)
  | enters (memory : List UInt8) (hfits : (cString memory).length ≤ kMaxMessageLength)
      (h : accepted message = some (cString memory)) :
      AppendStep log message (⟨if log.count_ < kMaxEntries then log.count_ + 1 else log.count_,
        (log.next_ + 1) % kMaxEntries, log.entries_.modify log.next_ (entered memory)⟩, true)

theorem append_cases (log : BoundedLog) (message : Option (List UInt8)) :
    AppendStep log message (append log message) := by
  unfold append
  cases message with
  | none => exact .refuses rfl
  | some memory =>
    simp only
    have hlimit := measure_le_iff memory
    by_cases hlong : measure memory 0 > kMaxMessageLength
    · rw [if_pos hlong]
      exact .refuses (Option.filter_some_neg (by simpa using hlimit.mp hlong))
    · rw [if_neg hlong]
      have hfits := not_not.mp (mt hlimit.mpr hlong)
      exact .enters memory hfits (Option.filter_some_pos (by simpa using hfits))

theorem holds_afterAppends (messages : List (Option (List UInt8))) :
    Holds kMaxEntries cString (afterAppends messages).entries_ (afterAppends messages).next_
      (afterAppends messages).count_ (messages.filterMap accepted) := by
  induction messages using List.reverseRecOn with
  | nil => exact holds_nil List.length_replicate
  | append_singleton messages message ih =>
    have hsnoc : afterAppends (messages ++ [message]) = next (afterAppends messages) message :=
      after_snoc messages message
    have hcases := append_cases (afterAppends messages) message
    rw [hsnoc, next, List.filterMap_append]
    generalize append (afterAppends messages) message = answer at hcases
    cases hcases with
    | refuses hnone =>
      rw [List.filterMap_cons_none hnone, List.filterMap_nil, List.append_nil]
      exact ih
    | enters memory hfits hsome =>
      rw [List.filterMap_cons_some hsome, List.filterMap_nil]
      exact ih.push (by decide) fun entry _ => cString_entered hfits entry

/-- What `at` reads over the entries that are counted. -/
theorem entries_eq (messages : List (Option (List UInt8))) :
    (List.range (count (afterAppends messages))).map (entryAt (afterAppends messages)) =
      (messages.filterMap accepted).rtake kMaxEntries := by
  have hring := holds_afterAppends messages
  rw [← hring.listed hring.first_of_full []]
  refine List.map_congr_left fun index hindex => ?_
  exact if_neg (Nat.not_le.mpr (List.mem_range.mp hindex))

/-- A message that is not accepted is answered by false and leaves the log as it is. -/
theorem append_refused (log : BoundedLog) (message : Option (List UInt8)) :
    ((append log message).2 = false ↔ accepted message = none) ∧
      (accepted message = none → (append log message).1 = log) := by
  have hcases := append_cases log message
  generalize append log message = answer at hcases
  cases hcases with
  | refuses hnone => exact ⟨iff_of_true rfl hnone, fun _ => rfl⟩
  | enters memory _ hsome =>
    rw [hsome]
    exact ⟨iff_of_false (fun h => by cases h) (Option.some_ne_none _), fun h => by cases h⟩

end Esp32Shell.Arduino.DeviceToolbox
