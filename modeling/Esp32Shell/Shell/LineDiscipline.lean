import Esp32Shell.Shell.Chunking

/-!
# Line discipline

The reference reading dispatches the edited text of every physical line. A
session agrees with it on short lines, except where an erase stands between a CR
and an LF (the LF is then taken for the second half of CR LF) and where a line
contains NUL (the C string ends there).
-/
namespace Esp32Shell.Shell.LineDiscipline

open Esp32Shell.Library.CText Esp32Shell.Library.Feed
open CommandCore CommandTable Session LineReading Chunking

variable {σ : Type}

/-- At some point the line needs more characters than the buffer has. -/
def Overlong (bytes : List UInt8) : Prop :=
  ∃ typed, typed <+: bytes ∧ maxCommandLength < (edited typed).length

def Fits (stream : List UInt8) : Prop := ∀ l ∈ physicalLines stream, ¬ Overlong l.bytes

/-- The texts of the lines, up to the first that closes the session. -/
def reference (stream : List UInt8) : List Text :=
  takeThrough closesSession ((physicalLines stream).map fun l => edited l.bytes)

/-- The lines behind `reference`. -/
def linesRead (stream : List UInt8) : List PhysicalLine :=
  takeThrough (fun l => closesSession (edited l.bytes)) (physicalLines stream)

theorem reference_eq (stream : List UInt8) :
    reference stream = (linesRead stream).map fun l => edited l.bytes :=
  takeThrough_map (fun l : PhysicalLine => edited l.bytes) closesSession (physicalLines stream)

theorem edited_append (bytes : List UInt8) (b : UInt8) :
    edited (bytes ++ [b]) = editStep (edited bytes) b := by
  simp [edited]

theorem edited_erases {bytes : List UInt8} (h : bytes.all isErase = true) : edited bytes = [] := by
  induction bytes using List.reverseRecOn with
  | nil => rfl
  | append_singleton bytes b ih =>
    rw [List.all_append, Bool.and_eq_true] at h
    rw [edited_append, ih h.1]
    simp_all [editStep]

/-- A line that always fits never empties the buffer. -/
theorem kept_eq_edited {bytes : List UInt8} (h : ¬ Overlong bytes) : kept bytes = edited bytes := by
  induction bytes using List.reverseRecOn with
  | nil => rfl
  | append_singleton bytes b ih =>
    have hinit : ¬ Overlong bytes := fun ⟨typed, hp, hl⟩ =>
      h ⟨typed, hp.trans (List.prefix_append bytes [b]), hl⟩
    have hfits : (edited (bytes ++ [b])).length ≤ maxCommandLength := by
      by_contra hl
      exact h ⟨_, List.prefix_refl _, by omega⟩
    rw [edited_append] at hfits
    rw [kept_append, edited_append, ih hinit]
    by_cases he : isErase b = true
    · simp [keptStep, editStep, he]
    · have hroom : (edited bytes).length < maxCommandLength := by
        simp [editStep, he] at hfits
        omega
      simp [keptStep, editStep, he, hroom]

theorem edited_length_le (bytes : List UInt8) : (edited bytes).length ≤ bytes.length := by
  induction bytes using List.reverseRecOn with
  | nil => exact le_rfl
  | append_singleton bytes b ih =>
    rw [edited_append, editStep, List.length_append, List.length_singleton]
    by_cases he : isErase b = true
    · rw [if_pos he, List.length_dropLast]
      omega
    · rw [if_neg he, List.length_append, List.length_singleton]
      omega

theorem bytes_length_le {l : PhysicalLine} (stream : List UInt8) {previous : Option UInt8}
    {afterReturn : Bool} {bytes : List UInt8}
    (h : l ∈ physicalLinesFrom previous afterReturn bytes stream) :
    l.bytes.length ≤ bytes.length + stream.length := by
  induction stream generalizing previous afterReturn bytes with
  | nil => cases h
  | cons b stream ih =>
    rw [physicalLinesFrom] at h
    rw [List.length_cons]
    split_ifs at h with hend hskip
    · cases h with
      | head => exact Nat.le_add_right _ _
      | tail _ h =>
        have := ih h
        rw [List.length_nil] at this
        omega
    · have := ih h
      omega
    · have := ih h
      rw [List.length_append, List.length_singleton] at this
      omega

theorem fits_of_length {stream : List UInt8} (h : stream.length ≤ maxCommandLength) : Fits stream := by
  intro l hl ⟨typed, hprefix, hlong⟩
  have htyped := edited_length_le typed
  have hbytes := hprefix.length_le
  have hline := bytes_length_le stream hl
  rw [List.length_nil] at hline
  omega

theorem not_closes_nil : closesSession [] = false := by decide

/-- A line that the session overlooks is empty. -/
theorem not_swallowed_of_closes (l : PhysicalLine) (h : closesSession (edited l.bytes) = true) :
    l.swallowed = false := by
  by_contra hs
  rw [Bool.not_eq_false, PhysicalLine.swallowed, Bool.and_eq_true, Bool.and_eq_true] at hs
  rw [edited_erases hs.1.2, not_closes_nil] at h
  cases h

theorem dispatchedTexts_opened (device : σ) : dispatchedTexts (opened device).events = [] := by
  have hq : Quiet greeting := by simp [Quiet, greeting, line, prompt, raw]
  exact hq.dispatchedTexts_eq

/-- Every line that a session does not overlook reaches `dispatch` as a C string. -/
theorem run_dispatched (services : DeviceServices σ) (device : σ) (polls : List Poll) :
    dispatchedTexts (eventsOf (run services true device polls)) =
      (takeThrough (fun l => closesSession (kept l.bytes))
        ((physicalLines (received polls)).filter fun l => !l.swallowed)).map
        fun l => cString (kept l.bytes) := by
  rw [eventsOf_run, feed_dispatched services _ (reads_opened device), dispatchedTexts_opened]
  rfl

theorem run_dispatched_of_fits (services : DeviceServices σ) (device : σ) (polls : List Poll)
    (h : Fits (received polls)) :
    dispatchedTexts (eventsOf (run services true device polls)) =
      ((linesRead (received polls)).filter fun l => !l.swallowed).map
        fun l => cString (edited l.bytes) := by
  have hkept : ∀ l ∈ (physicalLines (received polls)).filter fun l => !l.swallowed,
      kept l.bytes = edited l.bytes := fun l hl => kept_eq_edited (h l (List.mem_filter.mp hl).1)
  have htexts := takeThrough_map (fun l : PhysicalLine => kept l.bytes) closesSession
    ((physicalLines (received polls)).filter fun l => !l.swallowed)
  rw [List.map_congr_left hkept, takeThrough_map] at htexts
  have hclose : ∀ l : PhysicalLine, closesSession (edited l.bytes) = true → (!l.swallowed) = true :=
    fun l hl => by simp [not_swallowed_of_closes l hl]
  have hfilter := takeThrough_filter hclose (physicalLines (received polls))
  have hmap : ∀ (f : PhysicalLine → Text) (ls : List PhysicalLine),
      (ls.map fun l => cString (f l)) = (ls.map f).map cString := fun f ls => by
    rw [List.map_map]
    rfl
  rw [run_dispatched, linesRead, ← hfilter, hmap (fun l => kept l.bytes),
    hmap (fun l => edited l.bytes)]
  exact congrArg (List.map cString) htexts.symm

/-- Filtering and one map agree with another map exactly where nothing is filtered out and the
two maps agree. -/
theorem filter_map_eq_map_iff {α β : Type} {p : α → Bool} {f g : α → β} {l : List α} :
    (l.filter p).map f = l.map g ↔ ∀ x ∈ l, p x = true ∧ f x = g x := by
  constructor
  · intro h
    have hlen : (l.filter p).length = l.length := by
      have := congrArg List.length h
      simpa using this
    have hall : ∀ x ∈ l, p x = true := List.length_filter_eq_length_iff.mp hlen
    rw [List.filter_eq_self.mpr hall] at h
    exact fun x hx => ⟨hall x hx, List.map_inj_left.mp h x hx⟩
  · intro h
    rw [List.filter_eq_self.mpr fun x hx => (h x hx).1]
    exact List.map_congr_left fun x hx => (h x hx).2

/-- On short lines a session follows the reference exactly when no line it reads is reached from
a CR by erasing alone and ended by an LF, and no such line contains NUL. -/
theorem line_discipline (services : DeviceServices σ) (device : σ) (polls : List Poll)
    (h : Fits (received polls)) :
    dispatchedTexts (eventsOf (run services true device polls)) = reference (received polls) ↔
      ∀ l ∈ linesRead (received polls), l.swallowed = false ∧ 0 ∉ edited l.bytes := by
  rw [run_dispatched_of_fits services device polls h, reference_eq, filter_map_eq_map_iff]
  simp only [Bool.not_eq_true', cString_eq_self_iff]

theorem line_discipline_help :
    let polls := [chunk (lit "helq\x08p\r\n") (by decide)]
    dispatchedTexts (eventsOf (run Routing.silent true () polls)) = reference (received polls) ↔
      ∀ l ∈ linesRead (received polls), l.swallowed = false ∧ 0 ∉ edited l.bytes :=
  line_discipline Routing.silent () _ (fits_of_length (by decide))

/-- CR BS LF: the reference reads two empty lines, the session dispatches one. -/
theorem erase_hides_line_feed :
    let polls := [chunk [carriageReturn, backspace, lineFeed] (by decide)]
    Fits (received polls) ∧
      dispatchedTexts (eventsOf (run Routing.silent true () polls)) ≠ reference (received polls) := by
  intro polls
  have hfits : Fits (received polls) := fits_of_length (by decide)
  refine ⟨hfits, ?_⟩
  rw [run_dispatched_of_fits _ _ _ hfits]
  decide

end Esp32Shell.Shell.LineDiscipline
