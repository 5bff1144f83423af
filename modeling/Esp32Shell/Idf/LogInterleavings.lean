import Esp32Shell.Idf.LogBuffer
import Esp32Shell.Library.Table
import Mathlib.Data.List.Nodup

/-!
# Calls of the log that interleave

`capture_vprintf` is called by any task at any time. Its test of the flag, the
two writes of it and the section behind the lock are one step each, and the
steps of different tasks interleave freely.
-/
namespace Esp32Shell.Idf.LogInterleavings

open Esp32Shell.Library.CText Esp32Shell.Library.Run Esp32Shell.Library.Table
open LogBuffer

/-- The step that a call takes next. -/
inductive Phase where
  /-- `if (!capturing)`. -/
  | test (formatted : List UInt8)
  /-- `capturing = true`. -/
  | mark (formatted : List UInt8)
  /-- From `portENTER_CRITICAL` to `portEXIT_CRITICAL`. -/
  | critical (formatted : List UInt8)
  /-- `capturing = false`. -/
  | clear
  deriving DecidableEq

/-- A call under way, and the task that makes it. -/
structure Call where
  task : Nat
  phase : Phase
  deriving DecidableEq

/-- The log, the calls under way, and the messages that were begun, entered and passed over. -/
structure System where
  buffer : Buffer
  calls : List Call
  begun : List (List UInt8)
  entered : List (List UInt8)
  passed : List (List UInt8)

def quiescent : System := ⟨.empty, [], [], [], []⟩

inductive Event where
  | call (task : Nat) (formatted : List UInt8)
  | turn (task : Nat)

/-- The section behind the lock. -/
def criticalSection (formatted : List UInt8) (buffer : Buffer) : Buffer :=
  let message := cString (snprintf kMaxMessageLength formatted)
  let length := stripped message message.length
  if length > 0 then
    { buffer with
      entries := buffer.entries.modify buffer.nextEntry (entered message length)
      nextEntry := (buffer.nextEntry + 1) % kMaxEntries
      entryCount := if buffer.entryCount < kMaxEntries then buffer.entryCount + 1 else buffer.entryCount }
  else buffer

namespace System

def find (s : System) (task : Nat) : Option Phase := (lookup Call.task task s.calls).map Call.phase

def goTo (s : System) (task : Nat) (phase : Phase) : System :=
  { s with calls := change Call.task task (fun c => { c with phase := phase }) s.calls }

/-- The call goes on behind the capture, with the writer in front of it. -/
def leave (s : System) (task : Nat) : System :=
  { s with calls := s.calls.filter fun c => c.task ≠ task }

/-- A task that is within a call makes no other. -/
def call (s : System) (task : Nat) (formatted : List UInt8) : System :=
  match s.find task with
  | some _ => s
  | none => { s with calls := ⟨task, .test formatted⟩ :: s.calls, begun := s.begun ++ [formatted] }

def turn (s : System) (task : Nat) : System :=
  match s.find task with
  | none => s
  | some (.test formatted) =>
    if s.buffer.capturing then { s.leave task with passed := s.passed ++ [formatted] }
    else s.goTo task (.mark formatted)
  | some (.mark formatted) =>
    { s.goTo task (.critical formatted) with buffer := { s.buffer with capturing := true } }
  | some (.critical formatted) =>
    { s.goTo task .clear with
      buffer := criticalSection formatted s.buffer
      entered := s.entered ++ [formatted] }
  | some .clear => { s.leave task with buffer := { s.buffer with capturing := false } }

def step (s : System) : Event → System
  | .call task formatted => s.call task formatted
  | .turn task => s.turn task

end System

abbrev afterEvents (events : List Event) : System := after System.step quiescent events

/-- The message of a call that has neither entered it nor passed it over. -/
def pending (c : Call) : Option (List UInt8) :=
  match c.phase with
  | .test formatted | .mark formatted | .critical formatted => some formatted
  | .clear => none

/-- The call has set the flag and not yet cleared it. -/
def Phase.marked : Phase → Bool
  | .critical _ | .clear => true
  | .test _ | .mark _ => false

/-! ### One call among the others -/

section
variable {s : System} {task : Nat} {phase : Phase}

theorem find_eq_none (h : s.find task = none) : task ∉ s.calls.map Call.task := by
  have hlookup := lookup_eq_none_iff.mp (Option.map_eq_none_iff.mp h)
  rintro hmem
  obtain ⟨c, hc, hctask⟩ := List.mem_map.mp hmem
  exact hlookup c hc hctask

/-- A call is one of its task, and steps without touching the others. -/
theorem find_cut (hunique : (s.calls.map Call.task).Nodup) (h : s.find task = some phase) :
    ∃ front back, s.calls = front ++ ⟨task, phase⟩ :: back ∧
      (∀ phase', (s.goTo task phase').calls = front ++ ⟨task, phase'⟩ :: back) ∧
      (s.leave task).calls = front ++ back := by
  obtain ⟨⟨task', phase'⟩, hlookup, rfl⟩ := Option.map_eq_some_iff.mp h
  obtain rfl : task' = task := by simpa using List.find?_some hlookup
  obtain ⟨front, back, hcalls⟩ := List.append_of_mem (List.mem_of_find?_eq_some hlookup)
  have htasks : ∀ c ∈ front ++ back, c.task ≠ task' := by
    rw [hcalls, List.map_append, List.map_cons, List.nodup_middle, List.nodup_cons,
      ← List.map_append] at hunique
    exact fun c hc he => hunique.1 (List.mem_map.mpr ⟨c, hc, he⟩)
  refine ⟨front, back, hcalls, fun phase'' => ?_, ?_⟩
  · have hself : Call.task ⟨task', phase'⟩ = task' := rfl
    show change Call.task task' _ s.calls = _
    rw [hcalls, change_append fun c hc => htasks c (List.mem_append_left _ hc), change_cons_self hself]
  · show s.calls.filter _ = _
    rw [hcalls, List.filter_append, List.filter_cons_of_neg (by simp), ← List.filter_append]
    exact List.filter_eq_self.mpr fun c hc => by simpa using htasks c hc

end

/-! ### What every step keeps -/

structure Sound (s : System) : Prop where
  unique : (s.calls.map Call.task).Nodup
  /-- The ring is that of the messages one after the other, as they entered. -/
  sequential : { s.buffer with capturing := false } = afterCaptures none s.entered
  marked : s.buffer.capturing = true → ∃ c ∈ s.calls, c.phase.marked = true
  accounted : s.begun.Perm (s.entered ++ s.passed ++ s.calls.filterMap pending)

theorem criticalSection_eq (formatted : List UInt8) (buffer : Buffer) :
    { criticalSection formatted buffer with capturing := false } =
      (capture_vprintf none formatted { buffer with capturing := false }).1 := by
  simp only [criticalSection, capture_vprintf, Bool.false_eq_true, if_false]
  split <;> rfl

theorem sound_call {s : System} (h : Sound s) (task : Nat) (formatted : List UInt8) :
    Sound (s.call task formatted) := by
  unfold System.call
  cases hfind : s.find task with
  | some phase => exact h
  | none =>
    refine ⟨?_, h.sequential, fun hflag => ?_, ?_⟩
    · exact List.nodup_cons.mpr ⟨find_eq_none hfind, h.unique⟩
    · obtain ⟨c, hc, hmarked⟩ := h.marked hflag
      exact ⟨c, List.mem_cons_of_mem _ hc, hmarked⟩
    · rw [List.perm_iff_count]
      intro m
      have hcount := h.accounted.count_eq m
      simp only [pending, List.filterMap_cons, List.count_append, List.count_cons, List.count_nil] at hcount ⊢
      omega

/-- A turn of one call keeps the messages: of its own, each is under way, entered or passed over. -/
theorem Sound.turned {s s' : System} (h : Sound s) {front back : List Call} {c : Call} (more : List Call)
    (hcalls : s.calls = front ++ c :: back) (hnext : s'.calls = front ++ (more ++ back))
    (htasks : (more.map Call.task).Sublist [c.task]) (hbegun : s'.begun = s.begun)
    (hsequential : { s'.buffer with capturing := false } = afterCaptures none s'.entered)
    (hmarked : s'.buffer.capturing = true → ∃ c ∈ s'.calls, c.phase.marked = true)
    (hmessages : ∀ m, (s'.entered ++ s'.passed ++ more.filterMap pending).count m =
      (s.entered ++ s.passed ++ [c].filterMap pending).count m) : Sound s' := by
  refine ⟨?_, hsequential, hmarked, ?_⟩
  · have hunique := h.unique
    rw [hcalls, List.append_cons, List.append_assoc] at hunique
    rw [hnext]
    refine hunique.sublist ?_
    simp only [List.map_append]
    exact (List.Sublist.refl _).append (htasks.append (List.Sublist.refl _))
  · rw [List.perm_iff_count]
    intro m
    have hcount := h.accounted.count_eq m
    have hm := hmessages m
    rw [hbegun, hnext]
    rw [hcalls, List.append_cons, List.append_assoc front] at hcount
    simp only [List.filterMap_append, List.count_append] at hcount hm ⊢
    omega

theorem sound_turn {s : System} (h : Sound s) (task : Nat) : Sound (s.turn task) := by
  unfold System.turn
  cases hfind : s.find task with
  | none => exact h
  | some phase =>
    obtain ⟨front, back, hcalls, hgo, hleave⟩ := find_cut h.unique hfind
    have hmem : ∀ phase', (⟨task, phase'⟩ : Call) ∈ (s.goTo task phase').calls := fun phase' => by
      rw [hgo]
      simp
    have hsame : ∀ phase', (([⟨task, phase'⟩] : List Call).map Call.task).Sublist [task] :=
      fun _ => List.Sublist.refl _
    cases phase with
    | test formatted =>
      show Sound (if s.buffer.capturing then _ else _)
      split_ifs with hflag
      · refine h.turned [] hcalls hleave (List.nil_sublist _) rfl h.sequential (fun hset => ?_)
          fun m => ?_
        · obtain ⟨c, hc, hmarked⟩ := h.marked hset
          rw [hcalls, List.mem_append, List.mem_cons] at hc
          show ∃ c ∈ (s.leave task).calls, _
          rw [hleave]
          rcases hc with hc | rfl | hc
          · exact ⟨c, List.mem_append_left _ hc, hmarked⟩
          · cases hmarked
          · exact ⟨c, List.mem_append_right _ hc, hmarked⟩
        · simp only [pending, System.leave, List.filterMap_cons, List.filterMap_nil, List.count_append,
            List.count_cons, List.count_nil]
          omega
      · exact h.turned [⟨task, .mark formatted⟩] hcalls (hgo _) (hsame _) rfl h.sequential
          (fun hset => absurd hset hflag) fun m => rfl
    | mark formatted =>
      exact h.turned [⟨task, .critical formatted⟩] hcalls (hgo _) (hsame _) rfl h.sequential
        (fun _ => ⟨_, hmem _, rfl⟩) fun m => rfl
    | critical formatted =>
      refine h.turned [⟨task, .clear⟩] hcalls (hgo .clear) (hsame _) rfl ?_ (fun _ => ⟨_, hmem _, rfl⟩)
        fun m => ?_
      · rw [afterCaptures_snoc, ← h.sequential]
        exact criticalSection_eq formatted s.buffer
      · simp only [pending, System.goTo, List.filterMap_cons, List.filterMap_nil, List.count_append,
          List.count_cons, List.count_nil]
        omega
    | clear =>
      exact h.turned [] hcalls hleave (List.nil_sublist _) rfl h.sequential
        (fun hset => by cases hset) fun m => rfl

theorem sound_after (events : List Event) : Sound (afterEvents events) := by
  have hstart : Sound quiescent := ⟨List.nodup_nil, rfl, fun hset => (by cases hset), List.Perm.refl []⟩
  refine after_invariant hstart ?_ events
  intro s event h
  cases event with
  | call task formatted => exact sound_call h task formatted
  | turn task => exact sound_turn h task

section
variable {buffer : Buffer} {task : Nat} {phase phase' : Phase} {calls : List Call}
  {begun entered passed : List (List UInt8)}

theorem find_first :
    (⟨buffer, ⟨task, phase⟩ :: calls, begun, entered, passed⟩ : System).find task = some phase := by
  have hself : Call.task ⟨task, phase⟩ = task := rfl
  rw [System.find, lookup_cons_self hself]
  rfl

theorem goTo_first :
    (⟨buffer, ⟨task, phase⟩ :: calls, begun, entered, passed⟩ : System).goTo task phase' =
      ⟨buffer, ⟨task, phase'⟩ :: calls, begun, entered, passed⟩ := by
  have hself : Call.task ⟨task, phase⟩ = task := rfl
  rw [System.goTo, change_cons_self hself]

theorem leave_first (h : task ∉ calls.map Call.task) :
    (⟨buffer, ⟨task, phase⟩ :: calls, begun, entered, passed⟩ : System).leave task =
      ⟨buffer, calls, begun, entered, passed⟩ := by
  have hothers : (calls.filter fun c => c.task ≠ task) = calls :=
    List.filter_eq_self.mpr fun c hc => by
      simpa using fun he : c.task = task => h (List.mem_map.mpr ⟨c, hc, he⟩)
  rw [System.leave, List.filter_cons_of_neg (by simp), hothers]

end

/-- A call that no other interleaves does what `capture_vprintf` does. -/
theorem call_uninterrupted {s : System} {task : Nat} (hfind : s.find task = none)
    (hflag : s.buffer.capturing = false) (formatted : List UInt8) :
    after System.step s [.call task formatted, .turn task, .turn task, .turn task, .turn task] =
      { s with
        buffer := (capture_vprintf none formatted s.buffer).1
        begun := s.begun ++ [formatted]
        entered := s.entered ++ [formatted] } := by
  obtain ⟨buffer, calls, begun, entered, passed⟩ := s
  have hcapture : (capture_vprintf none formatted buffer).1 =
      { criticalSection formatted { buffer with capturing := true } with capturing := false } := by
    have hclear : buffer = { buffer with capturing := false } := by rw [← hflag]
    rw [criticalSection_eq, ← hclear]
  have hcall : (⟨buffer, calls, begun, entered, passed⟩ : System).call task formatted =
      ⟨buffer, ⟨task, .test formatted⟩ :: calls, begun ++ [formatted], entered, passed⟩ := by
    rw [System.call, hfind]
  have hothers : task ∉ calls.map Call.task := find_eq_none hfind
  have hclear : buffer.capturing = false := hflag
  simp only [after, List.foldl_cons, List.foldl_nil, System.step, hcall]
  simp only [System.turn, find_first, goTo_first, leave_first hothers, hclear, Bool.false_eq_true, if_false,
    hcapture]

/-- Whatever calls of whatever tasks interleave, the log shows the messages that have entered it as if
their calls had come one after the other; every message begun is entered once, passed over once or
still under way; one is passed over only while the call of another task has the flag set, and with
no call under way the flag is clear. -/
theorem log_interleavings (events : List Event) :
    let s := afterEvents events
    log_dump s.buffer = header (min (s.entered.filterMap captured).length kMaxEntries) ::
        (s.entered.filterMap captured).rtake kMaxEntries ∧
      s.begun.Perm (s.entered ++ s.passed ++ s.calls.filterMap pending) ∧
      (∀ task formatted, s.find task = some (.test formatted) → s.buffer.capturing = true →
        ∃ other ∈ s.calls, other.task ≠ task ∧ other.phase.marked = true) ∧
      (s.calls = [] → s.buffer.capturing = false) := by
  intro s
  have h : Sound s := sound_after events
  refine ⟨?_, h.accounted, fun task formatted hfind hset => ?_, fun hnone => ?_⟩
  · have hdump : log_dump s.buffer = log_dump { s.buffer with capturing := false } := rfl
    rw [hdump, h.sequential]
    exact log_dump_eq none s.entered
  · obtain ⟨c, hc, hmarked⟩ := h.marked hset
    refine ⟨c, hc, ?_, hmarked⟩
    rintro rfl
    rw [System.find, lookup_of_mem h.unique hc, Option.map_some, Option.some_inj] at hfind
    rw [hfind] at hmarked
    cases hmarked
  · by_contra hset
    obtain ⟨c, hc, -⟩ := h.marked (by simpa using hset)
    rw [hnone] at hc
    cases hc

end Esp32Shell.Idf.LogInterleavings
