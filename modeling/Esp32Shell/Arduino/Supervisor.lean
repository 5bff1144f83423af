import Esp32Shell.Library.CText
import Esp32Shell.Library.Run
import Esp32Shell.Library.Table
import Mathlib.Data.List.Nodup

/-!
# The registry of the Arduino apps

`AppSupervisor`, and what its answers say about the calls before. A slot keeps
the first 23 bytes of a name and is found by a comparison of the whole name, so
that an app with a longer name is never found again under its own.
-/
namespace Esp32Shell.Arduino.Supervisor

open Esp32Shell.Library.CText Esp32Shell.Library.Run Esp32Shell.Library.Table

inductive AppLifecycle where
  | stopped | starting | running | failed
  deriving DecidableEq, Repr

structure AppResourceLimits where
  stackBytes : Nat
  minimumFreeHeap : Nat
  maxRuntimeMs : Nat
  deriving DecidableEq, Repr

def kMaxApps : Nat := 4

/-- `sizeof(slot.name)`. -/
def nameSize : Nat := 24

/-- A slot is free while its name is empty; the terminator of the name has its place. -/
structure Slot where
  name : Text
  limits : AppResourceLimits
  state : AppLifecycle
  fits : name.length < nameSize

theorem nameSize_pos : 0 < nameSize := by decide

def Slot.free : Slot := ⟨[], ⟨0, 0, 0⟩, .stopped, nameSize_pos⟩

def Slot.setState (state : AppLifecycle) (slot : Slot) : Slot := { slot with state }

/-- `strncpy` of `sizeof(slot.name) - 1` bytes. -/
def kept (name : Text) : Text := name.take (nameSize - 1)

theorem kept_fits (name : Text) : (kept name).length < nameSize := by
  have hlength := List.length_take_le (nameSize - 1) name
  have hsize := nameSize_pos
  unfold kept
  omega

/-- What a registration makes of a free slot. -/
def Slot.fresh (name : Text) (limits : AppResourceLimits) : Slot :=
  ⟨kept name, limits, .stopped, kept_fits name⟩

/-- The name under which `find` sees a slot. -/
def Slot.used (slot : Slot) : Option Text := if slot.name = [] then none else some slot.name

structure AppSupervisor where
  slots_ : List Slot
  size : slots_.length = kMaxApps

theorem length_initial : (List.replicate kMaxApps Slot.free).length = kMaxApps := List.length_replicate

def initial : AppSupervisor := ⟨List.replicate kMaxApps Slot.free, length_initial⟩

def find (s : AppSupervisor) (name : Text) : Option Slot :=
  s.slots_.find? fun slot => slot.name ≠ [] ∧ slot.name = name

theorem length_modify (s : AppSupervisor) (k : Option Text) (f : Slot → Slot) :
    (change Slot.used k f s.slots_).length = kMaxApps := (length_change k f s.slots_).trans s.size

/-- The first slot that `find` sees under a name, or the first free one, is written. -/
def modify (s : AppSupervisor) (k : Option Text) (f : Slot → Slot) : AppSupervisor :=
  ⟨change Slot.used k f s.slots_, length_modify s k f⟩

/-- `none` is a null pointer. -/
def registerApp (s : AppSupervisor) (name : Option Text) (limits : AppResourceLimits) :
    AppSupervisor × Bool :=
  match name with
  | none => (s, false)
  | some name =>
    if name = [] ∨ (find s name).isSome then (s, false)
    else if s.slots_.any fun slot => slot.name = [] then (modify s none fun _ => .fresh name limits, true)
    else (s, false)

def setState (s : AppSupervisor) (name : Text) (state : AppLifecycle) : AppSupervisor :=
  match find s name with
  | none => s
  | some _ => modify s (some name) (.setState state)

def markStarting (s : AppSupervisor) (name : Text) : AppSupervisor := setState s name .starting
def markRunning (s : AppSupervisor) (name : Text) : AppSupervisor := setState s name .running
def markFailed (s : AppSupervisor) (name : Text) : AppSupervisor := setState s name .failed
def markStopped (s : AppSupervisor) (name : Text) : AppSupervisor := setState s name .stopped

def canStart (s : AppSupervisor) (name : Text) (freeHeap : Nat) : Bool :=
  match find s name with
  | none => false
  | some slot => slot.state = .stopped ∧ freeHeap ≥ slot.limits.minimumFreeHeap

def state (s : AppSupervisor) (name : Text) : AppLifecycle :=
  match find s name with
  | none => .failed
  | some slot => slot.state

def limits (s : AppSupervisor) (name : Text) : Option AppResourceLimits := (find s name).map (·.limits)

/-! ### Runs -/

inductive SupervisorCall where
  | registerApp (name : Text) (limits : AppResourceLimits)
  | markStarting (name : Text)
  | markRunning (name : Text)
  | markFailed (name : Text)
  | markStopped (name : Text)

namespace SupervisorCall

def name : SupervisorCall → Text
  | registerApp name _ | markStarting name | markRunning name | markFailed name | markStopped name => name

/-- The state that a call marks. -/
def marks : SupervisorCall → Option AppLifecycle
  | registerApp _ _ => none
  | markStarting _ => some .starting
  | markRunning _ => some .running
  | markFailed _ => some .failed
  | markStopped _ => some .stopped

end SupervisorCall

def next (s : AppSupervisor) : SupervisorCall → AppSupervisor
  | .registerApp name limits => (registerApp s (some name) limits).1
  | .markStarting name => markStarting s name
  | .markRunning name => markRunning s name
  | .markFailed name => markFailed s name
  | .markStopped name => markStopped s name

def afterCalls (calls : List SupervisorCall) : AppSupervisor := after next initial calls

/-- The name that a call has registered. -/
def registers (m : AppSupervisor × SupervisorCall) : Option Text :=
  match m.2 with
  | .registerApp name limits => if (registerApp m.1 (some name) limits).2 then some name else none
  | _ => none

/-- The names that a run has registered, in order. -/
def registered (calls : List SupervisorCall) : List Text :=
  (moments next initial calls).filterMap registers

/-- What a caller can ask about a name. -/
def SameAnswers (s s' : AppSupervisor) (name : Text) : Prop :=
  state s' name = state s name ∧ limits s' name = limits s name ∧
    ∀ freeHeap, canStart s' name freeHeap = canStart s name freeHeap

structure Faithful (calls : List SupervisorCall) : Prop where
  kept : ∀ past name given, Taken calls past (.registerApp name given) →
    (registerApp (afterCalls past) (some name) given).2 = true →
    state (afterCalls (past ++ [.registerApp name given])) name = .stopped ∧
      limits (afterCalls (past ++ [.registerApp name given])) name = some given
  once : (registered calls).Nodup
  bounded : (registered calls).length ≤ kMaxApps
  marked : ∀ past c lifecycle, Taken calls past c → c.marks = some lifecycle →
    c.name ∈ registered past → state (afterCalls (past ++ [c])) c.name = lifecycle ∧
      limits (afterCalls (past ++ [c])) c.name = limits (afterCalls past) c.name
  unmarked : ∀ past c lifecycle, Taken calls past c → c.marks = some lifecycle →
    c.name ∉ registered past → afterCalls (past ++ [c]) = afterCalls past
  isolated : ∀ past c, Taken calls past c → ∀ name, name ≠ c.name →
    SameAnswers (afterCalls past) (afterCalls (past ++ [c])) name

/-- A name that does not fit in a slot finds no slot free. -/
def Fits (past : List SupervisorCall) (name : Text) : Prop :=
  name.length < nameSize ∨ ∀ slot ∈ (afterCalls past).slots_, slot.name ≠ []

/-! ### One call -/

theorem used_eq_some_iff (slot : Slot) (name : Text) :
    slot.used = some name ↔ slot.name ≠ [] ∧ slot.name = name := by
  unfold Slot.used
  by_cases h : slot.name = []
  · simp [h]
  · rw [if_neg h, Option.some_inj]
    exact (and_iff_right h).symm

theorem used_eq_none_iff (slot : Slot) : slot.used = none ↔ slot.name = [] := by
  simp [Slot.used]

theorem used_setState (slot : Slot) (state : AppLifecycle) : (slot.setState state).used = slot.used := rfl

theorem find_eq_lookup (s : AppSupervisor) (name : Text) :
    find s name = lookup Slot.used (some name) s.slots_ := by
  unfold find lookup
  congr 1
  funext slot
  rw [decide_eq_decide, used_eq_some_iff]

/-- Only a name that fits in a slot is found. -/
theorem find_overlong (s : AppSupervisor) {name : Text} (h : nameSize ≤ name.length) :
    find s name = none := by
  rw [find_eq_lookup, lookup_eq_none_iff]
  intro slot _ hused
  have hname := ((used_eq_some_iff slot name).mp hused).2
  have hfits := slot.fits
  rw [hname] at hfits
  omega

theorem kept_eq_self {name : Text} (h : name.length < nameSize) : kept name = name :=
  List.take_of_length_le (by unfold nameSize at *; omega)

theorem used_fresh {name : Text} (hname : name ≠ []) (given : AppResourceLimits) :
    (Slot.fresh name given).used = some (kept name) := by
  have hkept : kept name ≠ [] := by simpa [kept, nameSize] using hname
  exact (used_eq_some_iff _ _).mpr ⟨hkept, rfl⟩

inductive RegisterStep (s : AppSupervisor) (name : Text) (given : AppResourceLimits) :
    AppSupervisor × Bool → Prop where
  | refuses (h : name = [] ∨ find s name ≠ none ∨ ∀ slot ∈ s.slots_, slot.name ≠ []) :
      RegisterStep s name given (s, false)
  | registers (hname : name ≠ []) (hnew : find s name = none) (hfree : ∃ slot ∈ s.slots_, slot.name = []) :
      RegisterStep s name given (modify s none fun _ => .fresh name given, true)

theorem registerApp_cases (s : AppSupervisor) (name : Text) (given : AppResourceLimits) :
    RegisterStep s name given (registerApp s (some name) given) := by
  unfold registerApp
  simp only
  by_cases hold : name = [] ∨ (find s name).isSome
  · rw [if_pos hold]
    exact .refuses (hold.imp_right fun h => .inl (Option.isSome_iff_ne_none.mp h))
  rw [if_neg hold]
  obtain ⟨hname, hnew⟩ := not_or.mp hold
  by_cases hfree : (s.slots_.any fun slot => slot.name = []) = true
  · rw [if_pos hfree]
    exact .registers hname (by simpa using hnew) (by simpa using hfree)
  · rw [if_neg hfree]
    exact .refuses (.inr (.inr (by simpa using hfree)))

theorem setState_eq (s : AppSupervisor) (name : Text) (lifecycle : AppLifecycle) :
    setState s name lifecycle = modify s (some name) (.setState lifecycle) := by
  unfold setState
  cases hfind : find s name with
  | some slot => rfl
  | none =>
    rw [find_eq_lookup] at hfind
    simp only [modify, change_of_absent hfind]

theorem find_setState (s : AppSupervisor) (name : Text) (lifecycle : AppLifecycle) :
    find (setState s name lifecycle) name = (find s name).map (.setState lifecycle) := by
  rw [setState_eq, find_eq_lookup, find_eq_lookup]
  exact lookup_change_self fun slot hslot => (used_setState slot lifecycle).trans hslot

theorem find_setState_ne {name other : Text} (h : other ≠ name) (s : AppSupervisor)
    (lifecycle : AppLifecycle) : find (setState s name lifecycle) other = find s other := by
  rw [setState_eq, find_eq_lookup, find_eq_lookup]
  refine lookup_change_ne (fun heq => h (Option.some_inj.mp heq)) fun slot hslot heq => ?_
  rw [used_setState, hslot] at heq
  exact h (Option.some_inj.mp heq).symm

theorem setState_absent {s : AppSupervisor} {name : Text} (h : find s name = none)
    (lifecycle : AppLifecycle) : setState s name lifecycle = s := by
  rw [setState, h]

/-- The slots that are still free. -/
def free (s : AppSupervisor) : Nat := tally Slot.used none s.slots_

theorem free_setState (s : AppSupervisor) (name : Text) (lifecycle : AppLifecycle) :
    free (setState s name lifecycle) = free s := by
  rw [setState_eq]
  exact tally_change_kept fun slot hslot => (used_setState slot lifecycle).trans hslot

theorem lookup_free {s : AppSupervisor} (h : ∃ slot ∈ s.slots_, slot.name = []) :
    lookup Slot.used none s.slots_ ≠ none := by
  obtain ⟨slot, hslot, hempty⟩ := h
  exact fun h => lookup_eq_none_iff.mp h slot hslot ((used_eq_none_iff slot).mpr hempty)

section Registration

variable {s : AppSupervisor} {name : Text} (hname : name ≠ []) (given : AppResourceLimits)
include hname

theorem find_registered (hfits : name.length < nameSize) (hnew : find s name = none)
    (hfree : ∃ slot ∈ s.slots_, slot.name = []) :
    find (modify s none fun _ => .fresh name given) name = some (.fresh name given) := by
  rw [find_eq_lookup] at hnew ⊢
  obtain ⟨slot, hslot⟩ := Option.ne_none_iff_exists'.mp (lookup_free hfree)
  refine (lookup_change_new (fun _ _ => ?_) (.inl hnew)).trans (by rw [hslot]; rfl)
  rw [used_fresh hname, kept_eq_self hfits]

theorem find_registered_ne {other : Text} (h : other ≠ kept name) :
    find (modify s none fun _ => .fresh name given) other = find s other := by
  rw [find_eq_lookup, find_eq_lookup]
  refine lookup_change_ne (Option.some_ne_none other) fun _ _ heq => ?_
  rw [used_fresh hname] at heq
  exact h (Option.some_inj.mp heq).symm

theorem free_registered (hfree : ∃ slot ∈ s.slots_, slot.name = []) :
    free (modify s none fun _ => .fresh name given) + 1 = free s := by
  have hused : ∀ slot : Slot, slot.used = none → (Slot.fresh name given).used ≠ none := fun _ _ => by
    rw [used_fresh hname]
    exact Option.some_ne_none _
  exact tally_change_moved (lookup_free hfree) hused

end Registration

/-! ### The runs -/

theorem afterCalls_snoc (calls : List SupervisorCall) (c : SupervisorCall) :
    afterCalls (calls ++ [c]) = next (afterCalls calls) c := after_snoc calls c

theorem registered_snoc (calls : List SupervisorCall) (c : SupervisorCall) :
    registered (calls ++ [c]) = registered calls ++ (registers (afterCalls calls, c)).toList := by
  unfold registered
  rw [moments_snoc, List.filterMap_append]
  rfl

theorem next_of_marks {c : SupervisorCall} {lifecycle : AppLifecycle} (h : c.marks = some lifecycle)
    (s : AppSupervisor) : next s c = setState s c.name lifecycle := by
  cases c with
  | registerApp name given => cases h
  | markStarting name => cases h; rfl
  | markRunning name => cases h; rfl
  | markFailed name => cases h; rfl
  | markStopped name => cases h; rfl

theorem registers_of_marks {c : SupervisorCall} {lifecycle : AppLifecycle}
    (h : c.marks = some lifecycle) (s : AppSupervisor) : registers (s, c) = none := by
  cases c with
  | registerApp name given => cases h
  | _ => rfl

/-- What is found is what was registered, each once, in the slots that are taken. -/
structure Sound (calls : List SupervisorCall) (s : AppSupervisor) : Prop where
  found : ∀ name, find s name ≠ none ↔ name ∈ registered calls
  once : (registered calls).Nodup
  taken : free s + (registered calls).length = kMaxApps

theorem sound_initial : Sound [] initial := by
  refine ⟨fun name => ?_, List.nodup_nil, by decide⟩
  rw [find_eq_lookup]
  refine iff_of_false (not_not.mpr (lookup_eq_none_iff.mpr fun slot hslot heq => ?_)) List.not_mem_nil
  rw [List.eq_of_mem_replicate hslot] at heq
  cases heq

theorem find_setState_ne_none (s : AppSupervisor) (name : Text) (lifecycle : AppLifecycle)
    (other : Text) : find (setState s name lifecycle) other ≠ none ↔ find s other ≠ none := by
  by_cases h : other = name
  · rw [h, find_setState, ne_eq, Option.map_eq_none_iff]
  · rw [find_setState_ne h]

theorem sound_marks {past : List SupervisorCall} (h : Sound past (afterCalls past))
    {c : SupervisorCall} {lifecycle : AppLifecycle} (hc : c.marks = some lifecycle) :
    Sound (past ++ [c]) (next (afterCalls past) c) := by
  have hsame : registered (past ++ [c]) = registered past := by
    rw [registered_snoc, registers_of_marks hc, Option.toList_none, List.append_nil]
  rw [next_of_marks hc]
  refine ⟨fun name => ?_, by rw [hsame]; exact h.once, ?_⟩
  · rw [find_setState_ne_none, hsame]
    exact h.found name
  · rw [free_setState, hsame]
    exact h.taken

theorem Fits.short {past : List SupervisorCall} {name : Text} (h : Fits past name)
    (hfree : ∃ slot ∈ (afterCalls past).slots_, slot.name = []) : name.length < nameSize := by
  obtain ⟨slot, hslot, hempty⟩ := hfree
  exact h.resolve_right fun hfull => hfull slot hslot hempty

theorem sound_register {past : List SupervisorCall} (h : Sound past (afterCalls past)) {name : Text}
    (given : AppResourceLimits) (hfits : Fits past name) :
    Sound (past ++ [.registerApp name given]) (next (afterCalls past) (.registerApp name given)) := by
  have hcases := registerApp_cases (afterCalls past) name given
  have hnames := registered_snoc past (.registerApp name given)
  simp only [registers] at hnames
  simp only [next]
  generalize registerApp (afterCalls past) (some name) given = answer at hcases hnames
  cases hcases with
  | refuses _ =>
    rw [if_neg Bool.false_ne_true, Option.toList_none, List.append_nil] at hnames
    exact ⟨fun other => by rw [hnames]; exact h.found other, by rw [hnames]; exact h.once,
      by rw [hnames]; exact h.taken⟩
  | registers hname hnew hfree =>
    rw [if_pos rfl, Option.toList_some] at hnames
    have hshort := hfits.short hfree
    refine ⟨fun other => ?_, ?_, ?_⟩
    · rw [hnames, List.mem_append, List.mem_singleton]
      by_cases hother : other = name
      · rw [hother, find_registered hname given hshort hnew hfree]
        exact iff_of_true (Option.some_ne_none _) (.inr rfl)
      · rw [find_registered_ne hname given (by rwa [kept_eq_self hshort]), h.found]
        exact (or_iff_left hother).symm
    · rw [hnames]
      have habsent : name ∉ registered past := fun hmem => (h.found name).mpr hmem hnew
      exact List.nodup_append.mpr ⟨h.once, List.nodup_singleton name, fun x hx y hy heq =>
        habsent (List.mem_singleton.mp hy ▸ heq ▸ hx)⟩
    · have hcount := free_registered hname given hfree
      have htaken := h.taken
      rw [hnames, List.length_append, List.length_singleton]
      show free (modify (afterCalls past) none fun _ => .fresh name given) + _ = kMaxApps
      omega

theorem sound_of_fits {calls : List SupervisorCall}
    (h : ∀ past name given, Taken calls past (.registerApp name given) → Fits past name) :
    Sound calls (afterCalls calls) := by
  refine after_induction (P := Sound)
    (C := fun past c => ∀ name given, c = .registerApp name given → Fits past name)
    sound_initial ?_ fun past c htaken name given hc => h past name given (hc ▸ htaken)
  intro past c hpast hc
  cases hmarks : c.marks with
  | some lifecycle => exact sound_marks hpast hmarks
  | none =>
    cases c with
    | registerApp name given => exact sound_register hpast given (hc name given rfl)
    | _ => cases hmarks

/-! ### The registry is faithful -/

theorem sameAnswers_of_find {s s' : AppSupervisor} {name : Text} (h : find s' name = find s name) :
    SameAnswers s s' name := by
  refine ⟨?_, ?_, fun freeHeap => ?_⟩
  · rw [state, state, h]
  · rw [limits, limits, h]
  · rw [canStart, canStart, h]

theorem isolated_of_sound {past : List SupervisorCall} (c : SupervisorCall)
    (hfits : ∀ name given, c = .registerApp name given → Fits past name) {name : Text}
    (h : name ≠ c.name) : SameAnswers (afterCalls past) (afterCalls (past ++ [c])) name := by
  rw [afterCalls_snoc]
  cases hmarks : c.marks with
  | some lifecycle =>
    rw [next_of_marks hmarks]
    exact sameAnswers_of_find (find_setState_ne h _ lifecycle)
  | none =>
    cases c with
    | registerApp new given =>
      simp only [next]
      have hcases := registerApp_cases (afterCalls past) new given
      generalize registerApp (afterCalls past) (some new) given = answer at hcases
      cases hcases with
      | refuses _ => exact ⟨rfl, rfl, fun _ => rfl⟩
      | registers hname hnew hfree =>
        have hshort := (hfits new given rfl).short hfree
        exact sameAnswers_of_find (find_registered_ne hname given (by rwa [kept_eq_self hshort]))
    | _ => cases hmarks

/-- A name that does not fit in a slot which is free is lost when it is registered. -/
theorem Faithful.fits {calls : List SupervisorCall} (hfaithful : Faithful calls)
    {past : List SupervisorCall} {name : Text} {given : AppResourceLimits}
    (htaken : Taken calls past (.registerApp name given)) : Fits past name := by
  by_contra hfits
  obtain ⟨hlong, hroom⟩ := not_or.mp hfits
  have hcases := registerApp_cases (afterCalls past) name given
  have hkept := hfaithful.kept past name given htaken
  rw [afterCalls_snoc] at hkept
  have hlost : ∀ s, find s name = none := fun s => find_overlong s (by omega)
  generalize hanswer : registerApp (afterCalls past) (some name) given = answer at hcases hkept
  cases hcases with
  | refuses hrefuses =>
    obtain rfl | hold | hfull := hrefuses
    · exact hlong nameSize_pos
    · exact hold (hlost _)
    · exact hroom hfull
  | registers hname hnew hfree =>
    have hlimits := (hkept rfl).2
    rw [limits, hlost] at hlimits
    cases hlimits

theorem faithful_of_fits {calls : List SupervisorCall}
    (hfits : ∀ past name given, Taken calls past (.registerApp name given) → Fits past name) :
    Faithful calls := by
  have hpast : ∀ past, past <+: calls → Sound past (afterCalls past) := fun past hprefix =>
    sound_of_fits fun before name given htaken => hfits before name given (htaken.trans hprefix)
  have hbefore : ∀ {past c}, Taken calls past c → Sound past (afterCalls past) := fun htaken =>
    hpast _ ((List.prefix_append _ _).trans htaken)
  have hwhole := hpast calls List.prefix_rfl
  refine ⟨fun past name given htaken hanswer => ?_, hwhole.once, ?_, ?_, ?_, ?_⟩
  · have hcases := registerApp_cases (afterCalls past) name given
    rw [afterCalls_snoc]
    simp only [next]
    generalize registerApp (afterCalls past) (some name) given = answer at hcases hanswer
    cases hcases with
    | refuses _ => cases hanswer
    | registers hname hnew hfree =>
      have hshort := (hfits past name given htaken).short hfree
      have hfind := find_registered hname given hshort hnew hfree
      exact ⟨by rw [state, hfind]; rfl, by rw [limits, hfind]; rfl⟩
  · have htaken := hwhole.taken
    omega
  · intro past c lifecycle htaken hmarks hregistered
    have hfound := ((hbefore htaken).found c.name).mpr hregistered
    obtain ⟨slot, hslot⟩ := Option.ne_none_iff_exists'.mp hfound
    have hfind := find_setState (afterCalls past) c.name lifecycle
    rw [afterCalls_snoc, next_of_marks hmarks]
    exact ⟨by rw [state, hfind, hslot]; rfl, by rw [limits, limits, hfind, hslot]; rfl⟩
  · intro past c lifecycle htaken hmarks hunregistered
    have habsent := mt ((hbefore htaken).found c.name).mp hunregistered
    rw [afterCalls_snoc, next_of_marks hmarks]
    exact setState_absent (not_not.mp habsent) lifecycle
  · intro past c htaken name hname
    exact isolated_of_sound c (fun new given hc => hfits past new given (hc ▸ htaken)) hname

/-- The registry is faithful exactly in the runs that register a name which does not fit in a slot
only when no slot is free. -/
theorem faithful_iff_fits (calls : List SupervisorCall) : Faithful calls ↔
    ∀ past name given, Taken calls past (.registerApp name given) → Fits past name :=
  ⟨fun hfaithful _ _ _ htaken => hfaithful.fits htaken, faithful_of_fits⟩

/-- A name of 25 bytes. -/
def longName : Text := lit "temperature-sensor-logger"

/-- The app is registered, and then found under a name that nobody gave. -/
theorem overlong_name_lost :
    (registerApp initial (some longName) ⟨4096, 20000, 0⟩).2 = true ∧
      ¬ Faithful [.registerApp longName ⟨4096, 20000, 0⟩] := by
  refine ⟨by decide, fun hfaithful => ?_⟩
  have hkept := hfaithful.kept [] longName ⟨4096, 20000, 0⟩ List.prefix_rfl (by decide)
  exact absurd hkept.2 (by decide)

end Esp32Shell.Arduino.Supervisor
