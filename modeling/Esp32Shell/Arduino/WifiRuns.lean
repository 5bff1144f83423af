import Esp32Shell.Arduino.WifiService
import Esp32Shell.Library.Register
import Esp32Shell.Library.Run

/-!
# Runs of the Wi-Fi service

Any sequence of calls of its methods, with the clock and the driver as they show
at each call. The profile of a slot is a register: `configure` writes it, and
both overloads of `clear` clear it.
-/
namespace Esp32Shell.Arduino.WifiRuns

open Esp32Shell.Library.CText Esp32Shell.Library.Register Esp32Shell.Library.Run
open WifiService

/-- A call of a method; `configure` without a slot is that of slot 0. -/
inductive WifiCall where
  | configure (slot : Nat) (ssid password : Option Text) (now : UInt32)
  | clearSlot (slot : Nat)
  | clear
  | tick (now : UInt32) (driver : Driver)

def perform (s : Service) : WifiCall → Service × List DriverCall
  | .configure slot ssid password now => ((configure s slot ssid password now).1, [])
  | .clearSlot slot => clearSlot s slot
  | .clear => clear s
  | .tick now driver => tick s now driver

def next (s : Service) (c : WifiCall) : Service := (perform s c).1

/-- A service after a sequence of calls. -/
def afterCalls (calls : List WifiCall) : Service := after next initial calls

theorem afterCalls_snoc (calls : List WifiCall) (c : WifiCall) :
    afterCalls (calls ++ [c]) = (perform (afterCalls calls) c).1 := after_snoc calls c

/-! ### Profiles -/

/-- What a successful `configure` of the slot is given. -/
def configured (slot : Fin maxProfiles) : WifiCall → Option (Text × Text)
  | .configure i (some ssid) (some password) _ =>
    if i = slot ∧ ssid ≠ [] then some (ssid, password) else none
  | _ => none

def isCleared (slot : Fin maxProfiles) : WifiCall → Bool
  | .clearSlot i => decide (i = slot)
  | .clear => true
  | _ => false

/-- The latest successful `configure` of the slot, unless it is cleared since. -/
def given (slot : Fin maxProfiles) (calls : List WifiCall) : Option (Text × Text) :=
  register (configured slot) (isCleared slot) calls

theorem configured_eq_some {slot : Fin maxProfiles} {c : WifiCall} {g : Text × Text}
    (h : configured slot c = some g) : ∃ i ssid password now,
      c = .configure i (some ssid) (some password) now ∧ g = (ssid, password) := by
  cases c with
  | configure i ssid password now =>
    cases ssid with
    | none => cases h
    | some ssid =>
      cases password with
      | none => cases h
      | some password =>
        rw [configured, Option.ite_none_right_eq_some] at h
        exact ⟨i, ssid, password, now, rfl, (Option.some_inj.mp h.2).symm⟩
  | clearSlot i => cases h
  | clear => cases h
  | tick now driver => cases h

/-- The profile that a `configure` leaves, or that of a slot without one. -/
def profileOf : Option (Text × Text) → Profile
  | some (ssid, password) => .copied ssid password
  | none => .cleared

theorem profileOf_enabled (held : Option (Text × Text)) : (profileOf held).enabled = held.isSome := by
  cases held <;> rfl

theorem setProfile_profiles (s : Service) (slot i : Fin maxProfiles) (profile : Profile) :
    (setProfile s slot profile).profiles_ i = if i = slot then profile else s.profiles_ i := rfl

theorem configure_profiles (s : Service) (i : Nat) (ssid password : Option Text) (now : UInt32)
    (slot : Fin maxProfiles) : (configure s i ssid password now).1.profiles_ slot =
      ((configured slot (.configure i ssid password now)).map fun g => .copied g.1 g.2).getD
        (s.profiles_ slot) := by
  rcases configure_cases s i ssid password now with
    ⟨j, t, p, rfl, rfl, rfl, ht, hdone⟩ | ⟨hrefused, hdone⟩
  · rw [hdone, configured]
    by_cases hj : slot = j
    · rw [hj, if_pos ⟨rfl, ht⟩]
      exact if_pos rfl
    · rw [if_neg fun h => hj (Fin.ext h.1).symm]
      exact if_neg hj
  · have hnone : configured slot (.configure i ssid password now) = none := by
      cases ssid with
      | none => rfl
      | some t =>
        cases password with
        | none => rfl
        | some p =>
          exact if_neg fun h => h.2 (hrefused t p rfl rfl (h.1 ▸ slot.isLt))
    rw [hdone, hnone]
    rfl

theorem clearSlot_profiles (s : Service) (i : Nat) (slot : Fin maxProfiles) :
    (clearSlot s i).1.profiles_ slot = if i = slot then .cleared else s.profiles_ slot := by
  rcases clearSlot_cases s i with ⟨j, rfl, -, hdone⟩ | ⟨j, rfl, -, hdone⟩ | ⟨hi, hdone⟩
  · simp only [hdone, setProfile_profiles, Fin.ext_iff, eq_comm]
  · simp only [hdone, setProfile_profiles, Fin.ext_iff, eq_comm]
  · rw [hdone, if_neg fun he : i = slot => hi (he ▸ slot.isLt)]

theorem clear_profiles (s : Service) (slot : Fin maxProfiles) :
    (clear s).1.profiles_ slot = .cleared := by
  have hlt : slot.val < 2 := slot.isLt
  have hslot : 1 = slot.val ∨ 0 = slot.val := by omega
  show (clearSlot (clearSlot s 0).1 1).1.profiles_ slot = .cleared
  rw [clearSlot_profiles, clearSlot_profiles]
  rcases hslot with h | h
  · rw [if_pos h]
  · rw [if_pos h, ite_self]

theorem tick_profiles (s : Service) (now : UInt32) (driver : Driver) :
    (tick s now driver).1.profiles_ = s.profiles_ := by
  have hcases := tick_cases s now driver
  generalize tick s now driver = next at hcases
  cases hcases <;> rfl

theorem perform_profiles {s : Service} {slot : Fin maxProfiles} {held : Option (Text × Text)}
    (h : s.profiles_ slot = profileOf held) (c : WifiCall) : (perform s c).1.profiles_ slot =
      profileOf (registerStep (configured slot) (isCleared slot) held c) := by
  cases c with
  | configure i ssid password now =>
    have hstep : registerStep (configured slot) (isCleared slot) held (.configure i ssid password now) =
        (configured slot (.configure i ssid password now)).or held := by
      rw [registerStep]
      cases configured slot (.configure i ssid password now) <;> rfl
    rw [perform, configure_profiles, hstep, h]
    cases configured slot (.configure i ssid password now) <;> rfl
  | clearSlot i =>
    rw [perform, clearSlot_profiles, h]
    by_cases hi : i = slot
    · simp [registerStep, configured, isCleared, hi, profileOf]
    · simp [registerStep, configured, isCleared, hi]
  | clear =>
    rw [perform, clear_profiles]
    rfl
  | tick now driver =>
    rw [perform, tick_profiles, h]
    rfl

/-- Every profile of a run is the one most recently given. -/
theorem afterCalls_profiles (slot : Fin maxProfiles) (calls : List WifiCall) :
    (afterCalls calls).profiles_ slot = profileOf (given slot calls) := by
  induction calls using List.reverseRecOn with
  | nil => rfl
  | append_singleton calls c ih => rw [afterCalls_snoc, given, register_snoc, perform_profiles ih]; rfl

theorem anyConfigured_eq_false {profiles : Fin maxProfiles → Profile}
    (h : ∀ slot, (profiles slot).enabled = false) : anyConfigured profiles = false := by
  rw [anyConfigured, List.any_eq_false]
  intro slot _
  rw [h slot]
  exact Bool.false_ne_true

theorem clearSlot_configured {s : Service} (h : s.configured_ = anyConfigured s.profiles_) (i : Nat) :
    (clearSlot s i).1.configured_ = anyConfigured (clearSlot s i).1.profiles_ := by
  rcases clearSlot_cases s i with ⟨j, -, -, hdone⟩ | ⟨j, -, -, hdone⟩ | ⟨-, hdone⟩
  · rw [hdone]
    rfl
  · rw [hdone]
    rfl
  · rw [hdone]
    exact h

theorem perform_configured {s : Service} (h : s.configured_ = anyConfigured s.profiles_)
    (c : WifiCall) : (perform s c).1.configured_ = anyConfigured (perform s c).1.profiles_ := by
  cases c with
  | configure i ssid password now =>
    rw [perform]
    rcases configure_cases s i ssid password now with ⟨j, t, p, -, -, -, -, hdone⟩ | ⟨-, hdone⟩
    · rw [hdone]
      rfl
    · rw [hdone]
      exact h
  | clearSlot i => exact clearSlot_configured h i
  | clear =>
    have hnone : ∀ slot, ((clear s).1.profiles_ slot).enabled = false := fun slot => by
      rw [clear_profiles]
      rfl
    exact (anyConfigured_eq_false hnone).symm
  | tick now driver =>
    have hcases := tick_cases s now driver
    rw [perform, tick_profiles]
    generalize tick s now driver = next at hcases
    cases hcases <;> exact h

/-- A run is configured exactly as long as a profile is enabled. -/
theorem afterCalls_configured (calls : List WifiCall) :
    (afterCalls calls).configured_ = anyConfigured (afterCalls calls).profiles_ :=
  after_invariant (P := fun s : Service => s.configured_ = anyConfigured s.profiles_) (by decide)
    (fun _ c h => perform_configured h c) calls

/-! ### Attempts -/

/-- A call of a run, and the service that takes it. -/
abbrev Moment := Service × WifiCall

/-- The driver calls of a moment. -/
def made (m : Moment) : List DriverCall := (perform m.1 m.2).2

def Begins (m : Moment) : Prop := ∃ ssid password, .begin ssid password ∈ made m

/-- The deadline has passed, and the driver is idle. -/
def Due (s : Service) (now : UInt32) (driver : Driver) : Prop :=
  s.configured_ = true ∧ Idle driver ∧ ¬ now < s.nextAttemptAt_

instance (s : Service) (now : UInt32) (driver : Driver) : Decidable (Due s now driver) :=
  inferInstanceAs (Decidable (_ ∧ _ ∧ _))

theorem begin_notMem_clearSlot (s : Service) (i : Nat) (ssid password : Text) :
    .begin ssid password ∉ (clearSlot s i).2 := by
  intro h
  rcases clearSlot_cases s i with ⟨j, -, -, hdone⟩ | ⟨j, -, -, hdone⟩ | ⟨-, hdone⟩
  · rw [hdone] at h
    cases List.mem_singleton.mp h
  · rw [hdone] at h
    cases h
  · rw [hdone] at h
    cases h

theorem begin_notMem_clear (s : Service) (ssid password : Text) :
    .begin ssid password ∉ (clear s).2 := by
  intro h
  rcases List.mem_cons.mp h with h | h
  · cases h
  · rcases List.mem_append.mp h with h | h
    · exact begin_notMem_clearSlot _ _ _ _ h
    · exact begin_notMem_clearSlot _ _ _ _ h

/-- Only a tick that is due begins, with the next enabled profile. -/
theorem begin_mem_made {m : Moment} {ssid password : Text} (h : .begin ssid password ∈ made m) :
    ∃ now driver slot, m.2 = .tick now driver ∧ Due m.1 now driver ∧ m.1.state_ ≠ .connecting ∧
      nextProfile m.1 = some slot ∧ ssid = (m.1.profiles_ slot).ssid ∧
      password = (m.1.profiles_ slot).password ∧ (perform m.1 m.2).1.activeSlot_ = slot ∧
      (perform m.1 m.2).1.nextProfile_ = slot + 1 ∧ (perform m.1 m.2).1.state_ = .connecting := by
  obtain ⟨s, c⟩ := m
  cases c with
  | configure i ssid password now => cases h
  | clearSlot i => exact absurd h (begin_notMem_clearSlot s i ssid password)
  | clear => exact absurd h (begin_notMem_clear s ssid password)
  | tick now driver =>
    refine ⟨now, driver, ?_⟩
    replace h : .begin ssid password ∈ (tick s now driver).2 := h
    have hcases := tick_cases s now driver
    generalize hdone : tick s now driver = next at hcases h
    cases hcases with
    | waits => cases h
    | ends => simp at h
    | begins slot hs hc hi hnow hstate =>
      obtain ⟨hssid, hpassword⟩ := DriverCall.begin.inj (List.mem_singleton.mp h)
      exact ⟨slot, rfl, ⟨hc, hi, hnow⟩, hstate, hs, hssid, hpassword,
        congrArg (fun next => next.1.activeSlot_) hdone,
        congrArg (fun next => next.1.nextProfile_) hdone,
        congrArg (fun next => next.1.state_) hdone⟩

theorem clearSlot_slots (s : Service) (i : Nat) :
    (clearSlot s i).1.nextProfile_ = s.nextProfile_ ∧ (clearSlot s i).1.activeSlot_ = s.activeSlot_ := by
  rcases clearSlot_cases s i with ⟨j, -, -, hdone⟩ | ⟨j, -, -, hdone⟩ | ⟨-, hdone⟩
  · rw [hdone]
    exact ⟨rfl, rfl⟩
  · rw [hdone]
    exact ⟨rfl, rfl⟩
  · rw [hdone]
    exact ⟨rfl, rfl⟩

/-- A tick begins exactly when it is due and the previous attempt has been ended. -/
theorem tick_begins_iff {s : Service} (h : s.configured_ = anyConfigured s.profiles_) (now : UInt32)
    (driver : Driver) : Begins (s, .tick now driver) ↔ Due s now driver ∧ s.state_ ≠ .connecting := by
  constructor
  · intro hb
    obtain ⟨ssid, password, hmem⟩ := hb
    obtain ⟨now', driver', slot, htick, hdue, hstate, -⟩ := begin_mem_made hmem
    cases htick
    exact ⟨hdue, hstate⟩
  · intro hall
    obtain ⟨⟨hc, hi, hnow⟩, hstate⟩ := hall
    have hcases := tick_cases s now driver
    simp only [Begins, made, perform]
    generalize tick s now driver = done at hcases
    cases hcases with
    | waits _ hwait =>
      rcases hwait with hn | hn | hn | hn
      · rw [hc] at hn
        cases hn
      · exact absurd hi hn
      · exact absurd hn hnow
      · have hsome := nextProfile_isSome s
        rw [hn, ← h, hc] at hsome
        cases hsome
    | ends _ _ _ _ _ hconnecting => exact absurd hconnecting hstate
    | begins slot => exact ⟨_, _, List.mem_singleton_self _⟩

/-- Between the attempts the cursor and the active slot stand still. -/
theorem perform_slots {m : Moment} (h : ¬ Begins m) :
    (perform m.1 m.2).1.nextProfile_ = m.1.nextProfile_ ∧
      (perform m.1 m.2).1.activeSlot_ = m.1.activeSlot_ := by
  obtain ⟨s, c⟩ := m
  cases c with
  | configure i ssid password now =>
    show (configure s i ssid password now).1.nextProfile_ = s.nextProfile_ ∧
      (configure s i ssid password now).1.activeSlot_ = s.activeSlot_
    rcases configure_cases s i ssid password now with ⟨j, t, p, -, -, -, -, hdone⟩ | ⟨-, hdone⟩
    · rw [hdone]
      exact ⟨rfl, rfl⟩
    · rw [hdone]
      exact ⟨rfl, rfl⟩
  | clearSlot i => exact clearSlot_slots s i
  | clear =>
    have hfirst := clearSlot_slots s 0
    have hsecond := clearSlot_slots (clearSlot s 0).1 1
    exact ⟨hsecond.1.trans hfirst.1, hsecond.2.trans hfirst.2⟩
  | tick now driver =>
    have hcases := tick_cases s now driver
    simp only [Begins, made, perform] at h ⊢
    generalize tick s now driver = next at hcases h
    cases hcases with
    | waits => exact ⟨rfl, rfl⟩
    | ends => exact ⟨rfl, rfl⟩
    | begins slot => exact absurd ⟨_, _, List.mem_singleton_self _⟩ h

end Esp32Shell.Arduino.WifiRuns
