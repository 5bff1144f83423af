import Esp32Shell.Library.CText
import Mathlib.Data.Fin.Basic
import Mathlib.Data.List.FinRange

/-!
# The Wi-Fi service

`WifiService` keeps two station profiles and drives the radio from a tick. The
calls a method makes to the driver are returned beside the new state; what the
driver reports is an input of the tick.
-/
namespace Esp32Shell.Arduino.WifiService

open Esp32Shell.Library.CText

inductive WifiState where
  | offline | connecting | connected
  deriving DecidableEq, Repr

/-- The calls to the driver that change it. -/
inductive DriverCall where
  | begin (ssid password : Text)
  | disconnect
  deriving DecidableEq

/-- What the driver reports when it is asked. -/
structure Driver where
  connected : Bool
  connecting : Bool
  deriving DecidableEq

abbrev maxProfiles : Nat := 2
def retryIntervalMs : Nat := 10000
def reconnectCooldownMs : Nat := 500

/-- `char ssid[33]`, `char password[65]`. -/
structure Profile where
  ssid : Text
  password : Text
  enabled : Bool
  ssid_le : ssid.length ≤ 32
  password_le : password.length ≤ 64
  deriving DecidableEq

def Profile.cleared : Profile := ⟨[], [], false, by simp, by simp⟩

/-- `strncpy` into both arrays, each terminated at its last byte. -/
def Profile.copied (ssid password : Text) : Profile where
  ssid := ssid.take 32
  password := password.take 64
  enabled := true
  ssid_le := List.length_take_le 32 ssid
  password_le := List.length_take_le 64 password

structure Service where
  profiles_ : Fin maxProfiles → Profile
  nextAttemptAt_ : UInt32
  state_ : WifiState
  configured_ : Bool
  cooldown_ : Bool
  nextProfile_ : Fin maxProfiles
  activeSlot_ : Fin maxProfiles

def initial : Service where
  profiles_ := fun _ => .cleared
  nextAttemptAt_ := 0
  state_ := .offline
  configured_ := false
  cooldown_ := false
  nextProfile_ := 0
  activeSlot_ := 0

def anyConfigured (profiles : Fin maxProfiles → Profile) : Bool :=
  (List.finRange maxProfiles).any fun slot => (profiles slot).enabled

/-- The first enabled profile from `nextProfile_` on. -/
def nextProfile (s : Service) : Option (Fin maxProfiles) :=
  ((List.finRange maxProfiles).map fun offset => s.nextProfile_ + offset).find? fun slot =>
    (s.profiles_ slot).enabled

def setProfile (s : Service) (slot : Fin maxProfiles) (profile : Profile) : Service :=
  let profiles := fun i => if i = slot then profile else s.profiles_ i
  { s with profiles_ := profiles, configured_ := anyConfigured profiles }

/-- `configure`; `none` is a null pointer. -/
def configure (s : Service) (slot : Nat) (ssid password : Option Text) (now : UInt32) :
    Service × Bool :=
  match ssid, password with
  | some ssid, some password =>
    if h : slot < maxProfiles ∧ ssid ≠ [] then
      ({ setProfile s ⟨slot, h.1⟩ (.copied ssid password) with
          nextAttemptAt_ := now, state_ := .offline, cooldown_ := false }, true)
    else (s, false)
  | _, _ => (s, false)

/-- `clear(slot)`. -/
def clearSlot (s : Service) (slot : Nat) : Service × List DriverCall :=
  if h : slot < maxProfiles then
    let cleared := setProfile s ⟨slot, h⟩ .cleared
    if s.activeSlot_ = slot then
      ({ cleared with state_ := .offline, nextAttemptAt_ := 0, cooldown_ := false }, [.disconnect])
    else (cleared, [])
  else (s, [])

/-- `clear()`. -/
def clear (s : Service) : Service × List DriverCall :=
  let first := clearSlot s 0
  let second := clearSlot first.1 1
  ({ second.1 with configured_ := false, state_ := .offline }, .disconnect :: first.2 ++ second.2)

def tick (s : Service) (now : UInt32) (driver : Driver) : Service × List DriverCall :=
  if ¬ s.configured_ then ({ s with state_ := .offline }, [])
  else if driver.connected then ({ s with state_ := .connected }, [])
  else if driver.connecting then ({ s with state_ := .connecting }, [])
  else if now < s.nextAttemptAt_ then ({ s with state_ := .offline }, [])
  else
    match nextProfile s with
    | none => ({ s with state_ := .offline, cooldown_ := false }, [])
    | some slot =>
      -- `WiFi.begin()` is rejected while the previous station attempt is still active
      if s.state_ = .connecting then
        ({ s with
            state_ := .offline
            cooldown_ := true
            nextAttemptAt_ := now + UInt32.ofNat reconnectCooldownMs }, [.disconnect])
      else
        ({ s with
            cooldown_ := false
            activeSlot_ := slot
            state_ := .connecting
            nextAttemptAt_ := now + UInt32.ofNat retryIntervalMs
            nextProfile_ := slot + 1 },
          [.begin (s.profiles_ slot).ssid (s.profiles_ slot).password])

/-! ### What a call does -/

/-- The service that an accepted `configure` leaves. -/
def accepted (s : Service) (slot : Fin maxProfiles) (ssid password : Text) (now : UInt32) : Service :=
  { setProfile s slot (.copied ssid password) with
    nextAttemptAt_ := now, state_ := .offline, cooldown_ := false }

theorem configure_cases (s : Service) (i : Nat) (ssid password : Option Text) (now : UInt32) :
    (∃ (slot : Fin maxProfiles) (t p : Text), i = slot ∧ ssid = some t ∧ password = some p ∧ t ≠ [] ∧
      configure s i ssid password now = (accepted s slot t p now, true)) ∨
    ((∀ t p, ssid = some t → password = some p → i < maxProfiles → t = []) ∧
      configure s i ssid password now = (s, false)) := by
  cases ssid with
  | none => exact .inr ⟨by simp, rfl⟩
  | some t =>
    cases password with
    | none => exact .inr ⟨by simp, rfl⟩
    | some p =>
      by_cases hok : i < maxProfiles ∧ t ≠ []
      · exact .inl ⟨⟨i, hok.1⟩, t, p, rfl, rfl, rfl, hok.2, dif_pos hok⟩
      · refine .inr ⟨fun t' p' ht _ hi => ?_, dif_neg hok⟩
        rw [← Option.some_inj.mp ht]
        exact not_not.mp fun hne => hok ⟨hi, hne⟩

theorem clearSlot_cases (s : Service) (i : Nat) :
    (∃ slot : Fin maxProfiles, i = slot ∧ s.activeSlot_ = slot ∧
      clearSlot s i = ({ setProfile s slot .cleared with
        state_ := .offline, nextAttemptAt_ := 0, cooldown_ := false }, [.disconnect])) ∨
    (∃ slot : Fin maxProfiles, i = slot ∧ s.activeSlot_ ≠ slot ∧
      clearSlot s i = (setProfile s slot .cleared, [])) ∨
    (¬ i < maxProfiles ∧ clearSlot s i = (s, [])) := by
  by_cases hi : i < maxProfiles
  · by_cases hactive : s.activeSlot_ = i
    · refine .inl ⟨⟨i, hi⟩, rfl, Fin.ext hactive, ?_⟩
      rw [clearSlot, dif_pos hi, if_pos hactive]
    · refine .inr (.inl ⟨⟨i, hi⟩, rfl, fun h => hactive (congrArg Fin.val h), ?_⟩)
      rw [clearSlot, dif_pos hi, if_neg hactive]
  · refine .inr (.inr ⟨hi, ?_⟩)
    rw [clearSlot, dif_neg hi]

/-- The driver reports neither an association nor an attempt. -/
def Idle (driver : Driver) : Prop := driver.connected = false ∧ driver.connecting = false

instance (driver : Driver) : Decidable (Idle driver) := inferInstanceAs (Decidable (_ ∧ _))

/-- The state a tick notes when it makes no call. -/
def noted (s : Service) (driver : Driver) : WifiState :=
  if ¬ s.configured_ then .offline
  else if driver.connected then .connected
  else if driver.connecting then .connecting
  else .offline

inductive TickStep (s : Service) (now : UInt32) (driver : Driver) : Service × List DriverCall → Prop where
  | waits (cooldown : Bool)
      (h : s.configured_ = false ∨ ¬ Idle driver ∨ now < s.nextAttemptAt_ ∨ nextProfile s = none) :
      TickStep s now driver ({ s with state_ := noted s driver, cooldown_ := cooldown }, [])
  | ends (slot : Fin maxProfiles) (hs : nextProfile s = some slot) (hc : s.configured_ = true)
      (hi : Idle driver) (hnow : ¬ now < s.nextAttemptAt_) (hstate : s.state_ = .connecting) :
      TickStep s now driver ({ s with
        state_ := .offline
        cooldown_ := true
        nextAttemptAt_ := now + UInt32.ofNat reconnectCooldownMs }, [.disconnect])
  | begins (slot : Fin maxProfiles) (hs : nextProfile s = some slot) (hc : s.configured_ = true)
      (hi : Idle driver) (hnow : ¬ now < s.nextAttemptAt_) (hstate : s.state_ ≠ .connecting) :
      TickStep s now driver ({ s with
        cooldown_ := false
        activeSlot_ := slot
        state_ := .connecting
        nextAttemptAt_ := now + UInt32.ofNat retryIntervalMs
        nextProfile_ := slot + 1 }, [.begin (s.profiles_ slot).ssid (s.profiles_ slot).password])

theorem tick_cases (s : Service) (now : UInt32) (driver : Driver) :
    TickStep s now driver (tick s now driver) := by
  by_cases hc : s.configured_ = true
  · rw [tick, if_neg (not_not.mpr hc)]
    by_cases hcon : driver.connected = true
    · have hn : noted s driver = .connected := by simp [noted, hc, hcon]
      rw [if_pos hcon, ← hn]
      exact .waits s.cooldown_ (.inr (.inl (by simp [Idle, hcon])))
    rw [if_neg hcon]
    by_cases hcing : driver.connecting = true
    · have hn : noted s driver = .connecting := by simp [noted, hc, hcon, hcing]
      rw [if_pos hcing, ← hn]
      exact .waits s.cooldown_ (.inr (.inl (by simp [Idle, hcing])))
    have hi : Idle driver := ⟨by simpa using hcon, by simpa using hcing⟩
    have hn : noted s driver = .offline := by simp [noted, hcon, hcing]
    rw [if_neg hcing]
    by_cases hnow : now < s.nextAttemptAt_
    · rw [if_pos hnow, ← hn]
      exact .waits s.cooldown_ (.inr (.inr (.inl hnow)))
    rw [if_neg hnow]
    cases hs : nextProfile s with
    | none =>
      simp only [← hn]
      exact .waits false (.inr (.inr (.inr hs)))
    | some slot =>
      by_cases hstate : s.state_ = .connecting
      · simp only [if_pos hstate]
        exact .ends slot hs hc hi hnow hstate
      · simp only [if_neg hstate]
        exact .begins slot hs hc hi hnow hstate
  · have hn : noted s driver = .offline := by simp [noted, hc]
    rw [tick, if_pos hc, ← hn]
    exact .waits s.cooldown_ (.inl (by simpa using hc))

theorem nextProfile_enabled {s : Service} {slot : Fin maxProfiles} (h : nextProfile s = some slot) :
    (s.profiles_ slot).enabled = true :=
  List.find?_some (p := fun slot => (s.profiles_ slot).enabled) h

/-- Some profile can be tried. -/
theorem nextProfile_isSome (s : Service) : (nextProfile s).isSome = anyConfigured s.profiles_ := by
  have hperm : ∀ slot, slot ∈ (List.finRange maxProfiles).map fun offset => s.nextProfile_ + offset := by
    have h : ∀ first slot : Fin maxProfiles,
        slot ∈ (List.finRange maxProfiles).map fun offset => first + offset := by decide
    exact h s.nextProfile_
  rw [Bool.eq_iff_iff, nextProfile, List.find?_isSome, anyConfigured, List.any_eq_true]
  constructor
  · rintro ⟨slot, -, he⟩
    exact ⟨slot, List.mem_finRange slot, he⟩
  · rintro ⟨slot, -, he⟩
    exact ⟨slot, hperm slot, he⟩

end Esp32Shell.Arduino.WifiService
