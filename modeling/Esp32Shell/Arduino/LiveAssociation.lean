import Esp32Shell.Arduino.WifiRuns

/-!
# The live association

What the radio is at, from the calls that the driver has received, and the profile
that the service reports as active. A `clear` of the active slot disconnects; a
`configure` of it does not.
-/
namespace Esp32Shell.Arduino.LiveAssociation

open Esp32Shell.Library.CText Esp32Shell.Library.Register Esp32Shell.Library.Run
open WifiService WifiRuns

/-- What a call to the driver begins. -/
def begun : DriverCall → Option (Text × Text)
  | .begin ssid password => some (ssid, password)
  | .disconnect => none

def ends : DriverCall → Bool
  | .begin _ _ => false
  | .disconnect => true

/-- The calls that the driver receives in a run, in their order. -/
def driverCalls (calls : List WifiCall) : List DriverCall := (moments next initial calls).flatMap made

/-- What the latest begin was given, unless a disconnect has followed it. -/
def live (calls : List WifiCall) : Option (Text × Text) := register begun ends (driverCalls calls)

/-- The active slot is enabled and holds the credentials. -/
structure Holds (s : Service) (credentials : Text × Text) : Prop where
  enabled : (s.profiles_ s.activeSlot_).enabled = true
  ssid_eq : (s.profiles_ s.activeSlot_).ssid = credentials.1
  password_eq : (s.profiles_ s.activeSlot_).password = credentials.2

/-- In every state of the run, the active slot holds what the association was begun with. -/
def Current (calls : List WifiCall) : Prop :=
  ∀ past, past <+: calls → ∀ credentials ∈ live past, Holds (afterCalls past) credentials

/-- Each successful `configure` of the active slot during an association gives its credentials again,
as the buffers cut them. -/
def Regiven (calls : List WifiCall) : Prop :=
  ∀ past c, Taken calls past c → ∀ credentials ∈ live past,
    ∀ g ∈ configured (afterCalls past).activeSlot_ c, (g.1.take 32, g.2.take 64) = credentials

theorem live_snoc (calls : List WifiCall) (c : WifiCall) : live (calls ++ [c]) =
    (made (afterCalls calls, c)).foldl (registerStep begun ends) (live calls) := by
  rw [live, driverCalls, moments_snoc, List.flatMap_append, register, List.foldl_append]
  simp [live, register, driverCalls, afterCalls]

/-- After a disconnect nothing is live. -/
theorem foldl_disconnects {calls : List DriverCall} (hall : ∀ call ∈ calls, call = .disconnect)
    (hne : calls ≠ []) (held : Option (Text × Text)) :
    calls.foldl (registerStep begun ends) held = none := by
  obtain rfl | ⟨calls, call, rfl⟩ := List.eq_nil_or_concat calls
  · exact absurd rfl hne
  · rw [List.concat_eq_append] at hall ⊢
    rw [List.foldl_append, hall call (by simp)]
    rfl

theorem clearSlot_disconnects (s : Service) (i : Nat) : ∀ call ∈ (clearSlot s i).2, call = .disconnect := by
  intro call hcall
  cases call with
  | begin ssid password => exact absurd hcall (begin_notMem_clearSlot s i ssid password)
  | disconnect => rfl

/-- A call that asks the driver for nothing leaves in the active slot what it had, or what it is given. -/
theorem quiet_profile {s : Service} {c : WifiCall} (hquiet : made (s, c) = []) :
    (perform s c).1.profiles_ s.activeSlot_ =
      ((configured s.activeSlot_ c).map fun g => .copied g.1 g.2).getD (s.profiles_ s.activeSlot_) := by
  cases c with
  | configure i ssid password now => exact configure_profiles s i ssid password now s.activeSlot_
  | clearSlot i =>
    simp only [made, perform] at hquiet ⊢
    rcases clearSlot_cases s i with ⟨j, -, -, hdone⟩ | ⟨j, -, hne, hdone⟩ | ⟨-, hdone⟩
    · rw [hdone] at hquiet
      cases hquiet
    · rw [hdone]
      exact if_neg hne
    · rw [hdone]
      rfl
  | clear => cases hquiet
  | tick now driver =>
    rw [perform, tick_profiles]
    rfl

/-- A call begins an attempt, or leaves the driver alone, or does nothing but disconnect. -/
theorem made_cases (m : Moment) : (∃ ssid password, made m = [.begin ssid password]) ∨ made m = [] ∨
    (made m ≠ [] ∧ ∀ call ∈ made m, call = .disconnect) := by
  obtain ⟨s, c⟩ := m
  cases c with
  | configure i ssid password now => exact .inr (.inl rfl)
  | clearSlot i =>
    by_cases hquiet : made (s, .clearSlot i) = []
    · exact .inr (.inl hquiet)
    · exact .inr (.inr ⟨hquiet, clearSlot_disconnects s i⟩)
  | clear =>
    refine .inr (.inr ⟨List.cons_ne_nil _ _, fun call hcall => ?_⟩)
    rcases List.mem_cons.mp hcall with hcall | hcall
    · exact hcall
    · rcases List.mem_append.mp hcall with hcall | hcall
      · exact clearSlot_disconnects _ _ call hcall
      · exact clearSlot_disconnects _ _ call hcall
  | tick now driver =>
    simp only [made, perform]
    have hcases := tick_cases s now driver
    generalize tick s now driver = done at hcases
    cases hcases with
    | waits => exact .inr (.inl rfl)
    | ends => exact .inr (.inr ⟨List.cons_ne_nil _ _, fun call hcall => List.mem_singleton.mp hcall⟩)
    | begins slot => exact .inl ⟨_, _, rfl⟩

/-- A begin is given what the active slot then holds. -/
theorem holds_begun {m : Moment} {ssid password : Text} (h : made m = [.begin ssid password]) :
    Holds (perform m.1 m.2).1 (ssid, password) := by
  have hmem : .begin ssid password ∈ made m := h ▸ List.mem_singleton_self _
  obtain ⟨now, driver, slot, htick, -, -, hnext, hssid, hpassword, hactive, -, -⟩ := begin_mem_made hmem
  have hprofile : (perform m.1 m.2).1.profiles_ (perform m.1 m.2).1.activeSlot_ = m.1.profiles_ slot := by
    rw [hactive, htick]
    exact congrFun (tick_profiles m.1 now driver) slot
  refine ⟨?_, ?_, ?_⟩
  · rw [hprofile]
    exact nextProfile_enabled hnext
  · rw [hprofile]
    exact hssid.symm
  · rw [hprofile]
    exact hpassword.symm

theorem not_begins_of_quiet {m : Moment} (hquiet : made m = []) : ¬ Begins m := by
  intro hb
  obtain ⟨ssid, password, hmem⟩ := hb
  rw [hquiet] at hmem
  cases hmem

/-- Without a driver call the active slot goes on holding the credentials exactly as long as it is
not given others. -/
theorem Holds.quiet_iff {s : Service} {c : WifiCall} {credentials : Text × Text} (h : Holds s credentials)
    (hquiet : made (s, c) = []) : Holds (perform s c).1 credentials ↔
      ∀ g ∈ configured s.activeSlot_ c, (g.1.take 32, g.2.take 64) = credentials := by
  have hactive : (perform s c).1.activeSlot_ = s.activeSlot_ :=
    (perform_slots (m := (s, c)) (not_begins_of_quiet hquiet)).2
  have hprofile := quiet_profile hquiet
  constructor
  · intro hstill g hg
    have hssid := hstill.ssid_eq
    have hpassword := hstill.password_eq
    rw [hactive, hprofile, hg] at hssid hpassword
    exact Prod.ext hssid hpassword
  · intro hsame
    cases hg : configured s.activeSlot_ c with
    | none =>
      rw [hg] at hprofile
      refine ⟨?_, ?_, ?_⟩
      · rw [hactive, hprofile]
        exact h.enabled
      · rw [hactive, hprofile]
        exact h.ssid_eq
      · rw [hactive, hprofile]
        exact h.password_eq
    | some g =>
      have hg' := hsame g hg
      rw [hg] at hprofile
      refine ⟨?_, ?_, ?_⟩
      · rw [hactive, hprofile]
        rfl
      · rw [hactive, hprofile, ← hg']
        rfl
      · rw [hactive, hprofile, ← hg']
        rfl

theorem live_of_quiet {calls : List WifiCall} {c : WifiCall} (hquiet : made (afterCalls calls, c) = []) :
    live (calls ++ [c]) = live calls := by
  rw [live_snoc, hquiet]
  rfl

/-- What survives the calls up to `past` survives the next one that gives the same again. -/
theorem current_snoc {past : List WifiCall} {c : WifiCall}
    (hpast : ∀ credentials ∈ live past, Holds (afterCalls past) credentials)
    (hgiven : ∀ credentials ∈ live past,
      ∀ g ∈ configured (afterCalls past).activeSlot_ c, (g.1.take 32, g.2.take 64) = credentials) :
    ∀ credentials ∈ live (past ++ [c]), Holds (afterCalls (past ++ [c])) credentials := by
  intro credentials hlive
  rw [afterCalls_snoc]
  rcases made_cases (afterCalls past, c) with ⟨ssid, password, hmade⟩ | hquiet | ⟨hne, hall⟩
  · rw [live_snoc, hmade] at hlive
    obtain rfl : (ssid, password) = credentials := Option.some_inj.mp hlive
    exact holds_begun hmade
  · rw [live_of_quiet hquiet] at hlive
    exact ((hpast credentials hlive).quiet_iff hquiet).mpr (hgiven credentials hlive)
  · rw [live_snoc, foldl_disconnects hall hne] at hlive
    cases hlive

/-- The active slot holds what the association was begun with, in every state of a run, exactly when
every `configure` of it during the association gives the same again. -/
theorem live_current_iff (calls : List WifiCall) : Current calls ↔ Regiven calls := by
  constructor
  · intro hcurrent past c htaken credentials hlive g hg
    have hquiet : made (afterCalls past, c) = [] := by
      obtain ⟨i, ssid, password, now, rfl, -⟩ := configured_eq_some hg
      rfl
    have hbefore := hcurrent past ((List.prefix_append _ _).trans htaken) credentials hlive
    have hafter := hcurrent (past ++ [c]) htaken credentials (by rw [live_of_quiet hquiet]; exact hlive)
    rw [afterCalls_snoc] at hafter
    exact (hbefore.quiet_iff hquiet).mp hafter g hg
  · intro hregiven past
    induction past using List.reverseRecOn with
    | nil =>
      intro _ credentials hlive
      cases hlive
    | append_singleton past c ih =>
      intro htaken
      exact current_snoc (ih ((List.prefix_append _ _).trans htaken)) (hregiven past c htaken)

/-- A profile that is given again with another password while the radio is at the network of the first. -/
def reconfigured : List WifiCall :=
  [.configure 0 (some (lit "home")) (some (lit "secret")) 0, .tick 0 ⟨false, false⟩,
    .tick 1000 ⟨true, false⟩, .configure 0 (some (lit "cafe")) (some (lit "guest")) 2000,
    .tick 3000 ⟨true, false⟩]

/-- The service reports `cafe` as active and connected, and the radio has stayed on `home`. -/
theorem reconfigured_association_kept : ¬ Current reconfigured := by
  intro hcurrent
  have hlive : live reconfigured = some (lit "home", lit "secret") := by decide
  have hssid := (hcurrent reconfigured List.prefix_rfl _ hlive).ssid_eq
  exact absurd hssid (by decide)

end Esp32Shell.Arduino.LiveAssociation
