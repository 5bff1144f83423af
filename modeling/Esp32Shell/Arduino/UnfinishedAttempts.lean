import Esp32Shell.Arduino.WifiRuns

/-!
# Unfinished attempts

Whether an attempt that never connected is ended before the next one begins. The
guard of a tick is the state that the call before left, and a tick before the
deadline, or a `configure`, leaves a state that no longer shows the attempt.
-/
namespace Esp32Shell.Arduino.UnfinishedAttempts

open Esp32Shell.Library.CText Esp32Shell.Library.Register Esp32Shell.Library.Run
open WifiService WifiRuns

def Disconnects (m : Moment) : Prop := .disconnect ∈ made m

/-- A tick asks the driver and is told that it is connected. -/
def SeesConnected (m : Moment) : Prop :=
  ∃ now driver, m.2 = .tick now driver ∧ m.1.configured_ = true ∧ driver.connected = true

/-- `first` begins an attempt, and up to `second` there is no other one and no connection is seen. -/
structure Unfinished (calls past : List WifiCall) (first : WifiCall) (between : List WifiCall)
    (second : WifiCall) : Prop where
  run : Taken calls (past ++ first :: between) second
  begun : Begins (afterCalls past, first)
  quiet : ∀ m ∈ moments next (afterCalls (past ++ [first])) between, ¬ Begins m ∧ ¬ SeesConnected m

/-- Every attempt that no tick has seen connected is ended before the next one. -/
def EndsAttempts (calls : List WifiCall) : Prop :=
  ∀ past first between second, Unfinished calls past first between second →
    Begins (afterCalls (past ++ first :: between), second) →
    ∃ m ∈ moments next (afterCalls (past ++ [first])) between, Disconnects m

/-- What a call tells of the attempt: that the driver is at it, or nothing of it. -/
def told (m : Moment) : Option Bool :=
  match m.2 with
  | .configure slot ssid password now =>
    if (configure m.1 slot ssid password now).2 then some false else none
  | .clearSlot _ => none
  | .clear => none
  | .tick _ driver => some (m.1.configured_ && !driver.connected && driver.connecting)

/-- Whenever a tick is due after an attempt that is neither connected nor ended, the latest tick or
successful `configure` since, if there is one, is a tick that saw the driver connecting. -/
def KnowsAttempts (calls : List WifiCall) : Prop :=
  ∀ past first between now driver, Unfinished calls past first between (.tick now driver) →
    (∀ m ∈ moments next (afterCalls (past ++ [first])) between, ¬ Disconnects m) →
    Due (afterCalls (past ++ first :: between)) now driver →
    latch told (moments next (afterCalls (past ++ [first])) between) ≠ some false

/-- A call that neither begins nor ends an attempt leaves `connecting` as it is told. -/
theorem perform_connecting {m : Moment} (hb : ¬ Begins m) (hd : ¬ Disconnects m) :
    (next m.1 m.2).state_ = .connecting ↔
      told m = some true ∨ told m = none ∧ m.1.state_ = .connecting := by
  obtain ⟨s, c⟩ := m
  cases c with
  | configure i ssid password now =>
    simp only [next, perform, told]
    rcases configure_cases s i ssid password now with ⟨j, t, p, -, -, -, -, hdone⟩ | ⟨-, hdone⟩
    · simp [hdone, accepted]
    · simp [hdone]
  | clearSlot i =>
    simp only [Disconnects, made, next, perform, told] at hd ⊢
    rcases clearSlot_cases s i with ⟨j, -, -, hdone⟩ | ⟨j, -, -, hdone⟩ | ⟨-, hdone⟩
    · rw [hdone] at hd
      exact absurd (List.mem_singleton_self _) hd
    · simp [hdone, setProfile]
    · simp [hdone]
  | clear => exact absurd List.mem_cons_self hd
  | tick now driver =>
    simp only [Begins, Disconnects, made, next, perform, told] at hb hd ⊢
    have hcases := tick_cases s now driver
    generalize tick s now driver = done at hcases hb hd
    cases hcases with
    | waits _ _ =>
      simp only [noted]
      split_ifs <;> simp_all
    | ends => exact absurd (List.mem_singleton_self _) hd
    | begins slot => exact absurd ⟨_, _, List.mem_singleton_self _⟩ hb

theorem connecting_iff {s : Service} (h : s.state_ = .connecting) {between : List WifiCall}
    (hb : ∀ m ∈ moments next s between, ¬ Begins m) (hd : ∀ m ∈ moments next s between, ¬ Disconnects m) :
    (after next s between).state_ = .connecting ↔
      latch told (moments next s between) ≠ some false := by
  induction between using List.reverseRecOn with
  | nil => simp [moments, latch, h]
  | append_singleton between c ih =>
    rw [moments_snoc] at hb hd ⊢
    have hstep := perform_connecting (hb (after next s between, c) (by simp))
      (hd (after next s between, c) (by simp))
    have hrun := ih (fun m hm => hb m (by simp [hm])) fun m hm => hd m (by simp [hm])
    rw [after_snoc, hstep, hrun, latch_snoc]
    cases told (after next s between, c) with
    | none => simp
    | some mark => cases mark <;> simp

/-- After a begin the calls up to the next one leave `connecting` unless they disconnect. -/
theorem Unfinished.connecting_iff {calls past between : List WifiCall} {first second : WifiCall}
    (h : Unfinished calls past first between second)
    (hd : ∀ m ∈ moments next (afterCalls (past ++ [first])) between, ¬ Disconnects m) :
    (afterCalls (past ++ first :: between)).state_ = .connecting ↔
      latch told (moments next (afterCalls (past ++ [first])) between) ≠ some false := by
  obtain ⟨ssid, password, hmem⟩ := h.begun
  obtain ⟨now, driver, slot, -, -, -, -, -, -, -, -, hstate⟩ := begin_mem_made hmem
  have hfirst : (afterCalls (past ++ [first])).state_ = .connecting := by
    rw [afterCalls_snoc]
    exact hstate
  have hrun : afterCalls (past ++ first :: between) = after next (afterCalls (past ++ [first])) between := by
    rw [List.append_cons]
    exact after_append _ _
  rw [hrun]
  exact UnfinishedAttempts.connecting_iff hfirst (fun m hm => (h.quiet m hm).1) hd

theorem attempts_ended_iff (calls : List WifiCall) : EndsAttempts calls ↔ KnowsAttempts calls := by
  constructor
  · intro hends past first between now driver h hd hdue hlost
    have hlost' : (afterCalls (past ++ first :: between)).state_ ≠ .connecting := fun hs =>
      (h.connecting_iff hd).mp hs hlost
    have hbegins := (tick_begins_iff (afterCalls_configured _) now driver).mpr ⟨hdue, hlost'⟩
    obtain ⟨m, hm, hdisconnects⟩ := hends past first between _ h hbegins
    exact hd m hm hdisconnects
  · intro hknows past first between second h hbegins
    by_contra hnone
    have hd : ∀ m ∈ moments next (afterCalls (past ++ [first])) between, ¬ Disconnects m :=
      fun m hm hdm => hnone ⟨m, hm, hdm⟩
    obtain ⟨ssid, password, hmem⟩ := hbegins
    obtain ⟨now, driver, slot, rfl, hdue, hstate, -⟩ := begin_mem_made hmem
    exact hstate ((h.connecting_iff hd).mpr (hknows past first between now driver h hd hdue))

def idle : Driver := ⟨false, false⟩

/-- One profile, ticks at 0, 1 and 10000 milliseconds, and a driver that is never at it. -/
def watched : List WifiCall :=
  [.configure 0 (some (lit "home")) (some (lit "secret")) 0, .tick 0 idle, .tick 1 idle, .tick 10000 idle]

/-- The tick before the deadline hides the attempt, so the next one begins without a disconnect. -/
theorem watched_attempt_hidden : ¬ EndsAttempts watched := by
  intro hends
  have hquiet : made (afterCalls (watched.take 1 ++ [.tick 0 idle]), .tick 1 idle) = [] := by decide
  have hunfinished : Unfinished watched (watched.take 1) (.tick 0 idle) [.tick 1 idle]
      (.tick 10000 idle) := by
    refine ⟨List.prefix_rfl, ⟨lit "home", lit "secret", by decide⟩, ?_⟩
    intro m hm
    obtain rfl := List.mem_singleton.mp hm
    constructor
    · intro hb
      obtain ⟨ssid, password, hmem⟩ := hb
      rw [hquiet] at hmem
      cases hmem
    · intro hc
      obtain ⟨now, driver, htick, -, hconnected⟩ := hc
      cases htick
      cases hconnected
  obtain ⟨m, hm, hd⟩ := hends _ _ _ _ hunfinished ⟨lit "home", lit "secret", by decide⟩
  obtain rfl := List.mem_singleton.mp hm
  rw [Disconnects, hquiet] at hd
  cases hd

end Esp32Shell.Arduino.UnfinishedAttempts
