import Esp32Shell.Arduino.WifiService
import Esp32Shell.Library.Rollover

/-!
# Retry timing and the rollover of the millisecond counter

Times are real milliseconds; a tick is given what the 32-bit counter shows. The
service stores its deadline as a reading and compares readings, so whether a
tick is punctual is decided by residues.
-/
namespace Esp32Shell.Arduino.RetryTiming

open Esp32Shell.Library.CText Esp32Shell.Library.Rollover
open WifiService

/-- The time of the latest `begin`, and of a `disconnect` after it. -/
structure Attempt where
  begunAt : Nat
  disconnectedAt : Option Nat
  deriving DecidableEq

/-- The end of the wait that is running. -/
def Attempt.deadline (a : Attempt) : Nat :=
  match a.disconnectedAt with
  | none => a.begunAt + retryIntervalMs
  | some time => time + reconnectCooldownMs

def Attempt.note (time : Nat) (a : Attempt) : DriverCall → Attempt
  | .begin _ _ => ⟨time, none⟩
  | .disconnect => ⟨a.begunAt, some time⟩

structure Tick where
  time : Nat
  driver : Driver

/-- One tick of a run: the attempt it looks back at, and its driver calls. -/
structure Record where
  attempt : Attempt
  tick : Tick
  calls : List DriverCall

def records (s : Service) (a : Attempt) : List Tick → List Record
  | [] => []
  | t :: ticks =>
    let next := tick s (reading t.time) t.driver
    ⟨a, t, next.2⟩ :: records next.1 (next.2.foldl (Attempt.note t.time) a) ticks

/-- The retry interval is over, and so is the cooldown of a later disconnect. -/
def Due (a : Attempt) (time : Nat) : Prop :=
  a.begunAt + retryIntervalMs ≤ time ∧ ∀ t ∈ a.disconnectedAt, t + reconnectCooldownMs ≤ time

def Early (a : Attempt) (time : Nat) : Prop := time < a.begunAt + retryIntervalMs

/-- A driver call when it is due, and none when it is early. -/
def Punctual (r : Record) : Prop :=
  (Due r.attempt r.tick.time → r.calls ≠ []) ∧ (Early r.attempt r.tick.time → r.calls = [])

/-- The residues are ordered as the times are. -/
def Comparable (a : Attempt) (time : Nat) : Prop :=
  (Due a time → a.deadline % period ≤ time % period) ∧
  (Early a time → time % period < a.deadline % period)

/-- The service waits for the deadline of the attempt, with a profile to try next. -/
structure Tracks (s : Service) (a : Attempt) : Prop where
  configured : s.configured_ = true
  enabled : anyConfigured s.profiles_ = true
  deadline_eq : s.nextAttemptAt_ = reading a.deadline

theorem Tracks.nextProfile_ne {s : Service} {a : Attempt} (h : Tracks s a) : nextProfile s ≠ none := by
  have hsome := (nextProfile_isSome s).trans h.enabled
  exact Option.isSome_iff_ne_none.mp hsome

/-- A `begin` starts an attempt that the service tracks. -/
theorem tracks_begun {s : Service} {time : Nat} {driver : Driver} {ssid password : Text}
    (h : (tick s (reading time) driver).2 = [.begin ssid password]) :
    Tracks (tick s (reading time) driver).1 ⟨time, none⟩ := by
  have hcases := tick_cases s (reading time) driver
  generalize tick s (reading time) driver = next at h hcases
  cases hcases with
  | waits => cases h
  | ends => cases h
  | begins slot hs hc =>
    have henabled : anyConfigured s.profiles_ = true := by
      rw [← nextProfile_isSome, hs]
      rfl
    exact ⟨hc, henabled, reading_add time retryIntervalMs⟩

theorem Tracks.tick {s : Service} {a : Attempt} (h : Tracks s a) (time : Nat) (driver : Driver) :
    Tracks (tick s (reading time) driver).1
      ((tick s (reading time) driver).2.foldl (Attempt.note time) a) := by
  have hcases := tick_cases s (reading time) driver
  generalize WifiService.tick s (reading time) driver = next at hcases
  cases hcases with
  | waits => exact ⟨h.configured, h.enabled, h.deadline_eq⟩
  | ends => exact ⟨h.configured, h.enabled, reading_add time reconnectCooldownMs⟩
  | begins => exact ⟨h.configured, h.enabled, reading_add time retryIntervalMs⟩

/-- An idle tick makes no call as long as its reading is below that of the deadline. -/
theorem Tracks.calls_nil_iff {s : Service} {a : Attempt} (h : Tracks s a) (time : Nat)
    {driver : Driver} (hi : Idle driver) :
    (WifiService.tick s (reading time) driver).2 = [] ↔ time % period < a.deadline % period := by
  rw [← reading_lt_iff, ← h.deadline_eq]
  have hcases := tick_cases s (reading time) driver
  generalize WifiService.tick s (reading time) driver = next at hcases
  cases hcases with
  | waits _ hwait =>
    rcases hwait with hc | hd | hnow | hs
    · rw [h.configured] at hc
      cases hc
    · exact absurd hi hd
    · exact iff_of_true rfl hnow
    · exact absurd hs h.nextProfile_ne
  | ends _ _ _ _ hnow _ => exact iff_of_false (List.cons_ne_nil _ _) hnow
  | begins _ _ _ _ hnow _ => exact iff_of_false (List.cons_ne_nil _ _) hnow

theorem punctual_iff {r : Record} (h : r.calls = [] ↔ r.tick.time % period < r.attempt.deadline % period) :
    Punctual r ↔ Comparable r.attempt r.tick.time := by
  rw [Punctual, Comparable, Ne, h, not_lt]

/-- In every record of a tracked run the calls are decided by the residues. -/
theorem Tracks.records {s : Service} {a : Attempt} (h : Tracks s a) (ticks : List Tick) :
    ∀ r ∈ records s a ticks, Idle r.tick.driver →
      (r.calls = [] ↔ r.tick.time % period < r.attempt.deadline % period) := by
  induction ticks generalizing s a with
  | nil =>
    intro r hr
    cases hr
  | cons t ticks ih =>
    intro r hr hi
    rcases List.mem_cons.mp hr with rfl | hr
    · exact h.calls_nil_iff t.time hi
    · exact ih (h.tick t.time t.driver) r hr hi

/-- After a `begin` at time `begun` the idle ticks of a run are punctual exactly when at each of
them the residues are ordered as the times are. -/
theorem retry_timing (s : Service) (begun : Nat) (driver : Driver) (ssid password : Text)
    (h : (tick s (reading begun) driver).2 = [.begin ssid password]) (ticks : List Tick) :
    (∀ r ∈ records (tick s (reading begun) driver).1 ⟨begun, none⟩ ticks,
      Idle r.tick.driver → Punctual r) ↔
    ∀ r ∈ records (tick s (reading begun) driver).1 ⟨begun, none⟩ ticks,
      Idle r.tick.driver → Comparable r.attempt r.tick.time := by
  have hrun := (tracks_begun h).records ticks
  constructor
  · intro hp r hr hi
    exact (punctual_iff (hrun r hr hi)).mp (hp r hr hi)
  · intro hc r hr hi
    exact (punctual_iff (hrun r hr hi)).mpr (hc r hr hi)

def home : Service := (configure initial 0 (some (lit "home")) (some (lit "secret")) 0).1

def idle : Driver := ⟨false, false⟩

theorem retry_timing_home :
    (∀ r ∈ records (tick home (reading 70) idle).1 ⟨70, none⟩ [⟨9000, idle⟩, ⟨10070, idle⟩],
      Idle r.tick.driver → Punctual r) ↔
    ∀ r ∈ records (tick home (reading 70) idle).1 ⟨70, none⟩ [⟨9000, idle⟩, ⟨10070, idle⟩],
      Idle r.tick.driver → Comparable r.attempt r.tick.time :=
  retry_timing home 70 idle (lit "home") (lit "secret") (by decide) _

/-- A `begin` five seconds before the rollover is followed by a `disconnect` one millisecond
later: the deadline already shows its residue after the rollover. -/
theorem early_disconnect :
    (tick home (reading (period - 5000)) idle).2 = [.begin (lit "home") (lit "secret")] ∧
    ¬ ∀ r ∈ records (tick home (reading (period - 5000)) idle).1 ⟨period - 5000, none⟩
      [⟨period - 4999, idle⟩], Idle r.tick.driver → Punctual r := by
  refine ⟨by decide, fun h => ?_⟩
  have hcalls : records (tick home (reading (period - 5000)) idle).1 ⟨period - 5000, none⟩
      [⟨period - 4999, idle⟩] =
      [⟨⟨period - 5000, none⟩, ⟨period - 4999, idle⟩, [.disconnect]⟩] := rfl
  have hpunctual := h _ (by rw [hcalls]; exact List.mem_singleton.mpr rfl) (by decide)
  have hnone := hpunctual.2 (by unfold Early; decide)
  cases hnone

/-! ### Inside one period of the counter -/

/-- The times of a run: it starts at `begun`, and no deadline leaves the period of `begun`. -/
def WithinPeriod (begun : Nat) (ticks : List Tick) : Prop :=
  ∀ t ∈ ticks, begun ≤ t.time ∧ (t.time + retryIntervalMs) / period = begun / period

/-- The deadlines of an attempt that was begun or ended in the period, no earlier than allowed. -/
structure InPeriod (begun : Nat) (a : Attempt) : Prop where
  deadline_eq : a.deadline / period = begun / period
  disconnected_ge : ∀ t ∈ a.disconnectedAt, a.begunAt + retryIntervalMs ≤ t

theorem Attempt.deadline_ge {begun : Nat} {a : Attempt} (h : InPeriod begun a) :
    a.begunAt + retryIntervalMs ≤ a.deadline := by
  cases hd : a.disconnectedAt with
  | none => simp [Attempt.deadline, hd]
  | some time =>
    have hge := h.disconnected_ge time hd
    simp only [Attempt.deadline, hd]
    omega

theorem deadline_le_of_due {a : Attempt} {time : Nat} (h : Due a time) : a.deadline ≤ time := by
  cases hd : a.disconnectedAt with
  | none =>
    simp only [Attempt.deadline, hd]
    exact h.1
  | some t =>
    simp only [Attempt.deadline, hd]
    exact h.2 t hd

theorem comparable_of_period {begun : Nat} {a : Attempt} {time : Nat} (h : InPeriod begun a)
    (htime : time / period = begun / period) : Comparable a time := by
  have hsame : time / period = a.deadline / period := htime.trans h.deadline_eq.symm
  constructor
  · intro hdue
    have hle := deadline_le_of_due hdue
    have hlt := (residue_lt_iff hsame).not.mpr (by omega)
    omega
  · intro hearly
    have hge := Attempt.deadline_ge h
    unfold Early at hearly
    exact (residue_lt_iff hsame).mpr (by omega)

theorem inPeriod_note {begun : Nat} {a : Attempt} {time : Nat} (hle : begun ≤ time)
    (htime : (time + retryIntervalMs) / period = begun / period)
    (hlate : a.begunAt + retryIntervalMs ≤ time) (call : DriverCall) :
    InPeriod begun (a.note time call) := by
  cases call with
  | begin ssid password => exact ⟨htime, by simp [Attempt.note]⟩
  | disconnect =>
    refine ⟨?_, by simpa [Attempt.note] using hlate⟩
    have hlow : begun / period ≤ (time + reconnectCooldownMs) / period :=
      Nat.div_le_div_right (by omega)
    have hhigh : (time + reconnectCooldownMs) / period ≤ (time + retryIntervalMs) / period :=
      Nat.div_le_div_right (by unfold reconnectCooldownMs retryIntervalMs; omega)
    show (time + reconnectCooldownMs) / period = begun / period
    omega

theorem comparable_records {begun : Nat} {s : Service} {a : Attempt} (h : Tracks s a)
    (hp : InPeriod begun a) {ticks : List Tick} (hticks : WithinPeriod begun ticks) :
    ∀ r ∈ records s a ticks, Idle r.tick.driver → Comparable r.attempt r.tick.time := by
  induction ticks generalizing s a with
  | nil =>
    intro r hr
    cases hr
  | cons t ticks ih =>
    obtain ⟨hle, htime⟩ := hticks t List.mem_cons_self
    have hnow : t.time / period = begun / period := by
      have hlow : begun / period ≤ t.time / period := Nat.div_le_div_right hle
      have hhigh : t.time / period ≤ (t.time + retryIntervalMs) / period :=
        Nat.div_le_div_right (Nat.le_add_right _ _)
      omega
    have hcomparable := comparable_of_period hp hnow
    intro r hr hi
    rcases List.mem_cons.mp hr with rfl | hr
    · exact hcomparable
    · refine ih (h.tick t.time t.driver) ?_ (fun t' ht' => hticks t' (List.mem_cons_of_mem t ht')) r hr hi
      -- a call is made by an idle tick that is not early
      have hcases := tick_cases s (reading t.time) t.driver
      generalize hnext : tick s (reading t.time) t.driver = next at hcases
      have hlate : Idle t.driver → next.2 ≠ [] → a.begunAt + retryIntervalMs ≤ t.time := by
        intro hidle hcalls
        by_contra hearly
        rw [← hnext] at hcalls
        exact hcalls ((h.calls_nil_iff t.time hidle).mpr (hcomparable.2 (not_le.mp hearly)))
      cases hcases with
      | waits => exact hp
      | ends _ _ _ hidle => exact inPeriod_note hle htime (hlate hidle (List.cons_ne_nil _ _)) .disconnect
      | begins slot _ _ hidle =>
        exact inPeriod_note hle htime (hlate hidle (List.cons_ne_nil _ _))
          (.begin (s.profiles_ slot).ssid (s.profiles_ slot).password)

/-- As long as no deadline leaves the period of the first `begin`, every idle tick is punctual. -/
theorem punctual_within_period (s : Service) (begun : Nat) (driver : Driver) (ssid password : Text)
    (h : (tick s (reading begun) driver).2 = [.begin ssid password])
    (hbegun : (begun + retryIntervalMs) / period = begun / period) {ticks : List Tick}
    (hticks : WithinPeriod begun ticks) :
    ∀ r ∈ records (tick s (reading begun) driver).1 ⟨begun, none⟩ ticks,
      Idle r.tick.driver → Punctual r := by
  have htracks := tracks_begun h
  have hcomparable := comparable_records htracks ⟨hbegun, by simp⟩ hticks
  exact fun r hr hi => (punctual_iff (htracks.records ticks r hr hi)).mpr (hcomparable r hr hi)

end Esp32Shell.Arduino.RetryTiming
