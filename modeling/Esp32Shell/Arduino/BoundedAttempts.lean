import Esp32Shell.Arduino.UnfinishedAttempts

/-!
# Bounded attempts

Whether an attempt that does not connect is given up once the retry interval is
over. A tick asks the driver before it looks at the deadline, so a driver that
keeps reporting `connecting` keeps the attempt.
-/
namespace Esp32Shell.Arduino.BoundedAttempts

open Esp32Shell.Library.CText Esp32Shell.Library.Run
open WifiService WifiRuns UnfinishedAttempts

/-- A tick that is not connected, the retry interval after the latest begin, with ticks alone between. -/
structure Late (calls past : List WifiCall) (begun : UInt32) (seen : Driver) (between : List WifiCall)
    (now : UInt32) (driver : Driver) : Prop where
  run : Taken calls (past ++ .tick begun seen :: between) (.tick now driver)
  begins : Begins (afterCalls past, .tick begun seen)
  ticks : ∀ c ∈ between, ∃ time shown, c = .tick time shown
  latest : ∀ m ∈ moments next (afterCalls (past ++ [.tick begun seen])) between, ¬ Begins m
  late : begun.toNat + retryIntervalMs ≤ now.toNat
  unconnected : driver.connected = false

/-- Every late tick finds the attempt ended, or calls the driver. -/
def Bounded (calls : List WifiCall) : Prop :=
  ∀ past begun seen between now driver, Late calls past begun seen between now driver →
    (∃ m ∈ moments next (afterCalls (past ++ [.tick begun seen])) between, Disconnects m) ∨
      made (afterCalls (past ++ .tick begun seen :: between), .tick now driver) ≠ []

/-- At every late tick the service is in its cooldown, or the driver is not at an attempt. -/
def Released (calls : List WifiCall) : Prop :=
  ∀ past begun seen between now driver, Late calls past begun seen between now driver →
    (afterCalls (past ++ .tick begun seen :: between)).cooldown_ = true ∨ driver.connecting = false

/-- A profile can be tried. -/
structure Ready (s : Service) : Prop where
  configured : s.configured_ = true
  next_ne : nextProfile s ≠ none

/-- The attempt of a begin, not yet ended. -/
structure Waits (s : Service) (begun : UInt32) : Prop extends Ready s where
  warm : s.cooldown_ = false
  deadline_eq : s.nextAttemptAt_ = begun + UInt32.ofNat retryIntervalMs

/-- The attempt is ended, and the next one not yet begun. -/
structure Cools (s : Service) : Prop extends Ready s where
  cold : s.cooldown_ = true

/-- Without a call a tick changes nothing but what it has noted. -/
theorem Ready.tick_quiet {s : Service} (h : Ready s) {now : UInt32} {driver : Driver}
    (hquiet : (tick s now driver).2 = []) :
    ∃ state, (tick s now driver).1 = { s with state_ := state } := by
  rw [tick, if_neg (not_not.mpr h.configured)] at hquiet ⊢
  by_cases hcon : driver.connected = true
  · rw [if_pos hcon]
    exact ⟨_, rfl⟩
  rw [if_neg hcon] at hquiet ⊢
  by_cases hcing : driver.connecting = true
  · rw [if_pos hcing]
    exact ⟨_, rfl⟩
  rw [if_neg hcing] at hquiet ⊢
  by_cases hnow : now < s.nextAttemptAt_
  · rw [if_pos hnow]
    exact ⟨_, rfl⟩
  rw [if_neg hnow] at hquiet
  cases hs : nextProfile s with
  | none => exact absurd hs h.next_ne
  | some slot =>
    simp only [hs] at hquiet
    split_ifs at hquiet

/-- A begin starts an attempt. -/
theorem waits_begun {s : Service} {begun : UInt32} {seen : Driver} (h : Begins (s, .tick begun seen)) :
    Waits (tick s begun seen).1 begun := by
  obtain ⟨ssid, password, hmem⟩ := h
  replace hmem : .begin ssid password ∈ (tick s begun seen).2 := hmem
  have hcases := tick_cases s begun seen
  generalize tick s begun seen = done at hmem hcases
  cases hcases with
  | waits => cases hmem
  | ends => simp at hmem
  | begins slot hs hc =>
    have hany : (nextProfile s).isSome = anyConfigured s.profiles_ := nextProfile_isSome s
    refine ⟨⟨hc, fun hnone => ?_⟩, rfl, rfl⟩
    have hany' := (nextProfile_isSome _).symm.trans (congrArg Option.isSome hnone)
    rw [hs] at hany
    rw [← hany] at hany'
    cases hany'

/-- A tick that neither begins nor disconnects makes no call. -/
theorem made_tick_nil {s : Service} {now : UInt32} {driver : Driver}
    (hb : ¬ Begins (s, .tick now driver)) (hd : ¬ Disconnects (s, .tick now driver)) :
    (tick s now driver).2 = [] := by
  simp only [Begins, Disconnects, made, perform] at hb hd
  have hcases := tick_cases s now driver
  generalize tick s now driver = done at hb hd hcases
  cases hcases with
  | waits => rfl
  | ends => exact absurd (List.mem_singleton_self _) hd
  | begins slot => exact absurd ⟨_, _, List.mem_singleton_self _⟩ hb

theorem Ready.disconnected {s : Service} (h : Ready s) {now : UInt32} {driver : Driver}
    (hd : Disconnects (s, .tick now driver)) : Cools (tick s now driver).1 := by
  simp only [Disconnects, made, perform] at hd
  have hcases := tick_cases s now driver
  generalize tick s now driver = done at hd hcases
  cases hcases with
  | waits => cases hd
  | ends =>
    refine ⟨⟨h.configured, ?_⟩, rfl⟩
    simpa only [nextProfile] using h.next_ne
  | begins slot => simp at hd

/-- A call that neither begins nor disconnects keeps the attempt. -/
theorem Waits.kept {s : Service} {begun now : UInt32} {driver : Driver} (h : Waits s begun)
    (hb : ¬ Begins (s, .tick now driver)) (hd : ¬ Disconnects (s, .tick now driver)) :
    Waits (tick s now driver).1 begun := by
  obtain ⟨state, hdone⟩ := h.tick_quiet (made_tick_nil hb hd)
  rw [hdone]
  exact ⟨⟨h.configured, h.next_ne⟩, h.warm, h.deadline_eq⟩

theorem Cools.kept {s : Service} {now : UInt32} {driver : Driver} (h : Cools s)
    (hb : ¬ Begins (s, .tick now driver)) : Cools (tick s now driver).1 := by
  by_cases hd : Disconnects (s, .tick now driver)
  · exact h.disconnected hd
  · obtain ⟨state, hdone⟩ := h.tick_quiet (made_tick_nil hb hd)
    rw [hdone]
    exact ⟨⟨h.configured, h.next_ne⟩, h.cold⟩

/-- Ticks after a begin leave the attempt waiting until the first disconnect, and cooling from there on. -/
theorem waits_or_cools {s : Service} {begun : UInt32} (h : Waits s begun) {between : List WifiCall}
    (hticks : ∀ c ∈ between, ∃ time shown, c = .tick time shown)
    (hb : ∀ m ∈ moments next s between, ¬ Begins m) :
    (¬ (∃ m ∈ moments next s between, Disconnects m) ∧ Waits (after next s between) begun) ∨
    ((∃ m ∈ moments next s between, Disconnects m) ∧ Cools (after next s between)) := by
  induction between using List.reverseRecOn with
  | nil => exact .inl ⟨by simp [moments], h⟩
  | append_singleton between c ih =>
    obtain ⟨time, shown, rfl⟩ := hticks c (by simp)
    rw [moments_snoc] at hb ⊢
    rw [after_snoc]
    have hlast := hb (after next s between, .tick time shown) (by simp)
    rcases ih (fun c hc => hticks c (by simp [hc])) fun m hm => hb m (by simp [hm]) with
      ⟨hnone, hwaits⟩ | ⟨hended, hcools⟩
    · by_cases hd : Disconnects (after next s between, .tick time shown)
      · exact .inr ⟨⟨_, by simp, hd⟩, hwaits.disconnected hd⟩
      · refine .inl ⟨?_, hwaits.kept hlast hd⟩
        intro hex
        obtain ⟨m, hm, hdm⟩ := hex
        rcases List.mem_append.mp hm with hm | hm
        · exact hnone ⟨m, hm, hdm⟩
        · exact hd (List.mem_singleton.mp hm ▸ hdm)
    · obtain ⟨m, hm, hdm⟩ := hended
      exact .inr ⟨⟨m, by simp [hm], hdm⟩, hcools.kept hlast⟩

/-- At its deadline a waiting attempt is ended or followed by the next one as soon as the driver is idle. -/
theorem Waits.made_iff {s : Service} {begun now : UInt32} {driver : Driver} (h : Waits s begun)
    (hlate : begun.toNat + retryIntervalMs ≤ now.toNat) (hcon : driver.connected = false) :
    made (s, .tick now driver) ≠ [] ↔ driver.connecting = false := by
  have hdue : ¬ now < s.nextAttemptAt_ := by
    have hlt : now.toNat < 2 ^ 32 := now.toNat_lt
    have hsmall : retryIntervalMs % 2 ^ 32 = retryIntervalMs := rfl
    rw [h.deadline_eq, UInt32.lt_iff_toNat_lt, UInt32.toNat_add, UInt32.toNat_ofNat', hsmall]
    omega
  simp only [made, perform]
  have hcases := tick_cases s now driver
  generalize tick s now driver = done at hcases
  cases hcases with
  | waits _ hwait =>
    refine iff_of_false (not_not.mpr rfl) fun hidle => ?_
    rcases hwait with hc | hi | hnow | hs
    · rw [h.configured] at hc
      cases hc
    · exact hi ⟨hcon, hidle⟩
    · exact hdue hnow
    · exact h.next_ne hs
  | ends _ _ _ hi => exact iff_of_true (List.cons_ne_nil _ _) hi.2
  | begins _ _ _ hi => exact iff_of_true (List.cons_ne_nil _ _) hi.2

/-- A late tick is answered exactly when the service cools down or the driver is not at an attempt. -/
theorem Late.answered_iff {calls past : List WifiCall} {begun : UInt32} {seen : Driver}
    {between : List WifiCall} {now : UInt32} {driver : Driver}
    (h : Late calls past begun seen between now driver) :
    ((∃ m ∈ moments next (afterCalls (past ++ [.tick begun seen])) between, Disconnects m) ∨
      made (afterCalls (past ++ .tick begun seen :: between), .tick now driver) ≠ []) ↔
    ((afterCalls (past ++ .tick begun seen :: between)).cooldown_ = true ∨
      driver.connecting = false) := by
  have hwaits : Waits (afterCalls (past ++ [.tick begun seen])) begun := by
    rw [afterCalls_snoc]
    exact waits_begun h.begins
  have hrun : afterCalls (past ++ .tick begun seen :: between) =
      after next (afterCalls (past ++ [.tick begun seen])) between := by
    rw [List.append_cons]
    exact after_append _ _
  rw [hrun]
  rcases waits_or_cools hwaits h.ticks h.latest with ⟨hnone, hstill⟩ | ⟨hended, hcools⟩
  · rw [or_iff_right hnone, hstill.made_iff h.late h.unconnected, hstill.warm]
    simp
  · exact iff_of_true (.inl hended) (.inl hcools.cold)

/-- The attempts of a run are bounded exactly when no late tick, out of the cooldown, is told that
the driver is still at an attempt. -/
theorem attempts_bounded_iff (calls : List WifiCall) : Bounded calls ↔ Released calls := by
  constructor
  · intro hbounded past begun seen between now driver h
    exact h.answered_iff.mp (hbounded past begun seen between now driver h)
  · intro hreleased past begun seen between now driver h
    exact h.answered_iff.mpr (hreleased past begun seen between now driver h)

/-- One profile, and a driver that keeps reporting `connecting` for an hour. -/
def stuck : List WifiCall :=
  [.configure 0 (some (lit "home")) (some (lit "secret")) 0, .tick 0 ⟨false, false⟩,
    .tick 10000 ⟨false, true⟩, .tick 3600000 ⟨false, true⟩]

/-- The attempt of the first tick is neither ended nor followed by another one. -/
theorem stuck_attempt_kept : ¬ Bounded stuck := by
  intro hbounded
  have hquiet : made (afterCalls (stuck.take 1 ++ [.tick 0 ⟨false, false⟩]),
      .tick 10000 ⟨false, true⟩) = [] := by decide
  have hlate : Late stuck (stuck.take 1) 0 ⟨false, false⟩ [.tick 10000 ⟨false, true⟩] 3600000
      ⟨false, true⟩ := by
    refine ⟨List.prefix_rfl, ⟨lit "home", lit "secret", by decide⟩, by simp, ?_, by decide, rfl⟩
    intro m hm hb
    obtain rfl := List.mem_singleton.mp hm
    obtain ⟨ssid, password, hmem⟩ := hb
    rw [hquiet] at hmem
    cases hmem
  rcases hbounded _ _ _ _ _ _ hlate with hended | hacts
  · obtain ⟨m, hm, hd⟩ := hended
    obtain rfl := List.mem_singleton.mp hm
    rw [Disconnects, hquiet] at hd
    cases hd
  · exact hacts (by decide)

end Esp32Shell.Arduino.BoundedAttempts
