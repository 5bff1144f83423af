import Esp32Shell.Library.Rollover
import Esp32Shell.Library.Run

/-!
# Idle sessions and the rollover of the millisecond counter

`SshSessionManager` stores the reading of the 32-bit counter at the last activity
of a session and closes what has been idle for too long whenever `expire` is
called. Times are real milliseconds; the manager is given what the counter shows.
-/
namespace Esp32Shell.Arduino.SshSession

open Esp32Shell.Library.Rollover Esp32Shell.Library.Run

def kMaxSessions : Nat := 2

def kIdleTimeoutMs : Nat := 300000

structure SshSessionManager where
  active_ : Fin kMaxSessions → Bool
  lastActivity_ : Fin kMaxSessions → UInt32

def initial : SshSessionManager := ⟨fun _ => false, fun _ => 0⟩

def openSession (m : SshSessionManager) (sessionId : Nat) (now : UInt32) : Bool × SshSessionManager :=
  if h : sessionId < kMaxSessions then
    if m.active_ ⟨sessionId, h⟩ then (false, m)
    else (true, ⟨Function.update m.active_ ⟨sessionId, h⟩ true,
      Function.update m.lastActivity_ ⟨sessionId, h⟩ now⟩)
  else (false, m)

def close (m : SshSessionManager) (sessionId : Nat) : SshSessionManager :=
  if h : sessionId < kMaxSessions then
    { m with active_ := Function.update m.active_ ⟨sessionId, h⟩ false }
  else m

def touch (m : SshSessionManager) (sessionId : Nat) (now : UInt32) : SshSessionManager :=
  if h : sessionId < kMaxSessions then
    if m.active_ ⟨sessionId, h⟩ then
      { m with lastActivity_ := Function.update m.lastActivity_ ⟨sessionId, h⟩ now }
    else m
  else m

def active (m : SshSessionManager) (sessionId : Nat) : Bool :=
  if h : sessionId < kMaxSessions then m.active_ ⟨sessionId, h⟩ else false

/-- The body of the loop of `expire`. -/
def expireSlot (now : UInt32) (m : SshSessionManager) (i : Fin kMaxSessions) : SshSessionManager :=
  if m.active_ i ∧ kIdleTimeoutMs ≤ (now - m.lastActivity_ i).toNat then
    { m with active_ := Function.update m.active_ i false }
  else m

def expire (m : SshSessionManager) (now : UInt32) : SshSessionManager :=
  (List.finRange kMaxSessions).foldl (expireSlot now) m

/-! ### Runs -/

inductive SessionCall where
  | openSession (sessionId : Nat)
  | close (sessionId : Nat)
  | touch (sessionId : Nat)
  | expire
  deriving DecidableEq

/-- A call at a time. -/
structure Timed where
  time : Nat
  call : SessionCall
  deriving DecidableEq

def perform (m : SshSessionManager) (c : Timed) : SshSessionManager :=
  match c.call with
  | .openSession sessionId => (openSession m sessionId (reading c.time)).2
  | .close sessionId => close m sessionId
  | .touch sessionId => touch m sessionId (reading c.time)
  | .expire => expire m (reading c.time)

abbrev managerAfter (calls : List Timed) : SshSessionManager := after perform initial calls

/-- What the manager is for: the open sessions, each with the time of its last activity. -/
abbrev Sessions := Nat → Option Nat

def next (s : Sessions) (c : Timed) : Sessions :=
  match c.call with
  | .openSession sessionId =>
    if sessionId < kMaxSessions ∧ s sessionId = none then Function.update s sessionId (some c.time) else s
  | .close sessionId => Function.update s sessionId none
  | .touch sessionId =>
    if (s sessionId).isSome then Function.update s sessionId (some c.time) else s
  | .expire => fun sessionId => (s sessionId).filter fun last => c.time < last + kIdleTimeoutMs

abbrev sessionsAfter (calls : List Timed) : Sessions := after next (fun _ => none) calls

/-- The manager has the same sessions open. -/
def Agrees (calls : List Timed) : Prop :=
  ∀ sessionId, active (managerAfter calls) sessionId = (sessionsAfter calls sessionId).isSome

/-- An `expire` sees by the counter that a session is idle for too long if it is. -/
def Noticed (s : Sessions) (c : Timed) : Prop :=
  c.call = .expire → ∀ sessionId last, s sessionId = some last → last + kIdleTimeoutMs ≤ c.time →
    kIdleTimeoutMs ≤ (c.time - last) % period

/-- Every `expire` comes soon behind another one, or behind the start. -/
def Patrolled (start : Nat) (calls : List Timed) : Prop :=
  ∀ past c, Taken calls past c → c.call = .expire →
    ∃ e, (e = start ∨ ⟨e, .expire⟩ ∈ past) ∧ c.time + kIdleTimeoutMs ≤ e + period

/-! ### What the manager stores of a session -/

/-- The reading at the last activity of an open session. -/
def seen (m : SshSessionManager) (sessionId : Nat) : Option UInt32 :=
  if h : sessionId < kMaxSessions then
    if m.active_ ⟨sessionId, h⟩ then some (m.lastActivity_ ⟨sessionId, h⟩) else none
  else none

theorem active_eq (m : SshSessionManager) (sessionId : Nat) :
    active m sessionId = (seen m sessionId).isSome := by
  unfold active seen
  split
  · split <;> simp_all
  · rfl

theorem seen_slot (m : SshSessionManager) (i : Fin kMaxSessions) :
    seen m i = if m.active_ i then some (m.lastActivity_ i) else none := by
  rw [seen, dif_pos i.isLt]

theorem seen_written (m : SshSessionManager) (i : Fin kMaxSessions) (now : UInt32) :
    seen ⟨Function.update m.active_ i true, Function.update m.lastActivity_ i now⟩ =
      Function.update (seen m) i (some now) := by
  funext sessionId
  by_cases hsame : sessionId = i
  · subst hsame
    rw [seen_slot]
    simp
  · rw [Function.update_of_ne hsame]
    unfold seen
    split
    next h =>
      have hne : (⟨sessionId, h⟩ : Fin kMaxSessions) ≠ i := fun he => hsame (congrArg Fin.val he)
      simp only [Function.update_of_ne hne]
    next => rfl

theorem seen_closed (m : SshSessionManager) (i : Fin kMaxSessions) :
    seen { m with active_ := Function.update m.active_ i false } = Function.update (seen m) i none := by
  funext sessionId
  by_cases hsame : sessionId = i
  · subst hsame
    rw [seen_slot]
    simp
  · rw [Function.update_of_ne hsame]
    unfold seen
    split
    next h =>
      have hne : (⟨sessionId, h⟩ : Fin kMaxSessions) ≠ i := fun he => hsame (congrArg Fin.val he)
      simp only [Function.update_of_ne hne]
    next => rfl

theorem seen_of_le (m : SshSessionManager) {sessionId : Nat} (h : ¬ sessionId < kMaxSessions) :
    seen m sessionId = none := dif_neg h

theorem seen_openSession (m : SshSessionManager) (sessionId : Nat) (now : UInt32) :
    seen (openSession m sessionId now).2 = if sessionId < kMaxSessions ∧ seen m sessionId = none then
      Function.update (seen m) sessionId (some now) else seen m := by
  unfold openSession
  split
  next h =>
    have hslot := seen_slot m ⟨sessionId, h⟩
    split
    next hactive =>
      rw [if_pos hactive] at hslot
      rw [if_neg (by rw [hslot]; simp)]
    next hactive =>
      rw [if_neg hactive] at hslot
      rw [if_pos ⟨h, hslot⟩]
      exact seen_written m ⟨sessionId, h⟩ now
  next h => rw [if_neg fun hc => h hc.1]

theorem seen_close (m : SshSessionManager) (sessionId : Nat) :
    seen (close m sessionId) = Function.update (seen m) sessionId none := by
  unfold close
  split
  next h => exact seen_closed m ⟨sessionId, h⟩
  next h => rw [← seen_of_le m h, Function.update_eq_self]

theorem seen_touch (m : SshSessionManager) (sessionId : Nat) (now : UInt32) :
    seen (touch m sessionId now) = if (seen m sessionId).isSome then
      Function.update (seen m) sessionId (some now) else seen m := by
  unfold touch
  split
  next h =>
    have hslot := seen_slot m ⟨sessionId, h⟩
    split
    next hactive =>
      rw [if_pos hactive] at hslot
      rw [if_pos (by rw [hslot]; rfl), ← seen_written m ⟨sessionId, h⟩ now, ← hactive,
        Function.update_eq_self]
    next hactive =>
      rw [if_neg hactive] at hslot
      rw [if_neg (by rw [hslot]; simp)]
  next h => rw [if_neg (by rw [seen_of_le m h]; simp)]

/-- A session that an `expire` leaves open. -/
def Young (now last : UInt32) : Bool := decide ((now - last).toNat < kIdleTimeoutMs)

theorem seen_expireSlot (now : UInt32) (m : SshSessionManager) (i : Fin kMaxSessions) :
    seen (expireSlot now m i) = Function.update (seen m) i ((seen m i).filter (Young now)) := by
  have hslot := seen_slot m i
  unfold expireSlot
  split
  next hidle =>
    rw [if_pos hidle.1] at hslot
    have hyoung : Young now (m.lastActivity_ i) = false := decide_eq_false (Nat.not_lt.mpr hidle.2)
    rw [seen_closed, hslot, Option.filter_some, hyoung]
    rfl
  next hyoung =>
    have hsame : (seen m i).filter (Young now) = seen m i := by
      rw [hslot]
      split
      next hactive =>
        have hlt : Young now (m.lastActivity_ i) = true :=
          decide_eq_true (Nat.not_le.mp fun hle => hyoung ⟨hactive, hle⟩)
        rw [Option.filter_some, if_pos hlt]
      next => rfl
    rw [hsame, Function.update_eq_self]

theorem seen_expire (m : SshSessionManager) (now : UInt32) (sessionId : Nat) :
    seen (expire m now) sessionId = (seen m sessionId).filter (Young now) := by
  have hloop : expire m now = expireSlot now (expireSlot now m ⟨0, by decide⟩) ⟨1, by decide⟩ := rfl
  rw [hloop, seen_expireSlot, seen_expireSlot]
  match sessionId with
  | 0 => rfl
  | 1 => rfl
  | n + 2 =>
    have hnone : seen m (n + 2) = none := seen_of_le m (by simp [kMaxSessions])
    rw [Function.update_of_ne (by simp), Function.update_of_ne (by simp), hnone]
    rfl

/-! ### The manager and the sessions -/

/-- The manager has the reading of every time. -/
def Tracks (m : SshSessionManager) (s : Sessions) : Prop := seen m = fun sessionId => (s sessionId).map reading

section
variable {m : SshSessionManager} {s : Sessions} {c : Timed}

theorem Tracks.active_eq (h : Tracks m s) (sessionId : Nat) :
    active m sessionId = (s sessionId).isSome := by
  rw [SshSession.active_eq, h, Option.isSome_map]

theorem Tracks.update (h : Tracks m s) (sessionId : Nat) (last : Option Nat) :
    Function.update (seen m) sessionId (last.map reading) =
      fun id => (Function.update s sessionId last id).map reading := by
  funext id
  by_cases hsame : id = sessionId
  · rw [hsame, Function.update_self, Function.update_self]
  · rw [Function.update_of_ne hsame, Function.update_of_ne hsame, h]

theorem young_iff {time last : Nat} (hle : last ≤ time) :
    Young (reading time) (reading last) = true ↔ (time - last) % period < kIdleTimeoutMs := by
  rw [Young, decide_eq_true_iff, age_of_le hle]

theorem young_of_lt {time last : Nat} (hle : last ≤ time) (h : time < last + kIdleTimeoutMs) :
    Young (reading time) (reading last) = true := by
  rw [young_iff hle]
  have hmod := Nat.mod_le (time - last) period
  omega

theorem Tracks.step (h : Tracks m s) (hpast : ∀ sessionId last, s sessionId = some last → last ≤ c.time)
    (hnoticed : Noticed s c) : Tracks (perform m c) (next s c) := by
  obtain ⟨time, call⟩ := c
  cases call with
  | openSession sessionId =>
    show seen (openSession m sessionId (reading time)).2 = _
    have hnone : seen m sessionId = none ↔ s sessionId = none := by
      rw [h]
      exact Option.map_eq_none_iff
    rw [seen_openSession]
    simp only [hnone, next]
    split
    · exact h.update sessionId (some time)
    · exact h
  | close sessionId => exact (seen_close m sessionId).trans (h.update sessionId none)
  | touch sessionId =>
    show seen (touch m sessionId (reading time)) = _
    have hsome : (seen m sessionId).isSome = (s sessionId).isSome := by rw [h, Option.isSome_map]
    rw [seen_touch, hsome]
    simp only [next]
    split
    · exact h.update sessionId (some time)
    · exact h
  | expire =>
    funext sessionId
    show seen (expire m (reading time)) sessionId = _
    rw [seen_expire, h]
    simp only [next]
    cases hlast : s sessionId with
    | none => rfl
    | some last =>
      have hle := hpast sessionId last hlast
      rw [Option.map_some, Option.filter_some, Option.filter_some]
      by_cases hidle : last + kIdleTimeoutMs ≤ time
      · have hold := hnoticed rfl sessionId last hlast hidle
        rw [if_neg (by rw [young_iff hle]; omega), if_neg (by simpa using hidle)]
        rfl
      · have hyoung : time < last + kIdleTimeoutMs := Nat.not_le.mp hidle
        rw [if_pos (young_of_lt hle hyoung), if_pos (by simpa using hyoung)]
        rfl

/-- An `expire` that overlooks a session leaves it open. -/
theorem Tracks.overlooked (h : Tracks m s)
    (hpast : ∀ sessionId last, s sessionId = some last → last ≤ c.time)
    (hagrees : ∀ sessionId, active (perform m c) sessionId = (next s c sessionId).isSome) :
    Noticed s c := by
  obtain ⟨time, call⟩ := c
  rintro rfl sessionId last hlast hidle
  have hclosed : next s ⟨time, .expire⟩ sessionId = none := by
    have hold : ¬ time < last + kIdleTimeoutMs := Nat.not_lt.mpr hidle
    simp only [next, hlast, Option.filter_some, decide_eq_true_eq, if_neg hold]
  have hread : seen m sessionId = some (reading last) := by
    rw [h]
    simp only [hlast, Option.map_some]
  have hseen : seen (expire m (reading time)) sessionId = none := by
    have hnone := hagrees sessionId
    rw [hclosed, SshSession.active_eq] at hnone
    exact Option.not_isSome_iff_eq_none.mp (Bool.eq_false_iff.mp hnone)
  have hold : ¬ Young (reading time) (reading last) = true := by
    intro hyoung
    rw [seen_expire, hread, Option.filter_some, if_pos hyoung] at hseen
    cases hseen
  rw [young_iff (hpast sessionId last hlast), Nat.not_lt] at hold
  exact hold

end

/-! ### Times -/

/-- In the order of their times. -/
def Ordered (calls : List Timed) : Prop := calls.Pairwise fun a b => a.time ≤ b.time

instance (calls : List Timed) : Decidable (Ordered calls) :=
  inferInstanceAs (Decidable (calls.Pairwise fun a b => a.time ≤ b.time))

theorem update_eq_some {s : Sessions} {sessionId id time last : Nat}
    (h : Function.update s sessionId (some time) id = some last) : s id = some last ∨ last = time := by
  by_cases hsame : id = sessionId
  · rw [hsame, Function.update_self] at h
    exact .inr (Option.some_inj.mp h).symm
  · rw [Function.update_of_ne hsame] at h
    exact .inl h

/-- A session was open before and has been looked at, or the call is its last activity. -/
theorem next_eq_some {s : Sessions} {c : Timed} {sessionId last : Nat}
    (h : next s c sessionId = some last) :
    s sessionId = some last ∧ (c.call = .expire → c.time < last + kIdleTimeoutMs) ∨
      last = c.time ∧ c.call ≠ .expire := by
  obtain ⟨time, call⟩ := c
  have hactivity : ∀ id, Function.update s id (some time) sessionId = some last → call ≠ .expire →
      s sessionId = some last ∧ (call = .expire → time < last + kIdleTimeoutMs) ∨
        last = time ∧ call ≠ .expire := fun id hupdate hcall =>
    (update_eq_some hupdate).imp (fun hbefore => ⟨hbefore, fun he => absurd he hcall⟩) fun he => ⟨he, hcall⟩
  cases call with
  | openSession id =>
    simp only [next] at h
    split at h
    · exact hactivity id h (by simp)
    · exact .inl ⟨h, by simp⟩
  | close id =>
    simp only [next] at h
    by_cases hsame : sessionId = id
    · rw [hsame, Function.update_self] at h
      cases h
    · rw [Function.update_of_ne hsame] at h
      exact .inl ⟨h, by simp⟩
  | touch id =>
    simp only [next] at h
    split at h
    · exact hactivity id h (by simp)
    · exact .inl ⟨h, by simp⟩
  | expire =>
    obtain ⟨hlast, hyoung⟩ := Option.filter_eq_some_iff.mp h
    exact .inl ⟨hlast, fun _ => of_decide_eq_true hyoung⟩

/-- The last activity of a session is a call of the run, and no `expire` has found it idle for too long. -/
theorem known {calls : List Timed} (h : Ordered calls) {sessionId last : Nat}
    (hlast : sessionsAfter calls sessionId = some last) :
    (∃ c ∈ calls, c.time = last) ∧ ∀ e, ⟨e, .expire⟩ ∈ calls → e < last + kIdleTimeoutMs := by
  induction calls using List.reverseRecOn with
  | nil => cases hlast
  | append_singleton calls c ih =>
    obtain ⟨hcalls, -, hlater⟩ := List.pairwise_append.mp h
    rw [sessionsAfter, after_snoc] at hlast
    rcases next_eq_some hlast with ⟨hbefore, hyoung⟩ | ⟨htime, hcall⟩
    · obtain ⟨⟨c', hmem, htime⟩, hexpire⟩ := ih hcalls hbefore
      refine ⟨⟨c', List.mem_append_left _ hmem, htime⟩, fun e he => ?_⟩
      rcases List.mem_append.mp he with he | he
      · exact hexpire e he
      · obtain rfl := List.mem_singleton.mp he
        exact hyoung rfl
    · refine ⟨⟨c, List.mem_append_right _ (List.mem_singleton_self c), htime.symm⟩, fun e he => ?_⟩
      rcases List.mem_append.mp he with he | he
      · have hle : e ≤ c.time := hlater _ he c (List.mem_singleton_self c)
        rw [htime]
        exact Nat.lt_of_le_of_lt hle (Nat.lt_add_of_pos_right (by decide))
      · obtain rfl := List.mem_singleton.mp he
        exact absurd rfl hcall

section
variable {calls : List Timed}

theorem Ordered.begins (h : Ordered calls) {past : List Timed} (hpast : past <+: calls) : Ordered past :=
  h.sublist hpast.sublist

theorem last_le (h : Ordered calls) {past : List Timed} {c : Timed} (htaken : Taken calls past c)
    {sessionId last : Nat} (hlast : sessionsAfter past sessionId = some last) : last ≤ c.time := by
  have hordered := h.begins htaken
  obtain ⟨hpast, -, hlater⟩ := List.pairwise_append.mp hordered
  obtain ⟨⟨c', hmem, rfl⟩, -⟩ := known hpast hlast
  exact hlater c' hmem c (List.mem_singleton_self c)

theorem tracks_after (h : Ordered calls)
    (hnoticed : ∀ past c, Taken calls past c → Noticed (sessionsAfter past) c) :
    Tracks (managerAfter calls) (sessionsAfter calls) := by
  induction calls using List.reverseRecOn with
  | nil => exact funext fun sessionId => by simp [seen, initial]
  | append_singleton calls c ih =>
    have hbefore := ih (h.begins (List.prefix_append _ _)) fun past x hx => hnoticed past x (hx.snoc c)
    have hlast := taken_last calls c
    rw [managerAfter, sessionsAfter, after_snoc, after_snoc]
    exact hbefore.step (fun _ _ => last_le h hlast) (hnoticed calls c hlast)

theorem noticed_of_agrees (h : Ordered calls) (hagrees : ∀ past, past <+: calls → Agrees past) :
    ∀ past c, Taken calls past c → Noticed (sessionsAfter past) c := by
  induction calls using List.reverseRecOn with
  | nil => exact fun past c htaken => absurd htaken not_taken_nil
  | append_singleton calls c ih =>
    have hcalls := h.begins (List.prefix_append calls [c])
    have hbefore := ih hcalls fun past hpast => hagrees past (hpast.trans (List.prefix_append _ _))
    intro past x htaken
    rcases taken_snoc_cases htaken with hearlier | ⟨rfl, rfl⟩
    · exact hbefore past x hearlier
    · refine (tracks_after hcalls hbefore).overlooked (fun _ _ => last_le h htaken) fun sessionId => ?_
      have hnow := hagrees (past ++ [x]) List.prefix_rfl sessionId
      rwa [managerAfter, sessionsAfter, after_snoc, after_snoc] at hnow

theorem noticed_of_patrolled {start : Nat} (h : Ordered calls) (hstart : ∀ c ∈ calls, start ≤ c.time)
    (hpatrolled : Patrolled start calls) :
    ∀ past c, Taken calls past c → Noticed (sessionsAfter past) c := by
  intro past c htaken hcall sessionId last hlast hidle
  obtain ⟨e, he, hsoon⟩ := hpatrolled past c htaken hcall
  have hpast : past <+: calls := (List.prefix_append past [c]).trans htaken
  obtain ⟨⟨c', hmem, htime⟩, hexpire⟩ := known (h.begins hpast) hlast
  have hbound : e < last + kIdleTimeoutMs := by
    rcases he with rfl | he
    · have hle := hstart c' (hpast.subset hmem)
      rw [htime] at hle
      exact Nat.lt_of_le_of_lt hle (Nat.lt_add_of_pos_right (by decide))
    · exact hexpire e he
  have hlt : c.time - last < period := by omega
  rw [Nat.mod_eq_of_lt hlt]
  omega

end

/-- With calls at any times in their order, the manager has at every moment exactly those sessions open
that real time says, if and only if no `expire` overlooks a session whose idle time the counter does not
show. So it is if every `expire` comes within a period, less the timeout, of the one before or the start. -/
theorem idle_sessions {start : Nat} {calls : List Timed} (h : Ordered calls)
    (hstart : ∀ c ∈ calls, start ≤ c.time) :
    ((∀ past, past <+: calls → Agrees past) ↔
      ∀ past c, Taken calls past c → Noticed (sessionsAfter past) c) ∧
    (Patrolled start calls → ∀ past, past <+: calls → Agrees past) := by
  have hagrees : (∀ past c, Taken calls past c → Noticed (sessionsAfter past) c) →
      ∀ past, past <+: calls → Agrees past := by
    intro hnoticed past hpast sessionId
    have htracks := tracks_after (h.begins hpast) fun p c htaken => hnoticed p c (htaken.trans hpast)
    exact htracks.active_eq sessionId
  refine ⟨⟨noticed_of_agrees h, hagrees⟩, fun hpatrolled => ?_⟩
  exact hagrees (noticed_of_patrolled h hstart hpatrolled)

/-- Two sessions, of which one becomes idle, across the rollover of the counter. -/
def evening : List Timed :=
  [⟨4294900000, .openSession 0⟩, ⟨4294950000, .openSession 1⟩, ⟨4295100000, .touch 0⟩,
    ⟨4295260000, .expire⟩]

theorem idle_sessions_evening :
    ((∀ past, past <+: evening → Agrees past) ↔
      ∀ past c, Taken evening past c → Noticed (sessionsAfter past) c) ∧
    (Patrolled 4294900000 evening → ∀ past, past <+: evening → Agrees past) :=
  idle_sessions (by decide) (by decide)

example : active (managerAfter evening) 0 = true ∧ active (managerAfter evening) 1 = false := by
  decide

/-- A session that is left for a whole period seems to be new. -/
example : active (managerAfter [⟨0, .openSession 0⟩, ⟨4294967301, .expire⟩]) 0 = true := by decide

end Esp32Shell.Arduino.SshSession
