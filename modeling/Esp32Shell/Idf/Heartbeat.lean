import Esp32Shell.Idf.AppRegistry
import Esp32Shell.Library.Rollover

/-!
# A supervisor pass beside the tasks

One pass of `supervise` with the turns of the tasks in between. The pass takes
its time once, at its start; a heartbeat that is written later seems to lie
nearly a whole turn of the tick counter back.
-/
namespace Esp32Shell.Idf.Heartbeat

open Esp32Shell.Library.CText Esp32Shell.Library.Rollover Esp32Shell.Library.Run
open AppRuntime AppRegistry

/-- Four periods of an app, in ticks. -/
def fourPeriods (tickRateHz : Nat) (app : AppRecord) : Nat := app.periodMs * 4 * tickRateHz / 1000

/-- The runtime at the start of a pass, with the time in ticks since the boot and that of the latest
heartbeat of each record, which is what the record shows. Four periods fit in 32 bits, as
`fits_afterSteps` says. -/
structure PassStart where
  rt : Runtime
  time : Nat
  beats : Nat → Nat
  shows : ∀ (i : Nat) (app : AppRecord), rt.apps[i]? = some app → app.heartbeat = reading (beats i)
  past : ∀ i, beats i ≤ time
  fits : ∀ (i : Nat) (app : AppRecord), rt.apps[i]? = some app → app.periodMs * 4 < period

structure Pass where
  rt : Runtime
  time : Nat
  beats : Nat → Nat
  /-- The number of records that were examined. -/
  examined : Nat

/-- What happens in a pass, each some ticks after what was before: a turn of a task, or the
examination of the next record. -/
inductive PassEvent where
  | turn (delay : Nat) (handle : Handle) (watermark : Nat)
  | examine (delay freeHeap : Nat) (created : Option Handle)

def PassStart.pass (start : PassStart) : Pass := ⟨start.rt, start.time, start.beats, 0⟩

/-- The runtime after the examination of a record, in which a restart takes its own time. -/
def examined (tickRateHz : Nat) (start : PassStart) (s : Pass) (delay freeHeap : Nat)
    (created : Option Handle) : Runtime :=
  superviseApp tickRateHz (reading start.time) ⟨freeHeap, created, reading (s.time + delay)⟩ s.examined s.rt

def passStep (tickRateHz : Nat) (start : PassStart) (s : Pass) : PassEvent → Pass
  | .turn delay handle watermark =>
    ⟨taskTurn handle (reading (s.time + delay)) watermark s.rt, s.time + delay,
      match s.rt.tasks.lookup handle with
      | none => s.beats
      | some i => Function.update s.beats i (s.time + delay), s.examined⟩
  | .examine delay freeHeap created =>
    ⟨examined tickRateHz start s delay freeHeap created, s.time + delay, s.beats, s.examined + 1⟩

def afterEvents (tickRateHz : Nat) (start : PassStart) (events : List PassEvent) : Pass :=
  after (passStep tickRateHz start) start.pass events

/-- An examination changes the runtime, which is to delete the task, only where more than four periods
have gone by since the latest heartbeat. -/
def Healthy (tickRateHz : Nat) (start : PassStart) (events : List PassEvent) : Prop :=
  ∀ past delay freeHeap created, Taken events past (.examine delay freeHeap created) →
    let s := afterEvents tickRateHz start past
    examined tickRateHz start s delay freeHeap created ≠ s.rt →
      ∀ app, s.rt.apps[s.examined]? = some app →
        s.beats s.examined + fourPeriods tickRateHz app < s.time + delay

/-- A running record with a task is examined within four periods of a heartbeat that was written after
the sample, and not by a turn of the tick counter. -/
def Overtaken (tickRateHz : Nat) (start : PassStart) (s : Pass) (delay : Nat) : Prop :=
  ∃ app, s.rt.apps[s.examined]? = some app ∧ app.task ≠ none ∧ app.state = .running ∧
    start.time < s.beats s.examined ∧
    s.time + delay ≤ s.beats s.examined + fourPeriods tickRateHz app ∧
    0 < (s.beats s.examined - start.time) % period ∧
    (s.beats s.examined - start.time) % period + fourPeriods tickRateHz app < period

/-! ### One examination -/

variable {tickRateHz : Nat} {rt : Runtime} {i : Nat}

theorem timeout_toNat (hrate : tickRateHz ≤ 1000) {app : AppRecord} (hfits : app.periodMs * 4 < period) :
    (pdMsToTicks tickRateHz (UInt32.ofNat app.periodMs * 4)).toNat = fourPeriods tickRateHz app ∧
      fourPeriods tickRateHz app < period := by
  have hfour : (UInt32.ofNat app.periodMs * 4).toNat = app.periodMs * 4 := by
    have hmul : UInt32.ofNat app.periodMs * 4 = UInt32.ofNat (app.periodMs * 4) :=
      (UInt32.ofNat_mul app.periodMs 4).symm
    rw [hmul]
    exact Nat.mod_eq_of_lt hfits
  have hticks := pdMsToTicks_toNat hrate (UInt32.ofNat app.periodMs * 4)
  rw [hfour] at hticks
  refine ⟨hticks, ?_⟩
  rw [fourPeriods, ← hticks]
  exact UInt32.toNat_lt _

/-- A start counts no restart and touches one record alone. -/
theorem start_restartCount (i : Nat) (platform : Platform) (rt : Runtime) :
    ((start (some i) platform rt).device.apps[i]?).map (·.restartCount) =
        (rt.apps[i]?).map (·.restartCount) ∧
      ∀ j, i ≠ j → (start (some i) platform rt).device.apps[j]? = rt.apps[j]? := by
  obtain ⟨line, hstart, -⟩ | ⟨k, record, hk, happ, -, hdone⟩ := start_cases (some i) platform rt
  · rw [hstart]
    exact ⟨rfl, fun _ _ => rfl⟩
  · obtain rfl := Option.some_inj.mp hk
    obtain ⟨failure, line, hstart⟩ | ⟨handle, line, -, hstart⟩ := hdone
    · rw [hstart]
      exact ⟨by rw [getElem?_update_self, Option.map_map]; rfl, fun j hj => getElem?_update_ne hj rt _⟩
    · rw [hstart]
      exact ⟨by rw [getElem?_update_self, Option.map_map]; rfl, fun j hj => getElem?_update_ne hj _ _⟩

/-- The table of the records does not say which tasks there are. -/
theorem apps_deleteTask (task : Handle) (rt : Runtime) : (rt.deleteTask task).apps = rt.apps := rfl

/-- Where the code lets a record be, nothing changes; where it deletes the task, the record does. -/
theorem superviseApp_ne_iff (tickRateHz : Nat) (now : UInt32) (platform : Platform) {app : AppRecord}
    (happ : rt.apps[i]? = some app) : superviseApp tickRateHz now platform i rt ≠ rt ↔
      app.task ≠ none ∧ app.state = .running ∧
        pdMsToTicks tickRateHz (UInt32.ofNat app.periodMs * 4) < now - app.heartbeat := by
  cases htask : app.task with
  | none =>
    have hsame : superviseApp tickRateHz now platform i rt = rt := by simp only [superviseApp, happ, htask]
    exact iff_of_false (not_not.mpr hsame) fun h => h.1 rfl
  | some task =>
    by_cases hrests : app.state ≠ .running ∨
        now - app.heartbeat ≤ pdMsToTicks tickRateHz (UInt32.ofNat app.periodMs * 4)
    · have hsame : superviseApp tickRateHz now platform i rt = rt := by
        simp only [superviseApp, happ, htask, if_pos hrests]
      refine iff_of_false (not_not.mpr hsame) fun h => ?_
      rcases hrests with hstate | hyoung
      · exact hstate h.2.1
      · exact absurd h.2.2 (UInt32.not_lt.mpr hyoung)
    · obtain ⟨hstate, hold⟩ := not_or.mp hrests
      refine iff_of_true (fun hsame => ?_)
        ⟨Option.some_ne_none task, not_not.mp hstate, UInt32.not_le.mp hold⟩
      simp only [superviseApp, happ, htask, if_neg hrests] at hsame
      have hrecord := congrArg (fun rt : Runtime => rt.apps[i]?) hsame
      simp only [happ] at hrecord
      split at hrecord
      · rw [update_update, getElem?_update_self, apps_deleteTask, happ] at hrecord
        have hfailed : AppState.failed = app.state :=
          congrArg AppRecord.state (Option.some_inj.mp hrecord)
        rw [not_not.mp hstate] at hfailed
        cases hfailed
      · rw [update_update] at hrecord
        have hcount := (start_restartCount i platform ((rt.deleteTask task).update i
          ((fun app => { app with restartCount := app.restartCount + 1 }) ∘
            fun app => { app with task := none }))).1
        rw [hrecord, getElem?_update_self, apps_deleteTask, happ] at hcount
        have hcounted : app.restartCount = app.restartCount + 1 := Option.some_inj.mp hcount
        omega

/-- An examination leaves the records behind it as they are. -/
theorem superviseApp_ne (tickRateHz : Nat) (now : UInt32) (platform : Platform) {j : Nat} (h : i ≠ j)
    (rt : Runtime) : (superviseApp tickRateHz now platform i rt).apps[j]? = rt.apps[j]? := by
  cases happ : rt.apps[i]? with
  | none => simp only [superviseApp, happ]
  | some app =>
    cases htask : app.task with
    | none => simp only [superviseApp, happ, htask]
    | some task =>
      simp only [superviseApp, happ, htask]
      split
      · rfl
      · split
        · rw [getElem?_update_ne h, getElem?_update_ne h]
          rfl
        · rw [(start_restartCount i platform _).2 j h, getElem?_update_ne h, getElem?_update_ne h]
          rfl

/-- A turn writes the heartbeat of its own record, and no period. -/
theorem taskTurn_record {handle : Handle} {ticks : UInt32} {watermark : Nat} {j : Nat} {app : AppRecord}
    (h : (taskTurn handle ticks watermark rt).apps[j]? = some app) : ∃ old, rt.apps[j]? = some old ∧
      app.periodMs = old.periodMs ∧
      app.heartbeat = if rt.tasks.lookup handle = some j then ticks else old.heartbeat := by
  unfold taskTurn at h
  cases hlookup : rt.tasks.lookup handle with
  | none =>
    rw [hlookup] at h
    exact ⟨app, h, rfl, (if_neg (Option.some_ne_none j).symm).symm⟩
  | some i =>
    rw [hlookup] at h
    have hkept : ∀ change : AppRecord → AppRecord, (rt.update i change).apps[j]? = some app →
        (∀ old, (change old).periodMs = old.periodMs ∧ (change old).heartbeat = ticks) →
        ∃ old, rt.apps[j]? = some old ∧
          app.periodMs = old.periodMs ∧ app.heartbeat = if some i = some j then ticks else old.heartbeat := by
      intro change hget hchange
      obtain ⟨hij, hold⟩ | ⟨rfl, old, hold, rfl⟩ := getElem?_update_eq_some hget
      · exact ⟨app, hold, rfl, (if_neg fun h => hij (Option.some_inj.mp h)).symm⟩
      · exact ⟨old, hold, (hchange old).1, by rw [if_pos rfl]; exact (hchange old).2⟩
    simp only at h
    split at h
    · -- the task deletes itself, which leaves the table of the records as it is
      rw [update_update, apps_deleteTask] at h
      exact hkept _ h fun old => ⟨rfl, rfl⟩
    · exact hkept _ h fun old => ⟨rfl, rfl⟩

/-! ### The periods of the records -/

/-- Every record has the period of one of the apps of the firmware. -/
def Paced (rt : Runtime) : Prop :=
  ∀ (i : Nat) (app : AppRecord), rt.apps[i]? = some app → app.periodMs = 500 ∨ app.periodMs = 1000

theorem paced_update (h : Paced rt) {change : AppRecord → AppRecord}
    (hkept : ∀ app, (change app).periodMs = app.periodMs) : Paced (rt.update i change) := by
  intro j app happ
  obtain ⟨-, hold⟩ | ⟨-, old, hold, rfl⟩ := getElem?_update_eq_some happ
  · exact h j app hold
  · rw [hkept]
    exact h i old hold

theorem paced_start (h : Paced rt) (app : Option Nat) (platform : Platform) :
    Paced (start app platform rt).device := by
  obtain ⟨line, hstart, -⟩ | ⟨i, record, -, -, -, hdone⟩ := start_cases app platform rt
  · rw [hstart]
    exact h
  · obtain ⟨failure, line, hstart⟩ | ⟨handle, line, -, hstart⟩ := hdone
    · rw [hstart]
      exact paced_update h fun _ => rfl
    · rw [hstart]
      exact paced_update (show Paced { rt with tasks := (handle, i) :: rt.tasks } from h) fun _ => rfl

theorem paced_run (h : Paced rt) (name : Text) (board : Board) : Paced (run name board rt).device := by
  cases happ : appToRun name board rt with
  | error line =>
    simp only [run, happ]
    exact h
  | ok found =>
    obtain ⟨app, rt'⟩ := found
    simp only [run, happ]
    obtain rfl | ⟨-, -, -, -, rfl⟩ := appToRun_cases happ
    · exact paced_start h app board.platform
    · refine paced_start (fun i record hrecord => ?_) app board.platform
      have hmem := List.mem_of_getElem? hrecord
      rw [List.mem_append, List.mem_singleton] at hmem
      obtain hold | rfl := hmem
      · obtain ⟨j, hj⟩ := List.mem_iff_getElem?.mp hold
        exact h j record hj
      · exact Or.inl rfl

theorem paced_superviseApp (h : Paced rt) (tickRateHz : Nat) (now : UInt32) (platform : Platform)
    (i : Nat) : Paced (superviseApp tickRateHz now platform i rt) := by
  unfold superviseApp
  split
  · exact h
  next app happ =>
    split
    · exact h
    next task htask =>
      have hdeleted : Paced ((rt.deleteTask task).update i fun app => { app with task := none }) :=
        paced_update (show Paced (rt.deleteTask task) from h) fun _ => rfl
      simp only
      split
      · exact h
      split
      · exact paced_update hdeleted fun _ => rfl
      · refine paced_start (paced_update hdeleted ?_) (some i) platform
        exact fun _ => rfl

theorem paced_step (h : Paced rt) (tickRateHz : Nat) (event : AppEvent) :
    Paced (AppRegistry.step tickRateHz rt event) := by
  cases event with
  | run name board => exact paced_run h name board
  | stop name =>
    show Paced (stop name rt).device
    obtain ⟨line, hstop⟩ | ⟨i, app, task, line, -, -, hstop⟩ := stop_cases name rt
    · rw [hstop]
      exact h
    · rw [hstop]
      exact paced_update (show Paced (rt.deleteTask task) from h) fun _ => rfl
  | supervise now platforms =>
    have hpass : ∀ (indices : List Nat) (rt : Runtime), Paced rt →
        Paced (indices.foldl (fun rt i => superviseApp tickRateHz now (platforms i) i rt) rt) := by
      intro indices
      induction indices with
      | nil => exact fun rt h => h
      | cons i indices ih => exact fun rt h => ih _ (paced_superviseApp h tickRateHz now (platforms i) i)
    exact hpass _ rt h
  | turn handle ticks watermark =>
    intro j app happ
    obtain ⟨old, hold, hperiod, -⟩ := taskTurn_record happ
    rw [hperiod]
    exact h j old hold

/-- Four periods of a record fit in 32 bits, whatever the commands before the pass were. -/
theorem fits_afterSteps (tickRateHz : Nat) (events : List AppEvent) (i : Nat) (app : AppRecord)
    (happ : (afterSteps tickRateHz events).apps[i]? = some app) : app.periodMs * 4 < period := by
  have hinitial : Paced initial := by
    intro i app happ
    have hall : ∀ app ∈ initial.apps, app.periodMs = 500 ∨ app.periodMs = 1000 := by decide
    exact hall app (List.mem_of_getElem? happ)
  have hpaced : Paced (afterSteps tickRateHz events) :=
    after_invariant hinitial (fun _ event h => paced_step h tickRateHz event) events
  have hperiod : period = 4294967296 := rfl
  rcases hpaced i app happ with h | h <;> omega

/-! ### The pass -/

/-- Of the records that are still to be examined, each shows its latest heartbeat. -/
structure Shown (start : PassStart) (s : Pass) : Prop where
  sample : start.time ≤ s.time
  beats : ∀ i, s.beats i ≤ s.time
  shows : ∀ i app, s.examined ≤ i → s.rt.apps[i]? = some app → app.heartbeat = reading (s.beats i)
  fits : ∀ i app, s.examined ≤ i → s.rt.apps[i]? = some app → app.periodMs * 4 < period

theorem shown_pass (start : PassStart) : Shown start start.pass :=
  ⟨le_rfl, start.past, fun i app _ => start.shows i app, fun i app _ => start.fits i app⟩

/-- A turn moves the heartbeat of its record and the time of it together. -/
theorem Shown.turn (tickRateHz : Nat) {start : PassStart} {s : Pass} (h : Shown start s) (delay : Nat)
    (handle : Handle) (watermark : Nat) :
    Shown start (passStep tickRateHz start s (.turn delay handle watermark)) := by
  have hlater : start.time ≤ s.time + delay := h.sample.trans (Nat.le_add_right _ _)
  have hbeats : ∀ i, s.beats i ≤ s.time + delay := fun i => (h.beats i).trans (Nat.le_add_right _ _)
  cases hlookup : s.rt.tasks.lookup handle with
  | none =>
    simp only [passStep, taskTurn, hlookup]
    exact ⟨hlater, hbeats, h.shows, h.fits⟩
  | some k =>
    simp only [passStep, hlookup]
    refine ⟨hlater, fun i => ?_, fun i app hi happ => ?_, fun i app hi happ => ?_⟩ <;> dsimp only at *
    · by_cases hik : i = k
      · rw [hik, Function.update_self]
      · rw [Function.update_of_ne hik]
        exact hbeats i
    · obtain ⟨old, hold, -, hheartbeat⟩ := taskTurn_record happ
      rw [hheartbeat, hlookup]
      by_cases hik : k = i
      · rw [hik, if_pos rfl, Function.update_self]
      · rw [if_neg fun heq => hik (Option.some_inj.mp heq), Function.update_of_ne (Ne.symm hik)]
        exact h.shows i old hi hold
    · obtain ⟨old, hold, hperiod, -⟩ := taskTurn_record happ
      rw [hperiod]
      exact h.fits i old hi hold

/-- An examination changes no record behind its own. -/
theorem Shown.examine (tickRateHz : Nat) {start : PassStart} {s : Pass} (h : Shown start s)
    (delay freeHeap : Nat) (created : Option Handle) :
    Shown start (passStep tickRateHz start s (.examine delay freeHeap created)) := by
  have hothers : ∀ i, s.examined + 1 ≤ i →
      (examined tickRateHz start s delay freeHeap created).apps[i]? = s.rt.apps[i]? := fun i hi =>
    superviseApp_ne tickRateHz _ _ (by omega) s.rt
  refine ⟨h.sample.trans (Nat.le_add_right _ _), fun i => (h.beats i).trans (Nat.le_add_right _ _),
    fun i app hi happ => ?_, fun i app hi happ => ?_⟩
  · exact h.shows i app (Nat.le_of_succ_le hi) ((hothers i hi).symm.trans happ)
  · exact h.fits i app (Nat.le_of_succ_le hi) ((hothers i hi).symm.trans happ)

theorem shown_step (tickRateHz : Nat) {start : PassStart} {s : Pass} (h : Shown start s) (e : PassEvent) :
    Shown start (passStep tickRateHz start s e) := by
  cases e with
  | turn delay handle watermark => exact h.turn tickRateHz delay handle watermark
  | examine delay freeHeap created => exact h.examine tickRateHz delay freeHeap created

theorem shown_afterEvents (tickRateHz : Nat) (start : PassStart) (events : List PassEvent) :
    Shown start (afterEvents tickRateHz start events) :=
  after_invariant (shown_pass start) (fun _ e h => shown_step tickRateHz h e) events

/-- A pass that no task disturbs is one of `supervise`, where the examinations take the delays. -/
theorem undisturbed_pass (tickRateHz : Nat) (start : PassStart) (delay freeHeap : Nat → Nat)
    (created : Nat → Option Handle) :
    (afterEvents tickRateHz start ((List.range start.rt.apps.length).map fun i =>
        .examine (delay i) (freeHeap i) (created i))).rt =
      supervise tickRateHz (reading start.time) (fun i => ⟨freeHeap i, created i,
        reading (start.time + ((List.range (i + 1)).map delay).sum)⟩) start.rt := by
  have hbegin : ∀ n, afterEvents tickRateHz start ((List.range n).map fun i =>
        .examine (delay i) (freeHeap i) (created i)) =
      ⟨(List.range n).foldl (fun rt i => superviseApp tickRateHz (reading start.time) ⟨freeHeap i, created i,
        reading (start.time + ((List.range (i + 1)).map delay).sum)⟩ i rt) start.rt,
        start.time + ((List.range n).map delay).sum, start.beats, n⟩ := by
    intro n
    induction n with
    | zero => rfl
    | succ n ih =>
      have hsum : ((List.range (n + 1)).map delay).sum = ((List.range n).map delay).sum + delay n := by
        rw [List.range_succ, List.map_append, List.sum_append, List.map_singleton, List.sum_singleton]
      rw [afterEvents, List.range_succ, List.map_append, List.map_singleton, after_snoc, ← afterEvents, ih,
        List.foldl_append, ← List.range_succ, hsum]
      simp only [passStep, examined, List.foldl_cons, List.foldl_nil, hsum, Nat.add_assoc]
  rw [hbegin]
  rfl

/-- An examination is right about its record exactly when it is not overtaken. -/
theorem examined_iff (hrate : tickRateHz ≤ 1000) {start : PassStart} {s : Pass} (h : Shown start s)
    (delay freeHeap : Nat) (created : Option Handle) :
    (examined tickRateHz start s delay freeHeap created ≠ s.rt →
      ∀ app, s.rt.apps[s.examined]? = some app →
        s.beats s.examined + fourPeriods tickRateHz app < s.time + delay) ↔
      ¬ Overtaken tickRateHz start s delay := by
  cases happ : s.rt.apps[s.examined]? with
  | none =>
    refine iff_of_true (fun _ app h => by cases h) fun hovertaken => ?_
    obtain ⟨app, happ', -⟩ := hovertaken
    cases happ.symm.trans happ'
  | some app =>
    have hacts := superviseApp_ne_iff tickRateHz (reading start.time)
      ⟨freeHeap, created, reading (s.time + delay)⟩ happ
    obtain ⟨htimeout, hlimit⟩ := timeout_toNat hrate (h.fits s.examined app le_rfl happ)
    have hsample : start.time ≤ s.time + delay := h.sample.trans (Nat.le_add_right _ _)
    have hage := @limit_lt_age_iff _ (s.beats s.examined) _ _ hsample hlimit
    rw [h.shows s.examined app le_rfl happ, UInt32.lt_iff_toNat_lt, htimeout] at hacts
    constructor
    · intro hright hovertaken
      obtain ⟨app', happ', htask, hstate, hcase⟩ := hovertaken
      obtain rfl := Option.some_inj.mp (happ.symm.trans happ')
      exact hage.mp (fun hold => hright (hacts.mpr ⟨htask, hstate, hold⟩) app rfl) hcase
    · intro hnever hne app' happ'
      obtain rfl := Option.some_inj.mp happ'
      obtain ⟨htask, hstate, hold⟩ := hacts.mp hne
      exact hage.mpr (fun hcase => hnever ⟨app, happ, htask, hstate, hcase⟩) hold

/-- No task is deleted within four periods of its latest heartbeat exactly when no examination is
overtaken by a heartbeat. -/
theorem healthy_iff_overtaken {tickRateHz : Nat} (hrate : tickRateHz ≤ 1000) (start : PassStart)
    (events : List PassEvent) : Healthy tickRateHz start events ↔
      ∀ past delay freeHeap created, Taken events past (.examine delay freeHeap created) →
        ¬ Overtaken tickRateHz start (afterEvents tickRateHz start past) delay := by
  have hexamined := fun past => examined_iff hrate (shown_afterEvents tickRateHz start past)
  constructor
  · intro hhealthy past delay freeHeap created htaken
    exact (hexamined past delay freeHeap created).mp (hhealthy past delay freeHeap created htaken)
  · intro hnever past delay freeHeap created htaken
    exact (hexamined past delay freeHeap created).mpr (hnever past delay freeHeap created htaken)

/-- The app `diagnostics` runs, and wrote its heartbeat at the boot. -/
def diagnosed : Runtime :=
  ⟨[⟨lit "diagnostics", true, .running, some 1, -1, 1000, [], 0, 1024, 0⟩], [(1, 0)]⟩

theorem diagnosed_shows (i : Nat) (app : AppRecord) (happ : diagnosed.apps[i]? = some app) :
    app.heartbeat = reading 0 := by
  have hall : ∀ app ∈ diagnosed.apps, app.heartbeat = reading 0 := by decide
  exact hall app (List.mem_of_getElem? happ)

theorem diagnosed_fits (i : Nat) (app : AppRecord) (happ : diagnosed.apps[i]? = some app) :
    app.periodMs * 4 < period := by
  have hall : ∀ app ∈ diagnosed.apps, app.periodMs * 4 < period := by decide
  exact hall app (List.mem_of_getElem? happ)

/-- A pass that takes its time at the fifth tick. -/
def diagnosedPass : PassStart :=
  ⟨diagnosed, 5, fun _ => 0, diagnosed_shows, fun _ => Nat.zero_le 5, diagnosed_fits⟩

/-- Where the task sleeps on, the examination is not overtaken. -/
theorem healthy_iff_overtaken_asleep :
    Healthy 100 diagnosedPass [.examine 1 32768 none] ↔
      ∀ past delay freeHeap created, Taken [.examine 1 32768 none] past (.examine delay freeHeap created) →
        ¬ Overtaken 100 diagnosedPass (afterEvents 100 diagnosedPass past) delay :=
  healthy_iff_overtaken (by decide) diagnosedPass [.examine 1 32768 none]

/-- The task writes its heartbeat one tick behind the sample, and is deleted at the same tick. -/
theorem fresh_heartbeat_deleted : ¬ Healthy 100 diagnosedPass [.turn 1 1 1024, .examine 0 32768 none] := by
  intro hhealthy
  have hlast := hhealthy [.turn 1 1 1024] 0 32768 none (taken_last _ _)
  have hold := hlast (by decide +kernel) ⟨lit "diagnostics", true, .running, some 1, -1, 1000, [], 6, 1024, 0⟩
    (by decide +kernel)
  exact absurd hold (by decide +kernel)

end Esp32Shell.Idf.Heartbeat
