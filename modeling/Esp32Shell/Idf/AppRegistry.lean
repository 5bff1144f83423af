import Esp32Shell.Idf.AppRuntime
import Esp32Shell.Library.Ownership
import Esp32Shell.Library.Run
import Mathlib.Data.List.Basic

/-!
# The registry of the apps

What holds of the records and of the tasks after any sequence of commands,
supervisor passes and turns of the tasks. A record changes hands only in `start`,
which takes a record without a task, and at the exits, which leave it without one.
-/
namespace Esp32Shell.Idf.AppRegistry

open Esp32Shell.Library.CText Esp32Shell.Library.Ownership Esp32Shell.Library.Run
open Storage.LittleFs SignedAppBundle AppRuntime

/-- The task that a record names. -/
def held (rt : Runtime) (i : Nat) : Option Handle := (rt.apps[i]?).bind (·.task)

/-- The names in use, and which of them are built in. -/
def directory (rt : Runtime) : List (Text × Bool) := rt.apps.map fun app => (app.name, app.builtin)

/-- A record that is running has a task, and one that has a task is running. -/
def Settled (rt : Runtime) (i : Nat) : Prop :=
  ∀ app, rt.apps[i]? = some app → (app.state = .running ↔ app.task ≠ none)

/-- The tasks are owned by the records, and no record was restarted too often. -/
structure Steady (rt : Runtime) : Prop where
  owned : Owned (held rt) rt.tasks
  restarts : ∀ app ∈ rt.apps, app.restartCount ≤ maximumRestarts

/-! ### Changes of one record -/

variable {rt : Runtime} {i : Nat} {change : AppRecord → AppRecord}

theorem getElem?_update_self (rt : Runtime) (i : Nat) (change : AppRecord → AppRecord) :
    (rt.update i change).apps[i]? = (rt.apps[i]?).map change := by
  rw [Runtime.update, List.getElem?_modify_eq]
  rfl

theorem getElem?_update_ne {j : Nat} (h : i ≠ j) (rt : Runtime) (change : AppRecord → AppRecord) :
    (rt.update i change).apps[j]? = rt.apps[j]? := by
  rw [Runtime.update, List.getElem?_modify_ne _ _ h]

theorem update_update (rt : Runtime) (i : Nat) (change more : AppRecord → AppRecord) :
    (rt.update i change).update i more = rt.update i (more ∘ change) := by
  rw [Runtime.update, Runtime.update, Runtime.update, List.modify_modify_eq]

theorem directory_update (rt : Runtime)
    (h : ∀ app, (change app).name = app.name ∧ (change app).builtin = app.builtin) :
    directory (rt.update i change) = directory rt := by
  apply List.ext_getElem?
  intro j
  rw [directory, directory, List.getElem?_map, List.getElem?_map]
  by_cases hij : i = j
  · rw [← hij, getElem?_update_self, Option.map_map]
    congr 1
    funext app
    show (_, _) = _
    rw [(h app).1, (h app).2]
  · rw [getElem?_update_ne hij]

theorem held_update_of_kept (h : ∀ app, (change app).task = app.task) :
    held (rt.update i change) = held rt := by
  funext j
  rw [held, held]
  by_cases hij : i = j
  · rw [← hij, getElem?_update_self]
    cases rt.apps[i]? with
    | none => rfl
    | some app => exact h app
  · rw [getElem?_update_ne hij]

theorem held_update (rt : Runtime) {app : AppRecord} (happ : rt.apps[i]? = some app)
    {task : Option Handle} (h : (change app).task = task) :
    held (rt.update i change) = Function.update (held rt) i task := by
  funext j
  by_cases hij : i = j
  · rw [← hij, Function.update_self, held, getElem?_update_self, happ]
    exact h
  · rw [Function.update_of_ne (Ne.symm hij), held, getElem?_update_ne hij, held]

/-- The others stay settled, and the changed record is settled by its change. -/
theorem settled_update (rt : Runtime) {app : AppRecord} (happ : rt.apps[i]? = some app)
    (hothers : ∀ j, i ≠ j → Settled rt j)
    (h : (change app).state = .running ↔ (change app).task ≠ none) (j : Nat) :
    Settled (rt.update i change) j := by
  intro app' happ'
  by_cases hij : i = j
  · rw [← hij, getElem?_update_self, happ] at happ'
    cases happ'
    exact h
  · rw [getElem?_update_ne hij] at happ'
    exact hothers j hij app' happ'

/-- A record after the change of one record. -/
theorem getElem?_update_eq_some {j : Nat} {app : AppRecord}
    (h : (rt.update i change).apps[j]? = some app) :
    i ≠ j ∧ rt.apps[j]? = some app ∨ i = j ∧ ∃ old, rt.apps[i]? = some old ∧ app = change old := by
  by_cases hij : i = j
  · rw [← hij, getElem?_update_self] at h
    obtain ⟨old, hold, rfl⟩ := Option.map_eq_some_iff.mp h
    exact Or.inr ⟨hij, old, hold, rfl⟩
  · rw [getElem?_update_ne hij] at h
    exact Or.inl ⟨hij, h⟩

theorem restarts_update (rt : Runtime) {app : AppRecord}
    (h : ∀ old ∈ rt.apps, old.restartCount ≤ maximumRestarts) (happ : rt.apps[i]? = some app)
    (hchange : (change app).restartCount ≤ maximumRestarts) :
    ∀ old ∈ (rt.update i change).apps, old.restartCount ≤ maximumRestarts := by
  intro old hold
  obtain ⟨j, hj⟩ := List.mem_iff_getElem?.mp hold
  obtain ⟨-, hj⟩ | ⟨-, record, hrecord, rfl⟩ := getElem?_update_eq_some hj
  · exact h old (List.mem_of_getElem? hj)
  · obtain rfl := Option.some_inj.mp (hrecord.symm.trans happ)
    exact hchange

/-- A change that leaves the tasks as they are. -/
theorem Steady.update (h : Steady rt) (change : AppRecord → AppRecord) {app : AppRecord}
    (happ : rt.apps[i]? = some app) (htask : ∀ app, (change app).task = app.task)
    (hcount : (change app).restartCount ≤ maximumRestarts) : Steady (rt.update i change) := by
  refine ⟨?_, restarts_update rt h.restarts happ hcount⟩
  rw [held_update_of_kept htask]
  exact h.owned

/-- A record without a task takes one that is newly created. -/
theorem Steady.take (h : Steady rt) {app : AppRecord} (happ : rt.apps[i]? = some app)
    (hfree : app.task = none) {handle : Handle} (hfresh : handle ∉ rt.tasks.map Prod.fst)
    (htask : (change app).task = some handle)
    (hcount : (change app).restartCount ≤ maximumRestarts) :
    Steady (({ rt with tasks := (handle, i) :: rt.tasks } : Runtime).update i change) := by
  refine ⟨?_, restarts_update { rt with tasks := (handle, i) :: rt.tasks } h.restarts happ hcount⟩
  rw [held_update { rt with tasks := (handle, i) :: rt.tasks } happ htask]
  refine h.owned.acquire ?_ hfresh
  rw [held, happ]
  exact hfree

/-- A record gives up its task, which is deleted. -/
theorem Steady.drop (h : Steady rt) {app : AppRecord} (happ : rt.apps[i]? = some app) {task : Handle}
    (hheld : app.task = some task) (htask : (change app).task = none)
    (hcount : (change app).restartCount ≤ maximumRestarts) :
    Steady ((rt.deleteTask task).update i change) := by
  refine ⟨?_, restarts_update (rt.deleteTask task) h.restarts happ hcount⟩
  rw [held_update (rt.deleteTask task) happ htask]
  refine h.owned.release ?_
  rw [held, happ]
  exact hheld

/-! ### Starting -/

/-- All that `createTask` can do. -/
theorem createTask_cases (app : Option Nat) (platform : Platform) (rt : Runtime) :
    (∃ line, createTask app platform rt = (.error line, rt) ∧
      ∀ i, app = some i → rt.apps[i]? = none ∨ held rt i ≠ none) ∨
    ∃ i record, app = some i ∧ rt.apps[i]? = some record ∧ record.task = none ∧
      ((∃ failure line, createTask app platform rt = (.error line,
          rt.update i fun app => { app with failure := failure, state := .failed })) ∨
        ∃ handle, handle ∉ rt.tasks.map Prod.fst ∧ createTask app platform rt =
          (.ok (i, record.name, handle), ({ rt with tasks := (handle, i) :: rt.tasks } : Runtime).update i
            fun app => { app with task := some handle })) := by
  cases app with
  | none => exact Or.inl ⟨_, rfl, fun i h => by cases h⟩
  | some i =>
    cases happ : rt.apps[i]? with
    | none =>
      refine Or.inl ⟨lit "error: app is unavailable", ?_, ?_⟩
      · rw [createTask, Option.bind_some, happ]
        rfl
      · intro j hj
        cases hj
        exact Or.inl happ
    | some record =>
      simp only [createTask, Option.bind_some, happ, Option.map_some]
      by_cases htask : record.task ≠ none
      · refine Or.inl ⟨_, if_pos htask, ?_⟩
        intro j hj
        cases hj
        rw [held, happ]
        exact Or.inr htask
      · rw [if_neg htask]
        refine Or.inr ⟨i, record, rfl, happ, not_not.mp htask, ?_⟩
        by_cases hheap : platform.freeHeap < minimumFreeHeap
        · exact Or.inl ⟨_, _, if_pos hheap⟩
        · rw [if_neg hheap]
          cases hfresh : rt.freshHandle platform with
          | none => exact Or.inl ⟨_, _, rfl⟩
          | some handle =>
            refine Or.inr ⟨handle, ?_, rfl⟩
            exact of_decide_eq_true (Option.filter_eq_some_iff.mp hfresh).2

/-- All that `start` can do. -/
theorem start_cases (app : Option Nat) (platform : Platform) (rt : Runtime) :
    (∃ line, start app platform rt = ⟨rt, [line], false⟩ ∧
      ∀ i, app = some i → rt.apps[i]? = none ∨ held rt i ≠ none) ∨
    ∃ i record, app = some i ∧ rt.apps[i]? = some record ∧ record.task = none ∧
      ((∃ failure line, start app platform rt =
          ⟨rt.update i fun app => { app with failure := failure, state := .failed }, [line], false⟩) ∨
        ∃ handle line, handle ∉ rt.tasks.map Prod.fst ∧ start app platform rt =
          ⟨({ rt with tasks := (handle, i) :: rt.tasks } : Runtime).update i fun app =>
              { app with task := some handle, state := .running, failure := [],
                         heartbeat := platform.ticks }, [line], true⟩) := by
  obtain ⟨line, hcreate, hnone⟩ | ⟨i, record, rfl, happ, hfree, hdone⟩ :=
    createTask_cases app platform rt
  · exact Or.inl ⟨line, by rw [start, hcreate], hnone⟩
  · refine Or.inr ⟨i, record, rfl, happ, hfree, ?_⟩
    obtain ⟨failure, line, hcreate⟩ | ⟨handle, hfresh, hcreate⟩ := hdone
    · exact Or.inl ⟨failure, line, by rw [start, hcreate]⟩
    · refine Or.inr ⟨handle, snprintf 64 (lit "app-started=" ++ record.name), hfresh, ?_⟩
      simp only [start, hcreate, update_update]
      rfl

/-- What a step leaves that creates no record. -/
structure Kept (rt rt' : Runtime) : Prop where
  steady : Steady rt'
  settled : ∀ i, Settled rt' i
  directory : directory rt' = directory rt

/-- A change of one record that keeps its name, and after which its state agrees with its task. -/
structure Settles (change : AppRecord → AppRecord) (app : AppRecord) : Prop where
  running_iff : (change app).state = .running ↔ (change app).task ≠ none
  restarts : (change app).restartCount ≤ maximumRestarts
  named : ∀ app, (change app).name = app.name ∧ (change app).builtin = app.builtin

theorem kept_update (h : Steady rt) (hothers : ∀ j, i ≠ j → Settled rt j) {app : AppRecord}
    (happ : rt.apps[i]? = some app) (hc : Settles change app)
    (htask : ∀ app, (change app).task = app.task) : Kept rt (rt.update i change) :=
  ⟨h.update change happ htask hc.restarts, settled_update rt happ hothers hc.running_iff,
    directory_update rt hc.named⟩

theorem kept_take (h : Steady rt) (hothers : ∀ j, i ≠ j → Settled rt j) {app : AppRecord}
    (happ : rt.apps[i]? = some app) (hc : Settles change app) (hfree : app.task = none)
    {handle : Handle} (hfresh : handle ∉ rt.tasks.map Prod.fst)
    (htask : (change app).task = some handle) :
    Kept rt (({ rt with tasks := (handle, i) :: rt.tasks } : Runtime).update i change) :=
  ⟨h.take happ hfree hfresh htask hc.restarts,
    settled_update { rt with tasks := (handle, i) :: rt.tasks } happ hothers hc.running_iff,
    directory_update _ hc.named⟩

theorem kept_drop (h : Steady rt) (hothers : ∀ j, i ≠ j → Settled rt j) {app : AppRecord}
    (happ : rt.apps[i]? = some app) (hc : Settles change app) {task : Handle}
    (hheld : app.task = some task) (htask : (change app).task = none) :
    Kept rt ((rt.deleteTask task).update i change) :=
  ⟨h.drop happ hheld htask hc.restarts,
    settled_update (rt.deleteTask task) happ hothers hc.running_iff,
    directory_update (rt.deleteTask task) hc.named⟩

/-- `start` settles the record it is asked for, whatever its state said before. -/
theorem start_kept (app : Option Nat) (h : Steady rt)
    (hsettled : ∀ i, Settled rt i ∨ app = some i ∧ held rt i = none) (platform : Platform) :
    Kept rt (start app platform rt).device := by
  obtain ⟨line, hstart, hnone⟩ | ⟨i, record, rfl, happ, hfree, hdone⟩ := start_cases app platform rt
  · rw [hstart]
    refine ⟨h, fun i => ?_, rfl⟩
    refine (hsettled i).elim id fun hi => ?_
    intro record happ
    rcases hnone i hi.1 with hnot | hheld
    · rw [hnot] at happ
      cases happ
    · exact absurd hi.2 hheld
  · have hcount := h.restarts record (List.mem_of_getElem? happ)
    have hothers : ∀ j, i ≠ j → Settled rt j := by
      intro j hij
      refine (hsettled j).elim id fun hj => ?_
      exact absurd (Option.some_inj.mp hj.1) hij
    obtain ⟨failure, line, hstart⟩ | ⟨handle, line, hfresh, hstart⟩ := hdone
    · rw [hstart]
      refine kept_update h hothers happ ⟨?_, hcount, fun _ => ⟨rfl, rfl⟩⟩ fun _ => rfl
      simp [hfree]
    · rw [hstart]
      refine kept_take h hothers happ ?_ hfree hfresh ?_
      · exact ⟨by simp, hcount, fun _ => ⟨rfl, rfl⟩⟩
      · rfl

/-! ### The other entry points -/

/-- All that `stop` can do. -/
theorem stop_cases (name : Text) (rt : Runtime) :
    (∃ line, stop name rt = ⟨rt, [line], false⟩) ∨
    ∃ i app task line, rt.apps[i]? = some app ∧ app.task = some task ∧ stop name rt =
      ⟨(rt.deleteTask task).update i fun app => { app with task := none, state := .stopped }, [line],
        true⟩ := by
  unfold stop
  split
  · exact Or.inl ⟨_, rfl⟩
  · next i app task hfound =>
    obtain ⟨j, -, happ⟩ := Option.bind_eq_some_iff.mp hfound
    obtain ⟨record, hrecord, htask⟩ := Option.bind_eq_some_iff.mp happ
    obtain ⟨handle, hheld, heq⟩ := Option.map_eq_some_iff.mp htask
    cases heq
    exact Or.inr ⟨i, app, task, _, hrecord, hheld, rfl⟩

theorem stop_kept (h : Steady rt) (hsettled : ∀ i, Settled rt i) (name : Text) :
    Kept rt (stop name rt).device := by
  obtain ⟨line, hstop⟩ | ⟨i, app, task, line, hrecord, hheld, hstop⟩ := stop_cases name rt
  · rw [hstop]
    exact ⟨h, hsettled, rfl⟩
  · rw [hstop]
    have hcount := h.restarts app (List.mem_of_getElem? hrecord)
    refine kept_drop h (fun k _ => hsettled k) hrecord ?_ hheld ?_
    · exact ⟨by simp, hcount, fun _ => ⟨rfl, rfl⟩⟩
    · rfl

theorem superviseApp_kept (h : Steady rt) (hsettled : ∀ i, Settled rt i) (tickRateHz : Nat)
    (now : UInt32) (platform : Platform) (i : Nat) :
    Kept rt (superviseApp tickRateHz now platform i rt) := by
  have hsame : Kept rt rt := ⟨h, hsettled, rfl⟩
  cases happ : rt.apps[i]? with
  | none =>
    rw [superviseApp, happ]
    exact hsame
  | some app =>
    cases htask : app.task with
    | none =>
      simp only [superviseApp, happ, htask]
      exact hsame
    | some task =>
      simp only [superviseApp, happ, htask]
      split
      · exact hsame
      have hcount := h.restarts app (List.mem_of_getElem? happ)
      split
      · rw [update_update]
        refine kept_drop h (fun j _ => hsettled j) happ ?_ htask ?_
        · exact ⟨by simp, hcount, fun _ => ⟨rfl, rfl⟩⟩
        · rfl
      -- the record has its count and no task, and is not settled before `start` has returned
      · next hlow =>
        rw [update_update]
        have hnext : app.restartCount + 1 ≤ maximumRestarts := by omega
        have hcounted : Steady ((rt.deleteTask task).update i
            ((fun app => { app with restartCount := app.restartCount + 1 }) ∘
              fun app => { app with task := none })) := h.drop happ htask rfl hnext
        have hkept := start_kept (some i) hcounted (fun j => ?_) platform
        · refine ⟨hkept.steady, hkept.settled, hkept.directory.trans ?_⟩
          exact directory_update (rt.deleteTask task) fun _ => ⟨rfl, rfl⟩
        · by_cases hij : i = j
          · subst hij
            refine Or.inr ⟨rfl, ?_⟩
            rw [held_update (rt.deleteTask task) happ rfl, Function.update_self]
            rfl
          · refine Or.inl fun app' happ' => ?_
            rw [getElem?_update_ne hij] at happ'
            exact hsettled j app' happ'

theorem supervise_kept (h : Steady rt) (hsettled : ∀ i, Settled rt i) (tickRateHz : Nat)
    (now : UInt32) (platforms : Nat → Platform) : Kept rt (supervise tickRateHz now platforms rt) := by
  have hpass : ∀ (indices : List Nat) (rt' : Runtime), Kept rt rt' →
      Kept rt (indices.foldl (fun rt i => superviseApp tickRateHz now (platforms i) i rt) rt') := by
    intro indices
    induction indices with
    | nil => exact fun _ hkept => hkept
    | cons i indices ih =>
      intro rt' hkept
      have hstep := superviseApp_kept hkept.steady hkept.settled tickRateHz now (platforms i) i
      exact ih _ ⟨hstep.steady, hstep.settled, hstep.directory.trans hkept.directory⟩
  exact hpass _ rt ⟨h, hsettled, rfl⟩

theorem mem_of_lookup {handle : Handle} (h : rt.tasks.lookup handle = some i) :
    (handle, i) ∈ rt.tasks := by
  obtain ⟨before, after, htasks, -⟩ := List.lookup_eq_some_iff.mp h
  rw [htasks]
  simp

theorem taskTurn_kept (h : Steady rt) (hsettled : ∀ i, Settled rt i) (handle : Handle)
    (ticks : UInt32) (watermark : Nat) : Kept rt (taskTurn handle ticks watermark rt) := by
  unfold taskTurn
  split
  · exact ⟨h, hsettled, rfl⟩
  · next i hlookup =>
    have hheld := (h.owned.held_iff i handle).mpr (mem_of_lookup hlookup)
    obtain ⟨app, happ, htask⟩ := Option.bind_eq_some_iff.mp hheld
    have hcount := h.restarts app (List.mem_of_getElem? happ)
    split
    · show Kept rt (((rt.deleteTask handle).update i _).update i _)
      rw [update_update]
      refine kept_drop h (fun j _ => hsettled j) happ ?_ htask ?_
      · exact ⟨by simp, hcount, fun _ => ⟨rfl, rfl⟩⟩
      · rfl
    · exact kept_update h (fun j _ => hsettled j) happ
        ⟨hsettled i app happ, hcount, fun _ => ⟨rfl, rfl⟩⟩ fun _ => rfl

/-- A step that registers a name that was verified in it. -/
structure Registered (name : Text) (board : Board) (rt rt' : Runtime) : Prop where
  steady : Steady rt'
  settled : ∀ i, Settled rt' i
  directory : directory rt' = directory rt ++ [(name, false)]
  room : rt.apps.length < maxApps
  absent : find name rt = none
  passed : ∃ payload, Passed name board payload

theorem held_append (rt : Runtime) (name : Text) :
    held { rt with apps := rt.apps ++ [signedRecord name] } = held rt := by
  funext j
  rw [held, held, List.getElem?_append]
  split
  · rfl
  · next hlen =>
    have hout : rt.apps[j]? = none := List.getElem?_eq_none (by omega)
    rw [hout, List.getElem?_singleton]
    split <;> rfl

theorem steady_append (h : Steady rt) (name : Text) :
    Steady { rt with apps := rt.apps ++ [signedRecord name] } := by
  refine ⟨?_, fun app happ => ?_⟩
  · rw [held_append]
    exact h.owned
  · apply (List.mem_append.mp happ).elim
    · exact h.restarts app
    · intro hnew
      rw [List.mem_singleton.mp hnew]
      exact Nat.zero_le 3

/-- A record after one is added. -/
theorem getElem?_append_eq_some {name : Text} {app : AppRecord}
    (h : (rt.apps ++ [signedRecord name])[i]? = some app) :
    rt.apps[i]? = some app ∨ app = signedRecord name := by
  rw [List.getElem?_append] at h
  split at h
  · exact Or.inl h
  · rw [List.getElem?_singleton] at h
    split at h
    · cases h
      exact Or.inr rfl
    · cases h

theorem settled_append (hsettled : ∀ i, Settled rt i) (name : Text) (i : Nat) :
    Settled { rt with apps := rt.apps ++ [signedRecord name] } i := by
  intro app happ
  obtain hold | rfl := getElem?_append_eq_some happ
  · exact hsettled i app hold
  · simp [signedRecord]

/-- `run` leaves the records as they are, or adds one for a name that it has verified. -/
theorem appToRun_cases {name : Text} {board : Board} {app : Option Nat} {rt' : Runtime}
    (h : appToRun name board rt = .ok (app, rt')) :
    rt' = rt ∨ find name rt = none ∧ safeName name = true ∧ (∃ payload, Passed name board payload) ∧
      rt.apps.length < maxApps ∧ rt' = { rt with apps := rt.apps ++ [signedRecord name] } := by
  cases hfind : find name rt with
  | some i =>
    simp only [appToRun, hfind] at h
    cases h
    exact Or.inl rfl
  | none =>
    cases hload : loadAndVerify name board with
    | error line =>
      simp only [appToRun, hfind, hload] at h
      cases h
    | ok payload =>
      simp only [appToRun, hfind, hload, findOrCreateSigned] at h
      obtain ⟨hsafe, hpassed⟩ := loadAndVerify_eq_ok hload
      split at h
      · cases h
      split at h
      · cases h
        exact Or.inl rfl
      next hcreate =>
        cases h
        push Not at hcreate
        exact Or.inr ⟨rfl, hsafe, ⟨payload, hpassed⟩, hcreate.2, rfl⟩

theorem run_cases (h : Steady rt) (hsettled : ∀ i, Settled rt i) (name : Text) (board : Board) :
    Kept rt (run name board rt).device ∨ Registered name board rt (run name board rt).device := by
  cases happ : appToRun name board rt with
  | error line =>
    simp only [run, happ]
    exact Or.inl ⟨h, hsettled, rfl⟩
  | ok found =>
    obtain ⟨app, rt'⟩ := found
    simp only [run, happ]
    obtain rfl | ⟨hfind, hsafe, hpassed, hroom, rfl⟩ := appToRun_cases happ
    · exact Or.inl (start_kept app h (fun j => Or.inl (hsettled j)) board.platform)
    · have hkept := start_kept app (steady_append h name)
        (fun j => Or.inl (settled_append hsettled name j)) board.platform
      refine Or.inr ⟨hkept.steady, hkept.settled, ?_, hroom, hfind, hpassed⟩
      have hname : name.take 23 = name := by
        have hshort := safeName_length hsafe
        exact List.take_of_length_le (by omega)
      rw [hkept.directory, directory, List.map_append, List.map_singleton, signedRecord, hname]
      rfl

/-! ### Runs -/

/-- One atomic step of the system. -/
inductive AppEvent where
  | run (name : Text) (board : Board)
  | stop (name : Text)
  | supervise (now : UInt32) (platforms : Nat → Platform)
  | turn (handle : Handle) (ticks : UInt32) (watermark : Nat)

def step (tickRateHz : Nat) (rt : Runtime) : AppEvent → Runtime
  | .run name board => (run name board rt).device
  | .stop name => (stop name rt).device
  | .supervise now platforms => supervise tickRateHz now platforms rt
  | .turn handle ticks watermark => taskTurn handle ticks watermark rt

/-- The state after some steps. -/
abbrev afterSteps (tickRateHz : Nat) (events : List AppEvent) : Runtime :=
  after (step tickRateHz) initial events

theorem afterSteps_snoc (tickRateHz : Nat) (events : List AppEvent) (event : AppEvent) :
    afterSteps tickRateHz (events ++ [event]) = step tickRateHz (afterSteps tickRateHz events) event :=
  after_snoc events event

/-- The name was registered by a `run` in which a bundle of exactly this name was verified. -/
def CreatedBy (tickRateHz : Nat) (events : List AppEvent) (name : Text) : Prop :=
  ∃ past board, Taken events past (.run name board) ∧
    find name (afterSteps tickRateHz past) = none ∧
    find name (afterSteps tickRateHz (past ++ [.run name board])) ≠ none ∧
    ∃ payload, Passed name board payload

/-- What the registry says of its names. -/
structure Listed (tickRateHz : Nat) (events : List AppEvent) (rt : Runtime) : Prop where
  length_le : (directory rt).length ≤ maxApps
  nodup : ((directory rt).map Prod.fst).Nodup
  builtins : [(lit "diagnostics", true), (lit "led-blink", true)] <+: directory rt
  created : ∀ name, (name, false) ∈ directory rt → CreatedBy tickRateHz events name

theorem CreatedBy.snoc {tickRateHz : Nat} {events : List AppEvent} {name : Text}
    (h : CreatedBy tickRateHz events name) (event : AppEvent) :
    CreatedBy tickRateHz (events ++ [event]) name := by
  obtain ⟨past, board, htaken, hrest⟩ := h
  exact ⟨past, board, htaken.snoc event, hrest⟩

theorem Listed.kept {tickRateHz : Nat} {events : List AppEvent} {rt' : Runtime}
    (h : Listed tickRateHz events rt) (hkept : directory rt' = directory rt) (event : AppEvent) :
    Listed tickRateHz (events ++ [event]) rt' := by
  refine ⟨?_, ?_, ?_, fun name hname => ?_⟩
  · rw [hkept]
    exact h.length_le
  · rw [hkept]
    exact h.nodup
  · rw [hkept]
    exact h.builtins
  · rw [hkept] at hname
    exact (h.created name hname).snoc event

theorem find_ne_none_of_mem {name : Text} {kind : Bool} (h : (name, kind) ∈ directory rt) :
    find name rt ≠ none := by
  obtain ⟨app, happ, heq⟩ := List.mem_map.mp h
  intro hnone
  exact find_eq_none_iff.mp hnone app happ (Prod.mk.inj heq).1

theorem Listed.registered {tickRateHz : Nat} {events : List AppEvent} {name : Text} {board : Board}
    (h : Listed tickRateHz events (afterSteps tickRateHz events))
    (hnew : Registered name board (afterSteps tickRateHz events)
      (run name board (afterSteps tickRateHz events)).device) :
    Listed tickRateHz (events ++ [.run name board])
      (run name board (afterSteps tickRateHz events)).device := by
  have hdirectory := hnew.directory
  refine ⟨?_, ?_, ?_, fun other hother => ?_⟩
  · have hroom := hnew.room
    rw [hdirectory, List.length_append, directory, List.length_map]
    exact hroom
  · rw [hdirectory, List.map_append, List.nodup_append]
    refine ⟨h.nodup, List.nodup_singleton _, ?_⟩
    intro listed hlisted added hadded heq
    obtain ⟨⟨listed, kind⟩, hmem, rfl⟩ := List.mem_map.mp hlisted
    rw [List.map_singleton, List.mem_singleton] at hadded
    obtain rfl : listed = name := by
      rw [hadded] at heq
      exact heq
    exact find_ne_none_of_mem hmem hnew.absent
  · rw [hdirectory]
    exact h.builtins.trans (List.prefix_append _ _)
  · have hfound : find other (afterSteps tickRateHz (events ++ [.run name board])) ≠ none := by
      rw [afterSteps_snoc]
      exact find_ne_none_of_mem hother
    rw [hdirectory] at hother
    apply (List.mem_append.mp hother).elim
    · intro hold
      exact (h.created other hold).snoc _
    · intro hadded
      obtain rfl : other = name := (Prod.mk.inj (List.mem_singleton.mp hadded)).1
      exact ⟨events, board, taken_last events _, hnew.absent, hfound, hnew.passed⟩

/-- What holds after every run. -/
structure Invariant (tickRateHz : Nat) (events : List AppEvent) (rt : Runtime) : Prop where
  steady : Steady rt
  settled : ∀ i, Settled rt i
  listed : Listed tickRateHz events rt

theorem invariant_initial (tickRateHz : Nat) : Invariant tickRateHz [] initial := by
  have hheld : held initial = fun _ => none := by
    funext i
    match i with
    | 0 => rfl
    | 1 => rfl
    | i + 2 => rfl
  refine ⟨⟨?_, by decide⟩, fun i app happ => ?_, ⟨by decide, by decide, ?_, fun name hname => ?_⟩⟩
  · rw [hheld]
    exact Owned.empty
  · have hall : ∀ app ∈ initial.apps, app.state = .running ↔ app.task ≠ none := by decide
    exact hall app (List.mem_of_getElem? happ)
  · exact List.prefix_rfl
  · have hnone : ∀ entry ∈ directory initial, entry.2 = true := by decide
    cases hnone _ hname

theorem invariant_step {tickRateHz : Nat} {events : List AppEvent}
    (h : Invariant tickRateHz events (afterSteps tickRateHz events)) (event : AppEvent) :
    Invariant tickRateHz (events ++ [event]) (step tickRateHz (afterSteps tickRateHz events) event) := by
  have hkept : ∀ rt', Kept (afterSteps tickRateHz events) rt' →
      Invariant tickRateHz (events ++ [event]) rt' := fun rt' hkept =>
    ⟨hkept.steady, hkept.settled, h.listed.kept hkept.directory event⟩
  cases event with
  | run name board =>
    apply (run_cases h.steady h.settled name board).elim
    · exact hkept _
    · intro hnew
      exact ⟨hnew.steady, hnew.settled, h.listed.registered hnew⟩
  | stop name => exact hkept _ (stop_kept h.steady h.settled name)
  | supervise now platforms => exact hkept _ (supervise_kept h.steady h.settled tickRateHz now platforms)
  | turn handle ticks watermark =>
    exact hkept _ (taskTurn_kept h.steady h.settled handle ticks watermark)

theorem invariant_run (tickRateHz : Nat) (events : List AppEvent) :
    Invariant tickRateHz events (afterSteps tickRateHz events) :=
  after_induction (C := fun _ _ => True) (invariant_initial tickRateHz)
    (fun _ event h _ => invariant_step h event) fun _ _ _ => trivial

/-- The registry and the tasks after any run. -/
structure Sound (tickRateHz : Nat) (events : List AppEvent) (rt : Runtime) : Prop where
  length_le : rt.apps.length ≤ maxApps
  names_nodup : (rt.apps.map (·.name)).Nodup
  builtins : ∀ name ∈ [lit "diagnostics", lit "led-blink"],
    ∃ app ∈ rt.apps, app.name = name ∧ app.builtin = true
  created : ∀ app ∈ rt.apps, app.builtin = false → CreatedBy tickRateHz events app.name
  /-- A live task has one owner, which is the record that it was given. -/
  owner : ∀ task ∈ rt.tasks, held rt task.2 = some task.1 ∧ ∃! i, held rt i = some task.1
  /-- A record that names a task names a live one, and no two tasks are of one record. -/
  live : ∀ i handle, held rt i = some handle → (handle, i) ∈ rt.tasks
  single : ∀ task ∈ rt.tasks, ∀ other ∈ rt.tasks, task.2 = other.2 → task = other
  running_iff : ∀ app ∈ rt.apps, app.state = .running ↔ app.task ≠ none
  restarts : ∀ app ∈ rt.apps, app.restartCount ≤ maximumRestarts

/-- Every run of commands, supervisor passes and turns of tasks leaves the registry sound. -/
theorem registry_sound (tickRateHz : Nat) (events : List AppEvent) :
    Sound tickRateHz events (afterSteps tickRateHz events) := by
  obtain ⟨hsteady, hsettled, hlisted⟩ := invariant_run tickRateHz events
  have howned := hsteady.owned
  refine ⟨?_, ?_, fun name hname => ?_, fun app happ hkind => ?_, fun task htask => ?_,
    fun i handle => (howned.held_iff i handle).mp, fun task htask other hother heq => ?_,
    fun app happ => ?_, hsteady.restarts⟩
  · have hle := hlisted.length_le
    rw [directory, List.length_map] at hle
    exact hle
  · have hnodup := hlisted.nodup
    rw [directory, List.map_map] at hnodup
    exact hnodup
  · have hmem : (name, true) ∈ directory (afterSteps tickRateHz events) := by
      apply hlisted.builtins.subset
      simpa using hname
    obtain ⟨app, happ, heq⟩ := List.mem_map.mp hmem
    exact ⟨app, happ, (Prod.mk.inj heq).1, (Prod.mk.inj heq).2⟩
  · apply hlisted.created
    rw [← hkind]
    exact List.mem_map_of_mem happ
  · obtain ⟨handle, i⟩ := task
    exact ⟨(howned.held_iff i handle).mpr htask, howned.existsUnique htask⟩
  · obtain ⟨handle, i⟩ := task
    obtain ⟨handle', j⟩ := other
    obtain rfl : i = j := heq
    have hheld := (howned.held_iff i handle).mpr htask
    rw [(howned.held_iff i handle').mpr hother] at hheld
    cases hheld
    rfl
  · obtain ⟨i, hi⟩ := List.mem_iff_getElem?.mp happ
    exact hsettled i app hi

end Esp32Shell.Idf.AppRegistry
