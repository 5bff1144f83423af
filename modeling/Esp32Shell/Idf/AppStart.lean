import Esp32Shell.Idf.AppRegistry

/-!
# Starting a task beside the task

`start` as the steps that it takes, with the steps of the tasks' bodies in
between. The new task runs from its creation on, so it may have come to its end
before `start` writes that it is running.
-/
namespace Esp32Shell.Idf.AppStart

open Esp32Shell.Library.CText Esp32Shell.Library.Run
open AppRuntime AppRegistry

/-- What `start` has yet to assign, of the state, the failure and the heartbeat. -/
inductive StartStage where
  | created | running | cleared
  deriving DecidableEq

/-- The statement of `taskThunk` that comes next. -/
inductive TaskStage where
  | heartbeat | watermark | check | failed | release | delete
  deriving DecidableEq

structure System where
  rt : Runtime
  /-- The call of `start` that is midway, and the record that it starts. -/
  starting : Option (Nat × StartStage)
  stage : Handle → TaskStage

def initialSystem : System := ⟨initial, none, fun _ => .heartbeat⟩

/-- The next assignment of `start`. -/
def StartStage.assign (stage : StartStage) (ticks : UInt32) (app : AppRecord) : AppRecord :=
  match stage with
  | .created => { app with state := .running }
  | .running => { app with failure := [] }
  | .cleared => { app with heartbeat := ticks }

def StartStage.next : StartStage → Option StartStage
  | .created => some .running
  | .running => some .cleared
  | .cleared => none

/-- `run` up to the creation of the task; it is not called while a `start` is midway. -/
def beginRun (name : Text) (board : Board) (s : System) : System :=
  match s.starting with
  | some _ => s
  | none =>
    match appToRun name board s.rt with
    | .error _ => s
    | .ok (app, rt) =>
      match createTask app board.platform rt with
      | (.error _, rt) => { s with rt := rt }
      | (.ok (i, _, handle), rt) =>
        ⟨rt, some (i, .created), Function.update s.stage handle .heartbeat⟩

/-- The call of `start` that is midway goes one statement further. -/
def continueStart (ticks : UInt32) (s : System) : System :=
  match s.starting with
  | none => s
  | some (i, stage) =>
    { s with rt := s.rt.update i (stage.assign ticks), starting := stage.next.map fun stage => (i, stage) }

def stopApp (name : Text) (s : System) : System :=
  match s.starting with
  | some _ => s
  | none => { s with rt := (stop name s.rt).device }

/-- The statement of `taskThunk` on its record; the end of the loop is part of the test. -/
def TaskStage.assign (stage : TaskStage) (ticks : UInt32) (watermark : Nat) (app : AppRecord) :
    AppRecord :=
  match stage with
  | .heartbeat => { app with heartbeat := ticks }
  | .watermark => { app with stackWatermark := watermark }
  | .check =>
    if app.stackWatermark < minimumStackWords then { app with failure := lit "stack resource limit" }
    else app
  | .failed => { app with state := .failed }
  | .release => { app with task := none }
  | .delete => app

def TaskStage.next (stage : TaskStage) (app : AppRecord) : TaskStage :=
  match stage with
  | .heartbeat => .watermark
  | .watermark => .check
  | .check => if app.stackWatermark < minimumStackWords then .failed else .heartbeat
  | .failed => .release
  | .release => .delete
  | .delete => .delete

/-- The body of a live task goes one statement further. -/
def continueTask (handle : Handle) (ticks : UInt32) (watermark : Nat) (s : System) : System :=
  match (s.rt.tasks.lookup handle).bind fun i => (s.rt.apps[i]?).map fun app => (i, app) with
  | none => s
  | some (i, app) =>
    if s.stage handle = .delete then { s with rt := s.rt.deleteTask handle }
    else
      { s with
        rt := s.rt.update i ((s.stage handle).assign ticks watermark)
        stage := Function.update s.stage handle ((s.stage handle).next app) }

inductive StartEvent where
  | run (name : Text) (board : Board)
  | start (ticks : UInt32)
  | stop (name : Text)
  | task (handle : Handle) (ticks : UInt32) (watermark : Nat)

def step (s : System) : StartEvent → System
  | .run name board => beginRun name board s
  | .start ticks => continueStart ticks s
  | .stop name => stopApp name s
  | .task handle ticks watermark => continueTask handle ticks watermark s

abbrev afterSteps (events : List StartEvent) : System := after step initialSystem events

/-! ### The invariant -/

/-- No task says that it failed before its `start` has said that it is running. -/
def Orderly (s : System) : StartEvent → Prop
  | .task handle _ _ => ∀ i, s.rt.tasks.lookup handle = some i → s.stage handle = .failed →
      s.starting ≠ some (i, .created)
  | _ => True

/-- A task owns its record until it is about to delete itself. -/
structure Sound (rt : Runtime) (starting : Option (Nat × StartStage)) (stage : Handle → TaskStage) :
    Prop where
  nodup : (rt.tasks.map Prod.fst).Nodup
  owner : ∀ handle i, (handle, i) ∈ rt.tasks → stage handle ≠ .delete →
    held rt i = some handle
  /-- A task that is about to give up its record has left it failed. -/
  failed : ∀ handle i (app : AppRecord), (handle, i) ∈ rt.tasks → stage handle = .release →
    rt.apps[i]? = some app → app.state ≠ .running
  /-- A new task has not failed before its `start` goes on. -/
  started : ∀ i, starting = some (i, .created) → ∃ handle, held rt i = some handle ∧
    (handle, i) ∈ rt.tasks ∧ stage handle ≠ .release ∧ stage handle ≠ .delete
  running : ∀ (i : Nat) (app : AppRecord), rt.apps[i]? = some app → app.state = .running → app.task ≠ none

variable {rt : Runtime} {starting : Option (Nat × StartStage)} {stage : Handle → TaskStage}

theorem Sound.index_unique (h : Sound rt starting stage) {handle : Handle} {i j : Nat}
    (hi : (handle, i) ∈ rt.tasks) (hj : (handle, j) ∈ rt.tasks) : i = j :=
  (Prod.mk.inj (List.inj_on_of_nodup_map h.nodup hi hj rfl)).2

/-- A change that makes no record running leaves those failed whose tasks are about to give them up. -/
theorem Sound.failed_update (h : Sound rt starting stage) {change : AppRecord → AppRecord} {i : Nat}
    (hchange : ∀ app, (change app).state = .running → app.state = .running) {handle : Handle} {j : Nat}
    {app : AppRecord} (hmem : (handle, j) ∈ rt.tasks) (hrelease : stage handle = .release)
    (happ : (rt.update i change).apps[j]? = some app) : app.state ≠ .running := by
  obtain ⟨-, hj⟩ | ⟨rfl, record, hrecord, rfl⟩ := getElem?_update_eq_some happ
  · exact h.failed handle j app hmem hrelease hj
  · intro hrunning
    exact h.failed handle i record hmem hrelease hrecord (hchange record hrunning)

/-- A changed record that is running has its task. -/
theorem Sound.running_update (h : Sound rt starting stage) {change : AppRecord → AppRecord} {i : Nat}
    (hchange : ∀ app, rt.apps[i]? = some app → (change app).state = .running → (change app).task ≠ none)
    {j : Nat} {app : AppRecord} (happ : (rt.update i change).apps[j]? = some app)
    (hrunning : app.state = .running) : app.task ≠ none := by
  obtain ⟨-, hj⟩ | ⟨rfl, record, hrecord, rfl⟩ := getElem?_update_eq_some happ
  · exact h.running j app hj hrunning
  · exact hchange record hrecord hrunning

/-- A step that changes neither the task nor the state of a record. -/
theorem Sound.quiet (h : Sound rt starting stage) (i : Nat) (change : AppRecord → AppRecord)
    (hkeeps : ∀ app, (change app).task = app.task ∧ (change app).state = app.state)
    {starting' : Option (Nat × StartStage)} {stage' : Handle → TaskStage}
    (hstarting : ∀ j, starting' = some (j, .created) → starting = some (j, .created))
    (hstage : ∀ handle, stage' handle = stage handle ∨
      stage handle ≠ .delete ∧ stage' handle ≠ .release ∧ stage' handle ≠ .delete) :
    Sound (rt.update i change) starting' stage' := by
  have hheld : held (rt.update i change) = held rt := held_update_of_kept fun app => (hkeeps app).1
  refine ⟨h.nodup, fun handle j hmem hne => ?_, fun handle j app hmem hrelease happ => ?_,
    fun j hj => ?_, fun j app happ hrunning => ?_⟩
  · rw [hheld]
    apply h.owner handle j hmem
    rcases hstage handle with hsame | hnew
    · rw [← hsame]
      exact hne
    · exact hnew.1
  · have hold : stage handle = .release := by
      rcases hstage handle with hsame | hnew
      · rw [← hsame]
        exact hrelease
      · exact absurd hrelease hnew.2.1
    refine h.failed_update (fun record => ?_) hmem hold happ
    rw [(hkeeps record).2]
    exact id
  · obtain ⟨handle, hown, hmem, hstages⟩ := h.started j (hstarting j hj)
    refine ⟨handle, by rw [hheld]; exact hown, hmem, ?_⟩
    rcases hstage handle with hsame | hnew
    · rw [hsame]
      exact hstages
    · exact hnew.2
  · refine h.running_update (fun record hrecord => ?_) happ hrunning
    rw [(hkeeps record).1, (hkeeps record).2]
    exact h.running i record hrecord

/-- `start` says that the app is running. -/
theorem Sound.assign_running (h : Sound rt starting stage) {i : Nat}
    (hstarting : starting = some (i, .created)) :
    Sound (rt.update i fun app => { app with state := .running }) (some (i, .running)) stage := by
  obtain ⟨handle, hown, hmem, hrelease, hdelete⟩ := h.started i hstarting
  have hheld : held (rt.update i fun app => { app with state := .running }) = held rt :=
    held_update_of_kept fun _ => rfl
  refine ⟨h.nodup, fun handle' j hmem' hne => ?_, fun handle' j app hmem' hstage happ => ?_,
    fun j hj => ?_, fun j app happ hrunning => ?_⟩
  · rw [hheld]
    exact h.owner handle' j hmem' hne
  · obtain ⟨-, hj⟩ | ⟨rfl, record, hrecord, rfl⟩ := getElem?_update_eq_some happ
    · exact h.failed handle' j app hmem' hstage hj
    -- the only task that may change the record is the new one
    · have hown' := h.owner handle' i hmem' (by rw [hstage]; decide)
      obtain rfl := Option.some_inj.mp (hown.symm.trans hown')
      exact absurd hstage hrelease
  · cases hj
  · refine h.running_update (fun record hrecord _ hnone => ?_) happ hrunning
    rw [held, hrecord] at hown
    exact absurd (hown.symm.trans hnone) (by simp)

/-- A task says that it failed, behind its `start`. -/
theorem Sound.assign_failed (h : Sound rt starting stage) {handle : Handle} {i : Nat}
    (hmem : (handle, i) ∈ rt.tasks) (hstage : stage handle = .failed)
    (horder : starting ≠ some (i, .created)) :
    Sound (rt.update i fun app => { app with state := .failed }) starting
      (Function.update stage handle .release) := by
  have hheld : held (rt.update i fun app => { app with state := .failed }) = held rt :=
    held_update_of_kept fun _ => rfl
  refine ⟨h.nodup, fun handle' j hmem' hne => ?_, fun handle' j app hmem' hrelease happ => ?_,
    fun j hj => ?_, fun j app happ hrunning => ?_⟩
  · rw [hheld]
    apply h.owner handle' j hmem'
    by_cases hsame : handle' = handle
    · rw [hsame, hstage]
      decide
    · rw [Function.update_of_ne hsame] at hne
      exact hne
  · obtain ⟨hij, hj⟩ | ⟨rfl, record, hrecord, rfl⟩ := getElem?_update_eq_some happ
    · by_cases hsame : handle' = handle
      · exact absurd (h.index_unique hmem (hsame ▸ hmem')) hij
      · rw [Function.update_of_ne hsame] at hrelease
        exact h.failed handle' j app hmem' hrelease hj
    · intro hrunning
      cases hrunning
  · obtain ⟨handle', hown, hmem', hstages⟩ := h.started j hj
    have hne : handle' ≠ handle := by
      rintro rfl
      exact horder (h.index_unique hmem hmem' ▸ hj)
    refine ⟨handle', by rw [hheld]; exact hown, hmem', ?_⟩
    rw [Function.update_of_ne hne]
    exact hstages
  · refine h.running_update (fun record _ hfailed => ?_) happ hrunning
    cases hfailed

/-- A task gives up its record. -/
theorem Sound.assign_release (h : Sound rt starting stage) {handle : Handle} {i : Nat} {app : AppRecord}
    (hmem : (handle, i) ∈ rt.tasks) (hstage : stage handle = .release)
    (happ : rt.apps[i]? = some app) :
    Sound (rt.update i fun app => { app with task := none }) starting
      (Function.update stage handle .delete) := by
  have hown := h.owner handle i hmem (by rw [hstage]; decide)
  have hstopped := h.failed handle i app hmem hstage happ
  have hheld : held (rt.update i fun app => { app with task := none }) =
      Function.update (held rt) i none := held_update rt happ rfl
  have hothers : ∀ handle' j, handle' ≠ handle → held rt j = some handle' → j ≠ i := by
    rintro handle' j hne hheld' rfl
    exact hne (Option.some_inj.mp (hheld'.symm.trans hown))
  refine ⟨h.nodup, fun handle' j hmem' hne => ?_, fun handle' j app' hmem' hrelease happ' => ?_,
    fun j hj => ?_, fun j app' happ' hrunning => ?_⟩
  · have hsame : handle' ≠ handle := by
      rintro rfl
      exact hne (Function.update_self _ _ _)
    rw [Function.update_of_ne hsame] at hne
    have hown' := h.owner handle' j hmem' hne
    rw [hheld, Function.update_of_ne (hothers handle' j hsame hown')]
    exact hown'
  · have hsame : handle' ≠ handle := by
      rintro rfl
      rw [Function.update_self] at hrelease
      cases hrelease
    rw [Function.update_of_ne hsame] at hrelease
    refine h.failed_update (fun record hrunning => ?_) hmem' hrelease happ'
    exact hrunning
  · obtain ⟨handle', hown', hmem', hstages⟩ := h.started j hj
    have hsame : handle' ≠ handle := by
      rintro rfl
      exact hstages.1 hstage
    refine ⟨handle', ?_, hmem', ?_⟩
    · rw [hheld, Function.update_of_ne (hothers handle' j hsame hown')]
      exact hown'
    · rw [Function.update_of_ne hsame]
      exact hstages
  · refine h.running_update (fun record hrecord hold => ?_) happ' hrunning
    obtain rfl := Option.some_inj.mp (hrecord.symm.trans happ)
    exact absurd hold hstopped

/-- A task that has given up its record deletes itself. -/
theorem Sound.delete (h : Sound rt starting stage) {handle : Handle} (hstage : stage handle = .delete) :
    Sound (rt.deleteTask handle) starting stage := by
  have hsub : ∀ task ∈ (rt.deleteTask handle).tasks, task ∈ rt.tasks :=
    fun task htask => (List.mem_filter.mp htask).1
  refine ⟨h.nodup.sublist (List.filter_sublist.map _), fun handle' i hmem => ?_,
    fun handle' i app hmem => ?_, fun i hi => ?_, h.running⟩
  · exact h.owner handle' i (hsub _ hmem)
  · exact h.failed handle' i app (hsub _ hmem)
  · obtain ⟨handle', hown, hmem, hstages⟩ := h.started i hi
    refine ⟨handle', hown, ?_, hstages⟩
    refine List.mem_filter.mpr ⟨hmem, decide_eq_true ?_⟩
    rintro rfl
    exact hstages.2 hstage

/-- The task of a record is deleted by another one, between the calls of `start`. -/
theorem Sound.kill (h : Sound rt none stage) {handle : Handle} {i : Nat} {app : AppRecord}
    (happ : rt.apps[i]? = some app) (htask : app.task = some handle) :
    Sound ((rt.deleteTask handle).update i fun app => { app with task := none, state := .stopped })
      none stage := by
  have hown : held rt i = some handle := by
    rw [held, happ]
    exact htask
  have hheld : held ((rt.deleteTask handle).update i fun app =>
      { app with task := none, state := .stopped }) = Function.update (held rt) i none :=
    held_update (rt.deleteTask handle) happ rfl
  have hother : ∀ task ∈ (rt.deleteTask handle).tasks, task ∈ rt.tasks ∧ task.1 ≠ handle := by
    intro task htask
    obtain ⟨hmem, hne⟩ := List.mem_filter.mp htask
    exact ⟨hmem, of_decide_eq_true hne⟩
  refine ⟨h.nodup.sublist (List.filter_sublist.map _), fun handle' j hmem hne => ?_,
    fun handle' j app' hmem hrelease happ' => ?_, fun j hj => ?_, fun j app' happ' hrunning => ?_⟩
  · obtain ⟨hmem', hdiff⟩ := hother _ hmem
    have hown' := h.owner handle' j hmem' hne
    have hij : j ≠ i := by
      rintro rfl
      exact hdiff (Option.some_inj.mp (hown'.symm.trans hown))
    rw [hheld, Function.update_of_ne hij]
    exact hown'
  · refine h.failed_update (fun record hstopped => ?_) (hother _ hmem).1 hrelease happ'
    cases hstopped
  · cases hj
  · refine h.running_update (fun record _ hstopped => ?_) happ' hrunning
    cases hstopped

/-- A record without a task is said to have failed. -/
theorem Sound.refuse (h : Sound rt none stage) (i : Nat) (failure : Text) :
    Sound (rt.update i fun app => { app with failure := failure, state := .failed }) none stage := by
  have hheld : held (rt.update i fun app => { app with failure := failure, state := .failed }) =
      held rt := held_update_of_kept fun _ => rfl
  refine ⟨h.nodup, fun handle j hmem hne => ?_, fun handle j app hmem hrelease happ => ?_,
    fun j hj => ?_, fun j app happ hrunning => ?_⟩
  · rw [hheld]
    exact h.owner handle j hmem hne
  · refine h.failed_update (fun record hfailed => ?_) hmem hrelease happ
    cases hfailed
  · cases hj
  · refine h.running_update (fun record _ hfailed => ?_) happ hrunning
    cases hfailed

/-- A record is added. -/
theorem Sound.append (h : Sound rt none stage) (name : Text) :
    Sound { rt with apps := rt.apps ++ [signedRecord name] } none stage := by
  have hheld := held_append rt name
  refine ⟨h.nodup, fun handle j hmem hne => ?_, fun handle j app hmem hrelease happ => ?_,
    fun j hj => ?_, fun j app happ hrunning => ?_⟩
  · rw [hheld]
    exact h.owner handle j hmem hne
  · obtain hold | rfl := getElem?_append_eq_some happ
    · exact h.failed handle j app hmem hrelease hold
    · simp [signedRecord]
  · cases hj
  · obtain hold | rfl := getElem?_append_eq_some happ
    · exact h.running j app hold hrunning
    · cases hrunning

/-- A task is created for a record without one. -/
theorem Sound.create (h : Sound rt none stage) {handle : Handle} {i : Nat} {app : AppRecord}
    (happ : rt.apps[i]? = some app) (hfree : app.task = none) (hfresh : handle ∉ rt.tasks.map Prod.fst) :
    Sound (({ rt with tasks := (handle, i) :: rt.tasks } : Runtime).update i
        fun app => { app with task := some handle })
      (some (i, .created)) (Function.update stage handle .heartbeat) := by
  have hnone : held rt i = none := by
    rw [held, happ]
    exact hfree
  have hheld : held (({ rt with tasks := (handle, i) :: rt.tasks } : Runtime).update i
      fun app => { app with task := some handle }) = Function.update (held rt) i (some handle) :=
    held_update { rt with tasks := (handle, i) :: rt.tasks } happ rfl
  have hold : ∀ handle' j, (handle', j) ∈ rt.tasks → handle' ≠ handle := by
    rintro handle' j hmem rfl
    exact hfresh (List.mem_map_of_mem hmem)
  refine ⟨List.nodup_cons.mpr ⟨hfresh, h.nodup⟩, fun handle' j hmem hne => ?_,
    fun handle' j app' hmem hrelease happ' => ?_, fun j hj => ?_, fun j app' happ' hrunning => ?_⟩
  · rw [hheld]
    apply (List.mem_cons.mp hmem).elim
    · intro heq
      cases heq
      exact Function.update_self _ _ _
    · intro hmem'
      rw [Function.update_of_ne (hold handle' j hmem')] at hne
      have hown := h.owner handle' j hmem' hne
      have hij : j ≠ i := by
        rintro rfl
        exact absurd (hnone.symm.trans hown) (by simp)
      rw [Function.update_of_ne hij]
      exact hown
  · apply (List.mem_cons.mp hmem).elim
    · intro heq
      cases heq
      rw [Function.update_self] at hrelease
      cases hrelease
    · intro hmem'
      rw [Function.update_of_ne (hold handle' j hmem')] at hrelease
      refine h.failed_update (fun record hrunning => ?_) hmem' hrelease happ'
      exact hrunning
  · cases hj
    refine ⟨handle, ?_, List.mem_cons_self, ?_⟩
    · rw [hheld]
      exact Function.update_self _ _ _
    · rw [Function.update_self]
      decide
  · exact h.running_update (fun _ _ _ hnone => by cases hnone) happ' hrunning

/-! ### Steps -/

theorem sound_beginRun {s : System} (h : Sound s.rt s.starting s.stage) (name : Text) (board : Board) :
    Sound (beginRun name board s).rt (beginRun name board s).starting (beginRun name board s).stage := by
  obtain ⟨rt, starting, stage⟩ := s
  cases starting with
  | some midway => exact h
  | none =>
    cases happ : appToRun name board rt with
    | error line =>
      simp only [beginRun, happ]
      exact h
    | ok found =>
      obtain ⟨app, rt'⟩ := found
      have hrt' : Sound rt' none stage := by
        obtain rfl | ⟨-, -, -, -, rfl⟩ := appToRun_cases happ
        · exact h
        · exact h.append name
      obtain ⟨line, hcreate, -⟩ | ⟨i, record, -, hrecord, hfree, hdone⟩ :=
        createTask_cases app board.platform rt'
      · simp only [beginRun, happ, hcreate]
        exact hrt'
      · obtain ⟨failure, line, hcreate⟩ | ⟨handle, hfresh, hcreate⟩ := hdone
        · simp only [beginRun, happ, hcreate]
          exact hrt'.refuse i failure
        · simp only [beginRun, happ, hcreate]
          exact hrt'.create hrecord hfree hfresh

theorem sound_continueStart {s : System} (h : Sound s.rt s.starting s.stage) (ticks : UInt32) :
    Sound (continueStart ticks s).rt (continueStart ticks s).starting (continueStart ticks s).stage := by
  obtain ⟨rt, starting, stage⟩ := s
  cases starting with
  | none => exact h
  | some midway =>
    obtain ⟨i, step⟩ := midway
    cases step with
    | created => exact h.assign_running rfl
    | running =>
      refine h.quiet i (StartStage.running.assign ticks) (fun _ => ⟨rfl, rfl⟩)
        (fun j hj => ?_) fun _ => Or.inl rfl
      cases hj
    | cleared =>
      refine h.quiet i (StartStage.cleared.assign ticks) (fun _ => ⟨rfl, rfl⟩)
        (fun j hj => ?_) fun _ => Or.inl rfl
      cases hj

theorem sound_stopApp {s : System} (h : Sound s.rt s.starting s.stage) (name : Text) :
    Sound (stopApp name s).rt (stopApp name s).starting (stopApp name s).stage := by
  obtain ⟨rt, starting, stage⟩ := s
  cases starting with
  | some midway => exact h
  | none =>
    obtain ⟨line, hstop⟩ | ⟨i, app, task, line, hrecord, hheld, hstop⟩ := stop_cases name rt
    · simp only [stopApp, hstop]
      exact h
    · simp only [stopApp, hstop]
      exact h.kill hrecord hheld

theorem sound_continueTask {s : System} (h : Sound s.rt s.starting s.stage) {handle : Handle}
    {ticks : UInt32} {watermark : Nat} (ho : Orderly s (.task handle ticks watermark)) :
    Sound (continueTask handle ticks watermark s).rt (continueTask handle ticks watermark s).starting
      (continueTask handle ticks watermark s).stage := by
  obtain ⟨rt, starting, stage⟩ := s
  simp only [continueTask]
  split
  · exact h
  next i app hfound =>
    obtain ⟨j, hlookup, hrecord⟩ := Option.bind_eq_some_iff.mp hfound
    obtain ⟨record, happ, heq⟩ := Option.map_eq_some_iff.mp hrecord
    cases heq
    have hmem := mem_of_lookup hlookup
    have hquiet : ∀ next, stage handle ≠ .delete → next ≠ .release → next ≠ .delete →
        ∀ handle', Function.update stage handle next handle' = stage handle' ∨
          stage handle' ≠ .delete ∧ Function.update stage handle next handle' ≠ .release ∧
            Function.update stage handle next handle' ≠ .delete := by
      intro next hold hrelease hdelete handle'
      by_cases hsame : handle' = handle
      · rw [hsame, Function.update_self]
        exact Or.inr ⟨hold, hrelease, hdelete⟩
      · exact Or.inl (Function.update_of_ne hsame _ _)
    cases hstage : stage handle with
    | heartbeat =>
      exact h.quiet i (TaskStage.heartbeat.assign ticks watermark) (fun _ => ⟨rfl, rfl⟩)
        (fun _ => id) (hquiet .watermark (by rw [hstage]; decide) (by decide) (by decide))
    | watermark =>
      exact h.quiet i (TaskStage.watermark.assign ticks watermark) (fun _ => ⟨rfl, rfl⟩)
        (fun _ => id) (hquiet .check (by rw [hstage]; decide) (by decide) (by decide))
    | check =>
      refine h.quiet i (TaskStage.check.assign ticks watermark) (fun app => ?_) (fun _ => id)
        (hquiet _ (by rw [hstage]; decide) ?_ ?_)
      · rw [TaskStage.assign]
        split <;> exact ⟨rfl, rfl⟩
      · rw [TaskStage.next]
        split <;> decide
      · rw [TaskStage.next]
        split <;> decide
    | failed => exact h.assign_failed hmem hstage (ho i hlookup hstage)
    | release => exact h.assign_release hmem hstage happ
    | delete => exact h.delete hstage

theorem sound_step {s : System} (h : Sound s.rt s.starting s.stage) {event : StartEvent}
    (ho : Orderly s event) : Sound (step s event).rt (step s event).starting (step s event).stage := by
  cases event with
  | run name board => exact sound_beginRun h name board
  | start ticks => exact sound_continueStart h ticks
  | stop name => exact sound_stopApp h name
  | task handle ticks watermark => exact sound_continueTask h ho

theorem sound_initial : Sound initial none fun _ => .heartbeat := by
  have hstopped : ∀ app ∈ initial.apps, app.state ≠ .running := by decide
  refine ⟨List.nodup_nil, fun handle i hmem => ?_, fun handle i app hmem => ?_, fun i hi => ?_,
    fun i app happ hrunning => ?_⟩
  · cases hmem
  · cases hmem
  · cases hi
  · exact absurd hrunning (hstopped app (List.mem_of_getElem? happ))

theorem sound_run (events : List StartEvent)
    (h : ∀ past event, Taken events past event → Orderly (afterSteps past) event) :
    Sound (afterSteps events).rt (afterSteps events).starting (afterSteps events).stage :=
  after_induction (P := fun _ (s : System) => Sound s.rt s.starting s.stage)
    (C := fun past event => Orderly (afterSteps past) event) sound_initial
    (fun _ _ hsound ho => sound_step hsound ho) h

/-- When a task has said that it failed before its `start` goes on, both can go on to their ends. -/
theorem disorder_ends {s : System} (h : Sound s.rt s.starting s.stage) {handle : Handle}
    {ticks : UInt32} {watermark : Nat} (hno : ¬ Orderly s (.task handle ticks watermark)) :
    let s' := after step s [.task handle ticks watermark, .task handle ticks watermark, .start ticks,
      .start ticks, .start ticks]
    s'.starting = none ∧ ∃ app ∈ s'.rt.apps, app.state = .running ∧ app.task = none := by
  intro s'
  obtain ⟨rt, starting, stage⟩ := s
  simp only [Orderly, not_forall, not_not] at hno
  obtain ⟨i, hlookup, hstage, rfl⟩ := hno
  obtain ⟨own, hown, -⟩ := h.started i rfl
  obtain ⟨app, happ, -⟩ := Option.bind_eq_some_iff.mp hown
  have hfailed : continueTask handle ticks watermark ⟨rt, some (i, .created), stage⟩ =
      ⟨rt.update i fun app => { app with state := .failed }, some (i, .created),
        Function.update stage handle .release⟩ := by
    simp only [continueTask, hlookup, happ, Option.bind_some, Option.map_some, hstage]
    rfl
  have hreleased : continueTask handle ticks watermark ⟨rt.update i fun app =>
      { app with state := .failed }, some (i, .created), Function.update stage handle .release⟩ =
      ⟨(rt.update i fun app => { app with state := .failed }).update i fun app =>
        { app with task := none }, some (i, .created),
        Function.update (Function.update stage handle .release) handle .delete⟩ := by
    have hlookup' : (rt.update i fun app => { app with state := .failed }).tasks.lookup handle =
        some i := hlookup
    simp only [continueTask, hlookup', getElem?_update_self, happ, Option.bind_some, Option.map_some,
      Function.update_self]
    rfl
  have hs' : s' = after step ⟨(rt.update i fun app => { app with state := .failed }).update i fun app =>
      { app with task := none }, some (i, .created),
      Function.update (Function.update stage handle .release) handle .delete⟩
      [.start ticks, .start ticks, .start ticks] := by
    show after step (continueTask handle ticks watermark (continueTask handle ticks watermark _)) _ = _
    rw [hfailed, hreleased]
  rw [hs']
  refine ⟨rfl, ?_⟩
  refine ⟨{ app with state := .running, task := none, failure := [], heartbeat := ticks }, ?_, rfl, rfl⟩
  apply List.mem_of_getElem? (i := i)
  show ((((rt.update i _).update i _).update i _).update i _).update i _ |>.apps[i]? = _
  simp only [getElem?_update_self, happ, Option.map_some]
  rfl

/-- Where no task says that it failed before its `start` has said that it is running, a record that is
running has its task, in the middle of a `start` as well. Where one does, its end leaves a record that
is running without a task. -/
theorem running_has_task (events : List StartEvent)
    (h : ∀ past event, Taken events past event → Orderly (afterSteps past) event) :
    (∀ app ∈ (afterSteps events).rt.apps, app.state = .running → app.task ≠ none) ∧
    ∀ handle ticks watermark, ¬ Orderly (afterSteps events) (.task handle ticks watermark) →
      ∃ more, (afterSteps (events ++ .task handle ticks watermark :: more)).starting = none ∧
        ∃ app ∈ (afterSteps (events ++ .task handle ticks watermark :: more)).rt.apps,
          app.state = .running ∧ app.task = none := by
  have hsound := sound_run events h
  refine ⟨fun app happ => ?_, fun handle ticks watermark hno => ?_⟩
  · obtain ⟨i, hi⟩ := List.mem_iff_getElem?.mp happ
    exact hsound.running i app hi
  · refine ⟨[.task handle ticks watermark, .start ticks, .start ticks, .start ticks], ?_⟩
    rw [afterSteps, after_append]
    exact disorder_ends hsound hno

/-- `led-blink` runs out of stack behind its start and stops itself; `diagnostics` is started next. -/
def ledThenDiagnostics : List StartEvent :=
  [.run (lit "led-blink") (emptyBoard 7), .start 0, .task 7 1 0, .start 1] ++
    List.replicate 5 (.task 7 2 0) ++
    [.start 3, .run (lit "diagnostics") (emptyBoard 8), .start 4, .task 8 5 900]

theorem running_has_task_led :
    let s := afterSteps ledThenDiagnostics
    (∃ app ∈ s.rt.apps, app.name = lit "led-blink" ∧ app.state = .failed ∧ app.task = none) ∧
      ∃ app ∈ s.rt.apps, app.name = lit "diagnostics" ∧ app.state = .running ∧ app.task ≠ none := by
  intro s
  have hstopped : ∃ app ∈ s.rt.apps, app.name = lit "led-blink" ∧ app.state = .failed ∧ app.task = none := by
    decide +kernel
  have hrunning : ∃ app ∈ s.rt.apps, app.name = lit "diagnostics" ∧ app.state = .running := by
    decide +kernel
  have horderly : ∀ n ≤ ledThenDiagnostics.length, ∀ handle ∈ [7, 8],
      (afterSteps (ledThenDiagnostics.take n)).stage handle = .failed →
        (afterSteps (ledThenDiagnostics.take n)).starting.map Prod.snd ≠ some .created := by
    decide +kernel
  obtain ⟨app, happ, hname, hstate⟩ := hrunning
  refine ⟨hstopped, app, happ, hname, hstate, ?_⟩
  refine (running_has_task ledThenDiagnostics fun past event htaken => ?_).1 app happ hstate
  have hbegins : past <+: ledThenDiagnostics := (List.prefix_append past [event]).trans htaken
  cases event with
  | task handle ticks watermark =>
    have hhandle : handle ∈ [7, 8] := by
      have hmem := htaken.mem.1
      simp only [ledThenDiagnostics, List.replicate, List.mem_append, List.mem_cons] at hmem
      grind
    intro i _ hfailed hcreated
    rw [List.prefix_iff_eq_take.mp hbegins] at hfailed hcreated
    exact horderly _ hbegins.length_le handle hhandle hfailed (by rw [hcreated]; rfl)
  | run name board => trivial
  | start ticks => trivial
  | stop name => trivial

/-- The new task comes to its end before `start` goes on, and the app that stopped itself is reported
as running. -/
theorem stopped_app_running :
    let events := .run (lit "led-blink") (emptyBoard 7) :: (List.replicate 6 (.task 7 0 0) ++
      List.replicate 3 (.start 0))
    (afterSteps events).starting = none ∧
    (∃ app ∈ (afterSteps events).rt.apps,
      app.name = lit "led-blink" ∧ app.state = .running ∧ app.task = none) ∧
    (stop (lit "led-blink") (afterSteps events).rt).lines = [lit "error: app is not running"] ∧
    ¬ ∀ events : List StartEvent, (afterSteps events).starting = none →
      ∀ app ∈ (afterSteps events).rt.apps, app.state = .running → app.task ≠ none := by
  intro events
  have hstarting : (afterSteps events).starting = none := by decide +kernel
  have hrunning : ∃ app ∈ (afterSteps events).rt.apps,
      app.name = lit "led-blink" ∧ app.state = .running ∧ app.task = none := by decide +kernel
  refine ⟨hstarting, hrunning, by decide +kernel, fun h => ?_⟩
  obtain ⟨app, happ, -, hstate, htask⟩ := hrunning
  exact h events hstarting app happ hstate htask

/-! ### Without steps in between -/

/-- Nothing in between, the steps of a `run` are the `run`. -/
theorem run_uninterrupted (name : Text) (board : Board) {s : System} (h : s.starting = none) :
    let ticks := board.platform.ticks
    (after step s [.run name board, .start ticks, .start ticks, .start ticks]).rt =
      (run name board s.rt).device := by
  intro ticks
  obtain ⟨rt, starting, stage⟩ := s
  obtain rfl : starting = none := h
  show (continueStart ticks (continueStart ticks (continueStart ticks (beginRun name board _)))).rt = _
  cases happ : appToRun name board rt with
  | error line =>
    simp only [beginRun, happ, run, continueStart]
  | ok found =>
    obtain ⟨app, rt'⟩ := found
    simp only [beginRun, happ, run, start]
    obtain ⟨result, rt''⟩ := createTask app board.platform rt'
    cases result with
    | error line => rfl
    | ok created =>
      simp only [continueStart, StartStage.next, Option.map_some, Option.map_none, update_update]
      rfl

/-- A live task and its record. -/
structure Live (rt : Runtime) (handle : Handle) (i : Nat) (app : AppRecord) : Prop where
  lookup : rt.tasks.lookup handle = some i
  record : rt.apps[i]? = some app

theorem Live.update {handle : Handle} {i : Nat} {app : AppRecord} (h : Live rt handle i app)
    (change : AppRecord → AppRecord) : Live (rt.update i change) handle i (change app) := by
  refine ⟨h.lookup, ?_⟩
  rw [getElem?_update_self, h.record]
  rfl

/-- A statement of a live task that is not its last. -/
theorem Live.advance {handle : Handle} {i : Nat} {app : AppRecord} (h : Live rt handle i app)
    {now : TaskStage} (next : TaskStage) (hnow : stage handle = now) (hne : now ≠ .delete)
    (hnext : now.next app = next) (starting : Option (Nat × StartStage)) (ticks : UInt32)
    (watermark : Nat) :
    ∃ stage', continueTask handle ticks watermark ⟨rt, starting, stage⟩ =
      ⟨rt.update i (now.assign ticks watermark), starting, stage'⟩ ∧ stage' handle = next := by
  subst hnow hnext
  refine ⟨_, ?_, Function.update_self handle _ stage⟩
  simp only [continueTask, h.lookup, h.record, Option.bind_some, Option.map_some, if_neg hne]

/-- The last statement of a live task. -/
theorem Live.finish {handle : Handle} {i : Nat} {app : AppRecord} (h : Live rt handle i app)
    (hnow : stage handle = .delete) (starting : Option (Nat × StartStage)) (ticks : UInt32)
    (watermark : Nat) :
    continueTask handle ticks watermark ⟨rt, starting, stage⟩ =
      ⟨rt.deleteTask handle, starting, stage⟩ := by
  simp only [continueTask, h.lookup, h.record, Option.bind_some, Option.map_some, if_pos hnow]

/-- Nothing in between, the statements of a task's body are its turn. -/
theorem turn_uninterrupted {handle : Handle} {i : Nat} {app : AppRecord} (h : Live rt handle i app)
    (hstage : stage handle = .heartbeat) (ticks : UInt32) (watermark : Nat) :
    let turns := if watermark < minimumStackWords then 6 else 3
    (after step ⟨rt, starting, stage⟩ (List.replicate turns (.task handle ticks watermark))).rt =
      taskTurn handle ticks watermark rt := by
  intro turns
  obtain ⟨stage₁, hbeat, hnow⟩ := h.advance .watermark hstage (by decide) rfl starting ticks watermark
  have hbeaten := h.update (TaskStage.heartbeat.assign ticks watermark)
  obtain ⟨stage₂, hmark, hnow⟩ := hbeaten.advance .check hnow (by decide) rfl starting ticks watermark
  have hmarked := hbeaten.update (TaskStage.watermark.assign ticks watermark)
  have hchecked := hmarked.update (TaskStage.check.assign ticks watermark)
  by_cases hlow : watermark < minimumStackWords
  · have hturns : turns = 6 := if_pos hlow
    obtain ⟨stage₃, hcheck, hnow⟩ :=
      hmarked.advance .failed hnow (by decide) (if_pos hlow) starting ticks watermark
    obtain ⟨stage₄, hfail, hnow⟩ :=
      hchecked.advance .release hnow (by decide) rfl starting ticks watermark
    have hfailed := hchecked.update (TaskStage.failed.assign ticks watermark)
    obtain ⟨stage₅, hrelease, hnow⟩ :=
      hfailed.advance .delete hnow (by decide) rfl starting ticks watermark
    have hreleased := hfailed.update (TaskStage.release.assign ticks watermark)
    have hchange : (TaskStage.release.assign ticks watermark ∘ TaskStage.failed.assign ticks watermark ∘
        TaskStage.check.assign ticks watermark ∘ TaskStage.watermark.assign ticks watermark ∘
        TaskStage.heartbeat.assign ticks watermark) = (fun app =>
          { app with failure := lit "stack resource limit", state := .failed, task := none }) ∘
        fun app => { app with heartbeat := ticks, stackWatermark := watermark } := by
      funext app
      simp [TaskStage.assign, hlow]
    rw [hturns]
    simp only [List.replicate, after_cons, after_nil, step]
    rw [hbeat, hmark, hcheck, hfail, hrelease, hreleased.finish hnow]
    simp only [taskTurn, h.lookup, if_pos hlow, update_update]
    rw [← hchange]
  · have hturns : turns = 3 := if_neg hlow
    obtain ⟨stage₃, hcheck, -⟩ :=
      hmarked.advance .heartbeat hnow (by decide) (if_neg hlow) starting ticks watermark
    have hchange : (TaskStage.check.assign ticks watermark ∘ TaskStage.watermark.assign ticks watermark ∘
        TaskStage.heartbeat.assign ticks watermark) =
        fun app => { app with heartbeat := ticks, stackWatermark := watermark } := by
      funext app
      simp [TaskStage.assign, hlow]
    rw [hturns]
    simp only [List.replicate, after_cons, after_nil, step]
    rw [hbeat, hmark, hcheck]
    simp only [taskTurn, h.lookup, if_neg hlow, update_update]
    rw [← hchange]

end Esp32Shell.Idf.AppStart
