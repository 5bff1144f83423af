import Esp32Shell.Arduino.DeviceToolbox
import Esp32Shell.Arduino.Supervisor
import Esp32Shell.Shell.CommandCore

/-!
# The app commands of the Arduino image

`app-run` and `app-stop` of the two built-in apps. Whether an app can start is
asked of the supervisor, whether it can be stopped of its task: after a creation
that fails, neither command leads back to a startable app.
-/
namespace Esp32Shell.Arduino.AppCommands

open Esp32Shell.Library.CText Esp32Shell.Library.Run
open Shell.CommandCore Supervisor DeviceToolbox

inductive App where
  | diagnostics | ledBlink
  deriving DecidableEq, Repr

namespace App

def name : App → Text
  | diagnostics => lit "diagnostics"
  | ledBlink => lit "led-blink"

/-- What the constructor registers. -/
def limits : App → AppResourceLimits
  | diagnostics => ⟨4096, 20000, 0⟩
  | ledBlink => ⟨3072, 20000, 0⟩

end App

abbrev TaskHandle := Nat

structure Apps where
  supervisor_ : AppSupervisor
  diagnosticsTask_ : Option TaskHandle
  ledBlinkTask_ : Option TaskHandle
  logs_ : BoundedLog

/-- The constructor of `Esp32Services`. -/
def constructed : Apps :=
  let diagnostics := (registerApp Supervisor.initial (some App.diagnostics.name) App.diagnostics.limits).1
  ⟨(registerApp diagnostics (some App.ledBlink.name) App.ledBlink.limits).1, none, none, .empty⟩

/-- `appRun`, with the free heap and the task that `xTaskCreatePinnedToCore` creates, if it does. -/
def appRun (arguments : Text) (freeHeap : Nat) (created : Option TaskHandle) (s : Apps) : Reply Apps :=
  if arguments ≠ lit "diagnostics" ∧ arguments ≠ lit "led-blink" then
    ⟨s, [lit "error: unknown app; available apps: diagnostics led-blink"], false⟩
  else if arguments = lit "led-blink" then
    if s.ledBlinkTask_ ≠ none then ⟨s, [lit "led-blink already running"], true⟩
    else if ¬ canStart s.supervisor_ (lit "led-blink") freeHeap then
      ⟨s, [lit "error: led-blink resource limit exceeded"], false⟩
    else
      let supervisor := markStarting s.supervisor_ (lit "led-blink")
      match created with
      | none =>
        ⟨{ s with supervisor_ := markFailed supervisor (lit "led-blink") },
          [lit "error: led-blink task could not start"], false⟩
      | some task =>
        ⟨{ s with supervisor_ := markRunning supervisor (lit "led-blink"), ledBlinkTask_ := some task },
          [lit "led-blink started"], true⟩
  else if s.diagnosticsTask_ ≠ none then ⟨s, [lit "diagnostics already running"], true⟩
  else if ¬ canStart s.supervisor_ (lit "diagnostics") freeHeap then
    ⟨s, [lit "error: diagnostics resource limit exceeded"], false⟩
  else
    let supervisor := markStarting s.supervisor_ (lit "diagnostics")
    match created with
    | none =>
      ⟨{ s with supervisor_ := markFailed supervisor (lit "diagnostics") },
        [lit "error: diagnostics task could not start"], false⟩
    | some task =>
      ⟨{ s with
          supervisor_ := markRunning supervisor (lit "diagnostics")
          diagnosticsTask_ := some task
          logs_ := (append s.logs_ (some (lit "diagnostics app started"))).1 },
        [lit "diagnostics started"], true⟩

def appStop (arguments : Text) (s : Apps) : Reply Apps :=
  if arguments ≠ lit "diagnostics" ∧ arguments ≠ lit "led-blink" then
    ⟨s, [lit "error: usage app-stop <diagnostics|led-blink>"], false⟩
  else if arguments = lit "led-blink" then
    if s.ledBlinkTask_ = none then ⟨s, [lit "led-blink already stopped"], true⟩
    else
      ⟨{ s with
          ledBlinkTask_ := none
          supervisor_ := markStopped s.supervisor_ (lit "led-blink")
          logs_ := (append s.logs_ (some (lit "led-blink app stopped"))).1 },
        [lit "led-blink stopped"], true⟩
  else if s.diagnosticsTask_ = none then ⟨s, [lit "diagnostics already stopped"], true⟩
  else
    ⟨{ s with
        diagnosticsTask_ := none
        supervisor_ := markStopped s.supervisor_ (lit "diagnostics")
        logs_ := (append s.logs_ (some (lit "diagnostics app stopped"))).1 },
      [lit "diagnostics stopped"], true⟩

/-! ### Runs -/

inductive AppCommand where
  | appRun (arguments : Text) (freeHeap : Nat) (created : Option TaskHandle)
  | appStop (arguments : Text)

def next (s : Apps) : AppCommand → Apps
  | .appRun arguments freeHeap created => (appRun arguments freeHeap created s).device
  | .appStop arguments => (appStop arguments s).device

def afterCommands (commands : List AppCommand) : Apps := after next constructed commands

def Apps.task (s : Apps) : App → Option TaskHandle
  | .diagnostics => s.diagnosticsTask_
  | .ledBlink => s.ledBlinkTask_

/-- What the supervisor knows of an app. -/
def Apps.record (s : Apps) (app : App) : Option (AppResourceLimits × AppLifecycle) :=
  (find s.supervisor_ app.name).map fun slot => (slot.limits, slot.state)

/-- With enough heap for what is registered and a task that is created, the app starts. -/
def Starts (s : Apps) (app : App) : Prop :=
  ∀ given freeHeap task, limits s.supervisor_ app.name = some given → given.minimumFreeHeap ≤ freeHeap →
    (appRun app.name freeHeap (some task) s).answer = true ∧
      (appRun app.name freeHeap (some task) s).device.task app = some task ∧
      state (appRun app.name freeHeap (some task) s).device.supervisor_ app.name = .running

/-- No app without a task is locked out, in any state of the run. -/
def Unlocked (commands : List AppCommand) : Prop :=
  ∀ past, past <+: commands → ∀ app, (afterCommands past).task app = none → Starts (afterCommands past) app

/-! ### One command -/

theorem name_ne {app other : App} (h : other ≠ app) : other.name ≠ app.name := by
  cases app <;> cases other <;> first | exact absurd rfl h | decide

/-- What `app-run` of an app leads to. -/
inductive RunStep (s : Apps) (app : App) (freeHeap : Nat) (created : Option TaskHandle) :
    Reply Apps → Prop where
  | already (lines : List Text) (htask : s.task app ≠ none) : RunStep s app freeHeap created ⟨s, lines, true⟩
  | refused (lines : List Text) (htask : s.task app = none)
      (hstart : canStart s.supervisor_ app.name freeHeap = false) :
      RunStep s app freeHeap created ⟨s, lines, false⟩
  | failed (lines : List Text) (htask : s.task app = none)
      (hstart : canStart s.supervisor_ app.name freeHeap = true) (hcreated : created = none) :
      RunStep s app freeHeap created
        ⟨{ s with supervisor_ := markFailed (markStarting s.supervisor_ app.name) app.name }, lines, false⟩
  | started (task : TaskHandle) (s' : Apps) (lines : List Text) (htask : s.task app = none)
      (hstart : canStart s.supervisor_ app.name freeHeap = true) (hcreated : created = some task)
      (hsupervisor : s'.supervisor_ = markRunning (markStarting s.supervisor_ app.name) app.name)
      (htasks : s'.task = Function.update s.task app (some task)) :
      RunStep s app freeHeap created ⟨s', lines, true⟩

inductive StopStep (s : Apps) (app : App) : Reply Apps → Prop where
  | already (lines : List Text) (htask : s.task app = none) : StopStep s app ⟨s, lines, true⟩
  | stopped (s' : Apps) (lines : List Text) (htask : s.task app ≠ none)
      (hsupervisor : s'.supervisor_ = markStopped s.supervisor_ app.name)
      (htasks : s'.task = Function.update s.task app none) : StopStep s app ⟨s', lines, true⟩

theorem task_diagnostics (s : Apps) (task : Option TaskHandle) (supervisor : AppSupervisor)
    (logs : BoundedLog) : Apps.task ⟨supervisor, task, s.ledBlinkTask_, logs⟩ =
      Function.update s.task .diagnostics task := by
  funext app
  cases app <;> rfl

theorem task_ledBlink (s : Apps) (task : Option TaskHandle) (supervisor : AppSupervisor)
    (logs : BoundedLog) : Apps.task ⟨supervisor, s.diagnosticsTask_, task, logs⟩ =
      Function.update s.task .ledBlink task := by
  funext app
  cases app <;> rfl

theorem appRun_cases (s : Apps) (app : App) (freeHeap : Nat) (created : Option TaskHandle) :
    RunStep s app freeHeap created (appRun app.name freeHeap created s) := by
  cases app with
  | diagnostics =>
    show RunStep s .diagnostics freeHeap created (appRun (lit "diagnostics") freeHeap created s)
    rw [appRun, if_neg (by decide), if_neg (by decide)]
    split_ifs with htask hstart
    · exact .already _ htask
    · cases created with
      | none => exact .failed _ (not_not.mp htask) hstart rfl
      | some task => exact .started task _ _ (not_not.mp htask) hstart rfl rfl (task_diagnostics s _ _ _)
    · exact .refused _ (not_not.mp htask) ((Bool.not_eq_true _).mp hstart)
  | ledBlink =>
    show RunStep s .ledBlink freeHeap created (appRun (lit "led-blink") freeHeap created s)
    rw [appRun, if_neg (by decide), if_pos rfl]
    split_ifs with htask hstart
    · exact .already _ htask
    · cases created with
      | none => exact .failed _ (not_not.mp htask) hstart rfl
      | some task => exact .started task _ _ (not_not.mp htask) hstart rfl rfl (task_ledBlink s _ _ _)
    · exact .refused _ (not_not.mp htask) ((Bool.not_eq_true _).mp hstart)

theorem appStop_cases (s : Apps) (app : App) : StopStep s app (appStop app.name s) := by
  cases app with
  | diagnostics =>
    show StopStep s .diagnostics (appStop (lit "diagnostics") s)
    rw [appStop, if_neg (by decide), if_neg (by decide)]
    split_ifs with htask
    · exact .already _ htask
    · exact .stopped _ _ htask rfl (task_diagnostics s _ _ _)
  | ledBlink =>
    show StopStep s .ledBlink (appStop (lit "led-blink") s)
    rw [appStop, if_neg (by decide), if_pos rfl]
    split_ifs with htask
    · exact .already _ htask
    · exact .stopped _ _ htask rfl (task_ledBlink s _ _ _)

/-- A command on no app changes nothing. -/
theorem next_unknown (s : Apps) (c : AppCommand) :
    next s c = s ∨ ∃ app : App, (∃ freeHeap created, c = .appRun app.name freeHeap created) ∨
      c = .appStop app.name := by
  cases c with
  | appRun arguments freeHeap created =>
    by_cases hd : arguments = lit "diagnostics"
    · exact .inr ⟨.diagnostics, .inl ⟨freeHeap, created, by rw [hd]; rfl⟩⟩
    by_cases hl : arguments = lit "led-blink"
    · exact .inr ⟨.ledBlink, .inl ⟨freeHeap, created, by rw [hl]; rfl⟩⟩
    · exact .inl (by rw [next, appRun, if_pos ⟨hd, hl⟩])
  | appStop arguments =>
    by_cases hd : arguments = lit "diagnostics"
    · exact .inr ⟨.diagnostics, .inr (by rw [hd]; rfl)⟩
    by_cases hl : arguments = lit "led-blink"
    · exact .inr ⟨.ledBlink, .inr (by rw [hl]; rfl)⟩
    · exact .inl (by rw [next, appStop, if_pos ⟨hd, hl⟩])

/-! ### The supervisor and the tasks -/

/-- The supervisor takes an app for running exactly while it has a task. -/
def Settled (s : Apps) : Prop :=
  ∀ app, s.record app = some (app.limits, if s.task app = none then .stopped else .running)

theorem record_eq_some {s : Apps} {app : App} {given : AppResourceLimits} {lifecycle : AppLifecycle}
    (h : s.record app = some (given, lifecycle)) :
    limits s.supervisor_ app.name = some given ∧ state s.supervisor_ app.name = lifecycle ∧
      ∀ freeHeap, canStart s.supervisor_ app.name freeHeap = true ↔
        lifecycle = .stopped ∧ given.minimumFreeHeap ≤ freeHeap := by
  obtain ⟨slot, hslot, heq⟩ := Option.map_eq_some_iff.mp h
  cases heq
  refine ⟨by rw [limits, hslot]; rfl, by rw [state, hslot], fun freeHeap => ?_⟩
  rw [canStart, hslot]
  exact decide_eq_true_iff

/-- What a mark leaves of the records, when it is made on the supervisor of `s`. -/
theorem record_mark {s s' : Apps} {app : App} {lifecycle : AppLifecycle}
    (h : s'.supervisor_ = setState s.supervisor_ app.name lifecycle) :
    s'.record app = (s.record app).map (fun known => (known.1, lifecycle)) ∧
      ∀ other, other ≠ app → s'.record other = s.record other := by
  refine ⟨?_, fun other hother => ?_⟩
  · rw [Apps.record, Apps.record, h, find_setState, Option.map_map, Option.map_map]
    rfl
  · rw [Apps.record, Apps.record, h, find_setState_ne (name_ne hother)]

theorem record_marks {s s' : Apps} {app : App} {first lifecycle : AppLifecycle}
    (h : s'.supervisor_ = setState (setState s.supervisor_ app.name first) app.name lifecycle) :
    s'.record app = (s.record app).map (fun known => (known.1, lifecycle)) ∧
      ∀ other, other ≠ app → s'.record other = s.record other := by
  let middle : Apps := { s with supervisor_ := setState s.supervisor_ app.name first }
  obtain ⟨hfirst, hothers⟩ := record_mark (rfl : middle.supervisor_ = _)
  obtain ⟨hlast, hrest⟩ := record_mark (s := middle) h
  refine ⟨?_, fun other hother => (hrest other hother).trans (hothers other hother)⟩
  rw [hlast, hfirst, Option.map_map]
  rfl

/-- A mark that agrees with the new task keeps the two in agreement. -/
theorem settled_mark {s s' : Apps} (h : Settled s) {app : App} {task : Option TaskHandle}
    (hrecord : s'.record app =
      (s.record app).map fun known => (known.1, if task = none then .stopped else .running))
    (hothers : ∀ other, other ≠ app → s'.record other = s.record other)
    (htasks : s'.task = Function.update s.task app task) : Settled s' := by
  intro other
  by_cases hother : other = app
  · rw [hother, hrecord, htasks, Function.update_self, h app]
    rfl
  · rw [hothers other hother, htasks, Function.update_of_ne hother, h other]

theorem settled_constructed : Settled constructed := by
  intro app
  cases app <;> decide

/-- With enough heap, every creation succeeds for an app without a task. -/
def Created (s : Apps) (c : AppCommand) : Prop :=
  ∀ app freeHeap, c = .appRun app.name freeHeap none → s.task app = none →
    freeHeap < app.limits.minimumFreeHeap

theorem settled_next {s : Apps} (h : Settled s) {c : AppCommand} (hc : Created s c) :
    Settled (next s c) := by
  obtain hsame | ⟨app, ⟨freeHeap, created, rfl⟩ | rfl⟩ := next_unknown s c
  · rw [hsame]
    exact h
  · have hcases := appRun_cases s app freeHeap created
    rw [next]
    generalize appRun app.name freeHeap created s = reply at hcases
    cases hcases with
    | already lines htask => exact h
    | refused lines htask hstart => exact h
    | failed lines htask hstart hcreated =>
      have hheap := ((record_eq_some (h app)).2.2 freeHeap).mp hstart
      have hlow := hc app freeHeap (by rw [hcreated]) htask
      omega
    | started task s' lines htask hstart hcreated hsupervisor htasks =>
      obtain ⟨hrecord, hothers⟩ := record_marks hsupervisor
      exact settled_mark h hrecord hothers htasks
  · have hcases := appStop_cases s app
    rw [next]
    generalize appStop app.name s = reply at hcases
    cases hcases with
    | already lines htask => exact h
    | stopped s' lines htask hsupervisor htasks =>
      obtain ⟨hrecord, hothers⟩ := record_mark hsupervisor
      exact settled_mark h hrecord hothers htasks

theorem starts_of_stopped {s : Apps} {app : App} {known : AppResourceLimits} (htask : s.task app = none)
    (h : s.record app = some (known, .stopped)) : Starts s app := by
  intro given freeHeap task hgiven hheap
  obtain ⟨hlimits, -, hstarts⟩ := record_eq_some h
  obtain rfl := Option.some_inj.mp (hgiven.symm.trans hlimits)
  have hcan := (hstarts freeHeap).mpr ⟨rfl, hheap⟩
  have hcases := appRun_cases s app freeHeap (some task)
  generalize appRun app.name freeHeap (some task) s = reply at hcases
  cases hcases with
  | already lines htask' => exact absurd htask htask'
  | refused lines _ hstart => cases hcan.symm.trans hstart
  | failed lines _ _ hcreated => cases hcreated
  | started task' s' lines _ _ hcreated hsupervisor htasks =>
    obtain rfl := Option.some_inj.mp hcreated
    have hrecord := (record_marks hsupervisor).1
    rw [h] at hrecord
    exact ⟨rfl, by rw [htasks, Function.update_self], (record_eq_some hrecord).2.1⟩

/-- What has failed does not start again. -/
theorem not_starts_of_failed {s : Apps} {app : App} {known : AppResourceLimits}
    (htask : s.task app = none) (h : s.record app = some (known, .failed)) : ¬ Starts s app := by
  intro hstarts
  obtain ⟨hlimits, -, hcan⟩ := record_eq_some h
  obtain ⟨hanswer, -, -⟩ := hstarts known known.minimumFreeHeap 0 hlimits le_rfl
  have hcases := appRun_cases s app known.minimumFreeHeap (some 0)
  generalize appRun app.name known.minimumFreeHeap (some 0) s = reply at hcases hanswer
  cases hcases with
  | already lines htask' => exact htask' htask
  | refused lines _ _ => cases hanswer
  | failed lines _ hstart _ => cases ((hcan _).mp hstart).1
  | started task s' lines _ hstart _ _ _ => cases ((hcan _).mp hstart).1

/-- After a creation that fails, an app without a task is locked out. -/
theorem created_of_starts {s : Apps} (h : Settled s) {c : AppCommand}
    (hstarts : ∀ app, (next s c).task app = none → Starts (next s c) app) : Created s c := by
  intro app freeHeap hc htask
  by_contra hheap
  have hrecord := h app
  rw [if_pos htask] at hrecord
  have hcan := ((record_eq_some hrecord).2.2 freeHeap).mpr ⟨rfl, not_lt.mp hheap⟩
  have hcases := appRun_cases s app freeHeap none
  rw [hc] at hstarts
  simp only [next] at hstarts
  generalize appRun app.name freeHeap none s = reply at hcases hstarts
  cases hcases with
  | already lines htask' => exact htask' htask
  | refused lines _ hstart => cases hcan.symm.trans hstart
  | failed lines _ _ _ =>
    let s' : Apps := { s with supervisor_ := markFailed (markStarting s.supervisor_ app.name) app.name }
    have hmarks : s'.supervisor_ = markFailed (markStarting s.supervisor_ app.name) app.name := rfl
    have hfailed := (record_marks hmarks).1
    rw [hrecord] at hfailed
    exact absurd (hstarts app htask) (not_starts_of_failed htask hfailed)
  | started task s' lines _ _ hcreated _ _ => cases hcreated

/-! ### Over a run -/

theorem afterCommands_snoc (commands : List AppCommand) (c : AppCommand) :
    afterCommands (commands ++ [c]) = next (afterCommands commands) c := after_snoc commands c

/-- Every app is registered with its limits. -/
def Known (s : Apps) : Prop := ∀ app, ∃ lifecycle, s.record app = some (app.limits, lifecycle)

/-- Every app stays registered as it was, whatever the commands. -/
theorem limits_afterCommands (commands : List AppCommand) (app : App) :
    limits (afterCommands commands).supervisor_ app.name = some app.limits := by
  suffices h : Known (afterCommands commands) by
    obtain ⟨lifecycle, hrecord⟩ := h app
    exact (record_eq_some hrecord).1
  refine after_invariant (P := Known) (fun app => ⟨_, settled_constructed app⟩)
    (fun s c hknown => ?_) commands
  have hmarked : ∀ {s' : Apps} {app : App} {lifecycle : AppLifecycle},
      s'.record app = (s.record app).map (fun known => (known.1, lifecycle)) ∧
        (∀ other, other ≠ app → s'.record other = s.record other) →
      Known s' := by
    intro s' app lifecycle hrecord other
    obtain ⟨before, hbefore⟩ := hknown other
    by_cases hother : other = app
    · exact ⟨lifecycle, by rw [hother, hrecord.1, ← hother, hbefore]; rfl⟩
    · exact ⟨before, (hrecord.2 other hother).trans hbefore⟩
  obtain hsame | ⟨app, ⟨freeHeap, created, rfl⟩ | rfl⟩ := next_unknown s c
  · rw [hsame]
    exact hknown
  · have hcases := appRun_cases s app freeHeap created
    rw [next]
    generalize appRun app.name freeHeap created s = reply at hcases
    cases hcases with
    | already lines htask => exact hknown
    | refused lines htask hstart => exact hknown
    | failed lines _ _ _ => exact hmarked (record_marks rfl)
    | started task s' lines _ _ _ hsupervisor _ => exact hmarked (record_marks hsupervisor)
  · have hcases := appStop_cases s app
    rw [next]
    generalize appStop app.name s = reply at hcases
    cases hcases with
    | already lines htask => exact hknown
    | stopped s' lines _ hsupervisor _ => exact hmarked (record_mark hsupervisor)

theorem settled_of_created {commands : List AppCommand}
    (h : ∀ past c, Taken commands past c → Created (afterCommands past) c) :
    Settled (afterCommands commands) :=
  after_induction (P := fun _ s => Settled s) (C := fun past c => Created (afterCommands past) c)
    settled_constructed (fun _ _ hpast hc => settled_next hpast hc) h

theorem settled_of_unlocked {commands : List AppCommand} (h : Unlocked commands) :
    Settled (afterCommands commands) := by
  induction commands using List.reverseRecOn with
  | nil => exact settled_constructed
  | append_singleton commands c ih =>
    have hpast := ih fun past hbegins => h past (hbegins.trans (List.prefix_append _ _))
    have hlast := h _ List.prefix_rfl
    rw [afterCommands_snoc] at hlast ⊢
    exact settled_next hpast (created_of_starts hpast hlast)

/-- No app is locked out exactly in the runs whose creations of a task succeed. -/
theorem unlocked_iff_created (commands : List AppCommand) : Unlocked commands ↔
    ∀ past c, Taken commands past c → Created (afterCommands past) c := by
  constructor
  · intro hunlocked past c htaken
    have hpast : Unlocked past := fun before hbefore =>
      hunlocked before (hbefore.trans ((List.prefix_append _ _).trans htaken))
    have hlast := hunlocked _ htaken
    rw [afterCommands_snoc] at hlast
    exact created_of_starts (settled_of_unlocked hpast) hlast
  · intro hcreated past hpast app htask
    have hsettled := settled_of_created fun before c htaken => hcreated before c (htaken.trans hpast)
    have hrecord := hsettled app
    rw [if_pos htask] at hrecord
    exact starts_of_stopped htask hrecord

/-- Once a task could not be created, the app is refused with all the heap there is. -/
theorem failed_creation_locks_out :
    let commands := [AppCommand.appRun (lit "diagnostics") 100000 none, .appStop (lit "diagnostics")]
    (appRun (lit "diagnostics") 100000 (some 1) (afterCommands commands)).lines =
        [lit "error: diagnostics resource limit exceeded"] ∧ ¬ Unlocked commands := by
  intro commands
  refine ⟨by decide, fun hunlocked => ?_⟩
  have hstarts := hunlocked commands List.prefix_rfl .diagnostics (by decide)
  exact absurd (hstarts App.diagnostics.limits 100000 1 (by decide) (by decide)).1 (by decide)

end Esp32Shell.Arduino.AppCommands
