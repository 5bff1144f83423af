import Esp32Shell.Idf.AppRegistry
import Esp32Shell.Library.Hex
import Mathlib.Data.Fintype.EquivFin

/-!
# Signed apps

When a task of a signed app is started under a bundle that verifies. `run`
verifies only a name that the registry does not know, and the registry forgets
no name: a stopped app is started again whatever has become of its bundle.
-/
namespace Esp32Shell.Idf.SignedApps

open Esp32Shell.Library.CText Esp32Shell.Library.Hex Esp32Shell.Library.Run
open Esp32Shell.Library.Sha256
open Storage.LittleFs Storage.Nvs SignedAppBundle AppRuntime AppRegistry

/-- The call of `run` starts a task for a signed app. -/
def StartsSigned (rt : Runtime) (name : Text) (board : Board) : Prop :=
  ∃ handle i app, (run name board rt).device.tasks = (handle, i) :: rt.tasks ∧
    (run name board rt).device.apps[i]? = some app ∧ app.builtin = false

/-- The payload starts with the descriptor that is supported. -/
def Carries (payload : List UInt8) : Prop := payload.length < 128 ∧ descriptor <+: payload

/-- The bundle on the disk verifies with the stored key and carries the descriptor. -/
def Current (name : Text) (board : Board) : Prop := ∃ payload, Passed name board payload ∧ Carries payload

/-- The name is of a registered signed app that has no task. -/
def Waiting (rt : Runtime) (name : Text) : Prop :=
  ∃ i app, find name rt = some i ∧ rt.apps[i]? = some app ∧ app.builtin = false ∧ app.task = none

/-- The memory behind a payload does not make it the descriptor. -/
def Complete (name : Text) (board : Board) : Prop :=
  ∀ payload, loadAndVerify name board = .ok payload → supported payload board.behind = true →
    descriptor.length ≤ payload.length

theorem carries_of_supported {payload behind : List UInt8} (h : supported payload behind = true)
    (hlong : descriptor.length ≤ payload.length) : Carries payload := by
  simp only [supported, Bool.and_eq_true, decide_eq_true_eq, strncmpEq, beq_iff_eq] at h
  obtain ⟨hshort, htake⟩ := h
  have hdescriptor : descriptor.take 18 = descriptor := by decide
  rw [hdescriptor] at htake
  have hprefix : descriptor <+: payload ++ behind := by
    rw [← htake]
    exact (List.take_prefix _ _).trans (List.takeWhile_prefix _)
  exact ⟨hshort, List.prefix_of_prefix_length_le hprefix (List.prefix_append _ _) hlong⟩

variable {rt : Runtime} {name : Text} {board : Board}

/-- `run` of a name that is not registered, with a bundle that verifies. -/
theorem appToRun_of_loaded {payload : List UInt8} (hload : loadAndVerify name board = .ok payload)
    (hfind : find name rt = none) : appToRun name board rt =
      if ¬ supported payload board.behind then .error (lit "error: signed app descriptor is unsupported")
      else .ok (findOrCreateSigned name rt) := by
  simp only [appToRun, hfind, hload]

/-- A start that adds a task takes a record without one. -/
theorem start_adds {app : Option Nat} {platform : Platform} {handle : Handle} {i : Nat}
    (h : (start app platform rt).device.tasks = (handle, i) :: rt.tasks) :
    ∃ record, app = some i ∧ rt.apps[i]? = some record ∧ record.task = none ∧
      directory (start app platform rt).device = directory rt := by
  have hne : rt.tasks ≠ (handle, i) :: rt.tasks := (List.cons_ne_self _ _).symm
  obtain ⟨line, hstart, -⟩ | ⟨j, record, rfl, happ, hfree, hdone⟩ := start_cases app platform rt
  · rw [hstart] at h
    exact absurd h hne
  · obtain ⟨failure, line, hstart⟩ | ⟨handle', line, -, hstart⟩ := hdone
    · rw [hstart] at h
      exact absurd h hne
    · rw [hstart] at h ⊢
      obtain ⟨heq, -⟩ := List.cons_eq_cons.mp h
      cases heq
      exact ⟨record, rfl, happ, hfree, directory_update _ fun _ => ⟨rfl, rfl⟩⟩

theorem builtin_of_directory {rt' : Runtime} {i : Nat} {app app' : AppRecord}
    (h : directory rt' = directory rt) (happ : rt.apps[i]? = some app)
    (happ' : rt'.apps[i]? = some app') : app'.builtin = app.builtin := by
  have hentry := congrArg (fun entries => entries[i]?) h
  simp only [directory, List.getElem?_map, happ, happ', Option.map_some, Option.some_inj] at hentry
  exact (Prod.mk.inj hentry).2

/-- A signed app that does not wait is started only under a current bundle. -/
theorem current_of_starts (hwaiting : ¬ Waiting rt name)
    (hcomplete : find name rt = none → Complete name board) (hstarts : StartsSigned rt name board) : find name rt = none ∧ Current name board := by
  obtain ⟨handle, i, app, htasks, happ, hsigned⟩ := hstarts
  cases hfind : find name rt with
  | some j =>
    simp only [run, appToRun, hfind] at htasks happ
    obtain ⟨record, hj, hrecord, hfree, hdirectory⟩ := start_adds htasks
    cases hj
    have hkind := builtin_of_directory hdirectory hrecord happ
    exact absurd ⟨i, record, hfind, hrecord, hkind ▸ hsigned, hfree⟩ hwaiting
  | none =>
    refine ⟨rfl, ?_⟩
    have hne : rt.tasks ≠ (handle, i) :: rt.tasks := (List.cons_ne_self _ _).symm
    cases hload : loadAndVerify name board with
    | error line =>
      simp only [run, appToRun, hfind, hload] at htasks
      exact absurd htasks hne
    | ok payload =>
      by_cases hsupported : supported payload board.behind = true
      · have hcarries := carries_of_supported hsupported (hcomplete hfind payload hload hsupported)
        exact ⟨payload, (loadAndVerify_eq_ok hload).2, hcarries⟩
      · simp only [run, appToRun_of_loaded hload hfind, if_pos hsupported] at htasks
        exact absurd htasks hne

theorem not_current_emptyBoard (name : Text) (handle : Handle) : ¬ Current name (emptyBoard handle) := by
  intro h
  obtain ⟨payload, ⟨file, verifier, -, hverifier, -⟩, -⟩ := h
  cases hverifier

theorem complete_emptyBoard (name : Text) (handle : Handle) : Complete name (emptyBoard handle) := by
  intro payload hload
  obtain ⟨-, file, verifier, -, hverifier, -⟩ := loadAndVerify_eq_ok hload
  cases hverifier

/-- A signed app that waits is started with no bundle at all. -/
theorem starts_of_waiting (h : Waiting rt name) :
    ∃ board, Complete name board ∧ StartsSigned rt name board ∧ ¬ Current name board := by
  obtain ⟨i, app, hfind, happ, hsigned, hfree⟩ := h
  obtain ⟨handle, hfresh⟩ := Infinite.exists_notMem_finset (rt.tasks.map Prod.fst).toFinset
  rw [List.mem_toFinset] at hfresh
  refine ⟨emptyBoard handle, complete_emptyBoard name handle, ?_, not_current_emptyBoard name handle⟩
  have hhandle : rt.freshHandle (emptyBoard handle).platform = some handle :=
    Option.filter_eq_some_iff.mpr ⟨rfl, decide_eq_true hfresh⟩
  have hheap : ¬ (emptyBoard handle).platform.freeHeap < minimumFreeHeap := Nat.lt_irrefl _
  have hrun : (run name (emptyBoard handle) rt).device =
      ({ rt with tasks := (handle, i) :: rt.tasks } : Runtime).update i fun app =>
        { app with task := some handle, state := .running, failure := [], heartbeat := 0 } := by
    simp only [run, appToRun, hfind, start, createTask, Option.bind_some, happ, Option.map_some, hfree,
      ne_eq, not_true, if_false, if_neg hheap, hhandle, update_update]
    rfl
  refine ⟨handle, i, { app with task := some handle, state := .running, failure := [], heartbeat := 0 },
    ?_, ?_, hsigned⟩
  · rw [hrun]
    rfl
  · rw [hrun, getElem?_update_self, happ]
    rfl

/-- In a run whose calls of `run` never name a waiting signed app, every task of a signed app is started
in a call that verified the bundle on the disk under the stored key. Where one waits, the next call may
start it under no bundle. -/
theorem signed_apps_current (tickRateHz : Nat) (events : List AppEvent) :
    ((∀ past name board, Taken events past (.run name board) →
        ¬ Waiting (afterSteps tickRateHz past) name ∧
          (find name (afterSteps tickRateHz past) = none → Complete name board)) →
      ∀ past name board, Taken events past (.run name board) →
        StartsSigned (afterSteps tickRateHz past) name board →
        find name (afterSteps tickRateHz past) = none ∧ Current name board) ∧
    ∀ name, Waiting (afterSteps tickRateHz events) name → ∃ board, Complete name board ∧
      StartsSigned (afterSteps tickRateHz events) name board ∧ ¬ Current name board := by
  refine ⟨fun h past name board htaken hstarts => ?_, fun name => starts_of_waiting⟩
  obtain ⟨hwaiting, hcomplete⟩ := h past name board htaken
  exact current_of_starts hwaiting hcomplete hstarts

/-! ### A bundle -/

def hexBytes (t : Text) : List UInt8 := (decodePairs t).getD []

def signingKey : List UInt8 :=
  hexBytes (lit "d75a980182b10ab7d54bfed3c964073a0ee172f3daa62325af021a68f707511a")

/-- SHA-256 of the descriptor with its terminator. -/
def blinkDigest : List UInt8 :=
  hexBytes (lit "cca67a0387611388c8be153a0d4f809178933329e3a181a501fc2f5d78e9a40b")

/-- The Ed25519 signature of the digest under the key. -/
def blinkSignature : List UInt8 :=
  hexBytes (lit "27c10862f2a408a958933defb5b6c065ec114f59ba1b437a99643e4e84826722" ++
    lit "1e5e8a6e24d64672a135db1e589784ac03470461b34c3df03c5fb5373734450c")

def blinkBundle : List UInt8 :=
  magic ++ [1, 5, 0, 0, 18, 0, 0, 0] ++ blinkDigest ++ blinkSignature ++ descriptor ++ [0]

/-- A board with the bundle of `blink` on its disk and the key stored. -/
def signedBoard (handle : Handle) : Board :=
  { emptyBoard handle with
    fs := ⟨Tree.mounted.setFile [lit "littlefs", lit "apps", lit "blink.bundle"] blinkBundle
      (by decide) (by decide), []⟩
    nvs := ⟨(Store.empty.setBlob (lit "app_signing_pub") signingKey).getD .empty, []⟩
    crypto := ⟨fun _ data => some (sha256 data), fun key => key == signingKey,
      fun key digest signature =>
        key == signingKey && digest.val == blinkDigest && signature == blinkSignature⟩ }

/-- The record of `blink` with and without its task. -/
def blinkRecord (task : Option Handle) (state : AppState) : AppRecord :=
  { signedRecord (lit "blink") with task := task, state := state }

theorem load_blink : loadAndVerify (lit "blink") (signedBoard 7) = .ok (descriptor ++ [0]) := by
  decide +kernel

theorem run_blink : (run (lit "blink") (signedBoard 7) initial).device =
    ⟨initial.apps ++ [blinkRecord (some 7) .running], [(7, 2)]⟩ := by
  rw [run, appToRun_of_loaded load_blink (by decide), if_neg (by decide)]
  decide

theorem starts_blink : StartsSigned initial (lit "blink") (signedBoard 7) :=
  ⟨7, 2, blinkRecord (some 7) .running, by rw [run_blink]; rfl, by rw [run_blink]; rfl, rfl⟩

theorem complete_blink : Complete (lit "blink") (signedBoard 7) := by
  intro payload hload _
  rw [load_blink] at hload
  cases hload
  decide

/-- What is left of `blink` behind `app-stop`. -/
theorem stop_blink : afterSteps 100 [.run (lit "blink") (signedBoard 7), .stop (lit "blink")] =
    ⟨initial.apps ++ [blinkRecord none .stopped], []⟩ := by
  have hstep : ∀ name board, afterSteps 100 [.run name board, .stop name] =
      (stop name (run name board initial).device).device := fun _ _ => rfl
  refine (hstep _ _).trans ?_
  rw [run_blink]
  decide

/-- `blink` is run and stopped, and a built-in app is run without any bundle. -/
def blinkThenDiagnostics : List AppEvent :=
  [.run (lit "blink") (signedBoard 7), .stop (lit "blink"), .run (lit "diagnostics") (emptyBoard 8)]

theorem signed_apps_current_blink :
    find (lit "blink") initial = none ∧ Current (lit "blink") (signedBoard 7) := by
  refine (signed_apps_current 100 blinkThenDiagnostics).1 (fun past name board h => ?_) [] (lit "blink")
    (signedBoard 7) ⟨[.stop (lit "blink"), .run (lit "diagnostics") (emptyBoard 8)], rfl⟩ starts_blink
  rcases taken_cons_cases h with ⟨rfl, heq⟩ | ⟨behind, rfl, hbehind⟩
  · cases heq
    refine ⟨?_, fun _ => complete_blink⟩
    rintro ⟨i, app, hfind, -⟩
    have hnone : find (lit "blink") initial = none := by decide
    exact absurd (hnone.symm.trans hfind) (by simp)
  · obtain ⟨last, rfl, hlast⟩ := taken_cons_ne hbehind (by simp)
    obtain ⟨rfl, heq⟩ := taken_singleton hlast
    cases heq
    have hfound : find (lit "diagnostics") (afterSteps 100
        [.run (lit "blink") (signedBoard 7), .stop (lit "blink")]) = some 0 := by
      rw [stop_blink]
      decide
    refine ⟨?_, fun hnone => by rw [hfound] at hnone; cases hnone⟩
    rintro ⟨i, app, hfind, happ, hsigned, -⟩
    obtain rfl := Option.some_inj.mp (hfound.symm.trans hfind)
    rw [stop_blink] at happ
    obtain rfl := Option.some_inj.mp happ
    cases hsigned

/-- A stopped signed app is started again when its bundle and the key are gone. -/
theorem stopped_app_restarted :
    let past := [.run (lit "blink") (signedBoard 7), .stop (lit "blink")]
    StartsSigned (afterSteps 100 past) (lit "blink") (emptyBoard 8) ∧
    ¬ Current (lit "blink") (emptyBoard 8) ∧
    ¬ ∀ events past name board, Taken events past (.run name board) →
      StartsSigned (afterSteps 100 past) name board → Current name board := by
  intro past
  have hpast : afterSteps 100 past = ⟨initial.apps ++ [blinkRecord none .stopped], []⟩ := stop_blink
  have hstarts : StartsSigned (afterSteps 100 past) (lit "blink") (emptyBoard 8) := by
    rw [hpast]
    exact ⟨8, 2, blinkRecord (some 8) .running, by decide +kernel, by decide +kernel, rfl⟩
  have hnot := not_current_emptyBoard (lit "blink") 8
  refine ⟨hstarts, hnot, fun h => ?_⟩
  exact hnot (h (past ++ [.run (lit "blink") (emptyBoard 8)]) past _ _ (taken_last past _) hstarts)

end Esp32Shell.Idf.SignedApps
