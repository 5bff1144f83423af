import Esp32Shell.Idf.FileMap

/-!
# Uploads whose calls may fail

`fs-write` with any of its calls failing. What it answers is settled before the
temporary file is renamed, and the outcome of the renaming is not looked at.
-/
namespace Esp32Shell.Idf.AtomicWrite

open Esp32Shell.Library.CText Esp32Shell.Library.Interaction
open Shell.CommandCore Storage.LittleFs CommandServices FileCalls FileMap

variable {ρ : Type}

/-- The path and the content that an argument text names. -/
def target (arguments : Text) : Text := arguments.takeWhile (· ≠ space)
def content (arguments : Text) : Text := (arguments.dropWhile (· ≠ space)).tail

/-- A true answer means that the target holds the content, a false one that it is as before, and no
temporary file is left unless it could not be removed. -/
structure Atomic (arguments : Text) (d : Device ρ) : Prop where
  stored : (CommandServices.fsWrite arguments d).answer = true →
    (CommandServices.fsWrite arguments d).device.fs.tree.file (place (target arguments)) =
      some (content arguments)
  kept : (CommandServices.fsWrite arguments d).answer = false →
    (CommandServices.fsWrite arguments d).device.fs.tree.entry (place (target arguments)) =
      d.fs.tree.entry (place (target arguments))
  cleaned : (∀ path ok, ⟨.remove path, ok⟩ ∈ (FileCalls.fsWrite arguments).trace littleFs d.fs → ok = true) →
    (CommandServices.fsWrite arguments d).device.fs.tree.file (tempPlace (target arguments)) = none

/-- The temporary file can be opened, is written in full and flushed. -/
structure Fills (temp : Path) (content : Text) (fs : FileSystem) : Prop where
  place : fs.tree.entry temp ≠ some .dir
  parent : fs.tree.entry temp.dropLast = some .dir
  opens : fs.results.getD 0 none = none
  writes : ∀ k, fs.results.getD 1 none = some k → content.length ≤ k
  flushes : fs.results.getD 2 none = none

/-- The renaming, as the fourth call, does not fail, and its target is no directory. -/
def Renames (place : Path) (fs : FileSystem) : Prop :=
  fs.results.getD 3 none = none ∧ fs.tree.entry place ≠ some .dir

/-! ### One call -/

/-- The tree `t` with a file of these bytes at a path where it can stand. -/
structure Filling (t : Tree) (temp : Path) (bytes : List UInt8) (fs : FileSystem) : Prop where
  place : t.entry temp ≠ some .dir
  parent : t.entry temp.dropLast = some .dir
  entry : fs.tree.entry = Function.update t.entry temp (some (.file bytes))

variable {t : Tree} {temp place : Path} {bytes : List UInt8} {fs : FileSystem}

theorem fopenWb_opens (hopens : fs.outcome = none) (hplace : fs.tree.entry temp ≠ some .dir)
    (hparent : fs.tree.entry temp.dropLast = some .dir) :
    ∃ m, fs.fopenWb temp = (true, m) ∧ m.results = fs.results.tail ∧ Filling fs.tree temp [] m :=
  ⟨_, dif_pos ⟨hopens, hplace, hparent⟩, rfl, hplace, hparent, rfl⟩

theorem fopenWb_refuses (h : ¬ (fs.outcome = none ∧ fs.tree.entry temp ≠ some .dir ∧
    fs.tree.entry temp.dropLast = some .dir)) : fs.fopenWb temp = (false, fs.spent) := dif_neg h

theorem Filling.temp_entry (h : Filling t temp bytes fs) : fs.tree.entry temp = some (.file bytes) := by
  rw [h.entry, Function.update_self]

theorem Filling.parent_entry (h : Filling t temp bytes fs) : fs.tree.entry temp.dropLast = some .dir := by
  have hne : temp.dropLast ≠ temp := fun he => h.place (by rw [← he, h.parent])
  rw [h.entry, Function.update_of_ne hne, h.parent]

/-- What `fwrite` writes of some bytes. -/
def written (fs : FileSystem) (bytes : List UInt8) : List UInt8 :=
  match fs.outcome with
  | none => bytes
  | some k => bytes.take k

theorem Filling.fwrite (h : Filling t temp bytes fs) (more : List UInt8) :
    ∃ m, fs.fwrite temp more = ((written fs more).length, m) ∧ m.results = fs.results.tail ∧
      Filling t temp (bytes ++ written fs more) m := by
  have hplace : fs.tree.entry temp ≠ some .dir := by simp [h.temp_entry]
  have hfile : fs.tree.file temp = some bytes := Tree.file_eq_some_iff.mpr h.temp_entry
  refine ⟨_, dif_pos ⟨hplace, h.parent_entry⟩, rfl, h.place, h.parent, ?_⟩
  rw [Tree.entry_setFile, hfile, h.entry, Function.update_idem]
  rfl

theorem written_begins (fs : FileSystem) (bytes : List UInt8) : written fs bytes <+: bytes := by
  unfold written
  cases fs.outcome with
  | none => exact List.prefix_rfl
  | some k => exact List.take_prefix k bytes

/-- All is written exactly when the call does not fail before the last byte. -/
theorem length_written_iff (fs : FileSystem) (bytes : List UInt8) :
    (written fs bytes).length = bytes.length ↔ ∀ k, fs.outcome = some k → bytes.length ≤ k := by
  unfold written
  cases fs.outcome with
  | none => simp
  | some k =>
    simp only [List.length_take, Option.some.injEq, forall_eq']
    omega

theorem Filling.remove (h : Filling t temp bytes fs) :
    (∃ m, fs.remove temp = (true, m) ∧ m.tree.entry = Function.update t.entry temp none) ∨
      fs.remove temp = (false, fs.spent) := by
  have hfile := h.temp_entry
  by_cases hout : fs.outcome = none
  · have hall : fs.outcome = none ∧ fs.tree.entry temp ≠ none ∧ fs.tree.entry temp ≠ some .dir :=
      ⟨hout, by simp [hfile], by simp [hfile]⟩
    refine .inl ⟨_, dif_pos hall, ?_⟩
    show Function.update fs.tree.entry temp none = _
    rw [h.entry, Function.update_idem]
  · exact .inr (dif_neg fun hall => hout hall.1)

theorem Filling.rename (h : Filling t temp bytes fs) (hne : temp ≠ place)
    (hparent : t.entry place ≠ some .dir → place.dropLast = temp.dropLast) :
    (fs.outcome = none ∧ t.entry place ≠ some .dir ∧ ∃ m, fs.rename temp place = (true, m) ∧
      m.tree.entry = Function.update (Function.update t.entry temp none) place (some (.file bytes))) ∨
    (¬ (fs.outcome = none ∧ t.entry place ≠ some .dir) ∧ fs.rename temp place = (false, fs.spent)) := by
  have hplace : fs.tree.entry place = t.entry place := by
    rw [h.entry, Function.update_of_ne hne.symm]
  unfold FileSystem.rename
  split
  · next content hold =>
    obtain rfl : content = bytes := by simpa using hold.symm.trans h.temp_entry
    by_cases hall : fs.outcome = none ∧ t.entry place ≠ some .dir
    · have hdir : fs.tree.entry place.dropLast = some .dir := by
        rw [hparent hall.2]
        exact h.parent_entry
      have hcan : fs.outcome = none ∧ fs.tree.entry place ≠ some .dir ∧
          fs.tree.entry place.dropLast = some .dir := ⟨hall.1, by rw [hplace]; exact hall.2, hdir⟩
      refine .inl ⟨hall.1, hall.2, _, dif_pos hcan, ?_⟩
      show Function.update (Function.update fs.tree.entry temp none) place _ = _
      rw [h.entry, Function.update_idem]
    · refine .inr ⟨hall, dif_neg fun hcan => hall ⟨hcan.1, ?_⟩⟩
      rw [← hplace]
      exact hcan.2.1
  · next hnot => exact absurd h.temp_entry (hnot bytes)

/-! ### The whole upload -/

/-- What a program has come to: its answer, the entries and all the calls, with those of the past. -/
structure Served where
  answer : Bool
  entry : Path → Option Node
  calls : List ((c : FileCall) × c.Answer)

def served (p : FileProgram) (past : List ((c : FileCall) × c.Answer)) (fs : FileSystem) : Served :=
  ⟨(p.run littleFs fs).1.2, (p.run littleFs fs).2.tree.entry, past ++ p.trace littleFs fs⟩

theorem served_call {c : FileCall} {a : c.Answer} {m : FileSystem} (h : littleFs c fs = (a, m))
    (next : c.Answer → FileProgram) (past : List ((c : FileCall) × c.Answer)) :
    served (.call c next) past fs = served (next a) (past ++ [⟨c, a⟩]) m := by
  simp only [served, Program.run_call, Program.trace_call, h, List.append_assoc, List.singleton_append]

/-- The ends of an upload. -/
inductive UploadEnd (t : Tree) (temp place : Path) (content : Text) : Served → Prop where
  | refused (calls) : UploadEnd t temp place content ⟨false, t.entry, calls⟩
  | removed (calls) : UploadEnd t temp place content ⟨false, Function.update t.entry temp none, calls⟩
  | left (bytes : List UInt8) (path : Text) (calls) (h : ⟨.remove path, false⟩ ∈ calls) :
      UploadEnd t temp place content ⟨false, Function.update t.entry temp (some (.file bytes)), calls⟩
  | renamed (calls) : UploadEnd t temp place content
      ⟨true, Function.update (Function.update t.entry temp none) place (some (.file content)), calls⟩

/-- The temporary file has all of the content and is not in its place. -/
structure Stuck (t : Tree) (temp : Path) (content : Text) (s : Served) : Prop where
  answer : s.answer = true
  entry : s.entry = Function.update t.entry temp (some (.file content))
  calls : ∀ path, ⟨.remove path, false⟩ ∉ s.calls

/-- A failed write or flush removes the temporary file, if that can be removed. -/
theorem finishWrite_fails (h : Filling t temp bytes fs) {tempPath : Text} (htemp : resolve tempPath = temp)
    (path : Text) (place : Path) (content : Text) (past : List ((c : FileCall) × c.Answer)) :
    UploadEnd t temp place content (served (finishWrite tempPath path false) past fs) := by
  have hserve : ∀ {ok m}, fs.remove temp = (ok, m) → littleFs (.remove tempPath) fs = (ok, m) := by
    intro ok m hremove
    rw [← htemp] at hremove
    exact hremove
  obtain ⟨m, hok, hentry⟩ | hfails := h.remove
  · rw [finishWrite, if_neg Bool.false_ne_true, served_call (hserve hok)]
    simp only [served, Program.run_done, hentry]
    exact .removed _
  · rw [finishWrite, if_neg Bool.false_ne_true, served_call (hserve hfails)]
    simp only [served, Program.run_done, FileSystem.spent, h.entry]
    exact .left bytes tempPath _ (by simp)

/-- A filled temporary file is renamed, or stuck. -/
theorem finishWrite_fills (h : Filling t temp bytes fs) {tempPath path : Text}
    (htemp : resolve tempPath = temp) (hplace : resolve path = place) (hne : temp ≠ place)
    (hparent : t.entry place ≠ some .dir → place.dropLast = temp.dropLast)
    (past : List ((c : FileCall) × c.Answer)) (hpast : ∀ path, ⟨.remove path, false⟩ ∉ past) :
    (fs.outcome = none ∧ t.entry place ≠ some .dir ∧
      UploadEnd t temp place bytes (served (finishWrite tempPath path true) past fs)) ∨
    (¬ (fs.outcome = none ∧ t.entry place ≠ some .dir) ∧
      Stuck t temp bytes (served (finishWrite tempPath path true) past fs)) := by
  have hserve : ∀ {ok m}, fs.rename temp place = (ok, m) → littleFs (.rename tempPath path) fs = (ok, m) := by
    intro ok m hrename
    rw [← htemp, ← hplace] at hrename
    exact hrename
  obtain ⟨hout, hdir, m, hok, hentry⟩ | ⟨hnot, hfails⟩ := h.rename hne hparent
  · refine .inl ⟨hout, hdir, ?_⟩
    rw [finishWrite, if_pos rfl, served_call (hserve hok)]
    simp only [served, Program.run_done, hentry]
    exact .renamed _
  · refine .inr ⟨hnot, ?_⟩
    rw [finishWrite, if_pos rfl, served_call (hserve hfails)]
    refine ⟨rfl, h.entry, fun path' hmem => ?_⟩
    simp only [served, Program.trace_done, List.append_nil] at hmem
    rcases List.mem_append.mp hmem with hmem | hmem
    · exact hpast path' hmem
    · simp at hmem

theorem outcome_eq {m : FileSystem} {results : List (Option Nat)} {i : Nat}
    (h : m.results = results.drop i) : m.outcome = results.getD i none := by
  rw [FileSystem.outcome, h, List.headD_eq_head?_getD, List.head?_drop, List.getD_eq_getElem?_getD]

theorem results_tail {m : FileSystem} {results : List (Option Nat)} {i : Nat}
    (h : m.results = results.drop i) : m.results.tail = results.drop (i + 1) := by
  rw [h, List.tail_drop]

/-- An upload that fills its temporary file and cannot rename it is stuck; every other one ends. -/
theorem writeFile_cases (path content : Text) (fs : FileSystem) (hne : temp ≠ place)
    (htemp : resolve (path ++ lit ".tmp") = temp) (hplace : resolve path = place)
    (hparent : fs.tree.entry temp.dropLast = some .dir → fs.tree.entry place ≠ some .dir →
      place.dropLast = temp.dropLast) :
    (¬ (Fills temp content fs ∧ ¬ Renames place fs) ∧
      UploadEnd fs.tree temp place content (served (writeFile path content) [] fs)) ∨
    (Fills temp content fs ∧ ¬ Renames place fs ∧
      Stuck fs.tree temp content (served (writeFile path content) [] fs)) := by
  have hserve : ∀ {ok m}, fs.fopenWb temp = (ok, m) →
      littleFs (.fopenWb (path ++ lit ".tmp")) fs = (ok, m) := by
    intro ok m hopen
    rw [← htemp] at hopen
    exact hopen
  have hfirst : fs.outcome = fs.results.getD 0 none := outcome_eq (List.drop_zero).symm
  by_cases hopen : fs.outcome = none ∧ fs.tree.entry temp ≠ some .dir ∧
      fs.tree.entry temp.dropLast = some .dir
  · obtain ⟨m₁, hm₁, hr₁, hfill₁⟩ := fopenWb_opens hopen.1 hopen.2.1 hopen.2.2
    have hrest₁ : m₁.results = fs.results.drop 1 := by rw [hr₁, List.drop_one]
    obtain ⟨m₂, hm₂, hr₂, hfill₂⟩ := hfill₁.fwrite content
    have hrest₂ : m₂.results = fs.results.drop 2 := hr₂.trans (results_tail hrest₁)
    have hfull := length_written_iff m₁ content
    rw [outcome_eq hrest₁] at hfull
    have hserve₂ : littleFs (.fwrite (path ++ lit ".tmp") content) m₁ =
        ((written m₁ content).length, m₂) := by
      rw [← htemp] at hm₂
      exact hm₂
    rw [writeFile, served_call (hserve hm₁), if_pos rfl, served_call hserve₂]
    by_cases hwrites : (written m₁ content).length = content.length
    · have hfill₃ : Filling fs.tree temp content m₂.spent := by
        rw [List.nil_append, (written_begins m₁ content).eq_of_length hwrites] at hfill₂
        exact ⟨hfill₂.place, hfill₂.parent, hfill₂.entry⟩
      have hrest₃ : m₂.spent.results = fs.results.drop 3 := results_tail hrest₂
      have hserve₃ : littleFs (.fflush (path ++ lit ".tmp")) m₂ = (m₂.outcome.isNone, m₂.spent) := rfl
      rw [if_pos hwrites, served_call hserve₃]
      cases hflush : m₂.outcome with
      | some k =>
        refine .inl ⟨fun h => ?_, finishWrite_fails hfill₃ htemp _ _ _ _⟩
        have hnone := (outcome_eq hrest₂).trans h.1.flushes
        cases hflush.symm.trans hnone
      | none =>
        have hfills : Fills temp content fs := ⟨hopen.2.1, hopen.2.2, hfirst ▸ hopen.1,
          hfull.mp hwrites, (outcome_eq hrest₂).symm.trans hflush⟩
        have hlast := finishWrite_fills hfill₃ htemp hplace hne (hparent hopen.2.2)
          [⟨.fopenWb (path ++ lit ".tmp"), true⟩,
            ⟨.fwrite (path ++ lit ".tmp") content, (written m₁ content).length⟩,
            ⟨.fflush (path ++ lit ".tmp"), true⟩] (by simp)
        rw [outcome_eq hrest₃] at hlast
        rcases hlast with ⟨hrename, hdir, hend⟩ | ⟨hnot, hstuck⟩
        · exact .inl ⟨fun h => h.2 ⟨hrename, hdir⟩, hend⟩
        · exact .inr ⟨hfills, hnot, hstuck⟩
    · rw [if_neg hwrites]
      exact .inl ⟨fun h => hwrites (hfull.mpr h.1.writes), finishWrite_fails hfill₂ htemp _ _ _ _⟩
  · rw [writeFile, served_call (hserve (fopenWb_refuses hopen))]
    refine .inl ⟨fun h => hopen ⟨hfirst.trans h.1.opens, h.1.place, h.1.parent⟩, ?_⟩
    rw [if_neg Bool.false_ne_true]
    exact .refused _

/-! ### The command -/

/-- `fs-write` is what its calls come to. -/
theorem fsWrite_served (arguments : Text) (d : Device ρ) :
    let s := served (FileCalls.fsWrite arguments) [] d.fs
    (CommandServices.fsWrite arguments d).answer = s.answer ∧
      (CommandServices.fsWrite arguments d).device.fs.tree.entry = s.entry ∧
      (FileCalls.fsWrite arguments).trace littleFs d.fs = s.calls := by
  rw [fsWrite_eq]
  exact ⟨rfl, rfl, rfl⟩

theorem file_of_entry {t : Tree} {entry : Path → Option Node} (h : t.entry = entry) (p : Path) :
    t.file p = match entry p with
      | some (.file content) => some content
      | _ => none := by rw [← h]; rfl

theorem atomic_of_end {arguments : Text} {d : Device ρ}
    (htemp : d.fs.tree.file (tempPlace (target arguments)) = none)
    (h : UploadEnd d.fs.tree (tempPlace (target arguments)) (FileMap.place (target arguments))
      (content arguments) (served (FileCalls.fsWrite arguments) [] d.fs)) : Atomic arguments d := by
  have hne := tempPlace_ne (target arguments)
  obtain ⟨hanswer, hentry, hcalls⟩ := fsWrite_served arguments d
  generalize served (FileCalls.fsWrite arguments) [] d.fs = s at h hanswer hentry hcalls
  cases h with
  | refused calls =>
    simp only at hanswer hentry
    refine ⟨fun htrue => ?_, fun _ => by rw [hentry], fun _ => ?_⟩
    · cases hanswer.symm.trans htrue
    · rw [file_of_entry hentry]
      exact htemp
  | removed calls =>
    simp only at hanswer hentry
    refine ⟨fun htrue => ?_, fun _ => ?_, fun _ => ?_⟩
    · cases hanswer.symm.trans htrue
    · rw [hentry, Function.update_of_ne hne.symm]
    · rw [file_of_entry hentry, Function.update_self]
  | left bytes path calls hleft =>
    simp only at hanswer hentry
    refine ⟨fun htrue => ?_, fun _ => ?_, fun hremoved => ?_⟩
    · cases hanswer.symm.trans htrue
    · rw [hentry, Function.update_of_ne hne.symm]
    · rw [hcalls] at hremoved
      cases hremoved path false hleft
  | renamed calls =>
    simp only at hanswer hentry
    refine ⟨fun _ => ?_, fun hfalse => ?_, fun _ => ?_⟩
    · rw [file_of_entry hentry, Function.update_self]
    · cases hanswer.symm.trans hfalse
    · rw [file_of_entry hentry, Function.update_of_ne hne, Function.update_self]

theorem not_atomic_of_stuck {arguments : Text} {d : Device ρ}
    (h : Stuck d.fs.tree (tempPlace (target arguments)) (content arguments)
      (served (FileCalls.fsWrite arguments) [] d.fs)) : ¬ Atomic arguments d := by
  intro hatomic
  obtain ⟨-, hentry, hcalls⟩ := fsWrite_served arguments d
  have hclean := hatomic.cleaned fun path ok hmem => by
    rw [hcalls] at hmem
    cases ok with
    | false => exact absurd hmem (h.calls path)
    | true => rfl
  rw [file_of_entry (hentry.trans h.entry), Function.update_self] at hclean
  cases hclean

theorem checkWrite_of_target {arguments : Text} (h0 : 0 ∉ arguments)
    (h : Acceptable (target arguments) (content arguments)) :
    checkWrite arguments = .ok (lit "/littlefs" ++ target arguments, content arguments) := by
  have hmem : space ∈ arguments := by
    by_contra hnot
    exact h.content_ne (congrArg List.tail (dropWhile_of_notMem hnot))
  obtain ⟨pre, post, rfl, hspace⟩ := exists_cut hmem
  have htarget : target (pre ++ space :: post) = pre := takeWhile_cut hspace post
  have hcontent : content (pre ++ space :: post) = post := congrArg List.tail (dropWhile_cut hspace post)
  rw [htarget, hcontent] at h ⊢
  exact checkWrite_of_acceptable h0 hspace h

/-- What is not acceptable makes no call. -/
theorem served_unacceptable {arguments : Text} (h0 : 0 ∉ arguments)
    (h : ¬ Acceptable (target arguments) (content arguments)) (fs : FileSystem) :
    served (FileCalls.fsWrite arguments) [] fs = ⟨false, fs.tree.entry, []⟩ := by
  rw [FileCalls.fsWrite]
  cases hcheck : checkWrite arguments with
  | error line => rfl
  | ok accepted =>
    obtain ⟨userPath, rfl, hspace, haccept, -⟩ := (checkWrite_eq_ok_iff h0).mp hcheck
    rw [target, content, takeWhile_cut hspace, dropWhile_cut hspace] at h
    exact absurd haccept h

/-- With no file under the name of the temporary one, `fs-write` is truthful and atomic exactly when
it does not fill a temporary file that it cannot rename. -/
theorem atomic_iff_renames {arguments : Text} (h0 : 0 ∉ arguments) (d : Device ρ)
    (htemp : d.fs.tree.file (tempPlace (target arguments)) = none) :
    Atomic arguments d ↔ (Acceptable (target arguments) (content arguments) →
      Fills (tempPlace (target arguments)) (content arguments) d.fs →
      Renames (FileMap.place (target arguments)) d.fs) := by
  by_cases haccept : Acceptable (target arguments) (content arguments)
  · have hplace : resolve (lit "/littlefs" ++ target arguments ++ lit ".tmp") =
        tempPlace (target arguments) := by rw [tempPlace, FileMap.place, List.append_assoc]
    have hcases := writeFile_cases (lit "/littlefs" ++ target arguments) (content arguments) d.fs
      (tempPlace_ne (target arguments)) hplace rfl place_parent
    have hprogram : FileCalls.fsWrite arguments =
        writeFile (lit "/littlefs" ++ target arguments) (content arguments) := by
      rw [FileCalls.fsWrite, checkWrite_of_target h0 haccept]
    rw [← hprogram] at hcases
    rcases hcases with ⟨hnot, hend⟩ | ⟨hfills, hrenames, hstuck⟩
    · refine iff_of_true (atomic_of_end htemp hend) fun _ hfills => ?_
      by_contra hrenames
      exact hnot ⟨hfills, hrenames⟩
    · exact iff_of_false (not_atomic_of_stuck hstuck) fun h => hrenames (h haccept hfills)
  · refine iff_of_true (atomic_of_end htemp ?_) fun h => absurd h haccept
    rw [served_unacceptable h0 haccept]
    exact .refused _

/-- An upload on a fresh device whose second call writes three bytes. -/
def cutShort : Device Unit := ⟨⟨.empty, []⟩, ⟨.mounted, [none, some 3]⟩, ()⟩

theorem atomic_iff_renames_cutShort : Atomic (lit "/apps/a hello") cutShort ∧
    (CommandServices.fsWrite (lit "/apps/a hello") cutShort).answer = false := by
  refine ⟨(atomic_iff_renames (by decide) cutShort (by decide +kernel)).mpr fun _ hfills => ?_,
    by decide +kernel⟩
  exact absurd (hfills.writes 3 rfl) (by decide)

/-- An upload on a fresh device whose fourth call fails. -/
def unrenamed : Device Unit := ⟨⟨.empty, []⟩, ⟨.mounted, [none, none, none, some 0]⟩, ()⟩

/-- The renaming fails; the upload is reported as complete, and the target does not exist. -/
theorem failed_rename_reported :
    (CommandServices.fsWrite (lit "/apps/a hello") unrenamed).lines = [lit "upload=complete"] ∧
      ¬ Atomic (lit "/apps/a hello") unrenamed := by
  refine ⟨by decide +kernel, fun hatomic => ?_⟩
  have hstored := hatomic.stored (by decide +kernel)
  exact absurd hstored (by decide +kernel)

end Esp32Shell.Idf.AtomicWrite
