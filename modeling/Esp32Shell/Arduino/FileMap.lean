import Esp32Shell.Arduino.Sketch
import Esp32Shell.Idf.FileMap
import Esp32Shell.Idf.LineFrame

/-!
# The files of the Arduino image as a map

What `fs-write`, `fs-remove` and `fs-read` of the sketch do to the files. A
written file is replaced in place, and the printing is not looked at: over a
directory the line reports success and writes nothing.
-/
namespace Esp32Shell.Arduino.FileMap

open Esp32Shell.Library.CText
open Shell.CommandCore Shell.CommandTable Shell.CommandLines
open Storage.LittleFs Esp32Services Sketch
open FileRemoval (maxPathLength validPath validPath_length)
open Idf.LineFrame (ofConfiguration ofFiles)
open Idf.FileMap (Contents FileCommand fileCommand)

/-- What `fs-write` accepts of a line: a space ends the path, and the path names something that can be
opened. -/
structure Writes (t : Tree) (input : List UInt8) (path content : Text) : Prop where
  ended : space ∈ argument input
  valid : validPath path = true
  content_le : content.length ≤ 512
  opens : t.entry (resolve path) ≠ some .dir → t.entry (resolve path).dropLast = some .dir

/-- What an accepted `fs-write` leaves. -/
def left (t : Tree) (path content : Text) : Contents :=
  if t.entry (resolve path) = some .dir then t.file
  else Function.update t.file (resolve path) (some content)

/-- A write is one of its file alone exactly where it names no directory. -/
theorem left_eq_iff (t : Tree) (path content : Text) :
    left t path content = Function.update t.file (resolve path) (some content) ↔
      t.entry (resolve path) ≠ some .dir := by
  by_cases hdir : t.entry (resolve path) = some .dir
  · rw [left, if_pos hdir]
    refine iff_of_false (fun h => ?_) fun h => h hdir
    have hplace := congrFun h (resolve path)
    rw [Function.update_self, Tree.file_eq_some_iff, hdir] at hplace
    cases hplace
  · rw [left, if_neg hdir]
    exact iff_of_true rfl hdir

/-! ### The commands -/

theorem written_reliable {fs : FileSystem} (hr : fs.Reliable) (path content : Text) :
    (written (resolve path) content fs).2.Reliable ∧
    ((written (resolve path) content fs).1 = true ↔
      (fs.tree.entry (resolve path) ≠ some .dir → fs.tree.entry (resolve path).dropLast = some .dir)) ∧
    (written (resolve path) content fs).2.tree.file =
      if (written (resolve path) content fs).1 then left fs.tree path content else fs.tree.file := by
  by_cases hdir : fs.tree.entry (resolve path) = some .dir
  · simp only [written, if_pos hdir, if_true, left]
    exact ⟨hr, iff_of_true trivial fun h => absurd hdir h, trivial⟩
  by_cases hparent : fs.tree.entry (resolve path).dropLast = some .dir
  · have hopen := FileSystem.fopenWb_reliable hr hdir hparent
    have hdir₁ := fs.tree.setFile_dir_iff [] hdir hparent
    obtain ⟨m, hwrite, hm, htree⟩ := FileSystem.fwrite_reliable
      (show FileSystem.Reliable ⟨fs.tree.setFile (resolve path) [] hdir hparent, []⟩ from rfl) content
      (fun h => hdir ((hdir₁ _).mp h)) ((hdir₁ _).mpr hparent)
    have hwritten : written (resolve path) content fs = (true, m) := by
      simp only [written, if_neg hdir, hopen, if_true, hwrite]
    rw [hwritten]
    refine ⟨hm, iff_of_true rfl fun _ => hparent, ?_⟩
    rw [if_pos rfl, left, if_neg hdir, htree, Tree.file_setFile, Tree.file_setFile,
      Function.update_self, Function.update_idem]
    rfl
  · have hopen := FileSystem.fopenWb_fails hr fun h => hparent h.2
    have hwritten : written (resolve path) content fs = (false, fs) := by
      simp only [written, if_neg hdir, hopen, if_neg Bool.false_ne_true]
    rw [hwritten]
    exact ⟨hr, iff_of_false Bool.false_ne_true fun h => hparent (h hdir), rfl⟩

theorem fsWrite_reliable (arguments : Text) {fs : FileSystem} (hr : fs.Reliable) :
    let path := arguments.takeWhile (· ≠ space)
    let content := (arguments.dropWhile (· ≠ space)).tail
    let done := fsWrite arguments fs
    done.device.Reliable ∧
    (done.answer = true ↔ space ∈ arguments ∧ validPath path = true ∧ content.length ≤ 512 ∧
      (fs.tree.entry (resolve path) ≠ some .dir → fs.tree.entry (resolve path).dropLast = some .dir)) ∧
    done.device.tree.file = if done.answer then left fs.tree path content else fs.tree.file := by
  intro path content done
  by_cases hspace : space ∈ arguments
  · obtain ⟨pre, post, rfl, hpre⟩ := exists_cut hspace
    have hpath : path = pre := takeWhile_cut hpre post
    have hcontent : content = post := congrArg List.tail (dropWhile_cut hpre post)
    rw [hpath, hcontent]
    have hdone : done = fsWrite (pre ++ space :: post) fs := rfl
    simp only [fsWrite, strchr_append hpre, List.take_left', drop_cut] at hdone
    by_cases hvalid : validPath pre = true ∧ post.length ≤ 512
    · have hne : ¬ pre.length = 0 := fun h => by
        have hnil := List.length_eq_zero_iff.mp h
        rw [hnil] at hvalid
        exact absurd hvalid.1 (by decide)
      have hshort := Nat.not_lt.mpr (validPath_length hvalid.1)
      have htaken : ¬ (¬ validPath pre = true ∨ post.length > 512) := fun h =>
        h.elim (fun hinvalid => hinvalid hvalid.1) fun hlong => absurd hvalid.2 (Nat.not_le.mpr hlong)
      rw [if_neg hne, if_neg hshort, if_neg htaken] at hdone
      obtain ⟨hreliable, hopens, hfile⟩ := written_reliable hr pre post
      rw [hdone]
      exact ⟨hreliable, hopens.trans ⟨fun h => ⟨hspace, hvalid.1, hvalid.2, h⟩, fun h => h.2.2.2⟩, hfile⟩
    · have hrefused : done.device = fs ∧ done.answer = false := by
        have hinvalid : ¬ validPath pre = true ∨ post.length > 512 :=
          (not_and_or.mp hvalid).imp id Nat.lt_of_not_le
        rw [hdone, if_pos hinvalid]
        split_ifs <;> exact ⟨rfl, rfl⟩
      rw [hrefused.1, hrefused.2]
      exact ⟨hr, iff_of_false Bool.false_ne_true fun h => hvalid ⟨h.2.1, h.2.2.1⟩, rfl⟩
  · have hnone := (strchr_eq_none_iff arguments space).mpr hspace
    have hdone : done = ⟨fs, [lit "error: usage fs-write <path> <content>"], false⟩ := by
      simp only [done, fsWrite, hnone]
    rw [hdone]
    exact ⟨hr, iff_of_false Bool.false_ne_true fun h => hspace h.1, rfl⟩

theorem fsRemove_reliable (arguments : Text) {fs : FileSystem} (hr : fs.Reliable) :
    let done := FileRemoval.fsRemove arguments fs
    done.device.Reliable ∧
    done.device.tree.file = (strstr (lit " --confirm") arguments).elim fs.tree.file fun confirm =>
      if done.answer then Function.update fs.tree.file (resolve (arguments.take confirm)) none
      else fs.tree.file := by
  intro done
  cases hc : strstr (lit " --confirm") arguments with
  | none =>
    have hdone : done = ⟨fs, [lit "error: fs-remove requires --confirm"], false⟩ := by
      simp only [done, FileRemoval.fsRemove, hc]
    rw [hdone]
    exact ⟨hr, rfl⟩
  | some confirm =>
    have hdone : done = FileRemoval.fsRemove arguments fs := rfl
    simp only [FileRemoval.fsRemove, hc] at hdone
    rw [hdone]
    by_cases hlong : confirm > maxPathLength
    · rw [if_pos hlong]
      exact ⟨hr, rfl⟩
    rw [if_neg hlong]
    by_cases hvalid : validPath (arguments.take confirm) = true
    · rw [if_neg (not_not.mpr hvalid)]
      exact FileSystem.remove_reliable hr (resolve (arguments.take confirm))
    · rw [if_pos hvalid]
      exact ⟨hr, rfl⟩

theorem fsRead_reliable (arguments : Text) {fs : FileSystem} (hr : fs.Reliable) :
    (fsRead arguments fs).device = fs ∧
    ∀ content, validPath arguments = true → fs.tree.file (resolve arguments) = some content →
      content.length ≤ 512 → 0 ∉ content → (fsRead arguments fs).lines = [content] := by
  by_cases hvalid : validPath arguments = true
  · simp only [fsRead, if_neg (not_not.mpr hvalid), FileSystem.fopenRb_reliable hr]
    cases hfile : fs.tree.file (resolve arguments) with
    | none => exact ⟨rfl, fun content _ h => by cases h⟩
    | some stored =>
      by_cases hlong : stored.length > 512
      · simp only [if_pos hlong]
        refine ⟨trivial, fun content _ h hle => ?_⟩
        obtain rfl := Option.some_inj.mp h
        exact absurd hle (Nat.not_le.mpr hlong)
      · simp only [if_neg hlong]
        refine ⟨trivial, fun content _ h _ hzero => ?_⟩
        obtain rfl := Option.some_inj.mp h
        rw [(cString_eq_self_iff stored).mpr hzero]
  · simp only [fsRead, if_pos hvalid]
    exact ⟨trivial, fun _ h => absurd h hvalid⟩

/-! ### The other calls -/

theorem others_fs {call : ServiceCall} (h : ofFiles call ≠ true) (d : Image) :
    (others.respond call d).device.rest.fs = d.rest.fs := by
  cases call with
  | fsRead arguments | fsWrite arguments | fsRemove arguments => exact absurd rfl h
  | fsList arguments => exact (congrArg (fun d : Image => d.rest.fs) (fsList_device arguments d)).trans rfl
  | gpioRead arguments => exact (congrArg (fun d : Image => d.rest.fs) (gpioRead_device arguments d)).trans rfl
  | gpioWrite arguments => exact (congrArg (fun d : Image => d.rest.fs) (gpioWrite_device arguments d)).trans rfl
  | reboot => exact (congrArg Rest.fs (restarted_rest d)).trans rfl
  | _ => rfl

/-- The configuration commands leave the rest of the device alone. -/
theorem configuration_rest {call : ServiceCall} (h : ofConfiguration call = true) (d : Image) :
    (sketch.respond call d).device.rest = d.rest := by
  cases call with
  | wifiConfig arguments =>
    simp only [sketch, services, wifiConfig]
    repeat' split
    all_goals rfl
  | wifiProfiles => rfl
  | wifiProfileClear arguments =>
    simp only [sketch, services, wifiProfileClear]
    repeat' split
    all_goals rfl
  | configList => rfl
  | configGet arguments =>
    simp only [sketch, services, configGet]
    repeat' split
    all_goals rfl
  | configSet arguments =>
    simp only [sketch, services, configSet]
    repeat' split
    all_goals rfl
  | configClear arguments =>
    simp only [sketch, services, configClear]
    split <;> rfl
  | _ => cases h

theorem sketch_others {call : ServiceCall} (h : ofConfiguration call ≠ true) (d : Image) :
    sketch.respond call d = others.respond call d := by
  cases call <;> first | rfl | exact absurd rfl h

/-- Only the three commands reach the files. -/
theorem sketch_fs {call : ServiceCall} (h : ofFiles call ≠ true) (d : Image) :
    (sketch.respond call d).device.rest.fs = d.rest.fs := by
  by_cases hconfiguration : ofConfiguration call = true
  · rw [configuration_rest hconfiguration]
  · rw [sketch_others hconfiguration, others_fs h]

end Esp32Shell.Arduino.FileMap
