import Esp32Shell.Idf.FileCalls
import Esp32Shell.Shell.CommandLines

/-!
# The files as a map

`fs-write`, `fs-remove` and `fs-read` against a map from paths to contents.
`fs-write` fills a second file beside the target and renames it, so a line
touches two names; it answers with success whatever the renaming does.
-/
namespace Esp32Shell.Idf.FileMap

open Esp32Shell.Library.CText
open Shell.CommandCore Shell.CommandTable Shell.CommandLines
open Storage.LittleFs CommandServices

variable {ρ : Type}

abbrev Contents := Path → Option (List UInt8)

/-- Where a path of a command is in the file system. -/
def place (userPath : Text) : Path := resolve (lit "/littlefs" ++ userPath)

/-- Where `fs-write` collects the content for a path. -/
def tempPlace (userPath : Text) : Path := place (userPath ++ lit ".tmp")

/-! ### What the commands mean -/

inductive FileCommand where
  | write (path content : Text)
  | remove (path : Text)
  | read (path : Text)

/-- The command that a line asks for, if it reaches one of the three. -/
def fileCommand (input : List UInt8) : Option FileCommand :=
  match route input with
  | .ask (.fsWrite arguments) => some
      (.write (arguments.takeWhile (· ≠ space)) (arguments.dropWhile (· ≠ space)).tail)
  | .ask (.fsRemove arguments) =>
    (strstr (lit " --confirm") arguments).map fun confirm => .remove (arguments.take confirm)
  | .invoke (.fsRead arguments) => some (.read arguments)
  | _ => none

/-- A map after a command that reported success. -/
def FileCommand.apply (m : Contents) : FileCommand → Contents
  | .write path content => Function.update m (place path) (some content)
  | .remove path => Function.update m (place path) none
  | .read _ => m

/-- A map after a line that was answered with or without success. -/
def after (m : Contents) (input : List UInt8) (ok : Bool) : Contents :=
  match fileCommand input with
  | some command => if ok then command.apply m else m
  | none => m

/-- A line changes the files as the map, and a file that was set by the lines before it is
printed as it was set. -/
def LineFollows (d : Device ρ) (lastSet : Contents) (input : List UInt8)
    (done : Dispatched (Device ρ)) : Prop :=
  done.device.fs.tree.file = after d.fs.tree.file input (done.status = .ok) ∧
  ∀ path content, fileCommand input = some (.read path) → validFsPath path →
    lastSet (place path) = some content → done.lines = [content]

/-- Every line of a sequence does. -/
def Follows (services : DeviceServices (Device ρ)) (d : Device ρ) (lastSet : Contents) :
    List (List UInt8) → Prop
  | [] => True
  | input :: lines =>
    let done := dispatch services d (some input)
    LineFollows d lastSet input done ∧
      Follows services done.device (after lastSet input (done.status = .ok)) lines

/-- What `fs-write` takes for a path and a content. -/
structure Acceptable (path content : Text) : Prop where
  content_ne : content ≠ []
  content_le : content.length ≤ 512
  length_ge : 7 ≤ path.length
  apps : strncmpEq path (lit "/apps/") 6 = true
  valid : validFsPath path = true

/-- What `fs-write` accepts: the temporary file can be opened. -/
structure Uploads (t : Tree) (path content : Text) : Prop extends Acceptable path content where
  temp : t.entry (tempPlace path) ≠ some .dir
  parent : t.entry (tempPlace path).dropLast = some .dir

/-- No upload meets a file under the name of its temporary file, or a directory at its target. -/
def Undisturbed (services : DeviceServices (Device ρ)) (d : Device ρ) : List (List UInt8) → Prop
  | [] => True
  | input :: lines =>
    (∀ path content, fileCommand input = some (.write path content) →
      Uploads d.fs.tree path content →
      d.fs.tree.file (tempPlace path) = none ∧ d.fs.tree.entry (place path) ≠ some .dir) ∧
    Undisturbed services (dispatch services d (some input)).device lines

/-! ### Names -/

theorem place_cut (path : Text) : ∃ front last, slash ∉ last ∧
    place path = resolve front ++ (if isNamed last then [last] else []) ∧
    tempPlace path = resolve front ++ [last ++ lit ".tmp"] := by
  have hslash : slash ∈ lit "/littlefs" ++ path := List.mem_append_left _ (by decide)
  obtain ⟨front, last, hsplit, hlast⟩ := exists_last_segment hslash
  have htemp : slash ∉ last ++ lit ".tmp" := fun h =>
    (List.mem_append.mp h).elim hlast (by decide)
  refine ⟨front, last, hlast, ?_, ?_⟩
  · rw [place, hsplit, resolve_cut front hlast]
  · have hnamed : isNamed (last ++ lit ".tmp") = true := by
      have hlength : 4 ≤ (last ++ lit ".tmp").length := by
        rw [List.length_append]
        exact Nat.le_add_left _ _
      have hempty : last ++ lit ".tmp" ≠ [] := fun he => by
        rw [he] at hlength
        exact absurd hlength (by decide)
      have hdot : last ++ lit ".tmp" ≠ lit "." := fun he => by
        rw [he] at hlength
        exact absurd hlength (by decide)
      rw [isNamed, Bool.and_eq_true, bne_iff_ne, bne_iff_ne]
      exact ⟨hempty, hdot⟩
    rw [tempPlace, place, ← List.append_assoc, hsplit, List.append_assoc, List.cons_append,
      resolve_cut front htemp, if_pos hnamed]

theorem tempPlace_ne (path : Text) : tempPlace path ≠ place path := by
  obtain ⟨front, last, -, hplace, htemp⟩ := place_cut path
  rw [hplace, htemp]
  intro he
  have hlast := List.append_cancel_left he
  by_cases hnamed : isNamed last
  · rw [if_pos hnamed, List.singleton_inj] at hlast
    have hlength := congrArg List.length hlast
    rw [List.length_append] at hlength
    exact absurd (Nat.add_eq_left.mp hlength) (by decide)
  · rw [if_neg hnamed] at hlast
    cases hlast

/-- The target of an upload, where it is no directory, stands beside the temporary file. -/
theorem place_parent {t : Tree} {path : Text} (hparent : t.entry (tempPlace path).dropLast = some .dir)
    (hplace : t.entry (place path) ≠ some .dir) :
    (place path).dropLast = (tempPlace path).dropLast := by
  obtain ⟨front, last, -, hp, ht⟩ := place_cut path
  rw [ht, List.dropLast_concat] at hparent
  rw [ht, List.dropLast_concat]
  by_cases hnamed : isNamed last
  · rw [hp, if_pos hnamed, List.dropLast_concat]
  · rw [hp, if_neg hnamed, List.append_nil] at hplace
    exact absurd hparent hplace

/-! ### The code -/

theorem validFsPath_length {path : Text} (h : validFsPath path = true) : path.length ≤ 64 := by
  simp only [validFsPath, Bool.and_eq_true, decide_eq_true_eq] at h
  exact h.1.1.2

theorem buildFsPath_of_valid {path : Text} (h : validFsPath path = true) :
    buildFsPath path 96 = some (lit "/littlefs" ++ path) := by
  have hle := validFsPath_length h
  have hlength : (lit "/littlefs" ++ path).length < 96 := by
    have hroot : (lit "/littlefs").length = 9 := by decide
    rw [List.length_append]
    omega
  exact if_pos ⟨h, hlength⟩

theorem buildFsPath_of_invalid {path : Text} (h : ¬ validFsPath path = true) :
    buildFsPath path 96 = none := if_neg fun hall => h hall.1

theorem acceptable_of_checkWrite {arguments : Text} (h0 : 0 ∉ arguments) {path content : Text}
    (h : FileCalls.checkWrite arguments = .ok (path, content)) :
    ∃ userPath, arguments = userPath ++ space :: content ∧ space ∉ userPath ∧
      Acceptable userPath content ∧ path = lit "/littlefs" ++ userPath := by
  cases hc : strchr arguments space with
  | none =>
    rw [FileCalls.checkWrite, hc] at h
    cases h
  | some separator =>
    obtain ⟨userPath, rest, rfl, hspace, rfl⟩ := (strchr_eq_some_iff _ _ _).mp hc
    simp only [FileCalls.checkWrite, hc, byteAt_cut h0, drop_cut, List.length_eq_zero_iff,
      List.take_left'] at h
    by_cases husage : userPath = [] ∨ rest = [] ∨ rest.length > 512
    · rw [if_pos husage] at h
      cases h
    rw [if_neg husage] at h
    by_cases hplace : userPath.length ≥ 65 ∨ userPath.length < 7 ∨
        ¬ strncmpEq (userPath ++ space :: rest) (lit "/apps/") 6 = true
    · rw [if_pos hplace] at h
      cases h
    rw [if_neg hplace] at h
    push Not at husage hplace
    by_cases hvalid : validFsPath userPath = true
    · rw [buildFsPath_of_valid hvalid] at h
      simp only at h
      split at h
      · cases h
      · cases h
        have happs := hplace.2.2
        rw [strncmpEq, List.take_append_of_le_length (by omega)] at happs
        exact ⟨userPath, rfl, hspace, ⟨husage.2.1, husage.2.2, hplace.2.1, happs, hvalid⟩, rfl⟩
    · rw [buildFsPath_of_invalid hvalid] at h
      cases h

theorem checkWrite_of_acceptable {userPath content : Text} (h0 : 0 ∉ userPath ++ space :: content)
    (hspace : space ∉ userPath) (ha : Acceptable userPath content) :
    FileCalls.checkWrite (userPath ++ space :: content) =
      .ok (lit "/littlefs" ++ userPath, content) := by
  have hle := validFsPath_length ha.valid
  have hge := ha.length_ge
  have hcontent := ha.content_le
  have happs : strncmpEq (userPath ++ space :: content) (lit "/apps/") 6 = true := by
    rw [strncmpEq, List.take_append_of_le_length (by omega)]
    exact ha.apps
  have hroot : (lit "/littlefs").length = 9 := by decide
  have htmp : (lit ".tmp").length = 4 := by decide
  have hfits : ¬ (lit "/littlefs" ++ userPath ++ lit ".tmp").length ≥ 96 := by
    rw [List.length_append, List.length_append]
    omega
  have husage : ¬ (userPath = [] ∨ content = [] ∨ content.length > 512) := by
    intro husage
    rcases husage with hempty | hempty | hlong
    · rw [hempty] at hge
      exact absurd hge (by decide)
    · exact ha.content_ne hempty
    · omega
  have hplace : ¬ (userPath.length ≥ 65 ∨ userPath.length < 7 ∨
      ¬ strncmpEq (userPath ++ space :: content) (lit "/apps/") 6 = true) := by
    intro hplace
    rcases hplace with hlong | hshort | hother
    · omega
    · omega
    · exact hother happs
  simp only [FileCalls.checkWrite, strchr_append hspace, byteAt_cut h0, drop_cut,
    List.length_eq_zero_iff, List.take_left', if_neg husage, if_neg hplace,
    buildFsPath_of_valid ha.valid, if_neg hfits]

/-- What `fsWrite` checks before its first call. -/
theorem checkWrite_eq_ok_iff {arguments : Text} (h0 : 0 ∉ arguments) {path content : Text} :
    FileCalls.checkWrite arguments = .ok (path, content) ↔
      ∃ userPath, arguments = userPath ++ space :: content ∧ space ∉ userPath ∧
        Acceptable userPath content ∧ path = lit "/littlefs" ++ userPath := by
  constructor
  · exact acceptable_of_checkWrite h0
  · intro h
    obtain ⟨userPath, rfl, hspace, ha, rfl⟩ := h
    exact checkWrite_of_acceptable h0 hspace ha

/-- `fsWrite` on an acceptable path and content, by what opening the temporary file answers. -/
theorem fsWrite_opens {path content : Text} (h0 : 0 ∉ path ++ space :: content)
    (hspace : space ∉ path) (h : Acceptable path content) (d : Device ρ) {opened : Bool}
    {fs : FileSystem} (hopen : d.fs.fopenWb (tempPlace path) = (opened, fs)) :
    let done := upload content (tempPlace path) (place path) fs
    fsWrite (path ++ space :: content) d =
      if opened then d.answerFs done.2
        [if done.1 then lit "upload=complete" else lit "error: upload write failed"] done.1
      else d.answerFs fs [lit "error: LittleFS is not mounted"] false := by
  have hplace : tempPlace path = resolve (lit "/littlefs" ++ path ++ lit ".tmp") := by
    rw [tempPlace, place, List.append_assoc]
  have hcheck := (checkWrite_eq_ok_iff h0).mpr ⟨path, rfl, hspace, h, rfl⟩
  rw [hplace] at hopen ⊢
  rw [FileCalls.fsWrite_eq, FileCalls.fsWrite, hcheck]
  exact FileCalls.answered_writeFile _ content hopen

/-- `fsWrite` on anything else leaves the device as it is. -/
theorem fsWrite_refuses {arguments : Text} (h0 : 0 ∉ arguments)
    (h : ¬ Acceptable (arguments.takeWhile (· ≠ space)) (arguments.dropWhile (· ≠ space)).tail)
    (d : Device ρ) : ∃ line, fsWrite arguments d = ⟨d, [line], false⟩ := by
  rw [FileCalls.fsWrite_eq, FileCalls.fsWrite]
  cases hcheck : FileCalls.checkWrite arguments with
  | error line => exact ⟨line, rfl⟩
  | ok accepted =>
    obtain ⟨userPath, rfl, hspace, ha, -⟩ := (checkWrite_eq_ok_iff h0).mp hcheck
    rw [takeWhile_cut hspace, dropWhile_cut hspace] at h
    exact absurd ha h

/-- What a reliable upload leaves: the content at its target, or at its temporary file where the
target is a directory. -/
def uploaded (t : Tree) (path content : Text) : Contents :=
  if t.entry (place path) = some .dir then Function.update t.file (tempPlace path) (some content)
  else Function.update (Function.update t.file (tempPlace path) none) (place path) (some content)

theorem rename_uploaded {t : Tree} {path content : Text} {fs : FileSystem} (hr : fs.Reliable)
    (hold : fs.tree.entry (tempPlace path) = some (.file content))
    (hfile : fs.tree.file = Function.update t.file (tempPlace path) (some content))
    (hdir : ∀ q, fs.tree.entry q = some .dir ↔ t.entry q = some .dir)
    (hparent : t.entry (tempPlace path).dropLast = some .dir) :
    (fs.rename (tempPlace path) (place path)).2.Reliable ∧
    (fs.rename (tempPlace path) (place path)).2.tree.file = uploaded t path content := by
  by_cases hplace : t.entry (place path) = some .dir
  · rw [FileSystem.rename_dir hr ((hdir _).mpr hplace)]
    exact ⟨hr, by rw [uploaded, if_pos hplace, hfile]⟩
  · have hnew : fs.tree.entry (place path) ≠ some .dir := fun h => hplace ((hdir _).mp h)
    have hnewParent : fs.tree.entry (place path).dropLast = some .dir := by
      rw [place_parent hparent hplace, hdir]
      exact hparent
    rw [FileSystem.rename_reliable hr hold hnew hnewParent]
    exact ⟨rfl, by rw [uploaded, if_neg hplace, Tree.file_moveFile, hfile, Function.update_idem]⟩

theorem upload_uploaded {t : Tree} {path : Text} (hp : t.entry (tempPlace path) ≠ some .dir)
    (hparent : t.entry (tempPlace path).dropLast = some .dir) (content : Text) :
    let done := upload content (tempPlace path) (place path)
      ⟨t.setFile (tempPlace path) [] hp hparent, []⟩
    done.1 = true ∧ done.2.Reliable ∧ done.2.tree.file = uploaded t path content := by
  have hdir := t.setFile_dir_iff [] hp hparent
  have hp₁ : (t.setFile (tempPlace path) [] hp hparent).entry (tempPlace path) ≠ some .dir :=
    fun h => hp ((hdir _).mp h)
  have hparent₁ := (hdir _).mpr hparent
  have hempty : ((t.setFile (tempPlace path) [] hp hparent).file (tempPlace path)).getD [] ++ content =
      content := by
    rw [Tree.file_setFile, Function.update_self]
    rfl
  obtain ⟨m, hwrite, hm, htree⟩ := FileSystem.fwrite_reliable
    (show FileSystem.Reliable ⟨t.setFile (tempPlace path) [] hp hparent, []⟩ from rfl)
    content hp₁ hparent₁
  have hold : m.tree.entry (tempPlace path) = some (.file content) := by
    rw [htree, Tree.entry_setFile, Function.update_self, hempty]
  have hfile : m.tree.file = Function.update t.file (tempPlace path) (some content) := by
    rw [htree, Tree.file_setFile, hempty, Tree.file_setFile, Function.update_idem]
  have hmdir : ∀ q, m.tree.entry q = some .dir ↔ t.entry q = some .dir := fun q => by
    rw [htree, Tree.setFile_dir_iff, hdir]
  have hdone : upload content (tempPlace path) (place path)
      ⟨t.setFile (tempPlace path) [] hp hparent, []⟩ =
        (true, (m.rename (tempPlace path) (place path)).2) := by
    simp only [upload, hwrite, FileSystem.fflush_reliable hm, if_true]
  rw [hdone]
  exact ⟨rfl, rename_uploaded hm hold hfile hmdir hparent⟩

/-- A reliable `fs-write` reports success for what it accepts, and changes nothing else. -/
theorem fsWrite_reliable {arguments : Text} (h0 : 0 ∉ arguments) {d : Device ρ}
    (hr : d.fs.Reliable) :
    let path := arguments.takeWhile (· ≠ space)
    let content := (arguments.dropWhile (· ≠ space)).tail
    ∃ fs lines answer, fsWrite arguments d = ⟨{ d with fs := fs }, lines, answer⟩ ∧ fs.Reliable ∧
      (answer = true ↔ Uploads d.fs.tree path content) ∧
      fs.tree.file = if answer then uploaded d.fs.tree path content else d.fs.tree.file := by
  intro path content
  by_cases ha : Acceptable path content
  · have hmem : space ∈ arguments := by
      by_contra hnot
      exact ha.content_ne (congrArg List.tail (dropWhile_of_notMem hnot))
    obtain ⟨pre, post, rfl, hspace⟩ := exists_cut hmem
    have hpath : path = pre := takeWhile_cut hspace post
    have hcontent : content = post := congrArg List.tail (dropWhile_cut hspace post)
    rw [hpath, hcontent] at ha ⊢
    by_cases hopen : d.fs.tree.entry (tempPlace pre) ≠ some .dir ∧
        d.fs.tree.entry (tempPlace pre).dropLast = some .dir
    · obtain ⟨hdone, hreliable, hfile⟩ := upload_uploaded hopen.1 hopen.2 post
      have hreply := fsWrite_opens h0 hspace ha d (FileSystem.fopenWb_reliable hr hopen.1 hopen.2)
      simp only [if_true, hdone] at hreply
      exact ⟨_, _, true, hreply, hreliable, iff_of_true rfl ⟨ha, hopen.1, hopen.2⟩, hfile⟩
    · have hreply := fsWrite_opens h0 hspace ha d (FileSystem.fopenWb_fails hr hopen)
      exact ⟨d.fs, _, false, hreply, hr,
        iff_of_false Bool.false_ne_true fun h => hopen ⟨h.temp, h.parent⟩, rfl⟩
  · obtain ⟨line, hreply⟩ := fsWrite_refuses h0 ha d
    exact ⟨d.fs, [line], false, hreply, hr,
      iff_of_false Bool.false_ne_true fun h => ha h.toAcceptable, rfl⟩

/-- An upload is a change of the target alone exactly when it meets no other file. -/
theorem uploaded_eq_iff (t : Tree) (path content : Text) :
    uploaded t path content = Function.update t.file (place path) (some content) ↔
      t.file (tempPlace path) = none ∧ t.entry (place path) ≠ some .dir := by
  have hne := tempPlace_ne path
  by_cases hdir : t.entry (place path) = some .dir
  · rw [uploaded, if_pos hdir]
    refine iff_of_false (fun h => ?_) fun h => h.2 hdir
    have hplace := congrFun h (place path)
    rw [Function.update_of_ne hne.symm, Function.update_self, Tree.file_eq_some_iff, hdir] at hplace
    cases hplace
  · rw [uploaded, if_neg hdir]
    constructor
    · intro h
      have htemp := congrFun h (tempPlace path)
      rw [Function.update_of_ne hne, Function.update_self, Function.update_of_ne hne] at htemp
      exact ⟨htemp.symm, hdir⟩
    · intro h
      have hclean : Function.update t.file (tempPlace path) none = t.file :=
        Function.update_eq_self_iff.mpr h.1.symm
      rw [hclean]

theorem fsRemove_reliable (arguments : Text) {d : Device ρ} (hr : d.fs.Reliable) :
    ∃ fs lines answer, fsRemove arguments d = ⟨{ d with fs := fs }, lines, answer⟩ ∧ fs.Reliable ∧
      fs.tree.file = (strstr (lit " --confirm") arguments).elim d.fs.tree.file fun confirm =>
        if answer then Function.update d.fs.tree.file (place (arguments.take confirm)) none
        else d.fs.tree.file := by
  cases hc : strstr (lit " --confirm") arguments with
  | none =>
    refine ⟨d.fs, [lit "error: usage fs-remove /apps/<path> --confirm"], false, ?_, hr, rfl⟩
    rw [fsRemove, hc]
    rfl
  | some confirm =>
    simp only [fsRemove, hc]
    by_cases husage : byteAt arguments (confirm + 10) ≠ 0
    · exact ⟨d.fs, _, false, if_pos husage, hr, rfl⟩
    rw [if_neg husage]
    by_cases hplace : confirm ≥ 65 ∨ ¬ strncmpEq arguments (lit "/apps/") 6 = true
    · exact ⟨d.fs, _, false, if_pos hplace, hr, rfl⟩
    rw [if_neg hplace]
    by_cases hvalid : validFsPath (arguments.take confirm) = true
    · rw [buildFsPath_of_valid hvalid]
      obtain ⟨hreliable, hfile⟩ := FileSystem.remove_reliable hr (place (arguments.take confirm))
      exact ⟨_, _, _, rfl, hreliable, hfile⟩
    · rw [buildFsPath_of_invalid hvalid]
      exact ⟨d.fs, _, false, rfl, hr, rfl⟩

theorem fsRead_reliable (arguments : Text) {d : Device ρ} (hr : d.fs.Reliable) :
    ∃ lines, fsRead arguments d = ⟨d, lines, true⟩ ∧
      ∀ content, validFsPath arguments = true → d.fs.tree.file (place arguments) = some content →
        content.length ≤ 512 → 0 ∉ content → lines = [content] := by
  by_cases hvalid : validFsPath arguments = true
  · simp only [fsRead, buildFsPath_of_valid hvalid]
    have hopen := FileSystem.fopenRb_reliable hr (place arguments)
    rw [show resolve (lit "/littlefs" ++ arguments) = place arguments from rfl, hopen]
    cases hfile : d.fs.tree.file (place arguments) with
    | none => exact ⟨_, rfl, fun content _ h => by cases h⟩
    | some stored =>
      by_cases hlong : stored.length > 512
      · refine ⟨_, if_pos hlong, fun content _ h hle => ?_⟩
        obtain rfl := Option.some_inj.mp h
        omega
      · refine ⟨_, if_neg hlong, fun content _ h _ hzero => ?_⟩
        obtain rfl := Option.some_inj.mp h
        rw [(cString_eq_self_iff stored).mpr hzero]
  · refine ⟨[lit "error: usage fs-read <path>"], ?_, fun _ h => absurd h hvalid⟩
    rw [fsRead, buildFsPath_of_invalid hvalid]
    rfl

/-! ### Lines -/

/-- What a line does to a reliable device. -/
structure FileStep (d : Device ρ) (input : List UInt8) (done : Dispatched (Device ρ)) : Prop where
  reliable : done.device.fs.Reliable
  file : done.device.fs.tree.file =
    match fileCommand input with
    | some (.write path content) =>
      if done.status = .ok then uploaded d.fs.tree path content else d.fs.tree.file
    | _ => after d.fs.tree.file input (done.status = .ok)
  accepts : ∀ path content, fileCommand input = some (.write path content) →
    0 ∉ content ∧ (done.status = .ok ↔ Uploads d.fs.tree path content)
  prints : ∀ path content, fileCommand input = some (.read path) → validFsPath path = true →
    d.fs.tree.file (place path) = some content → content.length ≤ 512 → 0 ∉ content →
    done.lines = [content]

/-- A line that asks for none of the three commands. -/
theorem fileStep_of_none {d : Device ρ} {input : List UInt8} {done : Dispatched (Device ρ)}
    (hcommand : fileCommand input = none) (hr : done.device.fs.Reliable)
    (hfile : done.device.fs.tree.file = d.fs.tree.file) : FileStep d input done := by
  refine ⟨hr, ?_, fun path content h => ?_, fun path content h => ?_⟩
  · rw [hcommand, after, hcommand]
    exact hfile
  · rw [hcommand] at h
    cases h
  · rw [hcommand] at h
    cases h

theorem fileStep_write (others : DeviceServices (Device ρ)) {d : Device ρ} (hr : d.fs.Reliable)
    {input : List UInt8} (hroute : route input = .ask (.fsWrite (argument input))) :
    FileStep d input (dispatch (services others) d (some input)) := by
  obtain ⟨fs, lines, answer, hreply, hreliable, haccepts, hfile⟩ :=
    fsWrite_reliable (zero_notMem_argument input) hr
  have hdone : dispatch (services others) d (some input) =
      ⟨if answer = true then .ok else .invalid, [.fsWrite (argument input)], lines,
        { d with fs := fs }⟩ := dispatch_ask hroute hreply
  have hcommand : fileCommand input = some (.write ((argument input).takeWhile (· ≠ space))
      ((argument input).dropWhile (· ≠ space)).tail) := by rw [fileCommand, hroute]
  rw [hdone]
  refine ⟨hreliable, ?_, fun path content h => ?_, fun path content h => ?_⟩
  · rw [hcommand, hfile]
    cases answer <;> rfl
  · rw [hcommand] at h
    cases h
    have hzero : 0 ∉ ((argument input).dropWhile (· ≠ space)).tail := fun h0 =>
      zero_notMem_argument input ((List.dropWhile_suffix _).subset (List.mem_of_mem_tail h0))
    refine ⟨hzero, ?_⟩
    rw [← haccepts]
    cases answer <;> simp
  · rw [hcommand] at h
    cases h

theorem fileStep_remove (others : DeviceServices (Device ρ)) {d : Device ρ} (hr : d.fs.Reliable)
    {input : List UInt8} (hroute : route input = .ask (.fsRemove (argument input))) :
    FileStep d input (dispatch (services others) d (some input)) := by
  obtain ⟨fs, lines, answer, hreply, hreliable, hfile⟩ := fsRemove_reliable (argument input) hr
  have hdone : dispatch (services others) d (some input) =
      ⟨if answer = true then .ok else .invalid, [.fsRemove (argument input)], lines,
        { d with fs := fs }⟩ := dispatch_ask hroute hreply
  have hcommand : fileCommand input = (strstr (lit " --confirm") (argument input)).map
      fun confirm => .remove ((argument input).take confirm) := by rw [fileCommand, hroute]
  rw [hdone]
  cases hc : strstr (lit " --confirm") (argument input) with
  | none =>
    rw [hc] at hfile hcommand
    exact fileStep_of_none hcommand hreliable hfile
  | some confirm =>
    rw [hc] at hfile hcommand
    refine ⟨hreliable, ?_, fun path content h => ?_, fun path content h => ?_⟩
    · rw [hcommand, after, hcommand]
      show fs.tree.file = _
      rw [hfile]
      cases answer <;> rfl
    · rw [hcommand] at h
      cases h
    · rw [hcommand] at h
      cases h

theorem fileStep_read (others : DeviceServices (Device ρ)) {d : Device ρ} (hr : d.fs.Reliable)
    {input : List UInt8} (hroute : route input = .invoke (.fsRead (argument input))) :
    FileStep d input (dispatch (services others) d (some input)) := by
  obtain ⟨lines, hreply, hprints⟩ := fsRead_reliable (argument input) hr
  have hdone : dispatch (services others) d (some input) =
      ⟨.ok, [.fsRead (argument input)], lines, d⟩ := dispatch_invoke hroute hreply
  have hcommand : fileCommand input = some (.read (argument input)) := by rw [fileCommand, hroute]
  rw [hdone]
  refine ⟨hr, ?_, fun path content h => ?_, fun path content h => ?_⟩
  · rw [hcommand, after, hcommand]
    rfl
  · rw [hcommand] at h
    cases h
  · rw [hcommand] at h
    cases h
    exact hprints content

theorem file_step (others : DeviceServices (Device ρ)) {d : Device ρ} (hr : d.fs.Reliable)
    {input : List UInt8} (hw : word input = lit "fs-write" ∨ word input = lit "fs-remove" ∨
      word input = lit "fs-read") :
    FileStep d input (dispatch (services others) d (some input)) := by
  have hrefused : Refused input → FileStep d input (dispatch (services others) d (some input)) := by
    intro h
    obtain ⟨hdevice, -⟩ := h.dispatch_eq (services others) d
    obtain ⟨lines, status, hroute, -⟩ := h
    have hnone : fileCommand input = none := by rw [fileCommand, hroute]
    exact fileStep_of_none hnone (by rw [hdevice]; exact hr) (by rw [hdevice])
  rcases hw with hw | hw | hw
  · exact (route_asks hw rfl).elim hrefused fun h => fileStep_write others hr h.2
  · exact (route_asks hw rfl).elim hrefused fun h => fileStep_remove others hr h.2
  · exact (route_reads hw rfl).elim hrefused fun h => fileStep_read others hr h.2

/-- What the lines before have set is there as it was set. -/
def Recorded (t : Tree) (lastSet : Contents) : Prop :=
  ∀ p content, lastSet p = some content →
    t.file p = some content ∧ content.length ≤ 512 ∧ 0 ∉ content

/-- A line follows the map exactly when its upload, if it is one, meets no other file. -/
theorem FileStep.follows_iff {d : Device ρ} {input : List UInt8} {done : Dispatched (Device ρ)}
    (h : FileStep d input done) {lastSet : Contents} (hm : Recorded d.fs.tree lastSet) :
    LineFollows d lastSet input done ↔
      ∀ path content, fileCommand input = some (.write path content) →
        Uploads d.fs.tree path content →
        d.fs.tree.file (tempPlace path) = none ∧ d.fs.tree.entry (place path) ≠ some .dir := by
  have hprints : ∀ path content, fileCommand input = some (.read path) → validFsPath path = true →
      lastSet (place path) = some content → done.lines = [content] :=
    fun path content hcommand hvalid hset => by
      obtain ⟨hfile, hle, hzero⟩ := hm _ _ hset
      exact h.prints path content hcommand hvalid hfile hle hzero
  have hfile := h.file
  rw [LineFollows, and_iff_left hprints]
  split at hfile
  · next path content hcommand =>
    have haccepts := (h.accepts path content hcommand).2
    rw [hfile, after, hcommand]
    by_cases hok : done.status = .ok
    · rw [if_pos hok, decide_eq_true hok]
      constructor
      · intro heq path' content' hcommand' _
        cases hcommand'
        exact (uploaded_eq_iff _ path content).mp heq
      · intro hall
        exact (uploaded_eq_iff _ path content).mpr (hall path content rfl (haccepts.mp hok))
    · rw [if_neg hok, decide_eq_false hok]
      refine iff_of_true rfl fun path' content' hcommand' huploads => ?_
      cases hcommand'
      exact absurd (haccepts.mpr huploads) hok
  · next hother =>
    exact iff_of_true hfile fun path content hcommand => absurd hcommand (hother path content)

theorem Recorded.after {t t' : Tree} {lastSet : Contents} (hm : Recorded t lastSet)
    {input : List UInt8} {ok : Bool} (hfile : t'.file = after t.file input ok)
    (hset : ∀ path content, fileCommand input = some (.write path content) → ok = true →
      content.length ≤ 512 ∧ 0 ∉ content) : Recorded t' (after lastSet input ok) := by
  intro p content hp
  rw [hfile]
  unfold FileMap.after at hp ⊢
  cases hcommand : fileCommand input with
  | none =>
    rw [hcommand] at hp
    exact hm p content hp
  | some command =>
    rw [hcommand] at hp
    cases ok with
    | false => exact hm p content hp
    | true =>
      cases command with
      | write path c =>
        show Function.update t.file (place path) (some c) p = _ ∧ _
        replace hp : Function.update lastSet (place path) (some c) p = some content := hp
        by_cases he : p = place path
        · rw [he, Function.update_self] at hp ⊢
          cases hp
          exact ⟨rfl, hset path _ hcommand rfl⟩
        · rw [Function.update_of_ne he] at hp ⊢
          exact hm p content hp
      | remove path =>
        show Function.update t.file (place path) none p = _ ∧ _
        replace hp : Function.update lastSet (place path) none p = some content := hp
        by_cases he : p = place path
        · rw [he, Function.update_self] at hp
          cases hp
        · rw [Function.update_of_ne he] at hp ⊢
          exact hm p content hp
      | read path => exact hm p content hp

/-- From a map that records what was set before, the files follow the map through any lines exactly
when no upload meets another file. -/
theorem follows_iff (others : DeviceServices (Device ρ)) {d : Device ρ} (hr : d.fs.Reliable)
    {lastSet : Contents} (hm : Recorded d.fs.tree lastSet) {lines : List (List UInt8)}
    (hlines : ∀ input ∈ lines, word input = lit "fs-write" ∨ word input = lit "fs-remove" ∨
      word input = lit "fs-read") :
    Follows (services others) d lastSet lines ↔ Undisturbed (services others) d lines := by
  induction lines generalizing d lastSet with
  | nil => exact Iff.rfl
  | cons input lines ih =>
    have hstep := file_step others hr (hlines input List.mem_cons_self)
    rw [Follows, Undisturbed, ← hstep.follows_iff hm]
    refine and_congr_right fun hline => ?_
    refine ih hstep.reliable (hm.after hline.1 fun path content hcommand hok => ?_)
      fun x hx => hlines x (List.mem_cons_of_mem input hx)
    obtain ⟨hzero, haccepts⟩ := hstep.accepts path content hcommand
    exact ⟨(haccepts.mp (of_decide_eq_true hok)).content_le, hzero⟩

/-- The file commands implement a map exactly as long as no upload meets a file under the name of
its temporary file, or a directory at its target. -/
theorem files_follow (others : DeviceServices (Device ρ)) (d : Device ρ) (hr : d.fs.Reliable)
    (lines : List (List UInt8)) (hlines : ∀ input ∈ lines, word input = lit "fs-write" ∨
      word input = lit "fs-remove" ∨ word input = lit "fs-read") :
    Follows (services others) d (fun _ => none) lines ↔ Undisturbed (services others) d lines :=
  follows_iff others hr (fun _ _ h => by cases h) hlines

theorem files_follow_upload :
    let lines := [lit "fs-write /apps/a x", lit "fs-read /apps/./a", lit "fs-remove /apps/a --confirm"]
    Follows silentServices blank (fun _ => none) lines ↔ Undisturbed silentServices blank lines :=
  files_follow _ blank rfl _ (by decide)

/-- A device with one file, `/apps/a.tmp`. -/
def keeper : Device Unit :=
  { blank with fs := ⟨Tree.mounted.setFile [lit "littlefs", lit "apps", lit "a.tmp"] (lit "keep")
      (by decide) (by decide), []⟩ }

/-- An upload to another path loses a file. -/
theorem upload_loses_file :
    let done := dispatch silentServices keeper (some (lit "fs-write /apps/a x"))
    keeper.fs.tree.file (place (lit "/apps/a.tmp")) = some (lit "keep") ∧
    done.status = .ok ∧ done.lines = [lit "upload=complete"] ∧
    done.device.fs.tree.file (place (lit "/apps/a.tmp")) = none ∧
    ¬ Follows silentServices keeper (fun _ => none) [lit "fs-write /apps/a x"] := by
  refine ⟨by decide, by decide, by decide, by decide, fun h => ?_⟩
  have hfile := congrFun h.1.1 (place (lit "/apps/a.tmp"))
  exact absurd hfile (by decide)

end Esp32Shell.Idf.FileMap
