import Esp32Shell.Idf.FileConfinement

/-!
# Confirmed removals

`fs-remove` of the Arduino image beside that of the ESP-IDF image. Both look for
the first ` --confirm`; only the ESP-IDF image looks at what follows it.
-/
namespace Esp32Shell.Arduino.FileRemoval

open Esp32Shell.Library.CText
open Shell.CommandCore Storage.LittleFs

variable {σ ρ : Type}

def maxPathLength : Nat := 64

/-- `FilesystemPolicy::validPath`. -/
def validPath (path : Text) : Bool :=
  byteAt path 0 == slash && decide (path.length ≤ maxPathLength) && (strstr (lit "..") path).isNone &&
    (strstr (lit "//") path).isNone

/-- `Esp32Services::fsRemove`, where `LittleFS` takes the paths from its own root. -/
def fsRemove (arguments : Text) (fs : FileSystem) : Reply FileSystem :=
  match strstr (lit " --confirm") arguments with
  | none => ⟨fs, [lit "error: fs-remove requires --confirm"], false⟩
  | some separator =>
    if separator > maxPathLength then ⟨fs, [lit "error: path is too long"], false⟩
    else
      let path := arguments.take separator
      if ¬ validPath path then ⟨fs, [lit "error: remove failed"], false⟩
      else
        let removed := fs.remove (resolve path)
        ⟨removed.2, [if removed.1 then lit "file removed" else lit "error: remove failed"], removed.1⟩

/-- The file is there before and gone after. -/
def Removes (before after : FileSystem) (p : Path) : Prop :=
  before.tree.file p ≠ none ∧ after.tree.file p = none

/-- A device loses only the file that is named by all that stands in front of a confirmation at the very
end. -/
def Confirmed (files : σ → FileSystem) (names : Text → Path) (command : Text → σ → Reply σ)
    (arguments : Text) : Prop :=
  ∀ d p, Removes (files d) (files (command arguments d).device) p →
    ∃ path, arguments = path ++ lit " --confirm" ∧ p = names path

/-- The Arduino image can remove something, and more follows the first confirmation. -/
def Trailed (arguments : Text) : Prop :=
  ∃ path rest, arguments = path ++ lit " --confirm" ++ rest ∧ rest ≠ [] ∧
    strstr (lit " --confirm") arguments = some path.length ∧ validPath path = true ∧ resolve path ≠ []

/-! ### The Arduino image -/

theorem validPath_length {path : Text} (h : validPath path = true) : path.length ≤ maxPathLength := by
  simp only [validPath, Bool.and_eq_true, decide_eq_true_eq] at h
  exact h.1.1.2

theorem fsRemove_of_valid {path rest : Text} (fs : FileSystem) (hvalid : validPath path = true)
    (hc : strstr (lit " --confirm") (path ++ lit " --confirm" ++ rest) = some path.length) :
    (fsRemove (path ++ lit " --confirm" ++ rest) fs).device = (fs.remove (resolve path)).2 := by
  have hshort : ¬ path.length > maxPathLength := Nat.not_lt.mpr (validPath_length hvalid)
  have hpath : (path ++ lit " --confirm" ++ rest).take path.length = path := by
    rw [List.append_assoc, List.take_left]
  simp only [fsRemove, hc, if_neg hshort, hpath, hvalid, not_true, if_false]

/-- All that the Arduino image can do to the files. -/
theorem fsRemove_cases (arguments : Text) (fs : FileSystem) :
    (fsRemove arguments fs).device = fs ∨
    ∃ path rest, arguments = path ++ lit " --confirm" ++ rest ∧
      strstr (lit " --confirm") arguments = some path.length ∧ validPath path = true ∧
      (fsRemove arguments fs).device = (fs.remove (resolve path)).2 := by
  cases hc : strstr (lit " --confirm") arguments with
  | none =>
    left
    simp only [fsRemove, hc]
  | some separator =>
    obtain ⟨path, rest, rfl, rfl⟩ := exists_cut_of_strstr hc
    by_cases hvalid : validPath path = true
    · exact .inr ⟨path, rest, rfl, rfl, hvalid, fsRemove_of_valid fs hvalid hc⟩
    · left
      have hpath : (path ++ lit " --confirm" ++ rest).take path.length = path := by
        rw [List.append_assoc, List.take_left]
      simp only [fsRemove, hc, hpath, if_pos hvalid]
      split <;> rfl

/-- What is gone after `remove` is the file that it was asked for. -/
theorem removed_path {fs : FileSystem} {p q : Path} (h : Removes fs (fs.remove q).2 p) : p = q := by
  apply FileSystem.eq_of_remove
  rw [h.2]
  exact h.1.symm

theorem not_removes_self {fs : FileSystem} {p : Path} : ¬ Removes fs fs p := fun h => h.1 h.2

/-- More text with a space in it names another file. -/
theorem resolve_ne_of_space (path : Text) {more : Text} (h : space ∈ more) :
    resolve (path ++ more) ≠ resolve path := by
  intro he
  have hcount := congrArg (fun p : Path => p.flatten.count space) he
  have hpos := List.count_pos_iff.mpr h
  simp only [count_resolve (b := space) (by decide) (by decide), List.count_append] at hcount
  omega

theorem confirmed_of_not_trailed {arguments : Text} (h : ¬ Trailed arguments) :
    Confirmed id resolve fsRemove arguments := by
  intro fs p hremoves
  obtain hsame | ⟨path, rest, harguments, hc, hvalid, hremove⟩ := fsRemove_cases arguments fs
  · rw [hsame] at hremoves
    exact absurd hremoves not_removes_self
  rw [hremove] at hremoves
  by_cases hrest : rest = []
  · exact ⟨path, by rw [harguments, hrest, List.append_nil], removed_path hremoves⟩
  · -- a path that can still be removed here is that of the root, and the root is a directory
    have hroot : resolve path = [] := by
      by_contra hne
      exact h ⟨path, rest, harguments, hrest, hc, hvalid, hne⟩
    have hdir : fs.tree.entry (resolve path) = some .dir := by rw [hroot, fs.tree.root]
    have hkept := FileSystem.remove_dir hdir
    have hgone : fs.tree.file p = none := hkept ▸ hremoves.2
    exact absurd hgone hremoves.1

/-- A confirmation at the very end, where more follows the first one, stands behind a longer path. -/
theorem exists_more {path rest longer : Text} (hrest : rest ≠ [])
    (h : path ++ lit " --confirm" ++ rest = longer ++ lit " --confirm") :
    ∃ more, longer = path ++ more ∧ space ∈ more := by
  have hpos := List.length_pos_iff.mpr hrest
  have hlength := congrArg List.length h
  rw [List.length_append, List.length_append, List.length_append] at hlength
  rw [List.append_assoc] at h
  obtain ⟨more, hlonger, hmore⟩ | ⟨more, hpath, -⟩ := List.append_eq_append_iff.mp h
  · refine ⟨more, hlonger, ?_⟩
    cases more with
    | nil =>
      rw [hlonger, List.append_nil] at hlength
      omega
    | cons c more =>
      have hc : space = c := (List.cons_eq_cons.mp hmore).1
      rw [hc]
      exact List.mem_cons_self
  · rw [hpath, List.length_append] at hlength
    omega

theorem not_trailed_of_confirmed {arguments : Text} (h : Confirmed id resolve fsRemove arguments) :
    ¬ Trailed arguments := by
  intro htrailed
  obtain ⟨path, rest, rfl, hrest, hc, hvalid, hne⟩ := htrailed
  let fs : FileSystem := ⟨.lone (resolve path) [] hne, []⟩
  have hfile : fs.tree.file (resolve path) = some [] := Tree.file_lone [] hne
  have hgone : (fsRemove (path ++ lit " --confirm" ++ rest) fs).device.tree.file (resolve path) = none := by
    rw [fsRemove_of_valid fs hvalid hc]
    exact FileSystem.remove_file rfl hfile
  have hthere : fs.tree.file (resolve path) ≠ none := by simp [hfile]
  obtain ⟨longer, harguments, hlonger⟩ := h fs (resolve path) ⟨hthere, hgone⟩
  obtain ⟨more, rfl, hspace⟩ := exists_more hrest harguments
  exact resolve_ne_of_space path hspace hlonger.symm

/-! ### The ESP-IDF image -/

theorem confirmed_idf {arguments : Text} (h0 : 0 ∉ arguments) :
    Confirmed Idf.CommandServices.Device.fs (fun path => resolve (lit "/littlefs" ++ path))
      (Idf.CommandServices.fsRemove (ρ := ρ)) arguments := by
  intro d p hremoves
  rw [Idf.FileCalls.fsRemove_eq, Idf.FileCalls.fsRemove] at hremoves
  cases hcheck : Idf.FileCalls.checkRemove arguments with
  | error line =>
    rw [hcheck] at hremoves
    exact absurd hremoves not_removes_self
  | ok path =>
    rw [hcheck] at hremoves
    obtain ⟨rest, harguments, -, -, rfl⟩ := (Idf.FileConfinement.checkRemove_eq_ok_iff h0).mp hcheck
    exact ⟨lit "/apps/" ++ rest, harguments, removed_path hremoves⟩

/-! ### Both images -/

/-- On both images a file is removed only under a confirmation at the very end, and it is the file named in
front of it, exactly when nothing follows the first confirmation of a path that the Arduino image takes. -/
theorem confirmed_iff_not_trailed (arguments : Text) (h0 : 0 ∉ arguments) :
    (Confirmed id resolve fsRemove arguments ∧
      Confirmed Idf.CommandServices.Device.fs (fun path => resolve (lit "/littlefs" ++ path))
        (Idf.CommandServices.fsRemove (ρ := ρ)) arguments) ↔ ¬ Trailed arguments := by
  constructor
  · intro h
    exact not_trailed_of_confirmed h.1
  · intro h
    exact ⟨confirmed_of_not_trailed h, confirmed_idf h0⟩

theorem confirmed_app :
    Confirmed id resolve fsRemove (lit "/apps/a --confirm") ∧
    Confirmed Idf.CommandServices.Device.fs (fun path => resolve (lit "/littlefs" ++ path))
      (Idf.CommandServices.fsRemove (ρ := Unit)) (lit "/apps/a --confirm") := by
  refine (confirmed_iff_not_trailed (lit "/apps/a --confirm") (by decide)).mpr fun h => ?_
  obtain ⟨path, rest, harguments, hrest, hc, -⟩ := h
  have hfound : strstr (lit " --confirm") (lit "/apps/a --confirm") = some 7 := by decide
  have hpath : path.length = 7 := Option.some_inj.mp (hc.symm.trans hfound)
  have hlength := congrArg List.length harguments
  rw [List.length_append, List.length_append, hpath] at hlength
  exact hrest (List.length_eq_zero_iff.mp (Nat.add_left_cancel hlength).symm)

/-- A file system with the one file `/a`. -/
def oneFile : FileSystem := ⟨.lone [lit "a"] (lit "x") (by decide), []⟩

/-- The Arduino image takes a longer word for the confirmation. -/
theorem removed_unconfirmed :
    route (lit "fs-remove /a --confirmed") = .ask (.fsRemove (lit "/a --confirmed")) ∧
    Removes oneFile (fsRemove (lit "/a --confirmed") oneFile).device [lit "a"] ∧
    ¬ ∀ arguments, 0 ∉ arguments → Confirmed id resolve fsRemove arguments ∧
      Confirmed Idf.CommandServices.Device.fs (fun path => resolve (lit "/littlefs" ++ path))
        (Idf.CommandServices.fsRemove (ρ := Unit)) arguments := by
  have hremoves : Removes oneFile (fsRemove (lit "/a --confirmed") oneFile).device [lit "a"] :=
    ⟨by decide, by decide⟩
  refine ⟨rfl, hremoves, fun h => ?_⟩
  obtain ⟨path, harguments, -⟩ := (h (lit "/a --confirmed") (by decide)).1 oneFile _ hremoves
  have hconfirm : lit " --confirm" <:+ lit "/a --confirmed" := ⟨path, harguments.symm⟩
  exact absurd hconfirm (by decide)

end Esp32Shell.Arduino.FileRemoval
