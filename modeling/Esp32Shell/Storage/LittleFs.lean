import Esp32Shell.Library.CText
import Mathlib.Logic.Function.Basic

/-!
# The file system

A tree of directories and regular files under resolved paths, and the calls of
the C library on it. The calls that can fail take their outcome from a list, and
succeed when none is left, as far as the tree allows; apart from a short write,
a failed call changes nothing.
-/
namespace Esp32Shell.Storage.LittleFs

open Esp32Shell.Library.CText

abbrev Path := List Text

def slash : UInt8 := 47

/-- Empty and `.` segments name nothing. -/
def isNamed (segment : Text) : Bool := segment != [] && segment != lit "."

/-- The segments of a path. A `..` segment is not resolved: no caller lets one through. -/
def resolve (path : Text) : Path := (path.splitOn slash).filter isNamed

/-- The last segment of a path, where it names something, is the last of the resolved path. -/
theorem resolve_cut (front : Text) {last : Text} (h : slash ∉ last) :
    resolve (front ++ slash :: last) = resolve front ++ if isNamed last then [last] else [] := by
  rw [resolve, List.splitOn_append_cons_self, List.splitOn_eq_singleton h, List.filter_append,
    ← resolve]
  by_cases hn : isNamed last <;> simp [hn]

theorem exists_last_segment {path : Text} (h : slash ∈ path) :
    ∃ front last, path = front ++ slash :: last ∧ slash ∉ last := by
  obtain ⟨pre, post, hsplit, hpre⟩ := List.eq_append_cons_of_mem (List.mem_reverse.mpr h)
  refine ⟨post.reverse, pre.reverse, ?_, fun hm => hpre (List.mem_reverse.mp hm)⟩
  rw [← List.reverse_reverse path, hsplit]
  simp

/-- Resolving drops separators and dots alone. -/
theorem count_resolve {b : UInt8} (hslash : b ≠ slash) (hdot : b ∉ lit ".") (path : Text) :
    (resolve path).flatten.count b = path.count b := by
  have hsegment : ∀ segment, ([segment].filter isNamed).flatten.count b = segment.count b := by
    intro segment
    by_cases hn : isNamed segment = true
    · simp [hn]
    · have hb : b ∉ segment := by
        simp only [isNamed, Bool.and_eq_true, bne_iff_ne, not_and_or, not_not] at hn
        rcases hn with rfl | rfl
        · exact List.not_mem_nil
        · exact hdot
      simp [hn, List.count_eq_zero_of_not_mem hb]
  rw [resolve]
  induction path using cut_induction slash with
  | whole path h => rw [List.splitOn_eq_singleton h, hsegment]
  | cut pre post hpre ih =>
    rw [splitOn_cut hpre, ← List.singleton_append, List.filter_append, List.flatten_append,
      List.count_append, hsegment, ih, List.count_append, List.count_cons_of_ne hslash.symm]

inductive Node where
  | file (content : List UInt8)
  | dir
  deriving DecidableEq

/-- Every entry stands in a directory. -/
structure Tree where
  entry : Path → Option Node
  root : entry [] = some .dir
  closed : ∀ p, p ≠ [] → entry p ≠ none → entry p.dropLast = some .dir

namespace Tree

/-- The regular files. -/
def file (t : Tree) (p : Path) : Option (List UInt8) :=
  match t.entry p with
  | some (.file content) => some content
  | _ => none

theorem file_eq_some_iff {t : Tree} {p : Path} {content : List UInt8} :
    t.file p = some content ↔ t.entry p = some (.file content) := by
  unfold file
  cases t.entry p with
  | none => simp
  | some node => cases node <;> simp

theorem dropLast_ne {p : Path} (h : p ≠ []) : p.dropLast ≠ p := by
  intro he
  have hl := congrArg List.length he
  have hpos := List.length_pos_iff.mpr h
  rw [List.length_dropLast] at hl
  omega

/-- The entry at a path that is no directory, inside a directory. -/
def setFile (t : Tree) (p : Path) (content : List UInt8) (hp : t.entry p ≠ some .dir)
    (hparent : t.entry p.dropLast = some .dir) : Tree where
  entry := Function.update t.entry p (some (.file content))
  root := by
    have hne : [] ≠ p := fun he => hp (he ▸ t.root)
    rw [Function.update_of_ne hne, t.root]
  closed q hq h := by
    have hne : p ≠ [] := fun he => hp (he ▸ t.root)
    by_cases hqp : q = p
    · rw [hqp, Function.update_of_ne (dropLast_ne hne), hparent]
    · rw [Function.update_of_ne hqp] at h
      have hdir := t.closed q hq h
      have hne' : q.dropLast ≠ p := fun he => hp (by rw [← he, hdir])
      rw [Function.update_of_ne hne', hdir]

def removeFile (t : Tree) (p : Path) (hp : t.entry p ≠ some .dir) : Tree where
  entry := Function.update t.entry p none
  root := by
    have hne : [] ≠ p := fun he => hp (he ▸ t.root)
    rw [Function.update_of_ne hne, t.root]
  closed q hq h := by
    by_cases hqp : q = p
    · rw [hqp, Function.update_self] at h
      exact absurd rfl h
    · rw [Function.update_of_ne hqp] at h
      have hdir := t.closed q hq h
      have hne' : q.dropLast ≠ p := fun he => hp (by rw [← he, hdir])
      rw [Function.update_of_ne hne', hdir]

@[simp] theorem entry_setFile (t : Tree) (p : Path) (content : List UInt8)
    (hp : t.entry p ≠ some .dir) (hparent : t.entry p.dropLast = some .dir) :
    (t.setFile p content hp hparent).entry = Function.update t.entry p (some (.file content)) := rfl

/-- Writing a file leaves every directory a directory, and makes none. -/
theorem setFile_dir_iff (t : Tree) {p : Path} (content : List UInt8) (hp : t.entry p ≠ some .dir)
    (hparent : t.entry p.dropLast = some .dir) (q : Path) :
    (t.setFile p content hp hparent).entry q = some .dir ↔ t.entry q = some .dir := by
  by_cases hq : q = p
  · rw [hq, entry_setFile, Function.update_self]
    simp [hp]
  · rw [entry_setFile, Function.update_of_ne hq]

theorem file_setFile (t : Tree) (p : Path) (content : List UInt8) (hp : t.entry p ≠ some .dir)
    (hparent : t.entry p.dropLast = some .dir) :
    (t.setFile p content hp hparent).file = Function.update t.file p (some content) := by
  funext q
  by_cases hq : q = p
  · simp [file, setFile, hq]
  · simp [file, setFile, hq]

theorem file_removeFile (t : Tree) (p : Path) (hp : t.entry p ≠ some .dir) :
    (t.removeFile p hp).file = Function.update t.file p none := by
  funext q
  by_cases hq : q = p
  · simp [file, removeFile, hq]
  · simp [file, removeFile, hq]

/-- The file at `old` under another name, over a file that has it. -/
def moveFile (t : Tree) {old : Path} {content : List UInt8}
    (hold : t.entry old = some (.file content)) (new : Path) (hnew : t.entry new ≠ some .dir)
    (hparent : t.entry new.dropLast = some .dir) : Tree :=
  have hfile : t.entry old ≠ some .dir := by simp [hold]
  have hnew' : (t.removeFile old hfile).entry new ≠ some .dir := by
    by_cases he : new = old
    · simp [removeFile, he]
    · simpa [removeFile, Function.update_of_ne he] using hnew
  have hparent' : (t.removeFile old hfile).entry new.dropLast = some .dir := by
    have hne : new.dropLast ≠ old := fun he => hfile (by rw [← he, hparent])
    simpa [removeFile, Function.update_of_ne hne] using hparent
  (t.removeFile old hfile).setFile new content hnew' hparent'

theorem file_moveFile (t : Tree) {old : Path} {content : List UInt8}
    (hold : t.entry old = some (.file content)) (new : Path) (hnew : t.entry new ≠ some .dir)
    (hparent : t.entry new.dropLast = some .dir) :
    (t.moveFile hold new hnew hparent).file =
      Function.update (Function.update t.file old none) new (some content) := by
  rw [moveFile, file_setFile, file_removeFile]

/-- One file, in the directories that lead to it. -/
def lone (p : Path) (content : List UInt8) (hp : p ≠ []) : Tree where
  entry q := if q = p then some (.file content) else if q <+: p then some .dir else none
  root := by rw [if_neg hp.symm, if_pos List.nil_prefix]
  closed q hq h := by
    have hbegins : q <+: p := by
      by_contra hnot
      have hne : q ≠ p := fun he => hnot (he ▸ List.prefix_rfl)
      rw [if_neg hne, if_neg hnot] at h
      exact h rfl
    have hparent : q.dropLast <+: p := (List.dropLast_prefix q).trans hbegins
    have hne : q.dropLast ≠ p := by
      intro he
      have hle := hbegins.length_le
      have hpos := List.length_pos_iff.mpr hq
      rw [← he, List.length_dropLast] at hle
      omega
    rw [if_neg hne, if_pos hparent]

theorem file_lone {p : Path} (content : List UInt8) (hp : p ≠ []) : (lone p content hp).file p = some content := by
  simp [file, lone]

/-- The mounted file system with `/littlefs/apps` and no files. -/
def mounted : Tree where
  entry p := if p ∈ [[], [lit "littlefs"], [lit "littlefs", lit "apps"]] then some .dir else none
  root := rfl
  closed p hp h := by
    have hdirs : ∀ q ∈ [[], [lit "littlefs"], [lit "littlefs", lit "apps"]],
        q.dropLast ∈ [[], [lit "littlefs"], [lit "littlefs", lit "apps"]] := by decide
    by_cases hq : p ∈ [[], [lit "littlefs"], [lit "littlefs", lit "apps"]]
    · rw [if_pos (hdirs p hq)]
    · rw [if_neg hq] at h
      exact absurd rfl h

end Tree

structure FileSystem where
  tree : Tree
  /-- The outcomes of the next calls; `some k` is a failure, of a write after `k` bytes. -/
  results : List (Option Nat)

namespace FileSystem

def Reliable (fs : FileSystem) : Prop := fs.results = []

def outcome (fs : FileSystem) : Option Nat := fs.results.headD none

/-- A call that leaves the tree as it is. -/
def spent (fs : FileSystem) : FileSystem := ⟨fs.tree, fs.results.tail⟩

/-- `fopen(path, "wb")`. -/
def fopenWb (fs : FileSystem) (p : Path) : Bool × FileSystem :=
  if h : fs.outcome = none ∧ fs.tree.entry p ≠ some .dir ∧ fs.tree.entry p.dropLast = some .dir then
    (true, ⟨fs.tree.setFile p [] h.2.1 h.2.2, fs.results.tail⟩)
  else (false, fs.spent)

/-- `fwrite` to the end of an open file, as the number of bytes written. -/
def fwrite (fs : FileSystem) (p : Path) (bytes : List UInt8) : Nat × FileSystem :=
  let written := match fs.outcome with
    | none => bytes
    | some k => bytes.take k
  if h : fs.tree.entry p ≠ some .dir ∧ fs.tree.entry p.dropLast = some .dir then
    (written.length,
      ⟨fs.tree.setFile p ((fs.tree.file p).getD [] ++ written) h.1 h.2, fs.results.tail⟩)
  else (0, fs.spent)

/-- `fflush`. -/
def fflush (fs : FileSystem) : Bool × FileSystem := (fs.outcome.isNone, fs.spent)

/-- `remove` of a regular file. -/
def remove (fs : FileSystem) (p : Path) : Bool × FileSystem :=
  if h : fs.outcome = none ∧ fs.tree.entry p ≠ none ∧ fs.tree.entry p ≠ some .dir then
    (true, ⟨fs.tree.removeFile p h.2.2, fs.results.tail⟩)
  else (false, fs.spent)

/-- `rename` of a regular file, to a new name or over a regular file. -/
def rename (fs : FileSystem) (old new : Path) : Bool × FileSystem :=
  match hold : fs.tree.entry old with
  | some (.file _) =>
    if h : fs.outcome = none ∧ fs.tree.entry new ≠ some .dir ∧
        fs.tree.entry new.dropLast = some .dir then
      (true, ⟨fs.tree.moveFile hold new h.2.1 h.2.2, fs.results.tail⟩)
    else (false, fs.spent)
  | _ => (false, fs.spent)

/-- `fopen(path, "rb")` of a regular file, with all that can be read from it. -/
def fopenRb (fs : FileSystem) (p : Path) : Option (List UInt8) × FileSystem :=
  (if fs.outcome = none then fs.tree.file p else none, fs.spent)

variable {fs : FileSystem} {p old new : Path}

theorem fopenWb_reliable (hr : fs.Reliable) (hp : fs.tree.entry p ≠ some .dir)
    (hparent : fs.tree.entry p.dropLast = some .dir) :
    fs.fopenWb p = (true, ⟨fs.tree.setFile p [] hp hparent, []⟩) := by
  obtain ⟨tree, results⟩ := fs
  obtain rfl : results = [] := hr
  exact dif_pos ⟨rfl, hp, hparent⟩

theorem fopenWb_fails (hr : fs.Reliable)
    (h : ¬ (fs.tree.entry p ≠ some .dir ∧ fs.tree.entry p.dropLast = some .dir)) :
    fs.fopenWb p = (false, fs) := by
  obtain ⟨tree, results⟩ := fs
  obtain rfl : results = [] := hr
  exact dif_neg fun hall => h hall.2

theorem fwrite_reliable (hr : fs.Reliable) (bytes : List UInt8) (hp : fs.tree.entry p ≠ some .dir)
    (hparent : fs.tree.entry p.dropLast = some .dir) : ∃ m, fs.fwrite p bytes = (bytes.length, m) ∧
      m.Reliable ∧ m.tree = fs.tree.setFile p ((fs.tree.file p).getD [] ++ bytes) hp hparent := by
  obtain ⟨tree, results⟩ := fs
  obtain rfl : results = [] := hr
  exact ⟨_, dif_pos ⟨hp, hparent⟩, rfl, rfl⟩

theorem fflush_reliable (hr : fs.Reliable) : fs.fflush = (true, fs) := by
  obtain ⟨tree, results⟩ := fs
  obtain rfl : results = [] := hr
  rfl

theorem rename_reliable (hr : fs.Reliable) {content : List UInt8}
    (hold : fs.tree.entry old = some (.file content)) (hnew : fs.tree.entry new ≠ some .dir)
    (hparent : fs.tree.entry new.dropLast = some .dir) :
    fs.rename old new = (true, ⟨fs.tree.moveFile hold new hnew hparent, []⟩) := by
  obtain ⟨tree, results⟩ := fs
  obtain rfl : results = [] := hr
  unfold rename
  split
  · next content' hold' =>
    obtain rfl : content' = content := by
      have he := hold'.symm.trans hold
      cases he
      rfl
    exact dif_pos ⟨rfl, hnew, hparent⟩
  · next hnot => exact absurd hold (hnot content)

theorem rename_dir (hr : fs.Reliable) (hnew : fs.tree.entry new = some .dir) :
    fs.rename old new = (false, fs) := by
  obtain ⟨tree, results⟩ := fs
  obtain rfl : results = [] := hr
  unfold rename
  split
  · exact dif_neg fun hall => hall.2.1 hnew
  · rfl

/-- A reliable `remove` removes the file, and fails where there is none. -/
theorem remove_reliable (hr : fs.Reliable) (p : Path) :
    (fs.remove p).2.Reliable ∧ (fs.remove p).2.tree.file =
      if (fs.remove p).1 then Function.update fs.tree.file p none else fs.tree.file := by
  obtain ⟨tree, results⟩ := fs
  obtain rfl : results = [] := hr
  unfold remove
  split
  · next h => exact ⟨rfl, by rw [if_pos rfl, Tree.file_removeFile]⟩
  · exact ⟨rfl, rfl⟩

/-- `remove` takes at most the file away that it is asked for. -/
theorem eq_of_remove {q : Path} (h : (fs.remove p).2.tree.file q ≠ fs.tree.file q) : q = p := by
  by_contra hne
  apply h
  unfold remove
  split
  · next hall =>
    show (fs.tree.removeFile p hall.2.2).file q = fs.tree.file q
    rw [Tree.file_removeFile, Function.update_of_ne hne]
  · rfl

/-- A regular file can be removed. -/
theorem remove_file (hr : fs.Reliable) {content : List UInt8} (h : fs.tree.file p = some content) :
    (fs.remove p).2.tree.file p = none := by
  have hentry := Tree.file_eq_some_iff.mp h
  have hall : fs.outcome = none ∧ fs.tree.entry p ≠ none ∧ fs.tree.entry p ≠ some .dir := by
    obtain ⟨tree, results⟩ := fs
    obtain rfl : results = [] := hr
    rw [hentry]
    exact ⟨rfl, by simp, by simp⟩
  have hremoved : (fs.remove p).1 = true := by rw [remove, dif_pos hall]
  rw [(remove_reliable hr p).2, if_pos hremoved, Function.update_self]

theorem remove_dir (h : fs.tree.entry p = some .dir) : (fs.remove p).2.tree = fs.tree := by
  unfold remove
  rw [dif_neg fun hall => hall.2.2 h]
  rfl

theorem fopenRb_reliable (hr : fs.Reliable) (p : Path) : fs.fopenRb p = (fs.tree.file p, fs) := by
  obtain ⟨tree, results⟩ := fs
  obtain rfl : results = [] := hr
  rfl

end FileSystem

end Esp32Shell.Storage.LittleFs
