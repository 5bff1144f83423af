import Esp32Shell.Arduino.FileMap
import Esp32Shell.Arduino.Secrecy
import Esp32Shell.Idf.SshLifetime

/-!
# One file system under both images

Both images mount the same partition, the Arduino image as its root and the
ESP-IDF image under `/littlefs`. The files are followed through any lines and
any restarts into either image.
-/
namespace Esp32Shell.Handover.Files

open Esp32Shell.Library.CText
open Shell.CommandCore Shell.CommandTable Shell.CommandLines
open Storage.LittleFs
open Arduino.FileRemoval (validPath)
open Arduino.Sketch (sketch)
open Idf.CommandServices (validFsPath)
open Idf.Firmware (firmware)
open Idf.FileMap (Contents FileCommand fileCommand place tempPlace Uploads uploaded uploaded_eq_iff)
open Idf.LineFrame (ofFiles ofConfiguration)

/-! ### The mount -/

def littlefs : Text := lit "littlefs"

/-- The partition in the tree of the ESP-IDF image. -/
def mount (t : Tree) : Tree where
  entry
    | [] => some .dir
    | segment :: p => if segment = littlefs then t.entry p else none
  root := rfl
  closed p hp h := by
    cases p with
    | nil => exact absurd rfl hp
    | cons segment p =>
      have hsegment : segment = littlefs := by
        by_contra hne
        exact h (if_neg hne)
      subst hsegment
      have hentry : t.entry p ≠ none := by simpa using h
      cases p with
      | nil => rfl
      | cons next p => simpa using t.closed (next :: p) (List.cons_ne_nil _ _) hentry

/-- What the tree of the ESP-IDF image has of the partition. -/
def partition (t : Tree) : Tree where
  entry p := if p = [] then some .dir else t.entry (littlefs :: p)
  root := if_pos rfl
  closed p hp h := by
    rw [if_neg hp] at h
    have hdir := t.closed (littlefs :: p) (List.cons_ne_nil _ _) h
    rw [List.dropLast_cons_of_ne_nil hp] at hdir
    split
    · rfl
    · exact hdir

/-- A map of the whole tree, seen from the partition. -/
def beneath (m : Contents) : Contents := fun p => if p = [] then none else m (littlefs :: p)

theorem file_partition (t : Tree) : (partition t).file = beneath t.file := by
  funext p
  by_cases hp : p = [] <;> simp [Tree.file, partition, beneath, hp]

theorem file_root (t : Tree) : t.file [] = none := by
  simp [Tree.file, t.root]

theorem file_partition_mount (t : Tree) : (partition (mount t)).file = t.file := by
  funext p
  rw [file_partition, beneath]
  by_cases hp : p = []
  · rw [if_pos hp, hp, file_root]
  · rw [if_neg hp]
    simp [Tree.file, mount]

theorem beneath_update (m : Contents) (p : Path) (placed : Option (List UInt8)) (h : p = [] → placed = none) :
    beneath (Function.update m (littlefs :: p) placed) = Function.update (beneath m) p placed := by
  funext q
  by_cases hq : q = p
  · subst hq
    rw [Function.update_self, beneath]
    split
    next hnil => exact (h hnil).symm
    next => exact Function.update_self ..
  · rw [Function.update_of_ne hq, beneath, beneath, Function.update_of_ne (by simpa using hq)]

/-- Maps that agree elsewhere are the same when they are the same from the partition. -/
theorem beneath_eq_iff {m m' : Contents} (h : ∀ p, (∀ q, q ≠ [] → p ≠ littlefs :: q) → m p = m' p) :
    beneath m = beneath m' ↔ m = m' := by
  constructor
  · intro heq
    funext p
    by_cases hp : ∃ q, q ≠ [] ∧ p = littlefs :: q
    · obtain ⟨q, hq, rfl⟩ := hp
      have hthere := congrFun heq q
      simpa only [beneath, if_neg hq] using hthere
    · exact h p fun q hq hpq => hp ⟨q, hq, hpq⟩
  · intro heq
    rw [heq]

/-- An absolute path names a place under the mount. -/
theorem place_eq {path : Text} (h : byteAt path 0 = slash) : place path = littlefs :: resolve path := by
  cases path with
  | nil => exact absurd h (by decide)
  | cons first rest =>
    have hfirst : first = slash := h
    subst hfirst
    have hroot : lit "/littlefs" ++ slash :: rest = [] ++ slash :: (littlefs ++ slash :: rest) := rfl
    have hname : slash ∉ littlefs := by decide
    have hnone : slash ∉ ([] : Text) := List.not_mem_nil
    have hrest : resolve (slash :: rest) = (rest.splitOn slash).filter isNamed := by
      rw [← List.nil_append (slash :: rest), resolve, splitOn_cut hnone]
      rfl
    rw [hrest, place, resolve, hroot, splitOn_cut hnone, splitOn_cut hname]
    rfl

theorem byteAt_of_valid {path : Text} (h : validPath path = true) : byteAt path 0 = slash := by
  simp only [validPath, Bool.and_eq_true, beq_iff_eq] at h
  exact h.1.1.1

theorem resolve_apps (rest : Text) : resolve (lit "/apps/" ++ rest) = lit "apps" :: resolve rest := by
  have hname : slash ∉ lit "apps" := by decide
  have hnone : slash ∉ ([] : Text) := List.not_mem_nil
  have hpath : lit "/apps/" ++ rest = [] ++ slash :: (lit "apps" ++ slash :: rest) := rfl
  rw [hpath, resolve, splitOn_cut hnone, splitOn_cut hname]
  rfl

/-- What an upload touches is below the mount. -/
theorem upload_places {path content : Text} (h : Idf.FileMap.Acceptable path content) :
    place path = littlefs :: resolve path ∧ resolve path ≠ [] ∧
      ∃ q, q ≠ [] ∧ tempPlace path = littlefs :: q := by
  obtain ⟨rest, rfl⟩ := Idf.FileConfinement.exists_rest h.apps
  refine ⟨place_eq rfl, by simp [resolve_apps], resolve (lit "/apps/" ++ (rest ++ lit ".tmp")),
    by simp [resolve_apps], ?_⟩
  rw [tempPlace, List.append_assoc, place_eq rfl]

/-! ### What a line means -/

/-- The files of the partition after a command that reported success. -/
def change (m : Contents) : FileCommand → Contents
  | .write path content => Function.update m (resolve path) (some content)
  | .remove path => Function.update m (resolve path) none
  | .read _ => m

/-- The files after a line that was answered with or without success. -/
def changed (m : Contents) (input : List UInt8) (ok : Bool) : Contents :=
  match fileCommand input with
  | some command => if ok then change m command else m
  | none => m

/-- What a line comes to on either image: `takes` says which uploads succeed, and `left` what a
successful one leaves. -/
structure LineStep (files files' : Contents) (input : List UInt8) (ok : Bool) (lines : List Text)
    (takes : Text → Text → Prop) (left : Text → Text → Contents) : Prop where
  file : files' = match fileCommand input with
    | some (.write path content) => if ok then left path content else files
    | _ => changed files input ok
  accepts : ∀ path content, fileCommand input = some (.write path content) →
    0 ∉ content ∧ (takes path content → content.length ≤ 512) ∧ (ok = true ↔ takes path content)
  prints : ∀ path content, fileCommand input = some (.read path) → validPath path = true →
    files (resolve path) = some content → content.length ≤ 512 → 0 ∉ content → lines = [content]

/-- A line follows the map, and prints a file that the lines before it have set as it was set. -/
def LineFollows (files files' lastSet : Contents) (input : List UInt8) (ok : Bool) (lines : List Text) :
    Prop :=
  files' = changed files input ok ∧
  ∀ path content, fileCommand input = some (.read path) → validPath path = true →
    lastSet (resolve path) = some content → lines = [content]

/-- What the lines before have set is there as it was set. -/
def Recorded (files lastSet : Contents) : Prop :=
  ∀ p content, lastSet p = some content → files p = some content ∧ content.length ≤ 512 ∧ 0 ∉ content

section
variable {files files' lastSet : Contents} {input : List UInt8} {ok : Bool} {lines : List Text}
variable {takes : Text → Text → Prop} {left : Text → Text → Contents}

/-- A line that asks for none of the three commands. -/
theorem lineStep_of_none (hcommand : fileCommand input = none) (hfiles : files' = files) :
    LineStep files files' input ok lines takes left := by
  refine ⟨?_, fun path content h => ?_, fun path content h => ?_⟩
  · rw [hcommand, changed, hcommand]
    exact hfiles
  · rw [hcommand] at h
    cases h
  · rw [hcommand] at h
    cases h

theorem LineStep.follows_iff (h : LineStep files files' input ok lines takes left)
    (hm : Recorded files lastSet) :
    LineFollows files files' lastSet input ok lines ↔
      ∀ path content, fileCommand input = some (.write path content) → takes path content →
        left path content = Function.update files (resolve path) (some content) := by
  have hprints : ∀ path content, fileCommand input = some (.read path) → validPath path = true →
      lastSet (resolve path) = some content → lines = [content] :=
    fun path content hcommand hvalid hset => by
      obtain ⟨hfile, hle, hzero⟩ := hm _ _ hset
      exact h.prints path content hcommand hvalid hfile hle hzero
  have hfile := h.file
  rw [LineFollows, and_iff_left hprints]
  split at hfile
  next path content hcommand =>
    have haccepts := (h.accepts path content hcommand).2.2
    rw [hfile, changed, hcommand]
    cases ok with
    | true =>
      constructor
      · intro heq path' content' hcommand' _
        cases hcommand'
        exact heq
      · intro hall
        exact hall path content rfl (haccepts.mp rfl)
    | false =>
      refine iff_of_true rfl fun path' content' hcommand' htakes => ?_
      cases hcommand'
      exact absurd (haccepts.mpr htakes) Bool.false_ne_true
  next hother => exact iff_of_true hfile fun path content hcommand => absurd hcommand (hother path content)

theorem LineStep.recorded (h : LineStep files files' input ok lines takes left)
    (hm : Recorded files lastSet) (hfollows : files' = changed files input ok) :
    Recorded files' (changed lastSet input ok) := by
  intro p content hp
  rw [hfollows]
  unfold changed at hp ⊢
  cases hcommand : fileCommand input with
  | none =>
    rw [hcommand] at hp
    exact hm p content hp
  | some command =>
    rw [hcommand] at hp
    cases ok with
    | false => exact hm p content hp
    | true =>
      cases command with
      | write path c =>
        obtain ⟨hzero, hle, haccepts⟩ := h.accepts path c hcommand
        show Function.update files (resolve path) (some c) p = _ ∧ _
        replace hp : Function.update lastSet (resolve path) (some c) p = some content := hp
        by_cases he : p = resolve path
        · rw [he, Function.update_self] at hp ⊢
          cases hp
          exact ⟨rfl, hle (haccepts.mp rfl), hzero⟩
        · rw [Function.update_of_ne he] at hp ⊢
          exact hm p content hp
      | remove path =>
        show Function.update files (resolve path) none p = _ ∧ _
        replace hp : Function.update lastSet (resolve path) none p = some content := hp
        by_cases he : p = resolve path
        · rw [he, Function.update_self] at hp
          cases hp
        · rw [Function.update_of_ne he] at hp ⊢
          exact hm p content hp
      | read path => exact hm p content hp

end

/-! ### Lines that reach no file -/

def fileWords : List Text := [lit "fs-write", lit "fs-remove", lit "fs-read"]

/-- A call of another command reaches no file. -/
theorem not_ofFiles {call : ServiceCall} (h : commandName call ∉ fileWords) : ofFiles call ≠ true := by
  cases call with
  | fsRead arguments | fsWrite arguments | fsRemove arguments => exact absurd (List.mem_of_elem_eq_true rfl) h
  | _ => exact Bool.false_ne_true

variable {input : List UInt8}

theorem fileCommand_eq_none (hw : word input ∉ fileWords) : fileCommand input = none := by
  have hother : ∀ call, route input = .invoke call ∨ route input = .ask call → ofFiles call ≠ true :=
    fun call hroute => not_ofFiles (word_of_call hroute ▸ hw)
  unfold fileCommand
  split
  next arguments hroute => exact absurd rfl (hother _ (.inr hroute))
  next arguments hroute => exact absurd rfl (hother _ (.inr hroute))
  next arguments hroute => exact absurd rfl (hother _ (.inl hroute))
  next => rfl

/-! ### The ESP-IDF image -/

theorem removed_valid {ρ : Type} {arguments : Text} {d : Idf.CommandServices.Device ρ} {confirm : Nat}
    (hc : strstr (lit " --confirm") arguments = some confirm)
    (h : (Idf.CommandServices.fsRemove arguments d).answer = true) :
    validPath (arguments.take confirm) = true := by
  simp only [Idf.CommandServices.fsRemove, hc] at h
  split_ifs at h with husage hplace
  · cases h
  · cases h
  · by_contra hvalid
    rw [Idf.FileMap.buildFsPath_of_invalid hvalid] at h
    cases h

theorem firmware_fs {call : ServiceCall} (h : ofFiles call ≠ true) (d : Idf.Firmware.Image) :
    (firmware.respond call d).device.fs = d.fs := by
  by_cases hconfiguration : ofConfiguration call = true
  · exact (Idf.LineFrame.configuration_scope Idf.Firmware.others hconfiguration d).1
  · rw [Idf.LineFrame.firmware_others hconfiguration h]
    exact (Idf.LineFrame.others_keep call d).2

theorem beneath_after (d : Idf.Firmware.Image) (ok : Bool)
    (hwrite : ∀ path content, fileCommand input ≠ some (.write path content))
    (hok : ok = true → (dispatch firmware d (some input)).status = .ok) :
    beneath (Idf.FileMap.after d.fs.tree.file input ok) = changed (beneath d.fs.tree.file) input ok := by
  unfold Idf.FileMap.after changed
  cases hcommand : fileCommand input with
  | none => rfl
  | some command =>
    cases ok with
    | false => rfl
    | true =>
      cases command with
      | write path content => exact absurd hcommand (hwrite path content)
      | read path => rfl
      | remove path =>
        -- a removal that succeeds names a place below the mount
        have hvalid : validPath path = true := by
          unfold fileCommand at hcommand
          split at hcommand
          next => cases hcommand
          next arguments hroute =>
            obtain ⟨confirm, hc, hpath⟩ := Option.map_eq_some_iff.mp hcommand
            cases hpath
            exact removed_valid hc ((dispatch_asked hroute firmware d).2.mp (hok rfl))
          next => cases hcommand
          next => cases hcommand
        show beneath (Function.update d.fs.tree.file (place path) none) = _
        rw [place_eq (byteAt_of_valid hvalid), beneath_update _ _ _ fun _ => rfl]
        rfl

theorem idf_step {d : Idf.Firmware.Image} (hr : d.fs.Reliable) (input : List UInt8) :
    let done := dispatch firmware d (some input)
    done.device.fs.Reliable ∧
    LineStep (beneath d.fs.tree.file) (beneath done.device.fs.tree.file) input
      (done.status = .ok) done.lines (Uploads d.fs.tree)
      fun path content => beneath (uploaded d.fs.tree path content) := by
  intro done
  by_cases hw : word input ∈ fileWords
  · have hwords : word input = lit "fs-write" ∨ word input = lit "fs-remove" ∨
        word input = lit "fs-read" := by simpa [fileWords] using hw
    have hstep : Idf.FileMap.FileStep d input done :=
      Idf.FileMap.file_step Idf.Firmware.others hr hwords
    refine ⟨hstep.reliable, ⟨?_, fun path content h => ?_, fun path content h hvalid hfile => ?_⟩⟩
    · have hfile := hstep.file
      by_cases hwrite : ∃ path content, fileCommand input = some (.write path content)
      · obtain ⟨path, content, hcommand⟩ := hwrite
        rw [hcommand] at hfile ⊢
        rw [hfile]
        by_cases hok : done.status = .ok <;> simp [hok]
      · have hother : ∀ path content, fileCommand input ≠ some (.write path content) :=
          fun path content hcommand => hwrite ⟨path, content, hcommand⟩
        have hafter := beneath_after d (done.status = .ok) hother fun h => of_decide_eq_true h
        cases hcommand : fileCommand input with
        | none =>
          rw [hcommand] at hfile
          rw [hfile, hafter]
        | some command =>
          rw [hcommand] at hfile
          cases command with
          | write path content => exact absurd hcommand (hother path content)
          | remove path => rw [hfile, hafter]
          | read path => rw [hfile, hafter]
    · obtain ⟨hzero, haccepts⟩ := hstep.accepts path content h
      exact ⟨hzero, fun htakes => htakes.content_le, by rw [decide_eq_true_iff, haccepts]⟩
    · refine hstep.prints path content h hvalid ?_
      rw [place_eq (byteAt_of_valid hvalid)]
      rw [beneath] at hfile
      split at hfile
      next => cases hfile
      next => exact hfile
  · have hfs := kept_of_word (fun d : Idf.Firmware.Image => d.fs)
      (fun call h d => firmware_fs (not_ofFiles h) d) (by decide) hw d
    have hsame : done.device.fs = d.fs := hfs
    rw [hsame]
    exact ⟨hr, lineStep_of_none (fileCommand_eq_none hw) rfl⟩

/-! ### The Arduino image -/

section
open Arduino.FileMap
variable {d : Arduino.Sketch.Image}

theorem arduino_write (hr : d.rest.fs.Reliable)
    (hroute : route input = .ask (.fsWrite (argument input))) :
    let done := dispatch sketch d (some input)
    done.device.rest.fs.Reliable ∧
    LineStep d.rest.fs.tree.file done.device.rest.fs.tree.file input (done.status = .ok) done.lines
      (Writes d.rest.fs.tree input) (left d.rest.fs.tree) := by
  intro done
  obtain ⟨hreliable, haccepts, hfile⟩ := fsWrite_reliable (argument input) hr
  have hdone : done = dispatch sketch d (some input) := rfl
  rw [dispatch_ask hroute rfl] at hdone
  have hcommand : fileCommand input = some (.write ((argument input).takeWhile (· ≠ space))
      ((argument input).dropWhile (· ≠ space)).tail) := by rw [fileCommand, hroute]
  have hok : done.status = .ok ↔ (Arduino.Sketch.fsWrite (argument input) d.rest.fs).answer = true := by
    rw [hdone]
    show (if (Arduino.Sketch.fsWrite (argument input) d.rest.fs).answer = true then _ else _) = _ ↔ _
    split <;> simp [*]
  rw [hdone] at hok ⊢
  refine ⟨hreliable, ⟨?_, fun path content h => ?_, fun path content h => ?_⟩⟩
  · rw [hcommand]
    refine hfile.trans ?_
    simp only [hok, Bool.decide_eq_true]
  · rw [hcommand] at h
    cases h
    have hzero : 0 ∉ ((argument input).dropWhile (· ≠ space)).tail := fun h0 =>
      zero_notMem_argument input ((List.dropWhile_suffix _).subset (List.mem_of_mem_tail h0))
    refine ⟨hzero, fun htakes => htakes.content_le, ?_⟩
    rw [decide_eq_true_iff, hok, haccepts]
    exact ⟨fun h => ⟨h.1, h.2.1, h.2.2.1, h.2.2.2⟩, fun h => ⟨h.ended, h.valid, h.content_le, h.opens⟩⟩
  · rw [hcommand] at h
    cases h

theorem arduino_remove (hr : d.rest.fs.Reliable)
    (hroute : route input = .ask (.fsRemove (argument input))) :
    let done := dispatch sketch d (some input)
    done.device.rest.fs.Reliable ∧
    LineStep d.rest.fs.tree.file done.device.rest.fs.tree.file input (done.status = .ok) done.lines
      (Writes d.rest.fs.tree input) (left d.rest.fs.tree) := by
  intro done
  obtain ⟨hreliable, hfile⟩ := fsRemove_reliable (argument input) hr
  have hdone : done = dispatch sketch d (some input) := rfl
  rw [dispatch_ask hroute rfl] at hdone
  have hcommand : fileCommand input = (strstr (lit " --confirm") (argument input)).map
      fun confirm => .remove ((argument input).take confirm) := by rw [fileCommand, hroute]
  have hok : done.status = .ok ↔
      (Arduino.FileRemoval.fsRemove (argument input) d.rest.fs).answer = true := by
    rw [hdone]
    show (if (Arduino.FileRemoval.fsRemove (argument input) d.rest.fs).answer = true then _ else _) = _ ↔ _
    split <;> simp [*]
  rw [hdone] at hok ⊢
  cases hc : strstr (lit " --confirm") (argument input) with
  | none =>
    rw [hc] at hfile hcommand
    exact ⟨hreliable, lineStep_of_none hcommand hfile⟩
  | some confirm =>
    rw [hc] at hfile hcommand
    refine ⟨hreliable, ⟨?_, fun path content h => ?_, fun path content h => ?_⟩⟩
    · rw [hcommand, changed, hcommand]
      refine hfile.trans ?_
      simp only [Option.elim, hok, Bool.decide_eq_true]
      rfl
    · rw [hcommand] at h
      cases h
    · rw [hcommand] at h
      cases h

theorem arduino_read (hr : d.rest.fs.Reliable)
    (hroute : route input = .invoke (.fsRead (argument input))) :
    let done := dispatch sketch d (some input)
    done.device.rest.fs.Reliable ∧
    LineStep d.rest.fs.tree.file done.device.rest.fs.tree.file input (done.status = .ok) done.lines
      (Writes d.rest.fs.tree input) (left d.rest.fs.tree) := by
  intro done
  obtain ⟨hsame, hprints⟩ := fsRead_reliable (argument input) hr
  have hdone : done = dispatch sketch d (some input) := rfl
  rw [dispatch_invoke hroute rfl] at hdone
  have hcommand : fileCommand input = some (.read (argument input)) := by rw [fileCommand, hroute]
  have hfs : done.device.rest.fs = d.rest.fs := by
    rw [hdone]
    exact hsame
  rw [hfs]
  refine ⟨hr, ⟨?_, fun path content h => ?_, fun path content h => ?_⟩⟩
  · rw [hcommand, changed, hcommand]
    simp [change]
  · rw [hcommand] at h
    cases h
  · rw [hcommand] at h
    cases h
    rw [hdone]
    exact hprints content

theorem arduino_step (hr : d.rest.fs.Reliable) (input : List UInt8) :
    let done := dispatch sketch d (some input)
    done.device.rest.fs.Reliable ∧
    LineStep d.rest.fs.tree.file done.device.rest.fs.tree.file input (done.status = .ok) done.lines
      (Writes d.rest.fs.tree input) (left d.rest.fs.tree) := by
  intro done
  have hrefused : Refused input → done.device.rest.fs.Reliable ∧
      LineStep d.rest.fs.tree.file done.device.rest.fs.tree.file input (done.status = .ok) done.lines
        (Writes d.rest.fs.tree input) (left d.rest.fs.tree) := by
    intro h
    have hdevice : done.device = d := (h.dispatch_eq sketch d).1
    obtain ⟨lines, status, hroute, -⟩ := h
    have hnone : fileCommand input = none := by rw [fileCommand, hroute]
    rw [hdevice]
    exact ⟨hr, lineStep_of_none hnone rfl⟩
  by_cases hw : word input ∈ fileWords
  · simp only [fileWords, List.mem_cons, List.not_mem_nil, or_false] at hw
    rcases hw with hw | hw | hw
    · exact (route_asks hw rfl).elim hrefused fun h => arduino_write hr h.2
    · exact (route_asks hw rfl).elim hrefused fun h => arduino_remove hr h.2
    · exact (route_reads hw rfl).elim hrefused fun h => arduino_read hr h.2
  · have hfs := kept_of_word (fun d : Arduino.Sketch.Image => d.rest.fs)
      (fun call h d => sketch_fs (not_ofFiles h) d) (by decide) hw d
    have hsame : done.device.rest.fs = d.rest.fs := hfs
    rw [hsame]
    exact ⟨hr, lineStep_of_none (fileCommand_eq_none hw) rfl⟩

end

/-! ### Runs over both images -/

/-- The image that runs, with its device. -/
inductive Running where
  | arduino (d : Arduino.Sketch.Image)
  | idf (d : Idf.Firmware.Image)

namespace Running

def flash : Running → Tree
  | .arduino d => d.rest.fs.tree
  | .idf d => partition d.fs.tree

def Reliable : Running → Prop
  | .arduino d => d.rest.fs.Reliable
  | .idf d => d.fs.Reliable

/-- One line, with whether it reported success and what it printed. -/
def line (s : Running) (input : List UInt8) : Running × Bool × List Text :=
  match s with
  | .arduino d =>
    let done := dispatch sketch d (some input)
    (.arduino done.device, done.status = .ok, done.lines)
  | .idf d =>
    let done := dispatch firmware d (some input)
    (.idf done.device, done.status = .ok, done.lines)

/-- A restart into an image that is told with all but the files. -/
def restart (s : Running) : Running → Running
  | .arduino d => .arduino { d with rest := { d.rest with fs := ⟨s.flash, []⟩ } }
  | .idf d => .idf { d with fs := ⟨mount s.flash, []⟩ }

/-- What `fs-write` accepts of a line. -/
def Takes : Running → List UInt8 → Text → Text → Prop
  | .arduino d, input, path, content => Arduino.FileMap.Writes d.rest.fs.tree input path content
  | .idf d, _, path, content => Uploads d.fs.tree path content

/-- Nothing else stands where a write goes: no directory, and on the ESP-IDF image no file under the name
of the temporary one. -/
def Clear : Running → Text → Prop
  | .arduino d, path => d.rest.fs.tree.entry (resolve path) ≠ some .dir
  | .idf d, path => d.fs.tree.file (tempPlace path) = none ∧ d.fs.tree.entry (place path) ≠ some .dir

end Running

inductive Event where
  | line (input : List UInt8)
  | restart (image : Running)

/-- Every line follows one map of the files, over all restarts. -/
def Follows (s : Running) (lastSet : Contents) : List Event → Prop
  | [] => True
  | .line input :: events =>
    let done := s.line input
    LineFollows s.flash.file done.1.flash.file lastSet input done.2.1 done.2.2 ∧
      Follows done.1 (changed lastSet input done.2.1) events
  | .restart image :: events => Follows (s.restart image) lastSet events

/-- Every write that is accepted goes where nothing else stands. -/
def Undisturbed (s : Running) : List Event → Prop
  | [] => True
  | .line input :: events =>
    (∀ path content, fileCommand input = some (.write path content) → s.Takes input path content →
      s.Clear path) ∧
    Undisturbed (s.line input).1 events
  | .restart image :: events => Undisturbed (s.restart image) events

/-- From the partition an upload changes its target alone exactly when it does in the whole tree. -/
theorem beneath_uploaded_iff {t : Tree} {path content : Text} (h : Idf.FileMap.Acceptable path content) :
    beneath (uploaded t path content) = Function.update (beneath t.file) (resolve path) (some content) ↔
      t.file (tempPlace path) = none ∧ t.entry (place path) ≠ some .dir := by
  obtain ⟨hplace, hne, temp, htemp, htempPlace⟩ := upload_places h
  have hupdate : beneath (Function.update t.file (place path) (some content)) =
      Function.update (beneath t.file) (resolve path) (some content) := by
    rw [hplace, beneath_update _ _ _ fun hnil => absurd hnil hne]
  rw [← uploaded_eq_iff, ← hupdate]
  refine beneath_eq_iff fun p hp => ?_
  have hp₁ : p ≠ place path := hplace ▸ hp _ hne
  have hp₂ : p ≠ tempPlace path := htempPlace ▸ hp _ htemp
  rw [Function.update_of_ne hp₁, uploaded]
  split
  · rw [Function.update_of_ne hp₂]
  · rw [Function.update_of_ne hp₁, Function.update_of_ne hp₂]

theorem line_step {s : Running} (hr : s.Reliable) (input : List UInt8) : ∃ left,
    LineStep s.flash.file (s.line input).1.flash.file input (s.line input).2.1 (s.line input).2.2
      (s.Takes input) left ∧
    (s.line input).1.Reliable ∧
    ∀ path content, s.Takes input path content →
      (left path content = Function.update s.flash.file (resolve path) (some content) ↔ s.Clear path) := by
  cases s with
  | arduino d =>
    obtain ⟨hreliable, hstep⟩ := arduino_step (d := d) hr input
    exact ⟨_, hstep, hreliable, fun path content _ => Arduino.FileMap.left_eq_iff d.rest.fs.tree path content⟩
  | idf d =>
    obtain ⟨hreliable, hstep⟩ := idf_step (d := d) hr input
    refine ⟨fun path content => beneath (uploaded d.fs.tree path content), ?_, hreliable,
      fun path content htakes => ?_⟩
    · simp only [Running.flash, Running.line, file_partition]
      exact hstep
    · simp only [Running.flash, file_partition]
      exact beneath_uploaded_iff htakes.toAcceptable

theorem flash_restart (s image : Running) : (s.restart image).flash.file = s.flash.file := by
  cases image with
  | arduino d => rfl
  | idf d => exact file_partition_mount s.flash

theorem reliable_restart (s image : Running) : (s.restart image).Reliable := by
  cases image <;> rfl

theorem follows_iff {s : Running} (hr : s.Reliable) {lastSet : Contents}
    (hm : Recorded s.flash.file lastSet) (events : List Event) :
    Follows s lastSet events ↔ Undisturbed s events := by
  induction events generalizing s lastSet with
  | nil => exact Iff.rfl
  | cons event events ih =>
    cases event with
    | line input =>
      obtain ⟨left, hstep, hreliable, hleft⟩ := line_step hr input
      have hline : LineFollows s.flash.file (s.line input).1.flash.file lastSet input (s.line input).2.1
          (s.line input).2.2 ↔ ∀ path content, fileCommand input = some (.write path content) →
            s.Takes input path content → s.Clear path := by
        rw [hstep.follows_iff hm]
        exact forall₂_congr fun path content => forall₂_congr fun _ htakes => hleft path content htakes
      rw [Follows, Undisturbed, ← hline]
      exact and_congr_right fun hfollows => ih hreliable (hstep.recorded hm hfollows.1)
    | restart image =>
      refine ih (reliable_restart s image) ?_
      rw [flash_restart]
      exact hm

/-- Through any lines and any restarts into either image the files are one map, and what an accepted write
of one image has stored is what a read of either image prints, exactly as long as no accepted write meets
a directory, or on the ESP-IDF image a file under the name of its temporary one. -/
theorem files_handed_over (s : Running) (hr : s.Reliable) (events : List Event) :
    Follows s (fun _ => none) events ↔ Undisturbed s events :=
  follows_iff hr (fun _ _ h => by cases h) events

/-- The Arduino image over a partition with the one directory `/apps`. -/
def fresh : Running :=
  let shop := Arduino.Secrecy.shop (lit "secret") (by decide)
  .arduino { shop with rest := { shop.rest with fs := ⟨partition .mounted, []⟩ } }

def uploadThenRead : List Event :=
  [.line (lit "fs-write /apps/a x"), .restart (.idf Idf.SshLifetime.factory), .line (lit "fs-read /apps/./a")]

theorem files_handed_over_upload :
    Follows fresh (fun _ => none) uploadThenRead ↔ Undisturbed fresh uploadThenRead :=
  files_handed_over fresh rfl uploadThenRead

example : (((fresh.line (lit "fs-write /apps/a x")).1.restart (.idf Idf.SshLifetime.factory)).line
    (lit "fs-read /apps/./a")).2.2 = [lit "x"] := by decide +kernel

end Esp32Shell.Handover.Files
