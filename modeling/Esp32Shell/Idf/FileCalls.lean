import Esp32Shell.Idf.CommandServices
import Esp32Shell.Library.Interaction

/-!
# The calls of the file commands

`fs-write` and `fs-remove` with the path texts that they hand to the C library.
Served by the file system they are the commands of the services.
-/
namespace Esp32Shell.Idf.FileCalls

open Esp32Shell.Library.CText Esp32Shell.Library.Interaction
open Shell.CommandCore Storage.LittleFs CommandServices

variable {ρ : Type}

/-- A stream is named by the path that it was opened under. -/
inductive FileCall where
  | fopenWb (path : Text)
  | fwrite (stream : Text) (bytes : List UInt8)
  | fflush (stream : Text)
  | rename (old new : Text)
  | remove (path : Text)
  deriving DecidableEq

/-- Whether the call succeeded, or the number of bytes that it wrote. -/
abbrev FileCall.Answer : FileCall → Type
  | .fopenWb _ => Bool
  | .fwrite _ _ => Nat
  | .fflush _ => Bool
  | .rename _ _ => Bool
  | .remove _ => Bool

/-- A command that ends with its line and its answer. -/
abbrev FileProgram := Program FileCall FileCall.Answer (Text × Bool)

/-- The paths of a call that is about to change what stands there. -/
def FileCall.paths : FileCall → List Text
  | .fopenWb path => [path]
  | .fwrite _ _ => []
  | .fflush _ => []
  | .rename old new => [old, new]
  | .remove path => [path]

/-! ### The code -/

/-- The checks of `fsWrite`: the path and the content to upload, or the line of a refusal. -/
def checkWrite (arguments : Text) : Except Text (Text × Text) :=
  let usage := .error (lit "error: usage fs-write /apps/<path> <content>")
  match strchr arguments space with
  | none => usage
  | some separator =>
    let content := arguments.drop (separator + 1)
    if separator = 0 ∨ byteAt arguments (separator + 1) = 0 ∨ content.length > 512 then usage
    else if separator ≥ 65 ∨ separator < 7 ∨ ¬ strncmpEq arguments (lit "/apps/") 6 then
      .error (lit "error: upload path must be under /apps")
    else
      match buildFsPath (arguments.take separator) 96 with
      | none => .error (lit "error: invalid path")
      | some path =>
        if (path ++ lit ".tmp").length ≥ 96 then .error (lit "error: path is too long")
        else .ok (path, content)

/-- The filled temporary file is put in the place of the target, or removed. -/
def finishWrite (tempPath path : Text) (ok : Bool) : FileProgram :=
  if ok then .call (.rename tempPath path) fun _ => .done (lit "upload=complete", true)
  else .call (.remove tempPath) fun _ => .done (lit "error: upload write failed", false)

/-- The rest of `fsWrite`. -/
def writeFile (path content : Text) : FileProgram :=
  let tempPath := path ++ lit ".tmp"
  .call (.fopenWb tempPath) fun opened =>
    if opened then
      .call (.fwrite tempPath content) fun written =>
        if written = content.length then .call (.fflush tempPath) (finishWrite tempPath path)
        else finishWrite tempPath path false
    else .done (lit "error: LittleFS is not mounted", false)

def fsWrite (arguments : Text) : FileProgram :=
  match checkWrite arguments with
  | .error line => .done (line, false)
  | .ok (path, content) => writeFile path content

/-- The checks of `fsRemove`: the path to remove, or the line of a refusal. -/
def checkRemove (arguments : Text) : Except Text Text :=
  let usage := .error (lit "error: usage fs-remove /apps/<path> --confirm")
  match strstr (lit " --confirm") arguments with
  | none => usage
  | some confirm =>
    if byteAt arguments (confirm + 10) ≠ 0 then usage
    else if confirm ≥ 65 ∨ ¬ strncmpEq arguments (lit "/apps/") 6 then
      .error (lit "error: invalid path")
    else
      match buildFsPath (arguments.take confirm) 96 with
      | none => .error (lit "error: invalid path")
      | some path => .ok path

def removeFile (path : Text) : FileProgram :=
  .call (.remove path) fun removed =>
    .done (if removed then lit "file removed" else lit "error: file remove failed", removed)

def fsRemove (arguments : Text) : FileProgram :=
  match checkRemove arguments with
  | .error line => .done (line, false)
  | .ok path => removeFile path

/-- The C library over the file system. -/
def littleFs : (c : FileCall) → FileSystem → c.Answer × FileSystem
  | .fopenWb path, fs => fs.fopenWb (resolve path)
  | .fwrite stream bytes, fs => fs.fwrite (resolve stream) bytes
  | .fflush _, fs => fs.fflush
  | .rename old new, fs => fs.rename (resolve old) (resolve new)
  | .remove path, fs => fs.remove (resolve path)

/-- A device after a command over its files. -/
def answered (p : FileProgram) (d : Device ρ) : Reply (Device ρ) :=
  let done := p.run littleFs d.fs
  d.answerFs done.2 [done.1.1] done.1.2

theorem answered_call {c : FileCall} {a : c.Answer} {fs : FileSystem} {d : Device ρ}
    (h : littleFs c d.fs = (a, fs)) (next : c.Answer → FileProgram) :
    answered (.call c next) d = answered (next a) { d with fs := fs } := by
  simp only [answered, Program.run_call, h]
  rfl

theorem answered_finishWrite (tempPath path : Text) (ok : Bool) (d : Device ρ) :
    answered (finishWrite tempPath path ok) d =
      let fs := if ok then (d.fs.rename (resolve tempPath) (resolve path)).2
        else (d.fs.remove (resolve tempPath)).2
      d.answerFs fs [if ok then lit "upload=complete" else lit "error: upload write failed"] ok := by
  cases ok <;> rfl

/-- The open temporary file is filled. -/
theorem answered_upload (tempPath path content : Text) (d : Device ρ) :
    answered (.call (.fwrite tempPath content) fun written =>
        if written = content.length then .call (.fflush tempPath) (finishWrite tempPath path)
        else finishWrite tempPath path false) d =
      let done := upload content (resolve tempPath) (resolve path) d.fs
      d.answerFs done.2
        [if done.1 then lit "upload=complete" else lit "error: upload write failed"] done.1 := by
  obtain ⟨written, fs, hwrite⟩ : ∃ written fs,
      d.fs.fwrite (resolve tempPath) content = (written, fs) := ⟨_, _, rfl⟩
  rw [answered_call (c := .fwrite tempPath content) hwrite]
  simp only [upload, hwrite]
  by_cases hlength : written = content.length
  · obtain ⟨ok, fs', hflush⟩ : ∃ ok fs', fs.fflush = (ok, fs') := ⟨_, _, rfl⟩
    rw [if_pos hlength, if_pos hlength,
      answered_call (c := .fflush tempPath) (d := { d with fs := fs }) hflush, answered_finishWrite, hflush]
    cases ok <;> rfl
  · rw [if_neg hlength, if_neg hlength, answered_finishWrite]
    rfl

theorem answered_writeFile (path content : Text) {d : Device ρ} {opened : Bool} {fs : FileSystem}
    (h : d.fs.fopenWb (resolve (path ++ lit ".tmp")) = (opened, fs)) :
    answered (writeFile path content) d =
      let done := upload content (resolve (path ++ lit ".tmp")) (resolve path) fs
      if opened then d.answerFs done.2
        [if done.1 then lit "upload=complete" else lit "error: upload write failed"] done.1
      else d.answerFs fs [lit "error: LittleFS is not mounted"] false := by
  rw [writeFile, answered_call (c := .fopenWb (path ++ lit ".tmp")) h]
  cases opened with
  | false => rfl
  | true => exact answered_upload (path ++ lit ".tmp") path content _

/-- The commands of the services are these calls, served by the file system. -/
theorem fsWrite_eq (arguments : Text) (d : Device ρ) :
    CommandServices.fsWrite arguments d = answered (fsWrite arguments) d := by
  unfold fsWrite checkWrite CommandServices.fsWrite
  cases hc : strchr arguments space with
  | none => rfl
  | some separator =>
    simp only
    split
    · rfl
    · split
      · rfl
      · cases hpath : buildFsPath (arguments.take separator) 96 with
        | none => rfl
        | some path =>
          obtain ⟨opened, fs, hopen⟩ : ∃ opened fs,
              d.fs.fopenWb (resolve (path ++ lit ".tmp")) = (opened, fs) := ⟨_, _, rfl⟩
          simp only
          split
          · rfl
          · rw [answered_writeFile path _ hopen, hopen]
            cases opened <;> rfl

theorem fsRemove_eq (arguments : Text) (d : Device ρ) :
    CommandServices.fsRemove arguments d = answered (fsRemove arguments) d := by
  unfold fsRemove checkRemove CommandServices.fsRemove
  cases hc : strstr (lit " --confirm") arguments with
  | none => rfl
  | some confirm =>
    simp only
    split
    · rfl
    · split
      · rfl
      · cases hpath : buildFsPath (arguments.take confirm) 96 with
        | none => rfl
        | some path => rfl

end Esp32Shell.Idf.FileCalls
