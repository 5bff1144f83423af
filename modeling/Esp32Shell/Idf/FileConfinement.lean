import Esp32Shell.Idf.FileMap

/-!
# The paths that the file commands change

Where the calls of `fs-write` and `fs-remove` lead. The checks keep every path
under `/littlefs/apps`, but let some through that name this directory itself:
`fs-remove` takes `/apps/`, and both take segments of a single dot.
-/
namespace Esp32Shell.Idf.FileConfinement

open Esp32Shell.Library.CText Esp32Shell.Library.Interaction
open Shell.CommandCore Shell.CommandTable
open Storage.LittleFs CommandServices FileMap FileCalls

/-- The directory that the commands may change. -/
def appsDirectory : Path := [lit "littlefs", lit "apps"]

/-- A path to something inside the directory. -/
structure Confined (path : Text) : Prop where
  absolute : byteAt path 0 = slash
  below : appsDirectory <+: resolve path
  proper : resolve path ≠ appsDirectory
  noParent : lit ".." ∉ path.splitOn slash

/-- A call that changes nothing else. -/
def Harmless (c : FileCall) : Prop := ∀ path ∈ c.paths, Confined path

/-- What stands behind `/apps/` has a segment that names something. -/
def NamesFile (rest : Text) : Prop := ∃ segment ∈ rest.splitOn slash, isNamed segment = true

theorem resolve_eq_nil_iff (rest : Text) : resolve rest = [] ↔ ¬ NamesFile rest := by
  rw [resolve, List.filter_eq_nil_iff, NamesFile]
  push Not
  rfl

/-- A text with a space names something. -/
theorem namesFile_of_space {rest : Text} (h : space ∈ rest) : NamesFile rest := by
  obtain ⟨segment, hmem, hspace⟩ := exists_segment (c := slash) h (by decide)
  refine ⟨segment, hmem, ?_⟩
  rw [isNamed, Bool.and_eq_true, bne_iff_ne, bne_iff_ne]
  constructor
  · intro he
    rw [he] at hspace
    cases hspace
  · intro he
    rw [he] at hspace
    exact absurd hspace (by decide)

theorem namesFile_temp (rest : Text) : NamesFile (rest ++ lit ".tmp") := by
  have htmp : slash ∉ lit ".tmp" := by decide
  obtain ⟨segments, last, -, hsplit⟩ := splitOn_append htmp rest
  have hlength : 4 ≤ (last ++ lit ".tmp").length := by
    rw [List.length_append]
    exact Nat.le_add_left 4 _
  refine ⟨last ++ lit ".tmp", by rw [hsplit]; simp, ?_⟩
  rw [isNamed, Bool.and_eq_true, bne_iff_ne, bne_iff_ne]
  constructor
  · intro he
    rw [he] at hlength
    exact absurd hlength (by decide)
  · intro he
    rw [he] at hlength
    exact absurd hlength (by decide)

/-! ### Paths under the directory -/

theorem segments_apps (rest : Text) : (lit "/littlefs" ++ (lit "/apps/" ++ rest)).splitOn slash =
    [[], lit "littlefs", lit "apps"] ++ rest.splitOn slash := by
  have hroot : lit "/littlefs" ++ (lit "/apps/" ++ rest) = lit "/littlefs/apps" ++ slash :: rest := rfl
  have hsegments : (lit "/littlefs/apps").splitOn slash = [[], lit "littlefs", lit "apps"] := by decide
  rw [hroot, List.splitOn_append_cons_self, hsegments]

theorem confined_iff {rest : Text} (hdots : lit ".." ∉ rest.splitOn slash) :
    Confined (lit "/littlefs" ++ (lit "/apps/" ++ rest)) ↔ NamesFile rest := by
  have hresolve : resolve (lit "/littlefs" ++ (lit "/apps/" ++ rest)) = appsDirectory ++ resolve rest := by
    rw [resolve, segments_apps, List.filter_append]
    rfl
  constructor
  · intro h
    by_contra hnot
    apply h.proper
    rw [hresolve, (resolve_eq_nil_iff rest).mpr hnot, List.append_nil]
  · intro h
    refine ⟨rfl, ?_, ?_, ?_⟩
    · rw [hresolve]
      exact List.prefix_append _ _
    · rw [hresolve]
      intro he
      exact (resolve_eq_nil_iff rest).mp (List.append_right_eq_self.mp he) h
    · rw [segments_apps]
      intro hm
      apply (List.mem_append.mp hm).elim
      · decide
      · exact hdots

/-- A path that passes the check of `..` has no such segment. -/
theorem noParent_of_valid {rest : Text} (h : validFsPath (lit "/apps/" ++ rest) = true) :
    lit ".." ∉ rest.splitOn slash := by
  simp only [validFsPath, Bool.and_eq_true, Option.isNone_iff_eq_none, strstr_eq_none_iff] at h
  intro hm
  exact h.1.2 ((infix_of_mem_splitOn hm).trans (List.suffix_append _ rest).isInfix)

/-- Neither has the path of its temporary file. -/
theorem noParent_temp {rest : Text} (h : lit ".." ∉ rest.splitOn slash) :
    lit ".." ∉ (rest ++ lit ".tmp").splitOn slash := by
  have htmp : slash ∉ lit ".tmp" := by decide
  obtain ⟨segments, last, hrest, hsplit⟩ := splitOn_append htmp rest
  rw [hrest] at h
  rw [hsplit]
  intro hm
  apply (List.mem_append.mp hm).elim
  · intro hin
    exact h (List.mem_append_left _ hin)
  · intro hin
    have hlength := congrArg List.length (List.mem_singleton.mp hin)
    have htwo : (lit "..").length = 2 := by decide
    have hfour : (lit ".tmp").length = 4 := by decide
    rw [List.length_append] at hlength
    omega

theorem exists_rest {path : Text} (h : strncmpEq path (lit "/apps/") 6 = true) :
    ∃ rest, path = lit "/apps/" ++ rest := by
  have htake : path.take 6 = lit "/apps/" := eq_of_beq h
  exact ⟨path.drop 6, by rw [← htake, List.take_append_drop]⟩

theorem confined_temp {rest : Text} (hdots : lit ".." ∉ rest.splitOn slash) :
    Confined (lit "/littlefs" ++ (lit "/apps/" ++ rest) ++ lit ".tmp") := by
  rw [List.append_assoc, List.append_assoc]
  exact (confined_iff (noParent_temp hdots)).mpr (namesFile_temp rest)

/-! ### The commands -/

/-- Either end of an upload, when its target is inside the directory. -/
theorem finishWrite_only {rest : Text} (hdots : lit ".." ∉ rest.splitOn slash) (h : NamesFile rest)
    (ok : Bool) :
    (finishWrite (lit "/littlefs" ++ (lit "/apps/" ++ rest) ++ lit ".tmp")
      (lit "/littlefs" ++ (lit "/apps/" ++ rest)) ok).Only Harmless := by
  have htemp := confined_temp hdots
  have hpath := (confined_iff hdots).mpr h
  cases ok with
  | false =>
    rw [finishWrite, if_neg Bool.false_ne_true, Program.only_call_iff]
    refine ⟨fun path hm => ?_, fun _ => Program.only_done _⟩
    rw [List.mem_singleton.mp hm]
    exact htemp
  | true =>
    rw [finishWrite, if_pos rfl, Program.only_call_iff]
    refine ⟨fun path hm => ?_, fun _ => Program.only_done _⟩
    obtain rfl | hm := List.mem_cons.mp hm
    · exact htemp
    · rw [List.mem_singleton.mp hm]
      exact hpath

/-- Only the renaming may reach the directory itself. -/
theorem writeFile_only_iff {rest : Text} (hdots : lit ".." ∉ rest.splitOn slash) (content : Text) :
    (writeFile (lit "/littlefs" ++ (lit "/apps/" ++ rest)) content).Only Harmless ↔ NamesFile rest := by
  constructor
  · intro h
    obtain ⟨-, hopened⟩ := Program.only_call_iff.mp h
    obtain ⟨-, hwritten⟩ := Program.only_call_iff.mp (hopened true)
    replace hwritten := hwritten content.length
    rw [if_pos rfl] at hwritten
    obtain ⟨-, hflushed⟩ := Program.only_call_iff.mp hwritten
    obtain ⟨hrename, -⟩ := Program.only_call_iff.mp (hflushed true)
    exact (confined_iff hdots).mp (hrename _ (by simp [FileCall.paths]))
  · intro h
    have hfinish := finishWrite_only hdots h
    rw [writeFile, Program.only_call_iff]
    refine ⟨fun path hm => ?_, fun opened => ?_⟩
    · rw [List.mem_singleton.mp hm]
      exact confined_temp hdots
    cases opened with
    | false => exact Program.only_done _
    | true =>
      rw [if_pos rfl, Program.only_call_iff]
      refine ⟨fun path hm => (List.not_mem_nil hm).elim, fun written => ?_⟩
      by_cases hlength : written = content.length
      · rw [if_pos hlength]
        refine Program.only_call_iff.mpr ⟨?_, hfinish⟩
        intro path hm
        cases hm
      · rw [if_neg hlength]
        exact hfinish false

theorem removeFile_only_iff {rest : Text} (hdots : lit ".." ∉ rest.splitOn slash) :
    (removeFile (lit "/littlefs" ++ (lit "/apps/" ++ rest))).Only Harmless ↔ NamesFile rest := by
  rw [removeFile, Program.only_call_iff, ← confined_iff hdots]
  constructor
  · intro h
    exact h.1 _ (List.mem_singleton_self _)
  · intro h
    refine ⟨fun path hm => ?_, fun _ => Program.only_done _⟩
    rw [List.mem_singleton.mp hm]
    exact h

theorem fsWrite_only_iff {arguments : Text} (h0 : 0 ∉ arguments) :
    (FileCalls.fsWrite arguments).Only Harmless ↔
      ∀ rest content, arguments = lit "/apps/" ++ rest ++ space :: content →
        space ∉ lit "/apps/" ++ rest → Acceptable (lit "/apps/" ++ rest) content → NamesFile rest := by
  rw [FileCalls.fsWrite]
  cases hcheck : checkWrite arguments with
  | error line =>
    refine iff_of_true (Program.only_done _) fun rest content harguments hspace ha => ?_
    rw [(checkWrite_eq_ok_iff h0).mpr ⟨_, harguments, hspace, ha, rfl⟩] at hcheck
    cases hcheck
  | ok accepted =>
    obtain ⟨path, content⟩ := accepted
    obtain ⟨userPath, harguments, hspace, ha, rfl⟩ := (checkWrite_eq_ok_iff h0).mp hcheck
    obtain ⟨rest, rfl⟩ := exists_rest ha.apps
    show (writeFile _ content).Only Harmless ↔ _
    rw [writeFile_only_iff (noParent_of_valid ha.valid)]
    constructor
    · intro h rest' content' harguments' hspace' _
      have hpath := congrArg (List.takeWhile (· ≠ space)) (harguments.symm.trans harguments')
      rw [takeWhile_cut hspace, takeWhile_cut hspace'] at hpath
      rw [← List.append_cancel_left hpath]
      exact h
    · intro h
      exact h rest content harguments hspace ha

/-- Where the confirmation is found at the end, the path is all that stands in front of it. -/
theorem exists_confirmed {arguments : Text} (h0 : 0 ∉ arguments) {confirm : Nat}
    (hc : strstr (lit " --confirm") arguments = some confirm)
    (hend : byteAt arguments (confirm + 10) = 0) :
    ∃ userPath, arguments = userPath ++ lit " --confirm" ∧ userPath.length = confirm := by
  obtain ⟨userPath, post, rfl, rfl⟩ := exists_cut_of_strstr hc
  have hneedle : (lit " --confirm").length = 10 := by decide
  have hnil : post = [] := by
    rw [byteAt_eq_zero_iff h0, List.append_assoc, ← List.drop_drop, List.drop_left, ← hneedle,
      List.drop_left] at hend
    exact hend
  exact ⟨userPath, by rw [hnil, List.append_nil], rfl⟩

/-- The confirmation is no part of a path under `/apps/`. -/
theorem exists_rest_of_confirmed {userPath : Text}
    (h : strncmpEq (userPath ++ lit " --confirm") (lit "/apps/") 6 = true) :
    ∃ rest, userPath = lit "/apps/" ++ rest := by
  by_cases hlong : 6 ≤ userPath.length
  · rw [strncmpEq, List.take_append_of_le_length hlong] at h
    exact exists_rest h
  · have htake : (userPath ++ lit " --confirm").take 6 = lit "/apps/" := eq_of_beq h
    have hspace : space ∈ (userPath ++ lit " --confirm").take 6 := by
      have hneedle : lit " --confirm" = space :: lit "--confirm" := rfl
      rw [hneedle, List.take_append, List.take_cons (by omega)]
      simp
    rw [htake] at hspace
    exact absurd hspace (by decide)

theorem confirmed_of_checkRemove {arguments : Text} (h0 : 0 ∉ arguments) {path : Text}
    (h : checkRemove arguments = .ok path) :
    ∃ rest, arguments = lit "/apps/" ++ rest ++ lit " --confirm" ∧
      strstr (lit " --confirm") arguments = some (lit "/apps/" ++ rest).length ∧
      validFsPath (lit "/apps/" ++ rest) = true ∧
      path = lit "/littlefs" ++ (lit "/apps/" ++ rest) := by
  cases hc : strstr (lit " --confirm") arguments with
  | none =>
    rw [checkRemove, hc] at h
    cases h
  | some confirm =>
    simp only [checkRemove, hc] at h
    by_cases hend : byteAt arguments (confirm + 10) ≠ 0
    · rw [if_pos hend] at h
      cases h
    rw [if_neg hend] at h
    by_cases hplace : confirm ≥ 65 ∨ ¬ strncmpEq arguments (lit "/apps/") 6 = true
    · rw [if_pos hplace] at h
      cases h
    rw [if_neg hplace] at h
    push Not at hend hplace
    obtain ⟨userPath, rfl, rfl⟩ := exists_confirmed h0 hc hend
    obtain ⟨rest, rfl⟩ := exists_rest_of_confirmed hplace.2
    rw [List.take_left' rfl] at h
    by_cases hvalid : validFsPath (lit "/apps/" ++ rest) = true
    · rw [buildFsPath_of_valid hvalid] at h
      cases h
      exact ⟨rest, rfl, rfl, hvalid, rfl⟩
    · rw [buildFsPath_of_invalid hvalid] at h
      cases h

theorem checkRemove_of_confirmed {rest : Text} (h0 : 0 ∉ lit "/apps/" ++ rest ++ lit " --confirm")
    (hc : strstr (lit " --confirm") (lit "/apps/" ++ rest ++ lit " --confirm") =
      some (lit "/apps/" ++ rest).length)
    (hvalid : validFsPath (lit "/apps/" ++ rest) = true) :
    checkRemove (lit "/apps/" ++ rest ++ lit " --confirm") =
      .ok (lit "/littlefs" ++ (lit "/apps/" ++ rest)) := by
  have hneedle : (lit " --confirm").length = 10 := by decide
  have hend : ¬ byteAt (lit "/apps/" ++ rest ++ lit " --confirm")
      ((lit "/apps/" ++ rest).length + 10) ≠ 0 := by
    rw [not_not, byteAt_eq_zero_iff h0, List.drop_eq_nil_iff, List.length_append, hneedle]
  have hplace : ¬ ((lit "/apps/" ++ rest).length ≥ 65 ∨
      ¬ strncmpEq (lit "/apps/" ++ rest ++ lit " --confirm") (lit "/apps/") 6 = true) := by
    have hle := validFsPath_length hvalid
    intro hplace
    rcases hplace with hlong | hother
    · omega
    · exact hother rfl
  simp only [checkRemove, hc, if_neg hend, if_neg hplace, List.take_left' rfl,
    buildFsPath_of_valid hvalid]

/-- What `fsRemove` checks before its call. -/
theorem checkRemove_eq_ok_iff {arguments : Text} (h0 : 0 ∉ arguments) {path : Text} :
    checkRemove arguments = .ok path ↔
      ∃ rest, arguments = lit "/apps/" ++ rest ++ lit " --confirm" ∧
        strstr (lit " --confirm") arguments = some (lit "/apps/" ++ rest).length ∧
        validFsPath (lit "/apps/" ++ rest) = true ∧
        path = lit "/littlefs" ++ (lit "/apps/" ++ rest) := by
  constructor
  · exact confirmed_of_checkRemove h0
  · intro h
    obtain ⟨rest, rfl, hc, hvalid, rfl⟩ := h
    exact checkRemove_of_confirmed h0 hc hvalid

theorem fsRemove_only_iff {arguments : Text} (h0 : 0 ∉ arguments) :
    (FileCalls.fsRemove arguments).Only Harmless ↔
      ∀ rest, arguments = lit "/apps/" ++ rest ++ lit " --confirm" →
        validFsPath (lit "/apps/" ++ rest) = true → NamesFile rest := by
  rw [FileCalls.fsRemove]
  cases hcheck : checkRemove arguments with
  | error line =>
    refine iff_of_true (Program.only_done _) fun rest harguments hvalid => ?_
    by_contra hnot
    -- without a space in it, the path ends where the confirmation is first found
    have hspace : space ∉ lit "/apps/" ++ rest := by
      intro hm
      apply (List.mem_append.mp hm).elim
      · decide
      · exact fun hrest => hnot (namesFile_of_space hrest)
    have hc : strstr (lit " --confirm") arguments = some (lit "/apps/" ++ rest).length := by
      have hfound := strstr_append hspace (lit "--confirm") []
      rw [List.append_nil] at hfound
      rw [harguments]
      exact hfound
    rw [(checkRemove_eq_ok_iff h0).mpr ⟨rest, harguments, hc, hvalid, rfl⟩] at hcheck
    cases hcheck
  | ok path =>
    obtain ⟨rest, harguments, hc, hvalid, rfl⟩ := (checkRemove_eq_ok_iff h0).mp hcheck
    show (removeFile _).Only Harmless ↔ _
    rw [removeFile_only_iff (noParent_of_valid hvalid)]
    constructor
    · intro h rest' harguments' _
      have hpath := List.append_cancel_right (harguments.symm.trans harguments')
      rw [← List.append_cancel_left hpath]
      exact h
    · intro h
      exact h rest harguments hvalid

/-- Whatever the file system answers, the commands change nothing but what is inside the directory,
exactly when a path that they accept names something behind `/apps/`. -/
theorem commands_confined_iff (arguments : Text) (h0 : 0 ∉ arguments) :
    ((FileCalls.fsWrite arguments).Only Harmless ↔
      ∀ rest content, arguments = lit "/apps/" ++ rest ++ space :: content →
        space ∉ lit "/apps/" ++ rest → Acceptable (lit "/apps/" ++ rest) content → NamesFile rest) ∧
    ((FileCalls.fsRemove arguments).Only Harmless ↔
      ∀ rest, arguments = lit "/apps/" ++ rest ++ lit " --confirm" →
        validFsPath (lit "/apps/" ++ rest) = true → NamesFile rest) :=
  ⟨fsWrite_only_iff h0, fsRemove_only_iff h0⟩

theorem commands_confined_iff_upload :
    ((FileCalls.fsWrite (lit "/apps/a x")).Only Harmless ↔
      ∀ rest content, lit "/apps/a x" = lit "/apps/" ++ rest ++ space :: content →
        space ∉ lit "/apps/" ++ rest → Acceptable (lit "/apps/" ++ rest) content → NamesFile rest) ∧
    ((FileCalls.fsRemove (lit "/apps/a x")).Only Harmless ↔
      ∀ rest, lit "/apps/a x" = lit "/apps/" ++ rest ++ lit " --confirm" →
        validFsPath (lit "/apps/" ++ rest) = true → NamesFile rest) :=
  commands_confined_iff (lit "/apps/a x") (by decide)

/-- Two lines whose last call is about the directory itself. -/
theorem directory_itself_named :
    route (lit "fs-remove /apps/ --confirm") = .ask (.fsRemove (lit "/apps/ --confirm")) ∧
    FileCalls.fsRemove (lit "/apps/ --confirm") = removeFile (lit "/littlefs/apps/") ∧
    resolve (lit "/littlefs/apps/") = appsDirectory ∧
    route (lit "fs-write /apps/. x") = .ask (.fsWrite (lit "/apps/. x")) ∧
    FileCalls.fsWrite (lit "/apps/. x") = writeFile (lit "/littlefs/apps/.") (lit "x") ∧
    resolve (lit "/littlefs/apps/.") = appsDirectory ∧
    ¬ ∀ arguments, 0 ∉ arguments → (FileCalls.fsWrite arguments).Only Harmless ∧
      (FileCalls.fsRemove arguments).Only Harmless := by
  refine ⟨rfl, rfl, by decide, rfl, rfl, by decide, fun h => ?_⟩
  have hremove := (h (lit "/apps/ --confirm") (by decide)).2 (.remove (lit "/littlefs/apps/")) (Or.inl rfl)
  exact (hremove _ (List.mem_singleton_self _)).proper (by decide)

end Esp32Shell.Idf.FileConfinement
