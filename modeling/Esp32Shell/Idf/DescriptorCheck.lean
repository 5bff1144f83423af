import Esp32Shell.Idf.SignedApps

/-!
# The bytes behind a payload

`run` looks for the descriptor with `strncmp`, which knows nothing of the length
of the payload. A payload that the descriptor starts with does not stop it, and
what lies behind the payload in memory takes part in the decision.
-/
namespace Esp32Shell.Idf.DescriptorCheck

open Esp32Shell.Library.CText
open Library.Sha256 (sha256)
open Storage.LittleFs AppRuntime SignedApps SignedAppBundle

variable {name : Text} {board : Board} {payload : List UInt8}

/-- The number of bytes from the start of the payload on that the test of the descriptor looks at. -/
def examined (payload behind : List UInt8) : Nat :=
  if payload.length < 128 then strncmpReads (payload ++ behind) descriptor 18 else 0

/-- The board with other bytes behind the payload. -/
def followedBy (board : Board) (behind : List UInt8) : Board := { board with behind := behind }

/-! ### The test -/

/-- The bound of the comparison is behind the terminator of the descriptor. -/
theorem supported_iff (payload behind : List UInt8) : supported payload behind = true ↔
    payload.length < 128 ∧ cString (payload ++ behind) = descriptor := by
  have htake : descriptor.take 18 = descriptor := by decide
  have hlength : descriptor.length = 17 := by decide
  simp only [supported, strncmpEq, Bool.and_eq_true, decide_eq_true_eq, beq_iff_eq, htake]
  refine and_congr_right fun _ => ?_
  constructor
  · intro h
    have hshort := congrArg List.length h
    rw [List.length_take, hlength] at hshort
    rw [← h]
    exact (List.take_of_length_le (by omega)).symm
  · intro h
    rw [h, htake]

theorem examined_le (hnot : ¬ payload <+: descriptor) (behind : List UInt8) :
    examined payload behind ≤ payload.length := by
  rw [examined]
  split
  · exact strncmpReads_le hnot 18 behind
  · exact Nat.zero_le _

theorem length_of_begins (h : payload <+: descriptor) : payload.length < 18 := by
  have hle := h.length_le
  have hlength : descriptor.length = 17 := by decide
  omega

theorem lt_examined (h : payload <+: descriptor) (behind : List UInt8) :
    payload.length < examined payload behind := by
  have hshort := length_of_begins h
  rw [examined, if_pos (by omega)]
  exact lt_strncmpReads (by decide) h hshort behind

theorem supported_congr (hnot : ¬ payload <+: descriptor) (behind behind' : List UInt8) :
    supported payload behind = supported payload behind' := by
  rw [Bool.eq_iff_iff, supported_iff, supported_iff]
  by_cases h0 : 0 ∈ payload
  · rw [cString_append_of_mem h0, cString_append_of_mem h0]
  · -- an unterminated payload would have to be the start of the descriptor
    have hne : ∀ rest, cString (payload ++ rest) ≠ descriptor := by
      intro rest he
      rw [cString_append_of_notMem h0] at he
      exact hnot ⟨cString rest, he⟩
    simp only [hne]

/-- The rest of the descriptor behind its start makes it whole, another byte does not. -/
theorem supported_differs (h : payload <+: descriptor) :
    ∃ behind behind', supported payload behind = true ∧ supported payload behind' = false := by
  have hshort := length_of_begins h
  have hzero : 0 ∉ descriptor := by decide
  have hone : 1 ∉ descriptor := by decide
  obtain ⟨more, hmore⟩ := h
  have h0 : 0 ∉ payload := fun hm => hzero (hmore ▸ List.mem_append_left more hm)
  refine ⟨more ++ [0], [1], ?_, ?_⟩
  · rw [supported_iff, ← List.append_assoc, hmore, cString_append_zero hzero]
    exact ⟨by omega, rfl⟩
  · rw [Bool.eq_false_iff, Ne, supported_iff, cString_append_of_notMem h0]
    intro hsame
    apply hone
    rw [← hsame.2]
    simp [cString]

/-! ### The runs -/

theorem appToRun_followedBy (hload : loadAndVerify name board = .ok payload) (behind : List UInt8)
    {rt : Runtime} (hfind : find name rt = none) :
    appToRun name (followedBy board behind) rt =
      if ¬ supported payload behind then .error (lit "error: signed app descriptor is unsupported")
      else .ok (findOrCreateSigned name rt) := by
  have hload' : loadAndVerify name (followedBy board behind) = .ok payload := hload
  exact appToRun_of_loaded hload' hfind

theorem decided_of_not_begins (hload : loadAndVerify name board = .ok payload)
    (hnot : ¬ payload <+: descriptor) (behind behind' : List UInt8) (rt : Runtime) :
    appToRun name (followedBy board behind) rt = appToRun name (followedBy board behind') rt := by
  cases hfind : find name rt with
  | some i => simp only [appToRun, hfind]
  | none =>
    rw [appToRun_followedBy hload behind hfind, appToRun_followedBy hload behind' hfind,
      supported_congr hnot behind behind']

theorem differs_of_begins (hload : loadAndVerify name board = .ok payload) (h : payload <+: descriptor) :
    ∃ behind behind' rt,
      appToRun name (followedBy board behind) rt ≠ appToRun name (followedBy board behind') rt := by
  obtain ⟨behind, behind', hyes, hno⟩ := supported_differs h
  refine ⟨behind, behind', ⟨[], []⟩, fun he => ?_⟩
  rw [appToRun_followedBy hload behind rfl, appToRun_followedBy hload behind' rfl, hyes, hno] at he
  cases he

/-- For a payload that verifies, the test looks at the payload alone exactly when it is no start of the
descriptor, and only then `run` decides the same whatever lies behind it in memory. -/
theorem payload_decides_iff (hload : loadAndVerify name board = .ok payload) :
    ((∀ behind, examined payload behind ≤ payload.length) ↔ ¬ payload <+: descriptor) ∧
    ((∀ behind behind' rt,
        appToRun name (followedBy board behind) rt = appToRun name (followedBy board behind') rt) ↔
      ¬ payload <+: descriptor) := by
  refine ⟨⟨fun h hbegins => ?_, examined_le⟩, ⟨fun h hbegins => ?_, decided_of_not_begins hload⟩⟩
  · exact absurd (h []) (Nat.not_le.mpr (lt_examined hbegins []))
  · obtain ⟨behind, behind', rt, hne⟩ := differs_of_begins hload hbegins
    exact hne (h behind behind' rt)

/-- The payload of `blink` ends with its terminator. -/
theorem blink_decides :
    (∀ behind, examined (descriptor ++ [0]) behind ≤ (descriptor ++ [0]).length) ∧
    ∀ behind behind' rt, appToRun (lit "blink") (followedBy (signedBoard 7) behind) rt =
      appToRun (lit "blink") (followedBy (signedBoard 7) behind') rt := by
  have hnot : ¬ descriptor ++ [0] <+: descriptor := by decide
  exact ⟨(payload_decides_iff load_blink).1.mpr hnot, (payload_decides_iff load_blink).2.mpr hnot⟩

/-! ### A bundle without the terminator -/

/-- SHA-256 of the descriptor alone. -/
def bareDigest : List UInt8 :=
  hexBytes (lit "2f39f8983cc2f1b9a159ba21e2e33cf03a7c1c6e01650713dba932c978dda837")

/-- The Ed25519 signature of the digest under the key. -/
def bareSignature : List UInt8 :=
  hexBytes (lit "58217612140a933cd61a3ac0aae5cd6cd131013a63f39b7d82844b12ac19c3c2" ++
    lit "8db5f59c4fd1aa9bc922ed6e5ba3c3c794893d620ccf88cc6f4bb74f00414602")

def bareBundle : List UInt8 :=
  magic ++ [1, 5, 0, 0, 17, 0, 0, 0] ++ bareDigest ++ bareSignature ++ descriptor

def bundleFile : Path := [lit "littlefs", lit "apps", lit "blink.bundle"]

theorem bundleFile_free : Tree.mounted.entry bundleFile ≠ some .dir := by decide

theorem bundleFile_parent : Tree.mounted.entry bundleFile.dropLast = some .dir := by decide

/-- A board with this bundle as that of `blink`. -/
def bareBoard (behind : List UInt8) : Board :=
  { signedBoard 7 with
    fs := ⟨Tree.mounted.setFile bundleFile bareBundle bundleFile_free bundleFile_parent, []⟩
    crypto := ⟨fun _ data => some (sha256 data), fun key => key == signingKey,
      fun key digest signature =>
        key == signingKey && digest.val == bareDigest && signature == bareSignature⟩
    behind := behind }

theorem load_bare (behind : List UInt8) :
    loadAndVerify (lit "blink") (bareBoard behind) = .ok descriptor := by
  -- what lies behind the payload is not read before the descriptor is looked for
  have hload : loadAndVerify (lit "blink") (bareBoard []) = .ok descriptor := by decide +kernel
  exact hload

/-- The same signed payload is started or refused, as the byte behind it is. -/
theorem bare_descriptor_differs :
    loadAndVerify (lit "blink") (bareBoard []) = .ok descriptor ∧
    (run (lit "blink") (bareBoard [0]) initial).lines = [lit "app-started=blink"] ∧
    (run (lit "blink") (bareBoard [1]) initial).lines =
      [lit "error: signed app descriptor is unsupported"] ∧
    examined descriptor [0] = 18 ∧
    ¬ ∀ name board payload, loadAndVerify name board = .ok payload →
      (∀ behind, examined payload behind ≤ payload.length) ∧
      ∀ behind behind' rt,
        appToRun name (followedBy board behind) rt = appToRun name (followedBy board behind') rt := by
  refine ⟨load_bare [], ?_, ?_, by decide, fun h => ?_⟩
  · rw [run, appToRun_of_loaded (load_bare [0]) (by decide), if_neg (by decide)]
    decide
  · rw [run, appToRun_of_loaded (load_bare [1]) (by decide), if_pos (by decide)]
  · have hlong := (h (lit "blink") (bareBoard []) descriptor (load_bare [])).1 [0]
    exact absurd hlong (by decide)

end Esp32Shell.Idf.DescriptorCheck
