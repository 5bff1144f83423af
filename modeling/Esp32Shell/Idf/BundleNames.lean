import Esp32Shell.Idf.SignedApps

/-!
# The names of a bundle

A bundle is looked for under the name of its app. Its header has the length of
the name and its signature is over the payload: a file that verifies under one
name verifies under every name of that length.
-/
namespace Esp32Shell.Idf.BundleNames

open Esp32Shell.Library.CText Esp32Shell.Library.Sha256
open Storage.LittleFs AppRuntime SignedApps SignedAppBundle

/-- `verify` accepts the file, as `loadAndVerify` reads it, for this name. -/
def accepts (digest : AppBundleDigest) (signatureVerifier : AppBundleSignatureVerifier)
    (file : List UInt8) (name : Text) : Bool :=
  match readBundle file with
  | none => false
  | some (header, payload) => verify header name payload digest signatureVerifier

/-- No two payloads that are hashed have one digest. -/
def CollisionFree (digest : AppBundleDigest) : Prop :=
  ∀ i j payload payload' d, digest i payload = some d → digest j payload' = some d → payload = payload'

variable {digest : AppBundleDigest} {signatureVerifier : AppBundleSignatureVerifier}
  {file : List UInt8} {name name' : Text}

theorem accepts_iff : accepts digest signatureVerifier file name = true ↔
    ∃ header payload, readBundle file = some (header, payload) ∧
      verify header name payload digest signatureVerifier = true := by
  rw [accepts]
  cases readBundle file with
  | none => simp
  | some read =>
    obtain ⟨header, payload⟩ := read
    simp

/-- What `loadAndVerify` asks for beside the file: a safe name, memory and a key. -/
theorem loads_iff (name : Text) (board : Board) : (∃ payload, loadAndVerify name board = .ok payload) ↔
    safeName name = true ∧ board.allocated = true ∧ ∃ file signatureVerifier,
      (board.fs.fopenRb (resolve (bundlePath name))).1 = some file ∧
      loadSignatureVerifier board.nvs board.crypto = some signatureVerifier ∧
      accepts board.crypto.sha256 signatureVerifier file name = true := by
  constructor
  · intro h
    obtain ⟨payload, hload⟩ := h
    obtain ⟨hsafe, hallocated, file, verifier, header, hfile, hverifier, hread⟩ :=
      loadAndVerify_eq_ok_iff.mp hload
    exact ⟨hsafe, hallocated, file, verifier, hfile, hverifier, accepts_iff.mpr ⟨header, payload, hread⟩⟩
  · intro h
    obtain ⟨hsafe, hallocated, file, verifier, hfile, hverifier, haccepts⟩ := h
    obtain ⟨header, payload, hread⟩ := accepts_iff.mp haccepts
    exact ⟨payload, loadAndVerify_eq_ok_iff.mpr
      ⟨hsafe, hallocated, file, verifier, header, hfile, hverifier, hread⟩⟩

theorem length_eq_of_accepts (h : accepts digest signatureVerifier file name = true)
    (h' : accepts digest signatureVerifier file name' = true) : name.length = name'.length := by
  obtain ⟨header, payload, hread, hverify⟩ := accepts_iff.mp h
  obtain ⟨header', payload', hread', hverify'⟩ := accepts_iff.mp h'
  rw [hread'] at hread
  cases hread
  rw [name_length_of_verify hverify, name_length_of_verify hverify']

theorem accepts_congr (h : name.length = name'.length) :
    accepts digest signatureVerifier file name = accepts digest signatureVerifier file name' := by
  rw [accepts, accepts]
  cases readBundle file with
  | none => rfl
  | some read => exact verify_congr h

/-- A file that is accepted for one name is accepted for another exactly when the names have one length. -/
theorem accepts_both_iff (digest : AppBundleDigest) (signatureVerifier : AppBundleSignatureVerifier)
    (file : List UInt8) (name name' : Text) :
    (accepts digest signatureVerifier file name = true ∧ accepts digest signatureVerifier file name' = true) ↔
      (accepts digest signatureVerifier file name = true ∧ name.length = name'.length) := by
  constructor
  · intro h
    exact ⟨h.1, length_eq_of_accepts h.1 h.2⟩
  · intro h
    exact ⟨h.1, accepts_congr h.2 ▸ h.1⟩

/-! ### A renamed file -/

/-- The board with the bundle of `blink` under the name of another app. -/
def renamedBoard : Board :=
  { signedBoard 7 with
    fs := ⟨Tree.mounted.setFile [lit "littlefs", lit "apps", lit "other.bundle"] blinkBundle
      (by decide) (by decide), []⟩ }

/-- SHA-256, of this payload alone. -/
def blinkDigests : AppBundleDigest := fun _ data =>
  if data = descriptor ++ [0] then some (sha256 data) else none

def blinkVerifier : AppBundleSignatureVerifier := (signedBoard 7).crypto.verifyMsg signingKey

theorem blinkDigests_collisionFree : CollisionFree blinkDigests := by
  intro i j payload payload' d h h'
  obtain ⟨hpayload, -⟩ := Option.ite_none_right_eq_some.mp h
  obtain ⟨hpayload', -⟩ := Option.ite_none_right_eq_some.mp h'
  rw [hpayload, hpayload']

/-- The bundle of one app is that of another one under its name. -/
theorem bundle_renamed :
    loadAndVerify (lit "blink") (signedBoard 7) = .ok (descriptor ++ [0]) ∧
    loadAndVerify (lit "other") renamedBoard = .ok (descriptor ++ [0]) ∧
    ¬ ∀ digest signatureVerifier file name name', CollisionFree digest →
      safeName name = true → safeName name' = true → name ≠ name' →
      ¬ (accepts digest signatureVerifier file name = true ∧
        accepts digest signatureVerifier file name' = true) := by
  have hblink : accepts blinkDigests blinkVerifier blinkBundle (lit "blink") = true := by decide +kernel
  have hlength : (lit "blink").length = (lit "other").length := by decide
  have hother : accepts blinkDigests blinkVerifier blinkBundle (lit "other") = true := by
    rw [← accepts_congr hlength, hblink]
  refine ⟨load_blink, by decide +kernel, fun h => ?_⟩
  exact h blinkDigests blinkVerifier blinkBundle (lit "blink") (lit "other") blinkDigests_collisionFree
    (by decide) (by decide) (by decide) ⟨hblink, hother⟩

end Esp32Shell.Idf.BundleNames
