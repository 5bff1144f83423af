import Esp32Shell.Library.CText
import Esp32Shell.Library.Sha256

/-!
# Signed app bundles

The header of a bundle and `SignedAppBundle::verify`. The signature is over the
digest of the payload alone; of the app's name the header knows the length.
-/
namespace Esp32Shell.Idf.SignedAppBundle

open Esp32Shell.Library.CText Esp32Shell.Library.Sha256

structure SignedAppBundleHeader where
  magic : List UInt8
  formatVersion : UInt8
  nameLength : UInt8
  payloadLength : Nat
  payloadSha256 : List UInt8
  signature : List UInt8

/-- `sizeof(SignedAppBundleHeader)`. -/
def headerSize : Nat := 112

def littleEndian (bytes : List UInt8) : Nat := bytes.foldr (fun b n => b.toNat + 256 * n) 0

/-- The header as it lies in memory; its two reserved bytes are not read. -/
def SignedAppBundleHeader.read (bytes : List UInt8) : SignedAppBundleHeader where
  magic := bytes.take 8
  formatVersion := byteAt bytes 8
  nameLength := byteAt bytes 9
  payloadLength := littleEndian ((bytes.drop 12).take 4)
  payloadSha256 := (bytes.drop 16).take 32
  signature := (bytes.drop 48).take 64

def magic : List UInt8 := lit "ESAPP01" ++ [0]
def maxNameLength : Nat := 31
def maxPayloadLength : Nat := 64 * 1024

/-- `AppBundleDigest`: what each call in turn answers for some data, if it succeeds. -/
abbrev AppBundleDigest := Nat → List UInt8 → Option Digest

/-- `AppBundleSignatureVerifier`. -/
abbrev AppBundleSignatureVerifier := Digest → List UInt8 → Bool

def verify (header : SignedAppBundleHeader) (name : Text) (payload : List UInt8)
    (digest : AppBundleDigest) (signatureVerifier : AppBundleSignatureVerifier) : Bool :=
  if header.magic ≠ magic ∨ header.formatVersion ≠ 1 ∨ header.nameLength = 0 ∨
      header.nameLength.toNat > maxNameLength ∨ name.length ≠ header.nameLength.toNat ∨
      payload.length = 0 ∨ payload.length > maxPayloadLength ∨
      header.payloadLength ≠ payload.length then false
  else
    match digest 0 payload with
    | none => false
    | some payloadDigest =>
      if payloadDigest.val ≠ header.payloadSha256 then false
      else
        match digest 1 payload with
        | none => false
        | some signedDigest => signatureVerifier signedDigest header.signature

variable {header : SignedAppBundleHeader} {name name' : Text} {payload : List UInt8}
  {digest : AppBundleDigest} {signatureVerifier : AppBundleSignatureVerifier}

theorem name_length_of_verify (h : verify header name payload digest signatureVerifier = true) :
    name.length = header.nameLength.toNat := by
  by_contra hne
  rw [verify, if_pos (by simp [hne])] at h
  cases h

/-- Of the name its length alone is looked at. -/
theorem verify_congr (h : name.length = name'.length) :
    verify header name payload digest signatureVerifier =
      verify header name' payload digest signatureVerifier := by
  rw [verify, verify, h]

end Esp32Shell.Idf.SignedAppBundle
