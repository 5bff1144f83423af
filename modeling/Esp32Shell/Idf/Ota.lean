import Esp32Shell.Idf.AppRuntime
import Esp32Shell.Library.Run

/-!
# The signed update of the ESP-IDF image

`ota_apply_signed_image`, with the calls of the update interface that it makes.
The image and the signature come from a caller in memory. The log is left out.
What the calls do is told by the device behind the interface: an update is
applied whole, or the device boots what it would have booted before.
-/
namespace Esp32Shell.Idf.Ota

open Esp32Shell.Library.CText Esp32Shell.Library.Run
open Storage.Nvs
open AppRuntime (Crypto)

structure Partition where
  address : Nat
  size : Nat
  deriving DecidableEq

/-- The calls that open, fill and close an update, and that select it for the next boot. -/
inductive OtaCall where
  | otaBegin (target : Partition) (imageSize : Nat)
  | otaWrite (data : List UInt8)
  | otaEnd
  | otaAbort
  | setBootPartition (target : Partition)
  deriving DecidableEq

/-- All that a call of `ota_apply_signed_image` meets; the last five fields tell which calls of the
update interface would return `ESP_OK`. -/
structure Platform where
  nvs : Flash
  crypto : Crypto
  nextUpdatePartition : Option Partition
  begins : Bool
  writes : Bool
  ends : Bool
  aborts : Bool
  selects : Bool

/-- The result, and every call that was made with its own. -/
structure Applied where
  accepted : Bool
  calls : List (OtaCall × Bool)
  deriving DecidableEq

/-- A return before any call. -/
def refused : Applied := ⟨false, []⟩

/-- `ota_public_key`, if it is a blob of 32 bytes. -/
def loadPublicKey (nvs : Flash) : Option (List UInt8) :=
  match nvsOpen nvs with
  | (false, _) => none
  | (true, nvs) => (nvs.store.getBlob (lit "ota_public_key") 32).filter (·.length = 32)

/-- The write session and the selection of the partition, once the signature is verified. -/
def writeImage (image : List UInt8) (target : Partition) (platform : Platform) : Applied :=
  let opened := (OtaCall.otaBegin target image.length, platform.begins)
  if ¬ platform.begins then ⟨false, [opened]⟩
  else
    let written := (OtaCall.otaWrite image, platform.writes)
    let closed := if platform.writes then (OtaCall.otaEnd, platform.ends)
      else (OtaCall.otaAbort, platform.aborts)
    if ¬ platform.writes ∨ ¬ closed.2 then ⟨false, [opened, written, closed]⟩
    else
      let selected := (OtaCall.setBootPartition target, platform.selects)
      ⟨platform.selects, [opened, written, closed, selected]⟩

/-- `ota_apply_signed_image`; `none` is a null pointer. -/
def otaApplySignedImage (image signature : Option (List UInt8)) (platform : Platform) : Applied :=
  match image, signature with
  | some image, some signature =>
    if image = [] then refused
    else
      match loadPublicKey platform.nvs with
      | none => refused
      | some publicKey =>
        match platform.crypto.sha256 0 image with
        | none => refused
        | some digest =>
          if ¬ (platform.crypto.importPublic publicKey ∧
              platform.crypto.verifyMsg publicKey digest signature) then refused
          else
            match platform.nextUpdatePartition with
            | none => refused
            | some target =>
              if image.length > target.size then refused else writeImage image target platform
  | _, _ => refused

/-- Without a key nothing is accepted, and no call is made. -/
theorem otaApplySignedImage_of_no_key {platform : Platform} (h : loadPublicKey platform.nvs = none)
    (image signature : Option (List UInt8)) : otaApplySignedImage image signature platform = refused := by
  unfold otaApplySignedImage
  cases image with
  | none => rfl
  | some image =>
    cases signature with
    | none => rfl
    | some signature => simp only [h, ite_self]

/-! ### The device behind the interface -/

/-- What the device knows of its updates: the selected partition, the one that an open session fills
with what was written so far, and the last session that ended with success. -/
structure Device where
  boot : Option Partition
  session : Option (Partition × List UInt8)
  ended : Option (Partition × List UInt8)

/-- One call, with whether it succeeds. An end closes the session whatever it returns. -/
def Device.perform (d : Device) : OtaCall × Bool → Device
  | (.otaBegin target _, ok) => if ok then { d with session := some (target, []) } else d
  | (.otaWrite data, ok) =>
    if ok then { d with session := d.session.map fun open_ => (open_.1, open_.2 ++ data) } else d
  | (.otaEnd, ok) => { d with session := none, ended := if ok then d.session else d.ended }
  | (.otaAbort, _) => { d with session := none }
  | (.setBootPartition target, ok) => if ok then { d with boot := some target } else d

def Device.replay (d : Device) (calls : List (OtaCall × Bool)) : Device := after Device.perform d calls

/-- A session is opened while there is none, written and closed while it is open, and open at the end
of no run: each one is closed by exactly one end or abort. -/
def sessionsClosed : Bool → List (OtaCall × Bool) → Bool
  | opened, [] => !opened
  | false, (.otaBegin _ _, ok) :: calls => sessionsClosed ok calls
  | true, (.otaWrite _, _) :: calls => sessionsClosed true calls
  | true, (.otaEnd, _) :: calls => sessionsClosed false calls
  | true, (.otaAbort, _) :: calls => sessionsClosed false calls
  | false, (.setBootPartition _, _) :: calls => sessionsClosed false calls
  | _, _ :: _ => false

/-- The stored key of 32 bytes verifies the signature over the hash of the whole image. -/
def Verified (image signature : Option (List UInt8)) (platform : Platform) : Prop :=
  ∃ bytes sig key digest, image = some bytes ∧ signature = some sig ∧
    platform.nvs.store.find (lit "ota_public_key") = some (.blob key) ∧ key.length = 32 ∧
    platform.crypto.sha256 0 bytes = some digest ∧ platform.crypto.importPublic key = true ∧
    platform.crypto.verifyMsg key digest sig = true

structure AllOrNothing (image signature : Option (List UInt8)) (platform : Platform) (d : Device)
    (applied : Applied) : Prop where
  verified : ∀ target imageSize ok, (OtaCall.otaBegin target imageSize, ok) ∈ applied.calls →
    Verified image signature platform
  complete : ∀ past target ok, Taken applied.calls past (OtaCall.setBootPartition target, ok) →
    platform.nextUpdatePartition = some target ∧
      ∃ bytes, image = some bytes ∧ (d.replay past).ended = some (target, bytes)
  closed : sessionsClosed false applied.calls = true
  selects : applied.accepted = true ↔ ∃ target, platform.nextUpdatePartition = some target ∧
    (OtaCall.setBootPartition target, true) ∈ applied.calls
  accepted : applied.accepted = true → ∃ target, platform.nextUpdatePartition = some target ∧
    (d.replay applied.calls).boot = some target
  refused : applied.accepted = false → (d.replay applied.calls).boot = d.boot

variable {image signature : Option (List UInt8)} {platform : Platform}

theorem loadPublicKey_eq_some {nvs : Flash} {key : List UInt8} (h : loadPublicKey nvs = some key) :
    nvs.store.find (lit "ota_public_key") = some (.blob key) ∧ key.length = 32 := by
  rw [loadPublicKey, nvsOpen_eq] at h
  cases hopen : nvs.results.headD true with
  | false =>
    rw [hopen] at h
    cases h
  | true =>
    rw [hopen] at h
    obtain ⟨hblob, hlength⟩ := Option.filter_eq_some_iff.mp h
    exact ⟨(Store.getBlob_eq_some_iff.mp hblob).1, by simpa using hlength⟩

/-- Either no call is made, or the image is verified and fits in the next partition. -/
theorem otaApplySignedImage_cases (image signature : Option (List UInt8)) (platform : Platform) :
    otaApplySignedImage image signature platform = refused ∨
      ∃ bytes target, image = some bytes ∧ Verified image signature platform ∧
        platform.nextUpdatePartition = some target ∧
        otaApplySignedImage image signature platform = writeImage bytes target platform := by
  unfold otaApplySignedImage
  cases image with
  | none => exact .inl rfl
  | some bytes =>
    cases signature with
    | none => exact .inl rfl
    | some sig =>
      simp only
      by_cases hempty : bytes = []
      · rw [if_pos hempty]
        exact .inl rfl
      rw [if_neg hempty]
      cases hkey : loadPublicKey platform.nvs with
      | none => exact .inl rfl
      | some key =>
        simp only
        cases hdigest : platform.crypto.sha256 0 bytes with
        | none => exact .inl rfl
        | some digest =>
          simp only
          by_cases hverified : platform.crypto.importPublic key = true ∧
              platform.crypto.verifyMsg key digest sig = true
          · rw [if_neg (not_not.mpr hverified)]
            cases hnext : platform.nextUpdatePartition with
            | none => exact .inl rfl
            | some target =>
              simp only
              by_cases hlarge : bytes.length > target.size
              · rw [if_pos hlarge]
                exact .inl rfl
              · rw [if_neg hlarge]
                obtain ⟨hfind, hlength⟩ := loadPublicKey_eq_some hkey
                exact .inr ⟨bytes, target, rfl, ⟨bytes, sig, key, digest, rfl, rfl, hfind, hlength,
                  hdigest, hverified⟩, rfl, rfl⟩
          · rw [if_pos hverified]
            exact .inl rfl

/-- The runs of the update interface: the call that fails is the last one, but for a failed write,
which is followed by an abort. -/
inductive WriteStep (bytes : List UInt8) (target : Partition) : Applied → Prop where
  | notBegun : WriteStep bytes target ⟨false, [(.otaBegin target bytes.length, false)]⟩
  | aborted (ok : Bool) : WriteStep bytes target
      ⟨false, [(.otaBegin target bytes.length, true), (.otaWrite bytes, false), (.otaAbort, ok)]⟩
  | notEnded : WriteStep bytes target
      ⟨false, [(.otaBegin target bytes.length, true), (.otaWrite bytes, true), (.otaEnd, false)]⟩
  | selected (ok : Bool) : WriteStep bytes target
      ⟨ok, [(.otaBegin target bytes.length, true), (.otaWrite bytes, true), (.otaEnd, true),
        (.setBootPartition target, ok)]⟩

theorem writeImage_cases (bytes : List UInt8) (target : Partition) (platform : Platform) :
    WriteStep bytes target (writeImage bytes target platform) := by
  obtain ⟨nvs, crypto, next, begins, writes, ends, aborts, selects⟩ := platform
  cases begins with
  | false => exact .notBegun
  | true =>
    cases writes with
    | false => exact .aborted aborts
    | true =>
      cases ends with
      | false => exact .notEnded
      | true => exact .selected selects

theorem allOrNothing_refused (image signature : Option (List UInt8)) (platform : Platform) (d : Device) :
    AllOrNothing image signature platform d refused := by
  refine ⟨fun _ _ _ h => ?_, fun past target ok h => ?_, rfl, ⟨fun h => ?_, fun h => ?_⟩, fun h => ?_,
    fun _ => rfl⟩
  · cases h
  · cases h.mem.1
  · cases h
  · obtain ⟨_, _, hmem⟩ := h
    cases hmem
  · cases h

/-- A call that is not among the first three is the selection. -/
theorem taken_select {opened written closed selected : OtaCall × Bool} {past : List (OtaCall × Bool)}
    {target : Partition} {ok : Bool}
    (h : Taken [opened, written, closed, selected] past (OtaCall.setBootPartition target, ok))
    (hnot : (OtaCall.setBootPartition target, ok) ∉ [opened, written, closed]) :
    past = [opened, written, closed] ∧ (OtaCall.setBootPartition target, ok) = selected := by
  have hcut : Taken ([opened, written, closed] ++ [selected]) past (OtaCall.setBootPartition target, ok) := h
  rcases taken_snoc_cases hcut with hearlier | hlast
  · exact absurd hearlier.mem.1 hnot
  · exact hlast

theorem allOrNothing_write {bytes : List UInt8} {target : Partition} {applied : Applied} {d : Device}
    (himage : image = some bytes) (hverified : Verified image signature platform)
    (hnext : platform.nextUpdatePartition = some target) (h : WriteStep bytes target applied) :
    AllOrNothing image signature platform d applied := by
  have hstarts : ∀ target imageSize ok, (OtaCall.otaBegin target imageSize, ok) ∈ applied.calls →
      Verified image signature platform := fun _ _ _ _ => hverified
  cases h with
  | notBegun =>
    refine ⟨hstarts, fun past target' ok h => ?_, rfl, ?_, fun h => ?_, fun _ => rfl⟩
    · simpa using h.mem.1
    · simp
    · cases h
  | aborted ok =>
    refine ⟨hstarts, fun past target' ok' h => ?_, rfl, ?_, fun h => ?_, fun _ => rfl⟩
    · simpa using h.mem.1
    · simp
    · cases h
  | notEnded =>
    refine ⟨hstarts, fun past target' ok h => ?_, rfl, ?_, fun h => ?_, fun _ => rfl⟩
    · simpa using h.mem.1
    · simp
    · cases h
  | selected ok =>
    refine ⟨hstarts, fun past target' ok' h => ?_, rfl, ?_, fun h => ?_, fun h => ?_⟩
    · obtain ⟨rfl, hsame⟩ := taken_select h (by simp)
      cases hsame
      exact ⟨hnext, bytes, himage, rfl⟩
    · simp [hnext]
    · replace h : ok = true := h
      rw [h]
      exact ⟨target, hnext, rfl⟩
    · replace h : ok = false := h
      rw [h]
      rfl

/-- An update starts behind the verification, selects behind the whole write and a successful end,
closes what it opens, and is accepted exactly when it has selected. -/
theorem ota_all_or_nothing (image signature : Option (List UInt8)) (platform : Platform) (d : Device) :
    AllOrNothing image signature platform d (otaApplySignedImage image signature platform) := by
  obtain hrefused | ⟨bytes, target, himage, hverified, hnext, hwrite⟩ :=
    otaApplySignedImage_cases image signature platform
  · rw [hrefused]
    exact allOrNothing_refused image signature platform d
  · rw [hwrite]
    have hcases := writeImage_cases bytes target platform
    generalize writeImage bytes target platform = applied at hcases
    exact allOrNothing_write himage hverified hnext hcases

end Esp32Shell.Idf.Ota
