import Esp32Shell.Idf.Ota
import Esp32Shell.Library.Register
import Esp32Shell.Library.Run

/-!
# The update slots of the Arduino image

`OtaSlotManager` with its policy, and what its state says about the update over
any run of `begin`, `write` and `finalize`. The policy is marked as pending
before the boot partition is set, and a `begin` that fails may already have
replaced the target of the open session.
-/
namespace Esp32Shell.Arduino.OtaService

open Esp32Shell.Library.CText Esp32Shell.Library.Register Esp32Shell.Library.Run
open Idf.Ota (Partition)

/-! ### The policy -/

inductive OtaState where
  | idle | downloading | verified | pendingReboot | bootValidated | rolledBack | failed
  | signatureRejected
  deriving DecidableEq, Repr

namespace OtaPolicy

def begin : OtaState := .downloading

def verify (hashValid signatureValid : Bool) : OtaState :=
  if ¬ signatureValid then .signatureRejected else if hashValid then .verified else .failed

def markPendingReboot (state : OtaState) : OtaState :=
  if state = .verified then .pendingReboot else state

def canBoot (state : OtaState) : Bool := state == .verified || state == .pendingReboot

end OtaPolicy

/-! ### The slot manager -/

/-- `verify` of a `SignatureVerifier`, on a digest and a signature; `none` is a null pointer. -/
abbrev SignatureVerifier := Option (List UInt8) → Option (List UInt8) → Bool

/-- No session is open while `handle_` is 0. -/
structure OtaSlotManager where
  target_ : Option Partition
  handle_ : Nat
  policy_ : OtaState

def initial : OtaSlotManager := ⟨none, 0, .idle⟩

/-- `begin`, with the partition that is next and the handle that `esp_ota_begin` gives, if it
succeeds. -/
def begin (s : OtaSlotManager) (imageSize : Nat) (next : Option Partition) (opened : Option Nat) :
    OtaSlotManager × Bool :=
  match next with
  | none => ({ s with target_ := none }, false)
  | some target =>
    if imageSize = 0 ∨ imageSize > target.size then ({ s with target_ := some target }, false)
    else
      match opened with
      | none => ({ s with target_ := some target, policy_ := OtaPolicy.begin }, false)
      | some handle => (⟨some target, handle, OtaPolicy.begin⟩, true)

/-- `write`, with the outcome of `esp_ota_write`. -/
def write (s : OtaSlotManager) (data : Option (List UInt8)) (written : Bool) : Bool :=
  match data with
  | none => false
  | some data => s.handle_ ≠ 0 ∧ data ≠ [] ∧ written

/-- The arguments of `finalize`, and whether its calls of ESP-IDF would return `ESP_OK`. -/
structure Finalization where
  imageHashValid : Bool
  verifier : SignatureVerifier
  digest : Option (List UInt8)
  signature : Option (List UInt8)
  ends : Bool
  selects : Bool

def Finalization.signatureValid (f : Finalization) : Bool := f.verifier f.digest f.signature

/-- What `finalize` leaves and returns, and the partition that it has selected for the next boot. -/
structure Finalized where
  manager : OtaSlotManager
  answer : Bool
  selected : Option Partition

def finalize (s : OtaSlotManager) (f : Finalization) : Finalized :=
  if s.handle_ = 0 then ⟨s, false, none⟩
  else
    match s.target_ with
    | none => ⟨s, false, none⟩
    | some target =>
      if ¬ f.ends then
        ⟨{ s with handle_ := 0, policy_ := OtaPolicy.verify false f.signatureValid }, false, none⟩
      else
        let policy := OtaPolicy.verify f.imageHashValid f.signatureValid
        if ¬ OtaPolicy.canBoot policy then ⟨{ s with handle_ := 0, policy_ := policy }, false, none⟩
        else
          ⟨{ s with handle_ := 0, policy_ := OtaPolicy.markPendingReboot policy }, f.selects,
            if f.selects then some target else none⟩

/-- The text of `state()`. -/
def state (s : OtaSlotManager) : Text :=
  match s.policy_ with
  | .idle => lit "idle"
  | .downloading => lit "downloading"
  | .verified => lit "verified"
  | .pendingReboot => lit "pending-reboot"
  | .bootValidated => lit "boot-validated"
  | .rolledBack => lit "rolled-back"
  | .signatureRejected => lit "signature-rejected"
  | .failed => lit "failed"

/-! ### Runs -/

inductive OtaCall where
  | begin (imageSize : Nat) (next : Option Partition) (opened : Option Nat)
  | write (data : Option (List UInt8)) (written : Bool)
  | finalize (f : Finalization)

def next (s : OtaSlotManager) : OtaCall → OtaSlotManager
  | .begin imageSize partition opened => (begin s imageSize partition opened).1
  | .write _ _ => s
  | .finalize f => (finalize s f).manager

def afterCalls (calls : List OtaCall) : OtaSlotManager := after next initial calls

/-- The partition that a `begin` has chosen, if it has opened a session. -/
def opens (m : OtaSlotManager × OtaCall) : Option Partition :=
  match m.2 with
  | .begin imageSize partition opened =>
    if (begin m.1 imageSize partition opened).2 then partition else none
  | _ => none

/-- The partition that was chosen by the `begin` of the latest session. -/
def chosen (calls : List OtaCall) : Option Partition := latch opens (moments next initial calls)

def OtaCall.isFinalize : OtaCall → Bool
  | .finalize _ => true
  | _ => false

/-- The update is verified and complete, and its own partition is selected. -/
structure Completes (past : List OtaCall) (f : Finalization) : Prop where
  signature : f.signatureValid = true
  hash : f.imageHashValid = true
  ends : f.ends = true
  answer : (finalize (afterCalls past) f).answer = true
  selected : ∃ p, (finalize (afterCalls past) f).selected = some p ∧ chosen past = some p

/-- The latest `finalize` of the run has completed its update. -/
def LatestCompletes (calls : List OtaCall) : Prop :=
  ∃ past f more, calls = past ++ .finalize f :: more ∧ (∀ c ∈ more, c.isFinalize = false) ∧
    Completes past f

/-- A pending reboot is reported for a completed update alone, and nothing can boot after a
`finalize` that fails. -/
structure Truthful (calls : List OtaCall) : Prop where
  pending : ∀ past, past <+: calls → state (afterCalls past) = lit "pending-reboot" →
    LatestCompletes past
  failing : ∀ past f, Taken calls past (.finalize f) → (finalize (afterCalls past) f).answer = false →
    OtaPolicy.canBoot (finalize (afterCalls past) f).manager.policy_ = false

/-- Without a session, `finalize` finds no reboot pending; an update that is ended and valid is
selected, and the target is still that of its session. -/
structure Selects (past : List OtaCall) (f : Finalization) : Prop where
  idle : (afterCalls past).handle_ = 0 ∨ (afterCalls past).target_ = none →
    (afterCalls past).policy_ ≠ .pendingReboot
  valid : (afterCalls past).handle_ ≠ 0 → (afterCalls past).target_ ≠ none → f.ends = true →
    f.imageHashValid = true → f.signatureValid = true →
    f.selects = true ∧ (afterCalls past).target_ = chosen past

theorem afterCalls_snoc (calls : List OtaCall) (c : OtaCall) :
    afterCalls (calls ++ [c]) = next (afterCalls calls) c := after_snoc calls c

/-! ### One call -/

inductive FinalizeStep (s : OtaSlotManager) (f : Finalization) : Finalized → Prop where
  | refuses (h : s.handle_ = 0 ∨ s.target_ = none) : FinalizeStep s f ⟨s, false, none⟩
  | rejects (policy : OtaState) (hhandle : s.handle_ ≠ 0) (htarget : s.target_ ≠ none)
      (hbad : ¬ (f.ends = true ∧ f.imageHashValid = true ∧ f.signatureValid = true))
      (hpolicy : OtaPolicy.canBoot policy = false) :
      FinalizeStep s f ⟨{ s with handle_ := 0, policy_ := policy }, false, none⟩
  | accepts (target : Partition) (hhandle : s.handle_ ≠ 0) (htarget : s.target_ = some target)
      (hends : f.ends = true) (hhash : f.imageHashValid = true) (hsignature : f.signatureValid = true) :
      FinalizeStep s f ⟨{ s with handle_ := 0, policy_ := .pendingReboot }, f.selects,
        if f.selects then some target else none⟩

/-- Only a valid hash with a valid signature is verified. -/
theorem canBoot_verify (hash signature : Bool) :
    OtaPolicy.canBoot (OtaPolicy.verify hash signature) = (hash && signature) := by
  cases hash <;> cases signature <;> rfl

theorem finalize_cases (s : OtaSlotManager) (f : Finalization) : FinalizeStep s f (finalize s f) := by
  obtain ⟨target_, handle_, policy_⟩ := s
  unfold finalize
  by_cases hhandle : handle_ = 0
  · rw [if_pos hhandle]
    exact .refuses (.inl hhandle)
  rw [if_neg hhandle]
  cases target_ with
  | none => exact .refuses (.inr rfl)
  | some target =>
    simp only [canBoot_verify]
    by_cases hends : f.ends = true
    · rw [if_neg (not_not.mpr hends)]
      by_cases hvalid : (f.imageHashValid && f.signatureValid) = true
      · rw [if_neg (not_not.mpr hvalid)]
        obtain ⟨hhash, hsignature⟩ := Bool.and_eq_true_iff.mp hvalid
        rw [hhash, hsignature]
        exact .accepts target hhandle rfl hends hhash hsignature
      · rw [if_pos hvalid]
        refine .rejects _ hhandle (Option.some_ne_none target) (fun hall => hvalid ?_) ?_
        · rw [hall.2.1, hall.2.2, Bool.and_true]
        · rw [canBoot_verify]
          simpa using hvalid
    · rw [if_pos hends]
      refine .rejects _ hhandle (Option.some_ne_none target) (fun hall => hends hall.1) ?_
      rw [canBoot_verify, Bool.false_and]

theorem state_pending_iff (s : OtaSlotManager) :
    state s = lit "pending-reboot" ↔ s.policy_ = .pendingReboot := by
  have htexts : ∀ policy, state ⟨none, 0, policy⟩ = lit "pending-reboot" ↔ policy = .pendingReboot := by
    intro policy
    cases policy with
    | pendingReboot => exact iff_of_true rfl rfl
    | idle => exact iff_of_false (by decide) nofun
    | downloading => exact iff_of_false (by decide) nofun
    | verified => exact iff_of_false (by decide) nofun
    | bootValidated => exact iff_of_false (by decide) nofun
    | rolledBack => exact iff_of_false (by decide) nofun
    | failed => exact iff_of_false (by decide) nofun
    | signatureRejected => exact iff_of_false (by decide) nofun
  exact htexts s.policy_

/-- A `begin` leaves the policy as it is, or starts anew. -/
theorem begin_policy (s : OtaSlotManager) (imageSize : Nat) (partition : Option Partition)
    (opened : Option Nat) : (begin s imageSize partition opened).1.policy_ = s.policy_ ∨
      (begin s imageSize partition opened).1.policy_ = .downloading := by
  unfold begin
  cases partition with
  | none => exact .inl rfl
  | some target =>
    simp only
    split_ifs
    · exact .inl rfl
    · cases opened with
      | none => exact .inr rfl
      | some handle => exact .inr rfl

/-! ### The runs -/

/-- What holds of the policy as long as every `finalize` selects. -/
structure Sound (calls : List OtaCall) (s : OtaSlotManager) : Prop where
  verified_ne : s.policy_ ≠ .verified
  pending : s.policy_ = .pendingReboot → LatestCompletes calls

theorem LatestCompletes.snoc {calls : List OtaCall} (h : LatestCompletes calls) {c : OtaCall}
    (hc : c.isFinalize = false) : LatestCompletes (calls ++ [c]) := by
  obtain ⟨past, f, more, rfl, hmore, hdone⟩ := h
  refine ⟨past, f, more ++ [c], by simp, fun x hx => ?_, hdone⟩
  rcases List.mem_append.mp hx with hx | hx
  · exact hmore x hx
  · rw [List.mem_singleton.mp hx, hc]

theorem latest_completes_last {past : List OtaCall} {f : Finalization}
    (h : LatestCompletes (past ++ [.finalize f])) : Completes past f := by
  obtain ⟨before, f', more, hcut, hmore, hdone⟩ := h
  induction more using List.reverseRecOn with
  | nil =>
    obtain ⟨rfl, hf⟩ := List.append_inj' hcut rfl
    cases hf
    exact hdone
  | append_singleton more c _ =>
    rw [← List.cons_append, ← List.append_assoc] at hcut
    obtain ⟨-, hc⟩ := List.append_inj' hcut rfl
    obtain rfl : OtaCall.finalize f = c := List.singleton_inj.mp hc
    cases hmore (.finalize f) (by simp)

/-- A `finalize` that selects reports a pending reboot for its own update alone. -/
theorem sound_finalize {past : List OtaCall} {f : Finalization} (h : Sound past (afterCalls past))
    (hf : Selects past f) : Sound (past ++ [.finalize f]) (finalize (afterCalls past) f).manager := by
  have hcases := finalize_cases (afterCalls past) f
  generalize hdone : finalize (afterCalls past) f = done at hcases
  cases hcases with
  | refuses hclosed => exact ⟨h.verified_ne, fun hpending => absurd hpending (hf.idle hclosed)⟩
  | rejects policy _ _ _ hpolicy =>
    refine ⟨fun hverified => ?_, fun hpending => ?_⟩
    · rw [show policy = _ from hverified] at hpolicy
      cases hpolicy
    · rw [show policy = _ from hpending] at hpolicy
      cases hpolicy
  | accepts target hhandle htarget hends hhash hsignature =>
    have hsome : (afterCalls past).target_ ≠ none := by simp [htarget]
    obtain ⟨hselects, hsame⟩ := hf.valid hhandle hsome hends hhash hsignature
    refine ⟨nofun, fun _ => ⟨past, f, [], rfl, by simp, hsignature, hhash, hends, ?_, target, ?_, ?_⟩⟩
    · rw [hdone]
      exact hselects
    · rw [hdone]
      exact if_pos hselects
    · rw [← hsame, htarget]

theorem sound_of_selects {calls : List OtaCall}
    (h : ∀ past f, Taken calls past (.finalize f) → Selects past f) :
    Sound calls (afterCalls calls) := by
  refine after_induction (P := Sound) (C := fun past c => ∀ f, c = .finalize f → Selects past f)
    ⟨fun h => (by cases h), fun h => (by cases h)⟩ ?_
    fun past c htaken f hc => h past f (hc ▸ htaken)
  intro past c hpast hc
  cases c with
  | begin imageSize partition opened =>
    rcases begin_policy (afterCalls past) imageSize partition opened with hkept | hnew
    · refine ⟨fun hverified => ?_, fun hpending => ?_⟩
      · exact hpast.verified_ne (hkept.symm.trans hverified)
      · exact (hpast.pending (hkept.symm.trans hpending)).snoc rfl
    · refine ⟨fun hverified => ?_, fun hpending => ?_⟩
      · cases hnew.symm.trans hverified
      · cases hnew.symm.trans hpending
  | write data written => exact ⟨hpast.verified_ne, fun hpending => (hpast.pending hpending).snoc rfl⟩
  | finalize f => exact sound_finalize hpast (hc f rfl)

theorem Truthful.selects {calls : List OtaCall} (htruth : Truthful calls) {past : List OtaCall}
    {f : Finalization} (htaken : Taken calls past (.finalize f)) : Selects past f := by
  have hcases := finalize_cases (afterCalls past) f
  have hfailing := htruth.failing past f htaken
  have hpending := htruth.pending (past ++ [OtaCall.finalize f]) htaken
  rw [afterCalls_snoc, state_pending_iff] at hpending
  simp only [next] at hpending
  generalize hdone : finalize (afterCalls past) f = done at hcases hfailing hpending
  cases hcases with
  | refuses hclosed =>
    refine ⟨fun _ hstate => ?_, fun hhandle htarget => ?_⟩
    · have hboot := hfailing rfl
      rw [hstate] at hboot
      cases hboot
    · exact absurd hclosed (not_or.mpr ⟨hhandle, htarget⟩)
  | rejects policy hhandle htarget hbad hpolicy =>
    refine ⟨fun hclosed => ?_, fun _ _ hends hhash hsignature => ?_⟩
    · exact absurd hclosed (not_or.mpr ⟨hhandle, htarget⟩)
    · exact absurd ⟨hends, hhash, hsignature⟩ hbad
  | accepts target hhandle htarget hends hhash hsignature =>
    have hsome : (afterCalls past).target_ ≠ none := by simp [htarget]
    have hcompletes := latest_completes_last (hpending rfl)
    obtain ⟨p, hselected, hchosen⟩ := hcompletes.selected
    refine ⟨fun hclosed => absurd hclosed (not_or.mpr ⟨hhandle, hsome⟩), fun _ _ _ _ _ => ?_⟩
    have hselects := hcompletes.answer
    rw [hdone] at hselected hselects
    replace hselects : f.selects = true := hselects
    obtain rfl : target = p := Option.some_inj.mp ((if_pos hselects).symm.trans hselected)
    exact ⟨hselects, htarget.trans hchosen.symm⟩

theorem truthful_of_selects {calls : List OtaCall}
    (hselects : ∀ past f, Taken calls past (.finalize f) → Selects past f) : Truthful calls := by
  have hpast : ∀ past, past <+: calls → Sound past (afterCalls past) := fun past hprefix =>
    sound_of_selects fun before f htaken => hselects before f (htaken.trans hprefix)
  refine ⟨fun past hprefix hstate => ?_, fun past f htaken hanswer => ?_⟩
  · exact (hpast past hprefix).pending ((state_pending_iff _).mp hstate)
  · have hsound := hpast past ((List.prefix_append _ _).trans htaken)
    have hf := hselects past f htaken
    have hcases := finalize_cases (afterCalls past) f
    generalize finalize (afterCalls past) f = done at hcases hanswer
    cases hcases with
    | refuses hclosed =>
      have hpending := hf.idle hclosed
      have hverified := hsound.verified_ne
      simp [OtaPolicy.canBoot, hpending, hverified]
    | rejects policy _ _ _ hpolicy => exact hpolicy
    | accepts target hhandle htarget hends hhash hsignature =>
      have hsome : (afterCalls past).target_ ≠ none := by simp [htarget]
      have hset := (hf.valid hhandle hsome hends hhash hsignature).1
      rw [show f.selects = false from hanswer] at hset
      cases hset

/-- A pending reboot is reported for completed updates alone, and no `finalize` that fails leaves
something to boot, exactly when every `finalize` selects what it has verified for the session that it
ends, and none comes while a reboot is pending. -/
theorem truthful_iff_selects (calls : List OtaCall) :
    Truthful calls ↔ ∀ past f, Taken calls past (.finalize f) → Selects past f :=
  ⟨fun htruth _ _ htaken => htruth.selects htaken, truthful_of_selects⟩

/-- The slot of an update, and a `finalize` that can verify it. -/
def slot : Partition := ⟨0x410000, 0x400000⟩

def verifiable (selects : Bool) : Finalization :=
  ⟨true, fun _ _ => true, some [], some [], true, selects⟩

/-- The boot partition could not be set; the update is reported all the same. -/
theorem failed_selection_pending :
    let calls := [.begin 1000 (some slot) (some 1), .finalize (verifiable false)]
    state (afterCalls calls) = lit "pending-reboot" ∧ ¬ Truthful calls := by
  intro calls
  refine ⟨by decide, fun htruth => ?_⟩
  have hboot := htruth.failing (calls.take 1) (verifiable false) List.prefix_rfl (by decide)
  exact absurd hboot (by decide)

end Esp32Shell.Arduino.OtaService
