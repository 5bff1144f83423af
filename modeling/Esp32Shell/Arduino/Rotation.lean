import Esp32Shell.Arduino.WifiRuns
import Mathlib.Data.List.Chain

/-!
# Rotation of the profiles

Which profile an attempt uses, over any run of the Wi-Fi service. The cursor
stands behind the slot of the latest attempt, so the other profile is next
whenever it is enabled.
-/
namespace Esp32Shell.Arduino.Rotation

open Esp32Shell.Library.CText Esp32Shell.Library.Register Esp32Shell.Library.Run
open WifiService WifiRuns

/-- A `begin` of a run: the active slot after it, and the enabled profiles when it is made. -/
structure Attempt where
  slot : Fin maxProfiles
  enabled : Fin maxProfiles → Bool

def attempt (m : Moment) : Option Attempt :=
  (made m).findSome? fun
    | .begin _ _ => some ⟨(perform m.1 m.2).1.activeSlot_, fun i => (m.1.profiles_ i).enabled⟩
    | .disconnect => none

/-- The attempts of a run, in their order. -/
def attempts (calls : List WifiCall) : List Attempt :=
  (moments next initial calls).filterMap attempt

/-- The arguments of `configure` fit its buffers. -/
def Fits : WifiCall → Prop
  | .configure _ ssid password _ => (∀ t ∈ ssid, t.length ≤ 32) ∧ ∀ t ∈ password, t.length ≤ 64
  | _ => True

instance : DecidablePred Fits
  | .configure _ ssid password _ =>
    inferInstanceAs (Decidable ((∀ t ∈ ssid, t.length ≤ 32) ∧ ∀ t ∈ password, t.length ≤ 64))
  | .clearSlot _ | .clear | .tick _ _ => isTrue trivial

theorem attempts_snoc (calls : List WifiCall) (c : WifiCall) :
    attempts (calls ++ [c]) = attempts calls ++ (attempt (afterCalls calls, c)).toList := by
  rw [attempts, moments_snoc, List.filterMap_append, ← attempts]
  show _ ++ List.filterMap attempt [(afterCalls calls, c)] = _
  cases h : attempt (afterCalls calls, c) with
  | none => rw [List.filterMap_cons_none h]; rfl
  | some a => rw [List.filterMap_cons_some h]; rfl

theorem attempt_eq_some {m : Moment} {a : Attempt} (h : attempt m = some a) :
    Begins m ∧ a = ⟨(perform m.1 m.2).1.activeSlot_, fun i => (m.1.profiles_ i).enabled⟩ := by
  obtain ⟨call, hmem, hcall⟩ := List.exists_of_findSome?_eq_some h
  cases call with
  | begin ssid password => exact ⟨⟨ssid, password, hmem⟩, (Option.some_inj.mp hcall).symm⟩
  | disconnect => cases hcall

theorem not_begins_of_attempt {m : Moment} (h : attempt m = none) : ¬ Begins m := by
  intro hb
  obtain ⟨ssid, password, hmem⟩ := hb
  have hnone := List.findSome?_eq_none_iff.mp h _ hmem
  cases hnone

theorem nextProfile_of_enabled {s : Service} (h : (s.profiles_ s.nextProfile_).enabled = true) :
    nextProfile s = some s.nextProfile_ := by
  have hslots : ∀ first : Fin maxProfiles,
      (List.finRange maxProfiles).map (fun offset => first + offset) = [first, first + 1] := by decide
  simp only [nextProfile, hslots, List.find?_cons, h]

/-- A slot that is used again is used because the other one is not enabled. -/
theorem other_disabled {s : Service} {last slot : Fin maxProfiles} (hcursor : s.nextProfile_ = last + 1)
    (hnext : nextProfile s = some slot) (hsame : slot = last) :
    (s.profiles_ (slot + 1)).enabled = false := by
  by_contra henabled
  rw [hsame, ← hcursor] at henabled
  have hother := nextProfile_of_enabled (Bool.eq_true_of_not_eq_false henabled)
  rw [hnext, hsame, hcursor, Option.some_inj] at hother
  have hdistinct : ∀ i : Fin maxProfiles, i ≠ i + 1 := by decide
  exact hdistinct last hother

/-- The cursor stands behind the latest attempt, and every repetition so far had its reason. -/
structure Rotates (calls : List WifiCall) (s : Service) : Prop where
  cursor : ∀ a ∈ (attempts calls).getLast?, s.nextProfile_ = a.slot + 1
  chain : (attempts calls).IsChain fun a b => b.slot = a.slot → b.enabled (b.slot + 1) = false

theorem Rotates.step {past : List WifiCall} {c : WifiCall} (h : Rotates past (afterCalls past)) :
    Rotates (past ++ [c]) (perform (afterCalls past) c).1 := by
  cases ha : attempt (afterCalls past, c) with
  | none =>
    have hsame : attempts (past ++ [c]) = attempts past := by
      rw [attempts_snoc, ha]
      exact List.append_nil _
    have hstill := (perform_slots (not_begins_of_attempt ha)).1
    refine ⟨fun a hlast => ?_, ?_⟩
    · rw [hsame] at hlast
      exact hstill.trans (h.cursor a hlast)
    · rw [hsame]
      exact h.chain
  | some a =>
    have hmore : attempts (past ++ [c]) = attempts past ++ [a] := by
      rw [attempts_snoc, ha]
      rfl
    obtain ⟨⟨ssid, password, hmem⟩, rfl⟩ := attempt_eq_some ha
    obtain ⟨now, driver, slot, -, -, -, hnext, -, -, hactive, hcursor, -⟩ := begin_mem_made hmem
    refine ⟨fun a hlast => ?_, ?_⟩
    · rw [hmore, List.getLast?_concat] at hlast
      rw [← Option.some_inj.mp hlast, hcursor, hactive]
    · rw [hmore, List.isChain_append]
      refine ⟨h.chain, List.isChain_singleton _, ?_⟩
      intro last hlast b hb hsame
      obtain rfl := Option.some_inj.mp hb
      simp only [hactive] at hsame ⊢
      exact other_disabled (h.cursor last hlast) hnext hsame

theorem rotates_afterCalls (calls : List WifiCall) : Rotates calls (afterCalls calls) := by
  induction calls using List.reverseRecOn with
  | nil => exact ⟨by simp [attempts, moments], by simp [attempts, moments]⟩
  | append_singleton calls c ih =>
    rw [afterCalls_snoc]
    exact ih.step

/-! ### What an attempt uses -/

/-- Fitting arguments are kept as they are given. -/
theorem profileOf_fits {calls : List WifiCall} (h : ∀ c ∈ calls, Fits c) {slot : Fin maxProfiles}
    {g : Text × Text} (hgiven : given slot calls = some g) :
    (profileOf (some g)).ssid = g.1 ∧ (profileOf (some g)).password = g.2 := by
  obtain ⟨c, hc, hconfigured⟩ := exists_of_register_eq_some hgiven
  obtain ⟨i, ssid, password, now, rfl, rfl⟩ := configured_eq_some hconfigured
  obtain ⟨hssid, hpassword⟩ := h _ hc
  exact ⟨List.take_of_length_le (hssid ssid rfl), List.take_of_length_le (hpassword password rfl)⟩

/-- Every `begin` of the run uses what the slot that is active after it was last given. -/
def UsesGiven (calls : List WifiCall) : Prop :=
  ∀ past c, Taken calls past c → ∀ ssid password, .begin ssid password ∈ made (afterCalls past, c) →
    given (afterCalls (past ++ [c])).activeSlot_ past = some (ssid, password)

/-- Every attempt uses what its slot was last given, a slot is used twice in succession only when
the other one is not enabled at the second time, and with both enabled the attempts alternate. -/
theorem rotation (calls : List WifiCall) (hfits : ∀ c ∈ calls, Fits c) :
    UsesGiven calls ∧
    (attempts calls).IsChain (fun a b => b.slot = a.slot → b.enabled (b.slot + 1) = false) ∧
    ((∀ a ∈ attempts calls, ∀ slot, a.enabled slot = true) →
      (attempts calls).IsChain fun a b => b.slot ≠ a.slot) := by
  have hchain := (rotates_afterCalls calls).chain
  refine ⟨?_, hchain, ?_⟩
  · intro past c htaken ssid password hmem
    obtain ⟨now, driver, slot, -, -, -, hnext, hssid, hpassword, hactive, -, -⟩ := begin_mem_made hmem
    have hprofile := afterCalls_profiles slot past
    have henabled := nextProfile_enabled hnext
    rw [hprofile, profileOf_enabled] at henabled
    obtain ⟨g, hg⟩ := Option.isSome_iff_exists.mp henabled
    have hpast : ∀ c ∈ past, Fits c := fun c hc => hfits c (htaken.mem.2 hc)
    obtain ⟨hs, hp⟩ := profileOf_fits hpast hg
    replace hactive : (afterCalls (past ++ [c])).activeSlot_ = slot := by
      rw [afterCalls_snoc]
      exact hactive
    rw [hactive, hssid, hpassword, hprofile, hg, hs, hp]
  · intro hall
    refine hchain.imp_of_mem_imp ?_
    intro a b ha hb himp hsame
    have hdisabled := himp hsame
    rw [hall b hb] at hdisabled
    cases hdisabled

/-- Two profiles whose attempts both fail. -/
def failover : List WifiCall :=
  [.configure 0 (some (lit "home")) (some (lit "secret")) 0,
    .configure 1 (some (lit "phone")) (some (lit "guest")) 0,
    .tick 0 ⟨false, false⟩, .tick 10000 ⟨false, false⟩, .tick 10500 ⟨false, false⟩]

theorem rotation_failover : UsesGiven failover ∧ (attempts failover).map Attempt.slot = [0, 1] ∧
    (attempts failover).IsChain fun a b => b.slot ≠ a.slot := by
  have hfits : ∀ c ∈ failover, Fits c := by decide
  have hrotation := rotation failover hfits
  exact ⟨hrotation.1, by decide, hrotation.2.2 (by decide)⟩

end Esp32Shell.Arduino.Rotation
