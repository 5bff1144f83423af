import Esp32Shell.Idf.WifiStation
import Mathlib.Data.List.Chain

/-!
# Failover of the station

Which slots the task offers over a run. A pass offers both profiles unless one
connects, but the second slot is computed after the first attempt has moved
`nextSlot`: when that attempt is configured and does not connect, its slot is
offered again.
-/
namespace Esp32Shell.Idf.Failover

open Esp32Shell.Library.CText Esp32Shell.Library.Run
open WifiStation

attribute [local instance] two_slots

/-- The slots that `applyProfile` is called with in a run, in their order. -/
def offered (w : Setup) (events : List Event) : List (Fin 2) :=
  (moments (next w) initial events).flatMap fun m => (turn w m.1 m.2).offers.map Offer.slot

/-- A profile has connected, or both have been offered. -/
def Complete (offers : List Offer) : Prop :=
  (∃ o ∈ offers, o.ok = true) ∨ ∀ slot, ∃ o ∈ offers, o.slot = slot

/-- The slots alternate, and a pass that starts attempts ends with a connection or both slots. -/
structure Rotates (w : Setup) (events : List Event) : Prop where
  alternate : (offered w events).IsChain fun a b => a ≠ b
  complete : ∀ past p, Taken events past (.pass p) → Starts w (afterEvents w past) p.now →
    Complete (failoverPass w (afterEvents w past) p).offers

/-- In every pass that starts attempts, the first one connects if its profile can be configured. -/
def FirstConnects (w : Setup) (events : List Event) : Prop :=
  ∀ past p, Taken events past (.pass p) → Starts w (afterEvents w past) p.now →
    (p.attempts 0).setConfig = true → (p.attempts 0).connect = true

theorem offered_snoc (w : Setup) (events : List Event) (e : Event) : offered w (events ++ [e]) =
    offered w events ++ (turn w (afterEvents w events) e).offers.map Offer.slot := by
  rw [offered, moments_snoc, List.flatMap_append]
  simp [offered, afterEvents]

theorem offered_begins (w : Setup) {past events : List Event} (h : past <+: events) :
    offered w past <+: offered w events := by
  obtain ⟨rest, hrest⟩ := moments_begins (next w) h initial
  exact ⟨rest.flatMap fun m => (turn w m.1 m.2).offers.map Offer.slot, by
    rw [offered, offered, ← hrest, List.flatMap_append]⟩

theorem pass_offers {w : Setup} {s : Station} {p : Pass} (h : Starts w s p.now) :
    failoverPass w s p = ⟨(applyProfiles w p.attempts [0, 1] s).1,
      (applyProfiles w p.attempts [0, 1] s).2,
      (applyProfiles w p.attempts [0, 1] s).2.flatMap Offer.calls⟩ := by
  have hcases := pass_cases w s p
  generalize failoverPass w s p = done at hcases
  cases hcases with
  | waits hidle => exact absurd h hidle
  | timesOut _ hcing =>
    rw [h.2.2.1] at hcing
    cases hcing
  | offers => rfl

/-- The loop unrolled: the second slot is one behind the `nextSlot` that the first attempt leaves. -/
theorem applyProfiles_pair (w : Setup) (attempts : Fin 2 → Attempt) (s : Station) :
    applyProfiles w attempts [0, 1] s =
      let first := applyProfile w s s.nextSlot (attempts 0)
      let second := applyProfile w first.1 (first.1.nextSlot + 1) (attempts 1)
      if first.2.ok then (first.1, [first.2]) else (second.1, [first.2, second.2]) := by
  rw [applyProfiles, Fin.add_zero]
  simp only [applyProfiles]
  split_ifs <;> rfl

theorem slot_ne_succ (slot : Fin 2) : slot ≠ slot + 1 := by
  revert slot
  decide

theorem slot_around (slot : Fin 2) : slot + 1 + 1 = slot := by
  revert slot
  decide

/-! ### One pass with both profiles enabled -/

section pass

variable {w : Setup} (h : ∀ slot, (w.profiles slot).enabled = true) {s : Station} {p : Pass}

include h

/-- The first attempt connects: it is the only one. -/
theorem applyProfiles_connects (hset : (p.attempts 0).setConfig = true)
    (hconnect : (p.attempts 0).connect = true) :
    (applyProfiles w p.attempts [0, 1] s).1 = s.trying s.nextSlot (p.attempts 0).started ∧
    (applyProfiles w p.attempts [0, 1] s).2.map Offer.slot = [s.nextSlot] ∧
    ∃ o ∈ (applyProfiles w p.attempts [0, 1] s).2, o.ok = true := by
  obtain ⟨hstation, hslot, hok⟩ := applyProfile_eq w s s.nextSlot (p.attempts 0)
  rw [h, hset, hconnect, Bool.and_self, Bool.and_self] at hok
  rw [h, hset, Bool.and_self, if_pos rfl] at hstation
  rw [applyProfiles_pair]
  simp only [hok, if_true]
  exact ⟨hstation, by simp [hslot], _, List.mem_singleton_self _, hok⟩

/-- The first attempt is configured and does not connect: its slot is offered again. -/
theorem applyProfiles_repeats (hset : (p.attempts 0).setConfig = true)
    (hconnect : (p.attempts 0).connect = false) :
    (applyProfiles w p.attempts [0, 1] s).2.map Offer.slot = [s.nextSlot, s.nextSlot] := by
  obtain ⟨hstation, hslot, hok⟩ := applyProfile_eq w s s.nextSlot (p.attempts 0)
  rw [hconnect, Bool.and_false] at hok
  rw [h, hset, Bool.and_self, if_pos rfl] at hstation
  rw [applyProfiles_pair]
  simp only [hok, Bool.false_eq_true, if_false, List.map_cons, List.map_nil, hslot, hstation]
  rw [(applyProfile_eq w _ _ _).2.1]
  exact congrArg (fun slot => [s.nextSlot, slot]) (slot_around s.nextSlot)

/-- The first profile cannot be configured: the other one is offered. -/
theorem applyProfiles_moves (hset : (p.attempts 0).setConfig = false) :
    (applyProfiles w p.attempts [0, 1] s).1 =
      (if (p.attempts 1).setConfig then s.trying (s.nextSlot + 1) (p.attempts 1).started else s) ∧
    (applyProfiles w p.attempts [0, 1] s).2.map Offer.slot = [s.nextSlot, s.nextSlot + 1] := by
  obtain ⟨hstation, hslot, hok⟩ := applyProfile_eq w s s.nextSlot (p.attempts 0)
  rw [hset, Bool.and_false, Bool.false_and] at hok
  rw [hset, Bool.and_false, if_neg Bool.false_ne_true] at hstation
  obtain ⟨hsecond, hnext, -⟩ := applyProfile_eq w s (s.nextSlot + 1) (p.attempts 1)
  rw [h, Bool.true_and] at hsecond
  rw [applyProfiles_pair]
  simp only [hok, Bool.false_eq_true, if_false, List.map_cons, List.map_nil, hslot, hstation]
  exact ⟨hsecond, by rw [hnext]⟩

end pass

/-- Both slots in succession are all slots. -/
theorem complete_of_pair {offers : List Offer} {first : Fin 2}
    (h : offers.map Offer.slot = [first, first + 1]) : Complete offers := by
  refine .inr fun slot => ?_
  have hboth : ∀ a b : Fin 2, b ∈ [a, a + 1] := by decide
  have hmem : slot ∈ offers.map Offer.slot := h ▸ hboth first slot
  exact List.mem_map.mp hmem

/-! ### Runs -/

/-- `nextSlot` stands behind the latest slot that was offered, and behind the active one during an
attempt. -/
structure Cursor (slots : List (Fin 2)) (s : Station) : Prop where
  chain : slots.IsChain fun a b => a ≠ b
  last : ∀ slot ∈ slots.getLast?, s.nextSlot = slot + 1
  active : s.connecting = true → s.nextSlot = s.activeSlot + 1

/-- A turn that offers nothing and leaves the slots keeps the cursor. -/
theorem Cursor.still {slots : List (Fin 2)} {s s' : Station} (h : Cursor slots s)
    (hnext : s'.nextSlot = s.nextSlot) (hactive : s'.activeSlot = s.activeSlot)
    (hcing : s'.connecting = true → s.connecting = true) : Cursor slots s' := by
  refine ⟨h.chain, fun slot hslot => ?_, fun htrue => ?_⟩
  · rw [hnext]
    exact h.last slot hslot
  · rw [hnext, hactive]
    exact h.active (hcing htrue)

/-- What is offered next is not what was offered last. -/
theorem Cursor.chain_next {slots : List (Fin 2)} {s : Station} (h : Cursor slots s) {more : List (Fin 2)}
    (hmore : more.IsChain fun a b => a ≠ b) (hfirst : more.head? = some s.nextSlot) :
    (slots ++ more).IsChain fun a b => a ≠ b := by
  rw [List.isChain_append]
  refine ⟨h.chain, hmore, fun last hlast first hmem => ?_⟩
  rw [hfirst] at hmem
  obtain rfl := Option.some_inj.mp hmem
  rw [h.last last hlast]
  exact slot_ne_succ last

/-- The offer of an attempt that connects. -/
theorem Cursor.one {slots : List (Fin 2)} {s : Station} (h : Cursor slots s) (started : UInt32) :
    Cursor (slots ++ [s.nextSlot]) (s.trying s.nextSlot started) := by
  refine ⟨h.chain_next (List.isChain_singleton _) rfl, fun slot hlast => ?_, fun _ => rfl⟩
  rw [List.getLast?_append] at hlast
  obtain rfl := Option.some_inj.mp hlast
  rfl

/-- The offers of both slots, of which only the second may have been configured. -/
theorem Cursor.both {slots : List (Fin 2)} {s : Station} (h : Cursor slots s) (setConfig : Bool)
    (started : UInt32) : Cursor (slots ++ [s.nextSlot, s.nextSlot + 1])
      (if setConfig then s.trying (s.nextSlot + 1) started else s) := by
  refine ⟨h.chain_next (List.isChain_pair.mpr (slot_ne_succ s.nextSlot)) rfl, fun slot hlast => ?_, ?_⟩
  · rw [List.getLast?_append] at hlast
    obtain rfl : s.nextSlot + 1 = slot := Option.some_inj.mp hlast
    cases setConfig with
    | true => rfl
    | false => exact (slot_around s.nextSlot).symm
  · cases setConfig with
    | true => exact fun _ => rfl
    | false => exact h.active

/-- A pass whose first attempt connects if it is configured keeps the cursor, and is complete. -/
theorem Cursor.pass {w : Setup} (h : ∀ slot, (w.profiles slot).enabled = true) {slots : List (Fin 2)}
    {s : Station} (hc : Cursor slots s) {p : Pass}
    (hfirst : Starts w s p.now → (p.attempts 0).setConfig = true → (p.attempts 0).connect = true) :
    Cursor (slots ++ (failoverPass w s p).offers.map Offer.slot) (failoverPass w s p).station ∧
      (Starts w s p.now → Complete (failoverPass w s p).offers) := by
  have hcases := pass_cases w s p
  generalize failoverPass w s p = done at hcases
  cases hcases with
  | waits hidle =>
    refine ⟨?_, fun hstarts => absurd hstarts hidle⟩
    rw [List.map_nil, List.append_nil]
    exact hc
  | timesOut hcon hcing =>
    refine ⟨?_, fun hstarts => ?_⟩
    · rw [List.map_nil, List.append_nil]
      exact hc.still (hc.active hcing).symm rfl fun htrue => by cases htrue
    · have hidle := hstarts.2.2.1
      rw [hcing] at hidle
      cases hidle
  | offers hstarts =>
    cases hset : (p.attempts 0).setConfig with
    | true =>
      obtain ⟨hstation, hslots, hok⟩ := applyProfiles_connects h hset (hfirst hstarts hset)
      refine ⟨?_, fun _ => .inl hok⟩
      simp only [hstation, hslots]
      exact hc.one (p.attempts 0).started
    | false =>
      obtain ⟨hstation, hslots⟩ := applyProfiles_moves h (s := s) hset
      refine ⟨?_, fun _ => complete_of_pair hslots⟩
      simp only [hstation, hslots]
      exact hc.both (p.attempts 1).setConfig (p.attempts 1).started

theorem Cursor.turn {w : Setup} (h : ∀ slot, (w.profiles slot).enabled = true) {slots : List (Fin 2)}
    {s : Station} (hc : Cursor slots s) {e : Event}
    (hfirst : ∀ p, e = .pass p → Starts w s p.now →
      (p.attempts 0).setConfig = true → (p.attempts 0).connect = true) :
    Cursor (slots ++ (turn w s e).offers.map Offer.slot) (turn w s e).station := by
  cases e with
  | pass p => exact (hc.pass h (hfirst p rfl)).1
  | disconnected =>
    refine (List.append_nil slots).symm ▸ hc.still rfl rfl fun htrue => ?_
    cases htrue
  | gotIp =>
    refine (List.append_nil slots).symm ▸ hc.still rfl rfl fun htrue => ?_
    cases htrue
  | status r => exact (List.append_nil slots).symm ▸ hc.still rfl rfl id

theorem cursor_of_firstConnects {w : Setup} (h : ∀ slot, (w.profiles slot).enabled = true)
    {events : List Event} (hfirst : FirstConnects w events) :
    Cursor (offered w events) (afterEvents w events) := by
  refine after_induction (P := fun past s => Cursor (offered w past) s)
    (C := fun past e => ∀ p, e = .pass p → Starts w (afterEvents w past) p.now →
      (p.attempts 0).setConfig = true → (p.attempts 0).connect = true)
    ⟨List.isChain_nil, by simp [offered, moments], by simp [initial]⟩ ?_ ?_
  · intro past e hpast hcond
    rw [offered_snoc]
    exact hpast.turn h hcond
  · intro past e htaken p hpass
    exact hfirst past p (hpass ▸ htaken)

/-- With both profiles enabled, the slots alternate over a run and every pass is complete, exactly when
in no pass the first attempt is configured and does not connect. -/
theorem rotates_iff (w : Setup) (h : ∀ slot, (w.profiles slot).enabled = true) (events : List Event) :
    Rotates w events ↔ FirstConnects w events := by
  constructor
  · intro hrotates past p htaken hstarts hset
    by_contra hconnect
    have hrepeats := applyProfiles_repeats h (s := afterEvents w past) hset
      (Bool.eq_false_of_not_eq_true hconnect)
    have hslots : offered w (past ++ [.pass p]) =
        offered w past ++ [(afterEvents w past).nextSlot, (afterEvents w past).nextSlot] := by
      rw [offered_snoc, turn, pass_offers hstarts]
      exact congrArg _ hrepeats
    have hchain := hrotates.alternate.prefix (offered_begins w htaken)
    rw [hslots, List.isChain_append] at hchain
    simp at hchain
  · intro hfirst
    refine ⟨(cursor_of_firstConnects h hfirst).chain, fun past p htaken hstarts => ?_⟩
    have hpast : FirstConnects w past := fun before q hq =>
      hfirst before q (hq.trans ((List.prefix_append _ _).trans htaken))
    exact ((cursor_of_firstConnects h hpast).pass h (hfirst past p htaken)).2 hstarts

/-- The first profile cannot be configured, and the second one connects. -/
def skips : Pass := ⟨100, fun offset => if offset = 0 then ⟨false, 100, false⟩ else ⟨true, 100, true⟩⟩

theorem rotates_skips : Rotates twoProfiles [.pass skips] ↔ FirstConnects twoProfiles [.pass skips] :=
  rotates_iff twoProfiles (by decide) [.pass skips]

/-- `esp_wifi_connect` returns an error for the first profile: the second one is not offered. -/
theorem failed_connect_repeats : (∀ slot, (twoProfiles.profiles slot).enabled = true) ∧
    ¬ Rotates twoProfiles [.pass ⟨100, fun _ => ⟨true, 100, false⟩⟩] := by
  refine ⟨by decide, fun hrotates => ?_⟩
  have hoffered : offered twoProfiles [.pass ⟨100, fun _ => ⟨true, 100, false⟩⟩] = [0, 0] := by decide
  have hchain := hrotates.alternate
  rw [hoffered] at hchain
  simp at hchain

end Esp32Shell.Idf.Failover
