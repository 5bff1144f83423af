import Esp32Shell.Idf.WifiStation
import Esp32Shell.Library.Register

/-!
# The status of the station

What `esp32shell_wifi_status` leaves behind. It marks the station connected as
soon as an access point is known, which is before an address has arrived, and
the failover task then stops watching the attempt.
-/
namespace Esp32Shell.Idf.WifiStatus

open Esp32Shell.Library.CText Esp32Shell.Library.Register Esp32Shell.Library.Run
open WifiStation

def hasAddress (m : Moment) : Option Unit :=
  match m.2 with
  | .gotIp => some ()
  | _ => none

/-- A disconnect, or a pass that calls `applyProfile`. -/
def losesAddress (w : Setup) (m : Moment) : Bool :=
  match m.2 with
  | .disconnected => true
  | .pass p => !(failoverPass w m.1 p).offers.isEmpty
  | _ => false

/-- An address has arrived since the latest attempt or disconnect. -/
def Addressed (w : Setup) (events : List Event) : Prop :=
  register hasAddress (losesAddress w) (moments (next w) initial events) = some ()

def isStatus : Event → Bool
  | .status _ => true
  | _ => false

/-- The run without the status calls. -/
def unasked (events : List Event) : List Event := events.filter fun e => !isStatus e

/-- The calls of the task to the driver, in their order. -/
def driverCalls (w : Setup) (events : List Event) : List DriverCall :=
  (moments (next w) initial events).flatMap fun m => (turn w m.1 m.2).calls

/-- The flags exclude each other, `connected` stands for an address, and status calls change nothing. -/
structure Consistent (w : Setup) (events : List Event) : Prop where
  exclusive : ∀ past, past <+: events →
    ¬ ((afterEvents w past).connecting = true ∧ (afterEvents w past).connected = true)
  addressed : ∀ past, past <+: events → (afterEvents w past).connected = true → Addressed w past
  unobserved : driverCalls w events = driverCalls w (unasked events)

/-- A status call that finds an access point finds the station connected. -/
def Confirms (w : Setup) (events : List Event) : Prop :=
  ∀ past r, Taken events past (.status r) → r.apInfo.isSome = true →
    (afterEvents w past).connected = true

theorem addressed_snoc (w : Setup) (events : List Event) (e : Event) : Addressed w (events ++ [e]) ↔
    hasAddress (afterEvents w events, e) = some () ∨ hasAddress (afterEvents w events, e) = none ∧
      losesAddress w (afterEvents w events, e) = false ∧ Addressed w events := by
  rw [Addressed, moments_snoc, register_snoc, registerStep, ← afterEvents]
  cases hasAddress (afterEvents w events, e) with
  | some u => simp
  | none =>
    cases losesAddress w (afterEvents w events, e) with
    | true => simp
    | false => simp [Addressed]

theorem driverCalls_snoc (w : Setup) (events : List Event) (e : Event) : driverCalls w (events ++ [e]) =
    driverCalls w events ++ (turn w (afterEvents w events) e).calls := by
  rw [driverCalls, moments_snoc, List.flatMap_append]
  simp [driverCalls, afterEvents]

/-! ### What a pass does to the flags -/

theorem pass_of_connected {w : Setup} {s : Station} (h : s.connected = true) (p : Pass) :
    failoverPass w s p = ⟨s, [], []⟩ := by
  rw [failoverPass, if_neg]
  simp [h]

theorem applyProfile_connected {w : Setup} {s : Station} (h : s.connected = false) (slot : Fin 2)
    (a : Attempt) : (applyProfile w s slot a).1.connected = false := by
  rw [(applyProfile_eq w s slot a).1]
  split_ifs
  · rfl
  · exact h

theorem applyProfiles_connected {w : Setup} {s : Station} (h : s.connected = false)
    (attempts : Fin 2 → Attempt) (offsets : List (Fin 2)) :
    (applyProfiles w attempts offsets s).1.connected = false := by
  induction offsets generalizing s with
  | nil => exact h
  | cons offset offsets ih =>
    have hfirst := applyProfile_connected (w := w) h (s.nextSlot + offset) (attempts offset)
    rw [applyProfiles]
    split_ifs
    · exact hfirst
    · exact ih hfirst

theorem pass_of_unconnected {w : Setup} {s : Station} (h : s.connected = false) (p : Pass) :
    (failoverPass w s p).station.connected = false := by
  have hcases := pass_cases w s p
  generalize failoverPass w s p = done at hcases
  cases hcases with
  | waits => exact h
  | timesOut hcon => exact hcon
  | offers => exact applyProfiles_connected h p.attempts [0, 1]

/-- An address keeps the station connected until it is lost. -/
theorem connected_of_addressed (w : Setup) (events : List Event) (h : Addressed w events) :
    (afterEvents w events).connected = true := by
  induction events using List.reverseRecOn with
  | nil => cases h
  | append_singleton events e ih =>
    rw [afterEvents_snoc]
    rcases (addressed_snoc w events e).mp h with hgot | ⟨hnone, hkept, hpast⟩
    · cases e with
      | gotIp => rfl
      | pass p => cases hgot
      | disconnected => cases hgot
      | status r => cases hgot
    · have hcon := ih hpast
      cases e with
      | gotIp => cases hnone
      | pass p =>
        rw [turn, pass_of_connected hcon]
        exact hcon
      | disconnected => cases hkept
      | status r =>
        show ((afterEvents w events).connected || r.apInfo.isSome) = true
        rw [hcon, Bool.true_or]

/-! ### Runs whose status calls confirm -/

/-- What holds of the station as long as no status call has changed it. -/
structure Sound (w : Setup) (past : List Event) (s : Station) : Prop where
  exclusive : ¬ (s.connecting = true ∧ s.connected = true)
  addressed : s.connected = true → Addressed w past
  station_eq : afterEvents w (unasked past) = s
  calls_eq : driverCalls w past = driverCalls w (unasked past)

theorem unasked_snoc (past : List Event) (e : Event) :
    unasked (past ++ [e]) = if isStatus e then unasked past else unasked past ++ [e] := by
  rw [unasked, List.filter_append]
  cases h : isStatus e <;> simp [h, unasked]

/-- A turn that is not a status call does the same in both runs. -/
theorem sound_turn {w : Setup} {past : List Event} {e : Event} (h : Sound w past (afterEvents w past))
    (hturn : isStatus e = false)
    (hexclusive : ¬ ((turn w (afterEvents w past) e).station.connecting = true ∧
      (turn w (afterEvents w past) e).station.connected = true))
    (haddressed : (turn w (afterEvents w past) e).station.connected = true → Addressed w (past ++ [e])) :
    Sound w (past ++ [e]) (turn w (afterEvents w past) e).station := by
  have hboth : unasked (past ++ [e]) = unasked past ++ [e] := by
    rw [unasked_snoc, hturn]
    rfl
  refine ⟨hexclusive, haddressed, ?_, ?_⟩
  · rw [hboth, afterEvents_snoc, h.station_eq]
  · rw [hboth, driverCalls_snoc, driverCalls_snoc, h.calls_eq, h.station_eq]

theorem sound_pass {w : Setup} {past : List Event} (h : Sound w past (afterEvents w past)) (p : Pass) :
    Sound w (past ++ [.pass p]) (turn w (afterEvents w past) (.pass p)).station := by
  cases hcon : (afterEvents w past).connected with
  | true =>
    have hturn := pass_of_connected (w := w) hcon p
    refine sound_turn h rfl ?_ fun _ => ?_
    · rw [turn, hturn]
      exact h.exclusive
    · refine (addressed_snoc w past (.pass p)).mpr (.inr ⟨rfl, ?_, h.addressed hcon⟩)
      simp only [losesAddress, hturn]
      rfl
  | false =>
    have hturn := pass_of_unconnected (w := w) hcon p
    refine sound_turn h rfl (fun hboth => ?_) fun htrue => ?_
    · rw [turn, hturn] at hboth
      cases hboth.2
    · rw [turn, hturn] at htrue
      cases htrue

/-- A status call that confirms leaves the station as it was. -/
theorem status_of_confirms {w : Setup} {s : Station} {r : Readings}
    (h : r.apInfo.isSome = true → s.connected = true) : (turn w s (.status r)).station = s := by
  show { s with connected := s.connected || r.apInfo.isSome } = s
  cases hap : r.apInfo.isSome with
  | false => rw [Bool.or_false]
  | true => rw [h hap, Bool.or_true, ← h hap]

theorem sound_status {w : Setup} {past : List Event} (h : Sound w past (afterEvents w past))
    {r : Readings} (hr : r.apInfo.isSome = true → (afterEvents w past).connected = true) :
    Sound w (past ++ [.status r]) (turn w (afterEvents w past) (.status r)).station := by
  have hstill := status_of_confirms (w := w) hr
  have hskip : unasked (past ++ [.status r]) = unasked past := by
    rw [unasked_snoc]
    rfl
  rw [hstill]
  refine ⟨h.exclusive, fun hcon => ?_, ?_, ?_⟩
  · exact (addressed_snoc w past (.status r)).mpr (.inr ⟨rfl, rfl, h.addressed hcon⟩)
  · rw [hskip, h.station_eq]
  · rw [hskip, driverCalls_snoc, ← h.calls_eq]
    exact List.append_nil _

theorem sound_nil (w : Setup) : Sound w [] initial := by
  refine ⟨by decide, fun hcon => ?_, rfl, rfl⟩
  cases hcon

theorem sound_of_confirms {w : Setup} {events : List Event} (h : Confirms w events) :
    Sound w events (afterEvents w events) := by
  refine after_induction (P := Sound w)
    (C := fun past e => ∀ r, e = .status r → r.apInfo.isSome = true →
      (afterEvents w past).connected = true)
    (sound_nil w) ?_ fun past e htaken r hr => h past r (hr ▸ htaken)
  intro past e hpast hcond
  cases e with
  | pass p => exact sound_pass hpast p
  | disconnected =>
    refine sound_turn hpast rfl (fun hboth => ?_) fun htrue => ?_
    · cases hboth.1
    · cases htrue
  | gotIp =>
    refine sound_turn hpast rfl (fun hboth => ?_) fun _ => ?_
    · cases hboth.1
    · exact (addressed_snoc w past .gotIp).mpr (.inl rfl)
  | status r => exact sound_status hpast (hcond r rfl)

/-- The flags are consistent and status calls change nothing exactly when every status call that finds
an access point finds the station connected. -/
theorem consistent_iff (w : Setup) (events : List Event) : Consistent w events ↔ Confirms w events := by
  constructor
  · intro hconsistent past r htaken hr
    have hmarked : (afterEvents w (past ++ [.status r])).connected = true := by
      rw [afterEvents_snoc]
      show ((afterEvents w past).connected || r.apInfo.isSome) = true
      rw [hr, Bool.or_true]
    rcases (addressed_snoc w past (.status r)).mp (hconsistent.addressed _ htaken hmarked) with
      hgot | ⟨-, -, hpast⟩
    · cases hgot
    · exact connected_of_addressed w past hpast
  · intro hconfirms
    have hpast : ∀ past, past <+: events → Sound w past (afterEvents w past) := fun past hprefix =>
      sound_of_confirms fun before r htaken => hconfirms before r (htaken.trans hprefix)
    exact ⟨fun past hprefix => (hpast past hprefix).exclusive,
      fun past hprefix => (hpast past hprefix).addressed, (hpast events List.prefix_rfl).calls_eq⟩

/-- An attempt that is associated and gets no address, asked for its status once. -/
def asked : List Event :=
  [.pass ⟨100, fun _ => ⟨true, 100, true⟩⟩,
    .status ⟨some (-50), none⟩,
    .pass ⟨1200, fun _ => ⟨true, 1200, true⟩⟩]

/-- The status call sets `connected` beside `connecting`, without an address, and the task does not
end the attempt that has timed out. -/
theorem asked_inconsistent : ¬ Consistent twoProfiles asked ∧
    (afterEvents twoProfiles asked).connecting = true ∧ (afterEvents twoProfiles asked).connected = true ∧
    driverCalls twoProfiles asked ≠ driverCalls twoProfiles (unasked asked) := by
  have hboth : (afterEvents twoProfiles asked).connecting = true ∧
      (afterEvents twoProfiles asked).connected = true := by decide
  exact ⟨fun h => h.exclusive asked List.prefix_rfl hboth, hboth.1, hboth.2, by decide⟩

end Esp32Shell.Idf.WifiStatus
