import Esp32Shell.Library.CText
import Esp32Shell.Library.Rollover
import Esp32Shell.Library.Run
import Mathlib.Data.Fin.Basic

/-!
# The Wi-Fi station

The globals of the station and the four parties that share them: the failover
task, the handlers of two events, and `esp32shell_wifi_status`. Each of their
turns is one step, with the results of the ESP-IDF calls as its input and the
calls that the task makes as its output.
-/
namespace Esp32Shell.Idf.WifiStation

open Esp32Shell.Library.CText Esp32Shell.Library.Run
open Esp32Shell.Library.Rollover (pdMsToTicks)

/-- There are two slots, so that `0` is one. -/
theorem two_slots : @NeZero Nat Zero.ofOfNat0 2 := Nat.instNeZeroSucc

-- every literal of `Fin 2` below rests on this fact
attribute [local instance] two_slots

theorem kept_ssid_le (ssid : Text) : (ssid.take 32).length ≤ 32 := List.length_take_le 32 ssid

theorem kept_password_le (password : Text) : (password.take 64).length ≤ 64 :=
  List.length_take_le 64 password

/-- `char ssid[33]`, `char password[65]`. -/
structure Profile where
  ssid : Text
  password : Text
  enabled : Bool
  ssid_le : ssid.length ≤ 32
  password_le : password.length ≤ 64

/-- A profile of which both strings were found; `nvs_get_str` fails when one does not fit. -/
def Profile.loaded (ssid password : Text) : Profile :=
  ⟨ssid.take 32, password.take 64, true, kept_ssid_le ssid, kept_password_le password⟩

/-- What is fixed once the station has started: the loaded profiles and `configTICK_RATE_HZ`. -/
structure Setup where
  profiles : Fin 2 → Profile
  tickRateHz : UInt32

/-- Two enabled profiles. -/
def twoProfiles : Setup where
  profiles := fun slot => if slot = 0 then .loaded (lit "home") (lit "secret")
    else .loaded (lit "phone") (lit "guest")
  tickRateHz := 100

def Setup.configured (w : Setup) : Bool := (w.profiles 0).enabled || (w.profiles 1).enabled

def Setup.attemptTicks (w : Setup) : UInt32 := pdMsToTicks w.tickRateHz.toNat 10000
def Setup.switchCooldownTicks (w : Setup) : UInt32 := pdMsToTicks w.tickRateHz.toNat 500

structure Station where
  nextSlot : Fin 2
  activeSlot : Fin 2
  connecting : Bool
  connected : Bool
  attemptStarted : UInt32
  deriving DecidableEq

def initial : Station := ⟨0, 0, false, false, 0⟩

inductive DriverCall where
  | setConfig (ssid password : Text)
  | connect
  | disconnect
  deriving DecidableEq

/-- What the calls of an `applyProfile` return: two of them `ESP_OK` or not, and the tick count. -/
structure Attempt where
  setConfig : Bool
  started : UInt32
  connect : Bool
  deriving DecidableEq

/-- A call of `applyProfile`, with its result and the calls it makes. -/
structure Offer where
  slot : Fin 2
  ok : Bool
  calls : List DriverCall
  deriving DecidableEq

/-- The station once a profile is configured in the driver. -/
def Station.trying (s : Station) (slot : Fin 2) (started : UInt32) : Station :=
  { s with
    activeSlot := slot, nextSlot := slot + 1, connecting := true, connected := false
    attemptStarted := started }

def applyProfile (w : Setup) (s : Station) (slot : Fin 2) (a : Attempt) : Station × Offer :=
  if ¬ (w.profiles slot).enabled then (s, ⟨slot, false, []⟩)
  else
    let config := .setConfig ((w.profiles slot).ssid.take 32) ((w.profiles slot).password.take 64)
    if ¬ a.setConfig then (s, ⟨slot, false, [config]⟩)
    else (s.trying slot a.started, ⟨slot, a.connect, [config, .connect]⟩)

/-- An attempt is under way exactly when an enabled profile could be configured. -/
theorem applyProfile_eq (w : Setup) (s : Station) (slot : Fin 2) (a : Attempt) :
    (applyProfile w s slot a).1 =
      (if (w.profiles slot).enabled && a.setConfig then s.trying slot a.started else s) ∧
    (applyProfile w s slot a).2.slot = slot ∧
    (applyProfile w s slot a).2.ok = ((w.profiles slot).enabled && a.setConfig && a.connect) := by
  rw [applyProfile]
  cases (w.profiles slot).enabled with
  | false => exact ⟨rfl, rfl, rfl⟩
  | true =>
    cases a.setConfig with
    | false => exact ⟨rfl, rfl, rfl⟩
    | true => exact ⟨rfl, rfl, rfl⟩

/-- The `for` loop of the task: the slot is computed from the `nextSlot` that the round before left. -/
def applyProfiles (w : Setup) (attempts : Fin 2 → Attempt) : List (Fin 2) → Station → Station × List Offer
  | [], s => (s, [])
  | offset :: offsets, s =>
    let done := applyProfile w s (s.nextSlot + offset) (attempts offset)
    if done.2.ok then (done.1, [done.2])
    else
      let rest := applyProfiles w attempts offsets done.1
      (rest.1, done.2 :: rest.2)

/-- One round of the task: the tick count it reads, and what its attempts would meet. -/
structure Pass where
  now : UInt32
  attempts : Fin 2 → Attempt

/-- What a turn leaves: the station, the profiles it offered and all calls to the driver. -/
structure Turn where
  station : Station
  offers : List Offer
  calls : List DriverCall

def failoverPass (w : Setup) (s : Station) (p : Pass) : Turn :=
  if w.configured ∧ ¬ s.connected then
    if ¬ s.connecting ∧ (s.attemptStarted = 0 ∨ w.switchCooldownTicks ≤ p.now - s.attemptStarted) then
      let done := applyProfiles w p.attempts [0, 1] s
      ⟨done.1, done.2, done.2.flatMap Offer.calls⟩
    else if s.connecting ∧ w.attemptTicks ≤ p.now - s.attemptStarted then
      -- the result of `esp_wifi_disconnect` is not looked at
      ⟨{ s with connecting := false, attemptStarted := p.now, nextSlot := s.activeSlot + 1 }, [],
        [.disconnect]⟩
    else ⟨s, [], []⟩
  else ⟨s, [], []⟩

/-- `WIFI_EVENT_STA_DISCONNECTED`. -/
def wifiEvent (s : Station) : Station := { s with connecting := false, connected := false }

/-- `IP_EVENT_STA_GOT_IP`. -/
def ipEvent (s : Station) : Station := { s with connected := true, connecting := false }

/-- What `esp32shell_wifi_status` reads from ESP-IDF, where the calls succeed; the address is that of
`stationNetif`, which there is once the station has started. -/
structure Readings where
  apInfo : Option Int
  ipInfo : Option (UInt8 × UInt8 × UInt8 × UInt8)

structure Esp32shellWifiStatus where
  configured : Bool
  connecting : Bool
  activeSlot : Fin 2
  activeSsid : Text
  ipAddress : Text
  rssi : Int

/-- `IPSTR` of an address. -/
def ipText (ip : UInt8 × UInt8 × UInt8 × UInt8) : Text :=
  decimal ip.1.toNat ++ lit "." ++ decimal ip.2.1.toNat ++ lit "." ++ decimal ip.2.2.1.toNat ++
    lit "." ++ decimal ip.2.2.2.toNat

/-- `esp32shell_wifi_status`, whose callers never pass null: an access point makes the station
connected. -/
def wifiStatus (w : Setup) (s : Station) (r : Readings) : Esp32shellWifiStatus × Station :=
  let status : Esp32shellWifiStatus :=
    { configured := w.configured
      connecting := s.connecting && r.apInfo.isNone
      activeSlot := s.activeSlot
      activeSsid := (w.profiles s.activeSlot).ssid.take 32
      ipAddress := (r.ipInfo.map ipText).getD (lit "0.0.0.0")
      rssi := r.apInfo.getD 0 }
  (status, { s with connected := s.connected || r.apInfo.isSome })

inductive Event where
  | pass (p : Pass)
  | disconnected
  | gotIp
  | status (r : Readings)

def turn (w : Setup) (s : Station) : Event → Turn
  | .pass p => failoverPass w s p
  | .disconnected => ⟨wifiEvent s, [], []⟩
  | .gotIp => ⟨ipEvent s, [], []⟩
  | .status r => ⟨(wifiStatus w s r).2, [], []⟩

def next (w : Setup) (s : Station) (e : Event) : Station := (turn w s e).station

/-- The station after a run of events. -/
def afterEvents (w : Setup) (events : List Event) : Station := after (next w) initial events

/-- A turn of a run, as the station that takes it and the event. -/
abbrev Moment := Station × Event

theorem afterEvents_snoc (w : Setup) (events : List Event) (e : Event) :
    afterEvents w (events ++ [e]) = (turn w (afterEvents w events) e).station := after_snoc events e

/-- The task starts attempts: nothing is under way, and the cooldown is over. -/
def Starts (w : Setup) (s : Station) (now : UInt32) : Prop :=
  w.configured = true ∧ s.connected = false ∧ s.connecting = false ∧
    (s.attemptStarted = 0 ∨ w.switchCooldownTicks ≤ now - s.attemptStarted)

instance (w : Setup) (s : Station) (now : UInt32) : Decidable (Starts w s now) :=
  inferInstanceAs (Decidable (_ ∧ _ ∧ _ ∧ _))

inductive PassStep (w : Setup) (s : Station) (p : Pass) : Turn → Prop where
  | waits (h : ¬ Starts w s p.now) : PassStep w s p ⟨s, [], []⟩
  | timesOut (hcon : s.connected = false) (hcing : s.connecting = true) :
      PassStep w s p ⟨{ s with
        connecting := false, attemptStarted := p.now, nextSlot := s.activeSlot + 1 }, [], [.disconnect]⟩
  | offers (h : Starts w s p.now) : PassStep w s p
      ⟨(applyProfiles w p.attempts [0, 1] s).1, (applyProfiles w p.attempts [0, 1] s).2,
        (applyProfiles w p.attempts [0, 1] s).2.flatMap Offer.calls⟩

theorem pass_cases (w : Setup) (s : Station) (p : Pass) : PassStep w s p (failoverPass w s p) := by
  rw [failoverPass]
  by_cases hrun : w.configured = true ∧ ¬ s.connected = true
  · have hcon : s.connected = false := Bool.eq_false_of_not_eq_true hrun.2
    rw [if_pos hrun]
    by_cases hstarts : ¬ s.connecting = true ∧
        (s.attemptStarted = 0 ∨ w.switchCooldownTicks ≤ p.now - s.attemptStarted)
    · rw [if_pos hstarts]
      exact .offers ⟨hrun.1, hcon, Bool.eq_false_of_not_eq_true hstarts.1, hstarts.2⟩
    · have hidle : ¬ Starts w s p.now := fun h => hstarts ⟨by simp [h.2.2.1], h.2.2.2⟩
      rw [if_neg hstarts]
      by_cases hlate : s.connecting = true ∧ w.attemptTicks ≤ p.now - s.attemptStarted
      · rw [if_pos hlate]
        exact .timesOut hcon hlate.1
      · rw [if_neg hlate]
        exact .waits hidle
  · rw [if_neg hrun]
    exact .waits fun h => hrun ⟨h.1, by simp [h.2.1]⟩

end Esp32Shell.Idf.WifiStation
