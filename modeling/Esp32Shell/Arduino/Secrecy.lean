import Esp32Shell.Arduino.ConfigOutput
import Esp32Shell.Arduino.Sketch
import Esp32Shell.Shell.Twins
import Esp32Shell.Storage.VeiledFlash

/-!
# Secrets on the serial console

Two devices whose preferences differ in secrets alone, from their restart on.
Whatever is typed, the console shows the same on both and the radio is driven
alike but for the passwords, unless a line asks for the password of a slot.
-/
namespace Esp32Shell.Arduino.Secrecy

open Esp32Shell.Library.CText Esp32Shell.Library.Feed Esp32Shell.Library.Sha256
open Shell.CommandCore Shell.Twins Storage.Nvs Storage.VeiledFlash
open ConfigOutput (secretKeys slotPasswordKeys wifiPasswordKeys SamePasswordsSet)
open WifiService Preferences Esp32Services Sketch
open SerialLoop (Console Turn dispatchLine println)

variable {ρ : Type}

/-! ### The Wi-Fi service -/

/-- Profiles that differ in their passwords. -/
def SameProfiles (p p' : Fin maxProfiles → Profile) : Prop :=
  ∀ slot, (p slot).ssid = (p' slot).ssid ∧ (p slot).enabled = (p' slot).enabled

/-- Services that differ in the passwords of their profiles. -/
def SameService (s s' : Service) : Prop :=
  ∃ p, SameProfiles s.profiles_ p ∧ s' = { s with profiles_ := p }

/-- A call to the driver, without the password. -/
def unlocked : DriverCall → DriverCall
  | .begin ssid _ => .begin ssid []
  | .disconnect => .disconnect

section
variable {s s' : Service} {p p' : Fin maxProfiles → Profile}

theorem SameProfiles.anyConfigured (h : SameProfiles p p') : anyConfigured p = anyConfigured p' := by
  simp only [WifiService.anyConfigured, (h _).2]

theorem SameProfiles.set (h : SameProfiles p p') (slot : Fin maxProfiles) {profile profile' : Profile}
    (hssid : profile.ssid = profile'.ssid) (henabled : profile.enabled = profile'.enabled) :
    SameProfiles (fun i => if i = slot then profile else p i)
      (fun i => if i = slot then profile' else p' i) := by
  intro i
  by_cases hi : i = slot
  · simp only [if_pos hi]
    exact ⟨hssid, henabled⟩
  · simp only [if_neg hi]
    exact h i

theorem setProfile_same (h : SameService s s') (slot : Fin maxProfiles) (profile profile' : Profile)
    (hssid : profile.ssid = profile'.ssid) (henabled : profile.enabled = profile'.enabled) :
    SameService (setProfile s slot profile) (setProfile s' slot profile') := by
  obtain ⟨p, hp, rfl⟩ := h
  have hset := hp.set slot hssid henabled
  refine ⟨_, hset, ?_⟩
  simp only [setProfile, hset.anyConfigured]

/-- Whether a profile is accepted does not depend on its password. -/
theorem configure_same (h : SameService s s') (slot : Nat) (ssid password password' : Text)
    (now : UInt32) :
    (configure s slot (some ssid) (some password) now).2 =
      (configure s' slot (some ssid) (some password') now).2 ∧
    SameService (configure s slot (some ssid) (some password) now).1
      (configure s' slot (some ssid) (some password') now).1 := by
  simp only [configure]
  split
  next hslot =>
    obtain ⟨p, hp, heq⟩ := setProfile_same h ⟨slot, hslot.1⟩ (.copied ssid password)
      (.copied ssid password') rfl rfl
    refine ⟨rfl, p, hp, ?_⟩
    simp only [heq]
  next => exact ⟨rfl, h⟩

theorem clearSlot_same (h : SameService s s') (slot : Nat) :
    SameService (clearSlot s slot).1 (clearSlot s' slot).1 ∧
      (clearSlot s slot).2 = (clearSlot s' slot).2 := by
  simp only [clearSlot]
  split
  next hslot =>
    obtain ⟨p, hp, heq⟩ := setProfile_same h ⟨slot, hslot⟩ .cleared .cleared rfl rfl
    have hactive : s.activeSlot_ = s'.activeSlot_ := by
      obtain ⟨_, -, rfl⟩ := h
      rfl
    simp only [hactive]
    split
    · refine ⟨⟨p, hp, ?_⟩, rfl⟩
      simp only [heq]
    · exact ⟨⟨p, hp, heq⟩, rfl⟩
  next => exact ⟨h, rfl⟩

theorem clear_same (h : SameService s s') :
    SameService (WifiService.clear s).1 (WifiService.clear s').1 ∧
      (WifiService.clear s).2 = (WifiService.clear s').2 := by
  obtain ⟨hfirst, hcalls⟩ := clearSlot_same h 0
  obtain ⟨⟨p, hp, heq⟩, hmore⟩ := clearSlot_same hfirst 1
  refine ⟨⟨p, hp, ?_⟩, ?_⟩
  · simp only [WifiService.clear, heq]
  · simp only [WifiService.clear, hcalls, hmore]

theorem tick_same (h : SameService s s') (now : UInt32) (driver : Driver) :
    SameService (tick s now driver).1 (tick s' now driver).1 ∧
      (tick s now driver).2.map unlocked = (tick s' now driver).2.map unlocked := by
  obtain ⟨p, hp, rfl⟩ := h
  have hnext : nextProfile { s with profiles_ := p } = nextProfile s := by
    simp only [nextProfile, (hp _).2]
  simp only [tick, hnext]
  split
  · exact ⟨⟨p, hp, rfl⟩, rfl⟩
  split
  · exact ⟨⟨p, hp, rfl⟩, rfl⟩
  split
  · exact ⟨⟨p, hp, rfl⟩, rfl⟩
  split
  · exact ⟨⟨p, hp, rfl⟩, rfl⟩
  split
  · exact ⟨⟨p, hp, rfl⟩, rfl⟩
  split
  · exact ⟨⟨p, hp, rfl⟩, rfl⟩
  next slot _ _ =>
    refine ⟨⟨p, hp, rfl⟩, ?_⟩
    simp only [List.map_cons, List.map_nil, unlocked, (hp slot).1]

end

/-! ### Two devices -/

/-- The text of a value, as `getString` reads it. -/
def textOf : Option NvsValue → Text
  | some (.str text) => text
  | _ => []

/-- What is not told apart under a key. A restart tells whether the password of a network is empty. -/
def secretVeil : Veil where
  covers key v v' := v = v' ∨ key ∈ secretKeys ∧ v.map NvsValue.type = v'.map NvsValue.type ∧
    (key ∈ wifiPasswordKeys → (textOf v = [] ↔ textOf v' = []))
  refl _ _ := .inl rfl
  isSome key v v' h :=
    (ofKeys secretKeys).isSome key v v' (h.imp_right fun hsecret => ⟨hsecret.1, hsecret.2.1⟩)

/-- Devices that differ in their secrets alone. -/
structure Twins (d d' : Device ρ) : Prop where
  preferences : SameFlash secretVeil d.preferences_ d'.preferences_
  wifi : SameService d.wifiService d'.wifiService
  calls : d.driverCalls.map unlocked = d'.driverCalls.map unlocked
  millis : d.millis = d'.millis
  rest : d.rest = d'.rest

section
variable {d d' : Device ρ}

theorem Twins.alike (h : Twins d d') : ConfigOutput.Alike d d' where
  preferences := covered_ofKeys_iff.mp fun key => (h.preferences.covered key).imp_right fun hsecret =>
    ⟨hsecret.1, hsecret.2.1⟩
  wifi slot := by
    obtain ⟨p, hp, heq⟩ := h.wifi
    rw [shownSsid, shownSsid, heq, (hp slot).1, (hp slot).2]

theorem Twins.samePasswordsSet (h : Twins d d') : SamePasswordsSet d d' := by
  intro key hkey
  rcases h.preferences.covered key with hsame | hsecret
  · rw [getString_congr hsame]
  · exact hsecret.2.2 hkey

/-- Devices whose secrets alone differ, as long as the same passwords are set. -/
theorem covered_of_alike {d d' : Device ρ}
    (h : Store.Alike (· ∈ secretKeys) d.preferences_.store d'.preferences_.store)
    (hset : SamePasswordsSet d d') : Covered secretVeil d.preferences_.store d'.preferences_.store := by
  intro key
  by_cases hkey : key ∈ secretKeys
  · exact .inr ⟨hkey, h.type key, hset key⟩
  · exact .inl (h.find key hkey)

theorem Twins.store (h : Twins d d') {c : Call} (hc : BlindCall secretVeil c) :
    Twins (d.store c) (d'.store c) := ⟨(hc _ _ h.preferences).2, h.wifi, h.calls, h.millis, h.rest⟩

/-- A change of the service that drives the radio alike. -/
theorem Twins.changed (h : Twins d d') {change change' : Service × List DriverCall}
    (hservice : SameService change.1 change'.1) (hcalls : change.2.map unlocked = change'.2.map unlocked) :
    Twins (d.wifi change) (d'.wifi change') := by
  refine ⟨h.preferences, hservice, ?_, h.millis, h.rest⟩
  simp only [Device.wifi, List.map_append, h.calls, hcalls]

theorem blind_putString (key value : Text) : BlindCall secretVeil (putString key value) :=
  (blind_setStr key value).and blind_commit

theorem blind_putBytes (key : Text) (bytes : List UInt8) :
    BlindCall secretVeil (putBytes key bytes) := (blind_setBlob key bytes).and blind_commit

theorem blind_clear : BlindCall secretVeil Preferences.clear := blind_eraseAll.and blind_commit

theorem blind_remove (key : Text) : BlindCall secretVeil (remove key) := by
  refine BlindCall.and (fun n n' hn => ?_) blind_commit
  obtain ⟨hanswer, hafter⟩ := same_erase hn key
  exact ⟨congrArg (fun e => decide (e = EspErr.ok)) hanswer, hafter⟩

theorem same_reply (h : Twins d d') (lines : List Text) (answer : Bool) :
    Alike Twins ⟨d, lines, answer⟩ ⟨d', lines, answer⟩ := ⟨h, rfl, rfl⟩

/-- What is stored under two keys, behind a change of the service. -/
theorem Twins.saved (h : Twins d d') (ssidKey ssid passwordKey password : Text) :
    Twins ((d.store (putString ssidKey ssid)).store (putString passwordKey password))
      ((d'.store (putString ssidKey ssid)).store (putString passwordKey password)) :=
  (h.store (blind_putString _ _)).store (blind_putString _ _)

theorem Twins.removed (h : Twins d d') (ssidKey passwordKey : Text) :
    Twins ((d.store (remove ssidKey)).store (remove passwordKey))
      ((d'.store (remove ssidKey)).store (remove passwordKey)) :=
  (h.store (blind_remove _)).store (blind_remove _)

theorem same_wifiConfig (h : Twins d d') (arguments : Text) :
    Alike Twins (wifiConfig arguments d) (wifiConfig arguments d') := by
  simp only [wifiConfig]
  generalize (if (byteAt arguments 0 = 48 ∨ byteAt arguments 0 = 49) ∧ byteAt arguments 1 = space then
    (byteAt arguments 0).toNat - 48 else 0) = slot
  generalize (if (byteAt arguments 0 = 48 ∨ byteAt arguments 0 = 49) ∧ byteAt arguments 1 = space then
    arguments.drop 2 else arguments) = profileArguments
  split
  · exact same_reply h _ _
  split
  · exact same_reply h _ _
  split
  · exact same_reply h _ _
  next separator _ _ _ =>
    have hconfigure := configure_same h.wifi slot (profileArguments.take separator)
      (profileArguments.drop (separator + 1)) (profileArguments.drop (separator + 1)) d.millis
    rw [← h.millis]
    generalize configure d.wifiService slot _ _ d.millis = first at hconfigure ⊢
    generalize configure d'.wifiService slot _ _ d.millis = second at hconfigure ⊢
    obtain ⟨service, accepted⟩ := first
    obtain ⟨service', accepted'⟩ := second
    obtain ⟨rfl, hservice⟩ := hconfigure
    cases accepted with
    | false => exact same_reply h _ _
    | true =>
      have hchanged : Twins (d.wifi (service, [])) (d'.wifi (service', [])) := h.changed hservice rfl
      simp only
      split
      · exact same_reply ((hchanged.saved _ _ _ _).saved _ _ _ _) _ _
      · exact same_reply (hchanged.saved _ _ _ _) _ _

theorem same_wifiProfileClear (h : Twins d d') (arguments : Text) :
    Alike Twins (wifiProfileClear arguments d) (wifiProfileClear arguments d') := by
  simp only [wifiProfileClear]
  split
  · exact same_reply h _ _
  · obtain ⟨hservice, hcalls⟩ := clearSlot_same h.wifi ((byteAt arguments 0).toNat - 48)
    have hchanged := h.changed hservice (congrArg (List.map unlocked) hcalls)
    split
    · exact same_reply ((hchanged.removed _ _).removed _ _) _ _
    · exact same_reply (hchanged.removed _ _) _ _

theorem same_configGet (h : Twins d d') {arguments : Text} (hslot : arguments ∉ slotPasswordKeys) :
    Alike Twins (configGet arguments d) (configGet arguments d') := by
  have hreads : ∀ d : Device ρ, configGet arguments d = ⟨d, (configGet arguments d).lines, true⟩ := by
    intro d
    simp only [configGet]
    split_ifs <;> rfl
  rw [hreads d, hreads d']
  by_cases hne : arguments = []
  · simp only [configGet, if_pos hne]
    exact same_reply h _ _
  · rw [(ConfigOutput.configGet_lines h.alike hne).mpr fun hasked => absurd hasked hslot]
    exact same_reply h _ _

theorem same_configSet (h : Twins d d') (sha256 : List UInt8 → Digest) (arguments : Text) :
    Alike Twins (configSet sha256 arguments d) (configSet sha256 arguments d') := by
  simp only [configSet]
  split
  · exact same_reply h _ _
  split
  · exact same_reply h _ _
  split
  · exact same_reply h _ _
  split
  · exact same_reply h _ _
  split
  · split
    · exact same_reply h _ _
    · exact same_reply ((h.store (blind_putBytes _ _)).store (blind_remove _)) _ _
  split
  · split
    · split
      · exact same_reply h _ _
      · exact same_reply (h.store (blind_putBytes _ _)) _ _
    · exact same_reply h _ _
  · exact same_reply (h.store (blind_putString _ _)) _ _

theorem same_configClear (h : Twins d d') (arguments : Text) :
    Alike Twins (configClear arguments d) (configClear arguments d') := by
  simp only [configClear]
  split
  · exact same_reply h _ _
  · obtain ⟨hservice, hcalls⟩ := clear_same h.wifi
    exact same_reply ((h.store blind_clear).changed hservice (congrArg (List.map unlocked) hcalls)) _ _

end

/-! ### The restart -/

/-- The stored values of a slot name the same network, and are complete on both devices or on neither. -/
theorem stored_same {d d' : Image} (h : Twins d d') (slot : Fin maxProfiles) :
    storedValue d.preferences_ slot (ssidKey slot) (lit "wifi_ssid") =
      storedValue d'.preferences_ slot (ssidKey slot) (lit "wifi_ssid") ∧
    (storedValue d.preferences_ slot (passwordKey slot) (lit "wifi_password") = [] ↔
      storedValue d'.preferences_ slot (passwordKey slot) (lit "wifi_password") = []) := by
  obtain ⟨hssidKey, hpasswordKey⟩ := ConfigOutput.slotKeys slot
  have hpublic : ∀ key, key ∉ secretKeys →
      getString d.preferences_ key [] = getString d'.preferences_ key [] := fun key hkey =>
    getString_congr (h.alike.preferences.find key hkey) []
  refine ⟨?_, ?_⟩
  · rw [storedValue, storedValue, hpublic _ hssidKey, hpublic (lit "wifi_ssid") (by decide)]
  · rw [ConfigOutput.storedValue_eq_nil_iff, ConfigOutput.storedValue_eq_nil_iff,
      h.samePasswordsSet _ hpasswordKey, h.samePasswordsSet (lit "wifi_password") (by decide)]

theorem same_loadSlot {d d' : Image} (h : Twins d d') (slot : Fin maxProfiles) :
    Twins (loadSlot d slot) (loadSlot d' slot) := by
  obtain ⟨hssid, hpassword⟩ := stored_same h slot
  simp only [loadSlot, hssid, ne_eq, hpassword]
  split
  · have hconfigure := configure_same h.wifi slot
      (storedValue d'.preferences_ slot (ssidKey slot) (lit "wifi_ssid"))
      (storedValue d.preferences_ slot (passwordKey slot) (lit "wifi_password"))
      (storedValue d'.preferences_ slot (passwordKey slot) (lit "wifi_password")) d.millis
    rw [← h.millis]
    exact ⟨h.preferences, hconfigure.2, h.calls, rfl, h.rest⟩
  · exact h

theorem same_restarted {d d' : Image} (h : Twins d d') : Twins (restarted d) (restarted d') := by
  have hinitial : SameService initial initial := ⟨_, fun _ => ⟨rfl, rfl⟩, rfl⟩
  have hbegun : ∀ (millis : UInt32) (rest : Rest), Twins { d with wifiService := initial, millis := millis, rest := rest }
      { d' with wifiService := initial, millis := millis, rest := rest } := fun millis rest =>
    ⟨h.preferences, hinitial, h.calls, rfl, rfl⟩
  have hloaded := same_loadSlot (same_loadSlot (hbegun (UInt32.ofNat d.rest.now.uptimeMs)
    d.rest.asked.restarted) ⟨0, Nat.zero_lt_two⟩) ⟨1, Nat.one_lt_two⟩
  rw [restarted, restarted, ← h.rest]
  exact hloaded

/-! ### The sketch -/

/-- Not the question for the password of a slot. -/
def Allowed (c : ServiceCall) : Prop := ∀ key ∈ slotPasswordKeys, c ≠ .configGet key

theorem blind_others (c : ServiceCall) : Blind others Twins c := by
  rintro d d' h
  have hanswer : ∀ (r : Rest) (lines : List Text) (b : Bool),
      Alike Twins (answer d r lines b) (answer d' r lines b) := fun r lines b =>
    ⟨⟨h.preferences, h.wifi, h.calls, h.millis, rfl⟩, rfl, rfl⟩
  have hrest := h.rest
  cases c with
  | reboot => exact ⟨same_restarted h, rfl, rfl⟩
  | wifiStatus =>
    obtain ⟨p, -, heq⟩ := h.wifi
    simp only [others, wifiStatus, ← hrest, heq]
    exact hanswer _ _ _
  | fsList arguments =>
    simp only [others, fsList, ← hrest]
    generalize (if arguments = [] then lit "/" else arguments) = path
    split
    · exact hanswer _ _ _
    split <;> exact hanswer _ _ _
  | gpioRead arguments =>
    simp only [others, gpioRead, ← hrest]
    split <;> exact hanswer _ _ _
  | gpioWrite arguments =>
    simp only [others, gpioWrite, ← hrest]
    split <;> exact hanswer _ _ _
  | _ =>
    simp only [others, deviceInfo, uptime, heap, psram, resetReason, tasks, gpioModes, logs, otaStatus,
      appList, appStatus, onFiles, onApps, ← hrest]
    exact hanswer _ _ _

theorem blind_sketch {c : ServiceCall} (hc : Allowed c) : Blind sketch Twins c := by
  intro d d' h
  cases c with
  | wifiConfig arguments => exact same_wifiConfig h arguments
  | wifiProfiles => exact ⟨h, ConfigOutput.wifiProfiles_lines h.alike, rfl⟩
  | wifiProfileClear arguments => exact same_wifiProfileClear h arguments
  | configList => exact ⟨h, ConfigOutput.configList_lines h.alike, rfl⟩
  | configGet arguments => exact same_configGet h fun hslot => hc arguments hslot rfl
  | configSet arguments => exact same_configSet h sha256 arguments
  | configClear arguments => exact same_configClear h arguments
  | _ =>
    simp only [sketch, services]
    exact blind_others _ d d' h

/-! ### The console -/

/-- No line that was dispatched asks for the password of a slot. -/
def Discreet (events : List Shell.Session.Event) : Prop :=
  ∀ command, .dispatched command ∈ events → ∀ key ∈ slotPasswordKeys,
    call (route command) ≠ some (.configGet key)

/-- Two consoles that show the same. -/
structure SameConsole (c c' : Console Rest) : Prop where
  device : Twins c.device c'.device
  readLine : c.readLine = c'.readLine
  lineEndingSeen : c.lineEndingSeen = c'.lineEndingSeen
  events : c.events = c'.events

section
variable {c c' : Console Rest}

/-- The console behind the bytes, before a restart or after it. -/
def consoleOf : Except (Console Rest) (Console Rest) → Console Rest
  | .ok c | .error c => c

theorem loop_events (c : Console Rest) (t : Turn) :
    (loop c t).events = (consoleOf (feed readByte c t.available)).events := by
  rw [loop]
  cases feed readByte c t.available <;> rfl

theorem events_line (c : Console Rest) : c.events <+: (dispatchLine sketch c).events := by
  simp only [dispatchLine, List.append_assoc]
  exact List.prefix_append _ _

theorem events_rebooted (c : Console Rest) : c.events <+: (rebooted c).events := by
  simp only [rebooted, List.append_assoc]
  exact List.prefix_append _ _

theorem events_byte (c : Console Rest) (b : UInt8) :
    Holds (fun next => c.events <+: next.events) (fun next => c.events <+: next.events) (readByte c b) := by
  have hreceived : c.events <+: c.events ++ [.received b] := List.prefix_append _ _
  unfold readByte
  split
  · exact hreceived.trans (events_rebooted { c with events := c.events ++ [.received b] })
  · show c.events <+: (SerialLoop.readByte sketch c b).events
    simp only [SerialLoop.readByte]
    split
    · split
      · exact hreceived
      · exact hreceived.trans (events_line { c with events := c.events ++ [.received b] })
    · split
      · exact hreceived.trans (List.prefix_append _ _)
      · exact hreceived

theorem events_bytes (c : Console Rest) (bytes : List UInt8) :
    c.events <+: (consoleOf (feed readByte c bytes)).events := by
  have hstep : ∀ s b, c.events <+: s.events → Holds (fun next => c.events <+: next.events)
      (fun next => c.events <+: next.events) (readByte s b) := by
    intro s b hs
    have hbyte := events_byte s b
    cases hnext : readByte s b with
    | ok next =>
      rw [hnext] at hbyte
      exact hs.trans hbyte
    | error next =>
      rw [hnext] at hbyte
      exact hs.trans hbyte
  have hall := feed_holds hstep List.prefix_rfl bytes
  cases hfed : feed readByte c bytes <;> rwa [hfed] at hall

theorem events_turns (c : Console Rest) (turns : List Turn) :
    c.events <+: (turns.foldl loop c).events := by
  induction turns generalizing c with
  | nil => exact List.prefix_rfl
  | cons t turns ih =>
    have hturn := events_bytes c t.available
    rw [← loop_events] at hturn
    exact hturn.trans (ih (loop c t))

theorem Discreet.earlier {events more : List Shell.Session.Event} (h : Discreet more)
    (hbegins : events <+: more) : Discreet events := fun command hm => h command (hbegins.subset hm)

/-- A line that was dispatched reads alike on both. -/
theorem same_dispatched (h : SameConsole c c') {events : List Shell.Session.Event}
    (hdiscreet : Discreet events) (hmem : .dispatched (cString c.readLine) ∈ events) :
    SameDispatch Twins (dispatch sketch c.device (some c.readLine))
      (dispatch sketch c'.device (some c.readLine)) := by
  refine same_dispatch c.readLine (fun call' hcall => ?_) h.device
  have hroute : route (cString c.readLine) = route c.readLine := by
    simp only [route, cString_cString]
  refine blind_sketch fun key hkey he => hdiscreet _ hmem key hkey ?_
  rw [hroute, hcall, he]

theorem same_line (h : SameConsole c c') (hdiscreet : Discreet (dispatchLine sketch c).events) :
    SameConsole (dispatchLine sketch c) (dispatchLine sketch c') := by
  have hdone := same_dispatched h hdiscreet (by simp [dispatchLine])
  refine ⟨?_, rfl, h.lineEndingSeen, ?_⟩
  · simp only [dispatchLine, ← h.readLine]
    exact hdone.device
  · simp only [dispatchLine, ← h.readLine, h.events, hdone.calls, hdone.lines, hdone.status]

theorem same_rebooted (h : SameConsole c c') (hdiscreet : Discreet (rebooted c).events) :
    SameConsole (rebooted c) (rebooted c') := by
  have hdone := same_dispatched h hdiscreet (by simp [rebooted])
  refine ⟨?_, rfl, rfl, ?_⟩
  · simp only [rebooted, ← h.readLine]
    exact hdone.device
  · simp only [rebooted, ← h.readLine, h.events, hdone.calls, hdone.lines]
    rfl

theorem same_byte (h : SameConsole c c') (b : UInt8)
    (hdiscreet : Discreet (consoleOf (readByte c b)).events) :
    Agree SameConsole SameConsole (readByte c b) (readByte c' b) := by
  obtain ⟨device, line, seen, events, hle⟩ := c
  obtain ⟨device', line', seen', events', hle'⟩ := c'
  obtain ⟨hdevice, rfl, rfl, rfl⟩ := h
  have hreceived : SameConsole ⟨device, line, seen, events ++ [.received b], hle⟩
      ⟨device', line, seen, events ++ [.received b], hle⟩ := ⟨hdevice, rfl, rfl, rfl⟩
  unfold readByte at hdiscreet ⊢
  split
  next hreboots =>
    rw [if_pos hreboots] at hdiscreet
    exact same_rebooted hreceived hdiscreet
  next hreboots =>
    rw [if_neg hreboots] at hdiscreet
    show SameConsole (SerialLoop.readByte sketch _ b) (SerialLoop.readByte sketch _ b)
    simp only [consoleOf, SerialLoop.readByte] at hdiscreet ⊢
    split
    next hend =>
      rw [if_pos hend] at hdiscreet
      cases seen with
      | true => exact ⟨hdevice, rfl, rfl, rfl⟩
      | false =>
        have hline := same_line hreceived hdiscreet
        exact ⟨hline.device, hline.readLine, rfl, hline.events⟩
    next => split <;> exact ⟨hdevice, rfl, rfl, rfl⟩

theorem same_bytes (h : SameConsole c c') (bytes : List UInt8)
    (hdiscreet : Discreet (consoleOf (feed readByte c bytes)).events) :
    Agree SameConsole SameConsole (feed readByte c bytes) (feed readByte c' bytes) := by
  induction bytes generalizing c c' with
  | nil => exact h
  | cons b bytes ih =>
    cases hnext : readByte c b with
    | ok next =>
      rw [feed_cons_ok _ hnext] at hdiscreet ⊢
      have hbyte := same_byte h b (by rw [hnext]; exact hdiscreet.earlier (events_bytes next bytes))
      rw [hnext] at hbyte
      cases hnext' : readByte c' b with
      | ok next' =>
        rw [hnext'] at hbyte
        rw [feed_cons_ok _ hnext']
        exact ih hbyte hdiscreet
      | error next' =>
        rw [hnext'] at hbyte
        exact hbyte.elim
    | error next =>
      rw [feed_cons_error _ hnext] at hdiscreet ⊢
      have hbyte := same_byte h b (by rw [hnext]; exact hdiscreet)
      rw [hnext] at hbyte
      cases hnext' : readByte c' b with
      | ok next' =>
        rw [hnext'] at hbyte
        exact hbyte.elim
      | error next' =>
        rw [hnext'] at hbyte
        rw [feed_cons_error _ hnext']
        exact hbyte

theorem same_loop (h : SameConsole c c') (t : Turn) (hdiscreet : Discreet (loop c t).events) :
    SameConsole (loop c t) (loop c' t) := by
  rw [loop_events] at hdiscreet
  have hbytes := same_bytes h t.available hdiscreet
  rw [loop, loop]
  cases hfed : feed readByte c t.available with
  | error next =>
    rw [hfed] at hbytes
    cases hfed' : feed readByte c' t.available with
    | ok drained' =>
      rw [hfed'] at hbytes
      exact hbytes.elim
    | error next' =>
      rw [hfed'] at hbytes
      exact hbytes
  | ok drained =>
    rw [hfed] at hbytes
    cases hfed' : feed readByte c' t.available with
    | error next' =>
      rw [hfed'] at hbytes
      exact hbytes.elim
    | ok drained' =>
      rw [hfed'] at hbytes
      have hdrained : SameConsole drained drained' := hbytes
      obtain ⟨hservice, hcalls⟩ := tick_same hdrained.device.wifi t.now t.driver
      refine ⟨?_, hdrained.readLine, hdrained.lineEndingSeen, hdrained.events⟩
      have hclock : Twins { drained.device with millis := t.now }
          { drained'.device with millis := t.now } :=
        ⟨hdrained.device.preferences, hdrained.device.wifi, hdrained.device.calls, rfl,
          hdrained.device.rest⟩
      exact hclock.changed hservice hcalls

theorem same_turns (h : SameConsole c c') (turns : List Turn)
    (hdiscreet : Discreet (turns.foldl loop c).events) :
    SameConsole (turns.foldl loop c) (turns.foldl loop c') := by
  induction turns generalizing c c' with
  | nil => exact h
  | cons t turns ih => exact ih (same_loop h t (hdiscreet.earlier (events_turns _ turns))) hdiscreet

end

/-- From a restart on, whatever is typed in any number of turns, further restarts included, the console
shows the same on two devices that differ in their secrets alone, and the radio is driven alike but for the
passwords, as long as no line asks for the password of a slot. -/
theorem console_alike {d d' : Image} (h : Twins d d') (turns : List Turn)
    (hdiscreet : Discreet (afterTurns d turns).events) :
    (afterTurns d turns).events = (afterTurns d' turns).events ∧
    (afterTurns d turns).device.driverCalls.map unlocked =
      (afterTurns d' turns).device.driverCalls.map unlocked := by
  have hsetup : SameConsole (setup d) (setup d') := ⟨same_restarted h, rfl, rfl, rfl⟩
  have hsame := same_turns hsetup turns hdiscreet
  exact ⟨hsame.events, hsame.device.calls⟩

/-- The device of a shop, with a password for slot 0. -/
def shop (password : Text) (h : 0 ∉ password) : Image where
  preferences_ := (ConfigOutput.provisioned password h).preferences_
  wifiService := initial
  driverCalls := []
  millis := 0
  rest :=
    { fs := ⟨Storage.LittleFs.Tree.mounted, []⟩
      apps := AppCommands.constructed
      ota_ := OtaService.initial
      pins := []
      readings := fun _ =>
        { chipModel := lit "ESP32-S3", chipCores := 2, cpuFreqMHz := 240, flashChipSize := 0, psramSize := 0
          freePsram := 0, uptimeMs := 0, freeHeap := 20000, minFreeHeap := 0, resetReason := 1, tasks := []
          level := fun _ => 0, wifi := ⟨false, false⟩, rssi := 0, localIP := lit "0.0.0.0"
          directory := fun _ => none, created := some 1 }
      calls := 0 }

/-- A reboot, which the rest of its turn is lost in, and a list of the keys behind it. -/
def listing : List Turn :=
  [⟨lit "reb", 0, ⟨false, false⟩⟩, ⟨lit "oot\r\nheap\r", 3, ⟨false, false⟩⟩,
    ⟨lit "config-list\r\n", 5, ⟨false, false⟩⟩]

theorem console_alike_list :
    let first := shop (lit "first") (by decide)
    let second := shop (lit "second") (by decide)
    (afterTurns first listing).events = (afterTurns second listing).events ∧
    (afterTurns first listing).device.driverCalls.map unlocked =
      (afterTurns second listing).device.driverCalls.map unlocked := by
  intro first second
  have halike : ConfigOutput.Alike (ConfigOutput.provisioned (lit "first") (by decide))
      (ConfigOutput.provisioned (lit "second") (by decide)) := ConfigOutput.provisioned_alike _ _
  have hset : SamePasswordsSet first second := by
    unfold SamePasswordsSet
    decide
  have hstore : SameFlash secretVeil first.preferences_ second.preferences_ :=
    ⟨rfl, covered_of_alike halike.preferences hset⟩
  have htwins : Twins first second := ⟨hstore, ⟨_, fun _ => ⟨rfl, rfl⟩, rfl⟩, rfl, rfl, rfl⟩
  refine console_alike htwins listing fun command hm => ?_
  have htexts : Shell.LineReading.dispatchedTexts (afterTurns first listing).events =
      [lit "reboot", lit "config-list"] := by decide +kernel
  have hmem : command ∈ Shell.LineReading.dispatchedTexts (afterTurns first listing).events :=
    List.mem_filterMap.mpr ⟨_, hm, rfl⟩
  rw [htexts, List.mem_cons, List.mem_singleton] at hmem
  rcases hmem with rfl | rfl <;> decide

end Esp32Shell.Arduino.Secrecy
