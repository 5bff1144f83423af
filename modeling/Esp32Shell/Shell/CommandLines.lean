import Esp32Shell.Shell.Routing

/-!
# Lines of one command

What a line does whose first word is a given name of the command table, and the
device after a sequence of lines.
-/
namespace Esp32Shell.Shell.CommandLines

open Esp32Shell.Library.CText
open CommandCore CommandTable Routing

variable {σ : Type}

/-- The first word of a line. -/
def word (input : List UInt8) : Text := firstWord (trimmed input)

/-- The text that a method receives from a line: all that follows the first word and one space. -/
def argument (input : List UInt8) : Text := (stripped input).drop ((word input).length + 1)

/-- The device after a sequence of lines. -/
def afterLines (services : DeviceServices σ) (device : σ) (lines : List (List UInt8)) : σ :=
  lines.foldl (fun device input => (dispatch services device (some input)).device) device

/-- The lines of a sequence that report success. -/
def acceptedLines (services : DeviceServices σ) (device : σ) : List (List UInt8) → List (List UInt8)
  | [] => []
  | input :: lines =>
    let done := dispatch services device (some input)
    let rest := acceptedLines services done.device lines
    if done.status = .ok then input :: rest else rest

/-- The line is answered with a text of its own, which reports no success. -/
def Refused (input : List UInt8) : Prop :=
  ∃ lines status, route input = .say lines status ∧ status ≠ .ok

theorem zero_notMem_argument (input : List UInt8) : 0 ∉ argument input := by
  intro h
  have hs : 0 ∈ stripped input := List.mem_of_mem_drop h
  exact zero_notMem_cString input ((List.dropWhile_suffix _).subset hs)

theorem argument_ne_nil {input : List UInt8} {name x : Text} (hw : word input = name) (hx : x ≠ [])
    (ht : trimmed input = name ++ space :: x) : argument input ≠ [] := by
  intro hnil
  have hle := List.drop_eq_nil_iff.mp hnil
  have hlen := (trimmed_begins input).length_le
  have hpos := List.length_pos_iff.mpr hx
  rw [ht, List.length_append, List.length_cons] at hlen
  rw [hw] at hle
  omega

/-- A line of a command with an argument is refused, or reaches its method with all that follows
the name and one space. -/
theorem route_of_word {c : Command} (hc : c ∈ commandTable) {input : List UInt8}
    (hw : word input = c.name) :
    Refused input ∨
    (c.withArgument = none ∧ route input = c.bare) ∨
    ∃ action, c.withArgument = some action ∧ argument input ≠ [] ∧
      route input = action (argument input) := by
  by_cases h0 : trimmed input = []
  · left
    exact ⟨[], .empty, by rw [route_eq, if_pos h0], by simp⟩
  by_cases hl : maxCommandLength < (trimmed input).length
  · left
    exact ⟨_, .invalid, by rw [route_eq, if_neg h0, if_pos hl], by simp⟩
  rcases route_cases input h0 (Nat.not_lt.mp hl) with
    ⟨c', hc', he, hr⟩ | ⟨c', hc', action, ha, hm, hr⟩ | ⟨-, hr⟩
  · have hname : c'.name = c.name := by
      rw [← hw, word, he, firstWord_name (names_spaceless c' hc')]
    obtain rfl : c' = c := List.inj_on_of_nodup_map names_nodup hc' hc hname
    cases hb : c'.behaviour with
    | reads usage method =>
      left
      exact ⟨[usage], .invalid, by rw [hr, Command.bare, hb], by simp⟩
    | asks usage method =>
      left
      exact ⟨[usage], .invalid, by rw [hr, Command.bare, hb], by simp⟩
    | prints lines => exact .inr (.inl ⟨by simp [Command.withArgument, hb], hr⟩)
    | calls call => exact .inr (.inl ⟨by simp [Command.withArgument, hb], hr⟩)
    | closes => exact .inr (.inl ⟨by simp [Command.withArgument, hb], hr⟩)
  · have hword := Command.Matches.firstWord_eq hc' (.inr hm)
    have hname : c'.name = c.name := hword.symm.trans hw
    obtain rfl : c' = c := List.inj_on_of_nodup_map names_nodup hc' hc hname
    obtain ⟨-, x, hx, ht⟩ := hm
    refine .inr (.inr ⟨action, ha, argument_ne_nil hw hx ht, ?_⟩)
    rw [hr, argument, hw]
  · left
    exact ⟨_, .unknown, hr, by simp⟩

/-- What the command table has under a name. -/
def behaviourOf (name : Text) : Option Behaviour :=
  (commandTable.find? fun c => c.name == name).map Command.behaviour

theorem mem_of_behaviourOf {name : Text} {b : Behaviour} (h : behaviourOf name = some b) :
    ⟨name, b⟩ ∈ commandTable := by
  obtain ⟨c, hc, hb⟩ := Option.map_eq_some_iff.mp h
  have hname : c.name = name := by simpa using List.find?_some hc
  have hmem := List.mem_of_find?_eq_some hc
  rwa [show c = ⟨name, b⟩ by rw [← hname, ← hb]] at hmem

/-- A line of a command whose method answers. -/
theorem route_asks {name usage : Text} {method : Text → ServiceCall} {input : List UInt8}
    (hw : word input = name) (hb : behaviourOf name = some (.asks usage method)) :
    Refused input ∨ argument input ≠ [] ∧ route input = .ask (method (argument input)) := by
  rcases route_of_word (mem_of_behaviourOf hb) hw with h | ⟨hn, -⟩ | ⟨action, ha, hne, hr⟩
  · exact .inl h
  · cases hn
  · cases ha
    exact .inr ⟨hne, hr⟩

/-- A line of a command whose method only prints. -/
theorem route_reads {name usage : Text} {method : Text → ServiceCall} {input : List UInt8}
    (hw : word input = name) (hb : behaviourOf name = some (.reads usage method)) :
    Refused input ∨ argument input ≠ [] ∧ route input = .invoke (method (argument input)) := by
  rcases route_of_word (mem_of_behaviourOf hb) hw with h | ⟨hn, -⟩ | ⟨action, ha, hne, hr⟩
  · exact .inl h
  · cases hn
  · cases ha
    exact .inr ⟨hne, hr⟩

/-- A line of a command without an argument. -/
theorem route_calls {name : Text} {call : ServiceCall} {input : List UInt8}
    (hw : word input = name) (hb : behaviourOf name = some (.calls call)) :
    Refused input ∨ route input = .invoke call := by
  rcases route_of_word (mem_of_behaviourOf hb) hw with h | ⟨-, hr⟩ | ⟨action, ha, -⟩
  · exact .inl h
  · exact .inr hr
  · cases ha

/-- A line whose method answers. -/
theorem dispatch_ask {services : DeviceServices σ} {device : σ} {input : List UInt8}
    {call : ServiceCall} (hr : route input = .ask call) {device' : σ} {lines : List Text}
    {answer : Bool} (hreply : services.respond call device = ⟨device', lines, answer⟩) :
    dispatch services device (some input) =
      ⟨if answer = true then .ok else .invalid, [call], lines, device'⟩ := by
  simp only [dispatch, hr, Action.perform, hreply]

/-- Such a line does what its method does, and reports its answer. -/
theorem dispatch_asked {input : List UInt8} {call : ServiceCall} (hr : route input = .ask call)
    (services : DeviceServices σ) (device : σ) :
    (dispatch services device (some input)).device = (services.respond call device).device ∧
    ((dispatch services device (some input)).status = .ok ↔
      (services.respond call device).answer = true) := by
  simp only [dispatch, hr, Action.perform, true_and]
  cases (services.respond call device).answer <;> simp

theorem dispatch_accepted {services : DeviceServices σ} {device : σ} {input : List UInt8}
    {call : ServiceCall} (hr : route input = .ask call) {device' : σ} {lines : List Text}
    (hreply : services.respond call device = ⟨device', lines, true⟩) :
    dispatch services device (some input) = ⟨.ok, [call], lines, device'⟩ := by
  rw [dispatch_ask hr hreply, if_pos rfl]

theorem dispatch_rejected {services : DeviceServices σ} {device : σ} {input : List UInt8}
    {call : ServiceCall} (hr : route input = .ask call) {device' : σ} {lines : List Text}
    (hreply : services.respond call device = ⟨device', lines, false⟩) :
    dispatch services device (some input) = ⟨.invalid, [call], lines, device'⟩ := by
  rw [dispatch_ask hr hreply, if_neg Bool.false_ne_true]

/-- A line whose method only prints. -/
theorem dispatch_invoke {services : DeviceServices σ} {device : σ} {input : List UInt8}
    {call : ServiceCall} (hr : route input = .invoke call) {device' : σ} {lines : List Text}
    {answer : Bool} (hreply : services.respond call device = ⟨device', lines, answer⟩) :
    dispatch services device (some input) = ⟨.ok, [call], lines, device'⟩ := by
  simp only [dispatch, hr, Action.perform, hreply]

/-- Such a line shows what its method prints. -/
theorem lines_of_invoke {input : List UInt8} {call : ServiceCall} (hr : route input = .invoke call)
    (services : DeviceServices σ) (device : σ) :
    (dispatch services device (some input)).lines = (services.respond call device).lines := by
  rw [dispatch_invoke hr rfl]

/-- A refused line leaves the device as it is. -/
theorem Refused.dispatch_eq {input : List UInt8} (h : Refused input) (services : DeviceServices σ)
    (device : σ) : let done := dispatch services device (some input)
    done.device = device ∧ done.status ≠ .ok := by
  obtain ⟨lines, status, hr, hs⟩ := h
  rw [dispatch, hr]
  exact ⟨rfl, hs⟩

theorem Refused.route_ne {input : List UInt8} (h : Refused input) (call : ServiceCall) :
    route input ≠ .invoke call := by
  obtain ⟨lines, status, hr, -⟩ := h
  intro hi
  rw [hr] at hi
  cases hi

/-- A refused line is answered alike on every device. -/
theorem Refused.lines_eq {input : List UInt8} (h : Refused input) (services : DeviceServices σ)
    (device device' : σ) : (dispatch services device (some input)).lines =
      (dispatch services device' (some input)).lines := by
  obtain ⟨lines, status, hr, -⟩ := h
  simp only [dispatch, hr, Action.perform]

/-- Where a property of the device survives every line and decides its success, the accepted lines
are found without running any. -/
theorem acceptedLines_eq_filter {services : DeviceServices σ} {P : σ → Prop} {C : List UInt8 → Prop}
    {accepts : List UInt8 → Bool}
    (hstep : ∀ device input, P device → C input → let done := dispatch services device (some input)
      P done.device ∧ (done.status = .ok ↔ accepts input = true))
    {device : σ} (hdevice : P device) {lines : List (List UInt8)} (hlines : ∀ input ∈ lines, C input) :
    acceptedLines services device lines = lines.filter accepts := by
  induction lines generalizing device with
  | nil => rfl
  | cons input lines ih =>
    obtain ⟨hnext, hstatus⟩ := hstep device input hdevice (hlines input List.mem_cons_self)
    have hrest := ih hnext fun x hx => hlines x (List.mem_cons_of_mem input hx)
    simp only [acceptedLines, hrest]
    by_cases ha : accepts input = true
    · rw [if_pos (hstatus.mpr ha), List.filter_cons_of_pos ha]
    · rw [if_neg fun hok => ha (hstatus.mp hok), List.filter_cons_of_neg ha]

/-! ### What a method receives -/

/-- The text that a call carries. -/
def carried : ServiceCall → Text
  | .wifiConfig a | .wifiProfileClear a | .configGet a | .configSet a | .configClear a | .fsList a
  | .fsRead a | .fsWrite a | .fsRemove a | .gpioRead a | .gpioWrite a | .appRun a | .appStop a => a
  | _ => []

/-- The methods of the table carry the text they are given, the others none. -/
def CarriesText (c : Command) : Prop :=
  match c.behaviour with
  | .calls call => carried call = []
  | .reads _ method | .asks _ method => ∀ a, carried (method a) = a
  | .prints _ | .closes => True

theorem commandTable_carries : ∀ c ∈ commandTable, CarriesText c := by
  intro c hc
  simp only [commandTable, List.mem_cons, List.not_mem_nil, or_false] at hc
  rcases hc with rfl | rfl | rfl | rfl | rfl | rfl | rfl | rfl | rfl | rfl | rfl | rfl | rfl | rfl |
    rfl | rfl | rfl | rfl | rfl | rfl | rfl | rfl | rfl | rfl | rfl | rfl | rfl | rfl | rfl | rfl |
    rfl | rfl
  all_goals simp [CarriesText, carried]

/-- A line reaches a method with a tail of its own text, so that no terminator is in it. -/
theorem zero_notMem_carried {input : List UInt8} {call : ServiceCall}
    (h : route input = .invoke call ∨ route input = .ask call) : 0 ∉ carried call := by
  have hsay : ∀ lines status, route input ≠ .say lines status := by
    rintro lines status hr
    rw [hr] at h
    rcases h with h | h <;> cases h
  have h0 : trimmed input ≠ [] := fun h0 => hsay [] .empty (by rw [route_eq, if_pos h0])
  have hl : (trimmed input).length ≤ maxCommandLength := by
    by_contra hl
    exact hsay _ _ (by rw [route_eq, if_neg h0, if_pos (Nat.not_le.mp hl)])
  rcases route_cases input h0 hl with ⟨c, hc, -, hr⟩ | ⟨c, hc, action, ha, -, hr⟩ | ⟨-, hr⟩
  · have hcarries := commandTable_carries c hc
    rw [hr, Command.bare] at h
    unfold CarriesText at hcarries
    cases hb : c.behaviour with
    | calls call' =>
      rw [hb] at h hcarries
      obtain rfl : call' = call := by simpa using h
      simp [hcarries]
    | _ =>
      rw [hb] at h
      rcases h with h | h <;> cases h
  · have hcarries := commandTable_carries c hc
    have hzero : 0 ∉ (stripped input).drop (c.name.length + 1) := fun hm =>
      zero_notMem_cString input ((List.dropWhile_suffix _).subset (List.mem_of_mem_drop hm))
    unfold CarriesText at hcarries
    unfold Command.withArgument at ha
    cases hb : c.behaviour with
    | reads usage method =>
      rw [hb] at ha hcarries
      obtain rfl := Option.some_inj.mp ha
      obtain rfl : method _ = call := by simpa [hr] using h
      rwa [hcarries]
    | asks usage method =>
      rw [hb] at ha hcarries
      obtain rfl := Option.some_inj.mp ha
      obtain rfl : method _ = call := by simpa [hr] using h
      rwa [hcarries]
    | _ =>
      rw [hb] at ha
      cases ha
  · exact absurd hr (hsay _ _)

/-- A command makes a call, given the text behind its name. -/
def Makes (c : Command) (text : Text) (call : ServiceCall) : Prop :=
  match c.behaviour with
  | .calls call' => call = call'
  | .reads _ method | .asks _ method => call = method text
  | .prints _ | .closes => False

/-- A call that a line makes is that of the command of its first word. -/
theorem command_of_call {input : List UInt8} {call : ServiceCall}
    (h : route input = .invoke call ∨ route input = .ask call) :
    ∃ c ∈ commandTable, word input = c.name ∧ Makes c (argument input) call := by
  have hsay : ∀ lines status, route input ≠ .say lines status := by
    rintro lines status hr
    rw [hr] at h
    rcases h with h | h <;> cases h
  have h0 : trimmed input ≠ [] := fun h0 => hsay [] .empty (by rw [route_eq, if_pos h0])
  have hl : (trimmed input).length ≤ maxCommandLength := by
    by_contra hl
    exact hsay _ _ (by rw [route_eq, if_neg h0, if_pos (Nat.not_le.mp hl)])
  rcases route_cases input h0 hl with ⟨c, hc, he, hr⟩ | ⟨c, hc, action, ha, hm, hr⟩ | ⟨-, hr⟩
  · refine ⟨c, hc, by rw [word, he, firstWord_name (names_spaceless c hc)], ?_⟩
    rw [hr, Command.bare] at h
    unfold Makes
    cases hb : c.behaviour with
    | calls call' =>
      rw [hb] at h
      simpa [eq_comm] using h
    | _ =>
      rw [hb] at h
      rcases h with h | h <;> cases h
  · have hword : word input = c.name := Command.Matches.firstWord_eq hc (.inr hm)
    refine ⟨c, hc, hword, ?_⟩
    rw [argument, hword]
    unfold Makes
    unfold Command.withArgument at ha
    cases hb : c.behaviour with
    | reads usage method =>
      rw [hb] at ha
      obtain rfl := Option.some_inj.mp ha
      simpa [hr, eq_comm] using h
    | asks usage method =>
      rw [hb] at ha
      obtain rfl := Option.some_inj.mp ha
      simpa [hr, eq_comm] using h
    | _ =>
      rw [hb] at ha
      cases ha
  · exact absurd hr (hsay _ _)

/-- The name of the command that makes a call. -/
def commandName : ServiceCall → Text
  | .deviceInfo => lit "device-info"
  | .uptime => lit "uptime"
  | .heap => lit "heap"
  | .reboot => lit "reboot"
  | .wifiStatus => lit "wifi-status"
  | .wifiConfig _ => lit "wifi-config"
  | .wifiProfiles => lit "wifi-profiles"
  | .wifiProfileClear _ => lit "wifi-profile-clear"
  | .configList => lit "config-list"
  | .configGet _ => lit "config-get"
  | .configSet _ => lit "config-set"
  | .configClear _ => lit "config-clear"
  | .fsList _ => lit "fs-list"
  | .fsRead _ => lit "fs-read"
  | .fsWrite _ => lit "fs-write"
  | .fsRemove _ => lit "fs-remove"
  | .psram => lit "psram"
  | .resetReason => lit "reset-reason"
  | .tasks => lit "tasks"
  | .gpioModes => lit "gpio-modes"
  | .gpioRead _ => lit "gpio-read"
  | .gpioWrite _ => lit "gpio-write"
  | .logs => lit "logs"
  | .otaStatus => lit "ota-status"
  | .appList => lit "app-list"
  | .appRun _ => lit "app-run"
  | .appStop _ => lit "app-stop"
  | .appStatus => lit "app-status"
  | .closeSession => lit "exit"

theorem name_of_makes : ∀ c ∈ commandTable, ∀ text call, Makes c text call → c.name = commandName call := by
  intro c hc
  simp only [commandTable, List.mem_cons, List.not_mem_nil, or_false] at hc
  rcases hc with rfl | rfl | rfl | rfl | rfl | rfl | rfl | rfl | rfl | rfl | rfl | rfl | rfl | rfl |
    rfl | rfl | rfl | rfl | rfl | rfl | rfl | rfl | rfl | rfl | rfl | rfl | rfl | rfl | rfl | rfl |
    rfl | rfl
  all_goals
    rintro text call hmakes
    first
      | exact hmakes.elim
      | (simp only [Makes] at hmakes; subst hmakes; rfl)

theorem word_of_call {input : List UInt8} {call : ServiceCall}
    (h : route input = .invoke call ∨ route input = .ask call) : word input = commandName call := by
  obtain ⟨c, hc, hword, hmakes⟩ := command_of_call h
  exact hword.trans (name_of_makes c hc _ _ hmakes)

/-- What the call of a line keeps, the line keeps. -/
theorem kept_of_call {α : Type} {services : DeviceServices σ} (view : σ → α) {input : List UInt8}
    (hkeeps : ∀ call, route input = .invoke call ∨ route input = .ask call →
      ∀ d, view (services.respond call d).device = view d)
    (hclose : ∀ d, view (services.respond .closeSession d).device = view d) (d : σ) :
    view (dispatch services d (some input)).device = view d := by
  cases hr : route input with
  | say lines status => simp only [dispatch, hr, Action.perform]
  | invoke call =>
    simp only [dispatch, hr, Action.perform]
    exact hkeeps call (.inl hr) d
  | ask call =>
    simp only [dispatch, hr, Action.perform]
    exact hkeeps call (.inr hr) d
  | close =>
    simp only [dispatch, hr, Action.perform]
    exact hclose d

/-- What the calls of all other commands keep, a line with another first word keeps. -/
theorem kept_of_word {α : Type} {services : DeviceServices σ} {words : List Text} (view : σ → α)
    (hkeeps : ∀ call, commandName call ∉ words → ∀ d, view (services.respond call d).device = view d)
    (hclose : lit "exit" ∉ words) {input : List UInt8} (hw : word input ∉ words) (d : σ) :
    view (dispatch services d (some input)).device = view d :=
  kept_of_call view (fun call hcall => hkeeps call (word_of_call hcall ▸ hw)) (hkeeps .closeSession hclose) d

end Esp32Shell.Shell.CommandLines
