import Esp32Shell.Shell.CommandTable

/-!
# Which method a line reaches

The routing law of `dispatch` over every input, and what padding a line with
blanks changes: a trailing blank reaches the method as part of its argument.
-/
namespace Esp32Shell.Shell.Routing

open Esp32Shell.Library.CText Esp32Shell.Library.GuardedChoice
open CommandCore CommandTable

variable {σ : Type}

/-- The table calls each method with the result type it has. -/
def Typed (c : Command) : Prop :=
  match c.behaviour with
  | .calls call => call.returnsBool = false
  | .reads _ method => ∀ a, (method a).returnsBool = false
  | .asks _ method => ∀ a, (method a).returnsBool = true
  | .prints _ | .closes => True

theorem commandTable_typed : ∀ c ∈ commandTable, Typed c := by
  intro c hc
  simp only [commandTable, List.mem_cons, List.not_mem_nil, or_false] at hc
  rcases hc with rfl | rfl | rfl | rfl | rfl | rfl | rfl | rfl | rfl | rfl | rfl | rfl | rfl | rfl |
    rfl | rfl | rfl | rfl | rfl | rfl | rfl | rfl | rfl | rfl | rfl | rfl | rfl | rfl | rfl | rfl |
    rfl | rfl
  all_goals simp [Typed, ServiceCall.returnsBool]

def closes (c : Command) : Bool :=
  match c.behaviour with
  | .closes => true
  | _ => false

/-- Only `exit` and `quit` close. -/
theorem closes_iff : ∀ c ∈ commandTable, closes c = true ↔ c.name = lit "exit" ∨ c.name = lit "quit" := by
  have h : ∀ p ∈ commandTable.map (fun c => (c.name, closes c)),
      p.2 = true ↔ p.1 = lit "exit" ∨ p.1 = lit "quit" := by decide
  exact fun c hc => h (c.name, closes c) (List.mem_map_of_mem hc)

/-- Exactly one entry or none decides a line of admissible length. -/
theorem route_cases (input : List UInt8) (h0 : trimmed input ≠ [])
    (hl : (trimmed input).length ≤ maxCommandLength) :
    (∃ c ∈ commandTable, trimmed input = c.name ∧ route input = c.bare) ∨
    (∃ c ∈ commandTable, ∃ action, c.withArgument = some action ∧
      c.MatchesArgument (trimmed input) ∧
      route input = action ((stripped input).drop (c.name.length + 1))) ∨
    ((∀ c ∈ commandTable, ¬ c.Matches (trimmed input)) ∧ route input = unknownCommand) := by
  rw [route_eq, if_neg h0, if_neg (Nat.not_lt.mpr hl)]
  by_cases hm : ∃ c ∈ commandTable, c.Matches (trimmed input)
  · obtain ⟨c, hc, hb | ha⟩ := hm
    · exact .inl ⟨c, hc, hb, choose_bare hc hb⟩
    · obtain ⟨hs, x, hx, he⟩ := ha
      obtain ⟨action, haction⟩ := Option.isSome_iff_exists.mp hs
      exact .inr (.inl ⟨c, hc, action, haction, ⟨hs, x, hx, he⟩, choose_argument hc haction hx he⟩)
  · push Not at hm
    exact .inr (.inr ⟨hm, choose_unmatched hm⟩)

/-- A bare name answers `Invalid` exactly for the commands that want an argument. -/
theorem bare_status (c : Command) (services : DeviceServices σ) (device : σ) :
    let d := c.bare.perform services device
    (d.status = .invalid ↔ c.withArgument.isSome) ∧ (d.status = .sessionClosed ↔ closes c = true) := by
  unfold Command.bare Command.withArgument closes
  cases c.behaviour <;> simp [Action.perform]

/-- The calls made for a bare name have no result to answer with. -/
theorem bare_calls {c : Command} (hc : c ∈ commandTable) (services : DeviceServices σ) (device : σ) :
    ∀ call ∈ (c.bare.perform services device).calls, call.returnsBool = false := by
  have ht := commandTable_typed c hc
  revert ht
  unfold Typed Command.bare
  cases c.behaviour <;> simp [Action.perform, ServiceCall.returnsBool]

/-- A command with its argument is `Invalid` exactly when a `bool` method answers false. -/
theorem argument_status {c : Command} (hc : c ∈ commandTable) {action : Text → Action}
    (ha : c.withArgument = some action) (a : Text) (services : DeviceServices σ) (device : σ) :
    let d := (action a).perform services device
    (d.status = .invalid ↔ ∃ call ∈ d.calls, call.returnsBool = true ∧
      (services.respond call device).answer = false) ∧ d.status ≠ .sessionClosed := by
  have ht := commandTable_typed c hc
  revert ht ha
  unfold Typed Command.withArgument
  cases c.behaviour with
  | reads usage method =>
    rintro ⟨rfl⟩ ht
    simp [Action.perform, ht a]
  | asks usage method =>
    rintro ⟨rfl⟩ ht
    cases h : (services.respond (method a) device).answer <;> simp [Action.perform, ht a, h]
  | _ => simp

theorem perform_calls_length (action : Action) (services : DeviceServices σ) (device : σ) :
    (action.perform services device).calls.length ≤ 1 := by
  cases action <;> simp [Action.perform]

theorem closing_names {n : Text} (h : n = lit "exit" ∨ n = lit "quit") :
    ∃ c ∈ commandTable, c.name = n := by
  rcases h with rfl | rfl
  · exact ⟨⟨lit "exit", .closes⟩, by simp [commandTable], rfl⟩
  · exact ⟨⟨lit "quit", .closes⟩, by simp [commandTable], rfl⟩

/-- An entry matched with an argument is not matched as a bare name of any entry. -/
theorem argument_ne_name {a b : Command} (ha : a ∈ commandTable) (hb : b ∈ commandTable) {line : Text}
    (hm : a.MatchesArgument line) : line ≠ b.name := by
  intro he
  obtain rfl := matches_unique ha hb (.inr hm) (.inl he)
  obtain ⟨-, x, hx, hne⟩ := hm
  exact absurd (he.symm.trans hne) (by simp)

theorem dispatch_invalid_iff (services : DeviceServices σ) (device : σ) {input : List UInt8}
    (h0 : trimmed input ≠ []) (hl : (trimmed input).length ≤ maxCommandLength) :
    let d := dispatch services device (some input)
    d.status = .invalid ↔
      (∃ call ∈ d.calls, call.returnsBool = true ∧ (services.respond call device).answer = false) ∨
      ∃ c ∈ commandTable, c.withArgument.isSome ∧ trimmed input = c.name := by
  intro d
  have hd : d = (route input).perform services device := rfl
  rcases route_cases input h0 hl with ⟨c, hc, he, hr⟩ | ⟨c, hc, action, ha, hm, hr⟩ | ⟨hn, hr⟩
  · rw [hd, hr, (bare_status c services device).1]
    constructor
    · exact fun hs => .inr ⟨c, hc, hs, he⟩
    · rintro (⟨call, hcall, hb, -⟩ | ⟨c', hc', hs, he'⟩)
      · simp [bare_calls hc services device call hcall] at hb
      · rwa [matches_unique hc hc' (.inl he) (.inl he')]
  · rw [hd, hr, (argument_status hc ha _ services device).1]
    refine ⟨.inl, ?_⟩
    rintro (h | ⟨c', hc', hs, he'⟩)
    · exact h
    · exact absurd he' (argument_ne_name hc hc' hm)
  · rw [hd, hr]
    refine iff_of_false (by simp [unknownCommand, Action.perform]) ?_
    rintro (⟨call, hcall, -⟩ | ⟨c, hc, -, he⟩)
    · simp [unknownCommand, Action.perform] at hcall
    · exact hn c hc (.inl he)

/-- The session closes exactly on `exit` and `quit`. -/
theorem dispatch_closed_iff (services : DeviceServices σ) (device : σ) (input : List UInt8) :
    (dispatch services device (some input)).status = .sessionClosed ↔
      trimmed input = lit "exit" ∨ trimmed input = lit "quit" := by
  have hd : dispatch services device (some input) = (route input).perform services device := rfl
  by_cases h0 : trimmed input = []
  · rw [hd, route_eq, if_pos h0, h0]
    exact iff_of_false (by simp [Action.perform]) (by decide)
  by_cases hl : maxCommandLength < (trimmed input).length
  · rw [hd, route_eq, if_neg h0, if_pos hl]
    refine iff_of_false (by simp [Action.perform]) ?_
    rintro (h | h) <;> rw [h] at hl <;> revert hl <;> decide
  rcases route_cases input h0 (Nat.not_lt.mp hl) with
    ⟨c, hc, he, hr⟩ | ⟨c, hc, action, ha, hm, hr⟩ | ⟨hn, hr⟩
  · rw [hd, hr, (bare_status c services device).2, closes_iff c hc, he]
  · rw [hd, hr]
    refine iff_of_false (argument_status hc ha _ services device).2 fun h => ?_
    obtain ⟨c', hc', he⟩ := closing_names h
    exact argument_ne_name hc hc' hm he.symm
  · rw [hd, hr]
    refine iff_of_false (by simp [unknownCommand, Action.perform]) fun h => ?_
    obtain ⟨c', hc', he⟩ := closing_names h
    exact hn c' hc' (.inl he.symm)

/-- A name that takes no argument, with one, is unknown. -/
theorem unmatched_of_argument {c : Command} (hc : c ∈ commandTable) (h : c.withArgument = none)
    {line x : Text} (he : line = c.name ++ space :: x) : ∀ c' ∈ commandTable, ¬ c'.Matches line := by
  intro c' hc' hm
  have hword : firstWord line = c.name := he ▸ firstWord_append (names_spaceless c hc) x
  have hname : c'.name = c.name := (hm.firstWord_eq hc').symm.trans hword
  obtain rfl := List.inj_on_of_nodup_map names_nodup hc' hc hname
  rcases hm with hbare | ⟨hsome, -⟩
  · have hlength := congrArg List.length (hbare.symm.trans he)
    simp at hlength
  · rw [h] at hsome
    exact Bool.false_ne_true hsome

/-- The routing law of `dispatch`: the line is the stripped input up to its trailing blanks, the
entry it matches decides alone, and the order of the tests is irrelevant. -/
theorem dispatch_routing (services : DeviceServices σ) (device : σ) (input : List UInt8) :
    let t := stripped input
    let line := trimmed input
    let d := dispatch services device (some input)
    (line = [] → d = ⟨.empty, [], [], device⟩) ∧
    (maxCommandLength < line.length →
      d = ⟨.invalid, [], [lit "error: command is too long"], device⟩) ∧
    (line ≠ [] → line.length ≤ maxCommandLength →
      d.calls.length ≤ 1 ∧
      (∀ c ∈ commandTable, line = c.name →
        match c.behaviour with
        | .prints lines => d = ⟨.ok, [], lines, device⟩
        | .calls call =>
          let reply := services.respond call device
          d = ⟨.ok, [call], reply.lines, reply.device⟩
        | .closes =>
          let reply := services.respond .closeSession device
          d = ⟨.sessionClosed, [.closeSession], reply.lines, reply.device⟩
        | .reads usage _ | .asks usage _ => d = ⟨.invalid, [], [usage], device⟩) ∧
      (∀ c ∈ commandTable, ∀ x ≠ [], line = c.name ++ space :: x →
        let argument := t.drop (c.name.length + 1)
        match c.behaviour with
        | .reads _ method =>
          let reply := services.respond (method argument) device
          d = ⟨.ok, [method argument], reply.lines, reply.device⟩
        | .asks _ method =>
          let reply := services.respond (method argument) device
          d = ⟨if reply.answer then .ok else .invalid, [method argument], reply.lines, reply.device⟩
        | _ => d = ⟨.unknown, [], [lit "error: unknown command; try 'help'"], device⟩) ∧
      ((∀ c ∈ commandTable, ¬ c.Matches line) →
        d = ⟨.unknown, [], [lit "error: unknown command; try 'help'"], device⟩) ∧
      (d.status = .invalid ↔
        (∃ call ∈ d.calls, call.returnsBool = true ∧
          (services.respond call device).answer = false) ∨
        ∃ c ∈ commandTable, c.withArgument.isSome ∧ line = c.name) ∧
      (d.status = .sessionClosed ↔ line = lit "exit" ∨ line = lit "quit") ∧
      (∀ a ∈ commandTable, ∀ b ∈ commandTable, a.Matches line → b.Matches line → a = b) ∧
      ∀ order, order.Perm chainTests →
        d = (choose order (fun _ => unknownCommand) (t, line.length)).perform services device) := by
  intro t line d
  have hd : d = (route input).perform services device := rfl
  refine ⟨fun h => ?_, fun h => ?_, fun h0 hl => ?_⟩
  · rw [hd, route_eq, if_pos h]
    rfl
  · have hne : trimmed input ≠ [] := fun h' => by simp [line, h'] at h
    rw [hd, route_eq, if_neg hne, if_pos h]
    rfl
  have hroute : route input = choose chainTests (fun _ => unknownCommand) (t, line.length) := by
    rw [route_eq, if_neg h0, if_neg (Nat.not_lt.mpr hl)]
  have hunknown : (∀ c ∈ commandTable, ¬ c.Matches line) →
      d = ⟨.unknown, [], [lit "error: unknown command; try 'help'"], device⟩ := by
    intro h
    rw [hd, hroute, choose_unmatched h]
    rfl
  refine ⟨perform_calls_length _ services device, ?_, ?_, hunknown,
    dispatch_invalid_iff services device h0 hl, dispatch_closed_iff services device input,
    fun a ha b hb hma hmb => matches_unique ha hb hma hmb, ?_⟩
  · intro c hc he
    have hbare : d = c.bare.perform services device := by rw [hd, hroute, choose_bare hc he]
    revert hbare
    unfold Command.bare
    cases c.behaviour <;> exact id
  · intro c hc x hx he argument
    have hdrop : ∀ action, c.withArgument = some action →
        d = (action argument).perform services device := fun action ha => by
      rw [hd, hroute, choose_argument hc ha hx he]
    have hnone : c.withArgument = none →
        d = ⟨.unknown, [], [lit "error: unknown command; try 'help'"], device⟩ := fun h =>
      hunknown (unmatched_of_argument hc h he)
    revert hdrop hnone
    unfold Command.withArgument
    cases c.behaviour with
    | reads usage method => exact fun hdrop _ => hdrop _ rfl
    | asks usage method => exact fun hdrop _ => hdrop _ rfl
    | _ => exact fun _ hnone => hnone rfl
  · intro order hp
    rw [hd, hroute, choose_perm chainTests_exclusive hp]

/-- A device that counts the calls and refuses each of them. -/
def refusing : DeviceServices Nat := ⟨fun _ calls => ⟨calls + 1, [lit "refused"], false⟩⟩

/-- Between two blanks, `gpio-write` hands on its argument with the blank behind it. -/
theorem dispatch_routing_gpio_write :
    dispatch refusing 0 (some ([tab] ++ lit "gpio-write 4 1" ++ [space])) =
      ⟨.invalid, [.gpioWrite (lit "4 1 ")], [lit "refused"], 1⟩ := by
  have h := (dispatch_routing refusing 0 ([tab] ++ lit "gpio-write 4 1" ++ [space])).2.2
    (by decide) (by decide)
  exact h.2.2.1
    ⟨lit "gpio-write", .asks (lit "error: usage gpio-write <allowlisted-pin> <0|1>") .gpioWrite⟩
    (by simp [commandTable]) (lit "4 1") (by decide) (by decide)

/-! ### Padding -/

def Blank (t : Text) : Prop := ∀ b ∈ t, isBlank b = true

/-- A command line as it is meant: no terminator inside, no blank at either end. -/
structure Bounded (s : Text) : Prop where
  terminated : 0 ∉ s
  nonempty : s ≠ []
  first : isBlank (s.head nonempty) = false
  last : isBlank (s.getLast nonempty) = false

theorem Blank.zero_notMem {t : Text} (h : Blank t) : 0 ∉ t := by
  intro h0
  exact absurd (h 0 h0) (by decide)

theorem stripped_padded {p s q : Text} (hp : Blank p) (hs : Bounded s) (hq : Blank q) :
    stripped (p ++ s ++ q) = s ++ q := by
  have h0 : 0 ∉ p ++ s ++ q := by
    simp [hp.zero_notMem, hs.terminated, hq.zero_notMem]
  rw [stripped, (cString_eq_self_iff _).mpr h0, List.append_assoc, List.dropWhile_append_of_pos hp]
  obtain ⟨b, rest, rfl⟩ := List.exists_cons_of_ne_nil hs.nonempty
  have hb : isBlank b = false := hs.first
  rw [List.cons_append, List.dropWhile_cons_of_neg (by simp [hb])]

theorem trimmed_padded {p s q : Text} (hp : Blank p) (hs : Bounded s) (hq : Blank q) :
    trimmed (p ++ s ++ q) = s := by
  have hl : s = s.dropLast ++ [s.getLast hs.nonempty] := (List.dropLast_append_getLast _).symm
  rw [trimmed, stripped_padded hp hs hq, List.rdropWhile, List.reverse_append,
    List.dropWhile_append_of_pos (by simpa [Blank] using hq), hl, List.reverse_append,
    List.reverse_singleton, List.singleton_append, List.dropWhile_cons_of_neg (by simp [hs.last])]
  simp

theorem stripped_bounded {s : Text} (hs : Bounded s) : stripped s = s := by
  have hnil : Blank [] := by simp [Blank]
  simpa using stripped_padded hnil hs hnil

theorem trimmed_bounded {s : Text} (hs : Bounded s) : trimmed s = s := by
  have hnil : Blank [] := by simp [Blank]
  simpa using trimmed_padded hnil hs hnil

/-- Without an argument the action is a function of the trimmed line alone. -/
theorem route_congr {i j : List UInt8} (h : trimmed i = trimmed j)
    (hn : ∀ c ∈ commandTable, ¬ c.MatchesArgument (trimmed i)) : route i = route j := by
  by_cases h0 : trimmed j = []
  · rw [route_eq, route_eq j, h, if_pos h0, if_pos h0]
  by_cases hl : maxCommandLength < (trimmed j).length
  · rw [route_eq, route_eq j, h, if_neg h0, if_pos hl, if_neg h0, if_pos hl]
  rcases route_cases j h0 (Nat.not_lt.mp hl) with ⟨c, hc, he, hr⟩ | ⟨c, hc, action, ha, hm, hr⟩ | ⟨hu, hr⟩
  · rw [hr, route_eq, if_neg (h ▸ h0), if_neg (h ▸ hl), choose_bare hc (h.trans he)]
  · exact absurd (h ▸ hm) (hn c hc)
  · rw [hr, route_eq, if_neg (h ▸ h0), if_neg (h ▸ hl), choose_unmatched (h ▸ hu)]

/-- With an argument the method receives what stands behind the name in the stripped text. -/
theorem route_argument {input : List UInt8} (hl : (trimmed input).length ≤ maxCommandLength)
    {c : Command} (hc : c ∈ commandTable) {action : Text → Action} (ha : c.withArgument = some action)
    {a x : Text} (hne : a ≠ []) (ht : trimmed input = c.name ++ space :: a)
    (hs : stripped input = c.name ++ space :: x) : route input = action x := by
  have h0 : trimmed input ≠ [] := by simp [ht]
  have hs' : stripped input = (c.name ++ [space]) ++ x := by simp [hs]
  rw [route_eq, if_neg h0, if_neg (Nat.not_lt.mpr hl), choose_argument hc ha hne ht, hs',
    List.drop_left' (by simp)]

/-- Blanks in front of a line never matter. Blanks behind it matter exactly to a command with an
argument, whose method receives them at the end of its argument. -/
theorem dispatch_padding (services : DeviceServices σ) (device : σ) {p s q : Text} (hp : Blank p)
    (hs : Bounded s) (hq : Blank q) :
    let padded := dispatch services device (some (p ++ s ++ q))
    let plain := dispatch services device (some s)
    ((q = [] ∨ maxCommandLength < s.length ∨ ∀ c ∈ commandTable, ¬ c.MatchesArgument s) →
      padded = plain) ∧
    ∀ c ∈ commandTable, ∀ a ≠ [], s = c.name ++ space :: a → s.length ≤ maxCommandLength →
      match c.behaviour with
      | .reads _ method =>
        let reply := fun argument => services.respond (method argument) device
        padded = ⟨.ok, [method (a ++ q)], (reply (a ++ q)).lines, (reply (a ++ q)).device⟩ ∧
        plain = ⟨.ok, [method a], (reply a).lines, (reply a).device⟩
      | .asks _ method =>
        let reply := fun argument => services.respond (method argument) device
        padded = ⟨if (reply (a ++ q)).answer then .ok else .invalid, [method (a ++ q)],
          (reply (a ++ q)).lines, (reply (a ++ q)).device⟩ ∧
        plain = ⟨if (reply a).answer then .ok else .invalid, [method a], (reply a).lines,
          (reply a).device⟩
      | _ => padded = plain := by
  intro padded plain
  have hs0 := stripped_bounded hs
  have ht0 := trimmed_bounded hs
  have hsp := stripped_padded hp hs hq
  have htp := trimmed_padded hp hs hq
  have hsame : (q = [] ∨ maxCommandLength < s.length ∨ ∀ c ∈ commandTable, ¬ c.MatchesArgument s) →
      padded = plain := by
    intro h
    have hr : route (p ++ s ++ q) = route s := by
      rcases h with rfl | h | h
      · rw [route_eq, route_eq s, htp, hsp, ht0, hs0, List.append_nil]
      · rw [route_eq, route_eq s, htp, ht0, if_neg hs.nonempty, if_pos h, if_neg hs.nonempty, if_pos h]
      · exact route_congr (htp.trans ht0.symm) (by rw [htp]; exact h)
    show (route _).perform services device = (route s).perform services device
    rw [hr]
  refine ⟨hsame, fun c hc a hne he hl => ?_⟩
  have hactions : ∀ action, c.withArgument = some action →
      padded = (action (a ++ q)).perform services device ∧
      plain = (action a).perform services device := by
    intro action ha
    have h1 : route (p ++ s ++ q) = action (a ++ q) :=
      route_argument (by rw [htp]; exact hl) hc ha hne (htp.trans he) (by rw [hsp, he]; simp)
    have h2 : route s = action a :=
      route_argument (by rw [ht0]; exact hl) hc ha hne (ht0.trans he) (hs0.trans he)
    exact ⟨congrArg (Action.perform services device) h1, congrArg (Action.perform services device) h2⟩
  have hunknown : c.withArgument = none → padded = plain := fun h =>
    hsame (.inr (.inr fun c' hc' hm => unmatched_of_argument hc h he c' hc' (.inr hm)))
  revert hactions hunknown
  unfold Command.withArgument
  cases c.behaviour with
  | reads usage method => exact fun hactions _ => hactions _ rfl
  | asks usage method => exact fun hactions _ => hactions _ rfl
  | _ => exact fun _ hunknown => hunknown rfl

/-- A device without state that accepts every call in silence. -/
def silent : DeviceServices Unit := ⟨fun _ _ => ⟨(), [], true⟩⟩

theorem dispatch_padding_config_clear :
    let padded := dispatch silent () (some ([tab] ++ lit "config-clear --confirm" ++ [space]))
    let plain := dispatch silent () (some (lit "config-clear --confirm"))
    padded = ⟨.ok, [.configClear (lit "--confirm ")], [], ()⟩ ∧
    plain = ⟨.ok, [.configClear (lit "--confirm")], [], ()⟩ := by
  have h := (dispatch_padding silent () (p := [tab]) (s := lit "config-clear --confirm")
    (q := [space]) (by simp [Blank, isBlank]) ⟨by decide, by decide, by decide, by decide⟩
    (by simp [Blank, isBlank])).2
  exact h ⟨lit "config-clear", .asks (lit "error: usage config-clear --confirm") .configClear⟩
    (by simp [commandTable]) (lit "--confirm") (by decide) (by decide) (by decide)

/-- A trailing blank changes the argument, so padding is not irrelevant. -/
theorem padding_reaches_method :
    (dispatch silent () (some (lit "config-clear --confirm"))).calls = [.configClear (lit "--confirm")] ∧
    (dispatch silent () (some (lit "config-clear --confirm" ++ [space]))).calls ≠
      (dispatch silent () (some (lit "config-clear --confirm"))).calls := by
  decide

end Esp32Shell.Shell.Routing
