import Mathlib.Data.List.Nodup
import Esp32Shell.Library.GuardedChoice
import Esp32Shell.Shell.CommandCore

/-!
# The command table behind the chain of comparisons

The chain of `dispatch` is a table of names. A command matches the trimmed line
when it is the name, or, for a command with an argument, the name, one space and
more. No line matches two entries, so the order of the chain is irrelevant.
-/
namespace Esp32Shell.Shell.CommandTable

open Esp32Shell.Library.CText Esp32Shell.Library.GuardedChoice
open CommandCore

variable {σ : Type}

/-- What a command does: print its own lines, call a method, close the session, or pass the
text behind its name to a `void` or a `bool` method. -/
inductive Behaviour where
  | prints (lines : List Text)
  | calls (call : ServiceCall)
  | closes
  | reads (usage : Text) (method : Text → ServiceCall)
  | asks (usage : Text) (method : Text → ServiceCall)

structure Command where
  name : Text
  behaviour : Behaviour

/-- The line that is exactly the name. -/
def Command.bare (c : Command) : Action :=
  match c.behaviour with
  | .prints lines => .say lines .ok
  | .calls call => .invoke call
  | .closes => .close
  | .reads usage _ | .asks usage _ => .say [usage] .invalid

/-- The line that is the name, one space and more, for the commands that take an argument. -/
def Command.withArgument (c : Command) : Option (Text → Action) :=
  match c.behaviour with
  | .reads _ method => some fun a => .invoke (method a)
  | .asks _ method => some fun a => .ask (method a)
  | _ => none

def commandTable : List Command :=
  [⟨lit "help", .prints helpLines⟩,
   ⟨lit "version", .prints [lit "esp32shell 0.1.0"]⟩,
   ⟨lit "device-info", .calls .deviceInfo⟩,
   ⟨lit "uptime", .calls .uptime⟩,
   ⟨lit "heap", .calls .heap⟩,
   ⟨lit "reboot", .calls .reboot⟩,
   ⟨lit "wifi-status", .calls .wifiStatus⟩,
   ⟨lit "exit", .closes⟩,
   ⟨lit "quit", .closes⟩,
   ⟨lit "wifi-config",
    .asks (lit "error: usage wifi-config [<0|1> ]<ssid> <password>") .wifiConfig⟩,
   ⟨lit "wifi-profiles", .calls .wifiProfiles⟩,
   ⟨lit "wifi-profile-clear",
    .asks (lit "error: usage wifi-profile-clear <0|1> --confirm") .wifiProfileClear⟩,
   ⟨lit "config-list", .calls .configList⟩,
   ⟨lit "config-get", .reads (lit "error: usage config-get <key>") .configGet⟩,
   ⟨lit "config-set", .asks (lit "error: usage config-set <key> <value>") .configSet⟩,
   ⟨lit "config-clear", .asks (lit "error: usage config-clear --confirm") .configClear⟩,
   ⟨lit "fs-list", .reads (lit "error: usage fs-list <directory>") .fsList⟩,
   ⟨lit "fs-read", .reads (lit "error: usage fs-read <path>") .fsRead⟩,
   ⟨lit "fs-write", .asks (lit "error: usage fs-write <path> <content>") .fsWrite⟩,
   ⟨lit "fs-remove", .asks (lit "error: usage fs-remove <path> --confirm") .fsRemove⟩,
   ⟨lit "psram", .calls .psram⟩,
   ⟨lit "reset-reason", .calls .resetReason⟩,
   ⟨lit "tasks", .calls .tasks⟩,
   ⟨lit "gpio-modes", .calls .gpioModes⟩,
   ⟨lit "gpio-read", .reads (lit "error: usage gpio-read <allowlisted-pin>") .gpioRead⟩,
   ⟨lit "gpio-write", .asks (lit "error: usage gpio-write <allowlisted-pin> <0|1>") .gpioWrite⟩,
   ⟨lit "logs", .calls .logs⟩,
   ⟨lit "ota-status", .calls .otaStatus⟩,
   ⟨lit "app-list", .calls .appList⟩,
   ⟨lit "app-run", .asks (lit "error: usage app-run <name>") .appRun⟩,
   ⟨lit "app-stop", .asks (lit "error: usage app-stop <name>") .appStop⟩,
   ⟨lit "app-status", .calls .appStatus⟩]

/-- The tests a command contributes to the chain, over the stripped text and its length. -/
def Command.tests (c : Command) : List (Branch (Text × Nat) Action) :=
  ⟨fun i => equals i.1 i.2 c.name, fun _ => c.bare⟩ ::
    (c.withArgument.toList.map fun action =>
      ⟨fun i => startsWith i.1 i.2 (c.name ++ [space]),
       fun i => action (i.1.drop (c.name.length + 1))⟩)

def chainTests : List (Branch (Text × Nat) Action) := commandTable.flatMap Command.tests

def unknownCommand : Action := .say [lit "error: unknown command; try 'help'"] .unknown

theorem compareChain_eq_choose (command : Text) (length : Nat) :
    compareChain command length = choose chainTests (fun _ => unknownCommand) (command, length) := by
  simp only [compareChain, ite_or]
  rfl

/-- The input without its leading blanks. -/
def stripped (input : List UInt8) : Text := (cString input).dropWhile isBlank

/-- The part of the stripped input in front of its trailing blanks. -/
def trimmed (input : List UInt8) : Text := (stripped input).rdropWhile isBlank

theorem trimmedLength_eq (t : Text) {n : Nat} (hn : n ≤ t.length) :
    trimmedLength t n = ((t.take n).rdropWhile isBlank).length := by
  induction n with
  | zero => simp [trimmedLength]
  | succ n ih =>
    have hb : byteAt t n = t[n] := by simp [byteAt, List.getElem?_eq_getElem (show n < t.length by omega)]
    rw [List.take_succ_eq_append_getElem (by omega), List.rdropWhile_concat, trimmedLength, hb]
    split
    · exact ih (by omega)
    · simp; omega

theorem trimmed_begins (input : List UInt8) : trimmed input <+: stripped input :=
  List.rdropWhile_prefix _ _

theorem take_trimmed (input : List UInt8) :
    (stripped input).take (trimmed input).length = trimmed input :=
  (List.prefix_iff_eq_take.mp (trimmed_begins input)).symm

theorem route_eq (input : List UInt8) :
    route input = if trimmed input = [] then .say [] .empty
      else if maxCommandLength < (trimmed input).length then
        .say [lit "error: command is too long"] .invalid
      else choose chainTests (fun _ => unknownCommand) (stripped input, (trimmed input).length) := by
  have hl : trimmedLength (stripped input) (stripped input).length = (trimmed input).length := by
    rw [trimmedLength_eq _ le_rfl, List.take_length, trimmed]
  have h0 : (trimmed input).length = 0 ↔ trimmed input = [] := List.length_eq_zero_iff
  simp only [route, ← stripped.eq_1 input, hl, compareChain_eq_choose, h0]

/-- `equals` compares the line with the whole name. -/
theorem equals_iff {t line : Text} (h : t.take line.length = line) (name : Text) :
    equals t line.length name = true ↔ line = name := by
  simp only [equals, strncmpEq, Bool.and_eq_true, beq_iff_eq, h]
  constructor
  · rintro ⟨hl, he⟩
    rw [he, ← hl, List.take_length]
  · rintro rfl
    simp

/-- `startsWith` demands at least one character behind its prefix. -/
theorem startsWith_iff {t line : Text} (h : t.take line.length = line) (pre : Text) :
    startsWith t line.length pre = true ↔ ∃ x ≠ [], line = pre ++ x := by
  simp only [startsWith, strncmpEq, Bool.and_eq_true, decide_eq_true_eq, beq_iff_eq, List.take_length]
  constructor
  · rintro ⟨hlt, he⟩
    refine ⟨line.drop pre.length, ?_, ?_⟩
    · intro hx
      have := List.drop_eq_nil_iff.mp hx
      omega
    · have hp : line.take pre.length = pre := by
        rw [← h, List.take_take, Nat.min_eq_left hlt.le, he]
      conv_lhs => rw [← List.take_append_drop pre.length line, hp]
  · rintro ⟨x, hx, rfl⟩
    have hpos := List.length_pos_iff.mpr hx
    refine ⟨by simp; omega, ?_⟩
    have hp := congrArg (List.take pre.length) h
    simpa [List.take_take] using hp

/-- A line that is the name, one space and more. -/
def Command.MatchesArgument (c : Command) (line : Text) : Prop :=
  c.withArgument.isSome ∧ ∃ x ≠ [], line = c.name ++ space :: x

def Command.Matches (c : Command) (line : Text) : Prop := line = c.name ∨ c.MatchesArgument line

/-- No name holds a space, so the text in front of a line's first space is the name. -/
theorem names_spaceless : ∀ c ∈ commandTable, space ∉ c.name := by
  have h : ∀ n ∈ commandTable.map Command.name, space ∉ n := by decide
  exact fun c hc => h c.name (List.mem_map_of_mem hc)

theorem names_nodup : (commandTable.map Command.name).Nodup := by decide

def firstWord (line : Text) : Text := line.takeWhile (· ≠ space)

theorem firstWord_append {name : Text} (h : space ∉ name) (x : Text) :
    firstWord (name ++ space :: x) = name := by
  rw [firstWord, List.takeWhile_append_of_pos, List.takeWhile_cons_of_neg (by simp)]
  · simp
  · intro b hb
    simpa using fun he : b = space => h (he ▸ hb)

theorem firstWord_name {name : Text} (h : space ∉ name) : firstWord name = name := by
  refine List.takeWhile_eq_self_iff.mpr fun b hb => ?_
  simpa using fun he : b = space => h (he ▸ hb)

theorem Command.Matches.firstWord_eq {c : Command} {line : Text} (hc : c ∈ commandTable)
    (h : c.Matches line) : firstWord line = c.name := by
  have hs := names_spaceless c hc
  rcases h with rfl | ⟨-, x, -, rfl⟩
  · exact firstWord_name hs
  · exact firstWord_append hs x

/-- No line matches two entries. -/
theorem matches_unique {a b : Command} {line : Text} (ha : a ∈ commandTable) (hb : b ∈ commandTable)
    (hma : a.Matches line) (hmb : b.Matches line) : a = b := by
  have he : a.name = b.name := (hma.firstWord_eq ha).symm.trans (hmb.firstWord_eq hb)
  exact List.inj_on_of_nodup_map names_nodup ha hb he

/-- Whatever the bound, a test of a command only accepts a text whose first word is the name. -/
theorem Command.tests_firstWord {c : Command} (hs : space ∉ c.name)
    {b : Branch (Text × Nat) Action} (hb : b ∈ c.tests) {i : Text × Nat} (hg : b.guard i = true) :
    firstWord (i.1.take i.2) = c.name := by
  simp only [Command.tests, List.mem_cons, List.mem_map] at hb
  rcases hb with rfl | ⟨action, -, rfl⟩
  · simp only [equals, strncmpEq, Bool.and_eq_true, beq_iff_eq] at hg
    rw [hg.2, ← hg.1, List.take_length]
    exact firstWord_name hs
  · simp only [startsWith, strncmpEq, Bool.and_eq_true, decide_eq_true_eq, beq_iff_eq,
      List.take_length] at hg
    have hp : c.name ++ [space] <+: i.1.take i.2 := by
      rw [← hg.2]
      exact List.take_prefix_take_left hg.1.le
    obtain ⟨x, hx⟩ := hp
    rw [← hx, List.append_assoc]
    exact firstWord_append hs x

theorem Command.tests_exclusive (c : Command) : Exclusive c.tests := by
  refine List.pairwise_cons.mpr ⟨?_, ?_⟩
  · intro b hb i hg
    obtain ⟨action, -, rfl⟩ := List.mem_map.mp hb
    simp only [equals, startsWith, Bool.and_eq_true, beq_iff_eq, decide_eq_true_eq,
      List.length_append, List.length_singleton] at hg
    omega
  · cases c.withArgument <;> simp

theorem chainTests_exclusive : Exclusive chainTests := by
  refine List.pairwise_flatMap.mpr ⟨fun c _ => c.tests_exclusive, ?_⟩
  have hn : commandTable.Pairwise fun a b => a.name ≠ b.name := List.pairwise_map.mp names_nodup
  refine hn.imp_of_mem fun {a b} ha hb hne x hx y hy i hg => hne ?_
  rw [← a.tests_firstWord (names_spaceless a ha) hx hg.1]
  exact b.tests_firstWord (names_spaceless b hb) hy hg.2

/-- The chain on an input of admissible length, by the entry its line matches. -/
theorem choose_bare {c : Command} (hc : c ∈ commandTable) {input : List UInt8}
    (h : trimmed input = c.name) : choose chainTests (fun _ => unknownCommand)
      (stripped input, (trimmed input).length) = c.bare := by
  have hm : (⟨fun i => equals i.1 i.2 c.name, fun _ => c.bare⟩ : Branch (Text × Nat) Action) ∈
      chainTests := List.mem_flatMap.mpr ⟨c, hc, by simp [Command.tests]⟩
  exact choose_of_mem chainTests_exclusive hm ((equals_iff (take_trimmed input) _).mpr h) _

theorem choose_argument {c : Command} (hc : c ∈ commandTable) {action : Text → Action}
    (ha : c.withArgument = some action) {input : List UInt8} {x : Text} (hx : x ≠ [])
    (h : trimmed input = c.name ++ space :: x) : choose chainTests (fun _ => unknownCommand)
      (stripped input, (trimmed input).length) =
        action ((stripped input).drop (c.name.length + 1)) := by
  have hm : (⟨fun i => startsWith i.1 i.2 (c.name ++ [space]),
      fun i => action (i.1.drop (c.name.length + 1))⟩ : Branch (Text × Nat) Action) ∈ chainTests :=
    List.mem_flatMap.mpr ⟨c, hc, by simp [Command.tests, ha]⟩
  have hg := (startsWith_iff (take_trimmed input) (c.name ++ [space])).mpr ⟨x, hx, by simp [h]⟩
  exact choose_of_mem chainTests_exclusive hm hg _

theorem choose_unmatched {input : List UInt8}
    (h : ∀ c ∈ commandTable, ¬ c.Matches (trimmed input)) :
    choose chainTests (fun _ => unknownCommand) (stripped input, (trimmed input).length) =
      unknownCommand := by
  refine choose_of_none (fun b hb => ?_) _
  obtain ⟨c, hc, hb⟩ := List.mem_flatMap.mp hb
  by_contra hg
  simp only [Bool.not_eq_false] at hg
  simp only [Command.tests, List.mem_cons, List.mem_map, Option.mem_toList] at hb
  rcases hb with rfl | ⟨action, ha, rfl⟩
  · exact h c hc (.inl ((equals_iff (take_trimmed input) _).mp hg))
  · obtain ⟨x, hx, he⟩ := (startsWith_iff (take_trimmed input) _).mp hg
    exact h c hc (.inr ⟨by simp [ha], x, hx, by simpa using he⟩)

end Esp32Shell.Shell.CommandTable
