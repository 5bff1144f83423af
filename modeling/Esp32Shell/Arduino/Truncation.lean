import Esp32Shell.Arduino.SerialLoop
import Esp32Shell.Shell.Overflow

/-!
# Over-long serial lines

The loop keeps one byte more of a line than a command may have, and leaves it to
`dispatch` to notice. But `dispatch` strips the blanks before it looks at the
length, and its string ends at a NUL, so what is left of a line may be short enough.
-/
namespace Esp32Shell.Arduino.Truncation

open Esp32Shell.Library.CText
open Shell.CommandCore Shell.CommandTable Shell.Session Shell.LineReading Shell.Overflow Shell.Routing
open Esp32Services SerialLoop

variable {ρ σ : Type}

/-- More characters than a command may have, from the first to the last that is neither space nor tab. -/
def TooLong (bytes : List UInt8) : Prop :=
  maxCommandLength < ((bytes.dropWhile isBlank).rdropWhile isBlank).length

/-- In the run of these turns, the console takes the byte right behind this part of the stream. -/
def Takes (services : DeviceServices (Device ρ)) (d : Device ρ) (turns : List Turn)
    (stream : List UInt8) (c : Console ρ) (b : UInt8) : Prop :=
  ∃ past t rest front back, turns = past ++ t :: rest ∧ t.available = front ++ b :: back ∧
    stream = typed past ++ front ∧ c = front.foldl (readByte services) (afterTurns services d past)

/-- The events of one byte. -/
def added (services : DeviceServices (Device ρ)) (c : Console ρ) (b : UInt8) : List Event :=
  (readByte services c b).events.drop c.events.length

/-- No ending of a line that is too long calls a service. -/
def NeverTruncates (services : DeviceServices (Device ρ)) (d : Device ρ) (turns : List Turn) : Prop :=
  ∀ before bytes c b, Takes services d turns (before ++ bytes) c b → LineStart before → Unended bytes →
    isEnding b = true → TooLong bytes → ∀ call, .called call ∉ added services c b

/-- The text of a command that calls a service. -/
def CallsService (line : Text) : Prop :=
  line.length ≤ maxCommandLength ∧ ∃ c ∈ commandTable, c.MatchesArgument line ∨
    line = c.name ∧ ((∃ call, c.behaviour = .calls call) ∨ c.behaviour = .closes)

/-! ### One dispatch -/

theorem names_ne_nil : ∀ c ∈ commandTable, c.name ≠ [] := by
  have h : ∀ n ∈ commandTable.map Command.name, n ≠ [] := by decide
  exact fun c hc => h c.name (List.mem_map_of_mem hc)

theorem not_callsService_nil : ¬ CallsService [] := by
  rintro ⟨-, c, hc, ⟨-, x, -, hline⟩ | ⟨hname, -⟩⟩
  · exact absurd hline (by simp)
  · exact names_ne_nil c hc hname.symm

/-- A bare name calls a service where the command takes no argument and does not just print. -/
theorem bare_calls_eq_nil_iff (c : Command) (services : DeviceServices σ) (device : σ) :
    (c.bare.perform services device).calls = [] ↔
      ¬ ((∃ call, c.behaviour = .calls call) ∨ c.behaviour = .closes) := by
  rw [Command.bare]
  cases c.behaviour <;> simp [Action.perform]

/-- A command with its argument calls a service. -/
theorem argument_calls_ne_nil {c : Command} {action : Text → Action} (h : c.withArgument = some action)
    (a : Text) (services : DeviceServices σ) (device : σ) :
    ((action a).perform services device).calls ≠ [] := by
  unfold Command.withArgument at h
  cases hb : c.behaviour with
  | reads usage method =>
    rw [hb] at h
    cases h
    exact List.cons_ne_nil _ _
  | asks usage method =>
    rw [hb] at h
    cases h
    exact List.cons_ne_nil _ _
  | _ =>
    rw [hb] at h
    cases h

/-- A dispatch calls a service exactly for the text of such a command. -/
theorem calls_eq_nil_iff (services : DeviceServices σ) (device : σ) (input : List UInt8) :
    (dispatch services device (some input)).calls = [] ↔ ¬ CallsService (trimmed input) := by
  have hdispatch : dispatch services device (some input) = (route input).perform services device := rfl
  by_cases h0 : trimmed input = []
  · rw [hdispatch, route_eq, if_pos h0, h0]
    exact iff_of_true rfl not_callsService_nil
  by_cases hl : maxCommandLength < (trimmed input).length
  · rw [hdispatch, route_eq, if_neg h0, if_pos hl]
    exact iff_of_true rfl fun h => Nat.not_lt.mpr h.1 hl
  obtain ⟨c, hc, hline, hroute⟩ | ⟨c, hc, action, haction, hmatch, hroute⟩ | ⟨hnone, hroute⟩ :=
    route_cases input h0 (Nat.not_lt.mp hl)
  · rw [hdispatch, hroute, bare_calls_eq_nil_iff, not_iff_not]
    constructor
    · exact fun hcalls => ⟨Nat.not_lt.mp hl, c, hc, .inr ⟨hline, hcalls⟩⟩
    · rintro ⟨-, c', hc', hargument | ⟨hline', hcalls⟩⟩
      · exact absurd hline (argument_ne_name hc' hc hargument)
      · rwa [matches_unique hc hc' (.inl hline) (.inl hline')]
  · have hcalls : CallsService (trimmed input) := ⟨Nat.not_lt.mp hl, c, hc, .inl hmatch⟩
    rw [hdispatch, hroute]
    exact iff_of_false (argument_calls_ne_nil haction _ services device) (not_not.mpr hcalls)
  · rw [hdispatch, hroute]
    refine iff_of_true rfl ?_
    rintro ⟨-, c, hc, hargument | ⟨hline, -⟩⟩
    · exact hnone c hc (.inr hargument)
    · exact hnone c hc (.inl hline)

/-! ### One line -/

/-- What fills the room of the loop with no blank at its ends and no NUL is noticed. -/
theorem not_callsService_of_whole {kept : Text} (h : Bounded kept) (hfull : maxCommandLength < kept.length) :
    ¬ CallsService (trimmed kept) := by
  rw [trimmed_bounded h]
  exact fun hcalls => Nat.not_lt.mpr hcalls.1 hfull

theorem not_tooLong_nil : ¬ TooLong [] := Nat.not_lt.mpr (Nat.zero_le _)

/-- The ending of a line that is not empty dispatches what the loop has kept of it. -/
theorem added_ending (services : DeviceServices (Device ρ)) {c : Console ρ} {stream bytes : List UInt8}
    {b : UInt8} (hread : Read c stream) (hline : unfinished stream = bytes) (hne : bytes ≠ [])
    (hb : isEnding b = true) : (∀ call, .called call ∉ added services c b) ↔
      ¬ CallsService (trimmed (bytes.take (maxCommandLength + 1))) := by
  have hend : b = carriageReturn ∨ b = lineFeed := by simpa [isEnding] using hb
  have hseen : ¬ c.lineEndingSeen = true := fun hseen => hne (hline.symm.trans (hread.nil_of_seen hseen))
  have hkept : c.readLine = bytes.take (maxCommandLength + 1) := by rw [hread.readLine_eq, hline]
  rw [← calls_eq_nil_iff services c.device, ← hkept, List.eq_nil_iff_forall_not_mem, added, readByte,
    if_pos hend, if_neg hseen]
  simp [dispatchLine, println]

/-! ### Runs -/

theorem Takes.read {services : DeviceServices (Device ρ)} {d : Device ρ} {turns : List Turn}
    {stream : List UInt8} {c : Console ρ} {b : UInt8} (h : Takes services d turns stream c b) :
    Read c stream := by
  obtain ⟨past, t, rest, front, back, -, -, rfl, rfl⟩ := h
  exact (read_afterTurns services d past).bytes services front

/-- Every byte that is typed is taken. -/
theorem exists_takes (services : DeviceServices (Device ρ)) (d : Device ρ) {turns : List Turn}
    {stream after : List UInt8} {b : UInt8} (h : typed turns = stream ++ b :: after) :
    ∃ c, Takes services d turns stream c b := by
  obtain ⟨past, t, rest, front, back, hturns, havailable, hstream, -⟩ := typed_cut h
  exact ⟨_, past, t, rest, front, back, hturns, havailable, hstream, rfl⟩

theorem Takes.typed_eq {services : DeviceServices (Device ρ)} {d : Device ρ} {turns : List Turn}
    {stream : List UInt8} {c : Console ρ} {b : UInt8} (h : Takes services d turns stream c b) :
    ∃ after, typed turns = stream ++ b :: after := by
  obtain ⟨past, t, rest, front, back, rfl, havailable, rfl, -⟩ := h
  refine ⟨back ++ typed rest, ?_⟩
  simp [typed, havailable]

theorem unfinished_line {before bytes : List UInt8} (hstart : LineStart before) (hu : Unended bytes) :
    unfinished (before ++ bytes) = bytes := by
  have hempty : unfinished before = [] := by
    cases before using List.reverseRecOn with
    | nil => rfl
    | append_singleton before b => exact unfinished_ending before (hstart b (by simp))
  rw [unfinished_append before hu, hempty, List.nil_append]

/-- The loop executes no truncated command exactly when, of no line that is too long, the bytes that
have room are the text of a command that calls a service. -/
theorem never_truncates_iff (services : DeviceServices (Device ρ)) (d : Device ρ) (turns : List Turn) :
    NeverTruncates services d turns ↔ ∀ before bytes, HasLine (typed turns) before bytes → TooLong bytes →
      ¬ CallsService (trimmed (bytes.take (maxCommandLength + 1))) := by
  have hnonempty : ∀ bytes, TooLong bytes → bytes ≠ [] := by
    rintro _ hlong rfl
    exact not_tooLong_nil hlong
  constructor
  · rintro hnever before bytes ⟨hstart, hu, b, after, hb, hstream⟩ hlong
    obtain ⟨c, htakes⟩ := exists_takes services d hstream
    refine (added_ending services htakes.read (unfinished_line hstart hu) (hnonempty bytes hlong) hb).mp ?_
    exact hnever before bytes c b htakes hstart hu hb hlong
  · intro hlines before bytes c b htakes hstart hu hb hlong
    obtain ⟨after, hstream⟩ := htakes.typed_eq
    refine (added_ending services htakes.read (unfinished_line hstart hu) (hnonempty bytes hlong) hb).mpr ?_
    exact hlines before bytes ⟨hstart, hu, b, after, hb, hstream⟩ hlong

/-- `reboot`, blanks up to the room of the loop, and one more character. -/
def padded : List UInt8 := lit "reboot" ++ List.replicate 4091 space ++ lit "x"

theorem padded_tooLong : TooLong padded := by
  have hfirst : padded.dropWhile isBlank = padded := rfl
  have hlast : padded.rdropWhile isBlank = padded := List.rdropWhile_concat_neg _ _ _ (by decide)
  rw [TooLong, hfirst, hlast, padded, List.length_append, List.length_append, List.length_replicate]
  decide

theorem padded_kept : trimmed (padded.take (maxCommandLength + 1)) = lit "reboot" := by
  have hnil : Blank [] := fun b hb => by cases hb
  have hblank : Blank (List.replicate 4091 space) := fun b hb => by
    rw [List.eq_of_mem_replicate hb]
    rfl
  have hkept : padded.take (maxCommandLength + 1) = [] ++ lit "reboot" ++ List.replicate 4091 space := by
    refine List.take_left' ?_
    rw [List.length_append, List.length_replicate]
    decide
  rw [hkept]
  exact trimmed_padded hnil ⟨by decide, by decide, by decide, by decide⟩ hblank

/-- The line of 4098 characters restarts the device. -/
theorem truncated_reboot : ¬ NeverTruncates quiet blank [⟨padded ++ [carriageReturn], 0, ⟨false, false⟩⟩] := by
  intro hnever
  have hu : Unended padded := by
    have hfirst : Unended (lit "reboot") := by
      unfold Unended
      decide +kernel
    have hlast : Unended (lit "x") := by
      unfold Unended
      decide +kernel
    intro b hb
    rw [padded, List.mem_append, List.mem_append] at hb
    rcases hb with (hb | hb) | hb
    · exact hfirst b hb
    · rw [List.eq_of_mem_replicate hb]
      rfl
    · exact hlast b hb
  have htakes : Takes quiet blank [⟨padded ++ [carriageReturn], 0, ⟨false, false⟩⟩] ([] ++ padded)
      (padded.foldl (readByte quiet) (booted blank)) carriageReturn :=
    ⟨[], _, [], padded, [], rfl, rfl, rfl, rfl⟩
  have hstart : LineStart [] := fun b hb => by cases hb
  have hsilent := hnever [] padded _ _ htakes hstart hu rfl padded_tooLong
  have hline := unfinished_line hstart hu
  have hending : isEnding carriageReturn = true := rfl
  refine (added_ending quiet htakes.read hline (List.cons_ne_nil _ _) hending).mp hsilent ⟨?_, ?_⟩
  · rw [padded_kept]
    decide
  · rw [padded_kept]
    exact ⟨⟨lit "reboot", .calls .reboot⟩, by simp [commandTable], .inr ⟨rfl, .inl ⟨.reboot, rfl⟩⟩⟩

end Esp32Shell.Arduino.Truncation
