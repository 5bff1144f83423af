import Esp32Shell.Library.Precedence
import Esp32Shell.Library.Terminal
import Esp32Shell.Shell.Chunking

/-!
# What the user sees

The writes of a session on a terminal. As long as plain characters, line endings
and erasures are typed, the row under the cursor shows the line buffer, and the
row that was completed before a dispatch shows the command that is dispatched.
-/
namespace Esp32Shell.Shell.Screen

open Esp32Shell.Library.CText Esp32Shell.Library.Feed Esp32Shell.Library.Precedence
open Esp32Shell.Library.Terminal Esp32Shell.Library.Terminal.Screen
open CommandCore Session LineReading Chunking

variable {σ : Type}

/-- What a written byte does on a terminal, where it is no other control character. -/
def keyOf (b : UInt8) : Key UInt8 :=
  if b = carriageReturn then .home
  else if b = lineFeed then .down
  else if b = backspace then .left
  else .glyph b

def show1 (s : Screen UInt8) : Event → Screen UInt8
  | .wrote bytes => s.presses space (bytes.map keyOf)
  | _ => s

/-- The terminal after the events of a session. -/
def screen (events : List Event) : Screen UInt8 := events.foldl show1 .cleared

/-- A character with a glyph of its own. -/
def isPlain (b : UInt8) : Bool := 32 ≤ b && b < 127

/-- What is typed: a plain character, a line ending or an erasure. -/
def isTyped (b : UInt8) : Bool := isPlain b || isEnding b || isErase b

def tooLong : Text := lit "error: command is too long"

def isReturned : Event → Bool
  | .returned _ => true
  | _ => false

/-- The line that is being edited was too long and has been started again. -/
def restarted (events : List Event) : Bool :=
  (events.rtakeWhile fun e => ! isReturned e).contains (.wrote tooLong)

/-- What stands in front of the line: the prompt, which is not repeated for a line that was too long. -/
def front (events : List Event) : Text := if restarted events then [] else lit "esp32shell>"

/-! ### Writes -/

theorem screen_append (events more : List Event) :
    screen (events ++ more) = more.foldl show1 (screen events) := List.foldl_append ..

theorem keyOf_plain {b : UInt8} (h : isPlain b = true) : keyOf b = .glyph b := by
  have hplain : 32 ≤ b := by
    simp only [isPlain, Bool.and_eq_true, decide_eq_true_eq] at h
    exact h.1
  have hne : ∀ c : UInt8, c < 32 → b ≠ c := fun c hc he => absurd (he ▸ hplain) (UInt8.not_le.mpr hc)
  rw [keyOf, if_neg (hne _ (by decide)), if_neg (hne _ (by decide)), if_neg (hne _ (by decide))]

theorem map_keyOf {t : Text} (h : ∀ b ∈ t, isPlain b = true) : t.map keyOf = t.map .glyph :=
  List.map_congr_left fun b hb => keyOf_plain (h b hb)

theorem zero_notMem_plain {t : Text} (h : ∀ b ∈ t, isPlain b = true) : 0 ∉ t := by
  intro h0
  exact absurd (h 0 h0) (by decide)

theorem plain_prompt : ∀ b ∈ lit "esp32shell>", isPlain b = true := List.all_eq_true.mp (by decide)

/-- The echo of a character. -/
theorem raw_echo {b : UInt8} (h : isPlain b = true) : raw [b, 0] = raw [b] := by
  have hne : b ≠ 0 := by
    rintro rfl
    exact absurd h (by decide)
  simp [raw, cString, hne]

theorem cString_plain {t : Text} (h : ∀ b ∈ t, isPlain b = true) : cString t = t :=
  (cString_eq_self_iff t).mpr (zero_notMem_plain h)

/-- Plain text is shown behind what is shown. -/
theorem shows_raw {s : Screen UInt8} {shown t : Text} (h : Shows space s shown)
    (ht : ∀ b ∈ t, isPlain b = true) : Shows space ((raw t).foldl show1 s) (shown ++ t) := by
  show Shows space (s.presses space ((cString t).map keyOf)) (shown ++ t)
  rw [cString_plain ht, map_keyOf ht]
  exact h.glyphs t

/-- The end of a line completes the row, whatever is on it. -/
theorem shows_newLine (s : Screen UInt8) :
    Shows space ((raw [carriageReturn, lineFeed]).foldl show1 s) [] ∧
      ((raw [carriageReturn, lineFeed]).foldl show1 s).above = s.above ++ [s.row] :=
  newLine space s

theorem shows_line (text : Text) (s : Screen UInt8) : Shows space ((line text).foldl show1 s) [] := by
  rw [line, List.foldl_append]
  exact (shows_newLine _).1

/-- Whatever a command prints, the row after it is empty. -/
theorem shows_lines {s : Screen UInt8} (h : Shows space s []) (lines : List Text) :
    Shows space ((lines.flatMap line).foldl show1 s) [] := by
  induction lines generalizing s with
  | nil => exact h
  | cons text lines ih =>
    rw [List.flatMap_cons, List.foldl_append]
    exact ih (shows_line text s)

theorem shows_dispatchEvents {s : Screen UInt8} (h : Shows space s []) (command : Text)
    (d : Dispatched σ) : Shows space ((dispatchEvents command d).foldl show1 s) [] := by
  have hcalls : ∀ (calls : List ServiceCall) (s : Screen UInt8), (calls.map Event.called).foldl show1 s = s := by
    intro calls
    induction calls with
    | nil => exact fun s => rfl
    | cons call calls ih => exact fun s => ih s
  simp only [dispatchEvents, List.foldl_append, List.cons_append, List.foldl_cons, List.foldl_nil, hcalls]
  exact shows_lines h d.lines

/-! ### What stands in front -/

theorem restarted_append (events : List Event) {more : List Event} (h : ∀ e ∈ more, isReturned e = false) :
    restarted (events ++ more) = (restarted events || more.contains (.wrote tooLong)) := by
  have hmore : ∀ e ∈ more.reverse, (! isReturned e) = true := fun e he => by
    simp [h e (List.mem_reverse.mp he)]
  have htail : (events ++ more).rtakeWhile (fun e => ! isReturned e) =
      events.rtakeWhile (fun e => ! isReturned e) ++ more := by
    rw [List.rtakeWhile, List.reverse_append, List.takeWhile_append_of_pos hmore, List.reverse_append,
      List.reverse_reverse]
    rfl
  rw [restarted, htail, restarted]
  simp

/-- What is written while a line is edited leaves its front. -/
theorem front_append (events : List Event) {more : List Event} (h : ∀ e ∈ more, isReturned e = false)
    (hmore : Event.wrote tooLong ∉ more) : front (events ++ more) = front events := by
  have hnone : more.contains (.wrote tooLong) = false := by simpa using hmore
  rw [front, restarted_append events h, hnone, Bool.or_false, front]

theorem front_prompt (events : List Event) (status : CommandStatus) :
    front (events ++ [.returned status] ++ prompt) = lit "esp32shell>" := by
  have hlast : (events ++ [Event.returned status]).rtakeWhile (fun e => ! isReturned e) = [] := by
    rw [List.rtakeWhile_concat_neg _ _ _ (by simp [isReturned])]
  have hprompt : ∀ e ∈ prompt, isReturned e = false := by decide
  rw [front, restarted_append _ hprompt, restarted, hlast]
  rfl

theorem front_overflow (events : List Event) (b : UInt8) :
    front (events ++ [.received b] ++ line tooLong) = [] := by
  have hline : ∀ e ∈ line tooLong, isReturned e = false := by decide
  have hmem : (line tooLong).contains (.wrote tooLong) = true := by decide
  rw [front, restarted_append _ hline, hmem, Bool.or_true, if_pos rfl]

/-! ### Sessions -/

/-- The row of the cursor shows the line. -/
structure Shown (s : State σ) : Prop where
  plain : ∀ b ∈ s.buffer.text, isPlain b = true
  row : Shows space (screen s.events) (front s.events ++ s.buffer.text)

/-- A command is dispatched under a row that shows it. -/
def Read (before : List Event) (e : Event) : Prop :=
  ∀ command, e = .dispatched command →
    ∃ n, (screen before).above.getLast? = some (front before ++ command ++ List.replicate n space)

theorem read_other {events more : List Event} (h : Guarded Read events)
    (hmore : ∀ e ∈ more, ∀ command, e ≠ .dispatched command) : Guarded Read (events ++ more) :=
  h.free fun e he _ command heq => absurd heq (hmore e he command)

theorem shown_opened (device : σ) : Shown (opened device) ∧ Guarded Read (opened device).events := by
  refine ⟨⟨fun b hb => absurd hb List.not_mem_nil, ?_⟩, ?_⟩
  · have hgreeted := shows_raw (shows_line (lit "Type 'help' for commands.")
      ((line (lit "esp32shell ssh shell")).foldl show1 .cleared)) plain_prompt
    have hfront : front greeting = lit "esp32shell>" := by decide
    show Shows space (screen greeting) (front greeting ++ [])
    rw [hfront, List.append_nil, greeting, screen, List.foldl_append, List.foldl_append]
    exact hgreeted
  · show Guarded Read ([] ++ greeting)
    exact read_other guarded_nil (by simp [greeting, prompt, line, raw])

/-- A byte that ends no line. -/
theorem shown_edit (services : DeviceServices σ) {s : State σ} (h : Shown s) (hread : Guarded Read s.events)
    {b : UInt8} (htyped : isTyped b = true) (hb : isEnding b = false) :
    ∃ s', stepByte services s b = .ok s' ∧ Shown s' ∧ Guarded Read s'.events := by
  have hne : ¬ (b = carriageReturn ∨ b = lineFeed) := by simpa [isEnding] using hb
  have hl := s.buffer.text_length
  have hreceived : Shown (s.emit [.received b]) := by
    refine ⟨h.plain, ?_⟩
    have hsame : front (s.events ++ [.received b]) = front s.events :=
      front_append _ (by simp [isReturned]) (by simp)
    show Shows space (screen (s.events ++ [.received b])) (front (s.events ++ [.received b]) ++ s.buffer.text)
    rw [hsame, screen_append]
    exact h.row
  have hreadReceived : Guarded Read (s.emit [.received b]).events := read_other hread (by simp)
  by_cases he : b = backspace ∨ b = del
  · by_cases hu : 0 < s.buffer.used
    · refine ⟨{ s.emit [.received b] with buffer := s.buffer.erase }.emit
        (raw [backspace, space, backspace]), by simp [stepByte, hne, he, State.emit, hu], ⟨?_, ?_⟩, ?_⟩
      · intro c hc
        simp only [State.emit, LineBuffer.text_erase] at hc
        exact h.plain c (List.mem_of_mem_dropLast hc)
      · have hne : s.buffer.text ≠ [] := fun hnil => by
          rw [hnil] at hl
          exact absurd hu (by simp [← hl])
        have hrow := hreceived.row
        have hcut : front (s.emit [.received b]).events ++ s.buffer.text =
            front (s.emit [.received b]).events ++ s.buffer.text.dropLast ++
              [s.buffer.text.getLast hne] := by
          rw [List.append_assoc, List.dropLast_append_getLast]
        have hsame : front ((s.emit [.received b]).events ++ raw [backspace, space, backspace]) =
            front (s.emit [.received b]).events := front_append _ (by decide) (by decide)
        have hrubbed := (hcut ▸ hrow : Shows space _ _).rubOut
        show Shows space (screen ((s.emit [.received b]).events ++ raw [backspace, space, backspace]))
          (front ((s.emit [.received b]).events ++ raw [backspace, space, backspace]) ++
            s.buffer.erase.text)
        rw [hsame, screen_append, LineBuffer.text_erase]
        exact hrubbed
      · exact read_other hreadReceived (by simp [raw])
    · exact ⟨s.emit [.received b], by simp [stepByte, hne, he, State.emit, hu], hreceived, hreadReceived⟩
  · have hplain : isPlain b = true := by
      have herase : isErase b = false := by simpa [isErase] using he
      simpa [isTyped, hb, herase] using htyped
    by_cases hu : s.buffer.used < maxCommandLength
    · refine ⟨{ s.emit [.received b] with
        previousWasCarriageReturn := false, buffer := s.buffer.push b hu }.emit (raw [b, 0]),
        by simp [stepByte, hne, he, State.emit, hu], ⟨?_, ?_⟩, ?_⟩
      · intro c hc
        simp only [State.emit, LineBuffer.text_push, List.mem_append, List.mem_singleton] at hc
        rcases hc with hc | rfl
        · exact h.plain c hc
        · exact hplain
      · have hecho : Event.wrote tooLong ∉ raw [b] := by
          intro hmem
          have hlength := congrArg List.length (Event.wrote.inj (List.mem_singleton.mp hmem))
          rw [cString_plain (by simpa using hplain)] at hlength
          have hnot : ¬ tooLong.length = 1 := by decide
          exact hnot hlength
        have hsame : front ((s.emit [.received b]).events ++ raw [b]) =
            front (s.emit [.received b]).events := front_append _ (by simp [raw, isReturned]) hecho
        show Shows space (screen ((s.emit [.received b]).events ++ raw [b, 0]))
          (front ((s.emit [.received b]).events ++ raw [b, 0]) ++ (s.buffer.push b hu).text)
        rw [raw_echo hplain, hsame, screen_append, LineBuffer.text_push, ← List.append_assoc]
        exact shows_raw hreceived.row (by simpa using hplain)
      · exact read_other hreadReceived (by simp [raw])
    · refine ⟨{ s.emit [.received b] with
        previousWasCarriageReturn := false, buffer := s.buffer.reset }.emit
        (line (lit "error: command is too long")), by simp [stepByte, hne, he, State.emit, hu], ⟨?_, ?_⟩, ?_⟩
      · exact fun c hc => absurd hc List.not_mem_nil
      · show Shows space (screen (s.events ++ [.received b] ++ line tooLong))
          (front (s.events ++ [.received b] ++ line tooLong) ++ [])
        rw [front_overflow, screen_append]
        exact shows_line tooLong _
      · exact read_other hreadReceived (by simp [line, raw])

/-- The row is completed before the line is dispatched. -/
theorem read_ending (services : DeviceServices σ) {s : State σ} (h : Shown s) (hread : Guarded Read s.events)
    (b : UInt8) : Guarded Read (endingEvents services s b) := by
  have hended : Guarded Read (s.events ++ .received b :: raw [carriageReturn, lineFeed]) :=
    read_other hread (by simp [raw])
  have hcompleted : ∃ n, (screen (s.events ++ .received b :: raw [carriageReturn, lineFeed])).above.getLast? =
      some (front (s.events ++ .received b :: raw [carriageReturn, lineFeed]) ++ s.buffer.text ++
        List.replicate n space) := by
    obtain ⟨n, hrow⟩ := h.row.row_eq
    have hsame : front (s.events ++ .received b :: raw [carriageReturn, lineFeed]) = front s.events :=
      front_append _ (by simp [raw, isReturned]) (by simpa [raw] using by decide)
    refine ⟨n, ?_⟩
    rw [screen_append, List.foldl_cons, hsame]
    have habove := (shows_newLine (show1 (screen s.events) (.received b))).2
    rw [habove, List.getLast?_concat]
    exact congrArg some hrow
  have hdispatched : Guarded Read (s.events ++ .received b :: raw [carriageReturn, lineFeed] ++
      [.dispatched (cString s.buffer.text)]) := by
    refine hended.snoc fun command heq => ?_
    cases heq
    rw [cString_plain h.plain]
    exact hcompleted
  have hevents : endingEvents services s b = s.events ++ .received b :: raw [carriageReturn, lineFeed] ++
      [.dispatched (cString s.buffer.text)] ++
      ((dispatch services s.device (some s.buffer.text)).calls.map .called ++
        (dispatch services s.device (some s.buffer.text)).lines.flatMap line ++
        [.returned (dispatch services s.device (some s.buffer.text)).status]) := by
    simp [endingEvents, dispatchEvents]
  rw [hevents]
  refine read_other hdispatched fun e he command heq => ?_
  subst heq
  simp [line, raw] at he

theorem shown_ending (services : DeviceServices σ) (s : State σ) (b : UInt8) (device : σ) (flag : Bool) :
    Shown ⟨device, s.buffer.terminate.reset, flag, endingEvents services s b ++ prompt⟩ := by
  refine ⟨fun c hc => absurd hc List.not_mem_nil, ?_⟩
  have hfront : front (endingEvents services s b ++ prompt) = lit "esp32shell>" := by
    rw [endingEvents, dispatchEvents, ← List.append_assoc]
    exact front_prompt _ _
  show Shows space (screen (endingEvents services s b ++ prompt))
    (front (endingEvents services s b ++ prompt) ++ [])
  rw [hfront, List.append_nil, screen_append]
  have hempty : Shows space (screen (endingEvents services s b)) [] := by
    rw [endingEvents, screen_append, screen_append, List.foldl_cons]
    exact shows_dispatchEvents (shows_newLine _).1 _ _
  exact shows_raw hempty plain_prompt

/-- A typed byte keeps the row as the line is, and dispatches what the row has shown. -/
theorem shown_byte (services : DeviceServices σ) (s : State σ) (b : UInt8) (htyped : isTyped b = true)
    (h : Shown s ∧ Guarded Read s.events) :
    Holds (fun s => Shown s ∧ Guarded Read s.events) (fun f => Guarded Read f.events)
      (stepByte services s b) := by
  obtain ⟨hshown, hread⟩ := h
  by_cases hb : isEnding b = true
  · have hstep := stepByte_cases services s b
    generalize stepByte services s b = next at hstep ⊢
    cases hstep with
    | edit s' hnot => rw [hb] at hnot; cases hnot
    | swallow heq hflag =>
      have hsame : front (s.events ++ [.received lineFeed]) = front s.events :=
        front_append _ (by simp [isReturned]) (by simp)
      refine ⟨⟨hshown.plain, ?_⟩, read_other hread (by simp)⟩
      show Shows space (screen (s.events ++ [.received lineFeed]))
        (front (s.events ++ [.received lineFeed]) ++ s.buffer.text)
      rw [hsame, screen_append]
      exact hshown.row
    | ending hends hc =>
      refine ⟨shown_ending services s b _ _, ?_⟩
      exact read_other (read_ending services hshown hread b) (by simp [prompt, raw])
    | closing hends hc => exact read_ending services hshown hread b
  · obtain ⟨s', hstep, hshown', hread'⟩ :=
      shown_edit services hshown hread htyped (Bool.eq_false_iff.mpr hb)
    rw [hstep]
    exact ⟨hshown', hread'⟩

/-- What is dispatched is what is read: in every session over typed bytes the row that was completed right
before a dispatch shows the command behind its front, and the row of the cursor always shows the line. -/
theorem screen_shows (services : DeviceServices σ) (allocated : Bool) (device : σ) (polls : List Poll)
    (htyped : ∀ b ∈ received polls, isTyped b = true) :
    (∀ before command after,
      eventsOf (run services allocated device polls) = before ++ .dispatched command :: after →
      ∃ n, (screen before).above.getLast? = some (front before ++ command ++ List.replicate n space)) ∧
    ∀ s, run services allocated device polls = .ok s →
      Shows space (screen s.events) (front s.events ++ s.buffer.text) := by
  obtain ⟨hshown, hread⟩ := shown_opened device
  have hrun := feed_holds_of (fun s b => shown_byte services s b) ⟨hshown, hread⟩ htyped
  cases allocated with
  | false =>
    refine ⟨fun before command after hcut => hread before _ after hcut command rfl, fun s hs => ?_⟩
    cases hs
  | true =>
    constructor
    · intro before command after hcut
      rw [eventsOf_run] at hcut
      cases hfeed : feed (stepByte services) (opened device) (received polls) with
      | ok s =>
        rw [hfeed] at hrun hcut
        exact hrun.2 before _ after hcut command rfl
      | error f =>
        rw [hfeed] at hrun hcut
        exact hrun before _ after hcut command rfl
    · intro s hs
      rw [run_eq] at hs
      cases hfeed : feed (stepByte services) (opened device) (received polls) with
      | ok s' =>
        rw [hfeed] at hrun hs
        have hfinished : finishedBy (ended polls) s' = .ok s := hs
        unfold finishedBy at hfinished
        split at hfinished
        · cases hfinished
        · cases hfinished
          exact hrun.1.row
      | error f =>
        rw [hfeed] at hs
        cases hs

theorem screen_shows_help :
    let polls := [chunk (lit "helq\x08p\r\nuptim") (by decide)]
    (∀ before command after,
      eventsOf (run Routing.silent true () polls) = before ++ .dispatched command :: after →
      ∃ n, (screen before).above.getLast? = some (front before ++ command ++ List.replicate n space)) ∧
    ∀ s, run Routing.silent true () polls = .ok s →
      Shows space (screen s.events) (front s.events ++ s.buffer.text) :=
  screen_shows Routing.silent true () _ (List.all_eq_true.mp (by decide))

end Esp32Shell.Shell.Screen
