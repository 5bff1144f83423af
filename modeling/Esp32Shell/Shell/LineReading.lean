import Esp32Shell.Shell.Routing
import Esp32Shell.Shell.Session

/-!
# The lines of a stream, and the lines a session dispatches

The reference reading cuts a stream at its line endings and edits each line on
its own. The session's buffer holds, after any stream, the text of the unfinished
line since its last overflow, so what it dispatches is a function of the lines of
the stream alone.
-/
namespace Esp32Shell.Shell.LineReading

open Esp32Shell.Library.CText Esp32Shell.Library.Feed
open CommandCore CommandTable Session

variable {σ : Type}

def isEnding (b : UInt8) : Bool := b == carriageReturn || b == lineFeed
def isErase (b : UInt8) : Bool := b == backspace || b == del

def editStep (text : Text) (b : UInt8) : Text := if isErase b then text.dropLast else text ++ [b]

/-- All bytes in order, every erase removing the last remaining character. -/
def edited (bytes : List UInt8) : Text := bytes.foldl editStep []

/-- Editing in a line buffer that is emptied when it would need one character too many. -/
def keptStep (text : Text) (b : UInt8) : Text :=
  if isErase b then text.dropLast else if text.length < maxCommandLength then text ++ [b] else []

/-- What a line leaves behind its last overflow. -/
def kept (bytes : List UInt8) : Text := bytes.foldl keptStep []

/-- The bytes between two line endings, whether the first of them is a CR, and the second. -/
structure PhysicalLine where
  afterReturn : Bool
  bytes : List UInt8
  ending : UInt8
  deriving DecidableEq

/-- Each CR ends a line; each LF does unless the byte immediately before it is a CR. -/
def physicalLinesFrom (previous : Option UInt8) (afterReturn : Bool) (bytes : List UInt8) :
    List UInt8 → List PhysicalLine
  | [] => []
  | b :: rest =>
    if b = carriageReturn ∨ (b = lineFeed ∧ previous ≠ some carriageReturn) then
      ⟨afterReturn, bytes, b⟩ :: physicalLinesFrom (some b) (b = carriageReturn) [] rest
    else if b = lineFeed then physicalLinesFrom (some b) false bytes rest
    else physicalLinesFrom (some b) afterReturn (bytes ++ [b]) rest

def physicalLines (stream : List UInt8) : List PhysicalLine := physicalLinesFrom none false [] stream

/-- An LF reached from a CR by erasing alone: it ends a line, but the session takes it for the
second half of CR LF. -/
def PhysicalLine.swallowed (l : PhysicalLine) : Bool :=
  l.afterReturn && l.bytes.all isErase && l.ending == lineFeed

/-- The dispatch of a string closes the session. -/
def closesSession (command : List UInt8) : Bool :=
  trimmed command == lit "exit" || trimmed command == lit "quit"

theorem closed_iff (services : DeviceServices σ) (device : σ) (command : List UInt8) :
    (dispatch services device (some command)).status = .sessionClosed ↔ closesSession command = true := by
  rw [Routing.dispatch_closed_iff]
  simp [closesSession]

theorem dispatch_congr (services : DeviceServices σ) (device : σ) {m m' : List UInt8}
    (h : cString m = cString m') :
    dispatch services device (some m) = dispatch services device (some m') := by
  simp only [dispatch, route, h]

/-! ### One byte -/

/-- The events of editing: output only. -/
def Quiet (events : List Event) : Prop := ∀ e ∈ events, ∃ bytes, e = .wrote bytes

/-- What a byte that ends no line does. -/
structure Edits (s : State σ) (b : UInt8) (s' : State σ) : Prop where
  device_eq : s'.device = s.device
  text_eq : s'.buffer.text = keptStep s.buffer.text b
  flag_eq : s'.previousWasCarriageReturn = (s.previousWasCarriageReturn && isErase b)
  events_eq : ∃ output, s'.events = s.events ++ .received b :: output ∧ Quiet output

theorem quiet_raw (memory : List UInt8) : Quiet (raw memory) := by simp [Quiet, raw]

theorem quiet_line (text : Text) : Quiet (line text) := by simp [Quiet, line, raw]

theorem quiet_prompt : Quiet prompt := quiet_raw _

theorem stepByte_edits (services : DeviceServices σ) (s : State σ) {b : UInt8}
    (hb : isEnding b = false) : ∃ s', stepByte services s b = .ok s' ∧ Edits s b s' := by
  have hne : ¬ (b = carriageReturn ∨ b = lineFeed) := by simpa [isEnding] using hb
  have hl := s.buffer.text_length
  by_cases he : b = backspace ∨ b = del
  · have herase : isErase b = true := by simpa [isErase] using he
    by_cases hu : 0 < s.buffer.used
    · refine ⟨{ s.emit [.received b] with buffer := s.buffer.erase }.emit
        (raw [backspace, space, backspace]), ?_, rfl, ?_, ?_, ?_⟩
      · simp [stepByte, hne, he, State.emit, hu]
      · simp [State.emit, keptStep, herase]
      · simp [State.emit, herase]
      · exact ⟨raw [backspace, space, backspace], by simp [State.emit], quiet_raw _⟩
    · refine ⟨s.emit [.received b], ?_, rfl, ?_, ?_, ?_⟩
      · simp [stepByte, hne, he, State.emit, hu]
      · have hnil : s.buffer.text = [] := List.length_eq_zero_iff.mp (by omega)
        simp [State.emit, keptStep, herase, hnil]
      · simp [State.emit, herase]
      · exact ⟨[], by simp [State.emit], by simp [Quiet]⟩
  · have herase : isErase b = false := by simpa [isErase] using he
    by_cases hu : s.buffer.used < maxCommandLength
    · refine ⟨{ s.emit [.received b] with
        previousWasCarriageReturn := false, buffer := s.buffer.push b hu }.emit (raw [b, 0]),
        ?_, rfl, ?_, ?_, ?_⟩
      · simp [stepByte, hne, he, State.emit, hu]
      · simp [State.emit, keptStep, herase, hl, hu]
      · simp [State.emit, herase]
      · exact ⟨raw [b, 0], by simp [State.emit], quiet_raw _⟩
    · refine ⟨{ s.emit [.received b] with
        previousWasCarriageReturn := false, buffer := s.buffer.reset }.emit
        (line (lit "error: command is too long")), ?_, rfl, ?_, ?_, ?_⟩
      · simp [stepByte, hne, he, State.emit, hu]
      · simp [State.emit, keptStep, herase, hl, hu]
      · simp [State.emit, herase]
      · exact ⟨line (lit "error: command is too long"), by simp [State.emit], quiet_line _⟩

/-- The second half of CR LF. -/
theorem stepByte_swallow (services : DeviceServices σ) {s : State σ}
    (h : s.previousWasCarriageReturn = true) : stepByte services s lineFeed =
      .ok ⟨s.device, s.buffer, false, s.events ++ [.received lineFeed]⟩ := by
  simp [stepByte, State.emit, h]

/-- The events of a line ending up to the return of `dispatch`. -/
def endingEvents (services : DeviceServices σ) (s : State σ) (b : UInt8) : List Event :=
  s.events ++ .received b :: raw [carriageReturn, lineFeed] ++
    dispatchEvents (cString s.buffer.text) (dispatch services s.device (some s.buffer.text))

/-- The byte is a line ending that is not the second half of CR LF. -/
def EndsLine (s : State σ) (b : UInt8) : Prop :=
  b = carriageReturn ∨ (b = lineFeed ∧ s.previousWasCarriageReturn = false)

theorem EndsLine.isEnding_eq {s : State σ} {b : UInt8} (h : EndsLine s b) : isEnding b = true := by
  rcases h with rfl | ⟨rfl, -⟩ <;> rfl

/-- Any other line ending dispatches the text of the line. -/
theorem stepByte_ends (services : DeviceServices σ) {s : State σ} {b : UInt8} (h : EndsLine s b) :
    stepByte services s b =
      let d := dispatch services s.device (some s.buffer.text)
      if closesSession s.buffer.text then
        .error ⟨.commandRequestedClose, d.device, endingEvents services s b⟩
      else .ok ⟨d.device, s.buffer.terminate.reset, b = carriageReturn,
        endingEvents services s b ++ prompt⟩ := by
  have hend : b = carriageReturn ∨ b = lineFeed := h.imp id And.left
  have hnot : ¬ (b = lineFeed ∧ s.previousWasCarriageReturn = true) := by
    rcases h with rfl | ⟨-, hf⟩
    · simp [carriageReturn, lineFeed]
    · simp [hf]
  have hc := s.buffer.cString_terminate
  have hd := dispatch_congr services s.device hc
  simp only [stepByte, hend, if_true, State.emit, hnot, if_false, endLine, hd, hc, closed_iff,
    endingEvents, List.append_assoc, List.nil_append, List.cons_append]

/-- All that a byte can do. -/
inductive ByteStep (services : DeviceServices σ) (s : State σ) (b : UInt8) :
    Except (Finished σ) (State σ) → Prop where
  | edit (s' : State σ) (hb : isEnding b = false) (h : Edits s b s') :
      ByteStep services s b (.ok s')
  | swallow (hb : b = lineFeed) (hf : s.previousWasCarriageReturn = true) :
      ByteStep services s b (.ok ⟨s.device, s.buffer, false, s.events ++ [.received lineFeed]⟩)
  | ending (hb : EndsLine s b) (hc : closesSession s.buffer.text = false) :
      ByteStep services s b (.ok ⟨(dispatch services s.device (some s.buffer.text)).device,
        s.buffer.terminate.reset, b = carriageReturn, endingEvents services s b ++ prompt⟩)
  | closing (hb : EndsLine s b) (hc : closesSession s.buffer.text = true) :
      ByteStep services s b (.error ⟨.commandRequestedClose,
        (dispatch services s.device (some s.buffer.text)).device, endingEvents services s b⟩)

theorem stepByte_cases (services : DeviceServices σ) (s : State σ) (b : UInt8) :
    ByteStep services s b (stepByte services s b) := by
  by_cases hb : isEnding b = true
  · have hend : b = carriageReturn ∨ b = lineFeed := by simpa [isEnding] using hb
    by_cases hsw : b = lineFeed ∧ s.previousWasCarriageReturn = true
    · obtain ⟨rfl, hf⟩ := hsw
      rw [stepByte_swallow services hf]
      exact .swallow rfl hf
    · have hreal : EndsLine s b := hend.imp_right fun he => ⟨he, by simpa [he] using hsw⟩
      rw [stepByte_ends services hreal]
      by_cases hc : closesSession s.buffer.text = true
      · rw [if_pos hc]
        exact .closing hreal hc
      · rw [if_neg hc]
        exact .ending hreal (Bool.eq_false_iff.mpr hc)
  · obtain ⟨s', hs', hedits⟩ := stepByte_edits services s (Bool.eq_false_iff.mpr hb)
    rw [hs']
    exact .edit s' (Bool.eq_false_iff.mpr hb) hedits

/-! ### A whole stream -/

/-- The strings given to `dispatch`, in order. -/
def dispatchedTexts (events : List Event) : List Text :=
  events.filterMap fun | .dispatched command => some command | _ => none

@[simp] theorem dispatchedTexts_append (xs ys : List Event) :
    dispatchedTexts (xs ++ ys) = dispatchedTexts xs ++ dispatchedTexts ys := List.filterMap_append

theorem Quiet.dispatchedTexts_eq {events : List Event} (h : Quiet events) :
    dispatchedTexts events = [] := by
  refine List.filterMap_eq_nil_iff.mpr fun e he => ?_
  obtain ⟨bytes, rfl⟩ := h e he
  rfl

theorem dispatchedTexts_dispatchEvents (command : Text) (d : Dispatched σ) :
    dispatchedTexts (dispatchEvents command d) = [command] := by
  have hc : dispatchedTexts (d.calls.map Event.called) = [] := by
    simp [dispatchedTexts, List.filterMap_map]
  have hq : Quiet (d.lines.flatMap line) := by
    intro e he
    obtain ⟨t, -, ht⟩ := List.mem_flatMap.mp he
    exact quiet_line t e ht
  have h : dispatchEvents command d = [.dispatched command] ++ d.calls.map Event.called ++
    d.lines.flatMap line ++ [.returned d.status] := by simp [dispatchEvents]
  rw [h, dispatchedTexts_append, dispatchedTexts_append, dispatchedTexts_append, hc,
    hq.dispatchedTexts_eq]
  rfl

theorem dispatchedTexts_endingEvents (services : DeviceServices σ) (s : State σ) (b : UInt8) :
    dispatchedTexts (endingEvents services s b) =
      dispatchedTexts s.events ++ [cString s.buffer.text] := by
  have h : endingEvents services s b = s.events ++ [.received b] ++ raw [carriageReturn, lineFeed] ++
    dispatchEvents (cString s.buffer.text) (dispatch services s.device (some s.buffer.text)) := by
    simp [endingEvents]
  rw [h, dispatchedTexts_append, dispatchedTexts_append, dispatchedTexts_append,
    dispatchedTexts_dispatchEvents, (quiet_raw _).dispatchedTexts_eq]
  simp [dispatchedTexts]

/-- The session has read the bytes of an unfinished line, after the given line ending. -/
structure Reads (s : State σ) (previous : Option UInt8) (afterReturn : Bool) (bytes : List UInt8) :
    Prop where
  text_eq : s.buffer.text = kept bytes
  flag_eq : s.previousWasCarriageReturn = (afterReturn && bytes.all isErase)
  previous_iff : previous = some carriageReturn ↔ afterReturn = true ∧ bytes = []

theorem kept_append (bytes : List UInt8) (b : UInt8) : kept (bytes ++ [b]) = keptStep (kept bytes) b := by
  simp [kept]

theorem kept_erases {bytes : List UInt8} (h : bytes.all isErase = true) : kept bytes = [] := by
  induction bytes using List.reverseRecOn with
  | nil => rfl
  | append_singleton bytes b ih =>
    rw [List.all_append, Bool.and_eq_true] at h
    rw [kept_append, ih h.1]
    simp_all [keptStep]

theorem reads_opened (device : σ) : Reads (opened device) none false [] :=
  ⟨rfl, rfl, by simp⟩

theorem Reads.edit {s s' : State σ} {previous : Option UInt8} {afterReturn : Bool}
    {bytes : List UInt8} {b : UInt8} (h : Reads s previous afterReturn bytes)
    (hb : isEnding b = false) (he : Edits s b s') : Reads s' (some b) afterReturn (bytes ++ [b]) where
  text_eq := by rw [he.text_eq, h.text_eq, kept_append]
  flag_eq := by rw [he.flag_eq, h.flag_eq, List.all_append, Bool.and_assoc]; simp
  previous_iff := by
    have hne : b ≠ carriageReturn := by
      rintro rfl
      simp [isEnding] at hb
    simp [hne]

/-- The state a line ending leaves when the session stays open. -/
theorem reads_ended (device : σ) (buffer : LineBuffer) (events : List Event) (b : UInt8) :
    Reads ⟨device, buffer.reset, b = carriageReturn, events⟩ (some b) (b = carriageReturn) [] :=
  ⟨rfl, by simp, by simp⟩

/-- A byte that the session takes for the second half of CR LF finds an empty text. -/
theorem Reads.swallow {s s' : State σ} {previous : Option UInt8} {afterReturn : Bool}
    {bytes : List UInt8} (h : Reads s previous afterReturn bytes)
    (hf : s.previousWasCarriageReturn = true) (hbuffer : s'.buffer = s.buffer)
    (hflag : s'.previousWasCarriageReturn = false) : Reads s' (some lineFeed) false [] := by
  have hall : bytes.all isErase = true := by
    have := h.flag_eq
    rw [hf, eq_comm, Bool.and_eq_true] at this
    exact this.2
  have htext : s'.buffer.text = kept [] := by
    rw [hbuffer, h.text_eq, kept_erases hall]
    rfl
  exact ⟨htext, hflag, by simp [lineFeed, carriageReturn]⟩

theorem Reads.not_swallowed {s : State σ} {previous : Option UInt8} {afterReturn : Bool}
    {bytes : List UInt8} {b : UInt8} (h : Reads s previous afterReturn bytes)
    (hb : EndsLine s b) :
    (PhysicalLine.mk afterReturn bytes b).swallowed = false := by
  rcases hb with rfl | ⟨-, hf⟩
  · simp [PhysicalLine.swallowed, carriageReturn, lineFeed]
  · have hflag := h.flag_eq
    rw [hf] at hflag
    simp [PhysicalLine.swallowed, ← hflag]

theorem Reads.ends_line {s : State σ} {previous : Option UInt8} {afterReturn : Bool}
    {bytes : List UInt8} {b : UInt8} (h : Reads s previous afterReturn bytes)
    (hb : EndsLine s b) :
    b = carriageReturn ∨ (b = lineFeed ∧ previous ≠ some carriageReturn) := by
  rcases hb with rfl | ⟨rfl, hf⟩
  · exact .inl rfl
  · refine .inr ⟨rfl, fun hp => ?_⟩
    obtain ⟨ha, hnil⟩ := h.previous_iff.mp hp
    have hflag := h.flag_eq
    simp [hf, ha, hnil] at hflag

theorem lines_cons_edit {b : UInt8} (hb : isEnding b = false) {previous : Option UInt8}
    {afterReturn : Bool} {bytes stream : List UInt8} :
    physicalLinesFrom previous afterReturn bytes (b :: stream) =
      physicalLinesFrom (some b) afterReturn (bytes ++ [b]) stream := by
  have hne : ¬ (b = carriageReturn ∨ b = lineFeed) := by simpa [isEnding] using hb
  rw [physicalLinesFrom, if_neg (fun hx => hne (hx.imp_right And.left)),
    if_neg (fun hx => hne (.inr hx))]

theorem lines_cons_ending {b : UInt8} {previous : Option UInt8}
    (hb : b = carriageReturn ∨ (b = lineFeed ∧ previous ≠ some carriageReturn)) {afterReturn : Bool}
    {bytes stream : List UInt8} :
    physicalLinesFrom previous afterReturn bytes (b :: stream) =
      ⟨afterReturn, bytes, b⟩ :: physicalLinesFrom (some b) (b = carriageReturn) [] stream := by
  rw [physicalLinesFrom, if_pos hb]

/-- An LF that the session takes for the second half of CR LF ends no line, or a line it
overlooks. -/
theorem Reads.lines_swallow {s : State σ} {previous : Option UInt8} {afterReturn : Bool}
    {bytes stream : List UInt8} (h : Reads s previous afterReturn bytes)
    (hf : s.previousWasCarriageReturn = true) :
    (physicalLinesFrom previous afterReturn bytes (lineFeed :: stream)).filter (fun l => !l.swallowed) =
      (physicalLinesFrom (some lineFeed) false [] stream).filter fun l => !l.swallowed := by
  have hflag := h.flag_eq
  rw [hf, eq_comm, Bool.and_eq_true] at hflag
  by_cases hp : previous = some carriageReturn
  · have hnil : bytes = [] := (h.previous_iff.mp hp).2
    simp [physicalLinesFrom, hp, hnil, lineFeed, carriageReturn]
  · have hskip : (PhysicalLine.mk afterReturn bytes lineFeed).swallowed = true := by
      simp [PhysicalLine.swallowed, hflag.1, hflag.2]
    rw [lines_cons_ending (.inr ⟨rfl, hp⟩), List.filter_cons_of_neg (by simp [hskip])]
    rfl

/-- What the session dispatches is read off the lines of the stream: it is the kept text of each
line that is not swallowed, up to the first that closes the session. -/
theorem feed_dispatched (services : DeviceServices σ) (stream : List UInt8) {s : State σ}
    {previous : Option UInt8} {afterReturn : Bool} {bytes : List UInt8}
    (h : Reads s previous afterReturn bytes) :
    dispatchedTexts (eventsOf (feed (stepByte services) s stream)) = dispatchedTexts s.events ++
      (takeThrough (fun l => closesSession (kept l.bytes))
        ((physicalLinesFrom previous afterReturn bytes stream).filter fun l => !l.swallowed)).map
        fun l => cString (kept l.bytes) := by
  induction stream generalizing s previous afterReturn bytes with
  | nil => simp [eventsOf, physicalLinesFrom, takeThrough]
  | cons b stream ih =>
    have hcases := stepByte_cases services s b
    rw [feed_cons]
    generalize stepByte services s b = next at hcases
    cases hcases with
    | edit s' hb hedits =>
      obtain ⟨output, hevents, hquiet⟩ := hedits.events_eq
      have hreceived : dispatchedTexts (.received b :: output) = dispatchedTexts output := rfl
      show dispatchedTexts (eventsOf (feed (stepByte services) s' stream)) = _
      rw [ih (h.edit hb hedits), lines_cons_edit hb, hevents, dispatchedTexts_append, hreceived,
        hquiet.dispatchedTexts_eq, List.append_nil]
    | swallow hb hf =>
      subst hb
      have hread : Reads ⟨s.device, s.buffer, false, s.events ++ [.received lineFeed]⟩
        (some lineFeed) false [] := h.swallow hf rfl rfl
      show dispatchedTexts (eventsOf (feed (stepByte services) _ stream)) = _
      rw [ih hread, h.lines_swallow hf]
      simp [dispatchedTexts]
    | ending hb hc =>
      rw [h.text_eq] at hc
      show dispatchedTexts (eventsOf (feed (stepByte services) _ stream)) = _
      rw [ih (reads_ended _ _ _ b), lines_cons_ending (h.ends_line hb),
        List.filter_cons_of_pos (by simp [h.not_swallowed hb]), takeThrough, hc]
      simp [dispatchedTexts_endingEvents, quiet_prompt.dispatchedTexts_eq, h.text_eq]
    | closing hb hc =>
      rw [h.text_eq] at hc
      show dispatchedTexts (endingEvents services s b) = _
      rw [lines_cons_ending (h.ends_line hb), List.filter_cons_of_pos (by simp [h.not_swallowed hb]),
        takeThrough, hc]
      simp [dispatchedTexts_endingEvents, h.text_eq]

end Esp32Shell.Shell.LineReading
