import Esp32Shell.Arduino.Reboot
import Esp32Shell.Shell.LineDiscipline

/-!
# The serial loop

`loop()` drains the UART into `readLine` and dispatches it at a line ending,
unless the one before was a CR that nothing has followed. The guard stays up
across repeated CRs, where the session's does not, and nothing closes the loop.
-/
namespace Esp32Shell.Arduino.SerialLoop

open Esp32Shell.Library.CText Esp32Shell.Library.Feed
open Shell.CommandCore Shell.Session Shell.LineReading Shell.LineDiscipline Shell.Chunking
open WifiService Esp32Services

variable {ρ σ : Type}

/-- The globals of the sketch; the trace has the events of a session. -/
structure Console (ρ : Type) where
  device : Device ρ
  readLine : Text
  lineEndingSeen : Bool
  events : List Event
  readLine_le : readLine.length ≤ maxCommandLength + 1

/-- What one turn of `loop()` finds: the bytes that are available, and the clock and the Wi-Fi driver
behind them. -/
structure Turn where
  available : List UInt8
  now : UInt32
  driver : Driver

/-- `Serial.println`, as which `SerialOutput` writes a line. -/
def println (text : Text) : List Event := [.wrote (text ++ [carriageReturn, lineFeed])]

/-- `commandCore.dispatch(readLine.c_str(), ..); readLine = "";`, between its two writes. -/
def dispatchLine (services : DeviceServices (Device ρ)) (c : Console ρ) : Console ρ :=
  let d := dispatch services c.device (some c.readLine)
  { c with
    device := d.device
    readLine := []
    events := c.events ++ println [] ++ .dispatched (cString c.readLine) :: d.calls.map .called ++
      d.lines.flatMap println ++ [.returned d.status, .wrote (lit "esp32shell> ")]
    readLine_le := Nat.zero_le _ }

/-- The body of `while (Serial.available())`. -/
def readByte (services : DeviceServices (Device ρ)) (before : Console ρ) (b : UInt8) : Console ρ :=
  let c := { before with events := before.events ++ [.received b] }
  if b = carriageReturn ∨ b = lineFeed then
    let done := if c.lineEndingSeen then c else dispatchLine services c
    { done with lineEndingSeen := b = carriageReturn }
  else if h : c.readLine.length < maxCommandLength + 1 then
    { c with
      readLine := c.readLine ++ [b]
      lineEndingSeen := false
      events := c.events ++ [.wrote [b]]
      readLine_le := by rw [List.length_append]; exact h }
  else c

/-- `loop()`. -/
def loop (services : DeviceServices (Device ρ)) (c : Console ρ) (t : Turn) : Console ρ :=
  let drained := t.available.foldl (readByte services) c
  { drained with device := Reboot.happen services drained.device (.loop t.now t.driver) }

/-- The console as `setup()` leaves it. -/
def booted (d : Device ρ) : Console ρ where
  device := d
  readLine := []
  lineEndingSeen := false
  events := println [] ++ println (lit "esp32shell serial bring-up") ++
    println (lit "Type 'help' for commands.") ++ [.wrote (lit "esp32shell> ")]
  readLine_le := Nat.zero_le _

/-- The console after a number of turns. -/
def afterTurns (services : DeviceServices (Device ρ)) (d : Device ρ) (turns : List Turn) : Console ρ :=
  turns.foldl (loop services) (booted d)

/-- The bytes that the turns take. -/
def typed (turns : List Turn) : List UInt8 := turns.flatMap Turn.available

/-! ### One byte -/

/-- A line with a character other than space and tab. -/
def nonBlank (line : Text) : Bool := line.any fun b => !isBlank b

/-- What the loop has dispatched that is not blank. -/
def entered (events : List Event) : List Text := (dispatchedTexts events).filter nonBlank

theorem entered_append (xs ys : List Event) : entered (xs ++ ys) = entered xs ++ entered ys := by
  simp [entered]

/-- What the loop keeps of a line, as a C string. -/
def cut (bytes : List UInt8) : Text := cString (bytes.take (maxCommandLength + 1))

/-- The console has the bytes of an unfinished line, after the given byte. -/
structure Collects (c : Console ρ) (previous : Option UInt8) (bytes : List UInt8) : Prop where
  readLine_eq : c.readLine = bytes.take (maxCommandLength + 1)
  seen_iff : c.lineEndingSeen = true ↔ previous = some carriageReturn
  nil_of_seen : c.lineEndingSeen = true → bytes = []

/-- While the guard is up, the line is empty. -/
theorem Collects.empty_of_seen {c : Console ρ} {previous : Option UInt8} {bytes : List UInt8}
    (h : Collects c previous bytes) (hseen : c.lineEndingSeen = true) : c.readLine = [] := by
  rw [h.readLine_eq, h.nil_of_seen hseen, List.take_nil]

theorem quiet_println (text : Text) : Quiet (println text) := by simp [Quiet, println]

theorem entered_of_quiet {events : List Event} (h : Quiet events) : entered events = [] := by
  rw [entered, h.dispatchedTexts_eq, List.filter_nil]

/-- What is entered by a line, whatever is called and written for it. -/
theorem entered_line (events : List Event) (text : Text) (calls : List ServiceCall) (lines : List Text)
    {behind : List Event} (hsilent : entered behind = []) :
    entered (events ++ println [] ++ .dispatched text :: calls.map .called ++ lines.flatMap println ++ behind) =
      entered events ++ [text].filter nonBlank := by
  have hcalls : entered (calls.map Event.called) = [] := by
    simp [entered, dispatchedTexts, List.filterMap_map]
  have hlines : Quiet (lines.flatMap println) := by
    intro e he
    obtain ⟨line, -, hmem⟩ := List.mem_flatMap.mp he
    exact quiet_println line e hmem
  have hsplit : ∀ xs : List Event, entered (.dispatched text :: xs) =
      [text].filter nonBlank ++ entered xs := fun xs => by
    rw [← List.singleton_append, entered_append]
    rfl
  simp only [List.append_assoc, List.cons_append]
  rw [entered_append, entered_append, hsplit, entered_append, entered_append, hcalls,
    entered_of_quiet (quiet_println []), entered_of_quiet hlines, hsilent]
  simp

theorem entered_dispatchLine (services : DeviceServices (Device ρ)) (c : Console ρ) :
    entered (dispatchLine services c).events =
      entered c.events ++ [cString c.readLine].filter nonBlank :=
  entered_line c.events _ _ _ (by simp [entered, dispatchedTexts])

theorem entered_received (events : List Event) (b : UInt8) :
    entered (events ++ [.received b]) = entered events := by
  rw [entered_append]
  simp [entered, dispatchedTexts]

/-- The lines that are not blank, as the loop keeps them. -/
def entries (lines : List PhysicalLine) : List Text := (lines.map fun l => cut l.bytes).filter nonBlank

theorem entries_cons (l : PhysicalLine) (lines : List PhysicalLine) :
    entries (l :: lines) = [cut l.bytes].filter nonBlank ++ entries lines := by
  rw [entries, List.map_cons, ← List.singleton_append, List.filter_append, entries]

/-- A byte that ends no line joins the line, as far as it fits. -/
theorem Collects.edit {c : Console ρ} {previous : Option UInt8} {bytes : List UInt8}
    (h : Collects c previous bytes) (services : DeviceServices (Device ρ)) {b : UInt8}
    (hb : isEnding b = false) : Collects (readByte services c b) (some b) (bytes ++ [b]) ∧
      entered (readByte services c b).events = entered c.events := by
  have hne : ¬ (b = carriageReturn ∨ b = lineFeed) := by simpa [isEnding] using hb
  have hcr : some b ≠ some carriageReturn := fun he => hne (.inl (Option.some_inj.mp he))
  have hlength := congrArg List.length h.readLine_eq
  rw [List.length_take] at hlength
  by_cases hroom : c.readLine.length < maxCommandLength + 1
  · simp only [readByte, if_neg hne, dif_pos hroom]
    refine ⟨⟨?_, by simp [hcr], by simp⟩, ?_⟩
    · show c.readLine ++ [b] = _
      rw [h.readLine_eq, List.take_of_length_le (by omega), List.take_of_length_le]
      rw [List.length_append, List.length_singleton]
      omega
    · rw [entered_append, entered_received]
      simp [entered, dispatchedTexts]
  · simp only [readByte, if_neg hne, dif_neg hroom]
    have hseen : ¬ c.lineEndingSeen = true := by
      intro hseen
      have hnil := h.nil_of_seen hseen
      rw [hnil, List.length_nil, Nat.min_zero] at hlength
      omega
    refine ⟨⟨?_, by simp [hseen, hcr], fun hs => absurd hs hseen⟩, ?_⟩
    · show c.readLine = _
      rw [h.readLine_eq, List.take_append_of_le_length (by omega)]
    · exact entered_received c.events b

/-- A line ending dispatches the line unless the guard is up; then the line is empty. -/
theorem Collects.ending {c : Console ρ} {previous : Option UInt8} {bytes : List UInt8}
    (h : Collects c previous bytes) (services : DeviceServices (Device ρ)) {b : UInt8}
    (hb : isEnding b = true) : Collects (readByte services c b) (some b) [] ∧
      entered (readByte services c b).events = entered c.events ++ [cut bytes].filter nonBlank := by
  have hend : b = carriageReturn ∨ b = lineFeed := by simpa [isEnding] using hb
  have hreceived := entered_received c.events b
  cases hseen : c.lineEndingSeen with
  | true =>
    have hnil := h.nil_of_seen hseen
    have hempty := h.empty_of_seen hseen
    simp only [readByte, if_pos hend, hseen, if_true]
    refine ⟨⟨?_, by simp, fun _ => rfl⟩, ?_⟩
    · rw [hempty, List.take_nil]
    · rw [hreceived, hnil]
      exact (List.append_nil _).symm
  | false =>
    simp only [readByte, if_pos hend, hseen, Bool.false_eq_true, if_false]
    refine ⟨⟨rfl, by simp, fun _ => rfl⟩, ?_⟩
    rw [entered_dispatchLine, hreceived, h.readLine_eq, cut]

/-- The bytes behind the last line ending of a stream. -/
def unfinished (stream : List UInt8) : List UInt8 := stream.rtakeWhile fun b => !isEnding b

theorem unfinished_edit (stream : List UInt8) {b : UInt8} (hb : isEnding b = false) :
    unfinished (stream ++ [b]) = unfinished stream ++ [b] :=
  List.rtakeWhile_concat_pos _ _ _ (by rw [hb]; rfl)

theorem unfinished_ending (stream : List UInt8) {b : UInt8} (hb : isEnding b = true) :
    unfinished (stream ++ [b]) = [] :=
  List.rtakeWhile_concat_neg _ _ _ (by rw [hb]; exact Bool.false_ne_true)

/-- Bytes that end no line join the unfinished one. -/
theorem unfinished_append (stream : List UInt8) {bytes : List UInt8} (h : ∀ b ∈ bytes, isEnding b = false) :
    unfinished (stream ++ bytes) = unfinished stream ++ bytes := by
  induction bytes using List.reverseRecOn with
  | nil => rw [List.append_nil, List.append_nil]
  | append_singleton bytes b ih =>
    have hrest := ih fun x hx => h x (List.mem_append_left _ hx)
    rw [← List.append_assoc, unfinished_edit _ (h b (by simp)), hrest, List.append_assoc]

/-- Behind a stream, the console has the bytes of its unfinished line. -/
def Read (c : Console ρ) (stream : List UInt8) : Prop := Collects c stream.getLast? (unfinished stream)

theorem Read.byte {c : Console ρ} {stream : List UInt8} (h : Read c stream)
    (services : DeviceServices (Device ρ)) (b : UInt8) : Read (readByte services c b) (stream ++ [b]) := by
  rw [Read, List.getLast?_concat]
  cases hb : isEnding b with
  | false =>
    rw [unfinished_edit stream hb]
    exact (h.edit services hb).1
  | true =>
    rw [unfinished_ending stream hb]
    exact (h.ending services hb).1

theorem Read.bytes {c : Console ρ} {stream : List UInt8} (h : Read c stream)
    (services : DeviceServices (Device ρ)) (bytes : List UInt8) :
    Read (bytes.foldl (readByte services) c) (stream ++ bytes) := by
  induction bytes generalizing c stream with
  | nil => rwa [List.append_nil]
  | cons b bytes ih =>
    have hrest := ih (h.byte services b)
    rwa [List.append_assoc] at hrest

theorem Read.turns {c : Console ρ} {stream : List UInt8} (h : Read c stream)
    (services : DeviceServices (Device ρ)) (turns : List Turn) :
    Read (turns.foldl (loop services) c) (stream ++ typed turns) := by
  induction turns generalizing c stream with
  | nil => rwa [typed, List.flatMap_nil, List.append_nil]
  | cons t turns ih =>
    have hdrained := h.bytes services t.available
    have hturn : Read (loop services c t) (stream ++ t.available) := ⟨hdrained.1, hdrained.2, hdrained.3⟩
    have hrest := ih hturn
    rwa [List.append_assoc] at hrest

theorem read_booted (d : Device ρ) : Read (booted d) [] := ⟨rfl, by simp [booted], by simp [booted]⟩

theorem read_afterTurns (services : DeviceServices (Device ρ)) (d : Device ρ) (turns : List Turn) :
    Read (afterTurns services d turns) (typed turns) := (read_booted d).turns services turns

/-- A byte that is typed, in the turn that takes it. -/
theorem typed_cut {turns : List Turn} {stream after : List UInt8} {b : UInt8}
    (h : typed turns = stream ++ b :: after) : ∃ past t rest front back,
      turns = past ++ t :: rest ∧ t.available = front ++ b :: back ∧ stream = typed past ++ front ∧
      after = back ++ typed rest := by
  induction turns generalizing stream with
  | nil => simp [typed] at h
  | cons t turns ih =>
    have happend : t.available ++ typed turns = stream ++ b :: after := h
    rcases List.append_eq_append_iff.mp happend with ⟨more, hstream, htyped⟩ | ⟨more, hfront, hback⟩
    · obtain ⟨past, t', rest, front, back, rfl, havailable, rfl, hafter⟩ := ih htyped
      refine ⟨t :: past, t', rest, front, back, rfl, havailable, ?_, hafter⟩
      rw [hstream]
      exact (List.append_assoc _ _ _).symm
    · cases more with
      | nil =>
        have hnext : typed turns = [] ++ b :: after := hback.symm
        obtain ⟨past, t', rest, front, back, rfl, havailable, hempty, hafter⟩ := ih hnext
        refine ⟨t :: past, t', rest, front, back, rfl, havailable, ?_, hafter⟩
        have hwhole : t.available = stream := by rw [hfront, List.append_nil]
        show stream = (t.available ++ typed past) ++ front
        rw [List.append_assoc, ← hempty, List.append_nil, hwhole]
      | cons x more =>
        obtain ⟨rfl, hafter⟩ := List.cons_eq_cons.mp hback
        exact ⟨[], t, turns, stream, more, rfl, hfront, rfl, hafter⟩

/-- One byte: the console goes on collecting, and has entered what the reference reads. -/
theorem Collects.step {c : Console ρ} {previous : Option UInt8} {bytes : List UInt8}
    (h : Collects c previous bytes) (services : DeviceServices (Device ρ)) (afterReturn : Bool)
    (b : UInt8) : ∃ afterReturn' bytes', Collects (readByte services c b) (some b) bytes' ∧
      ∀ stream, entered (readByte services c b).events ++
          entries (physicalLinesFrom (some b) afterReturn' bytes' stream) =
        entered c.events ++ entries (physicalLinesFrom previous afterReturn bytes (b :: stream)) := by
  cases hb : isEnding b with
  | false =>
    obtain ⟨hcollects, hentered⟩ := h.edit services hb
    refine ⟨afterReturn, bytes ++ [b], hcollects, fun stream => ?_⟩
    rw [hentered, lines_cons_edit hb]
  | true =>
    obtain ⟨hcollects, hentered⟩ := h.ending services hb
    have hend : b = carriageReturn ∨ b = lineFeed := by simpa [isEnding] using hb
    by_cases hpair : b = lineFeed ∧ previous = some carriageReturn
    · -- the second half of CR LF
      have hnil := h.nil_of_seen (h.seen_iff.mpr hpair.2)
      refine ⟨false, [], hcollects, fun stream => ?_⟩
      rw [hentered, hnil, physicalLinesFrom, if_neg (by simp [hpair, lineFeed, carriageReturn]),
        if_pos hpair.1]
      exact congrArg (· ++ _) (List.append_nil _)
    · have hreal : b = carriageReturn ∨ (b = lineFeed ∧ previous ≠ some carriageReturn) :=
        hend.imp_right fun hlf => ⟨hlf, fun hprevious => hpair ⟨hlf, hprevious⟩⟩
      refine ⟨b = carriageReturn, [], hcollects, fun stream => ?_⟩
      rw [hentered, lines_cons_ending hreal, entries_cons, List.append_assoc]

/-- However the bytes are cut into turns, the loop enters the lines of the stream. -/
theorem entered_turns (services : DeviceServices (Device ρ)) (turns : List Turn) {c : Console ρ}
    {previous : Option UInt8} {bytes : List UInt8} (h : Collects c previous bytes) (afterReturn : Bool) :
    entered (turns.foldl (loop services) c).events =
      entered c.events ++ entries (physicalLinesFrom previous afterReturn bytes (typed turns)) := by
  induction turns generalizing c previous bytes afterReturn with
  | nil => exact (List.append_nil _).symm
  | cons t turns ih =>
    obtain ⟨available, now, driver⟩ := t
    induction available generalizing c previous bytes afterReturn with
    | nil => exact ih (c := loop services c ⟨[], now, driver⟩) ⟨h.1, h.2, h.3⟩ afterReturn
    | cons b available ihByte =>
      obtain ⟨afterReturn', bytes', hcollects, hlines⟩ := h.step services afterReturn b
      have hrest := ihByte hcollects afterReturn'
      exact hrest.trans (hlines (typed (⟨available, now, driver⟩ :: turns)))

theorem entered_afterTurns (services : DeviceServices (Device ρ)) (d : Device ρ) (turns : List Turn) :
    entered (afterTurns services d turns).events = entries (physicalLines (typed turns)) := by
  have hbooted : Collects (booted d) none [] := read_booted d
  have hsilent : entered (booted d).events = [] :=
    entered_of_quiet (by simp [Quiet, booted, println])
  rw [afterTurns, entered_turns services turns hbooted false, hsilent, List.nil_append]
  rfl

/-! ### The device in a line -/

/-- A byte that ends no line reaches no service. -/
theorem device_byte (services : DeviceServices (Device ρ)) (c : Console ρ) {b : UInt8}
    (hb : isEnding b = false) : (readByte services c b).device = c.device := by
  have hne : ¬ (b = carriageReturn ∨ b = lineFeed) := by simpa [isEnding] using hb
  rw [readByte, if_neg hne]
  split <;> rfl

theorem device_bytes (services : DeviceServices (Device ρ)) (c : Console ρ) {bytes : List UInt8}
    (h : ∀ b ∈ bytes, isEnding b = false) : (bytes.foldl (readByte services) c).device = c.device := by
  induction bytes generalizing c with
  | nil => rfl
  | cons b bytes ih =>
    rw [List.foldl_cons, ih _ fun x hx => h x (List.mem_cons_of_mem b hx),
      device_byte services c (h b List.mem_cons_self)]

/-- The Wi-Fi service, which has its turn behind the bytes, stores nothing. -/
theorem preferences_loop (services : DeviceServices (Device ρ)) (c : Console ρ) (t : Turn) :
    (loop services c t).device.preferences_ =
      (t.available.foldl (readByte services) c).device.preferences_ := rfl

theorem preferences_turns (services : DeviceServices (Device ρ)) (c : Console ρ) {turns : List Turn}
    (h : ∀ b ∈ typed turns, isEnding b = false) :
    (turns.foldl (loop services) c).device.preferences_ = c.device.preferences_ := by
  induction turns generalizing c with
  | nil => rfl
  | cons t turns ih =>
    have hfirst : ∀ b ∈ t.available, isEnding b = false := fun b hb =>
      h b (List.mem_append_left _ hb)
    have hrest : ∀ b ∈ typed turns, isEnding b = false := fun b hb =>
      h b (List.mem_append_right _ hb)
    rw [List.foldl_cons, ih _ hrest, preferences_loop, device_bytes services c hfirst]

/-- The ending of a line that is not empty dispatches it. -/
theorem device_ending {services : DeviceServices (Device ρ)} {c : Console ρ} {stream : List UInt8}
    {b : UInt8} (h : Read c stream) (hne : unfinished stream ≠ []) (hb : isEnding b = true) :
    (readByte services c b).device = (dispatch services c.device
      (some ((unfinished stream).take (maxCommandLength + 1)))).device := by
  have hend : b = carriageReturn ∨ b = lineFeed := by simpa [isEnding] using hb
  have hseen : ¬ c.lineEndingSeen = true := fun hseen => hne (h.nil_of_seen hseen)
  rw [readByte, if_pos hend, if_neg hseen, ← h.readLine_eq]
  rfl

/-- A line that is typed in front of an empty buffer, in any turns, does to the preferences what its
dispatch does. -/
theorem preferences_line (services : DeviceServices (Device ρ)) {c : Console ρ} (hempty : c.readLine = [])
    {turns : List Turn} {bytes : List UInt8} {ending : UInt8} (hbytes : ∀ b ∈ bytes, isEnding b = false)
    (hne : bytes ≠ []) (hending : isEnding ending = true) (h : typed turns = bytes ++ [ending]) :
    ∃ d : Device ρ, d.preferences_ = c.device.preferences_ ∧
      (turns.foldl (loop services) c).device.preferences_ =
        (dispatch services d (some (bytes.take (maxCommandLength + 1)))).device.preferences_ := by
  obtain ⟨past, t, rest, front, back, rfl, havailable, rfl, hafter⟩ := typed_cut h
  obtain ⟨rfl, hrest⟩ := List.append_eq_nil_iff.mp hafter.symm
  -- the guard is up where the byte before was a CR
  obtain ⟨stream, hread, hstream⟩ : ∃ stream, Read c stream ∧ unfinished stream = [] := by
    cases hseen : c.lineEndingSeen with
    | true => exact ⟨[carriageReturn], ⟨hempty, iff_of_true hseen rfl, fun _ => rfl⟩, rfl⟩
    | false => exact ⟨[], ⟨hempty, iff_of_false (by simp [hseen]) (by simp), fun _ => rfl⟩, rfl⟩
  have hbefore := (hread.turns services past).bytes services front
  have hline : unfinished (stream ++ typed past ++ front) = typed past ++ front := by
    rw [List.append_assoc, unfinished_append stream hbytes, hstream, List.nil_append]
  refine ⟨(front.foldl (readByte services) (past.foldl (loop services) c)).device, ?_, ?_⟩
  · rw [device_bytes services _ fun b hb => hbytes b (List.mem_append_right _ hb)]
    exact preferences_turns services c fun b hb => hbytes b (List.mem_append_left _ hb)
  · have hsilent : ∀ b ∈ typed rest, isEnding b = false := by
      rw [hrest]
      exact fun b hb => by cases hb
    rw [List.foldl_append, List.foldl_cons, preferences_turns services _ hsilent, preferences_loop,
      havailable, List.foldl_append, List.foldl_cons, List.foldl_nil,
      device_ending hbefore (by rwa [hline]) hending, hline]

/-! ### Clean input -/

/-- No NUL, BS or DEL. -/
def Clean (stream : List UInt8) : Prop := ∀ b ∈ stream, b ≠ 0 ∧ b ≠ backspace ∧ b ≠ del

/-- Every line has room in the command buffer. -/
def LinesFit (stream : List UInt8) : Prop :=
  ∀ l ∈ physicalLines stream, l.bytes.length ≤ maxCommandLength

theorem mem_line {l : PhysicalLine} (stream : List UInt8) {previous : Option UInt8}
    {afterReturn : Bool} {bytes : List UInt8}
    (h : l ∈ physicalLinesFrom previous afterReturn bytes stream) :
    ∀ b ∈ l.bytes, b ∈ bytes ∨ b ∈ stream := by
  induction stream generalizing previous afterReturn bytes with
  | nil => cases h
  | cons x stream ih =>
    intro b hb
    rw [physicalLinesFrom] at h
    split_ifs at h with hend hskip
    · rcases List.mem_cons.mp h with rfl | h
      · exact .inl hb
      · exact (ih h b hb).imp (fun hnil => by cases hnil) (List.mem_cons_of_mem x)
    · exact (ih h b hb).imp_right (List.mem_cons_of_mem x)
    · rcases ih h b hb with hm | hm
      · rcases List.mem_append.mp hm with hm | hm
        · exact .inl hm
        · exact .inr (List.mem_singleton.mp hm ▸ List.mem_cons_self)
      · exact .inr (List.mem_cons_of_mem x hm)

theorem edited_clean {bytes : List UInt8} (h : ∀ b ∈ bytes, isErase b = false) : edited bytes = bytes := by
  induction bytes using List.reverseRecOn with
  | nil => rfl
  | append_singleton bytes b ih =>
    rw [edited_append, editStep, h b (by simp), if_neg Bool.false_ne_true,
      ih fun b hb => h b (by simp [hb])]

/-- A line that closes the session is not blank. -/
theorem nonBlank_of_closes {command : Text} (h : closesSession command = true) :
    nonBlank command = true := by
  have hsub : ∀ b ∈ Shell.CommandTable.trimmed command, b ∈ command := fun b hb =>
    (List.takeWhile_sublist _).subset ((List.dropWhile_sublist _).subset
      ((Shell.CommandTable.trimmed_begins command).subset hb))
  rw [closesSession, Bool.or_eq_true, beq_iff_eq, beq_iff_eq] at h
  rw [nonBlank, List.any_eq_true]
  rcases h with hexit | hquit
  · exact ⟨101, hsub 101 (by rw [hexit]; decide), by decide⟩
  · exact ⟨113, hsub 113 (by rw [hquit]; decide), by decide⟩

/-- Both front ends dispatch the bytes of a clean line. -/
theorem clean_line {stream : List UInt8} (hclean : Clean stream) (hfit : LinesFit stream)
    {l : PhysicalLine} (hl : l ∈ physicalLines stream) :
    edited l.bytes = l.bytes ∧ cString l.bytes = l.bytes ∧ cut l.bytes = l.bytes := by
  have hbytes : ∀ b ∈ l.bytes, b ≠ 0 ∧ b ≠ backspace ∧ b ≠ del := fun b hb =>
    hclean b ((mem_line stream hl b hb).resolve_left List.not_mem_nil)
  have hnul : cString l.bytes = l.bytes :=
    (cString_eq_self_iff l.bytes).mpr fun h => (hbytes 0 h).1 rfl
  refine ⟨edited_clean fun b hb => ?_, hnul, ?_⟩
  · simpa [isErase] using (hbytes b hb).2
  · have hlength := hfit l hl
    rw [cut, List.take_of_length_le (by omega), hnul]

theorem fits_of_linesFit {stream : List UInt8} (hfit : LinesFit stream) : Fits stream := by
  intro l hl hlong
  obtain ⟨begun, hprefix, hlength⟩ := hlong
  have hedited := edited_length_le begun
  have hbytes := hprefix.length_le
  have hline := hfit l hl
  omega

/-- A line that the session overlooks is blank. -/
theorem filter_overlooked (lines : List PhysicalLine) :
    ((lines.filter fun l => !l.swallowed).map fun l => edited l.bytes).filter nonBlank =
      (lines.map fun l => edited l.bytes).filter nonBlank := by
  rw [List.filter_map, List.filter_map, List.filter_filter]
  refine congrArg _ (List.filter_congr fun l _ => ?_)
  cases hs : l.swallowed with
  | false => exact Bool.and_true _
  | true =>
    rw [PhysicalLine.swallowed, Bool.and_eq_true, Bool.and_eq_true] at hs
    simp [edited_erases hs.1.2, nonBlank]

/-- What the session dispatches that is not blank. -/
theorem entered_run (services : DeviceServices σ) (device : σ) (polls : List Poll)
    (hclean : Clean (received polls)) (hfit : LinesFit (received polls)) :
    entered (eventsOf (run services true device polls)) =
      takeThrough closesSession (entries (physicalLines (received polls))) := by
  have hread : ∀ l ∈ (linesRead (received polls)).filter fun l => !l.swallowed,
      cString (edited l.bytes) = edited l.bytes := by
    intro l hl
    have hline := (takeThrough_begins _ _).subset (List.mem_filter.mp hl).1
    obtain ⟨hedited, hnul, -⟩ := clean_line hclean hfit hline
    rw [hedited, hnul]
  have htexts : (physicalLines (received polls)).map (fun l => edited l.bytes) =
      (physicalLines (received polls)).map fun l => cut l.bytes := by
    refine List.map_congr_left fun l hl => ?_
    obtain ⟨hedited, -, hcut⟩ := clean_line hclean hfit hl
    rw [hedited, hcut]
  rw [entered, run_dispatched_of_fits services device polls (fits_of_linesFit hfit),
    List.map_congr_left hread, filter_overlooked, ← reference_eq, reference, htexts, entries]
  exact (takeThrough_filter (fun command h => nonBlank_of_closes h) _).symm

/-- On clean input whose lines fit, the serial loop and a session dispatch the same lines that are not
blank, up to and including the first that closes the session. -/
theorem same_line_discipline (services : DeviceServices σ) (device : σ) (polls : List Poll)
    (arduino : DeviceServices (Device ρ)) (d : Device ρ) (turns : List Turn)
    (hstream : received polls = typed turns) (hclean : Clean (received polls))
    (hfit : LinesFit (received polls)) :
    (dispatchedTexts (eventsOf (run services true device polls))).filter nonBlank =
      takeThrough closesSession
        ((dispatchedTexts (afterTurns arduino d turns).events).filter nonBlank) := by
  have hsession := entered_run services device polls hclean hfit
  rw [hstream, ← entered_afterTurns arduino d turns] at hsession
  exact hsession

/-- `heap` CR CR LF `exit` LF `uptime` CR, cut differently. -/
theorem same_line_discipline_heap :
    (dispatchedTexts (eventsOf (run Shell.Routing.silent true ()
      [chunk (lit "heap\r\r") (by decide), chunk (lit "\nexit\nuptime\r") (by decide)]))).filter nonBlank =
    takeThrough closesSession ((dispatchedTexts (afterTurns quiet blank
      [⟨lit "heap", 0, ⟨false, false⟩⟩, ⟨lit "\r\r\nexit\nuptime\r", 5, ⟨false, false⟩⟩]).events).filter
        nonBlank) := by
  refine same_line_discipline _ _ _ _ _ _ (by decide) ?_ (fun l hl => ?_)
  · unfold Clean
    decide +kernel
  · have hbytes := bytes_length_le _ hl
    exact hbytes.trans (by decide)

end Esp32Shell.Arduino.SerialLoop
