import Esp32Shell.Arduino.Sketch

/-!
# The lines of a console that restarts

A line that calls `reboot` ends the bytes that are read, and the next ones are
read from the start. A reader of the typed bytes tells the lines that are entered,
and a property that every line and every turn keep holds between them and the
device.
-/
namespace Esp32Shell.Arduino.ConsoleLines

open Esp32Shell.Library.CText Esp32Shell.Library.Feed
open Shell.CommandCore Shell.CommandTable Shell.CommandLines Shell.LineReading
open Shell.Session (carriageReturn lineFeed)
open WifiService Esp32Services Sketch
open SerialLoop hiding readByte loop afterTurns

/-! ### The lines of a stream -/

theorem unfinished_of_return {stream : List UInt8} (h : stream.getLast? = some Shell.Session.carriageReturn) :
    unfinished stream = [] := by
  obtain ⟨rest, rfl⟩ := List.getLast?_eq_some_iff.mp h
  exact unfinished_ending rest rfl

/-- The lines of a stream that goes on, from its unfinished line on. -/
theorem physicalLines_append (stream : List UInt8) : ∃ afterReturn, ∀ more,
    physicalLines (stream ++ more) = physicalLines stream ++
      physicalLinesFrom stream.getLast? afterReturn (unfinished stream) more := by
  induction stream using List.reverseRecOn with
  | nil => exact ⟨false, fun more => rfl⟩
  | append_singleton stream b ih =>
    obtain ⟨afterReturn, hlines⟩ := ih
    have hone := hlines [b]
    cases hb : isEnding b with
    | false =>
      refine ⟨afterReturn, fun more => ?_⟩
      rw [List.append_assoc, List.singleton_append, hlines, hone, lines_cons_edit hb, lines_cons_edit hb,
        unfinished_edit stream hb, List.getLast?_concat, List.append_assoc]
      rfl
    | true =>
      have hend : b = Shell.Session.carriageReturn ∨ b = Shell.Session.lineFeed := by
        simpa [isEnding] using hb
      refine ⟨b = Shell.Session.carriageReturn, fun more => ?_⟩
      rw [List.append_assoc, List.singleton_append, hlines, hone, unfinished_ending stream hb,
        List.getLast?_concat, List.append_assoc]
      by_cases hpair : b = Shell.Session.lineFeed ∧ stream.getLast? = some Shell.Session.carriageReturn
      · -- the second half of CR LF
        obtain ⟨rfl, hreturn⟩ := hpair
        rw [hreturn, unfinished_of_return hreturn]
        rfl
      · have hreal : b = Shell.Session.carriageReturn ∨
            (b = Shell.Session.lineFeed ∧ stream.getLast? ≠ some Shell.Session.carriageReturn) :=
          hend.imp_right fun hlf => ⟨hlf, fun hreturn => hpair ⟨hlf, hreturn⟩⟩
        rw [lines_cons_ending hreal, lines_cons_ending hreal]
        rfl

theorem entries_concat (xs ys : List PhysicalLine) : entries (xs ++ ys) = entries xs ++ entries ys := by
  rw [entries, List.map_append, List.filter_append, entries, entries]

theorem entries_edit (stream : List UInt8) {b : UInt8} (hb : isEnding b = false) :
    entries (physicalLines (stream ++ [b])) = entries (physicalLines stream) := by
  obtain ⟨afterReturn, hlines⟩ := physicalLines_append stream
  rw [hlines, entries_concat, lines_cons_edit hb]
  exact List.append_nil _

/-- An ending enters the unfinished line, which is empty behind the CR of a CR LF. -/
theorem entries_ending (stream : List UInt8) {b : UInt8} (hb : isEnding b = true) :
    entries (physicalLines (stream ++ [b])) =
      entries (physicalLines stream) ++ [cut (unfinished stream)].filter nonBlank := by
  obtain ⟨afterReturn, hlines⟩ := physicalLines_append stream
  have hend : b = carriageReturn ∨ b = lineFeed := by simpa [isEnding] using hb
  rw [hlines, entries_concat]
  by_cases hpair : b = lineFeed ∧ stream.getLast? = some carriageReturn
  · obtain ⟨rfl, hreturn⟩ := hpair
    rw [hreturn, unfinished_of_return hreturn]
    rfl
  · rw [lines_cons_ending (hend.imp_right fun hlf => ⟨hlf, fun hreturn => hpair ⟨hlf, hreturn⟩⟩), entries_cons]
    exact congrArg _ (List.append_nil _)

/-! ### Lines that are sent -/

/-- A line, as a tool sends it. -/
def Sendable (line : Text) : Prop :=
  line ≠ [] ∧ line.length ≤ maxCommandLength ∧ ∀ b ∈ line, b ≠ 0 ∧ isEnding b = false

theorem lines_sent {line : Text} (h : ∀ b ∈ line, isEnding b = false) (hne : line ≠ [])
    (previous : Option UInt8) (afterReturn : Bool) (held more : List UInt8) :
    physicalLinesFrom previous afterReturn held (line ++ lineFeed :: more) =
      ⟨afterReturn, held ++ line, lineFeed⟩ ::
        physicalLinesFrom (some lineFeed) false [] more := by
  induction line generalizing previous held with
  | nil => exact absurd rfl hne
  | cons b line ih =>
    have hb := h b List.mem_cons_self
    rw [List.cons_append, lines_cons_edit hb]
    by_cases hlast : line = []
    · subst hlast
      refine lines_cons_ending (.inr ⟨rfl, fun hreturn => ?_⟩)
      rw [Option.some_inj.mp hreturn] at hb
      cases hb
    · rw [ih (fun x hx => h x (List.mem_cons_of_mem b hx)) hlast, List.append_assoc]
      rfl

/-- What is entered of lines that are sent behind others. -/
theorem entries_sent {lines : List Text} (h : ∀ line ∈ lines, Sendable line ∧ nonBlank line = true)
    (previous : Option UInt8) (afterReturn : Bool) :
    entries (physicalLinesFrom previous afterReturn []
      (lines.flatMap fun line => line ++ [lineFeed])) = lines := by
  induction lines generalizing previous afterReturn with
  | nil => rfl
  | cons line lines ih =>
    obtain ⟨⟨hne, hlength, hbytes⟩, hblank⟩ := h line List.mem_cons_self
    have hcut : cut line = line := by
      have hzero : 0 ∉ line := fun h0 => (hbytes 0 h0).1 rfl
      rw [cut, List.take_of_length_le (Nat.le_succ_of_le hlength), (cString_eq_self_iff line).mpr hzero]
    rw [List.flatMap_cons, List.append_assoc, List.singleton_append,
      lines_sent (fun b hb => (hbytes b hb).2) hne, entries_cons,
      ih (fun x hx => h x (List.mem_cons_of_mem line hx)), List.nil_append, hcut,
      List.filter_cons_of_pos hblank, List.filter_nil, List.singleton_append]

/-- What is entered of lines that are sent behind a whole one. -/
theorem entries_append {held : List UInt8} (hfresh : unfinished held = []) {lines : List Text}
    (h : ∀ line ∈ lines, Sendable line ∧ nonBlank line = true) :
    entries (physicalLines (held ++ lines.flatMap fun line => line ++ [lineFeed])) =
      entries (physicalLines held) ++ lines := by
  obtain ⟨afterReturn, hlines⟩ := physicalLines_append held
  rw [hlines, hfresh, entries_concat, entries_sent h]

/-! ### Lines that restart -/

theorem reboots_cString (input : List UInt8) : reboots (cString input) = reboots input := by
  simp only [reboots, route, cString_cString]

theorem route_blank {input : List UInt8} (h : nonBlank (cString input) = false) :
    route input = .say [] .empty := by
  have hblank : ∀ b ∈ cString input, isBlank b = true := by
    simpa [nonBlank] using h
  have hstripped : stripped input = [] := List.dropWhile_eq_nil_iff.mpr hblank
  have htrimmed : trimmed input = [] := by rw [trimmed, hstripped]; rfl
  rw [route_eq, if_pos htrimmed]

theorem nonBlank_of_reboots {input : List UInt8} (h : reboots input = true) :
    nonBlank (cString input) = true := by
  by_contra hblank
  rw [reboots, route_blank (Bool.eq_false_iff.mpr hblank)] at h
  cases h

/-- A line that restarts leaves the device that starts next. -/
theorem dispatch_reboots {input : List UInt8} (h : reboots input = true) (d : Image) :
    (dispatch sketch d (some input)).device = restarted d := by
  unfold reboots at h
  rw [dispatch]
  split at h
  next hroute =>
    rw [hroute]
    rfl
  next hroute =>
    rw [hroute]
    rfl
  next => cases h

theorem call_of_runs {input : List UInt8} (h : reboots input = false) {call : ServiceCall}
    (hroute : route input = .invoke call ∨ route input = .ask call) : call ≠ .reboot := by
  rintro rfl
  rcases hroute with hroute | hroute
  · rw [reboots, hroute] at h
    cases h
  · rw [reboots, hroute] at h
    cases h

/-- The lines since the last one that restarts. -/
def sinceReboot (lines : List Text) : List Text := lines.rtakeWhile fun line => !reboots line

/-- The lines through the last one that restarts. -/
def untilReboot (lines : List Text) : List Text := lines.rdropWhile fun line => !reboots line

section
variable {line : Text}

theorem sinceReboot_of_reboots (lines : List Text) (h : reboots line = true) :
    sinceReboot (lines ++ [line]) = [] := List.rtakeWhile_concat_neg _ _ _ (by simp [h])

theorem untilReboot_of_reboots (lines : List Text) (h : reboots line = true) :
    untilReboot (lines ++ [line]) = lines ++ [line] := List.rdropWhile_concat_neg _ _ _ (by simp [h])

theorem sinceReboot_of_runs (lines : List Text) (h : reboots line = false) :
    sinceReboot (lines ++ [line]) = sinceReboot lines ++ [line] :=
  List.rtakeWhile_concat_pos _ _ _ (by simp [h])

theorem untilReboot_of_runs (lines : List Text) (h : reboots line = false) :
    untilReboot (lines ++ [line]) = untilReboot lines := List.rdropWhile_concat_pos _ _ _ (by simp [h])

end

/-! ### The reader -/

/-- The lines that were entered before the last restart, and the bytes behind it. -/
structure Typed where
  lines : List Text
  held : List UInt8

/-- One more turn, of which nothing behind a restart is read. -/
def Typed.turn (r : Typed) (t : Turn) : Typed :=
  let lines := entries (physicalLines (r.held ++ t.available))
  if lines.any reboots then ⟨r.lines ++ takeThrough reboots lines, []⟩
  else ⟨r.lines, r.held ++ t.available⟩

/-- All the lines so far. -/
def Typed.all (r : Typed) : List Text := r.lines ++ entries (physicalLines r.held)

/-- The reader after a number of turns. -/
def reader (turns : List Turn) : Typed := turns.foldl Typed.turn ⟨[], []⟩

/-- The lines that the turns enter. -/
def linesTyped (turns : List Turn) : List Text := (reader turns).all

theorem reader_append (earlier turns : List Turn) :
    reader (earlier ++ turns) = turns.foldl Typed.turn (reader earlier) := List.foldl_append

/-- Turns in which no line restarts are read as their bytes. -/
theorem Typed.runs {r : Typed} {turns : List Turn}
    (h : ∀ line ∈ entries (physicalLines (r.held ++ typed turns)), reboots line = false) :
    turns.foldl Typed.turn r = ⟨r.lines, r.held ++ typed turns⟩ := by
  induction turns generalizing r with
  | nil => exact congrArg (Typed.mk r.lines) (List.append_nil r.held).symm
  | cons t turns ih =>
    have hbytes : r.held ++ typed (t :: turns) = (r.held ++ t.available) ++ typed turns :=
      (List.append_assoc _ _ _).symm
    rw [hbytes] at h
    have hfirst : (entries (physicalLines (r.held ++ t.available))).any reboots = false := by
      obtain ⟨afterReturn, hlines⟩ := physicalLines_append (r.held ++ t.available)
      rw [hlines, entries_concat] at h
      exact List.any_eq_false.mpr fun line hline => by simp [h line (List.mem_append_left _ hline)]
    have hturn : r.turn t = ⟨r.lines, r.held ++ t.available⟩ := by
      rw [Typed.turn, hfirst, if_neg Bool.false_ne_true]
    rw [List.foldl_cons, hturn, hbytes]
    exact ih h

theorem reader_runs (turns : List Turn) :
    ∀ line ∈ entries (physicalLines (reader turns).held), reboots line = false := by
  induction turns using List.reverseRecOn with
  | nil => exact List.forall_mem_nil _
  | append_singleton turns t ih =>
    rw [reader_append, List.foldl_cons, List.foldl_nil, Typed.turn]
    split
    next => exact List.forall_mem_nil _
    next hnone =>
      intro line hline
      by_contra hreboots
      exact hnone (List.any_eq_true.mpr ⟨line, hline, Bool.eq_true_of_not_eq_false hreboots⟩)

/-- Lines that are sent in turns of their own, behind turns that leave no half line. -/
theorem linesTyped_sent {earlier sending : List Turn} (hfresh : unfinished (reader earlier).held = [])
    {lines : List Text} (h : ∀ line ∈ lines, Sendable line ∧ nonBlank line = true)
    (hruns : ∀ line ∈ lines, reboots line = false)
    (hsent : typed sending = lines.flatMap fun line => line ++ [lineFeed]) :
    linesTyped (earlier ++ sending) = linesTyped earlier ++ lines := by
  have hentries : entries (physicalLines ((reader earlier).held ++ typed sending)) =
      entries (physicalLines (reader earlier).held) ++ lines := by
    rw [hsent]
    exact entries_append hfresh h
  have hall : ∀ line ∈ entries (physicalLines ((reader earlier).held ++ typed sending)), reboots line = false := by
    rw [hentries]
    exact fun line hline => (List.mem_append.mp hline).elim (reader_runs earlier line) (hruns line)
  rw [linesTyped, linesTyped, reader_append, Typed.runs hall, Typed.all, Typed.all, hentries, List.append_assoc]

/-! ### The console behind the reader -/

/-- What is between the entered lines and the device stays so by every line and every restart, and the
Wi-Fi service does not disturb it. -/
structure Carried (R : List Text → Image → Prop) : Prop where
  runs : ∀ lines d line, reboots line = false → R lines d →
    R (lines ++ [line]) (dispatch sketch d (some line)).device
  restarts : ∀ lines d line, reboots line = true → R lines d → R (lines ++ [line]) (restarted d)
  tick : ∀ lines d now driver, R lines d → R lines (Reboot.happen sketch d (.loop now driver))

/-- A line that the loop reads, with or without a character. -/
theorem Carried.line {R : List Text → Image → Prop} (hR : Carried R) {lines : List Text} {d : Image}
    (h : R lines d) (input : List UInt8) : R (lines ++ [cString input].filter nonBlank)
      (dispatch sketch d (some input)).device := by
  have hsame : dispatch sketch d (some input) = dispatch sketch d (some (cString input)) :=
    dispatch_congr sketch d (cString_cString input).symm
  cases hblank : nonBlank (cString input) with
  | false =>
    rw [List.filter_cons_of_neg (by rw [hblank]; exact Bool.false_ne_true), List.filter_nil, List.append_nil,
      dispatch, route_blank hblank]
    exact h
  | true =>
    rw [List.filter_cons_of_pos hblank, List.filter_nil, hsame]
    cases hreboots : reboots (cString input) with
    | false => exact hR.runs lines d _ hreboots h
    | true =>
      rw [dispatch_reboots hreboots]
      exact hR.restarts lines d _ hreboots h

/-- The console has entered the lines of the reader and collects behind them. -/
structure Reads (R : List Text → Image → Prop) (r : Typed) (c : Console Rest) : Prop where
  read : Read c r.held
  entered_eq : entered c.events = r.all
  runs : ∀ line ∈ entries (physicalLines r.held), reboots line = false
  related : R r.all c.device

section
variable {R : List Text → Image → Prop} {r : Typed} {c : Console Rest}

theorem entered_rebooted (c : Console Rest) :
    entered (rebooted c).events = entered c.events ++ [cString c.readLine].filter nonBlank :=
  entered_line c.events _ _ _ (entered_of_quiet (by simp [Quiet, booted, println]))

theorem read_rebooted (c : Console Rest) : Read (rebooted c) [] := by
  obtain ⟨hline, hseen, hnil⟩ := read_booted (dispatch sketch c.device (some c.readLine)).device
  exact ⟨hline, hseen, hnil⟩

/-- The line that an ending enters. -/
theorem Reads.line_eq (h : Reads R r c) : cut (unfinished r.held) = cString c.readLine := by
  rw [h.read.readLine_eq, cut]

theorem Reads.all_ending (h : Reads R r c) {b : UInt8} (hb : isEnding b = true) :
    (Typed.mk r.lines (r.held ++ [b])).all = r.all ++ [cString c.readLine].filter nonBlank := by
  rw [Typed.all, Typed.all, entries_ending r.held hb, h.line_eq, List.append_assoc]

/-- A byte that ends no line. -/
theorem Reads.edit (h : Reads R r c) {b : UInt8} (hb : isEnding b = false) :
    Reads R ⟨r.lines, r.held ++ [b]⟩ (SerialLoop.readByte sketch c b) := by
  have hall : (Typed.mk r.lines (r.held ++ [b])).all = r.all := by
    rw [Typed.all, Typed.all, entries_edit r.held hb]
  refine ⟨h.read.byte sketch b, ?_, ?_, ?_⟩
  · exact ((Collects.edit h.read sketch hb).2.trans h.entered_eq).trans hall.symm
  · rw [entries_edit r.held hb]
    exact h.runs
  · rw [hall, device_byte sketch c hb]
    exact h.related

/-- An ending behind which the console runs on. -/
theorem Reads.ending (hR : Carried R) (h : Reads R r c) {b : UInt8} (hb : isEnding b = true)
    (hruns : c.lineEndingSeen = false → reboots c.readLine = false) :
    Reads R ⟨r.lines, r.held ++ [b]⟩ (SerialLoop.readByte sketch c b) := by
  have hend : b = carriageReturn ∨ b = lineFeed := by simpa [isEnding] using hb
  refine ⟨h.read.byte sketch b, ?_, fun line hline => ?_, ?_⟩
  · rw [(Collects.ending h.read sketch hb).2, h.entered_eq, h.all_ending hb, h.line_eq]
  · rw [entries_ending r.held hb, h.line_eq, List.mem_append] at hline
    rcases hline with hline | hline
    · exact h.runs line hline
    · obtain ⟨hmem, hblank⟩ := List.mem_filter.mp hline
      obtain rfl := List.mem_singleton.mp hmem
      rw [reboots_cString]
      refine hruns (Bool.eq_false_iff.mpr fun hseen => ?_)
      rw [Collects.empty_of_seen h.read hseen] at hblank
      cases hblank
  · rw [h.all_ending hb]
    cases hseen : c.lineEndingSeen with
    | true =>
      have hdevice : (SerialLoop.readByte sketch c b).device = c.device := by
        rw [SerialLoop.readByte, if_pos hend, if_pos hseen]
      rw [hdevice, Collects.empty_of_seen h.read hseen]
      exact (List.append_nil r.all).symm ▸ h.related
    | false =>
      have hdevice : (SerialLoop.readByte sketch c b).device =
          (dispatch sketch c.device (some c.readLine)).device := by
        rw [SerialLoop.readByte, if_pos hend, if_neg (by rw [hseen]; exact Bool.false_ne_true)]
        rfl
      rw [hdevice]
      exact hR.line h.related c.readLine

/-- An ending in which the chip restarts: the line is the first that does. -/
theorem Reads.reboot (hR : Carried R) (h : Reads R r c) {b : UInt8} (hb : isEnding b = true)
    (hreboots : reboots c.readLine = true) :
    let lines := entries (physicalLines (r.held ++ [b]))
    (∀ after, takeThrough reboots (lines ++ after) = lines ∧ (lines ++ after).any reboots = true) ∧
      Reads R ⟨r.lines ++ lines, []⟩ (rebooted { c with events := c.events ++ [.received b] }) := by
  intro lines
  have hcut : [cString c.readLine].filter nonBlank = [cString c.readLine] :=
    List.filter_cons_of_pos (nonBlank_of_reboots hreboots)
  have hlines : lines = entries (physicalLines r.held) ++ [cString c.readLine] := by
    rw [← hcut, ← h.line_eq]
    exact entries_ending r.held hb
  have hall : (Typed.mk (r.lines ++ lines) []).all = r.all ++ [cString c.readLine].filter nonBlank := by
    rw [Typed.all, hlines, hcut, ← List.append_assoc]
    exact List.append_nil _
  rw [← reboots_cString] at hreboots
  refine ⟨fun after => ⟨?_, ?_⟩, read_rebooted _, ?_, List.forall_mem_nil _, ?_⟩
  · rw [hlines, List.append_assoc]
    exact takeThrough_cut h.runs hreboots after
  · rw [hlines]
    simp [hreboots]
  · rw [entered_rebooted, hall, entered_received, h.entered_eq]
  · rw [hall]
    exact hR.line h.related c.readLine

/-- One byte: the console reads on, or the line that it ends is the first that restarts. -/
theorem Reads.byte (hR : Carried R) (h : Reads R r c) (b : UInt8) :
    Holds (Reads R ⟨r.lines, r.held ++ [b]⟩)
      (fun next =>
        let lines := entries (physicalLines (r.held ++ [b]))
        (∀ after, takeThrough reboots (lines ++ after) = lines ∧ (lines ++ after).any reboots = true) ∧
          Reads R ⟨r.lines ++ lines, []⟩ next)
      (readByte c b) := by
  rw [readByte]
  split
  next hrestarts =>
    obtain ⟨hend, -, hreboots⟩ := hrestarts
    exact h.reboot hR (by simpa [isEnding] using hend) hreboots
  next hruns =>
    cases hb : isEnding b with
    | false => exact h.edit hb
    | true =>
      have hend : b = carriageReturn ∨ b = lineFeed := by simpa [isEnding] using hb
      exact h.ending hR hb fun hseen => Bool.eq_false_iff.mpr fun hreboots =>
        hruns ⟨hend, hseen, hreboots⟩

/-- The bytes of a turn: all are read, or those through the first line that restarts. -/
theorem Reads.bytes (hR : Carried R) (h : Reads R r c) (bytes : List UInt8) :
    Holds (Reads R ⟨r.lines, r.held ++ bytes⟩)
      (fun next =>
        let lines := entries (physicalLines (r.held ++ bytes))
        lines.any reboots = true ∧ Reads R ⟨r.lines ++ takeThrough reboots lines, []⟩ next)
      (feed readByte c bytes) := by
  induction bytes generalizing r c with
  | nil =>
    rw [List.append_nil]
    exact h
  | cons b bytes ih =>
    have hbyte := h.byte hR b
    have hstream : r.held ++ b :: bytes = (r.held ++ [b]) ++ bytes := by rw [List.append_assoc]; rfl
    rw [hstream]
    cases hnext : readByte c b with
    | ok next =>
      rw [hnext] at hbyte
      rw [feed_cons_ok _ hnext]
      exact ih hbyte
    | error next =>
      rw [hnext] at hbyte
      rw [feed_cons_error _ hnext]
      obtain ⟨hfirst, hread⟩ := hbyte
      obtain ⟨afterReturn, hlines⟩ := physicalLines_append (r.held ++ [b])
      show _ ∧ _
      rw [hlines, entries_concat, (hfirst _).1]
      exact ⟨(hfirst _).2, hread⟩

theorem Reads.turn (hR : Carried R) (h : Reads R r c) (t : Turn) : Reads R (r.turn t) (loop c t) := by
  have hbytes := h.bytes hR t.available
  rw [loop]
  cases hfed : feed readByte c t.available with
  | ok drained =>
    rw [hfed] at hbytes
    have hdrained : Reads R ⟨r.lines, r.held ++ t.available⟩ drained := hbytes
    have hnone : ¬ (entries (physicalLines (r.held ++ t.available))).any reboots = true := by
      intro hany
      obtain ⟨line, hline, hreboots⟩ := List.any_eq_true.mp hany
      rw [hdrained.runs line hline] at hreboots
      cases hreboots
    rw [Typed.turn, if_neg hnone]
    exact ⟨⟨hdrained.read.1, hdrained.read.2, hdrained.read.3⟩, hdrained.entered_eq, hdrained.runs,
      hR.tick _ _ t.now t.driver hdrained.related⟩
  | error next =>
    rw [hfed] at hbytes
    obtain ⟨hany, hread⟩ := hbytes
    rw [Typed.turn, if_pos hany]
    exact hread

theorem Reads.turns (hR : Carried R) (h : Reads R r c) (turns : List Turn) :
    Reads R (turns.foldl Typed.turn r) (turns.foldl loop c) := by
  induction turns generalizing r c with
  | nil => exact h
  | cons t turns ih => exact ih (h.turn hR t)

/-- From a restart on, further ones included, the console has entered the lines of the reader, and it is
between them and the device. -/
theorem Carried.turns (hR : Carried R) {d : Image} (hstart : R [] (setup d).device) (turns : List Turn) :
    entered (afterTurns d turns).events = linesTyped turns ∧
      R (linesTyped turns) (afterTurns d turns).device := by
  have hsilent : entered (setup d).events = [] :=
    entered_of_quiet (by simp [Quiet, setup, booted, println])
  have hsetup : Reads R ⟨[], []⟩ (setup d) := ⟨read_booted _, hsilent, List.forall_mem_nil _, hstart⟩
  have hread := hsetup.turns hR turns
  exact ⟨hread.entered_eq, hread.related⟩

end

end Esp32Shell.Arduino.ConsoleLines
