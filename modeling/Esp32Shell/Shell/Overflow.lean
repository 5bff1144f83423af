import Esp32Shell.Library.Trace
import Esp32Shell.Shell.LineDiscipline

/-!
# Over-long lines

A line that outgrows the buffer is not dropped: the buffer is emptied and the
bytes that follow are collected into it, so that the ending of the line
dispatches what came after the last overflow.
-/
namespace Esp32Shell.Shell.Overflow

open Esp32Shell.Library.CText Esp32Shell.Library.Feed Esp32Shell.Library.Trace
open CommandCore CommandTable Session LineReading Chunking LineDiscipline

variable {σ : Type}

/-- A method call, or the close of the session. -/
def Executes (event : Event) : Prop :=
  (∃ call, event = .called call) ∨ event = .returned .sessionClosed

def byteOf : Event → Option UInt8
  | .received b => some b
  | _ => none

/-- The bytes received in a piece of a trace. -/
def bytesIn (events : List Event) : List UInt8 := events.filterMap byteOf

def LineStart (bytes : List UInt8) : Prop := ∀ b ∈ bytes.getLast?, isEnding b = true

def Unended (bytes : List UInt8) : Prop := ∀ b ∈ bytes, isEnding b = false

/-- Between `before` and its ending, the trace `window` receives the line `bytes`. -/
structure ReceivesLine (before window : List Event) (bytes : List UInt8) : Prop where
  lineStart : LineStart (bytesIn before)
  first : ∃ b rest, window = .received b :: rest
  unended : Unended bytes
  ends : ∃ b, isEnding b = true ∧ bytesIn window = bytes ++ [b]

/-- While an over-long line is received nothing is executed. -/
def DropsOverlong (events : List Event) : Prop :=
  ∀ before window after bytes, events = before ++ window ++ after →
    ReceivesLine before window bytes → Overlong bytes → ∀ event ∈ window, ¬ Executes event

/-- After `before`, the stream holds the line `bytes` with its ending. -/
structure HasLine (stream before bytes : List UInt8) : Prop where
  lineStart : LineStart before
  unended : Unended bytes
  ends : ∃ b after, isEnding b = true ∧ stream = before ++ bytes ++ b :: after

/-- `dispatch` answers the command with a text of its own: help, a usage or an error. -/
def Harmless (command : List UInt8) : Prop :=
  ∃ lines status, route command = .say lines status ∧ status ≠ .sessionClosed

/-- A line of the stream closes the session. -/
def ClosedIn (stream : List UInt8) : Prop :=
  ∃ before bytes, HasLine stream before bytes ∧ closesSession (kept bytes) = true

/-! ### The trace of one byte -/

theorem byteOf_quiet {events : List Event} (h : Quiet events) : ∀ e ∈ events, byteOf e = none := by
  intro e he
  obtain ⟨bytes, rfl⟩ := h e he
  rfl

theorem byteOf_dispatchEvents (command : Text) (d : Dispatched σ) :
    ∀ e ∈ dispatchEvents command d, byteOf e = none := by
  intro e he
  simp only [dispatchEvents, List.cons_append, List.append_assoc, List.mem_cons, List.mem_append,
    List.mem_map, List.mem_flatMap, List.not_mem_nil, or_false] at he
  rcases he with rfl | ⟨call, -, rfl⟩ | ⟨t, -, ht⟩ | rfl
  · rfl
  · rfl
  · exact byteOf_quiet (quiet_line t) e ht
  · rfl

theorem bytesIn_silent {events : List Event} (h : ∀ e ∈ events, byteOf e = none) :
    bytesIn events = [] := List.filterMap_eq_nil_iff.mpr h

theorem bytesIn_append (xs ys : List Event) : bytesIn (xs ++ ys) = bytesIn xs ++ bytesIn ys :=
  List.filterMap_append

/-- What one byte adds to the trace. -/
inductive Answer (services : DeviceServices σ) (s : State σ) (b : UInt8) : List Event → Prop where
  /-- No line ends. -/
  | edit (output : List Event) (h : Quiet output) : Answer services s b output
  /-- The text of the line is dispatched. -/
  | ending (output : List Event) (hb : isEnding b = true) (h : Quiet output) :
      Answer services s b (raw [carriageReturn, lineFeed] ++
        dispatchEvents (cString s.buffer.text) (dispatch services s.device (some s.buffer.text)) ++ output)

theorem stepByte_answer (services : DeviceServices σ) (s : State σ) (b : UInt8) :
    ∃ out, eventsOf (stepByte services s b) = s.events ++ .received b :: out ∧
      Answer services s b out := by
  have hcases := stepByte_cases services s b
  generalize stepByte services s b = next at hcases
  cases hcases with
  | edit s' hb hedits =>
    obtain ⟨output, he, hq⟩ := hedits.events_eq
    exact ⟨output, he, .edit output hq⟩
  | swallow hb hf =>
    subst hb
    exact ⟨[], rfl, .edit [] (by simp [Quiet])⟩
  | ending hb hc =>
    refine ⟨_, ?_, .ending prompt hb.isEnding_eq quiet_prompt⟩
    simp [eventsOf, endingEvents]
  | closing hb hc =>
    refine ⟨_, ?_, .ending [] hb.isEnding_eq (by simp [Quiet])⟩
    simp [eventsOf, endingEvents]

theorem Answer.silent {services : DeviceServices σ} {s : State σ} {b : UInt8} {out : List Event}
    (h : Answer services s b out) : ∀ e ∈ out, byteOf e = none := by
  cases h with
  | edit _ h => exact byteOf_quiet h
  | ending output _ h =>
    intro e he
    rw [List.mem_append, List.mem_append] at he
    rcases he with (he | he) | he
    · exact byteOf_quiet (quiet_raw _) e he
    · exact byteOf_dispatchEvents _ _ e he
    · exact byteOf_quiet h e he

theorem session_logs (services : DeviceServices σ) : Logs (stepByte services) eventsOf byteOf where
  step_log s b := by
    obtain ⟨out, he, ha⟩ := stepByte_answer services s b
    exact ⟨.received b, out, he, rfl, ha.silent⟩

theorem quiet_not_executes {events : List Event} (h : Quiet events) : ∀ e ∈ events, ¬ Executes e := by
  intro e he hx
  obtain ⟨bytes, rfl⟩ := h e he
  rcases hx with ⟨call, hc⟩ | hc <;> cases hc

theorem harmless_iff (services : DeviceServices σ) (device : σ) (command : List UInt8) :
    Harmless command ↔ ∀ e ∈ dispatchEvents (cString command) (dispatch services device (some command)),
      ¬ Executes e := by
  have hcalled : ∀ d : Dispatched σ, ∀ call ∈ d.calls,
      Event.called call ∈ dispatchEvents (cString command) d := fun d call hcall => by
    simp [dispatchEvents, hcall]
  have hreturned : ∀ d : Dispatched σ, Event.returned d.status ∈ dispatchEvents (cString command) d :=
    fun d => by simp [dispatchEvents]
  constructor
  · rintro ⟨lines, status, hroute, hstatus⟩ e he hx
    simp only [dispatch, hroute, Action.perform, dispatchEvents, List.map_nil,
      List.mem_append, List.mem_cons, List.not_mem_nil, or_false, List.mem_flatMap] at he
    rcases he with (rfl | ⟨t, -, ht⟩) | rfl
    · rcases hx with ⟨call, hc⟩ | hc <;> cases hc
    · exact quiet_not_executes (quiet_line t) e ht hx
    · rcases hx with ⟨call, hc⟩ | hc
      · cases hc
      · exact hstatus (Event.returned.inj hc)
  · intro h
    have hcalls : (dispatch services device (some command)).calls = [] :=
      List.eq_nil_iff_forall_not_mem.mpr fun call hcall =>
        h _ (hcalled _ call hcall) (.inl ⟨call, rfl⟩)
    have hstatus : (dispatch services device (some command)).status ≠ .sessionClosed := fun hc =>
      h _ (hreturned _) (.inr (by rw [hc]))
    rw [dispatch] at hcalls hstatus
    cases hr : route command with
    | say lines status =>
      rw [hr] at hstatus
      exact ⟨lines, status, hr, hstatus⟩
    | invoke call => rw [hr] at hcalls; cases hcalls
    | ask call => rw [hr] at hcalls; cases hcalls
    | close => rw [hr] at hcalls; cases hcalls

/-- Something is executed only by the ending of a line whose text is not harmless. -/
theorem Answer.executes {services : DeviceServices σ} {s : State σ} {b : UInt8} {out : List Event}
    (h : Answer services s b out) {e : Event} (he : e ∈ out) (hx : Executes e) :
    isEnding b = true ∧ ¬ Harmless s.buffer.text := by
  cases h with
  | edit _ h => exact absurd hx (quiet_not_executes h e he)
  | ending output hb h =>
    refine ⟨hb, fun hharmless => ?_⟩
    rw [List.mem_append, List.mem_append] at he
    rcases he with (he | he) | he
    · exact quiet_not_executes (quiet_raw _) e he hx
    · exact (harmless_iff services s.device s.buffer.text).mp hharmless e he hx
    · exact quiet_not_executes h e he hx

/-! ### The text at the end of a line -/

/-- The flag is set by a CR, which leaves the text empty, and does not outlast it. -/
def Settled (s : State σ) : Prop := s.previousWasCarriageReturn = true → s.buffer.text = []

theorem Settled.edit {s s' : State σ} {b : UInt8} (h : Settled s) (he : Edits s b s') : Settled s' := by
  intro hf
  rw [he.flag_eq, Bool.and_eq_true] at hf
  simp [he.text_eq, h hf.1, keptStep, hf.2]

/-- A line ending that does not close the session leaves an empty text. -/
theorem Settled.ending {services : DeviceServices σ} {s s' : State σ} {b : UInt8} (h : Settled s)
    (hb : isEnding b = true) (hs : stepByte services s b = .ok s') : s'.buffer.text = [] := by
  have hcases := stepByte_cases services s b
  rw [hs] at hcases
  cases hcases with
  | edit _ hne _ =>
    rw [hb] at hne
    cases hne
  | swallow _ hf => exact h hf
  | ending _ _ => rfl

theorem settled_step (services : DeviceServices σ) (s : State σ) (b : UInt8) (h : Settled s) :
    Holds Settled (fun _ => True) (stepByte services s b) := by
  have hcases := stepByte_cases services s b
  generalize stepByte services s b = next at hcases
  cases hcases with
  | edit _ _ hedits => exact h.edit hedits
  | swallow _ hf => exact fun _ => h hf
  | ending _ _ => exact fun _ => rfl
  | closing _ _ => trivial

theorem settled_feed {services : DeviceServices σ} {device : σ} {stream : List UInt8} {s : State σ}
    (hs : feed (stepByte services) (opened device) stream = .ok s) : Settled s := by
  have h := feed_holds (settled_step services) (s := opened device) (fun _ => rfl) stream
  rw [hs] at h
  exact h

/-- Bytes that end no line never stop the session. -/
theorem feed_unended (services : DeviceServices σ) (s : State σ) {bytes : List UInt8}
    (h : Unended bytes) : ∃ s', feed (stepByte services) s bytes = .ok s' ∧
      s'.buffer.text = bytes.foldl keptStep s.buffer.text := by
  induction bytes generalizing s with
  | nil => exact ⟨s, rfl, rfl⟩
  | cons b bytes ih =>
    obtain ⟨s₁, hs₁, hedits⟩ := stepByte_edits services s (h b List.mem_cons_self)
    obtain ⟨s', hs', htext⟩ := ih s₁ fun x hx => h x (List.mem_cons_of_mem b hx)
    refine ⟨s', by rw [feed_cons_ok _ hs₁, hs'], ?_⟩
    rw [htext, hedits.text_eq, List.foldl_cons]

theorem text_lineStart {services : DeviceServices σ} {device : σ} {before : List UInt8} {s : State σ}
    (hstart : LineStart before) (hs : feed (stepByte services) (opened device) before = .ok s) :
    s.buffer.text = [] := by
  cases before using List.reverseRecOn with
  | nil =>
    cases hs
    rfl
  | append_singleton init b =>
    have hb : isEnding b = true := hstart b (by simp)
    cases hi : feed (stepByte services) (opened device) init with
    | error f =>
      rw [feed_append_error _ hi] at hs
      cases hs
    | ok s₀ =>
      rw [feed_append_ok _ hi, feed_singleton] at hs
      exact (settled_feed hi).ending hb hs

/-- A session still open at the start of a line holds what the line keeps at its end. -/
theorem text_lineEnd {services : DeviceServices σ} {device : σ} {before bytes : List UInt8}
    {s : State σ} (hstart : LineStart before) (hu : Unended bytes)
    (hs : feed (stepByte services) (opened device) (before ++ bytes) = .ok s) :
    s.buffer.text = kept bytes := by
  cases hb : feed (stepByte services) (opened device) before with
  | error f =>
    rw [feed_append_error _ hb] at hs
    cases hs
  | ok s₀ =>
    obtain ⟨s', hs', htext⟩ := feed_unended services s₀ hu
    rw [feed_append_ok _ hb, hs'] at hs
    cases hs
    rw [htext, text_lineStart hstart hb]
    rfl

/-! ### When the session is over -/

/-- The last line of a stream. -/
theorem exists_lineStart (stream : List UInt8) :
    ∃ before bytes, stream = before ++ bytes ∧ LineStart before ∧ Unended bytes := by
  induction stream using List.reverseRecOn with
  | nil => exact ⟨[], [], rfl, by simp [LineStart], by simp [Unended]⟩
  | append_singleton stream b ih =>
    by_cases hb : isEnding b = true
    · exact ⟨stream ++ [b], [], by simp, by simpa [LineStart] using hb, by simp [Unended]⟩
    · obtain ⟨before, bytes, rfl, hstart, hu⟩ := ih
      refine ⟨before, bytes ++ [b], by simp, hstart, fun x hx => ?_⟩
      rcases List.mem_append.mp hx with hx | hx
      · exact hu x hx
      · rw [List.mem_singleton.mp hx]
        exact Bool.eq_false_iff.mpr hb

/-- A byte that stops the session ends a line that closes it. -/
theorem step_error {services : DeviceServices σ} {s : State σ} {b : UInt8} {f : Finished σ}
    (hs : stepByte services s b = .error f) :
    isEnding b = true ∧ closesSession s.buffer.text = true := by
  have hcases := stepByte_cases services s b
  rw [hs] at hcases
  cases hcases with
  | closing hb hc => exact ⟨hb.isEnding_eq, hc⟩

/-- A line ending is overlooked only after an empty text. -/
theorem Settled.endsLine {s : State σ} {b : UInt8} (h : Settled s) (hb : isEnding b = true)
    (ht : s.buffer.text ≠ []) : EndsLine s b := by
  have hend : b = carriageReturn ∨ b = lineFeed := by simpa [isEnding] using hb
  exact hend.imp_right fun he => ⟨he, Bool.eq_false_iff.mpr fun hf => ht (h hf)⟩

theorem step_closes {services : DeviceServices σ} {s : State σ} {b : UInt8} (h : Settled s)
    (hb : isEnding b = true) (hc : closesSession s.buffer.text = true) :
    ∃ f, stepByte services s b = .error f := by
  have htext : s.buffer.text ≠ [] := fun hnil => by
    rw [hnil, not_closes_nil] at hc
    cases hc
  have hs := stepByte_ends services (h.endsLine hb htext)
  simp only [hc, if_true] at hs
  exact ⟨_, hs⟩

theorem closedIn_iff (services : DeviceServices σ) (device : σ) (stream : List UInt8) :
    ClosedIn stream ↔ ∃ f, feed (stepByte services) (opened device) stream = .error f := by
  constructor
  · rintro ⟨before, bytes, ⟨hstart, hu, b, after, hb, rfl⟩, hc⟩
    rw [show before ++ bytes ++ b :: after = (before ++ bytes) ++ ([b] ++ after) by simp]
    cases hs : feed (stepByte services) (opened device) (before ++ bytes) with
    | error f => exact ⟨f, feed_append_error _ hs _⟩
    | ok s =>
      rw [← text_lineEnd hstart hu hs] at hc
      obtain ⟨f, hf⟩ := step_closes (settled_feed hs) hb hc
      exact ⟨f, by rw [feed_append_ok _ hs, List.singleton_append, feed_cons_error _ hf]⟩
  · rintro ⟨f, hf⟩
    obtain ⟨pre, b, post, s, rfl, hpre, hstep⟩ := feed_error_cut hf
    obtain ⟨hb, hc⟩ := step_error hstep
    obtain ⟨before, bytes, rfl, hstart, hu⟩ := exists_lineStart pre
    rw [text_lineEnd hstart hu hpre] at hc
    exact ⟨before, bytes, ⟨hstart, hu, b, post, hb, rfl⟩, hc⟩

/-! ### Runs -/

theorem byteOf_executes {e : Event} (h : Executes e) : byteOf e = none := by
  rcases h with ⟨call, rfl⟩ | rfl <;> rfl

theorem byteOf_some {e : Event} {b : UInt8} (h : byteOf e = some b) : e = .received b := by
  cases e with
  | received b' => exact congrArg Event.received (Option.some_inj.mp h)
  | _ => cases h

theorem byteOf_opened (device : σ) : ∀ e ∈ (opened device).events, byteOf e = none := by
  have hq : Quiet greeting := by simp [Quiet, greeting, line, prompt, raw]
  exact byteOf_quiet hq

theorem bytesIn_feed {services : DeviceServices σ} {device : σ} {stream : List UInt8} {s : State σ}
    (hs : feed (stepByte services) (opened device) stream = .ok s) : bytesIn s.events = stream := by
  have h := (session_logs services).inputs hs
  have hsilent := bytesIn_silent (byteOf_opened device)
  rw [bytesIn] at hsilent
  rw [bytesIn]
  simpa [eventsOf, hsilent] using h

/-- The ending of a line is its only ending. -/
theorem Unended.ending_eq {bytes front rest : List UInt8} {b x : UInt8} (h : Unended bytes)
    (heq : bytes ++ [b] = front ++ x :: rest) (hx : isEnding x = true) : front = bytes ∧ x = b := by
  rcases snoc_cut heq with ⟨-, hfront, hlast⟩ | ⟨rest, -, hbytes⟩
  · exact ⟨hfront.symm, hlast.symm⟩
  · have hxu := h x (by rw [hbytes]; simp)
    rw [hx] at hxu
    cases hxu

/-- The ending of a line whose text is not harmless executes something. -/
theorem Settled.executes (services : DeviceServices σ) {s : State σ} {b : UInt8} (h : Settled s)
    (hb : isEnding b = true) (hharm : ¬ Harmless s.buffer.text) :
    ∃ out, eventsOf (stepByte services s b) = s.events ++ .received b :: out ∧
      (∀ e ∈ out, byteOf e = none) ∧ ∃ e ∈ out, Executes e := by
  have htext : s.buffer.text ≠ [] := fun hnil => hharm (by rw [hnil]; exact ⟨[], .empty, rfl, by simp⟩)
  have hexec : ∃ e ∈ dispatchEvents (cString s.buffer.text)
      (dispatch services s.device (some s.buffer.text)), Executes e := by
    by_contra hnone
    refine hharm ((harmless_iff services s.device s.buffer.text).mpr fun e he hx => ?_)
    exact hnone ⟨e, he, hx⟩
  obtain ⟨e, he, hx⟩ := hexec
  obtain ⟨out, hout, ha⟩ := stepByte_answer services s b
  refine ⟨out, hout, ha.silent, e, ?_, hx⟩
  rw [stepByte_ends services (h.endsLine hb htext)] at hout
  have hmem : ∀ quiet, s.events ++ .received b :: out = endingEvents services s b ++ quiet → e ∈ out := by
    intro quiet heq
    simp only [endingEvents, List.append_assoc, List.cons_append, List.append_cancel_left_eq,
      List.cons.injEq, true_and] at heq
    rw [heq]
    simp [he]
  by_cases hc : closesSession s.buffer.text = true
  · simp only [hc, if_true] at hout
    exact hmem [] (by rw [← hout, List.append_nil]; rfl)
  · simp only [hc, Bool.false_eq_true, if_false] at hout
    exact hmem prompt hout.symm

/-- An over-long line that is reached with the session open executes what it leaves behind its
last overflow. -/
theorem harmless_of_drops {services : DeviceServices σ} {device : σ} {stream before bytes : List UInt8}
    (hdrops : DropsOverlong (eventsOf (feed (stepByte services) (opened device) stream)))
    (hline : HasLine stream before bytes) (hlong : Overlong bytes) :
    ClosedIn before ∨ Harmless (kept bytes) := by
  cases hbefore : feed (stepByte services) (opened device) before with
  | error f => exact .inl ((closedIn_iff services device before).mpr ⟨f, hbefore⟩)
  | ok s₀ =>
    right
    by_contra hharm
    obtain ⟨hstart, hu, b, after, hb, rfl⟩ := hline
    obtain ⟨s₁, hs₁, -⟩ := feed_unended services s₀ hu
    have hfeed : feed (stepByte services) (opened device) (before ++ bytes) = .ok s₁ := by
      rw [feed_append_ok _ hbefore, hs₁]
    rw [← text_lineEnd hstart hu hfeed] at hharm
    obtain ⟨out, hout, hsilent, e, he, hx⟩ := (settled_feed hfeed).executes services hb hharm
    obtain ⟨tail, htail⟩ := (session_logs services).step_grows_feed s₁ b after
    obtain ⟨mid, hmid⟩ := (session_logs services).feed_grows s₀ bytes
    rw [hs₁] at hmid
    replace hmid : s₀.events ++ mid = s₁.events := hmid
    have hbytes : bytesIn mid = bytes := by
      have h := bytesIn_feed hfeed
      rw [← hmid, bytesIn_append, bytesIn_feed hbefore] at h
      exact List.append_cancel_left h
    have hwindow : bytesIn (mid ++ .received b :: out) = bytes ++ [b] := by
      rw [bytesIn_append, hbytes]
      show bytes ++ b :: bytesIn out = _
      rw [bytesIn_silent hsilent]
    have hfirst : ∃ b₀ rest, mid ++ .received b :: out = .received b₀ :: rest := by
      cases mid with
      | nil => exact ⟨b, out, rfl⟩
      | cons m mid =>
        have hgrows : eventsOf (feed (stepByte services) s₀ bytes) = s₀.events ++ m :: mid := by
          rw [hs₁]
          exact hmid.symm
        have hmark := (session_logs services).next hgrows m rfl
        obtain ⟨b₀, hb₀⟩ := Option.ne_none_iff_exists'.mp hmark
        exact ⟨b₀, mid ++ .received b :: out, by rw [byteOf_some hb₀]; rfl⟩
    refine hdrops s₀.events (mid ++ .received b :: out) tail bytes ?_
      ⟨by rwa [bytesIn_feed hbefore], hfirst, hu, b, hb, hwindow⟩ hlong e (by simp [he]) hx
    rw [feed_append_ok _ hfeed, ← htail, hout, ← hmid]
    simp

/-- Outside the condition nothing of an over-long line is executed. -/
theorem drops_of_harmless {services : DeviceServices σ} {device : σ} {stream : List UInt8}
    (h : ∀ before bytes, HasLine stream before bytes → Overlong bytes →
      ClosedIn before ∨ Harmless (kept bytes)) :
    DropsOverlong (eventsOf (feed (stepByte services) (opened device) stream)) := by
  intro before window after bytes hsplit hline hlong event hevent hx
  obtain ⟨u, v, rfl⟩ := List.append_of_mem hevent
  obtain ⟨b₀, rest, hfirst⟩ := hline.first
  have hmarked : ∃ m ∈ u, byteOf m ≠ none := by
    cases u with
    | nil =>
      obtain ⟨rfl, -⟩ := List.cons_eq_cons.mp hfirst
      cases byteOf_executes hx
    | cons m u =>
      obtain ⟨rfl, -⟩ := List.cons_eq_cons.mp hfirst
      exact ⟨_, List.mem_cons_self, by simp [byteOf]⟩
  obtain ⟨front, m, silent, rfl, hm, hsilent⟩ := exists_last_mark hmarked
  obtain ⟨x, hmx⟩ := Option.ne_none_iff_exists'.mp hm
  have hlog : eventsOf (feed (stepByte services) (opened device) stream) =
      (before ++ front) ++ m :: (silent ++ event :: (v ++ after)) := by rw [hsplit]; simp
  have hlen := (session_logs services).length_le hlog hm (byteOf_opened device)
  obtain ⟨pre, post, s, out, hstream, hpre, hs, hstep, hout⟩ :=
    (session_logs services).answer hlog hmx hsilent (byteOf_executes hx) hlen
  replace hs : s.events = before ++ front := hs
  obtain ⟨out', hstep', ha⟩ := stepByte_answer services s x
  have hsame : out' = out := by
    rw [hstep, hs, List.append_cancel_left_eq] at hstep'
    exact (List.cons_eq_cons.mp hstep').2.symm
  obtain ⟨hending, hharm⟩ := ha.executes (hsame ▸ hout) hx
  obtain ⟨b, hb, hwindow⟩ := hline.ends
  have hcut : bytes ++ [b] = bytesIn front ++ x :: bytesIn (silent ++ event :: v) := by
    rw [← hwindow, byteOf_some hmx]
    simp [bytesIn, byteOf]
  obtain ⟨hfront, rfl⟩ := hline.unended.ending_eq hcut hending
  have hbytes : pre = bytesIn before ++ bytes := by
    rw [← bytesIn_feed hpre, hs, bytesIn_append, hfront]
  rw [hbytes] at hpre hstream
  rw [text_lineEnd hline.lineStart hline.unended hpre] at hharm
  rcases h (bytesIn before) bytes ⟨hline.lineStart, hline.unended, x, post, hb, hstream⟩ hlong
    with hclosed | hharmless
  · obtain ⟨f, hf⟩ := (closedIn_iff services device (bytesIn before)).mp hclosed
    rw [feed_append_error _ hf] at hpre
    cases hpre
  · exact hharm hharmless

/-- A session executes nothing of its over-long lines exactly when what each of them leaves behind
its last overflow is harmless, or an earlier line has closed the session. -/
theorem overlong_dropped_iff (services : DeviceServices σ) (device : σ) (polls : List Poll) :
    DropsOverlong (eventsOf (run services true device polls)) ↔
      ∀ before bytes, HasLine (received polls) before bytes → Overlong bytes →
        ClosedIn before ∨ Harmless (kept bytes) := by
  rw [eventsOf_run]
  exact ⟨fun h before bytes hline hlong => harmless_of_drops h hline hlong, drops_of_harmless⟩

def letterA : UInt8 := 97

theorem foldl_letters (n : Nat) (text : Text) (h : text.length + n ≤ maxCommandLength) :
    (List.replicate n letterA).foldl keptStep text = text ++ List.replicate n letterA := by
  induction n generalizing text with
  | zero => simp
  | succ n ih =>
    have hroom : text.length < maxCommandLength := by omega
    have hstep : keptStep text letterA = text ++ [letterA] := by
      rw [keptStep, if_neg (by decide), if_pos hroom]
    rw [List.replicate_succ, List.foldl_cons, hstep, ih _ (by rw [List.length_append]; simp; omega)]
    simp

theorem edited_letters (n : Nat) : edited (List.replicate n letterA) = List.replicate n letterA := by
  induction n with
  | zero => rfl
  | succ n ih =>
    rw [List.replicate_succ', edited_append, ih, editStep, if_neg (by decide)]

/-- 4097 letters and `reboot`. -/
def longLine : List UInt8 := List.replicate (maxCommandLength + 1) letterA ++ lit "reboot"

theorem kept_longLine : kept longLine = lit "reboot" := by
  have hfull := foldl_letters maxCommandLength [] (by simp)
  have hspill : keptStep (List.replicate maxCommandLength letterA) letterA = [] := by
    rw [keptStep, if_neg (by decide), if_neg (by simp)]
  rw [kept, longLine, List.replicate_succ', List.foldl_append, List.foldl_append, hfull]
  simp only [List.nil_append, List.foldl_cons, List.foldl_nil, hspill]
  decide

theorem overlong_longLine : Overlong longLine := by
  refine ⟨List.replicate (maxCommandLength + 1) letterA, List.prefix_append _ _, ?_⟩
  rw [edited_letters, List.length_replicate]
  exact Nat.lt_succ_self _

theorem received_replicate (n : Nat) (bytes : List UInt8) (h : bytes.length ≤ 64) (polls : List Poll) :
    received (List.replicate n (chunk bytes h) ++ polls) =
      (List.replicate n bytes).flatten ++ received polls := by
  induction n with
  | zero => rfl
  | succ n ih =>
    rw [List.replicate_succ, List.replicate_succ, List.flatten_cons, List.append_assoc, ← ih]
    rfl

/-- `reboot` behind 4097 letters restarts the device. -/
theorem overlong_tail_reboots :
    let polls := List.replicate 64 (chunk (List.replicate 64 letterA) (by decide)) ++
      [chunk (lit "areboot\r") (by decide)]
    ¬ DropsOverlong (eventsOf (run Routing.silent true () polls)) := by
  intro polls hdrops
  have hstream : received polls = longLine ++ [carriageReturn] := by
    have hletters : List.replicate (maxCommandLength + 1) letterA =
        List.replicate (64 * 64) letterA ++ [letterA] := List.replicate_succ'
    have hlast : received [chunk (lit "areboot\r") (by decide)] =
        [letterA] ++ (lit "reboot" ++ [carriageReturn]) := by decide
    rw [received_replicate, List.flatten_replicate_replicate, hlast, longLine, hletters]
    simp only [List.append_assoc]
  have hreboot : (lit "reboot").all (fun b => !isEnding b) = true := by decide
  have hline : HasLine (received polls) [] longLine := by
    refine ⟨by simp [LineStart], fun b hb => ?_, carriageReturn, [], rfl, hstream⟩
    rcases List.mem_append.mp hb with hb | hb
    · rw [List.eq_of_mem_replicate hb]
      rfl
    · simpa using List.all_eq_true.mp hreboot b hb
  rw [eventsOf_run] at hdrops
  rcases harmless_of_drops hdrops hline overlong_longLine with ⟨before, bytes, hclosed, -⟩ | hharm
  · obtain ⟨b, after, -, hnil⟩ := hclosed.ends
    simp at hnil
  · obtain ⟨lines, status, hroute, -⟩ := hharm
    rw [kept_longLine] at hroute
    have hreboot : route (lit "reboot") = .invoke .reboot := rfl
    rw [hreboot] at hroute
    cases hroute

end Esp32Shell.Shell.Overflow
