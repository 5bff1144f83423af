import Esp32Shell.Arduino.ConsoleStore
import Esp32Shell.Idf.SshSessions
import Esp32Shell.Idf.LineFrame

/-!
# The pins under both images

A line reaches the pins through `gpio-read` and `gpio-write` alone. What stands
at each pin is what the last accepted line about it asked for, on either image,
and no pin outside the list of the image is ever touched.
-/
namespace Esp32Shell.Handover.Pins

open Esp32Shell.Library.CText Esp32Shell.Library.Scan Esp32Shell.Library.Sha256
open Shell.CommandCore Shell.CommandLines
open Arduino.Sketch (PinCall sketch reboots restarted afterTurns allowedPins readPin scanPair)
open Arduino.SerialLoop (Turn)
open Arduino.ConsoleLines (Carried linesTyped sinceReboot)
open Idf.CommandServices (Device)
open Idf.SshServer (Event Input afterInputs)
open Idf.Firmware (firmware parsePin)
open Idf.LineFrame (ofConfiguration ofFiles)

/-! ### Pins -/

/-- What a pin is used as, an output with the level that it has been given. -/
inductive Use where
  | input
  | output (level : Option Int)
  deriving DecidableEq

/-- The pins that are in use. -/
abbrev Uses := Int → Option Use

/-- What a call makes of the pins. A level reaches the pin while it is an output. -/
def called (pins : Uses) : PinCall → Uses
  | .pinMode pin false => Function.update pins pin (some .input)
  | .pinMode pin true =>
    match pins pin with
    | some (.output _) => pins
    | _ => Function.update pins pin (some (.output none))
  | .digitalWrite pin value =>
    match pins pin with
    | some (.output _) => Function.update pins pin (some (.output (some value)))
    | _ => pins

/-- What is asked of a pin. -/
structure Request where
  pin : Int
  use : Use
  deriving DecidableEq

/-- What a call of the Arduino image asks of a pin. -/
def requestOf : ServiceCall → Option Request
  | .gpioRead arguments => (readPin arguments).map fun pin => ⟨pin, .input⟩
  | .gpioWrite arguments =>
    (Arduino.Sketch.gpioTarget arguments).map fun write => ⟨write.1, .output (some write.2)⟩
  | _ => none

/-- What a line asks of a pin. -/
def request (input : List UInt8) : Option Request :=
  match route input with
  | .invoke call | .ask call => requestOf call
  | _ => none

/-- The calls that a request is carried out by. -/
def Request.calls (r : Request) : List PinCall :=
  match r.use with
  | .input => [.pinMode r.pin false]
  | .output level => .pinMode r.pin true :: level.toList.map (.digitalWrite r.pin)

/-- The pins with some requests carried out, one after the other. -/
def asked (pins : Uses) (requests : List Request) : Uses :=
  requests.foldl (fun pins r => Function.update pins r.pin (some r.use)) pins

/-- A request that a line may make. -/
structure Request.Proper (r : Request) : Prop where
  pin : r.pin ∈ allowedPins
  use : r.use = .input ∨ r.use = .output (some 0) ∨ r.use = .output (some 1)

theorem called_calls {r : Request} (h : r.Proper) (pins : Uses) :
    r.calls.foldl called pins = Function.update pins r.pin (some r.use) := by
  obtain ⟨pin, use⟩ := r
  have hwrite : ∀ level, called (called pins (.pinMode pin true)) (.digitalWrite pin level) =
      Function.update pins pin (some (.output (some level))) := by
    intro level
    rcases hpin : pins pin with _ | _ | held
    · simp [called, hpin]
    · simp [called, hpin]
    · simp [called, hpin]
  rcases h.use with huse | huse | huse
  · obtain rfl : use = .input := huse
    rfl
  · obtain rfl : use = .output (some 0) := huse
    exact hwrite 0
  · obtain rfl : use = .output (some 1) := huse
    exact hwrite 1

theorem called_flatMap {requests : List Request} (h : ∀ r ∈ requests, r.Proper) (pins : Uses) :
    (requests.flatMap Request.calls).foldl called pins = asked pins requests := by
  induction requests generalizing pins with
  | nil => rfl
  | cons r requests ih =>
    rw [List.flatMap_cons, List.foldl_append, called_calls (h r List.mem_cons_self),
      ih fun x hx => h x (List.mem_cons_of_mem r hx)]
    rfl

/-- A pin that is in use has been asked for. -/
theorem asked_of_used {requests : List Request} {pin : Int} {use : Use}
    (h : asked (fun _ => none) requests pin = some use) : ⟨pin, use⟩ ∈ requests := by
  induction requests using List.reverseRecOn with
  | nil => cases h
  | append_singleton requests r ih =>
    rw [asked, List.foldl_append] at h
    by_cases hpin : pin = r.pin
    · subst hpin
      have huse : r.use = use := by simpa using h
      subst huse
      exact List.mem_append_right _ (List.mem_singleton_self _)
    · have hearlier : asked (fun _ => none) requests pin = some use := by
        simpa [asked, Function.update_of_ne hpin] using h
      exact List.mem_append_left _ (ih hearlier)

/-! ### The lines of the Arduino image -/

theorem requestOf_proper {call : ServiceCall} {r : Request} (h : requestOf call = some r) : r.Proper := by
  cases call with
  | gpioRead arguments =>
    obtain ⟨pin, hpin, rfl⟩ := Option.map_eq_some_iff.mp h
    have hallowed : Arduino.Sketch.gpioAllowed pin = true := (Option.filter_eq_some_iff.mp hpin).2
    exact ⟨List.contains_iff_mem.mp hallowed, .inl rfl⟩
  | gpioWrite arguments =>
    obtain ⟨write, hwrite, rfl⟩ := Option.map_eq_some_iff.mp h
    have hallowed := (Option.filter_eq_some_iff.mp hwrite).2
    simp only [Bool.and_eq_true, Bool.or_eq_true, beq_iff_eq] at hallowed
    refine ⟨List.contains_iff_mem.mp hallowed.1, .inr ?_⟩
    exact hallowed.2.imp (fun h0 => by rw [h0]) fun h1 => by rw [h1]
  | _ => cases h

theorem request_proper {input : List UInt8} {r : Request} (h : request input = some r) : r.Proper := by
  unfold request at h
  split at h
  · exact requestOf_proper h
  · exact requestOf_proper h
  · cases h

/-- Every method that returns makes the calls of its request. -/
theorem respond_pins (call : ServiceCall) (h : call ≠ .reboot) (d : Arduino.Sketch.Image) :
    (sketch.respond call d).device.rest.pins =
      d.rest.pins ++ (requestOf call).toList.flatMap Request.calls := by
  let pinsOf := fun d : Arduino.Sketch.Image => d.rest.pins
  by_cases hconfiguration : ofConfiguration call = true
  · rw [Arduino.FileMap.configuration_rest hconfiguration]
    have hnone : requestOf call = none := by
      cases call <;> first | rfl | cases hconfiguration
    simp [hnone]
  rw [Arduino.FileMap.sketch_others hconfiguration]
  cases call with
  | reboot => exact absurd rfl h
  | gpioRead arguments =>
    refine (congrArg pinsOf (Arduino.Sketch.gpioRead_device arguments d)).trans ?_
    cases hpin : readPin arguments <;>
      simp [pinsOf, requestOf, hpin, Arduino.Sketch.Rest.asked, Request.calls]
  | gpioWrite arguments =>
    refine (congrArg pinsOf (Arduino.Sketch.gpioWrite_device arguments d)).trans ?_
    cases hwrite : Arduino.Sketch.gpioTarget arguments <;>
      simp [pinsOf, requestOf, hwrite, Arduino.Sketch.Rest.asked, Request.calls]
  | fsList arguments =>
    exact (congrArg pinsOf (Arduino.Sketch.fsList_device arguments d)).trans (List.append_nil _).symm
  | _ => exact (List.append_nil _).symm

theorem line_pins {input : List UInt8} (h : reboots input = false) (d : Arduino.Sketch.Image) :
    (dispatch sketch d (some input)).device.rest.pins =
      d.rest.pins ++ (request input).toList.flatMap Request.calls := by
  rw [dispatch, request]
  cases hroute : route input with
  | say lines status => exact (List.append_nil _).symm
  | invoke call => exact respond_pins _ (Arduino.ConsoleLines.call_of_runs h (.inl hroute)) d
  | ask call => exact respond_pins _ (Arduino.ConsoleLines.call_of_runs h (.inr hroute)) d
  | close => exact (respond_pins .closeSession (by decide) d).trans rfl

/-- What the lines since the last restart ask of the pins. -/
def requested (lines : List Text) : List Request := (sinceReboot lines).filterMap request

/-- The calls since the last restart are those of the requests. -/
def Called (lines : List Text) (d : Arduino.Sketch.Image) : Prop :=
  d.rest.pins = (requested lines).flatMap Request.calls

theorem carried_called : Carried Called where
  runs lines d line hruns h := by
    have hrequests : requested (lines ++ [line]) = requested lines ++ (request line).toList := by
      rw [requested, Arduino.ConsoleLines.sinceReboot_of_runs lines hruns, List.filterMap_append]
      cases hr : request line <;> simp [requested, hr]
    rw [Called, line_pins hruns, hrequests, List.flatMap_append, h]
  restarts lines d line hreboots h := by
    rw [Called, requested, Arduino.ConsoleLines.sinceReboot_of_reboots lines hreboots,
      Arduino.Sketch.restarted_rest]
    rfl
  tick _ _ _ _ h := h

/-- The number that `parsePin` accepts is the only one in the text. -/
theorem number_of_parsePin {text : Text} {pin : Int} (h : parsePin text = some pin) :
    pin = 38 ∧ number text = some (38, []) := by
  simp only [parsePin, Option.ite_none_left_eq_some] at h
  obtain ⟨hne, hbounds, h⟩ := h
  split at h
  next hallowed =>
    obtain rfl := Option.some_inj.mp h
    have hpin : (strtol text).1 = 38 := List.mem_singleton.mp (List.contains_iff_mem.mp hallowed)
    refine ⟨hpin, ?_⟩
    cases hnumber : number text with
    | none =>
      rw [strtol, hnumber] at hpin
      cases hpin
    | some read =>
      obtain ⟨z, rest⟩ := read
      rw [strtol, hnumber] at hpin hbounds
      have hrest : rest = [] := by
        by_contra hrest
        exact hbounds (.inl hrest)
      have hz : z = 38 := by
        have hsaturated : saturated z = 38 := hpin
        unfold saturated longMax at hsaturated
        omega
      rw [hz, hrest]
  next => cases h

/-- A single digit is a number, whatever stands behind a terminator. -/
theorem scanInt_digit {level : UInt8} (h : level = 48 ∨ level = 49) {rest : Text}
    (hrest : byteAt rest 0 = 0) :
    (scanInt (space :: level :: rest)).map Prod.fst = some ((level.toNat : Int) - 48) := by
  have hstop : rest.takeWhile isDigit = [] := by
    cases rest with
    | nil => rfl
    | cons c rest =>
      obtain rfl : c = 0 := hrest
      rfl
  have hspace : isSpace space = true := rfl
  rcases h with rfl | rfl
  all_goals
    rw [scanInt, number, List.dropWhile_cons_of_pos hspace]
    simp [isSpace, isDigit, minus, plus, hstop, digitsValue, saturated, longMax, List.dropWhile]

/-- Where the ESP-IDF image sets a level, it is at its only pin, and the Arduino image sets the same. -/
theorem gpioTarget_of_idf {arguments : Text} {write : Int × Int}
    (h : Idf.Firmware.gpioTarget arguments = some write) :
    write.1 = 38 ∧ (write.2 = 0 ∨ write.2 = 1) ∧ Arduino.Sketch.gpioTarget arguments = some write := by
  unfold Idf.Firmware.gpioTarget at h
  split at h
  · cases h
  next separator hseparator =>
    simp only [Option.ite_none_left_eq_some, Option.map_eq_some_iff] at h
    obtain ⟨hshape, pin, hpin, rfl⟩ := h
    obtain ⟨rfl, hnumber⟩ := number_of_parsePin hpin
    obtain ⟨text, after, rfl, hspace, rfl⟩ := (strchr_eq_some_iff _ _ _).mp hseparator
    rw [List.take_left] at hnumber
    have hbyte : ∀ i, byteAt (text ++ space :: after) (text.length + (i + 1)) = byteAt after i := by
      intro i
      simp [byteAt, List.getElem?_append_right]
    rw [hbyte 0, hbyte 1] at hshape
    rw [hbyte 0]
    obtain ⟨-, hlevel, hend⟩ : text.length < 8 ∧ (byteAt after 0 = 48 ∨ byteAt after 0 = 49) ∧
        byteAt after 1 = 0 := by
      push Not at hshape
      exact ⟨hshape.1, by by_cases h48 : byteAt after 0 = 48 <;> simp_all, hshape.2.2⟩
    have hpair : scanPair (text ++ space :: after) = some (38, ((byteAt after 0).toNat : Int) - 48) := by
      have hpin : scanInt (text ++ space :: after) = some (38, space :: after) := by
        rw [scanInt, number_append hnumber rfl]
        rfl
      rw [scanPair, hpin]
      cases after with
      | nil => rcases hlevel with h | h <;> cases h
      | cons level rest =>
        have hscan : (scanInt (space :: level :: rest)).map Prod.fst = some ((level.toNat : Int) - 48) :=
          scanInt_digit hlevel hend
        obtain ⟨read, hread, hvalue⟩ := Option.map_eq_some_iff.mp hscan
        show (scanInt (space :: level :: rest)).map _ = _
        rw [hread, Option.map_some, hvalue]
        rfl
    refine ⟨rfl, ?_, ?_⟩
    · rcases hlevel with h | h <;> rw [h] <;> decide
    · rw [Arduino.Sketch.gpioTarget, hpair]
      rcases hlevel with h | h <;> rw [h] <;> rfl

/-- The level that a call sets. -/
def levelOf : ServiceCall → Option (Int × Int)
  | .gpioWrite arguments => Idf.Firmware.gpioTarget arguments
  | _ => none

/-- The level that a line sets. -/
def level (input : List UInt8) : Option (Int × Int) :=
  match route input with
  | .invoke call | .ask call => levelOf call
  | _ => none

theorem levelOf_request {call : ServiceCall} {write : Int × Int} (h : levelOf call = some write) :
    write.1 = 38 ∧ (write.2 = 0 ∨ write.2 = 1) ∧
      requestOf call = some ⟨write.1, .output (some write.2)⟩ := by
  cases call with
  | gpioWrite arguments =>
    obtain ⟨hpin, hlevel, hsame⟩ := gpioTarget_of_idf h
    exact ⟨hpin, hlevel, by rw [requestOf, hsame]; rfl⟩
  | _ => cases h

theorem level_request {input : List UInt8} {write : Int × Int} (h : level input = some write) :
    write.1 = 38 ∧ (write.2 = 0 ∨ write.2 = 1) ∧
      request input = some ⟨write.1, .output (some write.2)⟩ := by
  unfold level at h
  unfold request
  split at h
  · exact levelOf_request h
  · exact levelOf_request h
  · cases h

theorem meanwhile_pins (r : Idf.Firmware.Rest) : r.meanwhile.pins = r.pins := by
  unfold Idf.Firmware.Rest.meanwhile
  generalize r.now.meanwhile = turns
  induction turns generalizing r with
  | nil => rfl
  | cons t turns ih => exact (ih (r.turn t)).trans (by cases t <;> rfl)

theorem firmware_pins (call : ServiceCall) (d : Idf.Firmware.Image) :
    (firmware.respond call d).device.rest.pins = d.rest.pins ++ (levelOf call).toList := by
  by_cases hconfiguration : ofConfiguration call = true
  · have hrest : (firmware.respond call d).device.rest = d.rest :=
      (Idf.LineFrame.configuration_scope Idf.Firmware.others hconfiguration d).2
    have hnone : levelOf call = none := by
      cases call <;> first | rfl | cases hconfiguration
    rw [hrest, hnone]
    exact (List.append_nil _).symm
  by_cases hfiles : ofFiles call = true
  · cases call with
    | fsRead arguments =>
      exact (congrArg _ (Idf.LineFrame.fsRead_scope arguments d).2).trans (List.append_nil _).symm
    | fsWrite arguments =>
      exact (congrArg _ (Idf.LineFrame.fsWrite_scope arguments d).2).trans (List.append_nil _).symm
    | fsRemove arguments =>
      exact (congrArg _ (Idf.LineFrame.fsRemove_scope arguments d).2).trans (List.append_nil _).symm
    | _ => cases hfiles
  rw [Idf.LineFrame.firmware_others hconfiguration hfiles]
  let pinsOf := fun d : Idf.Firmware.Image => d.rest.pins
  have hmeanwhile := meanwhile_pins d.rest
  cases call with
  | gpioWrite arguments =>
    refine (congrArg pinsOf (Idf.Firmware.gpioWrite_device arguments _)).trans ?_
    exact congrArg (· ++ _) hmeanwhile
  | gpioRead arguments =>
    refine (congrArg pinsOf (Idf.Firmware.gpioRead_device arguments _)).trans ?_
    exact hmeanwhile.trans (List.append_nil _).symm
  | fsList arguments =>
    refine (congrArg pinsOf (Idf.Firmware.fsList_device arguments _)).trans ?_
    exact hmeanwhile.trans (List.append_nil _).symm
  | _ => exact hmeanwhile.trans (List.append_nil _).symm

/-- The levels that are set, by one more event of the server. -/
def noteLevel (levels : List (Int × Int)) : Event Idf.Firmware.Rest → List (Int × Int)
  | .shell (.dispatched command) => levels ++ (level command).toList
  | .restarted rest => rest.pins
  | _ => levels

theorem replayEvent_pins (d : Idf.Firmware.Image) (e : Event Idf.Firmware.Rest) :
    (Idf.SshSessions.replayEvent firmware d e).rest.pins = noteLevel d.rest.pins e := by
  cases e with
  | shell event =>
    cases event with
    | dispatched command =>
      show (dispatch firmware d (some command)).device.rest.pins = d.rest.pins ++ (level command).toList
      rw [dispatch, level]
      cases route command with
      | say lines status => exact (List.append_nil _).symm
      | invoke call => exact firmware_pins call d
      | ask call => exact firmware_pins call d
      | close => exact (firmware_pins .closeSession d).trans rfl
    | _ => rfl
  | _ => rfl

/-- In every run of the SSH server the levels set since the last restart are those of the accepted
`gpio-write` lines, in their order. All are at the only pin of the list, and the same line asks the Arduino
image for the same level there. -/
theorem server_pins (sha256 : List UInt8 → Digest) (device : Idf.Firmware.Image)
    (inputs : List (Input Idf.Firmware.Rest)) :
    let s := afterInputs sha256 firmware device inputs
    s.current.rest.pins = s.history.foldl noteLevel device.rest.pins ∧
      ∀ input write, level input = some write → write.1 = 38 ∧ (write.2 = 0 ∨ write.2 = 1) ∧
        request input = some ⟨write.1, .output (some write.2)⟩ := by
  intro s
  refine ⟨?_, fun input write h => level_request h⟩
  rw [(Idf.SshSessions.account_run sha256 firmware device inputs).device_eq]
  generalize s.history = log
  induction log generalizing device with
  | nil => rfl
  | cons e log ih =>
    rw [List.foldl_cons, ← replayEvent_pins]
    exact ih _

example : level (lit "gpio-write 38 1") = some (38, 1) ∧ level (lit "gpio-write 7 1") = none ∧
    request (lit "gpio-write 7 1") = some ⟨7, .output (some 1)⟩ := by decide +kernel

end Esp32Shell.Handover.Pins
