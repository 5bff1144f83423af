import Esp32Shell.Arduino.SerialLoop
import Esp32Shell.Handover.SshCredentials

/-!
# The host key across the images

A key that is typed in hexadecimal digits. The longest line that sets one has
room in the loop and in a command, and what is stored is what the ESP-IDF image
loads; nothing but the digits of a key of admissible length is stored.
-/
namespace Esp32Shell.Handover.HostKey

open Esp32Shell.Library.CText Esp32Shell.Library.Hex Esp32Shell.Library.Sha256
open Shell.CommandCore Shell.CommandTable Shell.CommandLines Shell.LineReading Shell.Routing
open Storage.Nvs Arduino.Esp32Services Arduino.Changes Arduino.SerialLoop
open Idf.SshAuth
open Shell.Session (carriageReturn)

variable {ρ : Type}

/-- A key of a length that is accepted. -/
def Admissible (hostKey : List UInt8) : Prop := 128 ≤ hostKey.length ∧ hostKey.length ≤ 1984

def hostKeyArgument (value : Text) : Text := lit "ssh_host_key" ++ space :: value

def hostKeyLine (value : Text) : Text := lit "config-set" ++ space :: hostKeyArgument value

/-! ### The digits -/

theorem digit_plain {text : Text} {bytes : List UInt8} (h : Spells text bytes) :
    ∀ c ∈ text, c ≠ 0 ∧ isBlank c = false ∧ isEnding c = false := by
  have hlower : ∀ c ∈ lit "0123456789abcdef", c ≠ 0 ∧ isBlank c = false ∧ isEnding c = false := by
    decide +kernel
  have hupper : ∀ c ∈ lit "0123456789ABCDEF", c ≠ 0 ∧ isBlank c = false ∧ isEnding c = false := by
    decide +kernel
  exact fun c hc => (h.digits c hc).elim (hlower c) (hupper c)

/-- A value is taken as a key exactly where it spells one of admissible length. -/
theorem valueChange_eq_some_iff (value : Text) (c : Change) :
    valueChange (lit "ssh_host_key") value = some c ↔
      ∃ hostKey, Admissible hostKey ∧ Spells value hostKey ∧ c = .hostKey hostKey := by
  have hallowed : isAllowedConfigKey (lit "ssh_host_key") = true := by decide
  have hother : lit "ssh_host_key" ≠ lit "ssh_password" := by decide
  constructor
  · intro h
    obtain ⟨-, hkey⟩ := Option.ite_none_left_eq_some.mp h
    rw [if_neg hother, if_pos rfl] at hkey
    obtain ⟨hostKey, hfilter, rfl⟩ := Option.map_eq_some_iff.mp hkey
    obtain ⟨hdecode, hlong⟩ := Option.filter_eq_some_iff.mp hfilter
    have hle := decodeHex_length hdecode
    exact ⟨hostKey, ⟨of_decide_eq_true hlong, by omega⟩,
      spells_iff.mpr (SshCredentials.decodePairs_of_decodeHex hdecode), rfl⟩
  · rintro ⟨hostKey, ⟨hmin, hmax⟩, hspells, rfl⟩
    have hlength := hspells.length
    have hne : value ≠ [] := by
      rintro rfl
      rw [List.length_nil] at hlength
      omega
    have hroom : ¬ (value.length = 0 ∨ value.length % 2 ≠ 0 ∨ value.length / 2 > 1984) := by omega
    have hdecode : decodeHex value 1984 = some hostKey := by
      rw [decodeHex, if_neg hroom]
      exact spells_iff.mp hspells
    have hfilter : (some hostKey).filter (fun bytes => decide (128 ≤ bytes.length)) = some hostKey :=
      Option.filter_eq_some_iff.mpr ⟨rfl, decide_eq_true hmin⟩
    have hgiven : ¬ (value = [] ∨ ¬ isAllowedConfigKey (lit "ssh_host_key") = true) := by
      simp only [hne, hallowed, not_true_eq_false, or_self, not_false_eq_true]
    rw [valueChange, if_neg hgiven, if_neg hother, if_pos rfl, hdecode, hfilter]
    rfl

/-! ### The line -/

/-- The line of an admissible key is one command, and has room in the loop. -/
theorem hostKeyLine_bounded {value : Text} {hostKey : List UInt8} (hspells : Spells value hostKey)
    (hadmissible : Admissible hostKey) :
    Bounded (hostKeyLine value) ∧ (hostKeyLine value).length ≤ maxCommandLength := by
  have hplain := digit_plain hspells
  have hlength := hspells.length
  obtain ⟨hmin, hmax⟩ := hadmissible
  have hne : value ≠ [] := by
    rintro rfl
    rw [List.length_nil] at hlength
    omega
  have hline : hostKeyLine value = lit "config-set ssh_host_key " ++ value := rfl
  refine ⟨⟨?_, List.cons_ne_nil _ _, rfl, ?_⟩, ?_⟩
  · intro h
    rw [hline, List.mem_append] at h
    exact h.elim (by decide) fun hvalue => (hplain 0 hvalue).1 rfl
  · have hlast : (hostKeyLine value).getLast (List.cons_ne_nil _ _) = value.getLast hne := by
      simp only [hline, List.getLast_append_of_ne_nil _ hne]
    rw [hlast]
    exact (hplain _ (List.getLast_mem hne)).2.1
  · have hname : (lit "config-set ssh_host_key ").length = 24 := by decide
    have hroom : maxCommandLength = 4096 := rfl
    rw [hline, List.length_append]
    omega

theorem route_hostKeyLine {value : Text} (hbounded : Bounded (hostKeyLine value))
    (hroom : (hostKeyLine value).length ≤ maxCommandLength) :
    route (hostKeyLine value) = .ask (.configSet (hostKeyArgument value)) := by
  have htrimmed := trimmed_bounded hbounded
  refine route_argument (by rwa [htrimmed]) (mem_of_behaviourOf (b := .asks _ .configSet) rfl) rfl
    (List.cons_ne_nil _ _) htrimmed ?_
  exact stripped_bounded hbounded

theorem assignment_hostKeyArgument (value : Text) :
    assignment (hostKeyArgument value) = (lit "ssh_host_key", value) := assignment_cut (by decide) value

/-- What `config-set` does with a value for the key. -/
theorem configSet_hostKey (sha256 : List UInt8 → Digest) {d : Device ρ} (hr : d.preferences_.Reliable)
    {value : Text} (h0 : 0 ∉ value) : Answers sha256 (valueChange (lit "ssh_host_key") value) d
      (configSet sha256 (hostKeyArgument value) d) := by
  have hzero : 0 ∉ hostKeyArgument value := by
    have hkey : 0 ∉ lit "ssh_host_key" := by decide
    have hspace : (0 : UInt8) ≠ space := by decide
    simp [hostKeyArgument, hkey, hspace, h0]
  have hanswers := configSet_answers sha256 hr hzero
  rwa [assignment_hostKeyArgument] at hanswers

theorem hostKeyLine_unended {value : Text} {hostKey : List UInt8} (hspells : Spells value hostKey) :
    ∀ b ∈ hostKeyLine value, isEnding b = false := by
  have hname : ∀ b ∈ lit "config-set ssh_host_key ", isEnding b = false := by decide +kernel
  intro b hb
  have hcases : b ∈ lit "config-set ssh_host_key " ++ value := hb
  exact (List.mem_append.mp hcases).elim (hname b) fun hvalue => (digit_plain hspells b hvalue).2.2

/-- The dispatch of the line stores the key. -/
theorem dispatch_hostKeyLine (sha256 : List UInt8 → Digest) (others : DeviceServices (Device ρ))
    {d : Device ρ} (hr : d.preferences_.Reliable) {value : Text} {hostKey : List UInt8}
    (hadmissible : Admissible hostKey) (hspells : Spells value hostKey) :
    (dispatch (services sha256 others) d (some (hostKeyLine value))).device.preferences_.store.find
      (lit "ssh_host_key") = some (.blob hostKey) := by
  obtain ⟨hbounded, hroom⟩ := hostKeyLine_bounded hspells hadmissible
  have hroute := route_hostKeyLine hbounded hroom
  have hzero : 0 ∉ value := fun h => (digit_plain hspells 0 h).1 rfl
  have hchange : changeOf (hostKeyLine value) = valueChange (lit "ssh_host_key") value := by
    simp only [changeOf, hroute, assignment_hostKeyArgument]
  have hline : LineChanges sha256 (hostKeyLine value) d
      (dispatch (services sha256 others) d (some (hostKeyLine value))) := by
    apply lineChanges_of_answers hroute
    rw [hchange]
    exact configSet_hostKey sha256 hr hzero
  rw [hline.changed.find, hchange, (valueChange_eq_some_iff value _).mpr ⟨hostKey, hadmissible, hspells, rfl⟩]
  exact Function.update_self (lit "ssh_host_key") _ d.preferences_.store.find

/-- A key that is typed in front of an empty buffer is stored, in whatever turns the bytes arrive. -/
theorem typed_hostKey (sha256 : List UInt8 → Digest) (others : DeviceServices (Device ρ)) {c : Console ρ}
    (hr : c.device.preferences_.Reliable) (hempty : c.readLine = []) {value : Text} {hostKey : List UInt8}
    (hadmissible : Admissible hostKey) (hspells : Spells value hostKey) {ending : UInt8}
    (hending : isEnding ending = true) {turns : List Turn}
    (htyped : typed turns = hostKeyLine value ++ [ending]) :
    (turns.foldl (loop (services sha256 others)) c).device.preferences_.store.find (lit "ssh_host_key") =
      some (.blob hostKey) := by
  obtain ⟨hbounded, hroom⟩ := hostKeyLine_bounded hspells hadmissible
  obtain ⟨d, hd, hfed⟩ := preferences_line (services sha256 others) hempty (hostKeyLine_unended hspells)
    hbounded.nonempty hending htyped
  rw [List.take_of_length_le (by omega)] at hfed
  rw [hfed]
  exact dispatch_hostKeyLine sha256 others (hd ▸ hr) hadmissible hspells

/-- `config-set` takes a value for the key exactly where it spells an admissible one, and keeps the
stored key where it takes none. -/
theorem configSet_takes_iff (sha256 : List UInt8 → Digest) {d : Device ρ} (hr : d.preferences_.Reliable)
    {value : Text} (h0 : 0 ∉ value) : let reply := configSet sha256 (hostKeyArgument value) d
    (reply.answer = true ↔ ∃ hostKey, Admissible hostKey ∧ Spells value hostKey) ∧
      (reply.answer = false → reply.device.preferences_.store.find = d.preferences_.store.find) := by
  intro reply
  have hanswers := configSet_hostKey sha256 hr h0
  rw [hanswers.answer, hanswers.changed.find]
  cases hchange : valueChange (lit "ssh_host_key") value with
  | none =>
    refine ⟨iff_of_false Bool.false_ne_true ?_, fun _ => rfl⟩
    rintro ⟨hostKey, hadmissible, hspells⟩
    have hsome := (valueChange_eq_some_iff value _).mpr ⟨hostKey, hadmissible, hspells, rfl⟩
    rw [hchange] at hsome
    cases hsome
  | some c =>
    obtain ⟨hostKey, hadmissible, hspells, -⟩ := (valueChange_eq_some_iff value c).mp hchange
    exact ⟨iff_of_true rfl ⟨hostKey, hadmissible, hspells⟩, fun hfalse => by cases hfalse⟩

/-- A key of 128 to 1984 bytes, typed in digits of any case in front of an empty buffer, is stored and
is what the other image loads; `config-set` takes no other value, and keeps the stored key then. -/
theorem host_key_round_trip (sha256 : List UInt8 → Digest) (others : DeviceServices (Device ρ))
    (c : Console ρ) (hr : c.device.preferences_.Reliable) (hempty : c.readLine = []) :
    (∀ hostKey value ending turns, Admissible hostKey → Spells value hostKey → isEnding ending = true →
      typed turns = hostKeyLine value ++ [ending] →
        let fed := (turns.foldl (loop (services sha256 others)) c).device.preferences_
        fed.store.find (lit "ssh_host_key") = some (.blob hostKey) ∧
          loadBlob fed.store (lit "ssh_host_key") maxBlob = some hostKey) ∧
    ∀ (d : Device ρ) (value : Text), d.preferences_.Reliable → 0 ∉ value →
      let reply := configSet sha256 (hostKeyArgument value) d
      (reply.answer = true ↔ ∃ hostKey, Admissible hostKey ∧ Spells value hostKey) ∧
        (reply.answer = false → reply.device.preferences_.store.find = d.preferences_.store.find) := by
  constructor
  · intro hostKey value ending turns hadmissible hspells hending htyped
    have hfind := typed_hostKey sha256 others hr hempty hadmissible hspells hending htyped
    have hroom : maxBlob = 8192 := rfl
    obtain ⟨hmin, hmax⟩ := hadmissible
    refine ⟨hfind, loadBlob_eq_some_iff.mpr ⟨hfind, by omega, ?_⟩⟩
    rintro rfl
    exact absurd hmin (by decide)
  · intro d value hreliable hzero
    exact configSet_takes_iff sha256 hreliable hzero

/-- A key of 128 bytes in digits of both cases, typed in two turns. -/
def mixedCase : List Turn :=
  [⟨lit "config-set ssh_host", 0, ⟨false, false⟩⟩,
   ⟨lit "_key " ++ (List.replicate 128 (lit "aB")).flatten ++ [carriageReturn], 5, ⟨false, false⟩⟩]

theorem host_key_round_trip_mixedCase :
    let fed := (mixedCase.foldl (loop (services sha256 quiet)) (booted blank)).device.preferences_
    (fed.store.find (lit "ssh_host_key") = some (.blob (List.replicate 128 0xab)) ∧
      loadBlob fed.store (lit "ssh_host_key") maxBlob = some (List.replicate 128 0xab)) ∧
    let reply := configSet sha256 (hostKeyArgument (lit "aB")) blank
    (reply.answer = true ↔ ∃ hostKey, Admissible hostKey ∧ Spells (lit "aB") hostKey) ∧
      (reply.answer = false → reply.device.preferences_.store.find = blank.preferences_.store.find) := by
  have hending : isEnding carriageReturn = true := by decide
  have hspells : Spells (List.replicate 128 (lit "aB")).flatten (List.replicate 128 0xab) :=
    spells_iff.mpr (by decide +kernel)
  have hadmissible : Admissible (List.replicate 128 0xab) := by
    rw [Admissible, List.length_replicate]
    decide
  have htyped : typed mixedCase =
      hostKeyLine (List.replicate 128 (lit "aB")).flatten ++ [carriageReturn] := by decide +kernel
  have h := host_key_round_trip sha256 quiet (booted blank) rfl rfl
  exact ⟨h.1 _ _ _ _ hadmissible hspells hending htyped, h.2 blank (lit "aB") rfl (by decide)⟩

end Esp32Shell.Handover.HostKey
