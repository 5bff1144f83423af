import Esp32Shell.Arduino.Changes

/-!
# The provisioning line

The `wifi-config` line that the flashing tool sends to either image. The SSID
and the password stand in it as they are, and both images end the SSID at its
first space.
-/
namespace Esp32Shell.Handover.Provisioning

open Esp32Shell.Library.CText Esp32Shell.Library.Sha256
open Shell.CommandCore Shell.CommandTable Shell.CommandLines Shell.Routing
open Storage.Nvs Arduino.Changes
open Idf.WifiProfiles (addressed setting setting_cut Setting setEntries setEntries_saved
  setEntries_other profileEntries)

variable {α ρ : Type}

/-- The line of `Invoke-ConfiguredWifiProvisioning`. -/
def provisioningLine (slot : Fin 2) (ssid password : Text) : Text :=
  lit "wifi-config " ++ decimal slot ++ lit " " ++ ssid ++ lit " " ++ password

/-- The store holds a profile in its slot, and is otherwise as it was. -/
structure Stored (slot : Fin 2) (ssid password : Text) (find find' : Find) : Prop where
  entries : ∀ e ∈ profileEntries slot ssid password, find' e.1 = some (.str e.2)
  others : ∀ key, key ∉ profileKeys slot → find' key = find key

/-- The line is rejected and stores nothing, or stores what the tool meant. -/
def Meant (slot : Fin 2) (ssid password : Text) (find find' : Find) (status : CommandStatus) : Prop :=
  (status ≠ .ok ∧ find' = find) ∨ (status = .ok ∧ Stored slot ssid password find find')

/-- The first space is not inside the SSID: there is none, or the SSID begins with it. -/
def Unsplit (ssid : Text) : Prop := space ∉ ssid ∨ byteAt ssid 0 = space

/-- What is taken for the password when the SSID is split. -/
def misread (ssid password : Text) : Text :=
  (ssid.dropWhile (· ≠ space)).tail ++ space :: password

/-! ### The line -/

/-- The argument of `wifi-config` in the line. -/
def sentArgument (slot : Fin 2) (ssid password : Text) : Text :=
  decimal slot ++ space :: (ssid ++ space :: password)

theorem line_eq (slot : Fin 2) (ssid password : Text) :
    provisioningLine slot ssid password = lit "wifi-config" ++ space :: sentArgument slot ssid password := by
  have hname : lit "wifi-config " = lit "wifi-config" ++ [space] := by decide
  have hspace : lit " " = [space] := by decide
  simp [provisioningLine, sentArgument, hname, hspace]

theorem decimal_slot (slot : Fin 2) : ∃ digit, decimal slot = [digit] ∧ digit ≠ 0 ∧
    isBlank digit = false ∧ ∀ rest, addressed (digit :: space :: rest) = (slot, rest) := by
  have hslots : slot = 0 ∨ slot = 1 := by omega
  rcases hslots with rfl | rfl
  · exact ⟨48, by decide, by decide, by decide, fun rest => rfl⟩
  · exact ⟨49, by decide, by decide, by decide, fun rest => rfl⟩

theorem addressed_sent (slot : Fin 2) (ssid password : Text) :
    addressed (sentArgument slot ssid password) = (slot, ssid ++ space :: password) := by
  obtain ⟨digit, hdigit, -, -, haddressed⟩ := decimal_slot slot
  rw [sentArgument, hdigit]
  exact haddressed _

theorem zero_notMem_sent (slot : Fin 2) {ssid password : Text} (hs : 0 ∉ ssid) (hp : 0 ∉ password) :
    0 ∉ sentArgument slot ssid password := by
  obtain ⟨digit, hdigit, hne, -, -⟩ := decimal_slot slot
  simp [sentArgument, hdigit, hs, hp, Ne.symm hne, space]

/-- Blanks at the end are dropped behind the last byte that is none. -/
theorem rdropWhile_append_cons {p : UInt8 → Bool} {b : UInt8} (hb : p b = false) (pre post : Text) :
    (pre ++ b :: post).rdropWhile p = pre ++ b :: post.rdropWhile p := by
  induction post using List.reverseRecOn with
  | nil => exact List.rdropWhile_concat_neg p pre b (by simp [hb])
  | append_singleton post c ih =>
    have hassoc : pre ++ b :: (post ++ [c]) = (pre ++ b :: post) ++ [c] := by simp
    rw [hassoc]
    by_cases hc : p c = true
    · rw [List.rdropWhile_concat_pos p _ c hc, List.rdropWhile_concat_pos p _ c hc, ih]
    · rw [List.rdropWhile_concat_neg p _ c hc, List.rdropWhile_concat_neg p _ c hc, hassoc]

/-- The digit of the slot keeps the line from being trimmed down to its name. -/
theorem route_line (slot : Fin 2) {ssid password : Text} (hs : 0 ∉ ssid) (hp : 0 ∉ password)
    (hsl : ssid.length ≤ 32) (hpl : password.length ≤ 64) :
    route (provisioningLine slot ssid password) =
      .ask (.wifiConfig (sentArgument slot ssid password)) := by
  obtain ⟨digit, hdigit, -, hblank, -⟩ := decimal_slot slot
  have h0 : 0 ∉ provisioningLine slot ssid password := by
    have hname : 0 ∉ lit "wifi-config" := by decide
    have hspace : (0 : UInt8) ≠ space := by decide
    simp [line_eq, hname, hspace, zero_notMem_sent slot hs hp]
  have hstripped : stripped (provisioningLine slot ssid password) =
      lit "wifi-config" ++ space :: sentArgument slot ssid password := by
    rw [stripped, (cString_eq_self_iff _).mpr h0, line_eq]
    rfl
  have htrimmed : trimmed (provisioningLine slot ssid password) = lit "wifi-config" ++
      space :: digit :: (space :: (ssid ++ space :: password)).rdropWhile isBlank := by
    rw [trimmed, hstripped, sentArgument, hdigit]
    exact rdropWhile_append_cons hblank (lit "wifi-config" ++ [space]) _
  have hlength : (trimmed (provisioningLine slot ssid password)).length ≤ maxCommandLength := by
    have hle := (trimmed_begins (provisioningLine slot ssid password)).length_le
    have hname : (lit "wifi-config").length = 11 := by decide
    rw [hstripped, sentArgument, hdigit] at hle
    simp only [List.length_append, List.length_cons, List.length_nil, hname] at hle
    unfold maxCommandLength
    omega
  exact route_argument hlength (mem_of_behaviourOf (b := .asks _ .wifiConfig) rfl) rfl
    (List.cons_ne_nil _ _) htrimmed hstripped

/-! ### What is read -/

theorem setting_unsplit (slot : Fin 2) {ssid : Text} (h : space ∉ ssid) (password : Text) :
    setting (sentArgument slot ssid password) = ⟨slot, ssid, password⟩ := by
  have haddressed := addressed_sent slot ssid password
  rw [setting_cut (congrArg Prod.snd haddressed) h, haddressed]

theorem setting_split (slot : Fin 2) {ssid : Text} (h : space ∈ ssid) (password : Text) :
    setting (sentArgument slot ssid password) =
      ⟨slot, ssid.takeWhile (· ≠ space), misread ssid password⟩ := by
  obtain ⟨pre, post, rfl, hpre⟩ := exists_cut h
  have haddressed := addressed_sent slot (pre ++ space :: post) password
  have hcut : (addressed (sentArgument slot (pre ++ space :: post) password)).2 =
      pre ++ space :: (post ++ space :: password) := by
    rw [haddressed]
    simp
  rw [setting_cut hcut hpre, haddressed, misread, takeWhile_cut hpre, dropWhile_cut hpre, List.tail_cons]

/-- A saved profile is the one that was meant exactly when both of its values are. -/
theorem stored_iff {slot : Fin 2} {find find' : Find} {s p : Text} (hs : 0 ∉ s) (hp : 0 ∉ p)
    (hsaved : find' = setEntries find (profileEntries slot s p)) (ssid password : Text) :
    Stored slot ssid password find find' ↔ s = ssid ∧ p = password := by
  have hfind : ∀ e ∈ profileEntries slot s p, find' e.1 = some (.str e.2) := by
    rw [hsaved]
    exact setEntries_saved hs hp find
  constructor
  · intro h
    have hssid := hfind (Idf.CommandServices.ssidKey slot, s) (by simp [profileEntries])
    have hpassword := hfind (Idf.CommandServices.passwordKey slot, p) (by simp [profileEntries])
    rw [h.entries (_, ssid) (by simp [profileEntries])] at hssid
    rw [h.entries (_, password) (by simp [profileEntries])] at hpassword
    cases hssid
    cases hpassword
    exact ⟨rfl, rfl⟩
  · intro h
    obtain ⟨rfl, rfl⟩ := h
    refine ⟨hfind, fun key hkey => ?_⟩
    rw [hsaved, setEntries_other hkey]

/-- What an image makes of an argument: it saves the setting, or rejects it. -/
structure Takes (accepts : Bool) (arguments : Text) (find find' : Find) (status : CommandStatus) :
    Prop where
  status : status = .ok ↔ accepts = true
  rejected : accepts = false → find' = find
  saved : accepts = true → let v := setting arguments
    find' = setEntries find (profileEntries v.slot v.ssid v.password)

/-- The line means what the tool meant unless another setting is accepted. -/
theorem meant_iff {accepts : Bool} {slot : Fin 2} {ssid password : Text} (hs : 0 ∉ ssid)
    (hp : 0 ∉ password) {find find' : Find} {status : CommandStatus}
    (h : Takes accepts (sentArgument slot ssid password) find find' status) :
    Meant slot ssid password find find' status ↔ accepts = false ∨ space ∉ ssid := by
  obtain ⟨hstatus, hrejected, hsaved⟩ := h
  have hzero := Idf.WifiProfiles.zero_notMem_setting (zero_notMem_sent slot hs hp)
  cases accepts with
  | false =>
    refine iff_of_true (.inl ⟨?_, hrejected rfl⟩) (.inl rfl)
    simpa using hstatus
  | true =>
    have hok : status = .ok := hstatus.mpr rfl
    by_cases hspace : space ∈ ssid
    · have hsplit := setting_split slot hspace password
      rw [hsplit] at hsaved hzero
      have hother := stored_iff hzero.1 hzero.2 (hsaved rfl) ssid password
      have hne : ¬ (ssid.takeWhile (· ≠ space) = ssid ∧ misread ssid password = password) := by
        intro hsame
        rw [← hsame.1] at hspace
        exact absurd (List.mem_takeWhile_imp hspace) (by simp)
      refine iff_of_false (fun hmeant => ?_) (by simp [hspace])
      obtain ⟨hbad, -⟩ | ⟨-, hstored⟩ := hmeant
      · exact hbad hok
      · exact hne (hother.mp hstored)
    · have hunsplit := setting_unsplit slot hspace password
      rw [hunsplit] at hsaved
      have hsame := (stored_iff hs hp (hsaved rfl) ssid password).mpr ⟨rfl, rfl⟩
      simp [Meant, hok, hsame, hspace]

/-! ### The images -/

theorem arduino_takes (sha256 : List UInt8 → Digest)
    (others : DeviceServices (Arduino.Esp32Services.Device α)) {d : Arduino.Esp32Services.Device α}
    (hr : d.preferences_.Reliable) {input : List UInt8} {arguments : Text}
    (hroute : route input = .ask (.wifiConfig arguments)) (h0 : 0 ∉ arguments) :
    let done := dispatch (Arduino.Esp32Services.services sha256 others) d (some input)
    Takes (profileChange arguments).isSome arguments d.preferences_.store.find
      done.device.preferences_.store.find done.status := by
  intro done
  have hchange : changeOf input = profileChange arguments := by rw [changeOf, hroute]
  obtain ⟨hchanged, hstatus⟩ : LineChanges sha256 input d done := by
    apply lineChanges_of_answers hroute
    rw [hchange]
    exact wifiConfig_answers sha256 hr h0
  rw [hchange] at hchanged hstatus
  refine ⟨hstatus, fun hnone => ?_, fun hsome => ?_⟩
  · rw [hchanged.find, Option.isSome_eq_false_iff.mp hnone |> Option.isNone_iff_eq_none.mp]
    rfl
  · obtain ⟨c, hc⟩ := Option.isSome_iff_exists.mp hsome
    obtain ⟨-, hprofile⟩ := Option.ite_none_right_eq_some.mp hc
    rw [hchanged.find, hc, ← Option.some_inj.mp hprofile]
    rfl

theorem idf_takes (others : DeviceServices (Idf.CommandServices.Device ρ))
    {d : Idf.CommandServices.Device ρ} (hr : d.nvs.Reliable) {input : List UInt8} {arguments : Text}
    (hroute : route input = .ask (.wifiConfig arguments)) (h0 : 0 ∉ arguments) :
    let done := dispatch (Idf.CommandServices.services others) d (some input)
    Takes (decide (setting arguments).Acceptable) arguments d.nvs.store.find
      done.device.nvs.store.find done.status := by
  intro done
  by_cases ha : (setting arguments).Acceptable
  · obtain ⟨nvs, line, hreply, -, hfind⟩ := Idf.WifiProfiles.wifiConfig_accepts h0 ha hr
    have hdone : done = ⟨.ok, _, _, _⟩ := dispatch_accepted hroute hreply
    rw [hdone]
    exact ⟨by simp [ha], fun hnot => absurd ha (of_decide_eq_false hnot), fun _ => hfind⟩
  · obtain ⟨line, hreply⟩ := Idf.WifiProfiles.wifiConfig_rejects h0 ha d
    have hdone : done = ⟨.invalid, _, _, _⟩ := dispatch_rejected hroute hreply
    rw [hdone]
    exact ⟨by simp [ha], fun _ => rfl, fun hyes => absurd (of_decide_eq_true hyes) ha⟩

/-- What the images answer to a split SSID. -/
theorem accepts_split (slot : Fin 2) {ssid : Text} (h : space ∈ ssid) (hlength : ssid.length ≤ 32)
    (password : Text) :
    ((profileChange (sentArgument slot ssid password)).isSome = false ↔ byteAt ssid 0 = space) ∧
    (decide (setting (sentArgument slot ssid password)).Acceptable = false ↔
      byteAt ssid 0 = space ∨ 64 < (misread ssid password).length) := by
  have hsplit := setting_split slot h password
  have hmisread : misread ssid password ≠ [] := by simp [misread]
  have hle : (ssid.takeWhile (· ≠ space)).length ≤ 32 :=
    (List.takeWhile_prefix _).length_le.trans hlength
  have hnil : ssid.takeWhile (· ≠ space) = [] ↔ byteAt ssid 0 = space := by
    cases ssid with
    | nil => cases h
    | cons b rest => by_cases hb : b = space <;> simp [byteAt, hb]
  rw [profileChange, hsplit, ← hnil]
  generalize ssid.takeWhile (· ≠ space) = pre at hle
  constructor
  · by_cases hpre : pre = [] <;> simp [hpre, hmisread, hle]
  · by_cases hpre : pre = [] <;> simp [Setting.Acceptable, hpre, hmisread, hle]

/-- The line means what the tool meant, on either image, exactly when the first space is not inside
the SSID; or, on the image that bounds passwords, when what is taken for the password is too long. -/
theorem line_meant_iff (sha256 : List UInt8 → Digest)
    (arduinoOthers : DeviceServices (Arduino.Esp32Services.Device α))
    (idfOthers : DeviceServices (Idf.CommandServices.Device ρ))
    (arduino : Arduino.Esp32Services.Device α) (idf : Idf.CommandServices.Device ρ)
    (harduino : arduino.preferences_.Reliable) (hidf : idf.nvs.Reliable)
    (slot : Fin 2) (ssid password : Text) (hs : 0 ∉ ssid) (hp : 0 ∉ password)
    (hssid : 1 ≤ ssid.length ∧ ssid.length ≤ 32) (hpassword : 1 ≤ password.length ∧ password.length ≤ 64) :
    let line := provisioningLine slot ssid password
    let onArduino := dispatch (Arduino.Esp32Services.services sha256 arduinoOthers) arduino (some line)
    let onIdf := dispatch (Idf.CommandServices.services idfOthers) idf (some line)
    (Meant slot ssid password arduino.preferences_.store.find
        onArduino.device.preferences_.store.find onArduino.status ↔ Unsplit ssid) ∧
    (Meant slot ssid password idf.nvs.store.find onIdf.device.nvs.store.find onIdf.status ↔
      Unsplit ssid ∨ 64 < (misread ssid password).length) := by
  intro line onArduino onIdf
  have h0 := zero_notMem_sent slot hs hp
  have hroute := route_line slot hs hp hssid.2 hpassword.2
  rw [meant_iff hs hp (arduino_takes sha256 arduinoOthers harduino hroute h0),
    meant_iff hs hp (idf_takes idfOthers hidf hroute h0)]
  by_cases hspace : space ∈ ssid
  · obtain ⟨hchange, hacceptable⟩ := accepts_split slot hspace hssid.2 password
    simp only [hchange, hacceptable, Unsplit, hspace, not_true_eq_false, or_false, false_or, and_self]
  · exact ⟨iff_of_true (.inr hspace) (.inl hspace), iff_of_true (.inr hspace) (.inl (.inl hspace))⟩

theorem line_meant_iff_home :
    let line := provisioningLine 1 (lit "home") (lit "my secret")
    let onArduino := dispatch (Arduino.Esp32Services.services sha256 Arduino.Esp32Services.quiet)
      Arduino.Esp32Services.blank (some line)
    let onIdf := dispatch Idf.CommandServices.silentServices Idf.CommandServices.blank (some line)
    (Meant 1 (lit "home") (lit "my secret") Store.empty.find
        onArduino.device.preferences_.store.find onArduino.status ↔ Unsplit (lit "home")) ∧
    (Meant 1 (lit "home") (lit "my secret") Store.empty.find onIdf.device.nvs.store.find onIdf.status ↔
      Unsplit (lit "home") ∨ 64 < (misread (lit "home") (lit "my secret")).length) :=
  line_meant_iff sha256 Arduino.Esp32Services.quiet ⟨fun _ d => ⟨d, [], true⟩⟩
    Arduino.Esp32Services.blank Idf.CommandServices.blank rfl rfl 1 (lit "home") (lit "my secret")
    (by decide) (by decide) (by decide) (by decide)

/-- Either image reports success and stores a network `My` with a longer password. -/
theorem spaced_ssid_split :
    let line := provisioningLine 0 (lit "My Home") (lit "secret12")
    let onArduino := dispatch (Arduino.Esp32Services.services sha256 Arduino.Esp32Services.quiet)
      Arduino.Esp32Services.blank (some line)
    let onIdf := dispatch Idf.CommandServices.silentServices Idf.CommandServices.blank (some line)
    (onArduino.status = .ok ∧
      onArduino.device.preferences_.store.find (lit "wifi_ssid_0") = some (.str (lit "My")) ∧
      ¬ Meant 0 (lit "My Home") (lit "secret12") Store.empty.find
        onArduino.device.preferences_.store.find onArduino.status) ∧
    (onIdf.status = .ok ∧
      onIdf.device.nvs.store.find (lit "wifi_ssid_0") = some (.str (lit "My")) ∧
      ¬ Meant 0 (lit "My Home") (lit "secret12") Store.empty.find
        onIdf.device.nvs.store.find onIdf.status) := by
  intro line onArduino onIdf
  have hnot : ∀ find' status, status = CommandStatus.ok →
      find' (lit "wifi_ssid_0") = some (.str (lit "My")) →
      ¬ Meant 0 (lit "My Home") (lit "secret12") Store.empty.find find' status := by
    intro find' status hok hfind hmeant
    obtain ⟨hbad, -⟩ | ⟨-, hstored⟩ := hmeant
    · exact hbad hok
    · have hentry := hstored.entries (lit "wifi_ssid_0", lit "My Home") (by decide)
      rw [hfind] at hentry
      exact absurd hentry (by decide)
  have harduino : onArduino.status = .ok ∧
      onArduino.device.preferences_.store.find (lit "wifi_ssid_0") = some (.str (lit "My")) := by
    decide +kernel
  have hidf : onIdf.status = .ok ∧
      onIdf.device.nvs.store.find (lit "wifi_ssid_0") = some (.str (lit "My")) := by decide +kernel
  exact ⟨⟨harduino.1, harduino.2, hnot _ _ harduino.1 harduino.2⟩,
    hidf.1, hidf.2, hnot _ _ hidf.1 hidf.2⟩

end Esp32Shell.Handover.Provisioning
