import Esp32Shell.Idf.ConfigOutput
import Esp32Shell.Idf.SshAuth
import Esp32Shell.Idf.WifiProfiles
import Esp32Shell.Library.Run

/-!
# Whether the configuration commands tell the truth

What `config-list` and `config-get` say about a store that the commands have
filled. Both read into buffers that are shorter than what can be written, and
`config-list` tells nothing but strings of one byte from no value at all.
-/
namespace Esp32Shell.Idf.ConfigTruth

open Esp32Shell.Library.CText Esp32Shell.Library.Run
open Shell.CommandCore Shell.CommandTable Shell.CommandLines
open Storage.Nvs CommandServices ConfigOutput SshAuth
open WifiProfiles (setting Setting profileEntries setEntries setEntries_saved)

variable {ρ : Type}

/-- The commands that change the configuration. -/
def configuring : List Text := [lit "wifi-config", lit "config-set", lit "config-clear"]

/-- `config-list` prints `unset` for the keys without a value alone, and `config-get` prints every
string under a key that it does not protect. -/
structure Truthful (services : DeviceServices (Device ρ)) (d : Device ρ) : Prop where
  listed : ∀ key ∈ listedKeys,
    key ++ lit "=unset" ∈ (dispatch services d (some (lit "config-list"))).lines ↔
      d.nvs.store.find key = none
  got : ∀ key text, guarded key = false → d.nvs.store.find key = some (.str text) →
    (dispatch services d (some (lit "config-get " ++ key))).lines = [text]

/-- The values that an accepted line stores, with their keys. -/
def given (input : List UInt8) : List (Text × NvsValue) :=
  match route input with
  | .ask (.wifiConfig arguments) =>
    let v := setting arguments
    if v.Acceptable then (profileEntries v.slot v.ssid v.password).map fun e => (e.1, .str e.2) else []
  | .ask (.configSet arguments) =>
    let a := assignment arguments
    (configValue a.1 a.2).elim [] fun value => [(a.1, value)]
  | _ => []

/-- A string of at most one byte. -/
def Short : NvsValue → Bool
  | .str text => decide (text.length ≤ 1)
  | _ => false

/-! ### What is printed -/

theorem unset_listing : ∀ key ∈ listedKeys, ∀ other ∈ listedKeys, ∀ present : Bool,
    listing other present = key ++ lit "=unset" ↔ other = key ∧ present = false := by decide +kernel

theorem present_iff_short {s : Store} {key : Text} {value : NvsValue} (h : s.find key = some value) :
    present s key = true ↔ Short value = true := by
  rw [present_iff, h]
  cases value <;> simp [Short]

theorem config_list_lines (others : DeviceServices (Device ρ)) {d : Device ρ} (hr : d.nvs.Reliable) :
    (dispatch (services others) d (some (lit "config-list"))).lines =
      listedKeys.map fun key => listing key (present d.nvs.store key) := by
  have hroute : route (lit "config-list") = .invoke .configList := rfl
  have hopen : (nvsOpen d.nvs).1 = true := by rw [nvsOpen_reliable hr]
  rw [lines_of_invoke hroute]
  exact (configList_lines d).trans (if_pos hopen)

theorem route_config_get : ∀ key ∈ listedKeys,
    route (lit "config-get " ++ key) = .invoke (.configGet key) := by
  intro key hkey
  simp only [listedKeys, List.mem_cons, List.not_mem_nil, or_false] at hkey
  rcases hkey with rfl | rfl | rfl | rfl | rfl | rfl | rfl | rfl | rfl | rfl
  all_goals rfl

theorem unset_iff (others : DeviceServices (Device ρ)) {d : Device ρ} (hr : d.nvs.Reliable) {key : Text}
    (hkey : key ∈ listedKeys) :
    key ++ lit "=unset" ∈ (dispatch (services others) d (some (lit "config-list"))).lines ↔
      present d.nvs.store key = false := by
  rw [config_list_lines others hr, List.mem_map]
  constructor
  · intro h
    obtain ⟨other, hother, hline⟩ := h
    obtain ⟨rfl, habsent⟩ := (unset_listing key hkey other hother _).mp hline
    exact habsent
  · intro habsent
    exact ⟨key, hkey, (unset_listing key hkey key hkey _).mpr ⟨rfl, habsent⟩⟩

/-- A string that fits the buffer of `config-get` is printed as it is. -/
theorem config_get_lines (others : DeviceServices (Device ρ)) {d : Device ρ} (hr : d.nvs.Reliable)
    {key text : Text} (hkey : key ∈ listedKeys) (hopen : guarded key = false)
    (hvalue : d.nvs.store.find key = some (.str text)) (hlength : text.length < 128) :
    (dispatch (services others) d (some (lit "config-get " ++ key))).lines = [text] := by
  have hget : d.nvs.store.getStr key 128 = some text := Store.getStr_eq_some_iff.mpr ⟨hvalue, hlength⟩
  have hne : key ≠ [] := by
    intro hnil
    rw [hnil] at hkey
    exact absurd hkey (by decide)
  have hnvs : (nvsOpen d.nvs).1 = true := by rw [nvsOpen_reliable hr]
  rw [lines_of_invoke (route_config_get key hkey)]
  refine (configGet_lines hne d).trans ?_
  rw [if_pos hnvs, hopen, hget]
  rfl

/-- A store that holds nothing but listed keys is described truthfully exactly when all it holds is
short. -/
theorem truthful_iff_short (others : DeviceServices (Device ρ)) {d : Device ρ} (hr : d.nvs.Reliable)
    (hkeys : ∀ key, d.nvs.store.find key ≠ none → key ∈ listedKeys) :
    Truthful (services others) d ↔
      ∀ key value, d.nvs.store.find key = some value → Short value = true := by
  have hlisted : ∀ {key value}, d.nvs.store.find key = some value → key ∈ listedKeys :=
    fun {key value} hvalue => hkeys key (by rw [hvalue]; exact Option.some_ne_none value)
  constructor
  · intro h key value hvalue
    have hkey := hlisted hvalue
    rw [← present_iff_short hvalue, ← Bool.not_eq_false, ← unset_iff others hr hkey, h.listed key hkey,
      hvalue]
    exact Option.some_ne_none value
  · intro h
    constructor
    · intro key hkey
      rw [unset_iff others hr hkey]
      cases hvalue : d.nvs.store.find key with
      | none => simp [present, Store.getStr, hvalue]
      | some value => simp [(present_iff_short hvalue).mpr (h key value hvalue)]
    · intro key text hopen hvalue
      have hshort : text.length ≤ 1 := by simpa [Short] using h key (.str text) hvalue
      exact config_get_lines others hr (hlisted hvalue) hopen hvalue (by omega)

/-! ### What is stored -/

/-- The values are stored under their keys, and no other key holds another value. -/
structure Gives (values : List (Text × NvsValue)) (find find' : Text → Option NvsValue) : Prop where
  given : ∀ e ∈ values, find' e.1 = some e.2
  others : ∀ key, key ∉ values.map Prod.fst → find' key = find key ∨ find' key = none

theorem gives_nil {find : Text → Option NvsValue} : Gives [] find find :=
  ⟨fun _ he => absurd he List.not_mem_nil, fun _ _ => .inl rfl⟩

theorem gives_profile {v : Setting} (hs : 0 ∉ v.ssid) (hp : 0 ∉ v.password)
    (find : Text → Option NvsValue) :
    Gives ((profileEntries v.slot v.ssid v.password).map fun e => (e.1, .str e.2)) find
      (setEntries find (profileEntries v.slot v.ssid v.password)) := by
  constructor
  · intro e he
    obtain ⟨entry, hentry, rfl⟩ := List.mem_map.mp he
    exact setEntries_saved hs hp find entry hentry
  · intro key hkey
    rw [List.map_map] at hkey
    rw [WifiProfiles.setEntries_of_notMem hkey]
    exact .inl rfl

/-- What a line of one of the three commands does to a reliable device. -/
structure LineGives (input : List UInt8) (d : Device ρ) (done : Dispatched (Device ρ)) : Prop where
  reliable : done.device.nvs.Reliable
  find : Gives (given input) d.nvs.store.find done.device.nvs.store.find

theorem lineGives_of_refused (others : DeviceServices (Device ρ)) {d : Device ρ}
    (hr : d.nvs.Reliable) {input : List UInt8} (h : Refused input) :
    LineGives input d (dispatch (services others) d (some input)) := by
  obtain ⟨hdevice, -⟩ := h.dispatch_eq (services others) d
  have hnone : given input = [] := by
    obtain ⟨lines, status, hroute, -⟩ := h
    rw [given, hroute]
  rw [← hdevice] at hr
  exact ⟨hr, by rw [hnone, hdevice]; exact gives_nil⟩

theorem wifiConfig_gives {arguments : Text} (h0 : 0 ∉ arguments) {d : Device ρ}
    (hr : d.nvs.Reliable) {input : List UInt8} (hroute : route input = .ask (.wifiConfig arguments))
    (others : DeviceServices (Device ρ)) :
    LineGives input d (dispatch (services others) d (some input)) := by
  have hgiven : given input = if (setting arguments).Acceptable then
      (profileEntries (setting arguments).slot (setting arguments).ssid (setting arguments).password).map
        fun e => (e.1, .str e.2) else [] := by rw [given, hroute]
  by_cases ha : (setting arguments).Acceptable
  · obtain ⟨nvs, line, hreply, hreliable, hfind⟩ := WifiProfiles.wifiConfig_accepts h0 ha hr
    obtain ⟨hs, hp⟩ := WifiProfiles.zero_notMem_setting h0
    have hdone : dispatch (services others) d (some input) = ⟨.ok, _, _, _⟩ :=
      dispatch_accepted hroute hreply
    rw [hdone]
    refine ⟨hreliable, ?_⟩
    rw [hgiven, if_pos ha, hfind]
    exact gives_profile hs hp d.nvs.store.find
  · obtain ⟨line, hreply⟩ := WifiProfiles.wifiConfig_rejects h0 ha d
    have hdone : dispatch (services others) d (some input) = ⟨.invalid, _, _, _⟩ :=
      dispatch_rejected hroute hreply
    rw [hdone]
    refine ⟨hr, ?_⟩
    rw [hgiven, if_neg ha]
    exact gives_nil

theorem configSet_gives {arguments : Text} (h0 : 0 ∉ arguments) {d : Device ρ}
    (hr : d.nvs.Reliable) {input : List UInt8} (hroute : route input = .ask (.configSet arguments))
    (others : DeviceServices (Device ρ)) :
    LineGives input d (dispatch (services others) d (some input)) := by
  have hgiven : given input = (configValue (assignment arguments).1 (assignment arguments).2).elim []
      fun value => [((assignment arguments).1, value)] := by rw [given, hroute]
  obtain ⟨nvs, lines, answer, hreply, hsets⟩ := configSet_sets h0 hr
  have hdone : dispatch (services others) d (some input) = ⟨_, _, _, _⟩ := dispatch_ask hroute hreply
  rw [hdone]
  refine ⟨hsets.reliable, ?_⟩
  rw [hgiven, hsets.find]
  cases configValue (assignment arguments).1 (assignment arguments).2 with
  | none => exact gives_nil
  | some value =>
    constructor
    · intro e he
      obtain rfl := List.mem_singleton.mp he
      exact Function.update_self _ _ _
    · intro key hkey
      left
      exact Function.update_of_ne (by simpa using hkey) _ _

/-- `config-clear` only takes values away. -/
theorem configClear_reliable (arguments : Text) {d : Device ρ} (hr : d.nvs.Reliable) :
    let after := (configClear arguments d).device.nvs
    after.Reliable ∧ ∀ key, after.store.find key = d.nvs.store.find key ∨ after.store.find key = none := by
  by_cases hconfirm : arguments ≠ lit "--confirm"
  · rw [configClear, if_pos hconfirm]
    exact ⟨hr, fun key => .inl rfl⟩
  obtain ⟨happ, hreliable⟩ := nvsEraseKey_reliable (n := ⟨d.nvs.store, []⟩) rfl (lit "app_public_key")
  obtain ⟨hota, hreliable'⟩ := nvsEraseKey_reliable hreliable (lit "ota_public_key")
  have hfind := nvsEraseKey_gone hota
  rw [nvsEraseKey_gone happ] at hfind
  have hcommit : nvsCommit _ = _ := fallible_reliable hreliable' rfl
  have hdevice : (configClear arguments d).device.nvs =
      ⟨(nvsEraseKey (lit "ota_public_key")
        (nvsEraseKey (lit "app_public_key") ⟨d.nvs.store, []⟩).2).2.store, []⟩ := by
    simp only [configClear, if_neg hconfirm, nvsOpen_reliable hr, happ, hota, and_self, if_true, hcommit]
    rfl
  rw [hdevice]
  refine ⟨rfl, fun key => ?_⟩
  simp only [hfind, Function.update_apply]
  split_ifs
  · exact .inr rfl
  · exact .inr rfl
  · exact .inl rfl

theorem configClear_gives {arguments : Text} {d : Device ρ} (hr : d.nvs.Reliable) {input : List UInt8}
    (hroute : route input = .ask (.configClear arguments)) (others : DeviceServices (Device ρ)) :
    LineGives input d (dispatch (services others) d (some input)) := by
  obtain ⟨hreliable, hfind⟩ := configClear_reliable arguments hr
  have hgiven : given input = [] := by rw [given, hroute]
  obtain ⟨hdevice, -⟩ := dispatch_asked hroute (services others) d
  refine ⟨by rw [hdevice]; exact hreliable, ?_⟩
  rw [hgiven, hdevice]
  exact ⟨fun _ he => absurd he List.not_mem_nil, fun key _ => hfind key⟩

theorem line_gives (others : DeviceServices (Device ρ)) {d : Device ρ} (hr : d.nvs.Reliable)
    {input : List UInt8} (hw : word input ∈ configuring) :
    LineGives input d (dispatch (services others) d (some input)) := by
  have h0 := zero_notMem_argument input
  simp only [configuring, List.mem_cons, List.not_mem_nil, or_false] at hw
  rcases hw with hw | hw | hw
  · rcases route_asks hw rfl with h | ⟨-, hroute⟩
    · exact lineGives_of_refused others hr h
    · exact wifiConfig_gives h0 hr hroute others
  · rcases route_asks hw rfl with h | ⟨-, hroute⟩
    · exact lineGives_of_refused others hr h
    · exact configSet_gives h0 hr hroute others
  · rcases route_asks hw rfl with h | ⟨-, hroute⟩
    · exact lineGives_of_refused others hr h
    · exact configClear_gives hr hroute others

theorem profileKeys_listed : ∀ slot : Fin 2, ∀ key ∈ (profileEntries slot [] []).map Prod.fst,
    key ∈ listedKeys := by decide

theorem configValue_listed {key value : Text} {stored : NvsValue}
    (h : configValue key value = some stored) : key ∈ listedKeys := by
  by_cases hota : key = lit "ota_public_key"
  · rw [hota]
    decide
  · rw [configValue_eq hota] at h
    obtain ⟨⟨hkey, -⟩, -⟩ := Option.ite_none_right_eq_some.mp h
    rcases (allowedConfigKey_iff key).mp hkey with rfl | rfl | rfl <;> decide

/-- Every key that a line can fill is listed. -/
theorem given_listed {input : List UInt8} : ∀ e ∈ given input, e.1 ∈ listedKeys := by
  intro e he
  unfold given at he
  split at he
  · simp only at he
    split_ifs at he
    · obtain ⟨entry, hentry, rfl⟩ := List.mem_map.mp he
      have hkey := List.mem_map_of_mem (f := Prod.fst) hentry
      rw [WifiProfiles.profileKeys_eq] at hkey
      exact profileKeys_listed _ _ hkey
    · cases he
  · rename_i arguments _
    cases hvalue : configValue (assignment arguments).1 (assignment arguments).2 with
    | none =>
      simp only [hvalue] at he
      cases he
    | some value =>
      simp only [hvalue] at he
      obtain rfl := List.mem_singleton.mp he
      exact configValue_listed hvalue
  · cases he

/-! ### Runs -/

/-- A reliable device whose store holds nothing but listed keys. -/
structure Filled (d : Device ρ) : Prop where
  reliable : d.nvs.Reliable
  keys : ∀ key, d.nvs.store.find key ≠ none → key ∈ listedKeys

theorem Filled.line {d : Device ρ} (h : Filled d) (others : DeviceServices (Device ρ))
    {input : List UInt8} (hw : word input ∈ configuring) :
    Filled (dispatch (services others) d (some input)).device := by
  obtain ⟨hreliable, hfind⟩ := line_gives others h.reliable hw
  refine ⟨hreliable, fun key hkey => ?_⟩
  by_cases hgiven : key ∈ (given input).map Prod.fst
  · obtain ⟨e, he, rfl⟩ := List.mem_map.mp hgiven
    exact given_listed e he
  · rcases hfind.others key hgiven with hkept | hgone
    · exact h.keys key (by rwa [← hkept])
    · exact absurd hgone hkey

theorem afterLines_filled (others : DeviceServices (Device ρ)) {d : Device ρ} (h : Filled d)
    {lines : List (List UInt8)} (hlines : ∀ input ∈ lines, word input ∈ configuring) :
    Filled (afterLines (services others) d lines) := by
  induction lines generalizing d with
  | nil => exact h
  | cons input lines ih =>
    exact ih (h.line others (hlines input List.mem_cons_self))
      fun x hx => hlines x (List.mem_cons_of_mem input hx)

/-- Short values stay the only ones while the lines give no others. -/
theorem short_line (others : DeviceServices (Device ρ)) {d : Device ρ} (h : Filled d)
    {input : List UInt8} (hw : word input ∈ configuring)
    (hshort : ∀ key value, d.nvs.store.find key = some value → Short value = true)
    (hgiven : ∀ e ∈ given input, Short e.2 = true) :
    ∀ key value, (dispatch (services others) d (some input)).device.nvs.store.find key = some value →
      Short value = true := by
  obtain ⟨-, hfind⟩ := line_gives others h.reliable hw
  intro key value hvalue
  by_cases hkey : key ∈ (given input).map Prod.fst
  · obtain ⟨e, he, rfl⟩ := List.mem_map.mp hkey
    rw [hfind.given e he] at hvalue
    rw [← Option.some_inj.mp hvalue]
    exact hgiven e he
  · rcases hfind.others key hkey with hkept | hgone
    · exact hshort key value (hkept.symm.trans hvalue)
    · rw [hgone] at hvalue
      cases hvalue

/-- The commands tell the truth in a state that the lines lead to exactly when all it holds is
short, and all along the lines exactly when these give nothing but short values. -/
theorem truthful_iff (others : DeviceServices (Device ρ)) {d : Device ρ} (hr : d.nvs.Reliable)
    (hempty : d.nvs.store = .empty) (lines : List (List UInt8))
    (hlines : ∀ input ∈ lines, word input ∈ configuring) :
    let after := afterLines (services others) d
    (Truthful (services others) (after lines) ↔
      ∀ key value, (after lines).nvs.store.find key = some value → Short value = true) ∧
    ((∀ run, run <+: lines → Truthful (services others) (after run)) ↔
      ∀ input ∈ lines, ∀ e ∈ given input, Short e.2 = true) := by
  intro after
  have hnone : ∀ key, d.nvs.store.find key = none := by
    intro key
    rw [hempty]
    rfl
  have hfilled : ∀ run, run <+: lines → Filled (after run) := by
    intro run hrun
    exact afterLines_filled others ⟨hr, fun key hkey => absurd (hnone key) hkey⟩
      fun input hinput => hlines input (hrun.subset hinput)
  have hstate : ∀ run, run <+: lines → (Truthful (services others) (after run) ↔
      ∀ key value, (after run).nvs.store.find key = some value → Short value = true) :=
    fun run hrun => truthful_iff_short others (hfilled run hrun).reliable (hfilled run hrun).keys
  have hsnoc : ∀ run input, after (run ++ [input]) =
      (dispatch (services others) (after run) (some input)).device := fun run input => after_snoc run input
  refine ⟨hstate lines List.prefix_rfl, fun htruth input hinput e he => ?_, fun hgiven run hrun => ?_⟩
  · obtain ⟨run, rest, hsplit⟩ := List.mem_iff_append.mp hinput
    have hrun : run ++ [input] <+: lines := ⟨rest, by rw [hsplit]; simp⟩
    have hbefore := hfilled run ((List.prefix_append run [input]).trans hrun)
    have hheld := (line_gives others hbefore.reliable (hlines input hinput)).find.given e he
    rw [← hsnoc] at hheld
    exact (hstate _ hrun).mp (htruth _ hrun) e.1 e.2 hheld
  · rw [hstate run hrun]
    induction run using List.reverseRecOn with
    | nil =>
      intro key value hvalue
      exact absurd (hvalue.symm.trans (hnone key)) (Option.some_ne_none value)
    | append_singleton run input ih =>
      have hpast := (List.prefix_append run [input]).trans hrun
      have hinput : input ∈ lines := hrun.subset (by simp)
      rw [hsnoc]
      exact short_line others (hfilled run hpast) (hlines input hinput) (ih hpast) (hgiven input hinput)

theorem truthful_iff_home :
    let lines := [lit "wifi-config home secret", lit "config-set ssh_username a",
      lit "config-clear --confirm"]
    let after := afterLines silentServices blank
    (Truthful silentServices (after lines) ↔
      ∀ key value, (after lines).nvs.store.find key = some value → Short value = true) ∧
    ((∀ run, run <+: lines → Truthful silentServices (after run)) ↔
      ∀ input ∈ lines, ∀ e ∈ given input, Short e.2 = true) :=
  truthful_iff ⟨fun _ d => ⟨d, [], true⟩⟩ (d := blank) rfl rfl _ (by decide)

/-- A network and its password are stored, and listed as unset. -/
theorem stored_profile_unset :
    let d := afterLines silentServices blank [lit "wifi-config home secret"]
    d.nvs.store.find (lit "wifi_ssid") = some (.str (lit "home")) ∧
    lit "wifi_ssid=unset" ∈ (dispatch silentServices d (some (lit "config-list"))).lines ∧
    ¬ Truthful silentServices d := by
  intro d
  have hstored : d.nvs.store.find (lit "wifi_ssid") = some (.str (lit "home")) := by decide +kernel
  have hunset : lit "wifi_ssid=unset" ∈ (dispatch silentServices d (some (lit "config-list"))).lines := by
    decide +kernel
  refine ⟨hstored, hunset, fun htruth => ?_⟩
  have hnone := (htruth.listed (lit "wifi_ssid") (by decide)).mp hunset
  rw [hstored] at hnone
  cases hnone

end Esp32Shell.Idf.ConfigTruth
