import Esp32Shell.Arduino.ConfigOutput
import Esp32Shell.Idf.CommandServices

/-!
# What the configuration commands show

Two stores that differ in their secrets alone, and what `config-get`,
`config-list` and `wifi-profiles` print of both. `config-list` reads every value
into two bytes and `config-get` into 128, so that what is printed depends on the
length of a secret; and the digest of the password is no key that `config-get`
protects.
-/
namespace Esp32Shell.Idf.ConfigOutput

open Esp32Shell.Library.CText
open Shell.CommandCore Shell.CommandTable Shell.CommandLines
open Storage.Nvs CommandServices
open Arduino.ConfigOutput (secretKeys)

variable {ρ : Type}

/-- `nvs_get_str` of `config-list`. -/
def present (s : Store) (key : Text) : Bool := (s.getStr key 2).isSome

/-- The line of `config-list` about a key. -/
def listing (key : Text) (present : Bool) : Text :=
  snprintf 64 (key ++ lit "=" ++
    if present then (if isSecret key then lit "<protected>" else lit "set") else lit "unset")

/-- The keys whose values `config-get` does not print. -/
def guarded (key : Text) : Bool :=
  contains key (lit "password") || contains key (lit "host_key") || contains key (lit "public_key")

/-- The listed secrets are strings of at most one byte in both stores or in none. -/
def SameListed (s s' : Store) : Prop :=
  ∀ key ∈ secretKeys, key ∈ listedKeys → ∀ text text', s.find key = some (.str text) →
    s'.find key = some (.str text') → (text.length ≤ 1 ↔ text'.length ≤ 1)

def keyNotFound : Text := lit "error: key not found"

/-- What `config-get` prints of a string. -/
def printed (text : Text) : Text := if text.length < 128 then text else keyNotFound

/-- Digests that are stored as strings are printed alike. -/
def SameDigest (s s' : Store) : Prop :=
  ∀ text text', s.find (lit "ssh_pw_hash") = some (.str text) →
    s'.find (lit "ssh_pw_hash") = some (.str text') → printed text = printed text'

/-! ### The commands -/

theorem present_iff (s : Store) (key : Text) :
    present s key = true ↔ ∃ text, s.find key = some (.str text) ∧ text.length ≤ 1 := by
  rw [present, Option.isSome_iff_exists]
  exact exists_congr fun text => by rw [Store.getStr_eq_some_iff, Nat.lt_succ_iff]

theorem configList_lines (d : Device ρ) : (configList d).lines =
    if (nvsOpen d.nvs).1 then listedKeys.map fun key => listing key (present d.nvs.store key)
    else [nvsUnavailable] := by
  rw [configList, nvsOpen_eq]
  cases d.nvs.results.headD true <;> rfl

theorem configGet_lines {key : Text} (hne : key ≠ []) (d : Device ρ) : (configGet key d).lines =
    if (nvsOpen d.nvs).1 then
      [if guarded key then lit "value=<protected>"
        else (d.nvs.store.getStr key 128).getD keyNotFound]
    else [nvsUnavailable] := by
  rw [configGet, nvsOpen_eq, if_neg hne, guarded]
  cases d.nvs.results.headD true with
  | false => rfl
  | true =>
    generalize (contains key (lit "password") || contains key (lit "host_key") ||
      contains key (lit "public_key")) = secret
    cases secret with
    | true => rfl
    | false => cases hvalue : d.nvs.store.getStr key 128 <;> simp only [hvalue] <;> rfl

/-- A key is not shown alike where it is present and where it is not. -/
theorem listing_ne : ∀ key ∈ listedKeys, listing key true ≠ listing key false := by decide

/-- All secrets but the digest are protected by `config-get`. -/
theorem guarded_of_secret : ∀ key ∈ secretKeys, guarded key = true ∨ key = lit "ssh_pw_hash" := by
  decide

theorem ssidKeys_public : ssidKey 0 ∉ secretKeys ∧ ssidKey 1 ∉ secretKeys := by decide

/-! ### Two stores -/

theorem present_alike {s s' : Store} (h : Store.Alike (· ∈ secretKeys) s s') :
    (∀ key ∈ listedKeys, present s key = present s' key) ↔ SameListed s s' := by
  constructor
  · intro hsame key _ hlisted text text' hs hs'
    have hkey := Bool.eq_iff_iff.mp (hsame key hlisted)
    rw [present_iff, present_iff, hs, hs'] at hkey
    simpa using hkey
  · intro hsame key hlisted
    by_cases hsecret : key ∈ secretKeys
    · rw [Bool.eq_iff_iff, present_iff, present_iff]
      constructor
      · intro hpresent
        obtain ⟨text, hs, hle⟩ := hpresent
        obtain ⟨text', hs'⟩ := h.str hs
        exact ⟨text', hs', (hsame key hsecret hlisted text text' hs hs').mp hle⟩
      · intro hpresent
        obtain ⟨text', hs', hle⟩ := hpresent
        obtain ⟨text, hs⟩ := h.symm.str hs'
        exact ⟨text, hs, (hsame key hsecret hlisted text text' hs hs').mpr hle⟩
    · rw [present, present, Store.getStr_congr (h.find key hsecret)]

theorem configList_alike {d d' : Device ρ} (hcalls : d.nvs.results = d'.nvs.results)
    (h : Store.Alike (· ∈ secretKeys) d.nvs.store d'.nvs.store) :
    (configList d).lines = (configList d').lines ↔
      ((nvsOpen d.nvs).1 = true → SameListed d.nvs.store d'.nvs.store) := by
  rw [configList_lines, configList_lines, nvsOpen_eq, nvsOpen_eq, hcalls]
  cases d'.nvs.results.headD true with
  | false => exact iff_of_true rfl fun hopen => absurd hopen Bool.false_ne_true
  | true =>
    simp only [if_true, forall_const]
    rw [List.map_inj_left, ← present_alike h]
    apply forall₂_congr
    intro key hkey
    have hne := listing_ne key hkey
    cases present d.nvs.store key <;> cases present d'.nvs.store key <;> simp [hne, hne.symm]

theorem wifiProfiles_alike {d d' : Device ρ} (hcalls : d.nvs.results = d'.nvs.results)
    (h : Store.Alike (· ∈ secretKeys) d.nvs.store d'.nvs.store) :
    (wifiProfiles d).lines = (wifiProfiles d').lines := by
  have hread : ∀ key, key ∉ secretKeys →
      readString d.nvs.store key 33 = readString d'.nvs.store key 33 := by
    intro key hkey
    rw [readString, readString, Store.getStr_congr (h.find key hkey)]
  rw [wifiProfiles, wifiProfiles, nvsOpen_eq, nvsOpen_eq, hcalls]
  cases d'.nvs.results.headD true with
  | false => rfl
  | true => simp only [hread _ ssidKeys_public.1, hread _ ssidKeys_public.2, Device.answerNvs]

theorem getStr_printed {s : Store} {key text : Text} (hs : s.find key = some (.str text)) :
    (s.getStr key 128).getD keyNotFound = printed text := by
  by_cases hl : text.length < 128
  · rw [Store.getStr_eq_some_iff.mpr ⟨hs, hl⟩, printed, if_pos hl, Option.getD_some]
  · simp [Store.getStr, hs, printed, hl]

theorem digest_alike {s s' : Store} (h : Store.Alike (· ∈ secretKeys) s s') :
    (s.getStr (lit "ssh_pw_hash") 128).getD keyNotFound =
      (s'.getStr (lit "ssh_pw_hash") 128).getD keyNotFound ↔ SameDigest s s' := by
  constructor
  · intro hsame text text' hs hs'
    rwa [getStr_printed hs, getStr_printed hs'] at hsame
  · intro hsame
    by_cases hstr : ∃ text, s.find (lit "ssh_pw_hash") = some (.str text)
    · obtain ⟨text, hs⟩ := hstr
      obtain ⟨text', hs'⟩ := h.str hs
      rw [getStr_printed hs, getStr_printed hs']
      exact hsame text text' hs hs'
    · have hnone : ∀ s : Store, (¬ ∃ text, s.find (lit "ssh_pw_hash") = some (.str text)) →
          s.getStr (lit "ssh_pw_hash") 128 = none := by
        intro s hno
        rw [Option.eq_none_iff_forall_ne_some]
        intro text htext
        exact hno ⟨text, (Store.getStr_eq_some_iff.mp htext).1⟩
      have hstr' : ¬ ∃ text, s'.find (lit "ssh_pw_hash") = some (.str text) := by
        intro hex
        obtain ⟨text', hs'⟩ := hex
        exact hstr (h.symm.str hs')
      rw [hnone s hstr, hnone s' hstr']

theorem configGet_alike {d d' : Device ρ} (hcalls : d.nvs.results = d'.nvs.results)
    (h : Store.Alike (· ∈ secretKeys) d.nvs.store d'.nvs.store) {key : Text} (hne : key ≠ []) :
    (configGet key d).lines = (configGet key d').lines ↔
      ((nvsOpen d.nvs).1 = true → key = lit "ssh_pw_hash" → SameDigest d.nvs.store d'.nvs.store) := by
  rw [configGet_lines hne, configGet_lines hne, nvsOpen_eq, nvsOpen_eq, hcalls]
  cases d'.nvs.results.headD true with
  | false => exact iff_of_true rfl fun hopen => absurd hopen Bool.false_ne_true
  | true =>
    simp only [if_true, forall_const, List.singleton_inj]
    by_cases hdigest : key = lit "ssh_pw_hash"
    · have hnot : ¬ guarded (lit "ssh_pw_hash") = true := by decide
      rw [hdigest, if_neg hnot, if_neg hnot, digest_alike h, forall_prop_of_true rfl]
    · refine iff_of_true ?_ fun heq => absurd heq hdigest
      by_cases hsecret : key ∈ secretKeys
      · have hguarded := (guarded_of_secret key hsecret).resolve_right hdigest
        rw [if_pos hguarded, if_pos hguarded]
      · rw [Store.getStr_congr (h.find key hsecret)]

/-- The three commands print the same of two stores that differ in secrets alone exactly when a
line that lists finds no secret short in one alone, and one that asks for the digest finds no other
string. -/
theorem secrets_hidden_iff (others : DeviceServices (Device ρ)) {d d' : Device ρ}
    (hcalls : d.nvs.results = d'.nvs.results)
    (h : Store.Alike (· ∈ secretKeys) d.nvs.store d'.nvs.store) (input : List UInt8)
    (hw : word input = lit "config-get" ∨ word input = lit "config-list" ∨
      word input = lit "wifi-profiles") :
    (dispatch (services others) d (some input)).lines =
      (dispatch (services others) d' (some input)).lines ↔
    ((nvsOpen d.nvs).1 = true →
      (route input = .invoke .configList → SameListed d.nvs.store d'.nvs.store) ∧
      (route input = .invoke (.configGet (lit "ssh_pw_hash")) →
        SameDigest d.nvs.store d'.nvs.store)) := by
  have hrefused : Refused input → ((dispatch (services others) d (some input)).lines =
      (dispatch (services others) d' (some input)).lines ↔ ((nvsOpen d.nvs).1 = true →
      (route input = .invoke .configList → SameListed d.nvs.store d'.nvs.store) ∧
      (route input = .invoke (.configGet (lit "ssh_pw_hash")) →
        SameDigest d.nvs.store d'.nvs.store))) := fun hr =>
    iff_of_true (hr.lines_eq (services others) d d') fun _ =>
      ⟨fun hlist => absurd hlist (hr.route_ne _), fun hget => absurd hget (hr.route_ne _)⟩
  rcases hw with hw | hw | hw
  · rcases route_reads hw rfl with hr | ⟨hne, hroute⟩
    · exact hrefused hr
    · rw [lines_of_invoke hroute, lines_of_invoke hroute, hroute]
      refine (configGet_alike hcalls h hne).trans ?_
      simp
  · rcases route_calls hw rfl with hr | hroute
    · exact hrefused hr
    · rw [lines_of_invoke hroute, lines_of_invoke hroute, hroute]
      refine (configList_alike hcalls h).trans ?_
      simp
  · rcases route_calls hw rfl with hr | hroute
    · exact hrefused hr
    · rw [lines_of_invoke hroute, lines_of_invoke hroute, hroute]
      refine iff_of_true (wifiProfiles_alike hcalls h) fun _ => ?_
      simp

/-- A device with an SSH password alone. -/
def withPassword (password : Text) : Device Unit :=
  { blank with nvs := ⟨(Store.empty.setStr (lit "ssh_password") password).getD .empty, []⟩ }

theorem withPassword_find (password : Text) : (withPassword password).nvs.store.find =
    Function.update Store.empty.find (lit "ssh_password") (some (.str (cString password))) := by
  have hset : Store.empty.setStr (lit "ssh_password") password ≠ none := by
    have hle : (lit "ssh_password").length ≤ maxKeyLength := by decide
    simp [Store.setStr, hle]
  obtain ⟨s, hs⟩ := Option.ne_none_iff_exists'.mp hset
  rw [withPassword, hs]
  exact Store.setStr_eq_some hs

theorem withPassword_alike (password password' : Text) :
    Store.Alike (· ∈ secretKeys) (withPassword password).nvs.store (withPassword password').nvs.store := by
  constructor
  · intro key
    rw [withPassword_find, withPassword_find]
    by_cases hkey : key = lit "ssh_password"
    · simp [hkey, NvsValue.type]
    · simp [hkey]
  · intro key hpublic
    have hne : key ≠ lit "ssh_password" := by
      intro he
      exact hpublic (by rw [he]; decide)
    rw [withPassword_find, withPassword_find, Function.update_of_ne hne, Function.update_of_ne hne]

theorem secrets_hidden_iff_listed :
    let d := withPassword (lit "first")
    let d' := withPassword (lit "second")
    (dispatch silentServices d (some (lit "config-list"))).lines =
      (dispatch silentServices d' (some (lit "config-list"))).lines ↔
    ((nvsOpen d.nvs).1 = true →
      (route (lit "config-list") = .invoke .configList → SameListed d.nvs.store d'.nvs.store) ∧
      (route (lit "config-list") = .invoke (.configGet (lit "ssh_pw_hash")) →
        SameDigest d.nvs.store d'.nvs.store)) := by
  intro d d'
  have hcalls : d.nvs.results = d'.nvs.results := rfl
  exact secrets_hidden_iff ⟨fun _ d => ⟨d, [], true⟩⟩ hcalls (withPassword_alike _ _)
    (lit "config-list") (by decide)

/-- `config-list` tells a password of one byte from a longer one. -/
theorem short_password_shown :
    let d := withPassword (lit "x")
    let d' := withPassword (lit "Correct1Horse")
    Store.Alike (· ∈ secretKeys) d.nvs.store d'.nvs.store ∧
    lit "ssh_password=<protected>" ∈ (dispatch silentServices d (some (lit "config-list"))).lines ∧
    lit "ssh_password=unset" ∈ (dispatch silentServices d' (some (lit "config-list"))).lines ∧
    (dispatch silentServices d (some (lit "config-list"))).lines ≠
      (dispatch silentServices d' (some (lit "config-list"))).lines :=
  ⟨withPassword_alike _ _, by decide +kernel, by decide +kernel, by decide +kernel⟩

end Esp32Shell.Idf.ConfigOutput
