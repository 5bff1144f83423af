import Esp32Shell.Idf.CommandServices
import Esp32Shell.Library.Register
import Esp32Shell.Library.Sha256
import Esp32Shell.Shell.CommandLines

/-!
# SSH credentials

`config-set` writes them, `load_auth_config` reads them after a restart, and
`user_auth` compares a login with them. Of the three values only the username is
read from where it is written: the digest of the password is read under a key
that no command writes, and the host key as a blob where a string is written.
-/
namespace Esp32Shell.Idf.SshAuth

open Esp32Shell.Library.CText Esp32Shell.Library.Hex Esp32Shell.Library.Register
open Esp32Shell.Library.Sha256
open Shell.CommandCore Shell.CommandTable Shell.CommandLines
open Storage.Nvs CommandServices

variable {ρ : Type}

structure AuthConfig where
  username : Text
  passwordDigest : Digest
  hostKey : List UInt8

def maxUsername : Nat := 32
def maxBlob : Nat := 8192

def loadBlob (s : Store) (key : Text) (capacity : Nat) : Option (List UInt8) :=
  (s.getBlob key capacity).filter (· ≠ [])

/-- `load_auth_config`. -/
def loadAuthConfig (nvs : Flash) : Option AuthConfig :=
  match nvsOpen nvs with
  | (false, _) => none
  | (true, nvs) => do
    let username ← readString nvs.store (lit "ssh_username") maxUsername
    let digest ← loadBlob nvs.store (lit "ssh_pw_hash") 32
    let hostKey ← loadBlob nvs.store (lit "ssh_host_key") maxBlob
    if h : digest.length = 32 then some ⟨username, ⟨digest, h⟩, hostKey⟩ else none

inductive UserAuthType where
  | password
  | other
  deriving DecidableEq

inductive UserAuthResult where
  | success | failure | invalidUser | invalidPassword
  deriving DecidableEq, Repr

structure UserAuthData where
  username : List UInt8
  password : List UInt8

/-- `user_auth`; `hashed` tells whether the three calls of the hash library return 0. -/
def userAuth (sha256 : List UInt8 → Digest) (hashed : Bool) (authType : UserAuthType)
    (data : Option UserAuthData) (context : Option AuthConfig) : UserAuthResult :=
  match context, data with
  | some auth, some data =>
    if authType ≠ .password then .failure
    else if data.username.length ≠ auth.username.length ∨ data.username ≠ auth.username then
      .invalidUser
    else if ¬ hashed then .failure
    else if sha256 data.password = auth.passwordDigest then .success
    else .invalidPassword
  | _, _ => .failure

/-! ### What the writer and the reader should agree on -/

/-- The key and the value of a `config-set`. -/
def assignment (arguments : Text) : Text × Text :=
  (arguments.takeWhile (· ≠ space), (arguments.dropWhile (· ≠ space)).tail)

/-- The last value for a key among the lines that report success. -/
def lastAccepted (services : DeviceServices (Device ρ)) (d : Device ρ) (key : Text)
    (held : Option Text) : List (List UInt8) → Option Text
  | [] => held
  | input :: lines =>
    let done := dispatch services d (some input)
    let a := assignment (argument input)
    lastAccepted services done.device key (if done.status = .ok ∧ a.1 = key then some a.2 else held) lines

/-- The credentials that are loaded are the accepted ones, and the initial ones where none was
accepted. -/
def Agrees (sha256 : List UInt8 → Digest) (initial : AuthConfig)
    (username password hostKey : Option Text) (nvs : Flash) : Prop :=
  ∃ auth, loadAuthConfig nvs = some auth ∧
    hostKey.elim (some initial.hostKey) decodePairs = some auth.hostKey ∧
    ∀ login : UserAuthData, userAuth sha256 true .password (some login) (some auth) = .success ↔
      login.username = username.getD initial.username ∧
      sha256 login.password = password.elim initial.passwordDigest sha256

/-- What `config-set` stores under a key, if it accepts the value. -/
def configValue (key value : Text) : Option NvsValue :=
  if value = [] then none
  else if allowedConfigKey key then some (.str value)
  else if key = lit "ota_public_key" ∧ value.length = 64 then (decodePairs value).map .blob
  else none

/-- The value that a `config-set` writes under a key of the credentials. -/
def assigned (key arguments : Text) : Option Text :=
  let a := assignment arguments
  if allowedConfigKey key ∧ a.1 = key ∧ a.2 ≠ [] then some a.2 else none

/-- The value that a line writes under a key of the credentials. -/
def written (key : Text) (input : List UInt8) : Option Text :=
  match route input with
  | .ask (.configSet arguments) => assigned key arguments
  | _ => none

/-! ### The writer -/

theorem assignment_cut {key : Text} (hspace : space ∉ key) (value : Text) :
    assignment (key ++ space :: value) = (key, value) := by
  rw [assignment, takeWhile_cut hspace, dropWhile_cut hspace, List.tail_cons]

theorem assignment_of_notMem {arguments : Text} (h : space ∉ arguments) :
    (assignment arguments).2 = [] := by
  rw [assignment, dropWhile_of_notMem h, List.tail_nil]

theorem allowedConfigKey_iff (key : Text) : allowedConfigKey key = true ↔
    key = lit "ssh_username" ∨ key = lit "ssh_password" ∨ key = lit "ssh_host_key" := by
  simp [allowedConfigKey, or_assoc]

theorem allowedConfigKey_bounds {key : Text} (h : allowedConfigKey key = true) :
    key ≠ [] ∧ key.length ≤ maxKeyLength ∧ key ≠ lit "ota_public_key" := by
  rcases (allowedConfigKey_iff key).mp h with rfl | rfl | rfl <;> decide

/-- What `config-set` does to a reliable device: it stores the value, or changes nothing. -/
structure Sets (arguments : Text) (d : Device ρ) (nvs : Flash) (answer : Bool) : Prop where
  reliable : nvs.Reliable
  answer : answer = (configValue (assignment arguments).1 (assignment arguments).2).isSome
  find : nvs.store.find = (configValue (assignment arguments).1 (assignment arguments).2).elim
    d.nvs.store.find fun value =>
      Function.update d.nvs.store.find (assignment arguments).1 (some value)

theorem sets_of_refused {arguments : Text} {d : Device ρ} {nvs : Flash} (hr : nvs.Reliable)
    (hs : nvs.store = d.nvs.store)
    (h : configValue (assignment arguments).1 (assignment arguments).2 = none) :
    Sets arguments d nvs false where
  reliable := hr
  answer := by rw [h]; rfl
  find := by rw [h, hs]; rfl

theorem sets_of_value {arguments : Text} {d : Device ρ} {nvs : Flash} (value : NvsValue)
    (hr : nvs.Reliable) (h : configValue (assignment arguments).1 (assignment arguments).2 = some value)
    (hfind : nvs.store.find =
      Function.update d.nvs.store.find (assignment arguments).1 (some value)) :
    Sets arguments d nvs true where
  reliable := hr
  answer := by rw [h]; rfl
  find := by rw [h, hfind]; rfl

/-- `config-set` of the key of the update service. -/
theorem configSet_publicKey {value : Text} (h0 : 0 ∉ lit "ota_public_key" ++ space :: value)
    (hvalue : value ≠ []) {d : Device ρ} (hr : d.nvs.Reliable) : ∃ nvs lines answer,
      configSet (lit "ota_public_key" ++ space :: value) d = ⟨{ d with nvs := nvs }, lines, answer⟩ ∧
      Sets (lit "ota_public_key" ++ space :: value) d nvs answer := by
  have hreliable : Flash.Reliable ⟨d.nvs.store, []⟩ := rfl
  have hspace : space ∉ lit "ota_public_key" := by decide
  have hkey : ¬ allowedConfigKey (lit "ota_public_key") = true := by decide
  have hvalue' : configValue (lit "ota_public_key") value =
      if value.length = 64 then (decodePairs value).map .blob else none := by
    rw [configValue, if_neg hvalue, if_neg hkey]
    simp only [true_and]
  have hempty : ¬ (lit "ota_public_key" = [] ∨ value = []) := not_or.mpr ⟨by decide, hvalue⟩
  have hlong : ¬ (lit "ota_public_key").length ≥ 32 := by decide
  have hforbidden : ¬ (¬ allowedConfigKey (lit "ota_public_key") = true ∧
      lit "ota_public_key" ≠ lit "ota_public_key") := fun h => h.2 rfl
  simp only [configSet, strchr_append hspace, byteAt_cut h0, drop_cut, List.length_eq_zero_iff,
    List.take_left', nvsOpen_reliable hr, if_neg hempty, if_neg hlong, if_neg hforbidden, if_true]
  by_cases hlength : value.length ≠ 64
  · refine ⟨_, _, false, if_pos hlength, sets_of_refused hreliable rfl ?_⟩
    rw [assignment_cut hspace, hvalue', if_neg hlength]
  rw [if_neg hlength]
  replace hlength := not_not.mp hlength
  cases hdecode : decodePairs value with
  | none =>
    refine ⟨_, _, false, rfl, sets_of_refused hreliable rfl ?_⟩
    rw [assignment_cut hspace, hvalue', if_pos hlength, hdecode]
    rfl
  | some publicKey =>
    obtain ⟨nvs, hset, hn, hfind⟩ := nvsSetBlob_reliable hreliable
      (show (lit "ota_public_key").length ≤ maxKeyLength by decide) publicKey
    simp only [and_commit hset hn, if_true]
    refine ⟨_, _, true, rfl, sets_of_value (.blob publicKey) rfl ?_ ?_⟩
    · rw [assignment_cut hspace, hvalue', if_pos hlength, hdecode]
      rfl
    · rw [assignment_cut hspace]
      exact hfind

/-- `config-set` of a credential. -/
theorem configSet_credential {key value : Text} (h0 : 0 ∉ key ++ space :: value)
    (hspace : space ∉ key) (hkey : allowedConfigKey key = true) (hvalue : value ≠ [])
    {d : Device ρ} (hr : d.nvs.Reliable) : ∃ nvs lines answer,
      configSet (key ++ space :: value) d = ⟨{ d with nvs := nvs }, lines, answer⟩ ∧
      Sets (key ++ space :: value) d nvs answer := by
  obtain ⟨hne, hle, hota⟩ := allowedConfigKey_bounds hkey
  have hmax : maxKeyLength = 15 := rfl
  have hzero : 0 ∉ value := fun h => h0 (by simp [h])
  have hempty : ¬ (key = [] ∨ value = []) := not_or.mpr ⟨hne, hvalue⟩
  have hlong : ¬ key.length ≥ 32 := by omega
  have hforbidden : ¬ (¬ allowedConfigKey key = true ∧ key ≠ lit "ota_public_key") :=
    fun h => h.1 hkey
  obtain ⟨nvs, hset, hn, hfind⟩ :=
    nvsSetStr_reliable (show Flash.Reliable ⟨d.nvs.store, []⟩ from rfl) hle value
  simp only [configSet, strchr_append hspace, byteAt_cut h0, drop_cut, List.length_eq_zero_iff,
    List.take_left', nvsOpen_reliable hr, if_neg hempty, if_neg hlong, if_neg hforbidden, if_neg hota,
    and_commit hset hn, if_true]
  refine ⟨_, _, true, rfl, sets_of_value (.str value) rfl ?_ ?_⟩
  · rw [assignment_cut hspace, configValue, if_neg hvalue, if_pos hkey]
  · rw [assignment_cut hspace, ← (cString_eq_self_iff value).mpr hzero]
    exact hfind

theorem configSet_sets {arguments : Text} (h0 : 0 ∉ arguments) {d : Device ρ}
    (hr : d.nvs.Reliable) : ∃ nvs lines answer,
      configSet arguments d = ⟨{ d with nvs := nvs }, lines, answer⟩ ∧ Sets arguments d nvs answer := by
  cases hc : strchr arguments space with
  | none =>
    have hvalue := assignment_of_notMem ((strchr_eq_none_iff _ _).mp hc)
    refine ⟨d.nvs, [lit "error: usage config-set <key> <value>"], false, ?_,
      sets_of_refused hr rfl (if_pos hvalue)⟩
    rw [configSet, hc]
    rfl
  | some separator =>
    obtain ⟨key, value, rfl, hspace, rfl⟩ := (strchr_eq_some_iff _ _ _).mp hc
    by_cases hkey : allowedConfigKey key = true ∧ value ≠ []
    · exact configSet_credential h0 hspace hkey.1 hkey.2 hr
    by_cases hota : key = lit "ota_public_key" ∧ value ≠ []
    · obtain ⟨rfl, hvalue⟩ := hota
      exact configSet_publicKey h0 hvalue hr
    -- whatever else is given is refused, one way or the other
    have hrefused : Sets (key ++ space :: value) d d.nvs false := by
      refine sets_of_refused hr rfl ?_
      rw [assignment_cut hspace, configValue]
      by_cases hvalue : value = []
      · exact if_pos hvalue
      · rw [if_neg hvalue, if_neg fun h => hkey ⟨h, hvalue⟩, if_neg fun h => hota ⟨h.1, hvalue⟩]
    simp only [configSet, hc, byteAt_cut h0, drop_cut, List.length_eq_zero_iff, List.take_left']
    by_cases hempty : key = [] ∨ value = []
    · exact ⟨d.nvs, _, false, if_pos hempty, hrefused⟩
    rw [if_neg hempty]
    by_cases hlong : key.length ≥ 32
    · exact ⟨d.nvs, _, false, if_pos hlong, hrefused⟩
    rw [if_neg hlong]
    push Not at hempty
    have hforbidden : ¬ allowedConfigKey key = true ∧ key ≠ lit "ota_public_key" :=
      ⟨fun h => hkey ⟨h, hempty.2⟩, fun h => hota ⟨h, hempty.2⟩⟩
    exact ⟨d.nvs, _, false, if_pos hforbidden, hrefused⟩

/-! ### The credentials -/

/-- What `config-set` does to a reliable device, apart from the key of the update service. -/
structure Stored (arguments : Text) (d : Device ρ) (nvs : Flash) (answer : Bool) : Prop where
  reliable : nvs.Reliable
  find : ∀ key, key ≠ lit "ota_public_key" → nvs.store.find key =
    ((assigned key arguments).map NvsValue.str).or (d.nvs.store.find key)
  answer : ∀ key, key ≠ lit "ota_public_key" →
    (answer = true ∧ (assignment arguments).1 = key ↔ assigned key arguments ≠ none)

/-- Apart from the key of the update service, what is stored is a credential. -/
theorem configValue_eq {key : Text} (hne : key ≠ lit "ota_public_key") (value : Text) :
    configValue key value = if allowedConfigKey key ∧ value ≠ [] then some (.str value) else none := by
  by_cases hvalue : value = []
  · rw [configValue, if_pos hvalue, if_neg fun h => h.2 hvalue]
  · by_cases hkey : allowedConfigKey key = true <;> simp [configValue, hvalue, hkey, hne]

theorem Sets.stored {arguments : Text} {d : Device ρ} {nvs : Flash} {answer : Bool}
    (h : Sets arguments d nvs answer) : Stored arguments d nvs answer := by
  have hassigned : ∀ key, key ≠ lit "ota_public_key" → (assigned key arguments).map NvsValue.str =
      if (assignment arguments).1 = key then
        configValue (assignment arguments).1 (assignment arguments).2 else none := by
    intro key hne
    by_cases he : (assignment arguments).1 = key
    · rw [if_pos he, he, configValue_eq hne, assigned]
      by_cases hset : allowedConfigKey key = true ∧ (assignment arguments).2 ≠ [] <;> simp [he, hset]
    · rw [if_neg he, assigned, if_neg fun hset => he hset.2.1, Option.map_none]
  refine ⟨h.reliable, fun key hne => ?_, fun key hne => ?_⟩
  · rw [hassigned key hne, h.find]
    by_cases he : (assignment arguments).1 = key
    · cases configValue (assignment arguments).1 (assignment arguments).2 <;> simp [he]
    · cases configValue (assignment arguments).1 (assignment arguments).2 <;> simp [he, Ne.symm he]
  · rw [h.answer, Ne, ← Option.map_eq_none_iff (f := NvsValue.str), hassigned key hne]
    by_cases he : (assignment arguments).1 = key
    · simp [he, Option.isSome_iff_ne_none]
    · simp [he]

theorem configSet_stored {arguments : Text} (h0 : 0 ∉ arguments) {d : Device ρ}
    (hr : d.nvs.Reliable) : ∃ nvs lines answer,
      configSet arguments d = ⟨{ d with nvs := nvs }, lines, answer⟩ ∧ Stored arguments d nvs answer := by
  obtain ⟨nvs, lines, answer, hreply, hsets⟩ := configSet_sets h0 hr
  exact ⟨nvs, lines, answer, hreply, hsets.stored⟩

/-- What a report of success says about a key is what is written under it. -/
theorem Stored.reported {arguments : Text} {d : Device ρ} {nvs : Flash} {answer : Bool}
    (h : Stored arguments d nvs answer) {key : Text} (hne : key ≠ lit "ota_public_key")
    (held : Option Text) :
    (if answer = true ∧ (assignment arguments).1 = key then some (assignment arguments).2 else held) =
      (assigned key arguments).or held := by
  by_cases hn : assigned key arguments = none
  · rw [if_neg fun hok => (h.answer key hne).mp hok hn, hn, Option.none_or]
  · have hvalue : assigned key arguments = some (assignment arguments).2 :=
      if_pos (by_contra fun hset => hn (if_neg hset))
    rw [if_pos ((h.answer key hne).mpr hn), hvalue, Option.some_or]

/-! ### Lines -/

theorem written_of_refused {input : List UInt8} (h : Refused input) (key : Text) :
    written key input = none := by
  obtain ⟨lines, status, hr, -⟩ := h
  rw [written, hr]

/-- What a line does to a reliable device. -/
structure LineStored (d : Device ρ) (input : List UInt8) (done : Dispatched (Device ρ)) : Prop where
  reliable : done.device.nvs.Reliable
  find : ∀ key, key ≠ lit "ota_public_key" → done.device.nvs.store.find key =
    ((written key input).map NvsValue.str).or (d.nvs.store.find key)
  reported : ∀ key, key ≠ lit "ota_public_key" → ∀ held,
    (if done.status = .ok ∧ (assignment (argument input)).1 = key then
      some (assignment (argument input)).2 else held) = (written key input).or held

theorem line_stored (others : DeviceServices (Device ρ)) {d : Device ρ} (hr : d.nvs.Reliable)
    {input : List UInt8} (hw : word input = lit "config-set") :
    LineStored d input (dispatch (services others) d (some input)) := by
  rcases route_asks hw rfl with h | ⟨-, hroute⟩
  · obtain ⟨hdevice, hstatus⟩ := h.dispatch_eq (services others) d
    refine ⟨by rw [hdevice]; exact hr, fun key _ => ?_, fun key _ held => ?_⟩
    · rw [hdevice, written_of_refused h, Option.map_none, Option.none_or]
    · rw [if_neg fun hok => hstatus hok.1, written_of_refused h, Option.none_or]
  · obtain ⟨nvs, lines, answer, hreply, hstored⟩ := configSet_stored (zero_notMem_argument input) hr
    have hwritten : ∀ key, written key input = assigned key (argument input) := fun key => by
      simp only [written, hroute]
    have hdone : dispatch (services others) d (some input) =
        ⟨if answer = true then .ok else .invalid, [.configSet (argument input)], lines,
          { d with nvs := nvs }⟩ := dispatch_ask hroute hreply
    rw [hdone]
    refine ⟨hstored.reliable, fun key hne => ?_, fun key hne held => ?_⟩
    · rw [hwritten]
      exact hstored.find key hne
    · rw [hwritten, ← hstored.reported hne held]
      cases answer <;> simp

/-- After any lines the store holds the last writes, and the reports name them. -/
theorem afterLines_stored (others : DeviceServices (Device ρ)) {d : Device ρ} (hr : d.nvs.Reliable)
    {lines : List (List UInt8)} (hlines : ∀ input ∈ lines, word input = lit "config-set")
    {key : Text} (hne : key ≠ lit "ota_public_key") (held : Option Text) :
    let after := afterLines (services others) d lines
    after.nvs.Reliable ∧
    after.nvs.store.find key =
      ((latch (written key) lines).map NvsValue.str).or (d.nvs.store.find key) ∧
    lastAccepted (services others) d key held lines = (latch (written key) lines).or held := by
  induction lines generalizing d held with
  | nil => exact ⟨hr, rfl, rfl⟩
  | cons input lines ih =>
    obtain ⟨hreliable, hfind, hreported⟩ := line_stored others hr (hlines input List.mem_cons_self)
    obtain ⟨hafter, hstore, hlast⟩ :=
      ih hreliable (fun x hx => hlines x (List.mem_cons_of_mem input hx)) ((written key input).or held)
    refine ⟨hafter, ?_, ?_⟩
    · show (afterLines (services others) _ lines).nvs.store.find key = _
      rw [hstore, hfind key hne, latch_cons]
      cases latch (written key) lines <;> rfl
    · rw [lastAccepted, hreported key hne, hlast, latch_cons, Option.or_assoc]

/-! ### The reader -/

/-- The entries that `load_auth_config` reads. -/
structure Holds (s : Store) (auth : AuthConfig) : Prop where
  username : s.find (lit "ssh_username") = some (.str auth.username)
  username_ne : auth.username ≠ []
  username_lt : auth.username.length < maxUsername
  digest : s.find (lit "ssh_pw_hash") = some (.blob auth.passwordDigest)
  hostKey : s.find (lit "ssh_host_key") = some (.blob auth.hostKey)
  hostKey_ne : auth.hostKey ≠ []
  hostKey_le : auth.hostKey.length ≤ maxBlob

theorem loadBlob_eq_some_iff {s : Store} {key : Text} {bytes : List UInt8} {capacity : Nat} :
    loadBlob s key capacity = some bytes ↔
      s.find key = some (.blob bytes) ∧ bytes.length ≤ capacity ∧ bytes ≠ [] := by
  rw [loadBlob, Option.filter_eq_some_iff, Store.getBlob_eq_some_iff, decide_eq_true_iff, and_assoc]

theorem loadAuthConfig_eq_some_iff {nvs : Flash} (hr : nvs.Reliable) (auth : AuthConfig) :
    loadAuthConfig nvs = some auth ↔ Holds nvs.store auth := by
  have hopen := nvsOpen_reliable hr
  simp only [loadAuthConfig, hopen, bind, Option.bind_eq_some_iff, readString_eq_some_iff,
    loadBlob_eq_some_iff, Option.dite_none_right_eq_some, Option.some_inj]
  constructor
  · rintro ⟨username, ⟨hu, hul, hun⟩, digest, ⟨hd, -, -⟩, hostKey, ⟨hk, hkl, hkn⟩, hl, rfl⟩
    exact ⟨hu, hun, hul, hd, hk, hkn, hkl⟩
  · intro h
    have hdigest := auth.passwordDigest.property
    have hdigest_ne : auth.passwordDigest.val ≠ [] := fun he => by
      rw [he] at hdigest
      cases hdigest
    exact ⟨auth.username, ⟨h.username, h.username_lt, h.username_ne⟩, auth.passwordDigest,
      ⟨h.digest, hdigest.le, hdigest_ne⟩, auth.hostKey, ⟨h.hostKey, h.hostKey_le, h.hostKey_ne⟩,
      hdigest, rfl⟩

theorem userAuth_eq_success_iff (sha256 : List UInt8 → Digest) (login : UserAuthData)
    (auth : AuthConfig) : userAuth sha256 true .password (some login) (some auth) = .success ↔
      login.username = auth.username ∧ sha256 login.password = auth.passwordDigest := by
  by_cases hu : login.username = auth.username
  · by_cases hp : sha256 login.password = auth.passwordDigest <;> simp [userAuth, hu, hp]
  · simp [userAuth, hu]

theorem assigned_ne_nil {key arguments value : Text} (h : assigned key arguments = some value) :
    value ≠ [] := by
  obtain ⟨hset, hvalue⟩ := Option.ite_none_right_eq_some.mp h
  rw [← Option.some_inj.mp hvalue]
  exact hset.2.2

theorem latch_ne_nil {key value : Text} {lines : List (List UInt8)}
    (h : latch (written key) lines = some value) : value ≠ [] := by
  obtain ⟨input, -, hw⟩ := exists_of_latch_eq_some h
  unfold written at hw
  split at hw
  · exact assigned_ne_nil hw
  · cases hw

/-- No line writes the digest of the password. -/
theorem written_digest (input : List UInt8) : written (lit "ssh_pw_hash") input = none := by
  unfold written
  split
  · unfold assigned
    exact if_neg fun h => absurd h.1 (by decide)
  · rfl

/-! ### The writer and the reader -/

theorem Holds.username_eq {s : Store} {auth : AuthConfig} (h : Holds s auth) {text : Text}
    (hs : s.find (lit "ssh_username") = some (.str text)) : auth.username = text :=
  NvsValue.str.inj (Option.some_inj.mp (h.username.symm.trans hs))

theorem Holds.digest_eq {s : Store} {auth : AuthConfig} (h : Holds s auth) {digest : Digest}
    (hs : s.find (lit "ssh_pw_hash") = some (.blob digest)) : auth.passwordDigest = digest :=
  Subtype.ext (NvsValue.blob.inj (Option.some_inj.mp (h.digest.symm.trans hs)))

theorem getD_fits {username : Option Text} {initial : Text} (hi : initial.length < maxUsername) :
    (username.getD initial).length < maxUsername ↔
      ∀ text, username = some text → text.length < maxUsername := by
  cases username with
  | none => simp [hi]
  | some text => simp

/-- The agreement of a store whose entries are the last writes over the initial ones. -/
theorem agrees_iff (sha256 : List UInt8 → Digest) {s : Store} {initial : AuthConfig}
    (hinitial : Holds s initial) {nvs : Flash} (hr : nvs.Reliable)
    {username password hostKey : Option Text} (hne : username.getD initial.username ≠ [])
    (husername : nvs.store.find (lit "ssh_username") =
      some (.str (username.getD initial.username)))
    (hhostKey : nvs.store.find (lit "ssh_host_key") =
      (hostKey.map NvsValue.str).or (some (.blob initial.hostKey)))
    (hdigest : nvs.store.find (lit "ssh_pw_hash") = some (.blob initial.passwordDigest)) :
    Agrees sha256 initial username password hostKey nvs ↔
      hostKey = none ∧ (∀ text, username = some text → text.length < maxUsername) ∧
      ∀ text, password = some text → sha256 text = initial.passwordDigest := by
  constructor
  · rintro ⟨auth, hauth, -, hlogin⟩
    have hholds := (loadAuthConfig_eq_some_iff hr auth).mp hauth
    have hname := hholds.username_eq husername
    refine ⟨?_, ?_, fun text htext => ?_⟩
    · cases hostKey with
      | none => rfl
      | some text =>
        have hblob := hholds.hostKey.symm.trans hhostKey
        cases hblob
    · rw [← getD_fits hinitial.username_lt, ← hname]
      exact hholds.username_lt
    · have haccepted := (hlogin ⟨auth.username, text⟩).mpr ⟨hname, by rw [htext]; rfl⟩
      rw [userAuth_eq_success_iff] at haccepted
      rw [haccepted.2, hholds.digest_eq hdigest]
  · rintro ⟨rfl, hfits, hsame⟩
    have hpassword : password.elim initial.passwordDigest sha256 = initial.passwordDigest := by
      cases password with
      | none => rfl
      | some text => exact hsame text rfl
    refine ⟨⟨username.getD initial.username, initial.passwordDigest, initial.hostKey⟩, ?_, rfl,
      fun login => ?_⟩
    · rw [loadAuthConfig_eq_some_iff hr]
      exact ⟨husername, hne, (getD_fits hinitial.username_lt).mpr hfits, hdigest, hhostKey,
        hinitial.hostKey_ne, hinitial.hostKey_le⟩
    · rw [userAuth_eq_success_iff, hpassword]

/-- They agree exactly when no host key was accepted, the last accepted username fits in its
buffer, and the last accepted password is the one whose digest is stored already. -/
theorem restart_agrees (sha256 : List UInt8 → Digest) (others : DeviceServices (Device ρ))
    (d : Device ρ) (hr : d.nvs.Reliable) (initial : AuthConfig)
    (hload : loadAuthConfig d.nvs = some initial) (lines : List (List UInt8))
    (hlines : ∀ input ∈ lines, word input = lit "config-set") :
    let accepted := fun key => lastAccepted (services others) d key none lines
    Agrees sha256 initial (accepted (lit "ssh_username")) (accepted (lit "ssh_password"))
      (accepted (lit "ssh_host_key")) (afterLines (services others) d lines).nvs ↔
    latch (written (lit "ssh_host_key")) lines = none ∧
    (∀ username, latch (written (lit "ssh_username")) lines = some username →
      username.length < maxUsername) ∧
    (∀ password, latch (written (lit "ssh_password")) lines = some password →
      sha256 password = initial.passwordDigest) := by
  intro accepted
  have haccepted : ∀ key, key ≠ lit "ota_public_key" →
      accepted key = latch (written key) lines := fun key hne => by
    rw [← Option.or_none (o := latch (written key) lines)]
    exact (afterLines_stored others hr hlines hne none).2.2
  have hinitial := (loadAuthConfig_eq_some_iff hr initial).mp hload
  obtain ⟨hafter, husername, -⟩ :=
    afterLines_stored others hr hlines (show lit "ssh_username" ≠ lit "ota_public_key" by decide) none
  obtain ⟨-, hhostKey, -⟩ :=
    afterLines_stored others hr hlines (show lit "ssh_host_key" ≠ lit "ota_public_key" by decide) none
  obtain ⟨-, hdigest, -⟩ :=
    afterLines_stored others hr hlines (show lit "ssh_pw_hash" ≠ lit "ota_public_key" by decide) none
  rw [(latch_eq_none_iff _ lines).mpr fun input _ => written_digest input] at hdigest
  rw [haccepted _ (by decide), haccepted _ (by decide), haccepted _ (by decide)]
  refine agrees_iff sha256 hinitial hafter ?_ ?_ (hhostKey.trans (by rw [hinitial.hostKey]))
    (hdigest.trans hinitial.digest)
  · cases hu : latch (written (lit "ssh_username")) lines with
    | none => exact hinitial.username_ne
    | some text => exact latch_ne_nil hu
  · rw [husername, hinitial.username]
    cases latch (written (lit "ssh_username")) lines <;> rfl

/-- A store with credentials: `admin`, the digest of a password, and three bytes as the host key. -/
def provisioned (digest : Digest) : Store :=
  ((Store.empty.set (lit "ssh_username") (.str (lit "admin")) (by decide)
    (fun _ h => by cases h; decide)).set (lit "ssh_pw_hash") (.blob digest) (by decide)
    (fun _ h => by cases h)).set (lit "ssh_host_key") (.blob [1, 2, 3]) (by decide)
    (fun _ h => by cases h)

theorem restart_agrees_renamed :
    let d : Device Unit := { blank with nvs := ⟨provisioned (sha256 (lit "secret")), []⟩ }
    let lines := [lit "config-set ssh_username root", lit "config-set ssh_host_key"]
    let accepted := fun key => lastAccepted silentServices d key none lines
    let initial : AuthConfig := ⟨lit "admin", sha256 (lit "secret"), [1, 2, 3]⟩
    Agrees sha256 initial (accepted (lit "ssh_username")) (accepted (lit "ssh_password"))
      (accepted (lit "ssh_host_key")) (afterLines silentServices d lines).nvs ↔
    latch (written (lit "ssh_host_key")) lines = none ∧
    (∀ username, latch (written (lit "ssh_username")) lines = some username →
      username.length < maxUsername) ∧
    (∀ password, latch (written (lit "ssh_password")) lines = some password →
      sha256 password = sha256 (lit "secret")) := by
  intro d lines accepted initial
  refine restart_agrees sha256 _ d rfl initial ?_ lines (by decide)
  exact (loadAuthConfig_eq_some_iff (show d.nvs.Reliable from rfl) initial).mpr
    ⟨rfl, by decide, by decide, rfl, rfl, by decide, by decide⟩

/-- An accepted password is not the one that is asked for at the next login, and an accepted host
key leaves nothing that can be loaded. -/
theorem accepted_password_rejected :
    let d : Device Unit := { blank with nvs := ⟨provisioned (sha256 (lit "secret")), []⟩ }
    let password := [lit "config-set ssh_password swordfish"]
    let hostKey := [lit "config-set ssh_host_key 010203"]
    lastAccepted silentServices d (lit "ssh_password") none password = some (lit "swordfish") ∧
    userAuth sha256 true .password (some ⟨lit "admin", lit "swordfish"⟩)
      (loadAuthConfig (afterLines silentServices d password).nvs) = .invalidPassword ∧
    lastAccepted silentServices d (lit "ssh_host_key") none hostKey = some (lit "010203") ∧
    (loadAuthConfig d.nvs).isSome ∧
    (loadAuthConfig (afterLines silentServices d hostKey).nvs).isSome = false := by
  decide +kernel

end Esp32Shell.Idf.SshAuth
