import Esp32Shell.Arduino.Changes
import Esp32Shell.Idf.SshAuth

/-!
# SSH credentials across the images

What the ESP-IDF image loads from the credentials that `config-set` of the
Arduino image has stored. The digest and the host key are checked when they are
given; the username is not, and the reader has 32 bytes for it.
-/
namespace Esp32Shell.Handover.SshCredentials

open Esp32Shell.Library.CText Esp32Shell.Library.Hex Esp32Shell.Library.Register
open Esp32Shell.Library.Sha256
open Shell.CommandCore Shell.CommandLines
open Storage.Nvs Arduino.Esp32Services Arduino.Changes
open Idf.SshAuth

variable {ρ : Type}

/-- The stored credentials are the values most recently given. -/
structure Provisioned (sha256 : List UInt8 → Digest) (find : Find) (accepted : List (List UInt8)) : Prop where
  username : find (lit "ssh_username") = (latch (valueGiven (lit "ssh_username")) accepted).map .str
  digest : find (lit "ssh_pw_hash") =
    (latch (valueGiven (lit "ssh_password")) accepted).map fun password => .blob (sha256 password)
  hostKey : find (lit "ssh_host_key") =
    (latch (valueGiven (lit "ssh_host_key")) accepted).bind fun text => (decodePairs text).map .blob

/-- The other image loads credentials with which exactly the given username and password are
accepted, and the given host key. -/
def Survives (sha256 : List UInt8 → Digest) (nvs : Flash) (username password hostKey : Text) : Prop :=
  ∃ auth, loadAuthConfig nvs = some auth ∧
    (∀ login : UserAuthData, userAuth sha256 true .password (some login) (some auth) = .success ↔
      login.username = username ∧ sha256 login.password = sha256 password) ∧
    decodePairs hostKey = some auth.hostKey

theorem decodePairs_of_decodeHex {text : Text} {capacity : Nat} {bytes : List UInt8}
    (h : decodeHex text capacity = some bytes) : decodePairs text = some bytes :=
  (Option.ite_none_left_eq_some.mp h).2

/-- The latest values after one more `config-set`. -/
theorem latch_valueGiven_snoc {input : List UInt8} (hw : word input = lit "config-set")
    (accepted : List (List UInt8)) (key : Text) :
    latch (valueGiven key) (accepted ++ [input]) =
      if (assignment (argument input)).1 = key then some (assignment (argument input)).2
      else latch (valueGiven key) accepted := by
  rw [latch_snoc, valueGiven_configSet hw]
  split_ifs
  · exact Option.some_or
  · exact Option.none_or

theorem Provisioned.line {sha256 : List UInt8 → Digest} {find : Find} {accepted : List (List UInt8)}
    (h : Provisioned sha256 find accepted) {input : List UInt8} (hw : word input = lit "config-set")
    {c : Change} (hc : changeOf input = some c) :
    Provisioned sha256 (c.store sha256 find) (accepted ++ [input]) := by
  have hvalue := changeOf_configSet hw hc
  have hlatch := latch_valueGiven_snoc hw accepted
  generalize assignment (argument input) = a at hvalue hlatch
  unfold valueChange at hvalue
  split_ifs at hvalue with hbad hpassword hacceptable hhostKey
  · cases hvalue
    constructor
    · rw [hlatch, if_neg (by rw [hpassword]; decide), ← h.username]
      rfl
    · rw [hlatch, if_pos hpassword]
      rfl
    · rw [hlatch, if_neg (by rw [hpassword]; decide), ← h.hostKey]
      rfl
  · obtain ⟨bytes, hbytes, rfl⟩ := Option.map_eq_some_iff.mp hvalue
    have hdecode := decodePairs_of_decodeHex (Option.filter_eq_some_iff.mp hbytes).1
    constructor
    · rw [hlatch, if_neg (by rw [hhostKey]; decide), ← h.username]
      rfl
    · rw [hlatch, if_neg (by rw [hhostKey]; decide), ← h.digest]
      rfl
    · rw [hlatch, if_pos hhostKey, Option.bind_some, hdecode]
      rfl
  · cases hvalue
    push Not at hbad
    -- the digest has a key of its own, under which no text is written
    have hhash : a.1 ≠ lit "ssh_pw_hash" := by
      intro he
      have hallowed := hbad.2
      rw [he] at hallowed
      exact absurd hallowed (by decide)
    constructor
    · rw [hlatch]
      by_cases hkey : a.1 = lit "ssh_username"
      · rw [if_pos hkey, ← hkey]
        exact Function.update_self _ _ _
      · rw [if_neg hkey, ← h.username]
        exact Function.update_of_ne (Ne.symm hkey) _ _
    · rw [hlatch, if_neg hpassword, ← h.digest]
      exact Function.update_of_ne (Ne.symm hhash) _ _
    · rw [hlatch, if_neg hhostKey, ← h.hostKey]
      exact Function.update_of_ne (Ne.symm hhostKey) _ _

theorem storedAfter_provisioned (sha256 : List UInt8 → Digest) {accepted : List (List UInt8)}
    (hw : ∀ input ∈ accepted, word input = lit "config-set")
    (hsome : ∀ input ∈ accepted, (changeOf input).isSome = true) :
    Provisioned sha256 (storedAfter sha256 (fun _ => none) accepted) accepted := by
  refine accepted_induction
    (P := fun lines => Provisioned sha256 (storedAfter sha256 (fun _ => none) lines) lines) ⟨rfl, rfl, rfl⟩
    (fun accepted input c hpast hword hc => ?_) hw hsome
  rw [storedAfter_snoc, hc]
  exact hpast.line hword hc

/-- A value that was given by an accepted line is one that its key takes. -/
theorem valueChange_of_latch {accepted : List (List UInt8)}
    (hw : ∀ input ∈ accepted, word input = lit "config-set")
    (hsome : ∀ input ∈ accepted, (changeOf input).isSome = true) {key value : Text}
    (h : latch (valueGiven key) accepted = some value) : ∃ c, valueChange key value = some c := by
  obtain ⟨input, hinput, hgiven⟩ := exists_of_latch_eq_some h
  obtain ⟨c, hc⟩ := Option.isSome_iff_exists.mp (hsome input hinput)
  obtain ⟨⟨-, hkey⟩, hvalue⟩ := Option.ite_none_right_eq_some.mp hgiven
  refine ⟨c, ?_⟩
  rw [← hkey, ← Option.some_inj.mp hvalue]
  exact changeOf_configSet (hw input hinput) hc

theorem username_ne_of_valueChange {value : Text} {c : Change}
    (h : valueChange (lit "ssh_username") value = some c) : value ≠ [] := by
  obtain ⟨hgiven, -⟩ := Option.ite_none_left_eq_some.mp h
  exact fun he => hgiven (.inl he)

/-- An accepted host key is a blob that the reader takes. -/
theorem hostKey_of_valueChange {value : Text} {c : Change}
    (h : valueChange (lit "ssh_host_key") value = some c) :
    ∃ bytes, decodePairs value = some bytes ∧ bytes ≠ [] ∧ bytes.length ≤ maxBlob := by
  obtain ⟨-, hkey⟩ := Option.ite_none_left_eq_some.mp h
  rw [if_neg (by decide), if_pos rfl] at hkey
  obtain ⟨bytes, hbytes, -⟩ := Option.map_eq_some_iff.mp hkey
  obtain ⟨hdecode, hlong⟩ := Option.filter_eq_some_iff.mp hbytes
  have hle := decodeHex_length hdecode
  have hge : 128 ≤ bytes.length := by simpa using hlong
  have hmax : maxBlob = 8192 := rfl
  refine ⟨bytes, decodePairs_of_decodeHex hdecode, ?_, by omega⟩
  intro hempty
  rw [hempty] at hge
  exact absurd hge (by decide)

/-- What the reader makes of credentials that it finds, but for the length of the username. -/
theorem survives_iff {sha256 : List UInt8 → Digest} {nvs : Flash} (hr : nvs.Reliable)
    {username password hostKey : Text} {bytes : List UInt8}
    (husername : nvs.store.find (lit "ssh_username") = some (.str username)) (hne : username ≠ [])
    (hdigest : nvs.store.find (lit "ssh_pw_hash") = some (.blob (sha256 password)))
    (hhostKey : nvs.store.find (lit "ssh_host_key") = some (.blob bytes))
    (hdecode : decodePairs hostKey = some bytes) (hbytes : bytes ≠ []) (hle : bytes.length ≤ maxBlob) :
    Survives sha256 nvs username password hostKey ↔ username.length < maxUsername := by
  constructor
  · intro h
    obtain ⟨auth, hload, -, -⟩ := h
    have hholds := (loadAuthConfig_eq_some_iff hr auth).mp hload
    rw [← hholds.username_eq husername]
    exact hholds.username_lt
  · intro hlt
    refine ⟨⟨username, sha256 password, bytes⟩, ?_, fun login => ?_, hdecode⟩
    · rw [loadAuthConfig_eq_some_iff hr]
      exact ⟨husername, hne, hlt, hdigest, hhostKey, hbytes, hle⟩
    · exact userAuth_eq_success_iff sha256 login _

/-- After any `config-set` lines that have set all three values, the other image takes the latest of
them exactly when the latest username has at most 31 bytes. -/
theorem credentials_survive_iff (sha256 : List UInt8 → Digest) (others : DeviceServices (Device ρ))
    (d : Device ρ) (hr : d.preferences_.Reliable) (hempty : d.preferences_.store = .empty)
    (lines : List (List UInt8)) (hlines : ∀ input ∈ lines, word input = lit "config-set")
    (username password hostKey : Text)
    (hu : latch (valueGiven (lit "ssh_username")) (acceptedLines (services sha256 others) d lines) =
      some username)
    (hp : latch (valueGiven (lit "ssh_password")) (acceptedLines (services sha256 others) d lines) =
      some password)
    (hk : latch (valueGiven (lit "ssh_host_key")) (acceptedLines (services sha256 others) d lines) =
      some hostKey) :
    Survives sha256 (afterLines (services sha256 others) d lines).preferences_ username password hostKey ↔
      username.length < maxUsername := by
  have hchanging : ∀ input ∈ lines, word input ∈ changing := by
    intro input hinput
    rw [hlines input hinput]
    decide
  obtain ⟨hreliable, hstore⟩ := afterLines_store sha256 others hr hchanging
  rw [acceptedLines_eq sha256 others hr hchanging] at hu hp hk
  have hw : ∀ input ∈ lines.filter fun input => (changeOf input).isSome, word input = lit "config-set" :=
    fun input hinput => hlines input (List.mem_of_mem_filter hinput)
  have hsome : ∀ input ∈ lines.filter fun input => (changeOf input).isSome,
      (changeOf input).isSome = true := fun input hinput => (List.mem_filter.mp hinput).2
  have hprovisioned := storedAfter_provisioned sha256 hw hsome
  have hnone : Store.empty.find = fun _ => none := rfl
  rw [hempty, hnone] at hstore
  replace hstore := hstore.trans (storedAfter_filter sha256 _ lines).symm
  obtain ⟨c, hc⟩ := valueChange_of_latch hw hsome hu
  obtain ⟨c', hc'⟩ := valueChange_of_latch hw hsome hk
  obtain ⟨bytes, hdecode, hbytes, hle⟩ := hostKey_of_valueChange hc'
  apply survives_iff hreliable _ (username_ne_of_valueChange hc) _ _ hdecode hbytes hle
  · rw [hstore, hprovisioned.username, hu]
    rfl
  · rw [hstore, hprovisioned.digest, hp]
    rfl
  · rw [hstore, hprovisioned.hostKey, hk, Option.bind_some, hdecode]
    rfl

/-- Lines that set all three values, with a host key of 128 bytes. -/
def provisioning (username : Text) : List (List UInt8) :=
  [lit "config-set ssh_username " ++ username, lit "config-set ssh_password Correct4Horse",
    lit "config-set ssh_host_key " ++ List.replicate 256 48]

theorem credentials_survive_iff_root :
    Survives sha256 (afterLines (services sha256 quiet) blank (provisioning (lit "root"))).preferences_
      (lit "root") (lit "Correct4Horse") (List.replicate 256 48) ↔ (lit "root").length < maxUsername :=
  credentials_survive_iff sha256 quiet blank rfl rfl (provisioning (lit "root")) (by decide +kernel)
    _ _ _ (by decide +kernel) (by decide +kernel) (by decide +kernel)

/-- A username of 32 bytes is accepted, and nothing is loaded after it. -/
theorem long_username_lost :
    let lines := provisioning (List.replicate 32 97)
    acceptedLines (services sha256 quiet) blank lines = lines ∧
    latch (valueGiven (lit "ssh_username")) lines = some (List.replicate 32 97) ∧
    latch (valueGiven (lit "ssh_password")) lines = some (lit "Correct4Horse") ∧
    latch (valueGiven (lit "ssh_host_key")) lines = some (List.replicate 256 48) ∧
    ¬ Survives sha256 (afterLines (services sha256 quiet) blank lines).preferences_
      (List.replicate 32 97) (lit "Correct4Horse") (List.replicate 256 48) := by
  intro lines
  have hnone : (loadAuthConfig (afterLines (services sha256 quiet) blank lines).preferences_).isSome =
      false := by decide +kernel
  refine ⟨by decide +kernel, by decide +kernel, by decide +kernel, by decide +kernel, fun h => ?_⟩
  obtain ⟨auth, hload, -, -⟩ := h
  rw [hload] at hnone
  cases hnone

end Esp32Shell.Handover.SshCredentials
