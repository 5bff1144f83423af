import Esp32Shell.Idf.WifiProfiles

/-!
# Saving a profile whose calls may fail

`wifi-config` with any of its calls failing. The keys of a profile are written
one after the other and never taken back, so the calls before the one that fails
leave their part of the new profile beside the rest of the old one.
-/
namespace Esp32Shell.Idf.ProfileWrites

open Esp32Shell.Library.CText
open Shell.CommandCore Storage.Nvs CommandServices WifiProfiles

variable {ρ : Type}

/-- What `loadProfiles` finds once the storage can be read. -/
def loaded (s : Store) : Slots := loadProfiles ⟨s, []⟩

/-- A profile is saved whole and alone, or the profiles stay as they are. -/
structure Atomic (arguments : Text) (d : Device ρ) : Prop where
  refused : (wifiConfig arguments d).answer = false →
    loaded (wifiConfig arguments d).device.nvs.store = loaded d.nvs.store
  saved : (wifiConfig arguments d).answer = true →
    loaded (wifiConfig arguments d).device.nvs.store = Function.update (loaded d.nvs.store)
      (setting arguments).slot (some ((setting arguments).ssid, (setting arguments).password))

/-- The storage is opened, `n` values are set, and the call behind them fails. -/
structure FailsAfter (n : Nat) (results : List Bool) : Prop where
  opened : results.getD 0 true = true
  set : ∀ i < n, results.getD (i + 1) true = true
  fails : results.getD (n + 1) true = false

/-- A profile that is set in part would be loaded as the profile that is loaded anyway. -/
def Harmless (v : Setting) (s : Store) (n : Nat) : Prop :=
  match n with
  | 0 => True
  | 1 => ∀ password, readString s (passwordKey v.slot) 65 = some password →
      loaded s v.slot = some (v.ssid, password)
  | _ + 2 => loaded s v.slot = some (v.ssid, v.password)

/-! ### The calls -/

theorem and_assoc (a b c : Call) : (a.and b).and c = a.and (b.and c) := by
  funext n
  simp only [Call.and]
  by_cases h : (a n).1 = true
  · simp only [h, if_true]
  · simp only [h, if_false, Bool.false_eq_true]

/-- `nvs_set_str` of every entry, and the commit. -/
def saveAll : List (Text × Text) → Call
  | [] => nvsCommit
  | e :: entries => (nvsSetStr e.1 e.2).and (saveAll entries)

theorem saveProfile_eq (slot : Nat) (ssid password : Text) :
    saveProfile slot ssid password = saveAll (profileEntries slot ssid password) := by
  unfold saveProfile profileEntries
  split_ifs
  · simp only [and_assoc, saveAll, List.cons_append, List.nil_append]
  · simp only [and_assoc, saveAll, List.append_nil]

theorem getD_tail (results : List Bool) (i : Nat) :
    results.tail.getD i true = results.getD (i + 1) true := by
  cases results <;> rfl

theorem nvsSetStr_eq {key : Text} (hk : key.length ≤ maxKeyLength) (value : Text) (n : Flash) :
    ∃ m, nvsSetStr key value n = (n.results.getD 0 true, m) ∧ m.results = n.results.tail ∧
      m.store.find = if n.results.getD 0 true then
        Function.update n.store.find key (some (.str (cString value))) else n.store.find := by
  have hset : n.store.setStr key value ≠ none := by simp [Store.setStr, hk]
  obtain ⟨s, hs⟩ := Option.ne_none_iff_exists'.mp hset
  unfold nvsSetStr fallible
  rw [List.headD_eq_getD]
  cases hresult : n.results.getD 0 true with
  | false => exact ⟨_, rfl, rfl, rfl⟩
  | true =>
    simp only [if_true, hs]
    exact ⟨_, rfl, rfl, Store.setStr_eq_some hs⟩

/-- Either every call succeeds, or the entries before the first failure are set. -/
theorem saveAll_cases {entries : List (Text × Text)} (hkeys : ∀ e ∈ entries, e.1.length ≤ maxKeyLength)
    (n : Flash) :
    (∃ m, saveAll entries n = (true, m) ∧ m.store.find = setEntries n.store.find entries ∧
      ∀ i ≤ entries.length, n.results.getD i true = true) ∨
    ∃ m done, saveAll entries n = (false, m) ∧ done ≤ entries.length ∧
      m.store.find = setEntries n.store.find (entries.take done) ∧
      (∀ i < done, n.results.getD i true = true) ∧ n.results.getD done true = false := by
  induction entries generalizing n with
  | nil =>
    have hcommit := nvsCommit_eq n
    rw [List.headD_eq_getD] at hcommit
    cases hresult : n.results.getD 0 true with
    | true =>
      rw [hresult] at hcommit
      exact .inl ⟨_, hcommit, rfl, fun i hi => by rw [Nat.le_zero.mp hi, hresult]⟩
    | false =>
      rw [hresult] at hcommit
      exact .inr ⟨_, 0, hcommit, le_rfl, rfl, fun i hi => absurd hi (Nat.not_lt_zero i), hresult⟩
  | cons e entries ih =>
    obtain ⟨m, hset, hrest, hfind⟩ := nvsSetStr_eq (hkeys e List.mem_cons_self) e.2 n
    have hnext : ∀ i, m.results.getD i true = n.results.getD (i + 1) true := fun i => by
      rw [hrest, getD_tail]
    cases hresult : n.results.getD 0 true with
    | false =>
      rw [hresult] at hset hfind
      refine .inr ⟨m, 0, ?_, Nat.zero_le _, hfind, fun i hi => absurd hi (Nat.not_lt_zero i), hresult⟩
      simp only [saveAll, Call.and, hset, Bool.false_eq_true, if_false]
    | true =>
      rw [hresult] at hset hfind
      have hand : saveAll (e :: entries) n = saveAll entries m := Call.and_ok hset
      rw [hand]
      obtain ⟨m', hsave, hfind', hall⟩ | ⟨m', done, hsave, hle, hfind', hdone, hfails⟩ :=
        ih (fun e' he' => hkeys e' (List.mem_cons_of_mem e he')) m
      · refine .inl ⟨m', hsave, ?_, fun i hi => ?_⟩
        · rw [hfind', hfind]
          rfl
        · cases i with
          | zero => exact hresult
          | succ i =>
            rw [← hnext]
            exact hall i (Nat.le_of_succ_le_succ hi)
      · refine .inr ⟨m', done + 1, hsave, Nat.succ_le_succ hle, ?_, fun i hi => ?_, ?_⟩
        · rw [hfind', hfind]
          rfl
        · cases i with
          | zero => exact hresult
          | succ i =>
            rw [← hnext]
            exact hdone i (Nat.lt_of_succ_lt_succ hi)
        · rw [← hnext, hfails]

/-! ### What is loaded -/

theorem loaded_eq (s : Store) (slot : Fin 2) : loaded s slot =
    (loadProfile s (ssidKey slot) (passwordKey slot)).or
      (if slot = 0 then loadProfile s (lit "wifi_ssid") (lit "wifi_password") else none) := by
  have hopen : nvsOpen ⟨s, []⟩ = (true, ⟨s, []⟩) := nvsOpen_reliable rfl
  simp only [loaded, loadProfiles, hopen]
  by_cases h0 : slot = 0
  · rw [h0, if_pos rfl]
    exact if_pos rfl
  · have hval : slot.val ≠ 0 := fun h => h0 (Fin.ext h)
    rw [if_neg h0, Option.or_none]
    exact if_neg hval

theorem loadProfile_congr {s s' : Store} {ssidKey passwordKey : Text}
    (hs : s'.find ssidKey = s.find ssidKey) (hp : s'.find passwordKey = s.find passwordKey) :
    loadProfile s' ssidKey passwordKey = loadProfile s ssidKey passwordKey := by
  rw [loadProfile, loadProfile, readString, readString, readString, readString,
    Store.getStr_congr hs, Store.getStr_congr hp]

/-- A slot is loaded as before where none of its keys is set. -/
theorem loaded_congr {s s' : Store} {slot : Fin 2} (hs : s'.find (ssidKey slot) = s.find (ssidKey slot))
    (hp : s'.find (passwordKey slot) = s.find (passwordKey slot))
    (hlegacy : slot = 0 → s'.find (lit "wifi_ssid") = s.find (lit "wifi_ssid") ∧
      s'.find (lit "wifi_password") = s.find (lit "wifi_password")) : loaded s' slot = loaded s slot := by
  rw [loaded_eq, loaded_eq, loadProfile_congr hs hp]
  split_ifs with h0
  · rw [loadProfile_congr (hlegacy h0).1 (hlegacy h0).2]
  · rfl

variable {v : Setting} {s s' : Store} {done : Nat}

/-- Setting a part of a profile leaves the other slot as it is. -/
theorem loaded_other (h : s'.find = setEntries s.find ((profileEntries v.slot v.ssid v.password).take done))
    {slot : Fin 2} (hne : slot ≠ v.slot) : loaded s' slot = loaded s slot := by
  have hout : ∀ key, key ∉ (profileEntries v.slot [] []).map Prod.fst → s'.find key = s.find key := by
    intro key hkey
    rw [h]
    refine setEntries_of_notMem fun hmem => hkey ?_
    rw [List.map_take, profileKeys_eq] at hmem
    exact List.mem_of_mem_take hmem
  obtain ⟨hssid, hpassword⟩ := profileKeys_disjoint hne
  refine loaded_congr (hout _ hssid) (hout _ hpassword) fun h0 => ?_
  have hone : v.slot = 1 := by omega
  have hkeys := legacyKeys_notMem
  exact ⟨hout _ (by rw [hone]; exact hkeys.1), hout _ (by rw [hone]; exact hkeys.2)⟩

/-- With both of its keys set, the slot is loaded as the setting. -/
theorem loaded_set (ha : v.Acceptable) (hs0 : 0 ∉ v.ssid) (hp0 : 0 ∉ v.password)
    (h : s'.find = setEntries s.find ((profileEntries v.slot v.ssid v.password).take (done + 2))) :
    loaded s' v.slot = some (v.ssid, v.password) := by
  have hkeys : (profileEntries v.slot v.ssid v.password).take (done + 2) =
      (ssidKey v.slot, v.ssid) :: (passwordKey v.slot, v.password) ::
        (if (v.slot : Nat) = 0 then [(lit "wifi_ssid", v.ssid), (lit "wifi_password", v.password)]
          else []).take done := rfl
  have hnodup : (((profileEntries v.slot v.ssid v.password).take (done + 2)).map Prod.fst).Nodup := by
    rw [List.map_take, profileKeys_eq]
    exact (profileKeys_nodup v.slot).sublist (List.take_sublist _ _)
  have hfind : ∀ key value, (key, value) ∈ (profileEntries v.slot v.ssid v.password).take (done + 2) →
      0 ∉ value → s'.find key = some (.str value) := by
    intro key value hmem hzero
    rw [h, setEntries_of_mem hnodup hmem, (cString_eq_self_iff value).mpr hzero]
  have hholds : Holds s' (ssidKey v.slot) (passwordKey v.slot) (some (v.ssid, v.password)) :=
    ⟨hfind _ _ (by rw [hkeys]; simp) hs0, hfind _ _ (by rw [hkeys]; simp) hp0, fun _ => ha⟩
  rw [loaded_eq, loadProfile_of_holds hholds, Option.some_or]

theorem ssidKey_ne (slot : Fin 2) : passwordKey slot ≠ ssidKey slot ∧
    lit "wifi_ssid" ≠ ssidKey slot ∧ lit "wifi_password" ≠ ssidKey slot := by
  revert slot
  decide

/-- With the SSID alone set, the slot is loaded with the password that was stored before. -/
theorem loaded_mixed (ha : v.Acceptable) (hs0 : 0 ∉ v.ssid)
    (h : s'.find = setEntries s.find ((profileEntries v.slot v.ssid v.password).take 1)) :
    loaded s' v.slot = match readString s (passwordKey v.slot) 65 with
      | some password => some (v.ssid, password)
      | none => loaded s v.slot := by
  have hentry : s'.find = Function.update s.find (ssidKey v.slot) (some (.str v.ssid)) := by
    rw [h]
    show Function.update s.find (ssidKey v.slot) (some (.str (cString v.ssid))) = _
    rw [(cString_eq_self_iff v.ssid).mpr hs0]
  obtain ⟨hpassword, hlegacy⟩ := ssidKey_ne v.slot
  have hssid : readString s' (ssidKey v.slot) 33 = some v.ssid :=
    readString_eq_some_iff.mpr ⟨by rw [hentry, Function.update_self], Nat.lt_succ_of_le ha.2.2.1, ha.1⟩
  have hsame : readString s' (passwordKey v.slot) 65 = readString s (passwordKey v.slot) 65 := by
    rw [readString, readString, Store.getStr_congr]
    rw [hentry, Function.update_of_ne hpassword]
  have hlegacySame : loadProfile s' (lit "wifi_ssid") (lit "wifi_password") =
      loadProfile s (lit "wifi_ssid") (lit "wifi_password") :=
    loadProfile_congr (by rw [hentry, Function.update_of_ne hlegacy.1])
      (by rw [hentry, Function.update_of_ne hlegacy.2])
  cases hread : readString s (passwordKey v.slot) 65 with
  | some password =>
    have hown : loadProfile s' (ssidKey v.slot) (passwordKey v.slot) = some (v.ssid, password) := by
      simp only [loadProfile, hssid, hsame, hread, Option.map_some]
    rw [loaded_eq, hown, Option.some_or]
  | none =>
    have hown : loadProfile s' (ssidKey v.slot) (passwordKey v.slot) = none := by
      simp only [loadProfile, hssid, hsame, hread, Option.map_none]
    have hbefore : loadProfile s (ssidKey v.slot) (passwordKey v.slot) = none := by
      unfold loadProfile
      rw [hread]
      cases readString s (ssidKey v.slot) 33 <;> rfl
    rw [loaded_eq, loaded_eq, hown, hbefore, hlegacySame]

/-- A part of a profile changes what is loaded unless it is harmless. -/
theorem loaded_part_iff (ha : v.Acceptable) (hs0 : 0 ∉ v.ssid) (hp0 : 0 ∉ v.password)
    (h : s'.find = setEntries s.find ((profileEntries v.slot v.ssid v.password).take done)) :
    loaded s' = loaded s ↔ Harmless v s done := by
  have hslot : loaded s' = loaded s ↔ loaded s' v.slot = loaded s v.slot := by
    refine ⟨fun heq => congrFun heq _, fun heq => funext fun slot => ?_⟩
    by_cases hne : slot = v.slot
    · rw [hne, heq]
    · exact loaded_other h hne
  rw [hslot]
  match done, h with
  | 0, h =>
    have hsame : s'.find = s.find := h
    exact iff_of_true (loaded_congr (by rw [hsame]) (by rw [hsame]) fun _ => by rw [hsame]; exact ⟨rfl, rfl⟩)
      trivial
  | 1, h =>
    rw [loaded_mixed ha hs0 h]
    cases hread : readString s (passwordKey v.slot) 65 with
    | none => exact iff_of_true rfl fun password hpassword => by cases hread.symm.trans hpassword
    | some password =>
      constructor
      · intro heq password' hpassword
        obtain rfl := Option.some_inj.mp (hread.symm.trans hpassword)
        exact heq.symm
      · intro hharmless
        exact (hharmless password hread).symm
  | n + 2, h =>
    rw [loaded_set ha hs0 hp0 h]
    exact eq_comm

/-! ### The command -/

/-- The entries that an argument text asks to save. -/
def entries (arguments : Text) : List (Text × Text) :=
  profileEntries (setting arguments).slot (setting arguments).ssid (setting arguments).password

/-- An acceptable setting is saved, if the storage can be opened. -/
theorem wifiConfig_saves {arguments : Text} (h0 : 0 ∉ arguments) (ha : (setting arguments).Acceptable)
    (d : Device ρ) :
    let saved := saveAll (entries arguments) ⟨d.nvs.store, d.nvs.results.tail⟩
    (d.nvs.results.getD 0 true = false ∧ (wifiConfig arguments d).answer = false ∧
      (wifiConfig arguments d).device.nvs.store = d.nvs.store) ∨
    (d.nvs.results.getD 0 true = true ∧ (wifiConfig arguments d).answer = saved.1 ∧
      (wifiConfig arguments d).device.nvs.store = saved.2.store) := by
  intro saved
  cases hc : strchr (addressed arguments).2 space with
  | none =>
    have hnot := (strchr_eq_none_iff _ _).mp hc
    have hpassword : (setting arguments).password = [] := by
      rw [setting, dropWhile_of_notMem hnot, List.tail_nil]
    exact absurd hpassword ha.2.1
  | some separator =>
    obtain ⟨pre, post, hcut, hspace, -⟩ := (strchr_eq_some_iff _ _ _).mp hc
    have hsetting := setting_cut hcut hspace
    have hsaved : saved = saveProfile (addressed arguments).1 pre post ⟨d.nvs.store, d.nvs.results.tail⟩ := by
      show saveAll (entries arguments) _ = _
      rw [saveProfile_eq, entries, hsetting]
    rw [hsetting] at ha
    obtain ⟨hpre, hpost, hssid, hpassword⟩ := ha
    have hfits : ¬ (pre.length ≥ 33 ∨ post.length ≥ 65) := by
      simp only at hssid hpassword
      omega
    have hopen := nvsOpen_eq d.nvs
    rw [List.headD_eq_getD] at hopen
    rw [wifiConfig_cut h0 hcut hspace d hopen, if_neg (by simp [hpre, hpost]), if_neg hfits, ← hsaved]
    cases d.nvs.results.getD 0 true with
    | false => exact .inl ⟨rfl, rfl, rfl⟩
    | true => exact .inr ⟨rfl, rfl, rfl⟩

theorem entries_le (arguments : Text) :
    (∀ e ∈ entries arguments, e.1.length ≤ maxKeyLength) ∧ (entries arguments).length ≤ 4 := by
  obtain ⟨hssid, hpassword⟩ := slotKeys_le (setting arguments).slot
  obtain ⟨hlegacy, hlegacyPassword⟩ := legacyKeys_le
  unfold entries profileEntries
  split_ifs
  · exact ⟨by simp [hssid, hpassword, hlegacy, hlegacyPassword], by simp⟩
  · exact ⟨by simp [hssid, hpassword], by simp⟩

theorem FailsAfter.unique {n m : Nat} {results : List Bool} (hn : FailsAfter n results)
    (hm : FailsAfter m results) : n = m := by
  rcases Nat.lt_trichotomy n m with hlt | heq | hlt
  · cases hn.fails.symm.trans (hm.set n hlt)
  · exact heq
  · cases hm.fails.symm.trans (hn.set m hlt)

/-- All that `wifi-config` can do with an acceptable setting: the storage cannot be opened, everything is
saved, or the values in front of the call that fails are set. -/
theorem wifiConfig_cases {arguments : Text} (h0 : 0 ∉ arguments) (ha : (setting arguments).Acceptable)
    (d : Device ρ) : let reply := wifiConfig arguments d
    (reply.answer = false ∧ reply.device.nvs.store = d.nvs.store ∧
      ∀ done ≤ (entries arguments).length, ¬ FailsAfter done d.nvs.results) ∨
    (reply.answer = true ∧
      reply.device.nvs.store.find = setEntries d.nvs.store.find (entries arguments) ∧
      ∀ done ≤ (entries arguments).length, ¬ FailsAfter done d.nvs.results) ∨
    ∃ done ≤ (entries arguments).length, FailsAfter done d.nvs.results ∧ reply.answer = false ∧
      reply.device.nvs.store.find = setEntries d.nvs.store.find ((entries arguments).take done) := by
  intro reply
  obtain ⟨hclosed, hanswer, hstore⟩ | ⟨hopened, hanswer, hstore⟩ := wifiConfig_saves h0 ha d
  · refine .inl ⟨hanswer, hstore, fun done _ hfails => ?_⟩
    cases hclosed.symm.trans hfails.opened
  obtain ⟨m, hsave, hfind, hall⟩ | ⟨m, done, hsave, hdone, hfind, hset, hfails⟩ :=
    saveAll_cases (entries_le arguments).1 ⟨d.nvs.store, d.nvs.results.tail⟩
  · rw [hsave] at hanswer hstore
    refine .inr (.inl ⟨hanswer, by rw [hstore, hfind], fun done hle hfails => ?_⟩)
    have htrue := hall done hle
    rw [getD_tail] at htrue
    cases htrue.symm.trans hfails.fails
  · rw [hsave] at hanswer hstore
    refine .inr (.inr ⟨done, hdone, ⟨hopened, fun i hi => ?_, ?_⟩, hanswer, by rw [hstore, hfind]⟩)
    · rw [← getD_tail]
      exact hset i hi
    · rw [← getD_tail]
      exact hfails

/-- `wifi-config` is atomic exactly when the part of a profile that is set before a failure would be
loaded as what is loaded anyway. -/
theorem atomic_iff_harmless {arguments : Text} (h0 : 0 ∉ arguments) (d : Device ρ) :
    Atomic arguments d ↔ ((setting arguments).Acceptable → ∀ done ≤ (entries arguments).length,
      FailsAfter done d.nvs.results → Harmless (setting arguments) d.nvs.store done) := by
  by_cases ha : (setting arguments).Acceptable
  · obtain ⟨hs0, hp0⟩ := zero_notMem_setting h0
    obtain ⟨hanswer, hstore, hnone⟩ | ⟨hanswer, hfind, hnone⟩ | ⟨done, hle, hfails, hanswer, hfind⟩ :=
      wifiConfig_cases h0 ha d
    · refine iff_of_true ⟨fun _ => by rw [hstore], fun htrue => ?_⟩
        fun _ done hle hfails => absurd hfails (hnone done hle)
      cases hanswer.symm.trans htrue
    · have hwhole : (wifiConfig arguments d).device.nvs.store.find =
          setEntries d.nvs.store.find ((entries arguments).take (2 + 2)) := by
        rw [hfind, List.take_of_length_le (entries_le arguments).2]
      refine iff_of_true ⟨fun hfalse => ?_, fun _ => funext fun slot => ?_⟩
        fun _ done hle hfails => absurd hfails (hnone done hle)
      · cases hanswer.symm.trans hfalse
      · by_cases hslot : slot = (setting arguments).slot
        · rw [hslot, Function.update_self]
          exact loaded_set ha hs0 hp0 hwhole
        · rw [Function.update_of_ne hslot]
          exact loaded_other hwhole hslot
    · have hharmless := loaded_part_iff ha hs0 hp0 hfind
      constructor
      · intro hatomic _ done' _ hfails'
        rw [hfails'.unique hfails]
        exact hharmless.mp (hatomic.refused hanswer)
      · intro h
        refine ⟨fun _ => hharmless.mpr (h ha done hle hfails), fun htrue => ?_⟩
        cases hanswer.symm.trans htrue
  · obtain ⟨line, hreply⟩ := wifiConfig_rejects h0 ha d
    refine iff_of_true ⟨fun _ => by rw [hreply], fun htrue => ?_⟩ fun h => absurd h ha
    rw [hreply] at htrue
    cases htrue

/-- A store with a profile under the keys of slot 0. -/
def homeStore : Store := (wifiConfig (lit "home secret") blank).device.nvs.store

/-- The second value of the next profile cannot be set. -/
def secondFails : Device Unit := ⟨⟨homeStore, [true, true, false]⟩, ⟨.mounted, []⟩, ()⟩

/-- The same failure with the SSID that is stored: the password that stays is the one that goes with it. -/
theorem atomic_iff_harmless_home : Atomic (lit "home hidden") secondFails ∧
    (wifiConfig (lit "home hidden") secondFails).answer = false := by
  refine ⟨(atomic_iff_harmless (by decide) secondFails).mpr fun _ done _ hfails => ?_, by decide +kernel⟩
  have hone : FailsAfter 1 secondFails.nvs.results := ⟨rfl, by decide, rfl⟩
  rw [hfails.unique hone]
  intro password hpassword
  have hstored : readString homeStore (passwordKey 0) 65 = some (lit "secret") := by decide +kernel
  have hkept : loaded homeStore 0 = some (lit "home", lit "secret") := by decide +kernel
  obtain rfl := Option.some_inj.mp (hstored.symm.trans hpassword)
  exact hkept

/-- The profile that is refused leaves its SSID with the password of the other one. -/
theorem refused_profile_mixed :
    (wifiConfig (lit "office hidden") secondFails).answer = false ∧
      loaded (wifiConfig (lit "office hidden") secondFails).device.nvs.store 0 =
        some (lit "office", lit "secret") ∧
      ¬ Atomic (lit "office hidden") secondFails := by
  have hmixed : loaded (wifiConfig (lit "office hidden") secondFails).device.nvs.store 0 =
      some (lit "office", lit "secret") := by decide +kernel
  have hanswer : (wifiConfig (lit "office hidden") secondFails).answer = false := by decide +kernel
  refine ⟨hanswer, hmixed, fun hatomic => ?_⟩
  have hsame := congrFun (hatomic.refused hanswer) 0
  rw [hmixed] at hsame
  exact absurd hsame (by decide +kernel)

end Esp32Shell.Idf.ProfileWrites
