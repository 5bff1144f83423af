import Esp32Shell.Idf.LineFrame
import Esp32Shell.Idf.SshAccess
import Esp32Shell.Idf.SshSessions
import Esp32Shell.Idf.SignedApps

/-!
# What no SSH client can change

The digest of the password and the key of the signed apps are not among the keys
that a line writes, and SFTP reaches files alone. So both stay as they were
provisioned through every run of the server, whatever the shells dispatch and
however often the chip restarts.
-/
namespace Esp32Shell.Idf.SshLifetime

open Esp32Shell.Library.CText Esp32Shell.Library.Precedence Esp32Shell.Library.Sha256
open Shell.CommandCore Shell.CommandLines Storage.LittleFs Storage.Nvs
open CommandServices SshAuth SshServer SshSessions Firmware LineFrame
open SignedAppBundle AppRuntime AppRegistry

/-! ### The flash and the files of a history -/

variable {device : Image} {log : List (Event Rest)}

theorem keeps_event {key : Text} (hkey : key ∉ configurationKeys) (d : Image) (e : Event Rest) :
    KeepsKey key d.nvs (replayEvent firmware d e).nvs := by
  cases e with
  | shell event =>
    cases event with
    | dispatched command => exact (kept_line d command).keys key hkey
    | _ => rfl
  | loaded auth => exact keeps_open key d.nvs
  | _ => rfl

theorem keeps_replay {key : Text} (hkey : key ∉ configurationKeys) (log : List (Event Rest))
    (d : Image) : KeepsKey key d.nvs (replay firmware d log).nvs := by
  induction log generalizing d with
  | nil => rfl
  | cons e log ih => exact (ih (replayEvent firmware d e)).trans (keeps_event hkey d e)

/-- Where SFTP has changed no file, every file is an old one or a text. -/
theorem planted_replay (hfiles : ∀ fs, .files fs ∉ log) (d : Image) :
    Planted d.fs (replay firmware d log).fs := by
  induction log generalizing d with
  | nil => exact planted_of_eq rfl
  | cons e log ih =>
    have hrest := ih (fun fs hfs => hfiles fs (List.mem_cons_of_mem e hfs)) (replayEvent firmware d e)
    refine Planted.trans ?_ hrest
    cases e with
    | shell event =>
      cases event with
      | dispatched command => exact (kept_line d command).files
      | _ => exact planted_of_eq rfl
    | files fs => exact absurd List.mem_cons_self (hfiles fs)
    | _ => exact planted_of_eq rfl

/-! ### The password -/

/-- Loaded credentials were loaded at some time. -/
theorem loadedAuth_eq_some {ρ : Type} {log : List (Event ρ)} {auth : AuthConfig}
    (h : loadedAuth log = some auth) : ∃ before after, log = before ++ .loaded (some auth) :: after := by
  induction log using List.reverseRecOn with
  | nil => cases h
  | append_singleton log e ih =>
    rw [loadedAuth, List.foldl_append] at h
    have hlater : loadedAuth log = some auth →
        ∃ before after, log ++ [e] = before ++ .loaded (some auth) :: after := by
      intro hlog
      obtain ⟨before, after, rfl⟩ := ih hlog
      exact ⟨before, after ++ [e], by simp⟩
    cases e with
    | loaded auth' =>
      obtain rfl : auth' = some auth := h
      exact ⟨log, [], rfl⟩
    | restarted rest => cases h
    | _ => exact hlater h

/-- The digest is read from its own key, even where NVS may fail. -/
theorem digest_of_loaded {nvs : Flash} {auth : AuthConfig} (h : loadAuthConfig nvs = some auth) :
    nvs.store.find (lit "ssh_pw_hash") = some (.blob auth.passwordDigest.val) := by
  unfold loadAuthConfig at h
  split at h
  · cases h
  next nvs' hopen =>
    have hkeeps : KeepsKey (lit "ssh_pw_hash") nvs nvs' := keeps_opened hopen
    simp only [bind, Option.bind_eq_some_iff, Option.dite_none_right_eq_some, Option.some_inj] at h
    obtain ⟨username, -, digest, hdigest, hostKey, -, hlength, rfl⟩ := h
    rw [← hkeeps]
    exact (loadBlob_eq_some_iff.mp hdigest).1

/-- In every run every login that is ever accepted is with the password whose digest was stored
before the first of its steps: no line, no file and no restart changes it. -/
theorem password_provisioned (sha256 : List UInt8 → Digest) (device : Image) (inputs : List (Input Rest)) :
    ∀ before login after,
      (afterInputs sha256 firmware device inputs).history =
        before ++ .userAuth (some login) .success :: after →
      device.nvs.store.find (lit "ssh_pw_hash") = some (.blob (sha256 login.password).val) := by
  intro before login after hcut
  have haccount := account_run sha256 firmware device inputs
  obtain ⟨hashed, authType, hresult⟩ := haccount.accounted before _ after hcut
  cases hauth : loadedAuth before with
  | none =>
    rw [hauth] at hresult
    cases hresult
  | some auth =>
    rw [hauth] at hresult
    obtain ⟨-, hpassword⟩ := SshAccess.login_of_success hresult.symm
    obtain ⟨earlier, later, rfl⟩ := loadedAuth_eq_some hauth
    have hloaded := haccount.accounted earlier (.loaded (some auth))
      (later ++ .userAuth (some login) .success :: after) (by rw [hcut]; simp)
    have hstored := digest_of_loaded hloaded.symm
    have hkey : lit "ssh_pw_hash" ∉ configurationKeys := by decide
    have hkeeps := keeps_replay hkey earlier device
    rw [hpassword, ← hkeeps]
    exact hstored

/-! ### The registry of apps -/

/-- What keeps the registry in order. -/
def InOrder (rt : Runtime) : Prop := Steady rt ∧ ∀ i, Settled rt i

theorem inOrder_initial : InOrder initial :=
  ⟨(invariant_initial 0).steady, (invariant_initial 0).settled⟩

/-- The other tasks leave the names of the apps and the crypto library alone. -/
structure Quiet (r r' : Rest) : Prop where
  inOrder : InOrder r'.apps
  directory_eq : directory r'.apps = directory r.apps
  crypto_eq : r'.crypto = r.crypto

theorem Quiet.trans {r r' r'' : Rest} (h : Quiet r r') (h' : Quiet r' r'') : Quiet r r'' where
  inOrder := h'.inOrder
  directory_eq := h'.directory_eq.trans h.directory_eq
  crypto_eq := h'.crypto_eq.trans h.crypto_eq

theorem quiet_of_kept {r r' : Rest} (h : AppRegistry.Kept r.apps r'.apps) (hcrypto : r'.crypto = r.crypto) :
    Quiet r r' := ⟨⟨h.steady, h.settled⟩, h.directory, hcrypto⟩

theorem quiet_of_eq {r r' : Rest} (h : InOrder r.apps) (happs : r'.apps = r.apps)
    (hcrypto : r'.crypto = r.crypto) : Quiet r r' := ⟨by rwa [happs], by rw [happs], hcrypto⟩

theorem quiet_turn {r : Rest} (h : InOrder r.apps) (t : Turn) : Quiet r (r.turn t) := by
  cases t with
  | supervise now platforms => exact quiet_of_kept (supervise_kept h.1 h.2 _ now platforms) rfl
  | app handle ticks watermark => exact quiet_of_kept (taskTurn_kept h.1 h.2 handle ticks watermark) rfl
  | logged formatted => exact quiet_of_eq h rfl rfl
  | station event => exact quiet_of_eq h rfl rfl

theorem quiet_meanwhile {r : Rest} (h : InOrder r.apps) : Quiet r r.meanwhile := by
  unfold Rest.meanwhile
  generalize r.now.meanwhile = turns
  induction turns generalizing r with
  | nil => exact quiet_of_eq h rfl rfl
  | cons t turns ih => exact (quiet_turn h t).trans (ih (quiet_turn h t).inOrder)

/-- The file is a bundle of this name, signed with this key. -/
def signedWith (crypto : Crypto) (publicKey : List UInt8) (name : Text) (file : List UInt8) : Bool :=
  let header := SignedAppBundleHeader.read (file.take headerSize)
  verify header name ((file.drop headerSize).take header.payloadLength) crypto.sha256
    (crypto.verifyMsg publicKey)

/-- Where the bundle of a name lies. -/
def bundleOf (name : Text) : Path := resolve (lit "/littlefs/apps/" ++ name ++ lit ".bundle")

/-- The device has a bundle of this name, signed with the key that it has stored. -/
def Installed (d : Image) (name : Text) (publicKey file : List UInt8) : Prop :=
  d.nvs.store.find (lit "app_signing_pub") = some (.blob publicKey) ∧
  d.fs.tree.file (bundleOf name) = some file ∧ signedWith d.rest.crypto publicKey name file = true

theorem installed_of_passed {d : Image} {name : Text} {payload : List UInt8}
    (h : Passed name (board d) payload) : ∃ publicKey file, Installed d name publicKey file := by
  obtain ⟨file, verifier, hfile, hverifier, rfl, hverify⟩ := h
  have htree : d.fs.tree.file (bundleOf name) = some file := by
    have hopen : (d.fs.fopenRb (bundleOf name)).1 = some file := hfile
    unfold FileSystem.fopenRb at hopen
    split at hopen
    · exact hopen
    · cases hopen
  have hload : loadSignatureVerifier d.nvs d.rest.crypto = some verifier := hverifier
  unfold loadSignatureVerifier at hload
  split at hload
  · cases hload
  next nvs hopen =>
    have hkeeps : KeepsKey (lit "app_signing_pub") d.nvs nvs := keeps_opened hopen
    split at hload
    · cases hload
    next publicKey hkey =>
      split at hload
      · obtain rfl := Option.some_inj.mp hload
        refine ⟨publicKey, file, ?_, htree, hverify⟩
        rw [← hkeeps]
        exact (Store.getBlob_eq_some_iff.mp hkey).1
      · cases hload

theorem others_crypto (call : ServiceCall) (d : Image) :
    (others.respond call d).device.rest.crypto = d.rest.meanwhile.crypto := by
  cases call with
  | fsList arguments => exact congrArg (fun d : Image => d.rest.crypto) (fsList_device arguments _)
  | gpioRead arguments => exact congrArg (fun d : Image => d.rest.crypto) (gpioRead_device arguments _)
  | gpioWrite arguments => exact congrArg (fun d : Image => d.rest.crypto) (gpioWrite_device arguments _)
  | _ => rfl

/-- The registry is changed by its own two commands alone. -/
theorem others_apps {call : ServiceCall} (hrun : ∀ name, call ≠ .appRun name)
    (hstop : ∀ name, call ≠ .appStop name) (d : Image) :
    (others.respond call d).device.rest.apps = d.rest.meanwhile.apps := by
  cases call with
  | fsList arguments => exact congrArg (fun d : Image => d.rest.apps) (fsList_device arguments _)
  | gpioRead arguments => exact congrArg (fun d : Image => d.rest.apps) (gpioRead_device arguments _)
  | gpioWrite arguments => exact congrArg (fun d : Image => d.rest.apps) (gpioWrite_device arguments _)
  | appRun name => exact absurd rfl (hrun name)
  | appStop name => exact absurd rfl (hstop name)
  | _ => rfl

/-- A new name is in the registry, and its bundle was installed. -/
structure Enters (d d' : Image) (name : Text) : Prop where
  inOrder : InOrder d'.rest.apps
  crypto_eq : d'.rest.crypto = d.rest.crypto
  absent : ∀ app ∈ d.rest.apps.apps, app.name ≠ name
  directory_eq : directory d'.rest.apps = directory d.rest.apps ++ [(name, false)]
  installed : ∃ publicKey file, Installed d name publicKey file

theorem Enters.present {d d' : Image} {name : Text} (h : Enters d d' name) :
    ∃ app ∈ d'.rest.apps.apps, app.name = name ∧ app.builtin = false := by
  have hmem : (name, false) ∈ directory d'.rest.apps := by
    rw [h.directory_eq]
    simp
  obtain ⟨app, happ, heq⟩ := List.mem_map.mp hmem
  exact ⟨app, happ, congrArg Prod.fst heq, congrArg Prod.snd heq⟩

/-- A method that leaves the names alone, or `app-run` of an installed app that is new. -/
theorem respond_registry {d : Image} (h : InOrder d.rest.apps) (call : ServiceCall) :
    let d' := (firmware.respond call d).device
    Quiet d.rest d'.rest ∨ ∃ name, call = .appRun name ∧ Enters d d' name := by
  intro d'
  by_cases hconfiguration : ofConfiguration call = true
  · left
    have hrest := (configuration_scope others hconfiguration d).2
    exact quiet_of_eq h (congrArg Rest.apps hrest) (congrArg Rest.crypto hrest)
  by_cases hfiles : ofFiles call = true
  · left
    have hrest : (firmware.respond call d).device.rest = d.rest := by
      cases call with
      | fsRead arguments => exact (fsRead_scope arguments d).2
      | fsWrite arguments => exact (fsWrite_scope arguments d).2
      | fsRemove arguments => exact (fsRemove_scope arguments d).2
      | _ => cases hfiles
    exact quiet_of_eq h (congrArg Rest.apps hrest) (congrArg Rest.crypto hrest)
  have hmeanwhile := quiet_meanwhile h
  have heq : d' = (others.respond call d).device :=
    congrArg Reply.device (firmware_others hconfiguration hfiles d)
  rw [heq]
  by_cases hrun : ∃ name, call = .appRun name
  · obtain ⟨name, rfl⟩ := hrun
    rcases run_cases hmeanwhile.inOrder.1 hmeanwhile.inOrder.2 name
        (board { d with rest := d.rest.meanwhile }) with hkept | hnew
    · exact .inl (hmeanwhile.trans (quiet_of_kept hkept rfl))
    · right
      obtain ⟨payload, hpassed⟩ := hnew.passed
      obtain ⟨publicKey, file, hinstalled⟩ := installed_of_passed hpassed
      refine ⟨name, rfl, ⟨hnew.steady, hnew.settled⟩, hmeanwhile.crypto_eq, fun app happ hname => ?_,
        hnew.directory.trans (congrArg (· ++ _) hmeanwhile.directory_eq), publicKey, file, ?_⟩
      · have hmem : (name, app.builtin) ∈ directory d.rest.apps := hname ▸ List.mem_map_of_mem happ
        rw [← hmeanwhile.directory_eq] at hmem
        exact find_ne_none_of_mem hmem hnew.absent
      · refine ⟨hinstalled.1, hinstalled.2.1, ?_⟩
        rw [← hmeanwhile.crypto_eq]
        exact hinstalled.2.2
  left
  by_cases hstop : ∃ name, call = .appStop name
  · obtain ⟨name, rfl⟩ := hstop
    exact hmeanwhile.trans (quiet_of_kept (stop_kept hmeanwhile.inOrder.1 hmeanwhile.inOrder.2 name) rfl)
  · have happs := others_apps (fun name h => hrun ⟨name, h⟩) (fun name h => hstop ⟨name, h⟩) d
    exact hmeanwhile.trans (quiet_of_eq hmeanwhile.inOrder happs (others_crypto call d))

/-- A line of the history has entered the name. -/
def Registered (device : Image) (log : List (Event Rest)) (name : Text) : Prop :=
  ∃ before input after, log = before ++ .shell (.dispatched input) :: after ∧
    let done := dispatch firmware (replay firmware device before) (some input)
    done.calls = [.appRun name] ∧ Enters (replay firmware device before) done.device name

theorem Registered.append {name : Text} (h : Registered device log name) (more : List (Event Rest)) :
    Registered device (log ++ more) name := by
  obtain ⟨before, input, after, rfl, hentered⟩ := h
  exact ⟨before, input, after ++ more, by simp, hentered⟩

/-- A restart leaves the built-in apps alone, and the same crypto library. -/
def Booted (device : Image) (rest : Rest) : Prop :=
  rest.apps = initial ∧ rest.crypto = device.rest.crypto

/-- The registry of a device with such a history. -/
structure Traced (device : Image) (log : List (Event Rest)) (rest : Rest) : Prop where
  inOrder : InOrder rest.apps
  crypto_eq : rest.crypto = device.rest.crypto
  signed : ∀ name, (name, false) ∈ directory rest.apps → Registered device log name

theorem traced_booted {rest : Rest} (h : Booted device rest) (log : List (Event Rest)) :
    Traced device log rest := by
  obtain ⟨happs, hcrypto⟩ := h
  refine ⟨by rw [happs]; exact inOrder_initial, hcrypto, fun name hname => ?_⟩
  rw [happs] at hname
  have hbuiltin : ∀ entry ∈ directory initial, entry.2 = true := by decide
  cases hbuiltin _ hname

theorem Traced.quiet {rest rest' : Rest} (h : Traced device log rest) (hquiet : Quiet rest rest')
    (e : Event Rest) : Traced device (log ++ [e]) rest' := by
  refine ⟨hquiet.inOrder, hquiet.crypto_eq.trans h.crypto_eq, fun name hname => ?_⟩
  rw [hquiet.directory_eq] at hname
  exact (h.signed name hname).append [e]

/-- A line adds a name only where its bundle is installed. -/
theorem Traced.line (h : Traced device log (replay firmware device log).rest) (command : Text) :
    Traced device (log ++ [.shell (.dispatched command)])
      (dispatch firmware (replay firmware device log) (some command)).device.rest := by
  generalize hnow : replay firmware device log = d at h
  rcases line_call firmware d command with hsame | ⟨call, -, hcalls, hcall⟩
  · rw [hsame]
    exact h.quiet (quiet_of_eq h.inOrder rfl rfl) _
  · rcases respond_registry h.inOrder call with hquiet | ⟨name, rfl, henters⟩
    · rw [hcall]
      exact h.quiet hquiet _
    · rw [← hcall] at henters
      refine ⟨henters.inOrder, henters.crypto_eq.trans h.crypto_eq, fun name' hname => ?_⟩
      rw [henters.directory_eq] at hname
      rcases List.mem_append.mp hname with hold | hadded
      · exact (h.signed name' hold).append _
      · obtain rfl : name' = name := by simpa using hadded
        exact ⟨log, command, [], rfl, by rw [hnow]; exact ⟨hcalls, henters⟩⟩

theorem traced_replay (hstart : Booted device device.rest)
    (hbooted : ∀ rest, .restarted rest ∈ log → Booted device rest) :
    Traced device log (replay firmware device log).rest := by
  induction log using List.reverseRecOn with
  | nil => exact traced_booted hstart []
  | append_singleton log e ih =>
    have hlog := ih fun rest hrest => hbooted rest (List.mem_append_left _ hrest)
    have hsame := hlog.quiet (quiet_of_eq hlog.inOrder rfl rfl) e
    rw [replay_append]
    cases e with
    | shell event =>
      cases event with
      | dispatched command => exact hlog.line command
      | _ => exact hsame
    | restarted rest => exact traced_booted (hbooted rest (by simp)) _
    | _ => exact hsame

/-- A signed bundle is no text. -/
theorem zero_mem_of_signedWith {crypto : Crypto} {publicKey : List UInt8} {name : Text}
    {file : List UInt8} (h : signedWith crypto publicKey name file = true) : 0 ∈ file := by
  have hmagic : (file.take headerSize).take 8 = magic := by
    by_contra hne
    have hrefused : (SignedAppBundleHeader.read (file.take headerSize)).magic ≠ magic := hne
    simp only [signedWith, verify] at h
    rw [if_pos (.inl hrefused)] at h
    cases h
  have hzero : (0 : UInt8) ∈ magic := by decide
  rw [← hmagic] at hzero
  exact List.mem_of_mem_take (List.mem_of_mem_take hzero)

/-- In every run whose restarts leave the built-in apps alone, a signed app that is registered was
entered by an `app-run` line of its name, which found no app of this name and met its bundle, signed with
the key that was stored before the first step. Where SFTP had written nothing by then, the bundle lay on
the device before the first step, too. -/
theorem signed_apps_provisioned (sha256 : List UInt8 → Digest) (device : Image)
    (inputs : List (Input Rest)) (hstart : Booted device device.rest)
    (hbooted : ∀ rest, .restarted rest ∈ (afterInputs sha256 firmware device inputs).history →
      Booted device rest) :
    let s := afterInputs sha256 firmware device inputs
    ∀ app ∈ s.current.rest.apps.apps, app.builtin = false →
      ∃ before input after publicKey file, s.history = before ++ .shell (.dispatched input) :: after ∧
        let found := replay firmware device before
        let done := dispatch firmware found (some input)
        done.calls = [.appRun app.name] ∧ (∀ other ∈ found.rest.apps.apps, other.name ≠ app.name) ∧
        (∃ entered ∈ done.device.rest.apps.apps, entered.name = app.name ∧ entered.builtin = false) ∧
        device.nvs.store.find (lit "app_signing_pub") = some (.blob publicKey) ∧
        found.fs.tree.file (bundleOf app.name) = some file ∧
        signedWith device.rest.crypto publicKey app.name file = true ∧
        ((∀ fs, .files fs ∉ before) → device.fs.tree.file (bundleOf app.name) = some file) := by
  intro s app happ hkind
  have haccount := account_run sha256 firmware device inputs
  have htraced := traced_replay hstart hbooted
  rw [← haccount.device_eq] at htraced
  have hname : (app.name, false) ∈ directory s.current.rest.apps :=
    List.mem_map.mpr ⟨app, happ, by rw [hkind]⟩
  obtain ⟨before, input, after, hcut, hcalls, henters⟩ := htraced.signed _ hname
  obtain ⟨publicKey, file, hkey, hfile, hsigned⟩ := henters.installed
  have hearlier : Traced device before (replay firmware device before).rest :=
    traced_replay hstart fun rest hrest => hbooted rest (by rw [hcut]; exact List.mem_append_left _ hrest)
  rw [hearlier.crypto_eq] at hsigned
  refine ⟨before, input, after, publicKey, file, hcut, hcalls, henters.absent, henters.present, ?_, hfile,
    hsigned, fun hfiles => ?_⟩
  · have hprovisioned : lit "app_signing_pub" ∉ configurationKeys := by decide
    have hkeeps := keeps_replay hprovisioned before device
    rw [← hkeeps]
    exact hkey
  · rcases planted_replay hfiles device _ _ hfile with hold | htext
    · exact hold
    · exact absurd (zero_mem_of_signedWith hsigned) htext

/-- A device with its credentials, its signing key and the bundle of one app. -/
def factory : Image where
  nvs := ⟨(provisioned (Library.Sha256.sha256 (lit "secret"))).setBlob (lit "app_signing_pub")
    SignedApps.signingKey |>.getD .empty, []⟩
  fs := (SignedApps.signedBoard 7).fs
  rest :=
    { apps := initial
      log := .empty
      setup := WifiStation.twoProfiles
      station := WifiStation.initial
      crypto := (SignedApps.signedBoard 7).crypto
      pins := []
      readings := fun _ =>
        { meanwhile := [], target := lit "esp32s3", cores := 2, revision := 1, flashSize := 0, psramSize := 0
          idfVersion := lit "v5", uptimeMs := 0, freeHeap := 0, minimumFreeHeap := 0, psramFree := 0
          resetReason := 1, tasks := [], level := fun _ => 0, runningPartition := none
          bootPartition := none, wifi := ⟨none, none⟩, directory := fun _ => none, allocated := true
          behind := [], platform := ⟨minimumFreeHeap, some 7, 0⟩ }
      calls := 0 }

theorem run_fits : (lit "app-run blink\r").length ≤ 64 := by decide

def isRestart : Event Rest → Bool
  | .restarted _ => true
  | _ => false

/-- A client starts the signed app of the device. -/
def blinkVisit : List (Input Rest) := typing ⟨lit "app-run blink\r", run_fits⟩

def isLogin : Event Rest → Bool
  | .userAuth (some _) .success => true
  | _ => false

theorem blinkVisit_logs_in : (afterInputs Library.Sha256.sha256 firmware factory blinkVisit).history.any
    isLogin = true := by decide +kernel

theorem password_provisioned_blink : ∃ before login after,
    (afterInputs Library.Sha256.sha256 firmware factory blinkVisit).history =
      before ++ .userAuth (some login) .success :: after ∧
    factory.nvs.store.find (lit "ssh_pw_hash") =
      some (.blob (Library.Sha256.sha256 login.password).val) := by
  obtain ⟨e, hmem, hlogin⟩ := List.any_eq_true.mp blinkVisit_logs_in
  obtain ⟨before, after, hcut⟩ := List.append_of_mem hmem
  obtain ⟨login, rfl⟩ : ∃ login, e = .userAuth (some login) .success := by
    unfold isLogin at hlogin
    split at hlogin
    next login => exact ⟨login, rfl⟩
    next => cases hlogin
  exact ⟨before, login, after, hcut,
    password_provisioned Library.Sha256.sha256 factory blinkVisit before login after hcut⟩

theorem booted_blinkVisit : ∀ rest, .restarted rest ∈
    (afterInputs Library.Sha256.sha256 firmware factory blinkVisit).history → Booted factory rest := by
  intro rest hrest
  have hnone : (afterInputs Library.Sha256.sha256 firmware factory blinkVisit).history.all
      (fun e => !isRestart e) = true := by decide +kernel
  have hno := List.all_eq_true.mp hnone _ hrest
  cases hno

theorem blinkVisit_registers : (afterInputs Library.Sha256.sha256 firmware factory
    blinkVisit).current.rest.apps.apps.map (fun app => (app.name, app.builtin)) =
      directory initial ++ [(lit "blink", false)] := by decide +kernel

theorem signed_apps_provisioned_blink :
    ∃ app ∈ (afterInputs Library.Sha256.sha256 firmware factory blinkVisit).current.rest.apps.apps,
      app.builtin = false ∧ ∃ publicKey file,
        factory.nvs.store.find (lit "app_signing_pub") = some (.blob publicKey) ∧
        signedWith factory.rest.crypto publicKey app.name file = true := by
  have hmem : (lit "blink", false) ∈ (afterInputs Library.Sha256.sha256 firmware factory
      blinkVisit).current.rest.apps.apps.map fun app => (app.name, app.builtin) := by
    rw [blinkVisit_registers]
    simp
  obtain ⟨app, happ, heq⟩ := List.mem_map.mp hmem
  have hkind : app.builtin = false := congrArg Prod.snd heq
  obtain ⟨_, _, _, publicKey, file, -, -, -, -, hkey, -, hsigned, -⟩ :=
    signed_apps_provisioned Library.Sha256.sha256 factory blinkVisit ⟨rfl, rfl⟩ booted_blinkVisit app happ
      hkind
  exact ⟨app, happ, hkind, publicKey, file, hkey, hsigned⟩

end Esp32Shell.Idf.SshLifetime
