import Esp32Shell.Idf.Ota
import Esp32Shell.Idf.SignedApps
import Esp32Shell.Idf.SshAuth
import Esp32Shell.Idf.WifiProfiles

/-!
# What a cleared configuration trusts

`config-clear` takes away the keys under which bundles and images are trusted,
and leaves the credentials. The key of the images is gone afterwards; the key
that it erases for the bundles is not the one that their verifier reads.
-/
namespace Esp32Shell.Idf.ConfigClear

open Esp32Shell.Library.CText Esp32Shell.Library.Sha256
open Shell.CommandCore Shell.CommandLines
open Storage.Nvs Storage.LittleFs CommandServices SignedAppBundle AppRuntime Ota SshAuth
open SignedApps (signedBoard signingKey)
open WifiProfiles (loadProfile loadProfiles)

variable {ρ : Type}

/-- Nothing is trusted with the later store, and the credentials are those of the earlier one,
whatever the calls of the storage answer. -/
structure Cleared (crypto : Crypto) (before after : Store) : Prop where
  noBundle : ∀ name board payload, board.nvs.store = after → board.crypto = crypto →
    loadAndVerify name board ≠ .ok payload
  noImage : ∀ image signature platform, platform.nvs.store = after →
    (otaApplySignedImage image signature platform).accepted = false
  auth : ∀ results, loadAuthConfig ⟨after, results⟩ = loadAuthConfig ⟨before, results⟩
  profiles : ∀ results, loadProfiles ⟨after, results⟩ = loadProfiles ⟨before, results⟩

/-- There is a key for bundles under which the digest of some payload has a signature. -/
def Trusting (crypto : Crypto) (s : Store) : Prop :=
  ∃ key payload digest signed signature, s.find (lit "app_signing_pub") = some (.blob key) ∧
    key.length = 32 ∧ crypto.importPublic key = true ∧ payload ≠ [] ∧
    payload.length ≤ maxPayloadLength ∧ crypto.sha256 0 payload = some digest ∧
    crypto.sha256 1 payload = some signed ∧ signature.length = 64 ∧
    crypto.verifyMsg key signed signature = true

/-! ### The command -/

/-- A `config-clear` that reports success has erased its two keys. -/
theorem configClear_erases {arguments : Text} {d : Device ρ} (h : (configClear arguments d).answer = true) :
    (configClear arguments d).device.nvs.store.find =
      Function.update (Function.update d.nvs.store.find (lit "app_public_key") none)
        (lit "ota_public_key") none := by
  unfold configClear at h ⊢
  by_cases hconfirm : arguments ≠ lit "--confirm"
  · rw [if_pos hconfirm] at h
    cases h
  rw [if_neg hconfirm, nvsOpen_eq] at h ⊢
  cases hopen : d.nvs.results.headD true with
  | false =>
    rw [hopen] at h
    cases h
  | true =>
    simp only [hopen] at h ⊢
    generalize happ : nvsEraseKey (lit "app_public_key") ⟨d.nvs.store, d.nvs.results.tail⟩ = app at h ⊢
    generalize hota : nvsEraseKey (lit "ota_public_key") app.2 = ota at h ⊢
    by_cases hgone : (app.1 = .ok ∨ app.1 = .nvsNotFound) ∧ (ota.1 = .ok ∨ ota.1 = .nvsNotFound)
    · rw [if_pos hgone, nvsCommit_eq]
      subst hota happ
      have hfind := nvsEraseKey_gone hgone.2
      rw [nvsEraseKey_gone hgone.1] at hfind
      exact hfind
    · rw [if_neg hgone] at h
      cases h

/-! ### Bundles -/

theorem key_of_verifier {nvs : Flash} {crypto : Crypto} {verifier : AppBundleSignatureVerifier}
    (h : loadSignatureVerifier nvs crypto = some verifier) :
    ∃ key, nvs.store.find (lit "app_signing_pub") = some (.blob key) ∧ key.length = 32 ∧
      crypto.importPublic key = true ∧ verifier = crypto.verifyMsg key := by
  rw [loadSignatureVerifier, nvsOpen_eq] at h
  cases hopen : nvs.results.headD true with
  | false =>
    simp only [hopen] at h
    cases h
  | true =>
    simp only [hopen] at h
    cases hkey : nvs.store.getBlob (lit "app_signing_pub") 32 with
    | none =>
      simp only [hkey] at h
      cases h
    | some key =>
      simp only [hkey] at h
      obtain ⟨⟨hlength, himport⟩, hverifier⟩ := Option.ite_none_right_eq_some.mp h
      exact ⟨key, (Store.getBlob_eq_some_iff.mp hkey).1, hlength, himport,
        (Option.some_inj.mp hverifier).symm⟩

theorem verifier_of_key {s : Store} {crypto : Crypto} {key : List UInt8}
    (hkey : s.find (lit "app_signing_pub") = some (.blob key)) (hlength : key.length = 32)
    (himport : crypto.importPublic key = true) :
    loadSignatureVerifier ⟨s, []⟩ crypto = some (crypto.verifyMsg key) := by
  have hblob : s.getBlob (lit "app_signing_pub") 32 = some key :=
    Store.getBlob_eq_some_iff.mpr ⟨hkey, hlength.le⟩
  rw [loadSignatureVerifier, nvsOpen_eq]
  simp only [List.headD_nil, hblob, hlength, himport, and_self, if_true]

/-- What a verified payload is known to be. -/
theorem verify_eq_true {header : SignedAppBundleHeader} {name : Text} {payload : List UInt8}
    {digest : AppBundleDigest} {verifier : AppBundleSignatureVerifier}
    (h : verify header name payload digest verifier = true) :
    payload ≠ [] ∧ payload.length ≤ maxPayloadLength ∧ ∃ d signed, digest 0 payload = some d ∧
      digest 1 payload = some signed ∧ verifier signed header.signature = true := by
  unfold verify at h
  split_ifs at h with hbad
  simp only [not_or, not_lt, gt_iff_lt] at hbad
  obtain ⟨-, -, -, -, -, hempty, hlong, -⟩ := hbad
  refine ⟨fun hnil => hempty (by rw [hnil]; rfl), hlong, ?_⟩
  cases hfirst : digest 0 payload with
  | none =>
    rw [hfirst] at h
    cases h
  | some d =>
    simp only [hfirst] at h
    split_ifs at h
    cases hsecond : digest 1 payload with
    | none =>
      rw [hsecond] at h
      cases h
    | some signed =>
      rw [hsecond] at h
      exact ⟨d, signed, rfl, rfl, h⟩

theorem trusting_of_passes {name : Text} {board : Board} {payload : List UInt8}
    (h : loadAndVerify name board = .ok payload) : Trusting board.crypto board.nvs.store := by
  obtain ⟨-, file, verifier, -, hverifier, hpayload, hverify⟩ := loadAndVerify_eq_ok h
  obtain ⟨key, hkey, hlength, himport, rfl⟩ := key_of_verifier hverifier
  obtain ⟨hne, hle, digest, signed, hfirst, hsecond, hsignature⟩ := verify_eq_true hverify
  refine ⟨key, payload, digest, signed, _, hkey, hlength, himport, hne, hle, hfirst, hsecond, ?_,
    hsignature⟩
  -- the payload lies behind a whole header
  have hlong : headerSize < file.length := by
    by_contra hshort
    rw [List.drop_eq_nil_of_le (by omega), List.take_nil] at hpayload
    exact hne hpayload
  have hheader : headerSize = 112 := rfl
  simp only [SignedAppBundleHeader.read, List.length_take, List.length_drop]
  omega

/-- `payloadLength` of a header. -/
def lengthBytes (n : Nat) : List UInt8 :=
  [UInt8.ofNat n, UInt8.ofNat (n / 256), UInt8.ofNat (n / 65536), 0]

/-- The header of a bundle of an app with a name of three bytes. -/
def sealedHeader (digest signature payload : List UInt8) : List UInt8 :=
  magic ++ [1, 3, 0, 0] ++ lengthBytes payload.length ++ digest ++ signature

theorem littleEndian_lengthBytes {n : Nat} (h : n ≤ maxPayloadLength) :
    littleEndian (lengthBytes n) = n := by
  have hmax : maxPayloadLength = 65536 := rfl
  simp only [littleEndian, lengthBytes, List.foldr_cons, List.foldr_nil, UInt8.toNat_ofNat']
  have hzero : (0 : UInt8).toNat = 0 := rfl
  omega

theorem sealedHeader_length {digest signature : List UInt8} (hd : digest.length = 32)
    (hs : signature.length = 64) (payload : List UInt8) :
    (sealedHeader digest signature payload).length = headerSize := by
  have hmagic : magic.length = 8 := by decide
  simp only [sealedHeader, List.length_append, hmagic, lengthBytes, List.length_cons, List.length_nil,
    hd, hs, headerSize]

theorem read_sealedHeader {digest signature : List UInt8} (hd : digest.length = 32)
    (hs : signature.length = 64) (payload : List UInt8) :
    SignedAppBundleHeader.read (sealedHeader digest signature payload) =
      ⟨magic, 1, 3, littleEndian (lengthBytes payload.length), digest, signature⟩ := by
  have hbehind : (sealedHeader digest signature payload).drop 16 = digest ++ signature := rfl
  have hdigest : ((sealedHeader digest signature payload).drop 16).take 32 = digest := by
    rw [hbehind, List.take_left' hd]
  have hsignature : ((sealedHeader digest signature payload).drop 48).take 64 = signature := by
    have hdrop : (sealedHeader digest signature payload).drop 48 =
        ((sealedHeader digest signature payload).drop 16).drop 32 := by rw [List.drop_drop]
    rw [hdrop, hbehind, List.drop_left' hd, List.take_of_length_le hs.le]
  rw [SignedAppBundleHeader.read, hdigest, hsignature]
  rfl

/-- A board with a bundle of the app `app` on its disk. -/
def bundleBoard (crypto : Crypto) (s : Store) (bundle : List UInt8) : Board :=
  { emptyBoard 0 with
    fs := ⟨Tree.mounted.setFile [lit "littlefs", lit "apps", lit "app.bundle"] bundle
      (by decide) (by decide), []⟩
    nvs := ⟨s, []⟩
    crypto := crypto }

theorem bundleBoard_file (crypto : Crypto) (s : Store) (bundle : List UInt8) :
    ((bundleBoard crypto s bundle).fs.fopenRb (resolve (bundlePath (lit "app")))).1 = some bundle := by
  have hpath : resolve (bundlePath (lit "app")) = [lit "littlefs", lit "apps", lit "app.bundle"] := by
    decide
  have hopened : (bundleBoard crypto s bundle).fs.outcome = none := rfl
  have hfile : (bundleBoard crypto s bundle).fs.tree.file =
      Function.update Tree.mounted.file [lit "littlefs", lit "apps", lit "app.bundle"] (some bundle) :=
    Tree.file_setFile _ _ _ (by decide) (by decide)
  rw [hpath, FileSystem.fopenRb, if_pos hopened, hfile, Function.update_self]

theorem passes_of_trusting {crypto : Crypto} {s : Store} (h : Trusting crypto s) :
    ∃ name board payload, board.nvs.store = s ∧ board.crypto = crypto ∧
      loadAndVerify name board = .ok payload := by
  obtain ⟨key, payload, digest, signed, signature, hkey, hlength, himport, hne, hle, hfirst, hsecond,
    hsigned, hverifies⟩ := h
  have hheader := sealedHeader_length digest.property hsigned payload
  let bundle := sealedHeader digest.val signature payload ++ payload
  refine ⟨lit "app", bundleBoard crypto s bundle, payload, rfl, rfl, ?_⟩
  have htake : bundle.take headerSize = sealedHeader digest.val signature payload :=
    List.take_left' hheader
  have hdrop : bundle.drop headerSize = payload := List.drop_left' hheader
  have hread := read_sealedHeader digest.property hsigned payload
  rw [littleEndian_lengthBytes hle] at hread
  have hpos := List.length_pos_iff.mpr hne
  have hverifier : loadSignatureVerifier (bundleBoard crypto s bundle).nvs
      (bundleBoard crypto s bundle).crypto = some (crypto.verifyMsg key) :=
    verifier_of_key hkey hlength himport
  have hallocated : (bundleBoard crypto s bundle).allocated = true := rfl
  have hsha256 : (bundleBoard crypto s bundle).crypto.sha256 = crypto.sha256 := rfl
  have hsafe : safeName (lit "app") = true := by decide
  have hvalid : verify ⟨magic, 1, 3, payload.length, digest, signature⟩ (lit "app") payload crypto.sha256
      (crypto.verifyMsg key) = true := by
    have hname : (lit "app").length = 3 := by decide
    have hmax : ¬ maxNameLength < 3 := by decide
    simp [verify, hname, hne, hmax, hfirst, hsecond, hverifies, Nat.not_lt.mpr hle]
  have hshort : ¬ (bundle.length < headerSize ∨ payload.length = 0 ∨ payload.length > maxPayloadLength) := by
    rw [List.length_append, hheader]
    omega
  rw [loadAndVerify, if_neg (not_not.mpr hsafe), bundleBoard_file]
  simp only [htake, hread, hdrop, if_neg hshort, List.take_length, hallocated, hverifier, hsha256, hvalid,
    not_true_eq_false, ne_eq, or_self, if_false]

/-! ### What is gone and what is kept -/

/-- A store without two keys is loaded alike by the readers of the credentials. -/
theorem credentials_congr {s s' : Store} (h : ∀ key, key ≠ lit "app_public_key" →
    key ≠ lit "ota_public_key" → s'.find key = s.find key) (results : List Bool) :
    loadAuthConfig ⟨s', results⟩ = loadAuthConfig ⟨s, results⟩ ∧
      loadProfiles ⟨s', results⟩ = loadProfiles ⟨s, results⟩ := by
  have hstr : ∀ key capacity, key ≠ lit "app_public_key" → key ≠ lit "ota_public_key" →
      readString s' key capacity = readString s key capacity := by
    intro key capacity happ hota
    rw [readString, readString, Store.getStr_congr (h key happ hota)]
  have hblob : ∀ key capacity, key ≠ lit "app_public_key" → key ≠ lit "ota_public_key" →
      loadBlob s' key capacity = loadBlob s key capacity := by
    intro key capacity happ hota
    rw [loadBlob, loadBlob, Store.getBlob_congr (h key happ hota)]
  have hslot : ∀ slot : Fin 2, (ssidKey slot ≠ lit "app_public_key" ∧ ssidKey slot ≠ lit "ota_public_key") ∧
      passwordKey slot ≠ lit "app_public_key" ∧ passwordKey slot ≠ lit "ota_public_key" := by decide
  constructor
  · rw [loadAuthConfig, loadAuthConfig, nvsOpen_eq, nvsOpen_eq]
    cases results.headD true with
    | false => rfl
    | true =>
      simp only [hstr (lit "ssh_username") _ (by decide) (by decide),
        hblob (lit "ssh_pw_hash") _ (by decide) (by decide),
        hblob (lit "ssh_host_key") _ (by decide) (by decide)]
  · rw [loadProfiles, loadProfiles, nvsOpen_eq, nvsOpen_eq]
    cases results.headD true with
    | false => rfl
    | true =>
      funext slot
      obtain ⟨hssid, hpassword⟩ := hslot slot
      simp only [loadProfile, hstr _ _ hssid.1 hssid.2, hstr _ _ hpassword.1 hpassword.2,
        hstr (lit "wifi_ssid") _ (by decide) (by decide),
        hstr (lit "wifi_password") _ (by decide) (by decide)]

theorem loadPublicKey_of_none {nvs : Flash} (h : nvs.store.find (lit "ota_public_key") = none) :
    loadPublicKey nvs = none := by
  rw [loadPublicKey, nvsOpen_eq]
  cases nvs.results.headD true with
  | false => rfl
  | true => simp [Store.getBlob, h]

/-- A line that reports success has erased the two keys. -/
theorem dispatch_erases (others : DeviceServices (Device ρ)) {d : Device ρ} {input : List UInt8}
    (hw : word input = lit "config-clear")
    (hok : (dispatch (services others) d (some input)).status = .ok) :
    (dispatch (services others) d (some input)).device.nvs.store.find =
      Function.update (Function.update d.nvs.store.find (lit "app_public_key") none)
        (lit "ota_public_key") none := by
  rcases route_asks hw rfl with hr | ⟨-, hroute⟩
  · exact absurd hok (hr.dispatch_eq (services others) d).2
  · obtain ⟨hdevice, hstatus⟩ := dispatch_asked hroute (services others) d
    rw [hdevice]
    exact configClear_erases (hstatus.mp hok)

/-- After a `config-clear` that reports success nothing is trusted and the credentials are kept,
exactly when no key for bundles was stored under which something has a signature. -/
theorem cleared_iff (others : DeviceServices (Device ρ)) (crypto : Crypto) (d : Device ρ)
    (input : List UInt8) (hw : word input = lit "config-clear")
    (hok : (dispatch (services others) d (some input)).status = .ok) :
    Cleared crypto d.nvs.store (dispatch (services others) d (some input)).device.nvs.store ↔
      ¬ Trusting crypto d.nvs.store := by
  have hfind := dispatch_erases others hw hok
  generalize (dispatch (services others) d (some input)).device.nvs.store = after at hfind
  have hkept : ∀ key, key ≠ lit "app_public_key" → key ≠ lit "ota_public_key" →
      after.find key = d.nvs.store.find key := by
    intro key happ hota
    rw [hfind, Function.update_of_ne hota, Function.update_of_ne happ]
  have hgone : after.find (lit "ota_public_key") = none := by rw [hfind, Function.update_self]
  have htrusting : Trusting crypto after ↔ Trusting crypto d.nvs.store := by
    simp only [Trusting, hkept (lit "app_signing_pub") (by decide) (by decide)]
  rw [← htrusting]
  constructor
  · intro hcleared htrusts
    obtain ⟨name, board, payload, hstore, hcrypto, hload⟩ := passes_of_trusting htrusts
    exact hcleared.noBundle name board payload hstore hcrypto hload
  · intro hnot
    refine ⟨fun name board payload hstore hcrypto hload => hnot ?_,
      fun image signature platform hstore => ?_, fun results => (credentials_congr hkept results).1,
      fun results => (credentials_congr hkept results).2⟩
    · rw [← hstore, ← hcrypto]
      exact trusting_of_passes hload
    · rw [otaApplySignedImage_of_no_key (loadPublicKey_of_none (by rw [hstore, hgone]))]
      rfl

/-- A device with the credentials of an administrator, and a key for updates. -/
def ownedDevice : Device Unit :=
  { blank with nvs := ⟨(provisioned (sha256 (lit "secret"))).set (lit "ota_public_key") (.blob signingKey)
    (by decide) (fun _ h => by cases h), []⟩ }

theorem cleared_iff_owned :
    let after := (dispatch silentServices ownedDevice (some (lit "config-clear --confirm"))).device.nvs
    loadPublicKey ownedDevice.nvs = some signingKey ∧ loadPublicKey after = none ∧
      Cleared (signedBoard 7).crypto ownedDevice.nvs.store after.store := by
  intro after
  refine ⟨by decide +kernel, by decide +kernel, ?_⟩
  refine (cleared_iff ⟨fun _ d => ⟨d, [], true⟩⟩ (signedBoard 7).crypto ownedDevice
    (lit "config-clear --confirm") (by decide) (by decide +kernel)).mpr ?_
  rintro ⟨key, payload, digest, signed, signature, hfind, -⟩
  have hnone : ownedDevice.nvs.store.find (lit "app_signing_pub") = none := by decide
  rw [hnone] at hfind
  cases hfind

/-- A device with the key of the bundles stored. -/
def trustingDevice : Device Unit := { blank with nvs := (signedBoard 7).nvs }

/-- The bundle still passes after the configuration is cleared. -/
theorem bundle_survives_clear :
    let done := dispatch silentServices trustingDevice (some (lit "config-clear --confirm"))
    done.status = .ok ∧
    (loadAndVerify (lit "blink") { signedBoard 7 with nvs := done.device.nvs }).toOption =
      some (descriptor ++ [0]) ∧
    ¬ Cleared (signedBoard 7).crypto trustingDevice.nvs.store done.device.nvs.store := by
  intro done
  have hok : done.status = .ok := by decide +kernel
  have hpasses : (loadAndVerify (lit "blink") { signedBoard 7 with nvs := done.device.nvs }).toOption =
      some (descriptor ++ [0]) := by decide +kernel
  refine ⟨hok, hpasses, fun hcleared => ?_⟩
  cases hload : loadAndVerify (lit "blink") { signedBoard 7 with nvs := done.device.nvs } with
  | error line =>
    rw [hload] at hpasses
    cases hpasses
  | ok payload => exact hcleared.noBundle _ _ payload rfl rfl hload

end Esp32Shell.Idf.ConfigClear
