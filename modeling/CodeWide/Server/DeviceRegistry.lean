import CodeWide.Lib.Run
import CodeWide.Lib.Table
import CodeWide.Lib.Text
import CodeWide.Lib.Utf8
import Mathlib

/-!
# The device registry

Every operation changes the memory, then writes the file, then passes the keys on to TLS: a write
that fails leaves the three apart.
-/

namespace CodeWide.Server.DeviceRegistry

open Lib List Table

def pairingTtlMs : Nat := 5 * 60 * 1000
def registryVersion : Nat := 5
def maxU64 : Nat := 2 ^ 64 - 1

structure StoredDevice where
  id : String
  name : String
  tokenHash : String
  publicKeySpki : Option String
  createdAt : Nat
  lastSeenAt : Nat

structure Pairing where
  tokenHash : String
  expiresAt : Nat

structure RegistryFile where
  version : Nat
  devices : List StoredDevice
  pairings : List Pairing

structure DeviceSession where
  tokenHash : String
  deviceId : String
  expiresAt : Nat

structure DeviceChallenge where
  id : String
  deviceId : String
  nonce : String
  expiresAt : Nat

structure RegistryState where
  devices : Table String StoredDevice
  pairings : Table String Pairing
  sessions : List DeviceSession
  challenges : List DeviceChallenge

inductive AuthError
  | invalidRegistry
  | invalidDeviceMetadata
  | invalidPairing
  | invalidPairingProof
  | io
  | random

inductive AuthorizationChangeReason
  | deviceRevoked
  | deviceRepaired

/-- What the code takes from the crypto libraries: the digest, the decoding of a key, and the
check of a signature. -/
structure Crypto where
  digest : List Byte → Fin 32 → Byte
  decode : String → Option (List Byte)
  isKey : List Byte → Bool
  verify : List Byte → List Byte → String → Bool

inductive Write
  | ok
  | failsBefore
  | failsAfter

/-- The registry, its file and the keys trusted for TLS; `seen` is the latest time it was
used at. -/
structure Registry where
  state : RegistryState
  file : Option RegistryFile
  trusted : List String
  changes : List (String × AuthorizationChangeReason)
  seen : Nat

structure PairingClaim where
  pairingToken : String
  deviceName : String
  publicKeySpki : String
  proof : String

inductive Answer
  | pairing (token : String) (expiresAt : Nat)
  | claimed (deviceId token : String) (replacedExisting : Bool)
  | disconnected
  | revoked (removed : Bool)

/-! ## Checks -/

def validName (value : String) : Bool :=
  !value.isEmpty && decide ((utf8 value).length ≤ 80) &&
    (utf8 value).all (fun byte => decide (0x20 ≤ byte.val ∧ byte.val ≠ 0x7f))

def idByte (byte : Byte) : Bool :=
  decide (0x30 ≤ byte.val ∧ byte.val ≤ 0x39) || decide (0x41 ≤ byte.val ∧ byte.val ≤ 0x5a) ||
    decide (0x61 ≤ byte.val ∧ byte.val ≤ 0x7a) ||
    decide (byte.val ∈ [0x2e, 0x5f, 0x3a, 0x2d])

def validId (value : String) : Bool :=
  !value.isEmpty && decide ((utf8 value).length ≤ 128) && (utf8 value).all idByte

def hexDigit (n : Fin 16) : Char := "0123456789abcdef".toList.getD n.val '0'

def hexByte (byte : Byte) : List Char :=
  [hexDigit ⟨byte.val / 16, by omega⟩, hexDigit ⟨byte.val % 16, by omega⟩]

def hex (digest : Fin 32 → Byte) : String := String.ofList ((ofFn digest).flatMap hexByte)

section Operations

variable (crypto : Crypto)

def tokenHash (token : String) : String := hex (crypto.digest (utf8 token))

def validPublicKey (encoded : String) : Bool :=
  decide (64 ≤ (utf8 encoded).length ∧ (utf8 encoded).length ≤ 512) &&
    (crypto.decode encoded).any crypto.isKey

def validMessageSignature (publicKey : String) (message : List Byte) (signature : String) : Bool :=
  match (crypto.decode publicKey).filter crypto.isKey with
  | some key => crypto.verify key message signature
  | none => false

def pairingClaimMessage (pairingToken deviceName publicKeySpki : String) : List Byte :=
  utf8 ("codewide-pairing-v2\n" ++ pairingToken ++ "\n" ++ Text.trim deviceName ++ "\n" ++
    publicKeySpki)

def deviceIdForPublicKey (publicKey : String) : Option String :=
  (crypto.decode publicKey).map (fun der => "device-" ++ hex (crypto.digest der))

/-! ## State and file -/

def RegistryState.purgeExpired (state : RegistryState) (now : Nat) : RegistryState :=
  { state with
    pairings := state.pairings.filter (fun e => decide (now < e.2.expiresAt))
    sessions := state.sessions.filter (fun session => decide (now < session.expiresAt))
    challenges := state.challenges.filter (fun challenge => decide (now < challenge.expiresAt)) }

def RegistryState.dropTransient (state : RegistryState) (deviceId : String) : RegistryState :=
  { state with
    sessions := state.sessions.filter (fun session => decide (session.deviceId ≠ deviceId))
    challenges := state.challenges.filter (fun challenge => decide (challenge.deviceId ≠ deviceId)) }

def RegistryState.snapshot (state : RegistryState) : RegistryFile :=
  ⟨registryVersion, state.devices.entries.map Prod.snd, state.pairings.entries.map Prod.snd⟩

def RegistryState.keys (state : RegistryState) : List String :=
  state.devices.entries.filterMap (fun e => e.2.publicKeySpki)

def persistLocked (state : RegistryState) (file : Option RegistryFile) :
    Write → Option RegistryFile × Bool
  | .ok => (some state.snapshot, true)
  | .failsBefore => (file, false)
  | .failsAfter => (some state.snapshot, false)

def validDevice (device : StoredDevice) : Bool :=
  validId device.id && validName device.name && device.publicKeySpki.any (validPublicKey crypto)

def collectDevices (devices : List StoredDevice) : Table String StoredDevice :=
  devices.foldl (fun t device => t.insert device.id device) ∅

def collectPairings (pairings : List Pairing) : Table String Pairing :=
  pairings.foldl (fun t pairing => t.insert pairing.tokenHash pairing) ∅

/-- What `open` takes a file for, and whether it is to be written anew. -/
def readFile : Option RegistryFile → Option (RegistryFile × Bool)
  | none => some (⟨registryVersion, [], []⟩, false)
  | some file =>
    if file.version = registryVersion then some (file, false)
    else if file.version = 4 then some ({ file with version := registryVersion }, true)
    else if 1 ≤ file.version ∧ file.version ≤ 3 then some (⟨registryVersion, [], []⟩, true)
    else none

def RegistryState.ofFile (file : RegistryFile) (now : Nat) : RegistryState :=
  ⟨collectDevices file.devices,
    collectPairings (file.pairings.filter (fun p => decide (now < p.expiresAt))), [], []⟩

def openRegistry (file : Option RegistryFile) (now : Nat) (write : Write) : Option Registry :=
  match readFile file with
  | none => none
  | some (registry, requiresPersist) =>
    if registry.devices.all (validDevice crypto) then
      let state := RegistryState.ofFile registry now
      let opened : Registry := ⟨state, file, state.keys, [], now⟩
      if requiresPersist then
        if (persistLocked state file write).2 then
          some { opened with file := (persistLocked state file write).1 }
        else none
      else some opened
    else none

/-! ## Operations -/

def Registry.use (registry : Registry) (now : Nat) : Registry :=
  { registry with seen := max registry.seen now }

def createPairing (registry : Registry) (token : Option String) (created now : Nat)
    (write : Write) : Registry × Except AuthError Answer :=
  match token with
  | none => (registry, .error .random)
  | some token =>
    let pairing : Pairing := ⟨tokenHash crypto token, min (created + pairingTtlMs) maxU64⟩
    let purged := registry.state.purgeExpired now
    let state := { purged with pairings := purged.pairings.insert pairing.tokenHash pairing }
    let persisted := persistLocked state registry.file write
    ({ registry.use now with state := state, file := persisted.1 },
      if persisted.2 then .ok (.pairing token pairing.expiresAt) else .error .io)

def claim (registry : Registry) (claim : PairingClaim) (token : Option String) (now : Nat)
    (write : Write) : Registry × Except AuthError Answer :=
  if validName (Text.trim claim.deviceName) = false ∨
      validPublicKey crypto claim.publicKeySpki = false then
    (registry, .error .invalidDeviceMetadata)
  else
    let purged := registry.state.purgeExpired now
    let registry := { registry.use now with state := purged }
    let pairingHash := tokenHash crypto claim.pairingToken
    if purged.pairings.contains pairingHash = false then (registry, .error .invalidPairing)
    else if validMessageSignature crypto claim.publicKeySpki
        (pairingClaimMessage claim.pairingToken (Text.trim claim.deviceName) claim.publicKeySpki)
        claim.proof = false then
      (registry, .error .invalidPairingProof)
    else
      -- From here on the pairing is spent in memory, whatever comes.
      let spent := { purged with pairings := purged.pairings.erase pairingHash }
      match deviceIdForPublicKey crypto claim.publicKeySpki with
      | none => ({ registry with state := spent }, .error .invalidDeviceMetadata)
      | some deviceId =>
        match token with
        | none => ({ registry with state := spent }, .error .random)
        | some token =>
          let existing := spent.devices.get? deviceId
          let dropped := spent.dropTransient deviceId
          let state := { dropped with
            devices := dropped.devices.insert deviceId
              { id := deviceId
                name := Text.trim claim.deviceName
                tokenHash := tokenHash crypto token
                publicKeySpki := some claim.publicKeySpki
                createdAt := (existing.map StoredDevice.createdAt).getD now
                lastSeenAt := now } }
          let persisted := persistLocked state registry.file write
          let written := { registry with state := state, file := persisted.1 }
          if persisted.2 then
            ({ written with
                trusted := state.keys
                changes := if existing.isSome then
                    registry.changes ++ [(deviceId, .deviceRepaired)]
                  else registry.changes },
              .ok (.claimed deviceId token existing.isSome))
          else (written, .error .io)

def markDeviceDisconnected (registry : Registry) (deviceId : String) (now : Nat) (write : Write) :
    Registry × Except AuthError Answer :=
  match registry.state.devices.get? deviceId with
  | none => (registry, .ok .disconnected)
  | some device =>
    let state := { registry.state with
      devices := registry.state.devices.insert deviceId { device with lastSeenAt := now } }
    let persisted := persistLocked state registry.file write
    ({ registry.use now with state := state, file := persisted.1 },
      if persisted.2 then .ok .disconnected else .error .io)

def revoke (registry : Registry) (deviceId : String) (write : Write) :
    Registry × Except AuthError Answer :=
  if (registry.state.devices.get? deviceId).isSome then
    let removed := { registry.state with devices := registry.state.devices.erase deviceId }
    let state := removed.dropTransient deviceId
    let persisted := persistLocked state registry.file write
    let written := { registry with state := state, file := persisted.1 }
    if persisted.2 then
      ({ written with
          trusted := state.keys
          changes := registry.changes ++ [(deviceId, .deviceRevoked)] },
        .ok (.revoked true))
    else (written, .error .io)
  else (registry, .ok (.revoked false))

/-- What happens to a registry: an operation, or a stop of the process and the next start. -/
inductive Op
  | createPairing (token : Option String) (created now : Nat) (write : Write)
  | claim (claim : PairingClaim) (token : Option String) (now : Nat) (write : Write)
  | markDeviceDisconnected (deviceId : String) (now : Nat) (write : Write)
  | revoke (deviceId : String) (write : Write)
  | restart (now : Nat) (write : Write)

def run (registry : Registry) : Op → Registry × Option (Except AuthError Answer)
  | .createPairing token created now write =>
    let out := createPairing crypto registry token created now write
    (out.1, some out.2)
  | .claim request token now write =>
    let out := claim crypto registry request token now write
    (out.1, some out.2)
  | .markDeviceDisconnected deviceId now write =>
    let out := markDeviceDisconnected registry deviceId now write
    (out.1, some out.2)
  | .revoke deviceId write =>
    let out := revoke registry deviceId write
    (out.1, some out.2)
  | .restart now write =>
    match openRegistry crypto registry.file now write with
    | some opened => (opened.use registry.seen, none)
    | none => (registry, none)

def step (registry : Registry) (op : Op) : Registry := (run crypto registry op).1

/-! ## What is to hold -/

def StoredDevice.credentials (device : StoredDevice) : String × String × Option String :=
  (device.id, device.tokenHash, device.publicKeySpki)

def fileDevices (file : Option RegistryFile) : List StoredDevice :=
  (file.map RegistryFile.devices).getD []

def filePairings (file : Option RegistryFile) : List Pairing :=
  (file.map RegistryFile.pairings).getD []

def RegistryState.Holds (state : RegistryState) (c : String × String × Option String) : Prop :=
  ∃ id device, state.devices.get? id = some device ∧ device.credentials = c

def RegistryState.Open (state : RegistryState) (pairing : Pairing) : Prop :=
  ∃ hash, state.pairings.get? hash = some pairing

/-- The memory is what the file says, and TLS trusts the keys of the devices in memory. -/
structure Settled (registry : Registry) : Prop where
  devices : ∀ c, registry.state.Holds c ↔
    c ∈ (fileDevices registry.file).map StoredDevice.credentials
  pairings : ∀ pairing, registry.seen < pairing.expiresAt →
    (registry.state.Open pairing ↔ pairing ∈ filePairings registry.file)
  trusted : ∀ key, key ∈ registry.trusted ↔
    ∃ id device, registry.state.devices.get? id = some device ∧ device.publicKeySpki = some key

/-- The two registries hold the same devices, unexpired pairings and trusted keys. -/
structure SameContents (before after : Registry) : Prop where
  devices : ∀ c, after.state.Holds c ↔ before.state.Holds c
  pairings : ∀ pairing, after.seen < pairing.expiresAt →
    (after.state.Open pairing ↔ before.state.Open pairing)
  trusted : ∀ key, key ∈ after.trusted ↔ key ∈ before.trusted

/-- The step leaves the registry settled; one that fails, and a restart, change nothing. -/
def Atomic (registry : Registry) (op : Op) : Prop :=
  Settled (step crypto registry op) ∧
    ((∀ answer, (run crypto registry op).2 ≠ some (.ok answer)) →
      SameContents registry (step crypto registry op))

def Accepts (registry : Registry) (claim : PairingClaim) (now : Nat) : Bool :=
  validName (Text.trim claim.deviceName) && validPublicKey crypto claim.publicKeySpki &&
    (registry.state.purgeExpired now).pairings.contains (tokenHash crypto claim.pairingToken) &&
    validMessageSignature crypto claim.publicKeySpki
      (pairingClaimMessage claim.pairingToken (Text.trim claim.deviceName) claim.publicKeySpki)
      claim.proof

/-- No step fails between its change of the memory and its end. -/
def Meets (registry : Registry) : Op → Prop
  | .createPairing token _ _ write => token ≠ none → write = .ok
  | .claim claim token now write => Accepts crypto registry claim now = true →
      token ≠ none ∧ write = .ok
  | .markDeviceDisconnected _ _ _ => True
  | .revoke deviceId write => (registry.state.devices.get? deviceId).isSome = true → write = .ok
  | .restart _ _ => True

/-! ## What the file has -/

variable {state : RegistryState}

open RegistryState

lemma holds_iff_snapshot {c : String × String × Option String} :
    state.Holds c ↔ c ∈ state.snapshot.devices.map StoredDevice.credentials := by
  unfold RegistryState.Holds snapshot
  simp only [map_map, mem_map]
  constructor
  · rintro ⟨id, device, hget, hc⟩
    exact ⟨(id, device), mem_entries_iff.mpr hget, hc⟩
  · rintro ⟨⟨id, device⟩, hmem, hc⟩
    exact ⟨id, device, mem_entries_iff.mp hmem, hc⟩

lemma open_iff_snapshot {pairing : Pairing} :
    state.Open pairing ↔ pairing ∈ state.snapshot.pairings := by
  unfold RegistryState.Open snapshot
  rw [mem_map]
  constructor
  · rintro ⟨hash, hget⟩
    exact ⟨(hash, pairing), mem_entries_iff.mpr hget, rfl⟩
  · rintro ⟨⟨hash, _⟩, hmem, rfl⟩
    exact ⟨hash, mem_entries_iff.mp hmem⟩

lemma mem_keys {key : String} : key ∈ state.keys ↔
      ∃ id device, state.devices.get? id = some device ∧ device.publicKeySpki = some key := by
  unfold RegistryState.keys
  rw [mem_filterMap]
  constructor
  · rintro ⟨⟨id, device⟩, hmem, hkey⟩
    exact ⟨id, device, mem_entries_iff.mp hmem, hkey⟩
  · rintro ⟨id, device, hget, hkey⟩
    exact ⟨(id, device), mem_entries_iff.mpr hget, hkey⟩

lemma get?_collect {ν : Type} (key : ν → String) {values : List ν} (h : (values.map key).Nodup)
    {k : String} {v : ν} :
    (values.foldl (fun t v => t.insert (key v) v) (∅ : Table String ν)).get? k = some v ↔
      v ∈ values ∧ key v = k := by
  induction values using reverseRecOn with
  | nil => simp
  | append_singleton values w ih =>
  rw [map_append, nodup_append] at h
  rw [foldl_append, foldl_cons, foldl_nil, get?_insert, mem_append, mem_singleton]
  split
  · rename_i heq
    subst heq
    constructor
    · intro hw
      cases hw
      exact ⟨.inr rfl, rfl⟩
    · rintro ⟨hmem | rfl, hkey⟩
      · exact absurd hkey (h.2.2 _ (mem_map_of_mem hmem) _ (mem_singleton_self _))
      · rfl
  rename_i hne
  rw [ih h.1]
  refine and_congr_left (fun hkey => ?_)
  refine ⟨.inl, ?_⟩
  rintro (hmem | rfl)
  · exact hmem
  · exact absurd hkey.symm hne

/-- The ids and the hashes of a file differ from each other, as in every file the registry
writes. -/
structure RegistryFile.Distinct (file : RegistryFile) : Prop where
  devices : (file.devices.map StoredDevice.id).Nodup
  pairings : (file.pairings.map Pairing.tokenHash).Nodup

/-! ## The invariant -/

structure RegistryState.Keyed (state : RegistryState) : Prop where
  devices : ∀ id device, state.devices.get? id = some device →
    device.id = id ∧ validDevice crypto device = true
  pairings : ∀ hash pairing, state.pairings.get? hash = some pairing → pairing.tokenHash = hash

structure FileOk (file : RegistryFile) : Prop where
  version : file.version = registryVersion
  distinct : file.Distinct
  valid : ∀ device ∈ file.devices, validDevice crypto device = true

structure Inv (registry : Registry) : Prop where
  keyed : registry.state.Keyed crypto
  file : ∀ file, registry.file = some file → FileOk crypto file
  settled : Settled registry

variable {crypto}

lemma fileOk_snapshot (h : state.Keyed crypto) : FileOk crypto state.snapshot := by
  refine ⟨rfl, ⟨?_, ?_⟩, ?_⟩
  · have hids : state.snapshot.devices.map StoredDevice.id = state.devices.entries.map Prod.fst := by
      unfold snapshot
      rw [map_map]
      refine map_congr_left (fun e he => ?_)
      exact (h.devices e.1 e.2 (mem_entries_iff.mp he)).1
    rw [hids]
    exact keys_nodup _
  · have hids : state.snapshot.pairings.map Pairing.tokenHash =
        state.pairings.entries.map Prod.fst := by
      unfold snapshot
      rw [map_map]
      refine map_congr_left (fun e he => ?_)
      exact h.pairings e.1 e.2 (mem_entries_iff.mp he)
    rw [hids]
    exact keys_nodup _
  · intro device hdevice
    obtain ⟨e, he, rfl⟩ := mem_map.mp hdevice
    exact (h.devices e.1 e.2 (mem_entries_iff.mp he)).2

variable {registry : Registry}

lemma Inv.of_snapshot (h : registry.state.Keyed crypto)
    (hfile : registry.file = some registry.state.snapshot)
    (htrusted : ∀ key, key ∈ registry.trusted ↔ key ∈ registry.state.keys) :
    Inv crypto registry := by
  refine ⟨h, ?_, ?_, ?_, ?_⟩
  · intro file hf
    rw [hfile] at hf
    cases hf
    exact fileOk_snapshot h
  · intro c
    rw [hfile]
    exact holds_iff_snapshot
  · intro pairing _
    rw [hfile]
    exact open_iff_snapshot
  · intro key
    rw [htrusted, mem_keys]

lemma Inv.of_same {registry next : Registry} (h : Inv crypto registry)
    (hkeyed : next.state.Keyed crypto) (hfile : next.file = registry.file)
    (hseen : registry.seen ≤ next.seen) (hsame : SameContents registry next)
    (htrusted : ∀ key, key ∈ next.trusted ↔ key ∈ next.state.keys) : Inv crypto next := by
  refine ⟨hkeyed, ?_, ?_, ?_, ?_⟩
  · rw [hfile]
    exact h.file
  · intro c
    rw [hfile, hsame.devices, h.settled.devices]
  · intro pairing hunexp
    rw [hfile, hsame.pairings pairing hunexp,
      h.settled.pairings pairing (Nat.lt_of_le_of_lt hseen hunexp)]
  · intro key
    rw [htrusted, mem_keys]

lemma Inv.trusted (h : Inv crypto registry) (key : String) :
    key ∈ registry.trusted ↔ key ∈ registry.state.keys := by
  rw [h.settled.trusted, mem_keys]

lemma RegistryState.Keyed.purge (h : state.Keyed crypto) (now : Nat) :
    (state.purgeExpired now).Keyed crypto := by
  refine ⟨h.devices, ?_⟩
  intro hash pairing hget
  simp only [purgeExpired, get?_filter] at hget
  exact h.pairings hash pairing (Option.filter_eq_some_iff.mp hget).1

lemma open_purge {now : Nat} {pairing : Pairing}
    (h : now < pairing.expiresAt) : (state.purgeExpired now).Open pairing ↔ state.Open pairing := by
  unfold RegistryState.Open purgeExpired
  simp only [get?_filter]
  refine exists_congr (fun hash => ?_)
  rw [Option.filter_eq_some_iff]
  exact and_iff_left (decide_eq_true h)

/-! ## Ids -/

lemma utf8_hexDigit (n : Fin 16) :
    ∃ byte : Byte, (String.utf8EncodeChar (hexDigit n)).map UInt8.toFin = [byte] ∧
      idByte byte = true := by
  have hall : ∀ n : Fin 16, ((String.utf8EncodeChar (hexDigit n)).map UInt8.toFin).length = 1 ∧
      ((String.utf8EncodeChar (hexDigit n)).map UInt8.toFin).all idByte = true := by decide
  obtain ⟨hleng, hok⟩ := hall n
  obtain ⟨byte, hbyte⟩ := length_eq_one_iff.mp hleng
  rw [hbyte] at hok
  exact ⟨byte, hbyte, all_eq_true.mp hok byte (mem_singleton_self byte)⟩

lemma utf8_hex (bytes : List Byte) :
    (((bytes.flatMap hexByte).flatMap String.utf8EncodeChar).map UInt8.toFin).length =
        2 * bytes.length ∧
      ∀ byte ∈ ((bytes.flatMap hexByte).flatMap String.utf8EncodeChar).map UInt8.toFin,
        idByte byte = true := by
  induction bytes with
  | nil =>
    refine ⟨rfl, ?_⟩
    intro byte hbyte
    cases hbyte
  | cons b rest ih =>
  obtain ⟨high, hhigh, hhighOk⟩ := utf8_hexDigit ⟨b.val / 16, by omega⟩
  obtain ⟨low, hlow, hlowOk⟩ := utf8_hexDigit ⟨b.val % 16, by omega⟩
  rw [flatMap_cons, flatMap_append, map_append, hexByte, flatMap_cons,
    flatMap_cons, flatMap_nil, append_nil, map_append, hhigh, hlow]
  refine ⟨?_, ?_⟩
  · rw [length_append, ih.1, length_cons]
    simp only [cons_append, nil_append, length_cons, length_nil]
    omega
  intro byte hbyte
  rcases mem_append.mp hbyte with hfront | hrest
  · rcases mem_cons.mp hfront with rfl | hlast
    · exact hhighOk
    · rw [mem_singleton.mp hlast]
      exact hlowOk
  · exact ih.2 byte hrest

lemma validId_of_deviceId {publicKey deviceId : String}
    (h : deviceIdForPublicKey crypto publicKey = some deviceId) : validId deviceId = true := by
  obtain ⟨der, -, rfl⟩ := Option.map_eq_some_iff.mp h
  have hutf8 : utf8 ("device-" ++ hex (crypto.digest der)) = utf8 "device-" ++
      (((ofFn (crypto.digest der)).flatMap hexByte).flatMap String.utf8EncodeChar).map
        UInt8.toFin := by
    unfold utf8 hex
    simp only [String.toList_append, String.toList_ofList, flatMap_append, map_append]
  obtain ⟨hleng, hbytes⟩ := utf8_hex (ofFn (crypto.digest der))
  have hprefix : (utf8 "device-").length = 7 := by decide
  have hprefixOk : (utf8 "device-").all idByte = true := by decide
  unfold validId
  rw [hutf8, length_append, hleng, hprefix, length_ofFn, all_append, hprefixOk,
    all_eq_true.mpr hbytes]
  have hne : ("device-" ++ hex (crypto.digest der)).isEmpty = false := by
    rw [Bool.eq_false_iff]
    intro hempty
    have hnil := String.isEmpty_iff.mp hempty
    have hlen := congrArg (fun t => (utf8 t).length) hnil
    simp only [hutf8, length_append, hprefix] at hlen
    have hzero : (utf8 "").length = 0 := rfl
    omega
  rw [hne]
  rfl

/-! ## The operations -/

lemma SameContents.refl (registry : Registry) : SameContents registry registry :=
  ⟨fun _ => Iff.rfl, fun _ _ => Iff.rfl, fun _ => Iff.rfl⟩

/-- What one step does: it keeps the invariant, and where it gives no result it changes nothing. -/
def Kept (crypto : Crypto) (registry : Registry)
    (out : Registry × Option (Except AuthError Answer)) : Prop :=
  Inv crypto out.1 ∧ ((∀ answer, out.2 ≠ some (.ok answer)) → SameContents registry out.1)

lemma Kept.unchanged (h : Inv crypto registry)
    (answer : Option (Except AuthError Answer)) : Kept crypto registry (registry, answer) :=
  ⟨h, fun _ => SameContents.refl registry⟩

lemma Kept.done {registry next : Registry} {answer : Answer} (h : Inv crypto next) :
    Kept crypto registry (next, some (.ok answer)) :=
  ⟨h, fun hnone => absurd rfl (hnone answer)⟩

lemma Kept.same {registry next : Registry} {answer : Option (Except AuthError Answer)}
    (h : Inv crypto next) (hsame : SameContents registry next) :
    Kept crypto registry (next, answer) :=
  ⟨h, fun _ => hsame⟩

lemma createPairing_kept (h : Inv crypto registry) (token : Option String)
    (created now : Nat) (write : Write)
    (hmeets : Meets crypto registry (.createPairing token created now write)) :
    Kept crypto registry (run crypto registry (.createPairing token created now write)) := by
  cases token with
  | none => exact Kept.unchanged h _
  | some token =>
  have hwrite : write = .ok := hmeets (Option.some_ne_none token)
  subst hwrite
  unfold run createPairing
  simp only [persistLocked, if_true]
  refine Kept.done (Inv.of_snapshot ?_ rfl ?_)
  · refine ⟨h.keyed.devices, ?_⟩
    intro hash pairing hget
    rcases of_get?_insert hget with ⟨heq, rfl⟩ | ⟨-, hget⟩
    · exact heq.symm
    · exact (h.keyed.purge now).pairings hash pairing hget
  · exact h.trusted

lemma purged_kept (h : Inv crypto registry) (now : Nat)
    (answer : Option (Except AuthError Answer)) :
    Kept crypto registry
      ({ registry.use now with state := registry.state.purgeExpired now }, answer) := by
  have hsame : SameContents registry
      { registry.use now with state := registry.state.purgeExpired now } := by
    refine ⟨fun _ => Iff.rfl, ?_, fun _ => Iff.rfl⟩
    intro pairing hunexp
    exact open_purge (Nat.lt_of_le_of_lt (Nat.le_max_right _ _) hunexp)
  exact Kept.same (h.of_same (h.keyed.purge now) rfl (Nat.le_max_left _ _) hsame h.trusted) hsame

lemma claim_kept (h : Inv crypto registry) (request : PairingClaim)
    (token : Option String) (now : Nat) (write : Write)
    (hmeets : Meets crypto registry (.claim request token now write)) :
    Kept crypto registry (run crypto registry (.claim request token now write)) := by
  unfold run claim
  simp only
  split
  · exact Kept.unchanged h _
  rename_i hmeta
  split
  · exact purged_kept h now _
  rename_i hpairing
  split
  · exact purged_kept h now _
  rename_i hproof
  simp only [not_or, Bool.not_eq_false] at hmeta hpairing hproof
  have hacc : Accepts crypto registry request now = true := by
    unfold Accepts
    rw [hmeta.1, hmeta.2, hpairing, hproof]
    rfl
  obtain ⟨htoken, rfl⟩ := hmeets hacc
  obtain ⟨token, rfl⟩ := Option.ne_none_iff_exists'.mp htoken
  obtain ⟨deviceId, hid⟩ : ∃ deviceId,
      deviceIdForPublicKey crypto request.publicKeySpki = some deviceId := by
    have hkey := hmeta.2
    unfold validPublicKey at hkey
    unfold deviceIdForPublicKey
    cases hder : crypto.decode request.publicKeySpki with
    | none =>
      rw [hder, Option.any_none, Bool.and_false] at hkey
      cases hkey
    | some der => exact ⟨_, rfl⟩
  rw [hid]
  simp only [persistLocked, if_true]
  refine Kept.done (Inv.of_snapshot ?_ rfl (fun _ => Iff.rfl))
  refine ⟨?_, ?_⟩
  · intro id device hget
    rcases of_get?_insert hget with ⟨heq, rfl⟩ | ⟨-, hget⟩
    · refine ⟨heq.symm, ?_⟩
      unfold validDevice
      rw [validId_of_deviceId hid, hmeta.1, Option.any_some, hmeta.2]
      rfl
    · exact h.keyed.devices id device hget
  intro hash pairing hget
  simp only [dropTransient, get?_erase] at hget
  split at hget
  · cases hget
  · exact (h.keyed.purge now).pairings hash pairing hget

lemma holds_seen {deviceId : String} {device : StoredDevice} (now : Nat)
    (hget : state.devices.get? deviceId = some device) {β : Type} (f : StoredDevice → β)
    (hf : f { device with lastSeenAt := now } = f device) (c : β) :
    (∃ id other, (state.devices.insert deviceId { device with lastSeenAt := now }).get? id =
        some other ∧ f other = c) ↔
      ∃ id other, state.devices.get? id = some other ∧ f other = c := by
  refine exists_congr (fun id => ?_)
  rw [get?_insert]
  split
  · rename_i heq
    subst heq
    rw [hget]
    constructor
    · rintro ⟨other, hother, hc⟩
      cases hother
      exact ⟨device, rfl, hf.symm.trans hc⟩
    · rintro ⟨other, hother, hc⟩
      cases hother
      exact ⟨_, rfl, hf.trans hc⟩
  · rfl

lemma markDeviceDisconnected_kept (h : Inv crypto registry)
    (deviceId : String) (now : Nat) (write : Write) :
    Kept crypto registry (run crypto registry (.markDeviceDisconnected deviceId now write)) := by
  unfold run markDeviceDisconnected
  simp only
  cases hget : registry.state.devices.get? deviceId with
  | none => exact Kept.unchanged h _
  | some device =>
  simp only
  obtain ⟨state, hstate⟩ : ∃ state, { registry.state with
    devices := registry.state.devices.insert deviceId { device with lastSeenAt := now } } =
      state := ⟨_, rfl⟩
  have hkeyed : state.Keyed crypto := by
    rw [← hstate]
    refine ⟨?_, h.keyed.pairings⟩
    intro id other hother
    rcases of_get?_insert hother with ⟨rfl, rfl⟩ | ⟨-, hother⟩
    · exact h.keyed.devices id device hget
    · exact h.keyed.devices id other hother
  have htrusted : ∀ key, key ∈ registry.trusted ↔ key ∈ state.keys := by
    intro key
    rw [h.trusted, mem_keys, mem_keys, ← hstate]
    exact (holds_seen now hget StoredDevice.publicKeySpki rfl (some key)).symm
  have hsame : ∀ file, SameContents registry
      { registry.use now with state := state, file := file } := by
    intro file
    refine ⟨?_, ?_, fun _ => Iff.rfl⟩
    · intro c
      rw [← hstate]
      exact holds_seen now hget StoredDevice.credentials rfl c
    · intro pairing _
      rw [← hstate]
      exact Iff.rfl
  rw [hstate]
  cases write with
  | ok | failsAfter => exact Kept.same (Inv.of_snapshot hkeyed rfl htrusted) (hsame _)
  | failsBefore =>
    exact Kept.same (h.of_same hkeyed rfl (Nat.le_max_left _ _) (hsame _) htrusted) (hsame _)

lemma revoke_kept (h : Inv crypto registry) (deviceId : String)
    (write : Write) (hmeets : Meets crypto registry (.revoke deviceId write)) :
    Kept crypto registry (run crypto registry (.revoke deviceId write)) := by
  unfold run revoke
  simp only
  split
  · rename_i hreg
    have hwrite : write = .ok := hmeets hreg
    subst hwrite
    simp only [persistLocked, if_true]
    refine Kept.done (Inv.of_snapshot ?_ rfl (fun _ => Iff.rfl))
    refine ⟨?_, h.keyed.pairings⟩
    intro id device hget
    simp only [dropTransient, get?_erase] at hget
    split at hget
    · cases hget
    · exact h.keyed.devices id device hget
  · exact Kept.unchanged h _

lemma mem_keys_iff_holds {key : String} :
    key ∈ state.keys ↔ ∃ c, state.Holds c ∧ c.2.2 = some key := by
  rw [mem_keys]
  constructor
  · rintro ⟨id, device, hget, hkey⟩
    exact ⟨device.credentials, ⟨id, device, hget, rfl⟩, hkey⟩
  · rintro ⟨_, ⟨id, device, hget, rfl⟩, hkey⟩
    exact ⟨id, device, hget, hkey⟩

lemma ofFile_spec {file : RegistryFile} (hdist : file.Distinct)
    (hvalid : ∀ device ∈ file.devices, validDevice crypto device = true) (now : Nat) :
    (RegistryState.ofFile file now).Keyed crypto ∧ (∀ c, (RegistryState.ofFile file now).Holds c ↔
        c ∈ file.devices.map StoredDevice.credentials) ∧
      ∀ pairing, now < pairing.expiresAt →
        ((RegistryState.ofFile file now).Open pairing ↔ pairing ∈ file.pairings) := by
  have hfilt : ((file.pairings.filter (fun p => decide (now < p.expiresAt))).map
      Pairing.tokenHash).Nodup := (filter_sublist.map _).nodup hdist.pairings
  refine ⟨⟨?_, ?_⟩, ?_, ?_⟩
  · intro id device hget
    obtain ⟨hmem, hid⟩ := (get?_collect StoredDevice.id hdist.devices).mp hget
    exact ⟨hid, hvalid device hmem⟩
  · intro hash pairing hget
    exact ((get?_collect Pairing.tokenHash hfilt).mp hget).2
  · intro c
    rw [mem_map]
    constructor
    · rintro ⟨id, device, hget, hc⟩
      exact ⟨device, ((get?_collect StoredDevice.id hdist.devices).mp hget).1, hc⟩
    · rintro ⟨device, hmem, hc⟩
      exact ⟨device.id, device, (get?_collect StoredDevice.id hdist.devices).mpr ⟨hmem, rfl⟩, hc⟩
  intro pairing hunexp
  constructor
  · rintro ⟨hash, hget⟩
    exact (mem_filter.mp ((get?_collect Pairing.tokenHash hfilt).mp hget).1).1
  · intro hmem
    refine ⟨pairing.tokenHash, (get?_collect Pairing.tokenHash hfilt).mpr ⟨?_, rfl⟩⟩
    exact mem_filter.mpr ⟨hmem, decide_eq_true hunexp⟩

lemma openRegistry_written (h : Inv crypto registry) (now : Nat) (write : Write) :
    ∃ file : RegistryFile, file.Distinct ∧ (∀ device ∈ file.devices, validDevice crypto device = true) ∧
      file.devices = fileDevices registry.file ∧ file.pairings = filePairings registry.file ∧
      openRegistry crypto registry.file now write =
        some ⟨.ofFile file now, registry.file, (RegistryState.ofFile file now).keys, [], now⟩ := by
  cases hfile : registry.file with
  | none =>
    refine ⟨⟨registryVersion, [], []⟩, ⟨nodup_nil, nodup_nil⟩, ?_, rfl, rfl, rfl⟩
    intro device hdevice
    cases hdevice
  | some file =>
  have hok := h.file file hfile
  refine ⟨file, hok.distinct, hok.valid, rfl, rfl, ?_⟩
  unfold openRegistry readFile
  simp only [hok.version, if_true, all_eq_true.mpr hok.valid, Bool.false_eq_true, if_false]

lemma restart_kept (h : Inv crypto registry) (now : Nat) (write : Write) :
    Kept crypto registry (run crypto registry (.restart now write)) := by
  obtain ⟨file, hdist, hvalid, hdevices, hpairings, hopened⟩ :=
    openRegistry_written h now write
  obtain ⟨hkeyed, hholds, hopen⟩ := ofFile_spec hdist hvalid now
  unfold run
  simp only [hopened]
  have hsame : SameContents registry (Registry.use ⟨.ofFile file now, registry.file,
      (ofFile file now).keys, [], now⟩ registry.seen) := by
    have hcontents : ∀ c, (ofFile file now).Holds c ↔ registry.state.Holds c := by
      intro c
      rw [hholds, hdevices, h.settled.devices]
    refine ⟨hcontents, ?_, ?_⟩
    · intro pairing hunexp
      rw [h.settled.pairings pairing (Nat.lt_of_le_of_lt (Nat.le_max_right _ _) hunexp),
        ← hpairings]
      exact hopen pairing (Nat.lt_of_le_of_lt (Nat.le_max_left _ _) hunexp)
    · intro key
      rw [h.trusted, mem_keys_iff_holds]
      exact mem_keys_iff_holds.trans (exists_congr (fun c => and_congr_left' (hcontents c)))
  exact Kept.same (h.of_same hkeyed rfl (Nat.le_max_right _ _) hsame (fun _ => Iff.rfl)) hsame

lemma run_kept (h : Inv crypto registry) (op : Op)
    (hmeets : Meets crypto registry op) : Kept crypto registry (run crypto registry op) := by
  cases op with
  | createPairing token created now write => exact createPairing_kept h token created now write hmeets
  | claim request token now write => exact claim_kept h request token now write hmeets
  | markDeviceDisconnected deviceId now write =>
    exact markDeviceDisconnected_kept h deviceId now write
  | revoke deviceId write => exact revoke_kept h deviceId write hmeets
  | restart now write => exact restart_kept h now write

lemma openRegistry_inv {file : Option RegistryFile} {now : Nat} {write : Write}
    (hfile : ∀ f, file = some f → f.Distinct)
    (hopen : openRegistry crypto file now write = some registry) : Inv crypto registry := by
  unfold openRegistry at hopen
  split at hopen
  · cases hopen
  rename_i read requiresPersist hread
  split at hopen
  · rename_i hvalid
    have hdist : read.Distinct := by
      cases file with
      | none =>
        cases hread
        exact ⟨nodup_nil, nodup_nil⟩
      | some f =>
      have hf := hfile f rfl
      unfold readFile at hread
      simp only at hread
      split at hread
      · cases hread
        exact hf
      split at hread
      · cases hread
        exact ⟨hf.devices, hf.pairings⟩
      split at hread
      · cases hread
        exact ⟨nodup_nil, nodup_nil⟩
      · cases hread
    obtain ⟨hkeyed, hholds, hopened⟩ := ofFile_spec hdist (all_eq_true.mp hvalid) now
    split at hopen
    · -- An older file has been written anew.
      cases write with
      | ok =>
        cases hopen
        exact Inv.of_snapshot hkeyed rfl (fun _ => Iff.rfl)
      | _ => cases hopen
    rename_i hkept
    cases hopen
    have hsame : fileDevices file = read.devices ∧ filePairings file = read.pairings ∧
        ∀ f, file = some f → f.version = registryVersion ∧ f.devices = read.devices := by
      cases file with
      | none =>
        cases hread
        exact ⟨rfl, rfl, fun f hf => by cases hf⟩
      | some f =>
      unfold readFile at hread
      simp only at hread
      split at hread
      · rename_i hver
        cases hread
        refine ⟨rfl, rfl, ?_⟩
        intro g hg
        cases hg
        exact ⟨hver, rfl⟩
      split at hread
      · cases hread
        exact absurd rfl hkept
      split at hread
      · cases hread
        exact absurd rfl hkept
      · cases hread
    obtain ⟨hdevices, hpairings, hversions⟩ := hsame
    refine ⟨hkeyed, ?_, ?_, ?_, fun key => mem_keys⟩
    · intro f hf
      obtain ⟨hver, hsame⟩ := hversions f hf
      refine ⟨hver, hfile f hf, ?_⟩
      rw [hsame]
      exact all_eq_true.mp hvalid
    · intro c
      rw [hdevices]
      exact hholds c
    · intro pairing hunexp
      rw [hpairings]
      exact hopened pairing hunexp
  · cases hopen

end Operations

/-- Every step leaves the memory, the file and the trusted keys together, or changes nothing. -/
theorem registry_steps_atomic (crypto : Crypto) (file : Option RegistryFile) (now : Nat)
    (write : Write) {registry : Registry} (hfile : ∀ f, file = some f → f.Distinct)
    (hopen : openRegistry crypto file now write = some registry) {ops : List Op}
    (hmeets : Always (step crypto) (Meets crypto) registry ops) :
    Settled registry ∧ Always (step crypto) (Atomic crypto) registry ops := by
  have hinv := openRegistry_inv hfile hopen
  refine ⟨hinv.settled, Always.of_invariant (P := Inv crypto) ?_ ?_ hinv hmeets⟩
  · intro s op h hop
    exact (run_kept h op hop).1
  · intro s op h hop
    have hkept := run_kept h op hop
    exact ⟨hkept.1.settled, hkept.2⟩

def plainCrypto : Crypto :=
  ⟨fun _ _ => 0, fun _ => some [], fun _ => true, fun _ _ _ => true⟩

def phoneKey : String := String.ofList (replicate 64 'A')

/-- A phone is paired, the process restarts, and the phone is revoked. -/
theorem registry_steps_atomic_of_pairing :
    Settled ⟨.ofFile ⟨registryVersion, [], []⟩ 0, none, [], [], 0⟩ ∧
      Always (step plainCrypto) (Atomic plainCrypto)
        ⟨.ofFile ⟨registryVersion, [], []⟩ 0, none, [], [], 0⟩
        [.createPairing (some "invitation") 0 0 .ok,
          .claim ⟨"invitation", "Phone", phoneKey, "proof"⟩ (some "token") 1 .ok,
          .markDeviceDisconnected "device" 2 .failsBefore, .restart 3 .ok,
          .revoke "device" .ok] :=
  registry_steps_atomic plainCrypto none 0 .ok (fun _ h => by cases h) rfl
    ⟨fun _ => rfl, fun _ => ⟨Option.some_ne_none _, rfl⟩, trivial, trivial, fun _ => rfl, trivial⟩

def phone : StoredDevice := ⟨"phone", "Phone", "hash", some phoneKey, 0, 0⟩

/-- A revocation whose write fails leaves the device in the file. -/
theorem failed_revocation_leaves_device :
    ¬ ∀ (crypto : Crypto) (file : Option RegistryFile) (now : Nat) (write : Write)
      (registry : Registry), (∀ f, file = some f → f.Distinct) →
        openRegistry crypto file now write = some registry →
          ∀ ops, Always (step crypto) (Atomic crypto) registry ops := by
  intro h
  have hatomic := h plainCrypto (some ⟨registryVersion, [phone], []⟩) 0 .ok _
    (fun f hf => by
      cases hf
      exact ⟨pairwise_singleton _ _, nodup_nil⟩) rfl [.revoke "phone" .failsBefore]
  obtain ⟨id, device, hget, -⟩ := (hatomic.1.1.devices phone.credentials).mpr (mem_singleton_self _)
  have hgone : ∀ k, (step plainCrypto ⟨.ofFile ⟨registryVersion, [phone], []⟩ 0,
      some ⟨registryVersion, [phone], []⟩,
        (RegistryState.ofFile ⟨registryVersion, [phone], []⟩ 0).keys, [], 0⟩
        (.revoke "phone" .failsBefore)).state.devices.get? k = none := fun _ => rfl
  rw [hgone id] at hget
  cases hget

end CodeWide.Server.DeviceRegistry
