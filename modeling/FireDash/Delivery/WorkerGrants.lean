import FireDash.Delivery.Authorization

/-! The delivery worker: claims of pending grants and manifests, the wrapping of content keys
for one installation, and the signing of manifests. -/
namespace FireDash.Delivery

open Publications

/-! ### Errors -/

/-- `str(error)`. -/
def errorText : Error → String
  | .publicationError m | .publicationBuildError m | .datasetRegistryError m | .artifactError m
  | .validationError m | .documentV2Error m | .keyGrantError m | .valueError m | .manifestError m
  | .appVersionError m | .tabletError m | .assignmentError m | .databaseError m => m
  | _ => ""

/-- The `error_message` column. -/
def errorColumn (text : String) : String := (text.take 512).copy

/-- The subclasses of `ValueError`. -/
def isValueError : Error → Bool
  | .publicationError _ | .publicationBuildError _ | .datasetRegistryError _ | .artifactError _
  | .documentV2Error _ | .keyGrantError _ | .valueError _ | .manifestError _ | .appVersionError _
  | .tabletError _ | .assignmentError _ => true
  | _ => false

/-! ### Key encapsulation -/

/-- What the `info` of an encapsulation binds: a ciphertext or a whole generation. -/
inductive HpkeProtocol where
  | dataset (ciphertextSha256 : Option Digest)
  | generation
  deriving DecidableEq

/-- `HPKEContext` and `DocumentGenerationHPKEContext`. -/
structure HpkeContext where
  protocol : HpkeProtocol
  publicationId : PublicationId
  installationId : InstallationId
  tabletId : TabletId
  departmentId : Option DepartmentId
  stationId : Option ℕ
  datasetTypeCode : DatasetTypeCode
  versionNumber : ℕ
  schemaVersion : ℕ
  deriving DecidableEq

/-- The context of a publication for the installation a worker was authorized with. -/
def hpkeContext (protocol : HpkeProtocol) (id : PublicationId) (publication : Publication) (context : Context) :
    HpkeContext where
  protocol := protocol
  publicationId := id
  installationId := context.installationId
  tabletId := context.installation.tablet
  departmentId := publication.key.target.department
  stationId := publication.key.target.station.map (·.id)
  datasetTypeCode := publication.key.target.datasetTypeCode
  versionNumber := publication.versionNumber
  schemaVersion := publication.schemaVersion

/-- `[a-z][a-z0-9_]{0,99}`, which the registered codes match. -/
def isCanonicalCode : DatasetTypeCode → Bool
  | .unregistered code =>
    match code.toList with
    | c :: rest => c.isLower ∧ rest.length ≤ 99 ∧ rest.all fun d => d.isLower || d.isDigit || d = '_'
    | [] => false
  | _ => true

/-- The checks before a context is serialized; the errors are `HPKEError`, a `ValueError`. -/
def HpkeContext.info (context : HpkeContext) : Except Error HpkeContext := do
  if ¬isCanonicalCode context.datasetTypeCode then
    throw (.valueError "Dataset type code is not canonical.")
  if context.versionNumber < 1 ∨ context.schemaVersion < 1 then
    throw (.valueError "Publication versions must be positive.")
  if context.protocol = .dataset none then
    throw (.valueError "Ciphertext SHA-256 is not canonical.")
  return context

/-- The primitives of the delivery worker beyond those of a build. An encapsulation takes
the entropy of its ephemeral key first. -/
structure DeliveryCrypto extends Crypto where
  validPoint : Bytes → Bool
  hpkeSeal : Bytes → Bytes → Bytes → HpkeContext → Bytes × Bytes
  signManifest : Bytes → Payload → Bytes

/-- What a delivery worker reads from credentials, entropy and storage. -/
structure DeliveryWorker extends WorkerEnv where
  ephemeral : Bytes

/-- Parse only the uncompressed-point encoding. -/
def parseP256PublicKey (crypto : DeliveryCrypto) (encoded : Bytes) : Except Error Bytes := do
  if encoded.length ≠ 65 ∨ encoded.head? ≠ some 4 then
    throw (.valueError "P-256 public key must be a 65-byte uncompressed point.")
  if ¬crypto.validPoint encoded then
    throw (.valueError "P-256 public key is invalid.")
  return encoded

/-- Seal a key for a recipient; the arguments are evaluated before the `info` is checked. -/
def hpkeSeal (crypto : DeliveryCrypto) (worker : DeliveryWorker) (plaintext encodedKey : Bytes)
    (context : HpkeContext) : Except Error (Bytes × Bytes) := do
  let recipient ← parseP256PublicKey crypto encodedKey
  let info ← context.info
  return crypto.hpkeSeal worker.ephemeral plaintext recipient info

def hpkeCiphersuite : String := "DHKEM(P-256,HKDF-SHA256)/HKDF-SHA256/AES-128-GCM"

/-! ### Claims -/

/-- The row with the earliest creation time among those selected. -/
def oldest {α : Type} (createdAt : α → Time) (select : ℕ → α → Bool) (t : Table α) : Option (ℕ × α) :=
  ((t.entries.filter fun e => select e.1 e.2).insertionSort fun a b => createdAt a.2 ≤ createdAt b.2).head?

/-- A claimed grant. -/
def claimedGrant (grant : KeyGrant) : KeyGrant := { grant with status := .running, errorMessage := "" }

/-- `locked` are the rows other transactions hold, which the query skips. -/
def claimNextDatasetKeyGrant (locked : List ℕ) : Service (Option ℕ) :=
  Tx.atomic do
    let s ← Tx.get
    match oldest KeyGrant.createdAt (fun id g => g.status = .pending ∧ id ∉ locked) s.db.keyGrants with
    | none => return none
    | some (id, _) =>
      Tx.modify fun s => s.modifyKeyGrant id claimedGrant
      return some id

/-- A claimed manifest. -/
def SignedManifest.claimed (manifest : SignedManifest) : SignedManifest :=
  { manifest with status := .running, errorMessage := "" }

def claimNextSignedManifest (excludeIds locked : List ℕ) : Service (Option ℕ) :=
  Tx.atomic do
    let s ← Tx.get
    match oldest SignedManifest.createdAt (fun id m => m.status = .pending ∧ id ∉ excludeIds ∧ id ∉ locked)
        s.signedManifests with
    | none => return none
    | some (id, _) =>
      Tx.modify fun s => s.modifyManifest id SignedManifest.claimed
      return some id

/-! ### Dataset key grants -/

/-- How the wrapping of a key ends when it is not left to the process. -/
inductive GrantOutcome where
  | ready (encapsulatedKey wrappedKey : Bytes)
  | revoked (message : String)
  | failed (message : String)
  deriving DecidableEq

/-- The columns each outcome stores. -/
def GrantOutcome.store (now : Time) : GrantOutcome → KeyGrant → KeyGrant
  | .ready encapsulatedKey wrappedKey, grant =>
    { grant with
      status := .ready
      hpkeCiphersuite := hpkeCiphersuite
      hpkeEncapsulatedKey := some encapsulatedKey
      hpkeWrappedKey := some wrappedKey
      completedAt := some now }
  | .revoked message, grant =>
    { grant with
      status := .revoked, completedAt := some now, revokedAt := some now, errorMessage := errorColumn message }
  | .failed message, grant =>
    { grant with status := .failed, completedAt := some now, errorMessage := errorColumn message }

/-- Everything `build_claimed_dataset_key_grant` does inside its `try`. -/
def wrapContentKey (crypto : DeliveryCrypto) (worker : DeliveryWorker) (s : State) (grant : KeyGrant) (now : Time) :
    Except Error (Bytes × Bytes) := do
  let (context, _, publications) ← authorizedPublications s grant.appInstallation now
  let publication ← found (s.db.publications.find grant.publication)
  if grant.publication ∉ publications.map Prod.fst then
    throw (.manifestError "Installation is not authorized for this publication.")
  let kek ← credential worker.kek "KEK"
  if kek.length ≠ 32 then
    throw (.keyGrantError "Publication KEK must be exactly 32 bytes.")
  -- An empty value stands for the null column.
  if publication.artifact.wrappedCek = [] then
    throw (.keyGrantError "Ready publication has no wrapped content-encryption key.")
  match crypto.aesKeyUnwrap kek publication.artifact.wrappedCek with
  | none => throw .invalidUnwrap
  | some cek =>
    hpkeSeal crypto worker cek context.installation.hpkePublicKey
      (hpkeContext (.dataset publication.artifact.sha256) grant.publication publication context)

/-- `InvalidUnwrap` is no `ValueError`: it propagates to the process and rolls back. -/
def grantOutcome : Except Error (Bytes × Bytes) → Except Error GrantOutcome
  | .ok (encapsulatedKey, wrappedKey) => .ok (.ready encapsulatedKey wrappedKey)
  | .error (.manifestError message) => .ok (.revoked message)
  | .error e => if isValueError e then .ok (.failed (errorText e)) else .error e

def buildClaimedDatasetKeyGrant (crypto : DeliveryCrypto) (worker : DeliveryWorker) (id : ℕ) (now : Time) :
    Service Unit :=
  Tx.atomic do
    let s ← Tx.get
    let grant ← Tx.require (s.db.keyGrants.find id) .doesNotExist
    if grant.status ≠ .running then
      return ()
    let outcome ← Tx.ofExcept (grantOutcome (wrapContentKey crypto worker s grant now))
    Tx.modify fun s => s.modifyKeyGrant id (outcome.store now)

/-! ### Signed manifests -/

/-- Re-sign a pre-scope artifact without moving or re-encrypting it. -/
def upgradeLegacyScopeSignature (cfg : Config) (crypto : DeliveryCrypto) (worker : DeliveryWorker)
    (e : PublicationId × Publication) : Service (PublicationId × Publication) :=
  Tx.atomic do
    let s ← Tx.get
    if e.1 ∉ s.legacyUpgrades then
      return e
    let artifact := e.2.artifact
    let ciphertext ← Tx.require (artifact.path.bind worker.storedCiphertext)
      (.artifactError "Migrated publication artifact is unavailable for signature upgrade.")
    Tx.ensure (artifact.sha256 = some (crypto.sha256 ciphertext))
      (.artifactError "Migrated publication artifact integrity check failed.")
    let signingKey ← Tx.ofExcept (credential worker.signingKey "signing")
    Tx.ensure (signingKey.length = 32 ∧ artifact.wrappedCek ≠ [] ∧ artifact.nonce ≠ [])
      (.artifactError "Migrated publication cryptographic metadata is unavailable.")
    let signature := crypto.ed25519Sign signingKey
      (.publication artifact.wrappedCek artifact.nonce (crypto.sha256 ciphertext) ciphertext.length
        e.2.schemaVersion e.2.versionNumber e.2.key cfg.kekVersion)
    let resign (row : Publication) : Publication :=
      { row with artifact := { row.artifact with
          signature := signature, signingKeyVersion := cfg.signingKeyVersion } }
    Tx.modify fun s =>
      { s with
        db := s.db.modifyPublication e.1 resign
        legacyUpgrades := s.legacyUpgrades.filter (· ≠ e.1) }
    return (e.1, resign e.2)

/-- Upgrade the artifact publications of a manifest, in their order. -/
def upgradeLegacyScopeSignatures (cfg : Config) (crypto : DeliveryCrypto) (worker : DeliveryWorker) :
    List (PublicationId × Publication) → Service (List (PublicationId × Publication))
  | [] => pure []
  | e :: rest => do
    let e' ← if ← Tx.ofExcept (isDocumentManifestDelivery e.2) then pure e
      else upgradeLegacyScopeSignature cfg crypto worker e
    let rest' ← upgradeLegacyScopeSignatures cfg crypto worker rest
    return e' :: rest'

/-- The bytes of a column that must not be null. -/
def columnBytes (value : Option Bytes) : Except Error Bytes :=
  match value with
  | some bytes => .ok bytes
  | none => .error .typeError

/-- The `key_grant` object of a grant row. -/
def embeddedGrant (grant : KeyGrant) : Except Error EmbeddedGrant := do
  let encapsulatedKey ← columnBytes grant.hpkeEncapsulatedKey
  let wrappedContentKey ← columnBytes grant.hpkeWrappedKey
  return {
    scheme := "HPKE"
    ciphersuite := grant.hpkeCiphersuite
    encapsulatedKey := encapsulatedKey
    wrappedContentKey := wrappedContentKey }

/-- One element of the `datasets` list; among grants of one publication the last counts. -/
def payloadDataset (documents : DocumentTables) (grants : List (ℕ × KeyGrant)) (e : PublicationId × Publication) :
    Except Error PayloadDataset := do
  let definition ← getDatasetDefinition e.2.key.target.datasetTypeCode
  if definition.artifactFormat = .documentManifestV2 then
    return .document (← documentEntry definition documents e.1 e.2)
  match grants.reverse.find? fun g => g.2.publication = e.1 with
  | none => throw .keyError
  | some (_, grant) =>
    let scope ← publicationScopePayload e.2
    let artifact := e.2.artifact
    if artifact.nonce = [] ∨ artifact.wrappedCek = [] ∨ artifact.signature = [] then
      throw .typeError
    let keyGrant ← embeddedGrant grant
    return .artifact {
      entry := {
        publicationId := e.1
        type := e.2.key.target.datasetTypeCode
        scope := scope
        version := e.2.versionNumber
        schemaVersion := e.2.schemaVersion
        artifactSize := artifact.size
        ciphertextSha256 := artifact.sha256
        contentEncryptionAlgorithm := artifact.encryptionAlgorithm
        contentEncryptionNonce := artifact.nonce
        contentKeyWrappedForKek := artifact.wrappedCek
        contentKeyWrappingAlgorithm := artifact.wrappingAlgorithm
        contentKeyKekVersion := artifact.kekVersion
        artifactSignature := artifact.signature
        artifactSignatureAlgorithm := artifact.signatureAlgorithm
        artifactSigningKeyVersion := artifact.signingKeyVersion }
      required := definition.required
      minimumAppVersion := definition.minimumAppVersion
      artifactFormat := definition.artifactFormat
      downloadUrl := e.1
      keyGrant := keyGrant }

/-- `_manifest_payload`. -/
def manifestPayload (settings : Settings) (documents : DocumentTables) (context : Context)
    (publications : List (PublicationId × Publication)) (grants : List (ℕ × KeyGrant)) (generation : ℕ)
    (now : Time) (capabilities : Capabilities) : Except Error Payload := do
  let datasets ← publications.mapM (payloadDataset documents grants)
  return {
    manifestGeneration := generation
    signatureAlgorithm := "Ed25519"
    signingKeyVersion := settings.publications.signingKeyVersion
    generatedAt := now
    authorizationValidUntil := context.installation.authorizationValidUntil
    configuration := tabletConfiguration settings context
    datasets := datasets
    capabilities := capabilities }

/-- Sign a canonical payload in the worker context only. -/
def signPayload (crypto : DeliveryCrypto) (worker : DeliveryWorker) (payload : Payload) : Except Error Bytes := do
  let signingKey ← credential worker.signingKey "signing"
  if signingKey.length ≠ 32 then
    throw (.keyGrantError "Publication Ed25519 private key must be exactly 32 bytes.")
  if ¬worker.signingKeyActive then
    throw (.keyGrantError "Publication Ed25519 private key does not match the active public key.")
  return crypto.signManifest signingKey payload

/-- How the build of a manifest ends when it is not left to the process. -/
inductive ManifestOutcome where
  | obsolete (message : String)
  | failed (message : String)
  | waiting
  | ready (payload : Payload) (signature : Bytes)
  deriving DecidableEq

/-- The columns each outcome stores. -/
def ManifestOutcome.store (cfg : Config) (now : Time) : ManifestOutcome → SignedManifest → SignedManifest
  | .obsolete message, m =>
    { m with status := .obsolete, completedAt := some now, errorMessage := errorColumn message }
  | .failed message, m => { m with status := .failed, completedAt := some now, errorMessage := errorColumn message }
  | .waiting, m => { m with status := .pending }
  | .ready payload signature, m =>
    { m with
      status := .ready
      payload := some payload
      signature := some signature
      signatureAlgorithm := "Ed25519"
      signingKeyVersion := cfg.signingKeyVersion
      completedAt := some now }

/-- Everything `build_claimed_signed_manifest` does inside its `try`. -/
def tryManifest (settings : Settings) (crypto : DeliveryCrypto) (worker : DeliveryWorker) (manifest : SignedManifest)
    (now clock : Time) : Service ManifestOutcome := do
  let s ← Tx.get
  let (context, publications) ← Tx.ofExcept (manifestPublications s manifest.appInstallation now)
  let grants ← requestGrants manifest.appInstallation false clock publications
  let capabilities ← Tx.ofExcept (manifestCapabilities settings s.fleet)
  let stateHash ← Tx.ofExcept
    (manifestStateHash settings s.db.documents context publications manifest.generation capabilities)
  if stateHash ≠ manifest.stateHash then
    return .obsolete "Manifest authorization or publication state changed."
  if grants.any fun g => g.2.status = .failed then
    return .failed "A required dataset key grant failed."
  if grants.any fun g => g.2.status = .pending ∨ g.2.status = .running then
    return .waiting
  if grants.any fun g => g.2.status ≠ .ready then
    return .obsolete "A required dataset key grant is no longer usable."
  let publications ← upgradeLegacyScopeSignatures settings.publications crypto worker publications
  let payload ← Tx.ofExcept (manifestPayload settings s.db.documents context publications grants
    manifest.generation now capabilities)
  let signature ← Tx.ofExcept (signPayload crypto worker payload)
  return .ready payload signature

/-- The errors `build_claimed_signed_manifest` turns into an outcome. -/
def manifestFailure : Error → Option (Service ManifestOutcome)
  | .manifestError message => some (pure (.obsolete message))
  | e => if isValueError e then some (pure (.failed (errorText e))) else none

def buildClaimedSignedManifest (settings : Settings) (crypto : DeliveryCrypto) (worker : DeliveryWorker) (id : ℕ)
    (now clock : Time) : Service Unit :=
  Tx.atomic do
    let s ← Tx.get
    let manifest ← Tx.require (s.signedManifests.find id) .doesNotExist
    if manifest.status ≠ .running then
      return ()
    let outcome ← Tx.handle manifestFailure (tryManifest settings crypto worker manifest now clock)
    Tx.modify fun s => s.modifyManifest id (outcome.store settings.publications now)

end FireDash.Delivery
