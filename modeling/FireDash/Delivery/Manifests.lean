import FireDash.Delivery.Fleet
import FireDash.Publications.Services.Scopes

/-! Credential-free manifest selection, grant requests and the canonical manifest texts. -/
namespace FireDash.Delivery

open Publications

/-! ### Canonical texts -/

/-- `report_transfer.contract.configuration()`. -/
inductive ReportTransfer where
  | disabled
  | enabled (kid publicKeyPem : String) (maxRequestBytes maxJsonBytes maxJpegBytes maxAttachments
      maxImagePixels retentionMaxHours : ℕ)
  deriving DecidableEq

/-- `tablet_configuration`: an already authorized control-plane context. -/
structure TabletConfiguration where
  installationId : InstallationId
  tabletId : TabletId
  departmentId : DepartmentId
  stationId : Option ℕ
  vehicleId : Option VehicleId
  reportDeliveryMaxAttachmentBytes : ℕ
  reportTransfer : ReportTransfer
  deriving DecidableEq

/-- Explicit signed identity; absence of a tenant is never a system alias. -/
structure ScopePayload where
  type : ScopeType
  departmentId : Option DepartmentId := none
  stationId : Option ℕ := none
  deriving DecidableEq

/-- The dataset entry of a document generation, in the hashed state and in the payload. -/
structure DocumentEntry where
  publicationId : PublicationId
  type : DatasetTypeCode
  scope : ScopePayload
  version : ℕ
  schemaVersion : ℕ
  required : Bool
  minimumAppVersion : Option String
  artifactFormat : ArtifactFormat
  manifestUrl : PublicationId
  deriving DecidableEq

/-- The stored columns of an encrypted artifact that both texts carry. -/
structure ArtifactEntry where
  publicationId : PublicationId
  type : DatasetTypeCode
  scope : ScopePayload
  version : ℕ
  schemaVersion : ℕ
  artifactSize : Option ℕ
  ciphertextSha256 : Option Digest
  contentEncryptionAlgorithm : String
  contentEncryptionNonce : Bytes
  contentKeyWrappedForKek : Bytes
  contentKeyWrappingAlgorithm : String
  contentKeyKekVersion : String
  artifactSignature : Bytes
  artifactSignatureAlgorithm : String
  artifactSigningKeyVersion : String
  deriving DecidableEq

/-- One element of the `datasets` list of the hashed state. -/
inductive DatasetEntry where
  | document (entry : DocumentEntry)
  | artifact (entry : ArtifactEntry)
  deriving DecidableEq

/-- The `capabilities` block; provider and mode are fixed by the database. -/
structure Capabilities where
  provider : String := "euro_rescue"
  mode : String := "web"
  webUrl : String
  deriving DecidableEq

/-- The authorization and publication state that coalesces manifest work. -/
structure ManifestState where
  generation : ℕ
  tabletAssetState : TabletStatus
  signingKeyVersion : String
  authorizationValidUntil : Time
  configuration : TabletConfiguration
  datasets : List DatasetEntry
  capabilities : Capabilities
  deriving DecidableEq

/-- The `key_grant` object of a payload entry. -/
structure EmbeddedGrant where
  scheme : String
  ciphersuite : String
  encapsulatedKey : Bytes
  wrappedContentKey : Bytes
  deriving DecidableEq

/-- The payload entry of an encrypted artifact. -/
structure ArtifactDataset where
  entry : ArtifactEntry
  required : Bool
  minimumAppVersion : Option String
  artifactFormat : ArtifactFormat
  downloadUrl : PublicationId
  keyGrant : EmbeddedGrant
  deriving DecidableEq

inductive PayloadDataset where
  | document (entry : DocumentEntry)
  | artifact (dataset : ArtifactDataset)
  deriving DecidableEq

/-- The unsigned manifest exactly as covered by the signature. -/
structure Payload where
  manifestGeneration : ℕ
  signatureAlgorithm : String
  signingKeyVersion : String
  generatedAt : Time
  authorizationValidUntil : Time
  configuration : TabletConfiguration
  datasets : List PayloadDataset
  capabilities : Capabilities
  deriving DecidableEq

/-- Deployment settings of the delivery services. `stateHash` is the hexadecimal SHA-256 of
the canonical text of a state; `validWebUrl` the validator of the capability URL. -/
structure Settings where
  publications : Config
  stateHash : ManifestState → String
  reportAttachmentMaxBytes : ℕ
  reportTransfer : ReportTransfer
  validWebUrl : String → Bool

/-! ### Rows -/

inductive ManifestStatus where
  | pending
  | running
  | ready
  | failed
  | obsolete
  deriving DecidableEq

/-- `SignedManifest`: the coalesced request and signed result of one installation state. -/
structure SignedManifest where
  appInstallation : InstallationId
  stateHash : String
  generation : ℕ := 1
  status : ManifestStatus := .pending
  payload : Option Payload := none
  signature : Option Bytes := none
  signatureAlgorithm : String := ""
  signingKeyVersion : String := ""
  createdAt : Time
  completedAt : Option Time := none
  errorMessage : String := ""
  deriving DecidableEq

/-- The database the delivery services work on. `legacyUpgrades` holds the one-shot markers
of artifacts signed before their scope was explicit. -/
structure State where
  db : Db := {}
  fleet : Fleet
  signedManifests : Table SignedManifest := ⟨[]⟩
  legacyUpgrades : List PublicationId := []
  deriving DecidableEq

/-- A delivery service: a computation on that database that may raise. -/
abbrev Service := Tx State Error

namespace State

def modifyKeyGrant (s : State) (id : ℕ) (f : KeyGrant → KeyGrant) : State :=
  { s with db := { s.db with keyGrants := s.db.keyGrants.modify id f } }

def insertKeyGrant (s : State) (grant : KeyGrant) : State :=
  { s with db := { s.db with keyGrants := s.db.keyGrants.insert grant } }

def modifyGenerationKeyGrant (s : State) (id : ℕ) (f : KeyGrant → KeyGrant) : State :=
  { s with db := { s.db with generationKeyGrants := s.db.generationKeyGrants.modify id f } }

def insertGenerationKeyGrant (s : State) (grant : KeyGrant) : State :=
  { s with db := { s.db with generationKeyGrants := s.db.generationKeyGrants.insert grant } }

def modifyManifest (s : State) (id : ℕ) (f : SignedManifest → SignedManifest) : State :=
  { s with signedManifests := s.signedManifests.modify id f }

end State

/-! ### Selection -/

/-- The place of a code in the collation of the stored texts; a code outside the registry is
never delivered, so its place among the others does not matter. -/
def codeOrder : DatasetTypeCode → ℕ
  | .dangerousGoods => 0
  | .departmentFiles => 1
  | .departmentFirePlans => 2
  | .departmentHydrants => 3
  | .departmentKlgvPlans => 4
  | .departmentPhonebook => 5
  | .stationFiles => 6
  | .stationPersonnel => 7
  | .stationPhonebook => 8
  | .testDepartmentIncidents => 9
  | .testSystemDataset => 10
  | .unregistered _ => 11

/-- Keep publication ownership and tenant delivery decisions independent. -/
def publicationIsExposed (publication : Publication) (department : DepartmentId) : Bool :=
  match getDatasetDefinition publication.key.target.datasetTypeCode with
  | .error _ => false
  | .ok definition =>
    if publication.key.scopeType ≠ definition.scope then false
    else
      match publication.key.scopeType with
      | .system => definition.systemExposure ∧ publication.key.target.department = none ∧
          publication.key.target.station = none
      | .department => publication.key.target.station = none ∧
          publication.key.target.department = some department
      | .station => publication.key.target.station.isSome ∧
          publication.key.target.department = some department

/-- The database query both selections make. -/
def inDeliveryQuery (department : DepartmentId) (vehicle : Vehicle) (publication : Publication) : Bool :=
  ((publication.key.target.department = some department ∧
      (publication.key.scopeType = .department ∨ publication.key.scopeType = .station)) ∨
    publication.key.scopeType = .system) ∧
  publication.status = .published ∧ publication.artifactStatus = .ready ∧
  (publication.key.target.station = none ∨ ∃ station ∈ publication.key.target.station, station.id = vehicle.station)

/-- The feature gate of a publication's dataset type. -/
def featureEnabledFor (fleet : Fleet) (department : DepartmentId) (publication : Publication) : Bool :=
  match getDatasetDefinition publication.key.target.datasetTypeCode with
  | .ok definition => fleet.isFeatureEnabled department definition.featureCode
  | .error _ => false

/-- Registered, enabled publications in the derived tablet scope, by dataset type. -/
def State.deliverable (s : State) (department : DepartmentId) (vehicle : Vehicle) :
    List (PublicationId × Publication) :=
  ((s.db.publications.filter (inDeliveryQuery department vehicle)).insertionSort fun a b =>
    codeOrder a.2.key.target.datasetTypeCode ≤ codeOrder b.2.key.target.datasetTypeCode).filter fun e =>
      publicationIsExposed e.2 department ∧ featureEnabledFor s.fleet department e.2

/-- Resolve only registered, enabled publications in the derived tablet scope. -/
def authorizedPublications (s : State) (id : InstallationId) (now : Time) :
    Except Error (Context × Vehicle × List (PublicationId × Publication)) := do
  let (context, _, vehicle) ← authorizationContext s.fleet id now
  return (context, vehicle, s.deliverable context.tablet.department vehicle)

/-- Resolve the signed-manifest dataset list for active or inactive assets. -/
def manifestPublications (s : State) (id : InstallationId) (now : Time) :
    Except Error (Context × List (PublicationId × Publication)) := do
  let context ← controlPlaneContext s.fleet id now
  if context.tablet.status = .inactive then
    return (context, [])
  if context.tablet.status ≠ .active then
    throw (.manifestError "Installation is not authorized for a manifest.")
  match context.vehicle with
  | none => return (context, [])
  | some (_, vehicle) => return (context, s.deliverable context.tablet.department vehicle)

def isDocumentManifestDelivery (publication : Publication) : Except Error Bool := do
  return (← getDatasetDefinition publication.key.target.datasetTypeCode).artifactFormat = .documentManifestV2

/-! ### The hashed state -/

def publicationScopePayload (publication : Publication) : Except Error ScopePayload :=
  match publication.key.scopeType, publication.key.target.department, publication.key.target.station with
  | .system, _, _ => .ok { type := .system }
  | .department, some department, _ => .ok { type := .department, departmentId := some department }
  | .station, some department, some station =>
    .ok { type := .station, departmentId := some department, stationId := some station.id }
  | _, _, _ => .error (.manifestError "Publication scope is invalid.")

/-- The stored columns of a ready artifact; an empty value is a null column. -/
def artifactEntry (id : PublicationId) (publication : Publication) : Except Error ArtifactEntry := do
  let artifact := publication.artifact
  if artifact.nonce = [] ∨ artifact.wrappedCek = [] ∨ artifact.signature = [] then
    throw (.manifestError "Ready publication is missing cryptographic metadata.")
  let scope ← publicationScopePayload publication
  return {
    publicationId := id
    type := publication.key.target.datasetTypeCode
    scope := scope
    version := publication.versionNumber
    schemaVersion := publication.schemaVersion
    artifactSize := artifact.size
    ciphertextSha256 := artifact.sha256
    contentEncryptionAlgorithm := artifact.encryptionAlgorithm
    contentEncryptionNonce := artifact.nonce
    contentKeyWrappedForKek := artifact.wrappedCek
    contentKeyWrappingAlgorithm := artifact.wrappingAlgorithm
    contentKeyKekVersion := artifact.kekVersion
    artifactSignature := artifact.signature
    artifactSignatureAlgorithm := artifact.signatureAlgorithm
    artifactSigningKeyVersion := artifact.signingKeyVersion }

/-- The entry of a document generation. -/
def documentEntry (definition : DatasetTypeDefinition) (documents : DocumentTables) (id : PublicationId)
    (publication : Publication) : Except Error DocumentEntry := do
  if publication.schemaVersion ≠ 2 ∨ ¬documents.manifests.any (·.publication = id) then
    throw (.manifestError "Document publication requires a complete generic generation.")
  let scope ← publicationScopePayload publication
  return {
    publicationId := id
    type := publication.key.target.datasetTypeCode
    scope := scope
    version := publication.versionNumber
    schemaVersion := 2
    required := definition.required
    minimumAppVersion := definition.minimumAppVersion
    artifactFormat := .documentManifestV2
    manifestUrl := id }

def publicationManifestEntry (documents : DocumentTables) (e : PublicationId × Publication) :
    Except Error DatasetEntry := do
  let definition ← getDatasetDefinition e.2.key.target.datasetTypeCode
  if definition.artifactFormat = .documentManifestV2 then
    return .document (← documentEntry definition documents e.1 e.2)
  return .artifact (← artifactEntry e.1 e.2)

def tabletConfiguration (settings : Settings) (context : Context) : TabletConfiguration where
  installationId := context.installationId
  tabletId := context.installation.tablet
  departmentId := context.tablet.department
  stationId := context.vehicle.map fun v => v.2.station
  vehicleId := context.vehicle.map Prod.fst
  reportDeliveryMaxAttachmentBytes := settings.reportAttachmentMaxBytes
  reportTransfer := settings.reportTransfer

/-- The state behind `manifest_state_hash`. The asset state is no wire field: it keeps an
inactive empty scope apart from an active empty one. -/
def manifestState (settings : Settings) (documents : DocumentTables) (context : Context)
    (publications : List (PublicationId × Publication)) (generation : ℕ) (capabilities : Capabilities) :
    Except Error ManifestState := do
  let datasets ← publications.mapM (publicationManifestEntry documents)
  return {
    generation := generation
    tabletAssetState := context.tablet.status
    signingKeyVersion := settings.publications.signingKeyVersion
    authorizationValidUntil := context.installation.authorizationValidUntil
    configuration := tabletConfiguration settings context
    datasets := datasets
    capabilities := capabilities }

/-- Hash the authorization and publication state that coalesces manifest work. -/
def manifestStateHash (settings : Settings) (documents : DocumentTables) (context : Context)
    (publications : List (PublicationId × Publication)) (generation : ℕ) (capabilities : Capabilities) :
    Except Error String := do
  return settings.stateHash (← manifestState settings documents context publications generation capabilities)

/-- The required, global capabilities block; a URL that fails validation raises. -/
def manifestCapabilities (settings : Settings) (fleet : Fleet) : Except Error Capabilities :=
  if settings.validWebUrl fleet.rescueGuidesUrl then .ok { webUrl := fleet.rescueGuidesUrl }
  else .error (.validationError "Enter a valid URL.")

/-! ### Grants and manifests -/

/-- A fresh wrapping may be requested in the same grant row. -/
def renewedGrant (grant : KeyGrant) : KeyGrant :=
  { grant with
    status := .pending
    hpkeCiphersuite := ""
    hpkeEncapsulatedKey := none
    hpkeWrappedKey := none
    completedAt := none
    errorMessage := ""
    revokedAt := none }

/-- A failed wrapping is tried again. -/
def retriedGrant (grant : KeyGrant) : KeyGrant :=
  { grant with status := .pending, completedAt := none, errorMessage := "" }

/-- The grant row of a publication and an installation, unique by constraint. -/
def grantFor (grants : Table KeyGrant) (publication : PublicationId) (installation : InstallationId) :
    Option (ℕ × KeyGrant) :=
  grants.first fun g => g.publication = publication ∧ g.appInstallation = installation

/-- Persist an idempotent worker request without handling key material. -/
def requestDatasetKeyGrant (publication : PublicationId) (installation : InstallationId) (retryFailed : Bool)
    (now : Time) : Service (ℕ × KeyGrant) :=
  Tx.atomic do
    let s ← Tx.get
    let (_, _, publications) ← Tx.ofExcept (authorizedPublications s installation now)
    Tx.ensure (publication ∈ publications.map Prod.fst)
      (.manifestError "Installation is not authorized for this publication.")
    match grantFor s.db.keyGrants publication installation with
    | some (id, grant) =>
      if grant.status = .revoked then
        Tx.modify fun s => s.modifyKeyGrant id renewedGrant
        return (id, renewedGrant grant)
      if retryFailed ∧ grant.status = .failed then
        Tx.modify fun s => s.modifyKeyGrant id retriedGrant
        return (id, retriedGrant grant)
      return (id, grant)
    | none =>
      let grant : KeyGrant := { publication := publication, appInstallation := installation, createdAt := now }
      Tx.modify fun s => s.insertKeyGrant grant
      return (s.db.keyGrants.nextId, grant)

/-- Revoke every grant of an installation in a grant table. -/
def revokeInstallationGrants (now : Time) (installation : InstallationId) (grants : Table KeyGrant) :
    Table KeyGrant :=
  ⟨grants.rows.map fun g =>
    if g.appInstallation = installation ∧ g.status ≠ .revoked then
      { g with status := .revoked, revokedAt := some now }
    else g⟩

/-- Make prior grant material unusable after access is withdrawn. -/
def State.revokeDatasetKeyGrants (s : State) (now : Time) (installation : InstallationId) : State :=
  { s with db := { s.db with
      keyGrants := revokeInstallationGrants now installation s.db.keyGrants
      generationKeyGrants := revokeInstallationGrants now installation s.db.generationKeyGrants } }

/-- Request the grants of the artifact publications of a manifest, in their order. -/
def requestGrants (installation : InstallationId) (retryFailed : Bool) (now : Time) :
    List (PublicationId × Publication) → Service (List (ℕ × KeyGrant))
  | [] => pure []
  | e :: rest => do
    if ← Tx.ofExcept (isDocumentManifestDelivery e.2) then
      requestGrants installation retryFailed now rest
    else
      let grant ← requestDatasetKeyGrant e.1 installation retryFailed now
      let grants ← requestGrants installation retryFailed now rest
      return grant :: grants

/-- The manifest row of an installation state, created on first use. -/
def manifestFor (installation : InstallationId) (stateHash : String) (generation : ℕ) (now : Time) :
    Service (ℕ × SignedManifest) := do
  let s ← Tx.get
  match s.signedManifests.first fun m => m.appInstallation = installation ∧ m.stateHash = stateHash with
  | some found => return found
  | none =>
    let manifest : SignedManifest :=
      { appInstallation := installation, stateHash := stateHash, generation := generation, createdAt := now }
    Tx.modify fun s => { s with signedManifests := s.signedManifests.insert manifest }
    return (s.signedManifests.nextId, manifest)

/-- A request is an explicit, safe retry signal. -/
def SignedManifest.retried (manifest : SignedManifest) : SignedManifest :=
  { manifest with status := .pending, completedAt := none, errorMessage := "" }

/-- The stored payload with the stored signature attached. -/
structure SignedPayload where
  payload : Option Payload
  signature : Bytes
  signatureAlgorithm : String
  signingKeyVersion : String
  deriving DecidableEq

/-- `ManifestRequest`; without a payload the manifest is unavailable. -/
structure ManifestRequest where
  payload : Option SignedPayload
  requestId : ℕ
  deriving DecidableEq

/-- Return only a persisted signed manifest matching the current state. Grants are requested
under the later clock reading of the nested calls. -/
def requestManifest (settings : Settings) (installation : InstallationId) (generation : ℕ)
    (now clock : Time) : Service ManifestRequest :=
  Tx.atomic do
    let s ← Tx.get
    let (context, publications) ← Tx.ofExcept (manifestPublications s installation now)
    let _ ← requestGrants installation true clock publications
    let capabilities ← Tx.ofExcept (manifestCapabilities settings s.fleet)
    let stateHash ← Tx.ofExcept
      (manifestStateHash settings s.db.documents context publications generation capabilities)
    let (id, manifest) ← manifestFor installation stateHash generation clock
    if manifest.status = .failed ∨ manifest.status = .obsolete then
      Tx.modify fun s => s.modifyManifest id SignedManifest.retried
      return { payload := none, requestId := id }
    if manifest.status = .ready then
      let signature ← Tx.require manifest.signature (.manifestError "Ready manifest has no signature.")
      return {
        payload := some ⟨manifest.payload, signature, manifest.signatureAlgorithm, manifest.signingKeyVersion⟩
        requestId := id }
    return { payload := none, requestId := id }

/-- Invalidate deliverable manifests without affecting publications or grants. -/
def State.invalidateSignedManifests (s : State) (now : Time) (reason : String) : State :=
  { s with signedManifests := ⟨s.signedManifests.rows.map fun m =>
      if m.status = .pending ∨ m.status = .ready then
        { m with status := .obsolete, completedAt := some now, errorMessage := (reason.take 512).copy }
      else m⟩ }

end FireDash.Delivery
