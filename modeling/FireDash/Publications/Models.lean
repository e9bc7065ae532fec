import FireDash.Lib.Transaction
import FireDash.Publications.Source

/-! Rows of the publication database: scopes, publication attempts, build jobs, key
grants and document generations, with the callbacks a committed transaction leaves. -/
namespace FireDash.Publications

abbrev ScopeId := ℕ
abbrev PublicationId := ℕ
abbrev JobId := ℕ

/-- `DatasetScopeState`. -/
structure Scope where
  key : ScopeKey
  sourceRevision : ℕ := 0
  currentSourceFingerprint : Fingerprint := none
  dirtySince : Option Time := none
  latestBuiltPublication : Option PublicationId := none
  currentPublishedPublication : Option PublicationId := none
  deriving DecidableEq

inductive PublicationStatus where
  | staged
  | building
  | readyForReview
  | published
  | failed
  | superseded
  | rejected
  | obsolete
  | cancelled
  deriving DecidableEq

inductive ArtifactStatus where
  | pending
  | ready
  | failed
  deriving DecidableEq

/-- A relative artifact path; the generated layouts are kept apart from any other text. -/
inductive ArtifactPath where
  | system (publication : PublicationId)
  | tenant (department : DepartmentId) (publication : PublicationId)
  | document (artifact : ℕ)
  | other (path : String)
  deriving DecidableEq

/-- The `artifact_*` columns describing a publication's ciphertext. -/
structure ArtifactMetadata where
  path : Option ArtifactPath := none
  size : Option ℕ := none
  sha256 : Option Digest := none
  nonce : Bytes := []
  wrappedCek : Bytes := []
  encryptionAlgorithm : String := ""
  wrappingAlgorithm : String := ""
  kekVersion : String := ""
  signature : Bytes := []
  signatureAlgorithm : String := ""
  signingKeyVersion : String := ""
  deriving DecidableEq

/-- `DatasetPublication`: one build attempt of a scope. -/
structure Publication where
  scopeState : ScopeId
  key : ScopeKey
  versionNumber : ℕ
  schemaVersion : ℕ
  sourceRevision : ℕ
  sourceFingerprint : Fingerprint := none
  sourceSnapshot : Option Snapshot := none
  status : PublicationStatus
  buildSummary : Summary := []
  changeSummary : Option ChangeSummary := none
  artifactReady : Bool := false
  artifactStatus : ArtifactStatus := .pending
  artifact : ArtifactMetadata := {}
  createdAt : Time
  createdBy : Option Actor := none
  publishedAt : Option Time := none
  publishedBy : Option Actor := none
  supersedes : Option PublicationId := none
  buildError : String := ""
  deriving DecidableEq

inductive JobStatus where
  | pending
  | running
  | succeeded
  | failed
  | obsolete
  | cancelled
  deriving DecidableEq

/-- `PENDING` or `RUNNING`. -/
@[grind] def JobStatus.isActive : JobStatus → Bool
  | .pending | .running => true
  | _ => false

inductive TriggerType where
  | userRequest
  | bulkRequest
  | dataChange
  deriving DecidableEq

/-- `trigger_type in (USER_REQUEST, BULK_REQUEST)`. -/
def TriggerType.isExplicit : TriggerType → Bool
  | .userRequest | .bulkRequest => true
  | .dataChange => false

/-- `PublicationJob`. -/
structure Job where
  key : ScopeKey
  scopeState : ScopeId
  sourceRevision : ℕ
  attemptCount : ℕ := 0
  status : JobStatus := .pending
  requestedBy : Option Actor := none
  triggerType : TriggerType
  allowCleanRebuild : Bool := false
  notBefore : Option Time := none
  debounceStartedAt : Option Time := none
  createdAt : Time
  startedAt : Option Time := none
  heartbeatAt : Option Time := none
  completedAt : Option Time := none
  errorMessage : String := ""
  errorCategory : String := ""
  buildPublication : Option PublicationId := none
  deriving DecidableEq

inductive GrantStatus where
  | pending
  | running
  | ready
  | failed
  | revoked
  deriving DecidableEq

/-- `DatasetKeyGrant` and `DocumentGenerationKeyGrant`, which differ only in the key they wrap. -/
structure KeyGrant where
  publication : PublicationId
  appInstallation : ℕ
  status : GrantStatus := .pending
  hpkeCiphersuite : String := ""
  hpkeEncapsulatedKey : Option Bytes := none
  hpkeWrappedKey : Option Bytes := none
  createdAt : Time
  completedAt : Option Time := none
  revokedAt : Option Time := none
  errorMessage : String := ""
  deriving DecidableEq

inductive ActivationAction where
  | publish
  | rollback
  deriving DecidableEq

/-- `PublicationActivation`. -/
structure Activation where
  publication : PublicationId
  scopeState : ScopeId
  previousPublication : Option PublicationId
  action : ActivationAction
  activatedBy : Actor
  deriving DecidableEq

/-- `DocumentArtifact`: the ciphertext of one canonical PDF, shared by generations. -/
structure DocumentArtifact where
  id : ℕ
  datasetTypeCode : DatasetTypeCode
  canonicalDocumentId : ℕ
  sanitizedPdfSha256 : Digest
  artifactPath : Option ArtifactPath
  ciphertextSize : ℕ
  ciphertextSha256 : Option Digest
  nonce : Bytes
  wrappedCek : Bytes
  encryptionAlgorithm : String
  wrappingAlgorithm : String
  kekVersion : String
  signature : Bytes
  signatureAlgorithm : String
  signingKeyVersion : String
  deriving DecidableEq

/-- `PublicationDocumentArtifactReference`. -/
structure DocumentReference where
  publication : PublicationId
  canonicalDocumentId : ℕ
  documentArtifact : ℕ
  deriving DecidableEq

/-- `DocumentGenerationKey`. -/
structure GenerationKey where
  publication : PublicationId
  wrappedKey : Bytes
  wrappingAlgorithm : String
  kekVersion : String
  deriving DecidableEq

/-- One entry of the `documents` list of a generation manifest. -/
structure ManifestDocument where
  metadata : DocumentRecord
  artifactId : ℕ
  sanitizedPdfSha256 : Digest
  ciphertextSha256 : Option Digest
  ciphertextSize : ℕ
  nonce : Bytes
  encryptionAlgorithm : String
  wrappingAlgorithm : String
  kekVersion : String
  signature : Bytes
  signatureAlgorithm : String
  signingKeyVersion : String
  generationWrappedCek : Bytes
  generationKeyWrappingAlgorithm : String
  downloadPath : PublicationId × ℕ
  deriving DecidableEq

structure ManifestPayload where
  format : String
  datasetType : DatasetTypeCode
  publicationId : PublicationId
  version : ℕ
  schemaVersion : ℕ
  documents : List ManifestDocument
  library : Option (LibraryIdentity × List FolderRecord × ℕ) := none
  deriving DecidableEq

/-- `DocumentGenerationManifest`. -/
structure GenerationManifest where
  publication : PublicationId
  payload : ManifestPayload
  signature : Bytes
  signatureAlgorithm : String
  signingKeyVersion : String
  deriving DecidableEq

/-- `PublicationContent`: pins frozen library bytes for one publication. -/
structure PublicationContent where
  publication : PublicationId
  content : Content
  documentId : ℕ
  deriving DecidableEq

/-- Document-generation rows; unlike the lifecycle rows, some of them are deleted. -/
structure DocumentTables where
  artifacts : List DocumentArtifact := []
  references : List DocumentReference := []
  generationKeys : List GenerationKey := []
  manifests : List GenerationManifest := []
  contents : List PublicationContent := []
  cleanups : List ℕ := []
  nextArtifact : ℕ := 0
  deriving DecidableEq

/-- Work registered with `transaction.on_commit`. -/
inductive Callback where
  | enqueue (target : Target) (debounceStartedAt : Option Time)
  | removeArtifact (path : ArtifactPath)
  | removeDocumentArtifact (artifact : ℕ)
  | wakeWorker
  deriving DecidableEq

structure Db where
  scopes : Table Scope := ⟨[]⟩
  publications : Table Publication := ⟨[]⟩
  jobs : Table Job := ⟨[]⟩
  keyGrants : Table KeyGrant := ⟨[]⟩
  generationKeyGrants : Table KeyGrant := ⟨[]⟩
  activations : Table Activation := ⟨[]⟩
  documents : DocumentTables := {}
  onCommit : List Callback := []
  deriving DecidableEq

/-- A publication service: a computation on the database that may raise. -/
abbrev Service := Tx Db Error

namespace Db

def modifyScope (db : Db) (i : ScopeId) (f : Scope → Scope) : Db :=
  { db with scopes := db.scopes.modify i f }

def modifyPublication (db : Db) (i : PublicationId) (f : Publication → Publication) : Db :=
  { db with publications := db.publications.modify i f }

def modifyJob (db : Db) (i : JobId) (f : Job → Job) : Db :=
  { db with jobs := db.jobs.modify i f }

/-- Register work to run after the commit. -/
def register (db : Db) (callback : Callback) : Db := { db with onCommit := db.onCommit ++ [callback] }

/-- The row behind `scope.current_published_publication`. -/
def currentPublication (db : Db) (scope : Scope) : Option Publication :=
  scope.currentPublishedPublication.bind db.publications.find

/-- The scope row with a given unique key. -/
def scopeWithKey (db : Db) (key : ScopeKey) : Option (ScopeId × Scope) :=
  db.scopes.first fun scope => scope.key = key

end Db

end FireDash.Publications
