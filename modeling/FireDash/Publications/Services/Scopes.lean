import FireDash.Publications.Restore

/-! Scope rows under their lock: source reads, dirtiness, clean reconciliation and the
allocation of staged attempts. -/
namespace FireDash.Publications

/-- Compare legacy file publications without rewriting immutable history: a retained
library snapshot is hashed again, anything else keeps its stored fingerprint. -/
def publicationSourceFingerprint (cfg : Config) (publication : Publication) : Fingerprint :=
  if publication.key.target.datasetTypeCode.isFileDataset then
    match publication.sourceSnapshot with
    | some (.fileLibrary s) => some (sourceFingerprintForPayload cfg (.fileLibrary s))
    | _ => publication.sourceFingerprint
  else publication.sourceFingerprint

/-- The department lock of a file dataset dereferences its department. -/
def lockFileScope (target : Target) : Except Error Unit :=
  if target.datasetTypeCode.isFileDataset ∧ target.department.isNone then .error .attributeError else .ok ()

/-- Ownership checks shared by the `clean` methods of scopes, jobs and publications. -/
def cleanKey (key : ScopeKey) (stationMessage : String) : Except Error DatasetTypeDefinition :=
  match validateDatasetScope key with
  | .error (.datasetRegistryError message) => .error (.validationError message)
  | .error e => .error e
  | .ok definition =>
    match key.target.station with
    | some station =>
      if key.target.department ≠ some station.departmentId then .error (.validationError stationMessage)
      else .ok definition
    | none => .ok definition

def requirePublicationScope (env : Env) (actor : Actor) (target : Target) : Except Error Unit := do
  let _ ← getDatasetDefinition target.datasetTypeCode
  if ¬env.mayManage actor target then
    throw .permissionDenied

def lockedScope (target : Target) : Service (ScopeId × Scope) := do
  Tx.ofExcept (lockFileScope target)
  let key ← Tx.ofExcept (scopeFilter target)
  let db ← Tx.get
  Tx.require (db.scopeWithKey key) (.publicationError "Dataset scope has not been initialized.")

namespace Db

/-- Compare stored logical source fingerprints without rebuilding canonical data. -/
def scopeIsDirty (db : Db) (cfg : Config) (scope : Scope) (fingerprint : Fingerprint := none) : Bool :=
  match db.currentPublication scope with
  | none => true
  | some current =>
    match fingerprint.or scope.currentSourceFingerprint, current.sourceFingerprint with
    | some f, some stored => f ≠ stored ∧ some f ≠ publicationSourceFingerprint cfg current
    | _, _ => true

/-- Keep the SQL-only read models compatible with immutable legacy publication hashes:
the source of the current publication is recorded under its stored fingerprint. -/
def storedSourceFingerprint (db : Db) (cfg : Config) (scope : Scope) (fingerprint : Digest) : Fingerprint :=
  match db.currentPublication scope with
  | some current =>
    if some fingerprint = publicationSourceFingerprint cfg current then
      current.sourceFingerprint.or (some fingerprint)
    else some fingerprint
  | none => some fingerprint

/-- `MAX(version_number) + 1` over the attempts of the scope. -/
def nextVersion (db : Db) (scopeId : ScopeId) : ℕ :=
  ((db.publications.filter fun p => p.scopeState = scopeId).map fun e => e.2.versionNumber).foldr max 0 + 1

def newerLiveAttemptExists (db : Db) (scopeId : ScopeId) (versionNumber : ℕ) : Bool :=
  db.publications.any fun p =>
    p.scopeState = scopeId ∧ versionNumber < p.versionNumber ∧ (p.status = .staged ∨ p.status = .building)

/-- The first active job with the columns of a scope key. -/
def activeJobWithKey (db : Db) (key : ScopeKey) : Option (JobId × Job) :=
  db.jobs.first fun job => job.key = key ∧ job.status.isActive

/-- Jobs satisfying a filter, oldest first. -/
def jobsByCreation (db : Db) (p : Job → Bool) : List (JobId × Job) :=
  (db.jobs.filter p).insertionSort fun a b => a.2.createdAt ≤ b.2.createdAt

/-- The most recently created job of an attempt. -/
def latestBuildJob (db : Db) (id : PublicationId) : Option (JobId × Job) :=
  ((db.jobs.filter fun job => job.buildPublication = some id).insertionSort
    fun a b => b.2.createdAt ≤ a.2.createdAt).head?

end Db

/-- The row of a new staged attempt. -/
def Db.stagedPublication (db : Db) (env : Env) (scopeId : ScopeId) (key : ScopeKey) (schemaVersion : ℕ)
    (sourceRevision : ℕ) (requestedBy : Option Actor) (fingerprint : Digest) (snapshot : Snapshot) :
    Publication :=
  { scopeState := scopeId
    key := key
    versionNumber := db.nextVersion scopeId
    schemaVersion := schemaVersion
    sourceRevision := sourceRevision
    sourceFingerprint := some fingerprint
    sourceSnapshot := some snapshot
    status := .staged
    createdAt := env.now
    createdBy := requestedBy }

/-- Allocate an immutable attempt while the canonical scope row is locked. -/
def allocateStagedPublication (env : Env) (scopeId : ScopeId) (key : ScopeKey) (sourceRevision : ℕ)
    (requestedBy : Option Actor) (fingerprint : Digest) (snapshot : Snapshot) :
    Service (PublicationId × Publication) := do
  let definition ← Tx.ofExcept (getDatasetDefinition key.target.datasetTypeCode)
  let db ← Tx.get
  let publication := db.stagedPublication env scopeId key definition.currentSchemaVersion sourceRevision
    requestedBy fingerprint snapshot
  Tx.modify fun db => { db with publications := db.publications.insert publication }
  return (db.publications.nextId, publication)

/-- The current source projection of a scope and its fingerprint. -/
def currentSource (cfg : Config) (env : Env) (target : Target) : Except Error (Snapshot × Digest) := do
  let definition ← getDatasetDefinition target.datasetTypeCode
  let snapshot ← buildSourcePayload env definition target
  return (snapshot, sourceFingerprintForPayload cfg snapshot)

/-- A file scope takes over the revision of its library. -/
def refreshedRevision (scope : Scope) (snapshot : Snapshot) : ℕ :=
  match snapshot with
  | .fileLibrary s =>
    if scope.key.target.datasetTypeCode.isFileDataset then s.sourceRevision else scope.sourceRevision
  | _ => scope.sourceRevision

/-- Read the source of a locked scope; returns the scope object it leaves behind. -/
def currentSourceState (cfg : Config) (env : Env) (id : ScopeId) (scope : Scope) :
    Service (Snapshot × Digest × Scope) := do
  let (snapshot, fingerprint) ← Tx.ofExcept (currentSource cfg env scope.key.target)
  let revision := refreshedRevision scope snapshot
  Tx.whenever (scope.sourceRevision ≠ revision) <|
    Tx.modify fun db => db.modifyScope id fun row => { row with sourceRevision := revision }
  return (snapshot, fingerprint, { scope with sourceRevision := revision })

/-- Cancel one pending job whose source matches the active publication. -/
def cancelPending (env : Env) (jobId : JobId) (pending : Job) : Service Unit := do
  match pending.buildPublication with
  | some id =>
    let db ← Tx.get
    let staged ← Tx.require (db.publications.find id) .doesNotExist
    Tx.whenever (staged.status = .staged) <|
      Tx.modify fun db => db.modifyPublication id fun row =>
        { row with status := .cancelled, buildError := "Source matches the active publication." }
  | none => pure ()
  Tx.modify fun db => db.modifyJob jobId fun row =>
    { row with
      status := .cancelled
      completedAt := some env.now
      errorCategory := "source_reverted"
      errorMessage := "Source matches the active publication." }

/-- Called after a clean comparison: pending jobs that do not force a rebuild, and
historical unlinked staged attempts, are cancelled; building ones are not touched. -/
def cancelRedundantPending (env : Env) (scopeId : ScopeId) : Service Unit := do
  let db ← Tx.get
  Tx.forEach (fun e => cancelPending env e.1 e.2)
    (db.jobs.filter fun job =>
      job.scopeState = scopeId ∧ job.status = .pending ∧ job.allowCleanRebuild = false)
  let db ← Tx.get
  Tx.forEach
    (fun e => Tx.modify fun db => db.modifyPublication e.1 fun row => { row with status := .cancelled })
    ((db.publications.filter fun p => p.scopeState = scopeId ∧ p.status = .staged).filter fun e =>
      ¬db.jobs.any fun job => job.buildPublication = some e.1 ∧ job.status.isActive)

/-- Returns whether the source is clean, with the scope object left behind. -/
def reconcileCleanSource (cfg : Config) (env : Env) (id : ScopeId) (scope : Scope) (fingerprint : Digest) :
    Service (Bool × Scope) := do
  let db ← Tx.get
  if db.scopeIsDirty cfg scope (some fingerprint) then
    return (false, scope)
  let stored := db.storedSourceFingerprint cfg scope fingerprint
  Tx.whenever (scope.currentSourceFingerprint ≠ stored ∨ scope.dirtySince.isSome) <|
    Tx.modify fun db => db.modifyScope id fun row =>
      { row with currentSourceFingerprint := stored, dirtySince := none }
  cancelRedundantPending env id
  return (true, { scope with currentSourceFingerprint := stored, dirtySince := none })

/-- The newest superseded version below a version that nothing blocks. -/
def Db.eligiblePredecessor (db : Db) (canonical : Canonical) (scopeId : ScopeId) (scope : Scope)
    (beforeVersion : ℕ) : Except Error (Option (PublicationId × Publication)) := do
  let candidates := db.publicationsByVersion scopeId fun p =>
    p.status = .superseded ∧ p.versionNumber < beforeVersion ∧ p.artifactStatus = .ready ∧ p.artifactReady
  return (← firstRestorable canonical db.documents scopeId scope 1 candidates).head?

/-- Register the removal of a ciphertext, if there is one. -/
def Db.scheduleRemoval (db : Db) : Option ArtifactPath → Db
  | none => db
  | some path => db.register (.removeArtifact path)

/-- Remove retired ciphertext only after its lifecycle transaction commits. -/
def scheduleArtifactRemoval (path : Option ArtifactPath) : Service Unit :=
  Tx.modify fun db => db.scheduleRemoval path

/-- Revoke the grants of one publication in a grant table. -/
def revokeGrants (now : Time) (id : PublicationId) (grants : Table KeyGrant) : Table KeyGrant :=
  ⟨grants.rows.map fun g =>
    if g.publication = id ∧ g.status ≠ .revoked then { g with status := .revoked, revokedAt := some now }
    else g⟩

/-- Invalidate grant material for a publication that is no longer current. File
generations keep their document grants for the delivery window. -/
def Db.revokePublicationDatasetKeyGrants (db : Db) (now : Time) (id : PublicationId) (publication : Publication) :
    Db :=
  { db with
    keyGrants := revokeGrants now id db.keyGrants
    generationKeyGrants :=
      if publication.key.target.datasetTypeCode.isFileDataset then db.generationKeyGrants
      else revokeGrants now id db.generationKeyGrants }

end FireDash.Publications
