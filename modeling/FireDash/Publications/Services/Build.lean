import FireDash.Publications.Services.Queue

/-! The build worker: failure, recovery, finalization and the stages of one build. -/
namespace FireDash.Publications

/-- Whether a worker may continue expensive work for one job. -/
def Db.buildIsStillRunning (db : Db) (jobId : JobId) : Bool :=
  match db.jobs.find jobId with
  | some job => job.status = .running ∧ ∃ id ∈ job.buildPublication,
      ∃ p ∈ db.publications.find id, p.status = .building
  | none => false

/-- Queue a data-change follow-up after commit if the scope is still dirty. -/
def queueFollowUpIfStale (cfg : Config) (job : Job) : Service Unit := do
  let (_, scope) ← lockedScope job.key.target
  let db ← Tx.get
  Tx.whenever (db.scopeIsDirty cfg scope) <|
    Tx.modify fun db => db.register (.enqueue job.key.target scope.dirtySince)

/-- An attempt whose worker reported a failure. -/
def Publication.failed (errorMessage : String) (row : Publication) : Publication :=
  { row with status := .failed, artifactStatus := .failed, buildError := errorMessage }

/-- A job whose build failed. -/
def Job.failed (now : Time) (errorMessage errorCategory : String) (row : Job) : Job :=
  { row with
    status := .failed
    completedAt := some now
    errorMessage := errorMessage
    errorCategory := errorCategory }

/-- Close the attempt of a failed job. -/
def failAttempt (id : PublicationId) (errorMessage : String) : Service Unit := do
  let db ← Tx.get
  match db.publications.find id with
  | none => pure ()
  | some publication =>
    scheduleArtifactRemoval publication.artifact.path
    Tx.whenever (publication.status = .building) do
      Tx.modify fun db => db.modifyPublication id (Publication.failed errorMessage)
      releaseTerminalDocumentArtifactReferences id (publication.failed errorMessage)

def failPublicationJob (cfg : Config) (env : Env) (jobId : JobId) (errorMessage : String)
    (errorCategory : String := "build") : Service JobId :=
  Tx.atomic do
    let db ← Tx.get
    let job ← Tx.require (db.jobs.find jobId) .doesNotExist
    let _ ← lockedScope job.key.target
    if job.status ≠ .running then
      return jobId
    let message : String := (errorMessage.take 2000).copy
    Tx.modify fun db => db.modifyJob jobId (Job.failed env.now message (errorCategory.take 32).copy)
    match job.buildPublication with
    | some id => failAttempt id message
    | none => pure ()
    queueFollowUpIfStale cfg job
    return jobId

/-- Running with a heartbeat older than the timeout. -/
def Job.stale (now : Time) (timeout : ℕ) (job : Job) : Bool :=
  job.status = .running ∧ ∃ h ∈ job.heartbeatAt, h + timeout < now

/-- An attempt whose worker stopped reporting. -/
def Publication.timedOut (row : Publication) : Publication :=
  { row with status := .failed, buildError := "Worker heartbeat timed out." }

/-- A job that used up its attempts. -/
def Job.exhausted (now : Time) (row : Job) : Job :=
  row.failed now "Publication build exceeded the maximum retry attempts." "retry_exhausted"

/-- A job that waits for another attempt. -/
def Job.retried (row : Job) : Job :=
  { row with
    status := .pending
    startedAt := none
    heartbeatAt := none
    buildPublication := none
    errorCategory := "retryable_timeout"
    errorMessage := "Worker heartbeat timed out; the build will be retried." }

/-- Fail the attempt of a stale job while it is still building. -/
def recoverAttempt (db : Db) (job : Job) : Service Unit :=
  match job.buildPublication.bind fun id => (db.publications.find id).map fun p => (id, p) with
  | none => pure ()
  | some (id, publication) =>
    Tx.whenever (publication.status = .building) do
      Tx.modify fun db => db.modifyPublication id Publication.timedOut
      releaseTerminalDocumentArtifactReferences id publication.timedOut

/-- Fail the attempt of one stale job; retry the job or give it up. -/
def recoverJob (cfg : Config) (env : Env) (timeout maxAttempts : ℕ) (jobId : JobId) : Service Unit := do
  let db ← Tx.get
  match db.jobs.find jobId with
  | none => pure ()
  | some job =>
    let _ ← lockedScope job.key.target
    Tx.whenever (job.stale env.now timeout) do
      recoverAttempt db job
      if maxAttempts ≤ job.attemptCount then
        Tx.modify fun db => db.modifyJob jobId (Job.exhausted env.now)
        queueFollowUpIfStale cfg job
      else
        Tx.modify fun db => db.modifyJob jobId Job.retried

/-- Ascending by department (none last), scope and job. -/
def recoveryOrder (a b : JobId × Job) : Bool :=
  match a.2.key.target.department, b.2.key.target.department with
  | none, some _ => false
  | some _, none => true
  | none, none => a.2.scopeState < b.2.scopeState ∨ (a.2.scopeState = b.2.scopeState ∧ a.1 ≤ b.1)
  | some d, some d' => d < d' ∨ (d = d' ∧
      (a.2.scopeState < b.2.scopeState ∨ (a.2.scopeState = b.2.scopeState ∧ a.1 ≤ b.1)))

def recoverStaleJobs (cfg : Config) (env : Env) (timeout maxAttempts : ℕ) : Service ℕ :=
  Tx.atomic do
    Tx.ensure (0 < timeout) (.publicationError "Job recovery timeout must be positive.")
    Tx.ensure (1 ≤ maxAttempts) (.publicationError "Maximum job attempts must be positive.")
    let db ← Tx.get
    let stale := ((db.jobs.filter (·.stale env.now timeout)).insertionSort
      fun a b => recoveryOrder a b).map Prod.fst
    Tx.forEach (recoverJob cfg env timeout maxAttempts) stale
    return stale.length

def Publication.isDocumentV2 (publication : Publication) : Bool :=
  publication.schemaVersion = 2 ∧ publication.key.target.datasetTypeCode.isDocumentDataset

/-- The database trigger on frozen document generations: their fingerprint is immutable. -/
def guardDocumentGeneration (publication : Publication) (fingerprint : Fingerprint) : Except Error Unit :=
  if publication.isDocumentV2 ∧ fingerprint ≠ publication.sourceFingerprint then
    .error (.databaseError "Frozen document generations are immutable")
  else .ok ()

/-- `DatasetPublication.clean` on the row a finalization is about to save. -/
def Publication.clean (canonical : Canonical) (documents : DocumentTables) (scope : Scope) (id : PublicationId)
    (publication : Publication) : Except Error Unit := do
  let definition ← cleanKey publication.key "Station must belong to the publication department."
  let documentV2 := publication.isDocumentV2
  if publication.schemaVersion ≠ definition.currentSchemaVersion ∨
      publication.schemaVersion ∉ definition.supportedSchemaVersions then
    throw (.validationError "Schema version is not supported for this dataset.")
  match publication.changeSummary with
  | some summary => validateChangeSummary summary
  | none => pure ()
  if scope.key ≠ publication.key then
    throw (.validationError "Scope state must match the publication scope.")
  match publication.artifact.path with
  | some path =>
    if path ≠ (← publicationArtifactRelativePath publication.key id) then
      throw (.validationError "Artifact path must be a generated publication path.")
  | none => pure ()
  if publication.artifactStatus = .ready ∧ ¬publication.artifact.complete ∧ ¬documentV2 then
    throw (.validationError "Ready artifacts require complete cryptographic metadata.")
  let shown := publication.status = .readyForReview ∨ publication.status = .published
  if shown ∧ (publication.artifactStatus ≠ .ready ∨ (¬publication.artifact.complete ∧ ¬documentV2)) then
    throw (.validationError "Review-ready and published publications require a ready artifact.")
  if documentV2 ∧ shown then
    match validateReadyDocumentGeneration canonical documents id publication false with
    | .ok () => pure ()
    | .error (.documentV2Error message) => throw (.validationError message)
    | .error (.publicationBuildError message) => throw (.validationError message)
    | .error e => throw e

/-- The fingerprint a finalization records for the attempt it closes. -/
def finalFingerprint (cfg : Config) (publication : Publication) (given : Fingerprint) : Fingerprint :=
  if publication.key.target.datasetTypeCode.isFileDataset then publicationSourceFingerprint cfg publication
  else given.or publication.sourceFingerprint

/-- An attempt that will not be delivered gives up its snapshot. -/
def Publication.obsoleted (row : Publication) : Publication :=
  { row with status := .obsolete, sourceSnapshot := none }

/-- A file attempt whose library moved on is retired and the job is queued again. -/
def retireStaleFileAttempt (cfg : Config) (env : Env) (jobId : JobId) (job : Job) (id : PublicationId)
    (publication : Publication) : Service Unit := do
  Tx.modify fun db => db.modifyPublication id Publication.obsoleted
  releaseTerminalDocumentArtifactReferences id publication.obsoleted
  Tx.modify fun db => db.modifyJob jobId (Job.obsoleted env.now)
  let _ ← enqueuePublicationJob cfg env
    { target := job.key.target
      requestedBy := job.requestedBy
      triggerType := job.triggerType
      allowCleanRebuild := job.allowCleanRebuild }

/-- An attempt equal to the current publication is dropped. -/
def obsoleteDuplicate (env : Env) (scopeId : ScopeId) (jobId : JobId) (id : PublicationId)
    (publication : Publication) (fingerprint : Fingerprint) : Service Unit := do
  Tx.ofExcept (guardDocumentGeneration publication fingerprint)
  Tx.modify fun db => db.modifyPublication id fun row => { row.obsoleted with sourceFingerprint := fingerprint }
  releaseTerminalDocumentArtifactReferences id publication.obsoleted
  Tx.modify fun db => db.modifyJob jobId (Job.obsoleted env.now)
  Tx.modify fun db => db.modifyScope scopeId fun row => { row with dirtySince := none }

/-- Whether a finalization finds the attempt equal to the current publication. -/
def Db.finalizeDuplicates (db : Db) (cfg : Config) (scope : Scope) (job : Job) (fingerprint : Fingerprint) :
    Bool :=
  match db.currentPublication scope with
  | some current => current.sourceFingerprint.isSome ∧
      publicationSourceFingerprint cfg current = fingerprint ∧ job.allowCleanRebuild = false
  | none => false

/-- The recorded scope fingerprint after activation: an alias of the previous
generation's legacy hash is translated to the logical one. -/
def translatedFingerprint (cfg : Config) (scope : Scope) (previous : Option Publication)
    (fingerprint : Fingerprint) : Fingerprint :=
  match previous with
  | some previous =>
    if scope.key.target.datasetTypeCode.isFileDataset ∧ previous.sourceFingerprint.isSome ∧
        scope.currentSourceFingerprint = previous.sourceFingerprint ∧
        publicationSourceFingerprint cfg previous = fingerprint then fingerprint
    else scope.currentSourceFingerprint
  | none => scope.currentSourceFingerprint

/-- Revoke the grants of the current publication and supersede it. -/
def supersedeCurrent (env : Env) (scope : Scope) : Service Unit := do
  match scope.currentPublishedPublication with
  | none => pure ()
  | some previousId =>
    let db ← Tx.get
    let previous ← Tx.require (db.publications.find previousId) .doesNotExist
    Tx.modify fun db => db.revokePublicationDatasetKeyGrants env.now previousId previous
    Tx.modify fun db => db.modifyPublication previousId fun row => { row with status := .superseded }

/-- What a finalization stores on the attempt it publishes. -/
structure FinishedBuild where
  summary : Summary
  changeSummary : ChangeSummary
  artifact : Option ArtifactMetadata
  fingerprint : Fingerprint

/-- The columns a successful finalization writes. -/
def Publication.finish (now : Time) (build : FinishedBuild) (supersedes : Option PublicationId)
    (row : Publication) : Publication :=
  { row with
    buildSummary := build.summary
    sourceFingerprint := build.fingerprint
    changeSummary := some build.changeSummary
    artifactStatus := .ready
    artifactReady := true
    artifact := build.artifact.getD row.artifact
    status := .published
    publishedAt := some now
    supersedes := supersedes }

/-- A job whose attempt was published. -/
def Job.succeeded (now : Time) (row : Job) : Job :=
  { row with status := .succeeded, completedAt := some now, heartbeatAt := some now }

/-- Publish a finished attempt and move the scope pointer to it. -/
def activateFinished (cfg : Config) (env : Env) (scopeId : ScopeId) (scope : Scope) (jobId : JobId) (job : Job)
    (id : PublicationId) (publication : Publication) (build : FinishedBuild) : Service Unit := do
  let db ← Tx.get
  let previous := db.currentPublication scope
  supersedeCurrent env scope
  let finish := Publication.finish env.now build scope.currentPublishedPublication
  Tx.ofExcept ((finish publication).clean env.canonical db.documents scope id)
  Tx.ofExcept (guardDocumentGeneration publication build.fingerprint)
  Tx.modify fun db => db.modifyPublication id finish
  let scope := { scope with
    currentSourceFingerprint := translatedFingerprint cfg scope previous build.fingerprint
    latestBuiltPublication := some id
    currentPublishedPublication := some id }
  let db ← Tx.get
  -- A canonical edit can commit while the attempt is building; its dirty window stays.
  let sourceChangedDuringBuild := db.scopeIsDirty cfg scope
  let dirtySince := if sourceChangedDuringBuild then scope.dirtySince.or (some env.now) else none
  Tx.modify fun db => db.modifyScope scopeId fun row =>
    { row with
      latestBuiltPublication := some id
      currentPublishedPublication := some id
      currentSourceFingerprint := scope.currentSourceFingerprint
      dirtySince := dirtySince }
  Tx.modify fun db => db.modifyJob jobId (Job.succeeded env.now)
  Tx.whenever sourceChangedDuringBuild <|
    Tx.modify fun db => db.register (.enqueue job.key.target dirtySince)

/-- The stored summary of the previously built publication, `{}` when there is none. -/
def Db.previousSummary (db : Db) (scope : Scope) : Summary :=
  match scope.latestBuiltPublication.bind db.publications.find with
  | some previous => previous.buildSummary
  | none => []

def finalizePublicationJob (cfg : Config) (env : Env) (jobId : JobId) (summary : Summary)
    (artifact : Option ArtifactMetadata) (given : Fingerprint) : Service JobId :=
  Tx.atomic do
    let db ← Tx.get
    let job ← Tx.require (db.jobs.find jobId) .doesNotExist
    let (scopeId, scope) ← lockedScope job.key.target
    if job.status ≠ .running then
      scheduleArtifactRemoval (artifact.bind (·.path))
      return jobId
    match job.buildPublication with
    | none => failPublicationJob cfg env jobId "Claim did not allocate a publication." "worker"
    | some id =>
      let publication ← Tx.require (db.publications.find id) .doesNotExist
      if publication.status ≠ .building then
        scheduleArtifactRemoval (artifact.bind (·.path))
        return jobId
      let fingerprint := finalFingerprint cfg publication given
      let definition ← Tx.ofExcept (getDatasetDefinition job.key.target.datasetTypeCode)
      Tx.ofExcept (validateSummary cfg definition summary)
      let changeSummary ← Tx.ofExcept (buildChangeSummary definition (db.previousSummary scope) summary)
      if publication.key.target.datasetTypeCode.isFileDataset ∧
          scope.sourceRevision ≠ publication.sourceRevision then
        scheduleArtifactRemoval (artifact.bind (·.path))
        retireStaleFileAttempt cfg env jobId job id publication
        return jobId
      -- An explicit rebuild bypasses only this deduplication.
      if db.finalizeDuplicates cfg scope job fingerprint then
        scheduleArtifactRemoval (artifact.bind (·.path))
        obsoleteDuplicate env scopeId jobId id publication fingerprint
        return jobId
      activateFinished cfg env scopeId scope jobId job id publication
        { summary := summary, changeSummary := changeSummary, artifact := artifact, fingerprint := fingerprint }
      return jobId

/-! ### The stages of `build_claimed_job` -/

/-- What a worker holds in memory after reading its job and attempt. -/
structure LoadedBuild where
  jobId : JobId
  job : Job
  publicationId : PublicationId
  publication : Publication
  snapshot : Snapshot
  deriving DecidableEq

inductive LoadOutcome where
  | notRunning
  | unallocated
  | loaded (build : LoadedBuild)
  deriving DecidableEq

/-- Reads the claimed job and its frozen attempt. -/
def loadBuild (db : Db) (jobId : JobId) : Except Error LoadOutcome := do
  match db.jobs.find jobId with
  | none => throw .doesNotExist
  | some job =>
    if job.status ≠ .running then
      return .notRunning
    match job.buildPublication with
    | none => return .unallocated
    | some id =>
      let _ ← getDatasetDefinition job.key.target.datasetTypeCode
      validateScope job.key.target
      match db.publications.find id with
      | none => throw .doesNotExist
      | some publication =>
        match publication.sourceSnapshot with
        | none => throw (.publicationBuildError "Frozen publication source is unavailable.")
        | some snapshot => return .loaded ⟨jobId, job, id, publication, snapshot⟩

/-- File datasets are summarized from the frozen snapshot, the others from their tables. -/
def LoadedBuild.summarize (cfg : Config) (env : Env) (build : LoadedBuild) : Except Error Summary :=
  match build.publication.key.target.datasetTypeCode.isFileDataset, build.snapshot with
  | true, .fileLibrary s => .ok (librarySummary s build.publication.sourceRevision)
  | true, _ => .error (.valueError "Frozen file library is unavailable.")
  | false, _ => do
    let definition ← getDatasetDefinition build.job.key.target.datasetTypeCode
    buildSummary cfg env definition build.job.key.target build.job.sourceRevision

/-- The publication-level ciphertext of a dataset that has one. -/
def LoadedBuild.sealArtifact (cfg : Config) (crypto : Crypto) (env : Env) (worker : WorkerEnv)
    (build : LoadedBuild) : Except Error ArtifactMetadata := do
  let definition ← getDatasetDefinition build.job.key.target.datasetTypeCode
  let plaintext ← buildArtifact cfg env definition build.job.key.target build.job.sourceRevision build.snapshot
  buildEncryptedArtifact cfg crypto worker build.publicationId build.publication plaintext

/-- Encryption and signing failures of a generation are build failures. -/
def documentBuildError : Error → Error
  | .documentV2Error _ | .keyGrantError _ | .invalidUnwrap =>
    .publicationBuildError "Document encryption or signing failed."
  | e => e

/-- Build the generation of an attempt in one transaction, unless it is no longer building. -/
def sealDocuments (cfg : Config) (crypto : Crypto) (env : Env) (worker : WorkerEnv) (id : PublicationId) :
    Service Bool :=
  Tx.mapError documentBuildError <| Tx.atomic do
    let db ← Tx.get
    let publication ← Tx.require (db.publications.find id) .doesNotExist
    if publication.status ≠ .building then
      return false
    let documents ← Tx.ofExcept
      (buildDocumentV2Generation cfg crypto worker env.canonical db.documents id publication)
    let documents ← Tx.ofExcept
      (buildDocumentV2Manifest cfg crypto worker env.canonical documents id publication)
    Tx.modify fun db => { db with documents := documents }
    return true

/-- A generation that lost its job is released again. -/
def releaseAbandonedGeneration (jobId : JobId) (id : PublicationId) : Service Unit :=
  Tx.atomic do
    let db ← Tx.get
    match db.publications.find id with
    | none => pure ()
    | some publication =>
      Tx.whenever (db.buildIsStillRunning jobId = false ∧ publication.status.isReleasable) <|
        releaseTerminalDocumentArtifactReferences id publication

/-- What a sealed build hands to its finalization. -/
inductive Sealed where
  | abandoned
  | generation
  | artifact (metadata : ArtifactMetadata)
  deriving DecidableEq

/-- The artifact columns a finalization receives; document generations have none. -/
def Sealed.metadata? : Sealed → Option ArtifactMetadata
  | .artifact metadata => some metadata
  | _ => none

/-- Document generations have no publication-level companion artifact. -/
def sealBuild (cfg : Config) (crypto : Crypto) (env : Env) (worker : WorkerEnv) (build : LoadedBuild) :
    Service Sealed := do
  if build.publication.isDocumentV2 then
    if ← sealDocuments cfg crypto env worker build.publicationId then
      releaseAbandonedGeneration build.jobId build.publicationId
      return .generation
    return .abandoned
  return .artifact (← Tx.ofExcept (build.sealArtifact cfg crypto env worker))

/-- How `build_claimed_job` reports an exception; `none` propagates to the process. -/
def buildFailure : Error → Option (String × String)
  | .datasetRegistryError message | .publicationBuildError message | .publicationError message
  | .artifactError message => some (message, "build")
  | .validationError _ => some ("Publication metadata is invalid.", "validation")
  -- Only the publication closeout triggers raise this error in the model.
  | .databaseError _ => some ("Publication could not be finalized.", "finalization")
  | _ => none

/-- Everything `build_claimed_job` does inside its `try`. -/
def tryBuild (cfg : Config) (crypto : Crypto) (env : Env) (worker : WorkerEnv) (jobId : JobId) :
    Service JobId := do
  let db ← Tx.get
  match ← Tx.ofExcept (loadBuild db jobId) with
  | .notRunning => return jobId
  | .unallocated => failPublicationJob cfg env jobId "Claim did not allocate a publication." "worker"
  | .loaded build =>
    let summary ← Tx.ofExcept (build.summarize cfg env)
    let db ← Tx.get
    if ¬db.buildIsStillRunning jobId then
      return jobId
    let result ← sealBuild cfg crypto env worker build
    let db ← Tx.get
    if result = .abandoned ∨ ¬db.buildIsStillRunning jobId then
      return jobId
    finalizePublicationJob cfg env jobId summary result.metadata? build.publication.sourceFingerprint

/-- Build outside locks, then atomically finalize; a reported failure fails the job. -/
def buildClaimedJob (cfg : Config) (crypto : Crypto) (env : Env) (worker : WorkerEnv) (jobId : JobId) :
    Service JobId := fun db =>
  match tryBuild cfg crypto env worker jobId db with
  | (.ok id, db') => (.ok id, db')
  | (.error e, db') =>
    match buildFailure e with
    | some (message, category) => failPublicationJob cfg env jobId message category db'
    | none => (.error e, db')

end FireDash.Publications
