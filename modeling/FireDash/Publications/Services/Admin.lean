import FireDash.Publications.Services.Build

/-! Administrator operations: review, rebuild requests, staging, cancellation, rollback
and deletion. -/
namespace FireDash.Publications

/-- The row an administrator call names, when the actor may manage its scope. -/
def managedPublication (env : Env) (actor : Actor) (id : PublicationId) : Service Publication := do
  let db ← Tx.get
  let publication ← Tx.require (db.publications.find id) .doesNotExist
  Tx.ofExcept (requirePublicationScope env actor publication.key.target)
  return publication

/-- Make a publication the current one of its scope and record who did it. -/
def switchCurrent (actor : Actor) (scopeId : ScopeId) (scope : Scope) (id : PublicationId)
    (action : ActivationAction) (publish : Publication → Publication) : Service Unit := do
  Tx.modify fun db => db.modifyPublication id publish
  Tx.modify fun db => db.modifyScope scopeId fun row => { row with currentPublishedPublication := some id }
  let activation : Activation :=
    { publication := id
      scopeState := scopeId
      previousPublication := scope.currentPublishedPublication
      action := action
      activatedBy := actor }
  Tx.modify fun db => { db with activations := db.activations.insert activation }

/-- A review-ready attempt an administrator published. -/
def Publication.reviewed (now : Time) (actor : Actor) (supersedes : Option PublicationId) (row : Publication) :
    Publication :=
  { row with
    status := .published
    publishedAt := some now
    publishedBy := some actor
    supersedes := supersedes }

def publishPublication (env : Env) (actor : Actor) (id : PublicationId) : Service Unit :=
  Tx.atomic do
    let publication ← managedPublication env actor id
    Tx.ensure (publication.status = .readyForReview)
      (.publicationError "Only a review-ready publication can be published.")
    Tx.ofExcept (validateScope publication.key.target)
    Tx.ensure (publication.artifactStatus = .ready) (.publicationError "Publication artifact is not ready.")
    let (scopeId, scope) ← lockedScope publication.key.target
    let definition ← Tx.ofExcept (getDatasetDefinition publication.key.target.datasetTypeCode)
    let db ← Tx.get
    Tx.whenever (definition.artifactFormat = .documentManifestV2) do
      let reason ← Tx.ofExcept
        (publicationRestoreBlockedReason env.canonical db.documents id publication scopeId scope false)
      Tx.ensure (reason = none) (.publicationError (reason.getD ""))
    Tx.ensure (¬(publication.key.target.datasetTypeCode.isFileDataset ∧
        scope.sourceRevision ≠ publication.sourceRevision))
      (.publicationError "Publication source revision changed; build the current source.")
    supersedeCurrent env scope
    switchCurrent actor scopeId scope id .publish
      (Publication.reviewed env.now actor scope.currentPublishedPublication)

def rejectPublication (env : Env) (actor : Actor) (id : PublicationId) : Service Unit :=
  Tx.atomic do
    let publication ← managedPublication env actor id
    Tx.ensure (publication.status = .readyForReview)
      (.publicationError "Only a review-ready publication can be rejected.")
    Tx.ofExcept (validateScope publication.key.target)
    Tx.modify fun db => db.modifyPublication id fun row => { row with status := .rejected }

/-- An attempt is queued, building or awaiting review. -/
def Db.attemptInProgress (db : Db) (scopeId : ScopeId) : Bool :=
  db.jobs.any (fun job => job.scopeState = scopeId ∧ job.status.isActive) ||
    db.publications.any fun p => p.scopeState = scopeId ∧
      (p.status = .staged ∨ p.status = .building ∨ p.status = .readyForReview)

/-- A source failure of a requested rebuild is reported as a publication error. -/
def rebuildError : Error → Error
  | .publicationBuildError message => .publicationError s!"Rebuild source is unavailable: {message}"
  | e => e

def requestRebuild (cfg : Config) (env : Env) (actor : Actor) (target : Target) : Service ScopeId :=
  Tx.atomic do
    Tx.ofExcept (requirePublicationScope env actor target)
    Tx.ofExcept (validateScope target)
    Tx.ofExcept (lockFileScope target)
    let key ← Tx.ofExcept (scopeFilter target)
    let (id, _) ← scopeOrNew key
    let db ← Tx.get
    Tx.ensure (db.attemptInProgress id = false) (.publicationError
      "Rebuild unavailable while another publication attempt is queued, building or awaiting review.")
    let _ ← Tx.mapError rebuildError <| enqueuePublicationJob cfg env
      { target := target, requestedBy := some actor, triggerType := .userRequest, allowCleanRebuild := true }
    Tx.modify fun db => db.register .wakeWorker
    return id

/-- A file scope whose source turns out clean needs no update. -/
def stageFindsClean (cfg : Config) (env : Env) (id : ScopeId) (scope : Scope) : Service (Bool × Scope) := do
  if scope.key.target.datasetTypeCode.isFileDataset then
    let (_, fingerprint, scope) ← currentSourceState cfg env id scope
    reconcileCleanSource cfg env id scope fingerprint
  else
    return (false, scope)

/-- Create one new staged attempt only for logically unpublished source content. -/
def stagePublicationUpdate (cfg : Config) (env : Env) (actor : Actor) (target : Target) : Service ScopeId :=
  Tx.atomic do
    Tx.ofExcept (requirePublicationScope env actor target)
    Tx.ofExcept (validateScope target)
    let (id, scope) ← lockedScope target
    let (clean, scope) ← stageFindsClean cfg env id scope
    if clean then
      return id
    let db ← Tx.get
    Tx.ensure (db.scopeIsDirty cfg scope) (.publicationError "This dataset scope has no unpublished changes.")
    Tx.ensure (¬db.jobs.any fun job => job.scopeState = id ∧ job.status.isActive)
      (.publicationError "A publication update is already staged or building.")
    let queued ← enqueuePublicationJob cfg env { target := target, requestedBy := some actor }
    Tx.ensure queued.isSome (.publicationError "This dataset scope has no unpublished changes.")
    return id

/-- A staged file attempt whose source turns out clean is reconciled instead of built. -/
def stagedFindsClean (cfg : Config) (env : Env) (id : ScopeId) (scope : Scope) (job : Job) : Service Bool := do
  if scope.key.target.datasetTypeCode.isFileDataset then
    let db ← Tx.get
    Tx.ensure (¬db.jobs.any fun job => job.scopeState = id ∧ job.status = .running)
      (.publicationError "A publication is already building.")
    let (_, fingerprint) ← Tx.ofExcept (currentSource cfg env scope.key.target)
    if job.allowCleanRebuild then
      return false
    let (clean, _) ← reconcileCleanSource cfg env id scope fingerprint
    return clean
  else
    return false

/-- Promote exactly the existing staged attempt; never allocate another version. -/
def buildStagedPublication (cfg : Config) (env : Env) (actor : Actor) (scopeId : ScopeId) : Service JobId :=
  Tx.atomic do
    let db ← Tx.get
    let given ← Tx.require (db.scopes.find scopeId) .doesNotExist
    Tx.ofExcept (requirePublicationScope env actor given.key.target)
    let (id, scope) ← lockedScope given.key.target
    let (jobId, job) ← Tx.require
      (db.jobsByCreation fun job => job.scopeState = id ∧ job.status = .pending).head?
      (.publicationError "No staged publication is available to build.")
    let publicationId ← Tx.require job.buildPublication
      (.publicationError "No staged publication is available to build.")
    Tx.ensure (∃ p ∈ db.publications.find publicationId, p.status = .staged)
      (.publicationError "Only a staged publication can be built now.")
    if ← stagedFindsClean cfg env id scope job then
      return jobId
    Tx.modify fun db => db.modifyJob jobId fun row =>
      { row with triggerType := .userRequest, notBefore := some env.now, requestedBy := some actor }
    Tx.modify fun db => db.register .wakeWorker
    return jobId

/-- Terminalize one unstarted attempt while preserving its immutable identity. -/
def deleteStagedPublication (cfg : Config) (env : Env) (actor : Actor) (id : PublicationId) : Service Unit :=
  Tx.atomic do
    let candidate ← managedPublication env actor id
    let (scopeId, scope) ← lockedScope candidate.key.target
    let db ← Tx.get
    let job := db.latestBuildJob id
    Tx.ensure (candidate.scopeState = scopeId ∧ candidate.status = .staged)
      (.publicationError "Only a staged publication can be deleted.")
    Tx.ensure (∀ e ∈ job, e.2.status = .pending)
      (.publicationError "A started publication build must be cancelled instead.")
    Tx.modify fun db => db.modifyPublication id fun row => { row with status := .cancelled }
    match job with
    | some (jobId, _) =>
      Tx.modify fun db => db.modifyJob jobId fun row =>
        { row with status := .cancelled, completedAt := some env.now }
    | none => pure ()
    Tx.whenever candidate.key.target.datasetTypeCode.isFileDataset do
      let (_, fingerprint, scope) ← currentSourceState cfg env scopeId scope
      let _ ← reconcileCleanSource cfg env scopeId scope fingerprint

/-- A running attempt an administrator gave up. -/
def Publication.cancelled (row : Publication) : Publication :=
  { row with status := .cancelled, buildError := "Build cancelled by an administrator." }

def Job.cancelledBuild (now : Time) (row : Job) : Job :=
  { row with
    status := .cancelled
    completedAt := some now
    errorCategory := "cancelled"
    errorMessage := "Build cancelled by an administrator." }

/-- Authoritatively cancel a running attempt; the worker observes this at closeout. -/
def cancelPublicationBuild (env : Env) (actor : Actor) (id : PublicationId) : Service Unit :=
  Tx.atomic do
    let candidate ← managedPublication env actor id
    let (scopeId, _) ← lockedScope candidate.key.target
    let db ← Tx.get
    let (jobId, job) ← Tx.require (db.latestBuildJob id)
      (.publicationError "Publication has no build job to cancel.")
    Tx.ensure (candidate.scopeState = scopeId ∧ job.status = .running)
      (.publicationError "Only a building publication can be cancelled.")
    Tx.ensure (candidate.status = .building)
      (.publicationError "Only a building publication can be cancelled.")
    Tx.modify fun db => db.modifyPublication id Publication.cancelled
    releaseTerminalDocumentArtifactReferences id candidate.cancelled
    Tx.modify fun db => db.modifyJob jobId (Job.cancelledBuild env.now)
    scheduleArtifactRemoval candidate.artifact.path

/-- A version that is current again. -/
def Publication.reactivated (now : Time) (actor : Actor) (row : Publication) : Publication :=
  { row with status := .published, publishedAt := some now, publishedBy := some actor }

/-- Re-activate an existing version. -/
def activatePublication (env : Env) (actor : Actor) (scopeId : ScopeId) (scope : Scope)
    (target : PublicationId) : Service Unit := do
  Tx.whenever (scope.currentPublishedPublication ≠ some target) (supersedeCurrent env scope)
  switchCurrent actor scopeId scope target .rollback (Publication.reactivated env.now actor)

def rollbackPublication (env : Env) (actor : Actor) (id : PublicationId) : Service Unit :=
  Tx.atomic do
    let publication ← managedPublication env actor id
    Tx.ofExcept (validateScope publication.key.target)
    let (scopeId, scope) ← lockedScope publication.key.target
    let db ← Tx.get
    let reason ← Tx.ofExcept
      (publicationRestoreBlockedReason env.canonical db.documents id publication scopeId scope true)
    Tx.ensure (reason = none) (.publicationError (reason.getD ""))
    let previous ← Tx.require (db.currentPublication scope)
      (.publicationError "Dataset scope has no current publication.")
    Tx.ensure (db.newerLiveAttemptExists scopeId previous.versionNumber = false)
      (.publicationError "Rollback is unavailable while a newer attempt is staged or building.")
    activatePublication env actor scopeId scope id

/-- Hand the scope over to the newest safe predecessor of its active publication. -/
def activatePredecessor (env : Env) (actor : Actor) (scopeId : ScopeId) (scope : Scope) (id : PublicationId)
    (candidate : Publication) : Service Unit := do
  Tx.ensure (scope.currentPublishedPublication = some id)
    (.publicationError "Publication is not the authoritative active publication.")
  let db ← Tx.get
  Tx.ensure (db.newerLiveAttemptExists scopeId candidate.versionNumber = false) (.publicationError
    "Active deletion is unavailable while a newer attempt is staged or building.")
  let found ← Tx.ofExcept (db.eligiblePredecessor env.canonical scopeId scope candidate.versionNumber)
  let (predecessor, _) ← Tx.require found
    (.publicationError "Active publication has no safe predecessor to activate.")
  activatePublication env actor scopeId scope predecessor

/-- A retired attempt is no longer the latest built one. -/
def Scope.forgetBuilt (id : PublicationId) (row : Scope) : Scope :=
  if row.latestBuiltPublication = some id then
    { row with latestBuiltPublication := row.currentPublishedPublication }
  else row

/-- Retire a successful attempt: its row and version stay, its payload goes. -/
def retirePublication (env : Env) (scopeId : ScopeId) (id : PublicationId) (publication : Publication) :
    Service Unit := do
  Tx.modify fun db => db.revokePublicationDatasetKeyGrants env.now id publication
  Tx.modify fun db => db.modifyPublication id Publication.obsoleted
  releaseTerminalDocumentArtifactReferences id publication.obsoleted
  Tx.modify fun db => db.modifyScope scopeId (Scope.forgetBuilt id)
  scheduleArtifactRemoval publication.artifact.path

/-- Retire an immutable attempt, retaining its row and consuming its version. -/
def deletePublication (env : Env) (actor : Actor) (id : PublicationId) : Service Unit :=
  Tx.atomic do
    let candidate ← managedPublication env actor id
    Tx.ofExcept (validateScope candidate.key.target)
    let (scopeId, scope) ← lockedScope candidate.key.target
    Tx.ensure (candidate.scopeState = scopeId)
      (.publicationError "Publication is outside this dataset scope.")
    if candidate.status = .published then
      activatePredecessor env actor scopeId scope id candidate
    else
      Tx.ensure (candidate.status = .superseded)
        (.publicationError "Only active or superseded successful publications can be deleted.")
    retirePublication env scopeId id candidate

/-- Promote or create one immediate bulk intent for a scope that needs attention. -/
def bulkRequestScope (cfg : Config) (env : Env) (actor : Actor) (department : DepartmentId)
    (running : List ScopeId) (e : ScopeId × Scope) : Service Bool := do
  let db ← Tx.get
  if e.1 ∈ running ∨ (db.scopeIsDirty cfg e.2 = false ∧ e.2.latestBuiltPublication.isSome) then
    return false
  let queued ← enqueuePublicationJob cfg env
    { target := ⟨some department, e.2.key.target.station, e.2.key.target.datasetTypeCode⟩
      requestedBy := some actor
      triggerType := .bulkRequest }
  return queued.isSome

/-- The number of jobs created or promoted over a list of scopes. -/
def bulkRequestScopes (cfg : Config) (env : Env) (actor : Actor) (department : DepartmentId)
    (running : List ScopeId) : List (ScopeId × Scope) → Service ℕ
  | [] => pure 0
  | e :: rest => do
    let queued ← bulkRequestScope cfg env actor department running e
    let requested ← bulkRequestScopes cfg env actor department running rest
    return if queued then requested + 1 else requested

def bulkRequestRebuilds (cfg : Config) (env : Env) (actor : Actor) (department : DepartmentId) :
    Service ℕ :=
  Tx.atomic do
    Tx.ensure (env.isDepartmentAdmin actor department) .permissionDenied
    let db ← Tx.get
    let running := (db.jobs.filter fun job =>
      job.key.target.department = some department ∧ job.status = .running).map (·.2.scopeState)
    let requested ← bulkRequestScopes cfg env actor department running
      (db.scopes.filter fun scope => scope.key.target.department = some department)
    Tx.whenever (0 < requested) <|
      Tx.modify fun db => db.register .wakeWorker
    return requested

end FireDash.Publications
