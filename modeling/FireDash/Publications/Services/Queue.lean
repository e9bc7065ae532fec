import FireDash.Publications.Services.Scopes

/-! The job queue: dirty marks, coalescing enqueue, claims and heartbeats. -/
namespace FireDash.Publications

def minute : ℕ := 60 * 1000000
def day : ℕ := 24 * 60 * minute

/-- Schedule coalesced source changes for the next nightly build window, 00:05. -/
def dataChangeNotBefore (now : Time) : Time :=
  let midnight := now - now % day
  if 5 * minute ≤ now % day then midnight + 5 * minute + day else midnight + 5 * minute

/-- The arguments of `enqueue_publication_job`. -/
structure EnqueueRequest where
  target : Target
  requestedBy : Option Actor := none
  triggerType : TriggerType := .dataChange
  debounceStartedAt : Option Time := none
  allowCleanRebuild : Bool := false
  source : Option (Snapshot × Digest) := none

/-- Coalesce an existing pending job to the latest source revision. -/
def Job.coalesce (now : Time) (request : EnqueueRequest) (sourceRevision : ℕ) (job : Job) : Job :=
  { job with
    sourceRevision := sourceRevision
    allowCleanRebuild := job.allowCleanRebuild || request.allowCleanRebuild
    triggerType := if request.triggerType.isExplicit then request.triggerType else job.triggerType
    requestedBy := if request.triggerType.isExplicit then request.requestedBy else job.requestedBy
    notBefore :=
      -- An explicit rebuild makes any pending work immediately eligible.
      if request.triggerType.isExplicit then some now
      else if job.triggerType = .dataChange then some (dataChangeNotBefore now)
      else job.notBefore }

/-- The job an enqueue creates when the scope has no active one. -/
def EnqueueRequest.newJob (request : EnqueueRequest) (now : Time) (key : ScopeKey) (scopeId : ScopeId)
    (sourceRevision : ℕ) : Job :=
  { key := key
    scopeState := scopeId
    sourceRevision := sourceRevision
    requestedBy := request.requestedBy
    triggerType := request.triggerType
    allowCleanRebuild := request.allowCleanRebuild
    createdAt := now
    debounceStartedAt := if request.triggerType = .dataChange then request.debounceStartedAt.or (some now) else none
    notBefore := some (if request.triggerType = .dataChange then dataChangeNotBefore now else now) }

/-- The source an enqueue works on: the caller's, or a read that refreshes the scope. -/
def enqueueSource (cfg : Config) (env : Env) (id : ScopeId) (scope : Scope) (source : Option (Snapshot × Digest)) :
    Service (Snapshot × Digest × Scope) := do
  match source with
  | some (snapshot, fingerprint) => return (snapshot, fingerprint, scope)
  | none =>
    let (snapshot, fingerprint, scope) ← currentSourceState cfg env id scope
    let db ← Tx.get
    let stored := db.storedSourceFingerprint cfg scope fingerprint
    Tx.whenever (scope.currentSourceFingerprint ≠ stored) <|
      Tx.modify fun db => db.modifyScope id fun row => { row with currentSourceFingerprint := stored }
    return (snapshot, fingerprint, { scope with currentSourceFingerprint := stored })

/-- Rewrite a pending job and keep its staged attempt aligned with the final build input. -/
def coalesceJob (env : Env) (request : EnqueueRequest) (jobId : JobId) (active : Job) (scope : Scope)
    (snapshot : Snapshot) (fingerprint : Digest) : Service Unit := do
  Tx.modify fun db => db.modifyJob jobId (Job.coalesce env.now request scope.sourceRevision)
  match active.buildPublication with
  | none => pure ()
  | some id =>
    let db ← Tx.get
    Tx.whenever (∃ p ∈ db.publications.find id, p.status = .staged) <|
      Tx.modify fun db => db.modifyPublication id fun row =>
        { row with
          sourceRevision := scope.sourceRevision
          sourceFingerprint := some fingerprint
          sourceSnapshot := some snapshot }

/-- Link a job to the attempt it builds. -/
def Job.link (id : PublicationId) (job : Job) : Job := { job with buildPublication := some id }

/-- Create a pending job together with its staged attempt. -/
def createJob (env : Env) (request : EnqueueRequest) (scopeId : ScopeId) (scope : Scope)
    (snapshot : Snapshot) (fingerprint : Digest) : Service JobId := do
  let key ← Tx.ofExcept (scopeFilter request.target)
  let job := request.newJob env.now key scopeId scope.sourceRevision
  let _ ← Tx.ofExcept (cleanKey key "Station must belong to the job department.")
  let db ← Tx.get
  let jobId := db.jobs.nextId
  Tx.modify fun db => { db with jobs := db.jobs.insert job }
  let (publicationId, _) ← allocateStagedPublication env scopeId key scope.sourceRevision request.requestedBy
    fingerprint snapshot
  Tx.modify fun db => db.modifyJob jobId (Job.link publicationId)
  return jobId

/-- Reconcile a clean source, coalesce a pending job, leave a running one, or create. -/
def enqueueDecision (cfg : Config) (env : Env) (request : EnqueueRequest) (id : ScopeId) (scope : Scope)
    (snapshot : Snapshot) (fingerprint : Digest) : Service (Option JobId) := do
  let db ← Tx.get
  if request.allowCleanRebuild = false ∧ db.scopeIsDirty cfg scope (some fingerprint) = false then
    let _ ← reconcileCleanSource cfg env id scope fingerprint
    return none
  match db.activeJobWithKey scope.key with
  | some (jobId, active) =>
    if active.status = .running then
      return none
    coalesceJob env request jobId active scope snapshot fingerprint
    return some jobId
  | none => return some (← createJob env request id scope snapshot fingerprint)

def enqueuePublicationJob (cfg : Config) (env : Env) (request : EnqueueRequest) : Service (Option JobId) :=
  Tx.atomic do
    Tx.ofExcept (validateScope request.target)
    let (id, scope) ← lockedScope request.target
    let (snapshot, fingerprint, scope) ← enqueueSource cfg env id scope request.source
    enqueueDecision cfg env request id scope snapshot fingerprint

/-- The scope row of a key, created on first use. -/
def scopeOrNew (key : ScopeKey) : Service (ScopeId × Scope) := do
  let db ← Tx.get
  match db.scopeWithKey key with
  | some found => return found
  | none =>
    let _ ← Tx.ofExcept (cleanKey key "Station must belong to the scope department.")
    let scope : Scope := { key := key }
    Tx.modify fun db => { db with scopes := db.scopes.insert scope }
    return (db.scopes.nextId, scope)

/-- Advance a scope revision and queue exactly one build for a changed source. -/
def markDirty (cfg : Config) (env : Env) (target : Target) (actor : Option Actor) : Service ScopeId :=
  Tx.atomic do
    Tx.ofExcept (validateScope target)
    Tx.ofExcept (lockFileScope target)
    let key ← Tx.ofExcept (scopeFilter target)
    let (id, scope) ← scopeOrNew key
    let (snapshot, fingerprint, scope) ←
      currentSourceState cfg env id { scope with sourceRevision := scope.sourceRevision + 1 }
    let db ← Tx.get
    let scope := { scope with currentSourceFingerprint := db.storedSourceFingerprint cfg scope fingerprint }
    if db.scopeIsDirty cfg scope (some fingerprint) then
      Tx.modify fun db => db.modifyScope id fun row =>
        { row with
          sourceRevision := scope.sourceRevision
          currentSourceFingerprint := scope.currentSourceFingerprint
          dirtySince := scope.dirtySince.or (some env.now) }
      -- The nested call shares the held scope lock and the already computed source.
      let _ ← enqueuePublicationJob cfg env
        { target := target, requestedBy := actor, source := some (snapshot, fingerprint) }
      return id
    let (_, scope) ← reconcileCleanSource cfg env id scope fingerprint
    Tx.modify fun db => db.modifyScope id fun row =>
      { row with
        sourceRevision := scope.sourceRevision
        currentSourceFingerprint := scope.currentSourceFingerprint
        dirtySince := scope.dirtySince }
    return id

/-- Hold the bytes of one frozen library document. -/
def pinContent (env : Env) (id : PublicationId) (library : ℕ) (entry : FileRecord × ℕ) : Service Unit := do
  let content ← Tx.require
    ((env.canonical.libraries.flatMap fun l => l.entries.filterMap (·.content)).find? fun c =>
      c.id = entry.2 ∧ c.library = library) .doesNotExist
  Tx.modify fun db => { db with documents :=
    { db.documents with contents := db.documents.contents ++ [⟨id, content, entry.1.id⟩] } }

/-- `pin_source`: hold the library bytes a frozen snapshot names. -/
def pinSource (env : Env) (id : PublicationId) (snapshot : LibrarySnapshot) : Service Unit :=
  Tx.forEach (pinContent env id snapshot.library.id) snapshot.documents

/-- The attempt a claimed job builds; pending jobs of an earlier release have none yet. -/
def claimedPublication (env : Env) (scopeId : ScopeId) (job : Job) (sourceRevision : ℕ) (fingerprint : Digest)
    (snapshot : Snapshot) : Service (Option (PublicationId × Publication)) := do
  match job.buildPublication with
  | some id =>
    let db ← Tx.get
    return (db.publications.find id).map fun p => (id, p)
  | none =>
    return some (← allocateStagedPublication env scopeId job.key sourceRevision job.requestedBy
      fingerprint snapshot)

/-- The attempt takes the source it is built from. -/
def Publication.freeze (sourceRevision : ℕ) (snapshot : Snapshot) (fingerprint : Digest) (row : Publication) :
    Publication :=
  { row with
    sourceRevision := sourceRevision
    sourceSnapshot := some snapshot
    sourceFingerprint := some fingerprint
    status := .building }

/-- The job runs and owns its attempt. -/
def Job.start (now : Time) (sourceRevision : ℕ) (id : PublicationId) (row : Job) : Job :=
  { row with
    status := .running
    startedAt := some now
    heartbeatAt := some now
    sourceRevision := sourceRevision
    attemptCount := row.attemptCount + 1
    buildPublication := some id
    errorCategory := ""
    errorMessage := "" }

/-- The mutable-candidate freeze boundary: `STAGED` becomes `BUILDING` and the job runs. -/
def freezeAttempt (env : Env) (jobId : JobId) (id : PublicationId) (scope : Scope) (snapshot : Snapshot)
    (fingerprint : Digest) : Service Unit := do
  Tx.modify fun db => db.modifyPublication id (Publication.freeze scope.sourceRevision snapshot fingerprint)
  match scope.key.target.datasetTypeCode.isFileDataset, snapshot with
  | true, .fileLibrary s => pinSource env id s
  | _, _ => pure ()
  Tx.modify fun db => db.modifyJob jobId (Job.start env.now scope.sourceRevision id)

/-- Close a job that has nothing left to build. -/
def Job.obsoleted (now : Time) (row : Job) : Job :=
  { row with status := .obsolete, completedAt := some now }

/-- A file job that does not force a rebuild is given up when its source is clean. -/
def claimFindsClean (cfg : Config) (env : Env) (id : ScopeId) (scope : Scope) (job : Job)
    (fingerprint : Digest) : Service Bool := do
  if scope.key.target.datasetTypeCode.isFileDataset ∧ job.allowCleanRebuild = false then
    let (clean, _) ← reconcileCleanSource cfg env id scope fingerprint
    return clean
  return false

/-- One claim attempt. `none` leaves the candidate to somebody else; the returned job is
running, failed for its registry entry, or obsolete. -/
def claimJob (cfg : Config) (env : Env) (candidate : JobId) : Service (Option JobId) :=
  Tx.atomic do
    let db ← Tx.get
    let preview ← Tx.require (db.jobs.find candidate) .doesNotExist
    let (id, scope) ← lockedScope preview.key.target
    if preview.status ≠ .pending then
      return none
    match getDatasetDefinition preview.key.target.datasetTypeCode with
    | .error _ =>
      Tx.modify fun db => db.modifyJob candidate fun row =>
        { row with
          status := .failed
          completedAt := some env.now
          errorCategory := "registry"
          errorMessage := "Unknown dataset type code." }
      return some candidate
    | .ok _ =>
      -- One current source read serves both a legacy allocation and the freeze.
      let (snapshot, fingerprint, scope) ← currentSourceState cfg env id scope
      let db ← Tx.get
      let stored := db.storedSourceFingerprint cfg scope fingerprint
      Tx.whenever (scope.currentSourceFingerprint ≠ stored) <|
        Tx.modify fun db => db.modifyScope id fun row => { row with currentSourceFingerprint := stored }
      let scope := { scope with currentSourceFingerprint := stored }
      if ← claimFindsClean cfg env id scope preview fingerprint then
        return none
      match ← claimedPublication env id preview scope.sourceRevision fingerprint snapshot with
      | some (publicationId, publication) =>
        if publication.status = .staged then
          freezeAttempt env candidate publicationId scope snapshot fingerprint
          return some candidate
        Tx.modify fun db => db.modifyJob candidate (Job.obsoleted env.now)
        return some candidate
      | none =>
        Tx.modify fun db => db.modifyJob candidate (Job.obsoleted env.now)
        return some candidate

/-- Whether a job is pending and its `not_before` has passed. -/
def Job.due (now : Time) (job : Job) : Bool :=
  job.status = .pending ∧ ∀ t ∈ job.notBefore, t ≤ now

/-- Due jobs, oldest first. -/
def Db.dueJobs (db : Db) (now : Time) : List (JobId × Job) := db.jobsByCreation (·.due now)

/-- Try the candidates in turn. Each attempt has its own transaction. -/
def claimFirst (cfg : Config) (env : Env) : List JobId → Service (Option JobId)
  | [] => pure none
  | candidate :: rest => do
    match ← claimJob cfg env candidate with
    | some job => return some job
    | none => claimFirst cfg env rest

def claimNextJob (cfg : Config) (env : Env) : Service (Option JobId) := do
  let db ← Tx.get
  claimFirst cfg env ((db.dueJobs env.now).map Prod.fst)

def heartbeatJob (env : Env) (jobId : JobId) : Service Bool :=
  Tx.atomic do
    let db ← Tx.get
    match db.jobs.find jobId with
    | none => return false
    | some job =>
      if job.status ≠ .running then
        return false
      Tx.modify fun db => db.modifyJob jobId fun row => { row with heartbeatAt := some env.now }
      return true

end FireDash.Publications
