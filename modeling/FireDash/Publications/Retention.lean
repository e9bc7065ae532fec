import FireDash.Publications.Services.Admin

/-! Bounded, lifecycle-safe payload retention: candidate discovery, the recheck of one
candidate under the scope lock, and the pass over all of them. -/
namespace FireDash.Publications

inductive RetentionOutcome where
  | skipped
  | obsoleted
  | snapshotPurged
  deriving DecidableEq

/-- A superseded version with a ready artifact. -/
def Publication.isReadyPredecessor (publication : Publication) : Bool :=
  publication.status = .superseded ∧ publication.artifactStatus = .ready ∧ publication.artifactReady

/-- The row number of a ready predecessor in its scope, newest first. -/
def Db.predecessorRank (db : Db) (publication : Publication) : ℕ :=
  (db.publications.filter fun p => p.isReadyPredecessor ∧ p.scopeState = publication.scopeState ∧
    publication.versionNumber < p.versionNumber).length + 1

/-- Ready-ranked predecessors under the default policy, over all scopes at once. -/
def retainedPredecessorIds (cfg : Config) (db : Db) : List PublicationId :=
  ((db.publications.filter Publication.isReadyPredecessor).filter fun e =>
    db.predecessorRank e.2 ≤ cfg.retainedRollbackPredecessors).map Prod.fst

/-- `order_by("created_at", "pk")`. -/
def byCreation (rows : List (PublicationId × Publication)) : List (PublicationId × Publication) :=
  rows.insertionSort fun a b => a.2.createdAt < b.2.createdAt ∨ a.2.createdAt = b.2.createdAt ∧ a.1 ≤ b.1

/-- The superseded rows of one scope outside the restorable ones, up to the rest of the limit. -/
def restoreAwareCandidates (cfg : Config) (canonical : Canonical) (db : Db) (limit : ℕ) :
    List PublicationId → List (ScopeId × Scope) → Except Error (List PublicationId)
  | found, [] => .ok found
  | found, (scopeId, scope) :: rest => do
    let kept ← selectRestorablePredecessors canonical db scopeId scope cfg.retainedRollbackPredecessors
    let rows := (db.publications.filter fun p => p.scopeState = scopeId ∧ p.status = .superseded).filter
      fun e => e.1 ∉ kept.map Prod.fst
    let found := found ++ ((byCreation rows).map Prod.fst).take (limit - found.length)
    if found.length = limit then
      return found
    restoreAwareCandidates cfg canonical db limit found rest

/-- The superseded half of the discovery. -/
def supersededCandidateIds (cfg : Config) (canonical : Canonical) (db : Db) (limit : ℕ) :
    Except Error (List PublicationId) :=
  if cfg.retentionRestoreAwareEnabled then
    restoreAwareCandidates cfg canonical db limit [] (db.scopes.entries.filter fun e =>
      db.publications.any fun p => p.scopeState = e.1 ∧ p.status = .superseded)
  else
    let rows := (db.publications.filter fun p => p.status = .superseded).filter
      fun e => e.1 ∉ retainedPredecessorIds cfg db
    .ok (((byCreation rows).map Prod.fst).take limit)

/-- Terminal attempts whose snapshot may have expired: an over-inclusive bound. -/
def terminalCandidateIds (cfg : Config) (db : Db) (now : Time) (limit : ℕ) : List PublicationId :=
  ((byCreation (db.publications.filter fun p =>
    (p.status = .failed ∨ p.status = .cancelled) ∧ p.sourceSnapshot.isSome ∧
      p.createdAt + cfg.terminalSnapshotRetention ≤ now)).map Prod.fst).take limit

/-- Fetch at most `limit` lightweight, potentially retainable rows. -/
def candidateIds (cfg : Config) (canonical : Canonical) (db : Db) (limit : ℕ) (now : Time) :
    Except Error (List PublicationId) := do
  let superseded ← supersededCandidateIds cfg canonical db limit
  if limit ≤ superseded.length then
    return superseded
  return superseded ++ terminalCandidateIds cfg db now (limit - superseded.length)

/-- The newest ready superseded versions of a scope are kept for rollback. -/
def isRetainedPredecessor (cfg : Config) (canonical : Canonical) (db : Db) (scopeId : ScopeId) (scope : Scope)
    (id : PublicationId) : Except Error Bool := do
  if cfg.retentionRestoreAwareEnabled then
    let kept ← selectRestorablePredecessors canonical db scopeId scope cfg.retainedRollbackPredecessors
    return id ∈ kept.map Prod.fst
  let ready := db.publicationsByVersion scopeId fun p =>
    p.status = .superseded ∧ p.artifactStatus = .ready ∧ p.artifactReady
  return id ∈ (ready.take cfg.retainedRollbackPredecessors).map Prod.fst

/-- Use the job terminal time when lifecycle history has one. -/
def terminalTimestamp (publication : Publication) (job : Option (JobId × Job)) : Time :=
  match job with
  | some (_, job) => job.completedAt.getD publication.createdAt
  | none => publication.createdAt

/-- The most recently created job of an attempt within its scope. -/
def Db.relatedJob (db : Db) (scopeId : ScopeId) (id : PublicationId) : Option (JobId × Job) :=
  ((db.jobs.filter fun job => job.scopeState = scopeId ∧ job.buildPublication = some id).insertionSort
    fun a b => b.2.createdAt ≤ a.2.createdAt).head?

/-- Recheck and mutate one candidate under the established lock order. -/
def processCandidate (cfg : Config) (env : Env) (id : PublicationId) (now : Time) (dryRun : Bool) :
    Service RetentionOutcome :=
  Tx.atomic do
    let db ← Tx.get
    match db.publications.find id with
    | none => return .skipped
    | some publication =>
      match db.scopes.find publication.scopeState with
      | none => return .skipped
      | some scope =>
        let scopeId := publication.scopeState
        if db.jobs.any fun job => job.scopeState = scopeId ∧ job.status.isActive then
          return .skipped
        if publication.status = .superseded then
          if scope.currentPublishedPublication = some id then
            return .skipped
          if ← Tx.ofExcept (isRetainedPredecessor cfg env.canonical db scopeId scope id) then
            return .skipped
          if dryRun then
            return .obsoleted
          retirePublication env scopeId id publication
          return .obsoleted
        if publication.status ≠ .failed ∧ publication.status ≠ .cancelled then
          return .skipped
        if publication.sourceSnapshot.isNone then
          return .skipped
        if now < terminalTimestamp publication (db.relatedJob scopeId id) + cfg.terminalSnapshotRetention then
          return .skipped
        if dryRun then
          return .snapshotPurged
        Tx.modify fun db => db.modifyPublication id fun row => { row with sourceSnapshot := none }
        releaseTerminalDocumentArtifactReferences id publication
        return .snapshotPurged

structure RetentionResult where
  considered : ℕ := 0
  obsoleted : ℕ := 0
  snapshotsPurged : ℕ := 0
  skipped : ℕ := 0
  deriving DecidableEq

def RetentionResult.count (result : RetentionResult) : RetentionOutcome → RetentionResult
  | .obsoleted => { result with considered := result.considered + 1, obsoleted := result.obsoleted + 1 }
  | .snapshotPurged =>
    { result with considered := result.considered + 1, snapshotsPurged := result.snapshotsPurged + 1 }
  | .skipped => { result with considered := result.considered + 1, skipped := result.skipped + 1 }

def processCandidates (cfg : Config) (env : Env) (now : Time) (dryRun : Bool) :
    List PublicationId → RetentionResult → Service RetentionResult
  | [], result => pure result
  | id :: rest, result => do
    let outcome ← processCandidate cfg env id now dryRun
    processCandidates cfg env now dryRun rest (result.count outcome)

/-- `batch_size or settings.PUBLICATION_RETENTION_BATCH_SIZE`. -/
def retentionLimit (cfg : Config) : Option ℤ → ℤ
  | none | some 0 => cfg.retentionBatchSize
  | some size => size

/-- Apply one bounded, idempotent retention pass. Discovery is outside the transactions of
the candidates. -/
def runPublicationRetention (cfg : Config) (env : Env) (batchSize : Option ℤ) (now : Time) (dryRun : Bool) :
    Service RetentionResult := do
  let limit := retentionLimit cfg batchSize
  Tx.ensure (1 ≤ limit) (.valueError "Publication retention batch size must be positive.")
  let db ← Tx.get
  let ids ← Tx.ofExcept (candidateIds cfg env.canonical db limit.toNat now)
  processCandidates cfg env now dryRun ids {}

end FireDash.Publications
