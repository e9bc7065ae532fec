import FireDash.DangerousGoods.Validation
import FireDash.Publications.System

/-! Curated sources: staged previews, their application as source revisions, and the state
they share with the publications. -/
namespace FireDash.DangerousGoods

open Publications (Actor DatasetSourceRevision DatasetTypeCode Db DepartmentId Digest Fingerprint ScopeKey Time)

/-- The state of an import batch. -/
inductive BatchStatus where
  | uploaded
  | previewReady
  | invalid
  | applied
  | cancelled
  | expired
  | failed
  deriving DecidableEq

inductive Domain where
  | hydrants
  | personnel
  | firePlans
  | klgvPlans
  | stationVehicles
  | phonebook
  | dangerousGoods
  deriving DecidableEq

/-- The key a staged file is read under. -/
inductive StagingKey where
  | pending
  | batch (id : ℕ)
  deriving DecidableEq

/-- `validation_summary`; `counts` are the goods and the ERI cards. -/
structure ValidationSummary where
  errorCount : ℕ := 0
  counts : Option (ℕ × ℕ) := none
  byteSize : Option ℕ := none
  noOp : Bool := false
  deriving DecidableEq

structure ImportBatch where
  domain : Domain
  department : Option DepartmentId := none
  station : Option ℕ := none
  originalFilename : String
  actor : Actor
  stagingKey : StagingKey := .pending
  uploadSha256 : Fingerprint := none
  status : BatchStatus := .uploaded
  baseline : Option ℕ := none
  normalizedIntent : Option (ℕ × ℕ) := none
  validationErrors : List (String × String) := []
  validationSummary : ValidationSummary := {}
  addCount : ℕ := 0
  updateCount : ℕ := 0
  deactivateCount : ℕ := 0
  unchangedCount : ℕ := 0
  affectedScopes : List (DatasetTypeCode × Option ℕ) := []
  previewedAt : Option Time := none
  appliedAt : Option Time := none
  cancelledAt : Option Time := none
  failedAt : Option Time := none
  deriving DecidableEq

structure State where
  publications : Db := {}
  revisions : List DatasetSourceRevision := []
  batches : Table ImportBatch := ⟨[]⟩

structure Config where
  publications : Publications.Config
  limits : Json.Limits
  sha256 : List UInt8 → Digest
  maxStructuredImportBytes : ℕ
  maxIngestUploadBytes : ℕ

/-- What a call observes; the revisions the publications read are those of the state. -/
structure Env where
  publications : Publications.Env
  isSystemAdmin : Actor → Bool
  isDepartmentAdmin : Actor → Option DepartmentId → Bool

def Env.at (env : Env) (s : State) : Publications.Env :=
  { env.publications with canonical := { env.publications.canonical with dangerousGoods := s.revisions } }

inductive Error where
  | importError (message : String)
  | importStorageError (message : String)
  | permissionDenied
  | doesNotExist
  | integrityError
  | raised (e : Raised)
  | publication (e : Publications.Error)
  deriving DecidableEq

abbrev Service := Tx State Error

/-- Call a publication service inside the current transaction. -/
def publicationCall {α : Type} (env : Env) (x : Publications.Env → Publications.Service α) : Service α := fun s =>
  match x (env.at s) s.publications with
  | (.ok a, db) => (.ok a, { s with publications := db })
  | (.error e, db) => (.error (.publication e), { s with publications := db })

/-- The scope of the curated source. -/
def systemTarget : Publications.Target := ⟨none, none, .dangerousGoods⟩

def systemKey : ScopeKey := ⟨.system, systemTarget⟩

/-- The system source scope, under the lock the publications use. -/
def lockedDangerousGoodsScope (env : Env) : Service Publications.Scope := do
  let (_, scope) ← publicationCall env fun _ => Publications.scopeOrNew systemKey
  return scope

def requireSystemAdmin (env : Env) (actor : Actor) : Service Unit :=
  Tx.ensure (env.isSystemAdmin actor = true) .permissionDenied

/-- Validate and stage one curated file; `stored` is what the staging directory answers. -/
def createDangerousGoodsPreview (cfg : Config) (env : Env) (actor : Actor) (filename : String)
    (payload : List UInt8) (stored : Except Error Unit) : Service ℕ := do
  requireSystemAdmin env actor
  let s ← Tx.get
  let id := s.batches.nextId
  let batch : ImportBatch :=
    { domain := .dangerousGoods, originalFilename := .ofList (filename.toList.take 255), actor := actor
      uploadSha256 := some (cfg.sha256 payload) }
  let invalid (message : String) : Service ℕ := do
    Tx.modify fun s => { s with batches := s.batches.insert { batch with
      status := .invalid
      validationErrors := [("invalid_dangerous_goods", message)]
      validationSummary := { errorCount := 1 } } }
    return id
  match Server.validateDangerousGoods cfg.limits payload with
  | .error (.failure message) => invalid message
  | .error e => Tx.raise (.raised e)
  | .ok (_, summary) =>
    if cfg.maxStructuredImportBytes < payload.length then
      invalid "Import exceeds the configured source size limit."
    else Tx.atomic do
      let scope ← lockedDangerousGoodsScope env
      Tx.ensure (payload.length ≤ cfg.maxIngestUploadBytes)
        (.importStorageError "Import exceeds the configured upload limit.")
      Tx.ofExcept stored
      Tx.modify fun s => { s with batches := s.batches.insert { batch with
        stagingKey := .batch id
        baseline := some scope.sourceRevision
        normalizedIntent := some summary
        validationSummary := { counts := some summary, byteSize := some payload.length }
        status := .previewReady
        previewedAt := some env.publications.now
        addCount := 1 } }
      return id

/-- Mark a batch failed; its preview must be recreated. -/
def failBatch (env : Env) (id : ℕ) (code : String) : Service Unit :=
  Tx.modify fun s => { s with batches := s.batches.modify id fun row =>
    { row with
      status := .failed
      failedAt := some env.publications.now
      validationErrors := [(code, "Preview must be recreated.")] } }

def createRevision (revision : DatasetSourceRevision) : Service Unit := do
  let s ← Tx.get
  Tx.ensure (s.revisions.all fun r => r.sourceRevision ≠ revision.sourceRevision) .integrityError
  Tx.modify fun s => { s with revisions := s.revisions ++ [revision] }

/-- The checks of a staged file before its application. -/
def readPreview (cfg : Config) (env : Env) (id : ℕ) (batch : ImportBatch) (staged : Option (List UInt8)) :
    Service (List UInt8 × ℕ × ℕ) := do
  match staged with
  | none =>
    failBatch env id "staging_unavailable"
    Tx.raise (.importError "Preview source is unavailable; create a new preview.")
  | some payload =>
    if some (cfg.sha256 payload) ≠ batch.uploadSha256 then
      failBatch env id "staging_hash_mismatch"
      Tx.raise (.importError "Preview source changed; create a new preview.")
    match Server.validateDangerousGoods cfg.limits payload with
    | .error (.failure message) => Tx.raise (.importError message)
    | .error e => Tx.raise (.raised e)
    | .ok (_, summary) => return (payload, summary)

/-- Install a still-current curated source; `staged` is what the staging directory holds. -/
def applyDangerousGoodsPreview (cfg : Config) (env : Env) (actor : Actor) (id : ℕ)
    (staged : Option (List UInt8)) : Service Unit :=
  Tx.atomic do
    requireSystemAdmin env actor
    let s ← Tx.get
    let batch ← Tx.require (s.batches.find id) .doesNotExist
    Tx.ensure (batch.department = none ∧ batch.station = none ∧ batch.domain = .dangerousGoods ∧
      batch.status = .previewReady) (.importError "Dangerous-goods import batch is not confirmable.")
    let (payload, summary) ← readPreview cfg env id batch staged
    let scope ← lockedDangerousGoodsScope env
    Tx.ensure (batch.baseline = some scope.sourceRevision)
      (.importError "Dangerous-goods source changed; re-preview is required.")
    let s ← Tx.get
    let current := s.revisions.find? fun r => r.sourceRevision = scope.sourceRevision
    if ∃ c ∈ current, some c.sha256 = batch.uploadSha256 then
      Tx.modify fun s => { s with batches := s.batches.modify id fun row =>
        { row with
          status := .applied
          appliedAt := some env.publications.now
          unchangedCount := 1
          validationSummary := { noOp := true, counts := some summary, byteSize := some payload.length } } }
    else
      -- The digest of the payload is that of the batch, as just compared.
      createRevision
        { sourceRevision := scope.sourceRevision + 1
          sha256 := cfg.sha256 payload
          goodsCount := summary.1
          eriCardCount := summary.2
          plaintext := payload }
      let _ ← publicationCall env fun e => Publications.markDirty cfg.publications e systemTarget (some actor)
      Tx.modify fun s => { s with batches := s.batches.modify id fun row =>
        { row with
          status := .applied
          appliedAt := some env.publications.now
          addCount := 1
          affectedScopes := [(.dangerousGoods, none)]
          validationSummary := { counts := some summary, byteSize := some payload.length } } }

/-- Cancel a preview once. -/
def cancelPreview (env : Env) (actor : Actor) (id : ℕ) : Service Unit :=
  Tx.atomic do
    let s ← Tx.get
    let batch ← Tx.require (s.batches.find id) .doesNotExist
    Tx.ensure (env.isDepartmentAdmin actor batch.department = true) .permissionDenied
    Tx.ensure (batch.status = .previewReady) (.importError "Only a ready preview can be cancelled.")
    Tx.modify fun s => { s with batches := s.batches.modify id fun row =>
      { row with status := .cancelled, cancelledAt := some env.publications.now } }

end FireDash.DangerousGoods
