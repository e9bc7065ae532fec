import FireDash.DangerousGoods.Sources

/-! Import batches of every domain: the confirmation and the cancellation of a preview beside
the staged files it is read from. -/
namespace FireDash.Ingestion

open DangerousGoods (BatchStatus Error ImportBatch StagingKey)
open Publications (Actor DatasetTypeCode DepartmentId Station)

/-- The batches and publications, the rows an import writes and the staging directory. -/
structure State (κ : Type) where
  source : DangerousGoods.State := {}
  rows : κ
  staged : StagingKey → Option (List UInt8) := fun _ => none

abbrev Service (κ : Type) := Tx (State κ) Error

/-- What the branch of a domain returns: the scopes to mark and the rows it added, updated,
deactivated and left alone. -/
structure Applied where
  scopes : List (DatasetTypeCode × Option Station) := []
  add : ℕ := 0
  update : ℕ := 0
  deactivate : ℕ := 0
  unchanged : ℕ := 0

/-- The settings, and the branch of each domain: parse the payload, compare the baseline and
write the rows, with the publications the services it calls mark. -/
structure Config (κ : Type) where
  source : DangerousGoods.Config
  branch : DangerousGoods.Env → Actor → ImportBatch → List UInt8 → Tx (κ × Publications.Db) Error Applied

section

variable {κ : Type} {α : Type}

def sourceCall (x : DangerousGoods.Service α) : Service κ α :=
  Tx.zoom State.source (fun s source => { s with source := source }) x

def rowsCall (x : Tx (κ × Publications.Db) Error α) : Service κ α :=
  Tx.zoom (fun s => (s.rows, s.source.publications))
    (fun s w => { s with rows := w.1, source := { s.source with publications := w.2 } }) x

/-- The staged source of a batch, as long as it is the one that was previewed. -/
def readSource (cfg : Config κ) (env : DangerousGoods.Env) (id : ℕ) (batch : ImportBatch) :
    Service κ (List UInt8) := do
  let s ← Tx.get
  match s.staged batch.stagingKey with
  | none =>
    sourceCall (DangerousGoods.failBatch env id "staging_unavailable")
    Tx.raise (.importError "Preview source is unavailable; create a new preview.")
  | some payload =>
    if some (cfg.source.sha256 payload) ≠ batch.uploadSha256 then
      sourceCall (DangerousGoods.failBatch env id "staging_hash_mismatch")
      Tx.raise (.importError "Preview source changed; create a new preview.")
    return payload

def applyBranch (cfg : Config κ) (env : DangerousGoods.Env) (actor : Actor) (batch : ImportBatch)
    (payload : List UInt8) : Service κ Applied :=
  if batch.domain = .dangerousGoods then Tx.raise (.importError "This import domain is unavailable.")
  else rowsCall (cfg.branch env actor batch payload)

def markScope (cfg : Config κ) (env : DangerousGoods.Env) (actor : Actor) (department : Option DepartmentId)
    (scope : DatasetTypeCode × Option Station) : Service κ Unit := do
  let _ ← sourceCall (DangerousGoods.publicationCall env fun e =>
    Publications.markDirty cfg.source.publications e ⟨department, scope.2, scope.1⟩ (some actor))

/-- Apply exactly the staged, still-current preview once. -/
def applyPreview (cfg : Config κ) (env : DangerousGoods.Env) (actor : Actor) (id : ℕ) : Service κ Unit :=
  Tx.atomic do
    let s ← Tx.get
    let batch ← Tx.require (s.source.batches.find id) .doesNotExist
    Tx.ensure (env.isDepartmentAdmin actor batch.department = true) .permissionDenied
    Tx.ensure (batch.status = .previewReady) (.importError "Import batch is not confirmable.")
    let payload ← readSource cfg env id batch
    let applied ← applyBranch cfg env actor batch payload
    Tx.forEach (markScope cfg env actor batch.department) applied.scopes
    sourceCall (Tx.modify fun s => { s with batches := s.batches.modify id fun row =>
      { row with
        status := .applied
        appliedAt := some env.publications.now
        addCount := applied.add
        updateCount := applied.update
        deactivateCount := applied.deactivate
        unchangedCount := applied.unchanged
        affectedScopes := applied.scopes.map fun scope => (scope.1, scope.2.map (·.id)) } })

/-- The application of a curated source, on what the staging directory holds for it. -/
def applyDangerousGoodsPreview (cfg : Config κ) (env : DangerousGoods.Env) (actor : Actor) (id : ℕ) :
    Service κ Unit := do
  let s ← Tx.get
  sourceCall (DangerousGoods.applyDangerousGoodsPreview cfg.source env actor id
    ((s.source.batches.find id).bind fun batch => s.staged batch.stagingKey))

/-- Cancel a preview once; the staged source goes after the commit. -/
def cancelPreview (env : DangerousGoods.Env) (actor : Actor) (id : ℕ) : Service κ Unit := do
  sourceCall (DangerousGoods.cancelPreview env actor id)
  let s ← Tx.get
  let batch ← Tx.require (s.source.batches.find id) .doesNotExist
  Tx.modify fun s => { s with staged := Function.update s.staged batch.stagingKey none }

/-- Validate and stage a curated file. -/
def createDangerousGoodsPreview (cfg : Config κ) (env : DangerousGoods.Env) (actor : Actor) (filename : String)
    (payload : List UInt8) (stored : Except Error Unit) : Service κ Unit := do
  let id ← sourceCall (DangerousGoods.createDangerousGoodsPreview cfg.source env actor filename payload stored)
  let s ← Tx.get
  let batch ← Tx.require (s.source.batches.find id) .doesNotExist
  Tx.whenever (batch.status = .previewReady)
    (Tx.modify fun s => { s with staged := Function.update s.staged batch.stagingKey (some payload) })

end

/-! ### Runs -/

section

variable (κ : Type)

/-- The services over a batch, and what else changes around it: new previews of the other
domains, the staged files, and the rows and publications other services write. -/
inductive Call where
  | applyPreview (actor : Actor) (id : ℕ)
  | applyDangerousGoodsPreview (actor : Actor) (id : ℕ)
  | cancelPreview (actor : Actor) (id : ℕ)
  | createDangerousGoodsPreview (actor : Actor) (filename : String) (payload : List UInt8)
      (stored : Except Error Unit)
  | createPreview (batch : ImportBatch)
  | editFiles (staged : StagingKey → Option (List UInt8))
  | editRows (rows : κ) (publications : Publications.Db)

variable {κ}

/-- The transaction of a call, its result dropped. -/
def Call.run (cfg : Config κ) (env : DangerousGoods.Env) : Call κ → Service κ Unit
  | .applyPreview actor id => Ingestion.applyPreview cfg env actor id
  | .applyDangerousGoodsPreview actor id => Ingestion.applyDangerousGoodsPreview cfg env actor id
  | .cancelPreview actor id => Ingestion.cancelPreview env actor id
  | .createDangerousGoodsPreview actor filename payload stored =>
    Ingestion.createDangerousGoodsPreview cfg env actor filename payload stored
  | .createPreview batch =>
    Tx.modify fun s => { s with source := { s.source with batches := s.source.batches.insert batch } }
  | .editFiles staged => Tx.modify fun s => { s with staged := staged }
  | .editRows rows publications =>
    Tx.modify fun s => { s with rows := rows, source := { s.source with publications := publications } }

/-- A batch is saved by its preview, as ready or as invalid. -/
def Call.Allowed : Call κ → Prop
  | .createPreview batch => batch.status = .previewReady ∨ batch.status = .invalid
  | _ => True

def system (cfg : Config κ) : Machine (State κ) (DangerousGoods.Env × Call κ) where
  init _ := True
  step s a t := a.2.Allowed ∧ t = Tx.exec (a.2.run cfg a.1) s

end

end FireDash.Ingestion
