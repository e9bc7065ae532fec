import FireDash.Publications.Services.Scopes

/-! Deterministic operational state of a scope for the publications views. -/
namespace FireDash.Publications

inductive OperationalState where
  | current
  | notPublished
  | updateQueued
  | queued
  | building
  | readyToPublish
  | needsRebuild
  | failed
  deriving DecidableEq

/-- The compact inputs shared by detailed and aggregate state paths. -/
structure ScopeStateInputs where
  latest : Option Publication
  job : Option Job
  latestBuilt : Option Publication
  currentPublished : Option Publication
  currentFingerprint : Fingerprint
  dirty : Bool

/-- The publication of a scope with the highest version. -/
def Db.latestPublication (db : Db) (scopeId : ScopeId) : Option (PublicationId × Publication) :=
  (db.publicationsByVersion scopeId fun _ => true).head?

/-- The active job of a scope. -/
def Db.activeJob (db : Db) (scopeId : ScopeId) : Option (JobId × Job) :=
  db.jobs.first fun job => job.scopeState = scopeId ∧ job.status.isActive

def scopeStateInputs (db : Db) (scopeId : ScopeId) (scope : Scope) : ScopeStateInputs :=
  let currentPublished := db.currentPublication scope
  { latest := (db.latestPublication scopeId).map Prod.snd
    job := (db.activeJob scopeId).map Prod.snd
    latestBuilt := scope.latestBuiltPublication.bind db.publications.find
    currentPublished := currentPublished
    currentFingerprint := scope.currentSourceFingerprint
    dirty :=
      match currentPublished with
      | none => true
      | some current =>
        match scope.currentSourceFingerprint, current.sourceFingerprint with
        | some f, some stored => f ≠ stored
        -- Legacy rows are initialized only through a locked service path.
        | _, _ => true }

/-- Derive the single operational state for one scope from its inputs. -/
def computeScopeState (inputs : ScopeStateInputs) (now : Time) : OperationalState :=
  let attempt :=
    if inputs.latest.map (·.status) = some .building then .building
    else if inputs.latest.map (·.status) = some .staged then .updateQueued
    else if (∃ p ∈ inputs.latest, p.status = .failed ∧
        (p.sourceFingerprint = none ∨ p.sourceFingerprint = inputs.currentFingerprint)) ∧ inputs.dirty then
      .failed
    else if inputs.latestBuilt.map (·.status) = some .readyForReview then .readyToPublish
    else if inputs.dirty then .needsRebuild
    else if inputs.currentPublished.isSome then .current
    else .notPublished
  match inputs.job with
  | some job =>
    if job.status = .running then .building
    else if job.status = .pending then
      if ∃ t ∈ job.notBefore, now < t then .updateQueued else .queued
    else attempt
  | none => attempt

/-- How a scope is presented. -/
def Db.presentation (db : Db) (scopeId : ScopeId) (scope : Scope) (now : Time) : OperationalState :=
  computeScopeState (scopeStateInputs db scopeId scope) now

end FireDash.Publications
