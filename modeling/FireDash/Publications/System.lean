import FireDash.Lib.Machine
import FireDash.Publications.Refinement.Admin

/-! The publication system as a machine: every service call, every claim attempt and
every callback after a commit is one step, in any order. -/
namespace FireDash.Publications

open Tx

/-- Run one registered callback. Its transaction is over, so a raise keeps it consumed. -/
def runCallback (cfg : Config) (env : Env) (k : ℕ) : Service Unit := do
  let db ← Tx.get
  match db.onCommit[k]? with
  | none => pure ()
  | some callback =>
    Tx.modify fun db => { db with onCommit := db.onCommit.eraseIdx k }
    match callback with
    | .enqueue target debounceStartedAt =>
      let _ ← enqueuePublicationJob cfg env { target := target, debounceStartedAt := debounceStartedAt }
    | .removeDocumentArtifact artifact =>
      Tx.modify fun db => { db with documents := { db.documents with cleanups := db.documents.cleanups.erase artifact } }
    | .removeArtifact _ | .wakeWorker => pure ()

/-- The transactions of the system. A poll is a sequence of claim attempts, and a
retention pass one of candidates. -/
inductive Call where
  | markDirty (target : Target) (actor : Option Actor)
  | enqueuePublicationJob (request : EnqueueRequest)
  | claimJob (candidate : JobId)
  | heartbeatJob (jobId : JobId)
  | finalizePublicationJob (jobId : JobId) (summary : Summary) (artifact : Option ArtifactMetadata)
      (fingerprint : Fingerprint)
  | failPublicationJob (jobId : JobId) (errorMessage errorCategory : String)
  | recoverStaleJobs (timeout maxAttempts : ℕ)
  | publishPublication (actor : Actor) (id : PublicationId)
  | rejectPublication (actor : Actor) (id : PublicationId)
  | requestRebuild (actor : Actor) (target : Target)
  | stagePublicationUpdate (actor : Actor) (target : Target)
  | buildStagedPublication (actor : Actor) (scopeId : ScopeId)
  | deleteStagedPublication (actor : Actor) (id : PublicationId)
  | cancelPublicationBuild (actor : Actor) (id : PublicationId)
  | rollbackPublication (actor : Actor) (id : PublicationId)
  | deletePublication (actor : Actor) (id : PublicationId)
  | bulkRequestRebuilds (actor : Actor) (department : DepartmentId)
  | processCandidate (id : PublicationId) (now : Time) (dryRun : Bool)
  | sealDocuments (crypto : Crypto) (worker : WorkerEnv) (id : PublicationId)
  | releaseAbandonedGeneration (jobId : JobId) (id : PublicationId)
  | runCallback (k : ℕ)

namespace Call

/-- The transaction of a call, its result dropped. -/
def run (cfg : Config) (env : Env) : Call → Service Unit
  | markDirty target actor => do let _ ← Publications.markDirty cfg env target actor
  | enqueuePublicationJob request => do let _ ← Publications.enqueuePublicationJob cfg env request
  | claimJob candidate => do let _ ← Publications.claimJob cfg env candidate
  | heartbeatJob jobId => do let _ ← Publications.heartbeatJob env jobId
  | finalizePublicationJob jobId summary artifact fingerprint => do
    let _ ← Publications.finalizePublicationJob cfg env jobId summary artifact fingerprint
  | failPublicationJob jobId errorMessage errorCategory => do
    let _ ← Publications.failPublicationJob cfg env jobId errorMessage errorCategory
  | recoverStaleJobs timeout maxAttempts => do
    let _ ← Publications.recoverStaleJobs cfg env timeout maxAttempts
  | publishPublication actor id => Publications.publishPublication env actor id
  | rejectPublication actor id => Publications.rejectPublication env actor id
  | requestRebuild actor target => do let _ ← Publications.requestRebuild cfg env actor target
  | stagePublicationUpdate actor target => do
    let _ ← Publications.stagePublicationUpdate cfg env actor target
  | buildStagedPublication actor scopeId => do
    let _ ← Publications.buildStagedPublication cfg env actor scopeId
  | deleteStagedPublication actor id => Publications.deleteStagedPublication cfg env actor id
  | cancelPublicationBuild actor id => Publications.cancelPublicationBuild env actor id
  | rollbackPublication actor id => Publications.rollbackPublication env actor id
  | deletePublication actor id => Publications.deletePublication env actor id
  | bulkRequestRebuilds actor department => do
    let _ ← Publications.bulkRequestRebuilds cfg env actor department
  | processCandidate id now dryRun => do let _ ← Publications.processCandidate cfg env id now dryRun
  | sealDocuments crypto worker id => do let _ ← Publications.sealDocuments cfg crypto env worker id
  | releaseAbandonedGeneration jobId id => Publications.releaseAbandonedGeneration jobId id
  | runCallback k => Publications.runCallback cfg env k

/-- The publication a call would make current, given the database it starts from. -/
def activates (env : Env) (db : Db) : Call → PublicationId → Prop
  | publishPublication _ id, p => p = id ∧ ∃ pub, db.publications.find id = some pub ∧ pub.status = .readyForReview
  | rollbackPublication _ id, p => p = id ∧ ∃ pub, db.publications.find id = some pub ∧ pub.status = .superseded
  | deletePublication _ id, p => ∃ pub s predecessor, db.publications.find id = some pub ∧
      pub.status = .published ∧ db.scopes.find pub.scopeState = some s ∧
      db.eligiblePredecessor env.canonical pub.scopeState s pub.versionNumber = .ok (some (p, predecessor))
  | _, _ => False

/-- What each call is entitled to, given the database it starts from. -/
def licence (env : Env) (db : Db) : Call → Licence
  | markDirty .. | enqueuePublicationJob .. | requestRebuild .. | stagePublicationUpdate ..
  | bulkRequestRebuilds .. | runCallback .. => { mint := True }
  | claimJob .. => { mint := True, claim := True }
  | finalizePublicationJob .. => { mint := True, close := True, publish := True }
  | failPublicationJob .. => { close := True, fail := True }
  | recoverStaleJobs _ maxAttempts => { close := True, fail := True, retry := fun n => n < maxAttempts }
  | cancelPublicationBuild .. => { close := True }
  | publishPublication actor id =>
    { activate := fun c p => c = db.core ∧ (publishPublication actor id).activates env db p }
  | rollbackPublication actor id =>
    { activate := fun c p => c = db.core ∧ (rollbackPublication actor id).activates env db p }
  | deletePublication actor id =>
    { activate := fun c p => c = db.core ∧ (deletePublication actor id).activates env db p
      retire := fun p => p = id }
  | processCandidate id .. => { purge := True, retire := fun p => p = id }
  | heartbeatJob .. | rejectPublication .. | buildStagedPublication .. | deleteStagedPublication ..
  | sealDocuments .. | releaseAbandonedGeneration .. => {}

end Call

variable {cfg : Config} {env : Env} {db : Db}

theorem wp_runCallback {k : ℕ} {l : Licence} (hl : l.mint) (h : Inv db.core) :
    wp (runCallback cfg env k) (fun _ db' => Steps cfg l db.core db'.core)
      (fun _ db' => Steps cfg l db.core db'.core) db := by
  simp only [runCallback, wp_bind, wp_get]
  cases hk : db.onCommit[k]? with
  | none => exact .refl
  | some callback =>
    simp only [wp_bind, wp_modify]
    have hpop : Inv ({ db with onCommit := db.onCommit.eraseIdx k } : Db).core := h
    cases callback with
    | enqueue target started =>
      simp only [wp_bind, wp_pure]
      refine wp_mono (wp_enqueuePublicationJob (l := l) hpop) (fun _ _ he => ?_) (fun _ db' he => ?_)
      · have hsteps := he.steps hl hpop
        exact hsteps
      · rw [he]
        exact .refl
    | removeDocumentArtifact artifact => exact .refl
    | removeArtifact path => exact .refl
    | wakeWorker => exact .refl

/-- Every call consists of moves its licence covers. -/
theorem Call.steps (call : Call) (h : Inv db.core) :
    Steps cfg (call.licence env db) db.core (exec (call.run cfg env) db).core := by
  refine exec_of_wp (P := fun db' : Db => Steps cfg (call.licence env db) db.core db'.core) ?_
  have hraise : ∀ (l : Licence) (_ : Error) (db' : Db), db' = db → Steps cfg l db.core db'.core :=
    fun _ _ _ he => he ▸ .refl
  cases call with
  | markDirty target actor =>
    exact wp_bind.mpr (wp_mono (wp_markDirty h) (fun _ _ m => m.steps trivial h) (hraise _))
  | enqueuePublicationJob request =>
    exact wp_bind.mpr (wp_mono (wp_enqueuePublicationJob h) (fun _ _ m => m.steps trivial h) (hraise _))
  | claimJob candidate =>
    exact wp_bind.mpr (wp_mono (wp_claimJob h) (fun _ _ m => m.steps trivial trivial h) (hraise _))
  | heartbeatJob jobId =>
    refine wp_bind.mpr (wp_mono wp_heartbeatJob (fun _ db' m => ?_) (hraise _))
    rcases m with ⟨-, rfl⟩ | ⟨a, -, hj, ha, rfl⟩
    · exact .refl
    · exact .single (.job (a := a) hj rfl rfl rfl rfl (.inl rfl))
  | finalizePublicationJob jobId summary artifact fingerprint =>
    exact wp_bind.mpr (wp_mono (wp_finalizePublicationJob h)
      (fun _ _ m => m.2.steps trivial trivial (fun _ => trivial) h) (hraise _))
  | failPublicationJob jobId message category =>
    exact wp_bind.mpr (wp_mono (wp_failPublicationJob h) (fun _ _ m => m.2.steps trivial trivial) (hraise _))
  | recoverStaleJobs timeout maxAttempts =>
    exact wp_bind.mpr (wp_mono (wp_recoverStaleJobs h) (fun _ _ m => m.2.steps trivial trivial fun _ hn => hn)
      (hraise _))
  | publishPublication actor id =>
    refine wp_mono (wp_publishPublication h) ?_ (hraise _)
    rintro _ _ ⟨pub, i, s, m, hst, -, rfl⟩
    exact m.switch_steps (l := (Call.publishPublication actor id).licence env db) h (by rw [hst]; rfl)
      (by rw [hst]; decide) (.of_finished rfl (fun ho => by rw [hst] at ho; cases ho) rfl rfl rfl rfl rfl rfl (.inl rfl))
      rfl rfl ⟨rfl, rfl, pub, m.publication, hst⟩ env.now actor .publish
  | rejectPublication actor id =>
    refine wp_mono wp_rejectPublication ?_ (hraise _)
    rintro _ _ ⟨pub, hp, hst, rfl⟩
    exact .single (.retire (fun hsup => by rw [hst] at hsup; cases hsup) hp (by rw [hst]; rfl)
      (.of_finished rfl (fun ho => by rw [hst] at ho; cases ho) rfl rfl rfl rfl rfl rfl (.inl rfl)) rfl)
  | requestRebuild actor target => exact wp_bind.mpr (wp_mono (wp_requestRebuild trivial h) (fun _ _ m => m) (hraise _))
  | stagePublicationUpdate actor target =>
    exact wp_bind.mpr (wp_mono (wp_stagePublicationUpdate trivial h) (fun _ _ m => m) (hraise _))
  | buildStagedPublication actor scopeId =>
    exact wp_bind.mpr (wp_mono (wp_buildStagedPublication h) (fun _ _ m => m) (hraise _))
  | deleteStagedPublication actor id =>
    exact wp_mono (wp_deleteStagedPublication h) (fun _ _ m => m) (hraise _)
  | cancelPublicationBuild actor id =>
    refine wp_mono (wp_cancelPublicationBuild h) ?_ (hraise _)
    rintro _ _ ⟨j, a, pub, i, s, b, rfl⟩
    exact b.cancelled_steps trivial env.now
  | rollbackPublication actor id =>
    refine wp_mono (wp_rollbackPublication h) ?_ (hraise _)
    rintro _ _ ⟨pub, i, s, m, hst, -, rfl⟩
    exact m.switch_steps (l := (Call.rollbackPublication actor id).licence env db) h (by rw [hst]; rfl)
      (by rw [hst]; decide) (.of_finished rfl (fun ho => by rw [hst] at ho; cases ho) rfl rfl rfl rfl rfl rfl (.inl rfl))
      rfl rfl ⟨rfl, rfl, pub, m.publication, hst⟩ env.now actor .rollback
  | deletePublication actor id =>
    refine wp_mono (wp_deletePublication h) (fun _ _ m => m.steps h rfl fun {pub i s q predecessor} m hst he => ?_) (hraise _)
    obtain rfl := m.publication_scope
    exact ⟨rfl, pub, s, predecessor, m.publication, hst, m.scope, he⟩
  | bulkRequestRebuilds actor department =>
    exact wp_bind.mpr (wp_mono (wp_bulkRequestRebuilds trivial h) (fun _ _ m => m) (hraise _))
  | processCandidate id now dryRun =>
    exact wp_bind.mpr (wp_mono (wp_processCandidate trivial rfl h) (fun _ _ m => m) (hraise _))
  | sealDocuments crypto worker id =>
    exact wp_bind.mpr (wp_mono wp_sealDocuments (fun _ _ ⟨_, he⟩ => he ▸ .refl) (hraise _))
  | releaseAbandonedGeneration jobId id =>
    refine wp_mono wp_releaseAbandonedGeneration (fun _ db' m => ?_) (hraise _)
    rcases m with rfl | ⟨-, pub, -, -, rfl⟩
    · exact .refl
    · exact .refl
  | runCallback k => exact wp_runCallback trivial h

/-- A database as an upgrade leaves it: rows of earlier releases, no build running and
no callback waiting. -/
structure Migrated (cfg : Config) (db : Db) : Prop where
  scope_key : ∀ {i j s t}, db.scopes.find i = some s → db.scopes.find j = some t → s.key = t.key → i = j
  scope_filter : ∀ {i s key}, db.scopes.find i = some s → scopeFilter s.key.target = .ok key → s.key = key
  publication_scope : ∀ {i p}, db.publications.find i = some p →
    ∃ s, db.scopes.find p.scopeState = some s ∧ s.key = p.key
  job_scope : ∀ {i j}, db.jobs.find i = some j → ∃ s, db.scopes.find j.scopeState = some s ∧ s.key = j.key
  current_published : ∀ {i s p}, db.scopes.find i = some s → s.currentPublishedPublication = some p →
    ∃ pub, db.publications.find p = some pub ∧ pub.scopeState = i ∧ pub.status = .published
  published_current : ∀ {p pub}, db.publications.find p = some pub → pub.status = .published →
    ∃ s, db.scopes.find pub.scopeState = some s ∧ s.currentPublishedPublication = some p
  one_pending : ∀ {i j a b}, db.jobs.find i = some a → db.jobs.find j = some b → a.scopeState = b.scopeState →
    a.status = .pending → b.status = .pending → i = j
  build_scope : ∀ {i j p}, db.jobs.find i = some j → j.buildPublication = some p →
    ∃ pub, db.publications.find p = some pub ∧ pub.scopeState = j.scopeState
  build_injective : ∀ {i j a b p}, db.jobs.find i = some a → db.jobs.find j = some b →
    a.buildPublication = some p → b.buildPublication = some p → i = j
  pending_fresh : ∀ {i j}, db.jobs.find i = some j → j.status = .pending → j.attemptCount = 0
  not_running : ∀ {i j}, db.jobs.find i = some j → j.status ≠ .running
  not_building : ∀ {p pub}, db.publications.find p = some pub → pub.status ≠ .building
  versions : ∀ {p q pub pub'}, db.publications.find p = some pub → db.publications.find q = some pub' →
    pub.scopeState = pub'.scopeState → p < q → pub.versionNumber < pub'.versionNumber
  recorded : ∀ {i s pub}, db.scopes.find i = some s → db.currentPublication s = some pub →
    pub.sourceFingerprint.isSome = true →
    s.currentSourceFingerprint = publicationSourceFingerprint cfg pub →
    s.currentSourceFingerprint = pub.sourceFingerprint
  no_callbacks : db.onCommit = []

theorem Migrated.inv (h : Migrated cfg db) : Inv db.core where
  scope_key := h.scope_key
  scope_filter := h.scope_filter
  publication_scope := h.publication_scope
  job_scope := h.job_scope
  current_published := h.current_published
  published_current := h.published_current
  one_active {i j a b} ha hb hs haa hba := by
    have hpending : ∀ {k c}, db.jobs.find k = some c → c.status.isActive = true → c.status = .pending := by
      intro k c hc hca
      have hr := h.not_running hc
      revert hca hr
      cases c.status <;> simp [JobStatus.isActive]
    exact h.one_pending ha hb hs (hpending ha haa) (hpending hb hba)
  build_scope := h.build_scope
  build_injective := h.build_injective
  running_building hj hr := absurd hr (h.not_running hj)
  building_running hp hb := absurd hb (h.not_building hp)

/-- Row by row, so that a given database can be checked. -/
instance : Decidable (Migrated cfg db) :=
  decidable_of_iff
    ((∀ e ∈ db.scopes.entries, (∀ f ∈ db.scopes.entries, e.2.key = f.2.key → e.1 = f.1) ∧
        (∀ key ∈ (scopeFilter e.2.key.target).toOption, e.2.key = key) ∧
        (∀ p ∈ e.2.currentPublishedPublication,
          ∃ pub ∈ db.publications.find p, pub.scopeState = e.1 ∧ pub.status = .published) ∧
        ∀ pub ∈ db.currentPublication e.2, pub.sourceFingerprint.isSome = true →
          e.2.currentSourceFingerprint = publicationSourceFingerprint cfg pub →
          e.2.currentSourceFingerprint = pub.sourceFingerprint) ∧
      (∀ e ∈ db.publications.entries, (∃ s ∈ db.scopes.find e.2.scopeState, s.key = e.2.key) ∧
        (e.2.status = .published →
          ∃ s ∈ db.scopes.find e.2.scopeState, s.currentPublishedPublication = some e.1) ∧
        e.2.status ≠ .building ∧
        ∀ f ∈ db.publications.entries, e.2.scopeState = f.2.scopeState → e.1 < f.1 →
          e.2.versionNumber < f.2.versionNumber) ∧
      (∀ e ∈ db.jobs.entries, (∃ s ∈ db.scopes.find e.2.scopeState, s.key = e.2.key) ∧
        (∀ p ∈ e.2.buildPublication, ∃ pub ∈ db.publications.find p, pub.scopeState = e.2.scopeState) ∧
        (e.2.status = .pending → e.2.attemptCount = 0) ∧ e.2.status ≠ .running ∧
        ∀ f ∈ db.jobs.entries, (e.2.scopeState = f.2.scopeState → e.2.status = .pending → f.2.status = .pending →
            e.1 = f.1) ∧
          ∀ p ∈ e.2.buildPublication, f.2.buildPublication = some p → e.1 = f.1) ∧
      db.onCommit = []) <| by
    constructor
    · rintro ⟨hs, hp, hj, hc⟩
      rw [Table.forall_entries] at hs hp hj
      constructor
      case scope_key => exact fun hi hk => Table.forall_entries.mp (hs _ _ hi).1 _ _ hk
      case scope_filter => exact fun hi hf => (hs _ _ hi).2.1 _ (by rw [hf]; rfl)
      case current_published => exact fun hi he => (hs _ _ hi).2.2.1 _ he
      case recorded => exact fun hi he => (hs _ _ hi).2.2.2 _ he
      case publication_scope => exact fun hi => (hp _ _ hi).1
      case published_current => exact fun hi => (hp _ _ hi).2.1
      case not_building => exact fun hi => (hp _ _ hi).2.2.1
      case versions => exact fun hi hk => Table.forall_entries.mp (hp _ _ hi).2.2.2 _ _ hk
      case job_scope => exact fun hi => (hj _ _ hi).1
      case build_scope => exact fun hi he => (hj _ _ hi).2.1 _ he
      case pending_fresh => exact fun hi => (hj _ _ hi).2.2.1
      case not_running => exact fun hi => (hj _ _ hi).2.2.2.1
      case one_pending => exact fun hi hk => (Table.forall_entries.mp (hj _ _ hi).2.2.2.2 _ _ hk).1
      case build_injective => exact fun hi hk he => (Table.forall_entries.mp (hj _ _ hi).2.2.2.2 _ _ hk).2 _ he
      case no_callbacks => exact hc
    · intro h
      simp only [Table.forall_entries]
      refine ⟨fun i s hi => ⟨fun k t hk => h.scope_key hi hk, fun key hkey => h.scope_filter hi ?_,
          fun p hp => h.current_published hi hp, fun pub hp => h.recorded hi hp⟩,
        fun p pub hp => ⟨h.publication_scope hp, h.published_current hp, h.not_building hp,
          fun q pub' hq => h.versions hp hq⟩,
        fun j a hj => ⟨h.job_scope hj, fun p hp => h.build_scope hj hp, h.pending_fresh hj, h.not_running hj,
          fun k b hk => ⟨h.one_pending hj hk, fun p hp => h.build_injective hj hk hp⟩⟩, h.no_callbacks⟩
      revert hkey
      cases scopeFilter s.key.target <;> simp [Except.toOption]

theorem Migrated.empty : Migrated cfg {} := by
  constructor <;> simp [Table.find]

/-- The system: each step is one transaction of a call under its own environment. -/
def system (cfg : Config) : Machine Db (Env × Call) where
  init := Migrated cfg
  step db a db' := db' = exec (a.2.run cfg a.1) db

theorem inv_of_reachable (h : (system cfg).Reachable db) : Inv db.core := by
  refine h.invariant (I := fun db : Db => Inv db.core) (fun _ hm => Migrated.inv hm) ?_
  rintro db ⟨env, call⟩ _ hinv rfl
  exact (call.steps hinv).inv hinv

theorem reachable_step (h : (system cfg).Reachable db) (env : Env) (call : Call) :
    (system cfg).Reachable (exec (call.run cfg env) db) :=
  h.next (a := (env, call)) rfl

/-- Run calls one after the other. -/
def runCalls (cfg : Config) (db : Db) (calls : List (Env × Call)) : Db :=
  calls.foldl (fun db a => exec (a.2.run cfg a.1) db) db

theorem reachable_runCalls (h : (system cfg).Reachable db) (calls : List (Env × Call)) :
    (system cfg).Reachable (runCalls cfg db calls) := by
  induction calls generalizing db with
  | nil => exact h
  | cons a rest ih => exact ih (reachable_step h a.1 a.2)

/-- A poll is a sequence of claim attempts. -/
theorem exec_claimNextJob (cfg : Config) (env : Env) (db : Db) : ∃ candidates : List JobId,
    exec (claimNextJob cfg env) db = runCalls cfg db (candidates.map fun c => (env, .claimJob c)) := by
  have hfirst : ∀ (l : List JobId) (db : Db), ∃ candidates : List JobId,
      exec (claimFirst cfg env l) db = runCalls cfg db (candidates.map fun c => (env, .claimJob c)) := by
    intro l
    induction l with
    | nil => exact fun db => ⟨[], rfl⟩
    | cons candidate rest ih =>
      intro db
      have hclaim : exec ((Call.claimJob candidate).run cfg env) db = (claimJob cfg env candidate db).2 := by
        simp only [Call.run, exec, Bind.bind]
        cases claimJob cfg env candidate db with
        | mk r db' => cases r <;> rfl
      simp only [claimFirst, exec, Bind.bind]
      cases hc : claimJob cfg env candidate db with
      | mk r db' =>
        rw [hc] at hclaim
        cases r with
        | error e => exact ⟨[candidate], hclaim.symm⟩
        | ok r =>
          cases r with
          | some job => exact ⟨[candidate], hclaim.symm⟩
          | none =>
            obtain ⟨candidates, hrest⟩ := ih db'
            refine ⟨candidate :: candidates, ?_⟩
            simp only [List.map_cons, runCalls, List.foldl_cons, hclaim]
            exact hrest
  exact hfirst _ db

theorem reachable_claimNextJob (h : (system cfg).Reachable db) (env : Env) :
    (system cfg).Reachable (exec (claimNextJob cfg env) db) := by
  obtain ⟨candidates, he⟩ := exec_claimNextJob cfg env db
  rw [he]
  exact reachable_runCalls h _

/-! ### A small deployment, for the runs shown with the results below -/

/-- Digests are sizes, so the sources of the runs below never collide. -/
def sampleConfig : Config where
  sha256Json
    | .payload (.phonebook entries) => BitVec.ofNat 256 entries.length
    | .library _ folders documents => BitVec.ofNat 256 (100 * folders.length + documents.length)
    | _ => 0
  jsonBytes _ _ := []
  buildSummaryMaxItems := 1000
  artifactMaxBytes := 1000
  kekVersion := "1"
  signingKeyVersion := "1"
  retainedRollbackPredecessors := 1
  retentionRestoreAwareEnabled := false
  terminalSnapshotRetention := 0
  retentionBatchSize := 10

/-- The phonebook of department 1. -/
def phonebookTarget : Target := ⟨some 1, none, .departmentPhonebook⟩

/-- A moment at which the phonebook of department 1 has `n` entries. -/
def phonebookEnv (now : Time) (n : ℕ) : Env :=
  { now := now
    canonical := { phonebook := (List.range n).map fun k => ⟨k, 1, none, "", "", "", "", ""⟩ } }

/-- The sealed artifact of a phonebook publication. -/
def phonebookArtifact (id : PublicationId) : ArtifactMetadata where
  path := some (.tenant 1 id)
  size := some 0
  sha256 := some 0
  nonce := [0]
  wrappedCek := [0]
  encryptionAlgorithm := "AES-256-GCM"
  wrappingAlgorithm := "AES-KW-RFC3394"
  kekVersion := "1"
  signature := [0]
  signatureAlgorithm := "Ed25519"
  signingKeyVersion := "1"

/-- Edit the phonebook to `n` entries and build it as job and publication `k`. -/
def phonebookBuild (now : Time) (n k : ℕ) : List (Env × Call) :=
  [(phonebookEnv now n, .markDirty phonebookTarget none), (phonebookEnv now n, .claimJob k),
    (phonebookEnv now n, .finalizePublicationJob k
      [(.entryCount, countValue n), (.sourceRevision, countValue (k + 1))] (some (phonebookArtifact k))
      (some (BitVec.ofNat 256 n)))]

end FireDash.Publications
