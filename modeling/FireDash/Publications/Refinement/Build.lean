import FireDash.Publications.Refinement.Claim

/-! Specifications of the worker services: failure, recovery and finalization. -/
namespace FireDash.Publications

open Tx

variable {cfg : Config} {env : Env} {l : Licence} {purge : Prop} {db : Db}

/-- Close an attempt and its job, releasing the documents of the attempt. -/
def Db.endBuild (db : Db) (j : JobId) (p : PublicationId) (code : DatasetTypeCode)
    (f : Publication → Publication) (g : Job → Job) : Db :=
  ((db.modifyPublication p f).modifyJob j g).release p code

/-- A running job together with the attempt it builds and its scope. -/
structure Building (db : Db) (j : JobId) (a : Job) (p : PublicationId) (pub : Publication) (i : ScopeId)
    (s : Scope) : Prop where
  job : db.jobs.find j = some a
  running : a.status = .running
  link : a.buildPublication = some p
  publication : db.publications.find p = some pub
  building : pub.status = .building
  publication_scope : pub.scopeState = i
  publication_key : pub.key = s.key
  job_scope : a.scopeState = i
  job_key : a.key = s.key
  scope : db.scopes.find i = some s

theorem Inv.building (h : Inv db.core) {j : JobId} {a : Job} {i : ScopeId} {s : Scope}
    (hj : db.jobs.find j = some a) (ha : a.status = .running) (hs : db.scopes.find i = some s)
    (hf : scopeFilter a.key.target = .ok s.key) : ∃ p pub, Building db j a p pub i s := by
  obtain ⟨p, pub, hb, hp, hst⟩ := h.running_building hj ha
  obtain ⟨pub', hp', hsc⟩ := h.build_scope hj hb
  rw [hp] at hp'
  cases hp'
  obtain ⟨hi, hk⟩ := h.locked_job hj hs hf
  obtain ⟨s', hs', hk'⟩ := h.publication_scope hp
  have hss : s' = s := by
    rw [hsc, hi] at hs'
    exact Option.some.inj (hs'.symm.trans hs)
  exact ⟨p, pub, hj, ha, hb, hp, hst, hsc.trans hi, by rw [← hk', hss], hi, hk, hs⟩

theorem Building.endsBuild {j : JobId} {a : Job} {p : PublicationId} {pub : Publication} {i : ScopeId} {s : Scope}
    (b : Building db j a p pub i s) {code : DatasetTypeCode} {f : Publication → Publication} {g : Job → Job}
    (hl : l.close) (hf : (f pub).status = .failed → l.fail) (hrt : (g a).status = .pending → l.retry a.attemptCount)
    (hr : Row l.purge pub (f pub)) (hh : (f pub).status.isHistorical = true) (hk : (g a).key = a.key)
    (hs : (g a).scopeState = a.scopeState)
    (hc : (g a).status.isActive = false ∧ (g a).buildPublication = a.buildPublication ∨
      (g a).status = .pending ∧ (g a).buildPublication = none ∧ (g a).attemptCount = a.attemptCount) :
    Steps cfg l db.core (db.endBuild j p code f g).core :=
  .single (.endBuild hl hf hrt ⟨b.job, b.running, b.link, b.publication, b.building, hr, hh, hk, hs, hc⟩)

/-- A building attempt may be rewritten within its identity and frozen revision. -/
theorem Row.of_building {p q : Publication} (hs : p.status = .building) (h1 : q.scopeState = p.scopeState)
    (h2 : q.key = p.key) (h3 : q.versionNumber = p.versionNumber) (h4 : q.sourceRevision = p.sourceRevision)
    (h5 : q.status ≠ .staged) : Row purge p q := by
  constructor <;> simp_all [PublicationStatus.isFinished]

/-- Register a follow-up build when the scope is still dirty. -/
def Db.followUp (db : Db) (cfg : Config) (target : Target) (s : Scope) : Db :=
  if db.scopeIsDirty cfg s then db.register (.enqueue target s.dirtySince) else db

@[simp] theorem Db.followUp_core (target : Target) (s : Scope) : (db.followUp cfg target s).core = db.core := by
  unfold Db.followUp
  split <;> rfl

theorem wp_queueFollowUpIfStale {job : Job} {Q : Unit → Db → Prop} {E : Error → Db → Prop}
    (hQ : ∀ i s, db.scopes.find i = some s → scopeFilter job.key.target = .ok s.key →
      Q () (db.followUp cfg job.key.target s))
    (hE : ∀ e, E e db) : wp (queueFollowUpIfStale cfg job) Q E db := by
  simp only [queueFollowUpIfStale, wp_bind]
  refine wp_lockedScope (fun i s hs hf => ?_) hE
  simp only [wp_get, wp_whenever, wp_modify]
  have h := hQ i s hs hf
  unfold Db.followUp at h
  exact ⟨fun hd => by rwa [if_pos hd] at h, fun hd => by rwa [if_neg hd] at h⟩

@[simp] theorem Db.scheduleRemoval_core (path : Option ArtifactPath) : (db.scheduleRemoval path).core = db.core := by
  cases path <;> rfl

@[simp] theorem Db.scheduleRemoval_scopes (path : Option ArtifactPath) :
    (db.scheduleRemoval path).scopes = db.scopes := by
  cases path <;> rfl

@[simp] theorem Db.scheduleRemoval_publications (path : Option ArtifactPath) :
    (db.scheduleRemoval path).publications = db.publications := by
  cases path <;> rfl

@[simp] theorem Db.scheduleRemoval_jobs (path : Option ArtifactPath) :
    (db.scheduleRemoval path).jobs = db.jobs := by
  cases path <;> rfl

theorem Building.scheduleRemoval {j : JobId} {a : Job} {p : PublicationId} {pub : Publication} {i : ScopeId}
    {s : Scope} (b : Building db j a p pub i s) (path : Option ArtifactPath) :
    Building (db.scheduleRemoval path) j a p pub i s := by
  obtain ⟨h1, h2, h3, h4, h5, h6, h7, h8, h9, h10⟩ := b
  exact ⟨by simpa, h2, h3, by simpa, h5, h6, h7, h8, h9, by simpa⟩

/-- Two scope rows locked for one target are the same row. -/
theorem Inv.locked_unique {c : Core} (h : Inv c) {target : Target} {i k : ScopeId} {s t : Scope}
    (hs : c.scopes.find i = some s) (ht : c.scopes.find k = some t) (hf : scopeFilter target = .ok s.key)
    (hf' : scopeFilter target = .ok t.key) : k = i ∧ t = s := by
  have hk : t.key = s.key := by
    rw [hf] at hf'
    exact (Except.ok.inj hf').symm
  obtain rfl := h.scope_key ht hs hk
  exact ⟨rfl, Option.some.inj (ht.symm.trans hs)⟩

/-- The database after a reported failure. -/
def Db.buildFailed (db : Db) (cfg : Config) (now : Time) (j : JobId) (p : PublicationId) (pub : Publication)
    (s : Scope) (message category : String) : Db :=
  ((db.scheduleRemoval pub.artifact.path).endBuild j p pub.key.target.datasetTypeCode
    (Publication.failed message) (Job.failed now message category)).followUp cfg pub.key.target s

/-- The ways a failure report returns. -/
inductive Failed (cfg : Config) (env : Env) (db : Db) (j : JobId) (message category : String) : Db → Prop
  | ignored {a} (hj : db.jobs.find j = some a) (ha : a.status ≠ .running) : Failed cfg env db j message category db
  | failed {a p pub i s} (b : Building db j a p pub i s) :
      Failed cfg env db j message category
        (db.buildFailed cfg env.now j p pub s (message.take 2000).copy (category.take 32).copy)

theorem wp_releaseTerminal {p : PublicationId} {pub : Publication} {Q : Unit → Db → Prop} {E : Error → Db → Prop}
    (hst : pub.status.isReleasable = true) (hQ : Q () (db.release p pub.key.target.datasetTypeCode)) :
    wp (releaseTerminalDocumentArtifactReferences p pub) Q E db := by
  simp only [releaseTerminalDocumentArtifactReferences, wp_bind, wp_ensure, wp_modify]
  exact ⟨fun _ => hQ, fun hn => absurd hst hn⟩

theorem wp_failAttempt {p : PublicationId} {pub : Publication} {message : String} {Q : Unit → Db → Prop}
    {E : Error → Db → Prop} (hp : db.publications.find p = some pub) (hst : pub.status = .building)
    (hQ : Q () (((db.scheduleRemoval pub.artifact.path).modifyPublication p (Publication.failed message)).release p
      pub.key.target.datasetTypeCode)) :
    wp (failAttempt p message) Q E db := by
  simp only [failAttempt, wp_bind, wp_get, hp, scheduleArtifactRemoval, wp_modify, wp_whenever]
  exact ⟨fun _ => wp_releaseTerminal rfl hQ, fun hn => absurd hst hn⟩

theorem wp_failPublicationJob {j : JobId} {message category : String} (h : Inv db.core) :
    wp (failPublicationJob cfg env j message category) (fun r db' => r = j ∧ Failed cfg env db j message category db')
      (fun _ db' => db' = db) db := by
  simp only [failPublicationJob, wp_atomic, wp_bind, wp_get, wp_require]
  refine ⟨fun a hj => wp_lockedScope (fun i s hs hf => ?_) (fun _ => trivial), fun _ => trivial⟩
  simp only [wp_ite, wp_pure, wp_bind, wp_modify]
  refine ⟨fun ha => ⟨trivial, .ignored hj ha⟩, fun ha => ?_⟩
  rw [not_not] at ha
  obtain ⟨p, pub, b⟩ := h.building hj ha hs hf
  have hdone : Failed cfg env db j message category
      (db.buildFailed cfg env.now j p pub s (message.take 2000).copy (category.take 32).copy) := .failed b
  simp only [b.link, wp_bind]
  refine wp_failAttempt b.publication b.building ?_
  refine wp_queueFollowUpIfStale (fun i' s' hs' hf' => ?_) (fun _ => trivial)
  have hs'' : db.scopes.find i' = some s' := by
    rw [← hs']
    cases pub.artifact.path <;> rfl
  obtain ⟨rfl, rfl⟩ := h.locked_unique hs hs'' hf hf'
  refine ⟨rfl, ?_⟩
  unfold Db.buildFailed at hdone
  rw [show a.key = pub.key from b.job_key.trans b.publication_key.symm]
  cases hpath : pub.artifact.path <;> rw [hpath] at hdone <;> exact hdone

theorem Failed.steps {j : JobId} {message category : String} {db' : Db} (hl : l.close) (hf : l.fail)
    (m : Failed cfg env db j message category db') : Steps cfg l db.core db'.core := by
  cases m with
  | ignored hj ha => exact .refl
  | @failed a p pub i s b =>
    rw [Db.buildFailed, Db.followUp_core]
    have hend : Steps cfg l (db.scheduleRemoval pub.artifact.path).core
        ((db.scheduleRemoval pub.artifact.path).endBuild j p pub.key.target.datasetTypeCode
          (Publication.failed (message.take 2000).copy)
          (Job.failed env.now (message.take 2000).copy (category.take 32).copy)).core :=
      (b.scheduleRemoval pub.artifact.path).endsBuild hl (fun _ => hf) (by simp [Job.failed])
        (.of_building b.building rfl rfl rfl rfl (by simp [Publication.failed])) rfl rfl rfl (.inl ⟨rfl, rfl⟩)
    rwa [Db.scheduleRemoval_core] at hend

/-- One stale job is retried or given up. -/
inductive Recovers (cfg : Config) (env : Env) (timeout maxAttempts : ℕ) (db : Db) : Db → Prop
  | exhausted {j a p pub i s} (b : Building db j a p pub i s) (hst : a.stale env.now timeout = true)
      (hmax : maxAttempts ≤ a.attemptCount) :
      Recovers cfg env timeout maxAttempts db
        ((db.endBuild j p pub.key.target.datasetTypeCode Publication.timedOut (Job.exhausted env.now)).followUp cfg
          pub.key.target s)
  | retried {j a p pub i s} (b : Building db j a p pub i s) (hst : a.stale env.now timeout = true)
      (hmax : a.attemptCount < maxAttempts) :
      Recovers cfg env timeout maxAttempts db
        (db.endBuild j p pub.key.target.datasetTypeCode Publication.timedOut Job.retried)

theorem Recovers.steps {timeout maxAttempts : ℕ} {db' : Db} (hl : l.close) (hf : l.fail)
    (hr : ∀ n, n < maxAttempts → l.retry n) (m : Recovers cfg env timeout maxAttempts db db') :
    Steps cfg l db.core db'.core := by
  cases m with
  | exhausted b hst hmax =>
    rw [Db.followUp_core]
    exact b.endsBuild hl (fun _ => hf) (by simp [Job.exhausted, Job.failed])
      (.of_building b.building rfl rfl rfl rfl (by simp [Publication.timedOut])) rfl rfl rfl (.inl ⟨rfl, rfl⟩)
  | retried b hst hmax =>
    exact b.endsBuild hl (fun _ => hf) (fun _ => hr _ hmax)
      (.of_building b.building rfl rfl rfl rfl (by simp [Publication.timedOut])) rfl rfl rfl (.inr ⟨rfl, rfl, rfl⟩)

theorem wp_recoverAttempt {db₀ : Db} {a : Job} {p : PublicationId} {pub : Publication} {Q : Unit → Db → Prop}
    {E : Error → Db → Prop} (hb : a.buildPublication = some p) (hp : db₀.publications.find p = some pub)
    (hst : pub.status = .building)
    (hQ : Q () ((db.modifyPublication p Publication.timedOut).release p pub.key.target.datasetTypeCode)) :
    wp (recoverAttempt db₀ a) Q E db := by
  simp only [recoverAttempt, hb, hp, Option.bind_some, Option.map_some, wp_whenever, wp_bind, wp_modify]
  exact ⟨fun _ => wp_releaseTerminal rfl hQ, fun hn => absurd hst hn⟩

theorem wp_recoverJob {timeout maxAttempts : ℕ} {j : JobId} {Q : Unit → Db → Prop} {E : Error → Db → Prop}
    (h : Inv db.core) (hno : Q () db) (hQ : ∀ db', Recovers cfg env timeout maxAttempts db db' → Q () db')
    (hE : ∀ e db', E e db') : wp (recoverJob cfg env timeout maxAttempts j) Q E db := by
  simp only [recoverJob, wp_bind, wp_get]
  cases hj : db.jobs.find j with
  | none => exact hno
  | some a =>
    simp only [wp_bind]
    refine wp_lockedScope (fun i s hs hf => ?_) (fun e => hE e _)
    simp only [wp_whenever, wp_bind]
    refine ⟨fun hst => ?_, fun _ => hno⟩
    have ha : a.status = .running := by
      simp only [Job.stale, decide_eq_true_eq] at hst
      exact hst.1
    obtain ⟨p, pub, b⟩ := h.building hj ha hs hf
    refine wp_recoverAttempt b.link b.publication b.building ?_
    simp only [wp_ite, wp_bind, wp_modify]
    refine ⟨fun hmax => ?_, fun hmax => hQ _ (.retried b hst (not_le.mp hmax))⟩
    refine wp_queueFollowUpIfStale (fun i' s' hs' hf' => ?_) (fun e => hE e _)
    obtain ⟨rfl, rfl⟩ := h.locked_unique hs hs' hf hf'
    rw [show a.key = pub.key from b.job_key.trans b.publication_key.symm]
    exact hQ _ (.exhausted b hst hmax)

/-- A recovery pass is a sequence of recoveries. -/
def Recovery (cfg : Config) (env : Env) (timeout maxAttempts : ℕ) : Db → Db → Prop :=
  Relation.ReflTransGen (Recovers cfg env timeout maxAttempts)

theorem Recovery.steps {timeout maxAttempts : ℕ} {db' : Db} (hl : l.close) (hf : l.fail)
    (hr : ∀ n, n < maxAttempts → l.retry n) (m : Recovery cfg env timeout maxAttempts db db') :
    Steps cfg l db.core db'.core := by
  induction m with
  | refl => exact .refl
  | tail _ m ih => exact ih.trans (m.steps hl hf hr)

theorem wp_recoverStaleJobs {timeout maxAttempts : ℕ} (h : Inv db.core) :
    wp (recoverStaleJobs cfg env timeout maxAttempts)
      (fun _ db' => 1 ≤ maxAttempts ∧ Recovery cfg env timeout maxAttempts db db') (fun _ db' => db' = db) db := by
  simp only [recoverStaleJobs, wp_atomic, wp_bind, wp_ensure, wp_get, wp_pure, implies_true, and_true]
  intro _ hmax
  refine wp_mono (wp_forEach (fun _ db' => Recovery cfg env timeout maxAttempts db db') _ .refl ?_)
    (fun _ _ hr => ⟨hmax, hr⟩) (fun _ _ h => h)
  intro j rest db' hr
  have hsteps : Steps cfg { close := True, fail := True, retry := fun _ => True } db.core db'.core :=
    hr.steps trivial trivial fun _ _ => trivial
  exact wp_recoverJob (hsteps.inv h) hr (fun _ m => hr.tail m) (fun _ _ => trivial)

/-- Revoke the grants of the current publication of a scope and supersede it. -/
def Db.supersede (db : Db) (now : Time) (s : Scope) : Db :=
  match s.currentPublishedPublication.bind fun q => (db.publications.find q).map fun previous => (q, previous) with
  | none => db
  | some (q, previous) =>
    (db.revokePublicationDatasetKeyGrants now q previous).modifyPublication q fun row =>
      { row with status := .superseded }

theorem wp_supersedeCurrent {i : ScopeId} {s : Scope} (h : Inv db.core) (hs : db.scopes.find i = some s)
    {Q : Unit → Db → Prop} {E : Error → Db → Prop} (hQ : Q () (db.supersede env.now s)) :
    wp (supersedeCurrent env s) Q E db := by
  unfold supersedeCurrent
  unfold Db.supersede at hQ
  cases hc : s.currentPublishedPublication with
  | none => simpa [hc] using hQ
  | some q =>
    obtain ⟨previous, hq, -⟩ := h.current_published hs hc
    change db.publications.find q = some previous at hq
    simp only [hc, hq, Option.bind_some, Option.map_some] at hQ
    simpa [hq] using hQ

/-- The pointer of a scope names an existing row, so superseding is the core update. -/
theorem Db.supersede_core {i : ScopeId} {s : Scope} (h : Inv db.core) (hs : db.scopes.find i = some s) (now : Time) :
    (db.supersede now s).core =
      { db.core with publications := db.core.superseded s.currentPublishedPublication } := by
  unfold Db.supersede
  cases hc : s.currentPublishedPublication with
  | none => rfl
  | some q =>
    obtain ⟨previous, hq, -⟩ := h.current_published hs hc
    change db.publications.find q = some previous at hq
    simp only [Option.bind_some, hq, Option.map_some]
    rfl

/-- The scope object of a finalization after the pointer moved. -/
def Scope.published (s : Scope) (cfg : Config) (db : Db) (p : PublicationId) (build : FinishedBuild) : Scope :=
  { s with
    currentSourceFingerprint := translatedFingerprint cfg s (db.currentPublication s) build.fingerprint
    latestBuiltPublication := some p
    currentPublishedPublication := some p }

/-- The publication rows after a successful finalization. -/
def Db.publishAttempt (db : Db) (now : Time) (s : Scope) (p : PublicationId) (build : FinishedBuild) : Db :=
  (db.supersede now s).modifyPublication p (Publication.finish now build s.currentPublishedPublication)

/-- Whether a successful finalization leaves its scope dirty. -/
def Db.changedDuringBuild (db : Db) (cfg : Config) (now : Time) (s : Scope) (p : PublicationId)
    (build : FinishedBuild) : Bool :=
  (db.publishAttempt now s p build).scopeIsDirty cfg (s.published cfg db p build)

/-- The dirty window a successful finalization leaves. -/
def Db.dirtyAfter (db : Db) (cfg : Config) (now : Time) (s : Scope) (p : PublicationId) (build : FinishedBuild) :
    Option Time :=
  if db.changedDuringBuild cfg now s p build then s.dirtySince.or (some now) else none

/-- The lifecycle rows after a successful finalization. -/
def Db.switched (db : Db) (cfg : Config) (now : Time) (i : ScopeId) (s : Scope) (j : JobId) (p : PublicationId)
    (build : FinishedBuild) : Db :=
  ((db.publishAttempt now s p build).setScope i
    { s.published cfg db p build with dirtySince := db.dirtyAfter cfg now s p build }).modifyJob j
      (Job.succeeded now)

/-- The database after a successful finalization. -/
def Db.buildPublished (db : Db) (cfg : Config) (now : Time) (i : ScopeId) (s : Scope) (j : JobId)
    (p : PublicationId) (build : FinishedBuild) : Db :=
  if db.changedDuringBuild cfg now s p build then
    (db.switched cfg now i s j p build).register (.enqueue s.key.target (db.dirtyAfter cfg now s p build))
  else db.switched cfg now i s j p build

theorem wp_activateFinished {j : JobId} {a : Job} {p : PublicationId} {pub : Publication} {i : ScopeId} {s : Scope}
    {build : FinishedBuild} (h : Inv db.core) (b : Building db j a p pub i s) {Q : Unit → Db → Prop}
    {E : Error → Db → Prop}
    (hQ : (Publication.finish env.now build s.currentPublishedPublication pub).clean env.canonical db.documents s p
        = .ok () → guardDocumentGeneration pub build.fingerprint = .ok () →
      Q () (db.buildPublished cfg env.now i s j p build))
    (hE : ∀ e db', E e db') : wp (activateFinished cfg env i s j a p pub build) Q E db := by
  simp only [activateFinished, wp_bind, wp_get]
  refine wp_supersedeCurrent h b.scope ?_
  simp only [wp_ofExcept, wp_modify, wp_whenever]
  refine ⟨fun _ hclean => ⟨fun _ hguard => ?_, fun e _ => hE e _⟩, fun e _ => hE e _⟩
  have hdone := hQ hclean hguard
  have hscope : ((db.supersede env.now s).modifyPublication p
      (Publication.finish env.now build s.currentPublishedPublication)).scopes.find i = some s := by
    have hc := congrArg Core.scopes (db.supersede_core h b.scope env.now)
    change (db.supersede env.now s).scopes = db.scopes at hc
    change (db.supersede env.now s).scopes.find i = some s
    rw [hc, b.scope]
  rw [Db.modifyScope_eq_setScope hscope]
  unfold Db.buildPublished at hdone
  rw [b.job_key]
  change (db.changedDuringBuild cfg env.now s p build = true → _) ∧
    (¬db.changedDuringBuild cfg env.now s p build = true → _)
  exact ⟨fun hd => by rwa [if_pos hd] at hdone, fun hd => by rwa [if_neg hd] at hdone⟩

/-- Publishing an attempt that is building moves the pointer of its scope. -/
theorem Db.switched_steps (hl : l.publish) {j : JobId} {a : Job} {p : PublicationId} {pub : Publication} {i : ScopeId} {s : Scope}
    {now : Time} {build : FinishedBuild} (h : Inv db.core) (b : Building db j a p pub i s)
    (hfp : publicationSourceFingerprint cfg (Publication.finish now build s.currentPublishedPublication pub) =
      build.fingerprint) :
    Steps cfg l db.core (db.switched cfg now i s j p build).core := by
  have hcore : (db.switched cfg now i s j p build).core =
      ⟨db.core.scopes.modify i fun _ =>
          { s.published cfg db p build with dirtySince := db.dirtyAfter cfg now s p build },
        (db.core.superseded s.currentPublishedPublication).modify p
          (Publication.finish now build s.currentPublishedPublication),
        db.core.jobs.modify j (Job.succeeded now)⟩ := by
    have hc := db.supersede_core h b.scope now
    have hscopes := congrArg Core.scopes hc
    have hpubs := congrArg Core.publications hc
    have hjobs := congrArg Core.jobs hc
    change (db.supersede now s).scopes = db.scopes at hscopes
    change (db.supersede now s).publications = _ at hpubs
    change (db.supersede now s).jobs = db.jobs at hjobs
    simp only [Db.switched, Db.publishAttempt, Db.core, Db.setScope, Db.modifyScope, Db.modifyPublication,
      Db.modifyJob, hscopes, hpubs, hjobs]
  rw [hcore]
  exact .single (.publish hl (s := s) (a := a) ⟨b.scope, b.job, b.running, b.link, b.publication, b.building,
    b.publication_scope, .of_building b.building rfl rfl rfl rfl (by simp [Publication.finish]), rfl, hfp,
    rfl, rfl, rfl, rfl, rfl, rfl⟩)

theorem Db.buildPublished_core (now : Time) (i : ScopeId) (s : Scope) (j : JobId) (p : PublicationId)
    (build : FinishedBuild) :
    (db.buildPublished cfg now i s j p build).core = (db.switched cfg now i s j p build).core := by
  unfold Db.buildPublished
  split <;> rfl

/-- A finalization stores the fingerprint of the frozen snapshot. -/
theorem finalFingerprint_logical {pub : Publication} {now : Time} {build : FinishedBuild} {given : Fingerprint}
    {q : Option PublicationId} (h : build.fingerprint = finalFingerprint cfg pub given) :
    publicationSourceFingerprint cfg (Publication.finish now build q pub) = build.fingerprint := by
  by_cases hfile : pub.key.target.datasetTypeCode.isFileDataset = true
  · simp only [finalFingerprint, publicationSourceFingerprint, hfile, if_true, Publication.finish] at h ⊢
    cases hsn : pub.sourceSnapshot with
    | none => rfl
    | some snapshot =>
      cases snapshot with
      | fileLibrary library =>
        rw [hsn] at h
        exact h.symm
      | _ => rfl
  · simp [publicationSourceFingerprint, Publication.finish, hfile]

/-- The request with which a retired file attempt is queued again. -/
def Job.requeue (job : Job) : EnqueueRequest :=
  { target := job.key.target
    requestedBy := job.requestedBy
    triggerType := job.triggerType
    allowCleanRebuild := job.allowCleanRebuild }

/-- The database after a finalization dropped an attempt without publishing it. -/
def Db.dropped (db : Db) (now : Time) (j : JobId) (p : PublicationId) (pub : Publication)
    (path : Option ArtifactPath) (f : Publication → Publication) : Db :=
  (db.scheduleRemoval path).endBuild j p pub.key.target.datasetTypeCode f (Job.obsoleted now)

/-- The library moved on while a file attempt was building. -/
def Publication.outdated (pub : Publication) (s : Scope) : Prop :=
  pub.key.target.datasetTypeCode.isFileDataset = true ∧ s.sourceRevision ≠ pub.sourceRevision

/-- The ways a finalization returns. -/
inductive Finalized (cfg : Config) (env : Env) (l : Licence) (db : Db) (j : JobId) (summary : Summary)
    (artifact : Option ArtifactMetadata) (given : Fingerprint) : Db → Prop
  | ignored {a} (hj : db.jobs.find j = some a) (ha : a.status ≠ .running) :
      Finalized cfg env l db j summary artifact given (db.scheduleRemoval (artifact.bind (·.path)))
  | stale {a p pub i s r db'} (b : Building db j a p pub i s) (ho : pub.outdated s)
      (he : Enqueued cfg env l a.requeue
        (db.dropped env.now j p pub (artifact.bind (·.path)) Publication.obsoleted) r db') :
      Finalized cfg env l db j summary artifact given db'
  | duplicate {a p pub i s} (b : Building db j a p pub i s) (ho : ¬pub.outdated s)
      (hdup : db.finalizeDuplicates cfg s a (finalFingerprint cfg pub given) = true)
      (hguard : guardDocumentGeneration pub (finalFingerprint cfg pub given) = .ok ()) :
      Finalized cfg env l db j summary artifact given
        ((db.dropped env.now j p pub (artifact.bind (·.path)) fun row =>
          { row.obsoleted with sourceFingerprint := finalFingerprint cfg pub given }).setScope i
            { s with dirtySince := none })
  | published {a p pub i s definition build} (b : Building db j a p pub i s) (ho : ¬pub.outdated s)
      (hdup : db.finalizeDuplicates cfg s a (finalFingerprint cfg pub given) = false)
      (hdef : getDatasetDefinition s.key.target.datasetTypeCode = .ok definition)
      (hvalid : validateSummary cfg definition summary = .ok ())
      (hchange : buildChangeSummary definition (db.previousSummary s) summary = .ok build.changeSummary)
      (hsummary : build.summary = summary) (hartifact : build.artifact = artifact)
      (hfp : build.fingerprint = finalFingerprint cfg pub given)
      (hclean : (Publication.finish env.now build s.currentPublishedPublication pub).clean env.canonical
        db.documents s p = .ok ())
      (hguard : guardDocumentGeneration pub build.fingerprint = .ok ()) :
      Finalized cfg env l db j summary artifact given (db.buildPublished cfg env.now i s j p build)

theorem Building.dropped {j : JobId} {a : Job} {p : PublicationId} {pub : Publication} {i : ScopeId} {s : Scope}
    (b : Building db j a p pub i s) {now : Time} {path : Option ArtifactPath} {f : Publication → Publication}
    (hl : l.close) (hf : (f pub).status ≠ .failed) (hr : Row l.purge pub (f pub)) (hh : (f pub).status.isHistorical = true) :
    Steps cfg l db.core (db.dropped now j p pub path f).core := by
  have hend : Steps cfg l (db.scheduleRemoval path).core (db.dropped now j p pub path f).core :=
    (b.scheduleRemoval path).endsBuild hl (fun h => absurd h hf) (by simp [Job.obsoleted]) hr hh rfl rfl
      (.inl ⟨rfl, rfl⟩)
  rwa [Db.scheduleRemoval_core] at hend

theorem wp_obsoleteDuplicate {j : JobId} {a : Job} {p : PublicationId} {pub : Publication} {i : ScopeId} {s : Scope}
    {fingerprint : Fingerprint} {path : Option ArtifactPath} (b : Building db j a p pub i s) {Q : Unit → Db → Prop}
    {E : Error → Db → Prop}
    (hQ : guardDocumentGeneration pub fingerprint = .ok () → Q () ((db.dropped env.now j p pub path fun row =>
      { row.obsoleted with sourceFingerprint := fingerprint }).setScope i { s with dirtySince := none }))
    (hE : ∀ e db', E e db') :
    wp (obsoleteDuplicate env i j p pub fingerprint) Q E (db.scheduleRemoval path) := by
  simp only [obsoleteDuplicate, wp_bind, wp_modify, wp_ofExcept]
  refine ⟨fun _ hguard => wp_releaseTerminal rfl ?_, fun e _ => hE e _⟩
  rw [Db.modifyScope_eq_setScope (s := s)]
  · exact hQ hguard
  · exact (b.scheduleRemoval path).scope

theorem wp_retireStaleFileAttempt {j : JobId} {a : Job} {p : PublicationId} {pub : Publication} {i : ScopeId}
    {s : Scope} {path : Option ArtifactPath} (h : Inv db.core) (b : Building db j a p pub i s)
    {Q : Unit → Db → Prop} {E : Error → Db → Prop}
    (hQ : ∀ r db', Enqueued cfg env l a.requeue (db.dropped env.now j p pub path Publication.obsoleted) r db' →
      Q () db') (hE : ∀ e db', E e db') :
    wp (retireStaleFileAttempt cfg env j a p pub) Q E (db.scheduleRemoval path) := by
  simp only [retireStaleFileAttempt, wp_bind, wp_modify]
  refine wp_releaseTerminal rfl ?_
  have hsteps : Steps cfg { close := True } db.core (db.dropped env.now j p pub path Publication.obsoleted).core :=
    b.dropped trivial (by simp [Publication.obsoleted]) (.of_building b.building rfl rfl rfl rfl (by simp [Publication.obsoleted])) rfl
  exact wp_mono (wp_enqueuePublicationJob (l := l) (hsteps.inv h)) (fun r db' he => hQ r db' he) (fun _ _ _ => hE _ _)

theorem wp_finalizePublicationJob {j : JobId} {summary : Summary} {artifact : Option ArtifactMetadata}
    {given : Fingerprint} (h : Inv db.core) :
    wp (finalizePublicationJob cfg env j summary artifact given)
      (fun r db' => r = j ∧ Finalized cfg env l db j summary artifact given db') (fun _ db' => db' = db) db := by
  simp only [finalizePublicationJob, wp_atomic, wp_bind, wp_get, wp_require]
  refine ⟨fun a hj => wp_lockedScope (fun i s hs hf => ?_) (fun _ => trivial), fun _ => trivial⟩
  simp only [wp_ite, wp_bind, wp_pure, scheduleArtifactRemoval, wp_modify]
  refine ⟨fun ha => ⟨trivial, .ignored hj ha⟩, fun ha => ?_⟩
  rw [not_not] at ha
  obtain ⟨p, pub, b⟩ := h.building hj ha hs hf
  simp only [b.link, b.publication, wp_bind, wp_require, Option.some.injEq, reduceCtorEq, forall_eq',
    IsEmpty.forall_iff, and_true, wp_ite, b.building, ne_eq, not_true_eq_false, not_false_eq_true, true_and,
    wp_ofExcept, wp_pure, wp_modify, forall_const, implies_true, and_true]
  intro definition hdef _ hvalid change hchange
  rw [b.job_key] at hdef
  refine ⟨fun ho => ?_, fun ho => ⟨fun hdup => ?_, fun hdup => ?_⟩⟩
  · exact wp_retireStaleFileAttempt h b (fun r db' he => .stale b ho he) (fun _ _ => trivial)
  · exact wp_obsoleteDuplicate b (.duplicate b ho hdup) (fun _ _ => trivial)
  · rw [Bool.not_eq_true] at hdup
    refine wp_activateFinished h b (fun hclean hguard => ?_) (fun _ _ => trivial)
    have hdone : Finalized cfg env l db j summary artifact given (db.buildPublished cfg env.now i s j p
        ⟨summary, change, artifact, finalFingerprint cfg pub given⟩) :=
      .published b ho hdup hdef hvalid hchange rfl rfl rfl hclean hguard
    exact hdone

/-- A finalization ends with its attempt as the current publication. -/
def Db.FinishesAs (db : Db) (cfg : Config) (now : Time) (j : JobId) (db' : Db) : Prop :=
  ∃ a p pub i s build, Building db j a p pub i s ∧ db' = db.buildPublished cfg now i s j p build

theorem Finalized.steps {j : JobId} {summary : Summary} {artifact : Option ArtifactMetadata} {given : Fingerprint}
    {db' : Db} (hl : l.mint) (hc : l.close) (hp : db.FinishesAs cfg env.now j db' → l.publish) (h : Inv db.core)
    (m : Finalized cfg env l db j summary artifact given db') :
    Steps cfg l db.core db'.core := by
  cases m with
  | ignored hj ha =>
    rw [Db.scheduleRemoval_core]
    exact .refl
  | @stale a p pub i s r db' b ho he =>
    have hsteps : Steps cfg l db.core
        (db.dropped env.now j p pub (artifact.bind (·.path)) Publication.obsoleted).core :=
      b.dropped hc (by simp [Publication.obsoleted]) (.of_building b.building rfl rfl rfl rfl (by simp [Publication.obsoleted])) rfl
    exact hsteps.trans (he.steps hl (hsteps.inv h))
  | @duplicate a p pub i s b ho hdup hguard =>
    have hsteps : Steps cfg l db.core (db.dropped env.now j p pub (artifact.bind (·.path)) fun row =>
        { row.obsoleted with sourceFingerprint := finalFingerprint cfg pub given }).core :=
      b.dropped hc (by simp [Publication.obsoleted]) (.of_building b.building rfl rfl rfl rfl (by simp [Publication.obsoleted])) rfl
    exact hsteps.trans (.setScope (b.scheduleRemoval _).scope rfl rfl (.inl rfl))
  | published b ho hdup hdef hvalid hchange hsummary hartifact hfp hclean hguard =>
    rw [Db.buildPublished_core]
    exact Db.switched_steps (hp ⟨_, _, _, _, _, _, b, rfl⟩) h b (finalFingerprint_logical hfp)

end FireDash.Publications
