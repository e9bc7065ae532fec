import FireDash.Publications.Refinement.Scopes

/-! Specifications of the queue services. Each service has one lemma that lists the ways
it can return; everything else is derived from these lists. -/
namespace FireDash.Publications

open Tx

variable {cfg : Config} {env : Env} {l : Licence} {db : Db}

theorem wp_enqueueSource {i : ScopeId} {s : Scope} {source : Option (Snapshot × Digest)}
    (hs : db.scopes.find i = some s) {Q : Snapshot × Digest × Scope → Db → Prop} {E : Error → Db → Prop}
    (hgiven : ∀ snapshot d, source = some (snapshot, d) → Q (snapshot, d, s) db)
    (hread : ∀ snapshot d, source = none → currentSource cfg env s.key.target = .ok (snapshot, d) →
      Q (snapshot, d, s.recorded cfg db snapshot d) (db.setScope i (s.recorded cfg db snapshot d)))
    (hE : ∀ e, source = none → currentSource cfg env s.key.target = .error e → E e db) :
    wp (enqueueSource cfg env i s source) Q E db := by
  cases source with
  | some given => exact hgiven given.1 given.2 rfl
  | none =>
    simp only [enqueueSource, wp_bind]
    refine wp_currentSourceState hs (fun snapshot d hread' => ?_) (fun e he => hE e rfl he)
    simp only [wp_get, wp_whenever, wp_modify, wp_pure]
    have h := hread snapshot d rfl hread'
    have hfind := Db.find_setScope hs (s.refreshed snapshot)
    refine ⟨fun _ => ?_, fun he => ?_⟩
    · rw [Db.modifyScope_eq_setScope hfind, Db.setScope_setScope]
      exact h
    · rw [not_not] at he
      have hsame : s.recorded cfg db snapshot d = s.refreshed snapshot := by
        rw [Scope.recorded]
        exact congrArg (fun f => { s.refreshed snapshot with currentSourceFingerprint := f }) he.symm
      change Q (snapshot, d, s.recorded cfg db snapshot d) _
      rwa [hsame] at h ⊢

/-- Insert a job linked to a new staged attempt. -/
def Db.addAttempt (db : Db) (job : Job) (publication : Publication) : Db :=
  { db with
    jobs := db.jobs.insert (job.link db.publications.nextId)
    publications := db.publications.insert publication }

/-- Rewrite a pending job and, while it is staged, the attempt it is linked to. -/
def Db.coalesced (db : Db) (env : Env) (request : EnqueueRequest) (j : JobId) (a : Job) (s : Scope)
    (snapshot : Snapshot) (d : Digest) : Db :=
  let db := db.modifyJob j (Job.coalesce env.now request s.sourceRevision)
  match a.buildPublication with
  | some p =>
    if ∃ pub ∈ db.publications.find p, pub.status = .staged then
      db.modifyPublication p fun row =>
        { row with sourceRevision := s.sourceRevision, sourceFingerprint := some d, sourceSnapshot := some snapshot }
    else db
  | none => db

/-- What an enqueue reads before it decides: the locked scope `s`, the source and the
scope object `t` it works with. -/
structure EnqueueReads (cfg : Config) (env : Env) (request : EnqueueRequest) (db : Db) (i : ScopeId)
    (s t : Scope) (snapshot : Snapshot) (d : Digest) : Prop where
  scope : db.scopes.find i = some s
  key : scopeFilter request.target = .ok s.key
  source : request.source = some (snapshot, d) ∧ t = s ∨
    request.source = none ∧ currentSource cfg env s.key.target = .ok (snapshot, d) ∧
      t = s.recorded cfg db snapshot d

/-- The four ways an enqueue returns. -/
inductive Enqueued (cfg : Config) (env : Env) (l : Licence) (request : EnqueueRequest) (db : Db) :
    Option JobId → Db → Prop
  | clean {i s t snapshot d db'} (h : EnqueueReads cfg env request db i s t snapshot d)
      (ha : request.allowCleanRebuild = false) (hd : db.scopeIsDirty cfg t (some d) = false)
      (hc : Cancels cfg l i (db.setScope i (t.reconciled (db.storedSourceFingerprint cfg t d))) db') :
      Enqueued cfg env l request db none db'
  | running {i s t snapshot d j a} (h : EnqueueReads cfg env request db i s t snapshot d)
      (hd : request.allowCleanRebuild = true ∨ db.scopeIsDirty cfg t (some d) = true)
      (hj : db.jobs.find j = some a) (hk : a.key = s.key) (ha : a.status = .running) :
      Enqueued cfg env l request db none (db.setScope i t)
  | coalesced {i s t snapshot d j a} (h : EnqueueReads cfg env request db i s t snapshot d)
      (hd : request.allowCleanRebuild = true ∨ db.scopeIsDirty cfg t (some d) = true)
      (hj : db.jobs.find j = some a) (hk : a.key = s.key) (ha : a.status = .pending) :
      Enqueued cfg env l request db (some j) ((db.setScope i t).coalesced env request j a t snapshot d)
  | created {i s t snapshot d definition} (h : EnqueueReads cfg env request db i s t snapshot d)
      (hd : request.allowCleanRebuild = true ∨ db.scopeIsDirty cfg t (some d) = true)
      (hn : ∀ {j a}, db.jobs.find j = some a → a.key = s.key → a.status.isActive = false)
      (hdef : getDatasetDefinition s.key.target.datasetTypeCode = .ok definition) :
      Enqueued cfg env l request db (some db.jobs.nextId)
        ((db.setScope i t).addAttempt (request.newJob env.now s.key i t.sourceRevision)
          (db.stagedPublication env i s.key definition.currentSchemaVersion t.sourceRevision
            request.requestedBy d snapshot))

theorem wp_createJob {request : EnqueueRequest} {i : ScopeId} {s : Scope} {key : ScopeKey} {snapshot : Snapshot}
    {d : Digest} {Q : JobId → Db → Prop} {E : Error → Db → Prop}
    (hkey : scopeFilter request.target = .ok key)
    (hQ : ∀ definition, getDatasetDefinition key.target.datasetTypeCode = .ok definition →
      Q db.jobs.nextId (db.addAttempt (request.newJob env.now key i s.sourceRevision)
        (db.stagedPublication env i key definition.currentSchemaVersion s.sourceRevision request.requestedBy
          d snapshot)))
    (hE : ∀ e db', E e db') :
    wp (createJob env request i s snapshot d) Q E db := by
  rw [createJob, wp_bind, hkey, wp_ok]
  simp only [wp_bind, wp_ofExcept, wp_get, wp_modify]
  refine ⟨fun _ _ => wp_allocateStagedPublication (fun definition hdef => ?_) (fun e _ => hE e _),
    fun e _ => hE e _⟩
  simp only [wp_pure]
  have h := hQ definition hdef
  rw [Db.addAttempt, ← Table.insert_modify db.jobs _ (Job.link db.publications.nextId)] at h
  exact h

theorem wp_coalesceJob {request : EnqueueRequest} {j : JobId} {a : Job} {s : Scope} {snapshot : Snapshot}
    {d : Digest} {Q : Unit → Db → Prop} {E : Error → Db → Prop}
    (hQ : Q () (db.coalesced env request j a s snapshot d)) :
    wp (coalesceJob env request j a s snapshot d) Q E db := by
  simp only [coalesceJob, wp_bind, wp_modify]
  unfold Db.coalesced at hQ
  cases hb : a.buildPublication with
  | none => simpa [hb] using hQ
  | some p =>
    simp only [hb] at hQ
    simp only [wp_bind, wp_get, wp_whenever, wp_modify]
    exact ⟨fun h => by rwa [if_pos h] at hQ, fun h => by rwa [if_neg h] at hQ⟩

theorem wp_enqueueDecision {request : EnqueueRequest} {i : ScopeId} {s t : Scope} {snapshot : Snapshot}
    {d : Digest} (h : Inv (db.setScope i t).core) (hr : EnqueueReads cfg env request db i s t snapshot d)
    {E : Error → Db → Prop} (hE : ∀ e db', E e db') :
    wp (enqueueDecision cfg env request i t snapshot d) (fun r db' => Enqueued cfg env l request db r db')
      E (db.setScope i t) := by
  have hfind := Db.find_setScope hr.scope t
  have hkey : t.key = s.key := by
    rcases hr.source with ⟨-, rfl⟩ | ⟨-, -, rfl⟩ <;> rfl
  simp only [enqueueDecision, wp_bind, wp_get, wp_ite, wp_pure]
  refine ⟨fun hclean => ?_, fun hwork => ?_⟩
  · refine wp_reconcileCleanSource_row (l := l) h hfind (fun hd => ?_) (fun db' hd hc _ => ?_)
    · rw [hclean.2] at hd
      cases hd
    · rw [Db.setScope_setScope] at hc
      exact .clean hr hclean.1 hd hc
  · have hd : request.allowCleanRebuild = true ∨ db.scopeIsDirty cfg t (some d) = true := by
      rw [not_and_or, Bool.not_eq_false, Bool.not_eq_false] at hwork
      exact hwork
    cases ha : (db.setScope i t).activeJobWithKey t.key with
    | none =>
      simp only [wp_bind, wp_pure]
      have hn := Table.first_eq_none.mp ha
      refine wp_createJob hr.key (fun definition hdef => .created hr hd ?_ hdef) (fun _ _ => hE _ _)
      intro j a hj hk
      have := hn j a hj
      simpa [hk, hkey] using this
    | some found =>
      obtain ⟨j, a⟩ := found
      obtain ⟨hj, hja⟩ := Table.first_eq_some ha
      simp only [decide_eq_true_eq] at hja
      have hk : a.key = s.key := hja.1.trans hkey
      simp only [wp_ite, wp_pure, wp_bind]
      refine ⟨fun hrun => .running hr hd hj hk hrun, fun hrun => wp_coalesceJob ?_⟩
      have hpending : a.status = .pending := by
        have := hja.2
        revert this hrun
        cases a.status <;> simp [JobStatus.isActive]
      exact .coalesced hr hd hj hk hpending

theorem wp_enqueuePublicationJob {request : EnqueueRequest} (h : Inv db.core) :
    wp (enqueuePublicationJob cfg env request) (fun r db' => Enqueued cfg env l request db r db')
      (fun _ db' => db' = db) db := by
  simp only [enqueuePublicationJob, wp_atomic, wp_bind, wp_ofExcept]
  refine ⟨fun _ _ => wp_lockedScope (fun i s hs hkey => ?_) (fun _ => trivial), fun _ _ => trivial⟩
  refine wp_enqueueSource hs (fun snapshot d hsource => ?_) (fun snapshot d hsource hread => ?_)
    (fun _ _ _ => trivial)
  · have hdecide : wp (enqueueDecision cfg env request i s snapshot d)
        (fun r db' => Enqueued cfg env l request db r db') (fun _ _ => True) (db.setScope i s) :=
      wp_enqueueDecision (by rwa [Db.setScope_self hs]) ⟨hs, hkey, .inl ⟨hsource, rfl⟩⟩ (fun _ _ => trivial)
    rwa [Db.setScope_self hs] at hdecide
  · exact wp_enqueueDecision ((Steps.recorded (l := l) hs).inv h) ⟨hs, hkey, .inr ⟨hsource, hread, rfl⟩⟩
      (fun _ _ => trivial)

theorem EnqueueReads.steps {request : EnqueueRequest} {i : ScopeId} {s t : Scope} {snapshot : Snapshot} {d : Digest}
    (hr : EnqueueReads cfg env request db i s t snapshot d) :
    Steps cfg l db.core (db.setScope i t).core ∧ t.key = s.key ∧
      t.currentPublishedPublication = s.currentPublishedPublication := by
  rcases hr.source with ⟨-, rfl⟩ | ⟨-, -, rfl⟩
  · rw [Db.setScope_self hr.scope]
    exact ⟨.refl, rfl, rfl⟩
  · exact ⟨.recorded hr.scope, rfl, rfl⟩

/-- A new job and its staged attempt, for a scope without an active job. -/
theorem Steps.addAttempt {i : ScopeId} {s : Scope} {job : Job} {p : Publication} (hl : l.mint)
    (hinv : Inv db.core) (hs : db.scopes.find i = some s) (hji : job.scopeState = i) (hjk : job.key = s.key)
    (hj : job.status = .pending) (hb : job.buildPublication = none) (ha : job.attemptCount = 0) (hpi : p.scopeState = i)
    (hpk : p.key = s.key) (hp : p.status = .staged) (hv : p.versionNumber = db.nextVersion i)
    (hn : ∀ {k b}, db.jobs.find k = some b → b.scopeState = i → b.status.isActive = false) :
    Steps cfg l db.core (db.addAttempt job p).core := by
  have h1 : Move cfg l db.core { db.core with jobs := db.jobs.insert job } :=
    .newJob hs hji hjk hj hb ha hn
  have h2 : Move cfg l { db.core with jobs := db.jobs.insert job }
      { db.core with jobs := db.jobs.insert job, publications := db.publications.insert p } :=
    .newPublication hl hs hpi hpk hp fun hk hq => by
      rw [hv]
      exact db.lt_nextVersion hk hq
  have h3 : Move cfg l { db.core with jobs := db.jobs.insert job, publications := db.publications.insert p }
      (db.addAttempt job p).core := by
    rw [show (db.addAttempt job p).core =
      { db.core with
        jobs := (db.jobs.insert job).modify db.jobs.nextId (Job.link db.publications.nextId)
        publications := db.publications.insert p } by rw [Table.insert_modify]; rfl]
    refine .job (a := job) (by simp) rfl rfl rfl rfl (.inr ⟨db.publications.nextId, p, hj, rfl, by simp, ?_, ?_⟩)
    · rw [hpi, hji]
    · intro k b hk he
      simp only [Table.find_insert] at hk
      split at hk
      · cases hk
        rw [hb] at he
        cases he
      · obtain ⟨q, hq, -⟩ := hinv.build_scope hk he
        change db.publications.find db.publications.nextId = some q at hq
        simp at hq
  exact ((Relation.ReflTransGen.single h1).tail h2).tail h3

theorem Enqueued.steps {request : EnqueueRequest} {r : Option JobId} {db' : Db} (hl : l.mint) (h : Inv db.core)
    (m : Enqueued cfg env l request db r db') : Steps cfg l db.core db'.core := by
  cases m with
  | @clean i s t snapshot d db' hr ha hd hc =>
    obtain ⟨hsteps, -, -⟩ := hr.steps (l := l)
    have hset : Steps cfg l (db.setScope i t).core _ :=
      Steps.setScope (t := t.reconciled (db.storedSourceFingerprint cfg t d)) (Db.find_setScope hr.scope t)
        rfl rfl (.inr ⟨d, rfl⟩)
    rw [Db.setScope_setScope] at hset
    exact (hsteps.trans hset).trans hc.steps
  | running hr hd hj hk ha => exact hr.steps.1
  | @coalesced i s t snapshot d j a hr hd hj hk ha =>
    refine hr.steps.1.trans ?_
    have hjob : Steps cfg l (db.setScope i t).core
        ((db.setScope i t).modifyJob j (Job.coalesce env.now request t.sourceRevision)).core :=
      .single (.job (a := a) hj rfl rfl rfl rfl (.inl rfl))
    refine hjob.trans ?_
    unfold Db.coalesced
    cases hb : a.buildPublication with
    | none => exact .refl
    | some p =>
      simp only
      split_ifs with hst
      · obtain ⟨pub, hp, hst⟩ := hst
        exact .single (.staged (Option.mem_def.mp hp) hst (.of_staged hst rfl rfl rfl) (.inl hst))
      · exact .refl
  | @created i s t snapshot d definition hr hd hn hdef =>
    obtain ⟨hsteps, hk, -⟩ := hr.steps (l := l)
    refine hsteps.trans (Steps.addAttempt hl (hsteps.inv h) (Db.find_setScope hr.scope t) rfl hk.symm rfl rfl rfl rfl hk.symm
      rfl rfl fun {k b} hb hbi => ?_)
    obtain ⟨s', hs', hkey⟩ := h.job_scope hb
    rw [hbi] at hs'
    have hs := hr.scope
    change db.scopes.find i = some s' at hs'
    rw [hs] at hs'
    cases hs'
    exact hn hb hkey.symm

/-- The scope a dirty mark works on: an existing row, or a new one in an extended table. -/
inductive ScopeFor (db : Db) (key : ScopeKey) : ScopeId → Scope → Db → Prop
  | existing {i s} (hs : db.scopes.find i = some s) (hk : s.key = key) : ScopeFor db key i s db
  | created (hf : scopeFilter key.target = .ok key) (hn : ∀ {i s}, db.scopes.find i = some s → s.key ≠ key) :
      ScopeFor db key db.scopes.nextId { key := key } { db with scopes := db.scopes.insert { key := key } }

theorem ScopeFor.find {key : ScopeKey} {i : ScopeId} {s : Scope} {db' : Db} (h : ScopeFor db key i s db') :
    db'.scopes.find i = some s ∧ s.key = key := by
  cases h with
  | existing hs hk => exact ⟨hs, hk⟩
  | created hf hn => exact ⟨by simp, rfl⟩

theorem ScopeFor.steps {key : ScopeKey} {i : ScopeId} {s : Scope} {db' : Db} (h : ScopeFor db key i s db') :
    Steps cfg l db.core db'.core := by
  cases h with
  | existing hs hk => exact .refl
  | created hf hn => exact .single (.newScope hf hn)

theorem ScopeFor.onCommit {key : ScopeKey} {i : ScopeId} {s : Scope} {db' : Db} (h : ScopeFor db key i s db') :
    db'.onCommit = db.onCommit ∧ db'.jobs = db.jobs ∧ db'.publications = db.publications := by
  cases h <;> exact ⟨rfl, rfl, rfl⟩

theorem wp_scopeOrNew {target : Target} {key : ScopeKey} (hf : scopeFilter target = .ok key) {Q : ScopeId × Scope → Db → Prop} {E : Error → Db → Prop}
    (hQ : ∀ i s db', ScopeFor db key i s db' → Q (i, s) db') (hE : ∀ e, E e db) :
    wp (scopeOrNew key) Q E db := by
  simp only [scopeOrNew, wp_bind, wp_get]
  cases hk : db.scopeWithKey key with
  | some found =>
    obtain ⟨hs, hkey⟩ := Table.first_eq_some (i := found.1) (a := found.2) hk
    exact hQ found.1 found.2 db (.existing hs (by simpa using hkey))
  | none =>
    simp only [wp_bind, wp_ofExcept, wp_modify, wp_pure]
    refine ⟨fun _ _ => hQ _ _ _ (.created (by rw [scopeFilter_target hf, hf]) fun {i s} hs => ?_), fun e _ => hE e⟩
    have := Table.first_eq_none.mp hk i s hs
    simpa using this

/-- The revision a dirty mark gives to the scope. -/
def Scope.bumpedRevision (s : Scope) (snapshot : Snapshot) : ℕ :=
  refreshedRevision { s with sourceRevision := s.sourceRevision + 1 } snapshot

/-- The scope row a dirty mark saves. -/
def Scope.marked (s : Scope) (cfg : Config) (db : Db) (snapshot : Snapshot) (d : Digest)
    (dirtySince : Option Time) : Scope :=
  { s with
    sourceRevision := s.bumpedRevision snapshot
    currentSourceFingerprint := db.storedSourceFingerprint cfg s d
    dirtySince := dirtySince }

/-- The two ways a dirty mark returns. -/
inductive MarkedDirty (cfg : Config) (env : Env) (l : Licence) (target : Target) (actor : Option Actor)
    (db : Db) : ScopeId → Db → Prop
  | dirty {i s key db₀ snapshot d r db'} (hkey : scopeFilter target = .ok key) (hs : ScopeFor db key i s db₀)
      (hsource : currentSource cfg env target = .ok (snapshot, d))
      (hd : db₀.scopeIsDirty cfg s (some d) = true)
      (he : Enqueued cfg env l { target := target, requestedBy := actor, source := some (snapshot, d) }
        (db₀.setScope i (s.marked cfg db₀ snapshot d (s.dirtySince.or (some env.now)))) r db') :
      MarkedDirty cfg env l target actor db i db'
  | clean {i s key db₀ snapshot d t db'} (hkey : scopeFilter target = .ok key) (hs : ScopeFor db key i s db₀)
      (hsource : currentSource cfg env target = .ok (snapshot, d))
      (hd : db₀.scopeIsDirty cfg s (some d) = false)
      (hsteps : Steps cfg l db₀.core (db₀.setScope i t).core)
      (hc : Cancels cfg l i (db₀.setScope i t) db') (hk : t.key = s.key)
      (hcur : t.currentPublishedPublication = s.currentPublishedPublication)
      (hlb : t.latestBuiltPublication = s.latestBuiltPublication) :
      MarkedDirty cfg env l target actor db i (db'.setScope i (s.marked cfg db₀ snapshot d none))

/-- Reading the source for an object that is one revision ahead of its row `s`. -/
theorem wp_currentSourceState_bumped {i : ScopeId} {s : Scope} (hs : db.scopes.find i = some s)
    {Q : Snapshot × Digest × Scope → Db → Prop} {E : Error → Db → Prop}
    (hQ : ∀ snapshot d t, currentSource cfg env s.key.target = .ok (snapshot, d) →
      t = s ∨ t = { s with sourceRevision := s.bumpedRevision snapshot } →
      Q (snapshot, d, { s with sourceRevision := s.bumpedRevision snapshot }) (db.setScope i t))
    (hE : ∀ e, E e db) :
    wp (currentSourceState cfg env i { s with sourceRevision := s.sourceRevision + 1 }) Q E db := by
  simp only [currentSourceState, wp_bind, wp_ofExcept, wp_whenever, wp_modify, wp_pure]
  refine ⟨fun r hr => ⟨fun _ => ?_, fun _ => ?_⟩, fun e _ => hE e⟩
  · rw [Db.modifyScope_eq_setScope hs]
    exact hQ r.1 r.2 _ hr (.inr rfl)
  · have h := hQ r.1 r.2 s hr (.inl rfl)
    rwa [Db.setScope_self hs] at h

theorem wp_markDirty {target : Target} {actor : Option Actor} (h : Inv db.core) :
    wp (markDirty cfg env target actor) (fun i db' => MarkedDirty cfg env l target actor db i db')
      (fun _ db' => db' = db) db := by
  simp only [markDirty, wp_atomic, wp_bind, wp_ofExcept, implies_true, and_true]
  intro _ _ _ _ key hkey
  refine wp_scopeOrNew hkey (fun i s db₀ hsf => ?_) (fun _ => trivial)
  obtain ⟨hs, hk⟩ := hsf.find
  have htarget : s.key.target = target := by rw [hk, scopeFilter_target hkey]
  have hnew : Steps cfg l db.core db₀.core := hsf.steps
  have hinv : Inv db₀.core := hnew.inv h
  refine wp_currentSourceState_bumped hs (fun snapshot d t hsource ht => ?_) (fun _ => trivial)
  rw [htarget] at hsource
  have hkc : t.key = s.key ∧ t.currentPublishedPublication = s.currentPublishedPublication ∧
      t.currentSourceFingerprint = s.currentSourceFingerprint ∧ t.dirtySince = s.dirtySince ∧
      t.latestBuiltPublication = s.latestBuiltPublication := by
    rcases ht with rfl | rfl <;> exact ⟨rfl, rfl, rfl, rfl, rfl⟩
  have hsteps : Steps cfg l db₀.core (db₀.setScope i t).core := .setScope hs hkc.1 hkc.2.1 (.inl hkc.2.2.1)
  have hfind := Db.find_setScope hs t
  simp only [wp_get, wp_bind, wp_ite, wp_modify, wp_pure]
  refine ⟨fun hd => ?_, fun hd => ?_⟩
  · rw [Db.modifyScope_eq_setScope hfind, Db.setScope_setScope]
    have hrow : ({ t with
        sourceRevision := s.bumpedRevision snapshot
        currentSourceFingerprint := (db₀.setScope i t).storedSourceFingerprint cfg
          { s with sourceRevision := s.bumpedRevision snapshot } d
        dirtySince := s.dirtySince.or (some env.now) } : Scope) =
        s.marked cfg db₀ snapshot d (s.dirtySince.or (some env.now)) := by
      rcases ht with rfl | rfl <;> rfl
    change wp _ _ _ (db₀.setScope i _)
    rw [hrow]
    have hmark : Steps cfg l db₀.core
        (db₀.setScope i (s.marked cfg db₀ snapshot d (s.dirtySince.or (some env.now)))).core :=
      Steps.setScope hs rfl rfl (.inr ⟨d, rfl⟩)
    exact wp_mono (wp_enqueuePublicationJob (l := l) (hmark.inv hinv))
      (fun r db' he => .dirty hkey hsf hsource hd he) (fun _ _ _ => trivial)
  · rw [Bool.not_eq_true] at hd
    refine wp_reconcileCleanSource (s := { s with
        sourceRevision := s.bumpedRevision snapshot
        currentSourceFingerprint := (db₀.setScope i t).storedSourceFingerprint cfg
          { s with sourceRevision := s.bumpedRevision snapshot } d }) (l := l) (hsteps.inv hinv) hfind
      hkc.2.1.symm (fun hd' => ?_) (fun t' db' _ ht' hc _ => ?_)
    · exact absurd hd' (by rw [hd]; decide)
    · rw [Db.setScope_setScope] at hc
      have hrow : db'.scopes.find i = some t' := by
        rw [hc.scopes]
        exact Db.find_setScope hs t'
      have hfinal : ({ t' with
          sourceRevision := s.bumpedRevision snapshot
          currentSourceFingerprint := (db₀.setScope i t).storedSourceFingerprint cfg
            { s with sourceRevision := s.bumpedRevision snapshot } d
          dirtySince := none } : Scope) = s.marked cfg db₀ snapshot d none := by
        rcases ht' with rfl | ⟨rfl, -⟩ <;> rcases ht with rfl | rfl <;> rfl
      have ht'c : t'.key = s.key ∧ t'.currentPublishedPublication = s.currentPublishedPublication ∧
          t'.latestBuiltPublication = s.latestBuiltPublication := by
        rcases ht' with rfl | ⟨rfl, -⟩ <;> exact ⟨hkc.1, hkc.2.1, hkc.2.2.2.2⟩
      have hsteps' : Steps cfg l db₀.core (db₀.setScope i t').core := by
        refine Steps.setScope hs ht'c.1 ht'c.2.1 ?_
        rcases ht' with rfl | ⟨rfl, -⟩
        · exact .inr ⟨d, rfl⟩
        · exact .inl hkc.2.2.1
      have hdone : MarkedDirty cfg env l target actor db i (db'.setScope i (s.marked cfg db₀ snapshot d none)) :=
        .clean hkey hsf hsource hd hsteps' hc ht'c.1 ht'c.2.1 ht'c.2.2
      rw [← hfinal] at hdone
      simp only
      rw [Db.modifyScope_eq_setScope hrow]
      exact hdone

theorem MarkedDirty.steps {target : Target} {actor : Option Actor} {i : ScopeId} {db' : Db} (hl : l.mint)
    (h : Inv db.core) (m : MarkedDirty cfg env l target actor db i db') : Steps cfg l db.core db'.core := by
  cases m with
  | @dirty s key db₀ snapshot d r _ hkey hs hsource hd he =>
    have hsf : Steps cfg l db.core db₀.core := hs.steps
    have hmark : Steps cfg l db₀.core
        (db₀.setScope i (s.marked cfg db₀ snapshot d (s.dirtySince.or (some env.now)))).core :=
      Steps.setScope hs.find.1 rfl rfl (.inr ⟨d, rfl⟩)
    exact (Steps.trans hsf hmark).trans (he.steps hl ((Steps.trans hsf hmark).inv h))
  | @clean s key db₀ snapshot d t db₁ hkey hs hsource hd hsteps hc hk hcur hlb =>
    have hpre : Steps cfg l db.core (db₀.setScope i t).core := hs.steps.trans hsteps
    have hrow : (db₀.setScope i t).scopes.find i = some t := Db.find_setScope hs.find.1 t
    have hrow' : db₁.scopes.find i = some t := by rw [hc.scopes, hrow]
    have hcurrent : db₁.currentPublication t = db₀.currentPublication s := by
      rw [hc.currentPublication (hpre.inv h) hrow]
      simp [Db.currentPublication, hcur]
    refine (hpre.trans hc.steps).trans (Steps.setScope hrow' hk.symm hcur.symm (.inr ⟨d, ?_⟩))
    unfold Db.storedSourceFingerprint
    rw [hcurrent]
    rfl

end FireDash.Publications
