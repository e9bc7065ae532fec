import FireDash.Publications.Refinement.Queue

/-! Specifications of claims and heartbeats. -/
namespace FireDash.Publications

open Tx

variable {cfg : Config} {env : Env} {l : Licence} {db : Db}

/-- Append a publication row. -/
def Db.insertPublication (db : Db) (p : Publication) : Db :=
  { db with publications := db.publications.insert p }

/-- Library contents pinned for an attempt. -/
def Db.pinned (db : Db) (contents : List PublicationContent) : Db :=
  { db with documents := { db.documents with contents := db.documents.contents ++ contents } }

/-- The library still holds every content a snapshot of it names. -/
def Pinnable (canonical : Canonical) (snapshot : LibrarySnapshot) : Prop :=
  ∀ entry ∈ snapshot.documents, ∃ content ∈ canonical.libraries.flatMap fun l => l.entries.filterMap (·.content),
    content.id = entry.2 ∧ content.library = snapshot.library.id

theorem pinnable_snapshotForLibrary {canonical : Canonical} {library : Library} (h : library ∈ canonical.libraries) :
    Pinnable canonical (snapshotForLibrary library) := by
  intro entry hentry
  simp only [snapshotForLibrary, List.mem_filterMap, Option.map_eq_some_iff] at hentry
  obtain ⟨e, he, c, hc, rfl⟩ := hentry
  have he : e ∈ library.entries := (List.perm_insertionSort _ _).mem_iff.mp he
  refine ⟨c, ?_, rfl, library.contents_own e he c hc⟩
  exact List.mem_flatMap.mpr ⟨library, h, List.mem_filterMap.mpr ⟨e, he, hc⟩⟩

theorem pinnable_libraryOf (canonical : Canonical) (owner : LibraryOwner) :
    Pinnable canonical (snapshotForLibrary (canonical.libraryOf owner)) := by
  unfold Canonical.libraryOf
  cases hl : canonical.libraries.find? fun l => l.owner = owner with
  | some library => exact pinnable_snapshotForLibrary (List.mem_of_find?_eq_some hl)
  | none => simp [Pinnable, snapshotForLibrary, byId]

/-- A library snapshot that is read is the snapshot of a library. -/
theorem library_of_currentSource {target : Target} {library : LibrarySnapshot} {d : Digest}
    (h : currentSource cfg env target = .ok (.fileLibrary library, d)) :
    ∃ owner, library = snapshotForLibrary (env.canonical.libraryOf owner) := by
  have hsource : fileLibrarySource env.canonical target = .ok (.fileLibrary library) := by
    revert h
    unfold currentSource
    cases target with | mk department station code =>
    cases code <;>
      simp only [getDatasetDefinition, buildSourcePayload, hydrantSourcePayload, firePlanSourcePayload,
        klgvSourcePayload, personnelSourcePayload, phonebookSourcePayload, dangerousGoodsSourcePayload,
        bind, Except.bind, pure, Except.pure, throw, throwThe, MonadExceptOf.throw] <;>
      grind
  unfold fileLibrarySource at hsource
  split at hsource
  · cases hsource
  · cases hsource
    exact ⟨_, rfl⟩
  · cases hsource
    exact ⟨_, rfl⟩

/-- A source read only names contents that can be held. -/
theorem pinnable_of_currentSource {target : Target} {library : LibrarySnapshot} {d : Digest}
    (h : currentSource cfg env target = .ok (.fileLibrary library, d)) : Pinnable env.canonical library := by
  obtain ⟨owner, rfl⟩ := library_of_currentSource h
  exact pinnable_libraryOf _ owner

theorem wp_pinSource {p : PublicationId} {snapshot : LibrarySnapshot} {Q : Unit → Db → Prop} {E : Error → Db → Prop}
    (hpin : Pinnable env.canonical snapshot) (hQ : ∀ contents, Q () (db.pinned contents)) :
    wp (pinSource env p snapshot) Q E db := by
  unfold pinSource
  refine wp_mono (wp_forEach (fun rest db' => (∀ entry ∈ rest, entry ∈ snapshot.documents) ∧
    ∃ contents, db' = db.pinned contents) snapshot.documents ⟨fun _ h => h, [], by simp [Db.pinned]⟩ ?_)
    (fun _ db' ⟨_, contents, he⟩ => he ▸ hQ contents) (fun _ _ h => h)
  rintro entry rest db' ⟨hrest, contents, rfl⟩
  simp only [pinContent, wp_bind, wp_require, wp_modify]
  refine ⟨fun content _ => ⟨fun e he => hrest e (List.mem_cons_of_mem _ he),
    contents ++ [⟨p, content, entry.1.id⟩], by simp [Db.pinned]⟩, fun hnone => ?_⟩
  obtain ⟨content, hmem, hid⟩ := hpin entry (hrest entry List.mem_cons_self)
  exact absurd (List.find?_eq_none.mp hnone content hmem) (by simp [hid])

/-- What a claim reads: its pending job, the locked scope and the source. -/
structure ClaimReads (cfg : Config) (env : Env) (db : Db) (candidate : JobId) (job : Job) (i : ScopeId) (s : Scope)
    (snapshot : Snapshot) (d : Digest) : Prop where
  found : db.jobs.find candidate = some job
  pending : job.status = .pending
  scope : db.scopes.find i = some s
  key : scopeFilter job.key.target = .ok s.key
  source : currentSource cfg env s.key.target = .ok (snapshot, d)

/-- The attempt a claim finds linked to its job, or allocates for it. -/
inductive ClaimFinds (env : Env) (db : Db) (i : ScopeId) (job : Job) (rev : ℕ) (snapshot : Snapshot) (d : Digest) :
    PublicationId → Publication → Db → Prop
  | linked {p pub} (hb : job.buildPublication = some p) (hp : db.publications.find p = some pub) :
      ClaimFinds env db i job rev snapshot d p pub db
  | allocated {definition} (hb : job.buildPublication = none)
      (hdef : getDatasetDefinition job.key.target.datasetTypeCode = .ok definition) :
      ClaimFinds env db i job rev snapshot d db.publications.nextId
        (db.stagedPublication env i job.key definition.currentSchemaVersion rev job.requestedBy d snapshot)
        (db.insertPublication
          (db.stagedPublication env i job.key definition.currentSchemaVersion rev job.requestedBy d snapshot))

/-- The database after an attempt was frozen for its job. -/
def Db.started (db : Db) (now : Time) (j : JobId) (p : PublicationId) (rev : ℕ) (snapshot : Snapshot)
    (d : Digest) : Db :=
  (db.modifyPublication p (Publication.freeze rev snapshot d)).modifyJob j (Job.start now rev p)

/-- The ways a claim returns. -/
inductive Claimed (cfg : Config) (env : Env) (l : Licence) (db : Db) (candidate : JobId) :
    Option JobId → Db → Prop
  | lost {job} (hj : db.jobs.find candidate = some job) (hst : job.status ≠ .pending) :
      Claimed cfg env l db candidate none db
  | clean {job i s snapshot d db'} (h : ClaimReads cfg env db candidate job i s snapshot d)
      (ha : job.allowCleanRebuild = false)
      (hd : db.scopeIsDirty cfg s (some d) = false)
      (hc : Cancels cfg l i (db.setScope i ((s.recorded cfg db snapshot d).reconciled
        (db.storedSourceFingerprint cfg s d))) db') (hcl : Cleared i db') :
      Claimed cfg env l db candidate none db'
  | started {job i s snapshot d p pub db₂ contents} (h : ClaimReads cfg env db candidate job i s snapshot d)
      (hf : ClaimFinds env (db.setScope i (s.recorded cfg db snapshot d)) i job
        (refreshedRevision s snapshot) snapshot d p pub db₂)
      (hst : pub.status = .staged) :
      Claimed cfg env l db candidate (some candidate)
        ((db₂.started env.now candidate p (refreshedRevision s snapshot) snapshot d).pinned contents)
  | obsolete {job i s snapshot d p pub} (h : ClaimReads cfg env db candidate job i s snapshot d)
      (hb : job.buildPublication = some p) (hp : db.publications.find p = some pub) (hst : pub.status ≠ .staged) :
      Claimed cfg env l db candidate (some candidate)
        ((db.setScope i (s.recorded cfg db snapshot d)).modifyJob candidate (Job.obsoleted env.now))

theorem wp_freezeAttempt {j : JobId} {p : PublicationId} {s : Scope} {snapshot : Snapshot} {d : Digest}
    {Q : Unit → Db → Prop} {E : Error → Db → Prop}
    (hpin : ∀ library, snapshot = .fileLibrary library → Pinnable env.canonical library)
    (hQ : ∀ contents, Q () ((db.started env.now j p s.sourceRevision snapshot d).pinned contents)) :
    wp (freezeAttempt env j p s snapshot d) Q E db := by
  have hnone : Q () (db.started env.now j p s.sourceRevision snapshot d) := by
    have h := hQ []
    rwa [show (db.started env.now j p s.sourceRevision snapshot d).pinned [] =
      db.started env.now j p s.sourceRevision snapshot d by simp [Db.pinned]] at h
  simp only [freezeAttempt, wp_bind, wp_modify]
  cases s.key.target.datasetTypeCode.isFileDataset with
  | false => cases snapshot <;> exact hnone
  | true =>
    cases snapshot with
    | fileLibrary library =>
      simp only [wp_bind, wp_modify]
      exact wp_pinSource (hpin library rfl) (fun contents => hQ contents)
    | _ => exact hnone

theorem wp_claimedPublication {i : ScopeId} {job : Job} {rev : ℕ} {snapshot : Snapshot} {d : Digest}
    {Q : Option (PublicationId × Publication) → Db → Prop} {E : Error → Db → Prop}
    (hb : ∀ p, job.buildPublication = some p → ∃ pub, db.publications.find p = some pub)
    (hQ : ∀ p pub db₂, ClaimFinds env db i job rev snapshot d p pub db₂ → Q (some (p, pub)) db₂)
    (hE : ∀ e, getDatasetDefinition job.key.target.datasetTypeCode = .error e → E e db) :
    wp (claimedPublication env i job rev d snapshot) Q E db := by
  unfold claimedPublication
  cases hp : job.buildPublication with
  | some p =>
    obtain ⟨pub, hpub⟩ := hb p hp
    simp only [wp_bind, wp_get, wp_pure, hpub, Option.map_some]
    exact hQ p pub db (.linked hp hpub)
  | none =>
    simp only [wp_bind, wp_pure]
    exact wp_allocateStagedPublication (fun definition hdef => hQ _ _ _ (.allocated hp hdef)) hE

theorem wp_claimFindsClean {i : ScopeId} {s : Scope} {job : Job} {d : Digest} (h : Inv db.core)
    (hs : db.scopes.find i = some s) {Q : Bool → Db → Prop} {E : Error → Db → Prop}
    (hno : Q false db)
    (hclean : ∀ db', job.allowCleanRebuild = false → db.scopeIsDirty cfg s (some d) = false →
      Cancels cfg l i (db.setScope i (s.reconciled (db.storedSourceFingerprint cfg s d))) db' → Cleared i db' →
      Q true db') :
    wp (claimFindsClean cfg env i s job d) Q E db := by
  simp only [claimFindsClean, wp_ite, wp_bind, wp_pure]
  refine ⟨fun hc => ?_, fun _ => hno⟩
  exact wp_reconcileCleanSource_row (l := l) h hs (fun _ => hno) (fun db' hd hcan hcl => hclean db' hc.2 hd hcan hcl)

/-- A scope that cannot be locked for its own job has no readable source. -/
theorem Inv.not_available_of_unlockable (h : Inv db.core) {candidate : JobId} {job : Job}
    (hj : db.jobs.find candidate = some job) (hu : db.Unlockable job.key.target) :
    sourceAvailable env.canonical job.key.target = false := by
  rcases hu with ⟨hfile, hd⟩ | ⟨e, he⟩ | ⟨key, hkey, hno⟩
  · unfold sourceAvailable
    revert hfile
    cases job.key.target.datasetTypeCode <;> simp [DatasetTypeCode.isFileDataset, hd]
  · unfold scopeFilter registeredScopeType at he
    cases hdef : getDatasetDefinition job.key.target.datasetTypeCode with
    | ok definition => simp [hdef, bind, Except.bind, pure, Except.pure] at he
    | error e =>
      obtain ⟨name, hcode⟩ := getDatasetDefinition_eq_error.mp ⟨e, hdef⟩
      simp [sourceAvailable, hcode]
  · obtain ⟨s, hs, hk⟩ := h.job_scope hj
    exact absurd (h.scope_filter hs (by rw [hk, hkey])) (hno _ s hs)

/-- A claim returns unless the source of its candidate cannot be read. -/
theorem wp_claimJob_available {candidate : JobId} (h : Inv db.core) :
    wp (claimJob cfg env candidate) (fun r db' => Claimed cfg env l db candidate r db')
      (fun _ db' => db' = db ∧ ∀ job, db.jobs.find candidate = some job →
        sourceAvailable env.canonical job.key.target = false) db := by
  simp only [claimJob, wp_atomic, wp_bind, wp_get, wp_require, true_and]
  refine ⟨fun job hj => wp_lockedScope_unlockable (fun i s hs hkey => ?_)
    (fun _ hu job' hj' => ?_), fun hno job hj => by rw [hno] at hj; cases hj⟩
  swap
  · obtain rfl := Option.some.inj (hj.symm.trans hj')
    exact h.not_available_of_unlockable hj hu
  simp only [wp_ite, wp_pure]
  refine ⟨fun hst => .lost hj hst, fun hst => ?_⟩
  rw [not_not] at hst
  cases hdef : getDatasetDefinition job.key.target.datasetTypeCode with
  | error e => simp [scopeFilter, registeredScopeType, hdef, bind, Except.bind] at hkey
  | ok definition =>
    simp only [wp_bind]
    refine wp_currentSourceState hs (fun snapshot d hread => ?_) (fun e he job' hj' => ?_)
    swap
    · obtain rfl := Option.some.inj (hj.symm.trans hj')
      rw [scopeFilter_target hkey] at he
      have hno : ¬∃ r, currentSource cfg env job.key.target = .ok r := by simp [he]
      rwa [currentSource_ok_iff, Bool.not_eq_true] at hno
    have hreads : ClaimReads cfg env db candidate job i s snapshot d := ⟨hj, hst, hs, hkey, hread⟩
    have hrow := Db.find_setScope hs (s.refreshed snapshot)
    have hfind := Db.find_setScope hs (s.recorded cfg db snapshot d)
    have hinv : Inv (db.setScope i (s.recorded cfg db snapshot d)).core := (Steps.recorded (l := l) hs).inv h
    -- The conditional save leaves the recorded row in either case.
    have hsave : ∀ {Q : Unit → Db → Prop} {E : Error → Db → Prop},
        Q () (db.setScope i (s.recorded cfg db snapshot d)) →
        wp (Tx.whenever ((s.refreshed snapshot).currentSourceFingerprint ≠ db.storedSourceFingerprint cfg s d) <|
          Tx.modify fun db' => db'.modifyScope i fun row =>
            { row with currentSourceFingerprint := db.storedSourceFingerprint cfg s d }) Q E
          (db.setScope i (s.refreshed snapshot)) := by
      intro Q E hQ
      rw [wp_whenever, wp_modify, Db.modifyScope_eq_setScope hrow, Db.setScope_setScope]
      refine ⟨fun _ => hQ, fun he => ?_⟩
      rw [not_not] at he
      have hsame : s.recorded cfg db snapshot d = s.refreshed snapshot := by
        rw [Scope.recorded, ← he]
      rwa [hsame] at hQ
    simp only [wp_get]
    refine hsave ?_
    refine wp_claimFindsClean (s := s.recorded cfg db snapshot d) (l := l) hinv hfind ?_
      (fun db' ha hd hcan hcl => ?_)
    · simp only [Bool.false_eq_true, if_false, wp_bind]
      refine wp_claimedPublication (fun p hp => ?_) (fun p pub db₂ hf => ?_)
        (fun e he => by rw [hdef] at he; cases he)
      · obtain ⟨pub, hpub, -⟩ := h.build_scope hj hp
        exact ⟨pub, hpub⟩
      · simp only [wp_ite, wp_bind, wp_pure, wp_modify]
        refine ⟨fun hst => wp_freezeAttempt (fun library he => ?_) (fun contents => .started hreads hf hst), fun hst => ?_⟩
        · exact pinnable_of_currentSource (he ▸ hread)
        cases hf with
        | linked hb hp => exact .obsolete hreads hb hp hst
        | allocated hb hdef => exact absurd rfl hst
    · simp only [if_true, wp_pure]
      rw [Db.setScope_setScope] at hcan
      exact .clean hreads ha hd hcan hcl

theorem wp_claimJob {candidate : JobId} (h : Inv db.core) :
    wp (claimJob cfg env candidate) (fun r db' => Claimed cfg env l db candidate r db') (fun _ db' => db' = db) db :=
  wp_mono (wp_claimJob_available h) (fun _ _ m => m) (fun _ _ he => he.1)

theorem ClaimFinds.steps {i : ScopeId} {s : Scope} {job : Job} {rev : ℕ} {snapshot : Snapshot} {d : Digest}
    {p : PublicationId} {pub : Publication} {db₂ : Db} (hl : l.mint) (hs : db.scopes.find i = some s)
    (hk : job.key = s.key) (hf : ClaimFinds env db i job rev snapshot d p pub db₂) :
    Steps cfg l db.core db₂.core := by
  cases hf with
  | linked hb hp => exact .refl
  | allocated hb hdef =>
    exact .single (.newPublication hl hs rfl hk rfl fun hk hq => db.lt_nextVersion hk hq)

/-- The attempt of a claim belongs to the scope, and to no other job. -/
theorem ClaimFinds.owned {j : JobId} {i : ScopeId} {job : Job} {rev : ℕ} {snapshot : Snapshot} {d : Digest}
    {p : PublicationId} {pub : Publication} {db₂ : Db} (h : Inv db.core) (hj : db.jobs.find j = some job)
    (hi : job.scopeState = i) (hf : ClaimFinds env db i job rev snapshot d p pub db₂) :
    db₂.jobs = db.jobs ∧ db₂.scopes = db.scopes ∧ db₂.publications.find p = some pub ∧ pub.scopeState = i ∧
      (job.buildPublication = some p ∨ ∀ {k b}, db.jobs.find k = some b → b.buildPublication ≠ some p) := by
  cases hf with
  | linked hb hp =>
    obtain ⟨pub', hp', hsc⟩ := h.build_scope hj hb
    change db.publications.find p = some pub' at hp'
    rw [hp] at hp'
    cases hp'
    exact ⟨rfl, rfl, hp, hsc.trans hi, .inl hb⟩
  | allocated hb hdef =>
    refine ⟨rfl, rfl, by simp [Db.insertPublication], rfl, .inr fun {k b} hk he => ?_⟩
    obtain ⟨q, hq, -⟩ := h.build_scope hk he
    change db.publications.find db.publications.nextId = some q at hq
    simp at hq

theorem Claimed.steps {candidate : JobId} {r : Option JobId} {db' : Db} (hl : l.mint) (hl' : l.claim)
    (h : Inv db.core) (m : Claimed cfg env l db candidate r db') : Steps cfg l db.core db'.core := by
  cases m with
  | lost hj hst => exact .refl
  | @clean job i s snapshot d _ hr ha hd hc hcl =>
    have hset : Steps cfg l db.core (db.setScope i ((s.recorded cfg db snapshot d).reconciled
        (db.storedSourceFingerprint cfg s d))).core := .setScope hr.scope rfl rfl (.inr ⟨d, rfl⟩)
    exact hset.trans hc.steps
  | @started job i s snapshot d p pub db₂ contents hr hf hst =>
    have hrec : Steps cfg l db.core (db.setScope i (s.recorded cfg db snapshot d)).core := .recorded hr.scope
    have hinv := hrec.inv h
    obtain ⟨hi, hk⟩ := h.locked_job hr.found hr.scope hr.key
    obtain ⟨hjobs, hscopes, hp, hsc, hlink⟩ := hf.owned hinv hr.found hi
    have hfind := Db.find_setScope hr.scope (s.recorded cfg db snapshot d)
    have hclaim : Claims cfg l.purge db₂.core candidate job p pub
        (Publication.freeze (refreshedRevision s snapshot) snapshot d)
        (Job.start env.now (refreshedRevision s snapshot) p) :=
      { job := (congrArg (fun t => t.find candidate) hjobs).trans hr.found
        pending := hr.pending
        publication := hp
        staged := hst
        scope := by rw [hsc, hi]
        link := by
          change _ ∨ ∀ {k b}, db₂.jobs.find k = some b → _
          rw [hjobs]
          exact hlink
        row := .of_staged hst rfl rfl rfl
        building := rfl
        revision := ⟨s.recorded cfg db snapshot d, by rw [hi, ← hfind, ← hscopes]; rfl, rfl⟩
        frozen := ⟨snapshot, rfl, congrArg some (currentSource_fingerprint hr.source)⟩
        job_key := rfl
        job_scope := rfl
        running := rfl
        attempt := rfl
        linked := rfl }
    exact (hrec.trans (hf.steps hl hfind hk)).trans (.single (.claim hl' hclaim))
  | @obsolete job i s snapshot d p pub hr hb hp hst =>
    exact (Steps.recorded hr.scope).trans (.single (.closeJob (a := job) hr.found hr.pending rfl rfl rfl rfl))

theorem wp_heartbeatJob {j : JobId} {E : Error → Db → Prop} :
    wp (heartbeatJob env j)
      (fun r db' => r = false ∧ db' = db ∨ ∃ a, r = true ∧ db.jobs.find j = some a ∧ a.status = .running ∧
        db' = db.modifyJob j fun row => { row with heartbeatAt := some env.now }) E db := by
  simp only [heartbeatJob, wp_atomic, wp_bind, wp_get]
  cases hj : db.jobs.find j with
  | none => exact .inl ⟨rfl, rfl⟩
  | some a =>
    simp only [wp_ite, wp_pure, wp_bind, wp_modify]
    refine ⟨fun _ => .inl ⟨trivial, trivial⟩, fun hst => .inr ⟨a, trivial, rfl, ?_, trivial⟩⟩
    rwa [not_not] at hst

/-- A poll is a sequence of claims, each in its own transaction. -/
theorem wp_claimFirst (hl : l.mint) (hl' : l.claim) (h : Inv db.core) (candidates : List JobId) :
    wp (claimFirst cfg env candidates) (fun _ db' => Steps cfg l db.core db'.core)
      (fun _ db' => Steps cfg l db.core db'.core) db := by
  induction candidates generalizing db with
  | nil => exact .refl
  | cons candidate rest ih =>
    simp only [claimFirst, wp_bind]
    refine wp_mono (wp_claimJob (l := l) h) (fun r db' m => ?_) (fun _ _ he => he ▸ .refl)
    have hsteps := m.steps hl hl' h
    cases r with
    | some job => exact hsteps
    | none => exact wp_mono (ih (hsteps.inv h)) (fun _ _ h' => hsteps.trans h') (fun _ _ h' => hsteps.trans h')

end FireDash.Publications
