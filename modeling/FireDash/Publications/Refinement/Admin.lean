import FireDash.Publications.Refinement.Build

/-! Specifications of the administrator services and of payload retention. -/
namespace FireDash.Publications

open Tx

variable {cfg : Config} {env : Env} {l : Licence} {purge : Prop} {db : Db}

/-- A publication row with its own locked scope. -/
structure Managed (db : Db) (p : PublicationId) (pub : Publication) (i : ScopeId) (s : Scope) : Prop where
  publication : db.publications.find p = some pub
  scope : db.scopes.find i = some s
  publication_scope : pub.scopeState = i
  key : pub.key = s.key

theorem wp_managedPublication {actor : Actor} {p : PublicationId} {Q : Publication → Db → Prop}
    {E : Error → Db → Prop} (hQ : ∀ pub, db.publications.find p = some pub → Q pub db) (hE : ∀ e, E e db) :
    wp (managedPublication env actor p) Q E db := by
  simp only [managedPublication, wp_bind, wp_get, wp_require, wp_ofExcept, wp_pure]
  exact ⟨fun pub hp => ⟨fun _ _ => hQ pub hp, fun e _ => hE e⟩, fun _ => hE _⟩

theorem Inv.managed (h : Inv db.core) {p : PublicationId} {pub : Publication} {i : ScopeId} {s : Scope}
    (hp : db.publications.find p = some pub) (hs : db.scopes.find i = some s)
    (hf : scopeFilter pub.key.target = .ok s.key) : Managed db p pub i s := by
  obtain ⟨hi, hk⟩ := h.locked_publication hp hs hf
  exact ⟨hp, hs, hi, hk⟩

/-- The database after an administrator made a publication current. -/
def Db.activated (db : Db) (actor : Actor) (i : ScopeId) (s : Scope) (p : PublicationId) (action : ActivationAction)
    (f : Publication → Publication) : Db :=
  let db' := (db.modifyPublication p f).setScope i { s with currentPublishedPublication := some p }
  { db' with activations := db'.activations.insert ⟨p, i, s.currentPublishedPublication, action, actor⟩ }

/-- The whole switch from the current publication of a scope to another one. -/
def Db.switchTo (db : Db) (now : Time) (actor : Actor) (i : ScopeId) (s : Scope) (p : PublicationId)
    (action : ActivationAction) (f : Publication → Publication) : Db :=
  (db.supersede now s).activated actor i s p action f

theorem wp_switchCurrent {actor : Actor} {i : ScopeId} {s : Scope} {p : PublicationId} {action : ActivationAction}
    {f : Publication → Publication} (hs : db.scopes.find i = some s) {Q : Unit → Db → Prop} {E : Error → Db → Prop}
    (hQ : Q () (db.activated actor i s p action f)) : wp (switchCurrent actor i s p action f) Q E db := by
  simp only [switchCurrent, wp_bind, wp_modify]
  have hs' : (db.modifyPublication p f).scopes.find i = some s := hs
  rw [Db.modifyScope_eq_setScope hs']
  exact hQ

theorem Db.supersede_scopes {i : ScopeId} {s : Scope} (h : Inv db.core) (hs : db.scopes.find i = some s) (now : Time) :
    (db.supersede now s).scopes = db.scopes :=
  congrArg Core.scopes (db.supersede_core h hs now)

theorem Db.supersede_jobs {i : ScopeId} {s : Scope} (h : Inv db.core) (hs : db.scopes.find i = some s) (now : Time) :
    (db.supersede now s).jobs = db.jobs :=
  congrArg Core.jobs (db.supersede_core h hs now)

theorem Db.supersede_publications {i : ScopeId} {s : Scope} (h : Inv db.core) (hs : db.scopes.find i = some s)
    (now : Time) : (db.supersede now s).publications = db.core.superseded s.currentPublishedPublication :=
  congrArg Core.publications (db.supersede_core h hs now)

theorem Db.switchTo_core {i : ScopeId} {s : Scope} (h : Inv db.core) (hs : db.scopes.find i = some s) (now : Time)
    (actor : Actor) (p : PublicationId) (action : ActivationAction) (f : Publication → Publication) :
    (db.switchTo now actor i s p action f).core =
      { db.core with
        scopes := db.core.scopes.modify i fun _ => { s with currentPublishedPublication := some p }
        publications := (db.core.superseded s.currentPublishedPublication).modify p f } := by
  simp only [Db.switchTo, Db.activated, Db.core, Db.setScope, Db.modifyScope, Db.modifyPublication,
    Db.supersede_scopes h hs, Db.supersede_jobs h hs, Db.supersede_publications h hs]

theorem Db.switchTo_scopes {i : ScopeId} {s : Scope} (h : Inv db.core) (hs : db.scopes.find i = some s) (now : Time)
    (actor : Actor) (p : PublicationId) (action : ActivationAction) (f : Publication → Publication) :
    (db.switchTo now actor i s p action f).scopes =
      db.core.scopes.modify i fun _ => { s with currentPublishedPublication := some p } :=
  congrArg Core.scopes (Db.switchTo_core h hs now actor p action f)

theorem Db.switchTo_publications {i : ScopeId} {s : Scope} (h : Inv db.core) (hs : db.scopes.find i = some s)
    (now : Time) (actor : Actor) (p : PublicationId) (action : ActivationAction) (f : Publication → Publication) :
    (db.switchTo now actor i s p action f).publications =
      (db.core.superseded s.currentPublishedPublication).modify p f :=
  congrArg Core.publications (Db.switchTo_core h hs now actor p action f)

/-- A version that is neither live nor current may be made current. -/
theorem Managed.switch_steps {p : PublicationId} {pub : Publication} {i : ScopeId} {s : Scope}
    (m : Managed db p pub i s) (h : Inv db.core) (hh : pub.status.isHistorical = true) (ho : pub.status ≠ .obsolete)
    {f : Publication → Publication} (hr : Row l.purge pub (f pub)) (hf : (f pub).status = .published)
    (hsn : (f pub).sourceSnapshot = pub.sourceSnapshot) (hl : l.activate db.core p) (now : Time) (actor : Actor)
    (action : ActivationAction) : Steps cfg l db.core (db.switchTo now actor i s p action f).core := by
  rw [Db.switchTo_core h m.scope]
  exact .single (.activate hl ⟨m.scope, m.publication, hh, ho, m.publication_scope, hr, hf, hsn, rfl, rfl, rfl⟩)

/-- A finished attempt keeps its payload when only its state changes. -/
theorem Row.of_finished {p q : Publication} (hq : q.status.isFinished = true)
    (ho : p.status = .obsolete → q.status = .obsolete)
    (h1 : q.scopeState = p.scopeState) (h2 : q.key = p.key) (h3 : q.versionNumber = p.versionNumber)
    (h4 : q.sourceRevision = p.sourceRevision) (h5 : q.sourceFingerprint = p.sourceFingerprint)
    (h6 : q.artifact = p.artifact)
    (h7 : q.sourceSnapshot = p.sourceSnapshot ∨
      q.sourceSnapshot = none ∧ (p.status ≠ .obsolete ∧ q.status = .obsolete ∨ purge)) :
    Row purge p q where
  scopeState := h1
  key := h2
  versionNumber := h3
  sourceRevision _ := h4
  left_staged _ he := by
    rw [he] at hq
    cases hq
  finished _ := hq
  obsolete := ho
  fingerprint _ := h5
  artifact _ := h6
  snapshot _ := h7

theorem wp_publishPublication {actor : Actor} {p : PublicationId} (h : Inv db.core) :
    wp (publishPublication env actor p)
      (fun _ db' => ∃ pub i s, Managed db p pub i s ∧ pub.status = .readyForReview ∧ ¬pub.outdated s ∧
        db' = db.switchTo env.now actor i s p .publish
          (Publication.reviewed env.now actor s.currentPublishedPublication)) (fun _ db' => db' = db) db := by
  simp only [publishPublication, wp_atomic, wp_bind]
  refine wp_managedPublication (fun pub hp => ?_) (fun _ => trivial)
  simp only [wp_ensure, wp_ofExcept, implies_true, and_true]
  intro hst _ _ hready
  refine wp_lockedScope (fun i s hs hf => ?_) (fun _ => trivial)
  simp only [wp_ofExcept, wp_get, wp_whenever, wp_bind, wp_ensure, implies_true, and_true]
  have hswitch : ¬pub.outdated s → wp (supersedeCurrent env s)
      (fun _ db' => wp (switchCurrent actor i s p .publish
          (Publication.reviewed env.now actor s.currentPublishedPublication))
        (fun _ db' => ∃ pub i s, Managed db p pub i s ∧ pub.status = .readyForReview ∧ ¬pub.outdated s ∧
          db' = db.switchTo env.now actor i s p .publish
            (Publication.reviewed env.now actor s.currentPublishedPublication)) (fun _ _ => True) db')
      (fun _ _ => True) db := by
    intro ho
    refine wp_supersedeCurrent h hs (wp_switchCurrent ?_ ⟨pub, i, s, h.managed hp hs hf, hst, ho, rfl⟩)
    rw [Db.supersede_scopes h hs, hs]
  exact fun definition _ => ⟨fun _ reason _ _ => hswitch, fun _ => hswitch⟩

theorem wp_rejectPublication {actor : Actor} {p : PublicationId} :
    wp (rejectPublication env actor p)
      (fun _ db' => ∃ pub, db.publications.find p = some pub ∧ pub.status = .readyForReview ∧
        db' = db.modifyPublication p fun row => { row with status := .rejected }) (fun _ db' => db' = db) db := by
  simp only [rejectPublication, wp_atomic, wp_bind]
  refine wp_managedPublication (fun pub hp => ?_) (fun _ => trivial)
  simp only [wp_ensure, wp_ofExcept, wp_modify]
  exact ⟨fun hst => ⟨fun _ _ => ⟨pub, hp, hst, trivial⟩, fun _ _ => trivial⟩, fun _ => trivial⟩

theorem wp_activatePublication {actor : Actor} {i : ScopeId} {s : Scope} {p : PublicationId} (h : Inv db.core)
    (hs : db.scopes.find i = some s) (hne : s.currentPublishedPublication ≠ some p) {Q : Unit → Db → Prop}
    {E : Error → Db → Prop}
    (hQ : Q () (db.switchTo env.now actor i s p .rollback (Publication.reactivated env.now actor))) :
    wp (activatePublication env actor i s p) Q E db := by
  simp only [activatePublication, wp_bind, wp_whenever]
  refine ⟨fun _ => wp_supersedeCurrent h hs (wp_switchCurrent ?_ hQ), fun he => absurd hne he⟩
  rw [Db.supersede_scopes h hs, hs]

theorem wp_rollbackPublication {actor : Actor} {p : PublicationId} (h : Inv db.core) :
    wp (rollbackPublication env actor p)
      (fun _ db' => ∃ pub i s, Managed db p pub i s ∧ pub.status = .superseded ∧
        s.currentPublishedPublication.isSome = true ∧
        db' = db.switchTo env.now actor i s p .rollback (Publication.reactivated env.now actor))
      (fun _ db' => db' = db) db := by
  simp only [rollbackPublication, wp_atomic, wp_bind]
  refine wp_managedPublication (fun pub hp => ?_) (fun _ => trivial)
  simp only [wp_ofExcept]
  refine ⟨fun _ _ => wp_lockedScope (fun i s hs hf => ?_) (fun _ => trivial), fun _ _ => trivial⟩
  simp only [wp_get, wp_ensure, wp_require, implies_true, and_true]
  intro reason hreason hnone previous hprevious _
  rw [hnone] at hreason
  obtain ⟨-, -, hst, -, -⟩ := restoreMetadata_none (restoreBlocked_none hreason)
  have hsup := hst rfl
  have hcurrent : s.currentPublishedPublication.isSome = true := by
    rw [Option.isSome_iff_exists]
    obtain ⟨q, hq, -⟩ := Option.bind_eq_some_iff.mp hprevious
    exact ⟨q, hq⟩
  refine wp_activatePublication h hs (h.current_ne hs hp (by rw [hsup]; decide)) ?_
  exact ⟨pub, i, s, h.managed hp hs hf, hsup, hcurrent, rfl⟩

/-- The database after a successful attempt was retired. -/
def Db.retired (db : Db) (now : Time) (i : ScopeId) (p : PublicationId) (pub : Publication) : Db :=
  ((((db.revokePublicationDatasetKeyGrants now p pub).modifyPublication p Publication.obsoleted).release p
    pub.key.target.datasetTypeCode).modifyScope i (Scope.forgetBuilt p)).scheduleRemoval pub.artifact.path

theorem wp_retirePublication {i : ScopeId} {p : PublicationId} {pub : Publication} {Q : Unit → Db → Prop}
    {E : Error → Db → Prop} (hQ : Q () (db.retired env.now i p pub)) :
    wp (retirePublication env i p pub) Q E db := by
  simp only [retirePublication, wp_bind, wp_modify]
  refine wp_releaseTerminal rfl ?_
  exact hQ

theorem Db.retired_steps {i : ScopeId} {s : Scope} {p : PublicationId} {pub row : Publication} (hl : l.retire p)
    (now : Time) (hs : db.scopes.find i = some s) (hp : db.publications.find p = some row) (hst : row.status = .superseded) :
    Steps cfg l db.core (db.retired now i p pub).core := by
  have h1 : Move cfg l db.core { db.core with publications := db.publications.modify p Publication.obsoleted } :=
    .retire (fun _ => hl) hp (by rw [hst]; rfl)
      (.of_finished rfl (fun _ => rfl) rfl rfl rfl rfl rfl rfl (.inr ⟨rfl, .inl ⟨by rw [hst]; decide, rfl⟩⟩)) rfl
  have h2 : Move cfg l { db.core with publications := db.publications.modify p Publication.obsoleted }
      { db.core with
        publications := db.publications.modify p Publication.obsoleted
        scopes := db.scopes.modify i (Scope.forgetBuilt p) } := by
    refine .scope (s := s) hs ?_ ?_ (.inl ?_) <;> unfold Scope.forgetBuilt <;> split <;> rfl
  rw [Db.retired, Db.scheduleRemoval_core]
  exact (Steps.single h1).trans (.single h2)

/-- The two ways a deletion returns. -/
inductive Deleted (env : Env) (db : Db) (actor : Actor) (p : PublicationId) : Db → Prop
  | superseded {pub i s} (m : Managed db p pub i s) (hst : pub.status = .superseded) :
      Deleted env db actor p (db.retired env.now i p pub)
  | active {pub i s q predecessor} (m : Managed db p pub i s) (hst : pub.status = .published)
      (hc : s.currentPublishedPublication = some p) (m' : Managed db q predecessor i s)
      (hq : predecessor.status = .superseded)
      (he : db.eligiblePredecessor env.canonical i s pub.versionNumber = .ok (some (q, predecessor))) :
      Deleted env db actor p
        ((db.switchTo env.now actor i s q .rollback (Publication.reactivated env.now actor)).retired env.now i p pub)

theorem Db.eligiblePredecessor_some {canonical : Canonical} {i : ScopeId} {s : Scope} {version : ℕ}
    {q : PublicationId} {predecessor : Publication}
    (h : db.eligiblePredecessor canonical i s version = .ok (some (q, predecessor))) :
    db.publications.find q = some predecessor ∧ predecessor.scopeState = i ∧ predecessor.status = .superseded ∧
      predecessor.versionNumber < version := by
  simp only [Db.eligiblePredecessor, bind, Except.bind, pure, Except.pure] at h
  split at h
  · cases h
  · rename_i found hfound
    obtain ⟨hmem, -⟩ := mem_firstRestorable hfound (List.mem_of_head? (Except.ok.inj h))
    obtain ⟨hp, hi, hst⟩ := mem_publicationsByVersion hmem
    simp only [decide_eq_true_eq] at hst
    exact ⟨hp, hi, hst.1, hst.2.1⟩

theorem wp_deletePublication {actor : Actor} {p : PublicationId} (h : Inv db.core) :
    wp (deletePublication env actor p) (fun _ db' => Deleted env db actor p db') (fun _ db' => db' = db) db := by
  simp only [deletePublication, wp_atomic, wp_bind]
  refine wp_managedPublication (fun pub hp => ?_) (fun _ => trivial)
  simp only [wp_ofExcept]
  refine ⟨fun _ _ => wp_lockedScope (fun i s hs hf => ?_) (fun _ => trivial), fun _ _ => trivial⟩
  have m := h.managed hp hs hf
  simp only [wp_ensure, wp_ite, wp_bind]
  refine ⟨fun _ => ⟨fun hst => ?_, fun hst => ?_⟩, fun _ => trivial⟩
  · simp only [activatePredecessor, wp_bind, wp_ensure, wp_get, wp_ofExcept, wp_require]
    refine ⟨fun hc => ⟨fun _ => ⟨fun found hfound => ⟨fun row he => ?_, fun _ => trivial⟩,
      fun _ _ => trivial⟩, fun _ => trivial⟩, fun _ => trivial⟩
    obtain ⟨q, predecessor⟩ := row
    rw [he] at hfound
    obtain ⟨hq, hqi, hqst, -⟩ := Db.eligiblePredecessor_some hfound
    obtain ⟨s', hs', hk'⟩ := h.publication_scope hq
    have hkey : predecessor.key = s.key := by
      rw [hqi] at hs'
      rw [← hk', Option.some.inj (hs'.symm.trans hs)]
    refine wp_activatePublication h hs (h.current_ne hs hq (by rw [hqst]; decide)) (wp_retirePublication ?_)
    exact .active m hst hc ⟨hq, hs, hqi, hkey⟩ hqst hfound
  · exact ⟨fun hst => wp_retirePublication (.superseded m hst), fun _ => trivial⟩

theorem Deleted.steps {actor : Actor} {p : PublicationId} {db' : Db} (h : Inv db.core) (hr : l.retire p)
    (hl : ∀ {pub i s q predecessor}, Managed db p pub i s → pub.status = .published →
      db.eligiblePredecessor env.canonical i s pub.versionNumber = .ok (some (q, predecessor)) →
      l.activate db.core q)
    (m : Deleted env db actor p db') : Steps cfg l db.core db'.core := by
  cases m with
  | superseded m hst => exact Db.retired_steps hr env.now m.scope m.publication hst
  | @active pub i s q predecessor m hst hc m' hq he =>
    have hsw : Steps cfg l db.core
        (db.switchTo env.now actor i s q .rollback (Publication.reactivated env.now actor)).core := m'.switch_steps h
      (by rw [hq]; rfl) (by rw [hq]; decide)
      (.of_finished rfl (fun ho => by rw [hq] at ho; cases ho) rfl rfl rfl rfl rfl rfl (.inl rfl)) rfl rfl
      (hl m hst he) env.now actor .rollback
    have hqp : q ≠ p := by
      rintro rfl
      have := Option.some.inj (m.publication.symm.trans m'.publication)
      rw [this, hq] at hst
      cases hst
    have hrow : (db.switchTo env.now actor i s q .rollback (Publication.reactivated env.now actor)).publications.find p
        = some { pub with status := .superseded } := by
      rw [Db.switchTo_publications h m.scope,
        Core.find_superseded_modify (h.current_ne m.scope m'.publication (by rw [hq]; decide)), if_neg hqp, if_pos hc]
      rw [show db.core.publications.find p = some pub from m.publication]
      rfl
    have hscope : (db.switchTo env.now actor i s q .rollback (Publication.reactivated env.now actor)).scopes.find i
        = some { s with currentPublishedPublication := some q } := by
      rw [Db.switchTo_scopes h m.scope]
      simp [Db.core, m.scope]
    exact hsw.trans (Db.retired_steps hr env.now hscope hrow rfl)

theorem wp_requestRebuild {actor : Actor} {target : Target} (hl : l.mint) (h : Inv db.core) :
    wp (requestRebuild cfg env actor target) (fun _ db' => Steps cfg l db.core db'.core)
      (fun _ db' => db' = db) db := by
  simp only [requestRebuild, wp_atomic, wp_bind, wp_ofExcept, implies_true, and_true]
  intro _ _ _ _ _ _ key hkey
  refine wp_scopeOrNew hkey (fun i s db₀ hsf => ?_) (fun _ => trivial)
  simp only [wp_get, wp_ensure, wp_mapError]
  refine ⟨fun _ => ?_, fun _ => trivial⟩
  have hsteps : Steps cfg l db.core db₀.core := hsf.steps
  exact wp_mono (wp_enqueuePublicationJob (l := l) (hsteps.inv h))
    (fun _ db₁ he => show Steps cfg l db.core db₁.core from hsteps.trans (he.steps hl (hsteps.inv h)))
    (fun _ _ _ => trivial)

theorem wp_stageFindsClean {i : ScopeId} {s : Scope} (h : Inv db.core) (hs : db.scopes.find i = some s)
    {Q : Bool × Scope → Db → Prop} {E : Error → Db → Prop}
    (hQ : ∀ r db', Steps cfg l db.core db'.core → Q r db') (hE : ∀ e, E e db) :
    wp (stageFindsClean cfg env i s) Q E db := by
  simp only [stageFindsClean, wp_ite, wp_bind, wp_pure]
  refine ⟨fun _ => wp_currentSourceState hs (fun snapshot d _ => ?_) (fun e _ => hE e), fun _ => hQ _ _ .refl⟩
  have hsteps : Steps cfg l db.core (db.setScope i (s.refreshed snapshot)).core := .setScope hs rfl rfl (.inl rfl)
  have hfind := Db.find_setScope hs (s.refreshed snapshot)
  refine wp_reconcileCleanSource_row (l := l) (hsteps.inv h) hfind (fun _ => hQ _ _ hsteps) (fun db' _ hc _ => ?_)
  have hset : Steps cfg l (db.setScope i (s.refreshed snapshot)).core _ :=
    .setScope (t := (s.refreshed snapshot).reconciled _) hfind rfl rfl (.inr ⟨d, rfl⟩)
  exact hQ _ _ ((hsteps.trans hset).trans hc.steps)

theorem wp_stagePublicationUpdate {actor : Actor} {target : Target} (hl : l.mint) (h : Inv db.core) :
    wp (stagePublicationUpdate cfg env actor target) (fun _ db' => Steps cfg l db.core db'.core)
      (fun _ db' => db' = db) db := by
  simp only [stagePublicationUpdate, wp_atomic, wp_bind, wp_ofExcept, implies_true, and_true]
  intro _ _ _ _
  refine wp_lockedScope (fun i s hs _ => wp_stageFindsClean (l := l) h hs (fun r db₁ hsteps => ?_) (fun _ => trivial))
    (fun _ => trivial)
  simp only [wp_ite, wp_pure, wp_bind, wp_get, wp_ensure]
  refine ⟨fun _ => hsteps, fun _ => ⟨fun _ => ⟨fun _ => ?_, fun _ => trivial⟩, fun _ => trivial⟩⟩
  refine wp_mono (wp_enqueuePublicationJob (l := l) (hsteps.inv h)) (fun _ _ he => ⟨fun _ => ?_, fun _ => trivial⟩)
    (fun _ _ _ => trivial)
  exact hsteps.trans (he.steps hl (hsteps.inv h))

theorem wp_stagedFindsClean {i : ScopeId} {s : Scope} {job : Job} (h : Inv db.core) (hs : db.scopes.find i = some s)
    {Q : Bool → Db → Prop} {E : Error → Db → Prop} (hno : Q false db)
    (hclean : ∀ db', Steps cfg l db.core db'.core → Q true db') (hE : ∀ e, E e db) :
    wp (stagedFindsClean cfg env i s job) Q E db := by
  simp only [stagedFindsClean, wp_ite, wp_bind, wp_get, wp_ensure, wp_ofExcept, wp_pure]
  refine ⟨fun _ => ⟨fun _ => ⟨fun source _ => ⟨fun _ => hno, fun _ => ?_⟩, fun e _ => hE e⟩, fun _ => hE _⟩,
    fun _ => hno⟩
  refine wp_reconcileCleanSource_row (l := l) h hs (fun _ => hno) (fun db' _ hc _ => hclean db' ?_)
  exact Steps.trans (.setScope (t := s.reconciled _) hs rfl rfl (.inr ⟨source.2, rfl⟩)) hc.steps

theorem wp_buildStagedPublication {actor : Actor} {i : ScopeId} (h : Inv db.core) :
    wp (buildStagedPublication cfg env actor i) (fun _ db' => Steps cfg l db.core db'.core)
      (fun _ db' => db' = db) db := by
  simp only [buildStagedPublication, wp_atomic, wp_bind, wp_get, wp_require, wp_ofExcept, implies_true, and_true]
  intro given _ _ _
  refine wp_lockedScope (fun k s hs _ => ?_) (fun _ => trivial)
  simp only [wp_ensure, implies_true, and_true]
  intro e he p hp hst
  have hjob : db.jobs.find e.1 = some e.2 := by
    have hmem := List.mem_of_head? he
    rw [Db.jobsByCreation, List.mem_insertionSort] at hmem
    exact (Table.mem_filter.mp hmem).1
  refine wp_stagedFindsClean (l := l) h hs ?_ (fun db' hsteps => ?_) (fun _ => trivial)
  · simp only [Bool.false_eq_true, if_false, wp_bind, wp_modify, wp_pure]
    exact .single (.job hjob rfl rfl rfl rfl (.inl rfl))
  · simp only [if_true, wp_pure]
    exact hsteps

theorem Db.latestBuildJob_some {p : PublicationId} {j : JobId} {a : Job} (h : db.latestBuildJob p = some (j, a)) :
    db.jobs.find j = some a ∧ a.buildPublication = some p := by
  have hmem := List.mem_of_head? h
  rw [List.mem_insertionSort, Table.mem_filter] at hmem
  simpa using hmem

theorem wp_deleteStagedPublication {actor : Actor} {p : PublicationId} (h : Inv db.core) :
    wp (deleteStagedPublication cfg env actor p) (fun _ db' => Steps cfg l db.core db'.core)
      (fun _ db' => db' = db) db := by
  simp only [deleteStagedPublication, wp_atomic, wp_bind]
  refine wp_managedPublication (fun pub hp => ?_) (fun _ => trivial)
  refine wp_lockedScope (fun i s hs _ => ?_) (fun _ => trivial)
  simp only [wp_get, wp_ensure, wp_modify, implies_true, and_true]
  intro hst hjob
  have hcancel : Steps cfg l db.core (db.modifyPublication p fun row => { row with status := .cancelled }).core :=
    .single (.staged hp hst.2 (.of_staged hst.2 rfl rfl rfl) (.inr rfl))
  -- Whatever happened to the job, a file scope is reconciled with its source at the end.
  have htail : ∀ db₁ : Db, Steps cfg l db.core db₁.core → db₁.scopes = db.scopes →
      wp (Tx.whenever (pub.key.target.datasetTypeCode.isFileDataset = true) do
        let read ← currentSourceState cfg env i s
        let _ ← reconcileCleanSource cfg env i read.2.2 read.2.1)
        (fun _ db' => Steps cfg l db.core db'.core) (fun _ _ => True) db₁ := by
    intro db₁ hsteps hscopes
    have hs₁ : db₁.scopes.find i = some s := by rw [hscopes, hs]
    simp only [wp_whenever, wp_bind]
    refine ⟨fun _ => wp_currentSourceState hs₁ (fun snapshot d _ => ?_) (fun _ _ => trivial), fun _ => hsteps⟩
    have hread : Steps cfg l db₁.core (db₁.setScope i (s.refreshed snapshot)).core := .setScope hs₁ rfl rfl (.inl rfl)
    have hfind := Db.find_setScope hs₁ (s.refreshed snapshot)
    have hpre := hsteps.trans hread
    refine wp_reconcileCleanSource_row (l := l) (hpre.inv h) hfind (fun _ => hpre) (fun db' _ hc _ => ?_)
    have hset : Steps cfg l (db₁.setScope i (s.refreshed snapshot)).core _ :=
      .setScope (t := (s.refreshed snapshot).reconciled _) hfind rfl rfl (.inr ⟨d, rfl⟩)
    exact (hpre.trans hset).trans hc.steps
  cases hlb : db.latestBuildJob p with
  | none => exact htail _ hcancel rfl
  | some e =>
    obtain ⟨j, a⟩ := e
    obtain ⟨hj, -⟩ := Db.latestBuildJob_some hlb
    have ha : a.status = .pending := hjob _ hlb
    simp only [wp_bind, wp_modify]
    exact htail _ (hcancel.trans (.single (.closeJob (a := a) hj ha rfl rfl rfl rfl))) rfl

/-- The database after a running build was cancelled. -/
def Db.buildCancelled (db : Db) (now : Time) (j : JobId) (p : PublicationId) (pub : Publication) : Db :=
  (db.endBuild j p pub.key.target.datasetTypeCode Publication.cancelled (Job.cancelledBuild now)).scheduleRemoval
    pub.artifact.path

theorem wp_cancelPublicationBuild {actor : Actor} {p : PublicationId} (h : Inv db.core) :
    wp (cancelPublicationBuild env actor p)
      (fun _ db' => ∃ j a pub i s, Building db j a p pub i s ∧ db' = db.buildCancelled env.now j p pub)
      (fun _ db' => db' = db) db := by
  simp only [cancelPublicationBuild, wp_atomic, wp_bind]
  refine wp_managedPublication (fun pub hp => ?_) (fun _ => trivial)
  refine wp_lockedScope (fun i s hs hf => ?_) (fun _ => trivial)
  simp only [wp_get, wp_require, wp_ensure, wp_modify, implies_true, and_true]
  intro e he hrun hst
  obtain ⟨hj, hb⟩ := Db.latestBuildJob_some he
  have m := h.managed hp hs hf
  obtain ⟨s', hs', hk'⟩ := h.job_scope hj
  obtain ⟨pub', hp', hsc⟩ := h.build_scope hj hb
  have hpp : pub' = pub := Option.some.inj (hp'.symm.trans hp)
  rw [hpp, m.publication_scope] at hsc
  have hss : s' = s := by
    rw [← hsc] at hs'
    exact Option.some.inj (hs'.symm.trans hs)
  refine wp_releaseTerminal rfl ?_
  exact ⟨e.1, e.2, pub, i, s, ⟨hj, hrun.2, hb, hp, hst, m.publication_scope, m.key, hsc.symm, by rw [← hk', hss], hs⟩,
    rfl⟩

theorem Building.cancelled_steps {j : JobId} {a : Job} {p : PublicationId} {pub : Publication} {i : ScopeId}
    {s : Scope} (b : Building db j a p pub i s) (hl : l.close) (now : Time) :
    Steps cfg l db.core (db.buildCancelled now j p pub).core := by
  rw [Db.buildCancelled, Db.scheduleRemoval_core]
  exact b.endsBuild hl (by simp [Publication.cancelled]) (by simp [Job.cancelledBuild])
    (.of_building b.building rfl rfl rfl rfl (by simp [Publication.cancelled])) rfl rfl rfl
    (.inl ⟨rfl, rfl⟩)

theorem wp_bulkRequestScope {actor : Actor} {department : DepartmentId} {running : List ScopeId} {e : ScopeId × Scope}
    (hl : l.mint) (h : Inv db.core) :
    wp (bulkRequestScope cfg env actor department running e) (fun _ db' => Steps cfg l db.core db'.core)
      (fun _ db' => Steps cfg l db.core db'.core) db := by
  simp only [bulkRequestScope, wp_bind, wp_get, wp_ite, wp_pure]
  refine ⟨fun _ => .refl, fun _ => ?_⟩
  exact wp_mono (wp_enqueuePublicationJob (l := l) h) (fun _ _ he => he.steps hl h) (fun _ _ he => he ▸ .refl)

theorem wp_bulkRequestScopes {actor : Actor} {department : DepartmentId} {running : List ScopeId} (hl : l.mint)
    (h : Inv db.core) (scopes : List (ScopeId × Scope)) :
    wp (bulkRequestScopes cfg env actor department running scopes) (fun _ db' => Steps cfg l db.core db'.core)
      (fun _ db' => Steps cfg l db.core db'.core) db := by
  induction scopes generalizing db with
  | nil => exact .refl
  | cons e rest ih =>
    simp only [bulkRequestScopes, wp_bind, wp_pure]
    refine wp_mono (wp_bulkRequestScope hl h) (fun _ db₁ h₁ => ?_) (fun _ _ h' => h')
    exact wp_mono (ih (h₁.inv h)) (fun _ _ h₂ => h₁.trans h₂) (fun _ _ h₂ => h₁.trans h₂)

theorem wp_bulkRequestRebuilds {actor : Actor} {department : DepartmentId} (hl : l.mint) (h : Inv db.core) :
    wp (bulkRequestRebuilds cfg env actor department) (fun _ db' => Steps cfg l db.core db'.core)
      (fun _ db' => db' = db) db := by
  simp only [bulkRequestRebuilds, wp_atomic, wp_bind, wp_ensure, wp_get]
  refine ⟨fun _ => ?_, fun _ => trivial⟩
  refine wp_mono (wp_bulkRequestScopes hl h _) (fun n db₁ h₁ => ?_) (fun _ _ _ => trivial)
  simp only [wp_whenever, wp_modify, wp_pure]
  exact ⟨fun _ => h₁, fun _ => h₁⟩

theorem wp_processCandidate {p : PublicationId} {now : Time} {dryRun : Bool} (hl : l.purge) (hr : l.retire p)
    (h : Inv db.core) :
    wp (processCandidate cfg env p now dryRun) (fun _ db' => Steps cfg l db.core db'.core)
      (fun _ db' => db' = db) db := by
  simp only [processCandidate, wp_atomic, wp_bind, wp_get]
  cases hp : db.publications.find p with
  | none => exact .refl
  | some pub =>
    obtain ⟨s, hs, -⟩ := h.publication_scope hp
    change db.scopes.find pub.scopeState = some s at hs
    simp only [hs, wp_ite, wp_pure, wp_bind, wp_ofExcept, wp_modify]
    refine ⟨fun _ => .refl, fun _ => ⟨fun hst => ⟨fun _ => .refl, fun _ => ⟨fun kept _ => ?_, fun _ _ => trivial⟩⟩,
      fun _ => ⟨fun _ => .refl, fun hterm => ⟨fun _ => .refl, fun _ => ⟨fun _ => .refl, fun _ =>
        ⟨fun _ => .refl, fun _ => ?_⟩⟩⟩⟩⟩⟩
    · refine ⟨fun _ => .refl, fun _ => ⟨fun _ => .refl, fun _ => ?_⟩⟩
      exact wp_retirePublication (db.retired_steps hr env.now hs hp hst)
    · rw [not_and_or, not_not, not_not] at hterm
      have hrow : Row l.purge pub { pub with sourceSnapshot := none } := by
        rcases hterm with hst | hst <;>
          exact .of_finished (by simp [hst, PublicationStatus.isFinished]) id rfl rfl rfl rfl rfl rfl
            (.inr ⟨rfl, .inr hl⟩)
      refine wp_releaseTerminal (by rcases hterm with hst | hst <;> rw [hst] <;> rfl) ?_
      refine .single (.retire (f := fun row => { row with sourceSnapshot := none }) ?_ hp ?_ hrow ?_) <;>
        rcases hterm with hst | hst <;> simp [hst, PublicationStatus.isHistorical]

/-- Sealing documents writes document tables only. -/
theorem wp_sealDocuments {crypto : Crypto} {worker : WorkerEnv} {p : PublicationId} :
    wp (sealDocuments cfg crypto env worker p)
      (fun _ db' => ∃ documents, db' = { db with documents := documents }) (fun _ db' => db' = db) db := by
  simp only [sealDocuments, wp_mapError, wp_atomic, wp_bind, wp_get, wp_require, wp_ite, wp_pure, wp_ofExcept,
    wp_modify]
  refine ⟨fun pub _ => ⟨fun _ => ⟨db.documents, rfl⟩, fun _ => ⟨fun _ _ => ⟨fun documents _ => ⟨documents, rfl⟩,
    fun _ _ => trivial⟩, fun _ _ => trivial⟩⟩, fun _ => trivial⟩

theorem wp_releaseAbandonedGeneration {j : JobId} {p : PublicationId} {E : Error → Db → Prop} :
    wp (releaseAbandonedGeneration j p)
      (fun _ db' => db' = db ∨ db.buildIsStillRunning j = false ∧ ∃ pub, db.publications.find p = some pub ∧
        pub.status.isReleasable = true ∧ db' = db.release p pub.key.target.datasetTypeCode) E db := by
  simp only [releaseAbandonedGeneration, wp_atomic, wp_bind, wp_get]
  cases hp : db.publications.find p with
  | none => exact .inl rfl
  | some pub =>
    simp only [wp_whenever]
    exact ⟨fun hr => wp_releaseTerminal hr.2 (.inr ⟨hr.1, pub, rfl, hr.2, rfl⟩), fun _ => .inl trivial⟩

end FireDash.Publications
