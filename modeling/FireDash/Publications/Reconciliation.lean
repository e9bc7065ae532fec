import FireDash.Publications.Activation

/-! Clean reconciliation: which jobs and attempts a service cancels once it finds that the
source of a scope matches the published one, and that it cancels nothing else. -/
namespace FireDash.Publications

open Tx

variable {cfg : Config} {env env' : Env} {l : Licence} {db db' : Db} {i : ScopeId} {s : Scope}

/-- Pending work of the scope that a clean source makes pointless. -/
def Job.Redundant (i : ScopeId) (job : Job) : Prop :=
  job.scopeState = i ∧ job.status = .pending ∧ job.allowCleanRebuild = false

/-- An active job other than the redundant ones builds the attempt. -/
def Db.Needed (db : Db) (i : ScopeId) (p : PublicationId) : Prop :=
  ∃ j a, db.jobs.find j = some a ∧ a.status.isActive = true ∧ ¬a.Redundant i ∧ a.buildPublication = some p

/-- Only redundant jobs of the scope and staged attempts of it that no other job needs change. -/
structure Spares (i : ScopeId) (db db' : Db) : Prop where
  jobs : ∀ {j a}, db.jobs.find j = some a → ¬a.Redundant i → db'.jobs.find j = some a
  publications : ∀ {p pub}, db.publications.find p = some pub →
    pub.scopeState ≠ i ∨ pub.status ≠ .staged ∨ db.Needed i p → db'.publications.find p = some pub
  pending : ∀ {j a}, db'.jobs.find j = some a → a.status = .pending → db.jobs.find j = some a
  nextJob : db'.jobs.nextId = db.jobs.nextId
  nextPublication : db'.publications.nextId = db.publications.nextId

theorem Spares.refl (i : ScopeId) (db : Db) : Spares i db db := ⟨fun h _ => h, fun h _ => h, fun h _ => h, rfl, rfl⟩

theorem Spares.needed (h : Spares i db db') {p : PublicationId} (hn : db.Needed i p) : db'.Needed i p := by
  obtain ⟨j, a, hj, ha, hr, hb⟩ := hn
  exact ⟨j, a, h.jobs hj hr, ha, hr, hb⟩

theorem Spares.trans {db'' : Db} (h : Spares i db db') (h' : Spares i db' db'') : Spares i db db'' where
  jobs hj ha := h'.jobs (h.jobs hj ha) ha
  publications hp hkeep := by
    refine h'.publications (h.publications hp hkeep) ?_
    exact hkeep.imp_right (Or.imp_right h.needed)
  pending hj ha := h.pending (h'.pending hj ha) ha
  nextJob := h'.nextJob.trans h.nextJob
  nextPublication := h'.nextPublication.trans h.nextPublication

/-- Cancelling one redundant job touches it and its own staged attempt. -/
theorem wp_cancelPending_spares {j : JobId} {a : Job} (h : Inv db.core) (hj : db.jobs.find j = some a)
    (ha : a.Redundant i) : wp (cancelPending env j a) (fun _ db' => Spares i db db') (fun _ _ => False) db := by
  have hjob : ∀ {db₁ : Db} (f : Job → Job), (f a).status = .cancelled → db₁.jobs = db.jobs → Spares i db db₁ →
      Spares i db (db₁.modifyJob j f) := by
    intro db₁ f hf hjobs h₁
    refine h₁.trans ⟨fun {k b} hk hb => ?_, fun hp _ => hp, fun {k b} hk hb => ?_, Table.nextId_modify .., rfl⟩
    · have hne : j ≠ k := by
        rintro rfl
        rw [hjobs, hj] at hk
        cases hk
        exact hb ha
      simpa [Db.modifyJob, hne] using hk
    · by_cases hne : j = k
      · subst hne
        simp only [Db.modifyJob, Table.find_modify, if_true, hjobs, hj, Option.map_some, Option.some.injEq] at hk
        rw [← hk, hf] at hb
        cases hb
      · simpa [Db.modifyJob, hne] using hk
  unfold cancelPending
  cases hb : a.buildPublication with
  | none =>
    simp only [wp_modify]
    exact hjob _ rfl rfl (.refl i db)
  | some p =>
    obtain ⟨pub, hp, hscope⟩ := h.build_scope hj hb
    have hp : db.publications.find p = some pub := hp
    have hpub : ∀ f : Publication → Publication, pub.status = .staged → Spares i db (db.modifyPublication p f) := by
      intro f hst
      refine ⟨fun hk _ => hk, fun {q r} hq hkeep => ?_, fun hk _ => hk, rfl, Table.nextId_modify ..⟩
      have hne : p ≠ q := by
        rintro rfl
        rw [hp] at hq
        cases hq
        rcases hkeep with hs | hs | ⟨k, b, hk, -, hred, hlink⟩
        · exact hs (hscope.trans ha.1)
        · exact hs hst
        · obtain rfl := h.build_injective hk hj hlink hb
          rw [hj] at hk
          cases hk
          exact hred ha
      simpa [Db.modifyPublication, hne] using hq
    simp only [wp_bind, wp_get, wp_require, wp_whenever, wp_modify, hp, Option.some.injEq, reduceCtorEq,
      IsEmpty.forall_iff, and_true, forall_eq']
    exact ⟨fun hst => hjob _ rfl rfl (hpub _ hst), fun _ => hjob _ rfl rfl (.refl i db)⟩

/-- An active job is linked to the attempt. -/
def Db.Linked (db : Db) (p : PublicationId) : Prop :=
  ∃ j a, db.jobs.find j = some a ∧ a.status.isActive = true ∧ a.buildPublication = some p

/-- Cancelling the staged attempts without an active job. -/
theorem wp_cancelUnlinked :
    wp (Tx.forEach (fun e => Tx.modify fun db : Db => db.modifyPublication e.1 fun row => { row with status := .cancelled })
        ((db.publications.filter fun p => p.scopeState = i ∧ p.status = .staged).filter fun e =>
          ¬db.jobs.any fun job => job.buildPublication = some e.1 ∧ job.status.isActive) : Service Unit)
      (fun _ db' => Spares i db db' ∧ ∀ p pub, db'.publications.find p = some pub → pub.scopeState = i →
        pub.status = .staged → db'.Linked p) (fun _ _ => False) db := by
  have hrow : ∀ {e : PublicationId × Publication}, e ∈ (db.publications.filter fun p => p.scopeState = i ∧ p.status = .staged).filter
      (fun e => ¬db.jobs.any fun job => job.buildPublication = some e.1 ∧ job.status.isActive) ↔
      db.publications.find e.1 = some e.2 ∧ (e.2.scopeState = i ∧ e.2.status = .staged) ∧ ¬db.Linked e.1 := by
    intro e
    have hlinked : (db.jobs.any fun job => job.buildPublication = some e.1 ∧ job.status.isActive) = true ↔ db.Linked e.1 := by
      rw [Table.any_eq_true]
      constructor
      · rintro ⟨j, a, hj, ha⟩
        simp only [decide_eq_true_eq] at ha
        exact ⟨j, a, hj, ha.2, ha.1⟩
      · rintro ⟨j, a, hj, ha, hb⟩
        exact ⟨j, a, hj, by simp [ha, hb]⟩
    rw [List.mem_filter, Table.mem_filter, decide_eq_true_eq, decide_eq_true_eq, hlinked, and_assoc]
  refine wp_mono (wp_forEach_rows Db.publications (fun db' => Spares i db db' ∧ db'.jobs = db.jobs)
    (fun row => row.status = .cancelled) _ ?_ (fun e he => (hrow.mp he).1) ⟨.refl i db, rfl⟩ ?_) ?_ (fun _ _ hf => hf)
  · exact (Table.nodup_keys_filter _ _).sublist (List.filter_sublist.map Prod.fst)
  · rintro ⟨p, pub⟩ db₁ ⟨h₁, hjobs⟩ hmem hp
    obtain ⟨-, hst, hloose⟩ := hrow.mp hmem
    have hp : db₁.publications.find p = some pub := hp
    simp only [wp_modify]
    refine ⟨⟨h₁.trans ⟨fun hk _ => hk, fun {q r} hq hkeep => ?_, fun hk _ => hk, rfl, Table.nextId_modify ..⟩, hjobs⟩,
      ⟨{ pub with status := .cancelled }, by simp [Db.modifyPublication, hp], rfl⟩,
      fun k hk => by simp [Db.modifyPublication, hk.symm]⟩
    have hne : p ≠ q := by
      rintro rfl
      rw [hp] at hq
      cases hq
      rcases hkeep with hs | hs | ⟨j, a, hj, ha, -, hb⟩
      · exact hs hst.1
      · exact hs hst.2
      · exact hloose ⟨j, a, hjobs ▸ hj, ha, hb⟩
    simpa [Db.modifyPublication, hne] using hq
  · rintro _ db' ⟨⟨hspares, hjobs⟩, hcancelled, hkeep⟩
    refine ⟨hspares, fun p pub hp hi hst => ?_⟩
    by_contra hloose
    have hloose' : ¬db.Linked p := by
      rintro ⟨j, a, hj, ha⟩
      exact hloose ⟨j, a, hjobs.symm ▸ hj, ha⟩
    by_cases hmem : p ∈ (((db.publications.filter fun p => p.scopeState = i ∧ p.status = .staged).filter fun e =>
        ¬db.jobs.any fun job => job.buildPublication = some e.1 ∧ job.status.isActive).map Prod.fst)
    · obtain ⟨e, he, rfl⟩ := List.mem_map.mp hmem
      obtain ⟨row, hrow', hcan⟩ := hcancelled e he
      rw [hp] at hrow'
      cases hrow'
      rw [hst] at hcan
      cases hcan
    · rw [hkeep p hmem] at hp
      exact hmem (List.mem_map.mpr ⟨(p, pub), hrow.mpr ⟨hp, ⟨hi, hst⟩, hloose'⟩, rfl⟩)

/-- Nothing redundant is left: only forced jobs wait, and every staged attempt is one of theirs. -/
structure Settled (i : ScopeId) (db : Db) : Prop where
  jobs : ∀ j a, db.jobs.find j = some a → ¬a.Redundant i
  publications : ∀ p pub, db.publications.find p = some pub → pub.scopeState = i → pub.status = .staged →
    db.Needed i p

theorem wp_cancelRedundantPending_spares (h : Inv db.core) :
    wp (cancelRedundantPending env i) (fun _ db' => Cancels cfg l i db db' ∧ Spares i db db' ∧ Settled i db')
      (fun _ _ => False) db := by
  have hspares : wp (cancelRedundantPending env i) (fun _ db' => Spares i db db' ∧ ∀ p pub,
      db'.publications.find p = some pub → pub.scopeState = i → pub.status = .staged → db'.Linked p)
      (fun _ _ => False) db := by
    unfold cancelRedundantPending
    simp only [wp_bind, wp_get]
    refine wp_mono (wp_forEach_rows Db.jobs (fun db' => Cancels cfg l i db db' ∧ Spares i db db') (fun _ => True) _
      (Table.nodup_keys_filter _ _) (fun e he => (Table.mem_filter.mp he).1) ⟨.refl cfg l i db, .refl i db⟩ ?_) ?_
      (fun _ _ hf => hf)
    · rintro ⟨j, a⟩ db₁ ⟨h₁, h₁'⟩ hmem hj
      have ha := (Table.mem_filter.mp hmem).2
      simp only [decide_eq_true_eq] at ha
      have hinv : Inv db₁.core := h₁.steps.inv h
      have hcancel : wp (cancelPending env j a) (fun _ db' => Cancels cfg l i db₁ db' ∧
          (∃ b, db'.jobs.find j = some b ∧ b.status = .cancelled) ∧ ∀ k, k ≠ j → db'.jobs.find k = db₁.jobs.find k)
          (fun _ _ => False) db₁ := wp_cancelPending hinv hj ha.1 ha.2.1
      refine wp_mono (wp_and hcancel (wp_cancelPending_spares hinv hj ha)) (fun _ db₂ h₂ => ?_) (fun _ _ hf => hf.1)
      obtain ⟨⟨hc, ⟨b, hb, -⟩, hrest⟩, hsp⟩ := h₂
      exact ⟨⟨h₁.trans hc, h₁'.trans hsp⟩, ⟨b, hb, trivial⟩, hrest⟩
    · rintro _ db₁ ⟨⟨h₁, h₁'⟩, -, -⟩
      exact wp_mono wp_cancelUnlinked (fun _ db' h₂ => ⟨h₁'.trans h₂.1, h₂.2⟩) (fun _ _ hf => hf)
  have hcancels : wp (cancelRedundantPending env i) (fun _ db' => Cancels cfg l i db db' ∧ Cleared i db')
      (fun _ _ => False) db := wp_cancelRedundantPending h
  refine wp_mono (wp_and hcancels hspares) ?_ (fun _ _ hf => hf.1)
  rintro _ db' ⟨⟨hc, hclear⟩, hsp, hlinked⟩
  have hjobs : ∀ j a, db'.jobs.find j = some a → ¬a.Redundant i := by
    rintro j a hj ⟨hi, hst, hforce⟩
    rw [hclear j a hj hi hst] at hforce
    cases hforce
  refine ⟨hc, hsp, hjobs, fun p pub hp hi hst => ?_⟩
  obtain ⟨j, a, hj, ha, hb⟩ := hlinked p pub hp hi hst
  exact ⟨j, a, hj, ha, hjobs j a hj, hb⟩

/-- A table whose rows all survive, and that got no new ones, is the same. -/
theorem table_eq_of_kept {α : Type} {t t' : Table α} (hn : t'.nextId = t.nextId)
    (h : ∀ k a, t.find k = some a → t'.find k = some a) : t' = t := by
  ext k : 1
  cases hk : t.find k with
  | some a => exact h k a hk
  | none =>
    unfold Table.find Table.nextId at *
    rw [List.getElem?_eq_none_iff] at hk ⊢
    omega

/-- Reconciling a settled scope again changes no job and no attempt. -/
theorem Spares.eq_of_settled (h : Spares i db db') (hset : Settled i db) :
    db'.jobs = db.jobs ∧ db'.publications = db.publications := by
  refine ⟨table_eq_of_kept h.nextJob fun j a hj => h.jobs hj (hset.jobs j a hj), ?_⟩
  refine table_eq_of_kept h.nextPublication fun p pub hp => h.publications hp ?_
  by_cases hi : pub.scopeState = i
  · by_cases hst : pub.status = .staged
    · exact .inr (.inr (hset.publications p pub hp hi hst))
    · exact .inr (.inl hst)
  · exact .inl hi

/-- Writing a scope row spares everything. -/
theorem Spares.setScope (i k : ScopeId) (db : Db) (s : Scope) : Spares i db (db.setScope k s) :=
  ⟨fun h _ => h, fun h _ => h, fun h _ => h, rfl, rfl⟩

/-- A clean comparison, for a scope object `s` that may be ahead of its row `r`. -/
theorem wp_reconcileCleanSource_settled {r : Scope} {d : Digest} (h : Inv db.core) (hr : db.scopes.find i = some r)
    (hc : s.currentPublishedPublication = r.currentPublishedPublication) (hd : db.scopeIsDirty cfg s (some d) = false) :
    wp (reconcileCleanSource cfg env i s d) (fun b db' => b = (true, s.reconciled (db.storedSourceFingerprint cfg s d)) ∧
      Spares i db db' ∧ Settled i db' ∧ ∃ t, db'.scopes.find i = some t ∧
        t.currentPublishedPublication = r.currentPublishedPublication ∧ (s.dirtySince = r.dirtySince → t.dirtySince = none) ∧
        t.key = r.key) (fun _ _ => False) db := by
  have hcancel : ∀ {db₁ : Db}, Inv db₁.core → wp (cancelRedundantPending env i)
      (fun _ db' => Cancels cfg {} i db₁ db' ∧ Spares i db₁ db' ∧ Settled i db') (fun _ _ => False) db₁ :=
    wp_cancelRedundantPending_spares
  have hstored : db.storedSourceFingerprint cfg s d = db.storedSourceFingerprint cfg r d := by
    simp [Db.storedSourceFingerprint, Db.currentPublication, hc]
  simp only [reconcileCleanSource, wp_bind, wp_get, wp_ite, wp_pure, wp_whenever, wp_modify, hd, Bool.false_eq_true,
    false_imp_iff, true_and, not_false_eq_true, forall_const]
  refine ⟨fun _ => ?_, fun hno => ?_⟩
  · rw [Db.modifyScope_eq_setScope hr]
    have hset : Steps cfg {} db.core (db.setScope i (r.reconciled (db.storedSourceFingerprint cfg s d))).core :=
      .setScope hr rfl rfl (.inr ⟨d, hstored⟩)
    refine wp_mono (hcancel (hset.inv h)) (fun _ db' hdone => ?_) (fun _ _ hf => hf)
    obtain ⟨hcan, hsp, hsettled⟩ := hdone
    refine ⟨rfl, (Spares.setScope i i db _).trans hsp, hsettled,
      r.reconciled (db.storedSourceFingerprint cfg s d), ?_, rfl, fun _ => rfl, rfl⟩
    rw [hcan.scopes]
    exact Db.find_setScope hr _
  · refine wp_mono (hcancel h) (fun _ db' hdone => ?_) (fun _ _ hf => hf)
    obtain ⟨hcan, hsp, hsettled⟩ := hdone
    simp only [not_or, Bool.not_eq_true, Option.isSome_eq_false_iff, Option.isNone_iff_eq_none] at hno
    refine ⟨rfl, hsp, hsettled, r, ?_, rfl, fun hsame => hsame ▸ hno.2, rfl⟩
    rw [hcan.scopes]
    exact hr

/-! ### The calls that reconcile -/

/-- The source that an enqueue compares: the caller's, or the one it reads. -/
def EnqueueRequest.readSource (cfg : Config) (env : Env) (request : EnqueueRequest) : Except Error (Snapshot × Digest) :=
  match request.source with
  | some given => .ok given
  | none => currentSource cfg env request.target

/-- The call compares the source of scope `i` with its published source and finds them equal. -/
inductive FindsClean (cfg : Config) (env : Env) (db : Db) (i : ScopeId) : Call → Prop
  | markDirty {target actor s snapshot d} (hs : db.scopes.find i = some s) (hk : scopeFilter target = .ok s.key)
      (hsource : currentSource cfg env target = .ok (snapshot, d))
      (hd : db.scopeIsDirty cfg s (some d) = false) : FindsClean cfg env db i (.markDirty target actor)
  | enqueue {request s snapshot d} (hs : db.scopes.find i = some s) (hk : scopeFilter request.target = .ok s.key)
      (hforce : request.allowCleanRebuild = false) (hsource : request.readSource cfg env = .ok (snapshot, d))
      (hd : db.scopeIsDirty cfg s (some d) = false) : FindsClean cfg env db i (.enqueuePublicationJob request)
  | claim {candidate job s snapshot d} (hs : db.scopes.find i = some s)
      (hj : db.jobs.find candidate = some job) (hpending : job.status = .pending)
      (hk : scopeFilter job.key.target = .ok s.key)
      (hfile : s.key.target.datasetTypeCode.isFileDataset = true) (hforce : job.allowCleanRebuild = false)
      (hsource : currentSource cfg env job.key.target = .ok (snapshot, d))
      (hd : db.scopeIsDirty cfg s (some d) = false) : FindsClean cfg env db i (.claimJob candidate)
  | stage {actor target s snapshot d} (hs : db.scopes.find i = some s) (hk : scopeFilter target = .ok s.key)
      (hfile : s.key.target.datasetTypeCode.isFileDataset = true)
      (hsource : currentSource cfg env target = .ok (snapshot, d))
      (hd : db.scopeIsDirty cfg s (some d) = false) : FindsClean cfg env db i (.stagePublicationUpdate actor target)

/-- What a clean comparison leaves of scope `i`. -/
structure Reconciled (i : ScopeId) (s : Scope) (db db' : Db) : Prop where
  spares : Spares i db db'
  settled : Settled i db'
  row : ∃ t, db'.scopes.find i = some t ∧ t.dirtySince = none ∧
    t.currentPublishedPublication = s.currentPublishedPublication ∧ t.key = s.key

theorem Reconciled.modifyScope (h : Reconciled i s db db') {f : Scope → Scope}
    (hf : ∀ t, (f t).dirtySince = none ∧ (f t).currentPublishedPublication = t.currentPublishedPublication ∧
      (f t).key = t.key) : Reconciled i s db (db'.modifyScope i f) where
  spares := h.spares.trans ⟨fun hj _ => hj, fun hp _ => hp, fun hj _ => hj, rfl, rfl⟩
  settled := ⟨h.settled.jobs, h.settled.publications⟩
  row := by
    obtain ⟨t, ht, -, hc, hk⟩ := h.row
    exact ⟨f t, by simp [Db.modifyScope, ht], (hf t).1, (hf t).2.1.trans hc, (hf t).2.2.trans hk⟩

/-- The scope row a target locks. -/
theorem wp_lockedScope_of_find {target : Target} (h : Inv db.core) (hs : db.scopes.find i = some s)
    (hk : scopeFilter target = .ok s.key) {Q : ScopeId × Scope → Db → Prop} (hQ : Q (i, s) db) :
    wp (lockedScope target) Q (fun _ _ => True) db := by
  refine wp_lockedScope (fun k t ht hkey => ?_) (fun _ => trivial)
  rw [hk] at hkey
  obtain rfl := h.scope_key hs ht (Except.ok.inj hkey)
  rw [hs] at ht
  cases ht
  exact hQ

/-- Dirtiness of a given fingerprint only depends on the current publication. -/
theorem scopeIsDirty_setScope {t : Scope} {d : Digest}
    (hc : t.currentPublishedPublication = s.currentPublishedPublication) (u : Scope) :
    (db.setScope i u).scopeIsDirty cfg t (some d) = db.scopeIsDirty cfg s (some d) := by
  unfold Db.scopeIsDirty Db.currentPublication
  rw [hc]
  cases s.currentPublishedPublication <;> rfl

theorem wp_enqueueDecision_clean {request : EnqueueRequest} {t : Scope} {snapshot : Snapshot} {d : Digest}
    (h : Inv (db.setScope i t).core) (hs : db.scopes.find i = some s)
    (hc : t.currentPublishedPublication = s.currentPublishedPublication) (hk : t.key = s.key)
    (hforce : request.allowCleanRebuild = false) (hd : db.scopeIsDirty cfg s (some d) = false) :
    wp (enqueueDecision cfg env request i t snapshot d) (fun _ db' => Reconciled i s db db') (fun _ _ => True)
      (db.setScope i t) := by
  have hclean : (db.setScope i t).scopeIsDirty cfg t (some d) = false := (scopeIsDirty_setScope hc t).trans hd
  simp only [enqueueDecision, wp_bind, wp_get, wp_ite, wp_pure, hforce, hclean, and_self, forall_const, not_true_eq_false,
    false_imp_iff, and_true]
  refine wp_mono (wp_reconcileCleanSource_settled h (Db.find_setScope hs t) rfl hclean) (fun _ db' hdone => ?_)
    (fun _ _ hf => hf.elim)
  obtain ⟨-, hsp, hset, row, hrow, hcur, hds, hkey⟩ := hdone
  exact ⟨(Spares.setScope i i db t).trans hsp, hset, row, hrow, hds rfl, hcur.trans hc, hkey.trans hk⟩

theorem enqueue_reconciles {request : EnqueueRequest} (h : Inv db.core) {snapshot : Snapshot} {d : Digest}
    (hs : db.scopes.find i = some s) (hk : scopeFilter request.target = .ok s.key)
    (hforce : request.allowCleanRebuild = false) (hsource : request.readSource cfg env = .ok (snapshot, d))
    (hd : db.scopeIsDirty cfg s (some d) = false) :
    wp (enqueuePublicationJob cfg env request) (fun _ db' => Reconciled i s db db') (fun _ _ => True) db := by
  simp only [enqueuePublicationJob, wp_atomic, wp_bind, wp_ofExcept]
  refine ⟨fun _ _ => wp_lockedScope_of_find h hs hk ?_, fun _ _ => trivial⟩
  unfold EnqueueRequest.readSource at hsource
  refine wp_enqueueSource hs (fun snapshot' d' hgiven => ?_) (fun snapshot' d' hnone hread => ?_) (fun _ _ _ => trivial)
  · rw [hgiven] at hsource
    cases hsource
    have hdecide : wp (enqueueDecision cfg env request i s snapshot d) (fun _ db' => Reconciled i s db db')
        (fun _ _ => True) (db.setScope i s) :=
      wp_enqueueDecision_clean (by rwa [Db.setScope_self hs]) hs rfl rfl hforce hd
    rwa [Db.setScope_self hs] at hdecide
  · rw [hnone] at hsource
    have hsource : currentSource cfg env request.target = .ok (snapshot, d) := hsource
    rw [scopeFilter_target hk, hsource] at hread
    cases hread
    exact wp_enqueueDecision_clean ((Steps.recorded (l := {}) hs).inv h) hs rfl rfl hforce hd

theorem markDirty_reconciles {target : Target} {actor : Option Actor} (h : Inv db.core) {snapshot : Snapshot} {d : Digest}
    (hs : db.scopes.find i = some s) (hk : scopeFilter target = .ok s.key)
    (hsource : currentSource cfg env target = .ok (snapshot, d)) (hd : db.scopeIsDirty cfg s (some d) = false) :
    wp (markDirty cfg env target actor) (fun _ db' => Reconciled i s db db') (fun _ _ => True) db := by
  simp only [markDirty, wp_atomic, wp_bind, wp_ofExcept, implies_true, and_true]
  intro _ _ _ _ key hkey
  rw [hk] at hkey
  cases hkey
  refine wp_scopeOrNew hk (fun k r db₀ hsf => ?_) (fun _ => trivial)
  cases hsf with
  | created _ hno => exact absurd rfl (hno hs)
  | existing hr hkey =>
    obtain rfl := h.scope_key hr hs hkey
    rw [hs] at hr
    cases hr
    refine wp_currentSourceState_bumped hs (fun snapshot' d' t hread ht => ?_) (fun _ => trivial)
    rw [scopeFilter_target hk, hsource] at hread
    cases hread
    have hrow : t.key = s.key ∧ t.currentPublishedPublication = s.currentPublishedPublication ∧
        t.currentSourceFingerprint = s.currentSourceFingerprint ∧ t.dirtySince = s.dirtySince := by
      rcases ht with rfl | rfl <;> exact ⟨rfl, rfl, rfl, rfl⟩
    have hset : Steps cfg {} db.core (db.setScope k t).core := .setScope hs hrow.1 hrow.2.1 (.inl hrow.2.2.1)
    have hinv : Inv (db.setScope k t).core := hset.inv h
    simp only [wp_bind, wp_get, wp_ite, wp_modify, wp_pure]
    have hclean : ∀ u : Scope, u.currentPublishedPublication = s.currentPublishedPublication →
        (db.setScope k t).scopeIsDirty cfg u (some d) = false := fun u hu => (scopeIsDirty_setScope hu t).trans hd
    refine ⟨fun hdirty => ?_, fun _ => ?_⟩
    · exact absurd ((hclean _ (by rfl)).symm.trans hdirty) (by decide)
    · refine wp_mono (wp_reconcileCleanSource_settled hinv (Db.find_setScope hs t) hrow.2.1.symm (hclean _ (by rfl))) ?_
        (fun _ _ hf => hf.elim)
      rintro _ db' ⟨rfl, hsp, hset, u, hu, hcur, hds, hkey'⟩
      have hdone : Reconciled k s db db' := ⟨(Spares.setScope k k db t).trans hsp, hset, u, hu,
        hds hrow.2.2.2.symm, hcur.trans hrow.2.1, hkey'.trans hrow.1⟩
      exact hdone.modifyScope fun _ => ⟨rfl, rfl, rfl⟩

/-- The conditional save of the stored fingerprint leaves the recorded row in either case. -/
theorem wp_recordFingerprint {snapshot : Snapshot} {d : Digest} (hs : db.scopes.find i = some s)
    {Q : Unit → Db → Prop} {E : Error → Db → Prop} (hQ : Q () (db.setScope i (s.recorded cfg db snapshot d))) :
    wp (Tx.whenever ((s.refreshed snapshot).currentSourceFingerprint ≠ db.storedSourceFingerprint cfg s d) <|
      Tx.modify fun db' => db'.modifyScope i fun row =>
        { row with currentSourceFingerprint := db.storedSourceFingerprint cfg s d }) Q E
      (db.setScope i (s.refreshed snapshot)) := by
  have hrow := Db.find_setScope hs (s.refreshed snapshot)
  rw [wp_whenever, wp_modify, Db.modifyScope_eq_setScope hrow, Db.setScope_setScope]
  refine ⟨fun _ => hQ, fun he => ?_⟩
  rw [not_not] at he
  have hsame : s.recorded cfg db snapshot d = s.refreshed snapshot := by
    rw [Scope.recorded, ← he]
  rwa [hsame] at hQ

theorem claimJob_reconciles {candidate : JobId} {job : Job} (h : Inv db.core) {snapshot : Snapshot} {d : Digest}
    (hs : db.scopes.find i = some s) (hj : db.jobs.find candidate = some job) (hpending : job.status = .pending)
    (hk : scopeFilter job.key.target = .ok s.key) (hfile : s.key.target.datasetTypeCode.isFileDataset = true)
    (hforce : job.allowCleanRebuild = false) (hsource : currentSource cfg env job.key.target = .ok (snapshot, d))
    (hd : db.scopeIsDirty cfg s (some d) = false) :
    wp (claimJob cfg env candidate) (fun _ db' => Reconciled i s db db') (fun _ _ => True) db := by
  simp only [claimJob, wp_atomic, wp_bind, wp_get, wp_require, hj, Option.some.injEq, forall_eq', reduceCtorEq,
    false_imp_iff, and_true]
  refine wp_lockedScope_of_find h hs hk ?_
  simp only [wp_ite, wp_pure]
  refine ⟨fun hst => absurd hpending hst, fun _ => ?_⟩
  cases hdef : getDatasetDefinition job.key.target.datasetTypeCode with
  | error e => simp [scopeFilter, registeredScopeType, hdef, bind, Except.bind] at hk
  | ok definition =>
    simp only [wp_bind]
    refine wp_currentSourceState hs (fun snapshot' d' hread => ?_) (fun _ _ => trivial)
    rw [scopeFilter_target hk, hsource] at hread
    cases hread
    have hclean : (db.setScope i (s.recorded cfg db snapshot d)).scopeIsDirty cfg (s.recorded cfg db snapshot d) (some d) =
        false := (scopeIsDirty_setScope rfl _).trans hd
    have hinv : Inv (db.setScope i (s.recorded cfg db snapshot d)).core := (Steps.recorded (l := {}) hs).inv h
    simp only [wp_get]
    refine wp_recordFingerprint hs ?_
    simp only [claimFindsClean, wp_ite, wp_bind, wp_pure]
    refine ⟨fun _ => ?_, fun hno => absurd ⟨hfile, hforce⟩ hno⟩
    refine wp_mono (wp_reconcileCleanSource_settled (s := s.recorded cfg db snapshot d) hinv (Db.find_setScope hs _) rfl hclean)
      ?_ (fun _ _ hf => hf.elim)
    rintro _ db' ⟨rfl, hsp, hset, u, hu, hcur, hds, hkey⟩
    exact ⟨fun _ => ⟨(Spares.setScope i i db _).trans hsp, hset, u, hu, hds rfl, hcur, hkey⟩,
      fun hno => absurd rfl hno⟩

theorem stagePublicationUpdate_reconciles {actor : Actor} {target : Target} (h : Inv db.core) {snapshot : Snapshot}
    {d : Digest} (hs : db.scopes.find i = some s) (hk : scopeFilter target = .ok s.key)
    (hfile : s.key.target.datasetTypeCode.isFileDataset = true)
    (hsource : currentSource cfg env target = .ok (snapshot, d)) (hd : db.scopeIsDirty cfg s (some d) = false) :
    wp (stagePublicationUpdate cfg env actor target) (fun _ db' => Reconciled i s db db') (fun _ _ => True) db := by
  simp only [stagePublicationUpdate, wp_atomic, wp_bind, wp_ofExcept]
  refine ⟨fun _ _ => ⟨fun _ _ => wp_lockedScope_of_find h hs hk ?_, fun _ _ => trivial⟩, fun _ _ => trivial⟩
  have hset : Steps cfg {} db.core (db.setScope i (s.refreshed snapshot)).core := .setScope hs rfl rfl (.inl rfl)
  have hfresh : Inv (db.setScope i (s.refreshed snapshot)).core := hset.inv h
  have hclean : (db.setScope i (s.refreshed snapshot)).scopeIsDirty cfg (s.refreshed snapshot) (some d) = false :=
    (scopeIsDirty_setScope rfl _).trans hd
  simp only [stageFindsClean, wp_ite, wp_bind, wp_pure]
  refine ⟨fun _ => ?_, fun hno => absurd hfile hno⟩
  refine wp_currentSourceState hs (fun snapshot' d' hread => ?_) (fun _ _ => trivial)
  rw [scopeFilter_target hk, hsource] at hread
  cases hread
  refine wp_mono (wp_reconcileCleanSource_settled hfresh (Db.find_setScope hs _) rfl hclean) ?_ (fun _ _ hf => hf.elim)
  rintro _ db' ⟨rfl, hsp, hset, u, hu, hcur, hds, hkey⟩
  exact ⟨fun _ => ⟨(Spares.setScope i i db _).trans hsp, hset, u, hu, hds rfl, hcur, hkey⟩, fun hno => absurd rfl hno⟩


/-- Every call that finds a clean source reconciles its scope. -/
theorem FindsClean.reconciles {call : Call} (h : Inv db.core) (hf : FindsClean cfg env db i call) :
    ∃ s, db.scopes.find i = some s ∧ wp (call.run cfg env) (fun _ db' => Reconciled i s db db') (fun _ _ => True) db := by
  cases hf with
  | markDirty hs hk hsource hd => exact ⟨_, hs, wp_bind.mpr (markDirty_reconciles h hs hk hsource hd)⟩
  | enqueue hs hk hforce hsource hd => exact ⟨_, hs, wp_bind.mpr (enqueue_reconciles h hs hk hforce hsource hd)⟩
  | claim hs hj hpending hk hfile hforce hsource hd =>
    exact ⟨_, hs, wp_bind.mpr (claimJob_reconciles h hs hj hpending hk hfile hforce hsource hd)⟩
  | stage hs hk hfile hsource hd =>
    exact ⟨_, hs, wp_bind.mpr (stagePublicationUpdate_reconciles h hs hk hfile hsource hd)⟩

/-- The current publication of a reconciled scope is still the same row. -/
theorem Reconciled.scopeIsDirty (h : Inv db.core) (hs : db.scopes.find i = some s) (hr : Reconciled i s db db') {t : Scope}
    (ht : t.currentPublishedPublication = s.currentPublishedPublication) (d : Digest) :
    db'.scopeIsDirty cfg t (some d) = db.scopeIsDirty cfg s (some d) := by
  have hcurrent : db'.currentPublication t = db.currentPublication s := by
    unfold Db.currentPublication
    rw [ht]
    cases hc : s.currentPublishedPublication with
    | none => rfl
    | some p =>
      obtain ⟨pub, hp, -, hst⟩ := h.current_published hs hc
      have hp : db.publications.find p = some pub := hp
      rw [Option.bind_some, Option.bind_some, hp]
      exact hr.spares.publications hp (.inr (.inl (by rw [hst]; decide)))
  unfold Db.scopeIsDirty
  rw [hcurrent]
  cases db.currentPublication s <;> rfl

theorem EnqueueRequest.readSource_congr {request : EnqueueRequest}
    (h : ∀ target, currentSource cfg env' target = currentSource cfg env target) :
    request.readSource cfg env' = request.readSource cfg env := by
  unfold readSource
  rw [h]

/-- The same call finds the source clean again, or finds its job no longer pending. -/
theorem FindsClean.again {call : Call} (h : Inv db.core) (hf : FindsClean cfg env db i call)
    (hs : db.scopes.find i = some s) (hr : Reconciled i s db db')
    (hsame : ∀ target, currentSource cfg env' target = currentSource cfg env target) :
    FindsClean cfg env' db' i call ∨ ∃ candidate, call = .claimJob candidate ∧
      ∀ a, db'.jobs.find candidate = some a → a.status ≠ .pending := by
  obtain ⟨t, ht, -, hc, hk'⟩ := hr.row
  cases hf with
  | markDirty hs' hk hsource hd =>
    rw [hs] at hs'
    cases hs'
    exact .inl (.markDirty ht (by rw [hk', hk]) ((hsame _).trans hsource) ((hr.scopeIsDirty h hs hc _).trans hd))
  | enqueue hs' hk hforce hsource hd =>
    rw [hs] at hs'
    cases hs'
    exact .inl (.enqueue ht (by rw [hk', hk]) hforce ((EnqueueRequest.readSource_congr hsame).trans hsource)
      ((hr.scopeIsDirty h hs hc _).trans hd))
  | stage hs' hk hfile hsource hd =>
    rw [hs] at hs'
    cases hs'
    exact .inl (.stage ht (by rw [hk', hk]) (by rw [hk']; exact hfile) ((hsame _).trans hsource)
      ((hr.scopeIsDirty h hs hc _).trans hd))
  | claim hs' hj hpending hk hfile hforce hsource hd =>
    rw [hs] at hs'
    cases hs'
    refine .inr ⟨_, rfl, fun a ha hst => ?_⟩
    have hold := hr.spares.pending ha hst
    rw [hj] at hold
    cases hold
    exact hr.settled.jobs _ _ ha ⟨(h.locked_job hj hs hk).1, hpending, hforce⟩

/-- A claim of a job that is not pending changes nothing. -/
theorem exec_claimJob_lost {candidate : JobId} (h : Inv db.core)
    (hno : ∀ a, db.jobs.find candidate = some a → a.status ≠ .pending) :
    exec ((Call.claimJob candidate).run cfg env) db = db := by
  refine exec_of_wp (P := fun db' => db' = db) ?_
  refine wp_bind.mpr (wp_mono (wp_claimJob (l := {}) h) (fun r db' m => ?_) (fun _ _ he => he))
  simp only [wp_pure]
  cases m with
  | lost => rfl
  | clean hr => exact absurd hr.pending (hno _ hr.found)
  | started hr => exact absurd hr.pending (hno _ hr.found)
  | obsolete hr => exact absurd hr.pending (hno _ hr.found)

/-- Repeating a reconciling call changes no job and no attempt. -/
theorem FindsClean.repeated {call : Call} (h : Inv db.core) (hf : FindsClean cfg env db i call)
    (hs : db.scopes.find i = some s) (hr : Reconciled i s db db') (h' : Inv db'.core)
    (hsame : ∀ target, currentSource cfg env' target = currentSource cfg env target) :
    (exec (call.run cfg env') db').jobs = db'.jobs ∧ (exec (call.run cfg env') db').publications = db'.publications := by
  rcases hf.again h hs hr hsame with hagain | ⟨candidate, rfl, hno⟩
  · obtain ⟨t, ht, hwp⟩ := hagain.reconciles h'
    cases hx : call.run cfg env' db' with
    | mk r db'' =>
      have hexec : exec (call.run cfg env') db' = db'' := by rw [exec, hx]
      rw [hexec]
      cases r with
      | ok u => exact (hwp.of_ok hx).spares.eq_of_settled hr.settled
      | error e =>
        have hun := call.raises_unchanged hx
        exact ⟨hun.jobs, hun.publications⟩
  · rw [exec_claimJob_lost h' hno]
    exact ⟨rfl, rfl⟩


/-! ### The revision of a file scope -/

/-- The library behind a file scope. -/
def Target.libraryOwner (target : Target) : Option LibraryOwner :=
  match target.department, target.station with
  | none, _ => none
  | some _, some station => some (.station station)
  | some d, none => some (.department d)

theorem currentSource_fileLibrary {target : Target} {snapshot : Snapshot} {d : Digest}
    (hfile : target.datasetTypeCode.isFileDataset = true) (h : currentSource cfg env target = .ok (snapshot, d)) :
    ∃ owner, target.libraryOwner = some owner ∧ snapshot = .fileLibrary (snapshotForLibrary (env.canonical.libraryOf owner)) := by
  obtain ⟨department, station, code⟩ := target
  simp only [currentSource, bind_eq_ok, pure_eq_ok, Prod.mk.injEq] at h
  obtain ⟨definition, hdef, snapshot', hsource, hsame, -⟩ := h
  rw [hsame] at hsource
  unfold buildSourcePayload at hsource
  rw [getDatasetDefinition_code hdef] at hsource
  have hsource : fileLibrarySource env.canonical ⟨department, station, code⟩ = .ok snapshot := by
    cases code with
    | departmentFiles | stationFiles => exact hsource
    | _ => cases hfile
  unfold fileLibrarySource at hsource
  cases department with
  | none => cases hsource
  | some department =>
    cases station with
    | none =>
      cases hsource
      exact ⟨_, rfl, rfl⟩
    | some station =>
      cases hsource
      exact ⟨_, rfl, rfl⟩

/-- An enqueue of a given source keeps every scope revision. -/
theorem Enqueued.sourceRevision {request : EnqueueRequest} {r : Option JobId} {snapshot : Snapshot} {d : Digest}
    (hgiven : request.source = some (snapshot, d)) (m : Enqueued cfg env l request db r db') {k : ScopeId} {t : Scope}
    (ht : db.scopes.find k = some t) : ∃ u, db'.scopes.find k = some u ∧ u.sourceRevision = t.sourceRevision := by
  have hself : ∀ {i s u snapshot d}, EnqueueReads cfg env request db i s u snapshot d → u = s := by
    rintro i s u snapshot d hr
    rcases hr.source with ⟨-, hu⟩ | ⟨hno, -⟩
    · exact hu
    · rw [hgiven] at hno
      cases hno
  cases m with
  | @clean i s u snapshot d db' hr ha hd hc =>
    obtain rfl := hself hr
    rw [hc.scopes]
    by_cases hik : i = k
    · subst hik
      rw [hr.scope] at ht
      cases ht
      exact ⟨_, Db.find_setScope hr.scope _, rfl⟩
    · exact ⟨t, by simp [Db.setScope, Db.modifyScope, hik, ht], rfl⟩
  | running hr hd hj hk ha =>
    obtain rfl := hself hr
    rw [Db.setScope_self hr.scope]
    exact ⟨t, ht, rfl⟩
  | @coalesced i s u snapshot d j a hr hd hj hk ha =>
    obtain rfl := hself hr
    rw [Db.setScope_self hr.scope]
    refine ⟨t, ?_, rfl⟩
    rw [← ht]
    unfold Db.coalesced
    cases a.buildPublication with
    | none => rfl
    | some p =>
      dsimp only
      split <;> rfl
  | created hr hd hn hdef =>
    obtain rfl := hself hr
    rw [Db.setScope_self hr.scope]
    exact ⟨t, ht, rfl⟩

/-- A dirty mark of a file scope records the revision of its library. -/
theorem markDirty_sourceRevision {target : Target} {actor : Option Actor} (h : Inv db.core)
    (hfile : target.datasetTypeCode.isFileDataset = true) (hrun : markDirty cfg env target actor db = (.ok i, db')) :
    ∃ t owner, db'.scopes.find i = some t ∧ target.libraryOwner = some owner ∧
      t.sourceRevision = (env.canonical.libraryOf owner).sourceRevision := by
  have hmarked : MarkedDirty cfg env {} target actor db i db' := (wp_markDirty h).of_ok hrun
  have hbumped : ∀ {key : ScopeKey} {s : Scope} {owner : LibraryOwner}, scopeFilter target = .ok key → s.key = key →
      s.bumpedRevision (.fileLibrary (snapshotForLibrary (env.canonical.libraryOf owner))) =
        (env.canonical.libraryOf owner).sourceRevision := by
    intro key s owner hkey hs
    have htarget : s.key.target = target := by rw [hs, scopeFilter_target hkey]
    simp [Scope.bumpedRevision, refreshedRevision, htarget, hfile, snapshotForLibrary]
  cases hmarked with
  | @dirty s key db₀ snapshot d r _ hkey hs hsource hd he =>
    obtain ⟨owner, howner, rfl⟩ := currentSource_fileLibrary hfile hsource
    obtain ⟨u, hu, hrev⟩ := he.sourceRevision rfl (Db.find_setScope hs.find.1 _)
    exact ⟨u, owner, hu, howner, hrev.trans (hbumped hkey hs.find.2)⟩
  | @clean s key db₀ snapshot d t db₁ hkey hs hsource hd hsteps hc hk hcur hlb =>
    obtain ⟨owner, howner, rfl⟩ := currentSource_fileLibrary hfile hsource
    have hrow : db₁.scopes.find i = some t := by
      rw [hc.scopes]
      exact Db.find_setScope hs.find.1 t
    exact ⟨_, owner, Db.find_setScope hrow _, howner, hbumped hkey hs.find.2⟩

/-- The only staged attempts of a reconciled scope are those of waiting forced jobs. -/
theorem Reconciled.staged (h' : Inv db'.core) (hr : Reconciled i s db db') {p : PublicationId} {pub : Publication}
    (hp : db'.publications.find p = some pub) (hi : pub.scopeState = i) (hst : pub.status = .staged) :
    ∃ j a, db'.jobs.find j = some a ∧ a.status = .pending ∧ a.allowCleanRebuild = true ∧ a.buildPublication = some p := by
  obtain ⟨j, a, hj, ha, hred, hb⟩ := hr.settled.publications p pub hp hi hst
  obtain ⟨pub', hp', hscope⟩ := h'.build_scope hj hb
  have hp' : db'.publications.find p = some pub' := hp'
  rw [hp] at hp'
  cases hp'
  have hpending : a.status = .pending := by
    by_contra hne
    have hrunning : a.status = .running := by
      revert ha hne
      cases a.status <;> simp [JobStatus.isActive]
    obtain ⟨q, r, hq, hr, hbuilding⟩ := h'.running_building hj hrunning
    rw [hb] at hq
    cases hq
    have hr : db'.publications.find p = some r := hr
    rw [hp] at hr
    cases hr
    rw [hst] at hbuilding
    cases hbuilding
  refine ⟨j, a, hj, hpending, ?_, hb⟩
  by_contra hforce
  exact hred ⟨hscope.symm.trans hi, hpending, Bool.not_eq_true _ ▸ hforce⟩

/-- In every reachable state, a call that finds its source clean leaves only forced work of the
scope and touches nothing else, repeating it changes no job and no attempt, and a dirty mark of
a file scope records the revision of the library. -/
theorem clean_source_reconciled (h : (system cfg).Reachable db) :
    (∀ env call i db', FindsClean cfg env db i call → call.run cfg env db = (.ok (), db') →
      (∃ s, db.scopes.find i = some s ∧ Reconciled i s db db') ∧
      (∀ p pub, db'.publications.find p = some pub → pub.scopeState = i → pub.status = .staged →
        ∃ j a, db'.jobs.find j = some a ∧ a.status = .pending ∧ a.allowCleanRebuild = true ∧
          a.buildPublication = some p) ∧
      ∀ env', (∀ target, currentSource cfg env' target = currentSource cfg env target) →
        (exec (call.run cfg env') db').jobs = db'.jobs ∧ (exec (call.run cfg env') db').publications = db'.publications) ∧
    ∀ env target actor i db', target.datasetTypeCode.isFileDataset = true →
      markDirty cfg env target actor db = (.ok i, db') →
      ∃ t owner, db'.scopes.find i = some t ∧ target.libraryOwner = some owner ∧
        t.sourceRevision = (env.canonical.libraryOf owner).sourceRevision := by
  have hinv := inv_of_reachable h
  refine ⟨fun env call i db' hf hrun => ?_, fun env target actor i db' hfile hrun => ?_⟩
  · obtain ⟨s, hs, hwp⟩ := hf.reconciles hinv
    have hr := hwp.of_ok hrun
    have hinv' : Inv db'.core := by
      have hexec : exec (call.run cfg env) db = db' := by rw [exec, hrun]
      rw [← hexec]
      exact inv_of_reachable (reachable_step h env call)
    exact ⟨⟨s, hs, hr⟩, fun p pub hp hi hst => hr.staged hinv' hp hi hst,
      fun env' hsame => hf.repeated hinv hs hr hinv' hsame⟩
  · exact markDirty_sourceRevision hinv hfile hrun

/-- The published phonebook of department 1 after an entry was added. -/
def editedPhonebook : Db :=
  runCalls sampleConfig {} (phonebookBuild 0 1 0 ++ [(phonebookEnv 1 2, .markDirty phonebookTarget none)])

/-- The entry is removed again: the update it had queued is cancelled. -/
theorem revertedPhonebook_reconciled : ∃ s db',
    (Call.markDirty phonebookTarget none).run sampleConfig (phonebookEnv 2 1) editedPhonebook = (.ok (), db') ∧
      db'.jobs.rows.map (·.status) = [.succeeded, .cancelled] ∧
      editedPhonebook.scopes.find 0 = some s ∧ Reconciled 0 s editedPhonebook db' := by
  have hreach : (system sampleConfig).Reachable editedPhonebook := reachable_runCalls (.init Migrated.empty) _
  have hs : editedPhonebook.scopes.find 0 = some ⟨⟨.department, phonebookTarget⟩, 2, some 2, some 1, some 0, some 0⟩ := by
    decide +kernel
  have hclean : FindsClean sampleConfig (phonebookEnv 2 1) editedPhonebook 0 (.markDirty phonebookTarget none) := by
    have hsource : currentSource sampleConfig (phonebookEnv 2 1) phonebookTarget =
        .ok (.phonebook [⟨0, none, none, none, none, ""⟩], 1) := by decide +kernel
    exact .markDirty hs rfl hsource (by decide +kernel)
  have hok : ((Call.markDirty phonebookTarget none).run sampleConfig (phonebookEnv 2 1) editedPhonebook).1 = .ok () := by
    decide +kernel
  have hjobs : ((Call.markDirty phonebookTarget none).run sampleConfig (phonebookEnv 2 1) editedPhonebook).2.jobs.rows.map
      (·.status) = [.succeeded, .cancelled] := by decide +kernel
  generalize editedPhonebook = db at *
  cases hrun : (Call.markDirty phonebookTarget none).run sampleConfig (phonebookEnv 2 1) db with
  | mk r db' =>
    rw [hrun] at hok hjobs
    cases hok
    obtain ⟨s, hs', hr⟩ := ((clean_source_reconciled hreach).1 _ _ _ _ hclean hrun).1
    exact ⟨s, db', rfl, hjobs, hs', hr⟩

end FireDash.Publications
