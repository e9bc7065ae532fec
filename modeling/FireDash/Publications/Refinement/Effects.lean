import FireDash.Publications.Effects
import FireDash.Publications.RetentionPass

/-! Every publication service is a sequence of elementary writes, and so has no more than the
effect it is entitled to. -/
namespace FireDash.Publications

open Tx

variable {cfg : Config} {env : Env} {marks : ScopeKey → Prop} {db db' : Db}

/-! ### Scopes and the queue -/

theorem lockedScope_frames (target : Target) : Frames (Writes cfg env marks) (lockedScope target) db :=
  (frames_ofExcept _).bind fun _ _ _ => (frames_ofExcept _).bind fun _ _ _ => frames_require _ _

/-- Only a file dataset takes over a revision with its source. -/
theorem refreshedRevision_eq {scope : Scope} {snapshot : Snapshot}
    (hf : scope.key.target.datasetTypeCode.isFileDataset = false) : refreshedRevision scope snapshot = scope.sourceRevision := by
  unfold refreshedRevision
  cases snapshot <;> simp [hf]

theorem currentSourceState_frames {i : ScopeId} {scope s : Scope} (hs : db.scopes.find i = some s)
    (hk : s.key = scope.key) : Frames (Writes cfg env marks) (currentSourceState cfg env i scope) db := by
  unfold currentSourceState
  refine frames_bind (wp_ofExcept.mpr ⟨fun r _ => ⟨.refl db, ?_⟩, fun _ _ => .refl db⟩)
  refine Frames.bind (.whenever _ fun hne => ?_) fun _ _ _ => frames_pure _
  refine frames_modify.mpr (.advanceScope fun t ht => ⟨rfl, fun hf _ => ?_⟩)
  rw [hs] at ht
  cases ht
  rw [hk] at hf
  exact absurd (refreshedRevision_eq hf).symm hne

theorem cancelPending_frames (j : JobId) (a : Job) : Frames (Writes cfg env marks) (cancelPending env j a) db := by
  unfold cancelPending
  have hclose : ∀ {db : Db} {f : Job → Job}, Frames (Writes cfg env marks) (Tx.modify (ε := Error) fun db => db.modifyJob j f) db :=
    fun {_ f} => frames_modify.mpr (.modifyJob j f)
  split
  · refine frames_get_bind.mpr (frames_bind ((wp_require _ _).mpr ⟨fun pub hp => ⟨.refl _, ?_⟩, fun _ => .refl _⟩))
    refine Frames.bind (.whenever _ fun hst => ?_) fun _ _ _ => hclose
    exact frames_modify.mpr (.staged hp hst rfl rfl rfl rfl rfl rfl rfl)
  · exact hclose

/-- Staged attempts a pass cancels one after the other. -/
theorem cancelStaged_frames (l : List (PublicationId × Publication))
    (hl : ∀ e ∈ l, ∃ p, db.publications.find e.1 = some p ∧ (p.status = .staged ∨ p.status = .cancelled)) :
    Frames (Writes cfg env marks) (forEach (fun e : PublicationId × Publication => Tx.modify (ε := Error) fun db =>
      db.modifyPublication e.1 fun row => { row with status := .cancelled }) l) db := by
  refine wp_mono (wp_forEach (fun rest t => Writes cfg env marks db t ∧ ∀ e ∈ rest, ∃ p, t.publications.find e.1 = some p ∧
    (p.status = .staged ∨ p.status = .cancelled)) l ⟨.refl db, hl⟩ ?_) (fun _ _ h => h.1) fun _ _ h => h
  rintro e rest t ⟨ht, hrest⟩
  obtain ⟨p, hp, hst⟩ := hrest e List.mem_cons_self
  rw [wp_modify]
  refine ⟨ht.trans (.undelivered hp ?_ ?_ (.of_columns ?_ rfl rfl rfl rfl rfl rfl) ?_), fun a ha => ?_⟩
  · rcases hst with hst | hst <;> rw [hst] <;> decide
  · rcases hst with hst | hst <;> rw [hst] <;> decide
  · rcases hst with hst | hst <;> rw [hst] <;> rfl
  · rintro ⟨⟩
  · obtain ⟨q, hq, hqst⟩ := hrest a (List.mem_cons_of_mem _ ha)
    simp only [Db.modifyPublication, Table.find_modify, hq]
    split
    · exact ⟨_, rfl, .inr rfl⟩
    · exact ⟨q, rfl, hqst⟩

theorem cancelRedundantPending_frames (i : ScopeId) : Frames (Writes cfg env marks) (cancelRedundantPending env i) db := by
  unfold cancelRedundantPending
  refine frames_get_bind.mpr (Frames.bind (.forEach fun e _ t _ => cancelPending_frames e.1 e.2) fun _ t _ => ?_)
  refine frames_get_bind.mpr (cancelStaged_frames _ fun e he => ?_)
  obtain ⟨hp, hst⟩ := Table.mem_filter.mp (List.mem_filter.mp he).1
  simp only [decide_eq_true_eq] at hst
  exact ⟨e.2, hp, .inl hst.2⟩

theorem reconcileCleanSource_frames (i : ScopeId) (scope : Scope) (d : Digest) :
    Frames (Writes cfg env marks) (reconcileCleanSource cfg env i scope d) db := by
  unfold reconcileCleanSource
  refine frames_get_bind.mpr ?_
  split
  · exact frames_pure _
  · refine Frames.bind (.whenever _ fun _ => frames_modify.mpr (.modifyScope i fun _ => ⟨rfl, rfl⟩)) fun _ t _ => ?_
    exact Frames.bind (cancelRedundantPending_frames i) fun _ _ _ => frames_pure _

theorem allocateStagedPublication_frames {i : ScopeId} {key : ScopeKey} {rev : ℕ} {by' : Option Actor} {d : Digest}
    {snapshot : Snapshot} :
    wp (allocateStagedPublication env i key rev by' d snapshot)
      (fun r t => Writes cfg env marks db t ∧ t.publications.find r.1 = some r.2 ∧ r.2.key = key ∧ r.2.scopeState = i)
      (fun _ t => Writes cfg env marks db t) db := by
  simp only [allocateStagedPublication, wp_bind, wp_ofExcept, wp_get, wp_modify, wp_pure]
  exact ⟨fun _ _ => ⟨.single (.insert rfl rfl), by simp, rfl, rfl⟩, fun _ _ => .refl db⟩

theorem enqueueSource_frames {i : ScopeId} {scope : Scope} (source : Option (Snapshot × Digest))
    (hs : db.scopes.find i = some scope) : Frames (Writes cfg env marks) (enqueueSource cfg env i scope source) db := by
  unfold enqueueSource
  split
  · exact frames_pure _
  · refine Frames.bind (currentSourceState_frames hs rfl) fun r t _ => frames_get_bind.mpr ?_
    exact Frames.bind (.whenever _ fun _ => frames_modify.mpr (.modifyScope i fun _ => ⟨rfl, rfl⟩)) fun _ _ _ => frames_pure _

theorem coalesceJob_frames (request : EnqueueRequest) (j : JobId) (a : Job) (scope : Scope) (snapshot : Snapshot)
    (d : Digest) : Frames (Writes cfg env marks) (coalesceJob env request j a scope snapshot d) db := by
  unfold coalesceJob
  refine Frames.bind (frames_modify.mpr (.modifyJob j _)) fun _ t _ => ?_
  split
  · exact frames_pure ()
  · refine frames_get_bind.mpr (.whenever _ fun hstaged => ?_)
    obtain ⟨p, hp, hst⟩ := hstaged
    exact frames_modify.mpr (.staged hp hst (by dsimp only; rw [hst]; rfl) rfl rfl rfl rfl rfl rfl)

theorem createJob_frames (request : EnqueueRequest) (i : ScopeId) (scope : Scope) (snapshot : Snapshot) (d : Digest) :
    Frames (Writes cfg env marks) (createJob env request i scope snapshot d) db := by
  unfold createJob
  refine (frames_ofExcept _).bind fun key _ _ => (frames_ofExcept _).bind fun _ t _ => frames_get_bind.mpr ?_
  refine Frames.bind (frames_modify.mpr (.free rfl rfl rfl rfl (.refl _ _))) fun _ t _ => ?_
  refine Frames.bind (wp_mono allocateStagedPublication_frames (fun _ _ h => h.1) fun _ _ h => h) fun r t _ => ?_
  exact Frames.bind (frames_modify.mpr (.modifyJob _ _)) fun _ _ _ => frames_pure _

theorem enqueueDecision_frames (request : EnqueueRequest) (i : ScopeId) (scope : Scope) (snapshot : Snapshot)
    (d : Digest) : Frames (Writes cfg env marks) (enqueueDecision cfg env request i scope snapshot d) db := by
  unfold enqueueDecision
  refine frames_get_bind.mpr ?_
  split
  · exact Frames.bind (reconcileCleanSource_frames i scope d) fun _ _ _ => frames_pure _
  · split
    · split
      · exact frames_pure _
      · exact Frames.bind (coalesceJob_frames request _ _ scope snapshot d) fun _ _ _ => frames_pure _
    · exact Frames.bind (createJob_frames request i scope snapshot d) fun _ _ _ => frames_pure _

theorem enqueuePublicationJob_frames (request : EnqueueRequest) :
    Frames (Writes cfg env marks) (enqueuePublicationJob cfg env request) db := by
  unfold enqueuePublicationJob
  refine Frames.toAtomic ((frames_ofExcept _).bind fun _ t _ => frames_bind ?_)
  refine wp_lockedScope (fun i s hs _ => ⟨.refl t, ?_⟩) fun _ => .refl t
  exact (enqueueSource_frames _ hs).bind fun _ _ _ => enqueueDecision_frames _ _ _ _ _

theorem ScopesKept.insert {scopes : Table Scope} {key : ScopeKey} (hn : ∀ i s, scopes.find i = some s → s.key ≠ key) :
    ScopesKept marks scopes (scopes.insert { key := key }) :=
  Table.Evolve.insert (fun _ => ⟨rfl, fun _ _ => rfl⟩) hn

/-- The scope a service works on is a row with its key. -/
theorem scopeOrNew_frames (key : ScopeKey) : wp (scopeOrNew key)
    (fun r t => Writes cfg env marks db t ∧ t.scopes.find r.1 = some r.2 ∧ r.2.key = key)
    (fun _ t => Writes cfg env marks db t) db := by
  unfold scopeOrNew
  rw [wp_bind, wp_get]
  split
  · rename_i found hfound
    obtain ⟨hs, hk⟩ := Table.first_eq_some (i := found.1) (a := found.2) hfound
    exact ⟨.refl db, hs, by simpa using hk⟩
  · rename_i hnone
    have hnew : ∀ i s, db.scopes.find i = some s → s.key ≠ key := by
      intro i s hs hk
      have hno := Table.first_eq_none.mp hnone i s hs
      simp only [decide_eq_false_iff_not] at hno
      exact hno hk
    simp only [wp_bind, wp_ofExcept, wp_modify, wp_pure]
    exact ⟨fun _ _ => ⟨.free rfl rfl rfl rfl (.insert hnew), by simp, trivial⟩, fun _ _ => .refl db⟩

/-- A dirty mark advances no scope but that of its target. -/
theorem markDirty_frames (target : Target) (actor : Option Actor) :
    Frames (Writes cfg env fun key => key.target = target) (markDirty cfg env target actor) db := by
  unfold markDirty
  refine Frames.toAtomic ((frames_ofExcept _).bind fun _ _ _ => (frames_ofExcept _).bind fun _ t _ =>
    frames_bind (wp_ofExcept.mpr ⟨fun key hkey => ⟨.refl t, ?_⟩, fun _ _ => .refl t⟩))
  refine frames_bind (wp_mono (scopeOrNew_frames key) ?_ fun _ _ ht => ht)
  rintro ⟨i, scope⟩ t ⟨ht, hs, hk⟩
  refine ⟨ht, ?_⟩
  dsimp only at hs hk ⊢
  have hmark : ∀ {u : Db} {f : Scope → Scope}, Writes cfg env (fun key => key.target = target) t u →
      (∀ s, (f s).key = s.key) → Writes cfg env (fun key => key.target = target) u (u.modifyScope i f) := by
    intro u f hu hf
    refine .advanceScope fun s hs' => ⟨hf s, fun _ hno => absurd ?_ hno⟩
    obtain ⟨s', hs'', hk', -⟩ := hu.scope hs
    rw [hs'] at hs''
    cases hs''
    rw [hk', hk, scopeFilter_target hkey]
  have hread : Frames (Writes cfg env fun key => key.target = target)
      (currentSourceState cfg env i { scope with sourceRevision := scope.sourceRevision + 1 }) t :=
    currentSourceState_frames hs rfl
  refine hread.bind fun source u hu => frames_get_bind.mpr ?_
  split
  · refine Frames.bind (frames_modify.mpr (hmark hu fun _ => rfl)) fun _ _ _ => ?_
    exact (enqueuePublicationJob_frames _).bind fun _ _ _ => frames_pure _
  · refine (reconcileCleanSource_frames _ _ _).bind fun _ v hv => ?_
    exact Frames.bind (frames_modify.mpr (hmark (hu.trans hv) fun _ => rfl)) fun _ _ _ => frames_pure _

/-! ### Claims -/

theorem claimedPublication_frames {i : ScopeId} {job : Job} {rev : ℕ} {d : Digest} {snapshot : Snapshot} :
    wp (claimedPublication env i job rev d snapshot)
      (fun r t => Writes cfg env marks db t ∧ ∀ e, r = some e → t.publications.find e.1 = some e.2 ∧
        (job.buildPublication = some e.1 ∨ e.2.key = job.key ∧ e.2.scopeState = i)) (fun _ t => Writes cfg env marks db t) db := by
  unfold claimedPublication
  split
  · rename_i p hb
    simp only [wp_bind, wp_get, wp_pure]
    refine ⟨.refl db, fun e he => ?_⟩
    obtain ⟨pub, hp, rfl⟩ := Option.map_eq_some_iff.mp he
    exact ⟨hp, .inl hb⟩
  · simp only [wp_bind, wp_pure]
    refine wp_mono allocateStagedPublication_frames (fun r t h => ⟨h.1, fun e he => ?_⟩) fun _ _ h => h
    obtain rfl := Option.some.inj he
    exact ⟨h.2.1, .inr h.2.2⟩

theorem Db.pinned_nil (db : Db) : db.pinned [] = db := by
  simp [Db.pinned]

/-- Exactly the contents a snapshot names are pinned. -/
theorem wp_pinSource_pins {p : PublicationId} {library : LibrarySnapshot} (hpin : Pinnable env.canonical library) :
    wp (pinSource env p library) (fun _ t => ∃ contents, PinsOf env.canonical p (.fileLibrary library) contents ∧
      t = db.pinned contents) (fun _ _ => False) db := by
  unfold pinSource PinsOf
  suffices hall : ∀ (rest : List (FileRecord × ℕ)) (db : Db), (∀ entry ∈ rest, entry ∈ library.documents) →
      wp (Tx.forEach (pinContent env p library.library.id) rest) (fun _ t => ∃ contents,
        List.Forall₂ (PinOf env.canonical p library.library.id) rest contents ∧ t = db.pinned contents)
        (fun _ _ => False) db from hall _ db fun _ h => h
  intro rest
  induction rest with
  | nil => exact fun db _ => ⟨[], .nil, by simp [Db.pinned]⟩
  | cons entry rest ih =>
    intro db hrest
    simp only [Tx.forEach, pinContent, wp_bind, wp_require, wp_modify]
    refine ⟨fun content hfound => ?_, fun hnone => ?_⟩
    · have hid := List.find?_some hfound
      simp only [decide_eq_true_eq] at hid
      refine wp_mono (ih _ fun e he => hrest e (List.mem_cons_of_mem _ he)) ?_ fun _ _ h => h
      rintro _ t ⟨contents, hcontents, rfl⟩
      refine ⟨⟨p, content, entry.1.id⟩ :: contents, .cons ?_ hcontents, by simp [Db.pinned]⟩
      exact ⟨rfl, rfl, hid.1, hid.2, List.mem_of_find?_eq_some hfound⟩
    · obtain ⟨content, hmem, hid⟩ := hpin entry (hrest entry List.mem_cons_self)
      exact List.find?_eq_none.mp hnone content hmem (by simp [hid])

/-- Only the two file datasets read a library. -/
theorem buildSourcePayload_isFile {definition : DatasetTypeDefinition} {target : Target} {snapshot : Snapshot}
    (h : buildSourcePayload env definition target = .ok snapshot) :
    definition.code.isFileDataset = true ↔ ∃ library, snapshot = .fileLibrary library := by
  unfold buildSourcePayload at h
  cases hcode : definition.code <;> simp only [hcode] at h <;>
    simp only [DatasetTypeCode.isFileDataset, reduceCtorEq, false_iff, true_iff]
  case departmentFiles | stationFiles =>
    unfold fileLibrarySource at h
    split at h
    · cases h
    · exact ⟨_, (Except.ok.inj h).symm⟩
    · exact ⟨_, (Except.ok.inj h).symm⟩
  case testDepartmentIncidents | testSystemDataset =>
    cases h
    simp
  case unregistered => cases h
  all_goals
    rintro ⟨library, rfl⟩
    simp only [dangerousGoodsSourcePayload, hydrantSourcePayload, firePlanSourcePayload, klgvSourcePayload,
      personnelSourcePayload, phonebookSourcePayload, bind_eq_ok, check_eq_ok, pure_eq_ok, reduceCtorEq, and_false,
      exists_false] at h
  obtain ⟨-, h⟩ := h
  split at h
  · cases h
  · exact throw_ne_ok h

theorem currentSource_isFile {target : Target} {snapshot : Snapshot} {d : Digest}
    (h : currentSource cfg env target = .ok (snapshot, d)) :
    target.datasetTypeCode.isFileDataset = true ↔ ∃ library, snapshot = .fileLibrary library := by
  simp only [currentSource, bind_eq_ok, pure_eq_ok, Prod.mk.injEq] at h
  obtain ⟨definition, hdef, payload, hpayload, rfl, -⟩ := h
  rw [← getDatasetDefinition_code hdef]
  exact buildSourcePayload_isFile hpayload

theorem freezeAttempt_frames {p : PublicationId} {pub : Publication} (j : JobId) (scope : Scope) {snapshot : Snapshot}
    {d : Digest} (hp : db.publications.find p = some pub) (hst : pub.status = .staged) (hk : pub.key = scope.key)
    (hsource : currentSource cfg env scope.key.target = .ok (snapshot, d))
    (hmarks : ∀ key, ¬marks key) (hrev : scope.key.target.datasetTypeCode.isFileDataset = false →
      ∃ s, db.scopes.find pub.scopeState = some s ∧ s.key = scope.key ∧ scope.sourceRevision = s.sourceRevision) :
    Frames (Writes cfg env marks) (freezeAttempt env j p scope snapshot d) db := by
  have hclaim : ∀ contents, PinsOf env.canonical p snapshot contents → Writes cfg env marks db
      ((db.modifyPublication p (Publication.freeze scope.sourceRevision snapshot d)).pinned contents) := by
    intro contents hcontents
    exact .single (.claim hp hst rfl rfl rfl rfl rfl rfl rfl rfl (hk ▸ hsource) hmarks (hk ▸ hrev) hcontents)
  have hfile := currentSource_isFile hsource
  unfold Frames freezeAttempt
  simp only [wp_bind, wp_modify]
  cases snapshot with
  | fileLibrary library =>
    rw [hfile.mpr ⟨library, rfl⟩]
    simp only [wp_bind, wp_modify]
    refine wp_mono (wp_pinSource_pins (pinnable_of_currentSource hsource)) ?_ fun _ _ h => h.elim
    rintro _ t ⟨contents, hcontents, rfl⟩
    exact (hclaim contents hcontents).trans (.modifyJob j _)
  | _ =>
    have hnone := hclaim [] rfl
    rw [Db.pinned_nil] at hnone
    split
    · rename_i h
      cases h
    · exact hnone.trans (.modifyJob j _)

theorem claimFindsClean_frames (i : ScopeId) (scope : Scope) (job : Job) (d : Digest) :
    Frames (Writes cfg env marks) (claimFindsClean cfg env i scope job d) db := by
  unfold claimFindsClean
  split
  · exact (reconcileCleanSource_frames i scope d).bind fun _ _ _ => frames_pure _
  · exact frames_pure _

/-- A claim advances no scope. -/
theorem claimJob_frames (h : Inv db.core) (candidate : JobId) :
    Frames (Writes cfg env fun _ => False) (claimJob cfg env candidate) db := by
  have hjob : ∀ {db : Db} {f : Job → Job},
      Frames (Writes cfg env fun _ => False) (Tx.modify (ε := Error) fun db => db.modifyJob candidate f) db :=
    fun {_ f} => frames_modify.mpr (.modifyJob candidate f)
  unfold claimJob
  refine Frames.toAtomic (frames_get_bind.mpr (frames_bind ((wp_require _ _).mpr ⟨fun preview hj => ⟨.refl db, ?_⟩,
    fun _ => .refl db⟩)))
  refine frames_bind (wp_lockedScope (fun i s hs hkey => ⟨.refl db, ?_⟩) fun _ => .refl db)
  obtain ⟨hi, hjk⟩ := h.locked_job hj hs hkey
  dsimp only
  split
  · exact frames_pure _
  · split
    · exact hjob.bind fun _ _ _ => frames_pure _
    · refine frames_bind (wp_currentSourceState hs (fun snapshot d hsource => ?_) fun _ _ => .refl db)
      have hrefresh : Writes cfg env (fun _ => False) db (db.setScope i (s.refreshed snapshot)) := by
        refine .advanceScope fun t ht => ?_
        rw [hs] at ht
        cases ht
        exact ⟨rfl, fun hf _ => refreshedRevision_eq hf⟩
      refine ⟨hrefresh, frames_get_bind.mpr ?_⟩
      refine Frames.bind (.whenever _ fun _ => frames_modify.mpr (.modifyScope _ fun _ => ⟨rfl, rfl⟩)) fun _ t ht => ?_
      refine (claimFindsClean_frames _ _ _ _).bind fun clean u hu => ?_
      split
      · exact frames_pure _
      · refine frames_bind (wp_mono claimedPublication_frames (fun found v hv => ⟨hv.1, ?_⟩) fun _ _ h => h)
        cases found with
        | none => exact hjob.bind fun _ _ _ => frames_pure _
        | some e =>
          obtain ⟨hp, hlink⟩ := hv.2 e rfl
          have hwrites : Writes cfg env (fun _ => False) db v := hrefresh.trans (ht.trans (hu.trans hv.1))
          have hscope : e.2.key = s.key ∧ e.2.scopeState = i := by
            rcases hlink with hb | ⟨hk, hi'⟩
            · obtain ⟨pub, hpub, hscope⟩ := h.build_scope hj hb
              obtain ⟨s', hs', hk'⟩ := h.publication_scope hpub
              obtain ⟨q, hq, hevolves⟩ := hwrites.effect.rows hpub
              rw [hp] at hq
              cases hq
              rw [hscope, hi] at hs'
              cases hs.symm.trans hs'
              exact ⟨by rw [hevolves.key, ← hk'], by rw [hevolves.scopeState, hscope, hi]⟩
            · exact ⟨hk.trans hjk, hi'⟩
          dsimp only
          split
          · rename_i hst
            refine Frames.bind (freezeAttempt_frames _ _ hp hst ?_ ?_ (fun _ => not_false) ?_) fun _ _ _ => frames_pure _
            · exact hscope.1
            · exact hsource
            · intro hf
              obtain ⟨row, hrow, hrowkey, hrev⟩ := hwrites.scope hs
              refine ⟨row, by rw [hscope.2, hrow], hrowkey, ?_⟩
              rw [hrev hf not_false]
              exact refreshedRevision_eq hf
          · exact hjob.bind fun _ _ _ => frames_pure _

theorem heartbeatJob_frames (j : JobId) : Frames (Writes cfg env marks) (heartbeatJob env j) db := by
  unfold heartbeatJob
  refine Frames.toAtomic (frames_get_bind.mpr ?_)
  split
  · exact frames_pure _
  · split
    · exact frames_pure _
    · exact Frames.bind (frames_modify.mpr (.modifyJob j _)) fun _ _ _ => frames_pure _

/-! ### Administrator requests -/

theorem managedPublication_frames {actor : Actor} {p : PublicationId} :
    wp (managedPublication env actor p) (fun r t => t = db ∧ db.publications.find p = some r) (fun _ t => t = db) db :=
  wp_managedPublication (fun _ hp => ⟨rfl, hp⟩) fun _ => rfl

theorem requestRebuild_frames (actor : Actor) (target : Target) :
    Frames (Writes cfg env marks) (requestRebuild cfg env actor target) db := by
  unfold requestRebuild
  refine Frames.toAtomic ((frames_ofExcept _).bind fun _ _ _ => (frames_ofExcept _).bind fun _ _ _ =>
    (frames_ofExcept _).bind fun _ _ _ => (frames_ofExcept _).bind fun key _ _ => Frames.bind ?_
    fun r _ _ => frames_get_bind.mpr ((frames_ensure _ _).bind fun _ _ _ => ?_))
  · exact wp_mono (scopeOrNew_frames key) (fun _ _ h => h.1) fun _ _ h => h
  refine Frames.bind (.mapError _ (enqueuePublicationJob_frames _)) fun _ _ _ => ?_
  exact Frames.bind (frames_modify.mpr (.register _)) fun _ _ _ => frames_pure _

theorem stageFindsClean_frames {i : ScopeId} {scope : Scope} (hs : db.scopes.find i = some scope) :
    Frames (Writes cfg env marks) (stageFindsClean cfg env i scope) db := by
  unfold stageFindsClean
  split
  · exact (currentSourceState_frames hs rfl).bind fun _ _ _ => reconcileCleanSource_frames _ _ _
  · exact frames_pure _

theorem stagePublicationUpdate_frames (actor : Actor) (target : Target) :
    Frames (Writes cfg env marks) (stagePublicationUpdate cfg env actor target) db := by
  unfold stagePublicationUpdate
  refine Frames.toAtomic ((frames_ofExcept _).bind fun _ _ _ => (frames_ofExcept _).bind fun _ t _ => frames_bind ?_)
  refine wp_lockedScope (fun i s hs _ => ⟨.refl t, ?_⟩) fun _ => .refl t
  refine (stageFindsClean_frames hs).bind fun clean _ _ => ?_
  dsimp only
  split
  · exact frames_pure _
  · refine frames_get_bind.mpr ((frames_ensure _ _).bind fun _ _ _ => (frames_ensure _ _).bind fun _ _ _ => ?_)
    exact (enqueuePublicationJob_frames _).bind fun _ _ _ => (frames_ensure _ _).bind fun _ _ _ => frames_pure _

theorem stagedFindsClean_frames (i : ScopeId) (scope : Scope) (job : Job) :
    Frames (Writes cfg env marks) (stagedFindsClean cfg env i scope job) db := by
  unfold stagedFindsClean
  split
  · refine frames_get_bind.mpr ((frames_ensure _ _).bind fun _ _ _ => (frames_ofExcept _).bind fun _ _ _ => ?_)
    dsimp only
    split
    · exact frames_pure _
    · exact (reconcileCleanSource_frames _ _ _).bind fun _ _ _ => frames_pure _
  · exact frames_pure _

theorem buildStagedPublication_frames (actor : Actor) (i : ScopeId) :
    Frames (Writes cfg env marks) (buildStagedPublication cfg env actor i) db := by
  unfold buildStagedPublication
  refine Frames.toAtomic (frames_get_bind.mpr ((frames_require _ _).bind fun given _ _ => (frames_ofExcept _).bind
    fun _ _ _ => (lockedScope_frames _).bind fun r _ _ => (frames_require _ _).bind fun e _ _ =>
    (frames_require _ _).bind fun p _ _ => (frames_ensure _ _).bind fun _ _ _ =>
    (stagedFindsClean_frames _ _ _).bind fun clean _ _ => ?_))
  split
  · exact frames_pure _
  · refine Frames.bind (frames_modify.mpr (.modifyJob _ _)) fun _ _ _ => ?_
    exact Frames.bind (frames_modify.mpr (.register _)) fun _ _ _ => frames_pure _

theorem deleteStagedPublication_frames (actor : Actor) (p : PublicationId) :
    Frames (Writes cfg env marks) (deleteStagedPublication cfg env actor p) db := by
  unfold deleteStagedPublication
  refine Frames.toAtomic (frames_bind (wp_mono managedPublication_frames ?_ fun _ _ h => h ▸ Writes.refl _))
  rintro candidate t ⟨rfl, hp⟩
  refine ⟨.refl _, frames_bind ?_⟩
  refine wp_lockedScope (fun i s hs _ => ⟨.refl _, frames_get_bind.mpr ?_⟩) fun _ => .refl _
  refine frames_bind ((wp_ensure _ _).mpr ⟨fun hst => ⟨.refl _, ?_⟩, fun _ => .refl _⟩)
  refine frames_bind ((wp_ensure _ _).mpr ⟨fun _ => ⟨.refl _, ?_⟩, fun _ => .refl _⟩)
  refine Frames.bind (frames_modify.mpr (.staged hp hst.2 rfl rfl rfl rfl rfl rfl rfl)) fun _ v hv => ?_
  have hrest : ∀ {u : Db}, Writes cfg env marks t u → Frames (Writes cfg env marks)
      (Tx.whenever (candidate.key.target.datasetTypeCode.isFileDataset = true) do
        let read ← currentSourceState cfg env i s
        let _ ← reconcileCleanSource cfg env i read.2.2 read.2.1) u := by
    refine fun {u} hu => .whenever _ fun _ => ?_
    obtain ⟨row, hrow, hk, -⟩ := hu.scope hs
    exact (currentSourceState_frames hrow hk).bind fun _ _ _ => (reconcileCleanSource_frames _ _ _).bind
      fun _ _ _ => frames_pure _
  split
  · exact Frames.bind (frames_modify.mpr (.modifyJob _ _)) fun _ _ hu => hrest (hv.trans hu)
  · exact hrest hv

theorem bulkRequestScope_frames (actor : Actor) (department : DepartmentId) (running : List ScopeId)
    (e : ScopeId × Scope) : Frames (Writes cfg env marks) (bulkRequestScope cfg env actor department running e) db := by
  unfold bulkRequestScope
  refine frames_get_bind.mpr ?_
  split
  · exact frames_pure _
  · exact (enqueuePublicationJob_frames _).bind fun _ _ _ => frames_pure _

theorem bulkRequestScopes_frames (actor : Actor) (department : DepartmentId) (running : List ScopeId)
    (scopes : List (ScopeId × Scope)) :
    Frames (Writes cfg env marks) (bulkRequestScopes cfg env actor department running scopes) db := by
  induction scopes generalizing db with
  | nil => exact frames_pure _
  | cons e rest ih =>
    exact (bulkRequestScope_frames actor department running e).bind fun _ _ _ => ih.bind fun _ _ _ => frames_pure _

theorem bulkRequestRebuilds_frames (actor : Actor) (department : DepartmentId) :
    Frames (Writes cfg env marks) (bulkRequestRebuilds cfg env actor department) db := by
  unfold bulkRequestRebuilds
  refine Frames.toAtomic ((frames_ensure _ _).bind fun _ _ _ => frames_get_bind.mpr ?_)
  refine (bulkRequestScopes_frames _ _ _ _).bind fun requested _ _ => ?_
  exact Frames.bind (.whenever _ fun _ => frames_modify.mpr (.register _)) fun _ _ _ => frames_pure _

theorem runCallback_frames (k : ℕ) : Frames (Writes cfg env marks) (runCallback cfg env k) db := by
  unfold runCallback
  refine frames_get_bind.mpr ?_
  split
  · exact frames_pure _
  · refine Frames.bind (frames_modify.mpr (.free rfl rfl rfl rfl (.refl _ _))) fun _ _ _ => ?_
    split
    · exact (enqueuePublicationJob_frames _).bind fun _ _ _ => frames_pure _
    · exact frames_modify.mpr (.single (.free rfl rfl rfl (.single (.cleaned _)) rfl (.refl _ _)))
    · exact frames_pure _
    · exact frames_pure _

theorem sealDocuments_frames (crypto : Crypto) (worker : WorkerEnv) (p : PublicationId) :
    Frames (Writes cfg env marks) (sealDocuments cfg crypto env worker p) db := by
  unfold Frames
  simp only [sealDocuments, wp_mapError, wp_atomic, wp_bind, wp_get, wp_require, wp_ite, wp_pure, wp_ofExcept,
    wp_modify]
  refine ⟨fun pub _ => ⟨fun _ => .refl db, fun _ => ⟨fun built hb => ⟨fun documents hm => ?_, fun _ _ => .refl db⟩,
    fun _ _ => .refl db⟩⟩, fun _ => .refl db⟩
  exact .single (.free rfl rfl rfl (.single (.generation hb hm)) (((buildDocumentV2Manifest_manifests hm).contents.trans
    (buildDocumentV2Generation_grows hb).contents)) (.refl _ _))

/-! ### Releases, withdrawals and activations -/

theorem Writes.scheduleRemoval (path : Option ArtifactPath) : Writes cfg env marks db (db.scheduleRemoval path) := by
  cases path with
  | none => exact .refl db
  | some path => exact .register _

theorem releaseAbandonedGeneration_frames (j : JobId) (p : PublicationId) :
    Frames (Writes cfg env marks) (releaseAbandonedGeneration j p) db := by
  refine wp_mono wp_releaseAbandonedGeneration (fun _ db' h => ?_) fun _ _ h => h
  rcases h with rfl | ⟨-, pub, hp, hst, rfl⟩
  · exact .refl _
  · exact .release _ hp hst

theorem revokeGrants_revoked (now : Time) (id : PublicationId) (grants : Table KeyGrant) :
    GrantsRevoked grants (revokeGrants now id grants) ∧ AllRevoked (revokeGrants now id grants) id := by
  have hfind : ∀ i, (revokeGrants now id grants).find i = (grants.find i).map fun g =>
      if g.publication = id ∧ g.status ≠ .revoked then { g with status := .revoked, revokedAt := some now } else g := by
    intro i
    simp [revokeGrants, Table.find]
  constructor
  · intro i
    rw [hfind]
    cases hg : grants.find i with
    | none => exact .inl rfl
    | some g =>
      by_cases hr : g.publication = id ∧ g.status ≠ .revoked
      · exact .inr ⟨g, some now, rfl, by simp [hr.1, hr.2]⟩
      · exact .inl (by rw [Option.map_some, if_neg hr])
  · intro i g hg hid
    rw [hfind] at hg
    obtain ⟨g₀, -, rfl⟩ := Option.map_eq_some_iff.mp hg
    split
    · rfl
    · rename_i hr
      rw [if_neg hr] at hid
      by_contra hst
      exact hr ⟨hid, hst⟩

/-- A publication leaves and its grants are withdrawn. -/
theorem Writes.withdraw {p : PublicationId} {pub : Publication} {f : Publication → Publication} (now : Time)
    (hp : db.publications.find p = some pub) (he : Evolves db.documents p pub (f pub)) (hkeeps : pub.Keeps (f pub)) :
    Writes cfg env marks db ((db.revokePublicationDatasetKeyGrants now p pub).modifyPublication p f) := by
  obtain ⟨hkeys, hkeys'⟩ := revokeGrants_revoked now p db.keyGrants
  obtain ⟨hgens, hgens'⟩ := revokeGrants_revoked now p db.generationKeyGrants
  refine .single (.row hp rfl rfl hkeys ?_ he (fun _ => ⟨hkeys', fun hfile => ?_⟩) hkeeps rfl)
  · simp only [Db.revokePublicationDatasetKeyGrants, Db.modifyPublication]
    split
    · exact .refl _
    · exact hgens
  · simp only [Db.revokePublicationDatasetKeyGrants, Db.modifyPublication, hfile]
    exact hgens'

theorem Writes.supersede {i : ScopeId} {s : Scope} (h : Inv db.core) (hs : db.scopes.find i = some s) (now : Time) :
    Writes cfg env marks db (db.supersede now s) := by
  unfold Db.supersede
  cases hc : s.currentPublishedPublication with
  | none => exact .refl db
  | some q =>
    obtain ⟨previous, hq, -, hst⟩ := h.current_published hs hc
    change db.publications.find q = some previous at hq
    simp only [Option.bind_some, hq, Option.map_some]
    refine .withdraw now hq (.of_columns (by rw [hst]; rfl) rfl rfl rfl rfl rfl rfl) fun _ => ⟨?_, rfl, rfl⟩
    rw [hst]
    rfl

/-- Superseding the current publication of a scope leaves the other rows alone. -/
theorem Db.find_supersede {i : ScopeId} {s : Scope} (h : Inv db.core) (hs : db.scopes.find i = some s) (now : Time)
    {p : PublicationId} {pub : Publication} (hp : db.publications.find p = some pub) (hst : pub.status ≠ .published) :
    (db.supersede now s).publications.find p = some pub := by
  rw [Db.supersede_publications h hs]
  cases hc : s.currentPublishedPublication with
  | none => exact hp
  | some q =>
    have hne : q ≠ p := by
      rintro rfl
      exact h.current_ne hs hp hst hc
    simp only [Core.superseded, Table.find_modify, if_neg hne]
    exact hp

theorem Scope.forgetBuilt_kept {id : PublicationId} (s : Scope) :
    (s.forgetBuilt id).key = s.key ∧ (s.forgetBuilt id).sourceRevision = s.sourceRevision := by
  unfold Scope.forgetBuilt
  split <;> exact ⟨rfl, rfl⟩

theorem Writes.retired {i : ScopeId} {p : PublicationId} {pub row : Publication} (now : Time)
    (hp : db.publications.find p = some row) (hk : row.key = pub.key) (hst : row.status = .superseded) :
    Writes cfg env marks db (db.retired now i p pub) := by
  unfold Db.retired
  have hwithdraw : Writes cfg env marks db ((db.revokePublicationDatasetKeyGrants now p pub).modifyPublication p
      Publication.obsoleted) := by
    have he : Evolves db.documents p row row.obsoleted := .of_columns (by rw [hst]; rfl) rfl rfl rfl rfl rfl rfl
    have h : Writes cfg env marks db _ := .withdraw now hp he (.of_releasable rfl)
    unfold Db.revokePublicationDatasetKeyGrants at h ⊢
    rwa [hk] at h
  exact ((hwithdraw.trans (.release _ (Db.find_modified hp) rfl)).trans (.modifyScope i Scope.forgetBuilt_kept)).trans
    (.scheduleRemoval _)

theorem Managed.switch_writes {p : PublicationId} {pub : Publication} {i : ScopeId} {s : Scope}
    (m : Managed db p pub i s) (h : Inv db.core) (hst : pub.status = .readyForReview ∨ pub.status = .superseded)
    {f : Publication → Publication} (hf : (f pub).status = .published) (h1 : (f pub).scopeState = pub.scopeState)
    (h2 : (f pub).key = pub.key) (h3 : (f pub).versionNumber = pub.versionNumber)
    (h4 : (f pub).schemaVersion = pub.schemaVersion) (h5 : (f pub).artifact = pub.artifact)
    (h6 : (f pub).artifactStatus = pub.artifactStatus) (h7 : (f pub).sourceSnapshot = pub.sourceSnapshot)
    (h8 : (f pub).sourceRevision = pub.sourceRevision) (now : Time) (actor : Actor) (action : ActivationAction) :
    Writes cfg env marks db (db.switchTo now actor i s p action f) := by
  have hne : pub.status ≠ .published := by
    rcases hst with hst | hst <;> rw [hst] <;> decide
  have hactivate : Writes cfg env marks (db.supersede now s) ((db.supersede now s).modifyPublication p f) := by
    refine Writes.single (.row (Db.find_supersede h m.scope now m.publication hne) rfl rfl (.refl _) (.refl _) ?_
      (fun hl => ?_) (fun _ => ⟨?_, h7, h8⟩) rfl)
    · refine .of_columns ?_ h1 h2 h3 h4 h5 h6
      rw [hf]
      rcases hst with hst | hst <;> rw [hst] <;> rfl
    · rcases hl with ⟨hp, -⟩ | ⟨-, ho⟩
      · exact absurd hp hne
      · rw [hf] at ho
        cases ho
    · rcases hst with hst | hst <;> rw [hst] <;> rfl
  refine ((Writes.supersede h m.scope now).trans hactivate).trans (.free rfl rfl rfl rfl (.modify fun t ht => ?_))
  rw [Db.modifyPublication, Db.supersede_scopes h m.scope, m.scope] at ht
  cases ht
  exact ⟨rfl, fun _ _ => rfl⟩

/-! ### Closing a build -/

/-- A building attempt that is given up keeps its metadata, or fails. -/
theorem Building.endBuild_writes {j : JobId} {a : Job} {p : PublicationId} {pub : Publication} {i : ScopeId} {s : Scope}
    (b : Building db j a p pub i s) {code : DatasetTypeCode} {f : Publication → Publication} {g : Job → Job}
    (he : Evolves db.documents p pub (f pub)) (hr : (f pub).status.isReleasable = true) :
    Writes cfg env marks db (db.endBuild j p code f g) := by
  unfold Db.endBuild
  have hrow : Writes cfg env marks db (db.modifyPublication p f) :=
    .undelivered b.publication (by rw [b.building]; decide) (by rw [b.building]; decide) he (.of_releasable hr)
  exact (hrow.trans (.modifyJob j g)).trans (.release code (Db.find_modified b.publication) hr)

theorem Evolves.of_building {d : DocumentTables} {id : PublicationId} {p q : Publication} (hst : p.status = .building)
    (hq : q.status ≠ .staged) (h1 : q.scopeState = p.scopeState) (h2 : q.key = p.key)
    (h3 : q.versionNumber = p.versionNumber) (h4 : q.schemaVersion = p.schemaVersion) (h5 : q.artifact = p.artifact)
    (h6 : q.artifactStatus = p.artifactStatus ∨ q.artifactStatus ≠ .ready) : Evolves d id p q where
  scopeState := h1
  key := h2
  versionNumber := h3
  schemaVersion := h4
  status := by rw [hst]; exact decide_eq_true hq
  finished h := by rw [hst] at h; cases h
  ready h := by
    rcases h6 with h6 | h6
    · exact .inl ⟨h6 ▸ h, h5⟩
    · exact absurd h h6

theorem Writes.followUp (target : Target) (s : Scope) : Writes cfg env marks db (db.followUp cfg target s) := by
  unfold Db.followUp
  split
  · exact .register _
  · exact .refl db

theorem Failed.writes {j : JobId} {message category : String} {db' : Db}
    (m : Failed cfg env db j message category db') : Writes cfg env marks db db' := by
  cases m with
  | ignored hj ha => exact .refl db
  | @failed a p pub i s b =>
    refine ((Writes.scheduleRemoval pub.artifact.path).trans ?_).trans (.followUp _ _)
    have b' := b.scheduleRemoval pub.artifact.path
    refine b'.endBuild_writes (.of_building b.building (by simp [Publication.failed]) rfl rfl rfl rfl rfl (.inr ?_)) ?_
    · simp [Publication.failed]
    · rfl

theorem Recovers.writes {timeout maxAttempts : ℕ} {db' : Db} (m : Recovers cfg env timeout maxAttempts db db') :
    Writes cfg env marks db db' := by
  cases m with
  | exhausted b hst hmax =>
    refine (b.endBuild_writes ?_ rfl).trans (.followUp _ _)
    exact .of_building b.building (by simp [Publication.timedOut]) rfl rfl rfl rfl rfl (.inl rfl)
  | retried b hst hmax =>
    exact b.endBuild_writes
      (.of_building b.building (by simp [Publication.timedOut]) rfl rfl rfl rfl rfl (.inl rfl)) rfl

theorem Recovery.writes {timeout maxAttempts : ℕ} {db' : Db} (m : Recovery cfg env timeout maxAttempts db db') :
    Writes cfg env marks db db' := by
  induction m with
  | refl => exact .refl db
  | tail _ m ih => exact ih.trans m.writes

/-! ### Publishing a build -/

/-- What the model check of a publication demands. -/
structure Publication.Clean (canonical : Canonical) (documents : DocumentTables) (scope : Scope) (id : PublicationId)
    (p : Publication) (definition : DatasetTypeDefinition) : Prop where
  key : cleanKey p.key "Station must belong to the publication department." = .ok definition
  schema : p.schemaVersion = definition.currentSchemaVersion ∧ p.schemaVersion ∈ definition.supportedSchemaVersions
  summary : ∀ summary, p.changeSummary = some summary → validateChangeSummary summary = .ok ()
  scope : scope.key = p.key
  path : ∀ path, p.artifact.path = some path → publicationArtifactRelativePath p.key id = .ok path
  ready : p.artifactStatus = .ready → p.artifact.complete = true ∨ p.isDocumentV2 = true
  shown : p.status = .readyForReview ∨ p.status = .published →
    p.artifactStatus = .ready ∧ (p.artifact.complete = true ∨ p.isDocumentV2 = true)
  generation : p.isDocumentV2 = true → p.status = .readyForReview ∨ p.status = .published →
    validateReadyDocumentGeneration canonical documents id p false = .ok ()

/-- The last check of a publication: of a ready one the generation is validated. -/
theorem Publication.generation_eq_ok {canonical : Canonical} {documents : DocumentTables} {id : PublicationId}
    {p : Publication} (inst : Decidable (p.isDocumentV2 = true ∧ (p.status = .readyForReview ∨ p.status = .published))) :
    (@ite (Except Error Unit) _ inst
      (match validateReadyDocumentGeneration canonical documents id p false with
        | .ok () => pure ()
        | .error (.documentV2Error message) => throw (.validationError message)
        | .error (.publicationBuildError message) => throw (.validationError message)
        | .error e => throw e) (pure ())) = .ok () ↔
    (p.isDocumentV2 = true → p.status = .readyForReview ∨ p.status = .published →
      validateReadyDocumentGeneration canonical documents id p false = .ok ()) := by
  rw [← and_imp]
  split
  · rename_i hc
    simp only [hc]
    cases validateReadyDocumentGeneration canonical documents id p false with
    | ok u => simp [pure_eq_ok]
    | error e => cases e <;> simp [throw_ne_ok]
  · rename_i hc
    exact ⟨fun _ h => absurd h hc, fun _ => rfl⟩

theorem Publication.clean_eq_ok {canonical : Canonical} {documents : DocumentTables} {scope : Scope} {id : PublicationId}
    {p : Publication} : p.clean canonical documents scope id = .ok () ↔
      ∃ definition, p.Clean canonical documents scope id definition := by
  have hcomplete : ∀ {R C V : Prop}, ¬(R ∧ ¬C ∧ ¬V) ↔ (R → C ∨ V) := by
    intro R C V
    rw [not_and, not_and_or, not_not, not_not]
  have hdelivered : ∀ {S R C V : Prop}, ¬(S ∧ (¬R ∨ ¬C ∧ ¬V)) ↔ (S → R ∧ (C ∨ V)) := by
    intro S R C V
    rw [not_and, not_or, not_not, not_and_or, not_not, not_not]
  have hclean : ∀ {S P T : Prop}, (S ↔ ∀ summary, p.changeSummary = some summary → validateChangeSummary summary = .ok ()) →
      (P ↔ ∀ path, p.artifact.path = some path → publicationArtifactRelativePath p.key id = .ok path) →
      (T ↔ (p.isDocumentV2 = true → p.status = .readyForReview ∨ p.status = .published →
        validateReadyDocumentGeneration canonical documents id p false = .ok ())) →
      ((∃ definition, cleanKey p.key "Station must belong to the publication department." = .ok definition ∧
        ¬(p.schemaVersion ≠ definition.currentSchemaVersion ∨ ¬p.schemaVersion ∈ definition.supportedSchemaVersions) ∧
        S ∧ ¬scope.key ≠ p.key ∧ P ∧
        ¬(p.artifactStatus = .ready ∧ ¬p.artifact.complete = true ∧ ¬p.isDocumentV2 = true) ∧
        ¬((p.status = .readyForReview ∨ p.status = .published) ∧
          (p.artifactStatus ≠ .ready ∨ ¬p.artifact.complete = true ∧ ¬p.isDocumentV2 = true)) ∧ T) ↔
        ∃ definition, p.Clean canonical documents scope id definition) := by
    intro S P T hS hP hT
    refine exists_congr fun definition => ⟨?_, ?_⟩
    · rintro ⟨hkey, hschema, hs, hscope, hp, hready, hshown, hgen⟩
      rw [not_or, not_not, not_not] at hschema
      exact ⟨hkey, hschema, hS.mp hs, not_not.mp hscope, hP.mp hp, hcomplete.mp hready, hdelivered.mp hshown,
        hT.mp hgen⟩
    · rintro ⟨hkey, hschema, hs, hscope, hp, hready, hshown, hgen⟩
      rw [← not_not (a := _ = _), ← not_not (a := _ ∈ _), ← not_or] at hschema
      exact ⟨hkey, hschema, hS.mpr hs, not_not.mpr hscope, hP.mpr hp, hcomplete.mpr hready, hdelivered.mpr hshown,
        hT.mpr hgen⟩
  unfold Publication.clean
  cases hsum : p.changeSummary with
  | none =>
    cases hpath : p.artifact.path with
    | none =>
      have h := hclean (S := True) (P := True) (by simp [hsum]) (by simp [hpath]) (generation_eq_ok instDecidableAnd)
      simp only [bind_eq_ok, check_eq_ok]
      simp only [true_and] at h
      exact h
    | some path =>
      have h := hclean (S := True) (P := ∃ q, publicationArtifactRelativePath p.key id = .ok q ∧ ¬path ≠ q)
        (by simp [hsum]) (by simp [hpath]) (generation_eq_ok instDecidableAnd)
      simp only [bind_eq_ok, check_eq_ok, ← and_assoc, exists_and_right]
      simp only [true_and, ← and_assoc, exists_and_right] at h
      exact h
  | some s =>
    cases hpath : p.artifact.path with
    | none =>
      have h := hclean (S := validateChangeSummary s = .ok ()) (P := True) (by simp [hsum]) (by simp [hpath]) (generation_eq_ok instDecidableAnd)
      simp only [bind_eq_ok, check_eq_ok, Unique.exists_iff]
      simp only [true_and] at h
      exact h
    | some path =>
      have h := hclean (S := validateChangeSummary s = .ok ())
        (P := ∃ q, publicationArtifactRelativePath p.key id = .ok q ∧ ¬path ≠ q) (by simp [hsum]) (by simp [hpath]) (generation_eq_ok instDecidableAnd)
      simp only [bind_eq_ok, check_eq_ok, Unique.exists_iff, ← and_assoc, exists_and_right]
      simp only [← and_assoc, exists_and_right] at h
      exact h
theorem cleanKey_eq_ok {key : ScopeKey} {message : String} {definition : DatasetTypeDefinition}
    (h : cleanKey key message = .ok definition) : validateDatasetScope key = .ok definition ∧
      ∀ station, key.target.station = some station → key.target.department = some station.departmentId := by
  unfold cleanKey at h
  split at h
  · cases h
  · cases h
  · rename_i hvalid
    split at h
    · rename_i station hst
      split at h
      · cases h
      · rename_i hdep
        refine ⟨by rwa [← h], fun station' hst' => ?_⟩
        rw [hst] at hst'
        cases hst'
        exact not_not.mp hdep
    · rename_i hst
      refine ⟨by rwa [← h], fun station hst' => ?_⟩
      rw [hst] at hst'
      cases hst'

theorem validateDatasetScope_definition {key : ScopeKey} {definition : DatasetTypeDefinition}
    (h : validateDatasetScope key = .ok definition) :
    getDatasetDefinition key.target.datasetTypeCode = .ok definition := by
  simp only [validateDatasetScope, bind_eq_ok, check_eq_ok] at h
  obtain ⟨d, hd, -, h⟩ := h
  have hret : ∀ {c : Prop} [Decidable c] {e : Error}, (if c then (throw e >>= fun _ : PUnit => (pure d : Except Error _))
      else pure d) = .ok definition → d = definition := by
    intro c _ e hc
    rw [check_eq_ok, pure_eq_ok] at hc
    exact hc.2
  split at h <;> rw [hd, hret h]

/-- A dataset is delivered as a document generation exactly when its schema is the second one. -/
theorem getDatasetDefinition_format {code : DatasetTypeCode} {definition : DatasetTypeDefinition}
    (h : getDatasetDefinition code = .ok definition) :
    (definition.artifactFormat = .documentManifestV2 ↔ code.isDocumentDataset = true) ∧
      (code.isDocumentDataset = true → definition.currentSchemaVersion = 2) := by
  cases code <;> simp only [getDatasetDefinition, Except.ok.injEq, reduceCtorEq] at h <;> subst h <;> decide

/-- A publication that passes the model check as ready can be delivered. -/
theorem Publication.Clean.deliverable {canonical : Canonical} {documents : DocumentTables} {scope : Scope}
    {id : PublicationId} {p : Publication} {definition : DatasetTypeDefinition}
    (h : p.Clean canonical documents scope id definition) (hst : p.status = .published) :
    p.Deliverable documents id := by
  obtain ⟨hvalid, hstation⟩ := cleanKey_eq_ok h.key
  obtain ⟨hformat, hschema⟩ := getDatasetDefinition_format (validateDatasetScope_definition hvalid)
  obtain ⟨-, hcomplete⟩ := h.shown (.inr hst)
  refine ⟨definition, hvalid, hstation, ?_⟩
  by_cases hdoc : p.key.target.datasetTypeCode.isDocumentDataset = true
  · have hversion : p.schemaVersion = 2 := h.schema.1.trans (hschema hdoc)
    have hv2 : p.isDocumentV2 = true := by simp [Publication.isDocumentV2, hversion, hdoc]
    rw [if_pos (hformat.mpr hdoc)]
    refine ⟨hversion, ?_⟩
    have hready := h.generation hv2 (.inr hst)
    simp only [validateReadyDocumentGeneration, bind_eq_ok, DocumentTables.manifestAndKey] at hready
    obtain ⟨frozen, -, found, hfound, -⟩ := hready
    split at hfound
    · rename_i manifest key hm hk
      have hid := List.find?_some (p := fun m : GenerationManifest => decide (m.publication = id)) hm
      exact List.any_eq_true.mpr ⟨manifest, List.mem_of_find?_eq_some hm, hid⟩
    · cases hfound
  · rw [if_neg fun hf => hdoc (hformat.mp hf)]
    rcases hcomplete with hc | hv2
    · simp only [ArtifactMetadata.complete, decide_eq_true_eq] at hc
      obtain ⟨-, -, -, hnonce, hwrapped, -, -, -, hsignature, -⟩ := hc
      exact ⟨hnonce, hwrapped, hsignature⟩
    · simp only [Publication.isDocumentV2, decide_eq_true_eq] at hv2
      exact absurd hv2.2 hdoc

theorem Building.publish_writes {j : JobId} {a : Job} {p : PublicationId} {pub : Publication} {i : ScopeId} {s : Scope}
    (b : Building db j a p pub i s) (h : Inv db.core) {now : Time} {build : FinishedBuild} {canonical : Canonical}
    (hclean : (Publication.finish now build s.currentPublishedPublication pub).clean canonical db.documents s p = .ok ()) :
    Writes cfg env marks db (db.buildPublished cfg now i s j p build) := by
  obtain ⟨definition, hc⟩ := Publication.clean_eq_ok.mp hclean
  have hsup : Writes cfg env marks db (db.supersede now s) := .supersede h b.scope now
  have hne : pub.status ≠ .published := by
    rw [b.building]
    decide
  have hfinish : Writes cfg env marks (db.supersede now s) (db.publishAttempt now s p build) := by
    refine Writes.single (.row (Db.find_supersede h b.scope now b.publication hne) rfl rfl (.refl _) (.refl _) ?_
      (fun hl => ?_) (fun _ => ⟨?_, rfl, rfl⟩) rfl)
    · refine ⟨rfl, rfl, rfl, rfl, ?_, fun hf => ?_, fun _ => ?_⟩
      · rw [b.building]
        rfl
      · rw [b.building] at hf
        cases hf
      · exact .inr ((hc.deliverable rfl).mono hsup.effect.documents rfl rfl rfl)
    · exact absurd hl (not_leaves hne (by rw [b.building]; decide))
    · rw [b.building]
      rfl
  have hswitched : Writes cfg env marks db (db.switched cfg now i s j p build) := by
    refine (hsup.trans hfinish).trans (.free rfl rfl rfl rfl (.modify fun t ht => ?_))
    rw [Db.publishAttempt, Db.modifyPublication, Db.supersede_scopes h b.scope, b.scope] at ht
    cases ht
    exact ⟨rfl, fun _ _ => rfl⟩
  unfold Db.buildPublished
  split
  · exact hswitched.trans (.register _)
  · exact hswitched

theorem Building.dropped_writes {j : JobId} {a : Job} {p : PublicationId} {pub : Publication} {i : ScopeId} {s : Scope}
    (b : Building db j a p pub i s) {now : Time} {path : Option ArtifactPath} {f : Publication → Publication}
    (he : ∀ d, Evolves d p pub (f pub)) (hr : (f pub).status.isReleasable = true) :
    Writes cfg env marks db (db.dropped now j p pub path f) :=
  (Writes.scheduleRemoval path).trans ((b.scheduleRemoval path).endBuild_writes (he _) hr)

theorem Publication.obsoleted_evolves {p : PublicationId} {pub : Publication} (hst : pub.status = .building)
    (d : DocumentTables) : Evolves d p pub pub.obsoleted :=
  .of_building hst (by simp [Publication.obsoleted]) rfl rfl rfl rfl rfl (.inl rfl)

theorem finalizePublicationJob_frames {j : JobId} {summary : Summary} {artifact : Option ArtifactMetadata}
    {given : Fingerprint} (h : Inv db.core) :
    Frames (Writes cfg env marks) (finalizePublicationJob cfg env j summary artifact given) db := by
  unfold Frames
  simp only [finalizePublicationJob, wp_atomic, wp_bind, wp_get, wp_require]
  refine ⟨fun a hj => wp_lockedScope (fun i s hs hf => ?_) (fun _ => .refl db), fun _ => .refl db⟩
  simp only [wp_ite, wp_bind, wp_pure, scheduleArtifactRemoval, wp_modify]
  refine ⟨fun ha => .scheduleRemoval _, fun ha => ?_⟩
  rw [not_not] at ha
  obtain ⟨p, pub, b⟩ := h.building hj ha hs hf
  simp only [b.link, b.publication, wp_bind, wp_require, Option.some.injEq, reduceCtorEq, forall_eq',
    IsEmpty.forall_iff, and_true, wp_ite, b.building, ne_eq, not_true_eq_false, not_false_eq_true, true_and,
    wp_ofExcept, wp_pure, wp_modify, forall_const]
  have hrefl : Writes cfg env marks db db := .refl db
  refine ⟨fun definition hdef => ⟨fun _ hvalid => ⟨fun change hchange => ?_, fun _ _ => hrefl⟩,
    fun _ _ => hrefl⟩, fun _ _ => hrefl⟩
  refine ⟨fun ho => ?_, fun ho => ⟨fun hdup => ?_, fun hdup => ?_⟩⟩
  · simp only [retireStaleFileAttempt, wp_bind, wp_modify]
    refine wp_releaseTerminal rfl ?_
    have hdropped : Writes cfg env marks db (db.dropped env.now j p pub (artifact.bind (·.path)) Publication.obsoleted) :=
      b.dropped_writes (Publication.obsoleted_evolves b.building) rfl
    exact wp_mono (enqueuePublicationJob_frames _) (fun _ _ he => hdropped.trans he) fun _ _ _ => hrefl
  · refine wp_obsoleteDuplicate b (fun _ => ?_) fun _ _ => hrefl
    have hdropped : Writes cfg env marks db (db.dropped env.now j p pub (artifact.bind (·.path)) fun row =>
        { row.obsoleted with sourceFingerprint := finalFingerprint cfg pub given }) := by
      refine b.dropped_writes (fun d => ?_) rfl
      exact .of_building b.building (by simp [Publication.obsoleted]) rfl rfl rfl rfl rfl (.inl rfl)
    refine hdropped.trans (.advanceScope fun t ht => ?_)
    obtain ⟨t', ht', hkey, hrev⟩ := hdropped.scope b.scope
    rw [ht] at ht'
    cases ht'
    exact ⟨hkey.symm, fun hf hm => (hrev (hkey ▸ hf) (hkey ▸ hm)).symm⟩
  · exact wp_activateFinished h b (fun hclean _ => b.publish_writes h hclean) fun _ _ => hrefl

/-! ### Every call -/

theorem Deleted.writes {actor : Actor} {p : PublicationId} {db' : Db} (h : Inv db.core)
    (m : Deleted env db actor p db') : Writes cfg env marks db db' := by
  cases m with
  | superseded m hst => exact .retired env.now m.publication rfl hst
  | @active pub i s q predecessor m hst hc m' hq he =>
    refine Writes.trans (m'.switch_writes h (.inr hq) (f := Publication.reactivated env.now actor) rfl rfl rfl rfl rfl rfl
      rfl rfl rfl env.now actor .rollback) (Writes.retired (env.now) (?_ : _ = some { pub with status := .superseded }) rfl rfl)
    have hne : q ≠ p := by
      rintro rfl
      have hsame := m'.publication.symm.trans m.publication
      rw [Option.some.inj hsame, hst] at hq
      cases hq
    rw [Db.switchTo_publications h m.scope, hc, Table.find_modify, if_neg hne]
    simp [Core.superseded, Db.core, m.publication]

theorem Db.retain_writes {outcome : RetentionOutcome} {p : PublicationId} {now : Time}
    (ho : db.retentionOutcome cfg env.canonical p now = .ok outcome) (t : Time) : Writes cfg env marks db (db.retain t p outcome) := by
  unfold Db.retain
  unfold Db.retentionOutcome at ho
  cases hp : db.publications.find p with
  | none => exact .refl db
  | some pub =>
    simp only [hp] at ho ⊢
    cases hs : db.scopes.find pub.scopeState with
    | none =>
      simp only [hs, Except.ok.injEq] at ho
      subst ho
      exact .refl db
    | some s =>
      simp only [hs] at ho
      cases outcome with
      | skipped => exact .refl db
      | obsoleted =>
        have hst : pub.status = .superseded := by
          by_contra hne
          rw [if_neg hne] at ho
          split_ifs at ho <;> cases ho
        exact .retired t hp rfl hst
      | snapshotPurged =>
        have hst : pub.status = .failed ∨ pub.status = .cancelled := by
          by_contra hne
          rw [not_or] at hne
          split_ifs at ho with h1 h2 h3 h4
          · cases ho
          · cases ho
          · cases hk : isRetainedPredecessor cfg env.canonical db pub.scopeState s p with
            | error e =>
              rw [hk] at ho
              cases ho
            | ok kept =>
              rw [hk] at ho
              cases kept <;> cases ho
          · cases ho
          · exact h4 (.inl hne)
        have hr : pub.status.isReleasable = true := by
          rcases hst with hst | hst <;> rw [hst] <;> rfl
        refine Writes.trans (.undelivered hp ?_ ?_ (.of_columns pub.status.mayBecome_refl rfl rfl rfl rfl rfl rfl)
          (.of_releasable hr)) (.release _ (Db.find_modified hp) hr)
        · rcases hst with hst | hst <;> rw [hst] <;> decide
        · rcases hst with hst | hst <;> rw [hst] <;> decide

/-- Every transaction of the publication system is a sequence of elementary writes. -/
theorem Call.writes (call : Call) (h : Inv db.core) : Writes cfg env call.marks db (exec (call.run cfg env) db) := by
  have hdrop : ∀ {α : Type} {x : Service α} {marks : ScopeKey → Prop}, Frames (Writes cfg env marks) x db →
      Writes cfg env marks db (exec (do let _ ← x) db) := fun hx => Frames.exec (hx.bind fun _ _ _ => frames_pure ())
  have hraise : ∀ {marks : ScopeKey → Prop} (_ : Error) (db' : Db), db' = db → Writes cfg env marks db db' :=
    fun _ _ he => he ▸ Writes.refl _
  cases call with
  | markDirty target actor => exact hdrop (markDirty_frames target actor)
  | enqueuePublicationJob request => exact hdrop (enqueuePublicationJob_frames request)
  | claimJob candidate => exact hdrop (claimJob_frames h candidate)
  | heartbeatJob jobId => exact hdrop (heartbeatJob_frames jobId)
  | finalizePublicationJob jobId summary artifact fingerprint => exact hdrop (finalizePublicationJob_frames h)
  | failPublicationJob jobId message category =>
    exact hdrop (wp_mono (wp_failPublicationJob h) (fun _ _ m => m.2.writes) hraise)
  | recoverStaleJobs timeout maxAttempts =>
    exact hdrop (wp_mono (wp_recoverStaleJobs h) (fun _ _ m => m.2.writes) hraise)
  | publishPublication actor id =>
    refine Frames.exec (wp_mono (wp_publishPublication h) ?_ hraise)
    rintro _ _ ⟨pub, i, s, m, hst, -, rfl⟩
    exact m.switch_writes h (.inl hst) rfl rfl rfl rfl rfl rfl rfl rfl rfl env.now actor .publish
  | rejectPublication actor id =>
    refine Frames.exec (wp_mono wp_rejectPublication ?_ hraise)
    rintro _ _ ⟨pub, hp, hst, rfl⟩
    exact .undelivered hp (by rw [hst]; decide) (by rw [hst]; decide)
      (.of_columns (by rw [hst]; rfl) rfl rfl rfl rfl rfl rfl)
      (.of_releasable rfl)
  | requestRebuild actor target => exact hdrop (requestRebuild_frames actor target)
  | stagePublicationUpdate actor target => exact hdrop (stagePublicationUpdate_frames actor target)
  | buildStagedPublication actor scopeId => exact hdrop (buildStagedPublication_frames actor scopeId)
  | deleteStagedPublication actor id => exact Frames.exec (deleteStagedPublication_frames actor id)
  | cancelPublicationBuild actor id =>
    refine Frames.exec (wp_mono (wp_cancelPublicationBuild h) ?_ hraise)
    rintro _ _ ⟨j, a, pub, i, s, b, rfl⟩
    refine (b.endBuild_writes ?_ rfl).trans (.scheduleRemoval _)
    exact .of_building b.building (by simp [Publication.cancelled]) rfl rfl rfl rfl rfl (.inl rfl)
  | rollbackPublication actor id =>
    refine Frames.exec (wp_mono (wp_rollbackPublication h) ?_ hraise)
    rintro _ _ ⟨pub, i, s, m, hst, -, rfl⟩
    exact m.switch_writes h (.inr hst) rfl rfl rfl rfl rfl rfl rfl rfl rfl env.now actor .rollback
  | deletePublication actor id =>
    exact Frames.exec (wp_mono (wp_deletePublication h) (fun _ _ m => m.writes h) hraise)
  | bulkRequestRebuilds actor department => exact hdrop (bulkRequestRebuilds_frames actor department)
  | processCandidate id now dryRun =>
    refine hdrop (wp_mono (wp_processCandidate_outcome id now dryRun) ?_ fun e _ he => hraise e _ he.2)
    rintro outcome _ ⟨ho, rfl⟩
    split
    · exact .refl db
    · exact Db.retain_writes ho env.now
  | sealDocuments crypto worker id => exact hdrop (sealDocuments_frames crypto worker id)
  | releaseAbandonedGeneration jobId id => exact Frames.exec (releaseAbandonedGeneration_frames jobId id)
  | runCallback k => exact Frames.exec (runCallback_frames k)

/-- Every transaction of the publication system has no more than this effect. -/
theorem Call.effect (call : Call) (h : Inv db.core) : Effect db (exec (call.run cfg env) db) :=
  (call.writes h).effect

end FireDash.Publications
