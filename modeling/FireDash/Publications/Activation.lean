import FireDash.Publications.Consistency
import FireDash.Publications.Versions

/-! Raising calls change no row, and a call that moves a scope pointer performs the
whole switch. -/
namespace FireDash.Publications

open Tx

variable {cfg : Config} {env : Env} {db : Db}

/-- No scope, publication, job or key-grant row differs. -/
structure SameRows (db db' : Db) : Prop where
  scopes : db'.scopes = db.scopes
  publications : db'.publications = db.publications
  jobs : db'.jobs = db.jobs
  keyGrants : db'.keyGrants = db.keyGrants
  generationKeyGrants : db'.generationKeyGrants = db.generationKeyGrants

theorem SameRows.refl (db : Db) : SameRows db db := ⟨rfl, rfl, rfl, rfl, rfl⟩

/-- Every transaction of the system is undone when it raises. -/
theorem Call.raises_unchanged (call : Call) {e : Error} {db' : Db} (h : call.run cfg env db = (.error e, db')) :
    SameRows db db' := by
  have hatomic : ∀ {α : Type} (x : Service α), wp (Tx.atomic x) (fun _ _ => True) (fun _ t => SameRows db t) db :=
    fun x => wp_mono wp_atomic_unchanged (fun _ _ _ => trivial) (fun _ t ht => ht ▸ .refl db)
  have hwp : wp (call.run cfg env) (fun _ _ => True) (fun _ t => SameRows db t) db := by
    cases call with
    | publishPublication | rejectPublication | deleteStagedPublication | cancelPublicationBuild | rollbackPublication
    | deletePublication | releaseAbandonedGeneration => exact hatomic _
    | sealDocuments crypto worker id =>
      refine wp_bind.mpr (wp_mono wp_sealDocuments (fun _ _ _ => trivial) (fun _ _ he => ?_))
      rw [he]
      exact .refl db
    | runCallback k =>
      simp only [Call.run, Publications.runCallback, wp_bind, wp_get]
      cases db.onCommit[k]? with
      | none => trivial
      | some callback =>
        simp only [wp_bind, wp_modify]
        cases callback with
        | enqueue target started =>
          simp only [wp_bind, wp_pure]
          refine wp_mono wp_atomic_unchanged (fun _ _ _ => trivial) (fun _ t ht => ?_)
          rw [ht]
          exact ⟨rfl, rfl, rfl, rfl, rfl⟩
        | removeDocumentArtifact | removeArtifact | wakeWorker => trivial
    | markDirty | enqueuePublicationJob | claimJob | heartbeatJob | finalizePublicationJob | failPublicationJob
    | recoverStaleJobs | requestRebuild | stagePublicationUpdate | buildStagedPublication | bulkRequestRebuilds
    | processCandidate => exact wp_bind.mpr (hatomic _)
  exact hwp.of_error h

/-- Sealing a build writes no lifecycle row. -/
theorem wp_sealBuild {crypto : Crypto} {worker : WorkerEnv} {build : LoadedBuild} :
    wp (sealBuild cfg crypto env worker build) (fun _ t => SameRows db t) (fun _ t => SameRows db t) db := by
  simp only [sealBuild, wp_ite, wp_bind, wp_pure, wp_ofExcept]
  refine ⟨fun _ => ?_, fun _ => ⟨fun _ _ => .refl db, fun _ _ => .refl db⟩⟩
  refine wp_mono wp_sealDocuments (fun sealed t ht => ?_) (fun _ t ht => ht ▸ .refl db)
  obtain ⟨documents, rfl⟩ := ht
  refine ⟨fun _ => wp_mono wp_releaseAbandonedGeneration (fun _ t ht => ?_) (fun _ _ h => h), fun _ => ?_⟩
  · rcases ht with rfl | ⟨-, pub, -, -, rfl⟩ <;> exact ⟨rfl, rfl, rfl, rfl, rfl⟩
  · exact ⟨rfl, rfl, rfl, rfl, rfl⟩

/-- A worker whose build raises out of the worker leaves every lifecycle row alone. -/
theorem buildClaimedJob_raises_unchanged {crypto : Crypto} {worker : WorkerEnv} {j : JobId} {e : Error} {db' : Db}
    (h : buildClaimedJob cfg crypto env worker j db = (.error e, db')) : SameRows db db' := by
  have hatomic : ∀ {α : Type} (x : Service α) {db₁ : Db}, SameRows db db₁ →
      wp (Tx.atomic x) (fun _ _ => True) (fun _ t => SameRows db t) db₁ :=
    fun x _ h₁ => wp_mono wp_atomic_unchanged (fun _ _ _ => trivial) (fun _ t ht => ht ▸ h₁)
  have htry : wp (tryBuild cfg crypto env worker j) (fun _ _ => True) (fun _ t => SameRows db t) db := by
    simp only [tryBuild, wp_bind, wp_get, wp_ofExcept]
    refine ⟨fun outcome _ => ?_, fun _ _ => .refl db⟩
    cases outcome with
    | notRunning => trivial
    | unallocated => exact hatomic _ (.refl db)
    | loaded build =>
      simp only [wp_bind, wp_ofExcept, wp_get, wp_ite, wp_pure]
      refine ⟨fun summary _ => ⟨fun _ => trivial, fun _ => ?_⟩, fun _ _ => .refl db⟩
      refine wp_mono wp_sealBuild (fun result t ht => ?_) (fun _ _ ht => ht)
      exact ⟨fun _ => trivial, fun _ => hatomic _ ht⟩
  unfold buildClaimedJob at h
  cases ht : tryBuild cfg crypto env worker j db with
  | mk r db₁ =>
    rw [ht] at h
    cases r with
    | ok id => cases h
    | error e₁ =>
      have hsame := htry.of_error ht
      cases hf : buildFailure e₁ with
      | none =>
        simp only [hf] at h
        cases h
        exact hsame
      | some report =>
        simp only [hf] at h
        have hfail : wp (failPublicationJob cfg env j report.1 report.2) (fun _ _ => True)
            (fun _ t => SameRows db t) db₁ := hatomic _ hsame
        exact hfail.of_error h

/-! ### The switch -/

/-- Every grant of the publication is revoked. -/
def Revoked (q : PublicationId) (grants : Table KeyGrant) : Prop :=
  ∀ k g, grants.find k = some g → g.publication = q → g.status = .revoked

/-- A row of a table of grants after a revocation comes from a row before it. -/
theorem find_revokeGrants {now : Time} {id : PublicationId} {grants : Table KeyGrant} {k : ℕ} {g : KeyGrant}
    (h : (revokeGrants now id grants).find k = some g) :
    ∃ g₀, grants.find k = some g₀ ∧ g.publication = g₀.publication ∧
      (g.status = .revoked ∨ g = g₀ ∧ ¬(g₀.publication = id ∧ g₀.status ≠ .revoked)) := by
  simp only [Table.find, revokeGrants, List.getElem?_map, Option.map_eq_some_iff] at h
  obtain ⟨g₀, hg₀, he⟩ := h
  refine ⟨g₀, hg₀, ?_⟩
  split at he
  · subst he
    exact ⟨rfl, .inl rfl⟩
  · rename_i hn
    subst he
    exact ⟨rfl, .inr ⟨rfl, hn⟩⟩

theorem revoked_revokeGrants (now : Time) (q : PublicationId) (grants : Table KeyGrant) :
    Revoked q (revokeGrants now q grants) := by
  intro k g hg hq
  obtain ⟨g₀, -, hp, hst | ⟨rfl, hn⟩⟩ := find_revokeGrants hg
  · exact hst
  · by_contra hne
    exact hn ⟨hq, hne⟩

theorem Revoked.revokeGrants {q : PublicationId} {grants : Table KeyGrant} (h : Revoked q grants) (now : Time)
    (id : PublicationId) : Revoked q (revokeGrants now id grants) := by
  intro k g hg hq
  obtain ⟨g₀, hg₀, hp, hst | ⟨rfl, -⟩⟩ := find_revokeGrants hg
  · exact hst
  · exact h k g hg₀ hq

/-- The grants of a publication that stops being current are withdrawn. File generations
keep their document grants for the delivery window. -/
structure Withdrawn (db db' : Db) (q : PublicationId) : Prop where
  dataset : Revoked q db'.keyGrants
  generation : ∀ pub, db.publications.find q = some pub →
    pub.key.target.datasetTypeCode.isFileDataset = false → Revoked q db'.generationKeyGrants

theorem Db.supersede_withdraws (h : Inv db.core) {i : ScopeId} {s : Scope} {q : PublicationId} (now : Time)
    (hs : db.scopes.find i = some s) (hc : s.currentPublishedPublication = some q) :
    Withdrawn db (db.supersede now s) q := by
  obtain ⟨previous, hq, -⟩ := h.current_published hs hc
  change db.publications.find q = some previous at hq
  have hdb : db.supersede now s = (db.revokePublicationDatasetKeyGrants now q previous).modifyPublication q
      fun row => { row with status := .superseded } := by
    simp only [Db.supersede, hc, Option.bind_some, hq, Option.map_some]
  rw [hdb]
  refine ⟨revoked_revokeGrants now q db.keyGrants, fun pub hp hfile => ?_⟩
  obtain rfl := Option.some.inj (hq.symm.trans hp)
  change Revoked q (if previous.key.target.datasetTypeCode.isFileDataset then _ else _)
  rw [hfile]
  exact revoked_revokeGrants now q db.generationKeyGrants

/-- Retiring another publication withdraws nothing back. -/
theorem Withdrawn.retired {db' : Db} {q p : PublicationId} (h : Withdrawn db db' q) (now : Time) (i : ScopeId)
    (pub : Publication) : Withdrawn db (db'.retired now i p pub) q := by
  have hkeys : (db'.retired now i p pub).keyGrants = revokeGrants now p db'.keyGrants := by
    unfold Db.retired Db.scheduleRemoval
    split <;> rfl
  have hgeneration : (db'.retired now i p pub).generationKeyGrants =
      if pub.key.target.datasetTypeCode.isFileDataset then db'.generationKeyGrants
      else revokeGrants now p db'.generationKeyGrants := by
    unfold Db.retired Db.scheduleRemoval
    split <;> rfl
  refine ⟨hkeys ▸ h.dataset.revokeGrants now p, fun previous hq hfile => ?_⟩
  rw [hgeneration]
  split
  · exact h.generation previous hq hfile
  · exact (h.generation previous hq hfile).revokeGrants now p

/-- Whatever scope pointer moves, the grants of the publication it leaves are withdrawn. -/
def Withdraws (db db' : Db) : Prop :=
  ∀ i s s' q, db.scopes.find i = some s → db'.scopes.find i = some s' →
    s.currentPublishedPublication = some q → s'.currentPublishedPublication ≠ some q → Withdrawn db db' q

theorem Withdraws.of_scope {db' : Db} {i : ScopeId} {s : Scope} (hs : db.scopes.find i = some s)
    (hother : ∀ k, k ≠ i → db'.scopes.find k = db.scopes.find k)
    (hw : ∀ q, s.currentPublishedPublication = some q → Withdrawn db db' q) : Withdraws db db' := by
  intro k t t' q ht ht' hc hne
  by_cases hk : k = i
  · subst hk
    obtain rfl := Option.some.inj (hs.symm.trans ht)
    exact hw q hc
  · rw [hother k hk, ht] at ht'
    cases ht'
    exact absurd hc hne

/-- No scope pointer moves. -/
def SamePointers (db db' : Db) : Prop :=
  ∀ i s, db.scopes.find i = some s →
    ∃ s', db'.scopes.find i = some s' ∧ s'.currentPublishedPublication = s.currentPublishedPublication

theorem Withdraws.of_same {db' : Db} (h : SamePointers db db') : Withdraws db db' := by
  intro i s s' q hs hs' hc hne
  obtain ⟨t, ht, he⟩ := h i s hs
  obtain rfl := Option.some.inj (ht.symm.trans hs')
  exact absurd (he.trans hc) hne

theorem Db.switchTo_withdraws (h : Inv db.core) {i : ScopeId} {s : Scope} (hs : db.scopes.find i = some s)
    (now : Time) (actor : Actor) (p : PublicationId) (action : ActivationAction) (f : Publication → Publication) :
    Withdraws db (db.switchTo now actor i s p action f) := by
  refine .of_scope hs (fun k hk => ?_) fun q hc => ?_
  · rw [Db.switchTo_scopes h hs]
    simp [Db.core, Ne.symm hk]
  · have hw := Db.supersede_withdraws h now hs hc
    exact ⟨hw.dataset, hw.generation⟩

theorem Db.buildPublished_withdraws (h : Inv db.core) {i : ScopeId} {s : Scope} (hs : db.scopes.find i = some s)
    (now : Time) (j : JobId) (p : PublicationId) (build : FinishedBuild) :
    Withdraws db (db.buildPublished cfg now i s j p build) := by
  have hgrants : (db.buildPublished cfg now i s j p build).keyGrants = (db.supersede now s).keyGrants ∧
      (db.buildPublished cfg now i s j p build).generationKeyGrants = (db.supersede now s).generationKeyGrants := by
    unfold Db.buildPublished
    split <;> exact ⟨rfl, rfl⟩
  refine .of_scope hs (fun k hk => ?_) fun q hc => ?_
  · have hscopes : (db.buildPublished cfg now i s j p build).scopes =
        (db.supersede now s).scopes.modify i fun _ =>
          { s.published cfg db p build with dirtySince := db.dirtyAfter cfg now s p build } := by
      unfold Db.buildPublished
      split <;> rfl
    rw [hscopes, Db.supersede_scopes h hs]
    simp [Ne.symm hk]
  · have hw := Db.supersede_withdraws h now hs hc
    exact ⟨hgrants.1 ▸ hw.dataset, fun pub hp hfile => hgrants.2 ▸ hw.generation pub hp hfile⟩

/-- A move keeps every scope pointer unless it publishes or activates. -/
theorem Move.pointer {l : Licence} {c d : Core} (m : Move cfg l c d) (hp : ¬l.publish)
    (ha : ∀ c p, ¬l.activate c p) {i : ScopeId} {s : Scope} (hs : c.scopes.find i = some s) :
    ∃ s', d.scopes.find i = some s' ∧ s'.currentPublishedPublication = s.currentPublishedPublication := by
  cases m with
  | @scope k t f ht hk hc hf =>
    by_cases hki : k = i
    · subst hki
      obtain rfl := Option.some.inj (ht.symm.trans hs)
      exact ⟨f t, by simp [hs], hc⟩
    · exact ⟨s, by simp [hki, hs], rfl⟩
  | newScope hk hn =>
    have hne : i ≠ c.scopes.nextId := (Table.lt_nextId_of_find hs).ne
    exact ⟨s, by simp [hne, hs], rfl⟩
  | publish hl m => exact absurd hl hp
  | activate hl m => exact absurd hl (ha _ _)
  | newJob | newPublication | job | closeJob | staged | claim | endBuild | retire => exact ⟨s, hs, rfl⟩

theorem Steps.pointer {l : Licence} {c d : Core} (m : Steps cfg l c d) (hp : ¬l.publish)
    (ha : ∀ c p, ¬l.activate c p) {i : ScopeId} {s : Scope} (hs : c.scopes.find i = some s) :
    ∃ s', d.scopes.find i = some s' ∧ s'.currentPublishedPublication = s.currentPublishedPublication := by
  induction m with
  | refl => exact ⟨s, hs, rfl⟩
  | tail _ m ih =>
    obtain ⟨s₁, hs₁, hc₁⟩ := ih
    obtain ⟨s₂, hs₂, hc₂⟩ := m.pointer hp ha hs₁
    exact ⟨s₂, hs₂, hc₂.trans hc₁⟩

theorem Deleted.withdraws (cfg : Config) {actor : Actor} {p : PublicationId} {db' : Db} (h : Inv db.core)
    (m : Deleted env db actor p db') : Withdraws db db' := by
  cases m with
  | @superseded pub i s m hst =>
    refine .of_same fun k t ht => ?_
    have hsteps : Steps cfg { retire := fun q => q = p } db.core (db.retired env.now i p pub).core :=
      Db.retired_steps rfl env.now m.scope m.publication hst
    exact hsteps.pointer id (fun _ _ => id) ht
  | @active pub i s q predecessor m hst hc m' hq he =>
    have hswitch := Db.switchTo_withdraws h m.scope env.now actor q .rollback (Publication.reactivated env.now actor)
    refine .of_scope m.scope (fun k hk => ?_) fun r hr => ?_
    · rw [Db.retired, Db.scheduleRemoval_scopes]
      change ((db.switchTo env.now actor i s q .rollback
        (Publication.reactivated env.now actor)).scopes.modify i _).find k = _
      rw [Db.switchTo_scopes h m.scope]
      simp [Db.core, Ne.symm hk]
    · have hrow : (db.switchTo env.now actor i s q .rollback (Publication.reactivated env.now actor)).scopes.find i
          = some { s with currentPublishedPublication := some q } := by
        rw [Db.switchTo_scopes h m.scope]
        simp [Db.core, m.scope]
      have hqr : q ≠ r := by
        rintro rfl
        exact h.current_ne m.scope m'.publication (by rw [hq]; decide) hr
      exact (hswitch i s _ r m.scope hrow hr (by simpa using hqr)).retired env.now i pub

/-- A finalization keeps every pointer, or withdraws the old grants and closes its job. -/
theorem Finalized.withdraws {j : JobId} {summary : Summary} {artifact : Option ArtifactMetadata}
    {given : Fingerprint} {db' : Db} (h : Inv db.core)
    (m : Finalized cfg env { mint := True, close := True } db j summary artifact given db') :
    Withdraws db db' ∧ (SamePointers db db' ∨ ∃ a, db'.jobs.find j = some a ∧ a.status = .succeeded) := by
  by_cases hf : db.FinishesAs cfg env.now j db'
  · obtain ⟨a, p, pub, i, s, build, b, rfl⟩ := hf
    refine ⟨Db.buildPublished_withdraws h b.scope env.now j p build, .inr ⟨a.succeeded env.now, ?_, rfl⟩⟩
    have hjobs : (db.buildPublished cfg env.now i s j p build).jobs =
        (db.supersede env.now s).jobs.modify j (Job.succeeded env.now) := by
      unfold Db.buildPublished
      split <;> rfl
    rw [hjobs, Db.supersede_jobs h b.scope]
    simp [b.job]
  · have hsteps := m.steps trivial trivial hf h
    have hsame : SamePointers db db' := fun i s hs => hsteps.pointer id (fun _ _ => id) hs
    exact ⟨.of_same hsame, .inl hsame⟩

/-- The job of a finalization call. -/
def Call.finalizes : Call → Option JobId
  | finalizePublicationJob j .. => some j
  | _ => none

/-- A call without the licence to move a pointer moves none. -/
theorem Call.samePointers (call : Call) (h : Inv db.core) (hp : ¬(call.licence env db).publish)
    (ha : ∀ c p, ¬(call.licence env db).activate c p) : SamePointers db (exec (call.run cfg env) db) :=
  fun _ _ hs => (call.steps h).pointer hp ha hs

/-- Whatever the call: a pointer that moves leaves no grant behind, and a finalization
that moves one has closed its job. -/
theorem Call.withdraws (call : Call) (h : Inv db.core) :
    Withdraws db (exec (call.run cfg env) db) ∧ (SamePointers db (exec (call.run cfg env) db) ∨
      ∀ j ∈ call.finalizes, ∃ a, (exec (call.run cfg env) db).jobs.find j = some a ∧ a.status.isActive = false) := by
  have hraise : ∀ (_ : Error) (db' : Db), db' = db → Withdraws db db' ∧ SamePointers db db' := by
    intro _ db' he
    have hsame : SamePointers db db' := fun i s hs => ⟨s, he ▸ hs, rfl⟩
    exact ⟨.of_same hsame, hsame⟩
  have hother : ¬(call.licence env db).publish → (∀ c p, ¬(call.licence env db).activate c p) →
      Withdraws db (exec (call.run cfg env) db) ∧ SamePointers db (exec (call.run cfg env) db) := fun hp ha =>
    ⟨.of_same (call.samePointers h hp ha), call.samePointers h hp ha⟩
  cases call with
  | publishPublication actor id =>
    refine ⟨exec_of_wp (P := Withdraws db) (wp_mono (wp_publishPublication h) ?_ fun e t he => (hraise e t he).1),
      .inr (by simp [Call.finalizes])⟩
    rintro _ _ ⟨pub, i, s, m, -, -, rfl⟩
    exact Db.switchTo_withdraws h m.scope env.now actor id .publish _
  | rollbackPublication actor id =>
    refine ⟨exec_of_wp (P := Withdraws db) (wp_mono (wp_rollbackPublication h) ?_ fun e t he => (hraise e t he).1),
      .inr (by simp [Call.finalizes])⟩
    rintro _ _ ⟨pub, i, s, m, -, -, rfl⟩
    exact Db.switchTo_withdraws h m.scope env.now actor id .rollback _
  | deletePublication actor id =>
    exact ⟨exec_of_wp (P := Withdraws db) (wp_mono (wp_deletePublication h) (fun _ _ m => m.withdraws cfg h)
      fun e t he => (hraise e t he).1), .inr (by simp [Call.finalizes])⟩
  | finalizePublicationJob j summary artifact given =>
    refine exec_of_wp (P := fun db' : Db => Withdraws db db' ∧ (SamePointers db db' ∨
      ∀ k ∈ some j, ∃ a, db'.jobs.find k = some a ∧ a.status.isActive = false)) ?_
    refine wp_bind.mpr (wp_mono (wp_finalizePublicationJob (l := { mint := True, close := True }) h) (fun _ db' m => ?_)
      fun e t he => ⟨(hraise e t he).1, .inl (hraise e t he).2⟩)
    obtain ⟨hw, hsame | ⟨a, ha, hst⟩⟩ := m.2.withdraws h
    · exact ⟨hw, .inl hsame⟩
    · refine ⟨hw, .inr fun k hk => ?_⟩
      obtain rfl := Option.some.inj hk
      exact ⟨a, ha, by rw [hst]; rfl⟩
  | markDirty | enqueuePublicationJob | claimJob | heartbeatJob | failPublicationJob | recoverStaleJobs
  | rejectPublication | requestRebuild | stagePublicationUpdate | buildStagedPublication | deleteStagedPublication
  | cancelPublicationBuild | bulkRequestRebuilds | processCandidate | sealDocuments | releaseAbandonedGeneration
  | runCallback =>
    obtain ⟨hw, hsame⟩ := hother id (fun _ _ => id)
    exact ⟨hw, .inl hsame⟩

/-- The whole switch of scope `i` from the publication `s` points at to `p`. -/
structure Switched (db db' : Db) (i : ScopeId) (s : Scope) (p : PublicationId) : Prop where
  published : ∃ pub, db'.publications.find p = some pub ∧ pub.scopeState = i ∧ pub.status = .published
  previous : ∀ q, s.currentPublishedPublication = some q →
    (∃ pub, db'.publications.find q = some pub ∧ pub.status ≠ .published) ∧ Withdrawn db db' q

theorem Call.switched (call : Call) (h : Inv db.core) {i : ScopeId} {s s' : Scope} {p : PublicationId}
    (hs : db.scopes.find i = some s) (hs' : (exec (call.run cfg env) db).scopes.find i = some s')
    (hp : s'.currentPublishedPublication = some p) (hne : s.currentPublishedPublication ≠ some p) :
    Switched db (exec (call.run cfg env) db) i s p := by
  have hsteps : Steps cfg (call.licence env db) db.core (exec (call.run cfg env) db).core := call.steps h
  have hinv := hsteps.inv h
  refine ⟨hinv.current_published hs' hp, fun q hq => ?_⟩
  have hqp : p ≠ q := by
    rintro rfl
    exact hne hq
  refine ⟨?_, (call.withdraws h).1 i s s' q hs hs' hq (by simpa [hp] using hqp)⟩
  obtain ⟨pub, hpub, hi, -⟩ := h.current_published hs hq
  obtain ⟨pub', hpub', hrow⟩ := hsteps.keeps h q pub hpub
  refine ⟨pub', hpub', fun hst => ?_⟩
  obtain ⟨t, ht, hc⟩ := hinv.published_current hpub' hst
  rw [hrow.scopeState, hi] at ht
  obtain rfl := Option.some.inj (ht.symm.trans hs')
  rw [hp] at hc
  exact hqp (Option.some.inj hc)

/-- A poll that raises keeps what the claims of earlier candidates committed; the claim
that raised changed nothing. -/
theorem claimNextJob_raises {e : Error} {db' : Db} (h : claimNextJob cfg env db = (.error e, db')) :
    ∃ (earlier : List JobId) (candidate : JobId),
      db' = runCalls cfg db (earlier.map fun c => (env, .claimJob c)) ∧
        claimJob cfg env candidate db' = (.error e, db') := by
  have hfirst : ∀ (l : List JobId) (db : Db), claimFirst cfg env l db = (.error e, db') →
      ∃ (earlier : List JobId) (candidate : JobId),
        db' = runCalls cfg db (earlier.map fun c => (env, .claimJob c)) ∧
          claimJob cfg env candidate db' = (.error e, db') := by
    intro l
    induction l with
    | nil =>
      intro db h
      cases h
    | cons candidate rest ih =>
      intro db h
      simp only [claimFirst, Bind.bind] at h
      cases hc : claimJob cfg env candidate db with
      | mk r db₁ =>
        rw [hc] at h
        cases r with
        | error e₁ =>
          cases h
          have hundone : wp (claimJob cfg env candidate) (fun _ _ => True) (fun _ t => t = db) db :=
            wp_atomic_unchanged
          obtain rfl := hundone.of_error hc
          exact ⟨[], candidate, rfl, hc⟩
        | ok r =>
          cases r with
          | some job => cases h
          | none =>
            obtain ⟨earlier, last, hdb, hlast⟩ := ih db₁ h
            refine ⟨candidate :: earlier, last, ?_, hlast⟩
            have hclaim : exec ((Call.claimJob candidate).run cfg env) db = db₁ := by
              simp [Call.run, exec, Bind.bind, hc, pure]
            simp only [List.map_cons, runCalls, List.foldl_cons, hclaim]
            exact hdb
  exact hfirst _ db h

/-- A call that raises changes no row, a poll that raises only what earlier claims
committed; a call that moves a scope pointer performs the whole switch, and no reachable
state shows a part of it. -/
theorem lifecycle_calls_atomic (h : (system cfg).Reachable db) :
    Consistent db ∧
    (∀ env (call : Call) e db', call.run cfg env db = (.error e, db') → SameRows db db') ∧
    (∀ env crypto worker j e db', buildClaimedJob cfg crypto env worker j db = (.error e, db') → SameRows db db') ∧
    (∀ env e db', claimNextJob cfg env db = (.error e, db') → ∃ (earlier : List JobId) (candidate : JobId),
      db' = runCalls cfg db (earlier.map fun c => (env, .claimJob c)) ∧
        claimJob cfg env candidate db' = (.error e, db')) ∧
    ∀ env (call : Call) i s s' p, db.scopes.find i = some s →
      (exec (call.run cfg env) db).scopes.find i = some s' → s'.currentPublishedPublication = some p →
      s.currentPublishedPublication ≠ some p → Switched db (exec (call.run cfg env) db) i s p ∧
        ∀ j ∈ call.finalizes, ∃ a, (exec (call.run cfg env) db).jobs.find j = some a ∧ a.status.isActive = false := by
  have hinv := inv_of_reachable h
  refine ⟨hinv.consistent, fun env call e db' he => call.raises_unchanged he,
    fun env crypto worker j e db' he => buildClaimedJob_raises_unchanged he,
    fun env e db' he => claimNextJob_raises he, fun env call i s s' p hs hs' hp hne => ?_⟩
  refine ⟨call.switched hinv hs hs' hp hne, ?_⟩
  rcases (call.withdraws hinv).2 with hsame | hclosed
  · obtain ⟨t, ht, hc⟩ := hsame i s hs
    obtain rfl := Option.some.inj (ht.symm.trans hs')
    exact absurd (hc.symm.trans hp) hne
  · exact hclosed

/-- The moved pointer of a rollback, with the switch around it. -/
theorem publishedTwice_rollback :
    Switched publishedTwice (exec ((Call.rollbackPublication 7 0).run sampleConfig (phonebookEnv 2 2)) publishedTwice)
      0 ⟨⟨.department, phonebookTarget⟩, 2, some 2, none, some 1, some 1⟩ 0 :=
  ((lifecycle_calls_atomic (reachable_runCalls (.init Migrated.empty) _)).2.2.2.2 (phonebookEnv 2 2)
    (.rollbackPublication 7 0) 0 ⟨⟨.department, phonebookTarget⟩, 2, some 2, none, some 1, some 1⟩
    ⟨⟨.department, phonebookTarget⟩, 2, some 2, none, some 1, some 0⟩ 0 (by decide +kernel) (by decide +kernel) rfl
    (by decide)).1

/-- A queue with a clean file library in front of a job whose dataset code is gone. -/
def retiredCodeQueue : Db :=
  let files : ScopeKey := ⟨.department, ⟨some 1, none, .departmentFiles⟩⟩
  let maps : ScopeKey := ⟨.department, ⟨some 1, none, .unregistered "department_maps"⟩⟩
  let published : Publication :=
    { scopeState := 0
      key := files
      versionNumber := 1
      schemaVersion := 2
      sourceRevision := 0
      sourceFingerprint := some 0
      status := .published
      createdAt := 0 }
  let job (key : ScopeKey) (i : ScopeId) : Job :=
    { key := key, scopeState := i, sourceRevision := 0, triggerType := .dataChange, createdAt := i }
  { scopes := ⟨[⟨files, 0, some 0, none, some 0, some 0⟩, { key := maps }]⟩
    publications := ⟨[published]⟩
    jobs := ⟨[job files 0, job maps 1]⟩ }

/-- The poll cancels the first job and then raises on the second. -/
theorem retiredCodeQueue_poll : (system sampleConfig).Reachable retiredCodeQueue ∧
    ∃ e db', claimNextJob sampleConfig { now := 5 } retiredCodeQueue = (.error e, db') ∧
      ¬SameRows retiredCodeQueue db' := by
  refine ⟨.init (show Migrated sampleConfig retiredCodeQueue by decide +kernel),
    .datasetRegistryError "Unknown dataset type code.", (claimNextJob sampleConfig { now := 5 } retiredCodeQueue).2,
    rfl, fun hsame => ?_⟩
  have hjobs := congrArg (fun t => t.rows.map Job.status) hsame.jobs
  revert hjobs
  decide +kernel

end FireDash.Publications
