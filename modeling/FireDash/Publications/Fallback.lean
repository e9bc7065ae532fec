import FireDash.Publications.RetentionPass

/-! Deleting the active version falls back to an older one. Which of those older versions a
retention pass leaves in place. -/
namespace FireDash.Publications

open Tx

variable {cfg : Config} {env : Env} {db : Db}

/-- A version to which the deletion of an active version `v` may fall back. -/
structure Db.Eligible (db : Db) (canonical : Canonical) (i : ScopeId) (s : Scope) (v : ℕ) (q : PublicationId)
    (pub : Publication) : Prop where
  row : db.publications.find q = some pub
  scope : pub.scopeState = i
  superseded : pub.status = .superseded
  older : pub.versionNumber < v
  ready : pub.artifactStatus = .ready ∧ pub.artifactReady = true
  restorable : publicationRestoreBlockedReason canonical db.documents q pub i s true = .ok none

/-- Only rows of a registered type can be restored. -/
theorem Db.Eligible.registered {canonical : Canonical} {i : ScopeId} {s : Scope} {v : ℕ} {q : PublicationId}
    {pub : Publication} (h : db.Eligible canonical i s v q pub) :
    ∃ definition, getDatasetDefinition s.key.target.datasetTypeCode = .ok definition := by
  have hmeta := restoreBlocked_none h.restorable
  obtain ⟨-, hkey, -⟩ := restoreMetadata_none hmeta
  rw [← hkey]
  cases hd : getDatasetDefinition pub.key.target.datasetTypeCode with
  | ok definition => exact ⟨definition, rfl⟩
  | error e =>
    unfold publicationRestoreMetadataBlockedReason at hmeta
    simp only [hd, bind, Except.bind] at hmeta
    split at hmeta
    · simp [pure, Except.pure] at hmeta
    · cases hmeta

/-- `_eligible_predecessor` yields a row exactly when there is an eligible one. -/
theorem eligiblePredecessor_yields {canonical : Canonical} {i : ScopeId} {s : Scope} {v : ℕ} :
    (∃ e, db.eligiblePredecessor canonical i s v = .ok (some e)) ↔ ∃ q pub, db.Eligible canonical i s v q pub := by
  constructor
  · rintro ⟨⟨q, pub⟩, h⟩
    simp only [Db.eligiblePredecessor, bind, Except.bind, pure, Except.pure] at h
    split at h
    · cases h
    · rename_i found hfound
      obtain ⟨hmem, hnone⟩ := mem_firstRestorable hfound (List.mem_of_head? (Except.ok.inj h))
      obtain ⟨hp, hi, hst⟩ := mem_publicationsByVersion hmem
      simp only [decide_eq_true_eq] at hst
      exact ⟨q, pub, hp, hi, hst.1, hst.2.1, hst.2.2, hnone⟩
  · rintro ⟨q, pub, h⟩
    obtain ⟨definition, hd⟩ := h.registered
    simp only [Db.eligiblePredecessor, bind, Except.bind, firstRestorable_eq hd, pure, Except.pure]
    have hrow : (q, pub) ∈ db.publicationsByVersion i fun p =>
        p.status = .superseded ∧ p.versionNumber < v ∧ p.artifactStatus = .ready ∧ p.artifactReady := by
      rw [Db.publicationsByVersion, List.mem_insertionSort, Table.mem_filter]
      simp [h.row, h.scope, h.superseded, h.older, h.ready]
    have hmem := List.mem_filter (p := fun e : PublicationId × Publication =>
      publicationRestoreBlockedReason canonical db.documents e.1 e.2 i s true = .ok none).mpr
        ⟨hrow, decide_eq_true h.restorable⟩
    cases hl : (db.publicationsByVersion i fun p => p.status = .superseded ∧ p.versionNumber < v ∧
        p.artifactStatus = .ready ∧ p.artifactReady).filter
          (fun e => publicationRestoreBlockedReason canonical db.documents e.1 e.2 i s true = .ok none) with
    | nil =>
      rw [hl] at hmem
      cases hmem
    | cons e rest => exact ⟨e, rfl⟩

/-- The candidates a pass goes through; none when its batch size or its discovery is refused. -/
def Db.retentionBatch (db : Db) (cfg : Config) (canonical : Canonical) (batchSize : Option ℤ) (now : Time) :
    List PublicationId :=
  if 1 ≤ retentionLimit cfg batchSize then
    match candidateIds cfg canonical db (retentionLimit cfg batchSize).toNat now with
    | .error _ => []
    | .ok ids => ids
  else []

theorem exec_runPublicationRetention (batchSize : Option ℤ) (now : Time) :
    exec (runPublicationRetention cfg env batchSize now false) db =
      exec (processCandidates cfg env now false (db.retentionBatch cfg env.canonical batchSize now) {}) db := by
  unfold Db.retentionBatch exec
  rw [runPublicationRetention_eq]
  split_ifs
  · cases candidateIds cfg env.canonical db (retentionLimit cfg batchSize).toNat now <;> rfl
  · rfl

theorem Db.retentionBatch_nodup (hu : db.UniqueVersions) {canonical : Canonical} {batchSize : Option ℤ} {now : Time} :
    (db.retentionBatch cfg canonical batchSize now).Nodup := by
  unfold Db.retentionBatch
  split_ifs
  · cases hids : candidateIds cfg canonical db (retentionLimit cfg batchSize).toNat now with
    | error e => exact List.nodup_nil
    | ok ids => exact candidateIds_nodup hu hids
  · exact List.nodup_nil

/-- Every candidate a discovery hands out gets a verdict. -/
theorem Db.retentionBatch_verdict (hu : db.UniqueVersions) {canonical : Canonical} {batchSize : Option ℤ} {now : Time}
    {q : PublicationId} (hq : q ∈ db.retentionBatch cfg canonical batchSize now) :
    ∃ outcome, db.retentionOutcome cfg canonical q now = .ok outcome := by
  unfold Db.retentionBatch at hq
  split_ifs at hq
  · cases hids : candidateIds cfg canonical db (retentionLimit cfg batchSize).toNat now with
    | error e =>
      rw [hids] at hq
      cases hq
    | ok ids =>
      rw [hids] at hq
      obtain ⟨superseded, terminal, hsup, rfl, -, hterm⟩ := candidateIds_spec hids
      have hd := supersededCandidateIds_discovered hu hsup
      unfold Db.retentionOutcome
      cases hp : db.publications.find q with
      | none => exact ⟨_, rfl⟩
      | some pub =>
        cases hs : db.scopes.find pub.scopeState with
        | none => exact ⟨_, by simp only [hs]; rfl⟩
        | some s =>
          simp only [hs]
          split_ifs with hlive hst hc hskip
          · exact ⟨_, rfl⟩
          · exact ⟨_, rfl⟩
          · rcases List.mem_append.mp hq with hq | hq
            · rw [hd.sound q pub s hp hs hq]
              exact ⟨_, rfl⟩
            · obtain ⟨pub', hp', hst'⟩ := hterm q hq
              obtain rfl := Option.some.inj (hp.symm.trans hp')
              rcases hst' with hf | hf <;> rw [hst] at hf <;> cases hf
          · exact ⟨_, rfl⟩
          · exact ⟨_, rfl⟩
  · cases hq

/-- Candidates that are not retired, or not in the list, keep everything. -/
theorem processCandidates_spares (hu : db.UniqueVersions) {now : Time} {ids : List PublicationId}
    (result : RetentionResult) {q : PublicationId}
    (hq : ∀ outcome, q ∈ ids → db.retentionOutcome cfg env.canonical q now = .ok outcome → outcome = .skipped) :
    db.Spares (exec (processCandidates cfg env now false ids result) db) q := by
  refine exec_of_wp (P := fun db' => db.Spares db' q) ?_
  induction ids generalizing db result with
  | nil => exact .refl q
  | cons k rest ih =>
    simp only [processCandidates, wp_bind]
    refine wp_mono (wp_processCandidate_outcome k now false) ?_ (fun _ _ he => he.2 ▸ .refl q)
    rintro outcome db₁ ⟨ho, rfl⟩
    simp only [Bool.false_eq_true, if_false]
    by_cases hk : q = k
    · subst hk
      rw [hq outcome List.mem_cons_self ho, Db.retain_skipped]
      exact ih hu _ fun outcome hm => hq outcome (List.mem_cons_of_mem _ hm)
    · have hspares : db.Spares (db.retain env.now k outcome) q := Db.retain_spares hk env.now outcome
      have hrest := ih (Db.retain_uniqueVersions hu ho env.now) (result.count outcome) (fun outcome' hm ho' => by
        rw [Db.retain_outcome hu ho hk] at ho'
        exact hq outcome' (List.mem_cons_of_mem _ hm) ho')
      exact wp_mono hrest (fun _ _ h => hspares.trans h) (fun _ _ h => hspares.trans h)

/-- A candidate whose verdict is to retire it ends up obsolete. -/
theorem processCandidates_retires (hu : db.UniqueVersions) {now : Time} {ids : List PublicationId} (hnd : ids.Nodup)
    (hok : ∀ k ∈ ids, ∃ outcome, db.retentionOutcome cfg env.canonical k now = .ok outcome) (result : RetentionResult)
    {q : PublicationId} (hq : q ∈ ids) (ho : db.retentionOutcome cfg env.canonical q now = .ok .obsoleted) :
    ∃ pub, (exec (processCandidates cfg env now false ids result) db).publications.find q = some pub ∧
      pub.status = .obsolete := by
  induction ids generalizing db result with
  | nil => cases hq
  | cons k rest ih =>
    obtain ⟨hk, hrest⟩ := List.nodup_cons.mp hnd
    obtain ⟨outcome, hout⟩ := hok k List.mem_cons_self
    have hstep : processCandidate cfg env k now false db = (.ok outcome, db.retain env.now k outcome) := by
      have hwp : wp (processCandidate cfg env k now false) _ _ db := wp_processCandidate_outcome k now false
      unfold wp at hwp
      cases hx : processCandidate cfg env k now false db with
      | mk r db₁ =>
        rw [hx] at hwp
        cases r with
        | error e =>
          rw [hout] at hwp
          cases hwp.1
        | ok outcome' =>
          obtain ⟨ho', rfl⟩ := hwp
          rw [hout] at ho'
          cases ho'
          rfl
    have hexec : exec (processCandidates cfg env now false (k :: rest) result) db =
        exec (processCandidates cfg env now false rest (result.count outcome)) (db.retain env.now k outcome) := by
      simp only [processCandidates, exec, Bind.bind, hstep]
    rw [hexec]
    have hu' := Db.retain_uniqueVersions hu hout env.now
    by_cases hqk : q = k
    · subst hqk
      rw [ho] at hout
      cases hout
      obtain hskip | ⟨pub, s, hp, -⟩ := Db.retentionOutcome_cases ho
      · cases hskip
      have hspares : (db.retain env.now q .obsoleted).Spares (exec (processCandidates cfg env now false rest _) _) q :=
        processCandidates_spares hu' (result.count .obsoleted) fun _ hm => absurd hm hk
      rw [hspares.row]
      refine ⟨pub.obsoleted, ?_, rfl⟩
      simp only [Db.retain, hp, Db.retired, Db.scheduleRemoval_publications]
      change (db.publications.modify q Publication.obsoleted).find q = _
      simp [hp]
    · have hne : ∀ {j}, j ∈ rest → j ≠ k := fun hj he => hk (he ▸ hj)
      refine ih hu' hrest (fun j hj => ?_) _ ((List.mem_cons.mp hq).resolve_left hqk) ?_
      · rw [Db.retain_outcome hu hout (hne hj)]
        exact hok j (List.mem_cons_of_mem _ hj)
      · rw [Db.retain_outcome hu hout hqk]
        exact ho

/-- Scopes keep their key, and no row becomes superseded. -/
structure Db.PassFrame (db db' : Db) : Prop where
  scopes : ∀ i s, db.scopes.find i = some s → ∃ s', db'.scopes.find i = some s' ∧ s'.key = s.key
  superseded : ∀ q pub, db'.publications.find q = some pub → pub.status = .superseded →
    db.publications.find q = some pub

theorem Db.PassFrame.refl : db.PassFrame db := ⟨fun _ s hs => ⟨s, hs, rfl⟩, fun _ _ hq _ => hq⟩

theorem Db.PassFrame.trans {db₁ db₂ : Db} (h : db.PassFrame db₁) (h' : db₁.PassFrame db₂) : db.PassFrame db₂ where
  scopes i s hs := by
    obtain ⟨s₁, hs₁, hk₁⟩ := h.scopes i s hs
    obtain ⟨s₂, hs₂, hk₂⟩ := h'.scopes i s₁ hs₁
    exact ⟨s₂, hs₂, hk₂.trans hk₁⟩
  superseded q pub hq hst := h.superseded q pub (h'.superseded q pub hq hst) hst

theorem Db.RetainFrame.passFrame {db' : Db} {q : PublicationId} (h : db.RetainFrame db' q) : db.PassFrame db' where
  scopes i s hs := by
    have hsame := h.scopes i
    rw [hs, Option.map_some, Option.map_eq_some_iff] at hsame
    obtain ⟨s', hs', he⟩ := hsame
    exact ⟨s', hs', (Prod.mk.inj he).1⟩
  superseded k pub hk hst := by
    obtain ⟨f, hf, hrow⟩ := h.publications
    rw [hf, Table.find_modify] at hk
    split_ifs at hk with hkq
    · subst hkq
      obtain ⟨r, hr, rfl⟩ := Option.map_eq_some_iff.mp hk
      exact absurd hst (hrow r hr).2.2
    · exact hk

theorem processCandidates_frame {now : Time} (ids : List PublicationId) (result : RetentionResult) :
    db.PassFrame (exec (processCandidates cfg env now false ids result) db) := by
  refine exec_of_wp (P := fun db' => db.PassFrame db') ?_
  induction ids generalizing db result with
  | nil => exact .refl
  | cons k rest ih =>
    simp only [processCandidates, wp_bind]
    refine wp_mono (wp_processCandidate_outcome k now false) ?_ (fun _ _ he => he.2 ▸ .refl)
    rintro outcome db₁ ⟨ho, rfl⟩
    simp only [Bool.false_eq_true, if_false]
    by_cases hskip : outcome = .skipped
    · rw [hskip, Db.retain_skipped]
      exact ih _
    · have hframe := (Db.retain_frame ho hskip env.now).passFrame
      exact wp_mono (ih _) (fun _ _ h => hframe.trans h) (fun _ _ h => hframe.trans h)

theorem uniqueVersions_of_reachable (h : (system cfg).Reachable db) : db.UniqueVersions := by
  have hv := reachable_versionsIncrease h
  intro p q pub pub' hp hq hs he
  rcases Nat.lt_trichotomy p q with hlt | heq | hgt
  · have := hv p q pub pub' hp hq hs hlt
    omega
  · exact heq
  · have := hv q p pub' pub hq hp hs.symm hgt
    omega

/-- A pass leaves an eligible version alone unless it is in the batch, its scope is idle and it
holds no retained place. -/
theorem eligible_retired_iff (h : Inv db.core) (hu : db.UniqueVersions) {i : ScopeId} {s : Scope} {v : ℕ}
    {q : PublicationId} {pub : Publication} (hs : db.scopes.find i = some s)
    (he : db.Eligible env.canonical i s v q pub) (now : Time) :
    db.retentionOutcome cfg env.canonical q now = .ok .obsoleted ↔
      ¬(∃ j job, db.jobs.find j = some job ∧ job.scopeState = i ∧ job.status.isActive = true) ∧
        ¬db.Retained cfg env.canonical i s q := by
  obtain ⟨definition, hd⟩ := he.registered
  have hguard : retentionGuard cfg s = .ok () := by
    unfold retentionGuard
    rw [hd]
    split <;> rfl
  have hcurrent : s.currentPublishedPublication ≠ some q :=
    h.current_ne hs he.row (by rw [he.superseded]; decide)
  have hlive : (∃ j job, db.jobs.find j = some job ∧ job.scopeState = i ∧ job.status.isActive = true) ↔
      (db.jobs.any fun job => decide (job.scopeState = i ∧ job.status.isActive = true)) = true := by
    rw [Table.any_eq_true]
    simp
  rw [hlive]
  have hscope := he.scope
  subst hscope
  simp only [Db.retentionOutcome, he.row, hs, he.superseded, if_true, hcurrent, if_false,
    isRetainedPredecessor_eq hu, hguard, Except.map]
  generalize (db.jobs.any fun job => decide (job.scopeState = pub.scopeState ∧ job.status.isActive = true)) = live
  cases live with
  | true => simp
  | false => by_cases hret : db.Retained cfg env.canonical pub.scopeState s q <;> simp [hret]

theorem Db.Eligible.competes {canonical : Canonical} {i : ScopeId} {s : Scope} {v : ℕ} {q : PublicationId}
    {pub : Publication} (h : db.Eligible canonical i s v q pub) : db.competes cfg canonical i s (q, pub) = true := by
  unfold Db.competes
  by_cases haware : cfg.retentionRestoreAwareEnabled = true
  · simp [haware, h.scope, h.superseded, h.restorable]
  · simp [haware, h.scope, h.superseded, h.ready]

/-- The newest competing version holds a place as soon as there is one. -/
theorem exists_retained {canonical : Canonical} {i : ScopeId} {s : Scope} {q : PublicationId} {pub : Publication}
    (hn : 1 ≤ cfg.retainedRollbackPredecessors) (hq : db.publications.find q = some pub)
    (hc : db.competes cfg canonical i s (q, pub) = true) :
    ∃ k r, db.publications.find k = some r ∧ db.competes cfg canonical i s (k, r) = true ∧
      db.Retained cfg canonical i s k := by
  have hmem : (q, pub) ∈ db.publications.entries.filter (db.competes cfg canonical i s) :=
    List.mem_filter.mpr ⟨Table.mem_entries.mpr hq, hc⟩
  obtain ⟨⟨k, r⟩, hk, hzero⟩ := exists_rank_eq_zero (fun e => e.2.versionNumber) hmem
  obtain ⟨hr, hcr⟩ := List.mem_filter.mp hk
  have hr := Table.mem_entries.mp hr
  refine ⟨k, r, hr, hcr, r, hr, hcr, ?_⟩
  rw [Db.newerCompeting, hzero]
  omega

/-- What is still eligible after a pass was eligible before, and the pass spared it. -/
theorem eligible_after_pass (h : Inv db.core) (hu : db.UniqueVersions) {i : ScopeId} {s s' : Scope} {v : ℕ}
    {batchSize : Option ℤ} {now : Time} (hs : db.scopes.find i = some s) (hkey : s'.key = s.key) (q : PublicationId)
    (pub : Publication) :
    (exec (runPublicationRetention cfg env batchSize now false) db).Eligible env.canonical i s' v q pub ↔
      db.Eligible env.canonical i s v q pub ∧
        ((∃ j job, db.jobs.find j = some job ∧ job.scopeState = i ∧ job.status.isActive = true) ∨
          db.Retained cfg env.canonical i s q ∨ q ∉ db.retentionBatch cfg env.canonical batchSize now) := by
  rw [exec_runPublicationRetention]
  set ids := db.retentionBatch cfg env.canonical batchSize now with hids
  set db' := exec (processCandidates cfg env now false ids {}) db with hdb'
  have hframe : db.PassFrame db' := processCandidates_frame ids {}
  have hmove : db.Spares db' q → (db'.Eligible env.canonical i s' v q pub ↔ db.Eligible env.canonical i s v q pub) := by
    intro hsp
    have hblocked : publicationRestoreBlockedReason env.canonical db'.documents q pub i s' true =
        publicationRestoreBlockedReason env.canonical db.documents q pub i s true :=
      restoreBlocked_congr hsp.generation hkey
    constructor
    · intro he
      exact ⟨by rw [← hsp.row]; exact he.row, he.scope, he.superseded, he.older, he.ready,
        hblocked ▸ he.restorable⟩
    · intro he
      exact ⟨by rw [hsp.row]; exact he.row, he.scope, he.superseded, he.older, he.ready,
        hblocked.symm ▸ he.restorable⟩
  by_cases hretired : q ∈ ids ∧ db.retentionOutcome cfg env.canonical q now = .ok .obsoleted
  · obtain ⟨r, hr, hst⟩ := processCandidates_retires hu (Db.retentionBatch_nodup hu)
      (fun k hk => Db.retentionBatch_verdict hu hk) {} hretired.1 hretired.2
    constructor
    · intro he
      have hrow := Option.some.inj (hr.symm.trans he.row)
      rw [hrow, he.superseded] at hst
      cases hst
    · rintro ⟨he, hspared⟩
      obtain ⟨hidle, hnot⟩ := (eligible_retired_iff h hu hs he now).mp hretired.2
      rcases hspared with hlive | hret | hout
      · exact absurd hlive hidle
      · exact absurd hret hnot
      · exact absurd hretired.1 hout
  · have hspares : db.publications.find q = some pub → pub.status = .superseded → db.Spares db' q := by
      intro hq hst
      refine processCandidates_spares hu {} fun outcome hmem ho => ?_
      obtain hskip | ⟨pub', s₁, hp', -, -, ⟨rfl, -⟩ | ⟨-, hterm, -⟩⟩ := Db.retentionOutcome_cases ho
      · exact hskip
      · exact absurd ⟨hmem, ho⟩ hretired
      · obtain rfl := Option.some.inj (hq.symm.trans hp')
        rcases hterm with hf | hf <;> rw [hst] at hf <;> cases hf
    constructor
    · intro he
      have hq := hframe.superseded q pub he.row he.superseded
      have hold := (hmove (hspares hq he.superseded)).mp he
      refine ⟨hold, ?_⟩
      by_contra hcon
      rw [not_or, not_or, not_not] at hcon
      exact hretired ⟨hcon.2.2, (eligible_retired_iff h hu hs hold now).mpr ⟨hcon.1, hcon.2.1⟩⟩
    · rintro ⟨he, -⟩
      exact (hmove (hspares he.row he.superseded)).mpr he

/-- After a pass a scope can fall back below `v` exactly when one of the versions it could fall
back to before was spared: its scope has a live job, it holds a retained place, or it was not in
the batch. With a place to retain, that is so whenever every version competing for the places is
itself an older, restorable one. -/
theorem fallback_after_retention (h : (system cfg).Reachable db) {i : ScopeId} {s : Scope}
    (hs : db.scopes.find i = some s) (v : ℕ) (batchSize : Option ℤ) (now : Time) :
    ∃ s', (exec (runPublicationRetention cfg env batchSize now false) db).scopes.find i = some s' ∧
      ((∃ e, (exec (runPublicationRetention cfg env batchSize now false) db).eligiblePredecessor env.canonical i s' v
          = .ok (some e)) ↔
        ∃ q pub, db.Eligible env.canonical i s v q pub ∧
          ((∃ j job, db.jobs.find j = some job ∧ job.scopeState = i ∧ job.status.isActive = true) ∨
            db.Retained cfg env.canonical i s q ∨ q ∉ db.retentionBatch cfg env.canonical batchSize now)) ∧
      (1 ≤ cfg.retainedRollbackPredecessors →
        (∃ e, db.eligiblePredecessor env.canonical i s v = .ok (some e)) →
        (∀ q pub, db.publications.find q = some pub → db.competes cfg env.canonical i s (q, pub) = true →
          db.Eligible env.canonical i s v q pub) →
        ∃ e, (exec (runPublicationRetention cfg env batchSize now false) db).eligiblePredecessor env.canonical i s' v
          = .ok (some e)) := by
  have hinv := inv_of_reachable h
  have hu := uniqueVersions_of_reachable h
  have hframe : db.PassFrame (exec (runPublicationRetention cfg env batchSize now false) db) := by
    rw [exec_runPublicationRetention]
    exact processCandidates_frame _ {}
  obtain ⟨s', hs', hkey⟩ := hframe.scopes i s hs
  have hyields : (∃ e, (exec (runPublicationRetention cfg env batchSize now false) db).eligiblePredecessor
      env.canonical i s' v = .ok (some e)) ↔ ∃ q pub, db.Eligible env.canonical i s v q pub ∧
        ((∃ j job, db.jobs.find j = some job ∧ job.scopeState = i ∧ job.status.isActive = true) ∨
          db.Retained cfg env.canonical i s q ∨ q ∉ db.retentionBatch cfg env.canonical batchSize now) := by
    rw [eligiblePredecessor_yields]
    exact exists_congr fun q => exists_congr fun pub => eligible_after_pass hinv hu hs hkey q pub
  refine ⟨s', hs', hyields, fun hn hbefore hall => hyields.mpr ?_⟩
  obtain ⟨q, pub, he⟩ := eligiblePredecessor_yields.mp hbefore
  obtain ⟨k, r, hr, hcr, hret⟩ := exists_retained hn he.row he.competes
  exact ⟨k, r, hall k r hr hcr, .inr (.inl hret)⟩

/-- Three builds of a phonebook. -/
def publishedThrice : Db :=
  runCalls sampleConfig {} (phonebookBuild 0 1 0 ++ phonebookBuild 1 2 1 ++ phonebookBuild 2 3 2)

/-- One place is retained, and it goes to the second version, below the active third one. -/
theorem publishedThrice_falls_back :
    ∃ s', (exec (runPublicationRetention sampleConfig (phonebookEnv 9 3) none 9 false) publishedThrice).scopes.find 0
        = some s' ∧
      ∃ e, (exec (runPublicationRetention sampleConfig (phonebookEnv 9 3) none 9 false)
        publishedThrice).eligiblePredecessor (phonebookEnv 9 3).canonical 0 s' 3 = .ok (some e) := by
  obtain ⟨s, hs⟩ : ∃ s, publishedThrice.scopes.find 0 = some s := Option.isSome_iff_exists.mp (by decide +kernel)
  have hrows : ∀ s ∈ publishedThrice.scopes.find 0, ∀ e ∈ publishedThrice.publications.entries,
      publishedThrice.competes sampleConfig (phonebookEnv 9 3).canonical 0 s e = true → e.2.scopeState = 0 ∧
        e.2.status = .superseded ∧ e.2.versionNumber < 3 ∧ (e.2.artifactStatus = .ready ∧ e.2.artifactReady = true) ∧
        publicationRestoreBlockedReason (phonebookEnv 9 3).canonical publishedThrice.documents e.1 e.2 0 s true
          = .ok none := by decide +kernel
  have hbefore : ∀ s ∈ publishedThrice.scopes.find 0, (publishedThrice.eligiblePredecessor
      (phonebookEnv 9 3).canonical 0 s 3).toOption.join.isSome = true := by decide +kernel
  have hreach : (system sampleConfig).Reachable publishedThrice := reachable_runCalls (.init Migrated.empty) _
  obtain ⟨s', hs', -, hkeeps⟩ := fallback_after_retention hreach hs 3 none 9
  refine ⟨s', hs', hkeeps (by decide) ?_ fun q pub hq hc => ?_⟩
  · have hsome := hbefore s hs
    cases he : publishedThrice.eligiblePredecessor (phonebookEnv 9 3).canonical 0 s 3 with
    | error e => simp [he, Except.toOption] at hsome
    | ok found =>
      obtain ⟨e, rfl⟩ := Option.isSome_iff_exists.mp (by simpa [he, Except.toOption] using hsome)
      exact ⟨e, rfl⟩
  · obtain ⟨h1, h2, h3, h4, h5⟩ := hrows s hs (q, pub) (Table.mem_entries.mpr hq) hc
    exact ⟨hq, h1, h2, h3, h4, h5⟩

/-- The second version is current again after a rollback. -/
def rolledBack : Db := runCalls sampleConfig publishedThrice [(phonebookEnv 3 3, .rollbackPublication 7 1)]

/-- With one retained place, a pass keeps the newer third version and retires the only one to
which a deletion of the active second version could fall back. -/
theorem rolledBack_loses_fallback :
    (system sampleConfig).Reachable rolledBack ∧ sampleConfig.retainedRollbackPredecessors = 1 ∧
    rolledBack.publications.rows.map (fun p => (p.versionNumber, p.status)) =
      [(1, .superseded), (2, .published), (3, .superseded)] ∧
    (rolledBack.scopes.find 0).map (fun s => (s.currentPublishedPublication,
        (rolledBack.eligiblePredecessor (phonebookEnv 9 3).canonical 0 s 2).map (Option.map Prod.fst))) =
      some (some 1, .ok (some 0)) ∧
    ((exec (runPublicationRetention sampleConfig (phonebookEnv 9 3) none 9 false) rolledBack).scopes.find 0).map
        (fun s => (s.currentPublishedPublication,
          (exec (runPublicationRetention sampleConfig (phonebookEnv 9 3) none 9 false) rolledBack).eligiblePredecessor
            (phonebookEnv 9 3).canonical 0 s 2)) =
      some (some 1, .ok none) :=
  ⟨reachable_runCalls (reachable_runCalls (.init Migrated.empty) _) _, by decide +kernel, by decide +kernel,
    by decide +kernel, by decide +kernel⟩

end FireDash.Publications
