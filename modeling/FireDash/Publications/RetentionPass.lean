import FireDash.Lib.Rank
import FireDash.Publications.Versions

/-! The retention pass as a whole: what the locked recheck decides, what each decision
leaves alone, and why earlier candidates of a pass never change the verdict on later ones. -/
namespace FireDash.Publications

open Tx

variable {cfg : Config} {env : Env} {db : Db}

/-! ### The verdict on one candidate -/

/-- The versions of a scope that compete for the retained places. -/
def Db.competes (db : Db) (cfg : Config) (canonical : Canonical) (i : ScopeId) (s : Scope)
    (e : PublicationId × Publication) : Bool :=
  e.2.scopeState = i ∧ e.2.status = .superseded ∧
    if cfg.retentionRestoreAwareEnabled then
      publicationRestoreBlockedReason canonical db.documents e.1 e.2 i s true = .ok none
    else e.2.artifactStatus = .ready ∧ e.2.artifactReady

/-- How many competing versions of the scope are newer. -/
def Db.newerCompeting (db : Db) (cfg : Config) (canonical : Canonical) (i : ScopeId) (s : Scope)
    (e : PublicationId × Publication) : ℕ :=
  rank (fun e => e.2.versionNumber) (db.publications.entries.filter (db.competes cfg canonical i s)) e

/-- What the recheck of one candidate under the scope lock decides. -/
def Db.retentionOutcome (db : Db) (cfg : Config) (canonical : Canonical) (id : PublicationId) (now : Time) :
    Except Error RetentionOutcome :=
  match db.publications.find id with
  | none => .ok .skipped
  | some pub =>
    match db.scopes.find pub.scopeState with
    | none => .ok .skipped
    | some s =>
      if db.jobs.any fun job => job.scopeState = pub.scopeState ∧ job.status.isActive then .ok .skipped
      else if pub.status = .superseded then
        if s.currentPublishedPublication = some id then .ok .skipped
        else (isRetainedPredecessor cfg canonical db pub.scopeState s id).map fun kept =>
          if kept then .skipped else .obsoleted
      else if (pub.status ≠ .failed ∧ pub.status ≠ .cancelled) ∨ pub.sourceSnapshot.isNone ∨
          now < terminalTimestamp pub (db.relatedJob pub.scopeState id) + cfg.terminalSnapshotRetention then
        .ok .skipped
      else .ok .snapshotPurged

/-- The writes that follow a verdict. -/
def Db.retain (db : Db) (now : Time) (id : PublicationId) (outcome : RetentionOutcome) : Db :=
  match db.publications.find id with
  | none => db
  | some pub =>
    match outcome with
    | .skipped => db
    | .obsoleted => db.retired now pub.scopeState id pub
    | .snapshotPurged =>
      (db.modifyPublication id fun row => { row with sourceSnapshot := none }).release id
        pub.key.target.datasetTypeCode

/-- Rechecking one candidate is a verdict on the database, and its writes unless the run is dry. -/
theorem wp_processCandidate_outcome (id : PublicationId) (now : Time) (dryRun : Bool) :
    wp (processCandidate cfg env id now dryRun)
      (fun outcome db' => db.retentionOutcome cfg env.canonical id now = .ok outcome ∧
        db' = if dryRun then db else db.retain env.now id outcome)
      (fun e db' => db.retentionOutcome cfg env.canonical id now = .error e ∧ db' = db) db := by
  simp only [processCandidate, wp_atomic, wp_bind, wp_get]
  unfold Db.retentionOutcome Db.retain
  cases hp : db.publications.find id with
  | none => simp
  | some pub =>
    cases hs : db.scopes.find pub.scopeState with
    | none => simp [hs]
    | some s =>
      simp only [wp_ite, wp_pure, wp_bind, wp_ofExcept, hs]
      generalize (db.jobs.any fun job => decide (job.scopeState = pub.scopeState ∧ job.status.isActive = true)) = live
      refine ⟨fun hlive => by simp [hlive], fun hlive => ⟨fun hst => ⟨fun hc => by simp [hlive, hst, hc], fun hc => ?_⟩,
        fun hst => ⟨fun hterm => by simp [hlive, hst, hterm], fun hterm => ⟨fun hsn => by simp [hlive, hst, hsn],
          fun hsn => ⟨fun hdue => by simp [hlive, hst, hdue], fun hdue => ⟨fun hdry => ?_, fun hdry => ?_⟩⟩⟩⟩⟩⟩
      · rw [if_neg hlive, if_pos hst, if_neg hc]
        refine ⟨fun kept hkept => ⟨fun hk => by simp [hkept, hk, Except.map], fun hk => ⟨fun hdry => ?_, fun hdry => ?_⟩⟩,
          fun e he => by simp [he, Except.map]⟩
        · simp [hkept, hk, hdry, Except.map]
        · refine wp_retirePublication ?_
          simp [hkept, hk, hdry, Except.map]
      · simp [hlive, hst, hterm, hsn, hdue, hdry]
      · simp only [wp_modify]
        refine wp_releaseTerminal ?_ ?_
        · rw [not_and_or, not_not, not_not] at hterm
          rcases hterm with h | h <;> rw [h] <;> rfl
        · simp [hlive, hst, hterm, hsn, hdue, hdry]

/-! ### The retained places -/

/-- The database constraint on version numbers: no two rows of a scope share one. -/
def Db.UniqueVersions (db : Db) : Prop :=
  ∀ p q pub pub', db.publications.find p = some pub → db.publications.find q = some pub' →
    pub.scopeState = pub'.scopeState → pub.versionNumber = pub'.versionNumber → p = q

/-- The version holds one of the retained places of its scope. -/
def Db.Retained (db : Db) (cfg : Config) (canonical : Canonical) (i : ScopeId) (s : Scope) (id : PublicationId) :
    Prop :=
  ∃ pub, db.publications.find id = some pub ∧ db.competes cfg canonical i s (id, pub) = true ∧
    db.newerCompeting cfg canonical i s (id, pub) < cfg.retainedRollbackPredecessors

/-- By version, each row of the scope comes once, before the rows of smaller or equal versions. -/
theorem publicationsByVersion_sorted (db : Db) (i : ScopeId) (p : Publication → Bool) :
    (db.publicationsByVersion i p).Pairwise fun a b => b.2.versionNumber ≤ a.2.versionNumber ∧ a.1 ≠ b.1 := by
  have hsorted : (db.publicationsByVersion i p).Pairwise fun a b => b.2.versionNumber ≤ a.2.versionNumber := by
    have htotal : Std.Total fun a b : PublicationId × Publication => b.2.versionNumber ≤ a.2.versionNumber :=
      ⟨fun a b => Nat.le_total _ _⟩
    have htrans : IsTrans (PublicationId × Publication) fun a b => b.2.versionNumber ≤ a.2.versionNumber :=
      ⟨fun a b c hab hbc => le_trans hbc hab⟩
    exact List.pairwise_insertionSort _ _
  have hnodup : (db.publicationsByVersion i p).Pairwise fun a b => a.1 ≠ b.1 := by
    have hn : ((db.publicationsByVersion i p).map Prod.fst).Nodup :=
      ((List.perm_insertionSort _ _).map _).nodup_iff.mpr (Table.nodup_keys_filter _ _)
    exact List.pairwise_map.mp hn
  exact hsorted.and hnodup

theorem competing_sorted (hu : db.UniqueVersions) (i : ScopeId) (p : Publication → Bool) :
    (db.publicationsByVersion i p).Pairwise fun a b => b.2.versionNumber < a.2.versionNumber := by
  refine (publicationsByVersion_sorted db i p).imp_of_mem fun {a b} ha hb hab => ?_
  obtain ⟨hpa, hia, -⟩ := mem_publicationsByVersion ha
  obtain ⟨hpb, hib, -⟩ := mem_publicationsByVersion hb
  exact lt_of_le_of_ne hab.1 fun he => hab.2 (hu _ _ _ _ hpa hpb (hia.trans hib.symm) he.symm)

/-- The first places of any descending list of the competing versions. -/
theorem mem_take_iff_retained {canonical : Canonical} {i : ScopeId} {s : Scope} {l : List (PublicationId × Publication)}
    (hperm : l.Perm (db.publications.entries.filter (db.competes cfg canonical i s)))
    (hl : l.Pairwise fun a b => b.2.versionNumber < a.2.versionNumber) (id : PublicationId) :
    id ∈ (l.take cfg.retainedRollbackPredecessors).map Prod.fst ↔ db.Retained cfg canonical i s id := by
  have hmem : ∀ pub, (id, pub) ∈ l.take cfg.retainedRollbackPredecessors ↔ db.publications.find id = some pub ∧
      db.competes cfg canonical i s (id, pub) = true ∧
      db.newerCompeting cfg canonical i s (id, pub) < cfg.retainedRollbackPredecessors := by
    intro pub
    rw [mem_take_iff_rank hl, hperm.mem_iff, rank_perm hperm, List.mem_filter, Table.mem_entries, and_assoc]
    rfl
  constructor
  · intro h
    obtain ⟨⟨k, pub⟩, hk, rfl⟩ := List.mem_map.mp h
    exact ⟨pub, (hmem pub).mp hk⟩
  · rintro ⟨pub, hpub⟩
    exact List.mem_map.mpr ⟨(id, pub), (hmem pub).mpr hpub, rfl⟩

theorem ready_perm_competing (haware : cfg.retentionRestoreAwareEnabled = false) (canonical : Canonical)
    (i : ScopeId) (s : Scope) :
    (db.publicationsByVersion i fun p => p.status = .superseded ∧ p.artifactStatus = .ready ∧ p.artifactReady).Perm
      (db.publications.entries.filter (db.competes cfg canonical i s)) := by
  refine (List.perm_insertionSort _ _).trans (List.Perm.of_eq (List.filter_congr fun e _ => ?_))
  simp [Db.competes, haware]

theorem restorable_perm_competing (haware : cfg.retentionRestoreAwareEnabled = true) (canonical : Canonical)
    (i : ScopeId) (s : Scope) :
    ((db.publicationsByVersion i fun p => p.status = .superseded).filter fun e =>
      publicationRestoreBlockedReason canonical db.documents e.1 e.2 i s true = .ok none).Perm
      (db.publications.entries.filter (db.competes cfg canonical i s)) := by
  refine ((List.perm_insertionSort _ _).filter _).trans (List.Perm.of_eq ?_)
  rw [Table.filter, List.filter_filter]
  refine List.filter_congr fun e _ => ?_
  simp [Db.competes, haware, Bool.and_comm, Bool.and_assoc]

/-- What the recheck of a predecessor needs to know about the type of its scope. -/
def retentionGuard (cfg : Config) (s : Scope) : Except Error Unit :=
  if cfg.retentionRestoreAwareEnabled ∧ cfg.retainedRollbackPredecessors ≠ 0 then
    (getDatasetDefinition s.key.target.datasetTypeCode).map fun _ => ()
  else .ok ()

open Classical in
/-- The locked recheck decides whether a version holds a retained place. -/
theorem isRetainedPredecessor_eq (hu : db.UniqueVersions) (canonical : Canonical) (i : ScopeId) (s : Scope)
    (id : PublicationId) :
    isRetainedPredecessor cfg canonical db i s id =
      (retentionGuard cfg s).map fun _ => decide (db.Retained cfg canonical i s id) := by
  unfold isRetainedPredecessor retentionGuard
  by_cases haware : cfg.retentionRestoreAwareEnabled = true
  · simp only [haware, if_true, true_and, selectRestorablePredecessors]
    by_cases hn : cfg.retainedRollbackPredecessors = 0
    · have hnone : ¬db.Retained cfg canonical i s id := by
        rintro ⟨pub, -, -, hlt⟩
        omega
      simp [hn, hnone, Except.map, bind, Except.bind, pure, Except.pure]
    · simp only [hn, if_false, ne_eq, not_false_eq_true, if_true]
      cases hd : getDatasetDefinition s.key.target.datasetTypeCode with
      | error e => rfl
      | ok definition =>
        have hperm : List.Perm _ (db.publications.entries.filter (db.competes cfg canonical i s)) :=
          restorable_perm_competing haware canonical i s
        have hkept := mem_take_iff_retained hperm ((competing_sorted hu i _).sublist List.filter_sublist) id
        simp only [bind, Except.bind, firstRestorable_eq hd, pure, Except.pure, Except.map, hkept]
  · rw [Bool.not_eq_true] at haware
    have hperm : List.Perm _ (db.publications.entries.filter (db.competes cfg canonical i s)) :=
      ready_perm_competing haware canonical i s
    have hkept := mem_take_iff_retained hperm (competing_sorted hu i _) id
    simp only [haware, Bool.false_eq_true, if_false, false_and, hkept, Except.map, pure, Except.pure]

/-! ### What a verdict leaves alone -/

/-- Nothing of one publication was changed, withdrawn or scheduled for removal. -/
structure Db.Spares (db db' : Db) (id : PublicationId) : Prop where
  row : db'.publications.find id = db.publications.find id
  generation : SameGeneration id db.documents db'.documents
  keyGrants : ∀ g grant, db.keyGrants.find g = some grant → grant.publication = id →
    db'.keyGrants.find g = some grant
  generationKeyGrants : ∀ g grant, db.generationKeyGrants.find g = some grant → grant.publication = id →
    db'.generationKeyGrants.find g = some grant
  paths : ∀ q, (db'.publications.find q).map (·.artifact.path) = (db.publications.find q).map (·.artifact.path)
  removals : ∀ path, .removeArtifact path ∈ db'.onCommit → .removeArtifact path ∈ db.onCommit ∨
    ∃ q r, q ≠ id ∧ db.publications.find q = some r ∧ r.artifact.path = some path
  documentRemovals : ∀ a, .removeDocumentArtifact a ∈ db'.onCommit → .removeDocumentArtifact a ∈ db.onCommit ∨
    ∀ e ∈ db.documents.generation id, e.2.id ≠ a

theorem Db.Spares.refl (id : PublicationId) : db.Spares db id where
  row := rfl
  generation := .refl _ _
  keyGrants _ _ h _ := h
  generationKeyGrants _ _ h _ := h
  paths _ := rfl
  removals _ h := .inl h
  documentRemovals _ h := .inl h

theorem Db.Spares.trans {db₁ db₂ : Db} {id : PublicationId} (h : db.Spares db₁ id) (h' : db₁.Spares db₂ id) :
    db.Spares db₂ id where
  row := h'.row.trans h.row
  generation := h.generation.trans h'.generation
  keyGrants g grant hg hp := h'.keyGrants g grant (h.keyGrants g grant hg hp) hp
  generationKeyGrants g grant hg hp := h'.generationKeyGrants g grant (h.generationKeyGrants g grant hg hp) hp
  paths q := (h'.paths q).trans (h.paths q)
  removals path hm := by
    rcases h'.removals path hm with hm | ⟨q, r, hq, hr, hpath⟩
    · exact h.removals path hm
    · have hold := h.paths q
      rw [hr, Option.map_some, hpath, eq_comm, Option.map_eq_some_iff] at hold
      obtain ⟨r', hr', hpath'⟩ := hold
      exact .inr ⟨q, r', hq, hr', hpath'⟩
  documentRemovals a hm := by
    rcases h'.documentRemovals a hm with hm | hfar
    · exact h.documentRemovals a hm
    · rw [h.generation.generation] at hfar
      exact .inr hfar

theorem find_revokeGrants_other {now : Time} {q : PublicationId} {grants : Table KeyGrant} {g : ℕ} {grant : KeyGrant}
    (hg : grants.find g = some grant) (hne : grant.publication ≠ q) : (revokeGrants now q grants).find g = some grant := by
  unfold Table.find at hg
  simp [revokeGrants, Table.find, hg, hne]

/-- An artifact whose removal a release registers is in no other generation. -/
theorem DocumentTables.release_removed {documents : DocumentTables} {q id : PublicationId} {code : DatasetTypeCode}
    {a : ℕ} (ha : a ∈ (documents.release q code).2) (hne : id ≠ q) :
    ∀ e ∈ documents.generation id, e.2.id ≠ a := by
  rintro ⟨ref, artifact⟩ he rfl
  obtain ⟨r, hr, hfound⟩ := List.mem_filterMap.mp he
  obtain ⟨hmem, hid⟩ := List.mem_filter.mp hr
  obtain ⟨b, hb, hpair⟩ := Option.map_eq_some_iff.mp hfound
  obtain ⟨rfl, rfl⟩ := Prod.mk.inj hpair
  have hart : b.id = r.documentArtifact := by simpa using List.find?_some hb
  have hid : r.publication = id := by simpa using hid
  simp only [DocumentTables.release, List.mem_map, List.mem_filter, decide_eq_true_eq] at ha
  obtain ⟨c, ⟨-, -, hnone⟩, hc⟩ := ha
  have hany : (documents.references.filter fun ref => decide (ref.publication ≠ q)).any
      (fun ref => decide (ref.documentArtifact = c.id)) = true := by
    rw [List.any_eq_true]
    exact ⟨r, by simp [hmem, hid, hne], by simp [← hart, hc]⟩
  exact hnone hany

theorem Db.Spares.release {id q : PublicationId} (hne : id ≠ q) (code : DatasetTypeCode) :
    db.Spares (db.release q code) id where
  row := rfl
  generation := .release _ _ hne
  keyGrants _ _ h _ := h
  generationKeyGrants _ _ h _ := h
  paths _ := rfl
  removals path hm := by
    left
    rcases List.mem_append.mp hm with hm | hm
    · exact hm
    · obtain ⟨a, -, ha⟩ := List.mem_map.mp hm
      cases ha
  documentRemovals a hm := by
    rcases List.mem_append.mp hm with hm | hm
    · exact .inl hm
    · obtain ⟨b, hb, hab⟩ := List.mem_map.mp hm
      cases hab
      have ha : a ∈ (db.documents.release q code).2 := hb
      exact .inr (DocumentTables.release_removed ha hne)

theorem Db.Spares.modifyPublication {id q : PublicationId} (hne : id ≠ q) {f : Publication → Publication}
    (hf : ∀ pub, (f pub).artifact = pub.artifact) : db.Spares (db.modifyPublication q f) id where
  row := by simp [Db.modifyPublication, Ne.symm hne]
  generation := .refl _ _
  keyGrants _ _ h _ := h
  generationKeyGrants _ _ h _ := h
  paths k := by
    by_cases hk : q = k
    · subst hk
      simp [Db.modifyPublication, Function.comp_def, hf]
    · simp [Db.modifyPublication, hk]
  removals _ h := .inl h
  documentRemovals _ h := .inl h

theorem Db.Spares.revoke {id q : PublicationId} (hne : id ≠ q) (now : Time) (pub : Publication) :
    db.Spares (db.revokePublicationDatasetKeyGrants now q pub) id where
  row := rfl
  generation := .refl _ _
  keyGrants g grant hg hp := find_revokeGrants_other hg (by rw [hp]; exact hne)
  generationKeyGrants g grant hg hp := by
    simp only [Db.revokePublicationDatasetKeyGrants]
    split
    · exact hg
    · exact find_revokeGrants_other hg (by rw [hp]; exact hne)
  paths _ := rfl
  removals _ h := .inl h
  documentRemovals _ h := .inl h

theorem Db.Spares.scheduleRemoval {id q : PublicationId} {r : Publication} (hne : id ≠ q)
    (hq : db.publications.find q = some r) : db.Spares (db.scheduleRemoval r.artifact.path) id where
  row := by cases h : r.artifact.path <;> rfl
  generation := by
    cases h : r.artifact.path <;> exact .refl _ _
  keyGrants _ _ h _ := by cases hp : r.artifact.path <;> exact h
  generationKeyGrants _ _ h _ := by cases hp : r.artifact.path <;> exact h
  paths _ := by cases hp : r.artifact.path <;> rfl
  removals path hm := by
    cases hp : r.artifact.path with
    | none =>
      rw [hp] at hm
      exact .inl hm
    | some own =>
      rw [hp] at hm
      rcases List.mem_append.mp hm with hm | hm
      · exact .inl hm
      · cases List.mem_singleton.mp hm
        exact .inr ⟨q, r, hne.symm, hq, hp⟩
  documentRemovals a hm := by
    left
    cases hp : r.artifact.path with
    | none =>
      rw [hp] at hm
      exact hm
    | some own =>
      rw [hp] at hm
      rcases List.mem_append.mp hm with hm | hm
      · exact hm
      · cases List.mem_singleton.mp hm

/-- A verdict on one candidate spares every other publication. -/
theorem Db.retain_spares {id q : PublicationId} (hne : id ≠ q) (now : Time) (outcome : RetentionOutcome) :
    db.Spares (db.retain now q outcome) id := by
  unfold Db.retain
  cases hq : db.publications.find q with
  | none => exact .refl id
  | some pub =>
    cases outcome with
    | skipped => exact .refl id
    | snapshotPurged =>
      have hpurge : db.Spares (db.modifyPublication q fun row => { row with sourceSnapshot := none }) id :=
        .modifyPublication hne fun _ => rfl
      exact hpurge.trans (.release hne _)
    | obsoleted =>
      have hrevoke : db.Spares (db.revokePublicationDatasetKeyGrants now q pub) id := .revoke hne now pub
      have hretire := (hrevoke.trans (.modifyPublication (f := Publication.obsoleted) hne fun _ => rfl)).trans
        (.release hne pub.key.target.datasetTypeCode)
      have hscope : Db.Spares _ (((db.revokePublicationDatasetKeyGrants now q pub).modifyPublication q
          Publication.obsoleted).release q pub.key.target.datasetTypeCode |>.modifyScope pub.scopeState
            (Scope.forgetBuilt q)) id := hretire.trans ⟨rfl, .refl _ _, fun _ _ h _ => h, fun _ _ h _ => h,
              fun _ => rfl, fun _ h => .inl h, fun _ h => .inl h⟩
      have hrow : (((db.revokePublicationDatasetKeyGrants now q pub).modifyPublication q
          Publication.obsoleted).release q pub.key.target.datasetTypeCode |>.modifyScope pub.scopeState
            (Scope.forgetBuilt q)).publications.find q = some pub.obsoleted := by
        change (db.publications.modify q Publication.obsoleted).find q = _
        simp [hq]
      exact hscope.trans (.scheduleRemoval (r := pub.obsoleted) hne hrow)

/-! ### Earlier candidates and later verdicts -/

/-- What the verdicts on other publications can see of a candidate's writes. -/
structure Db.RetainFrame (db db' : Db) (q : PublicationId) : Prop where
  jobs : db'.jobs = db.jobs
  scopes : ∀ i, (db'.scopes.find i).map (fun s => (s.key, s.currentPublishedPublication)) =
    (db.scopes.find i).map fun s => (s.key, s.currentPublishedPublication)
  publications : ∃ f : Publication → Publication, db'.publications = db.publications.modify q f ∧
    ∀ pub, db.publications.find q = some pub → (f pub).scopeState = pub.scopeState ∧
      (f pub).versionNumber = pub.versionNumber ∧ (f pub).status ≠ .superseded
  documents : ∀ k, k ≠ q → SameGeneration k db.documents db'.documents

/-- The verdicts that write, with what they found. -/
theorem Db.retentionOutcome_cases {canonical : Canonical} {q : PublicationId} {now : Time} {outcome : RetentionOutcome}
    (ho : db.retentionOutcome cfg canonical q now = .ok outcome) :
    outcome = .skipped ∨ ∃ pub s, db.publications.find q = some pub ∧ db.scopes.find pub.scopeState = some s ∧
      (db.jobs.any fun job => job.scopeState = pub.scopeState ∧ job.status.isActive) = false ∧
      (outcome = .obsoleted ∧ pub.status = .superseded ∧ s.currentPublishedPublication ≠ some q ∧
          isRetainedPredecessor cfg canonical db pub.scopeState s q = .ok false ∨
        outcome = .snapshotPurged ∧ (pub.status = .failed ∨ pub.status = .cancelled) ∧ pub.sourceSnapshot.isSome = true ∧
          terminalTimestamp pub (db.relatedJob pub.scopeState q) + cfg.terminalSnapshotRetention ≤ now) := by
  unfold Db.retentionOutcome at ho
  cases hp : db.publications.find q with
  | none =>
    rw [hp] at ho
    exact .inl (Except.ok.inj ho).symm
  | some pub =>
    simp only [hp] at ho
    cases hs : db.scopes.find pub.scopeState with
    | none =>
      rw [hs] at ho
      exact .inl (Except.ok.inj ho).symm
    | some s =>
      simp only [hs] at ho
      split_ifs at ho with hlive hst hc hskip
      · exact .inl (Except.ok.inj ho).symm
      · exact .inl (Except.ok.inj ho).symm
      · cases hk : isRetainedPredecessor cfg canonical db pub.scopeState s q with
        | error e =>
          rw [hk] at ho
          cases ho
        | ok kept =>
          rw [hk] at ho
          cases kept with
          | true => exact .inl (Except.ok.inj ho).symm
          | false => exact .inr ⟨pub, s, rfl, hs, by simpa using hlive, .inl ⟨(Except.ok.inj ho).symm, hst, hc, hk⟩⟩
      · exact .inl (Except.ok.inj ho).symm
      · rw [not_or, not_and_or, not_not, not_not, not_or, not_lt] at hskip
        refine .inr ⟨pub, s, rfl, hs, by simpa using hlive, .inr ⟨(Except.ok.inj ho).symm, hskip.1, ?_, hskip.2.2⟩⟩
        simpa [Option.isSome_iff_ne_none] using hskip.2.1

theorem Db.retain_frame {canonical : Canonical} {q : PublicationId} {now : Time} {outcome : RetentionOutcome}
    (ho : db.retentionOutcome cfg canonical q now = .ok outcome) (hne : outcome ≠ .skipped) (t : Time) :
    db.RetainFrame (db.retain t q outcome) q := by
  obtain hskip | ⟨pub, s, hp, hs, -, ⟨rfl, hst, -, -⟩ | ⟨rfl, hst, -, -⟩⟩ := Db.retentionOutcome_cases ho
  · exact absurd hskip hne
  · simp only [Db.retain, hp, Db.retired]
    refine ⟨?_, fun i => ?_, ⟨Publication.obsoleted, ?_, fun r _ => ⟨rfl, rfl, by simp [Publication.obsoleted]⟩⟩, fun k hk => ?_⟩
    · rw [Db.scheduleRemoval_jobs]
      rfl
    · rw [Db.scheduleRemoval_scopes]
      change ((db.scopes.modify pub.scopeState (Scope.forgetBuilt q)).find i).map _ = _
      rw [Table.find_modify]
      split_ifs with hi
      · cases db.scopes.find i with
        | none => rfl
        | some row =>
          simp only [Option.map_some, Scope.forgetBuilt]
          split_ifs <;> rfl
      · rfl
    · rw [Db.scheduleRemoval_publications]
      rfl
    · have hdocs : (Db.retired db t pub.scopeState q pub).documents =
          (db.documents.release q pub.key.target.datasetTypeCode).1 := by
        unfold Db.retired Db.scheduleRemoval
        split <;> rfl
      rw [Db.retired] at hdocs
      rw [hdocs]
      exact .release _ _ hk
  · simp only [Db.retain, hp]
    refine ⟨rfl, fun i => rfl, ⟨_, rfl, fun r hr => ⟨rfl, rfl, ?_⟩⟩, fun k hk => .release _ _ hk⟩
    obtain rfl := Option.some.inj (hp.symm.trans hr)
    rcases hst with h | h <;> simp [h]

section Frame

variable {db' : Db} {canonical : Canonical} {q : PublicationId}

theorem Db.RetainFrame.find (h : db.RetainFrame db' q) {k : PublicationId} (hk : k ≠ q) :
    db'.publications.find k = db.publications.find k := by
  obtain ⟨f, hf, -⟩ := h.publications
  rw [hf, Table.find_modify, if_neg hk.symm]

theorem Db.RetainFrame.uniqueVersions (h : db.RetainFrame db' q) (hu : db.UniqueVersions) : db'.UniqueVersions := by
  obtain ⟨f, hf, hrow⟩ := h.publications
  have hback : ∀ {p pub'}, db'.publications.find p = some pub' → ∃ pub, db.publications.find p = some pub ∧
      pub'.scopeState = pub.scopeState ∧ pub'.versionNumber = pub.versionNumber := by
    intro p pub' hp
    rw [hf, Table.find_modify] at hp
    split_ifs at hp with hqp
    · subst hqp
      obtain ⟨pub, hpub, rfl⟩ := Option.map_eq_some_iff.mp hp
      obtain ⟨hs, hv, -⟩ := hrow pub hpub
      exact ⟨pub, hpub, hs, hv⟩
    · exact ⟨pub', hp, rfl, rfl⟩
  intro p r a b hp hr hs hv
  obtain ⟨a₀, ha, hsa, hva⟩ := hback hp
  obtain ⟨b₀, hb, hsb, hvb⟩ := hback hr
  exact hu p r a₀ b₀ ha hb (by rw [← hsa, hs, hsb]) (by rw [← hva, hv, hvb])

/-- Only the candidate itself stops competing. -/
theorem Db.RetainFrame.competing (h : db.RetainFrame db' q) {i : ScopeId} {s s' : Scope} (hk : s'.key = s.key) :
    db'.publications.entries.filter (db'.competes cfg canonical i s') =
      (db.publications.entries.filter (db.competes cfg canonical i s)).filter fun e => e.1 ≠ q := by
  obtain ⟨f, hf, hrow⟩ := h.publications
  rw [hf]
  refine Table.filter_entries_modify (fun e _ he => ?_) fun pub hq => ?_
  · simp only [Db.competes, restoreBlocked_congr (h.documents e.1 he) hk]
  · obtain ⟨-, -, hst⟩ := hrow pub hq
    simp [Db.competes, hst]

/-- A candidate without a retained place leaves the places of the others as they are. -/
theorem Db.RetainFrame.retained_iff (h : db.RetainFrame db' q) {i : ScopeId} {s s' : Scope} (hkey : s'.key = s.key)
    (hq : ¬db.Retained cfg canonical i s q) {k : PublicationId} (hk : k ≠ q) :
    db'.Retained cfg canonical i s' k ↔ db.Retained cfg canonical i s k := by
  have hwindow : db'.publications.entries.filter (db'.competes cfg canonical i s') =
      (db.publications.entries.filter (db.competes cfg canonical i s)).filter fun e => e.1 ≠ q := h.competing hkey
  have hrank : ∀ e : PublicationId × Publication,
      db'.newerCompeting cfg canonical i s' e < cfg.retainedRollbackPredecessors ↔
        db.newerCompeting cfg canonical i s e < cfg.retainedRollbackPredecessors := by
    intro e
    unfold Db.newerCompeting
    rw [hwindow]
    by_cases hcomp : ∃ pub, db.publications.find q = some pub ∧ db.competes cfg canonical i s (q, pub) = true
    · obtain ⟨pub, hpub, hc⟩ := hcomp
      refine rank_filter_lt_iff (b := (q, pub)) (not_lt.mp fun hlt => hq ⟨pub, hpub, hc, hlt⟩) ?_ e
      rintro ⟨k, r⟩ hmem hkq
      have hkq : k = q := by simpa using hkq
      subst hkq
      have hr := Table.mem_entries.mp (List.mem_filter.mp hmem).1
      rw [Option.some.inj (hpub.symm.trans hr)]
    · have hall : (db.publications.entries.filter (db.competes cfg canonical i s)).filter (fun e => e.1 ≠ q) =
          db.publications.entries.filter (db.competes cfg canonical i s) := by
        rw [List.filter_eq_self]
        rintro ⟨k, r⟩ hmem
        obtain ⟨hr, hc⟩ := List.mem_filter.mp hmem
        have hkq : k ≠ q := by
          rintro rfl
          exact hcomp ⟨r, Table.mem_entries.mp hr, hc⟩
        simpa using hkq
      rw [hall]
  have hcompetes : ∀ pub, db'.competes cfg canonical i s' (k, pub) = db.competes cfg canonical i s (k, pub) := by
    intro pub
    simp only [Db.competes, restoreBlocked_congr (h.documents k hk) hkey]
  unfold Db.Retained
  simp only [h.find hk, hrank, hcompetes]

/-- The recheck of a publication does not see a processed one without a retained place. -/
theorem Db.RetainFrame.isRetained (h : db.RetainFrame db' q) (hu : db.UniqueVersions) {i : ScopeId} {s s' : Scope}
    (hkey : s'.key = s.key) (hq : ¬db.Retained cfg canonical i s q) {k : PublicationId} (hk : k ≠ q) :
    isRetainedPredecessor cfg canonical db' i s' k = isRetainedPredecessor cfg canonical db i s k := by
  have hguard : retentionGuard cfg s' = retentionGuard cfg s := by
    unfold retentionGuard
    rw [hkey]
  rw [isRetainedPredecessor_eq (h.uniqueVersions hu), isRetainedPredecessor_eq hu, hguard]
  exact congrArg (Except.map · _) (funext fun _ => decide_eq_decide.mpr (h.retained_iff hkey hq hk))

theorem Db.competes_row {i : ScopeId} {s : Scope} {e : PublicationId × Publication}
    (h : db.competes cfg canonical i s e = true) : e.2.scopeState = i ∧ e.2.status = .superseded := by
  unfold Db.competes at h
  simp only [decide_eq_true_eq] at h
  exact ⟨h.1, h.2.1⟩

theorem isRetainedPredecessor_ok (hu : db.UniqueVersions) {i : ScopeId} {s : Scope} {kept : Bool}
    (h : isRetainedPredecessor cfg canonical db i s q = .ok kept) :
    kept = true ↔ db.Retained cfg canonical i s q := by
  rw [isRetainedPredecessor_eq hu] at h
  cases hg : retentionGuard cfg s with
  | error e => simp [hg, Except.map] at h
  | ok _ =>
    simp only [hg, Except.map, Except.ok.injEq] at h
    simp [← h]

/-- A verdict that writes is about a version without a retained place. -/
theorem Db.retentionOutcome_not_retained (hu : db.UniqueVersions) {now : Time} {outcome : RetentionOutcome}
    (ho : db.retentionOutcome cfg canonical q now = .ok outcome) (hskip : outcome ≠ .skipped) {i : ScopeId} {s : Scope}
    (hs : db.scopes.find i = some s) : ¬db.Retained cfg canonical i s q := by
  rintro ⟨pub, hp, hc, hlt⟩
  obtain ⟨hi, hsup⟩ := Db.competes_row hc
  obtain hno | ⟨pub', s', hp', hs', -, ⟨-, -, -, hret⟩ | ⟨-, hst, -, -⟩⟩ := Db.retentionOutcome_cases ho
  · exact hskip hno
  · obtain rfl := Option.some.inj (hp.symm.trans hp')
    rw [show pub.scopeState = i from hi] at hs' hret
    obtain rfl := Option.some.inj (hs.symm.trans hs')
    have htrue := (isRetainedPredecessor_ok hu hret).mpr ⟨pub, hp, hc, hlt⟩
    cases htrue
  · obtain rfl := Option.some.inj (hp.symm.trans hp')
    rcases hst with h | h <;> rw [h] at hsup <;> cases hsup

theorem Db.retain_skipped (t : Time) : db.retain t q .skipped = db := by
  unfold Db.retain
  split <;> rfl

theorem Db.retain_uniqueVersions (hu : db.UniqueVersions) {now : Time} {outcome : RetentionOutcome}
    (ho : db.retentionOutcome cfg canonical q now = .ok outcome) (t : Time) :
    (db.retain t q outcome).UniqueVersions := by
  by_cases hskip : outcome = .skipped
  · rw [hskip, Db.retain_skipped]
    exact hu
  · exact (Db.retain_frame ho hskip t).uniqueVersions hu

/-- The verdict on one candidate does not depend on whether another was processed before it. -/
theorem Db.retain_outcome (hu : db.UniqueVersions) {now t : Time} {outcome : RetentionOutcome}
    (ho : db.retentionOutcome cfg canonical q now = .ok outcome) {k : PublicationId} (hk : k ≠ q) :
    (db.retain t q outcome).retentionOutcome cfg canonical k now = db.retentionOutcome cfg canonical k now := by
  by_cases hskip : outcome = .skipped
  · rw [hskip, Db.retain_skipped]
  have hframe := Db.retain_frame ho hskip t
  have hu' := hframe.uniqueVersions hu
  unfold Db.retentionOutcome
  rw [hframe.find hk]
  cases db.publications.find k with
  | none => rfl
  | some pub =>
    have hscope := hframe.scopes pub.scopeState
    have hjob : (db.retain t q outcome).relatedJob pub.scopeState k = db.relatedJob pub.scopeState k := by
      unfold Db.relatedJob
      rw [hframe.jobs]
    cases hs : db.scopes.find pub.scopeState with
    | none =>
      have hs' : (db.retain t q outcome).scopes.find pub.scopeState = none := by simpa [hs] using hscope
      simp only [hs, hs']
    | some s =>
      rw [hs, Option.map_some, Option.map_eq_some_iff] at hscope
      obtain ⟨s', hs', he⟩ := hscope
      obtain ⟨hkey, hcur⟩ := Prod.mk.inj he
      have hret := hframe.isRetained hu hkey (Db.retentionOutcome_not_retained hu ho hskip hs) hk
      simp only [hs, hs', hframe.jobs, hjob, hcur, hret]

end Frame

/-! ### The pass -/

/-- The counts of a list of verdicts on one and the same database. -/
def Db.tally (db : Db) (cfg : Config) (canonical : Canonical) (now : Time) :
    List PublicationId → RetentionResult → Except Error RetentionResult
  | [], result => .ok result
  | id :: rest, result => do
    let outcome ← db.retentionOutcome cfg canonical id now
    db.tally cfg canonical now rest (result.count outcome)

theorem Db.tally_congr {db' : Db} {canonical : Canonical} {now : Time} {ids : List PublicationId}
    (h : ∀ id ∈ ids, db'.retentionOutcome cfg canonical id now = db.retentionOutcome cfg canonical id now)
    (result : RetentionResult) : db'.tally cfg canonical now ids result = db.tally cfg canonical now ids result := by
  induction ids generalizing result with
  | nil => rfl
  | cons id rest ih =>
    simp only [Db.tally, h id List.mem_cons_self]
    exact bind_congr fun outcome => ih (fun k hk => h k (List.mem_cons_of_mem _ hk)) _

/-- A dry run reads every verdict off the database it starts from. -/
theorem processCandidates_dry (now : Time) (ids : List PublicationId) (result : RetentionResult) :
    processCandidates cfg env now true ids result db = (db.tally cfg env.canonical now ids result, db) := by
  induction ids generalizing result with
  | nil => rfl
  | cons id rest ih =>
    have hstep : wp (processCandidate cfg env id now true) _ _ db := wp_processCandidate_outcome id now true
    simp only [processCandidates, Bind.bind, Db.tally, Except.bind]
    unfold wp at hstep
    cases hx : processCandidate cfg env id now true db with
    | mk r db' =>
      rw [hx] at hstep
      cases r with
      | error e =>
        obtain ⟨ho, rfl⟩ := hstep
        simp only [ho]
      | ok outcome =>
        obtain ⟨ho, rfl⟩ := hstep
        simp only [ho]
        exact ih _

/-- A real run counts the verdicts of the database it starts from, whatever it writes. -/
theorem processCandidates_counts (hu : db.UniqueVersions) (now : Time) (ids : List PublicationId) (hnd : ids.Nodup)
    (result : RetentionResult) :
    (processCandidates cfg env now false ids result db).1 = db.tally cfg env.canonical now ids result := by
  induction ids generalizing db result with
  | nil => rfl
  | cons id rest ih =>
    obtain ⟨hid, hrest⟩ := List.nodup_cons.mp hnd
    have hstep : wp (processCandidate cfg env id now false) _ _ db := wp_processCandidate_outcome id now false
    simp only [processCandidates, Bind.bind, Db.tally, Except.bind]
    unfold wp at hstep
    cases hx : processCandidate cfg env id now false db with
    | mk r db' =>
      rw [hx] at hstep
      cases r with
      | error e =>
        obtain ⟨ho, rfl⟩ := hstep
        simp only [ho]
      | ok outcome =>
        obtain ⟨ho, rfl⟩ := hstep
        simp only [ho, Bool.false_eq_true, if_false]
        rw [ih (Db.retain_uniqueVersions hu ho _) hrest]
        exact Db.tally_congr (fun k hk => Db.retain_outcome hu ho fun he => hid (he ▸ hk)) _

/-- The publications a retention pass has to leave alone. -/
inductive Db.Protected (db : Db) (cfg : Config) (canonical : Canonical) (id : PublicationId) : Prop
  | current {pub s} (hp : db.publications.find id = some pub) (hs : db.scopes.find pub.scopeState = some s)
      (hc : s.currentPublishedPublication = some id) (hst : pub.status ≠ .failed ∧ pub.status ≠ .cancelled)
  | liveJob {pub j job} (hp : db.publications.find id = some pub) (hj : db.jobs.find j = some job)
      (hs : job.scopeState = pub.scopeState) (ha : job.status.isActive = true)
  | retained {pub s} (hp : db.publications.find id = some pub) (hs : db.scopes.find pub.scopeState = some s)
      (hr : db.Retained cfg canonical pub.scopeState s id)

section Protection

variable {canonical : Canonical} {id q : PublicationId} {now : Time} {outcome : RetentionOutcome}

/-- No verdict on a protected publication writes. -/
theorem Db.Protected.skipped (h : db.Protected cfg canonical id) (hu : db.UniqueVersions)
    (ho : db.retentionOutcome cfg canonical id now = .ok outcome) : outcome = .skipped := by
  obtain hskip | ⟨pub, s, hp, hs, hlive, hcase⟩ := Db.retentionOutcome_cases ho
  · exact hskip
  exfalso
  cases h with
  | @current pub' s' hp' hs' hc hst =>
    obtain rfl := Option.some.inj (hp.symm.trans hp')
    obtain rfl := Option.some.inj (hs.symm.trans hs')
    rcases hcase with ⟨-, -, hne, -⟩ | ⟨-, hterm, -, -⟩
    · exact hne hc
    · rcases hterm with hf | hf
      · exact hst.1 hf
      · exact hst.2 hf
  | @liveJob pub' j job hp' hj hjs ha =>
    obtain rfl := Option.some.inj (hp.symm.trans hp')
    have := Table.any_eq_false.mp hlive j job hj
    simp [hjs, ha] at this
  | @retained pub' s' hp' hs' hr =>
    obtain rfl := Option.some.inj (hp.symm.trans hp')
    have hwrites : outcome ≠ .skipped := by
      rcases hcase with ⟨rfl, -⟩ | ⟨rfl, -⟩ <;> decide
    exact Db.retentionOutcome_not_retained hu ho hwrites hs' hr

/-- The writes for one candidate leave the protection of the others in force. -/
theorem Db.Protected.retain (h : db.Protected cfg canonical id) (hu : db.UniqueVersions)
    (ho : db.retentionOutcome cfg canonical q now = .ok outcome) (hskip : outcome ≠ .skipped) (t : Time) :
    db.Spares (db.retain t q outcome) id ∧ (db.retain t q outcome).Protected cfg canonical id := by
  have hne : id ≠ q := by
    rintro rfl
    exact hskip (h.skipped hu ho)
  have hframe := Db.retain_frame ho hskip t
  have hscope : ∀ {i s}, db.scopes.find i = some s → ∃ s', (db.retain t q outcome).scopes.find i = some s' ∧
      s'.key = s.key ∧ s'.currentPublishedPublication = s.currentPublishedPublication := by
    intro i s hs
    have hsame := hframe.scopes i
    rw [hs, Option.map_some, Option.map_eq_some_iff] at hsame
    obtain ⟨s', hs', he⟩ := hsame
    exact ⟨s', hs', (Prod.mk.inj he).1, (Prod.mk.inj he).2⟩
  refine ⟨Db.retain_spares hne t outcome, ?_⟩
  cases h with
  | @current pub s hp hs hc hst =>
    obtain ⟨s', hs', -, hcur⟩ := hscope hs
    exact .current ((hframe.find hne).trans hp) hs' (hcur.trans hc) hst
  | @liveJob pub j job hp hj hjs ha =>
    exact .liveJob ((hframe.find hne).trans hp) (by rw [hframe.jobs]; exact hj) hjs ha
  | @retained pub s hp hs hr =>
    obtain ⟨s', hs', hkey, -⟩ := hscope hs
    have hlost := Db.retentionOutcome_not_retained hu ho hskip hs
    exact .retained ((hframe.find hne).trans hp) hs' ((hframe.retained_iff hkey hlost hne).mpr hr)

theorem Db.Protected.processCandidate (h : db.Protected cfg env.canonical id) (hu : db.UniqueVersions) (dryRun : Bool) :
    wp (processCandidate cfg env q now dryRun)
      (fun _ db' => db.Spares db' id ∧ db'.Protected cfg env.canonical id ∧ db'.UniqueVersions)
      (fun _ db' => db' = db) db := by
  refine wp_mono (wp_processCandidate_outcome q now dryRun) ?_ (fun _ _ he => he.2)
  rintro outcome db' ⟨ho, rfl⟩
  by_cases hdry : dryRun = true
  · rw [if_pos hdry]
    exact ⟨.refl id, h, hu⟩
  rw [if_neg hdry]
  have hu' := Db.retain_uniqueVersions hu ho env.now
  by_cases hskip : outcome = .skipped
  · rw [hskip, Db.retain_skipped]
    exact ⟨.refl id, h, hu⟩
  · obtain ⟨hspares, hprotected⟩ := h.retain hu ho hskip env.now
    exact ⟨hspares, hprotected, hu'⟩

theorem Db.Protected.processCandidates (h : db.Protected cfg env.canonical id) (hu : db.UniqueVersions) (dryRun : Bool)
    (ids : List PublicationId) (result : RetentionResult) :
    wp (processCandidates cfg env now dryRun ids result) (fun _ db' => db.Spares db' id)
      (fun _ db' => db.Spares db' id) db := by
  induction ids generalizing db result with
  | nil => exact .refl id
  | cons q rest ih =>
    simp only [Publications.processCandidates, wp_bind]
    refine wp_mono (h.processCandidate hu dryRun) ?_ (fun _ _ he => he ▸ .refl id)
    rintro outcome db₁ ⟨hspares, h₁, hu₁⟩
    exact wp_mono (ih h₁ hu₁ _) (fun _ _ hs => hspares.trans hs) (fun _ _ hs => hspares.trans hs)

theorem Db.Protected.run (h : db.Protected cfg env.canonical id) (hu : db.UniqueVersions) (batchSize : Option ℤ)
    (dryRun : Bool) : db.Spares (exec (runPublicationRetention cfg env batchSize now dryRun) db) id := by
  refine exec_of_wp (P := fun db' => db.Spares db' id) ?_
  simp only [runPublicationRetention, wp_bind, wp_ensure, wp_get, wp_ofExcept]
  exact ⟨fun _ => ⟨fun ids _ => h.processCandidates hu dryRun ids {}, fun _ _ => .refl id⟩, fun _ => .refl id⟩

end Protection

/-! ### Discovery -/

theorem perm_byCreation (rows : List (PublicationId × Publication)) : (byCreation rows).Perm rows :=
  List.perm_insertionSort _ _

theorem mem_map_byCreation {rows : List (PublicationId × Publication)} {id : PublicationId} :
    id ∈ (byCreation rows).map Prod.fst ↔ id ∈ rows.map Prod.fst :=
  ((perm_byCreation rows).map _).mem_iff

/-- The window rank of the discovery and the places of the recheck count the same rows. -/
theorem mem_retainedPredecessorIds (haware : cfg.retentionRestoreAwareEnabled = false) (canonical : Canonical)
    {id : PublicationId} {pub : Publication} (hp : db.publications.find id = some pub) (s : Scope) :
    id ∈ retainedPredecessorIds cfg db ↔ db.Retained cfg canonical pub.scopeState s id := by
  have hcompetes : ∀ i e, db.competes cfg canonical i s e =
      (decide (e.2.isReadyPredecessor = true) && decide (e.2.scopeState = i)) := by
    intro i e
    simp [Db.competes, haware, Publication.isReadyPredecessor, Bool.and_comm]
  have hrank : db.newerCompeting cfg canonical pub.scopeState s (id, pub) + 1 = db.predecessorRank pub := by
    rw [Db.newerCompeting, rank_eq_length, List.filter_filter, Db.predecessorRank, Table.filter]
    congr 2
    refine List.filter_congr fun e _ => ?_
    rw [hcompetes, Bool.eq_iff_iff]
    simp only [Bool.and_eq_true, decide_eq_true_eq]
    tauto
  have hmem : id ∈ retainedPredecessorIds cfg db ↔ pub.isReadyPredecessor = true ∧
      db.predecessorRank pub ≤ cfg.retainedRollbackPredecessors := by
    simp only [retainedPredecessorIds, List.mem_map, List.mem_filter, Prod.exists, Table.mem_filter,
      decide_eq_true_eq]
    constructor
    · rintro ⟨k, r, ⟨⟨hr, hready⟩, hle⟩, rfl⟩
      rw [Option.some.inj (hp.symm.trans hr)]
      exact ⟨hready, hle⟩
    · rintro ⟨hready, hle⟩
      exact ⟨id, pub, ⟨⟨hp, hready⟩, hle⟩, rfl⟩
  rw [hmem, ← hrank]
  constructor
  · rintro ⟨hready, hle⟩
    exact ⟨pub, hp, by simp [hcompetes, hready], by omega⟩
  · rintro ⟨r, hr, hc, hlt⟩
    obtain rfl := Option.some.inj (hp.symm.trans hr)
    rw [hcompetes] at hc
    simp only [Bool.and_eq_true, decide_eq_true_eq] at hc
    exact ⟨hc.1, by omega⟩

/-- What one visit of the restore-aware discovery adds: versions of the visited scopes that the
recheck would not keep, each once, and all of them unless the limit is reached. -/
theorem restoreAwareCandidates_spec (haware : cfg.retentionRestoreAwareEnabled = true) {canonical : Canonical}
    {limit : ℕ} {found ids : List PublicationId} {scopes : List (ScopeId × Scope)}
    (h : restoreAwareCandidates cfg canonical db limit found scopes = .ok ids) (hlen : found.length ≤ limit) :
    ∃ new, ids = found ++ new ∧
      (∀ id ∈ new, ∃ i s pub, (i, s) ∈ scopes ∧ db.publications.find id = some pub ∧ pub.scopeState = i ∧
        pub.status = .superseded ∧ isRetainedPredecessor cfg canonical db i s id = .ok false) ∧
      ((scopes.map Prod.fst).Nodup → new.Nodup) ∧
      (ids.length < limit → ∀ i s, (i, s) ∈ scopes → ∀ id pub, db.publications.find id = some pub →
        pub.scopeState = i → pub.status = .superseded →
        isRetainedPredecessor cfg canonical db i s id = .ok false → id ∈ new) := by
  induction scopes generalizing found with
  | nil =>
    obtain rfl := Except.ok.inj h
    exact ⟨[], by simp, by simp, by simp, by simp⟩
  | cons e rest ih =>
    obtain ⟨i, s⟩ := e
    simp only [restoreAwareCandidates, bind, Except.bind] at h
    cases hsel : selectRestorablePredecessors canonical db i s cfg.retainedRollbackPredecessors with
    | error e => simp [hsel] at h
    | ok kept =>
      simp only [hsel] at h
      have hret : ∀ id, isRetainedPredecessor cfg canonical db i s id = .ok (decide (id ∈ kept.map Prod.fst)) := by
        intro id
        simp only [isRetainedPredecessor, haware, if_true, hsel, bind, Except.bind, pure, Except.pure]
      set rows := (db.publications.filter fun p => p.scopeState = i ∧ p.status = .superseded).filter
        fun e => e.1 ∉ kept.map Prod.fst with hrows
      have hmem : ∀ id, id ∈ (byCreation rows).map Prod.fst ↔ ∃ pub, db.publications.find id = some pub ∧
          pub.scopeState = i ∧ pub.status = .superseded ∧ isRetainedPredecessor cfg canonical db i s id = .ok false := by
        intro id
        rw [mem_map_byCreation, hret]
        simp [hrows, Table.mem_filter, and_assoc]
      have hnodup : ((byCreation rows).map Prod.fst).Nodup :=
        ((perm_byCreation rows).map _).nodup_iff.mpr
          ((Table.nodup_keys_filter _ _).sublist (List.filter_sublist.map _))
      set visit := ((byCreation rows).map Prod.fst).take (limit - found.length) with hvisit
      have hvisit_mem : ∀ id ∈ visit, ∃ pub, db.publications.find id = some pub ∧ pub.scopeState = i ∧
          pub.status = .superseded ∧ isRetainedPredecessor cfg canonical db i s id = .ok false :=
        fun id hid => (hmem id).mp (List.mem_of_mem_take hid)
      have hvisit_nodup : visit.Nodup := hnodup.sublist (List.take_sublist _ _)
      have hlength : visit.length ≤ limit - found.length := List.length_take_le _ _
      split_ifs at h with hfull
      · obtain rfl := Except.ok.inj h
        refine ⟨visit, rfl, fun id hid => ?_, fun _ => hvisit_nodup, fun hlt => absurd hfull hlt.ne⟩
        obtain ⟨pub, hp, hi, hst, hr⟩ := hvisit_mem id hid
        exact ⟨i, s, pub, List.mem_cons_self, hp, hi, hst, hr⟩
      · rw [List.length_append] at hfull
        obtain ⟨new, rfl, hnew, hnd, hall⟩ := ih h (by rw [List.length_append]; omega)
        refine ⟨visit ++ new, by rw [List.append_assoc], fun id hid => ?_, fun hkeys => ?_, fun hlt => ?_⟩
        · rcases List.mem_append.mp hid with hid | hid
          · obtain ⟨pub, hp, hi, hst, hr⟩ := hvisit_mem id hid
            exact ⟨i, s, pub, List.mem_cons_self, hp, hi, hst, hr⟩
          · obtain ⟨k, t, pub, hk, hrest⟩ := hnew id hid
            exact ⟨k, t, pub, List.mem_cons_of_mem _ hk, hrest⟩
        · rw [List.map_cons, List.nodup_cons] at hkeys
          refine List.nodup_append.mpr ⟨hvisit_nodup, hnd hkeys.2, ?_⟩
          rintro id hid k hk rfl
          -- A publication belongs to one scope only, and the remaining scopes are others.
          obtain ⟨pub, hp, hi, -⟩ := hvisit_mem id hid
          obtain ⟨j, t, pub', hj, hp', hj', -⟩ := hnew id hk
          obtain rfl := Option.some.inj (hp.symm.trans hp')
          exact hkeys.1 (List.mem_map.mpr ⟨(j, t), hj, by rw [← hj', hi]⟩)
        · intro k t hk id pub hp hi hst hr
          rcases List.mem_cons.mp hk with hk | hk
          · obtain ⟨rfl, rfl⟩ := Prod.mk.inj hk
            have hin := (hmem id).mpr ⟨pub, hp, hi, hst, hr⟩
            have hwhole : visit = (byCreation rows).map Prod.fst := by
              refine List.take_of_length_le (not_lt.mp fun hlong => ?_)
              have hcut : visit.length = limit - found.length := by
                rw [hvisit, List.length_take]
                omega
              omega
            exact List.mem_append_left _ (hwhole ▸ hin)
          · exact List.mem_append_right _ (hall hlt k t hk id pub hp hi hst hr)

/-- The versions found superseded, and how they relate to the recheck. -/
structure Discovered (db : Db) (cfg : Config) (canonical : Canonical) (limit : ℕ) (ids : List PublicationId) : Prop where
  nodup : ids.Nodup
  superseded : ∀ id ∈ ids, ∃ pub, db.publications.find id = some pub ∧ pub.status = .superseded
  sound : ∀ id pub s, db.publications.find id = some pub → db.scopes.find pub.scopeState = some s → id ∈ ids →
    isRetainedPredecessor cfg canonical db pub.scopeState s id = .ok false
  complete : ids.length < limit → ∀ id pub s, db.publications.find id = some pub → pub.status = .superseded →
    db.scopes.find pub.scopeState = some s →
    isRetainedPredecessor cfg canonical db pub.scopeState s id = .ok false → id ∈ ids

theorem supersededCandidateIds_discovered (hu : db.UniqueVersions) {canonical : Canonical} {limit : ℕ}
    {ids : List PublicationId} (h : supersededCandidateIds cfg canonical db limit = .ok ids) :
    Discovered db cfg canonical limit ids := by
  unfold supersededCandidateIds at h
  by_cases haware : cfg.retentionRestoreAwareEnabled = true
  · rw [if_pos haware] at h
    obtain ⟨new, rfl, hnew, hnd, hall⟩ := restoreAwareCandidates_spec haware h (Nat.zero_le _)
    refine ⟨hnd (db.scopes.nodup_keys.sublist (List.filter_sublist.map _)), fun id hid => ?_,
      fun id pub s hp hs hid => ?_, fun hlt id pub s hp hst hs hr => ?_⟩
    · obtain ⟨i, s, pub, -, hp, -, hst, -⟩ := hnew id hid
      exact ⟨pub, hp, hst⟩
    · obtain ⟨i, t, pub', hi, hp', rfl, -, hr⟩ := hnew id hid
      obtain rfl := Option.some.inj (hp.symm.trans hp')
      have ht := Table.mem_entries.mp (List.mem_filter.mp hi).1
      obtain rfl := Option.some.inj (hs.symm.trans ht)
      exact hr
    · refine hall hlt pub.scopeState s ?_ id pub hp rfl hst hr
      have hany : (db.publications.any fun p => decide (p.scopeState = pub.scopeState ∧ p.status = .superseded)) = true :=
        Table.any_eq_true.mpr ⟨id, pub, hp, by simp [hst]⟩
      exact List.mem_filter.mpr ⟨Table.mem_entries.mpr hs, hany⟩
  · rw [if_neg haware] at h
    rw [Bool.not_eq_true] at haware
    obtain rfl := Except.ok.inj h
    have hkept : ∀ id pub s, db.publications.find id = some pub →
        (isRetainedPredecessor cfg canonical db pub.scopeState s id = .ok false ↔ id ∉ retainedPredecessorIds cfg db) := by
      intro id pub s hp
      rw [isRetainedPredecessor_eq hu, mem_retainedPredecessorIds haware canonical hp s]
      simp [retentionGuard, haware, Except.map]
    have hmem : ∀ id, id ∈ (byCreation ((db.publications.filter fun p => p.status = .superseded).filter
        fun e => e.1 ∉ retainedPredecessorIds cfg db)).map Prod.fst ↔
          ∃ pub, db.publications.find id = some pub ∧ pub.status = .superseded ∧ id ∉ retainedPredecessorIds cfg db := by
      intro id
      rw [mem_map_byCreation]
      simp [Table.mem_filter, and_assoc]
    refine ⟨?_, fun id hid => ?_, fun id pub s hp hs hid => ?_, fun hlt id pub s hp hst hs hr => ?_⟩
    · refine List.Nodup.sublist (List.take_sublist _ _) (((perm_byCreation _).map _).nodup_iff.mpr ?_)
      exact (Table.nodup_keys_filter _ _).sublist (List.filter_sublist.map _)
    · obtain ⟨pub, hp, hst, -⟩ := (hmem id).mp (List.mem_of_mem_take hid)
      exact ⟨pub, hp, hst⟩
    · obtain ⟨pub', -, -, hnot⟩ := (hmem id).mp (List.mem_of_mem_take hid)
      exact (hkept id pub s hp).mpr hnot
    · rw [List.length_take] at hlt
      rw [List.take_of_length_le (by omega), hmem]
      exact ⟨pub, hp, hst, (hkept id pub s hp).mp hr⟩

theorem mem_terminalCandidateIds {now : Time} {limit : ℕ} {id : PublicationId}
    (h : id ∈ terminalCandidateIds cfg db now limit) :
    ∃ pub, db.publications.find id = some pub ∧ (pub.status = .failed ∨ pub.status = .cancelled) := by
  have hmem := List.mem_of_mem_take h
  rw [mem_map_byCreation, List.mem_map] at hmem
  obtain ⟨⟨k, pub⟩, hk, rfl⟩ := hmem
  obtain ⟨hp, hterm⟩ := Table.mem_filter.mp hk
  simp only [decide_eq_true_eq] at hterm
  exact ⟨pub, hp, hterm.1⟩

/-- The superseded part of a batch does not depend on the clock, and what follows it is terminal. -/
theorem candidateIds_spec {canonical : Canonical} {limit : ℕ} {now : Time} {ids : List PublicationId}
    (h : candidateIds cfg canonical db limit now = .ok ids) :
    ∃ superseded terminal, supersededCandidateIds cfg canonical db limit = .ok superseded ∧ ids = superseded ++ terminal ∧
      terminal.Nodup ∧
      ∀ id ∈ terminal, ∃ pub, db.publications.find id = some pub ∧ (pub.status = .failed ∨ pub.status = .cancelled) := by
  simp only [candidateIds, bind, Except.bind] at h
  cases hsup : supersededCandidateIds cfg canonical db limit with
  | error e => simp [hsup] at h
  | ok superseded =>
    simp only [hsup] at h
    split_ifs at h with hfull
    · obtain rfl := Except.ok.inj h
      exact ⟨superseded, [], rfl, by simp, by simp, by simp⟩
    · obtain rfl := Except.ok.inj h
      refine ⟨superseded, _, rfl, rfl, ?_, fun id hid => mem_terminalCandidateIds hid⟩
      refine List.Nodup.sublist (List.take_sublist _ _) (((perm_byCreation _).map _).nodup_iff.mpr ?_)
      exact Table.nodup_keys_filter _ _

theorem candidateIds_nodup (hu : db.UniqueVersions) {canonical : Canonical} {limit : ℕ} {now : Time}
    {ids : List PublicationId} (h : candidateIds cfg canonical db limit now = .ok ids) : ids.Nodup := by
  obtain ⟨superseded, terminal, hsup, rfl, hnd, hterm⟩ := candidateIds_spec h
  have hd := supersededCandidateIds_discovered hu hsup
  refine List.nodup_append.mpr ⟨hd.nodup, hnd, ?_⟩
  rintro id hid k hk rfl
  obtain ⟨pub, hp, hst⟩ := hd.superseded id hid
  obtain ⟨pub', hp', hst'⟩ := hterm id hk
  obtain rfl := Option.some.inj (hp.symm.trans hp')
  rcases hst' with hf | hf <;> rw [hst] at hf <;> cases hf

/-! ### Counts and idle passes -/

theorem RetentionResult.count_obsoleted (result : RetentionResult) (outcome : RetentionOutcome) :
    (result.count outcome).obsoleted = result.obsoleted + if outcome = .obsoleted then 1 else 0 := by
  cases outcome <;> rfl

theorem RetentionResult.count_snapshotsPurged (result : RetentionResult) (outcome : RetentionOutcome) :
    (result.count outcome).snapshotsPurged =
      result.snapshotsPurged + if outcome = .snapshotPurged then 1 else 0 := by
  cases outcome <;> rfl

section Counts

variable {canonical : Canonical} {now : Time} {ids : List PublicationId} {result result' : RetentionResult}

/-- The reported counts are the numbers of the verdicts of each kind. -/
theorem Db.tally_counts (h : db.tally cfg canonical now ids result = .ok result') :
    result'.obsoleted = result.obsoleted +
        ids.countP (fun id => db.retentionOutcome cfg canonical id now = .ok .obsoleted) ∧
      result'.snapshotsPurged = result.snapshotsPurged +
        ids.countP (fun id => db.retentionOutcome cfg canonical id now = .ok .snapshotPurged) := by
  induction ids generalizing result with
  | nil =>
    obtain rfl := Except.ok.inj h
    simp
  | cons id rest ih =>
    simp only [Db.tally, bind, Except.bind] at h
    cases ho : db.retentionOutcome cfg canonical id now with
    | error e => simp [ho] at h
    | ok outcome =>
      simp only [ho] at h
      obtain ⟨h1, h2⟩ := ih h
      rw [h1, h2, RetentionResult.count_obsoleted, RetentionResult.count_snapshotsPurged, List.countP_cons,
        List.countP_cons, ho]
      cases outcome <;> simp <;> omega

/-- A run all of whose verdicts are skips writes nothing. -/
theorem processCandidates_idle
    (h : ∀ id ∈ ids, ∀ outcome, db.retentionOutcome cfg env.canonical id now = .ok outcome → outcome = .skipped)
    (result : RetentionResult) : exec (processCandidates cfg env now false ids result) db = db := by
  refine exec_of_wp (P := fun db' => db' = db) ?_
  induction ids generalizing result with
  | nil => rfl
  | cons id rest ih =>
    simp only [processCandidates, wp_bind]
    refine wp_mono (wp_processCandidate_outcome id now false) ?_ (fun _ _ he => he.2)
    rintro outcome db' ⟨ho, rfl⟩
    rw [h id List.mem_cons_self outcome ho, Db.retain_skipped]
    exact ih (fun k hk => h k (List.mem_cons_of_mem _ hk)) _

/-- Whether a superseded version is retired does not depend on the clock. -/
theorem Db.retentionOutcome_obsoleted_clock {id : PublicationId}
    (h : db.retentionOutcome cfg canonical id now = .ok .obsoleted) (now' : Time) :
    db.retentionOutcome cfg canonical id now' = .ok .obsoleted := by
  obtain hskip | ⟨pub, s, hp, hs, hlive, ⟨-, hst, hne, hret⟩ | ⟨hpurge, -⟩⟩ := Db.retentionOutcome_cases h
  · cases hskip
  · unfold Db.retentionOutcome
    simp only [hp, hs, hlive, hst, hne, hret, Bool.false_eq_true, if_false, if_true]
    rfl
  · cases hpurge

end Counts

/-- A run of the pass, from its batch. -/
theorem runPublicationRetention_eq (batchSize : Option ℤ) (now : Time) (dryRun : Bool) :
    runPublicationRetention cfg env batchSize now dryRun db =
      if 1 ≤ retentionLimit cfg batchSize then
        match candidateIds cfg env.canonical db (retentionLimit cfg batchSize).toNat now with
        | .error e => (.error e, db)
        | .ok ids => processCandidates cfg env now dryRun ids {} db
      else (.error (.valueError "Publication retention batch size must be positive."), db) := by
  unfold runPublicationRetention Tx.ensure
  simp only [Bind.bind, Tx.get, Tx.ofExcept]
  split_ifs with hlimit
  · simp only [pure]
    cases candidateIds cfg env.canonical db (retentionLimit cfg batchSize).toNat now <;> rfl
  · rfl

/-- A pass that returned counted the verdicts on the database it started from. -/
theorem runPublicationRetention_ok (hu : db.UniqueVersions) {batchSize : Option ℤ} {now : Time}
    {result : RetentionResult} {db' : Db}
    (h : runPublicationRetention cfg env batchSize now false db = (.ok result, db')) :
    ∃ ids, candidateIds cfg env.canonical db (retentionLimit cfg batchSize).toNat now = .ok ids ∧
      db.tally cfg env.canonical now ids {} = .ok result ∧
      exec (processCandidates cfg env now false ids {}) db = db' := by
  rw [runPublicationRetention_eq] at h
  split_ifs at h with hlimit
  · cases hids : candidateIds cfg env.canonical db (retentionLimit cfg batchSize).toNat now with
    | error e => simp [hids] at h
    | ok ids =>
      simp only [hids] at h
      have hcounts : (processCandidates cfg env now false ids {} db).1 = _ :=
        processCandidates_counts hu now ids (candidateIds_nodup hu hids) {}
      rw [h] at hcounts
      exact ⟨ids, rfl, hcounts.symm, by rw [exec, h]⟩
  · simp at h

/-- On every database: protected publications are spared, whichever candidate is processed and by
every pass; discovery and recheck agree on the retained versions; a dry run reports what a real
run does; and after an idle pass nothing is retired at any time, and nothing changes at all while
the clock stands. -/
theorem retention_contract (hu : db.UniqueVersions) :
    (∀ id, db.Protected cfg env.canonical id →
      (∀ q now dryRun, db.Spares (exec (processCandidate cfg env q now dryRun) db) id) ∧
      ∀ batchSize now dryRun, db.Spares (exec (runPublicationRetention cfg env batchSize now dryRun) db) id) ∧
    (∀ id pub s, db.publications.find id = some pub → pub.status = .superseded →
      db.scopes.find pub.scopeState = some s →
      (cfg.retentionRestoreAwareEnabled = false → (id ∈ retainedPredecessorIds cfg db ↔
        isRetainedPredecessor cfg env.canonical db pub.scopeState s id = .ok true)) ∧
      ∀ limit ids, supersededCandidateIds cfg env.canonical db limit = .ok ids →
        (id ∈ ids → isRetainedPredecessor cfg env.canonical db pub.scopeState s id = .ok false) ∧
        (ids.length < limit → isRetainedPredecessor cfg env.canonical db pub.scopeState s id = .ok false → id ∈ ids)) ∧
    (∀ batchSize now, (runPublicationRetention cfg env batchSize now true db).2 = db ∧
      (runPublicationRetention cfg env batchSize now true db).1 =
        (runPublicationRetention cfg env batchSize now false db).1) ∧
    ∀ batchSize now result db', runPublicationRetention cfg env batchSize now false db = (.ok result, db') →
      result.obsoleted = 0 → result.snapshotsPurged = 0 →
      db' = db ∧ (∀ n, (exec (runPublicationRetention cfg env batchSize now false))^[n] db = db) ∧
      ∀ now' result' db'', runPublicationRetention cfg env batchSize now' false db = (.ok result', db'') →
        result'.obsoleted = 0 := by
  refine ⟨fun id hid => ⟨fun q now dryRun => ?_, fun batchSize now dryRun => hid.run hu batchSize dryRun⟩,
    fun id pub s hp hst hs => ⟨fun haware => ?_, fun limit ids hids => ?_⟩, fun batchSize now => ?_,
    fun batchSize now result db' hrun hobsoleted hpurged => ?_⟩
  · refine exec_of_wp (P := fun db' => db.Spares db' id) ?_
    exact wp_mono (hid.processCandidate hu dryRun) (fun _ _ h => h.1) (fun _ _ h => h ▸ .refl id)
  · rw [mem_retainedPredecessorIds haware env.canonical hp s, isRetainedPredecessor_eq hu]
    simp [retentionGuard, haware, Except.map]
  · have hd := supersededCandidateIds_discovered hu hids
    exact ⟨hd.sound id pub s hp hs, fun hlt => hd.complete hlt id pub s hp hst hs⟩
  · rw [runPublicationRetention_eq, runPublicationRetention_eq]
    split_ifs with hlimit
    · cases hids : candidateIds cfg env.canonical db (retentionLimit cfg batchSize).toNat now with
      | error e => exact ⟨rfl, rfl⟩
      | ok ids =>
        simp only [processCandidates_dry, processCandidates_counts hu now ids (candidateIds_nodup hu hids)]
        exact ⟨trivial, trivial⟩
    · exact ⟨rfl, rfl⟩
  · obtain ⟨ids, hids, htally, hdb⟩ := runPublicationRetention_ok hu hrun
    obtain ⟨hob, hpu⟩ := Db.tally_counts htally
    have hno_obsoleted : ∀ id ∈ ids, db.retentionOutcome cfg env.canonical id now ≠ .ok .obsoleted := by
      have hzero : ids.countP (fun id => db.retentionOutcome cfg env.canonical id now = .ok .obsoleted) = 0 := by omega
      simpa [List.countP_eq_zero] using hzero
    have hno_purged : ∀ id ∈ ids, db.retentionOutcome cfg env.canonical id now ≠ .ok .snapshotPurged := by
      have hzero : ids.countP (fun id => db.retentionOutcome cfg env.canonical id now = .ok .snapshotPurged) = 0 := by
        omega
      simpa [List.countP_eq_zero] using hzero
    have hidle : exec (processCandidates cfg env now false ids {}) db = db := by
      refine processCandidates_idle (fun id hid outcome ho => ?_) {}
      cases outcome with
      | skipped => rfl
      | obsoleted => exact absurd ho (hno_obsoleted id hid)
      | snapshotPurged => exact absurd ho (hno_purged id hid)
    have hsame : db' = db := hdb.symm.trans hidle
    refine ⟨hsame, fun n => Function.iterate_fixed ?_ n, fun now' result' db'' hrun' => ?_⟩
    · rw [exec, hrun]
      exact hsame
    · obtain ⟨ids', hids', htally', -⟩ := runPublicationRetention_ok hu hrun'
      obtain ⟨hob', -⟩ := Db.tally_counts htally'
      have hzero : ids'.countP (fun id => db.retentionOutcome cfg env.canonical id now' = .ok .obsoleted) = 0 := by
        rw [List.countP_eq_zero]
        intro id hid ho
        simp only [decide_eq_true_eq] at ho
        obtain ⟨superseded, terminal, hsup, rfl, -, -⟩ := candidateIds_spec hids
        obtain ⟨superseded', terminal', hsup', rfl, -, hterm⟩ := candidateIds_spec hids'
        obtain rfl := Except.ok.inj (hsup.symm.trans hsup')
        rcases List.mem_append.mp hid with hid | hid
        · exact hno_obsoleted id (List.mem_append_left _ hid) (Db.retentionOutcome_obsoleted_clock ho now)
        · obtain ⟨pub, hp, hst⟩ := hterm id hid
          obtain hskip | ⟨pub', s, hp', -, -, ⟨-, hsup', -, -⟩ | ⟨hpurge, -⟩⟩ := Db.retentionOutcome_cases ho
          · cases hskip
          · obtain rfl := Option.some.inj (hp.symm.trans hp')
            rcases hst with hf | hf <;> rw [hsup'] at hf <;> cases hf
          · cases hpurge
      omega

/-- Version `n` of the phonebook of department 1, as publication `n - 1`. -/
def phonebookVersion (n schemaVersion : ℕ) (status : PublicationStatus) : Publication where
  scopeState := 0
  key := ⟨.department, phonebookTarget⟩
  versionNumber := n
  schemaVersion := schemaVersion
  sourceRevision := n
  status := status
  artifactReady := true
  artifactStatus := .ready
  artifact := phonebookArtifact (n - 1)
  createdAt := n

/-- A phonebook whose scope points at its third version. The second one was built under a
schema that the registry no longer supports. -/
def droppedSchema : Db where
  scopes := ⟨[{ key := ⟨.department, phonebookTarget⟩, currentPublishedPublication := some 2 }]⟩
  publications := ⟨[phonebookVersion 1 1 .superseded, phonebookVersion 2 9 .superseded, phonebookVersion 3 1 .published]⟩

theorem droppedSchema_uniqueVersions : droppedSchema.UniqueVersions := by
  intro p q pub pub' hp hq _ hv
  have hrows : ∀ e ∈ droppedSchema.publications.entries, ∀ f ∈ droppedSchema.publications.entries,
      e.2.versionNumber = f.2.versionNumber → e.1 = f.1 := by decide +kernel
  exact hrows _ (Table.mem_entries.mpr hp) _ (Table.mem_entries.mpr hq) hv

/-- The dry run on `droppedSchema` announces one retired version, and the real run retires one. -/
theorem droppedSchema_contract :
    (runPublicationRetention { sampleConfig with retentionRestoreAwareEnabled := true } (phonebookEnv 9 0) none 9 true
      droppedSchema).1 = .ok { considered := 1, obsoleted := 1 } ∧
    (runPublicationRetention { sampleConfig with retentionRestoreAwareEnabled := true } (phonebookEnv 9 0) none 9 true
      droppedSchema).1 =
    (runPublicationRetention { sampleConfig with retentionRestoreAwareEnabled := true } (phonebookEnv 9 0) none 9 false
      droppedSchema).1 :=
  ⟨by decide +kernel, ((retention_contract droppedSchema_uniqueVersions).2.2.1 none 9).2⟩

/-- With one retained version, the newest superseded version is retired and an older one kept: it
is not restorable, and the policy protects restorable versions only. -/
theorem newest_superseded_retired :
    sampleConfig.retainedRollbackPredecessors = 1 ∧
    droppedSchema.publications.rows.map (fun p => (p.scopeState, p.versionNumber, p.status)) =
      [(0, 1, .superseded), (0, 2, .superseded), (0, 3, .published)] ∧
    (runPublicationRetention { sampleConfig with retentionRestoreAwareEnabled := true } (phonebookEnv 9 0) none 9 false
      droppedSchema).2.publications.rows.map (fun p => (p.scopeState, p.versionNumber, p.status)) =
        [(0, 1, .superseded), (0, 2, .obsolete), (0, 3, .published)] := by
  decide +kernel

end FireDash.Publications
