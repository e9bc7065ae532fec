import FireDash.Publications.Presentation
import FireDash.Publications.RetentionPass

/-! The presentation preflight for a restore: a batched scan over the versions of many scopes. -/
namespace FireDash.Publications

/-- `DOCUMENT_CANDIDATE_BATCH_SIZE`. -/
def documentCandidateBatchSize : ℕ := 8

/-- A scope row with its identity. -/
abbrev ScopeRow := ScopeId × Scope

/-- A ready superseded version of the scope itself, older than its current one. -/
def Db.isPredecessor (db : Db) (e : ScopeRow) (p : Publication) : Bool :=
  p.key = e.2.key ∧ p.status = .superseded ∧ p.artifactStatus = .ready ∧ p.artifactReady ∧
    ∃ current ∈ db.currentPublication e.2, p.versionNumber < current.versionNumber

/-- The schemas under which a version of a dataset without documents can be restored. -/
def nonDocumentSchemas (definitions : List DatasetTypeDefinition) (p : Publication) : Bool :=
  definitions.any fun d => d.artifactFormat ≠ .documentManifestV2 ∧
    p.key.target.datasetTypeCode = d.code ∧ p.schemaVersion ∈ d.supportedSchemaVersions

/-- The schemas under which a document generation can be restored. -/
def documentSchemas (definitions : List DatasetTypeDefinition) (p : Publication) : Bool :=
  definitions.any fun d => d.artifactFormat = .documentManifestV2 ∧
    d.currentSchemaVersion ∈ d.supportedSchemaVersions ∧
    p.key.target.datasetTypeCode = d.code ∧ p.schemaVersion = d.currentSchemaVersion

/-- A usable version without documents exists below the current one. -/
def Db.nonDocumentExists (db : Db) (definitions : List DatasetTypeDefinition) (e : ScopeRow) : Bool :=
  db.publications.any fun p => p.scopeState = e.1 ∧ db.isPredecessor e p ∧
    nonDocumentSchemas definitions p ∧ p.artifact.path.isSome

def DocumentTables.hasGeneration (documents : DocumentTables) (id : PublicationId) : Bool :=
  documents.manifests.any (·.publication = id) ∧ documents.generationKeys.any (·.publication = id)

/-- The document candidates of a scope, newest first. -/
def Db.documentCandidates (db : Db) (definitions : List DatasetTypeDefinition) (e : ScopeRow) :
    List (PublicationId × Publication) :=
  (db.publicationsByVersion e.1 fun p =>
    db.isPredecessor e p ∧ documentSchemas definitions p ∧ p.artifact.path = none).filter
    fun row => db.documents.hasGeneration row.1

/-- The next candidates of a scope, below its cursor. -/
def Db.documentWindow (db : Db) (definitions : List DatasetTypeDefinition) (cursors : ScopeId → Option ℕ)
    (e : ScopeRow) : List (PublicationId × Publication) :=
  ((db.documentCandidates definitions e).filter (below (·.2.versionNumber) (cursors e.1))).take
    documentCandidateBatchSize

/-- One batch: a window of each scope still pending. -/
def Db.documentBatch (db : Db) (definitions : List DatasetTypeDefinition) (cursors : ScopeId → Option ℕ)
    (pending : List ScopeRow) : List (ScopeRow × PublicationId × Publication) :=
  pending.flatMap fun e => (db.documentWindow definitions cursors e).map fun row => (e, row)

/-- What the scan knows while it reads a batch. -/
structure ScanState where
  counts : ScopeId → ℕ
  cursors : ScopeId → Option ℕ
  eligible : List ScopeId

/-- One row of a batch. A scope already found eligible is not inspected again. -/
def Db.inspect (db : Db) (state : ScanState) (row : ScopeRow × PublicationId × Publication) : Except Error ScanState := do
  let scopeId := row.1.1
  let state :=
    { state with
      counts := Function.update state.counts scopeId (state.counts scopeId + 1)
      cursors := Function.update state.cursors scopeId (some row.2.2.versionNumber) }
  if scopeId ∈ state.eligible then
    return state
  match ← publicationRestorePresentationReason db.documents row.2.1 row.2.2 scopeId row.1.2 true with
  | none => return { state with eligible := state.eligible ++ [scopeId] }
  | some _ => return state

/-- The loop over the batches; `none` means that the bound on their number was too small. -/
def Db.scanDocuments (db : Db) (definitions : List DatasetTypeDefinition) :
    ℕ → (ScopeId → Option ℕ) → List ScopeId → List ScopeRow → Option (Except Error (List ScopeId))
  | 0, _, _, _ => none
  | fuel + 1, cursors, eligible, pending =>
    if pending = [] then some (.ok eligible)
    else
      match (db.documentBatch definitions cursors pending).foldlM db.inspect ⟨fun _ => 0, cursors, eligible⟩ with
      | .error e => some (.error e)
      | .ok state => db.scanDocuments definitions fuel state.cursors state.eligible
          (pending.filter fun e => e.1 ∉ state.eligible ∧ state.counts e.1 = documentCandidateBatchSize)

/-- The scopes asked for that have a current publication. -/
def Db.publishedScopes (db : Db) (scopeIds : List ScopeId) : List ScopeRow :=
  db.scopes.entries.filter fun e => e.1 ∈ scopeIds ∧ e.2.currentPublishedPublication.isSome

/-- The definitions of the dataset types of some scopes. -/
def scopeDefinitions (scopes : List ScopeRow) : Except Error (List DatasetTypeDefinition) :=
  scopes.mapM fun e => getDatasetDefinition e.2.key.target.datasetTypeCode

/-- The dataset type of the scope keeps document generations. -/
def holdsDocuments (definitions : List DatasetTypeDefinition) (e : ScopeRow) : Bool :=
  definitions.any fun d => d.code = e.2.key.target.datasetTypeCode ∧ d.artifactFormat = .documentManifestV2

/-- Stop inspecting a document scope as soon as one valid predecessor is found. This is
deliberately not the locked activation policy used by services. -/
def Db.scopesWithEligiblePredecessor (db : Db) (scopeIds : List ScopeId) (fuel : ℕ) :
    Option (Except Error (List ScopeId)) :=
  let scopes := db.publishedScopes scopeIds
  match scopeDefinitions scopes with
  | .error e => some (.error e)
  | .ok definitions =>
    db.scanDocuments definitions fuel (fun _ => none)
      ((scopes.filter fun e => db.nonDocumentExists definitions e).map Prod.fst)
      (scopes.filter fun e => holdsDocuments definitions e)

variable {db : Db} {definitions : List DatasetTypeDefinition} {d : DatasetTypeDefinition} {scopes : List ScopeRow}
  {e : ScopeRow} {q : PublicationId} {pub : Publication}

/-! ### One batch -/

/-- The check accepts a row of a batch. -/
def Db.Accepts (db : Db) (row : ScopeRow × PublicationId × Publication) : Prop :=
  publicationRestorePresentationReason db.documents row.2.1 row.2.2 row.1.1 row.1.2 true = .ok none

theorem inspect_ok (db : Db) (state : ScanState) {row : ScopeRow × PublicationId × Publication}
    (hd : getDatasetDefinition row.1.2.key.target.datasetTypeCode = .ok d) :
    ∃ state', db.inspect state row = .ok state' ∧
      state'.counts = Function.update state.counts row.1.1 (state.counts row.1.1 + 1) ∧
      state'.cursors = Function.update state.cursors row.1.1 (some row.2.2.versionNumber) ∧
      ∀ i, i ∈ state'.eligible ↔ i ∈ state.eligible ∨ (row.1.1 = i ∧ db.Accepts row) := by
  unfold Db.inspect
  by_cases hmem : row.1.1 ∈ state.eligible
  · rw [if_pos hmem]
    refine ⟨_, rfl, rfl, rfl, fun i => ?_⟩
    constructor
    · exact .inl
    · rintro (h | ⟨rfl, -⟩)
      · exact h
      · exact hmem
  · rw [if_neg hmem]
    obtain ⟨reason, hreason⟩ : ∃ reason,
        publicationRestorePresentationReason db.documents row.2.1 row.2.2 row.1.1 row.1.2 true = .ok reason := by
      unfold publicationRestorePresentationReason
      obtain ⟨reason, hmeta, hkey⟩ : ∃ reason,
          publicationRestoreMetadataBlockedReason row.2.2 row.1.1 row.1.2 true = .ok reason ∧
            (reason = none → row.2.2.key = row.1.2.key) := restoreMetadata_registered hd
      rw [hmeta, ok_bind]
      cases reason with
      | some text => exact ⟨_, rfl⟩
      | none =>
        simp only [hkey rfl, hd, ok_bind]
        split <;> exact ⟨_, rfl⟩
    simp only [hreason, ok_bind]
    cases reason with
    | none =>
      refine ⟨_, rfl, rfl, rfl, fun i => ?_⟩
      simp [Db.Accepts, hreason, eq_comm]
    | some text =>
      refine ⟨_, rfl, rfl, rfl, fun i => ?_⟩
      simp [Db.Accepts, hreason]

/-- What a batch leaves for each scope: its rows counted, its cursor at its last row, and the
scope eligible once a row of it is accepted. -/
theorem inspect_batch (db : Db) (state : ScanState) {batch : List (ScopeRow × PublicationId × Publication)}
    (hd : ∀ row ∈ batch, ∃ d, getDatasetDefinition row.1.2.key.target.datasetTypeCode = .ok d) :
    ∃ state', batch.foldlM db.inspect state = .ok state' ∧
      ∀ i, state'.counts i = state.counts i + (batch.filter (·.1.1 = i)).length ∧
        state'.cursors i = ((batch.filter (·.1.1 = i)).getLast?.map (·.2.2.versionNumber)).or (state.cursors i) ∧
        (i ∈ state'.eligible ↔ i ∈ state.eligible ∨ ∃ row ∈ batch, row.1.1 = i ∧ db.Accepts row) := by
  induction batch generalizing state with
  | nil => exact ⟨state, rfl, fun i => by simp⟩
  | cons row batch ih =>
    rw [List.forall_mem_cons] at hd
    obtain ⟨⟨d, hrow⟩, hrest⟩ := hd
    obtain ⟨next, hnext, hcounts, hcursors, heligible⟩ := inspect_ok db state hrow
    obtain ⟨state', hstate, h⟩ := ih next hrest
    refine ⟨state', ?_, fun i => ?_⟩
    · rw [List.foldlM_cons, hnext]
      exact hstate
    · obtain ⟨hc, hk, he⟩ := h i
      rw [hcounts] at hc
      rw [hcursors] at hk
      by_cases hi : row.1.1 = i
      · subst hi
        rw [Function.update_self] at hc hk
        have hfilter : (row :: batch).filter (fun r => r.1.1 = row.1.1) = row :: batch.filter (fun r => r.1.1 = row.1.1) := by
          simp
        rw [hfilter, List.length_cons, List.getLast?_cons]
        refine ⟨by omega, ?_, ?_⟩
        · rw [hk]
          cases (batch.filter fun r => r.1.1 = row.1.1).getLast? <;> rfl
        · rw [he, heligible]
          simp [or_assoc]
      · rw [Function.update_of_ne (Ne.symm hi)] at hc hk
        have hfilter : (row :: batch).filter (fun r => r.1.1 = i) = batch.filter (fun r => r.1.1 = i) := by
          simp [hi]
        rw [hfilter]
        refine ⟨hc, hk, ?_⟩
        rw [he, heligible]
        simp [hi]

/-- In a batch, the rows of one pending scope are its window. -/
theorem filter_documentBatch {cursors : ScopeId → Option ℕ} {pending : List ScopeRow}
    (hn : (pending.map Prod.fst).Nodup) (he : e ∈ pending) :
    (db.documentBatch definitions cursors pending).filter (·.1.1 = e.1) =
      (db.documentWindow definitions cursors e).map fun row => (e, row) := by
  unfold Db.documentBatch
  induction pending with
  | nil => cases he
  | cons f pending ih =>
    rw [List.map_cons, List.nodup_cons] at hn
    rw [List.flatMap_cons, List.filter_append]
    by_cases hef : f.1 = e.1
    · have hrest : (pending.flatMap fun g => (db.documentWindow definitions cursors g).map fun row => (g, row)).filter
          (·.1.1 = e.1) = [] := by
        rw [List.filter_eq_nil_iff]
        intro row hrow heq
        obtain ⟨g, hg, hrow⟩ := List.mem_flatMap.mp hrow
        obtain ⟨_, -, rfl⟩ := List.mem_map.mp hrow
        refine hn.1 (List.mem_map.mpr ⟨g, hg, ?_⟩)
        rw [hef]
        simpa using heq
      have hsame : e = f := by
        obtain rfl | h := List.mem_cons.mp he
        · rfl
        · exact absurd (List.mem_map.mpr ⟨e, h, hef.symm⟩) hn.1
      subst hsame
      rw [hrest, List.append_nil, List.filter_eq_self]
      intro row hrow
      obtain ⟨_, -, rfl⟩ := List.mem_map.mp hrow
      simp
    · have hfront : ((db.documentWindow definitions cursors f).map fun row => (f, row)).filter (·.1.1 = e.1) = [] := by
        rw [List.filter_eq_nil_iff]
        intro row hrow heq
        obtain ⟨_, -, rfl⟩ := List.mem_map.mp hrow
        exact hef (by simpa using heq)
      rw [hfront, List.nil_append]
      obtain rfl | h := List.mem_cons.mp he
      · exact absurd rfl hef
      · exact ih hn.2 h

/-! ### The run of the scan -/

/-- The database constraint on version numbers within one scope key. -/
def Db.UniqueKeyVersions (db : Db) : Prop :=
  ∀ p q pub pub', db.publications.find p = some pub → db.publications.find q = some pub' →
    pub.key = pub'.key → pub.versionNumber = pub'.versionNumber → p = q

/-- The candidates of a scope that its cursor leaves. -/
def Db.documentRest (db : Db) (definitions : List DatasetTypeDefinition) (cursors : ScopeId → Option ℕ)
    (e : ScopeRow) : List (PublicationId × Publication) :=
  (db.documentCandidates definitions e).filter (below (·.2.versionNumber) (cursors e.1))

theorem mem_documentCandidates {row : PublicationId × Publication} :
    row ∈ db.documentCandidates definitions e ↔ db.publications.find row.1 = some row.2 ∧ row.2.scopeState = e.1 ∧
      db.isPredecessor e row.2 = true ∧ documentSchemas definitions row.2 = true ∧ row.2.artifact.path = none ∧
      db.documents.hasGeneration row.1 = true := by
  unfold Db.documentCandidates Db.publicationsByVersion
  rw [List.mem_filter, List.mem_insertionSort, Table.mem_filter]
  simp [and_assoc]

theorem documentCandidates_sorted (hu : db.UniqueKeyVersions) (definitions : List DatasetTypeDefinition) (e : ScopeRow) :
    (db.documentCandidates definitions e).Pairwise fun a b => b.2.versionNumber < a.2.versionNumber := by
  have hsorted := (publicationsByVersion_sorted db e.1 fun p =>
    db.isPredecessor e p ∧ documentSchemas definitions p ∧ p.artifact.path = none).filter
    fun row => db.documents.hasGeneration row.1
  refine hsorted.imp_of_mem fun {a b} ha hb hab => ?_
  obtain ⟨hfa, -, hpa, -⟩ := mem_documentCandidates.mp ha
  obtain ⟨hfb, -, hpb, -⟩ := mem_documentCandidates.mp hb
  simp only [Db.isPredecessor, decide_eq_true_eq] at hpa hpb
  have hkey : a.2.key = b.2.key := hpa.1.trans hpb.1.symm
  exact lt_of_le_of_ne hab.1 fun heq => hab.2 (hu _ _ _ _ hfa hfb hkey heq.symm)

/-- The progress of the scan over the document scopes `all`: a pending scope has no accepted
candidate above its cursor, and every other scope has its final verdict. -/
structure Scanned (db : Db) (definitions : List DatasetTypeDefinition) (all : List ScopeRow) (found : List ScopeId)
    (cursors : ScopeId → Option ℕ) (eligible : List ScopeId) (pending : List ScopeRow) : Prop where
  sub : pending.Sublist all
  unresolved : ∀ e ∈ pending, e.1 ∉ eligible ∧ ∃ pre,
    db.documentCandidates definitions e = pre ++ db.documentRest definitions cursors e ∧
      ∀ row ∈ pre, ¬db.Accepts (e, row)
  resolved : ∀ e ∈ all, e ∉ pending →
    (e.1 ∈ eligible ↔ ∃ row ∈ db.documentCandidates definitions e, db.Accepts (e, row))
  others : ∀ i, i ∉ all.map Prod.fst → (i ∈ eligible ↔ i ∈ found)

/-- A full window that accepts nothing moves the cursor to its last row. -/
theorem documentRest_advance (hu : db.UniqueKeyVersions) {cursors cursors' : ScopeId → Option ℕ}
    {pre : List (PublicationId × Publication)}
    (hpre : db.documentCandidates definitions e = pre ++ db.documentRest definitions cursors e)
    (hfull : (db.documentWindow definitions cursors e).length = documentCandidateBatchSize)
    (hcursor : cursors' e.1 = ((db.documentWindow definitions cursors e).getLast?.map (·.2.versionNumber)).or
      (cursors e.1)) :
    db.documentRest definitions cursors' e =
      (db.documentRest definitions cursors e).drop documentCandidateBatchSize := by
  have hsplit : db.documentWindow definitions cursors e ++
      (db.documentRest definitions cursors e).drop documentCandidateBatchSize =
      db.documentRest definitions cursors e := List.take_append_drop _ _
  obtain ⟨front, last, hlast⟩ : ∃ front last, db.documentWindow definitions cursors e = front ++ [last] := by
    have hne : db.documentWindow definitions cursors e ≠ [] := by
      intro h
      rw [h] at hfull
      cases hfull
    exact ⟨_, _, (List.dropLast_append_getLast hne).symm⟩
  have hcandidates : db.documentCandidates definitions e = (pre ++ front) ++ last ::
      (db.documentRest definitions cursors e).drop documentCandidateBatchSize := by
    rw [hpre]
    conv_lhs => rw [← hsplit, hlast]
    simp
  have hsorted := documentCandidates_sorted hu definitions e
  rw [hcandidates] at hsorted
  rw [hlast, List.getLast?_append] at hcursor
  have hversion : cursors' e.1 = some last.2.versionNumber := hcursor
  have hrest : db.documentRest definitions cursors' e =
      (db.documentCandidates definitions e).filter (below (·.2.versionNumber) (some last.2.versionNumber)) := by
    rw [← hversion]
    rfl
  rw [hrest, hcandidates]
  exact filter_below hsorted

theorem Scanned.step (hu : db.UniqueKeyVersions) {all : List ScopeRow} (hn : (all.map Prod.fst).Nodup)
    (hd : ∀ e ∈ all, ∃ d, getDatasetDefinition e.2.key.target.datasetTypeCode = .ok d)
    {found eligible : List ScopeId} {cursors : ScopeId → Option ℕ} {pending : List ScopeRow}
    (h : Scanned db definitions all found cursors eligible pending) :
    ∃ state, (db.documentBatch definitions cursors pending).foldlM db.inspect ⟨fun _ => 0, cursors, eligible⟩ =
        .ok state ∧
      Scanned db definitions all found state.cursors state.eligible
        (pending.filter fun e => e.1 ∉ state.eligible ∧ state.counts e.1 = documentCandidateBatchSize) ∧
      ∀ e ∈ pending.filter (fun e => e.1 ∉ state.eligible ∧ state.counts e.1 = documentCandidateBatchSize),
        (db.documentRest definitions state.cursors e).length < (db.documentRest definitions cursors e).length := by
  have hnp : (pending.map Prod.fst).Nodup := hn.sublist (h.sub.map _)
  have hrows : ∀ row ∈ db.documentBatch definitions cursors pending, row.1 ∈ pending := by
    intro row hrow
    obtain ⟨e, he, hrow⟩ := List.mem_flatMap.mp hrow
    obtain ⟨_, -, rfl⟩ := List.mem_map.mp hrow
    exact he
  have hdefined : ∀ row ∈ db.documentBatch definitions cursors pending,
      ∃ d, getDatasetDefinition row.1.2.key.target.datasetTypeCode = .ok d :=
    fun row hrow => hd _ (h.sub.subset (hrows row hrow))
  obtain ⟨state, hstate, hspec⟩ := inspect_batch db ⟨fun _ => 0, cursors, eligible⟩ hdefined
  -- What the batch leaves for one pending scope, in terms of its window.
  have hwindow : ∀ e ∈ pending, state.counts e.1 = (db.documentWindow definitions cursors e).length ∧
      state.cursors e.1 = ((db.documentWindow definitions cursors e).getLast?.map (·.2.versionNumber)).or (cursors e.1) ∧
      (e.1 ∈ state.eligible ↔ ∃ row ∈ db.documentWindow definitions cursors e, db.Accepts (e, row)) := by
    intro e he
    obtain ⟨hc, hk, hel⟩ := hspec e.1
    rw [filter_documentBatch hnp he] at hc hk
    refine ⟨by simpa using hc, ?_, ?_⟩
    · rw [hk, List.getLast?_map, Option.map_map]
      rfl
    · rw [hel]
      have hnot := (h.unresolved e he).1
      constructor
      · rintro (hin | ⟨row, hrow, hi, hacc⟩)
        · exact absurd hin hnot
        · have hmem : row ∈ (db.documentBatch definitions cursors pending).filter (·.1.1 = e.1) :=
            List.mem_filter.mpr ⟨hrow, by simpa using hi⟩
          rw [filter_documentBatch hnp he] at hmem
          obtain ⟨r, hr, rfl⟩ := List.mem_map.mp hmem
          exact ⟨r, hr, hacc⟩
      · rintro ⟨r, hr, hacc⟩
        have hmem : (e, r) ∈ (db.documentBatch definitions cursors pending).filter (·.1.1 = e.1) := by
          rw [filter_documentBatch hnp he]
          exact List.mem_map_of_mem hr
        exact .inr ⟨(e, r), (List.mem_filter.mp hmem).1, rfl, hacc⟩
  have houtside : ∀ i, i ∉ pending.map Prod.fst → (i ∈ state.eligible ↔ i ∈ eligible) := by
    intro i hi
    rw [(hspec i).2.2]
    constructor
    · rintro (hin | ⟨row, hrow, rfl, -⟩)
      · exact hin
      · exact absurd (List.mem_map_of_mem (hrows row hrow)) hi
    · exact .inl
  refine ⟨state, hstate, ⟨List.filter_sublist.trans h.sub, ?_, ?_, ?_⟩, ?_⟩
  · intro e he
    rw [List.mem_filter, decide_eq_true_eq] at he
    obtain ⟨hmem, hnot, hcount⟩ := he
    obtain ⟨hc, hk, hel⟩ := hwindow e hmem
    obtain ⟨-, pre, hpre, hrejected⟩ := h.unresolved e hmem
    rw [hcount] at hc
    refine ⟨hnot, pre ++ db.documentWindow definitions cursors e, ?_, ?_⟩
    · rw [documentRest_advance hu hpre hc.symm hk, List.append_assoc]
      conv_lhs => rw [hpre]
      exact congrArg (pre ++ ·) (List.take_append_drop _ _).symm
    · intro row hrow hacc
      obtain hrow | hrow := List.mem_append.mp hrow
      · exact hrejected row hrow hacc
      · exact hnot (hel.mpr ⟨row, hrow, hacc⟩)
  · intro e he hout
    by_cases hmem : e ∈ pending
    · obtain ⟨hc, -, hel⟩ := hwindow e hmem
      obtain ⟨-, pre, hpre, hrejected⟩ := h.unresolved e hmem
      have hsub : ∀ row ∈ db.documentWindow definitions cursors e, row ∈ db.documentRest definitions cursors e :=
        fun row hrow => List.mem_of_mem_take hrow
      rw [hel, hpre]
      constructor
      · rintro ⟨row, hrow, hacc⟩
        exact ⟨row, List.mem_append_right _ (hsub row hrow), hacc⟩
      · rintro ⟨row, hrow, hacc⟩
        obtain hrow | hrow := List.mem_append.mp hrow
        · exact absurd hacc (hrejected row hrow)
        · -- A scope without an accepted row leaves the scan only with a short window.
          by_contra hnone
          have hnot : e.1 ∉ state.eligible := fun hin => hnone (hel.mp hin)
          have hshort : (db.documentWindow definitions cursors e).length ≠ documentCandidateBatchSize := by
            intro hfull
            refine hout (List.mem_filter.mpr ⟨hmem, ?_⟩)
            rw [decide_eq_true_eq]
            exact ⟨hnot, hc.trans hfull⟩
          have hwhole : db.documentWindow definitions cursors e = db.documentRest definitions cursors e := by
            unfold Db.documentWindow at hshort ⊢
            rw [List.length_take] at hshort
            exact List.take_of_length_le (by omega)
          rw [← hwhole] at hrow
          exact hnone ⟨row, hrow, hacc⟩
    · have hi : e.1 ∉ pending.map Prod.fst := by
        intro hin
        obtain ⟨f, hf, hfe⟩ := List.mem_map.mp hin
        have hsame : f = e := List.inj_on_of_nodup_map hn (h.sub.subset hf) he hfe
        exact hmem (hsame ▸ hf)
      rw [houtside e.1 hi]
      exact h.resolved e he hmem
  · intro i hi
    rw [houtside i fun hin => hi ((h.sub.map _).subset hin)]
    exact h.others i hi
  · intro e he
    rw [List.mem_filter, decide_eq_true_eq] at he
    obtain ⟨hmem, -, hcount⟩ := he
    obtain ⟨hc, hk, -⟩ := hwindow e hmem
    obtain ⟨-, pre, hpre, -⟩ := h.unresolved e hmem
    rw [hcount] at hc
    rw [documentRest_advance hu hpre hc.symm hk, List.length_drop]
    have hlong : documentCandidateBatchSize ≤ (db.documentRest definitions cursors e).length := by
      unfold Db.documentWindow at hc
      rw [List.length_take] at hc
      exact hc.le.trans (Nat.min_le_right _ _)
    have hpos : 0 < documentCandidateBatchSize := by decide
    omega

theorem scanDocuments_resolves (hu : db.UniqueKeyVersions) {all : List ScopeRow} (hn : (all.map Prod.fst).Nodup)
    (hd : ∀ e ∈ all, ∃ d, getDatasetDefinition e.2.key.target.datasetTypeCode = .ok d) {found : List ScopeId} (fuel : ℕ) :
    ∀ {cursors : ScopeId → Option ℕ} {eligible : List ScopeId} {pending : List ScopeRow}, 0 < fuel →
      (∀ e ∈ pending, (db.documentRest definitions cursors e).length + 1 < fuel) →
      Scanned db definitions all found cursors eligible pending →
      ∃ ids cursors', db.scanDocuments definitions fuel cursors eligible pending = some (.ok ids) ∧
        Scanned db definitions all found cursors' ids [] := by
  induction fuel with
  | zero =>
    intro _ _ _ hpos
    omega
  | succ fuel ih =>
    intro cursors eligible pending _ hfuel h
    unfold Db.scanDocuments
    by_cases hdone : pending = []
    · rw [if_pos hdone]
      exact ⟨eligible, cursors, rfl, hdone ▸ h⟩
    · rw [if_neg hdone]
      obtain ⟨state, hstate, hnext, hless⟩ := h.step hu hn hd
      rw [hstate]
      obtain ⟨e, he⟩ := List.exists_mem_of_ne_nil _ hdone
      have hpos := hfuel e he
      refine ih (by omega) (fun f hf => ?_) hnext
      have hlt := hless f hf
      have hbound := hfuel f (List.mem_of_mem_filter hf)
      omega

/-! ### The naive search -/

/-- A superseded version of the scope, older than its current one, that the check presents. -/
structure Db.Presents (db : Db) (e : ScopeRow) (q : PublicationId) (pub : Publication) : Prop where
  row : db.publications.find q = some pub
  older : ∃ current ∈ db.currentPublication e.2, pub.versionNumber < current.versionNumber
  accepted : publicationRestorePresentationReason db.documents q pub e.1 e.2 true = .ok none

/-- Among the definitions of some scopes, a code has its registered definition only. -/
theorem any_definition (hs : scopeDefinitions scopes = .ok definitions) (he : e ∈ scopes)
    (hd : getDatasetDefinition e.2.key.target.datasetTypeCode = .ok d) {p : DatasetTypeDefinition → Bool}
    (hp : ∀ c, p c = true → c.code = e.2.key.target.datasetTypeCode) : definitions.any p = p d := by
  have hall := mapM_eq_ok.mp hs
  have hmem : d ∈ definitions := by
    obtain ⟨c, hc, hec⟩ := exists_right_of_forall₂ hall he
    obtain rfl := Except.ok.inj (hec.symm.trans hd)
    exact hc
  rw [Bool.eq_iff_iff, List.any_eq_true]
  constructor
  · rintro ⟨c, hc, hpc⟩
    obtain ⟨f, -, hf⟩ := exists_left_of_forall₂ hall hc
    rw [← getDatasetDefinition_code hf, hp c hpc] at hf
    obtain rfl := Except.ok.inj (hf.symm.trans hd)
    exact hpc
  · intro hpd
    exact ⟨d, hmem, hpd⟩

theorem holdsDocuments_eq (hs : scopeDefinitions scopes = .ok definitions) (he : e ∈ scopes)
    (hd : getDatasetDefinition e.2.key.target.datasetTypeCode = .ok d) :
    holdsDocuments definitions e = (d.artifactFormat = .documentManifestV2 : Bool) := by
  unfold holdsDocuments
  rw [any_definition hs he hd fun c hc => by simpa using (of_decide_eq_true hc).1]
  simp [getDatasetDefinition_code hd]

/-- Without documents, the existence query is the search by the check. -/
theorem nonDocumentExists_iff (hs : scopeDefinitions scopes = .ok definitions) (he : e ∈ scopes)
    (hd : getDatasetDefinition e.2.key.target.datasetTypeCode = .ok d) :
    db.nonDocumentExists definitions e = true ↔
      d.artifactFormat ≠ .documentManifestV2 ∧ ∃ q pub, db.Presents e q pub := by
  have hschema : ∀ p : Publication, p.key = e.2.key → (nonDocumentSchemas definitions p = true ↔
      d.artifactFormat ≠ .documentManifestV2 ∧ p.schemaVersion ∈ d.supportedSchemaVersions) := by
    intro p hk
    unfold nonDocumentSchemas
    rw [any_definition hs he hd fun c hc => by rw [← hk]; exact (of_decide_eq_true hc).2.1.symm]
    simp [hk, getDatasetDefinition_code hd]
  unfold Db.nonDocumentExists
  rw [Table.any_eq_true]
  constructor
  · rintro ⟨q, pub, hq, hp⟩
    obtain ⟨hi, hpred, hsch, hpath⟩ := of_decide_eq_true hp
    obtain ⟨hk, hst, hready, hart, hold⟩ := of_decide_eq_true hpred
    obtain ⟨hformat, hsupported⟩ := (hschema pub hk).mp hsch
    refine ⟨hformat, q, pub, hq, hold, ?_⟩
    rw [presentationReason_none_iff hd, restoreMetadata_none_iff hd]
    refine ⟨⟨hi, hk, fun _ => hst, hsupported, fun h => absurd h hformat, hart, hready, ?_⟩, fun h => absurd h hformat⟩
    simp only [hformat, iff_false]
    exact Option.isSome_iff_ne_none.mp hpath
  · rintro ⟨hformat, q, pub, hq, hold, hacc⟩
    rw [presentationReason_none_iff hd, restoreMetadata_none_iff hd] at hacc
    obtain ⟨⟨hi, hk, hst, hsupported, -, hart, hready, hpath⟩, -⟩ := hacc
    refine ⟨q, pub, hq, decide_eq_true ⟨hi, decide_eq_true ⟨hk, hst rfl, hready, hart, hold⟩,
      (hschema pub hk).mpr ⟨hformat, hsupported⟩, ?_⟩⟩
    rw [Option.isSome_iff_ne_none]
    exact fun h => hformat (hpath.mp h)

/-- With documents, the accepted candidates are the versions the check presents. -/
theorem accepted_candidate_iff (hs : scopeDefinitions scopes = .ok definitions) (he : e ∈ scopes)
    (hd : getDatasetDefinition e.2.key.target.datasetTypeCode = .ok d)
    (hformat : d.artifactFormat = .documentManifestV2) :
    (∃ row ∈ db.documentCandidates definitions e, db.Accepts (e, row)) ↔ ∃ q pub, db.Presents e q pub := by
  have hschema : ∀ p : Publication, p.key = e.2.key → (documentSchemas definitions p = true ↔
      d.currentSchemaVersion ∈ d.supportedSchemaVersions ∧ p.schemaVersion = d.currentSchemaVersion) := by
    intro p hk
    unfold documentSchemas
    rw [any_definition hs he hd fun c hc => by rw [← hk]; exact (of_decide_eq_true hc).2.2.1.symm]
    simp [hk, getDatasetDefinition_code hd, hformat]
  constructor
  · rintro ⟨row, hrow, hacc⟩
    obtain ⟨hq, -, hpred, -⟩ := mem_documentCandidates.mp hrow
    exact ⟨row.1, row.2, hq, (of_decide_eq_true hpred).2.2.2.2, hacc⟩
  · rintro ⟨q, pub, hq, hold, hacc⟩
    refine ⟨(q, pub), mem_documentCandidates.mpr ?_, hacc⟩
    rw [presentationReason_none_iff hd, restoreMetadata_none_iff hd] at hacc
    obtain ⟨⟨hi, hk, hst, hsupported, hcurrent, hart, hready, hpath⟩, hpresents⟩ := hacc
    have hcurrent := hcurrent hformat
    refine ⟨hq, hi, decide_eq_true ⟨hk, hst rfl, hready, hart, hold⟩,
      (hschema pub hk).mpr ⟨hcurrent ▸ hsupported, hcurrent⟩, hpath.mpr hformat, ?_⟩
    have hgeneration := hpresents hformat
    unfold presentsGeneration DocumentTables.manifestAndKey at hgeneration
    unfold DocumentTables.hasGeneration
    cases hm : db.documents.manifests.find? (·.publication = q) with
    | none => simp [hm] at hgeneration
    | some manifest =>
      cases hkey : db.documents.generationKeys.find? (·.publication = q) with
      | none => simp [hm, hkey] at hgeneration
      | some key =>
        simp only [decide_eq_true_eq, List.any_eq_true]
        have hmp := List.find?_some hm
        have hkp := List.find?_some hkey
        exact ⟨⟨manifest, List.mem_of_find?_eq_some hm, by simpa using hmp⟩,
          key, List.mem_of_find?_eq_some hkey, by simpa using hkp⟩

/-! ### The scan against the search -/

theorem mem_publishedScopes {scopeIds : List ScopeId} : e ∈ db.publishedScopes scopeIds ↔
    db.scopes.find e.1 = some e.2 ∧ e.1 ∈ scopeIds ∧ e.2.currentPublishedPublication.isSome = true := by
  unfold Db.publishedScopes
  rw [List.mem_filter, Table.mem_entries, decide_eq_true_eq]

theorem nodup_publishedScopes (db : Db) (scopeIds : List ScopeId) :
    ((db.publishedScopes scopeIds).map Prod.fst).Nodup :=
  (Table.nodup_keys db.scopes).sublist (List.filter_sublist.map _)

/-- Selecting rows by a predicate selects their keys by it. -/
theorem mem_keys_filter {p : ScopeRow → Bool} (hn : (scopes.map Prod.fst).Nodup) (he : e ∈ scopes) :
    e.1 ∈ (scopes.filter p).map Prod.fst ↔ p e = true := by
  constructor
  · intro hin
    obtain ⟨f, hf, hfe⟩ := List.mem_map.mp hin
    obtain ⟨hfp, hp⟩ := List.mem_filter.mp hf
    obtain rfl := List.inj_on_of_nodup_map hn hfp he hfe
    exact hp
  · intro hp
    exact List.mem_map_of_mem (List.mem_filter.mpr ⟨he, hp⟩)

theorem documentRest_length_le (db : Db) (definitions : List DatasetTypeDefinition) (cursors : ScopeId → Option ℕ)
    (e : ScopeRow) :
    (db.documentRest definitions cursors e).length ≤ db.publications.rows.length := by
  unfold Db.documentRest Db.documentCandidates Db.publicationsByVersion Table.filter
  calc _ ≤ _ := List.length_filter_le _ _
    _ ≤ _ := List.length_filter_le _ _
    _ = _ := List.length_insertionSort _ _
    _ ≤ _ := List.length_filter_le _ _
    _ = db.publications.rows.length := by simp [Table.entries]

/-- Before the first batch nothing is inspected, and the scopes found need no inspection. -/
theorem scanned_initial (hs : scopeDefinitions scopes = .ok definitions) (hn : (scopes.map Prod.fst).Nodup) :
    Scanned db definitions (scopes.filter (holdsDocuments definitions))
      ((scopes.filter (db.nonDocumentExists definitions)).map Prod.fst) (fun _ => none)
      ((scopes.filter (db.nonDocumentExists definitions)).map Prod.fst)
      (scopes.filter (holdsDocuments definitions)) where
  sub := List.Sublist.refl _
  unresolved e he := by
    obtain ⟨hp, hdocs⟩ := List.mem_filter.mp he
    obtain ⟨d, -, hd⟩ := exists_right_of_forall₂ (mapM_eq_ok.mp hs) hp
    rw [holdsDocuments_eq hs hp hd, decide_eq_true_eq] at hdocs
    refine ⟨?_, [], ?_, fun row hrow => ?_⟩
    · rw [mem_keys_filter hn hp, nonDocumentExists_iff hs hp hd]
      exact fun h => h.1 hdocs
    · unfold Db.documentRest
      rw [List.nil_append]
      exact (List.filter_eq_self.mpr fun _ _ => rfl).symm
    · cases hrow
  resolved e he hout := absurd he hout
  others i _ := Iff.rfl

/-- At the end of the scan each scope has the verdict of the search. -/
theorem Scanned.verdict {ids : List ScopeId} {cursors : ScopeId → Option ℕ}
    (h : Scanned db definitions (scopes.filter (holdsDocuments definitions))
      ((scopes.filter (db.nonDocumentExists definitions)).map Prod.fst) cursors ids [])
    (hs : scopeDefinitions scopes = .ok definitions) (hn : (scopes.map Prod.fst).Nodup) (he : e ∈ scopes) :
    e.1 ∈ ids ↔ ∃ q pub, db.Presents e q pub := by
  obtain ⟨d, -, hd⟩ := exists_right_of_forall₂ (mapM_eq_ok.mp hs) he
  have hdocs := holdsDocuments_eq hs he hd
  by_cases hformat : d.artifactFormat = .documentManifestV2
  · have hall : e ∈ scopes.filter (holdsDocuments definitions) :=
      List.mem_filter.mpr ⟨he, by rw [hdocs]; exact decide_eq_true hformat⟩
    rw [h.resolved e hall List.not_mem_nil]
    exact accepted_candidate_iff hs he hd hformat
  · have hout : e.1 ∉ (scopes.filter (holdsDocuments definitions)).map Prod.fst := by
      rw [mem_keys_filter hn he, hdocs, decide_eq_true_eq]
      exact hformat
    rw [h.others _ hout, mem_keys_filter hn he, nonDocumentExists_iff hs he hd]
    exact and_iff_right hformat

/-- With enough fuel the scan returns, and it returns exactly the scopes asked for of which a
superseded version below the current one is presented; it raises only for a dataset type that is
not registered. -/
theorem scopes_with_predecessor (hu : db.UniqueKeyVersions) (scopeIds : List ScopeId) (fuel : ℕ)
    (hfuel : db.publications.rows.length + 1 < fuel) :
    (∃ e, scopeDefinitions (db.publishedScopes scopeIds) = .error e ∧
      db.scopesWithEligiblePredecessor scopeIds fuel = some (.error e)) ∨
    ∃ ids, db.scopesWithEligiblePredecessor scopeIds fuel = some (.ok ids) ∧
      ∀ i, i ∈ ids ↔ i ∈ scopeIds ∧ ∃ s q pub, db.scopes.find i = some s ∧ db.Presents (i, s) q pub := by
  unfold Db.scopesWithEligiblePredecessor
  dsimp only
  have hn := nodup_publishedScopes db scopeIds
  cases hs : scopeDefinitions (db.publishedScopes scopeIds) with
  | error e => exact .inl ⟨e, rfl, rfl⟩
  | ok definitions =>
    refine .inr ?_
    have hregistered : ∀ e ∈ (db.publishedScopes scopeIds).filter (holdsDocuments definitions),
        ∃ d, getDatasetDefinition e.2.key.target.datasetTypeCode = .ok d := by
      intro e he
      obtain ⟨d, -, hd⟩ := exists_right_of_forall₂ (mapM_eq_ok.mp hs) (List.mem_of_mem_filter he)
      exact ⟨d, hd⟩
    have hlength : ∀ e : ScopeRow, (db.documentRest definitions (fun _ => none) e).length + 1 < fuel := by
      intro e
      have hle := documentRest_length_le db definitions (fun _ => none) e
      omega
    obtain ⟨ids, cursors, hids, hfinal⟩ := scanDocuments_resolves hu (hn.sublist (List.filter_sublist.map _))
      hregistered fuel (by omega) (fun e _ => hlength e) (scanned_initial hs hn)
    refine ⟨ids, hids, fun i => ?_⟩
    constructor
    · intro hi
      have hpublished : i ∈ (db.publishedScopes scopeIds).map Prod.fst := by
        by_contra hnone
        have hsub : ∀ p : ScopeRow → Bool, i ∉ ((db.publishedScopes scopeIds).filter p).map Prod.fst :=
          fun p hin => hnone ((List.filter_sublist.map _).subset hin)
        rw [hfinal.others i (hsub _)] at hi
        exact hsub _ hi
      obtain ⟨e, hp, rfl⟩ := List.mem_map.mp hpublished
      obtain ⟨q, pub, hq⟩ := (hfinal.verdict hs hn hp).mp hi
      obtain ⟨hfind, hin, -⟩ := mem_publishedScopes.mp hp
      exact ⟨hin, e.2, q, pub, hfind, hq⟩
    · rintro ⟨hin, s, q, pub, hfind, hq⟩
      have hp : (i, s) ∈ db.publishedScopes scopeIds := by
        refine mem_publishedScopes.mpr ⟨hfind, hin, ?_⟩
        obtain ⟨current, hcurrent, -⟩ := hq.older
        obtain ⟨c, hc, -⟩ := Option.bind_eq_some_iff.mp hcurrent
        exact Option.isSome_iff_exists.mpr ⟨c, hc⟩
      exact (hfinal.verdict hs hn hp).mpr ⟨q, pub, hq⟩

/-- Version `n` of the files of department 1, whose generation is missing. -/
def filesVersion (n : ℕ) (status : PublicationStatus) : Publication where
  scopeState := 1
  key := ⟨.department, ⟨some 1, none, .departmentFiles⟩⟩
  versionNumber := n
  schemaVersion := 2
  sourceRevision := n
  status := status
  artifactReady := true
  artifactStatus := .ready
  createdAt := n

/-- A phonebook and a file library of department 1, each with a superseded version. -/
def missingGeneration : Db where
  scopes := ⟨[{ key := ⟨.department, phonebookTarget⟩, currentPublishedPublication := some 1 },
    { key := ⟨.department, ⟨some 1, none, .departmentFiles⟩⟩, currentPublishedPublication := some 3 }]⟩
  publications := ⟨[phonebookVersion 1 1 .superseded, phonebookVersion 2 1 .published, filesVersion 1 .superseded,
    filesVersion 2 .published]⟩

theorem missingGeneration_unique : missingGeneration.UniqueKeyVersions := by
  intro p q pub pub' hp hq hk hv
  have hrows : ∀ e ∈ missingGeneration.publications.entries, ∀ f ∈ missingGeneration.publications.entries,
      e.2.key = f.2.key → e.2.versionNumber = f.2.versionNumber → e.1 = f.1 := by decide +kernel
  exact hrows _ (Table.mem_entries.mpr hp) _ (Table.mem_entries.mpr hq) hk hv

/-- Of the two scopes of `missingGeneration`, the scan returns the phonebook. -/
theorem missingGeneration_scan :
    missingGeneration.scopesWithEligiblePredecessor [0, 1] 6 = some (.ok [0]) ∧
    ((∃ e, scopeDefinitions (missingGeneration.publishedScopes [0, 1]) = .error e ∧
      missingGeneration.scopesWithEligiblePredecessor [0, 1] 6 = some (.error e)) ∨
    ∃ ids, missingGeneration.scopesWithEligiblePredecessor [0, 1] 6 = some (.ok ids) ∧
      ∀ i, i ∈ ids ↔ i ∈ [0, 1] ∧ ∃ s q pub, missingGeneration.scopes.find i = some s ∧
        missingGeneration.Presents (i, s) q pub) :=
  ⟨by decide +kernel, scopes_with_predecessor missingGeneration_unique [0, 1] 6 (by decide)⟩

/-- The metadata check accepts the superseded file version of `missingGeneration`, which has no
generation, and the scan does not return its scope. -/
theorem metadata_search_differs :
    missingGeneration.UniqueKeyVersions ∧
    missingGeneration.scopesWithEligiblePredecessor [0, 1] 6 = some (.ok [0]) ∧
    ∃ s pub current, missingGeneration.scopes.find 1 = some s ∧ missingGeneration.currentPublication s = some current ∧
      missingGeneration.publications.find 2 = some pub ∧ pub.status = .superseded ∧
      pub.versionNumber < current.versionNumber ∧
      publicationRestoreMetadataBlockedReason pub 1 s true = .ok none :=
  ⟨missingGeneration_unique, by decide +kernel, _, _, _, rfl, rfl, rfl, by decide +kernel⟩

end FireDash.Publications
