import FireDash.Publications.Refinement.Admin

/-! The presentation check of a restore beside the strict policy: what one accepts the other does
not hide, and the services activate only what both accept. -/
namespace FireDash.Publications

/-- The frozen records of a document dataset, by identity. -/
def Publication.frozenRecords (publication : Publication) : Option (List (ℕ × Digest × DocumentRecord)) :=
  match publication.key.target.datasetTypeCode, publication.sourceSnapshot with
  | .departmentFirePlans, some (.firePlans plans) => some (plans.map fun p => (p.id, p.sha256, .firePlan p))
  | .departmentKlgvPlans, some (.klgvPlans plans) => some (plans.map fun p => (p.id, p.sha256, .klgvPlan p))
  | .departmentFirePlans, _ | .departmentKlgvPlans, _ => none
  | _, some (.fileLibrary snapshot) => some (snapshot.documents.map fun e => (e.1.id, e.1.sha256, .file e.1))
  | _, _ => none

/-- What the manifest says of one reference agrees with its artifact and its frozen record. -/
def Publication.presents (publication : Publication) (payload : ManifestPayload)
    (frozen : List (ℕ × Digest × DocumentRecord)) (row : DocumentReference × DocumentArtifact) : Bool :=
  match payload.documents.find? (·.artifactId = row.2.id), frozen.find? (·.1 = row.1.canonicalDocumentId) with
  | some document, some (_, sha256, record) =>
    document.metadata = record ∧ row.2.canonicalDocumentId = row.1.canonicalDocumentId ∧
      row.2.datasetTypeCode = publication.key.target.datasetTypeCode ∧ row.2.sanitizedPdfSha256 = sha256 ∧
      document.ciphertextSha256 = row.2.ciphertextSha256
  | _, _ => false

/-- The conservative presentation check of a document generation: no PDF or ciphertext is read. -/
def presentsGeneration (documents : DocumentTables) (id : PublicationId) (publication : Publication) : Bool :=
  match documents.manifestAndKey id, publication.frozenRecords with
  | .ok (manifest, key), some frozen =>
    let payload := manifest.payload
    let refs := documents.generation id
    publication.artifact.path = none ∧ payload.format = "document-generation-v2" ∧
      payload.datasetType = publication.key.target.datasetTypeCode ∧ payload.publicationId = id ∧
      payload.version = publication.versionNumber ∧ payload.schemaVersion = 2 ∧
      manifest.signatureAlgorithm = "Ed25519" ∧ manifest.signature.length = 64 ∧ manifest.signingKeyVersion ≠ "" ∧
      key.wrappedKey.length = 40 ∧ key.wrappingAlgorithm = "AES-KW-RFC3394" ∧ key.kekVersion ≠ "" ∧
      refs.length = payload.documents.length ∧ (payload.documents.map (·.artifactId)).Nodup ∧
      (payload.documents.map (·.artifactId)).all (· ∈ refs.map (·.2.id)) ∧
      (refs.map (·.2.id)).all (· ∈ payload.documents.map (·.artifactId)) ∧
      (frozen.map Prod.fst).Nodup ∧ frozen.length = refs.length ∧ refs.all (publication.presents payload frozen)
  | _, _ => false

/-- `publication_restore_blocked_reason` without `strict`. -/
def publicationRestorePresentationReason (documents : DocumentTables) (id : PublicationId) (publication : Publication)
    (scopeId : ScopeId) (scope : Scope) (historical : Bool) : Except Error (Option String) := do
  match ← publicationRestoreMetadataBlockedReason publication scopeId scope historical with
  | some reason => return some reason
  | none =>
    let definition ← getDatasetDefinition publication.key.target.datasetTypeCode
    if definition.artifactFormat ≠ .documentManifestV2 then
      return none
    return if presentsGeneration documents id publication then none else some "Incomplete document generation"

variable {db : Db} {d : DatasetTypeDefinition} {q : PublicationId} {pub : Publication}

/-! ### What the checks ask for -/

/-- All that the metadata check asks for. -/
theorem restoreMetadata_none_iff {i : ScopeId} {s : Scope} {historical : Bool}
    (hd : getDatasetDefinition s.key.target.datasetTypeCode = .ok d) :
    publicationRestoreMetadataBlockedReason pub i s historical = .ok none ↔
      pub.scopeState = i ∧ pub.key = s.key ∧ (historical = true → pub.status = .superseded) ∧
        pub.schemaVersion ∈ d.supportedSchemaVersions ∧
        (d.artifactFormat = .documentManifestV2 → pub.schemaVersion = d.currentSchemaVersion) ∧
        pub.artifactReady = true ∧ pub.artifactStatus = .ready ∧
        (pub.artifact.path = none ↔ d.artifactFormat = .documentManifestV2) := by
  unfold publicationRestoreMetadataBlockedReason
  by_cases hscope : pub.scopeState ≠ i ∨ pub.key ≠ s.key ∨ (historical = true ∧ pub.status ≠ .superseded)
  · rw [if_pos hscope]
    simp only [pure, Except.pure]
    constructor
    · intro h
      cases h
    · rintro ⟨hi, hk, hst, -⟩
      obtain h | h | h := hscope
      · exact absurd hi h
      · exact absurd hk h
      · exact absurd (hst h.1) h.2
  · rw [if_neg hscope]
    push Not at hscope
    obtain ⟨hi, hk, hst⟩ := hscope
    rw [hk, hd]
    simp only [bind, Except.bind, pure, Except.pure, beq_iff_eq]
    by_cases hschema : pub.schemaVersion ∉ d.supportedSchemaVersions ∨
        (d.artifactFormat = .documentManifestV2 ∧ pub.schemaVersion ≠ d.currentSchemaVersion)
    · rw [if_pos hschema]
      grind
    · rw [if_neg hschema]
      by_cases hready : ¬pub.artifactReady = true ∨ pub.artifactStatus ≠ .ready
      · rw [if_pos hready]
        grind
      · rw [if_neg hready]
        cases hp : pub.artifact.path <;> grind

theorem presentationReason_none_iff {documents : DocumentTables} {i : ScopeId} {s : Scope} {historical : Bool}
    (hd : getDatasetDefinition s.key.target.datasetTypeCode = .ok d) :
    publicationRestorePresentationReason documents q pub i s historical = .ok none ↔
      publicationRestoreMetadataBlockedReason pub i s historical = .ok none ∧
        (d.artifactFormat = .documentManifestV2 → presentsGeneration documents q pub = true) := by
  unfold publicationRestorePresentationReason
  obtain ⟨reason, hreason, hkey⟩ : ∃ reason,
      publicationRestoreMetadataBlockedReason pub i s historical = .ok reason ∧ (reason = none → pub.key = s.key) :=
    restoreMetadata_registered hd
  rw [hreason, ok_bind]
  cases reason with
  | some text => simp [pure, Except.pure]
  | none =>
    simp only [hkey rfl, hd, ok_bind, true_and]
    by_cases hdoc : d.artifactFormat = .documentManifestV2
    · cases hp : presentsGeneration documents q pub <;> simp [hdoc, pure, Except.pure]
    · simp [hdoc, pure, Except.pure]

/-! ### The strict policy and the presentation -/

/-- The frozen record behind a frozen document. -/
def FrozenDocument.record (document : FrozenDocument) : ℕ × Digest × DocumentRecord :=
  (document.canonicalDocumentId, document.sanitizedPdfSha256, document.metadata)

theorem resolvePlans_records {plans : List AcceptedPlan} {records : List (ℕ × Digest × DocumentRecord)}
    {documents : List FrozenDocument} (h : resolvePlans plans records false = .ok documents) :
    documents.map FrozenDocument.record = records := by
  have hmap := map_of_mapM_ok (g := FrozenDocument.record) (k := id) h fun record document hd => by
    cases hd
    rfl
  rwa [List.map_id] at hmap

theorem frozenPlans_records {canonical : Canonical} {frozen : List FrozenDocument}
    (h : frozenPlans canonical pub false = .ok frozen) :
    pub.frozenRecords = some (frozen.map FrozenDocument.record) ∧
      ((frozen.map FrozenDocument.record).map Prod.fst).Nodup := by
  unfold frozenPlans at h
  obtain ⟨department, -, h⟩ := bind_eq_ok.mp h
  obtain ⟨⟨plans, records⟩, hrecords, h⟩ := bind_eq_ok.mp h
  obtain ⟨hnodup, h⟩ := check_eq_ok.mp h
  obtain ⟨documents, hdocuments, h⟩ := bind_eq_ok.mp h
  obtain ⟨_, -, h⟩ := bind_eq_ok.mp h
  obtain rfl := pure_eq_ok.mp h
  have hmap := resolvePlans_records hdocuments
  rw [hmap]
  refine ⟨?_, not_not.mp hnodup⟩
  unfold planRecords at hrecords
  unfold Publication.frozenRecords
  split at hrecords
  · cases hrecords
    simp_all
  · cases hrecords
    simp_all
  · cases hrecords

theorem frozenFiles_records {documents : DocumentTables} {frozen : List FrozenDocument}
    (hcode : pub.key.target.datasetTypeCode = .departmentFiles ∨ pub.key.target.datasetTypeCode = .stationFiles)
    (h : frozenFiles documents q pub = .ok frozen) :
    pub.frozenRecords = some (frozen.map FrozenDocument.record) ∧
      ((frozen.map FrozenDocument.record).map Prod.fst).Nodup := by
  unfold frozenFiles at h
  obtain ⟨snapshot, hsnapshot, h⟩ := bind_eq_ok.mp h
  obtain ⟨hmembers, h⟩ := check_eq_ok.mp h
  have hmap := map_of_mapM_ok (g := FrozenDocument.record) (k := fun e => (e.1.id, e.1.sha256, .file e.1)) h
    fun entry document hd => by
      dsimp only at hd
      split at hd
      · split at hd
        · rename_i hcontent
          cases hd
          simp [FrozenDocument.record, hcontent.2.1]
        · cases hd
      · cases hd
  rw [hmap]
  constructor
  · unfold frozenLibrary at hsnapshot
    split at hsnapshot
    · rename_i found hfound
      obtain rfl := Except.ok.inj hsnapshot
      unfold Publication.frozenRecords
      rw [hfound]
      obtain hcode | hcode := hcode <;> rw [hcode]
    · cases hsnapshot
  · -- The pins cover as many identities as there are records, so no identity repeats.
    obtain ⟨hlength, hpins, hids⟩ := not_not.mp hmembers
    rw [List.all_eq_true] at hpins hids
    have hperm : ((documents.contents.filter (·.publication = q)).map (·.documentId)).dedup.Perm
        (snapshot.documents.map (·.1.id)).dedup := by
      rw [List.perm_ext_iff_of_nodup (List.nodup_dedup _) (List.nodup_dedup _)]
      intro i
      rw [List.mem_dedup, List.mem_dedup]
      exact ⟨fun hi => of_decide_eq_true (hpins i hi), fun hi => of_decide_eq_true (hids i hi)⟩
    have hdedup : (snapshot.documents.map (·.1.id)).dedup = snapshot.documents.map (·.1.id) := by
      apply (List.dedup_sublist _).eq_of_length
      rw [← hperm.length_eq, hlength, List.length_map]
    have hnodup := List.nodup_dedup (snapshot.documents.map (·.1.id))
    rw [hdedup] at hnodup
    simpa [List.map_map, Function.comp_def] using hnodup

/-- The frozen documents of a generation are its frozen records, with distinct identities. -/
theorem frozenDocuments_records {canonical : Canonical} {documents : DocumentTables} {frozen : List FrozenDocument}
    (h : frozenDocuments canonical documents q pub false = .ok frozen) :
    pub.frozenRecords = some (frozen.map FrozenDocument.record) ∧
      ((frozen.map FrozenDocument.record).map Prod.fst).Nodup := by
  unfold frozenDocuments at h
  split at h
  · rename_i hcode
    exact frozenFiles_records (.inl hcode) h
  · rename_i hcode
    exact frozenFiles_records (.inr hcode) h
  · exact frozenPlans_records h
  · exact frozenPlans_records h
  · cases h

/-- A generation that passes the full validation passes the presentation check. -/
theorem presentsGeneration_of_ready {canonical : Canonical} {documents : DocumentTables}
    (h : validateReadyDocumentGeneration canonical documents q pub true = .ok ()) :
    presentsGeneration documents q pub = true := by
  unfold validateReadyDocumentGeneration at h
  obtain ⟨frozen, hfrozen, h⟩ := bind_eq_ok.mp h
  obtain ⟨⟨manifest, key⟩, hmanifest, h⟩ := bind_eq_ok.mp h
  obtain ⟨hstored, h⟩ := check_eq_ok.mp h
  obtain ⟨hpayload, h⟩ := check_eq_ok.mp h
  obtain ⟨hcounts, h⟩ := check_eq_ok.mp h
  obtain ⟨hunique, h⟩ := check_eq_ok.mp h
  obtain ⟨hmembers, h⟩ := check_eq_ok.mp h
  obtain ⟨hrecords, hnodup⟩ := frozenDocuments_records hfrozen
  push Not at hstored hpayload hcounts
  have hpresents : ∀ row ∈ documents.generation q,
      pub.presents manifest.payload (frozen.map FrozenDocument.record) row = true := by
    intro row hrow
    have hcheck := forM_eq_ok.mp h row hrow
    unfold Publication.presents
    rw [List.find?_map]
    dsimp only at hcheck
    split at hcheck
    · rename_i entry document hentry hdocument
      have hfind : frozen.find? ((fun r => decide (r.1 = row.1.canonicalDocumentId)) ∘ FrozenDocument.record) =
          some entry := hentry
      rw [hdocument, hfind]
      split at hcheck
      · rename_i hmatches
        obtain ⟨-, hmatch, hdescribes⟩ := hmatches
        obtain ⟨hid, hcode, hsha⟩ := of_decide_eq_true hmatch
        obtain ⟨hmeta, hcipher, -⟩ := of_decide_eq_true hdescribes
        exact decide_eq_true ⟨hmeta, hid, hcode, hsha, hcipher⟩
      · cases hcheck
    · cases hcheck
  unfold presentsGeneration
  rw [hmanifest, hrecords]
  obtain ⟨hpath, hwrapped, hwrapping, hkek, halgorithm, hsignature, hversion⟩ := hstored
  obtain ⟨hformat, hdataset, hpub, hschema, hpubversion⟩ := hpayload
  obtain ⟨hart, hpart⟩ := not_not.mp hmembers
  refine decide_eq_true ⟨by simpa using hpath, hformat, hdataset, hpub, hpubversion, hschema, halgorithm, hsignature,
    hversion, hwrapped, hwrapping, hkek, hcounts.1.trans hcounts.2.symm, not_not.mp hunique, hart, hpart, hnodup, ?_, ?_⟩
  · rw [List.length_map, hcounts.1]
  · exact List.all_eq_true.mpr hpresents

theorem presentation_of_strict {canonical : Canonical} {documents : DocumentTables} {i : ScopeId} {s : Scope}
    {historical : Bool} (h : publicationRestoreBlockedReason canonical documents q pub i s historical = .ok none) :
    publicationRestorePresentationReason documents q pub i s historical = .ok none := by
  have hmeta := restoreBlocked_none h
  unfold publicationRestoreBlockedReason at h
  unfold publicationRestorePresentationReason
  rw [hmeta, ok_bind] at h ⊢
  obtain ⟨definition, hd, h⟩ := bind_eq_ok.mp h
  simp only [hd, ok_bind]
  by_cases hformat : definition.artifactFormat ≠ .documentManifestV2
  · rw [if_pos hformat]
    rfl
  · rw [if_neg hformat] at h ⊢
    have hready : validateReadyDocumentGeneration canonical documents q pub true = .ok () := by
      cases hv : validateReadyDocumentGeneration canonical documents q pub true with
      | ok _ => rfl
      | error e =>
        rw [hv] at h
        cases e <;> cases h
    rw [if_pos (presentsGeneration_of_ready hready)]
    rfl

/-! ### What the services activate -/

/-- The strict policy, the metadata check and the presentation accept the version for the scope. -/
def Db.Restorable (db : Db) (canonical : Canonical) (i : ScopeId) (q : PublicationId) : Prop :=
  ∃ s pub, db.scopes.find i = some s ∧ db.publications.find q = some pub ∧
    publicationRestoreBlockedReason canonical db.documents q pub i s true = .ok none ∧
    publicationRestoreMetadataBlockedReason pub i s true = .ok none ∧
    publicationRestorePresentationReason db.documents q pub i s true = .ok none

/-- Every activation between the two databases is of a version restorable in the first. -/
structure Db.RestoresOnly (db : Db) (canonical : Canonical) (t : Db) : Prop where
  activations : ∀ j a, t.activations.find j = some a →
    db.activations.find j = some a ∨ db.Restorable canonical a.scopeState a.publication
  current : ∀ i s', t.scopes.find i = some s' → ∃ s, db.scopes.find i = some s ∧
    (s'.currentPublishedPublication = s.currentPublishedPublication ∨
      ∃ q, s'.currentPublishedPublication = some q ∧ db.Restorable canonical i q)

variable {env : Env} {canonical : Canonical}

theorem Db.RestoresOnly.refl (db : Db) : db.RestoresOnly canonical db where
  activations _ _ ha := .inl ha
  current _ s' hs' := ⟨s', hs', .inl rfl⟩

theorem Db.Restorable.of_strict {i : ScopeId} {s : Scope} (hs : db.scopes.find i = some s)
    (hq : db.publications.find q = some pub)
    (h : publicationRestoreBlockedReason canonical db.documents q pub i s true = .ok none) :
    db.Restorable canonical i q :=
  ⟨s, pub, hs, hq, h, restoreBlocked_none h, presentation_of_strict h⟩

/-- The switch to a restorable version, whatever becomes of the version it replaces. -/
theorem wp_activatePublication_restores {actor : Actor} {i : ScopeId} {s : Scope} (h : db.Restorable env.canonical i q) :
    Tx.wp (activatePublication env actor i s q) (fun _ t => db.RestoresOnly env.canonical t) (fun _ _ => True) db := by
  have hswitch : ∀ t : Db, t.scopes = db.scopes → t.activations = db.activations →
      Tx.wp (switchCurrent actor i s q .rollback (Publication.reactivated env.now actor))
        (fun _ u => db.RestoresOnly env.canonical u) (fun _ _ => True) t := by
    intro t hscopes hactivations
    simp only [switchCurrent, Tx.wp_bind, Tx.wp_modify]
    refine ⟨fun j a ha => ?_, fun k s' hs' => ?_⟩
    · obtain ⟨-, rfl⟩ | ha := Table.find_insert_cases ha
      · exact .inr h
      · exact .inl (hactivations ▸ ha)
    · have hfind : (t.scopes.modify i fun row => { row with currentPublishedPublication := some q }).find k = some s' := hs'
      rw [Table.find_modify, hscopes] at hfind
      by_cases hk : i = k
      · subst hk
        rw [if_pos rfl] at hfind
        obtain ⟨row, hrow, rfl⟩ := Option.map_eq_some_iff.mp hfind
        exact ⟨row, hrow, .inr ⟨q, rfl, h⟩⟩
      · rw [if_neg hk] at hfind
        exact ⟨s', hfind, .inl rfl⟩
  unfold activatePublication supersedeCurrent
  rw [Tx.wp_bind, Tx.wp_whenever]
  refine ⟨fun _ => ?_, fun _ => hswitch db rfl rfl⟩
  cases s.currentPublishedPublication with
  | none => exact hswitch db rfl rfl
  | some previous =>
    simp only [Tx.wp_bind, Tx.wp_get, Tx.wp_require, Tx.wp_modify]
    exact ⟨fun row _ => hswitch _ rfl rfl, fun _ => trivial⟩

theorem rollback_restores {actor : Actor} {p : PublicationId} :
    Tx.wp (rollbackPublication env actor p) (fun _ t => db.RestoresOnly env.canonical t) (fun _ t => t = db) db := by
  simp only [rollbackPublication, Tx.wp_atomic, Tx.wp_bind]
  refine wp_managedPublication (fun pub hp => ?_) (fun _ => trivial)
  simp only [Tx.wp_ofExcept]
  refine ⟨fun _ _ => wp_lockedScope (fun i s hs _ => ?_) (fun _ => trivial), fun _ _ => trivial⟩
  simp only [Tx.wp_get, Tx.wp_ensure, Tx.wp_require, implies_true, and_true]
  intro reason hreason hnone previous _ _
  rw [hnone] at hreason
  exact wp_activatePublication_restores (.of_strict hs hp hreason)

/-- Retiring a version activates nothing. -/
theorem wp_retirePublication_restores {i : ScopeId} {p : PublicationId} {t : Db}
    (h : db.RestoresOnly canonical t) :
    Tx.wp (retirePublication env i p pub) (fun _ u => db.RestoresOnly canonical u) (fun _ _ => True) t := by
  apply wp_retirePublication
  have hscopes : (t.retired env.now i p pub).scopes = t.scopes.modify i (Scope.forgetBuilt p) := by
    unfold Db.retired Db.scheduleRemoval
    cases pub.artifact.path <;> rfl
  have hactivations : (t.retired env.now i p pub).activations = t.activations := by
    unfold Db.retired Db.scheduleRemoval
    cases pub.artifact.path <;> rfl
  refine ⟨fun j a ha => h.activations j a (hactivations ▸ ha), fun k s' hs' => ?_⟩
  rw [hscopes, Table.find_modify] at hs'
  by_cases hk : i = k
  · rw [if_pos hk] at hs'
    obtain ⟨row, hrow, rfl⟩ := Option.map_eq_some_iff.mp hs'
    have hcurrent : (Scope.forgetBuilt p row).currentPublishedPublication = row.currentPublishedPublication := by
      unfold Scope.forgetBuilt
      split <;> rfl
    rw [hcurrent]
    exact h.current k row hrow
  · rw [if_neg hk] at hs'
    exact h.current k s' hs'

theorem delete_restores {actor : Actor} {p : PublicationId} :
    Tx.wp (deletePublication env actor p) (fun _ t => db.RestoresOnly env.canonical t) (fun _ t => t = db) db := by
  simp only [deletePublication, Tx.wp_atomic, Tx.wp_bind]
  refine wp_managedPublication (fun pub hp => ?_) (fun _ => trivial)
  simp only [Tx.wp_ofExcept]
  refine ⟨fun _ _ => wp_lockedScope (fun i s hs _ => ?_) (fun _ => trivial), fun _ _ => trivial⟩
  simp only [Tx.wp_ensure, Tx.wp_ite, Tx.wp_bind]
  refine ⟨fun _ => ⟨fun _ => ?_, fun _ => ?_⟩, fun _ => trivial⟩
  · simp only [activatePredecessor, Tx.wp_bind, Tx.wp_ensure, Tx.wp_get, Tx.wp_ofExcept, Tx.wp_require]
    refine ⟨fun _ => ⟨fun _ => ⟨fun found hfound => ⟨fun row he => ?_, fun _ => trivial⟩,
      fun _ _ => trivial⟩, fun _ => trivial⟩, fun _ => trivial⟩
    rw [he] at hfound
    simp only [Db.eligiblePredecessor] at hfound
    obtain ⟨candidates, hcandidates, hhead⟩ := bind_eq_ok.mp hfound
    obtain ⟨hmem, hstrict⟩ := mem_firstRestorable hcandidates (List.mem_of_head? (pure_eq_ok.mp hhead))
    obtain ⟨hq, -, -⟩ := mem_publicationsByVersion hmem
    exact Tx.wp_mono (wp_activatePublication_restores (.of_strict hs hq hstrict))
      (fun _ _ ht => wp_retirePublication_restores ht) fun _ _ _ => trivial
  · exact ⟨fun _ => wp_retirePublication_restores (.refl db), fun _ => trivial⟩

/-- What the strict policy accepts, the metadata check and the presentation accept too; and a
rollback or the fall-back of a deletion activates only a version that all of them accepted in the
state before it. -/
theorem restore_checks_agree (env : Env) (db : Db) (actor : Actor) (p : PublicationId) :
    (∀ canonical documents id publication i s historical,
      publicationRestoreBlockedReason canonical documents id publication i s historical = .ok none →
        publicationRestoreMetadataBlockedReason publication i s historical = .ok none ∧
        publicationRestorePresentationReason documents id publication i s historical = .ok none) ∧
    Tx.wp (rollbackPublication env actor p) (fun _ t => db.RestoresOnly env.canonical t) (fun _ t => t = db) db ∧
    Tx.wp (deletePublication env actor p) (fun _ t => db.RestoresOnly env.canonical t) (fun _ t => t = db) db :=
  ⟨fun _ _ _ _ _ _ _ h => ⟨restoreBlocked_none h, presentation_of_strict h⟩, rollback_restores, delete_restores⟩

end FireDash.Publications
