import FireDash.Publications.Artifacts

/-! Document generations: the frozen documents of an attempt, their shared encrypted
artifacts, the signed manifest, and the release of a terminal generation. -/
namespace FireDash.Publications

structure FrozenDocument where
  canonicalDocumentId : ℕ
  sanitizedPdfSha256 : Digest
  metadata : DocumentRecord
  acceptedDocumentKey : String
  deriving DecidableEq

/-- Row identity, digest and storage key of the accepted plans of a department. -/
structure AcceptedPlan where
  id : ℕ
  sha256 : Digest
  key : String

def acceptedFirePlans (canonical : Canonical) (department : DepartmentId) : List AcceptedPlan :=
  (canonical.firePlans.filter (·.department = department)).map fun p => ⟨p.id, p.sha256, p.documentKey⟩

def acceptedKlgvPlans (canonical : Canonical) (department : DepartmentId) : List AcceptedPlan :=
  (canonical.klgvPlans.filter (·.department = department)).map fun p => ⟨p.id, p.sha256, p.path⟩

/-- The accepted plan behind each frozen record, all of them with unchanged bytes. -/
def resolvePlans (plans : List AcceptedPlan) (records : List (ℕ × Digest × DocumentRecord))
    (resolve : Bool) : Except Error (List FrozenDocument) :=
  records.mapM fun (id, sha256, metadata) =>
    if resolve then
      match plans.find? fun p => p.id = id with
      | some plan =>
        if plan.sha256 = sha256 then .ok ⟨id, sha256, metadata, plan.key⟩
        else .error (.publicationBuildError "Accepted document hash does not match frozen metadata.")
      | none => .error (.publicationBuildError "Accepted document hash does not match frozen metadata.")
    else .ok ⟨id, sha256, metadata, ""⟩

/-- The checks of a frozen fire-plan record beyond those of its type. -/
def FirePlanRecord.check (record : FirePlanRecord) : Except Error Unit := do
  if record.pageCount = 0 then
    throw (.publicationBuildError "Frozen document page count is invalid.")
  match record.location with
  | some p =>
    if ¬(-180 ≤ p.x ∧ p.x ≤ 180 ∧ -90 ≤ p.y ∧ p.y ≤ 90) then
      throw (.publicationBuildError "Frozen document coordinate is invalid.")
  | none => pure ()

/-- The department of a department-scoped publication. -/
def planDepartment (publication : Publication) : Except Error DepartmentId :=
  match publication.key.target.station, publication.key.target.department, publication.key.scopeType with
  | none, some department, .department => .ok department
  | _, _, _ => .error (.publicationBuildError "Document dataset requires a department scope.")

/-- The accepted plans and the frozen records of a plan dataset. -/
def planRecords (canonical : Canonical) (department : DepartmentId) (publication : Publication) :
    Except Error (List AcceptedPlan × List (ℕ × Digest × DocumentRecord)) :=
  match publication.key.target.datasetTypeCode, publication.sourceSnapshot with
  | .departmentFirePlans, some (.firePlans plans) =>
    .ok (acceptedFirePlans canonical department, plans.map fun p => (p.id, p.sha256, .firePlan p))
  | .departmentKlgvPlans, some (.klgvPlans plans) =>
    .ok (acceptedKlgvPlans canonical department, plans.map fun p => (p.id, p.sha256, .klgvPlan p))
  | _, _ => .error (.publicationBuildError "Frozen document source is unavailable.")

/-- `DocumentDatasetAdapter.frozen_documents` for the two plan datasets. -/
def frozenPlans (canonical : Canonical) (publication : Publication) (resolve : Bool) :
    Except Error (List FrozenDocument) := do
  let department ← planDepartment publication
  let (plans, records) ← planRecords canonical department publication
  if ¬(records.map Prod.fst).Nodup then
    throw (.publicationBuildError "Frozen document source is invalid.")
  let documents ← resolvePlans plans records resolve
  records.forM fun (_, _, metadata) =>
    match metadata with
    | .firePlan record => record.check
    | _ => pure ()
  return documents

def frozenLibrary (publication : Publication) : Except Error LibrarySnapshot :=
  match publication.sourceSnapshot with
  | some (.fileLibrary snapshot) => .ok snapshot
  | _ => .error (.publicationBuildError "Frozen file library is unavailable.")

/-- `FileLibraryAdapter.frozen_documents`: membership comes from the pinned contents. -/
def frozenFiles (documents : DocumentTables) (id : PublicationId) (publication : Publication) :
    Except Error (List FrozenDocument) := do
  let snapshot ← frozenLibrary publication
  let pins := documents.contents.filter (·.publication = id)
  if ¬((pins.map (·.documentId)).dedup.length = snapshot.documents.length ∧
      (pins.map (·.documentId)).all (· ∈ snapshot.documents.map (·.1.id)) ∧
      (snapshot.documents.map (·.1.id)).all (· ∈ pins.map (·.documentId))) then
    throw (.publicationBuildError "Frozen library membership is incomplete.")
  snapshot.documents.mapM fun (entry, content) =>
    match pins.find? fun pin => pin.documentId = entry.id with
    | some pin =>
      if pin.content.id = content ∧ pin.content.sha256 = entry.sha256 ∧
          pin.content.sizeBytes = entry.sizeBytes ∧ pin.content.library = snapshot.library.id then
        .ok ⟨entry.id, pin.content.sha256, .file entry, pin.content.storageKey⟩
      else .error (.publicationBuildError "Frozen library content is invalid.")
    | none => .error (.publicationBuildError "Frozen library membership is incomplete.")

/-- The adapter's `frozen_documents`; only plan adapters consult accepted sources. -/
def frozenDocuments (canonical : Canonical) (documents : DocumentTables) (id : PublicationId)
    (publication : Publication) (resolve : Bool) : Except Error (List FrozenDocument) :=
  match publication.key.target.datasetTypeCode with
  | .departmentFiles | .stationFiles => frozenFiles documents id publication
  | .departmentFirePlans | .departmentKlgvPlans => frozenPlans canonical publication resolve
  | _ => .error (.publicationBuildError "No document-manifest-v2 adapter is registered for this dataset.")

/-- The references of one generation, joined with their artifacts. -/
def DocumentTables.generation (documents : DocumentTables) (id : PublicationId) :
    List (DocumentReference × DocumentArtifact) :=
  (documents.references.filter (·.publication = id)).filterMap fun ref =>
    (documents.artifacts.find? fun a => a.id = ref.documentArtifact).map fun a => (ref, a)

/-- The manifest and the key of one generation. -/
def DocumentTables.manifestAndKey (documents : DocumentTables) (id : PublicationId) :
    Except Error (GenerationManifest × GenerationKey) :=
  match documents.manifests.find? (·.publication = id),
      documents.generationKeys.find? (·.publication = id) with
  | some manifest, some key => .ok (manifest, key)
  | _, _ => .error (.documentV2Error "Publication requires a complete ready document generation.")

/-- The artifact encrypts exactly the frozen document its reference names. -/
def matchesFrozen (publication : Publication) (ref : DocumentReference) (artifact : DocumentArtifact)
    (entry : FrozenDocument) : Bool :=
  artifact.canonicalDocumentId = ref.canonicalDocumentId ∧
    artifact.datasetTypeCode = publication.key.target.datasetTypeCode ∧
    artifact.sanitizedPdfSha256 = entry.sanitizedPdfSha256

/-- One manifest entry agrees field by field with the artifact it describes. -/
def ManifestDocument.describes (document : ManifestDocument) (id : PublicationId) (artifact : DocumentArtifact)
    (entry : FrozenDocument) : Bool :=
  document.metadata = entry.metadata ∧
    document.ciphertextSha256 = artifact.ciphertextSha256 ∧
    document.ciphertextSize = artifact.ciphertextSize ∧
    document.sanitizedPdfSha256 = artifact.sanitizedPdfSha256 ∧
    document.nonce = artifact.nonce ∧
    document.downloadPath = (id, artifact.id) ∧
    document.generationKeyWrappingAlgorithm = "AES-KW-RFC3394" ∧
    document.generationWrappedCek.length = 40 ∧
    document.encryptionAlgorithm = artifact.encryptionAlgorithm ∧
    document.wrappingAlgorithm = artifact.wrappingAlgorithm ∧
    document.kekVersion = artifact.kekVersion ∧
    document.signatureAlgorithm = artifact.signatureAlgorithm ∧
    document.signingKeyVersion = artifact.signingKeyVersion ∧
    document.signature = artifact.signature

/-- The stored metadata of a document artifact is complete. -/
def DocumentArtifact.complete (artifact : DocumentArtifact) : Bool :=
  artifact.artifactPath.isSome ∧ 0 < artifact.ciphertextSize ∧ artifact.ciphertextSha256.isSome ∧
    artifact.nonce.length = 12 ∧ artifact.wrappedCek.length = 40 ∧
    artifact.encryptionAlgorithm = "AES-256-GCM" ∧ artifact.wrappingAlgorithm = "AES-KW-RFC3394" ∧
    artifact.kekVersion ≠ "" ∧ artifact.signature.length = 64 ∧ artifact.signatureAlgorithm = "Ed25519" ∧
    artifact.signingKeyVersion ≠ ""

/-- Validate persisted generation membership before publication closeout. -/
def validateReadyDocumentGeneration (canonical : Canonical) (documents : DocumentTables)
    (id : PublicationId) (publication : Publication) (historical : Bool) : Except Error Unit := do
  let frozen ← frozenDocuments canonical documents id publication (!historical)
  let (manifest, key) ← documents.manifestAndKey id
  if publication.artifact.path.isSome ∨ key.wrappedKey.length ≠ 40 ∨ key.wrappingAlgorithm ≠ "AES-KW-RFC3394" ∨
      key.kekVersion = "" ∨ manifest.signatureAlgorithm ≠ "Ed25519" ∨ manifest.signature.length ≠ 64 ∨
      manifest.signingKeyVersion = "" then
    throw (.documentV2Error "Publication requires a complete ready document generation.")
  let payload := manifest.payload
  if payload.format ≠ "document-generation-v2" ∨ payload.datasetType ≠ publication.key.target.datasetTypeCode ∨
      payload.publicationId ≠ id ∨ payload.schemaVersion ≠ 2 ∨ payload.version ≠ publication.versionNumber then
    throw (.documentV2Error "Document generation manifest is invalid.")
  let refs := documents.generation id
  if refs.length ≠ frozen.length ∨ payload.documents.length ≠ frozen.length then
    throw (.documentV2Error "Document v2 generation membership is incomplete.")
  if ¬(payload.documents.map (·.artifactId)).Nodup then
    throw (.documentV2Error "Invalid or duplicate document artifact identity.")
  if ¬((payload.documents.map (·.artifactId)).all (· ∈ refs.map (·.2.id)) ∧
      (refs.map (·.2.id)).all (· ∈ payload.documents.map (·.artifactId))) then
    throw (.documentV2Error "Document v2 generation membership is incomplete.")
  refs.forM fun (ref, artifact) =>
    match frozen.find? (·.canonicalDocumentId = ref.canonicalDocumentId),
        payload.documents.find? (·.artifactId = artifact.id) with
    | some entry, some document =>
      if artifact.complete ∧ matchesFrozen publication ref artifact entry ∧
          document.describes id artifact entry then Except.ok ()
      else throw (.documentV2Error "Artifact does not match frozen document content.")
    | _, _ => throw (.documentV2Error "Artifact does not match frozen document content.")

/-! ### What a validation reads and raises -/

/-- An error that a restore reports as a reason instead of raising it. -/
def Error.isGenerationError : Error → Bool
  | .documentV2Error _ | .publicationBuildError _ => true
  | _ => false

/-- The computation raises nothing but generation errors. -/
def RaisesGeneration {α : Type} (x : Except Error α) : Prop := ∀ e, x = .error e → e.isGenerationError = true

namespace RaisesGeneration

variable {α β : Type}

theorem ok (a : α) : RaisesGeneration (Except.ok a) := by
  intro e he
  cases he

theorem bind {x : Except Error α} {f : α → Except Error β} (hx : RaisesGeneration x)
    (hf : ∀ a, x = .ok a → RaisesGeneration (f a)) : RaisesGeneration (x >>= f) := by
  intro e he
  cases x with
  | error e' =>
    obtain rfl : e' = e := by simpa [Bind.bind, Except.bind] using he
    exact hx e' rfl
  | ok a => exact hf a rfl e he

theorem mapM {f : α → Except Error β} (l : List α) (hf : ∀ a, RaisesGeneration (f a)) :
    RaisesGeneration (l.mapM f) := by
  induction l with
  | nil => exact ok []
  | cons a l ih =>
    rw [List.mapM_cons]
    exact bind (hf a) fun _ _ => bind ih fun _ _ => ok _

theorem forM {f : α → Except Error Unit} (l : List α) (hf : ∀ a, RaisesGeneration (f a)) :
    RaisesGeneration (l.forM f) := by
  induction l with
  | nil => exact ok ()
  | cons a l ih =>
    have hcons : (a :: l).forM f = (f a >>= fun _ => l.forM f) := rfl
    rw [hcons]
    exact bind (hf a) fun _ _ => ih

/-- A check that raises a generation error before the rest. -/
theorem check {c : Prop} [Decidable c] {e : Error} {x : Except Error α} (he : e.isGenerationError = true)
    (hx : RaisesGeneration x) : RaisesGeneration (if c then (throw e >>= fun _ : PUnit => x) else x) := by
  split
  · intro e' he'
    cases he'
    exact he
  · exact hx

end RaisesGeneration

theorem frozenPlans_raises (canonical : Canonical) (publication : Publication) (resolve : Bool) :
    RaisesGeneration (frozenPlans canonical publication resolve) := by
  unfold frozenPlans
  refine .bind ?_ fun department _ => .bind ?_ fun plans _ => ?_
  · intro e he
    unfold planDepartment at he
    split at he <;> cases he
    rfl
  · intro e he
    unfold planRecords at he
    split at he <;> cases he
    rfl
  · refine .check rfl (.bind (.mapM _ fun record => ?_) fun documents _ =>
      .bind (.forM _ fun record => ?_) fun _ _ => .ok _)
    · intro e he
      dsimp only at he
      split at he
      · split at he
        · split at he <;> cases he
          rfl
        · cases he
          rfl
      · cases he
    · dsimp only
      split
      · refine .check rfl ?_
        split
        · split
          · intro e he
            cases he
            rfl
          · exact .ok ()
        · exact .ok ()
      · exact .ok ()

theorem frozenDocuments_raises (canonical : Canonical) (documents : DocumentTables) (id : PublicationId)
    (publication : Publication) (resolve : Bool) :
    RaisesGeneration (frozenDocuments canonical documents id publication resolve) := by
  have hfiles : RaisesGeneration (frozenFiles documents id publication) := by
    unfold frozenFiles
    refine .bind ?_ fun snapshot _ => ?_
    · intro e he
      unfold frozenLibrary at he
      split at he <;> cases he
      rfl
    · refine .check rfl (.mapM _ fun entry => ?_)
      intro e he
      dsimp only at he
      split at he
      · split at he <;> cases he
        rfl
      · cases he
        rfl
  unfold frozenDocuments
  split
  · exact hfiles
  · exact hfiles
  · exact frozenPlans_raises canonical publication resolve
  · exact frozenPlans_raises canonical publication resolve
  · intro e he
    cases he
    rfl

theorem validateReadyDocumentGeneration_raises (canonical : Canonical) (documents : DocumentTables)
    (id : PublicationId) (publication : Publication) (historical : Bool) :
    RaisesGeneration (validateReadyDocumentGeneration canonical documents id publication historical) := by
  have hthrow : ∀ message, RaisesGeneration (throw (.documentV2Error message) : Except Error Unit) := by
    intro message e he
    cases he
    rfl
  unfold validateReadyDocumentGeneration
  refine .bind (frozenDocuments_raises _ _ _ _ _) fun frozen _ => .bind ?_ fun found _ => ?_
  · intro e he
    unfold DocumentTables.manifestAndKey at he
    split at he <;> cases he
    rfl
  · refine .check rfl (.check rfl (.check rfl (.check rfl (.check rfl (.forM _ fun row => ?_)))))
    dsimp only
    split
    · split
      · exact .ok ()
      · exact hthrow _
    · exact hthrow _

/-- The document rows of one publication are the same in both tables. -/
structure SameGeneration (id : PublicationId) (documents documents' : DocumentTables) : Prop where
  generation : documents'.generation id = documents.generation id
  contents : documents'.contents.filter (·.publication = id) = documents.contents.filter (·.publication = id)
  manifest : documents'.manifests.find? (·.publication = id) = documents.manifests.find? (·.publication = id)
  key : documents'.generationKeys.find? (·.publication = id) =
    documents.generationKeys.find? (·.publication = id)

theorem SameGeneration.refl (id : PublicationId) (documents : DocumentTables) :
    SameGeneration id documents documents := ⟨rfl, rfl, rfl, rfl⟩

theorem SameGeneration.trans {id : PublicationId} {d₁ d₂ d₃ : DocumentTables} (h : SameGeneration id d₁ d₂)
    (h' : SameGeneration id d₂ d₃) : SameGeneration id d₁ d₃ :=
  ⟨h'.1.trans h.1, h'.2.trans h.2, h'.3.trans h.3, h'.4.trans h.4⟩

/-- A validation reads the rows of its own generation only. -/
theorem SameGeneration.validate {id : PublicationId} {documents documents' : DocumentTables}
    (h : SameGeneration id documents documents') (canonical : Canonical) (publication : Publication)
    (historical : Bool) :
    validateReadyDocumentGeneration canonical documents' id publication historical =
      validateReadyDocumentGeneration canonical documents id publication historical := by
  have hfiles : frozenFiles documents' id publication = frozenFiles documents id publication := by
    simp only [frozenFiles, h.contents]
  have hfrozen : ∀ resolve, frozenDocuments canonical documents' id publication resolve =
      frozenDocuments canonical documents id publication resolve := by
    intro resolve
    simp only [frozenDocuments, hfiles]
  simp only [validateReadyDocumentGeneration, hfrozen, DocumentTables.manifestAndKey, h.manifest, h.key,
    h.generation]

/-! ### Building a generation -/

/-- Ciphertext verification before a reusable row is trusted. -/
def validateDocumentArtifactStorage (crypto : Crypto) (worker : WorkerEnv) (artifact : DocumentArtifact) :
    Except Error Unit := do
  if artifact.artifactPath ≠ some (documentArtifactRelativePath artifact.id) then
    throw (.documentV2Error "Document ciphertext path is invalid.")
  match worker.storedCiphertext (documentArtifactRelativePath artifact.id) with
  | none => throw (.documentV2Error "Document ciphertext is unavailable or invalid.")
  | some ciphertext =>
    -- Raised while streaming, the size mismatch is reported as an invalid ciphertext.
    if ciphertext.length > artifact.ciphertextSize then
      throw (.documentV2Error "Document ciphertext is unavailable or invalid.")
    if ciphertext.length ≠ artifact.ciphertextSize ∨
        artifact.ciphertextSha256 ≠ some (crypto.sha256 ciphertext) then
      throw (.documentV2Error "Document ciphertext integrity check failed.")

def getOrCreateDocumentArtifact (cfg : Config) (crypto : Crypto) (worker : WorkerEnv)
    (documents : DocumentTables) (code : DatasetTypeCode) (canonicalDocument : ℕ) (sanitizedPdf : Bytes) :
    Except Error (DocumentTables × DocumentArtifact) := do
  let digest := crypto.sha256 sanitizedPdf
  match documents.artifacts.find? fun a =>
      a.datasetTypeCode = code ∧ a.canonicalDocumentId = canonicalDocument ∧ a.sanitizedPdfSha256 = digest with
  | some existing =>
    validateDocumentArtifactStorage crypto worker existing
    return (documents, existing)
  | none =>
    let artifact ← buildEncryptedGenericDocumentArtifact cfg crypto worker documents.nextArtifact code
      canonicalDocument sanitizedPdf
    return ({ documents with
      artifacts := documents.artifacts ++ [artifact], nextArtifact := documents.nextArtifact + 1 }, artifact)

/-- The accepted bytes of every frozen document, verified against its digest. -/
def readAcceptedPdfs (crypto : Crypto) (worker : WorkerEnv) (frozen : List FrozenDocument) :
    Except Error (List (FrozenDocument × Bytes)) :=
  frozen.mapM fun entry =>
    match worker.acceptedPdf entry.acceptedDocumentKey with
    | none => .error (.publicationBuildError "Accepted document is unavailable.")
    | some pdf =>
      if crypto.sha256 pdf = entry.sanitizedPdfSha256 then .ok (entry, pdf)
      else .error (.publicationBuildError "Accepted document hash does not match frozen metadata.")

def referenceDocuments (cfg : Config) (crypto : Crypto) (worker : WorkerEnv) (id : PublicationId)
    (code : DatasetTypeCode) : List (FrozenDocument × Bytes) → DocumentTables → Except Error DocumentTables
  | [], documents => .ok documents
  | (entry, pdf) :: rest, documents => do
    let (documents, artifact) ← getOrCreateDocumentArtifact cfg crypto worker documents code
      entry.canonicalDocumentId pdf
    referenceDocuments cfg crypto worker id code rest { documents with
      references := documents.references ++ [⟨id, entry.canonicalDocumentId, artifact.id⟩] }

def buildDocumentV2Generation (cfg : Config) (crypto : Crypto) (worker : WorkerEnv) (canonical : Canonical)
    (documents : DocumentTables) (id : PublicationId) (publication : Publication) :
    Except Error DocumentTables := do
  if publication.schemaVersion ≠ 2 then
    throw (.publicationBuildError "Document v2 generation requires schema version two.")
  if publication.status ≠ .building then
    throw (.publicationBuildError "Document v2 generation requires a building publication.")
  let frozen ← frozenDocuments canonical documents id publication true
  let pdfs ← readAcceptedPdfs crypto worker frozen
  let existing := documents.generation id
  if existing = [] then
    referenceDocuments cfg crypto worker id publication.key.target.datasetTypeCode pdfs documents
  else
    if ¬(existing.length = frozen.length ∧ existing.all fun (ref, artifact) =>
        frozen.any fun entry => entry.canonicalDocumentId = ref.canonicalDocumentId ∧
          matchesFrozen publication ref artifact entry) then
      throw (.publicationBuildError "Document v2 generation membership is incomplete.")
    existing.forM fun e => validateDocumentArtifactStorage crypto worker e.2
    return documents

/-- The generation key of an attempt, created while it is still building. -/
def ensureGenerationKey (cfg : Config) (crypto : Crypto) (worker : WorkerEnv) (documents : DocumentTables)
    (id : PublicationId) (publication : Publication) : Except Error (DocumentTables × GenerationKey) := do
  match documents.generationKeys.find? (·.publication = id) with
  | some key => return (documents, key)
  | none =>
    if publication.status ≠ .building then
      throw (.documentV2Error "A generation key must be built before publication.")
    let kek ← credential worker.kek "KEK"
    if kek.length ≠ 32 then
      throw (.documentV2Error "Publication KEK must be exactly 32 bytes.")
    let key : GenerationKey :=
      { publication := id
        wrappedKey := crypto.aesKeyWrap kek worker.generationKey
        wrappingAlgorithm := "AES-KW-RFC3394"
        kekVersion := cfg.kekVersion }
    return ({ documents with generationKeys := documents.generationKeys ++ [key] }, key)

/-- `keywrap.aes_key_unwrap(_kek(), wrapped)`. -/
def unwrapKey (crypto : Crypto) (worker : WorkerEnv) (wrapped : Bytes) : Except Error Bytes := do
  let kek ← credential worker.kek "KEK"
  if kek.length ≠ 32 then
    throw (.documentV2Error "Publication KEK must be exactly 32 bytes.")
  match crypto.aesKeyUnwrap kek wrapped with
  | some key => return key
  | none => throw .invalidUnwrap

def manifestDocument (crypto : Crypto) (worker : WorkerEnv) (id : PublicationId)
    (publication : Publication) (frozen : List FrozenDocument) (generationKey : Bytes)
    (ref : DocumentReference) (artifact : DocumentArtifact) : Except Error ManifestDocument := do
  match frozen.find? (·.canonicalDocumentId = ref.canonicalDocumentId) with
  | none => throw (.documentV2Error "Document v2 generation membership is incomplete.")
  | some entry =>
    if ¬matchesFrozen publication ref artifact entry then
      throw (.documentV2Error "Artifact does not match frozen document content.")
    let cek ← unwrapKey crypto worker artifact.wrappedCek
    return {
      metadata := entry.metadata
      artifactId := artifact.id
      sanitizedPdfSha256 := artifact.sanitizedPdfSha256
      ciphertextSha256 := artifact.ciphertextSha256
      ciphertextSize := artifact.ciphertextSize
      nonce := artifact.nonce
      encryptionAlgorithm := artifact.encryptionAlgorithm
      wrappingAlgorithm := artifact.wrappingAlgorithm
      kekVersion := artifact.kekVersion
      signature := artifact.signature
      signatureAlgorithm := artifact.signatureAlgorithm
      signingKeyVersion := artifact.signingKeyVersion
      generationWrappedCek := crypto.aesKeyWrap generationKey cek
      generationKeyWrappingAlgorithm := "AES-KW-RFC3394"
      downloadPath := (id, artifact.id) }

/-- Sign a canonical payload in the worker context only. -/
def signManifestPayload (crypto : Crypto) (worker : WorkerEnv) (payload : ManifestPayload) :
    Except Error Bytes := do
  let signingKey ← credential worker.signingKey "signing"
  if signingKey.length ≠ 32 then
    throw (.keyGrantError "Publication Ed25519 private key must be exactly 32 bytes.")
  if ¬worker.signingKeyActive then
    throw (.keyGrantError "Publication Ed25519 private key does not match the active public key.")
  return crypto.ed25519Sign signingKey (.manifest payload)

def buildDocumentV2Manifest (cfg : Config) (crypto : Crypto) (worker : WorkerEnv) (canonical : Canonical)
    (documents : DocumentTables) (id : PublicationId) (publication : Publication) :
    Except Error DocumentTables := do
  let frozen ← frozenDocuments canonical documents id publication true
  let refs := (documents.generation id).insertionSort fun a b =>
    a.1.canonicalDocumentId ≤ b.1.canonicalDocumentId
  if refs.length ≠ frozen.length ∨
      ¬(frozen.map (·.canonicalDocumentId)).all (· ∈ refs.map (·.1.canonicalDocumentId)) then
    throw (.documentV2Error "Document v2 generation membership is incomplete.")
  let (documents, key) ← ensureGenerationKey cfg crypto worker documents id publication
  let generationKey ← unwrapKey crypto worker key.wrappedKey
  let entries ← refs.mapM fun (ref, artifact) =>
    manifestDocument crypto worker id publication frozen generationKey ref artifact
  let payload : ManifestPayload :=
    { format := "document-generation-v2"
      datasetType := publication.key.target.datasetTypeCode
      publicationId := id
      version := publication.versionNumber
      schemaVersion := 2
      documents := entries
      library :=
        match publication.sourceSnapshot with
        | some (.fileLibrary s) => some (s.library, s.folders, s.sourceRevision)
        | _ => none }
  let signature ← signManifestPayload crypto worker payload
  match documents.manifests.find? (·.publication = id) with
  | none => return { documents with
      manifests := documents.manifests ++ [⟨id, payload, signature, "Ed25519", cfg.signingKeyVersion⟩] }
  | some manifest =>
    if manifest.payload ≠ payload ∨ manifest.signature ≠ signature then
      throw (.documentV2Error "Document generation manifest is immutable.")
    return documents

/-! ### Release -/

/-- Release one terminal generation and queue only its now-unreachable PDFs. -/
def DocumentTables.release (documents : DocumentTables) (id : PublicationId) (code : DatasetTypeCode) :
    DocumentTables × List ℕ :=
  let contents :=
    if code.isFileDataset then documents.contents.filter (·.publication ≠ id) else documents.contents
  let ids := (documents.references.filter (·.publication = id)).map (·.documentArtifact)
  let references := documents.references.filter (·.publication ≠ id)
  let unreachable := documents.artifacts.filter fun a =>
    a.id ∈ ids ∧ ¬references.any fun ref => ref.documentArtifact = a.id
  ({ documents with
      contents := contents
      references := references
      artifacts := documents.artifacts.filter (· ∉ unreachable)
      cleanups := documents.cleanups ++ unreachable.map (·.id) },
    unreachable.map (·.id))

/-- A release leaves the generations of the other publications as they are. -/
theorem SameGeneration.release {id q : PublicationId} (documents : DocumentTables) (code : DatasetTypeCode)
    (hne : id ≠ q) : SameGeneration id documents (documents.release q code).1 where
  generation := by
    simp only [DocumentTables.release, DocumentTables.generation, List.filter_filter]
    have hrefs : (documents.references.filter fun ref => decide (ref.publication = id) && decide (ref.publication ≠ q))
        = documents.references.filter fun ref => decide (ref.publication = id) := by
      refine List.filter_congr fun ref _ => ?_
      by_cases hr : ref.publication = id <;> simp [hr, hne]
    rw [hrefs]
    refine List.filterMap_congr fun ref href => ?_
    obtain ⟨hmem, hid⟩ := List.mem_filter.mp href
    have hid : ref.publication = id := by simpa using hid
    rw [List.find?_filter]
    congr 2
    funext a
    by_cases ha : a.id = ref.documentArtifact
    · have hkept : ∃ r ∈ documents.references, ¬r.publication = q ∧ r.documentArtifact = ref.documentArtifact :=
        ⟨ref, hmem, by rw [hid]; exact hne, rfl⟩
      simp [ha, hkept]
    · simp [ha]
  contents := by
    simp only [DocumentTables.release]
    split
    · rw [List.filter_filter]
      refine List.filter_congr fun pin _ => ?_
      by_cases hp : pin.publication = id <;> simp [hp, hne]
    · rfl
  manifest := rfl
  key := rfl

def PublicationStatus.isReleasable : PublicationStatus → Bool
  | .failed | .cancelled | .rejected | .obsolete => true
  | _ => false

/-- The database after a generation was released, with its removals registered. -/
def Db.release (db : Db) (id : PublicationId) (code : DatasetTypeCode) : Db :=
  let (documents, removed) := db.documents.release id code
  { db with documents := documents, onCommit := db.onCommit ++ removed.map .removeDocumentArtifact }

/-- `release_terminal_document_artifact_references` on a row already made terminal. -/
def releaseTerminalDocumentArtifactReferences (id : PublicationId) (publication : Publication) :
    Service Unit := do
  Tx.ensure publication.status.isReleasable
    (.valueError "Only terminal publications can release document artifacts.")
  Tx.modify fun db => db.release id publication.key.target.datasetTypeCode

end FireDash.Publications
