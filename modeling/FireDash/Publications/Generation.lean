import FireDash.Publications.DocumentV2

/-! What a build of a document generation stores: reused or fresh artifacts, one reference
for each frozen document, a generation key and a manifest. -/
namespace FireDash.Publications

section Build

variable {cfg : Config} {crypto : Crypto} {worker : WorkerEnv} {canonical : Canonical}
  {documents documents' : DocumentTables} {id : PublicationId} {publication : Publication}

/-- The artifact encrypts a canonical document with this digest. -/
def DocumentArtifact.Encrypts (artifact : DocumentArtifact) (code : DatasetTypeCode) (canonicalDocument : ℕ)
    (digest : Digest) : Prop :=
  artifact.datasetTypeCode = code ∧ artifact.canonicalDocumentId = canonicalDocument ∧
    artifact.sanitizedPdfSha256 = digest

/-- A stored artifact is verified and reused, or a fresh one is inserted. -/
inductive ObtainsArtifact (cfg : Config) (crypto : Crypto) (worker : WorkerEnv) (documents : DocumentTables)
    (code : DatasetTypeCode) (canonicalDocument : ℕ) (pdf : Bytes) : DocumentTables → DocumentArtifact → Prop
  | stored {artifact} (hmem : artifact ∈ documents.artifacts)
      (he : artifact.Encrypts code canonicalDocument (crypto.sha256 pdf))
      (hv : validateDocumentArtifactStorage crypto worker artifact = .ok ()) :
      ObtainsArtifact cfg crypto worker documents code canonicalDocument pdf documents artifact
  | created {artifact} (hb : buildEncryptedGenericDocumentArtifact cfg crypto worker documents.nextArtifact code
        canonicalDocument pdf = .ok artifact) :
      ObtainsArtifact cfg crypto worker documents code canonicalDocument pdf
        { documents with
          artifacts := documents.artifacts ++ [artifact], nextArtifact := documents.nextArtifact + 1 } artifact

theorem getOrCreateDocumentArtifact_obtains {code : DatasetTypeCode} {canonicalDocument : ℕ} {pdf : Bytes}
    {artifact : DocumentArtifact}
    (h : getOrCreateDocumentArtifact cfg crypto worker documents code canonicalDocument pdf =
      .ok (documents', artifact)) :
    ObtainsArtifact cfg crypto worker documents code canonicalDocument pdf documents' artifact := by
  unfold getOrCreateDocumentArtifact at h
  dsimp only at h
  split at h
  · rename_i existing hfind
    simp only [bind_eq_ok, pure_eq_ok, Prod.mk.injEq] at h
    obtain ⟨_, hv, rfl, rfl⟩ := h
    have he := List.find?_some hfind
    simp only [decide_eq_true_eq] at he
    exact .stored (List.mem_of_find?_eq_some hfind) he hv
  · simp only [bind_eq_ok, pure_eq_ok, Prod.mk.injEq] at h
    obtain ⟨a, hb, rfl, rfl⟩ := h
    exact .created hb

theorem buildEncryptedGenericDocumentArtifact_eq_ok {n : ℕ} {code : DatasetTypeCode} {canonicalDocument : ℕ}
    {pdf : Bytes} {artifact : DocumentArtifact}
    (h : buildEncryptedGenericDocumentArtifact cfg crypto worker n code canonicalDocument pdf = .ok artifact) :
    artifact.id = n ∧ artifact.Encrypts code canonicalDocument (crypto.sha256 pdf) := by
  simp only [buildEncryptedGenericDocumentArtifact, bind_eq_ok, check_eq_ok, pure_eq_ok] at h
  obtain ⟨-, kek, -, signingKey, -, -, -, rfl⟩ := h
  exact ⟨rfl, rfl, rfl, rfl⟩

/-- The generation `id` only gained references to stored artifacts, fresh ones included. -/
structure Grows (id : PublicationId) (documents documents' : DocumentTables) : Prop where
  generationKeys : documents'.generationKeys = documents.generationKeys
  manifests : documents'.manifests = documents.manifests
  contents : documents'.contents = documents.contents
  cleanups : documents'.cleanups = documents.cleanups
  artifacts : ∃ fresh, documents'.artifacts = documents.artifacts ++ fresh ∧
    fresh.map (·.id) = List.range' documents.nextArtifact fresh.length ∧
    documents'.nextArtifact = documents.nextArtifact + fresh.length
  references : ∃ fresh, documents'.references = documents.references ++ fresh ∧
    ∀ ref ∈ fresh, ref.publication = id ∧ ∃ artifact ∈ documents'.artifacts, artifact.id = ref.documentArtifact

theorem Grows.refl (id : PublicationId) (documents : DocumentTables) : Grows id documents documents :=
  ⟨rfl, rfl, rfl, rfl, ⟨[], by simp⟩, ⟨[], by simp⟩⟩

theorem Grows.mem_artifacts {artifact : DocumentArtifact} (h : Grows id documents documents')
    (ha : artifact ∈ documents.artifacts) : artifact ∈ documents'.artifacts := by
  obtain ⟨fresh, he, -⟩ := h.artifacts
  rw [he]
  exact List.mem_append_left fresh ha

theorem Grows.trans {documents'' : DocumentTables} (h : Grows id documents documents')
    (h' : Grows id documents' documents'') : Grows id documents documents'' where
  generationKeys := h'.generationKeys.trans h.generationKeys
  manifests := h'.manifests.trans h.manifests
  contents := h'.contents.trans h.contents
  cleanups := h'.cleanups.trans h.cleanups
  artifacts := by
    obtain ⟨fresh, he, hids, hnext⟩ := h.artifacts
    obtain ⟨fresh', he', hids', hnext'⟩ := h'.artifacts
    refine ⟨fresh ++ fresh', by rw [he', he, List.append_assoc], ?_, ?_⟩
    · rw [List.map_append, hids, hids', hnext, List.length_append, List.range'_append_1]
    · rw [hnext', hnext, List.length_append, Nat.add_assoc]
  references := by
    obtain ⟨fresh, he, hrefs⟩ := h.references
    obtain ⟨fresh', he', hrefs'⟩ := h'.references
    refine ⟨fresh ++ fresh', by rw [he', he, List.append_assoc], fun ref href => ?_⟩
    rcases List.mem_append.mp href with hold | hnew
    · obtain ⟨hid, artifact, ha, hra⟩ := hrefs ref hold
      exact ⟨hid, artifact, h'.mem_artifacts ha, hra⟩
    · exact hrefs' ref hnew

/-- Obtaining an artifact and referencing it. -/
theorem ObtainsArtifact.grows {code : DatasetTypeCode} {canonicalDocument : ℕ} {pdf : Bytes}
    {artifact : DocumentArtifact}
    (h : ObtainsArtifact cfg crypto worker documents code canonicalDocument pdf documents' artifact) :
    Grows id documents { documents' with
      references := documents'.references ++ [⟨id, canonicalDocument, artifact.id⟩] } := by
  cases h with
  | stored hmem he hv =>
    refine ⟨rfl, rfl, rfl, rfl, ⟨[], by simp⟩, ⟨_, rfl, fun ref href => ?_⟩⟩
    obtain rfl := List.mem_singleton.mp href
    exact ⟨rfl, artifact, hmem, rfl⟩
  | created hb =>
    have hid := (buildEncryptedGenericDocumentArtifact_eq_ok hb).1
    refine ⟨rfl, rfl, rfl, rfl, ⟨[artifact], rfl, by simp [hid], rfl⟩, ⟨_, rfl, fun ref href => ?_⟩⟩
    obtain rfl := List.mem_singleton.mp href
    exact ⟨rfl, artifact, by simp, rfl⟩

theorem referenceDocuments_grows {code : DatasetTypeCode} {pdfs : List (FrozenDocument × Bytes)}
    (h : referenceDocuments cfg crypto worker id code pdfs documents = .ok documents') :
    Grows id documents documents' := by
  induction pdfs generalizing documents with
  | nil =>
    cases h
    exact .refl id _
  | cons e rest ih =>
    simp only [referenceDocuments, bind_eq_ok, Prod.exists] at h
    obtain ⟨d, artifact, hget, hrest⟩ := h
    exact (getOrCreateDocumentArtifact_obtains hget).grows.trans (ih hrest)

theorem buildDocumentV2Generation_grows
    (h : buildDocumentV2Generation cfg crypto worker canonical documents id publication = .ok documents') :
    Grows id documents documents' := by
  simp only [buildDocumentV2Generation, bind_eq_ok, check_eq_ok] at h
  obtain ⟨-, -, frozen, -, pdfs, -, h⟩ := h
  split at h
  · exact referenceDocuments_grows h
  · simp only [check_eq_ok, bind_eq_ok, pure_eq_ok] at h
    obtain ⟨-, _, -, rfl⟩ := h
    exact .refl id documents

/-- A manifest build stores the generation key and the manifest of `id` unless they exist. -/
structure Manifests (id : PublicationId) (documents documents' : DocumentTables) : Prop where
  artifacts : documents'.artifacts = documents.artifacts
  references : documents'.references = documents.references
  contents : documents'.contents = documents.contents
  cleanups : documents'.cleanups = documents.cleanups
  nextArtifact : documents'.nextArtifact = documents.nextArtifact
  manifests : documents'.manifests = documents.manifests ∨
    ∃ manifest, manifest.publication = id ∧ documents'.manifests = documents.manifests ++ [manifest]

theorem buildDocumentV2Manifest_manifests
    (h : buildDocumentV2Manifest cfg crypto worker canonical documents id publication = .ok documents') :
    Manifests id documents documents' := by
  have hkey : ∀ {d key}, ensureGenerationKey cfg crypto worker documents id publication = .ok (d, key) →
      ∃ keys, d = { documents with generationKeys := documents.generationKeys ++ keys } := by
    intro d key hk
    unfold ensureGenerationKey at hk
    split at hk
    · simp only [pure_eq_ok, Prod.mk.injEq] at hk
      exact ⟨[], by simp [hk.1]⟩
    · simp only [check_eq_ok, bind_eq_ok, pure_eq_ok, Prod.mk.injEq] at hk
      obtain ⟨-, kek, -, -, rfl, -⟩ := hk
      exact ⟨_, rfl⟩
  simp only [buildDocumentV2Manifest, bind_eq_ok, check_eq_ok, Prod.exists] at h
  obtain ⟨frozen, -, -, d, key, hk, generationKey, -, entries, -, signature, -, h⟩ := h
  obtain ⟨keys, rfl⟩ := hkey hk
  split at h
  · rw [pure_eq_ok] at h
    subst h
    exact ⟨rfl, rfl, rfl, rfl, rfl, .inr ⟨_, rfl, rfl⟩⟩
  · rw [check_eq_ok, pure_eq_ok] at h
    obtain ⟨-, rfl⟩ := h
    exact ⟨rfl, rfl, rfl, rfl, rfl, .inl rfl⟩

end Build

end FireDash.Publications
