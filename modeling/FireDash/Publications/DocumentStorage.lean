import FireDash.Publications.System

/-! The ciphertexts of canonical PDF documents beside their rows: builds that create and share them, releases, and the
cleanup of those that nothing refers to any more. -/
namespace FireDash.Publications.DocumentStorage

/-! ### State -/

/-- The document rows and the files `documents/<id>/artifact.bin`. Every identifier below `nextId` has been drawn. -/
structure Storage where
  documents : DocumentTables := {}
  files : ℕ → Option Bytes := fun _ => none
  nextId : ℕ := 0
  /-- Drawn by builds that have not compensated yet. -/
  created : List ℕ := []
  /-- Removals that were registered to run after a commit. -/
  callbacks : List ℕ := []

/-- What a worker observes while it builds, by the number of the document. -/
structure BuildEnv where
  cfg : Config
  crypto : Crypto
  worker : ℕ → WorkerEnv
  /-- The row that another worker commits first was not there yet when it was looked for. -/
  missed : ℕ → Bool
  /-- A promotion that fails has put the file in place. -/
  leftBehind : ℕ → Bool

abbrev Step := Tx Storage Error

/-- The files as a worker reads them. -/
def Storage.reader (s : Storage) (worker : WorkerEnv) : WorkerEnv :=
  { worker with
    storedCiphertext := fun path =>
      match path with
      | .document id => s.files id
      | _ => none }

def Storage.write (s : Storage) (id : ℕ) (content : Option Bytes) : Storage := { s with files := Function.update s.files id content }

/-! ### Services -/

/-- `_schedule_document_artifact_removal` -/
def scheduleDocumentArtifactRemoval (id : ℕ) (s : Storage) : Storage :=
  { s with
    documents := { s.documents with cleanups := if id ∈ s.documents.cleanups then s.documents.cleanups else s.documents.cleanups ++ [id] }
    callbacks := s.callbacks ++ [id] }

def findArtifact (documents : DocumentTables) (code : DatasetTypeCode) (canonicalDocument : ℕ) (digest : Digest) : Option DocumentArtifact :=
  documents.artifacts.find? fun a => a.datasetTypeCode = code ∧ a.canonicalDocumentId = canonicalDocument ∧ a.sanitizedPdfSha256 = digest

/-- The row of a candidate, unless the row of another worker is there. -/
def insertArtifact (env : BuildEnv) (i : ℕ) (artifact : DocumentArtifact) : Step DocumentArtifact := do
  let s ← Tx.get
  match findArtifact s.documents artifact.datasetTypeCode artifact.canonicalDocumentId artifact.sanitizedPdfSha256 with
  | none => do
    Tx.modify fun s => { s with documents := { s.documents with artifacts := s.documents.artifacts ++ [artifact] } }
    return artifact
  | some winner => do
    Tx.modify (scheduleDocumentArtifactRemoval artifact.id)
    Tx.ofExcept (validateDocumentArtifactStorage env.crypto (s.reader (env.worker i)) winner)
    return winner

/-- `get_or_create_document_artifact` -/
def getOrCreate (env : BuildEnv) (i : ℕ) (code : DatasetTypeCode) (canonicalDocument : ℕ) (sanitizedPdf : Bytes) : Step DocumentArtifact := do
  let s ← Tx.get
  match if env.missed i = true then none else findArtifact s.documents code canonicalDocument (env.crypto.sha256 sanitizedPdf) with
  | some existing => do
    Tx.ofExcept (validateDocumentArtifactStorage env.crypto (s.reader (env.worker i)) existing)
    return existing
  | none => do
    Tx.modify fun s => { s with nextId := s.nextId + 1, created := s.created ++ [s.nextId] }
    let keys := (env.worker i).documentKeys s.nextId
    let ciphertext := env.crypto.aesGcmEncrypt keys.1 keys.2 sanitizedPdf
    match buildEncryptedGenericDocumentArtifact env.cfg env.crypto (env.worker i) s.nextId code canonicalDocument sanitizedPdf with
    | .error e => do
      Tx.whenever (env.leftBehind i = true) (Tx.modify fun t => t.write s.nextId (some ciphertext))
      Tx.raise e
    | .ok artifact => do
      Tx.modify fun t => t.write s.nextId (some ciphertext)
      insertArtifact env i artifact

def referenceDocument (env : BuildEnv) (publication : PublicationId) (code : DatasetTypeCode) (e : (ℕ × Bytes) × ℕ) : Step Unit := do
  let artifact ← getOrCreate env e.2 code e.1.1 e.1.2
  let s ← Tx.get
  Tx.ensure (s.documents.references.any (fun ref => ref.publication = publication ∧ ref.canonicalDocumentId = e.1.1) = false)
    (.databaseError "unique_publication_document_artifact_reference")
  Tx.modify fun s => { s with documents := { s.documents with references := s.documents.references ++ [⟨publication, e.1.1, artifact.id⟩] } }

/-- `build_document_v2_generation` -/
def buildDocumentV2Generation (env : BuildEnv) (publication : PublicationId) (code : DatasetTypeCode) (entries : List (ℕ × Bytes)) : Step Unit := do
  let s ← Tx.get
  if s.documents.references.any (fun ref => ref.publication = publication) = true then
    Tx.forEach (fun e => Tx.ofExcept (validateDocumentArtifactStorage env.crypto (s.reader (env.worker 0)) e.2)) (s.documents.generation publication)
  else Tx.forEach (referenceDocument env publication code) entries.zipIdx

/-- A generation with the rest of its transaction, which may still raise. -/
def buildGeneration (env : BuildEnv) (publication : PublicationId) (code : DatasetTypeCode) (entries : List (ℕ × Bytes))
    (failure : Option Error) : Step Unit := do
  buildDocumentV2Generation env publication code entries
  match failure with
  | none => return
  | some e => Tx.raise e

/-- A transaction: a raise undoes the rows and the registered callbacks, not the files. -/
def transaction (x : Step Unit) (s : Storage) : Storage :=
  match x s with
  | (.ok (), t) => t
  | (.error _, t) => { t with documents := s.documents, callbacks := s.callbacks }

/-- The last steps of a build: what it created without a row is queued for removal. -/
def compensate (id : ℕ) (s : Storage) : Storage :=
  if id ∈ s.created then
    let t := { s with created := s.created.erase id }
    if s.documents.artifacts.any (fun a => a.id = id) = true then t else scheduleDocumentArtifactRemoval id t
  else s

/-- `release_terminal_document_artifact_references` -/
def releaseReferences (publication : PublicationId) (code : DatasetTypeCode) (s : Storage) : Storage :=
  let (documents, removed) := s.documents.release publication code
  { s with documents := documents, callbacks := s.callbacks ++ removed }

/-! ### Cleanup -/

structure CleanupResult where
  filesDeleted : ℕ := 0
  filesAlreadyMissing : ℕ := 0
  cleanupDeferred : ℕ := 0
  cleanupFailed : ℕ := 0
  documentCleanupRecordsProcessed : ℕ := 0
  documentOrphanRecordsRemoved : ℕ := 0
  deriving DecidableEq

/-- What the removal of a file meets. -/
inductive Removal where
  | done
  | failed
  | locked
  deriving DecidableEq

/-- The file of a queued removal is gone. -/
def removeQueued (id : ℕ) (s : Storage) : Storage :=
  { s with documents := { s.documents with cleanups := s.documents.cleanups.erase id }, files := Function.update s.files id none }

/-- `_process_cleanup_record` -/
def processCleanupRecord (removal : Removal) (id : ℕ) (s : Storage) (result : CleanupResult) : Storage × CleanupResult :=
  if id ∉ s.documents.cleanups then (s, result)
  else
    match removal with
    | .locked => (s, { result with cleanupDeferred := result.cleanupDeferred + 1 })
    | removal =>
      if s.documents.artifacts.any (fun a => a.id = id) = true ∨ removal = .failed then
        (s, { result with cleanupFailed := result.cleanupFailed + 1, cleanupDeferred := result.cleanupDeferred + 1 })
      else
        (removeQueued id s,
          { result with
            documentCleanupRecordsProcessed := result.documentCleanupRecordsProcessed + 1
            filesDeleted := if s.files id = none then result.filesDeleted else result.filesDeleted + 1
            filesAlreadyMissing := if s.files id = none then result.filesAlreadyMissing + 1 else result.filesAlreadyMissing })

def isReferenced (documents : DocumentTables) (id : ℕ) : Bool := documents.references.any fun ref => ref.documentArtifact = id

/-- The row of an artifact without references goes, and its file is queued. -/
def collectOrphan (id : ℕ) (s : Storage) : Storage :=
  if s.documents.artifacts.any (fun a => a.id = id) = true ∧ isReferenced s.documents id = false then
    scheduleDocumentArtifactRemoval id { s with documents := { s.documents with artifacts := s.documents.artifacts.filter fun a => a.id ≠ id } }
  else s

/-- An unreferenced artifact of the batch, with the removal that runs when its transaction commits. -/
def collectGeneric (removals : ℕ → Removal) (p : Storage × CleanupResult) (id : ℕ) : Storage × CleanupResult :=
  let (s, result) := p
  if s.documents.artifacts.any (fun a => a.id = id) = true ∧ isReferenced s.documents id = false then
    let collected := collectOrphan id s
    processCleanupRecord (removals id) id { collected with callbacks := collected.callbacks.erase id }
      { result with documentOrphanRecordsRemoved := result.documentOrphanRecordsRemoved + 1 }
  else (s, result)

def unreferenced (documents : DocumentTables) : List ℕ :=
  (documents.artifacts.filter fun a => isReferenced documents a.id = false).map (·.id)

/-- `cleanup_unreferenced_document_artifacts` -/
def cleanupUnreferencedDocumentArtifacts (batchSize : ℕ) (removals : ℕ → Removal) (s : Storage) : Except Error (Storage × CleanupResult) :=
  if batchSize < 1 then .error (.valueError "Document artifact cleanup batch size must be positive.")
  else
    let p := (s.documents.cleanups.take batchSize).foldl (fun p id => processCleanupRecord (removals id) id p.1 p.2) (s, {})
    .ok (((unreferenced p.1.documents).take batchSize).foldl (collectGeneric removals) p)

/-! ### Runs -/

inductive Action where
  | build (env : BuildEnv) (publication : PublicationId) (code : DatasetTypeCode) (entries : List (ℕ × Bytes)) (failure : Option Error)
  | compensate (id : ℕ)
  | crash (created callbacks : ℕ → Bool)
  | release (publication : PublicationId) (code : DatasetTypeCode)
  | callback (id : ℕ) (removal : Removal)
  | processCleanup (id : ℕ) (removal : Removal)
  | collectOrphan (id : ℕ)

def Action.run (s : Storage) : Action → Storage
  | .build env publication code entries failure => transaction (buildGeneration env publication code entries failure) s
  | .compensate id => DocumentStorage.compensate id s
  | .crash created callbacks => { s with created := s.created.filter created, callbacks := s.callbacks.filter callbacks }
  | .release publication code => releaseReferences publication code s
  | .callback id removal =>
    if id ∈ s.callbacks then (processCleanupRecord removal id { s with callbacks := s.callbacks.erase id } {}).1 else s
  | .processCleanup id removal => (processCleanupRecord removal id s {}).1
  | .collectOrphan id => DocumentStorage.collectOrphan id s

/-- Runs that start without documents, of workers with the same digest. -/
def system (crypto : Crypto) : Machine Storage Action where
  init s := s = {}
  step s action t := (∀ env publication code entries failure, action = .build env publication code entries failure → env.crypto = crypto) ∧
    t = action.run s

/-- Digests are sizes, and a ciphertext carries its keys. -/
def sampleCrypto : Crypto where
  sha256 bytes := BitVec.ofNat 256 bytes.length
  aesGcmEncrypt key nonce plaintext := key ++ nonce ++ plaintext
  aesKeyWrap kek cek := kek ++ cek
  aesKeyUnwrap _ _ := none
  ed25519Sign key _ := key

def sampleBuild : BuildEnv where
  cfg := sampleConfig
  crypto := sampleCrypto
  worker _ :=
    { kek := some (List.replicate 32 0)
      signingKey := some (List.replicate 32 0)
      signingKeyActive := true
      cek := []
      nonce := []
      generationKey := []
      documentKeys := fun id => ([0], [UInt8.ofNat id])
      acceptedPdf := fun _ => none
      storedCiphertext := fun _ => none
      promoted := true }
  missed _ := false
  leftBehind _ := false

/-- Three builds: one is kept, one fails and its worker dies, and one is released. -/
def threeBuilds : List Action :=
  [.build sampleBuild 0 .departmentFirePlans [(7, [1])] none, .compensate 0,
    .build sampleBuild 1 .departmentFirePlans [(8, [1, 2])] (some (.valueError "")), .crash (fun _ => false) fun _ => false,
    .build sampleBuild 2 .departmentFirePlans [(9, [1, 2, 3])] none, .compensate 2, .release 2 .departmentFirePlans]

theorem run_threeBuilds : (system sampleCrypto).Run {} (Machine.steps Action.run {} threeBuilds) (threeBuilds.foldl Action.run {}) := by
  have hstart : (system sampleCrypto).Run {} [] {} := Machine.Run.start rfl
  rw [← List.nil_append (Machine.steps Action.run {} threeBuilds)]
  refine hstart.steps fun e he => ?_
  obtain ⟨hmem, hstep⟩ := Machine.of_mem_steps he
  refine ⟨fun env publication code entries failure hbuild => ?_, hstep⟩
  rw [hbuild] at hmem
  simp only [threeBuilds, List.mem_cons, List.not_mem_nil, Action.build.injEq, reduceCtorEq, or_false, false_or] at hmem
  rcases hmem with ⟨rfl, -⟩ | ⟨rfl, -⟩ | ⟨rfl, -⟩ <;> rfl

/-- A worker that dies before it compensates for a file. -/
def Action.Loses (s : Storage) (action : Action) (id : ℕ) : Prop :=
  match action with
  | .crash created _ => id ∈ s.created ∧ created id = false
  | _ => False

def Action.cleans : Action → Bool
  | .callback _ _ | .processCleanup _ _ | .collectOrphan _ => true
  | _ => false

/-! ### Invariants -/

/-- The file of an artifact is the ciphertext its row describes. -/
def Stored (crypto : Crypto) (files : ℕ → Option Bytes) (a : DocumentArtifact) : Prop :=
  a.artifactPath = some (documentArtifactRelativePath a.id) ∧ ∃ ciphertext, files a.id = some ciphertext ∧
    ciphertext.length = a.ciphertextSize ∧ a.ciphertextSha256 = some (crypto.sha256 ciphertext)

structure Inv (crypto : Crypto) (s : Storage) : Prop where
  ids : (s.documents.artifacts.map (·.id)).Nodup
  drawn : ∀ a ∈ s.documents.artifacts, a.id < s.nextId
  stored : ∀ a ∈ s.documents.artifacts, Stored crypto s.files a
  referenced : ∀ ref ∈ s.documents.references, ∃ a ∈ s.documents.artifacts,
    a.id = ref.documentArtifact ∧ a.canonicalDocumentId = ref.canonicalDocumentId
  queued : ∀ id ∈ s.documents.cleanups, id < s.nextId ∧ ∀ a ∈ s.documents.artifacts, a.id ≠ id
  once : s.documents.cleanups.Nodup
  tracked : ∀ id ∈ s.created, id < s.nextId
  files : ∀ id, s.files id ≠ none → id < s.nextId

/-- What a build does to the files, whichever way it ends: it writes files of its own. -/
structure Grown (s t : Storage) : Prop where
  nextId : s.nextId ≤ t.nextId
  old : ∀ id < s.nextId, t.files id = s.files id
  new : ∀ id, t.files id ≠ none → s.files id ≠ none ∨ id ∈ t.created ∧ id < t.nextId
  created : ∀ id ∈ s.created, id ∈ t.created
  drawn : ∀ id ∈ t.created, id ∈ s.created ∨ id < t.nextId
  artifacts : ∀ a ∈ s.documents.artifacts, a ∈ t.documents.artifacts
  rows : ∀ a ∈ t.documents.artifacts, a ∈ s.documents.artifacts ∨ s.nextId ≤ a.id
  cleanups : ∀ id ∈ s.documents.cleanups, id ∈ t.documents.cleanups

instance : IsPreorder Storage Grown where
  refl s := ⟨le_rfl, fun _ _ => rfl, fun _ h => .inl h, fun _ h => h, fun _ h => .inl h, fun _ h => h, fun _ h => .inl h, fun _ h => h⟩
  trans := by
    intro a b c hab hbc
    refine ⟨hab.nextId.trans hbc.nextId, fun id hid => ?_, fun id hid => ?_, fun id hid => hbc.created id (hab.created id hid), fun id hid => ?_,
      fun x hx => hbc.artifacts x (hab.artifacts x hx), fun x hx => ?_, fun id hid => hbc.cleanups id (hab.cleanups id hid)⟩
    · rw [hbc.old id (Nat.lt_of_lt_of_le hid hab.nextId), hab.old id hid]
    · rcases hbc.new id hid with hid | hid
      · rcases hab.new id hid with hid | ⟨hmem, hlt⟩
        · exact .inl hid
        · exact .inr ⟨hbc.created id hmem, Nat.lt_of_lt_of_le hlt hbc.nextId⟩
      · exact .inr hid
    · rcases hbc.drawn id hid with hid | hid
      · rcases hab.drawn id hid with hid | hid
        · exact .inl hid
        · exact .inr (Nat.lt_of_lt_of_le hid hbc.nextId)
      · exact .inr hid
    · rcases hbc.rows x hx with hx | hx
      · exact hab.rows x hx
      · exact .inr (hab.nextId.trans hx)

section

variable {crypto : Crypto} {s t : Storage} {id : ℕ} {env : BuildEnv} {i : ℕ} {code : DatasetTypeCode} {canonicalDocument : ℕ} {pdf : Bytes}

theorem validate_of_stored {a : DocumentArtifact} (h : Stored crypto s.files a) (worker : WorkerEnv) :
    validateDocumentArtifactStorage crypto (s.reader worker) a = .ok () := by
  obtain ⟨hpath, ciphertext, hfile, hsize, hdigest⟩ := h
  have hsome : (s.reader worker).storedCiphertext (documentArtifactRelativePath a.id) = some ciphertext := hfile
  unfold validateDocumentArtifactStorage
  rw [check_eq_ok]
  refine ⟨not_not.mpr hpath, ?_⟩
  rw [hsome]
  dsimp only
  rw [check_eq_ok, hsize]
  refine ⟨lt_irrefl _, if_neg ?_⟩
  rintro (hne | hne)
  · exact hne rfl
  · exact hne hdigest

/-- What an encrypted document says of itself. -/
theorem build_eq_ok {cfg : Config} {worker : WorkerEnv} {a : DocumentArtifact}
    (h : buildEncryptedGenericDocumentArtifact cfg crypto worker id code canonicalDocument pdf = .ok a) :
    a.id = id ∧ a.canonicalDocumentId = canonicalDocument ∧
      Stored crypto (Function.update s.files id (some (crypto.aesGcmEncrypt (worker.documentKeys id).1 (worker.documentKeys id).2 pdf))) a := by
  unfold buildEncryptedGenericDocumentArtifact at h
  obtain ⟨-, h⟩ := check_eq_ok.mp h
  obtain ⟨kek, -, h⟩ := bind_eq_ok.mp h
  obtain ⟨signingKey, -, h⟩ := bind_eq_ok.mp h
  obtain ⟨-, h⟩ := check_eq_ok.mp h
  obtain ⟨-, h⟩ := check_eq_ok.mp h
  obtain rfl := pure_eq_ok.mp h
  exact ⟨rfl, rfl, rfl, _, Function.update_self _ _ _, rfl, rfl⟩

theorem Stored.update {files : ℕ → Option Bytes} {a : DocumentArtifact} (h : Stored crypto files a) (hne : a.id ≠ id) (content : Option Bytes) :
    Stored crypto (Function.update files id content) a := by
  obtain ⟨hpath, ciphertext, hfile, hdescribes⟩ := h
  exact ⟨hpath, ciphertext, (Function.update_of_ne hne _ _).trans hfile, hdescribes⟩

/-! ### Steps -/

theorem nodup_append_singleton {l : List ℕ} (h : l.Nodup) (hnew : id ∉ l) : (l ++ [id]).Nodup := by
  refine List.nodup_append.mpr ⟨h, List.nodup_singleton id, fun a ha b hb hab => hnew ?_⟩
  rw [List.mem_singleton.mp hb] at hab
  rwa [hab] at ha

theorem Inv.schedule (h : Inv crypto s) (hid : id < s.nextId) (hfree : ∀ a ∈ s.documents.artifacts, a.id ≠ id) :
    Inv crypto (scheduleDocumentArtifactRemoval id s) := by
  unfold scheduleDocumentArtifactRemoval
  refine ⟨h.ids, h.drawn, h.stored, h.referenced, fun id' hid' => ?_, ?_, h.tracked, h.files⟩
  · dsimp only at hid'
    split at hid'
    · exact h.queued id' hid'
    · rcases List.mem_append.mp hid' with hid' | hid'
      · exact h.queued id' hid'
      · obtain rfl := List.mem_singleton.mp hid'
        exact ⟨hid, hfree⟩
  · dsimp only
    split
    · exact h.once
    · rename_i hnew
      exact nodup_append_singleton h.once hnew

theorem findArtifact_eq_some {documents : DocumentTables} {digest : Digest} {a : DocumentArtifact}
    (h : findArtifact documents code canonicalDocument digest = some a) : a ∈ documents.artifacts ∧ a.canonicalDocumentId = canonicalDocument := by
  have hfields := List.find?_some h
  rw [decide_eq_true_iff] at hfields
  exact ⟨List.mem_of_find?_eq_some h, hfields.2.1⟩

/-- A number is drawn, and a file may be written under it. -/
theorem Inv.draw (h : Inv crypto s) (content : Option Bytes) :
    Inv crypto { s with nextId := s.nextId + 1, created := s.created ++ [s.nextId], files := Function.update s.files s.nextId content } := by
  refine ⟨h.ids, fun a ha => Nat.lt_succ_of_lt (h.drawn a ha), fun a ha => (h.stored a ha).update (Nat.ne_of_lt (h.drawn a ha)) content,
    h.referenced, fun id hid => ⟨Nat.lt_succ_of_lt (h.queued id hid).1, (h.queued id hid).2⟩, h.once, fun id hid => ?_, fun id hid => ?_⟩
  · rcases List.mem_append.mp hid with hid | hid
    · exact Nat.lt_succ_of_lt (h.tracked id hid)
    · rw [List.mem_singleton.mp hid]
      exact Nat.lt_succ_self _
  · by_cases hsame : id = s.nextId
    · rw [hsame]
      exact Nat.lt_succ_self _
    · change Function.update s.files s.nextId content id ≠ none at hid
      rw [Function.update_of_ne hsame] at hid
      exact Nat.lt_succ_of_lt (h.files id hid)

/-- A row for a document is found or made. -/
structure Gotten (crypto : Crypto) (s t : Storage) (canonicalDocument : ℕ) (a : DocumentArtifact) : Prop where
  inv : Inv crypto t
  mem : a ∈ t.documents.artifacts
  document : a.canonicalDocumentId = canonicalDocument
  references : t.documents.references = s.documents.references

theorem wp_insertArtifact {a : DocumentArtifact} (h : Inv env.crypto s) (hstored : Stored env.crypto s.files a) (hdrawn : a.id < s.nextId)
    (hfresh : ∀ b ∈ s.documents.artifacts, b.id ≠ a.id) (hfree : a.id ∉ s.documents.cleanups) :
    Tx.wp (insertArtifact env i a) (fun b t => Gotten env.crypto s t a.canonicalDocumentId b) (fun _ _ => True) s := by
  unfold insertArtifact
  rw [Tx.wp_bind, Tx.wp_get]
  dsimp only
  split
  · rw [Tx.wp_bind, Tx.wp_modify, Tx.wp_pure]
    refine ⟨⟨?_, fun b hb => ?_, fun b hb => ?_, fun ref href => ?_, fun id hid => ⟨(h.queued id hid).1, fun b hb => ?_⟩, h.once,
      h.tracked, h.files⟩, List.mem_append_right _ List.mem_cons_self, rfl, rfl⟩
    · dsimp only
      rw [List.map_append]
      exact nodup_append_singleton h.ids fun hmem => by
        obtain ⟨b, hb, hid⟩ := List.mem_map.mp hmem
        exact hfresh b hb hid
    · rcases List.mem_append.mp hb with hb | hb
      · exact h.drawn b hb
      · rw [List.mem_singleton.mp hb]
        exact hdrawn
    · rcases List.mem_append.mp hb with hb | hb
      · exact h.stored b hb
      · rw [List.mem_singleton.mp hb]
        exact hstored
    · obtain ⟨b, hb, hof⟩ := h.referenced ref href
      exact ⟨b, List.mem_append_left _ hb, hof⟩
    · rcases List.mem_append.mp hb with hb | hb
      · exact (h.queued id hid).2 b hb
      · rw [List.mem_singleton.mp hb]
        rintro rfl
        exact hfree hid
  · rename_i winner hwinner
    obtain ⟨hmem, hdocument⟩ := findArtifact_eq_some hwinner
    rw [Tx.wp_bind, Tx.wp_modify, Tx.wp_bind, Tx.wp_ofExcept]
    exact ⟨fun _ _ => ⟨h.schedule hdrawn hfresh, hmem, hdocument, rfl⟩, fun _ _ => trivial⟩

theorem wp_getOrCreate (h : Inv env.crypto s) :
    Tx.wp (getOrCreate env i code canonicalDocument pdf) (fun a t => Gotten env.crypto s t canonicalDocument a) (fun _ _ => True) s := by
  unfold getOrCreate
  rw [Tx.wp_bind, Tx.wp_get]
  dsimp only
  split
  · rename_i existing hexisting
    split at hexisting
    · cases hexisting
    · obtain ⟨hmem, hdocument⟩ := findArtifact_eq_some hexisting
      rw [Tx.wp_bind, Tx.wp_ofExcept]
      exact ⟨fun _ _ => ⟨h, hmem, hdocument, rfl⟩, fun _ _ => trivial⟩
  · rw [Tx.wp_bind, Tx.wp_modify]
    split
    · rw [Tx.wp_bind]
      exact Tx.wp_of_forall (fun _ _ _ => trivial) fun _ _ _ => trivial
    · rename_i artifact hbuilt
      obtain ⟨hid, hdocument, hstored⟩ := build_eq_ok hbuilt
      rw [Tx.wp_bind, Tx.wp_modify]
      have hfresh : ∀ b ∈ s.documents.artifacts, b.id ≠ artifact.id := by
        intro b hb
        rw [hid]
        exact Nat.ne_of_lt (h.drawn b hb)
      have hfree : artifact.id ∉ s.documents.cleanups := by
        intro hmem
        rw [hid] at hmem
        exact lt_irrefl _ (h.queued _ hmem).1
      have hdrawn : artifact.id < s.nextId + 1 := by
        rw [hid]
        exact Nat.lt_succ_self _
      refine Tx.wp_mono (wp_insertArtifact (h.draw _) hstored hdrawn hfresh hfree) (fun a t hgotten => ?_) fun _ _ _ => trivial
      exact ⟨hgotten.inv, hgotten.mem, hgotten.document.trans hdocument, hgotten.references⟩

theorem Grown.schedule : Grown s (scheduleDocumentArtifactRemoval id s) := by
  refine ⟨le_rfl, fun _ _ => rfl, fun _ h => .inl h, fun _ h => h, fun _ h => .inl h, fun _ h => h, fun _ h => .inl h, fun id' hid' => ?_⟩
  unfold scheduleDocumentArtifactRemoval
  dsimp only
  split
  · exact hid'
  · exact List.mem_append_left _ hid'

theorem grown_insertArtifact {s₀ : Storage} {a : DocumentArtifact} (h : Grown s₀ s) (hnew : s₀.nextId ≤ a.id) :
    Tx.wp (insertArtifact env i a) (fun _ t => Grown s₀ t) (fun _ t => Grown s₀ t) s := by
  unfold insertArtifact
  rw [Tx.wp_bind, Tx.wp_get]
  dsimp only
  split
  · rw [Tx.wp_bind, Tx.wp_modify, Tx.wp_pure]
    refine ⟨h.nextId, h.old, h.new, h.created, h.drawn, fun b hb => List.mem_append_left _ (h.artifacts b hb), fun b hb => ?_, h.cleanups⟩
    rcases List.mem_append.mp hb with hb | hb
    · exact h.rows b hb
    · rw [List.mem_singleton.mp hb]
      exact .inr hnew
  · rw [Tx.wp_bind, Tx.wp_modify, Tx.wp_bind, Tx.wp_ofExcept]
    have hqueued : Grown s₀ (scheduleDocumentArtifactRemoval a.id s) := trans_of Grown h Grown.schedule
    exact ⟨fun _ _ => hqueued, fun _ _ => hqueued⟩

theorem grown_getOrCreate : Tx.Frames Grown (getOrCreate env i code canonicalDocument pdf) s := by
  have hdrawn : ∀ content, Grown s { s with nextId := s.nextId + 1, created := s.created ++ [s.nextId], files := Function.update s.files s.nextId content } := by
    intro content
    refine ⟨Nat.le_succ _, fun id hid => Function.update_of_ne (Nat.ne_of_lt hid) _ _, fun id hid => ?_,
      fun id hid => List.mem_append_left _ hid, fun id hid => ?_, fun _ h => h, fun _ h => .inl h, fun _ h => h⟩
    · by_cases hsame : id = s.nextId
      · rw [hsame]
        exact .inr ⟨List.mem_append_right _ List.mem_cons_self, Nat.lt_succ_self _⟩
      · change Function.update s.files s.nextId content id ≠ none at hid
        rw [Function.update_of_ne hsame] at hid
        exact .inl hid
    · rcases List.mem_append.mp hid with hid | hid
      · exact .inl hid
      · rw [List.mem_singleton.mp hid]
        exact .inr (Nat.lt_succ_self _)
  have hunwritten : Grown s { s with nextId := s.nextId + 1, created := s.created ++ [s.nextId] } := by
    have hsame := hdrawn (s.files s.nextId)
    rwa [Function.update_eq_self] at hsame
  unfold getOrCreate
  rw [Tx.frames_get_bind]
  split
  · exact (Tx.frames_ofExcept _).bind fun _ _ _ => Tx.frames_pure _
  · refine Tx.wp_bind.mpr ?_
    rw [Tx.wp_modify]
    dsimp only
    split
    · rw [Tx.wp_bind, Tx.wp_whenever]
      exact ⟨fun _ => hdrawn _, fun _ => hunwritten⟩
    · rename_i artifact hbuilt
      obtain ⟨hid, -, -⟩ := build_eq_ok (s := s) hbuilt
      rw [Tx.wp_bind, Tx.wp_modify]
      exact grown_insertArtifact (hdrawn _) hid.ge

theorem grown_references (refs : List DocumentReference) : Grown s { s with documents := { s.documents with references := refs } } :=
  ⟨le_rfl, fun _ _ => rfl, fun _ h => .inl h, fun _ h => h, fun _ h => .inl h, fun _ h => h, fun _ h => .inl h, fun _ h => h⟩

variable {publication : PublicationId} {entries : List (ℕ × Bytes)} {failure : Option Error}

theorem grown_referenceDocument (e : (ℕ × Bytes) × ℕ) : Tx.Frames Grown (referenceDocument env publication code e) s := by
  unfold referenceDocument
  refine grown_getOrCreate.bind fun a t _ => ?_
  rw [Tx.frames_get_bind]
  exact (Tx.frames_ensure _ _).bind fun _ _ _ => grown_references _

theorem grown_buildGeneration : Tx.Frames Grown (buildGeneration env publication code entries failure) s := by
  have hbuild : Tx.Frames Grown (buildDocumentV2Generation env publication code entries) s := by
    unfold buildDocumentV2Generation
    rw [Tx.frames_get_bind]
    split
    · exact Tx.Frames.forEach fun _ _ _ _ => Tx.frames_ofExcept _
    · exact Tx.Frames.forEach fun e _ _ _ => grown_referenceDocument e
  unfold buildGeneration
  refine hbuild.bind fun _ t _ => ?_
  cases failure with
  | none => exact Tx.frames_pure ()
  | some e => exact refl_of Grown t

theorem wp_referenceDocument (e : (ℕ × Bytes) × ℕ) (h : Inv env.crypto s) :
    Tx.wp (referenceDocument env publication code e) (fun _ t => Inv env.crypto t) (fun _ _ => True) s := by
  unfold referenceDocument
  rw [Tx.wp_bind]
  refine Tx.wp_mono (wp_getOrCreate h) (fun a t hgotten => ?_) fun _ _ _ => trivial
  rw [Tx.wp_bind, Tx.wp_get, Tx.wp_bind, Tx.wp_ensure]
  refine ⟨fun _ => ?_, fun _ => trivial⟩
  have ht := hgotten.inv
  refine ⟨ht.ids, ht.drawn, ht.stored, fun ref href => ?_, ht.queued, ht.once, ht.tracked, ht.files⟩
  rcases List.mem_append.mp href with href | href
  · exact ht.referenced ref href
  · rw [List.mem_singleton.mp href]
    exact ⟨a, hgotten.mem, rfl, hgotten.document⟩

theorem wp_buildGeneration (h : Inv env.crypto s) :
    Tx.wp (buildGeneration env publication code entries failure) (fun _ t => Inv env.crypto t) (fun _ _ => True) s := by
  have hbuild : Tx.wp (buildDocumentV2Generation env publication code entries) (fun _ t => Inv env.crypto t) (fun _ _ => True) s := by
    unfold buildDocumentV2Generation
    rw [Tx.wp_bind, Tx.wp_get]
    split
    · refine Tx.wp_forEach (fun _ t => Inv env.crypto t) _ h fun e _ t ht => ?_
      rw [Tx.wp_ofExcept]
      exact ⟨fun _ _ => ht, fun _ _ => trivial⟩
    · exact Tx.wp_forEach (fun _ t => Inv env.crypto t) _ h fun e _ t ht => wp_referenceDocument e ht
  unfold buildGeneration
  rw [Tx.wp_bind]
  refine Tx.wp_mono hbuild (fun _ t ht => ?_) fun _ _ _ => trivial
  cases failure with
  | none => exact ht
  | some e => trivial

theorem Stored.congr {files files' : ℕ → Option Bytes} {a : DocumentArtifact} (h : Stored crypto files a) (hsame : files' a.id = files a.id) :
    Stored crypto files' a := by
  obtain ⟨hpath, ciphertext, hfile, hdescribes⟩ := h
  exact ⟨hpath, ciphertext, hsame.trans hfile, hdescribes⟩

theorem Inv.build (h : Inv env.crypto s) : Inv env.crypto (transaction (buildGeneration env publication code entries failure) s) := by
  unfold transaction
  split
  · rename_i t hbuild
    exact (wp_buildGeneration h).of_ok hbuild
  · rename_i e t hbuild
    have hgrown : Grown s t := grown_buildGeneration.of_error hbuild
    refine ⟨h.ids, fun a ha => Nat.lt_of_lt_of_le (h.drawn a ha) hgrown.nextId, fun a ha => (h.stored a ha).congr (hgrown.old a.id (h.drawn a ha)),
      h.referenced, fun id hid => ⟨Nat.lt_of_lt_of_le (h.queued id hid).1 hgrown.nextId, (h.queued id hid).2⟩, h.once, fun id hid => ?_, fun id hid => ?_⟩
    · rcases hgrown.drawn id hid with hid | hid
      · exact Nat.lt_of_lt_of_le (h.tracked id hid) hgrown.nextId
      · exact hid
    · rcases hgrown.new id hid with hid | hid
      · exact Nat.lt_of_lt_of_le (h.files id hid) hgrown.nextId
      · exact hid.2

theorem Inv.compensate (h : Inv crypto s) : Inv crypto (compensate id s) := by
  unfold DocumentStorage.compensate
  split
  · rename_i hmem
    have herased : Inv crypto { s with created := s.created.erase id } :=
      ⟨h.ids, h.drawn, h.stored, h.referenced, h.queued, h.once, fun id' hid' => h.tracked id' (List.mem_of_mem_erase hid'), h.files⟩
    dsimp only
    split
    · exact herased
    · rename_i hnone
      refine herased.schedule (h.tracked id hmem) fun a ha hid => hnone ?_
      exact List.any_eq_true.mpr ⟨a, ha, decide_eq_true hid⟩
  · exact h

theorem Inv.same {a b : DocumentArtifact} (h : Inv crypto s) (ha : a ∈ s.documents.artifacts) (hb : b ∈ s.documents.artifacts)
    (hid : a.id = b.id) : a = b :=
  List.inj_on_of_nodup_map h.ids ha hb hid

theorem Inv.release (h : Inv crypto s) : Inv crypto (releaseReferences publication code s) := by
  unfold releaseReferences DocumentTables.release
  set references := s.documents.references.filter (·.publication ≠ publication)
  set unreachable := s.documents.artifacts.filter _
  have hsub : (s.documents.artifacts.filter (· ∉ unreachable)).Sublist s.documents.artifacts := List.filter_sublist
  have hgone : ∀ a ∈ unreachable, a ∈ s.documents.artifacts := fun a ha => List.mem_of_mem_filter ha
  have hkept : ∀ a ∈ s.documents.artifacts.filter (· ∉ unreachable), a ∉ unreachable := fun a ha => of_decide_eq_true (List.mem_filter.mp ha).2
  refine ⟨(hsub.map _).nodup h.ids, fun a ha => h.drawn a (hsub.mem ha), fun a ha => h.stored a (hsub.mem ha),
    fun ref href => ?_, fun id hid => ?_, ?_, h.tracked, h.files⟩
  · obtain ⟨a, ha, hid, hdocument⟩ := h.referenced ref (List.mem_of_mem_filter href)
    have hstays : a ∉ unreachable := by
      intro hmem
      have hnone := (of_decide_eq_true (List.mem_filter.mp hmem).2).2
      exact hnone (List.any_eq_true.mpr ⟨ref, href, decide_eq_true hid.symm⟩)
    exact ⟨a, List.mem_filter.mpr ⟨ha, decide_eq_true hstays⟩, hid, hdocument⟩
  · rcases List.mem_append.mp hid with hid | hid
    · exact ⟨(h.queued id hid).1, fun a ha => (h.queued id hid).2 a (hsub.mem ha)⟩
    · obtain ⟨a, ha, rfl⟩ := List.mem_map.mp hid
      refine ⟨h.drawn a (hgone a ha), fun b hb hsame => hkept b hb ?_⟩
      rwa [h.same (hsub.mem hb) (hgone a ha) hsame]
  · refine List.nodup_append.mpr ⟨h.once, (List.filter_sublist.map _).nodup h.ids, fun id hid id' hid' hsame => ?_⟩
    obtain ⟨a, ha, rfl⟩ := List.mem_map.mp hid'
    exact (h.queued id hid).2 a (hgone a ha) hsame.symm

theorem Inv.removeQueued (h : Inv crypto s) (hfree : ∀ a ∈ s.documents.artifacts, a.id ≠ id) : Inv crypto (removeQueued id s) := by
  refine ⟨h.ids, h.drawn, fun a ha => (h.stored a ha).update (hfree a ha) none, h.referenced,
    fun id' hid' => h.queued id' (List.mem_of_mem_erase hid'), h.once.erase id, h.tracked, fun id' hid' => h.files id' fun hnone => hid' ?_⟩
  show Function.update s.files id none id' = none
  rw [Function.update_apply, hnone, ite_self]

theorem any_id_iff {artifacts : List DocumentArtifact} : artifacts.any (fun a => a.id = id) = true ↔ ∃ a ∈ artifacts, a.id = id := by
  rw [List.any_eq_true]
  exact exists_congr fun a => and_congr_right fun _ => decide_eq_true_iff

/-- A cleanup record is kept, or its file and the record are gone. -/
theorem process_cases (id : ℕ) (s : Storage) (removal : Removal) (result : CleanupResult) :
    (processCleanupRecord removal id s result).1 = s ∨
      (processCleanupRecord removal id s result).1 = removeQueued id s ∧ id ∈ s.documents.cleanups ∧ ∀ a ∈ s.documents.artifacts, a.id ≠ id := by
  unfold processCleanupRecord
  split
  · exact .inl rfl
  · rename_i hmem
    split
    · exact .inl rfl
    · split
      · exact .inl rfl
      · rename_i hnone
        rw [not_or, any_id_iff] at hnone
        exact .inr ⟨rfl, not_not.mp hmem, fun a ha hid => hnone.1 ⟨a, ha, hid⟩⟩

theorem Inv.process (removal : Removal) (result : CleanupResult) (h : Inv crypto s) :
    Inv crypto (processCleanupRecord removal id s result).1 := by
  rcases process_cases id s removal result with hsame | ⟨hremoved, -, hfree⟩
  · rwa [hsame]
  · rw [hremoved]
    exact h.removeQueued hfree

theorem isReferenced_iff {documents : DocumentTables} : isReferenced documents id = true ↔ ∃ ref ∈ documents.references, ref.documentArtifact = id := by
  unfold isReferenced
  rw [List.any_eq_true]
  exact exists_congr fun ref => and_congr_right fun _ => decide_eq_true_iff

theorem Inv.collectOrphan (h : Inv crypto s) : Inv crypto (collectOrphan id s) := by
  unfold DocumentStorage.collectOrphan
  split
  · rename_i horphan
    obtain ⟨hrow, hunreferenced⟩ := horphan
    obtain ⟨b, hb, hid⟩ := List.any_eq_true.mp hrow
    have hid := of_decide_eq_true hid
    have hsub : (s.documents.artifacts.filter fun a => a.id ≠ id).Sublist s.documents.artifacts := List.filter_sublist
    have hne : ∀ a ∈ s.documents.artifacts.filter fun a => a.id ≠ id, a.id ≠ id := fun a ha => of_decide_eq_true (List.mem_filter.mp ha).2
    refine Inv.schedule ⟨(hsub.map _).nodup h.ids, fun a ha => h.drawn a (hsub.mem ha), fun a ha => h.stored a (hsub.mem ha),
      fun ref href => ?_, fun id' hid' => ⟨(h.queued id' hid').1, fun a ha => (h.queued id' hid').2 a (hsub.mem ha)⟩, h.once, h.tracked, h.files⟩ ?_ hne
    · obtain ⟨a, ha, hof, hdocument⟩ := h.referenced ref href
      have hother : a.id ≠ id := by
        intro hsame
        have hreferenced : isReferenced s.documents id = true := isReferenced_iff.mpr ⟨ref, href, hof.symm.trans hsame⟩
        rw [hreferenced] at hunreferenced
        cases hunreferenced
      exact ⟨a, List.mem_filter.mpr ⟨ha, decide_eq_true hother⟩, hof, hdocument⟩
    · show id < s.nextId
      rw [← hid]
      exact h.drawn b hb
  · exact h

theorem inv_step {action : Action} (h : Inv crypto s) (hs : (system crypto).step s action t) : Inv crypto t := by
  obtain ⟨hcrypto, rfl⟩ := hs
  cases action with
  | build env publication code entries failure =>
    obtain rfl := hcrypto env publication code entries failure rfl
    exact h.build
  | compensate id => exact h.compensate
  | crash created callbacks =>
    exact ⟨h.ids, h.drawn, h.stored, h.referenced, h.queued, h.once, fun id hid => h.tracked id (List.mem_of_mem_filter hid), h.files⟩
  | release publication code => exact h.release
  | callback id removal =>
    show Inv crypto (if id ∈ s.callbacks then _ else s)
    split
    · exact Inv.process removal {} ⟨h.ids, h.drawn, h.stored, h.referenced, h.queued, h.once, h.tracked, h.files⟩
    · exact h
  | processCleanup id removal => exact h.process removal {}
  | collectOrphan id => exact h.collectOrphan

theorem inv_reachable (h : (system crypto).Reachable s) : Inv crypto s := by
  refine h.invariant (fun s hs => ?_) fun s action t hinv hs => inv_step hinv hs
  obtain rfl : s = {} := hs
  have hno : ∀ {α : Type} {P : α → Prop}, ∀ x ∈ ([] : List α), P x := fun x hx => absurd hx List.not_mem_nil
  exact ⟨List.nodup_nil, hno, hno, hno, hno, List.nodup_nil, hno, fun _ h => absurd rfl h⟩

/-- The rows that two states share have the same file. -/
structure Since (s t : Storage) : Prop where
  nextId : s.nextId ≤ t.nextId
  rows : ∀ a ∈ t.documents.artifacts, a.id < s.nextId → a ∈ s.documents.artifacts ∧ t.files a.id = s.files a.id

theorem Since.refl (s : Storage) : Since s s := ⟨le_rfl, fun _ ha _ => ⟨ha, rfl⟩⟩

theorem Since.trans {u : Storage} (h : Since s t) (h' : Since t u) : Since s u := by
  refine ⟨h.nextId.trans h'.nextId, fun a ha hold => ?_⟩
  obtain ⟨ha, hsame⟩ := h'.rows a ha (Nat.lt_of_lt_of_le hold h.nextId)
  obtain ⟨ha, hsame'⟩ := h.rows a ha hold
  exact ⟨ha, hsame.trans hsame'⟩

theorem Since.of_sub (hnext : t.nextId = s.nextId) (hfiles : t.files = s.files) (hsub : ∀ a ∈ t.documents.artifacts, a ∈ s.documents.artifacts) :
    Since s t :=
  ⟨hnext.ge, fun a ha _ => ⟨hsub a ha, congrFun hfiles a.id⟩⟩

theorem Since.process (removal : Removal) (result : CleanupResult) : Since s (processCleanupRecord removal id s result).1 := by
  rcases process_cases id s removal result with hsame | ⟨hremoved, -, hfree⟩
  · rw [hsame]
    exact Since.refl s
  · rw [hremoved]
    exact ⟨le_rfl, fun a ha _ => ⟨ha, Function.update_of_ne (hfree a ha) _ _⟩⟩

theorem Since.build : Since s (transaction (buildGeneration env publication code entries failure) s) := by
  unfold transaction
  split
  · rename_i t hbuild
    have hgrown : Grown s t := grown_buildGeneration.of_ok hbuild
    refine ⟨hgrown.nextId, fun a ha hold => ?_⟩
    rcases hgrown.rows a ha with hrow | hnew
    · exact ⟨hrow, hgrown.old a.id hold⟩
    · exact absurd hold (Nat.not_lt.mpr hnew)
  · rename_i e t hbuild
    have hgrown : Grown s t := grown_buildGeneration.of_error hbuild
    exact ⟨hgrown.nextId, fun a ha hold => ⟨ha, hgrown.old a.id hold⟩⟩

theorem Since.step {action : Action} (hs : (system crypto).step s action t) : Since s t := by
  obtain ⟨-, rfl⟩ := hs
  cases action with
  | build env publication code entries failure => exact Since.build
  | compensate id =>
    show Since s (DocumentStorage.compensate id s)
    unfold DocumentStorage.compensate
    split
    · dsimp only
      split
      · exact Since.of_sub rfl rfl fun _ ha => ha
      · exact Since.of_sub rfl rfl fun _ ha => ha
    · exact Since.refl s
  | crash created callbacks => exact Since.of_sub rfl rfl fun _ ha => ha
  | release publication code => exact Since.of_sub rfl rfl fun _ ha => List.mem_of_mem_filter ha
  | callback id removal =>
    show Since s (if id ∈ s.callbacks then _ else s)
    split
    · have hregistered : Since s { s with callbacks := s.callbacks.erase id } := Since.of_sub rfl rfl fun _ ha => ha
      exact hregistered.trans (Since.process removal {})
    · exact Since.refl s
  | processCleanup id removal => exact Since.process removal {}
  | collectOrphan id =>
    show Since s (DocumentStorage.collectOrphan id s)
    unfold DocumentStorage.collectOrphan
    split
    · exact Since.of_sub rfl rfl fun _ ha => List.mem_of_mem_filter ha
    · exact Since.refl s

/-- Every reference of a generation leads to a document whose ciphertext is in place, is not queued for removal
and stays what it was, whatever other workers build, release, lose or clean up meanwhile. -/
theorem references_stay_readable (h : (system crypto).Reachable s) (hst : (system crypto).Later s t) (worker : WorkerEnv) :
    (∀ ref ∈ t.documents.references, ∃ a ∈ t.documents.artifacts, a.id = ref.documentArtifact ∧ a.canonicalDocumentId = ref.canonicalDocumentId ∧
      validateDocumentArtifactStorage crypto (t.reader worker) a = .ok () ∧ a.id ∉ t.documents.cleanups) ∧
      ∀ a ∈ s.documents.artifacts, a ∈ t.documents.artifacts → t.files a.id = s.files a.id := by
  obtain ⟨hreach, hsince⟩ := h.later Since.refl Since.trans (fun _ hs => Since.step hs) hst
  have hinv := inv_reachable hreach
  constructor
  · intro ref href
    obtain ⟨a, ha, hid, hdocument⟩ := hinv.referenced ref href
    exact ⟨a, ha, hid, hdocument, validate_of_stored (hinv.stored a ha) worker, fun hqueued => (hinv.queued a.id hqueued).2 a ha rfl⟩
  · intro a hs ht
    exact (hsince.rows a ht ((inv_reachable h).drawn a hs)).2

theorem reachable_threeBuilds : (system sampleCrypto).Reachable (threeBuilds.foldl Action.run {}) := ⟨{}, _, run_threeBuilds⟩

theorem kept_build_readable :
    let s := threeBuilds.foldl Action.run {}
    let t := (Action.processCleanup 2 .done).run s
    s.documents.cleanups = [2] ∧ s.documents.references.map (·.documentArtifact) = [0] ∧
      (∀ ref ∈ t.documents.references, ∃ a ∈ t.documents.artifacts, a.id = ref.documentArtifact ∧ a.canonicalDocumentId = ref.canonicalDocumentId ∧
        validateDocumentArtifactStorage sampleCrypto (t.reader (sampleBuild.worker 0)) a = .ok () ∧ a.id ∉ t.documents.cleanups) ∧
      ∀ a ∈ s.documents.artifacts, a ∈ t.documents.artifacts → t.files a.id = s.files a.id := by
  refine ⟨by decide +kernel, by decide +kernel, references_stay_readable reachable_threeBuilds (Machine.Later.step (a := .processCleanup 2 .done) ?_) _⟩
  refine ⟨fun env publication code entries failure hbuild => ?_, rfl⟩
  cases hbuild

/-! ### Files without rows -/

/-- Something still leads to the file: a row, a queued removal, or the build that made it. -/
def Tracked (s : Storage) (id : ℕ) : Prop := (∃ a ∈ s.documents.artifacts, a.id = id) ∨ id ∈ s.documents.cleanups ∨ id ∈ s.created

theorem Tracked.mono (h : Tracked s id) (hrows : ∀ a ∈ s.documents.artifacts, a ∈ t.documents.artifacts ∨ a.id ∈ t.documents.cleanups)
    (hcleanups : ∀ id ∈ s.documents.cleanups, id ∈ t.documents.cleanups) (hcreated : id ∈ s.created → Tracked t id) : Tracked t id := by
  rcases h with ⟨a, ha, rfl⟩ | hqueued | hmade
  · rcases hrows a ha with ha | hqueued
    · exact .inl ⟨a, ha, rfl⟩
    · exact .inr (.inl hqueued)
  · exact .inr (.inl (hcleanups id hqueued))
  · exact hcreated hmade

theorem mem_schedule : id ∈ (scheduleDocumentArtifactRemoval id s).documents.cleanups := by
  unfold scheduleDocumentArtifactRemoval
  dsimp only
  split
  · assumption
  · exact List.mem_append_right _ List.mem_cons_self

theorem tracked_build (hold : s.files id ≠ none → Tracked s id)
    (hfile : (transaction (buildGeneration env publication code entries failure) s).files id ≠ none) :
    Tracked (transaction (buildGeneration env publication code entries failure) s) id := by
  unfold transaction at hfile ⊢
  split at hfile
  · rename_i t hbuild
    have hgrown : Grown s t := grown_buildGeneration.of_ok hbuild
    rcases hgrown.new id hfile with hthen | hmade
    · exact (hold hthen).mono (fun a ha => .inl (hgrown.artifacts a ha)) hgrown.cleanups fun hmade => .inr (.inr (hgrown.created id hmade))
    · exact .inr (.inr hmade.1)
  · rename_i e t hbuild
    have hgrown : Grown s t := grown_buildGeneration.of_error hbuild
    rcases hgrown.new id hfile with hthen | hmade
    · exact (hold hthen).mono (fun a ha => .inl ha) (fun _ hq => hq) fun hmade => .inr (.inr (hgrown.created id hmade))
    · exact .inr (.inr hmade.1)

theorem tracked_process {id' : ℕ} (removal : Removal) (result : CleanupResult) (hold : s.files id ≠ none → Tracked s id)
    (hfile : (processCleanupRecord removal id' s result).1.files id ≠ none) : Tracked (processCleanupRecord removal id' s result).1 id := by
  rcases process_cases id' s removal result with hsame | ⟨hremoved, -, -⟩
  · rw [hsame] at hfile ⊢
    exact hold hfile
  · rw [hremoved] at hfile ⊢
    have hne : id ≠ id' := by
      rintro rfl
      exact hfile (Function.update_self _ _ _)
    have hthen : s.files id ≠ none := by
      intro hnone
      exact hfile ((Function.update_of_ne hne _ _).trans hnone)
    rcases hold hthen with hrow | hqueued | hmade
    · exact .inl hrow
    · exact .inr (.inl ((List.mem_erase_of_ne hne).mpr hqueued))
    · exact .inr (.inr hmade)

theorem tracked_compensate {id' : ℕ} (hold : Tracked s id) : Tracked (compensate id' s) id := by
  unfold compensate
  split
  · dsimp only
    have hlast : id ∈ s.created → id ∈ s.created.erase id' ∨ id = id' := by
      intro hmade
      by_cases hsame : id = id'
      · exact .inr hsame
      · exact .inl ((List.mem_erase_of_ne hsame).mpr hmade)
    split
    · rename_i hrow
      refine hold.mono (fun a ha => .inl ha) (fun _ hq => hq) fun hmade => ?_
      rcases hlast hmade with hmade | rfl
      · exact .inr (.inr hmade)
      · exact .inl (any_id_iff.mp hrow)
    · refine hold.mono (fun a ha => .inl ha) (fun _ hq => Grown.schedule.cleanups _ hq) fun hmade => ?_
      rcases hlast hmade with hmade | rfl
      · exact .inr (.inr hmade)
      · exact .inr (.inl mem_schedule)
  · exact hold

theorem tracked_release (hold : Tracked s id) : Tracked (releaseReferences publication code s) id := by
  refine hold.mono (fun a ha => ?_) (fun _ hq => List.mem_append_left _ hq) fun hmade => .inr (.inr hmade)
  by_cases hgone : a.id ∈ (s.documents.release publication code).2
  · exact .inr (List.mem_append_right _ hgone)
  · exact .inl (List.mem_filter.mpr ⟨ha, decide_eq_true fun hmem => hgone (List.mem_map_of_mem hmem)⟩)

theorem tracked_collectOrphan {id' : ℕ} (hold : Tracked s id) : Tracked (collectOrphan id' s) id := by
  unfold collectOrphan
  split
  · refine hold.mono (fun a ha => ?_) (fun _ hq => Grown.schedule.cleanups _ hq) fun hmade => .inr (.inr hmade)
    by_cases hsame : a.id = id'
    · rw [hsame]
      exact .inr mem_schedule
    · exact .inl (List.mem_filter.mpr ⟨ha, decide_eq_true hsame⟩)
  · exact hold

/-- A file without a row that nothing would remove was there before, or the worker that made it dies now. -/
theorem tracked_step {action : Action} (hs : (system crypto).step s action t) (hold : s.files id ≠ none → Tracked s id)
    (hfile : t.files id ≠ none) : Tracked t id ∨ action.Loses s id := by
  obtain ⟨-, rfl⟩ := hs
  cases action with
  | build env publication code entries failure => exact .inl (tracked_build hold hfile)
  | compensate id' =>
    have hthen : s.files id ≠ none := by
      intro hnone
      have hsame : (Action.run s (.compensate id')).files = s.files := by
        show (DocumentStorage.compensate id' s).files = s.files
        unfold DocumentStorage.compensate
        split
        · dsimp only
          split <;> rfl
        · rfl
      exact hfile ((congrFun hsame id).trans hnone)
    exact .inl (tracked_compensate (hold hthen))
  | crash created callbacks =>
    by_cases hmade : id ∈ s.created ∧ created id = false
    · exact .inr hmade
    · refine .inl ((hold hfile).mono (fun a ha => .inl ha) (fun _ hq => hq) fun hin => .inr (.inr (List.mem_filter.mpr ⟨hin, ?_⟩)))
      by_contra hdrop
      exact hmade ⟨hin, Bool.eq_false_iff.mpr hdrop⟩
  | release publication code => exact .inl (tracked_release (hold hfile))
  | callback id' removal =>
    left
    change (if id' ∈ s.callbacks then _ else s : Storage).files id ≠ none at hfile
    show Tracked (if id' ∈ s.callbacks then _ else s) id
    split at hfile
    · rename_i hregistered
      rw [if_pos hregistered]
      exact tracked_process removal {} (fun hthen => hold hthen) hfile
    · rename_i hunregistered
      rw [if_neg hunregistered]
      exact hold hfile
  | processCleanup id' removal => exact .inl (tracked_process removal {} hold hfile)
  | collectOrphan id' =>
    have hthen : s.files id ≠ none := by
      intro hnone
      have hsame : (Action.run s (.collectOrphan id')).files = s.files := by
        show (DocumentStorage.collectOrphan id' s).files = s.files
        unfold DocumentStorage.collectOrphan
        split <;> rfl
      exact hfile ((congrFun hsame id).trans hnone)
    exact .inl (tracked_collectOrphan (hold hthen))

theorem tracked_run {s₀ : Storage} {trace : List (Storage × Action × Storage)} (h : (system crypto).Run s₀ trace s) (hfile : s.files id ≠ none) :
    Tracked s id ∨ ∃ e ∈ trace, e.2.1.Loses e.1 id := by
  induction h with
  | start hinit =>
    obtain rfl : _ = _ := hinit
    exact absurd rfl hfile
  | @next t t' trace action hrun hs ih =>
    by_cases hlost : ∃ e ∈ trace, e.2.1.Loses e.1 id
    · obtain ⟨e, he, hloses⟩ := hlost
      exact .inr ⟨e, List.mem_append_left _ he, hloses⟩
    · have hold : t.files id ≠ none → Tracked t id := fun hthen => (ih hthen).resolve_right hlost
      rcases tracked_step hs hold hfile with htracked | hloses
      · exact .inl htracked
      · exact .inr ⟨_, List.mem_append_right _ List.mem_cons_self, hloses⟩

/-! ### A cleanup pass -/

/-- One attempt at a queued removal is either deferred or takes the file and its record. -/
theorem process_queued (removal : Removal) (result : CleanupResult) (hmem : id ∈ s.documents.cleanups) (hfree : ∀ a ∈ s.documents.artifacts, a.id ≠ id) :
    (∃ deleted missing, deleted + missing = 1 ∧ removal = .done ∧ processCleanupRecord removal id s result = (removeQueued id s,
        { result with
          documentCleanupRecordsProcessed := result.documentCleanupRecordsProcessed + 1
          filesDeleted := result.filesDeleted + deleted
          filesAlreadyMissing := result.filesAlreadyMissing + missing })) ∨
      ∃ failed ≤ 1, removal ≠ .done ∧ processCleanupRecord removal id s result =
        (s, { result with cleanupFailed := result.cleanupFailed + failed, cleanupDeferred := result.cleanupDeferred + 1 }) := by
  have hnone : s.documents.artifacts.any (fun a => a.id = id) ≠ true := by
    rw [ne_eq, any_id_iff]
    rintro ⟨a, ha, hid⟩
    exact hfree a ha hid
  unfold processCleanupRecord
  rw [if_neg (not_not.mpr hmem)]
  cases removal with
  | locked => exact .inr ⟨0, Nat.zero_le 1, nofun, rfl⟩
  | failed =>
    dsimp only
    rw [if_pos (Or.inr rfl)]
    exact .inr ⟨1, le_rfl, nofun, rfl⟩
  | done =>
    dsimp only
    rw [if_neg (not_or.mpr ⟨hnone, nofun⟩)]
    by_cases hfile : s.files id = none
    · rw [if_pos hfile, if_pos hfile]
      exact .inl ⟨0, 1, rfl, rfl, rfl⟩
    · rw [if_neg hfile, if_neg hfile]
      exact .inl ⟨1, 0, rfl, rfl, rfl⟩

theorem mem_unreferenced : id ∈ unreferenced s.documents ↔ (∃ a ∈ s.documents.artifacts, a.id = id) ∧ isReferenced s.documents id = false := by
  unfold unreferenced
  rw [List.mem_map]
  constructor
  · rintro ⟨a, ha, rfl⟩
    obtain ⟨ha, hnone⟩ := List.mem_filter.mp ha
    exact ⟨⟨a, ha, rfl⟩, of_decide_eq_true hnone⟩
  · rintro ⟨⟨a, ha, rfl⟩, hnone⟩
    exact ⟨a, List.mem_filter.mpr ⟨ha, decide_eq_true hnone⟩, rfl⟩

theorem Inv.nodup_unreferenced (h : Inv crypto s) : (unreferenced s.documents).Nodup := (List.filter_sublist.map _).nodup h.ids

/-- The row of an artifact is gone, and its removal is the last one queued. -/
structure Collected (crypto : Crypto) (id : ℕ) (s t : Storage) : Prop where
  inv : Inv crypto t
  cleanups : t.documents.cleanups = s.documents.cleanups ++ [id]
  artifacts : t.documents.artifacts = s.documents.artifacts.filter fun a => a.id ≠ id
  references : t.documents.references = s.documents.references
  created : t.created = s.created
  files : t.files = s.files

theorem collectGeneric_unreferenced (removals : ℕ → Removal) (result : CleanupResult) (h : Inv crypto s) (hmem : id ∈ unreferenced s.documents) :
    ∃ t, Collected crypto id s t ∧ collectGeneric removals (s, result) id =
      processCleanupRecord (removals id) id t { result with documentOrphanRecordsRemoved := result.documentOrphanRecordsRemoved + 1 } := by
  obtain ⟨hrow, hnone⟩ := mem_unreferenced.mp hmem
  have hcollect : collectOrphan id s = scheduleDocumentArtifactRemoval id { s with
      documents := { s.documents with artifacts := s.documents.artifacts.filter fun a => a.id ≠ id } } := if_pos ⟨any_id_iff.mpr hrow, hnone⟩
  have hnew : id ∉ s.documents.cleanups := by
    obtain ⟨a, ha, hid⟩ := hrow
    exact fun hqueued => (h.queued id hqueued).2 a ha hid
  have hinv : Inv crypto (collectOrphan id s) := h.collectOrphan
  refine ⟨{ collectOrphan id s with callbacks := (collectOrphan id s).callbacks.erase id },
    ⟨⟨hinv.ids, hinv.drawn, hinv.stored, hinv.referenced, hinv.queued, hinv.once, hinv.tracked, hinv.files⟩, ?_, ?_, ?_, ?_, ?_⟩,
    if_pos ⟨any_id_iff.mpr hrow, hnone⟩⟩
  · rw [hcollect]
    exact if_neg hnew
  · rw [hcollect]
    rfl
  · rw [hcollect]
    rfl
  · rw [hcollect]
    rfl
  · rw [hcollect]
    rfl

theorem Collected.free (h : Collected crypto id s t) : ∀ a ∈ t.documents.artifacts, a.id ≠ id := by
  intro a ha
  rw [h.artifacts] at ha
  exact of_decide_eq_true (List.mem_filter.mp ha).2

theorem Collected.queued (h : Collected crypto id s t) : id ∈ t.documents.cleanups := by
  rw [h.cleanups]
  exact List.mem_append_right _ List.mem_cons_self

theorem Collected.unreferenced_removed (h : Collected crypto id s t) :
    unreferenced (removeQueued id t).documents = (unreferenced s.documents).filter (· ≠ id) := by
  have hartifacts : (removeQueued id t).documents.artifacts = s.documents.artifacts.filter fun a => a.id ≠ id := h.artifacts
  have hreferences : (removeQueued id t).documents.references = s.documents.references := h.references
  unfold unreferenced isReferenced
  rw [List.filter_map, hartifacts, hreferences, List.filter_filter, List.filter_filter]
  congr 1
  exact List.filter_congr fun a _ => Bool.and_comm _ _

/-- A removed artifact leaves the queue as it was. -/
theorem Collected.cleanups_removed (h : Collected crypto id s t) (hnew : id ∉ s.documents.cleanups) :
    (removeQueued id t).documents.cleanups = s.documents.cleanups := by
  show t.documents.cleanups.erase id = _
  rw [h.cleanups, List.erase_append_right _ hnew, List.erase_cons_head, List.append_nil]

/-- The steps of a cleanup, whoever takes them. -/
def Quiet : Storage → Storage → Prop := Relation.ReflTransGen fun s t => ∃ action : Action, action.cleans = true ∧ t = action.run s

theorem Quiet.step (action : Action) (hcleans : action.cleans = true) : Quiet s (action.run s) := Relation.ReflTransGen.single ⟨action, hcleans, rfl⟩

theorem step_of_cleans (crypto : Crypto) {action : Action} (hcleans : action.cleans = true) : (system crypto).step s action (action.run s) := by
  refine ⟨fun env publication code entries failure hof => ?_, rfl⟩
  rw [hof] at hcleans
  cases hcleans

theorem Quiet.later (crypto : Crypto) (h : Quiet s t) : (system crypto).Later s t := by
  induction h with
  | refl => exact Relation.ReflTransGen.refl
  | tail _ hs ih =>
    obtain ⟨action, hcleans, rfl⟩ := hs
    exact ih.tail ⟨action, step_of_cleans crypto hcleans⟩

/-- Nobody dies in a cleanup. -/
theorem Quiet.run {s₀ : Storage} {trace : List (Storage × Action × Storage)} (h : Quiet s t) (hrun : (system crypto).Run s₀ trace s) :
    ∃ more, (system crypto).Run s₀ (trace ++ more) t ∧ ∀ e ∈ more, ∀ id, ¬e.2.1.Loses e.1 id := by
  induction h with
  | refl =>
    rw [← List.append_nil trace] at hrun
    exact ⟨[], hrun, fun e he => absurd he List.not_mem_nil⟩
  | @tail t u _ hs ih =>
    obtain ⟨action, hcleans, rfl⟩ := hs
    obtain ⟨more, hrun, hmore⟩ := ih
    have hnext := hrun.next (step_of_cleans crypto hcleans)
    rw [List.append_assoc] at hnext
    refine ⟨_, hnext, fun e he id => ?_⟩
    rcases List.mem_append.mp he with he | he
    · exact hmore e he id
    · obtain rfl := List.mem_singleton.mp he
      cases action with
      | crash created callbacks => cases hcleans
      | _ => exact not_false

theorem process_fst (removal : Removal) (result : CleanupResult) :
    (processCleanupRecord removal id s result).1 = (processCleanupRecord removal id s {}).1 := by
  unfold processCleanupRecord
  split
  · rfl
  · split
    · rfl
    · split <;> rfl

theorem Quiet.process (removal : Removal) (result : CleanupResult) : Quiet s (processCleanupRecord removal id s result).1 := by
  rw [process_fst]
  exact Quiet.step (.processCleanup id removal) rfl

theorem Quiet.collectGeneric (removals : ℕ → Removal) (result : CleanupResult) : Quiet s (collectGeneric removals (s, result) id).1 := by
  unfold DocumentStorage.collectGeneric
  dsimp only
  split
  · rename_i horphan
    rw [process_fst]
    have hregistered : id ∈ (DocumentStorage.collectOrphan id s).callbacks := by
      unfold DocumentStorage.collectOrphan
      rw [if_pos horphan]
      exact List.mem_append_right _ List.mem_cons_self
    have hcallback : Quiet (DocumentStorage.collectOrphan id s) ((Action.callback id (removals id)).run (DocumentStorage.collectOrphan id s)) :=
      Quiet.step _ rfl
    rw [show (Action.callback id (removals id)).run (DocumentStorage.collectOrphan id s) = _ from if_pos hregistered] at hcallback
    exact (Quiet.step (.collectOrphan id) rfl).trans hcallback
  · exact Relation.ReflTransGen.refl

/-- A pass with the batch size `n`. -/
def cleanupPass (n : ℕ) (removals : ℕ → Removal) (s : Storage) : Storage :=
  match cleanupUnreferencedDocumentArtifacts n removals s with
  | .ok (t, _) => t
  | .error _ => s

theorem Quiet.foldl {β : Type} {body : Storage × β → ℕ → Storage × β} (hbody : ∀ p id, Quiet p.1 (body p id).1) (batch : List ℕ)
    (p : Storage × β) : Quiet p.1 (batch.foldl body p).1 := by
  induction batch generalizing p with
  | nil => exact Relation.ReflTransGen.refl
  | cons id batch ih => exact (hbody p id).trans (ih _)

/-- A pass is a run of removals and collections, whatever the storage answers. -/
theorem Quiet.cleanupPass (n : ℕ) (removals : ℕ → Removal) : Quiet s (cleanupPass n removals s) := by
  unfold DocumentStorage.cleanupPass cleanupUnreferencedDocumentArtifacts
  split
  · rename_i t result hpass
    split at hpass
    · cases hpass
    · have hpass := Except.ok.inj hpass
      have hqueue : ∀ (batch : List ℕ) (p : Storage × CleanupResult), Quiet p.1 (batch.foldl (fun (p : Storage × CleanupResult) id => processCleanupRecord (removals id) id p.1 p.2) p).1 :=
        Quiet.foldl fun p id => Quiet.process (removals id) p.2
      have hrows : ∀ (batch : List ℕ) (p : Storage × CleanupResult), Quiet p.1 (batch.foldl (DocumentStorage.collectGeneric removals) p).1 :=
        Quiet.foldl fun p _ => Quiet.collectGeneric removals p.2
      have ht := congrArg Prod.fst hpass
      dsimp only at ht
      rw [← ht]
      exact (hqueue _ (s, {})).trans (hrows _ _)
  · exact Relation.ReflTransGen.refl

/-- What a pass does when the storage answers, besides the files. -/
structure Swept (crypto : Crypto) (s t : Storage) : Prop where
  inv : Inv crypto t
  references : t.documents.references = s.documents.references
  created : t.created = s.created

theorem Swept.trans {u : Storage} (h : Swept crypto s t) (h' : Swept crypto t u) : Swept crypto s u :=
  ⟨h'.inv, h'.references.trans h.references, h'.created.trans h.created⟩

/-- The queued removals of a batch. -/
theorem sweep_queue (batch rest : List ℕ) (result : CleanupResult) (h : Inv crypto s) (hqueue : s.documents.cleanups = batch ++ rest) :
    let t := (batch.foldl (fun p id => processCleanupRecord .done id p.1 p.2) (s, result)).1
    Swept crypto s t ∧ t.documents.cleanups = rest ∧ t.documents.artifacts = s.documents.artifacts := by
  induction batch generalizing s result with
  | nil => exact ⟨⟨h, rfl, rfl⟩, hqueue, rfl⟩
  | cons id batch ih =>
    have hmem : id ∈ s.documents.cleanups := by
      rw [hqueue]
      exact List.mem_cons_self
    have hfree := (h.queued id hmem).2
    have hrest : (removeQueued id s).documents.cleanups = batch ++ rest := by
      show s.documents.cleanups.erase id = _
      rw [hqueue]
      exact List.erase_cons_head id _
    rcases process_queued .done result hmem hfree with ⟨_, _, -, -, hprocess⟩ | ⟨_, -, hother, -⟩
    · rw [List.foldl_cons, hprocess]
      have hremoved : Swept crypto s (removeQueued id s) := ⟨h.removeQueued hfree, rfl, rfl⟩
      obtain ⟨hswept, hleft, hrows⟩ := ih _ hremoved.inv hrest
      exact ⟨hremoved.trans hswept, hleft, hrows⟩
    · exact absurd rfl hother

/-- The unreferenced artifacts of a batch. -/
theorem sweep_unreferenced (batch rest : List ℕ) (result : CleanupResult) (h : Inv crypto s) (hbatch : unreferenced s.documents = batch ++ rest) :
    let t := (batch.foldl (collectGeneric fun _ => .done) (s, result)).1
    Swept crypto s t ∧ t.documents.cleanups = s.documents.cleanups ∧ unreferenced t.documents = rest := by
  induction batch generalizing s result with
  | nil => exact ⟨⟨h, rfl, rfl⟩, rfl, hbatch⟩
  | cons id batch ih =>
    have hmem : id ∈ unreferenced s.documents := by
      rw [hbatch]
      exact List.mem_cons_self
    have hnew : id ∉ s.documents.cleanups := by
      obtain ⟨⟨a, ha, hid⟩, -⟩ := mem_unreferenced.mp hmem
      exact fun hqueued => (h.queued id hqueued).2 a ha hid
    have hrest : (unreferenced s.documents).filter (· ≠ id) = batch ++ rest := by
      have hnodup := h.nodup_unreferenced
      rw [hbatch, List.cons_append, List.nodup_cons] at hnodup
      rw [hbatch, List.cons_append, List.filter_cons_of_neg (by simp)]
      refine List.filter_eq_self.mpr fun id' hid' => decide_eq_true ?_
      rintro rfl
      exact hnodup.1 hid'
    obtain ⟨t, hcollected, hstep⟩ := collectGeneric_unreferenced (fun _ => .done) result h hmem
    rcases process_queued .done { result with documentOrphanRecordsRemoved := result.documentOrphanRecordsRemoved + 1 } hcollected.queued
      hcollected.free with ⟨_, _, -, -, hprocess⟩ | ⟨_, -, hother, -⟩
    · rw [List.foldl_cons, hstep, hprocess]
      have hremoved : Swept crypto s (removeQueued id t) :=
        ⟨hcollected.inv.removeQueued hcollected.free, hcollected.references, hcollected.created⟩
      obtain ⟨hswept, hleft, hrows⟩ := ih _ hremoved.inv (hcollected.unreferenced_removed.trans hrest)
      exact ⟨hremoved.trans hswept, hleft.trans (hcollected.cleanups_removed hnew), hrows⟩
    · exact absurd rfl hother

theorem sweep_pass {n : ℕ} (hn : 0 < n) (h : Inv crypto s) :
    let t := cleanupPass n (fun _ => .done) s
    Swept crypto s t ∧ t.documents.cleanups = s.documents.cleanups.drop n ∧ unreferenced t.documents = (unreferenced s.documents).drop n := by
  obtain ⟨hqueue, hleft, hrows⟩ := sweep_queue (s.documents.cleanups.take n) (s.documents.cleanups.drop n) {} h (List.take_append_drop _ _).symm
  have hsame : unreferenced ((s.documents.cleanups.take n).foldl (fun p id => processCleanupRecord .done id p.1 p.2) (s, {})).1.documents =
      unreferenced s.documents := by
    unfold unreferenced isReferenced
    rw [hrows, hqueue.references]
  obtain ⟨hcollect, hkept, hrest⟩ := sweep_unreferenced _ _ ((s.documents.cleanups.take n).foldl (fun p id => processCleanupRecord .done id p.1 p.2) (s, {})).2
    hqueue.inv (List.take_append_drop n _).symm
  unfold cleanupPass cleanupUnreferencedDocumentArtifacts
  rw [if_neg (Nat.not_lt.mpr hn)]
  exact ⟨hqueue.trans hcollect, hkept.trans hleft, hrest.trans (congrArg _ hsame)⟩

theorem sweep_passes {n : ℕ} (hn : 0 < n) (k : ℕ) (h : Inv crypto s) :
    let t := (cleanupPass n fun _ => .done)^[k] s
    Swept crypto s t ∧ t.documents.cleanups = s.documents.cleanups.drop (k * n) ∧ unreferenced t.documents = (unreferenced s.documents).drop (k * n) := by
  induction k with
  | zero =>
    rw [Nat.zero_mul]
    exact ⟨⟨h, rfl, rfl⟩, rfl, rfl⟩
  | succ k ih =>
    obtain ⟨hswept, hqueue, hrows⟩ := ih
    obtain ⟨hnext, hqueue', hrows'⟩ := sweep_pass hn hswept.inv
    rw [Function.iterate_succ_apply', Nat.succ_mul, ← List.drop_drop, ← List.drop_drop, ← hqueue, ← hrows]
    exact ⟨hswept.trans hnext, hqueue', hrows'⟩

theorem Quiet.passes (n : ℕ) (k : ℕ) (removals : ℕ → Removal) : Quiet s ((DocumentStorage.cleanupPass n removals)^[k] s) := by
  induction k with
  | zero => exact Relation.ReflTransGen.refl
  | succ k ih =>
    rw [Function.iterate_succ_apply']
    exact ih.trans (Quiet.cleanupPass n removals)

/-- Once no build is under way, enough passes leave the ciphertexts that generations refer to, as they were, and besides
them only files of workers that died between the promotion of a ciphertext and its compensation. -/
theorem cleanup_leaves_referenced {s₀ : Storage} {trace : List (Storage × Action × Storage)} (h : (system crypto).Run s₀ trace s)
    (hidle : s.created = []) {n k : ℕ} (hn : 0 < n) (hqueue : s.documents.cleanups.length ≤ k * n)
    (hrows : (unreferenced s.documents).length ≤ k * n) :
    let t := (cleanupPass n fun _ => .done)^[k] s
    t.documents.references = s.documents.references ∧ t.documents.cleanups = [] ∧ unreferenced t.documents = [] ∧
      (∀ ref ∈ s.documents.references, t.files ref.documentArtifact = s.files ref.documentArtifact ∧ t.files ref.documentArtifact ≠ none) ∧
      ∀ id, t.files id ≠ none → isReferenced s.documents id = true ∨ ∃ e ∈ trace, e.2.1.Loses e.1 id := by
  have hinv : Inv crypto s := inv_reachable ⟨s₀, trace, h⟩
  obtain ⟨hswept, hcleanups, hunreferenced⟩ := sweep_passes hn k hinv
  have hquiet := Quiet.passes (s := s) n k fun _ => .done
  rw [List.drop_eq_nil_of_le hqueue] at hcleanups
  rw [List.drop_eq_nil_of_le hrows] at hunreferenced
  refine ⟨hswept.references, hcleanups, hunreferenced, ?_, ?_⟩
  · intro ref href
    obtain ⟨b, hb, hbid, -⟩ := hinv.referenced ref href
    rw [← hswept.references] at href
    obtain ⟨a, ha, hid, -⟩ := hswept.inv.referenced ref href
    obtain ⟨-, hsince⟩ := Machine.Reachable.later Since.refl Since.trans (fun _ hs => Since.step hs) ⟨s₀, trace, h⟩ (hquiet.later crypto)
    have hdrawn : a.id < s.nextId := by
      rw [hid, ← hbid]
      exact hinv.drawn b hb
    obtain ⟨-, ciphertext, hfile, -⟩ := hswept.inv.stored a ha
    rw [← hid]
    exact ⟨(hsince.rows a ha hdrawn).2, hfile ▸ Option.some_ne_none ciphertext⟩
  · intro id hfile
    obtain ⟨more, hrun, hmore⟩ := hquiet.run h
    rcases tracked_run hrun hfile with (⟨a, ha, rfl⟩ | hqueued | hmade) | ⟨e, he, hloses⟩
    · left
      by_contra hnone
      have hmem : a.id ∈ unreferenced ((cleanupPass n fun _ => .done)^[k] s).documents := by
        refine mem_unreferenced.mpr ⟨⟨a, ha, rfl⟩, ?_⟩
        unfold isReferenced
        rw [hswept.references]
        exact Bool.eq_false_iff.mpr hnone
      rw [hunreferenced] at hmem
      cases hmem
    · rw [hcleanups] at hqueued
      cases hqueued
    · rw [hswept.created, hidle] at hmade
      cases hmade
    · rcases List.mem_append.mp he with he | he
      · exact .inr ⟨e, he, hloses⟩
      · exact absurd hloses (hmore e he id)

/-- The file of the worker that died stays, and the released one goes. -/
theorem lost_file_stays :
    let s := threeBuilds.foldl Action.run {}
    let t := (cleanupPass 1 fun _ => .done)^[1] s
    t.documents.references = s.documents.references ∧ t.documents.cleanups = [] ∧ unreferenced t.documents = [] ∧
      (∀ ref ∈ s.documents.references, t.files ref.documentArtifact = s.files ref.documentArtifact ∧ t.files ref.documentArtifact ≠ none) ∧
      (∀ id, t.files id ≠ none → isReferenced s.documents id = true ∨ ∃ e ∈ Machine.steps Action.run {} threeBuilds, e.2.1.Loses e.1 id) ∧
      t.files 1 ≠ none ∧ s.files 2 ≠ none ∧ t.files 2 = none := by
  obtain ⟨hreferences, hcleanups, hunreferenced, hkept, hlost⟩ :=
    cleanup_leaves_referenced (n := 1) (k := 1) run_threeBuilds (by decide +kernel) (by decide) (by decide +kernel) (by decide +kernel)
  exact ⟨hreferences, hcleanups, hunreferenced, hkept, hlost, by decide +kernel, by decide +kernel, by decide +kernel⟩

/-! ### The counters of a pass -/

/-- The counters against the state `s` that the pass found, after `attempts` removals. -/
structure Accounted (crypto : Crypto) (s : Storage) (attempts : ℕ) (p : Storage × CleanupResult) : Prop where
  inv : Inv crypto p.1
  files : p.2.filesDeleted + p.2.filesAlreadyMissing = p.2.documentCleanupRecordsProcessed
  failed : p.2.cleanupFailed ≤ p.2.cleanupDeferred
  queue : p.1.documents.cleanups.length + p.2.documentCleanupRecordsProcessed = s.documents.cleanups.length + p.2.documentOrphanRecordsRemoved
  rows : p.1.documents.artifacts.length + p.2.documentOrphanRecordsRemoved = s.documents.artifacts.length
  attempts : p.2.cleanupDeferred + p.2.documentCleanupRecordsProcessed = attempts

theorem Accounted.process {attempts : ℕ} {p : Storage × CleanupResult} (h : Accounted crypto s attempts p) (removal : Removal)
    (hmem : id ∈ p.1.documents.cleanups) : Accounted crypto s (attempts + 1) (processCleanupRecord removal id p.1 p.2) := by
  have hfree := (h.inv.queued id hmem).2
  have hqueue := h.queue
  have hattempts := h.attempts
  rcases process_queued removal p.2 hmem hfree with ⟨deleted, missing, hone, -, hprocess⟩ | ⟨failed, hfailed, -, hprocess⟩
  · rw [hprocess]
    have hfiles := h.files
    refine ⟨h.inv.removeQueued hfree, ?_, h.failed, ?_, h.rows, ?_⟩
    · show p.2.filesDeleted + deleted + (p.2.filesAlreadyMissing + missing) = p.2.documentCleanupRecordsProcessed + 1
      omega
    · have hlength : (removeQueued id p.1).documents.cleanups.length = p.1.documents.cleanups.length - 1 := List.length_erase_of_mem hmem
      have hpos : 0 < p.1.documents.cleanups.length := List.length_pos_of_mem hmem
      dsimp only
      omega
    · dsimp only
      omega
  · rw [hprocess]
    have hle := h.failed
    refine ⟨h.inv, h.files, ?_, hqueue, h.rows, ?_⟩
    · dsimp only
      omega
    · dsimp only
      omega

theorem Accounted.queue_foldl {attempts : ℕ} (removals : ℕ → Removal) (batch : List ℕ) {p : Storage × CleanupResult} (h : Accounted crypto s attempts p)
    (hnodup : batch.Nodup) (hmem : ∀ id ∈ batch, id ∈ p.1.documents.cleanups) :
    Accounted crypto s (attempts + batch.length) (batch.foldl (fun p id => processCleanupRecord (removals id) id p.1 p.2) p) := by
  induction batch generalizing attempts p with
  | nil => exact h
  | cons id batch ih =>
    obtain ⟨hnew, hnodup⟩ := List.nodup_cons.mp hnodup
    have hnext := h.process (removals id) (hmem id List.mem_cons_self)
    have hlater : ∀ id' ∈ batch, id' ∈ (processCleanupRecord (removals id) id p.1 p.2).1.documents.cleanups := by
      intro id' hid'
      have hqueued := hmem id' (List.mem_cons_of_mem _ hid')
      rcases process_cases id p.1 (removals id) p.2 with hsame | ⟨hremoved, -, -⟩
      · rwa [hsame]
      · rw [hremoved]
        have hne : id' ≠ id := by
          rintro rfl
          exact hnew hid'
        exact (List.mem_erase_of_ne hne).mpr hqueued
    have hrest := ih hnext hnodup hlater
    rw [List.length_cons, Nat.add_comm batch.length 1, ← Nat.add_assoc]
    exact hrest

theorem Inv.length_filter (h : Inv crypto s) (hmem : ∃ a ∈ s.documents.artifacts, a.id = id) :
    (s.documents.artifacts.filter fun a => a.id ≠ id).length + 1 = s.documents.artifacts.length := by
  have hone : (s.documents.artifacts.map (·.id)).count id = 1 := List.count_eq_one_of_mem h.ids (List.mem_map.mpr hmem)
  rw [List.count, List.countP_map] at hone
  rw [← List.countP_eq_length_filter, ← hone, Nat.add_comm, s.documents.artifacts.length_eq_countP_add_countP fun a => a.id == id]
  congr 1
  refine List.countP_congr fun a _ => ?_
  simp

theorem process_orphans (removal : Removal) (result : CleanupResult) :
    (processCleanupRecord removal id s result).2.documentOrphanRecordsRemoved = result.documentOrphanRecordsRemoved := by
  unfold processCleanupRecord
  split
  · rfl
  · split
    · rfl
    · split <;> rfl

theorem foldl_process_orphans (removals : ℕ → Removal) (batch : List ℕ) (p : Storage × CleanupResult) :
    (batch.foldl (fun p id => processCleanupRecord (removals id) id p.1 p.2) p).2.documentOrphanRecordsRemoved = p.2.documentOrphanRecordsRemoved := by
  induction batch generalizing p with
  | nil => rfl
  | cons id batch ih => exact (ih _).trans (process_orphans (removals id) p.2)

theorem Accounted.collect {attempts : ℕ} {p : Storage × CleanupResult} (removals : ℕ → Removal)
    (h : Accounted crypto s (attempts + p.2.documentOrphanRecordsRemoved) p) :
    Accounted crypto s (attempts + (collectGeneric removals p id).2.documentOrphanRecordsRemoved) (collectGeneric removals p id) := by
  by_cases hmem : id ∈ unreferenced p.1.documents
  · obtain ⟨t, hcollected, hstep⟩ := collectGeneric_unreferenced removals p.2 h.inv hmem
    have hlength := h.inv.length_filter (mem_unreferenced.mp hmem).1
    have hone : Accounted crypto s (attempts + p.2.documentOrphanRecordsRemoved)
        (t, { p.2 with documentOrphanRecordsRemoved := p.2.documentOrphanRecordsRemoved + 1 }) := by
      have hqueue := h.queue
      have hrows := h.rows
      refine ⟨hcollected.inv, h.files, h.failed, ?_, ?_, h.attempts⟩
      · dsimp only
        rw [hcollected.cleanups, List.length_append, List.length_singleton]
        omega
      · dsimp only
        rw [hcollected.artifacts]
        omega
    have hnext := hone.process (removals id) hcollected.queued
    have hsame : collectGeneric removals p id = _ := hstep
    rw [hsame, process_orphans]
    exact hnext
  · have hkept : collectGeneric removals p id = p :=
      if_neg fun horphan => hmem (mem_unreferenced.mpr ⟨any_id_iff.mp horphan.1, horphan.2⟩)
    rwa [hkept]

/-- A pass reports every removal it tried once, and what it reports accounts for the rows and the queue it leaves. -/
theorem cleanup_accounts (h : (system crypto).Reachable s) {n : ℕ} {removals : ℕ → Removal} {result : CleanupResult}
    (hpass : cleanupUnreferencedDocumentArtifacts n removals s = .ok (t, result)) :
    result.filesDeleted + result.filesAlreadyMissing = result.documentCleanupRecordsProcessed ∧ result.cleanupFailed ≤ result.cleanupDeferred ∧
      t.documents.cleanups.length + result.documentCleanupRecordsProcessed = s.documents.cleanups.length + result.documentOrphanRecordsRemoved ∧
      t.documents.artifacts.length + result.documentOrphanRecordsRemoved = s.documents.artifacts.length ∧
      result.cleanupDeferred + result.documentCleanupRecordsProcessed = min n s.documents.cleanups.length + result.documentOrphanRecordsRemoved := by
  have hinv : Inv crypto s := inv_reachable h
  have hstart : Accounted crypto s 0 (s, {}) := ⟨hinv, rfl, le_rfl, rfl, rfl, rfl⟩
  have hqueue := hstart.queue_foldl removals (s.documents.cleanups.take n) ((List.take_sublist _ _).nodup hinv.once) fun id hid => List.mem_of_mem_take hid
  rw [Nat.zero_add, List.length_take] at hqueue
  have hrows : ∀ (batch : List ℕ) (p : Storage × CleanupResult),
      Accounted crypto s (min n s.documents.cleanups.length + p.2.documentOrphanRecordsRemoved) p →
      Accounted crypto s (min n s.documents.cleanups.length + (batch.foldl (collectGeneric removals) p).2.documentOrphanRecordsRemoved)
        (batch.foldl (collectGeneric removals) p) := by
    intro batch
    induction batch with
    | nil => exact fun p h => h
    | cons id batch ih => exact fun p h => ih _ (h.collect removals)
  unfold cleanupUnreferencedDocumentArtifacts at hpass
  split at hpass
  · cases hpass
  · have hpass := Except.ok.inj hpass
    have horphans := foldl_process_orphans removals (s.documents.cleanups.take n) (s, {})
    have hmiddle : Accounted crypto s (min n s.documents.cleanups.length +
        ((s.documents.cleanups.take n).foldl (fun p id => processCleanupRecord (removals id) id p.1 p.2) (s, {})).2.documentOrphanRecordsRemoved)
        ((s.documents.cleanups.take n).foldl (fun p id => processCleanupRecord (removals id) id p.1 p.2) (s, {})) := by
      rw [horphans]
      exact hqueue
    have hend : Accounted crypto s _ (t, result) := hpass ▸ hrows _ _ hmiddle
    exact ⟨hend.files, hend.failed, hend.queue, hend.rows, hend.attempts⟩

theorem failed_pass_accounts : ∃ t result, cleanupUnreferencedDocumentArtifacts 1 (fun _ => .failed) (threeBuilds.foldl Action.run {}) = .ok (t, result) ∧
    result.cleanupFailed = 1 ∧ result.filesDeleted + result.filesAlreadyMissing = result.documentCleanupRecordsProcessed ∧
    result.cleanupFailed ≤ result.cleanupDeferred ∧
    t.documents.cleanups.length + result.documentCleanupRecordsProcessed = 1 + result.documentOrphanRecordsRemoved ∧
    t.documents.artifacts.length + result.documentOrphanRecordsRemoved = 1 ∧
    result.cleanupDeferred + result.documentCleanupRecordsProcessed = min 1 1 + result.documentOrphanRecordsRemoved := by
  have hpass : ∃ result, (cleanupUnreferencedDocumentArtifacts 1 (fun _ => .failed) (threeBuilds.foldl Action.run {})).map (·.2) = .ok result ∧
      result.cleanupFailed = 1 := ⟨{ cleanupFailed := 1, cleanupDeferred := 1 }, by decide +kernel, rfl⟩
  have hqueue : (threeBuilds.foldl Action.run {}).documents.cleanups.length = 1 := by decide +kernel
  have hrows : (threeBuilds.foldl Action.run {}).documents.artifacts.length = 1 := by decide +kernel
  obtain ⟨result, hresult, hfailed⟩ := hpass
  cases hpass : cleanupUnreferencedDocumentArtifacts 1 (fun _ => .failed) (threeBuilds.foldl Action.run {}) with
  | error e =>
    rw [hpass] at hresult
    cases hresult
  | ok p =>
    obtain ⟨t, counted⟩ := p
    rw [hpass] at hresult
    obtain rfl : counted = result := Except.ok.inj hresult
    have haccounts := cleanup_accounts reachable_threeBuilds hpass
    rw [hqueue, hrows] at haccounts
    exact ⟨t, counted, rfl, hfailed, haccounts⟩

end

end FireDash.Publications.DocumentStorage
