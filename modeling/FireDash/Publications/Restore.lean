import FireDash.Publications.DocumentV2

/-! The shared restore policy: why a publication cannot be activated again. A reason of
`none` is the empty text of the source. -/
namespace FireDash.Publications

/-- Cheap necessary conditions only; document completeness requires the full policy. -/
def publicationRestoreMetadataBlockedReason (publication : Publication) (scopeId : ScopeId) (scope : Scope)
    (historical : Bool) : Except Error (Option String) := do
  if publication.scopeState ≠ scopeId ∨ publication.key ≠ scope.key ∨
      (historical ∧ publication.status ≠ .superseded) then
    return some "Only a superseded publication in this scope can be restored."
  let definition ← getDatasetDefinition publication.key.target.datasetTypeCode
  let document := definition.artifactFormat == .documentManifestV2
  if publication.schemaVersion ∉ definition.supportedSchemaVersions ∨
      (document ∧ publication.schemaVersion ≠ definition.currentSchemaVersion) then
    return some (if document then "Rollback unavailable: legacy document format"
      else "Unsupported dataset schema")
  if ¬publication.artifactReady ∨ publication.artifactStatus ≠ .ready then
    return some "Publication artifact is not ready."
  if ¬document then
    return if publication.artifact.path.isSome then none else some "Publication has no usable artifact."
  if publication.artifact.path.isSome then
    return some "Incomplete document generation"
  return none

/-- The strict policy: document generations are validated in full. -/
def publicationRestoreBlockedReason (canonical : Canonical) (documents : DocumentTables)
    (id : PublicationId) (publication : Publication) (scopeId : ScopeId) (scope : Scope) (historical : Bool) :
    Except Error (Option String) := do
  match ← publicationRestoreMetadataBlockedReason publication scopeId scope historical with
  | some reason => return some reason
  | none =>
    let definition ← getDatasetDefinition publication.key.target.datasetTypeCode
    if definition.artifactFormat ≠ .documentManifestV2 then
      return none
    match validateReadyDocumentGeneration canonical documents id publication true with
    | .ok () => return none
    | .error (.documentV2Error message) => return some s!"Incomplete document generation: {message}"
    | .error (.publicationBuildError message) => return some s!"Incomplete document generation: {message}"
    | .error e => throw e

/-- The rows of a scope in one status, by descending version. -/
def Db.publicationsByVersion (db : Db) (scopeId : ScopeId) (p : Publication → Bool) :
    List (PublicationId × Publication) :=
  (db.publications.filter fun pub => pub.scopeState = scopeId ∧ p pub).insertionSort
    fun a b => b.2.versionNumber ≤ a.2.versionNumber

/-- The first candidates that nothing blocks, up to a limit. -/
def firstRestorable (canonical : Canonical) (documents : DocumentTables) (scopeId : ScopeId) (scope : Scope) :
    ℕ → List (PublicationId × Publication) → Except Error (List (PublicationId × Publication))
  | 0, _ => .ok []
  | _, [] => .ok []
  | limit + 1, (id, publication) :: rest => do
    match ← publicationRestoreBlockedReason canonical documents id publication scopeId scope true with
    | none => return (id, publication) :: (← firstRestorable canonical documents scopeId scope limit rest)
    | some _ => firstRestorable canonical documents scopeId scope (limit + 1) rest

def selectRestorablePredecessors (canonical : Canonical) (db : Db) (scopeId : ScopeId) (scope : Scope)
    (limit : ℕ) : Except Error (List (PublicationId × Publication)) := do
  if limit = 0 then
    return []
  let _ ← getDatasetDefinition scope.key.target.datasetTypeCode
  firstRestorable canonical db.documents scopeId scope limit
    (db.publicationsByVersion scopeId fun p => p.status = .superseded)

/-- Nothing blocks a restore only when the row is a ready one of this very scope. -/
theorem restoreMetadata_none {publication : Publication} {scopeId : ScopeId} {scope : Scope} {historical : Bool}
    (h : publicationRestoreMetadataBlockedReason publication scopeId scope historical = .ok none) :
    publication.scopeState = scopeId ∧ publication.key = scope.key ∧
      (historical = true → publication.status = .superseded) ∧ publication.artifactReady = true ∧
      publication.artifactStatus = .ready := by
  unfold publicationRestoreMetadataBlockedReason at h
  simp only [bind, Except.bind, pure, Except.pure] at h
  split at h
  · simp at h
  rename_i hscope
  split at h
  · simp at h
  split at h
  · simp at h
  split at h
  · simp at h
  rename_i hready
  grind

theorem restoreBlocked_none {canonical : Canonical} {documents : DocumentTables} {id : PublicationId}
    {publication : Publication} {scopeId : ScopeId} {scope : Scope} {historical : Bool}
    (h : publicationRestoreBlockedReason canonical documents id publication scopeId scope historical
      = .ok none) :
    publicationRestoreMetadataBlockedReason publication scopeId scope historical = .ok none := by
  unfold publicationRestoreBlockedReason at h
  cases hm : publicationRestoreMetadataBlockedReason publication scopeId scope historical with
  | error e => simp [hm, bind, Except.bind] at h
  | ok r =>
    cases r with
    | none => rfl
    | some reason => simp [hm, bind, Except.bind, pure, Except.pure] at h

/-- The policy reads the key of the scope and the generation of the row. -/
theorem restoreBlocked_congr {canonical : Canonical} {documents documents' : DocumentTables} {id : PublicationId}
    {publication : Publication} {scopeId : ScopeId} {scope scope' : Scope} {historical : Bool}
    (hd : SameGeneration id documents documents') (hk : scope'.key = scope.key) :
    publicationRestoreBlockedReason canonical documents' id publication scopeId scope' historical =
      publicationRestoreBlockedReason canonical documents id publication scopeId scope historical := by
  simp only [publicationRestoreBlockedReason, publicationRestoreMetadataBlockedReason, hk, hd.validate]

theorem restoreMetadata_registered {publication : Publication} {scopeId : ScopeId} {scope : Scope}
    {historical : Bool} {definition : DatasetTypeDefinition}
    (hd : getDatasetDefinition scope.key.target.datasetTypeCode = .ok definition) :
    ∃ reason, publicationRestoreMetadataBlockedReason publication scopeId scope historical = .ok reason ∧
      (reason = none → publication.key = scope.key) := by
  unfold publicationRestoreMetadataBlockedReason
  by_cases hscope : publication.scopeState ≠ scopeId ∨ publication.key ≠ scope.key ∨
      (historical = true ∧ publication.status ≠ .superseded)
  · rw [if_pos hscope]
    exact ⟨_, rfl, by simp⟩
  · have hkey : publication.key = scope.key := by
      by_contra hne
      exact hscope (.inr (.inl hne))
    simp only [hkey, hd, bind, Except.bind, pure, Except.pure]
    repeat' split
    all_goals exact ⟨_, rfl, fun _ => trivial⟩

/-- Within a scope of a registered type, every row gets a verdict. -/
theorem restoreBlocked_registered {canonical : Canonical} {documents : DocumentTables} {id : PublicationId}
    {publication : Publication} {scopeId : ScopeId} {scope : Scope} {historical : Bool}
    {definition : DatasetTypeDefinition} (hd : getDatasetDefinition scope.key.target.datasetTypeCode = .ok definition) :
    ∃ reason, publicationRestoreBlockedReason canonical documents id publication scopeId scope historical
      = .ok reason := by
  obtain ⟨reason, hreason, hkey⟩ :
      ∃ reason, publicationRestoreMetadataBlockedReason publication scopeId scope historical = .ok reason ∧
        (reason = none → publication.key = scope.key) := restoreMetadata_registered hd
  simp only [publicationRestoreBlockedReason, hreason, bind, Except.bind]
  cases reason with
  | some text => exact ⟨_, rfl⟩
  | none =>
    simp only [hkey rfl, hd]
    split
    · exact ⟨_, rfl⟩
    · have hraises := validateReadyDocumentGeneration_raises canonical documents id publication true
      cases hv : validateReadyDocumentGeneration canonical documents id publication true with
      | ok _ => exact ⟨_, rfl⟩
      | error e =>
        have he := hraises e hv
        cases e <;> first | exact ⟨_, rfl⟩ | cases he

/-- The first restorable rows are a prefix of all restorable rows. -/
theorem firstRestorable_eq {canonical : Canonical} {documents : DocumentTables} {scopeId : ScopeId} {scope : Scope}
    {definition : DatasetTypeDefinition} (hd : getDatasetDefinition scope.key.target.datasetTypeCode = .ok definition)
    (limit : ℕ) (l : List (PublicationId × Publication)) :
    firstRestorable canonical documents scopeId scope limit l =
      .ok ((l.filter fun e =>
        publicationRestoreBlockedReason canonical documents e.1 e.2 scopeId scope true = .ok none).take limit) := by
  induction l generalizing limit with
  | nil => cases limit <;> rfl
  | cons e rest ih =>
    cases limit with
    | zero => rfl
    | succ limit =>
      obtain ⟨id, publication⟩ := e
      obtain ⟨reason, hreason⟩ : ∃ reason,
          publicationRestoreBlockedReason canonical documents id publication scopeId scope true = .ok reason :=
        restoreBlocked_registered hd
      cases reason with
      | none => simp [firstRestorable, hreason, ih, bind, Except.bind, pure, Except.pure]
      | some text => simp [firstRestorable, hreason, ih, bind, Except.bind]

theorem mem_firstRestorable {canonical : Canonical} {documents : DocumentTables} {scopeId : ScopeId}
    {scope : Scope} {limit : ℕ} {l r : List (PublicationId × Publication)}
    (h : firstRestorable canonical documents scopeId scope limit l = .ok r)
    {e : PublicationId × Publication} (he : e ∈ r) :
    e ∈ l ∧ publicationRestoreBlockedReason canonical documents e.1 e.2 scopeId scope true = .ok none := by
  induction l generalizing limit r with
  | nil =>
    cases limit <;> simp only [firstRestorable, Except.ok.injEq] at h <;> subst h <;> simp at he
  | cons c rest ih =>
    cases limit with
    | zero =>
      simp only [firstRestorable, Except.ok.injEq] at h
      subst h
      simp at he
    | succ limit =>
      simp only [firstRestorable, bind, Except.bind] at h
      split at h
      · simp at h
      · rename_i reason hreason
        cases reason with
        | some text =>
          obtain ⟨hm, hb⟩ := ih h he
          exact ⟨List.mem_cons_of_mem _ hm, hb⟩
        | none =>
          simp only at h
          split at h
          · simp at h
          · rename_i tail htail
            simp only [pure, Except.pure, Except.ok.injEq] at h
            subst h
            rcases List.mem_cons.mp he with rfl | he
            · exact ⟨List.mem_cons_self, hreason⟩
            · obtain ⟨hm, hb⟩ := ih htail he
              exact ⟨List.mem_cons_of_mem _ hm, hb⟩

theorem mem_publicationsByVersion {db : Db} {scopeId : ScopeId} {p : Publication → Bool}
    {e : PublicationId × Publication} (h : e ∈ db.publicationsByVersion scopeId p) :
    db.publications.find e.1 = some e.2 ∧ e.2.scopeState = scopeId ∧ p e.2 = true := by
  unfold Db.publicationsByVersion at h
  rw [List.mem_insertionSort, Table.mem_filter] at h
  simpa using h

end FireDash.Publications
