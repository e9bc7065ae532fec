import FireDash.Ingestion.Baselines
import FireDash.Ingestion.Batches
import FireDash.Ingestion.Parsers
import FireDash.Lib.Rows

/-! The application of PDF packages: the plans it writes and the accepted files it puts in place. A raise undoes the
plans and leaves the files. -/
namespace FireDash.Ingestion.Packages

open Baselines (firePlanKey klgvPlanKey)
open Documents (Action FirePlan KlgvPlan Row)
open Json (Text text)
open Numerals (Uuid)
open Parsers (Bytes)
open Publications (DatasetTypeCode)
open Snapshots (last)

/-! ### Plans -/

/-- A row of the normalized intent; a document that is reused has no staged output. -/
structure StagedRow extends Row where
  sanitizedStagingKey : Option Text

/-- What an import does with one kind of plan, and what its writes keep. -/
structure PlanModel (ρ : Type) where
  id : ρ → Uuid
  department : ρ → ℕ
  key : ρ → Text
  rowKey : Row → Text
  active : ρ → Bool
  file : ρ → Text
  sha256 : ρ → Text
  documentContentChanged : ρ → Row → Bool
  documentMetadataChanges : ρ → Row → Bool
  deactivate : ρ → ℕ → ρ
  create : Row → ℕ → Uuid → Text → ℕ → ρ
  createKey : Uuid → Text
  /-- The key of a replaced document; a new identifier is drawn for it. -/
  replaceKey : ρ → Uuid → Text
  /-- `replace=True` -/
  inPlace : Bool
  replaceDocumentContent : ρ → Row → Text → ℕ → ρ
  mergeDocumentMetadata : ρ → Row → ℕ → ρ
  scope : DatasetTypeCode
  deactivate_kept : ∀ p now, id (deactivate p now) = id p ∧ file (deactivate p now) = file p ∧ sha256 (deactivate p now) = sha256 p
  merge_kept : ∀ p row now, id (mergeDocumentMetadata p row now) = id p ∧ file (mergeDocumentMetadata p row now) = file p ∧
    sha256 (mergeDocumentMetadata p row now) = sha256 p
  deactivate_document : ∀ p now row, documentContentChanged (deactivate p now) row = documentContentChanged p row
  merge_document : ∀ p row now row', documentContentChanged (mergeDocumentMetadata p row now) row' = documentContentChanged p row'
  replace_file : ∀ p row k now, id (replaceDocumentContent p row k now) = id p ∧ file (replaceDocumentContent p row k now) = k ∧
    sha256 (replaceDocumentContent p row k now) = row.sanitizedPdfSha256
  create_file : ∀ row d i k now, id (create row d i k now) = i ∧ file (create row d i k now) = k ∧
    sha256 (create row d i k now) = row.sanitizedPdfSha256
  replaceKey_eq : ∀ p u, replaceKey p u = createKey (if inPlace = true then id p else u)
  createKey_injective : ∀ u w, createKey u = createKey w → u = w

def documentKey (u : Uuid) : Text := u.str ++ text ".pdf"

def plansKey (u : Uuid) : Text := text "plans/" ++ documentKey u

theorem documentKey_injective {u w : Uuid} (h : documentKey u = documentKey w) : u = w :=
  Numerals.str_injective (List.append_cancel_right h)

theorem plansKey_injective {u w : Uuid} (h : plansKey u = plansKey w) : u = w := documentKey_injective (List.append_cancel_left h)

def createFirePlan (row : Row) (department : ℕ) (id : Uuid) (key : Text) (now : ℕ) : FirePlan where
  id := id
  department := department
  externalIdentifier := row.externalIdentifier
  objectName := row.title
  address := row.address
  postalCode := row.postalCode
  city := row.city
  location := row.location
  originalFilename := row.originalFilename
  fileSize := row.fileSize
  pageCount := row.pageCount
  sha256 := row.sanitizedPdfSha256
  sourcePdfSha256 := row.sourcePdfSha256
  active := true
  updatedAt := now
  fsdLocation := row.fsdLocation
  bmzLocation := row.bmzLocation
  rwaInfo := row.rwaInfo
  documentKey := key

def createKlgvPlan (row : Row) (department : ℕ) (id : Uuid) (key : Text) (now : ℕ) : KlgvPlan where
  id := id
  department := department
  externalIdentifier := row.externalIdentifier
  objectName := row.title
  address := row.address
  postalCode := row.postalCode
  city := row.city
  location := row.location
  originalFilename := row.originalFilename
  fileSize := row.fileSize
  pageCount := row.pageCount
  sha256 := row.sanitizedPdfSha256
  sourcePdfSha256 := row.sourcePdfSha256
  active := true
  updatedAt := now
  path := key

theorem assign_file (plan : FirePlan) (fields : List (Documents.TextField × Text)) :
    (plan.assign fields).id = plan.id ∧ (plan.assign fields).documentKey = plan.documentKey ∧ (plan.assign fields).sha256 = plan.sha256 :=
  ⟨FirePlan.assign_keeps (fun plan => plan.id) (fun plan field value => by cases field <;> rfl) plan fields,
    FirePlan.assign_keeps (fun plan => plan.documentKey) (fun plan field value => by cases field <;> rfl) plan fields,
    FirePlan.assign_keeps (fun plan => plan.sha256) (fun plan field value => by cases field <;> rfl) plan fields⟩

def firePlans : PlanModel FirePlan where
  id plan := plan.id
  department plan := plan.department
  key plan := firePlanKey plan.externalIdentifier plan.address
  rowKey row := firePlanKey row.externalIdentifier row.address
  active plan := plan.active
  file plan := plan.documentKey
  sha256 plan := plan.sha256
  documentContentChanged := FirePlan.documentContentChanged
  documentMetadataChanges := FirePlan.documentMetadataChanges
  deactivate plan now := { plan with active := false, updatedAt := now }
  create := createFirePlan
  createKey := documentKey
  replaceKey _ := documentKey
  inPlace := false
  replaceDocumentContent := FirePlan.replaceDocumentContent
  mergeDocumentMetadata := FirePlan.mergeDocumentMetadata
  scope := .departmentFirePlans
  deactivate_kept _ _ := ⟨rfl, rfl, rfl⟩
  merge_kept := by
    intro plan row now
    unfold FirePlan.mergeDocumentMetadata
    split
    · exact assign_file plan _
    · exact ⟨rfl, rfl, rfl⟩
  deactivate_document _ _ _ := rfl
  merge_document := by
    intro plan row now row'
    unfold FirePlan.mergeDocumentMetadata
    split
    · exact FirePlan.assign_keeps (fun plan => plan.documentContentChanged row') (fun plan field value => by cases field <;> rfl) plan _
    · rfl
  replace_file := by
    intro plan row key now
    exact assign_file { plan with
      documentKey := key
      originalFilename := row.originalFilename
      fileSize := row.fileSize
      pageCount := row.pageCount
      active := true
      sha256 := row.sanitizedPdfSha256
      sourcePdfSha256 := row.sourcePdfSha256 } _
  create_file _ _ _ _ _ := ⟨rfl, rfl, rfl⟩
  replaceKey_eq _ _ := rfl
  createKey_injective _ _ := documentKey_injective

def klgvPlans : PlanModel KlgvPlan where
  id plan := plan.id
  department plan := plan.department
  key plan := klgvPlanKey plan.externalIdentifier plan.objectName plan.address
  rowKey row := klgvPlanKey row.externalIdentifier row.title row.address
  active plan := plan.active
  file plan := plan.path
  sha256 plan := plan.sha256
  documentContentChanged := KlgvPlan.documentContentChanged
  documentMetadataChanges := KlgvPlan.documentMetadataChanges
  deactivate plan now := { plan with active := false, updatedAt := now }
  create := createKlgvPlan
  createKey := plansKey
  replaceKey plan _ := plansKey plan.id
  inPlace := true
  replaceDocumentContent := KlgvPlan.replaceDocumentContent
  mergeDocumentMetadata := KlgvPlan.mergeDocumentMetadata
  scope := .departmentKlgvPlans
  deactivate_kept _ _ := ⟨rfl, rfl, rfl⟩
  merge_kept := by
    intro plan row now
    unfold KlgvPlan.mergeDocumentMetadata
    split
    all_goals exact ⟨rfl, rfl, rfl⟩
  deactivate_document _ _ _ := rfl
  merge_document := by
    intro plan row now row'
    unfold KlgvPlan.mergeDocumentMetadata
    split
    all_goals rfl
  replace_file _ _ _ _ := ⟨rfl, rfl, rfl⟩
  create_file _ _ _ _ _ := ⟨rfl, rfl, rfl⟩
  replaceKey_eq _ _ := rfl
  createKey_injective _ _ := plansKey_injective

/-! ### The application -/

structure Files where
  accepted : Text → Option Bytes
  staged : Text → Option Bytes

/-- The files after a document was moved to a key. -/
def Files.moved (files : Files) (stagingKey documentKey : Text) (content : Bytes) : Files where
  accepted := Function.update files.accepted documentKey (some content)
  staged := Function.update files.staged stagingKey none

/-- The files after a key was written, or unlinked. -/
def Files.write (files : Files) (documentKey : Text) (content : Option Bytes) : Files :=
  { files with accepted := Function.update files.accepted documentKey content }

inductive Decision where
  | approved
  | skipped
  deriving DecidableEq

/-- Where the file system fails in `promote_to_accepted`: before the file is moved, or after. -/
inductive Fault where
  | refused
  | misplaced
  deriving DecidableEq

/-- What an application observes: the identifiers it draws, and where files and database fail, by the number of the row. -/
structure Env where
  sha256 : Bytes → Text
  department : ℕ
  now : ℕ
  newId : ℕ → Uuid
  decisions : Uuid → Option Decision
  fault : ℕ → Option Fault
  rejected : ℕ → Bool

inductive Error where
  | importError (message : String)
  | storageError (message : String)
  | osError
  | keyError
  | databaseError
  deriving DecidableEq

section

variable {ρ : Type} (m : PlanModel ρ) (env : Env)

/-- The rows by what became of them. -/
structure Counts where
  add : ℕ := 0
  update : ℕ := 0
  deactivate : ℕ := 0
  unchanged : ℕ := 0

/-- The plans, the files, and what the loop over the rows keeps; the dictionary of plans holds each one as it stands. -/
structure Work (m : PlanModel ρ) where
  plans : Rows m.id
  files : Files
  existing : Text → Option ρ
  counts : Counts := {}
  skipped : ℕ := 0

abbrev Step := Tx (Work m) Error

/-- `promote_to_accepted` -/
def promoteToAccepted (i : ℕ) (stagingKey documentKey : Text) (replace : Bool) : Step m Unit := do
  let w ← Tx.get
  Tx.ensure (w.files.accepted documentKey = none ∨ replace = true) (.storageError "Generated document key already exists.")
  Tx.ensure (env.fault i ≠ some .refused) .osError
  let content ← Tx.require (w.files.staged stagingKey) .osError
  Tx.modify fun w => { w with files := w.files.moved stagingKey documentKey content }
  Tx.ensure (env.fault i ≠ some .misplaced) .osError

/-- The staged output of a row, as long as it is the one that was previewed. -/
def sanitizedPath (row : StagedRow) : Step m Text := do
  let stagingKey ← Tx.require row.sanitizedStagingKey .keyError
  let w ← Tx.get
  Tx.ensure ((w.files.staged stagingKey).any (fun content => env.sha256 content = row.sanitizedPdfSha256) = true)
    (.importError "Sanitized preview output is unavailable; create a new preview.")
  return stagingKey

/-- Save the plan that stands under a key. -/
def savePlan (i : ℕ) (key : Text) (plan : ρ) : Step m Unit := do
  Tx.ensure (env.rejected i = false) .databaseError
  Tx.modify fun w => { w with plans := w.plans.save plan, existing := Function.update w.existing key (some plan) }

def tally (f : Counts → Counts) : Step m Unit := Tx.modify fun w => { w with counts := f w.counts }

def deactivateDocument (i : ℕ) (row : StagedRow) (current : Option ρ) : Step m Unit :=
  match current with
  | some plan =>
    if m.active plan = true then do
      savePlan m env i (m.rowKey row.toRow) (m.deactivate plan env.now)
      tally m fun counts => { counts with deactivate := counts.deactivate + 1 }
    else tally m fun counts => { counts with unchanged := counts.unchanged + 1 }
  | none => tally m fun counts => { counts with unchanged := counts.unchanged + 1 }

def createDocument (i : ℕ) (row : StagedRow) : Step m Unit := do
  let path ← sanitizedPath m env row
  let key := m.createKey (env.newId i)
  promoteToAccepted m env i path key false
  Tx.ensure (env.rejected i = false) .databaseError
  let w ← Tx.get
  let plans ← Tx.require (w.plans.insert? (m.create row.toRow env.department (env.newId i) key env.now)) .databaseError
  Tx.modify fun w => { w with plans := plans }
  tally m fun counts => { counts with add := counts.add + 1 }

def writeDocument (i : ℕ) (row : StagedRow) (plan : ρ) : Step m Unit :=
  if m.documentContentChanged plan row.toRow = true then do
    let path ← sanitizedPath m env row
    let key := m.replaceKey plan (env.newId i)
    promoteToAccepted m env i path key m.inPlace
    savePlan m env i (m.rowKey row.toRow) (m.replaceDocumentContent plan row.toRow key env.now)
    tally m fun counts => { counts with update := counts.update + 1 }
  else if m.documentMetadataChanges plan row.toRow = true then do
    savePlan m env i (m.rowKey row.toRow) (m.mergeDocumentMetadata plan row.toRow env.now)
    tally m fun counts => { counts with update := counts.update + 1 }
  else tally m fun counts => { counts with unchanged := counts.unchanged + 1 }

/-- A proposed update waits for its review. -/
def updateDocument (i : ℕ) (row : StagedRow) (plan : ρ) : Step m Unit :=
  if m.documentContentChanged plan row.toRow = true ∨ m.documentMetadataChanges plan row.toRow = true then
    match env.decisions (m.id plan) with
    | none => Tx.raise (.importError "Pending update review requires approval or skip before import.")
    | some .skipped => Tx.modify fun w => { w with skipped := w.skipped + 1 }
    | some .approved => writeDocument m env i row plan
  else writeDocument m env i row plan

def applyRow (e : StagedRow × ℕ) : Step m Unit := do
  let w ← Tx.get
  let current := w.existing (m.rowKey e.1.toRow)
  if e.1.action = .deactivate then deactivateDocument m env e.2 e.1 current
  else match current with
    | none => createDocument m env e.2 e.1
    | some plan => updateDocument m env e.2 e.1 plan

/-- `_apply_documents` over the plans its query returned. -/
def applyDocuments (fetched : List ρ) (rows : List StagedRow) (plans : Rows m.id) (files : Files) : Except Error Unit × Work m :=
  Tx.forEach (applyRow m env) rows.zipIdx { plans := plans, files := files, existing := last m.key fetched }

/-- What `_apply_documents` returns. -/
def Work.applied {m : PlanModel ρ} (w : Work m) : Applied where
  scopes := if w.counts.add = 0 ∧ w.counts.update = 0 ∧ w.counts.deactivate = 0 then [] else [(m.scope, none)]
  add := w.counts.add
  update := w.counts.update
  deactivate := w.counts.deactivate
  unchanged := w.counts.unchanged

/-- The application in its transaction, which may still fail when the rows are done. -/
def confirmDocuments (fetched : List ρ) (rows : List StagedRow) (aborted : Bool) (plans : Rows m.id) (files : Files) :
    Except Error Applied × Rows m.id × Files :=
  match applyDocuments m env fetched rows plans files with
  | (.ok (), w) => if aborted = true then (.error .databaseError, plans, w.files) else (.ok w.applied, w.plans, w.files)
  | (.error e, w) => (.error e, plans, w.files)

end

/-- The plans a query returned for a department. -/
def Fetched {ρ : Type} (m : PlanModel ρ) (env : Env) (plans : Rows m.id) (fetched : List ρ) : Prop :=
  fetched.Perm (plans.list.filter fun p => m.department p = env.department)

/-! ### Plans and their files -/

section

variable {ρ : Type} {m : PlanModel ρ} {env : Env}

/-- The accepted file of a plan is the one it records. -/
def Backed (sha256 : Bytes → Text) (m : PlanModel ρ) (files : Files) (p : ρ) : Prop :=
  ∃ content, files.accepted (m.file p) = some content ∧ sha256 content = m.sha256 p

/-- The stored plans of one kind with their files; those in `T` may have lost theirs. -/
structure Held (sha256 : Bytes → Text) (m : PlanModel ρ) (T : Uuid → Prop) (plans : Rows m.id) (files : Files) : Prop where
  backed : ∀ p ∈ plans.list, ¬T (m.id p) → Backed sha256 m files p
  distinct : ∀ p ∈ plans.list, ∀ q ∈ plans.list, m.file p = m.file q → m.id p = m.id q
  shaped : ∀ p ∈ plans.list, ∃ u, m.file p = m.createKey u
  placed : m.inPlace = true → ∀ p ∈ plans.list, m.file p = m.createKey (m.id p)

/-- What an application keeps as long as it does not raise. -/
structure Sound (sha256 : Bytes → Text) (T : Uuid → Prop) (w : Work m) : Prop where
  held : Held sha256 m T w.plans w.files
  whole : m.inPlace = false → ∀ u, ¬T u
  linked : ∀ k p, w.existing k = some p → p ∈ w.plans.list
  apart : ∀ k k' p p', w.existing k = some p → w.existing k' = some p' → m.id p = m.id p' → k = k'

variable {sha256 : Bytes → Text} {T : Uuid → Prop} {w : Work m} {k : Text} {p r : ρ}

theorem Sound.counts (h : Sound sha256 T w) (counts : Counts) (skipped : ℕ) :
    Sound sha256 T { w with counts := counts, skipped := skipped } := 
  ⟨h.held, h.whole, h.linked, h.apart⟩

theorem linked_save (h : Sound sha256 T w) (hk : w.existing k = some p) (hid : m.id r = m.id p) :
    (∀ k' p', Function.update w.existing k (some r) k' = some p' → p' ∈ (w.plans.save r).list) ∧
    ∀ k₁ k₂ p₁ p₂, Function.update w.existing k (some r) k₁ = some p₁ → Function.update w.existing k (some r) k₂ = some p₂ →
      m.id p₁ = m.id p₂ → k₁ = k₂ := by
  have hp := h.linked k p hk
  have hold : ∀ k' p', Function.update w.existing k (some r) k' = some p' → ∃ q, w.existing k' = some q ∧ m.id q = m.id p' := by
    intro k' p' hfound
    by_cases hkk : k' = k
    · subst hkk
      rw [Function.update_self] at hfound
      cases hfound
      exact ⟨p, hk, hid.symm⟩
    · rw [Function.update_of_ne hkk] at hfound
      exact ⟨p', hfound, rfl⟩
  refine ⟨fun k' p' hfound => ?_, fun k₁ k₂ p₁ p₂ h₁ h₂ hsame => ?_⟩
  · by_cases hkk : k' = k
    · subst hkk
      rw [Function.update_self] at hfound
      cases hfound
      exact Rows.mem_save.mpr (.inr ⟨rfl, p, hp, hid.symm⟩)
    · rw [Function.update_of_ne hkk] at hfound
      refine Rows.mem_save.mpr (.inl ⟨h.linked k' p' hfound, fun hsame => hkk ?_⟩)
      exact h.apart k' k p' p hfound hk (hsame.trans hid)
  · obtain ⟨q₁, hq₁, hid₁⟩ := hold k₁ p₁ h₁
    obtain ⟨q₂, hq₂, hid₂⟩ := hold k₂ p₂ h₂
    exact h.apart k₁ k₂ q₁ q₂ hq₁ hq₂ (hid₁.trans (hsame.trans hid₂.symm))

/-- A saved plan keeps its file. -/
theorem Held.save {plans : Rows m.id} {files : Files} (h : Held sha256 m T plans files) (hp : p ∈ plans.list)
    (hr : m.id r = m.id p ∧ m.file r = m.file p ∧ m.sha256 r = m.sha256 p) : Held sha256 m T (plans.save r) files := by
  obtain ⟨hid, hfile, hsha⟩ := hr
  -- Every plan after the write has the file and the identifier of one before it.
  have hold : ∀ q ∈ (plans.save r).list, ∃ q' ∈ plans.list, m.id q' = m.id q ∧ m.file q' = m.file q ∧ m.sha256 q' = m.sha256 q := by
    intro q hq
    rcases Rows.mem_save.mp hq with ⟨hq, -⟩ | ⟨rfl, -⟩
    · exact ⟨q, hq, rfl, rfl, rfl⟩
    · exact ⟨p, hp, hid.symm, hfile.symm, hsha.symm⟩
  refine ⟨fun q hq hT => ?_, fun q hq q' hq' hsame => ?_, fun q hq => ?_, fun hplace q hq => ?_⟩
  · obtain ⟨q₀, hq₀, hid₀, hfile₀, hsha₀⟩ := hold q hq
    obtain ⟨content, hcontent, hdigest⟩ := h.backed q₀ hq₀ (hid₀ ▸ hT)
    exact ⟨content, hfile₀ ▸ hcontent, hdigest.trans hsha₀⟩
  · obtain ⟨q₀, hq₀, hid₀, hfile₀, -⟩ := hold q hq
    obtain ⟨q₁, hq₁, hid₁, hfile₁, -⟩ := hold q' hq'
    have hboth := h.distinct q₀ hq₀ q₁ hq₁ (hfile₀.trans (hsame.trans hfile₁.symm))
    exact hid₀.symm.trans (hboth.trans hid₁)
  · obtain ⟨q₀, hq₀, -, hfile₀, -⟩ := hold q hq
    obtain ⟨u, hu⟩ := h.shaped q₀ hq₀
    exact ⟨u, hfile₀.symm.trans hu⟩
  · obtain ⟨q₀, hq₀, hid₀, hfile₀, -⟩ := hold q hq
    rw [← hfile₀, ← hid₀]
    exact h.placed hplace q₀ hq₀

theorem Sound.save (h : Sound sha256 T w) (hk : w.existing k = some p) (hr : m.id r = m.id p ∧ m.file r = m.file p ∧ m.sha256 r = m.sha256 p) :
    Sound sha256 T { w with plans := w.plans.save r, existing := Function.update w.existing k (some r) } := by
  obtain ⟨hlinked, hapart⟩ := linked_save h hk hr.1
  exact ⟨h.held.save (h.linked k p hk) hr, h.whole, hlinked, hapart⟩

theorem Files.accepted_moved (files : Files) (stagingKey documentKey : Text) (content : Bytes) :
    (files.moved stagingKey documentKey content).accepted = Function.update files.accepted documentKey (some content) := rfl

theorem Backed.moved {files : Files} {stagingKey documentKey : Text} {content : Bytes} (h : Backed sha256 m files p)
    (hne : m.file p ≠ documentKey) : Backed sha256 m (files.moved stagingKey documentKey content) p := by
  obtain ⟨c, hc, hdigest⟩ := h
  refine ⟨c, ?_, hdigest⟩
  rw [Files.accepted_moved, Function.update_of_ne hne, hc]

theorem backed_moved_self {files : Files} {stagingKey : Text} {content : Bytes} (hsha : m.sha256 p = sha256 content) :
    Backed sha256 m (files.moved stagingKey (m.file p) content) p := by
  refine ⟨content, ?_, hsha.symm⟩
  rw [Files.accepted_moved, Function.update_self]

/-- A replaced document is in place with its digest, and no other plan loses its file. -/
theorem Sound.replace (h : Sound sha256 T w) (hk : w.existing k = some p) {stagingKey : Text} {content : Bytes} {u : Uuid}
    (hfree : w.files.accepted (m.replaceKey p u) = none ∨ m.inPlace = true) (hid : m.id r = m.id p)
    (hfile : m.file r = m.replaceKey p u) (hsha : m.sha256 r = sha256 content) :
    Sound sha256 T { w with
      plans := w.plans.save r
      existing := Function.update w.existing k (some r)
      files := w.files.moved stagingKey (m.replaceKey p u) content } := by
  obtain ⟨hlinked, hapart⟩ := linked_save h hk hid
  have hshape : ∃ u', m.replaceKey p u = m.createKey u' := ⟨_, m.replaceKey_eq p u⟩
  have hother : ∀ q ∈ w.plans.list, m.id q ≠ m.id r → m.file q ≠ m.replaceKey p u := by
    intro q hq hne hsame
    cases hplace : m.inPlace with
    | true =>
      have hkey : m.createKey (m.id q) = m.createKey (m.id p) := by
        rw [← h.held.placed hplace q hq, hsame, m.replaceKey_eq, if_pos hplace]
      exact hne ((m.createKey_injective _ _ hkey).trans hid.symm)
    | false =>
      obtain ⟨c, hc, -⟩ := h.held.backed q hq (h.whole hplace _)
      rw [hsame, hfree.resolve_right (by rw [hplace]; exact nofun)] at hc
      cases hc
  refine ⟨⟨fun q hq hT => ?_, fun q hq q' hq' hsame => ?_, fun q hq => ?_, fun hplace q hq => ?_⟩, h.whole, hlinked, hapart⟩
  · rcases Rows.mem_save.mp hq with ⟨hq, hne⟩ | ⟨rfl, -⟩
    · exact (h.held.backed q hq hT).moved (hother q hq hne)
    · rw [← hfile]
      exact backed_moved_self hsha
  · rcases Rows.mem_save.mp hq with ⟨hold, hne⟩ | ⟨rfl, -⟩
    · rcases Rows.mem_save.mp hq' with ⟨hold', -⟩ | ⟨rfl, -⟩
      · exact h.held.distinct q hold q' hold' hsame
      · exact absurd (hsame.trans hfile) (hother q hold hne)
    · rcases Rows.mem_save.mp hq' with ⟨hq', hne⟩ | ⟨rfl, -⟩
      · exact absurd (hsame.symm.trans hfile) (hother q' hq' hne)
      · rfl
  · rcases Rows.mem_save.mp hq with ⟨hq, -⟩ | ⟨rfl, -⟩
    · exact h.held.shaped q hq
    · rw [hfile]
      exact hshape
  · rcases Rows.mem_save.mp hq with ⟨hq, -⟩ | ⟨rfl, -⟩
    · exact h.held.placed hplace q hq
    · rw [hfile, m.replaceKey_eq, if_pos hplace, hid]

/-- A created plan takes a key that holds no file. -/
theorem Sound.create (h : Sound sha256 T w) {stagingKey : Text} {content : Bytes} {u : Uuid} (hfree : w.files.accepted (m.createKey u) = none)
    (hid : m.id r = u) (hfile : m.file r = m.createKey u) (hsha : m.sha256 r = sha256 content) (hnew : w.plans.find (m.id r) = none) :
    Sound sha256 T { w with plans := w.plans.insert r hnew, files := w.files.moved stagingKey (m.createKey u) content } := by
  have hother : ∀ q ∈ w.plans.list, m.file q ≠ m.createKey u := by
    intro q hq hsame
    cases hplace : m.inPlace with
    | true =>
      rw [h.held.placed hplace q hq] at hsame
      exact Rows.find_eq_none.mp hnew q hq ((m.createKey_injective _ _ hsame).trans hid.symm)
    | false =>
      obtain ⟨c, hc, -⟩ := h.held.backed q hq (h.whole hplace _)
      rw [hsame, hfree] at hc
      cases hc
  refine ⟨⟨fun q hq hT => ?_, fun q hq q' hq' hsame => ?_, fun q hq => ?_, fun hplace q hq => ?_⟩, h.whole, fun k q hq => ?_, h.apart⟩
  · rcases (Rows.mem_insert hnew).mp hq with hq | rfl
    · exact (h.held.backed q hq hT).moved (hother q hq)
    · rw [← hfile]
      exact backed_moved_self hsha
  · rcases (Rows.mem_insert hnew).mp hq with hold | rfl
    · rcases (Rows.mem_insert hnew).mp hq' with hold' | rfl
      · exact h.held.distinct q hold q' hold' hsame
      · exact absurd (hsame.trans hfile) (hother q hold)
    · rcases (Rows.mem_insert hnew).mp hq' with hq' | rfl
      · exact absurd (hsame.symm.trans hfile) (hother q' hq')
      · rfl
  · rcases (Rows.mem_insert hnew).mp hq with hq | rfl
    · exact h.held.shaped q hq
    · exact ⟨u, hfile⟩
  · rcases (Rows.mem_insert hnew).mp hq with hq | rfl
    · exact h.held.placed hplace q hq
    · rw [hfile, hid]
  · exact (Rows.mem_insert hnew).mpr (.inl (h.linked k q hq))

/-! ### Steps -/

/-- A document was moved from the staging directory to a key. -/
def Moved (w : Work m) (stagingKey documentKey : Text) (replace : Bool) (w' : Work m) : Prop :=
  ∃ content, w.files.staged stagingKey = some content ∧ (w.files.accepted documentKey = none ∨ replace = true) ∧
    w' = { w with files := w.files.moved stagingKey documentKey content }

variable {e : StagedRow × ℕ} {row : StagedRow} {i : ℕ}

theorem wp_sanitizedPath : Tx.wp (sanitizedPath m env row) (fun stagingKey w' => w' = w ∧ ∃ content, w.files.staged stagingKey = some content ∧
    env.sha256 content = row.sanitizedPdfSha256) (fun _ w' => w' = w) w := by
  unfold sanitizedPath
  rw [Tx.wp_bind, Tx.wp_require]
  refine ⟨fun stagingKey _ => ?_, fun _ => rfl⟩
  rw [Tx.wp_bind, Tx.wp_get, Tx.wp_bind, Tx.wp_ensure]
  refine ⟨fun hany => ?_, fun _ => rfl⟩
  rw [Option.any_eq_true] at hany
  obtain ⟨content, hcontent, hdigest⟩ := hany
  exact ⟨rfl, content, hcontent, of_decide_eq_true hdigest⟩

theorem wp_promoteToAccepted {stagingKey documentKey : Text} {replace : Bool} :
    Tx.wp (promoteToAccepted m env i stagingKey documentKey replace) (fun _ w' => Moved w stagingKey documentKey replace w')
      (fun _ w' => w' = w ∨ Moved w stagingKey documentKey replace w') w := by
  unfold promoteToAccepted
  rw [Tx.wp_bind, Tx.wp_get, Tx.wp_bind, Tx.wp_ensure]
  refine ⟨fun hfree => ?_, fun _ => .inl rfl⟩
  rw [Tx.wp_bind, Tx.wp_ensure]
  refine ⟨fun _ => ?_, fun _ => .inl rfl⟩
  rw [Tx.wp_bind, Tx.wp_require]
  refine ⟨fun content hcontent => ?_, fun _ => .inl rfl⟩
  rw [Tx.wp_bind, Tx.wp_modify, Tx.wp_ensure]
  exact ⟨fun _ => ⟨content, hcontent, hfree, rfl⟩, fun _ => .inr ⟨content, hcontent, hfree, rfl⟩⟩

theorem wp_savePlan : Tx.wp (savePlan m env i k r) (fun _ w' => w' = { w with plans := w.plans.save r, existing := Function.update w.existing k (some r) })
    (fun _ w' => w' = w) w := by
  unfold savePlan
  rw [Tx.wp_bind, Tx.wp_ensure]
  exact ⟨fun _ => rfl, fun _ => rfl⟩

theorem sound_deactivateDocument (h : Sound env.sha256 T w) :
    Tx.wp (deactivateDocument m env i row (w.existing (m.rowKey row.toRow))) (fun _ w' => Sound env.sha256 T w') (fun _ _ => True) w := by
  unfold deactivateDocument
  split
  · rename_i plan hplan
    split
    · rw [Tx.wp_bind]
      refine Tx.wp_mono wp_savePlan ?_ fun _ _ _ => trivial
      rintro _ w' rfl
      exact (h.save hplan (m.deactivate_kept plan env.now)).counts _ _
    · exact h.counts _ _
  · exact h.counts _ _

theorem sound_createDocument (h : Sound env.sha256 T w) :
    Tx.wp (createDocument m env i row) (fun _ w' => Sound env.sha256 T w') (fun _ _ => True) w := by
  unfold createDocument
  rw [Tx.wp_bind]
  refine Tx.wp_mono wp_sanitizedPath ?_ fun _ _ _ => trivial
  rintro stagingKey _ ⟨rfl, content, hcontent, hdigest⟩
  rw [Tx.wp_bind]
  refine Tx.wp_mono wp_promoteToAccepted ?_ fun _ _ _ => trivial
  rintro _ _ ⟨content', hcontent', hfree, rfl⟩
  obtain rfl : content = content' := Option.some.inj (hcontent.symm.trans hcontent')
  rw [Tx.wp_bind, Tx.wp_ensure]
  refine ⟨fun _ => ?_, fun _ => trivial⟩
  rw [Tx.wp_bind, Tx.wp_get, Tx.wp_bind, Tx.wp_require]
  refine ⟨fun plans hplans => ?_, fun _ => trivial⟩
  obtain ⟨hnew, rfl⟩ := Rows.insert?_eq_some hplans
  obtain ⟨hid, hfile, hsha⟩ := m.create_file row.toRow env.department (env.newId i) (m.createKey (env.newId i)) env.now
  exact (h.create (hfree.resolve_right nofun) hid hfile (hsha.trans hdigest.symm) hnew).counts _ _

theorem sound_writeDocument (h : Sound env.sha256 T w) (hk : w.existing (m.rowKey row.toRow) = some p) :
    Tx.wp (writeDocument m env i row p) (fun _ w' => Sound env.sha256 T w') (fun _ _ => True) w := by
  unfold writeDocument
  split
  · rw [Tx.wp_bind]
    refine Tx.wp_mono wp_sanitizedPath ?_ fun _ _ _ => trivial
    rintro stagingKey _ ⟨rfl, content, hcontent, hdigest⟩
    rw [Tx.wp_bind]
    refine Tx.wp_mono wp_promoteToAccepted ?_ fun _ _ _ => trivial
    rintro _ _ ⟨content', hcontent', hfree, rfl⟩
    obtain rfl : content = content' := Option.some.inj (hcontent.symm.trans hcontent')
    rw [Tx.wp_bind]
    refine Tx.wp_mono wp_savePlan ?_ fun _ _ _ => trivial
    rintro _ _ rfl
    obtain ⟨hid, hfile, hsha⟩ := m.replace_file p row.toRow (m.replaceKey p (env.newId i)) env.now
    exact (h.replace hk hfree hid hfile (hsha.trans hdigest.symm)).counts _ _
  · split
    · rw [Tx.wp_bind]
      refine Tx.wp_mono wp_savePlan ?_ fun _ _ _ => trivial
      rintro _ _ rfl
      exact (h.save hk (m.merge_kept p row.toRow env.now)).counts _ _
    · exact h.counts _ _

/-- A row that is applied keeps every plan backed by its file. -/
theorem sound_applyRow (h : Sound env.sha256 T w) : Tx.wp (applyRow m env e) (fun _ w' => Sound env.sha256 T w') (fun _ _ => True) w := by
  unfold applyRow
  rw [Tx.wp_bind, Tx.wp_get]
  dsimp only
  split
  · exact sound_deactivateDocument h
  · split
    · exact sound_createDocument h
    · rename_i plan hplan
      unfold updateDocument
      split
      · split
        · trivial
        · exact h.counts _ _
        · exact sound_writeDocument h hplan
      · exact sound_writeDocument h hplan

theorem sound_applyRows (rows : List (StagedRow × ℕ)) (h : Sound env.sha256 T w) :
    Tx.wp (Tx.forEach (applyRow m env) rows) (fun _ w' => Sound env.sha256 T w') (fun _ _ => True) w :=
  Tx.wp_forEach (fun _ w' => Sound env.sha256 T w') rows h fun _ _ _ hw => sound_applyRow hw

/-! ### What a raise leaves -/

/-- A plan `p` under the key of the plan `q` before: its document is compared as before, unless the key of `q` is in `K`. -/
structure Follows (m : PlanModel ρ) (K : Text → Prop) (q p : ρ) : Prop where
  id : m.id q = m.id p
  document : m.inPlace = true → K (m.createKey (m.id q)) ∨ ∀ row, m.documentContentChanged p row = m.documentContentChanged q row

instance (K : Text → Prop) : IsPreorder ρ (Follows m K) where
  refl _ := ⟨rfl, fun _ => .inr fun _ => rfl⟩
  trans := by
    intro a b c hab hbc
    refine ⟨hab.id.trans hbc.id, fun hplace => ?_⟩
    rcases hab.document hplace with hK | hsame
    · exact .inl hK
    · rcases hbc.document hplace with hK | hsame'
      · exact .inl (hab.id ▸ hK)
      · exact .inr fun row => (hsame' row).trans (hsame row)

/-- What becomes of the accepted files, whichever way an application ends: those whose keys are not in `K` stay. -/
structure Frame (m : PlanModel ρ) (K : Text → Prop) (w w' : Work m) : Prop where
  kept : ∀ k content, ¬K k → w.files.accepted k = some content → w'.files.accepted k = some content
  others : ∀ k, (∀ u, k ≠ m.createKey u) → w'.files.accepted k = w.files.accepted k
  follows : ∀ k p, w'.existing k = some p → ∃ q, w.existing k = some q ∧ Follows m K q p

instance (K : Text → Prop) : IsPreorder (Work m) (Frame m K) where
  refl _ := ⟨fun _ _ _ h => h, fun _ _ => rfl, fun _ p h => ⟨p, h, refl_of (Follows m K) p⟩⟩
  trans := by
    intro a b c hab hbc
    refine ⟨fun k content hk h => hbc.kept k content hk (hab.kept k content hk h), fun k hk => (hbc.others k hk).trans (hab.others k hk), ?_⟩
    intro k p hp
    obtain ⟨q, hq, hfollows⟩ := hbc.follows k p hp
    obtain ⟨r, hr, hfollows'⟩ := hab.follows k q hq
    exact ⟨r, hr, trans_of (Follows m K) hfollows' hfollows⟩

/-- The keys that hold the documents of the plans a row replaces in place: the review approved the change, and the row has another
document than the plan. -/
def Replaces (m : PlanModel ρ) (env : Env) (existing : Text → Option ρ) (row : StagedRow) (k : Text) : Prop :=
  m.inPlace = true ∧ row.action ≠ .deactivate ∧
    ∃ p, existing (m.rowKey row.toRow) = some p ∧ m.documentContentChanged p row.toRow = true ∧
      env.decisions (m.id p) = some .approved ∧ k = m.createKey (m.id p)

variable {K : Text → Prop}

theorem Frame.moved {stagingKey : Text} {u : Uuid} {replace : Bool} {w' : Work m} (hm : Moved w stagingKey (m.createKey u) replace w')
    (hK : replace = true → K (m.createKey u)) : Frame m K w w' := by
  obtain ⟨content, -, hfree, rfl⟩ := hm
  refine ⟨fun k c hk hc => ?_, fun k hk => Function.update_of_ne (hk u) _ _, fun k p hp => ⟨p, hp, refl_of (Follows m K) p⟩⟩
  show Function.update w.files.accepted _ _ k = _
  by_cases hkey : k = m.createKey u
  · subst hkey
    rcases hfree with hnone | hreplace
    · rw [hnone] at hc
      cases hc
    · exact absurd (hK hreplace) hk
  · rw [Function.update_of_ne hkey, hc]

theorem Frame.same {w' : Work m} (hfiles : w'.files = w.files) (hexisting : w'.existing = w.existing) : Frame m K w w' := by
  refine ⟨fun _ _ _ h => ?_, fun _ _ => ?_, fun _ p h => ⟨p, ?_, refl_of (Follows m K) p⟩⟩
  · rw [hfiles, h]
  · rw [hfiles]
  · rw [← hexisting, h]

theorem frame_tally (f : Counts → Counts) : Tx.Frames (Frame m K) (tally m f) w := Frame.same rfl rfl

theorem frame_savePlan (hk : w.existing k = some p) (hr : Follows m K p r) : Tx.Frames (Frame m K) (savePlan m env i k r) w := by
  refine Tx.wp_mono wp_savePlan ?_ ?_
  · rintro _ _ rfl
    refine ⟨fun _ _ _ h => h, fun _ _ => rfl, fun k' p' hp' => ?_⟩
    change Function.update w.existing k (some r) k' = some p' at hp'
    by_cases hkk : k' = k
    · subst hkk
      rw [Function.update_self] at hp'
      cases hp'
      exact ⟨p, hk, hr⟩
    · rw [Function.update_of_ne hkk] at hp'
      exact ⟨p', hp', refl_of (Follows m K) p'⟩
  · rintro _ _ rfl
    exact refl_of (Frame m K) _

theorem frame_sanitizedPath : Tx.wp (sanitizedPath m env row) (fun _ w' => w' = w) (fun _ w' => Frame m K w w') w := by
  refine Tx.wp_mono wp_sanitizedPath (fun _ _ h => h.1) ?_
  rintro _ _ rfl
  exact refl_of (Frame m K) _

theorem frame_promote {stagingKey : Text} {u : Uuid} {replace : Bool} (hK : replace = true → K (m.createKey u)) :
    Tx.wp (promoteToAccepted m env i stagingKey (m.createKey u) replace) (fun _ w' => Frame m K w w' ∧ w'.existing = w.existing)
      (fun _ w' => Frame m K w w') w := by
  refine Tx.wp_mono wp_promoteToAccepted ?_ ?_
  · intro _ w' hm
    obtain ⟨content, hcontent, hfree, rfl⟩ := id hm
    exact ⟨.moved hm hK, rfl⟩
  · rintro _ w' (rfl | hm)
    · exact refl_of (Frame m K) _
    · exact .moved hm hK

theorem frame_createDocument : Tx.Frames (Frame m K) (createDocument m env i row) w := by
  unfold createDocument
  refine Tx.wp_bind.mpr (Tx.wp_mono frame_sanitizedPath ?_ fun _ _ h => h)
  rintro stagingKey _ rfl
  refine Tx.frames_bind (Tx.wp_mono (frame_promote nofun) (fun _ w' h => ⟨h.1, ?_⟩) fun _ _ h => h)
  refine (Tx.frames_ensure _ _).bind fun _ _ _ => ?_
  rw [Tx.frames_get_bind]
  refine (Tx.frames_require _ _).bind fun _ _ _ => ?_
  refine Tx.Frames.bind ?_ fun _ _ _ => frame_tally _
  exact Frame.same rfl rfl

theorem frame_writeDocument (hk : w.existing (m.rowKey row.toRow) = some p)
    (hK : m.inPlace = true → m.documentContentChanged p row.toRow = true → K (m.createKey (m.id p))) :
    Tx.Frames (Frame m K) (writeDocument m env i row p) w := by
  unfold writeDocument
  split
  · rename_i hchanged
    refine Tx.wp_bind.mpr (Tx.wp_mono frame_sanitizedPath ?_ fun _ _ h => h)
    rintro stagingKey _ rfl
    dsimp only
    have hkey := m.replaceKey_eq p (env.newId i)
    rw [hkey]
    have hreplaced : m.inPlace = true → K (m.createKey (if m.inPlace = true then m.id p else env.newId i)) := by
      intro hplace
      rw [if_pos hplace]
      exact hK hplace hchanged
    refine Tx.frames_bind (Tx.wp_mono (frame_promote hreplaced) (fun _ w' h => ⟨h.1, ?_⟩) fun _ _ h => h)
    have hstill : w'.existing (m.rowKey row.toRow) = some p := by rw [h.2, hk]
    have hfollows : ∀ key, Follows m K p (m.replaceDocumentContent p row.toRow key env.now) := fun key =>
      ⟨(m.replace_file p row.toRow key env.now).1.symm, fun hplace => .inl (hK hplace hchanged)⟩
    exact (frame_savePlan hstill (hfollows _)).bind fun _ _ _ => frame_tally _
  · split
    · have hfollows : Follows m K p (m.mergeDocumentMetadata p row.toRow env.now) :=
        ⟨(m.merge_kept p row.toRow env.now).1.symm, fun _ => .inr (m.merge_document p row.toRow env.now)⟩
      exact (frame_savePlan hk hfollows).bind fun _ _ _ => frame_tally _
    · exact frame_tally _

/-- A row changes no file but that of a plan whose approved document it replaces in place. -/
theorem frame_applyRow {existing : Text → Option ρ} (hold : ∀ k p, w.existing k = some p → ∃ q, existing k = some q ∧ Follows m K q p)
    (hK : ∀ k, Replaces m env existing e.1 k → K k) : Tx.Frames (Frame m K) (applyRow m env e) w := by
  unfold applyRow
  rw [Tx.frames_get_bind]
  dsimp only
  split
  · unfold deactivateDocument
    split
    · rename_i plan hplan
      split
      · have hfollows : Follows m K plan (m.deactivate plan env.now) :=
          ⟨(m.deactivate_kept plan env.now).1.symm, fun _ => .inr (m.deactivate_document plan env.now)⟩
        exact (frame_savePlan hplan hfollows).bind fun _ _ _ => frame_tally _
      · exact frame_tally _
    · exact frame_tally _
  · rename_i hupsert
    split
    · exact frame_createDocument
    · rename_i plan hplan
      unfold updateDocument
      split
      · split
        · exact refl_of (Frame m K) w
        · exact Frame.same rfl rfl
        · rename_i happroved
          refine frame_writeDocument hplan fun hplace hchanged => ?_
          obtain ⟨q, hq, hfollows⟩ := hold _ plan hplan
          rw [← hfollows.id]
          -- A row before may have replaced the document already; otherwise the plan of the query had another document too.
          rcases hfollows.document hplace with hdone | hsame
          · exact hdone
          · exact hK _ ⟨hplace, hupsert, q, hq, (hsame _).symm.trans hchanged, by rw [hfollows.id, happroved], rfl⟩
      · rename_i hsame
        exact frame_writeDocument hplan fun _ hchanged => absurd (.inl hchanged) hsame

theorem frame_applyRows {rows : List (StagedRow × ℕ)} (hK : ∀ e ∈ rows, ∀ k, Replaces m env w.existing e.1 k → K k) :
    Tx.Frames (Frame m K) (Tx.forEach (applyRow m env) rows) w :=
  Tx.Frames.forEach fun e he _ ht => frame_applyRow ht.follows (hK e he)

end

end FireDash.Ingestion.Packages
