import FireDash.FileLibrary.Access
import FireDash.Publications.Services.Queue

/-! Mutations of a library: renaming, folders, moves, deletions, uploads and the
collection of unreferenced contents. -/
namespace FireDash.FileLibrary

open Publications (Actor Content DepartmentId Digest LibraryOwner)

/-! ### Names -/

/-- The characters `str.strip` removes. -/
def isSpace (c : Char) : Bool :=
  c.toNat ∈ [9, 10, 11, 12, 13, 28, 29, 30, 31, 32, 133, 160, 5760, 8232, 8233, 8239, 8287, 12288] ∨
    (8192 ≤ c.toNat ∧ c.toNat ≤ 8202)

def strip (value : String) : String :=
  String.ofList ((value.toList.dropWhile isSpace).reverse.dropWhile isSpace).reverse

/-- `value.lower().endswith(".pdf")`; no other character has these lower-case forms. -/
def endsWithPdf (value : String) : Bool :=
  (value.toList.reverse.take 4).map Char.toLower = ['f', 'd', 'p', '.']

def invalidName : Error := .libraryError "Enter a name of 1–255 characters without path separators."

def nameValue (value : String) (pdf : Bool) : Except Error String :=
  let value := strip value
  if value.toList = [] ∨ 255 < value.toList.length ∨ value = "." ∨ value = ".." ∨
      (value.toList.any fun c => c.toNat < 32 ∨ c ∈ "/\\".toList) then
    .error invalidName
  else if pdf ∧ ¬endsWithPdf value then .error (.libraryError "Document names must end in .pdf.")
  else .ok value

/-! ### Entries and their locations -/

namespace State

def scopedEntry (s : State) (library id : ℕ) (folder : Bool := false) : Except Error Entry :=
  match s.entries.find id with
  | some e =>
    if e.library ≠ library then .error (.libraryError "The selected item is unavailable in this library.")
    else if folder ∧ ¬e.isFolder then .error (.libraryError "Select a folder.")
    else .ok e
  | none => .error (.libraryError "The selected item is unavailable in this library.")

def parentEntry (s : State) (library : ℕ) : Option ℕ → Except Error (Option Entry)
  | some id => do return some (← s.scopedEntry library id true)
  | none => .ok none

/-- `entry.parent`. -/
def parentOf (s : State) (e : Entry) : Except Error (Option Entry) :=
  match e.parent with
  | some id =>
    match s.entries.find id with
    | some parent => .ok (some parent)
    | none => .error .doesNotExist
  | none => .ok none

/-- The loop of `folder_ancestry`, with the number of ancestors it may still add. -/
def ancestry (s : State) (library : ℕ) : ℕ → List Entry → Option Entry → Except Error (List Entry)
  | _, ancestors, none => .ok ancestors
  | levels, ancestors, some folder => do
    if folder.library ≠ library ∨ ¬folder.isFolder then
      throw (.libraryError "The selected folder is unavailable in this library.")
    if folder.id ∈ ancestors.map (·.id) then
      throw (.libraryError "Folder cycles or excessive folder depth are not allowed.")
    match levels with
    | 0 => throw (.libraryError "Folder cycles or excessive folder depth are not allowed.")
    | levels + 1 =>
      match s.parentOf folder with
      | .error _ => throw (.libraryError "The selected folder is unavailable in this library.")
      | .ok parent => s.ancestry library levels (folder :: ancestors) parent

/-- Root-to-folder navigation using the same scope and depth rules as mutations. -/
def folderAncestry (s : State) (library : ℕ) (folder : Option Entry) : Except Error (List Entry) :=
  s.ancestry library maxFolderDepth [] folder

/-- Another entry of the location has the name, up to the case mapping of `iexact`. -/
def duplicateExists (s : State) (cfg : Config) (library : ℕ) (name : String) (parent entry : Option ℕ) : Bool :=
  s.entries.list.any fun e =>
    e.library = library ∧ e.parent = parent ∧ cfg.upper e.name = cfg.upper name ∧ some e.id ≠ entry

/-- The number of folders above a location, with the number the loop may still pass. -/
def locationDepth (s : State) (entry : Option ℕ) : ℕ → Option Entry → Except Error ℕ
  | _, none => .ok 0
  | 0, some _ => .error (.libraryError "Folder cycles are not allowed.")
  | levels + 1, some cursor => do
    if some cursor.id = entry then
      throw (.libraryError "Folder cycles are not allowed.")
    let parent ← s.parentOf cursor
    return (← s.locationDepth entry levels parent) + 1

def childIds (s : State) (foldersOnly : Bool) (frontier : List ℕ) : List ℕ :=
  (s.entries.list.filter fun e =>
    (∃ parent ∈ e.parent, parent ∈ frontier) ∧ (foldersOnly = true → e.isFolder = true)).map (·.id)

/-- More rounds than a terminating search can take. -/
def searchRounds (s : State) : ℕ := s.entries.list.length + maxFolderDepth + 1

/-- The `while frontier` searches from one entry, level by level. -/
def subtreeLevels (s : State) (foldersOnly : Bool) (id : ℕ) : Except Error (List (List ℕ)) :=
  match Links.levels (s.childIds foldersOnly) s.searchRounds [id] with
  | some levels => .ok levels
  | none => .error .nonTermination

/-- The folder levels a located item takes up itself. -/
def locationHeight (s : State) (entry : Option ℕ) : Bool → Except Error ℕ
  | false => .ok 0
  | true =>
    match entry with
    | some id => do return (← s.subtreeLevels true id).length
    | none => .ok 1

def validateLocation (s : State) (cfg : Config) (library : ℕ) (name : String) (parent : Option Entry)
    (entry : Option ℕ) (folder : Bool) : Except Error Unit := do
  if s.duplicateExists cfg library name (parent.map (·.id)) entry then
    throw (.libraryError "An item with this name already exists in the folder.")
  let depth ← s.locationDepth entry maxFolderDepth parent
  let height ← s.locationHeight entry folder
  if maxFolderDepth < depth + height then
    throw (.libraryError "Folders may be nested at most five levels deep.")

/-- The unique constraint on `Lower(name)`, library and parent. -/
def violatesUniqueName (s : State) (cfg : Config) (e : Entry) : Bool :=
  s.entries.list.any fun f =>
    f.id ≠ e.id ∧ f.library = e.library ∧ f.parent = e.parent ∧ cfg.lower f.name = cfg.lower e.name

end State

def uniqueNameViolation : Error := .integrityError "file_entry_unique_name"

def createEntry (cfg : Config) (e : Entry) : Service Unit := do
  let s ← Tx.get
  Tx.ensure (s.violatesUniqueName cfg e = false) uniqueNameViolation
  let entries ← Tx.require (s.entries.insert? e) (.integrityError "file_library_entry_pkey")
  Tx.modify fun s => { s with entries := entries }

def saveEntry (cfg : Config) (e : Entry) : Service Unit := do
  let s ← Tx.get
  Tx.ensure (s.violatesUniqueName cfg e = false) uniqueNameViolation
  Tx.modify fun s => { s with entries := s.entries.save e }

def saveLibrary (library : Library) : Service Unit := do
  Tx.ensure (0 ≤ library.usageBytes ∧ library.usageBytes ≤ maxBigInteger) (.integrityError "usage_bytes")
  Tx.modify fun s => { s with libraries := s.libraries.save library }

/-- An administrator who changed a department library gives up its temporary access. -/
def endDepartmentMutation (env : Env) (actor : Actor) : LibraryOwner → Service Unit
  | .department _ => do
    let _ ← revokeTemporaryAccess env actor "department_mutation"
  | .station _ => pure ()

/-- The common end of the mutations: the new revision and the dirty mark. -/
def changed (cfg : Config) (env : Env) (actor : Actor) (library : Library) : Service Unit := do
  saveLibrary { library with sourceRevision := library.sourceRevision + 1 }
  let _ ← publicationCall env fun e =>
    Publications.markDirty cfg.publications e (scopeKwargs library.owner).target (some actor)
  endDepartmentMutation env actor library.owner

def renameLibrary (cfg : Config) (env : Env) (actor : Actor) (libraryId : ℕ) (name : String) : Service Unit :=
  libraryMutation env actor libraryId .manage do
    let (library, _) ← lockedLibrary env actor libraryId .manage
    let name ← Tx.ofExcept (nameValue name false)
    Tx.whenever (library.name ≠ name) <| changed cfg env actor { library with name := name }

/-- `id` is the identity drawn for the new folder. -/
def createFolder (cfg : Config) (env : Env) (actor : Actor) (libraryId : ℕ) (name : String)
    (parentId : Option ℕ) (id : ℕ) : Service Entry :=
  libraryMutation env actor libraryId .manage do
    let (library, _) ← lockedLibrary env actor libraryId .manage
    let name ← Tx.ofExcept (nameValue name false)
    let s ← Tx.get
    let parent ← Tx.ofExcept (s.parentEntry library.id parentId)
    Tx.ofExcept (s.validateLocation cfg library.id name parent none true)
    let entry : Entry :=
      { id := id, library := library.id, parent := parent.map (·.id), name := name, content := none
        modifiedBy := actor }
    createEntry cfg entry
    changed cfg env actor library
    return entry

def editEntry (cfg : Config) (env : Env) (actor : Actor) (libraryId entryId : ℕ) (name : Option String)
    (parentId : Option ℕ) (move : Bool) : Service Entry :=
  libraryMutation env actor libraryId .manage do
    let (library, _) ← lockedLibrary env actor libraryId .manage
    let s ← Tx.get
    let entry ← Tx.ofExcept (s.scopedEntry library.id entryId)
    let newName ← Tx.ofExcept (match name with
      | some name => nameValue name (!entry.isFolder)
      | none => .ok entry.name)
    let parent ← Tx.ofExcept (if move then s.parentEntry library.id parentId else s.parentOf entry)
    Tx.ofExcept (s.validateLocation cfg library.id newName parent (some entry.id) entry.isFolder)
    if newName = entry.name ∧ parent.map (·.id) = entry.parent then
      return entry
    let entry := { entry with name := newName, parent := parent.map (·.id), modifiedBy := actor }
    saveEntry cfg entry
    changed cfg env actor library
    return entry

def deleteEntry (cfg : Config) (env : Env) (actor : Actor) (libraryId entryId : ℕ) : Service Access :=
  libraryMutation env actor libraryId .delete do
    let (library, access) ← lockedLibrary env actor libraryId .delete
    let s ← Tx.get
    let entry ← Tx.ofExcept (s.scopedEntry library.id entryId)
    let levels ← Tx.ofExcept (s.subtreeLevels false entry.id)
    let ids := levels.flatten
    let items := s.entries.list.filter fun e => e.id ∈ ids
    -- Deleting the entry cascades to everything below it.
    Tx.modify fun s => { s with entries := s.entries.delete fun e => e.id ∈ ids }
    changed cfg env actor { library with usageBytes := library.usageBytes - (items.map s.sizeBytes).sum }
    match access with
    | .temporary =>
      let _ ← revokeTemporaryAccess env actor "consumed_by_deletion"
    | .normal => pure ()
    return access

/-! ### Uploads -/

/-- The quota policy of a department, created on first use. -/
def quotaPolicy (cfg : Config) (department : DepartmentId) : Service DepartmentQuotaPolicy := do
  let s ← Tx.get
  match s.quotas.find department with
  | some policy => return policy
  | none =>
    let policy : DepartmentQuotaPolicy :=
      { department := department, departmentFilesBytes := cfg.departmentQuotaBytes
        stationFilesBytes := cfg.stationQuotaBytes }
    let quotas ← Tx.require (s.quotas.insert? policy) (.integrityError "department")
    Tx.modify fun s => { s with quotas := quotas }
    return policy

def quotaBytes (cfg : Config) (library : Library) : Service ℕ := do
  let policy ← quotaPolicy cfg (departmentFor library.owner)
  match library.owner with
  | .department _ => return policy.departmentFilesBytes
  | .station _ => return policy.stationFilesBytes

/-- One call of `upload_pdf`: its arguments, the identities it draws, and what the sandbox and
the file system answer. `prepared` is the size and digest of the sanitized PDF. -/
structure Upload where
  name : String
  size : ℕ
  parentId : Option ℕ := none
  replaceId : Option ℕ := none
  approvalId : Option String := none
  contentId : ℕ
  documentId : ℕ
  prepared : Except Error (ℕ × Digest)
  promoted : Except Error Unit := .ok ()

def Upload.storageKey (upload : Upload) (library : ℕ) : String :=
  s!"file-libraries/{library}/{upload.contentId}.pdf"

def createContent (content : Content) : Service Unit := do
  let s ← Tx.get
  Tx.ensure (s.contents.list.all fun c => c.storageKey ≠ content.storageKey)
    (.integrityError "file_library_content_storage_key")
  Tx.ensure ((content.sizeBytes : ℤ) ≤ maxBigInteger) (.integrityError "size_bytes")
  let contents ← Tx.require (s.contents.insert? content) (.integrityError "file_library_content_pkey")
  Tx.modify fun s => { s with contents := contents }

/-- The rows of an accepted upload: the content, and the document that now references it. -/
def writeUpload (cfg : Config) (actor : Actor) (library : Library) (entry parent : Option Entry) (name : String)
    (upload : Upload) (content : Content) : Service Entry := do
  createContent content
  match entry with
  | some entry =>
    let entry := { entry with content := some content.id, modifiedBy := actor }
    saveEntry cfg entry
    return entry
  | none =>
    let entry : Entry :=
      { id := upload.documentId, library := library.id, parent := parent.map (·.id), name := name
        content := some content.id, modifiedBy := actor }
    createEntry cfg entry
    return entry

/-- The transaction of an upload. -/
def acceptUpload (cfg : Config) (env : Env) (actor : Actor) (libraryId : ℕ) (name : String) (upload : Upload)
    (size : ℕ) (digest : Digest) : Service Entry :=
  Tx.atomic do
    let (library, _) ← lockedLibrary env actor libraryId .manage
    let s ← Tx.get
    let entry ← Tx.ofExcept (match upload.replaceId with
      | some id => (s.scopedEntry library.id id).map some
      | none => .ok none)
    Tx.ensure (∀ e ∈ entry, e.isFolder = false) (.libraryError "Only PDFs can be replaced.")
    let parent ← Tx.ofExcept (match entry with
      | some e => s.parentOf e
      | none => s.parentEntry library.id upload.parentId)
    Tx.ofExcept (s.validateLocation cfg library.id ((entry.map (·.name)).getD name) parent
      (entry.map (·.id)) false)
    let usage := library.usageBytes - (entry.map s.sizeBytes).getD 0 + size
    let quota ← quotaBytes cfg library
    Tx.ensure (usage ≤ quota ∨ usage ≤ library.usageBytes)
      (.libraryError "Library storage quota exceeded.")
    Tx.ofExcept upload.promoted
    let content : Content :=
      { id := upload.contentId, library := library.id, storageKey := upload.storageKey library.id
        sizeBytes := size, sha256 := digest }
    let entry ← writeUpload cfg actor library entry parent name upload content
    changed cfg env actor { library with usageBytes := usage }
    return entry

def uploadPdf (cfg : Config) (env : Env) (actor : Actor) (libraryId : ℕ) (upload : Upload) : Service Entry := do
  let _ ← activeTemporaryAccess env actor
  let library ← getLibrary libraryId
  Tx.ofExcept (requireLibrary env actor library.owner)
  let name ← Tx.ofExcept (nameValue upload.name true)
  Tx.ensure (upload.size ≤ cfg.maxFileBytes) (.libraryError "PDF exceeds the file size limit.")
  Tx.ensure (upload.approvalId.isNone)
    (.libraryError "Upload approvals are obsolete. Upload the PDF without a capacity review.")
  let (size, digest) ← Tx.ofExcept upload.prepared
  Tx.ensure (size ≤ cfg.maxFileBytes) (.libraryError "Sanitized PDF exceeds the file size limit.")
  acceptUpload cfg env actor libraryId name upload size digest

/-- The garbage collection of one content, whose remaining references protect it. Its PDF is
removed as the deletion commits. -/
def collectContent (id : ℕ) : Service Bool :=
  Tx.atomic do
    let s ← Tx.get
    let content ← Tx.require (s.contents.find id) .doesNotExist
    if (∃ e ∈ s.entries.list, e.content = some content.id) ∨
        (∃ pin ∈ s.publications.documents.contents, pin.content.id = content.id) then
      return false
    Tx.modify fun s => { s with
      contents := s.contents.delete fun c => c.id = content.id
      removals := s.removals ++ [content.storageKey] }
    return true

/-! ### Libraries, quotas and the activation of temporary access -/

/-- `Library.objects.get_or_create`; `id` is the identity drawn for a new row. -/
def libraryFor (owner : LibraryOwner) (id : ℕ) : Service Library := do
  let s ← Tx.get
  match s.libraries.list.find? fun l => l.owner = owner with
  | some library => return library
  | none =>
    let library : Library := { id := id, owner := owner }
    let libraries ← Tx.require (s.libraries.insert? library) (.integrityError "file_library_library_pkey")
    Tx.modify fun s => { s with libraries := libraries }
    return library

/-- Queue the first publication of a library. -/
def initializeLibrary (cfg : Config) (env : Env) (library : Library) : Service Unit :=
  Tx.atomic do
    lockScope library
    let s ← Tx.get
    let (id, scope) ← Tx.require (s.publications.scopeWithKey (scopeKwargs library.owner)) .doesNotExist
    Tx.whenever (scope.currentPublishedPublication = none ∧
        s.publications.jobs.any (fun job => job.scopeState = id) = false) do
      let _ ← publicationCall env fun e => Publications.enqueuePublicationJob cfg.publications e
        { target := (scopeKwargs library.owner).target }

def openLibrary (cfg : Config) (env : Env) (actor : Actor) (owner : LibraryOwner) (id : ℕ) : Service Library :=
  Tx.atomic do
    Tx.ofExcept (requireLibrary env actor owner)
    let library ← libraryFor owner id
    initializeLibrary cfg env library
    return library

/-- Give a department administrator six hours at one station of the department. -/
def activateTemporaryAccess (cfg : Config) (env : Env) (actor : Actor) (stationId libraryId : ℕ) : Service ℕ :=
  Tx.atomic do
    let department ← Tx.require (env.stationDepartment stationId) .doesNotExist
    Tx.ensure (department ∈ env.activeDepartmentIds actor ∧ env.stationActive stationId) .permissionDenied
    let previous ← activeTemporaryAccess env actor
    match previous with
    | some (id, access) =>
      if access.station = stationId then
        return id
      revokeAccess env id "switched"
    | none => pure ()
    let s ← Tx.get
    Tx.ensure (s.openAccess actor = none) (.integrityError "one_active_temporary_station_access")
    let now := env.publications.now
    let access : TemporaryStationAccess :=
      { user := actor, department := department, station := stationId, activatedAt := now
        expiresAt := now + temporaryAccessDuration }
    Tx.modify fun t => { t with accesses := t.accesses.insert access }
    let library ← libraryFor (.station ⟨stationId, department⟩) libraryId
    initializeLibrary cfg env library
    return s.accesses.nextId

/-- `_validate_quota` on the given values. -/
def validateQuota (cfg : Config) (value : ℕ) : Except Error Unit :=
  if value ≤ cfg.maxQuotaBytes then .ok () else
    .error (.libraryError s!"Quota must be between 0 and {cfg.maxQuotaBytes} bytes.")

def setDepartmentQuotas (cfg : Config) (env : Env) (actor : Actor) (department : DepartmentId)
    (departmentFilesBytes stationFilesBytes : Option ℕ) : Service Unit :=
  Tx.atomic do
    Tx.ensure (env.publications.isDepartmentAdmin actor department) .permissionDenied
    Tx.ofExcept ((departmentFilesBytes.toList ++ stationFilesBytes.toList).forM (validateQuota cfg))
    let policy ← quotaPolicy cfg department
    let updated := { policy with
      departmentFilesBytes := departmentFilesBytes.getD policy.departmentFilesBytes
      stationFilesBytes := stationFilesBytes.getD policy.stationFilesBytes }
    Tx.whenever (updated ≠ policy) do
      Tx.modify fun s => { s with quotas := s.quotas.save updated }
      let _ ← revokeTemporaryAccess env actor "department_mutation"

end FireDash.FileLibrary
