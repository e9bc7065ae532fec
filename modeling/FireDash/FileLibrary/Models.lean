import FireDash.Lib.Rows
import FireDash.Lib.Forest
import FireDash.Publications.Models

/-! Rows of the file libraries: one namespace of folders and documents for each
department and station, the immutable contents, the quotas and the temporary grants. -/
namespace FireDash.FileLibrary

open Publications (Actor Content DepartmentId Digest LibraryOwner ScopeKey Time)

/-- The exceptions of the library services, beside those of the publication services.
`nonTermination` stands for a loop that does not end. -/
inductive Error where
  | libraryError (message : String)
  | storageError (message : String)
  | pdfValidationError (message : String)
  | integrityError (constraint : String)
  | nonTermination
  | shared (error : Publications.Error)
  deriving DecidableEq

abbrev Error.permissionDenied : Error := .shared .permissionDenied

abbrev Error.doesNotExist : Error := .shared .doesNotExist

def maxFolderDepth : ℕ := 5

/-- The largest value of a `PositiveBigIntegerField`. -/
def maxBigInteger : ℤ := 9223372036854775807

structure Library where
  id : ℕ
  owner : LibraryOwner
  name : String := "Documents"
  sourceRevision : ℕ := 0
  usageBytes : ℤ := 0
  deriving DecidableEq

/-- The kind check of the database makes exactly the folders the entries without content. -/
structure Entry where
  id : ℕ
  library : ℕ
  parent : Option ℕ
  name : String
  content : Option ℕ
  modifiedBy : Actor
  deriving DecidableEq

def Entry.isFolder (e : Entry) : Bool := e.content.isNone

structure DepartmentQuotaPolicy where
  department : DepartmentId
  departmentFilesBytes : ℕ
  stationFilesBytes : ℕ
  deriving DecidableEq

/-- Time-bounded, user-bound department-admin access to one station library. -/
structure TemporaryStationAccess where
  user : Actor
  department : DepartmentId
  station : ℕ
  activatedAt : Time
  expiresAt : Time
  revokedAt : Option Time := none
  revocationReason : String := ""
  deriving DecidableEq

/-- The rows, and the stored PDFs whose removal commits with them. -/
structure State where
  libraries : Rows Library.id := {}
  contents : Rows Content.id := {}
  entries : Rows Entry.id := {}
  quotas : Rows DepartmentQuotaPolicy.department := {}
  accesses : Table TemporaryStationAccess := ⟨[]⟩
  publications : Publications.Db := {}
  removals : List String := []
  deriving DecidableEq

/-- The tables before the first library. -/
def State.empty : State := {}

/-- Deployment settings, with the two case mappings of the database. -/
structure Config where
  upper : String → String
  lower : String → String
  publications : Publications.Config
  departmentQuotaBytes : ℕ
  stationQuotaBytes : ℕ
  maxQuotaBytes : ℕ
  maxFileBytes : ℕ

/-- What one call observes besides the library rows: the clock and the rows the publication
services read, the authority of users, and the stations. -/
structure Env where
  publications : Publications.Env
  isSystemAdmin : Actor → Bool := fun _ => false
  activeDepartmentIds : Actor → List DepartmentId := fun _ => []
  activeStationIds : Actor → List ℕ := fun _ => []
  stationActive : ℕ → Bool := fun _ => true
  stationDepartment : ℕ → Option DepartmentId := fun _ => none

abbrev Service := Tx State Error

/-- `department_for`. -/
def departmentFor : LibraryOwner → DepartmentId
  | .department id => id
  | .station station => station.departmentId

/-- `scope_kwargs`: the publication scope of a library. -/
def scopeKwargs : LibraryOwner → ScopeKey
  | .department id => ⟨.department, ⟨some id, none, .departmentFiles⟩⟩
  | .station station => ⟨.station, ⟨some station.departmentId, some station, .stationFiles⟩⟩

/-- The parent links of the entries. -/
def entryLinks (entries : Rows Entry.id) : Links ℕ := fun i => (entries.find i).map (·.parent)

namespace State

/-- The row behind `entry.content`. -/
def contentOf (s : State) (e : Entry) : Option Content := e.content.bind s.contents.find

def sizeBytes (s : State) (e : Entry) : ℤ := ((s.contentOf e).map fun c => (c.sizeBytes : ℤ)).getD 0

/-- The bytes the documents of a library reference. -/
def referencedBytes (s : State) (library : ℕ) : ℤ :=
  s.entries.sum fun e => if e.library = library then s.sizeBytes e else 0

/-- The entry as the publication builders read it. The entry guard of the database refuses the
content of another library. -/
def sourceEntry (s : State) (library : ℕ) (e : Entry) : Publications.Entry :=
  { id := e.id
    name := e.name
    parent := e.parent
    content := (s.contentOf e).filter fun c => c.library = library }

/-- A library as the publication builders read it. -/
def sourceLibrary (s : State) (l : Library) : Publications.Library where
  id := l.id
  owner := l.owner
  name := l.name
  sourceRevision := l.sourceRevision
  entries := (s.entries.list.filter fun e => e.library = l.id).map (s.sourceEntry l.id)
  contents_own := by
    intro e he c hc
    obtain ⟨e', -, rfl⟩ := List.mem_map.mp he
    have hf := (Option.filter_eq_some_iff.mp hc).2
    simpa using hf

end State

/-- What a publication service called from here observes: the library rows as they now are. -/
def Env.at (env : Env) (s : State) : Publications.Env :=
  { env.publications with
    canonical := { env.publications.canonical with libraries := s.libraries.list.map s.sourceLibrary } }

/-- Call a publication service inside the current transaction. -/
def publicationCall {α : Type} (env : Env) (x : Publications.Env → Publications.Service α) : Service α := fun s =>
  match x (env.at s) s.publications with
  | (.ok a, p) => (.ok a, { s with publications := p })
  | (.error e, p) => (.error (.shared e), { s with publications := p })

end FireDash.FileLibrary
