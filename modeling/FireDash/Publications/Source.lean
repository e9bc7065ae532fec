import Mathlib.Data.List.Dedup
import Mathlib.Data.List.Sort
import Mathlib.Data.Rat.Defs
import FireDash.Lib.Json
import FireDash.Publications.Registry

/-! Canonical source tables and the frozen projections, summaries and artifact
contents that the dataset builders derive from them. -/
namespace FireDash.Publications

/-- Microseconds since the epoch, in UTC. -/
abbrev Time := ℕ
/-- A SHA-256 digest. -/
abbrev Digest := BitVec 256
/-- A fingerprint column; `none` is the blank text. -/
abbrev Fingerprint := Option Digest
abbrev Bytes := List UInt8
abbrev Actor := ℕ

/-- A point geometry; the coordinates are the exact values of its two doubles. -/
structure Point where
  x : ℚ
  y : ℚ
  deriving DecidableEq

structure Hydrant where
  id : ℕ
  department : DepartmentId
  externalIdentifier : String
  geometry : Point
  street : String
  houseNumber : String
  location : Option String
  hydrantType : String
  diameterMm : Option ℕ
  status : String
  deriving DecidableEq

structure FirePlan where
  id : ℕ
  department : DepartmentId
  externalIdentifier : String
  objectName : String
  address : String
  postalCode : String
  city : String
  fsdLocation : String
  bmzLocation : String
  rwaInfo : String
  location : Option Point
  documentKey : String
  fileSize : ℕ
  pageCount : ℕ
  sha256 : Digest
  active : Bool
  deriving DecidableEq

structure KlgvPlan where
  id : ℕ
  department : DepartmentId
  externalIdentifier : String
  objectName : String
  address : String
  postalCode : String
  city : String
  location : Option Point
  path : String
  fileSize : ℕ
  pageCount : ℕ
  sha256 : Digest
  active : Bool
  deriving DecidableEq

/-- The personnel services verify an address only when there is one. -/
structure Person where
  id : ℕ
  department : DepartmentId
  displayName : String
  active : Bool
  incidentCommanderEligible : Bool
  incidentCommanderEmail : Option String
  emailVerifiedAt : Option Time
  verified_email : emailVerifiedAt.isSome → incidentCommanderEmail.isSome
  deriving DecidableEq

structure PersonnelStationAssignment where
  person : Person
  station : ℕ
  validFrom : Time
  validUntil : Option Time
  endedAt : Option Time
  deriving DecidableEq

structure PhonebookEntry where
  id : ℕ
  department : DepartmentId
  station : Option ℕ
  firstName : String
  lastName : String
  organizationUnit : String
  function : String
  phoneNumber : String
  deriving DecidableEq

/-- `DatasetSourceRevision`, an immutable raw source of the dangerous-goods scope. -/
structure DatasetSourceRevision where
  sourceRevision : ℕ
  sha256 : Digest
  goodsCount : ℕ
  eriCardCount : ℕ
  plaintext : Bytes
  deriving DecidableEq

structure Content where
  id : ℕ
  library : ℕ
  storageKey : String
  sizeBytes : ℕ
  sha256 : Digest
  deriving DecidableEq

/-- A folder has no content, a document has. -/
structure Entry where
  id : ℕ
  name : String
  parent : Option ℕ
  content : Option Content
  deriving DecidableEq

inductive LibraryOwner where
  | department (id : DepartmentId)
  | station (station : Station)
  deriving DecidableEq

/-- The entry guard of the database keeps the content of an entry in its library. -/
structure Library where
  id : ℕ
  owner : LibraryOwner
  name : String := "Documents"
  sourceRevision : ℕ := 0
  entries : List Entry := []
  contents_own : ∀ e ∈ entries, ∀ c ∈ e.content, c.library = id := by simp
  deriving DecidableEq

/-- The canonical tables a transaction reads. -/
structure Canonical where
  hydrants : List Hydrant := []
  firePlans : List FirePlan := []
  klgvPlans : List KlgvPlan := []
  assignments : List PersonnelStationAssignment := []
  phonebook : List PhonebookEntry := []
  dangerousGoods : List DatasetSourceRevision := []
  libraries : List Library := []
  deriving DecidableEq

/-! ### Frozen projections -/

structure HydrantFeature where
  id : ℕ
  coordinates : Point
  externalIdentifier : String
  street : Option String
  houseNumber : Option String
  location : Option String
  hydrantType : String
  diameterMm : Option ℕ
  status : String
  deriving DecidableEq

structure PersonRecord where
  id : ℕ
  displayName : String
  incidentCommanderEligible : Bool
  commanderEmail : Option String
  deriving DecidableEq

structure FirePlanRecord where
  id : ℕ
  externalIdentifier : Option String
  objectName : Option String
  address : Option String
  postalCode : Option String
  city : Option String
  fsdLocation : Option String
  bmzLocation : Option String
  rwaInfo : Option String
  location : Option Point
  sha256 : Digest
  pageCount : ℕ
  deriving DecidableEq

structure KlgvPlanRecord where
  id : ℕ
  externalIdentifier : Option String
  objectName : String
  address : String
  postalCode : String
  city : String
  location : Option Point
  sha256 : Digest
  pageCount : ℕ
  deriving DecidableEq

structure PhonebookRecord where
  id : ℕ
  firstName : Option String
  lastName : Option String
  organizationUnit : Option String
  function : Option String
  phoneNumber : String
  deriving DecidableEq

structure LibraryIdentity where
  id : ℕ
  name : String
  owner : LibraryOwner
  deriving DecidableEq

structure FolderRecord where
  id : ℕ
  name : String
  parentId : Option ℕ
  deriving DecidableEq

/-- A document of a library snapshot, without its content identity. -/
structure FileRecord where
  id : ℕ
  name : String
  folderId : Option ℕ
  sizeBytes : ℕ
  sha256 : Digest
  deriving DecidableEq

structure LibrarySnapshot where
  library : LibraryIdentity
  sourceRevision : ℕ
  folders : List FolderRecord
  documents : List (FileRecord × ℕ)
  deriving DecidableEq

/-- The metadata a document dataset freezes for one document. -/
inductive DocumentRecord where
  | firePlan (record : FirePlanRecord)
  | klgvPlan (record : KlgvPlanRecord)
  | file (record : FileRecord)
  deriving DecidableEq

/-- `source_snapshot`, one constructor for each payload a source builder returns. -/
inductive Snapshot where
  | hydrants (features : List HydrantFeature)
  | personnel (station : ℕ) (people : List PersonRecord)
  | firePlans (plans : List FirePlanRecord)
  | klgvPlans (plans : List KlgvPlanRecord)
  | phonebook (entries : List PhonebookRecord)
  | exactSource (sha256 : Digest)
  | fileLibrary (snapshot : LibrarySnapshot)
  | incidents
  | items
  | other (json : String)
  deriving DecidableEq

/-- What is hashed: a payload as it is, or a library without its bookkeeping. -/
inductive LogicalSource where
  | payload (snapshot : Snapshot)
  | library (identity : LibraryIdentity) (folders : List FolderRecord) (documents : List FileRecord)
  deriving DecidableEq

/-- Deployment settings, with the encoding and the hash of canonical JSON texts. A
snapshot is encoded alone or with the `source_revision` an artifact adds to it. -/
structure Config where
  sha256Json : LogicalSource → Digest
  jsonBytes : Snapshot → Option ℕ → Bytes
  buildSummaryMaxItems : ℕ
  artifactMaxBytes : ℕ
  kekVersion : String
  signingKeyVersion : String
  retainedRollbackPredecessors : ℕ
  retentionRestoreAwareEnabled : Bool
  terminalSnapshotRetention : ℕ
  retentionBatchSize : ℕ

/-- What one service call observes besides the database. -/
structure Env where
  now : Time
  canonical : Canonical := {}
  mayManage : Actor → Target → Bool := fun _ _ => true
  isDepartmentAdmin : Actor → DepartmentId → Bool := fun _ _ => true

/-- `value or None` on a text column. -/
def orNone (text : String) : Option String := if text = "" then none else some text

def byId {α : Type} (id : α → ℕ) (rows : List α) : List α :=
  rows.insertionSort fun a b => id a ≤ id b

def hydrantSourcePayload (canonical : Canonical) (target : Target) : Except Error Snapshot := do
  if target.station.isSome then
    throw (.publicationBuildError "Hydrant source requires a department scope.")
  let active := canonical.hydrants.filter fun h => some h.department = target.department ∧ h.status = "ACTIVE"
  return .hydrants <| (byId (·.id) active).map fun h =>
    { id := h.id
      coordinates := h.geometry
      externalIdentifier := h.externalIdentifier
      street := orNone h.street
      houseNumber := orNone h.houseNumber
      location := h.location.bind orNone
      hydrantType := h.hydrantType
      diameterMm := h.diameterMm
      status := h.status }

/-- The current personnel visibility predicate for active assignments. -/
def PersonnelStationAssignment.visible (now : Time) (department : Option DepartmentId) (station : Station)
    (a : PersonnelStationAssignment) : Bool :=
  a.station = station.id ∧ some a.person.department = department ∧ a.person.active ∧
    a.endedAt = none ∧ a.validFrom ≤ now ∧ (a.validUntil = none ∨ ∃ u ∈ a.validUntil, now < u)

/-- The station of a personnel scope, when it belongs to the department. -/
def personnelStation (target : Target) (message : String) : Except Error Station :=
  match target.station with
  | some station =>
    if target.department = some station.departmentId then .ok station
    else .error (.publicationBuildError message)
  | none => .error (.publicationBuildError message)

def personnelSourcePayload (now : Time) (canonical : Canonical) (target : Target) :
    Except Error Snapshot := do
  let station ← personnelStation target "Personnel source requires a station in the department."
  let visible := canonical.assignments.filter (·.visible now target.department station)
  return .personnel station.id <| (byId (·.person.id) visible).map fun a =>
    { id := a.person.id
      displayName := a.person.displayName
      incidentCommanderEligible := a.person.incidentCommanderEligible
      commanderEmail := if a.person.emailVerifiedAt.isSome then a.person.incidentCommanderEmail else none }

def activeFirePlans (canonical : Canonical) (target : Target) : List FirePlan :=
  canonical.firePlans.filter fun p => some p.department = target.department ∧ p.active

def firePlanSourcePayload (canonical : Canonical) (target : Target) : Except Error Snapshot := do
  if target.station.isSome then
    throw (.publicationBuildError "Fire-plan source requires a department scope.")
  return .firePlans <| (byId (·.id) (activeFirePlans canonical target)).map fun p =>
    { id := p.id
      externalIdentifier := orNone p.externalIdentifier
      objectName := orNone p.objectName
      address := orNone p.address
      postalCode := orNone p.postalCode
      city := orNone p.city
      fsdLocation := orNone p.fsdLocation
      bmzLocation := orNone p.bmzLocation
      rwaInfo := orNone p.rwaInfo
      location := p.location
      sha256 := p.sha256
      pageCount := p.pageCount }

def activeKlgvPlans (canonical : Canonical) (target : Target) : List KlgvPlan :=
  canonical.klgvPlans.filter fun p => some p.department = target.department ∧ p.active

def klgvSourcePayload (canonical : Canonical) (target : Target) : Except Error Snapshot := do
  if target.station.isSome then
    throw (.publicationBuildError "KLGV plan source requires a department scope.")
  return .klgvPlans <| (byId (·.id) (activeKlgvPlans canonical target)).map fun p =>
    { id := p.id
      externalIdentifier := orNone p.externalIdentifier
      objectName := p.objectName
      address := p.address
      postalCode := p.postalCode
      city := p.city
      location := p.location
      sha256 := p.sha256
      pageCount := p.pageCount }

def phonebookEntries (canonical : Canonical) (target : Target) : Except Error (List PhonebookRecord) := do
  match target.station with
  | some station =>
    if target.department ≠ some station.departmentId then
      throw (.publicationBuildError "Phonebook source requires a station in the department.")
  | none => pure ()
  let entries := canonical.phonebook.filter fun e =>
    some e.department = target.department ∧ e.station = target.station.map (·.id)
  return (byId (·.id) entries).map fun e =>
    { id := e.id
      firstName := orNone e.firstName
      lastName := orNone e.lastName
      organizationUnit := orNone e.organizationUnit
      function := orNone e.function
      phoneNumber := e.phoneNumber }

def phonebookSourcePayload (canonical : Canonical) (target : Target) : Except Error Snapshot := do
  return .phonebook (← phonebookEntries canonical target)

def latestRevision : List DatasetSourceRevision → Option DatasetSourceRevision
  | [] => none
  | r :: rest =>
    match latestRevision rest with
    | none => some r
    | some r' => some (if r'.sourceRevision ≤ r.sourceRevision then r else r')

def dangerousGoodsSourcePayload (canonical : Canonical) (target : Target) : Except Error Snapshot := do
  if target.department.isSome ∨ target.station.isSome then
    throw (.publicationBuildError "Dangerous-goods source requires a system scope.")
  match latestRevision canonical.dangerousGoods with
  | some source => return .exactSource source.sha256
  | none => throw (.publicationBuildError "Dangerous-goods source is unavailable.")

/-- `Library.objects.get_or_create` for the owner of a file scope. -/
def Canonical.libraryOf (canonical : Canonical) (owner : LibraryOwner) : Library :=
  (canonical.libraries.find? fun l => l.owner = owner).getD
    { id := (canonical.libraries.map (·.id)).foldr max 0 + 1, owner := owner }

/-- Read the full source, retaining revision and content identities for freezing. -/
def snapshotForLibrary (library : Library) : LibrarySnapshot :=
  let entries := byId (·.id) library.entries
  { library := { id := library.id, name := library.name, owner := library.owner }
    sourceRevision := library.sourceRevision
    folders := (entries.filter (·.content.isNone)).map fun e =>
      { id := e.id, name := e.name, parentId := e.parent }
    documents := entries.filterMap fun e => e.content.map fun c =>
      ({ id := e.id, name := e.name, folderId := e.parent, sizeBytes := c.sizeBytes, sha256 := c.sha256 },
        c.id) }

def fileLibrarySource (canonical : Canonical) (target : Target) : Except Error Snapshot :=
  match target.department, target.station with
  | none, _ => .error .attributeError
  | some _, some station => .ok (.fileLibrary (snapshotForLibrary (canonical.libraryOf (.station station))))
  | some d, none => .ok (.fileLibrary (snapshotForLibrary (canonical.libraryOf (.department d))))

/-- `build_source_payload`: a frozen source projection of the scope. -/
def buildSourcePayload (env : Env) (definition : DatasetTypeDefinition) (target : Target) :
    Except Error Snapshot :=
  match definition.code with
  | .departmentFiles | .stationFiles => fileLibrarySource env.canonical target
  | .dangerousGoods => dangerousGoodsSourcePayload env.canonical target
  | .departmentHydrants => hydrantSourcePayload env.canonical target
  | .departmentFirePlans => firePlanSourcePayload env.canonical target
  | .stationPersonnel => personnelSourcePayload env.now env.canonical target
  | .departmentPhonebook | .stationPhonebook => phonebookSourcePayload env.canonical target
  | .departmentKlgvPlans => klgvSourcePayload env.canonical target
  | .testDepartmentIncidents => .ok .incidents
  | .testSystemDataset => .ok .items
  | .unregistered _ => .error (.publicationBuildError "No source fingerprint builder is available.")

/-- Only comparison ignores bookkeeping that does not change what tablets receive. -/
def LibrarySnapshot.logical (s : LibrarySnapshot) : LogicalSource :=
  .library s.library (byId (·.id) s.folders) (byId (·.id) (s.documents.map Prod.fst))

def sourceFingerprintForPayload (cfg : Config) : Snapshot → Digest
  | .exactSource sha256 => sha256
  | .fileLibrary s => cfg.sha256Json s.logical
  | payload => cfg.sha256Json (.payload payload)

/-! ### Summaries -/

inductive SummaryValue where
  | integer (n : ℤ)
  | uuid (id : ℕ)
  | counts (buckets : List (String × ℤ))
  deriving DecidableEq

abbrev Summary := List (SummaryField × SummaryValue)

def Summary.get? (summary : Summary) (field : SummaryField) : Option SummaryValue :=
  (summary.find? fun e => e.1 = field).map Prod.snd

def maxHydrantStatusBuckets : ℕ := 50

def SummaryKind.check (cfg : Config) (kind : SummaryKind) (value : SummaryValue) : Except Error Unit :=
  match kind, value with
  | .itemCount, .integer n =>
    if n < 0 then throw (.publicationBuildError "Builder returned an invalid summary value.")
    else if n > cfg.buildSummaryMaxItems then
      throw (.publicationBuildError "Builder summary exceeds the configured item limit.")
    else pure ()
  | .nonNegativeInteger, .integer n =>
    if n < 0 then throw (.publicationBuildError "Builder returned an invalid summary value.") else pure ()
  | .uuid, .uuid _ => pure ()
  | .boundedStringIntegerMap, .counts buckets =>
    if buckets.length > maxHydrantStatusBuckets then
      throw (.publicationBuildError "Builder summary exceeds the configured category limit.")
    else if buckets.any fun b => b.1.length > 128 ∨ b.2 < 0 then
      throw (.publicationBuildError "Builder returned an invalid summary value.")
    else if buckets.any fun b => b.2 > cfg.buildSummaryMaxItems then
      throw (.publicationBuildError "Builder summary exceeds the configured item limit.")
    else pure ()
  | .boundedStringIntegerMap, _ =>
    throw (.publicationBuildError "Builder summary exceeds the configured category limit.")
  | _, _ => throw (.publicationBuildError "Builder returned an invalid summary value.")

/-- Check the schema entries in order against a summary that has exactly these fields. -/
def checkSummaryFields (cfg : Config) (summary : Summary) :
    List (SummaryField × SummaryKind) → Except Error Unit
  | [] => .ok ()
  | (field, kind) :: rest => do
    match summary.get? field with
    | some value => kind.check cfg value
    | none => throw (.publicationBuildError "Builder returned an invalid summary schema.")
    checkSummaryFields cfg summary rest

def validateSummary (cfg : Config) (definition : DatasetTypeDefinition) (summary : Summary) :
    Except Error Unit := do
  let fields := summary.map Prod.fst
  let schema := definition.summarySchema.map Prod.fst
  if ¬(fields.all (· ∈ schema) ∧ schema.all (· ∈ fields)) then
    throw (.publicationBuildError "Builder returned an invalid summary schema.")
  checkSummaryFields cfg summary definition.summarySchema

def countValue (n : ℕ) : SummaryValue := .integer n

def buildHydrants (canonical : Canonical) (target : Target) (sourceRevision : ℕ) : Except Error Summary := do
  if target.station.isSome then
    throw (.publicationBuildError "Hydrant builder requires a department scope.")
  let active := canonical.hydrants.filter fun h => some h.department = target.department ∧ h.status = "ACTIVE"
  let statusRows : List (String × ℤ) := if active = [] then [] else [("ACTIVE", active.length)]
  if statusRows.length > maxHydrantStatusBuckets then
    throw (.publicationBuildError "Hydrant status categories exceed the configured limit.")
  return [(.activeCount, .integer (statusRows.map Prod.snd).sum), (.sourceRevision, countValue sourceRevision),
    (.statusCounts, .counts statusRows)]

def buildFirePlans (canonical : Canonical) (target : Target) (sourceRevision : ℕ) : Except Error Summary := do
  if target.station.isSome then
    throw (.publicationBuildError "Fire-plan builder requires a department scope.")
  let plans := activeFirePlans canonical target
  return [(.activeDocumentCount, countValue plans.length),
    (.totalAcceptedBytes, countValue (plans.map (·.fileSize)).sum),
    (.totalPages, countValue (plans.map (·.pageCount)).sum), (.sourceRevision, countValue sourceRevision)]

def buildKlgvPlans (canonical : Canonical) (target : Target) (sourceRevision : ℕ) : Except Error Summary := do
  if target.station.isSome then
    throw (.publicationBuildError "KLGV plan builder requires a department scope.")
  let plans := activeKlgvPlans canonical target
  return [(.documentCount, countValue plans.length),
    (.totalAcceptedBytes, countValue (plans.map (·.fileSize)).sum),
    (.totalPages, countValue (plans.map (·.pageCount)).sum), (.sourceRevision, countValue sourceRevision)]

/-- `Count("person_id", distinct=True)` over the assignments that satisfy a filter. -/
def distinctPeople (assignments : List PersonnelStationAssignment) (p : Person → Bool) : ℕ :=
  ((assignments.filter fun a => p a.person).map (·.person.id)).dedup.length

def buildPersonnel (now : Time) (canonical : Canonical) (target : Target) (sourceRevision : ℕ) :
    Except Error Summary := do
  let station ← personnelStation target "Personnel builder requires a station in the department."
  let visible := canonical.assignments.filter (·.visible now target.department station)
  return [(.personCount, countValue (distinctPeople visible fun _ => true)), (.stationId, .uuid station.id),
    (.commanderEligibleCount, countValue (distinctPeople visible (·.incidentCommanderEligible))),
    (.verifiedCommanderEmailCount, countValue (distinctPeople visible (·.emailVerifiedAt.isSome))),
    (.sourceRevision, countValue sourceRevision)]

def buildPhonebook (canonical : Canonical) (target : Target) (sourceRevision : ℕ) : Except Error Summary := do
  return [(.entryCount, countValue (← phonebookEntries canonical target).length),
    (.sourceRevision, countValue sourceRevision)]

def buildDangerousGoods (canonical : Canonical) (target : Target) (sourceRevision : ℕ) :
    Except Error Summary := do
  if target.department.isSome ∨ target.station.isSome then
    throw (.publicationBuildError "Dangerous-goods builder requires a system scope.")
  match canonical.dangerousGoods.find? fun r => r.sourceRevision = sourceRevision with
  | some source => return [(.goodsCount, countValue source.goodsCount), (.eriCardCount, countValue source.eriCardCount),
      (.sourceRevision, countValue sourceRevision)]
  | none => throw (.publicationBuildError "Frozen dangerous-goods source is unavailable.")

/-- `file_library.publication.summary`. -/
def librarySummary (snapshot : LibrarySnapshot) (revision : ℕ) : Summary :=
  [(.documentCount, countValue snapshot.documents.length),
    (.totalAcceptedBytes, countValue (snapshot.documents.map (·.1.sizeBytes)).sum), (.sourceRevision, countValue revision)]

def buildFileLibrary (canonical : Canonical) (target : Target) (sourceRevision : ℕ) :
    Except Error Summary := do
  match ← fileLibrarySource canonical target with
  | .fileLibrary snapshot => return librarySummary snapshot sourceRevision
  | _ => return []

/-- `BUILDERS[definition.builder_service]`. -/
def summaryBuilder (env : Env) (code : DatasetTypeCode) (target : Target) (sourceRevision : ℕ) :
    Except Error Summary :=
  match code with
  | .departmentFiles | .stationFiles => buildFileLibrary env.canonical target sourceRevision
  | .dangerousGoods => buildDangerousGoods env.canonical target sourceRevision
  | .departmentHydrants => buildHydrants env.canonical target sourceRevision
  | .departmentFirePlans => buildFirePlans env.canonical target sourceRevision
  | .stationPersonnel => buildPersonnel env.now env.canonical target sourceRevision
  | .departmentPhonebook | .stationPhonebook => buildPhonebook env.canonical target sourceRevision
  | .departmentKlgvPlans => buildKlgvPlans env.canonical target sourceRevision
  | .testDepartmentIncidents => .ok [(.incidentCount, countValue 0), (.sourceRevision, countValue sourceRevision)]
  | .testSystemDataset => .ok [(.itemCount, countValue 0), (.sourceRevision, countValue sourceRevision)]
  | .unregistered _ => .error (.publicationBuildError "No registered builder is available.")

def buildSummary (cfg : Config) (env : Env) (definition : DatasetTypeDefinition) (target : Target)
    (sourceRevision : ℕ) : Except Error Summary := do
  let summary ← summaryBuilder env definition.code target sourceRevision
  validateSummary cfg definition summary
  return summary

/-- `change_summary`: the new source revision and one difference per counted field. -/
structure ChangeSummary where
  sourceRevision : ℤ
  deltas : List (SummaryField × ℤ)
  deriving DecidableEq

/-- `fields_by_type.get(definition.code, ("item_count",))`. -/
def changeSummaryFields : DatasetTypeCode → List SummaryField
  | .departmentHydrants => [.activeCount, .diameterMmSummary]
  | .departmentFirePlans => [.activeDocumentCount, .totalAcceptedBytes, .totalPages]
  | .stationPersonnel => [.personCount, .commanderEligibleCount, .verifiedCommanderEmailCount]
  | .departmentKlgvPlans => [.documentCount, .totalAcceptedBytes, .totalPages]
  | .departmentPhonebook | .stationPhonebook => [.entryCount]
  | .dangerousGoods => [.goodsCount, .eriCardCount]
  | _ => [.itemCount]

/-- `after - before` when both summaries hold an integer, an absent field counting zero. -/
def fieldDelta (previous current : Summary) (field : SummaryField) : Option ℤ :=
  match (previous.get? field).getD (.integer 0), (current.get? field).getD (.integer 0) with
  | .integer before, .integer after => some (after - before)
  | _, _ => none

def buildChangeSummary (definition : DatasetTypeDefinition) (previous current : Summary) :
    Except Error ChangeSummary :=
  match current.get? .sourceRevision with
  | some (.integer sourceRevision) => .ok
      { sourceRevision := sourceRevision
        deltas := (changeSummaryFields definition.code).filterMap fun field =>
          (fieldDelta previous current field).map fun d => (field, d) }
  | _ => .error (.publicationBuildError "Builder returned an invalid source revision.")

def maxChangeSummaryFields : ℕ := 20

/-- `len(str(value)) ≤ 512`. -/
def shortDecimal (n : ℤ) : Bool := -(10 ^ 511) < n ∧ n < 10 ^ 512

def validateChangeSummary (summary : ChangeSummary) : Except Error Unit := do
  if summary.deltas.length + 1 > maxChangeSummaryFields then
    throw (.validationError "Change summary exceeds the configured field limit.")
  if ¬(shortDecimal summary.sourceRevision ∧ summary.deltas.all fun d => shortDecimal d.2) then
    throw (.validationError "Change summary contains an invalid value.")

/-! ### Artifact contents -/

/-- `ARTIFACT_BUILDERS[definition.builder_service]` on the frozen snapshot. -/
def artifactBuilder (cfg : Config) (env : Env) (code : DatasetTypeCode) (target : Target)
    (sourceRevision : ℕ) (snapshot : Snapshot) : Except Error Bytes :=
  match code with
  | .departmentHydrants =>
    if target.station.isSome then
      .error (.publicationBuildError "Hydrant artifact requires a department scope.")
    else .ok (cfg.jsonBytes snapshot sourceRevision)
  | .stationPersonnel => do
    let _ ← personnelStation target "Personnel artifact requires a station in the department."
    return cfg.jsonBytes snapshot sourceRevision
  | .departmentPhonebook | .stationPhonebook => .ok (cfg.jsonBytes snapshot sourceRevision)
  | .testDepartmentIncidents => .ok (cfg.jsonBytes .incidents none)
  | .testSystemDataset => .ok (cfg.jsonBytes .items none)
  | .dangerousGoods =>
    if target.department.isSome ∨ target.station.isSome then
      .error (.publicationBuildError "Dangerous-goods artifact requires a system scope.")
    else
      match env.canonical.dangerousGoods.find? fun r =>
          r.sourceRevision = sourceRevision ∧ snapshot = .exactSource r.sha256 with
      | some source => .ok source.plaintext
      | none => .error (.publicationBuildError "Frozen dangerous-goods source is unavailable.")
  | _ => .error (.publicationBuildError "No registered artifact builder is available.")

/-- `f"{value / (1024 * 1024):.1f} MiB"`, by way of the nearest binary64 quotient. -/
def mib (value : ℕ) : String :=
  let unit := 2 ^ (value.log2 - 52)
  let tenths := Json.Double.halfEven (Json.Double.halfEven value unit * unit * 10) (1024 * 1024)
  toString (tenths / 10) ++ "." ++ toString (tenths % 10) ++ " MiB"

def buildArtifact (cfg : Config) (env : Env) (definition : DatasetTypeDefinition) (target : Target)
    (sourceRevision : ℕ) (snapshot : Snapshot) : Except Error Bytes := do
  let artifact ← artifactBuilder cfg env definition.code target sourceRevision snapshot
  if artifact.length > cfg.artifactMaxBytes then
    throw (.publicationBuildError
      ("Publication artifact is " ++ mib artifact.length ++ "; configured maximum is " ++ mib cfg.artifactMaxBytes ++ "."))
  return artifact

end FireDash.Publications
