import Mathlib.Data.Nat.Notation

/-! The application dataset registry: which dataset types exist, who owns their
scopes, and which schemas and summaries they accept. -/
namespace FireDash.Publications

/-- The exceptions a publication service can raise, with their texts. -/
inductive Error where
  | publicationError (message : String)
  | publicationBuildError (message : String)
  | datasetRegistryError (message : String)
  | artifactError (message : String)
  | validationError (message : String)
  | documentV2Error (message : String)
  | keyGrantError (message : String)
  | valueError (message : String)
  | manifestError (message : String)
  | appVersionError (message : String)
  | tabletError (message : String)
  | assignmentError (message : String)
  | databaseError (message : String)
  | permissionDenied
  | invalidUnwrap
  | attributeError
  | keyError
  | typeError
  | doesNotExist
  deriving DecidableEq

abbrev DepartmentId := ℕ

structure Station where
  id : ℕ
  departmentId : DepartmentId
  deriving DecidableEq

inductive ScopeType where
  | system
  | department
  | station
  deriving DecidableEq

/-- Registered codes, and any code a stored row may still carry after its type
left the registry. -/
inductive DatasetTypeCode where
  | departmentFiles
  | stationFiles
  | dangerousGoods
  | departmentHydrants
  | departmentFirePlans
  | stationPersonnel
  | departmentPhonebook
  | stationPhonebook
  | departmentKlgvPlans
  | testDepartmentIncidents
  | testSystemDataset
  | unregistered (code : String)
  deriving DecidableEq

/-- `{"department_files", "station_files"}`. -/
def DatasetTypeCode.isFileDataset : DatasetTypeCode → Bool
  | .departmentFiles | .stationFiles => true
  | _ => false

/-- The four datasets that may carry a schema-two document generation. -/
def DatasetTypeCode.isDocumentDataset : DatasetTypeCode → Bool
  | .departmentFirePlans | .departmentKlgvPlans | .departmentFiles | .stationFiles => true
  | _ => false

inductive ArtifactFormat where
  | json
  | geojson
  | documentManifestV2
  deriving DecidableEq

inductive SummaryField where
  | activeCount
  | statusCounts
  | activeDocumentCount
  | documentCount
  | totalAcceptedBytes
  | totalPages
  | personCount
  | stationId
  | commanderEligibleCount
  | verifiedCommanderEmailCount
  | entryCount
  | goodsCount
  | eriCardCount
  | incidentCount
  | itemCount
  | diameterMmSummary
  | sourceRevision
  deriving DecidableEq

inductive SummaryKind where
  | itemCount
  | nonNegativeInteger
  | uuid
  | boundedStringIntegerMap
  deriving DecidableEq

/-- `FEATURE_REGISTRY`. -/
inductive FeatureCode where
  | publications
  | klgvPlans
  deriving DecidableEq

/-- System ownership never implies distribution: a system dataset opts into exposure. -/
structure DatasetTypeDefinition where
  code : DatasetTypeCode
  scope : ScopeType
  artifactFormat : ArtifactFormat
  currentSchemaVersion : ℕ
  minimumAppVersion : Option String := none
  summarySchema : List (SummaryField × SummaryKind)
  required : Bool := true
  supportedSchemaVersions : List ℕ
  featureCode : FeatureCode := .publications
  systemExposure : Bool := false
  deriving DecidableEq

private def fileLibraryDefinition (code : DatasetTypeCode) (scope : ScopeType) :
    DatasetTypeDefinition where
  code := code
  scope := scope
  artifactFormat := .documentManifestV2
  currentSchemaVersion := 2
  supportedSchemaVersions := [2]
  summarySchema := [(.documentCount, .itemCount), (.totalAcceptedBytes, .nonNegativeInteger),
    (.sourceRevision, .nonNegativeInteger)]

private def jsonDefinition (code : DatasetTypeCode) (scope : ScopeType)
    (summarySchema : List (SummaryField × SummaryKind)) : DatasetTypeDefinition where
  code := code
  scope := scope
  artifactFormat := .json
  currentSchemaVersion := 1
  supportedSchemaVersions := [1]
  summarySchema := summarySchema

/-- `DATASET_REGISTRY[code]`. -/
def getDatasetDefinition (code : DatasetTypeCode) : Except Error DatasetTypeDefinition :=
  match code with
  | .departmentFiles => .ok (fileLibraryDefinition code .department)
  | .stationFiles => .ok (fileLibraryDefinition code .station)
  | .dangerousGoods => .ok
      { jsonDefinition code .system [(.goodsCount, .itemCount), (.eriCardCount, .itemCount),
          (.sourceRevision, .nonNegativeInteger)] with
        systemExposure := true }
  | .departmentHydrants => .ok
      { jsonDefinition code .department [(.activeCount, .itemCount),
          (.sourceRevision, .nonNegativeInteger), (.statusCounts, .boundedStringIntegerMap)] with
        artifactFormat := .geojson }
  | .departmentFirePlans => .ok
      { fileLibraryDefinition code .department with
        summarySchema := [(.activeDocumentCount, .itemCount), (.totalAcceptedBytes, .nonNegativeInteger),
          (.totalPages, .nonNegativeInteger), (.sourceRevision, .nonNegativeInteger)] }
  | .stationPersonnel => .ok (jsonDefinition code .station
      [(.personCount, .itemCount), (.stationId, .uuid), (.commanderEligibleCount, .itemCount),
        (.verifiedCommanderEmailCount, .itemCount), (.sourceRevision, .nonNegativeInteger)])
  | .departmentPhonebook => .ok
      { jsonDefinition code .department [(.entryCount, .itemCount), (.sourceRevision, .nonNegativeInteger)] with
        required := false }
  | .stationPhonebook => .ok
      { jsonDefinition code .station [(.entryCount, .itemCount), (.sourceRevision, .nonNegativeInteger)] with
        required := false }
  | .departmentKlgvPlans => .ok
      { fileLibraryDefinition code .department with
        summarySchema := [(.documentCount, .itemCount), (.totalAcceptedBytes, .nonNegativeInteger),
          (.totalPages, .nonNegativeInteger), (.sourceRevision, .nonNegativeInteger)]
        featureCode := .klgvPlans }
  | .testDepartmentIncidents => .ok
      { jsonDefinition code .department [(.incidentCount, .itemCount), (.sourceRevision, .nonNegativeInteger)] with
        required := false }
  | .testSystemDataset => .ok
      { jsonDefinition code .system [(.itemCount, .itemCount), (.sourceRevision, .nonNegativeInteger)] with
        required := false }
  | .unregistered _ => .error (.datasetRegistryError "Unknown dataset type code.")

/-- The `department=`, `station=`, `dataset_type_code=` arguments of the services. -/
structure Target where
  department : Option DepartmentId
  station : Option Station
  datasetTypeCode : DatasetTypeCode
  deriving DecidableEq

/-- The unique key of a dataset scope, repeated on its publications and jobs. -/
structure ScopeKey where
  scopeType : ScopeType
  target : Target
  deriving DecidableEq

/-- `validate_dataset_scope` with an explicit scope type. -/
def validateDatasetScope (key : ScopeKey) : Except Error DatasetTypeDefinition := do
  let definition ← getDatasetDefinition key.target.datasetTypeCode
  if key.scopeType ≠ definition.scope then
    throw (.datasetRegistryError "Dataset type is not registered for this publication scope.")
  match key.scopeType with
  | .system =>
    if key.target.department.isSome ∨ key.target.station.isSome then
      throw (.datasetRegistryError "System-scoped datasets cannot have a department or station.")
  | .department =>
    if key.target.department.isNone ∨ key.target.station.isSome then
      throw (.datasetRegistryError
        "Department-scoped datasets cannot have a station and require a department.")
  | .station =>
    if key.target.department.isNone ∨ key.target.station.isNone then
      throw (.datasetRegistryError "Station scope requires a department and station.")
  return definition

/-- The registry declares ownership; nullable tenant keys never do. -/
def registeredScopeType (code : DatasetTypeCode) : Except Error ScopeType := do
  return (← getDatasetDefinition code).scope

def scopeFilter (target : Target) : Except Error ScopeKey := do
  return ⟨← registeredScopeType target.datasetTypeCode, target⟩

/-- The service-level scope check: registry errors become `PublicationError`. -/
def validateScope (target : Target) : Except Error Unit := do
  let scopeType ← registeredScopeType target.datasetTypeCode
  match validateDatasetScope ⟨scopeType, target⟩ with
  | .error (.datasetRegistryError message) => throw (.publicationError message)
  | .error e => throw e
  | .ok _ => pure ()
  match target.station with
  | some station =>
    if target.department ≠ some station.departmentId then
      throw (.publicationError "Station must belong to the scope department.")
  | none => pure ()

theorem getDatasetDefinition_code {code : DatasetTypeCode} {d : DatasetTypeDefinition}
    (h : getDatasetDefinition code = .ok d) : d.code = code := by
  cases code <;> cases h <;> rfl

/-- A registered code is one of the eleven registry entries. -/
theorem getDatasetDefinition_eq_error {code : DatasetTypeCode} :
    (∃ e, getDatasetDefinition code = .error e) ↔ ∃ name, code = .unregistered name := by
  cases code <;> simp [getDatasetDefinition]

end FireDash.Publications
