import FireDash.Lib.Csv
import FireDash.Lib.Floats
import FireDash.Lib.JsonAccess

/-! The parsers of structured imports: hydrants, personnel, stations with their vehicles, and the phonebook. -/
namespace FireDash.Ingestion.Parsers

open Json (Double Text Value strip text)

abbrev Bytes := List UInt8

/-- `ImportValidationError`, and what else Python raises on the way. -/
inductive Raised where
  | importValidation (message : String)
  | csvError
  | recursionError
  | valueError
  | typeError
  | attributeError
  | overflowError
  | zipError
  deriving DecidableEq

abbrev Parsed (α : Type) := Except Raised α

def invalid {α : Type} (message : String) : Parsed α := .error (.importValidation message)

/-- Raise unless the condition holds. -/
def check (c : Prop) [Decidable c] (message : String) : Parsed Unit := if c then .ok () else invalid message

/-- The value, or the error when there is none. -/
def orInvalid {α : Type} (o : Option α) (message : String) : Parsed α :=
  match o with
  | some a => .ok a
  | none => invalid message

/-- The import settings, the limits of the JSON reader, and Unicode as the interpreter knows it. -/
structure Settings where
  maxStructuredImportBytes : ℕ
  maxStructuredImportRows : ℕ
  maxHydrantGeojsonFeatures : ℕ
  maxIngestUploadBytes : ℕ
  maxPdfPackageDocuments : ℕ
  maxPdfPackageExpandedBytes : ℕ
  maxPdfInputBytes : ℕ
  jsonLimits : Json.Limits
  decimal : ℕ → Option ℕ
  casefold : Text → Text

inductive ImportFormat where
  | csv
  | json
  | geojson
  | pdf
  | zip
  deriving DecidableEq

/-! ### Rows -/

/-- A row by its columns; `extra` are the cells beyond the header. -/
structure Row where
  fields : List (Text × Value)
  extra : List Text := []

def Row.get (row : Row) (field : String) : Value := (Json.field row.fields (text field)).getD .null

/-- The row of `csv.DictReader`: a column without a cell is `None`. -/
def dictRow (header cells : List Text) : Row where
  fields :=
    (header.drop cells.length).foldl (fun fields column => Json.setField fields column .null)
      ((header.zip cells).foldl (fun fields e => Json.setField fields e.1 (.str e.2)) [])
  extra := cells.drop header.length

/-- The columns are exactly those of the schema. -/
def sameColumns (names : List String) (columns : List Text) : Bool :=
  columns.all (fun c => names.any fun n => text n = c) && names.all fun n => columns.any fun c => text n = c

def readRecord : Except Csv.Error (List Text) → Parsed (List Text)
  | .ok cells => .ok cells
  | .error _ => .error .csvError

/-- `csv.DictReader(io.StringIO(text))`, its header checked before the rows are read. -/
def dictReader (t : Text) (accepts : List Text → Bool) (mismatch : String) : Parsed (List Row) :=
  match Csv.reader t with
  | [] => invalid mismatch
  | .error _ :: _ => .error .csvError
  | .ok header :: records => do
    check (header ≠ [] ∧ accepts header = true) mismatch
    let cells ← records.mapM readRecord
    return (cells.filter (· ≠ [])).map (dictRow header)

/-- `payload.decode("utf-8-sig")` -/
def decodeSig (payload : Bytes) : Option Text :=
  (Json.decodeUtf8 payload).map fun t => if t.head? = some 0xFEFF then t.tail else t

/-- `json.loads` -/
def loads (settings : Settings) (t : Text) (message : String) : Parsed Value :=
  match Json.loads settings.jsonLimits Json.defaultConstant t with
  | .ok v => .ok v
  | .error .recursion => .error .recursionError
  | .error .digits => .error .valueError
  | .error _ => invalid message

def schemaMismatch : String := "JSON objects do not match the documented schema."

/-- The row of a JSON object with exactly the columns. -/
def jsonRow (names : List String) : Value → Parsed Row
  | .dict fields => if sameColumns names (fields.map Prod.fst) = true then .ok ⟨fields, []⟩ else invalid schemaMismatch
  | _ => invalid schemaMismatch

def jsonRows (names : List String) : Value → Parsed (List Row)
  | .list items => items.mapM (jsonRow names)
  | _ => invalid schemaMismatch

/-- The rows of a decoded text. -/
def textRows (settings : Settings) (t : Text) (importFormat : ImportFormat) (names : List String) : Parsed (List Row) :=
  match importFormat with
  | .csv => dictReader t (fun header => header.Nodup && sameColumns names header) "CSV columns do not match the documented schema."
  | .json => loads settings t "JSON import is invalid." >>= jsonRows names
  | _ => invalid "Unsupported structured import format."

/-- `_rows` -/
def structuredRows (settings : Settings) (payload : Bytes) (importFormat : ImportFormat) (names : List String) : Parsed (List Row) := do
  check (payload.length ≤ settings.maxStructuredImportBytes) "Structured import exceeds the configured size limit."
  let t ← orInvalid (decodeSig payload) "Import must be UTF-8."
  let rows ← textRows settings t importFormat names
  check (rows.length ≤ settings.maxStructuredImportRows) "Structured import row limit exceeded."
  return rows

/-! ### Cells -/

/-- `_optional_text` -/
def optionalText (value : Value) (maximum number : ℕ) : Parsed Text :=
  match value with
  | .str s => if (strip s).length ≤ maximum then .ok (strip s) else invalid s!"Row {number}: text field is invalid."
  | _ => invalid s!"Row {number}: text field is invalid."

/-- `_required` -/
def required (row : Row) (field : String) (number : ℕ) : Parsed Text := do
  let t ← optionalText (row.get field) 255 number
  check (t ≠ []) s!"Row {number}: {field} is required."
  return t

/-- `_optional_nullable_text` -/
def optionalNullableText (value : Value) (maximum number : ℕ) : Parsed (Option Text) :=
  match value with
  | .null => .ok none
  | value => some <$> optionalText value maximum number

/-- The words of a text, which any white space separates. -/
def words : Text → List Text
  | [] => []
  | c :: rest =>
    if Json.isSpace c then words rest
    else
      match rest, words rest with
      | d :: _, w :: others => if Json.isSpace d then [c] :: w :: others else (c :: w) :: others
      | _, others => [c] :: others

/-- `_station_reference_key` -/
def stationReferenceKey (settings : Settings) (value : Text) : Text := settings.casefold ([32].intercalate (words value))

def inRange (field : String) (number : ℕ) (lower upper : ℤ) (x : Double) : Parsed Double :=
  if Floats.between lower upper x = true then .ok x else invalid s!"Row {number}: {field} is out of range."

/-- `_coordinate` -/
def coordinate (settings : Settings) (row : Row) (field : String) (number : ℕ) (lower upper : ℤ) : Parsed Double :=
  match row.get field with
  | .int n =>
    match Floats.ofInt n with
    | some x => inRange field number lower upper x
    -- Only `TypeError` and `ValueError` are caught.
    | none => .error .overflowError
  | .float x => inRange field number lower upper x
  | .str s =>
    match Floats.readFloat settings.decimal s with
    | some x => inRange field number lower upper x
    | none => invalid s!"Row {number}: {field} is invalid."
  | _ => invalid s!"Row {number}: {field} is invalid."

/-- `int(text)`, which refuses more digits than the interpreter converts. -/
def readInt (settings : Settings) (t : Text) : Option ℤ :=
  if settings.jsonLimits.digits < t.countP (fun c => Json.isDigit c || (settings.decimal c).isSome) then none
  else Numerals.readInt settings.decimal 10 t

/-- `_optional_positive_int`; a set has no place for an object or an array. -/
def optionalPositiveInt (settings : Settings) (value : Value) (number : ℕ) : Parsed (Option ℤ) :=
  let nonnegative (n : ℤ) : Parsed (Option ℤ) :=
    if 0 ≤ n then .ok (some n) else invalid s!"Row {number}: integer field is invalid."
  match value with
  | .null | .str [] => .ok none
  | .list _ | .dict _ => .error .typeError
  | .bool _ => invalid s!"Row {number}: integer field is invalid."
  | .int n => nonnegative n
  | .float (.finite m e) => nonnegative (Floats.truncate m e)
  | .float .nan => invalid s!"Row {number}: integer field is invalid."
  | .float (.infinity _) => .error .overflowError
  | .str s =>
    match readInt settings s with
    | some n => nonnegative n
    | none => invalid s!"Row {number}: integer field is invalid."

/-- `_unique` -/
def unique {α : Type} (rows : List α) (value : α → Text) (field : String) : Parsed Unit :=
  check (rows.map value).Nodup s!"Duplicate {field} in import."

/-- The rows with their numbers. -/
def numbered {α β : Type} (f : ℕ → α → Parsed β) (first : ℕ) (rows : List α) : Parsed (List β) :=
  (rows.zipIdx first).mapM fun e => f e.2 e.1

/-! ### Hydrants -/

def hydrantFields : List String :=
  ["external_identifier", "longitude", "latitude", "street", "house_number", "location", "hydrant_type", "diameter_mm", "status"]

def hydrantGeojsonPropertyFields : List String :=
  ["external_identifier", "street", "house_number", "location", "hydrant_type", "diameter_mm", "status"]

structure HydrantRow where
  externalIdentifier : Text
  longitude : Double
  latitude : Double
  street : Text
  houseNumber : Text
  location : Option Text
  hydrantType : Text
  diameterMm : Option ℤ
  status : Text
  deriving DecidableEq

/-- The columns of one hydrant, in the order they are read. -/
def hydrantRow (settings : Settings) (number : ℕ) (row : Row) : Parsed HydrantRow := do
  let externalIdentifier ← required row "external_identifier" number
  let longitude ← coordinate settings row "longitude" number (-180) 180
  let latitude ← coordinate settings row "latitude" number (-90) 90
  let street ← optionalText (row.get "street") 255 number
  let houseNumber ← optionalText (row.get "house_number") 32 number
  let location ← optionalNullableText (row.get "location") 255 number
  let hydrantType ← optionalText (row.get "hydrant_type") 128 number
  let diameterMm ← optionalPositiveInt settings (row.get "diameter_mm") number
  let status ← optionalText (row.get "status") 128 number
  return ⟨externalIdentifier, longitude, latitude, street, houseNumber, location, hydrantType, diameterMm,
    if status = [] then text "ACTIVE" else status⟩

/-- An object with exactly these keys, whose `type` is the given one. -/
def typedObject (names : List String) (type : String) : Value → Option (List (Text × Value))
  | .dict fields =>
    match Json.field fields (text "type") with
    | some (.str s) => if s = text type ∧ sameColumns names (fields.map Prod.fst) = true then some fields else none
    | _ => none
  | _ => none

/-- The properties of a feature, with its coordinates as columns. -/
def featureRow (number : ℕ) (feature : Value) : Parsed Row := do
  let feature ← orInvalid (typedObject ["type", "geometry", "properties"] "Feature" feature) s!"Feature {number}: invalid feature."
  let geometry ← orInvalid ((Json.field feature (text "geometry")).bind (typedObject ["type", "coordinates"] "Point"))
    s!"Feature {number}: geometry must be Point."
  match Json.field feature (text "properties") with
  | some (.dict properties) => do
    check (sameColumns hydrantGeojsonPropertyFields (properties.map Prod.fst) = true)
      s!"Feature {number}: properties do not match schema."
    match Json.field geometry (text "coordinates") with
    | some (.list [longitude, latitude]) =>
      return ⟨Json.setField (Json.setField properties (text "longitude") longitude) (text "latitude") latitude, []⟩
    | _ => invalid s!"Feature {number}: coordinates are invalid."
  | _ => invalid s!"Feature {number}: properties do not match schema."

def geojsonFeatures (settings : Settings) (payload : Bytes) : Parsed (List Value) := do
  check (payload.length ≤ settings.maxStructuredImportBytes) "Structured import exceeds the configured size limit."
  let t ← orInvalid (Json.decodeUtf8 payload) "GeoJSON import must be UTF-8 JSON."
  let document ← loads settings t "GeoJSON import must be UTF-8 JSON."
  let document ← orInvalid (typedObject ["type", "features"] "FeatureCollection" document) "GeoJSON must be a FeatureCollection."
  match Json.field document (text "features") with
  | some (.list features) =>
    check (features.length ≤ settings.maxHydrantGeojsonFeatures) "GeoJSON feature limit exceeded."
    return features
  | _ => invalid "GeoJSON feature limit exceeded."

/-- `_geojson_hydrants` -/
def geojsonHydrants (settings : Settings) (payload : Bytes) : Parsed (List HydrantRow) := do
  let features ← geojsonFeatures settings payload
  let rows ← numbered (fun number feature => featureRow number feature >>= hydrantRow settings number) 1 features
  unique rows (·.externalIdentifier) "external_identifier"
  return rows

def parseHydrants (settings : Settings) (payload : Bytes) (importFormat : ImportFormat) : Parsed (List HydrantRow) :=
  match importFormat with
  | .geojson => geojsonHydrants settings payload
  | .csv => do
    let rows ← structuredRows settings payload .csv hydrantFields
    let result ← numbered (hydrantRow settings) 2 rows
    unique result (·.externalIdentifier) "external_identifier"
    return result
  | _ => invalid "Hydrant imports use CSV or GeoJSON only."

/-! ### Personnel -/

def personnelFields : List String :=
  ["personnel_number", "first_name", "last_name", "home_station", "incident_commander_eligible"]

structure PersonnelRow where
  personnelNumber : Text
  firstName : Text
  lastName : Text
  homeStation : Text
  incidentCommanderEligible : Bool
  deriving DecidableEq

def eligible (value : Value) (number : ℕ) : Parsed Bool :=
  match value with
  | .bool b => .ok b
  | .str s =>
    if s = text "true" ∨ s = text "false" ∨ s = [] then .ok (s = text "true")
    else invalid s!"Row {number}: invalid incident_commander_eligible."
  | _ => invalid s!"Row {number}: invalid incident_commander_eligible."

def personnelRow (number : ℕ) (row : Row) : Parsed PersonnelRow := do
  let incidentCommanderEligible ← eligible (row.get "incident_commander_eligible") number
  let personnelNumber ← required row "personnel_number" number
  let firstName ← required row "first_name" number
  let lastName ← required row "last_name" number
  let homeStation ← optionalText (row.get "home_station") 255 number
  return ⟨personnelNumber, firstName, lastName, homeStation, incidentCommanderEligible⟩

def parsePersonnel (settings : Settings) (payload : Bytes) (importFormat : ImportFormat) : Parsed (List PersonnelRow) := do
  check (importFormat = .csv) "Personnel imports use CSV only."
  let rows ← structuredRows settings payload importFormat personnelFields
  let result ← numbered personnelRow 2 rows
  unique result (·.personnelNumber) "personnel_number"
  return result

/-! ### Stations and vehicles -/

def stationVehicleFields : List String :=
  ["row_type", "station_short_code", "station_name", "street", "house_number", "postal_code", "city", "vehicle_name",
    "vehicle_call_sign", "vehicle_asset_identifier"]

structure StationVehicleRow where
  rowType : Text
  stationShortCode : Text
  stationName : Text
  street : Text
  houseNumber : Text
  postalCode : Text
  city : Text
  vehicleName : Text
  vehicleCallSign : Text
  vehicleAssetIdentifier : Text
  deriving DecidableEq

def station : Text := text "station"

def stationVehicleRow (settings : Settings) (number : ℕ) (row : Row) : Parsed StationVehicleRow := do
  let rowType ← settings.casefold <$> optionalText (row.get "row_type") 32 number
  check (rowType = station ∨ rowType = text "vehicle") s!"Row {number}: row_type must be station or vehicle."
  let stationShortCode ← optionalText (row.get "station_short_code") 64 number
  let stationName ← optionalText (row.get "station_name") 255 number
  let street ← optionalText (row.get "street") 255 number
  let houseNumber ← optionalText (row.get "house_number") 32 number
  let postalCode ← optionalText (row.get "postal_code") 32 number
  let city ← optionalText (row.get "city") 255 number
  let vehicleName ← optionalText (row.get "vehicle_name") 255 number
  let vehicleCallSign ← optionalText (row.get "vehicle_call_sign") 128 number
  let vehicleAssetIdentifier ← optionalText (row.get "vehicle_asset_identifier") 128 number
  return ⟨rowType, stationShortCode, stationName, street, houseNumber, postalCode, city, vehicleName, vehicleCallSign,
    vehicleAssetIdentifier⟩

/-- The staged stations with which a row is checked, and with it when it is a station. -/
structure StagedStations where
  codes : List Text := []
  names : List Text := []

def stageRow (settings : Settings) (staged : StagedStations) (number : ℕ) (row : StationVehicleRow) : Parsed StagedStations :=
  if row.rowType = station then do
    check (row.stationShortCode ≠ [] ∧ row.stationName ≠ []) s!"Row {number}: Station rows require station_short_code and station_name."
    check (row.vehicleName = []) s!"Row {number}: Station rows cannot include vehicle_name."
    let code := stationReferenceKey settings row.stationShortCode
    let name := stationReferenceKey settings row.stationName
    check (code ∉ staged.codes ∧ name ∉ staged.names) s!"Row {number}: duplicate staged Station."
    return ⟨code :: staged.codes, name :: staged.names⟩
  else do
    check (row.vehicleName ≠ []) s!"Row {number}: Vehicle rows require vehicle_name."
    check (row.stationShortCode ≠ [] ∨ row.stationName ≠ [])
      s!"Row {number}: Vehicle rows require station_short_code or station_name."
    return staged

def stationVehicleRows (settings : Settings) : StagedStations → List (Row × ℕ) → Parsed (List StationVehicleRow)
  | _, [] => return []
  | staged, (row, number) :: rows => do
    let normalized ← stationVehicleRow settings number row
    let staged ← stageRow settings staged number normalized
    let result ← stationVehicleRows settings staged rows
    return normalized :: result

def parseStationVehicles (settings : Settings) (payload : Bytes) (importFormat : ImportFormat) : Parsed (List StationVehicleRow) := do
  let rows ← structuredRows settings payload importFormat stationVehicleFields
  stationVehicleRows settings {} (rows.zipIdx 2)

/-! ### Phonebook -/

def phonebookFields : List String := ["first_name", "last_name", "organization_unit", "function", "phone_number", "scope"]

structure PhonebookRow where
  firstName : Text
  lastName : Text
  organizationUnit : Text
  function : Text
  phoneNumber : Text
  scope : Text
  deriving DecidableEq

/-- A completely blank row; cells beyond the header are not blank. -/
def Row.isBlank (row : Row) : Bool :=
  row.extra = [] && row.fields.all fun e =>
    match e.2 with
    | .str s => strip s = []
    | value => !Json.truth value

def phonebookRow (number : ℕ) (row : Row) : Parsed (Option PhonebookRow) :=
  if row.isBlank = true then return none
  else do
    let firstName ← optionalText (row.get "first_name") 255 number
    let lastName ← optionalText (row.get "last_name") 255 number
    let organizationUnit ← optionalText (row.get "organization_unit") 255 number
    let function ← optionalText (row.get "function") 255 number
    let phoneNumber ← optionalText (row.get "phone_number") 64 number
    let scope ← optionalText (row.get "scope") 255 number
    check (phoneNumber ≠ [] ∧ scope ≠ []) s!"Row {number}: phone_number and scope are required."
    check ((firstName ≠ []) ↔ (lastName ≠ [])) s!"Row {number}: provide both first_name and last_name."
    check ((firstName ≠ [] ∧ lastName ≠ []) ∨ organizationUnit ≠ []) s!"Row {number}: provide a complete name or organization_unit."
    return some ⟨firstName, lastName, organizationUnit, function, phoneNumber, scope⟩

def parsePhonebook (settings : Settings) (payload : Bytes) (importFormat : ImportFormat) : Parsed (List PhonebookRow) := do
  check (importFormat = .csv) "Phonebook imports use CSV only."
  let rows ← structuredRows settings payload importFormat phonebookFields
  let result ← numbered phonebookRow 2 rows
  return result.reduceOption

/-! ### Outcomes -/

section

variable {α β : Type} {settings : Settings} {payload : Bytes} {names : List String} {row : Row} {number : ℕ}

/-- Nothing but an `ImportValidationError` is raised. -/
def Declared (x : Parsed α) : Prop := ∀ e, x = .error e → ∃ message, e = .importValidation message

theorem declared_ok (a : α) : Declared (.ok a : Parsed α) := nofun

theorem declared_pure (a : α) : Declared (pure a : Parsed α) := nofun

theorem declared_invalid (message : String) : Declared (invalid message : Parsed α) := by
  intro e h
  cases h
  exact ⟨message, rfl⟩

theorem declared_check (c : Prop) [Decidable c] (message : String) : Declared (check c message) := by
  unfold check
  split
  · exact declared_ok ()
  · exact declared_invalid message

theorem Declared.bind {x : Parsed α} {f : α → Parsed β} (hx : Declared x) (hf : ∀ a, x = .ok a → Declared (f a)) :
    Declared (x >>= f) := by
  cases x with
  | error e =>
    intro e' h
    cases h
    exact hx e rfl
  | ok a => exact hf a rfl

theorem Declared.map {x : Parsed α} (hx : Declared x) (f : α → β) : Declared (f <$> x) := by
  cases x with
  | error e =>
    intro e' h
    cases h
    exact hx e rfl
  | ok a => exact declared_ok (f a)

theorem declared_mapM {f : α → Parsed β} {l : List α} (h : ∀ a ∈ l, Declared (f a)) : Declared (l.mapM f) := by
  induction l with
  | nil => exact declared_pure []
  | cons a l ih =>
    obtain ⟨ha, hl⟩ := List.forall_mem_cons.mp h
    rw [List.mapM_cons]
    exact ha.bind fun b _ => (ih hl).bind fun bs _ => declared_pure (b :: bs)

theorem declared_numbered {f : ℕ → α → Parsed β} {first : ℕ} {rows : List α} (h : ∀ number, ∀ a ∈ rows, Declared (f number a)) :
    Declared (numbered f first rows) := by
  refine declared_mapM fun e he => h e.2 e.1 ?_
  obtain ⟨a, n⟩ := e
  exact List.fst_mem_of_mem_zipIdx he

theorem declared_orInvalid (o : Option α) (message : String) : Declared (orInvalid o message) := by
  cases o with
  | none => exact declared_invalid message
  | some a => exact declared_ok a

theorem orInvalid_eq_ok {o : Option α} {message : String} {a : α} : orInvalid o message = .ok a ↔ o = some a := by
  cases o with
  | none => exact ⟨nofun, nofun⟩
  | some b => simp [orInvalid]

/-! ### Cells that raise nothing else -/

theorem declared_optionalText (value : Value) (maximum number : ℕ) : Declared (optionalText value maximum number) := by
  unfold optionalText
  split
  · split
    · exact declared_ok _
    · exact declared_invalid _
  · exact declared_invalid _

theorem declared_required (row : Row) (field : String) (number : ℕ) : Declared (required row field number) :=
  (declared_optionalText _ _ _).bind fun t _ => (declared_check _ _).bind fun _ _ => declared_pure t

theorem declared_optionalNullableText (value : Value) (maximum number : ℕ) : Declared (optionalNullableText value maximum number) := by
  unfold optionalNullableText
  split
  · exact declared_ok none
  · exact (declared_optionalText _ _ _).map some

theorem declared_inRange (field : String) (number : ℕ) (lower upper : ℤ) (x : Double) : Declared (inRange field number lower upper x) := by
  unfold inRange
  split
  · exact declared_ok x
  · exact declared_invalid _

/-- An integer that no float is near enough to. -/
def Oversized (value : Value) : Prop := ∃ n, value = .int n ∧ Floats.ofInt n = none

theorem declared_coordinate {field : String} {lower upper : ℤ} (h : ¬Oversized (row.get field)) :
    Declared (coordinate settings row field number lower upper) := by
  unfold coordinate
  split
  · rename_i n hvalue
    split
    · exact declared_inRange _ _ _ _ _
    · rename_i hnone
      exact absurd ⟨n, hvalue, hnone⟩ h
  · exact declared_inRange _ _ _ _ _
  · split
    · exact declared_inRange _ _ _ _ _
    · exact declared_invalid _
  · exact declared_invalid _

/-- A value that is no element of a set, or that no integer is near to. -/
def Unhashable : Value → Prop
  | .list _ | .dict _ | .float (.infinity _) => True
  | _ => False

theorem declared_optionalPositiveInt {value : Value} (h : ¬Unhashable value) : Declared (optionalPositiveInt settings value number) := by
  have hnonnegative : ∀ n : ℤ, Declared (if 0 ≤ n then .ok (some n) else invalid s!"Row {number}: integer field is invalid.") := by
    intro n
    split
    · exact declared_ok (some n)
    · exact declared_invalid _
  unfold optionalPositiveInt
  dsimp only
  split
  · exact declared_ok none
  · exact declared_ok none
  · exact absurd trivial h
  · exact absurd trivial h
  · exact declared_invalid _
  · exact hnonnegative _
  · exact hnonnegative _
  · exact declared_invalid _
  · exact absurd trivial h
  · split
    · exact hnonnegative _
    · exact declared_invalid _

/-- The cells of a hydrant that raise something else. -/
def Unguarded (row : Row) : Prop :=
  Oversized (row.get "longitude") ∨ Oversized (row.get "latitude") ∨ Unhashable (row.get "diameter_mm")

theorem declared_hydrantRow (h : ¬Unguarded row) : Declared (hydrantRow settings number row) := by
  unfold Unguarded at h
  rw [not_or, not_or] at h
  obtain ⟨hlongitude, hlatitude, hdiameter⟩ := h
  unfold hydrantRow
  refine (declared_required _ _ _).bind fun _ _ => ?_
  refine (declared_coordinate hlongitude).bind fun _ _ => ?_
  refine (declared_coordinate hlatitude).bind fun _ _ => ?_
  refine (declared_optionalText _ _ _).bind fun _ _ => ?_
  refine (declared_optionalText _ _ _).bind fun _ _ => ?_
  refine (declared_optionalNullableText _ _ _).bind fun _ _ => ?_
  refine (declared_optionalText _ _ _).bind fun _ _ => ?_
  refine (declared_optionalPositiveInt hdiameter).bind fun _ _ => ?_
  exact (declared_optionalText _ _ _).bind fun _ _ => declared_pure _

theorem declared_featureRow (number : ℕ) (feature : Value) : Declared (featureRow number feature) := by
  unfold featureRow
  refine (declared_orInvalid _ _).bind fun _ _ => ?_
  refine (declared_orInvalid _ _).bind fun _ _ => ?_
  split
  · refine (declared_check _ _).bind fun _ _ => ?_
    split
    · exact declared_pure _
    · exact declared_invalid _
  · exact declared_invalid _

theorem declared_personnelRow (number : ℕ) (row : Row) : Declared (personnelRow number row) := by
  have heligible : ∀ value, Declared (eligible value number) := by
    intro value
    unfold eligible
    split
    · exact declared_ok _
    · split
      · exact declared_ok _
      · exact declared_invalid _
    · exact declared_invalid _
  unfold personnelRow
  refine (heligible _).bind fun _ _ => ?_
  refine (declared_required _ _ _).bind fun _ _ => ?_
  refine (declared_required _ _ _).bind fun _ _ => ?_
  refine (declared_required _ _ _).bind fun _ _ => ?_
  exact (declared_optionalText _ _ _).bind fun _ _ => declared_pure _

theorem declared_stationVehicleRow (settings : Settings) (number : ℕ) (row : Row) : Declared (stationVehicleRow settings number row) := by
  unfold stationVehicleRow
  refine ((declared_optionalText _ _ _).map _).bind fun _ _ => ?_
  refine (declared_check _ _).bind fun _ _ => ?_
  repeat refine (declared_optionalText _ _ _).bind fun _ _ => ?_
  exact declared_pure _

theorem declared_stageRow (settings : Settings) (staged : StagedStations) (number : ℕ) (row : StationVehicleRow) :
    Declared (stageRow settings staged number row) := by
  unfold stageRow
  split
  · refine (declared_check _ _).bind fun _ _ => ?_
    refine (declared_check _ _).bind fun _ _ => ?_
    exact (declared_check _ _).bind fun _ _ => declared_pure _
  · refine (declared_check _ _).bind fun _ _ => ?_
    exact (declared_check _ _).bind fun _ _ => declared_pure _

theorem declared_stationVehicleRows (settings : Settings) (staged : StagedStations) (rows : List (Row × ℕ)) :
    Declared (stationVehicleRows settings staged rows) := by
  induction rows generalizing staged with
  | nil => exact declared_pure []
  | cons e rows ih =>
    obtain ⟨row, number⟩ := e
    unfold stationVehicleRows
    refine (declared_stationVehicleRow _ _ _).bind fun _ _ => ?_
    refine (declared_stageRow _ _ _ _).bind fun staged _ => ?_
    exact (ih staged).bind fun _ _ => declared_pure _

theorem declared_phonebookRow (number : ℕ) (row : Row) : Declared (phonebookRow number row) := by
  unfold phonebookRow
  split
  · exact declared_pure none
  · repeat refine (declared_optionalText _ _ _).bind fun _ _ => ?_
    refine (declared_check _ _).bind fun _ _ => ?_
    refine (declared_check _ _).bind fun _ _ => ?_
    exact (declared_check _ _).bind fun _ _ => declared_pure _

/-! ### Texts that the libraries read -/

/-- The CSV reader refuses a record. -/
def CsvRefused (t : Option Text) : Prop := ∃ u e, t = some u ∧ .error e ∈ Csv.reader u

/-- The JSON reader meets the nesting or the digits that the interpreter does not allow. -/
def JsonRefused (settings : Settings) (t : Option Text) : Prop :=
  ∃ u, t = some u ∧ (Json.loads settings.jsonLimits Json.defaultConstant u = .error .recursion ∨
    Json.loads settings.jsonLimits Json.defaultConstant u = .error .digits)

/-- A text without carriage returns, no longer than the limit of a field, is read. -/
theorem not_csvRefused {t : Text} (hreturn : ∀ c ∈ t, c ≠ 13) (hlength : t.length ≤ Csv.fieldLimit) : ¬CsvRefused (some t) := by
  rintro ⟨u, e, hu, he⟩
  obtain rfl := Option.some.inj hu
  exact Csv.reader_ok hreturn hlength he

theorem declared_dictReader {t : Text} {accepts : List Text → Bool} {mismatch : String} (h : ¬CsvRefused (some t)) :
    Declared (dictReader t accepts mismatch) := by
  have hread : ∀ e, .error e ∉ Csv.reader t := fun e he => h ⟨t, e, rfl, he⟩
  unfold dictReader
  split
  · exact declared_invalid _
  · rename_i e records hrecords
    exact absurd (hrecords ▸ List.mem_cons_self) (hread e)
  · rename_i header records hrecords
    refine (declared_check _ _).bind fun _ _ => ?_
    refine (declared_mapM fun record hrecord => ?_).bind fun _ _ => declared_pure _
    cases record with
    | ok cells => exact declared_ok cells
    | error e => exact absurd (hrecords ▸ List.mem_cons_of_mem _ hrecord) (hread e)

theorem declared_loads {t : Text} {message : String} (h : ¬JsonRefused settings (some t)) : Declared (loads settings t message) := by
  unfold loads
  split
  · exact declared_ok _
  · rename_i hrecursion
    exact absurd ⟨t, rfl, .inl hrecursion⟩ h
  · rename_i hdigits
    exact absurd ⟨t, rfl, .inr hdigits⟩ h
  · exact declared_invalid _

theorem declared_jsonRows (names : List String) (document : Value) : Declared (jsonRows names document) := by
  unfold jsonRows
  split
  · refine declared_mapM fun item _ => ?_
    unfold jsonRow
    split
    · split
      · exact declared_ok _
      · exact declared_invalid _
    · exact declared_invalid _
  · exact declared_invalid _

/-- What a format relies on its library for. -/
def Refused (settings : Settings) (payload : Bytes) : ImportFormat → Prop
  | .csv => CsvRefused (decodeSig payload)
  | .json => JsonRefused settings (decodeSig payload)
  | _ => False

theorem declared_structuredRows {importFormat : ImportFormat} (h : ¬Refused settings payload importFormat) :
    Declared (structuredRows settings payload importFormat names) := by
  unfold structuredRows
  refine (declared_check _ _).bind fun _ _ => ?_
  refine (declared_orInvalid _ _).bind fun t hdecode => ?_
  rw [orInvalid_eq_ok] at hdecode
  unfold Refused at h
  rw [hdecode] at h
  refine Declared.bind ?_ fun rows _ => (declared_check _ _).bind fun _ _ => declared_pure rows
  cases importFormat with
  | csv => exact declared_dictReader h
  | json => exact (declared_loads h).bind fun document _ => declared_jsonRows names document
  | geojson => exact declared_invalid _
  | pdf => exact declared_invalid _
  | zip => exact declared_invalid _

/-! ### Rows of a CSV file -/

/-- A cell is a text, or missing. -/
def IsCell (value : Value) : Prop := value = .null ∨ ∃ s, value = .str s

theorem isCell_setField {fields : List (Text × Value)} {column : Text} {value : Value} (h : ∀ e ∈ fields, IsCell e.2) (hv : IsCell value) :
    ∀ e ∈ Json.setField fields column value, IsCell e.2 := by
  intro e he
  unfold Json.setField at he
  split at he
  · obtain ⟨f, hf, rfl⟩ := List.mem_map.mp he
    split
    · exact hv
    · exact h f hf
  · rcases List.mem_append.mp he with he | he
    · exact h e he
    · rw [List.mem_singleton.mp he]
      exact hv

theorem isCell_foldl {γ : Type} (column : γ → Text) (value : γ → Value) (hv : ∀ c, IsCell (value c)) {l : List γ}
    {fields : List (Text × Value)} (h : ∀ e ∈ fields, IsCell e.2) :
    ∀ e ∈ l.foldl (fun fields c => Json.setField fields (column c) (value c)) fields, IsCell e.2 := by
  induction l generalizing fields with
  | nil => exact h
  | cons c l ih => exact ih (isCell_setField h (hv c))

theorem isCell_get (h : ∀ e ∈ row.fields, IsCell e.2) (field : String) : IsCell (row.get field) := by
  unfold Row.get Json.field
  cases hfind : row.fields.find? fun f => f.1 = text field with
  | none => exact .inl rfl
  | some e => exact h e (List.mem_of_find?_eq_some hfind)

theorem isCell_dictRow (header cells : List Text) : ∀ e ∈ (dictRow header cells).fields, IsCell e.2 := by
  unfold dictRow
  refine isCell_foldl id (fun _ => .null) (fun _ => .inl rfl) ?_
  exact isCell_foldl Prod.fst (fun e => .str e.2) (fun e => .inr ⟨e.2, rfl⟩) nofun

theorem guarded_dictRow {header cells : List Text} : ¬Unguarded (dictRow header cells) := by
  have hoversized : ∀ field, ¬Oversized ((dictRow header cells).get field) := by
    rintro field ⟨n, hn, -⟩
    rcases isCell_get (isCell_dictRow header cells) field with hnull | ⟨s, hs⟩
    · rw [hnull] at hn
      cases hn
    · rw [hs] at hn
      cases hn
  rintro (hlongitude | hlatitude | hdiameter)
  · exact hoversized _ hlongitude
  · exact hoversized _ hlatitude
  · rcases isCell_get (isCell_dictRow header cells) "diameter_mm" with hnull | ⟨s, hs⟩
    · rw [hnull] at hdiameter
      exact hdiameter
    · rw [hs] at hdiameter
      exact hdiameter

theorem dictReader_rows {t : Text} {accepts : List Text → Bool} {mismatch : String} {rows : List Row}
    (h : dictReader t accepts mismatch = .ok rows) : ∀ row ∈ rows, ∃ header cells, row = dictRow header cells := by
  unfold dictReader at h
  split at h
  · cases h
  · cases h
  · rename_i header records hrecords
    obtain ⟨-, -, h⟩ := bind_eq_ok.mp h
    obtain ⟨cells, -, h⟩ := bind_eq_ok.mp h
    rw [← pure_eq_ok.mp h]
    intro row hrow
    obtain ⟨c, -, rfl⟩ := List.mem_map.mp hrow
    exact ⟨header, c, rfl⟩

theorem csvRows_dictRow {rows : List Row} (h : structuredRows settings payload .csv names = .ok rows) :
    ∀ row ∈ rows, ∃ header cells, row = dictRow header cells := by
  unfold structuredRows at h
  obtain ⟨-, -, h⟩ := bind_eq_ok.mp h
  obtain ⟨t, -, h⟩ := bind_eq_ok.mp h
  obtain ⟨rows', hread, h⟩ := bind_eq_ok.mp h
  obtain ⟨-, -, h⟩ := bind_eq_ok.mp h
  obtain rfl := pure_eq_ok.mp h
  exact dictReader_rows hread

/-! ### The parsers -/

/-- What the hydrant parser leaves to its libraries and does not guard. -/
def HydrantsUnguarded (settings : Settings) (payload : Bytes) : ImportFormat → Prop
  | .csv => CsvRefused (decodeSig payload)
  | .geojson => JsonRefused settings (Json.decodeUtf8 payload) ∨
      ∃ features, geojsonFeatures settings payload = .ok features ∧
        ∃ feature ∈ features, ∃ number row, featureRow number feature = .ok row ∧ Unguarded row
  | _ => False

theorem declared_geojsonFeatures (h : ¬JsonRefused settings (Json.decodeUtf8 payload)) : Declared (geojsonFeatures settings payload) := by
  unfold geojsonFeatures
  refine (declared_check _ _).bind fun _ _ => ?_
  refine (declared_orInvalid _ _).bind fun t hdecode => ?_
  rw [orInvalid_eq_ok] at hdecode
  rw [hdecode] at h
  refine (declared_loads h).bind fun document _ => ?_
  refine (declared_orInvalid _ _).bind fun _ _ => ?_
  split
  · exact (declared_check _ _).bind fun _ _ => declared_pure _
  · exact declared_invalid _

theorem declared_parseHydrants {importFormat : ImportFormat} (h : ¬HydrantsUnguarded settings payload importFormat) :
    Declared (parseHydrants settings payload importFormat) := by
  unfold parseHydrants
  split
  · unfold HydrantsUnguarded at h
    rw [not_or] at h
    obtain ⟨hjson, hrows⟩ := h
    refine (declared_geojsonFeatures hjson).bind fun features hfeatures => ?_
    refine (declared_numbered fun number feature hfeature => ?_).bind fun _ _ => ?_
    · refine (declared_featureRow number feature).bind fun row hrow => ?_
      exact declared_hydrantRow fun hunguarded => hrows ⟨features, hfeatures, feature, hfeature, number, row, hrow, hunguarded⟩
    · exact (declared_check _ _).bind fun _ _ => declared_pure _
  · have hrefused : ¬Refused settings payload .csv := h
    refine (declared_structuredRows hrefused).bind fun rows hrows => ?_
    refine (declared_numbered fun number row hrow => ?_).bind fun _ _ => ?_
    · obtain ⟨header, cells, rfl⟩ := csvRows_dictRow hrows row hrow
      exact declared_hydrantRow guarded_dictRow
    · exact (declared_check _ _).bind fun _ _ => declared_pure _
  · exact declared_invalid _

theorem declared_parsePersonnel {importFormat : ImportFormat} (h : ¬CsvRefused (decodeSig payload)) :
    Declared (parsePersonnel settings payload importFormat) := by
  unfold parsePersonnel
  refine (declared_check _ _).bind fun _ hformat => ?_
  have hcsv : importFormat = .csv := by
    by_contra hother
    unfold check at hformat
    rw [if_neg hother] at hformat
    cases hformat
  rw [hcsv]
  have hrefused : ¬Refused settings payload .csv := h
  refine (declared_structuredRows hrefused).bind fun rows _ => ?_
  refine (declared_numbered fun number row _ => declared_personnelRow number row).bind fun _ _ => ?_
  exact (declared_check _ _).bind fun _ _ => declared_pure _

theorem declared_parseStationVehicles {importFormat : ImportFormat} (h : ¬Refused settings payload importFormat) :
    Declared (parseStationVehicles settings payload importFormat) :=
  (declared_structuredRows h).bind fun _ _ => declared_stationVehicleRows _ _ _

theorem declared_parsePhonebook {importFormat : ImportFormat} (h : ¬CsvRefused (decodeSig payload)) :
    Declared (parsePhonebook settings payload importFormat) := by
  unfold parsePhonebook
  refine (declared_check _ _).bind fun _ hformat => ?_
  have hcsv : importFormat = .csv := by
    by_contra hother
    unfold check at hformat
    rw [if_neg hother] at hformat
    cases hformat
  rw [hcsv]
  have hrefused : ¬Refused settings payload .csv := h
  refine (declared_structuredRows hrefused).bind fun rows _ => ?_
  exact (declared_numbered fun number row _ => declared_phonebookRow number row).bind fun _ _ => declared_pure _

/-! ### Unique rows -/

theorem check_eq_unit {c : Prop} [Decidable c] {message : String} {u : Unit} : check c message = .ok u ↔ c := by
  unfold check
  by_cases h : c
  · simp [h]
  · simp [h, invalid]

theorem unique_hydrants {importFormat : ImportFormat} {rows : List HydrantRow} (h : parseHydrants settings payload importFormat = .ok rows) :
    (rows.map (·.externalIdentifier)).Nodup := by
  unfold parseHydrants at h
  split at h
  · obtain ⟨read, -, h⟩ := bind_eq_ok.mp h
    obtain ⟨rows', -, h⟩ := bind_eq_ok.mp h
    obtain ⟨u, hunique, h⟩ := bind_eq_ok.mp h
    obtain rfl := pure_eq_ok.mp h
    exact check_eq_unit.mp hunique
  · obtain ⟨read, -, h⟩ := bind_eq_ok.mp h
    obtain ⟨rows', -, h⟩ := bind_eq_ok.mp h
    obtain ⟨u, hunique, h⟩ := bind_eq_ok.mp h
    obtain rfl := pure_eq_ok.mp h
    exact check_eq_unit.mp hunique
  · cases h

theorem unique_personnel {importFormat : ImportFormat} {rows : List PersonnelRow}
    (h : parsePersonnel settings payload importFormat = .ok rows) : (rows.map (·.personnelNumber)).Nodup := by
  unfold parsePersonnel at h
  obtain ⟨-, -, h⟩ := bind_eq_ok.mp h
  obtain ⟨read, -, h⟩ := bind_eq_ok.mp h
  obtain ⟨rows', -, h⟩ := bind_eq_ok.mp h
  obtain ⟨u, hunique, h⟩ := bind_eq_ok.mp h
  obtain rfl := pure_eq_ok.mp h
  exact check_eq_unit.mp hunique

/-- The stations among the rows. -/
def stations (rows : List StationVehicleRow) : List StationVehicleRow := rows.filter fun row => row.rowType = station

/-- The staged stations have distinct codes and names, also from those staged before. -/
theorem unique_staged {staged : StagedStations} {rows : List (Row × ℕ)} {result : List StationVehicleRow}
    (h : stationVehicleRows settings staged rows = .ok result) :
    (((stations result).map fun row => stationReferenceKey settings row.stationShortCode).Nodup ∧
      ∀ row ∈ stations result, stationReferenceKey settings row.stationShortCode ∉ staged.codes) ∧
    ((stations result).map fun row => stationReferenceKey settings row.stationName).Nodup ∧
      ∀ row ∈ stations result, stationReferenceKey settings row.stationName ∉ staged.names := by
  induction rows generalizing staged result with
  | nil =>
    obtain rfl := pure_eq_ok.mp h
    exact ⟨⟨List.nodup_nil, nofun⟩, List.nodup_nil, nofun⟩
  | cons e rows ih =>
    obtain ⟨row, number⟩ := e
    unfold stationVehicleRows at h
    obtain ⟨normalized, -, h⟩ := bind_eq_ok.mp h
    obtain ⟨staged', hstage, h⟩ := bind_eq_ok.mp h
    obtain ⟨rest, hrest, h⟩ := bind_eq_ok.mp h
    obtain rfl := pure_eq_ok.mp h
    obtain ⟨⟨hcodes, hnewCodes⟩, hnames, hnewNames⟩ := ih hrest
    unfold stageRow at hstage
    by_cases hstation : normalized.rowType = station
    · rw [if_pos hstation] at hstage
      dsimp only at hstage
      obtain ⟨-, -, hstage⟩ := bind_eq_ok.mp hstage
      obtain ⟨-, -, hstage⟩ := bind_eq_ok.mp hstage
      obtain ⟨u, hnew, hstage⟩ := bind_eq_ok.mp hstage
      obtain ⟨hcode, hname⟩ := check_eq_unit.mp hnew
      obtain rfl := pure_eq_ok.mp hstage
      have hcons : stations (normalized :: rest) = normalized :: stations rest :=
        List.filter_cons_of_pos (decide_eq_true hstation)
      simp only [List.mem_cons, not_or] at hnewCodes hnewNames
      rw [hcons, List.map_cons, List.map_cons, List.nodup_cons, List.nodup_cons, List.forall_mem_cons, List.forall_mem_cons]
      refine ⟨⟨⟨?_, hcodes⟩, hcode, fun row hrow => (hnewCodes row hrow).2⟩, ⟨?_, hnames⟩, hname, fun row hrow => (hnewNames row hrow).2⟩
      · intro hmem
        obtain ⟨other, hother, heq⟩ := List.mem_map.mp hmem
        exact (hnewCodes other hother).1 heq
      · intro hmem
        obtain ⟨other, hother, heq⟩ := List.mem_map.mp hmem
        exact (hnewNames other hother).1 heq
    · rw [if_neg hstation] at hstage
      obtain ⟨-, -, hstage⟩ := bind_eq_ok.mp hstage
      obtain ⟨-, -, hstage⟩ := bind_eq_ok.mp hstage
      obtain rfl := pure_eq_ok.mp hstage
      have hcons : stations (normalized :: rest) = stations rest := by
        refine List.filter_cons_of_neg ?_
        rw [decide_eq_true_eq]
        exact hstation
      rw [hcons]
      exact ⟨⟨hcodes, hnewCodes⟩, hnames, hnewNames⟩

theorem unique_stations {importFormat : ImportFormat} {rows : List StationVehicleRow}
    (h : parseStationVehicles settings payload importFormat = .ok rows) :
    ((stations rows).map fun row => stationReferenceKey settings row.stationShortCode).Nodup ∧
      ((stations rows).map fun row => stationReferenceKey settings row.stationName).Nodup := by
  obtain ⟨read, -, hresult⟩ := bind_eq_ok.mp h
  obtain ⟨⟨hcodes, -⟩, hnames, -⟩ := unique_staged hresult
  exact ⟨hcodes, hnames⟩

end

end FireDash.Ingestion.Parsers
