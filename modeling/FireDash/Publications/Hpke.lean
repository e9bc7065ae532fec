import FireDash.Lib.JsonAccess
import FireDash.Lib.Numerals
import FireDash.Publications.Source

/-! The contexts bound into key encapsulations: their wire form, and the `info` bytes that
tell any two of them apart. -/
namespace FireDash.Publications.Hpke

open Json (Text Value AccessError Same field)
open Numerals (Uuid)

/-- What the helpers raise; beside their own error, the conversions of a wire form and the writing of `info`
let others through. -/
inductive Raised where
  | hpkeError (message : String)
  | valueError
  | overflowError
  | recursionError
  deriving DecidableEq

/-- The interpreter: how values are written out, and the decimal digits beyond ASCII. -/
structure Interpreter extends Json.Writer where
  decimal : ℕ → Option ℕ

def protocol : Text := Json.text "firedash-hpke-v1"
def documentGenerationProtocol : Text := Json.text "firedash-document-generation-hpke-v2"

def isLower (c : ℕ) : Bool := 97 ≤ c ∧ c ≤ 122

/-- `[a-z][a-z0-9_]{0,99}` -/
def isDatasetTypeCode : Text → Bool
  | [] => false
  | c :: rest => isLower c ∧ rest.length ≤ 99 ∧ rest.all fun d => isLower d || Json.isDigit d || d = 95

/-- `[0-9a-f]{64}` -/
def isSha256 (t : Text) : Bool := t.length = 64 ∧ t.all fun c => Json.isDigit c || (97 ≤ c ∧ c ≤ 102)

/-- `json.dumps(value, sort_keys=True, separators=(",", ":")).encode("ascii")`; no context holds a
floating-point number. -/
def jsonBytes (py : Interpreter) (value : Value) : Except Raised Bytes := do
  (Json.written py.limits value).mapError fun error => if error = .recursionError then .recursionError else .valueError
  return Json.asciiBytes (Json.dumps (fun _ => []) value)

/-- `str(id) if id else None` -/
def optionalId : Option Uuid → Value
  | some id => .str id.str
  | none => .null

/-! ### Contexts -/

structure HpkeContext where
  publicationId : Uuid
  installationId : Uuid
  tabletId : Uuid
  departmentId : Option Uuid
  stationId : Option Uuid
  datasetTypeCode : Text
  versionNumber : ℤ
  schemaVersion : ℤ
  ciphertextSha256 : Text
  deriving DecidableEq

/-- The object behind `HPKEContext.info`. -/
def HpkeContext.payload (c : HpkeContext) : Value := .dict [
  (Json.text "ciphertext_sha256", .str c.ciphertextSha256),
  (Json.text "installation_id", .str c.installationId.str),
  (Json.text "protocol", .str protocol),
  (Json.text "publication_id", .str c.publicationId.str),
  (Json.text "schema_version", .int c.schemaVersion),
  (Json.text "scope", .dict [
    (Json.text "dataset_type_code", .str c.datasetTypeCode),
    (Json.text "department_id", optionalId c.departmentId),
    (Json.text "station_id", optionalId c.stationId)]),
  (Json.text "tablet_id", .str c.tabletId.str),
  (Json.text "version_number", .int c.versionNumber)]

def HpkeContext.info (py : Interpreter) (c : HpkeContext) : Except Raised Bytes := do
  if ¬isDatasetTypeCode c.datasetTypeCode then
    throw (.hpkeError "Dataset type code is not canonical.")
  if c.versionNumber < 1 ∨ c.schemaVersion < 1 then
    throw (.hpkeError "Publication versions must be positive.")
  if ¬isSha256 c.ciphertextSha256 then
    throw (.hpkeError "Ciphertext SHA-256 is not canonical.")
  jsonBytes py c.payload

structure DocumentGenerationHpkeContext where
  publicationId : Uuid
  installationId : Uuid
  tabletId : Uuid
  departmentId : Uuid
  stationId : Option Uuid
  datasetTypeCode : Text
  versionNumber : ℤ
  schemaVersion : ℤ
  deriving DecidableEq

namespace DocumentGenerationHpkeContext

def payload (c : DocumentGenerationHpkeContext) : Value := .dict [
  (Json.text "protocol", .str documentGenerationProtocol),
  (Json.text "publication_id", .str c.publicationId.str),
  (Json.text "installation_id", .str c.installationId.str),
  (Json.text "tablet_id", .str c.tabletId.str),
  (Json.text "scope", .dict [
    (Json.text "dataset_type_code", .str c.datasetTypeCode),
    (Json.text "department_id", .str c.departmentId.str),
    (Json.text "station_id", optionalId c.stationId)]),
  (Json.text "version_number", .int c.versionNumber),
  (Json.text "schema_version", .int c.schemaVersion)]

def wire (c : DocumentGenerationHpkeContext) : Except Raised Value := do
  if ¬isDatasetTypeCode c.datasetTypeCode then
    throw (.hpkeError "Dataset type code is not canonical.")
  if c.versionNumber < 1 ∨ c.schemaVersion < 1 then
    throw (.hpkeError "Publication versions must be positive.")
  return c.payload

def info (py : Interpreter) (c : DocumentGenerationHpkeContext) : Except Raised Bytes := c.wire >>= jsonBytes py

end DocumentGenerationHpkeContext

/-! ### Reading the wire form -/

/-- `value[name]` of an object. -/
def item (fields : List (Text × Value)) (name : String) : Except AccessError Value :=
  Json.subscript (.dict fields) (Json.text name)

/-- `uuid.UUID(str(value))` -/
def readUuid (py : Interpreter) (value : Value) : Except AccessError Uuid := do
  let t ← Json.str py.toWriter value
  match Uuid.read py.decimal t with
  | some id => return id
  | none => throw .valueError

/-- What converting a member raises. -/
inductive Conversion where
  | access (error : AccessError)
  | overflow
  deriving DecidableEq

/-- `int(value)`; a fraction is cut off. -/
def readInteger (py : Interpreter) : Value → Except Conversion ℤ
  | .bool b => .ok (if b then 1 else 0)
  | .int n => .ok n
  | .float (.finite m e) => .ok ((m * 2 ^ e.toNat).tdiv (2 ^ (-e).toNat))
  | .float (.infinity _) => .error .overflow
  | .float .nan => .error (.access .valueError)
  | .str t =>
    match Numerals.readInt py.decimal 10 t with
    | some n =>
      if py.limits.digits < (t.filter fun c => (Numerals.digitOf py.decimal c).isSome).length then .error (.access .valueError)
      else .ok n
    | none => .error (.access .valueError)
  | _ => .error (.access .typeError)

/-- `except (KeyError, TypeError, ValueError)` -/
def caught : Conversion → Raised
  | .access .recursionError => .recursionError
  | .access _ => .hpkeError "Document generation HPKE context is invalid."
  | .overflow => .overflowError

/-- `uuid.UUID(str(station)) if station is not None else None` -/
def readStation (py : Interpreter) : Value → Except Conversion (Option Uuid)
  | .null => .ok none
  | station => (some <$> readUuid py station).mapError .access

/-- The conversions of `from_wire`, in their order. -/
def readContext (py : Interpreter) (value scope : List (Text × Value)) : Except Conversion DocumentGenerationHpkeContext := do
  let station ← (item scope "station_id").mapError .access
  let publicationId ← (item value "publication_id" >>= readUuid py).mapError .access
  let installationId ← (item value "installation_id" >>= readUuid py).mapError .access
  let tabletId ← (item value "tablet_id" >>= readUuid py).mapError .access
  let departmentId ← (item scope "department_id" >>= readUuid py).mapError .access
  let stationId ← readStation py station
  let datasetTypeCode ← (item scope "dataset_type_code" >>= Json.str py.toWriter).mapError .access
  let versionNumber ← (item value "version_number").mapError .access >>= readInteger py
  let schemaVersion ← (item value "schema_version").mapError .access >>= readInteger py
  return { publicationId, installationId, tabletId, departmentId, stationId, datasetTypeCode, versionNumber, schemaVersion }

/-- `DocumentGenerationHPKEContext.from_wire` -/
def fromWire (py : Interpreter) : Value → Except Raised DocumentGenerationHpkeContext
  | .dict value =>
    match field value (Json.text "protocol"), field value (Json.text "scope") with
    | some (.str tag), some (.dict scope) =>
      if tag = documentGenerationProtocol then (readContext py value scope).mapError caught
      else .error (.hpkeError "Document generation HPKE protocol is invalid.")
    | _, _ => .error (.hpkeError "Document generation HPKE protocol is invalid.")
  | _ => .error (.hpkeError "Document generation HPKE context is invalid.")

/-! ### What is read -/

section

variable {py : Interpreter} {value scope : List (Text × Value)} {name : String} {id : Uuid} {n : ℤ}

/-- A member that is a spelling of an identifier. -/
def UuidMember (py : Interpreter) (fields : List (Text × Value)) (name : String) (id : Uuid) : Prop :=
  ∃ w t, field fields (Json.text name) = some w ∧ Json.str py.toWriter w = .ok t ∧ Uuid.read py.decimal t = some id

/-- A member that is a spelling of an integer. -/
def IntegerMember (py : Interpreter) (fields : List (Text × Value)) (name : String) (n : ℤ) : Prop :=
  ∃ w, field fields (Json.text name) = some w ∧ readInteger py w = .ok n

/-- Members spell the identifiers and numbers of a context; others may stand beside them. -/
structure Spells (py : Interpreter) (value scope : List (Text × Value)) (c : DocumentGenerationHpkeContext) : Prop where
  publicationId : UuidMember py value "publication_id" c.publicationId
  installationId : UuidMember py value "installation_id" c.installationId
  tabletId : UuidMember py value "tablet_id" c.tabletId
  departmentId : UuidMember py scope "department_id" c.departmentId
  stationId : ∃ w, field scope (Json.text "station_id") = some w ∧
    (w = .null ∧ c.stationId = none ∨ w ≠ .null ∧ ∃ t id, Json.str py.toWriter w = .ok t ∧
      Uuid.read py.decimal t = some id ∧ c.stationId = some id)
  datasetTypeCode : ∃ w, field scope (Json.text "dataset_type_code") = some w ∧
    Json.str py.toWriter w = .ok c.datasetTypeCode
  versionNumber : IntegerMember py value "version_number" c.versionNumber
  schemaVersion : IntegerMember py value "schema_version" c.schemaVersion

/-- A wire form of a context, in any spelling. -/
def WireFormOf (py : Interpreter) (v : Value) (c : DocumentGenerationHpkeContext) : Prop :=
  ∃ value scope, v = .dict value ∧ field value (Json.text "protocol") = some (.str documentGenerationProtocol) ∧
    field value (Json.text "scope") = some (.dict scope) ∧ Spells py value scope c

theorem mapError_eq_ok {ε ε' α : Type} {f : ε → ε'} {x : Except ε α} {a : α} : x.mapError f = .ok a ↔ x = .ok a := by
  cases x with
  | error e => simp [Except.mapError]
  | ok b => simp [Except.mapError]

theorem item_eq_ok {fields : List (Text × Value)} {w : Value} :
    item fields name = .ok w ↔ field fields (Json.text name) = some w := by
  unfold item Json.subscript
  dsimp only
  cases field fields (Json.text name) with
  | none => simp
  | some v => simp

theorem readUuid_eq_ok {w : Value} : readUuid py w = .ok id ↔
    ∃ t, Json.str py.toWriter w = .ok t ∧ Uuid.read py.decimal t = some id := by
  simp only [readUuid, bind_eq_ok]
  refine exists_congr fun t => and_congr_right fun _ => ?_
  cases Uuid.read py.decimal t with
  | none => simp [throw_ne_ok]
  | some u => simp [pure_eq_ok]

theorem uuidMember_eq_ok {fields : List (Text × Value)} :
    (item fields name >>= readUuid py).mapError Conversion.access = .ok id ↔ UuidMember py fields name id := by
  simp only [mapError_eq_ok, bind_eq_ok, item_eq_ok, readUuid_eq_ok, UuidMember, exists_and_left]

theorem integerMember_eq_ok {fields : List (Text × Value)} :
    (item fields name).mapError Conversion.access >>= readInteger py = .ok n ↔ IntegerMember py fields name n := by
  simp only [bind_eq_ok, mapError_eq_ok, item_eq_ok, IntegerMember]

theorem station_eq_ok {w : Value} {station : Option Uuid} : readStation py w = .ok station ↔
    (w = .null ∧ station = none ∨ w ≠ .null ∧ ∃ t id, Json.str py.toWriter w = .ok t ∧
      Uuid.read py.decimal t = some id ∧ station = some id) := by
  have hmap : ∀ w : Value, (some <$> readUuid py w).mapError Conversion.access = .ok station ↔
      ∃ t id, Json.str py.toWriter w = .ok t ∧ Uuid.read py.decimal t = some id ∧ station = some id := by
    intro w
    rw [mapError_eq_ok, map_eq_pure_bind, bind_eq_ok]
    constructor
    · rintro ⟨id, hid, hstation⟩
      obtain ⟨t, ht, hread⟩ := readUuid_eq_ok.mp hid
      exact ⟨t, id, ht, hread, (Except.ok.inj hstation).symm⟩
    · rintro ⟨t, id, ht, hread, rfl⟩
      exact ⟨id, readUuid_eq_ok.mpr ⟨t, ht, hread⟩, rfl⟩
  cases w with
  | null =>
    have hnone : readStation py .null = .ok station ↔ station = none := pure_eq_ok.trans eq_comm
    simpa using hnone
  | _ =>
    unfold readStation
    rw [hmap]
    simp

theorem readContext_eq_ok {c : DocumentGenerationHpkeContext} : readContext py value scope = .ok c ↔ Spells py value scope c := by
  unfold readContext
  constructor
  · intro h
    obtain ⟨station, hstation, h⟩ := bind_eq_ok.mp h
    obtain ⟨publicationId, hpublication, h⟩ := bind_eq_ok.mp h
    obtain ⟨installationId, hinstallation, h⟩ := bind_eq_ok.mp h
    obtain ⟨tabletId, htablet, h⟩ := bind_eq_ok.mp h
    obtain ⟨departmentId, hdepartment, h⟩ := bind_eq_ok.mp h
    obtain ⟨stationId, hid, h⟩ := bind_eq_ok.mp h
    obtain ⟨code, hcode, h⟩ := bind_eq_ok.mp h
    obtain ⟨version, hversion, h⟩ := bind_eq_ok.mp h
    obtain ⟨schema, hschema, h⟩ := bind_eq_ok.mp h
    obtain rfl := pure_eq_ok.mp h
    obtain ⟨w, hw, htext⟩ := bind_eq_ok.mp (mapError_eq_ok.mp hcode)
    exact {
      publicationId := uuidMember_eq_ok.mp hpublication
      installationId := uuidMember_eq_ok.mp hinstallation
      tabletId := uuidMember_eq_ok.mp htablet
      departmentId := uuidMember_eq_ok.mp hdepartment
      stationId := ⟨station, item_eq_ok.mp (mapError_eq_ok.mp hstation), station_eq_ok.mp hid⟩
      datasetTypeCode := ⟨w, item_eq_ok.mp hw, htext⟩
      versionNumber := integerMember_eq_ok.mp hversion
      schemaVersion := integerMember_eq_ok.mp hschema }
  · intro h
    obtain ⟨station, hstation, hid⟩ := h.stationId
    obtain ⟨w, hw, htext⟩ := h.datasetTypeCode
    refine bind_eq_ok.mpr ⟨station, mapError_eq_ok.mpr (item_eq_ok.mpr hstation), ?_⟩
    refine bind_eq_ok.mpr ⟨_, uuidMember_eq_ok.mpr h.publicationId, ?_⟩
    refine bind_eq_ok.mpr ⟨_, uuidMember_eq_ok.mpr h.installationId, ?_⟩
    refine bind_eq_ok.mpr ⟨_, uuidMember_eq_ok.mpr h.tabletId, ?_⟩
    refine bind_eq_ok.mpr ⟨_, uuidMember_eq_ok.mpr h.departmentId, ?_⟩
    refine bind_eq_ok.mpr ⟨_, station_eq_ok.mpr hid, ?_⟩
    refine bind_eq_ok.mpr ⟨_, mapError_eq_ok.mpr (bind_eq_ok.mpr ⟨w, item_eq_ok.mpr hw, htext⟩), ?_⟩
    refine bind_eq_ok.mpr ⟨_, integerMember_eq_ok.mpr h.versionNumber, ?_⟩
    exact bind_eq_ok.mpr ⟨_, integerMember_eq_ok.mpr h.schemaVersion, rfl⟩

/-- A value is accepted exactly as a wire form of the context it is read as. -/
theorem fromWire_ok {v : Value} {c : DocumentGenerationHpkeContext} : fromWire py v = .ok c ↔ WireFormOf py v c := by
  unfold fromWire
  constructor
  · intro h
    split at h
    · rename_i value
      split at h
      · rename_i tag scope htag hscope
        split at h
        · rename_i hsame
          exact ⟨value, scope, rfl, hsame ▸ htag, hscope, readContext_eq_ok.mp (mapError_eq_ok.mp h)⟩
        · cases h
      · cases h
    · cases h
  · rintro ⟨value, scope, rfl, htag, hscope, hspells⟩
    simp only [htag, hscope, if_true]
    exact mapError_eq_ok.mpr (readContext_eq_ok.mpr hspells)

/-! ### What is written -/

theorem uuidMember_str {fields : List (Text × Value)} (h : field fields (Json.text name) = some (.str id.str)) :
    UuidMember py fields name id :=
  ⟨_, _, h, rfl, Numerals.read_str id⟩

/-- The object of a context is a wire form of it. -/
theorem wireFormOf_payload (c : DocumentGenerationHpkeContext) : WireFormOf py c.payload c := by
  refine ⟨_, _, rfl, rfl, rfl, ?_⟩
  constructor
  case publicationId | installationId | tabletId | departmentId => exact uuidMember_str rfl
  case stationId =>
    refine ⟨optionalId c.stationId, rfl, ?_⟩
    cases c.stationId with
    | none => exact .inl ⟨rfl, rfl⟩
    | some id => exact .inr ⟨nofun, _, _, rfl, Numerals.read_str id, rfl⟩
  case datasetTypeCode => exact ⟨_, rfl, rfl⟩
  case versionNumber | schemaVersion => exact ⟨_, rfl, rfl⟩

theorem wire_ok {c : DocumentGenerationHpkeContext} {v : Value} : c.wire = .ok v ↔
    isDatasetTypeCode c.datasetTypeCode = true ∧ 1 ≤ c.versionNumber ∧ 1 ≤ c.schemaVersion ∧ v = c.payload := by
  simp only [DocumentGenerationHpkeContext.wire, check_eq_ok, pure_eq_ok, not_not, not_or, not_lt, and_assoc]
  exact and_congr_right fun _ => and_congr_right fun _ => and_congr_right fun _ => eq_comm

/-- The reader inverts the writer. -/
theorem fromWire_wire (c : DocumentGenerationHpkeContext) : c.wire >>= fromWire py = c.wire.map fun _ => c := by
  cases h : c.wire with
  | error e => rfl
  | ok v =>
    obtain ⟨-, -, -, rfl⟩ := wire_ok.mp h
    have hread : fromWire py c.payload = .ok c := fromWire_ok.mpr (wireFormOf_payload c)
    rw [ok_bind, hread, Except.map]

end

/-! ### The `info` bytes -/

/-- A context of either protocol. -/
inductive InfoContext where
  | dataset (context : HpkeContext)
  | documentGeneration (context : DocumentGenerationHpkeContext)
  deriving DecidableEq

def InfoContext.payload : InfoContext → Value
  | .dataset c => c.payload
  | .documentGeneration c => c.payload

def InfoContext.info (py : Interpreter) : InfoContext → Except Raised Bytes
  | .dataset c => c.info py
  | .documentGeneration c => c.info py

section

variable {py : Interpreter} {c c' : InfoContext} {bytes : Bytes}

/-- Members of one name of the same object are the same. -/
theorem same_subscript {v w x y : Value} (h : Same v w) (hnodup : ∀ g, w = .dict g → (g.map Prod.fst).Nodup) (name : String)
    (hx : Json.subscript v (Json.text name) = .ok x) (hy : Json.subscript w (Json.text name) = .ok y) : Same x y := by
  cases v with
  | dict f =>
    cases w with
    | dict g =>
      have hv := item_eq_ok.mp hx
      have hw := item_eq_ok.mp hy
      obtain ⟨e, he, rfl⟩ := Option.map_eq_some_iff.mp hv
      have hkey := List.find?_some he
      simp only [decide_eq_true_eq] at hkey
      obtain ⟨u, hu, hsame⟩ := h.member (List.mem_of_find?_eq_some he : (e.1, e.2) ∈ f)
      have hfield := Json.Schema.field_of_mem (hnodup g rfl) hu
      rw [hkey, hw] at hfield
      rw [Option.some.inj hfield]
      exact hsame
    | _ => cases hy
  | _ => cases hx

/-- No text is the same as `null`. -/
theorem not_same_str_null {t : Text} : ¬Same (.str t) .null := nofun

theorem not_same_null_str {t : Text} : ¬Same .null (.str t) := nofun

theorem same_optionalId {a b : Option Uuid} (h : Same (optionalId a) (optionalId b)) : a = b := by
  cases a with
  | none =>
    cases b with
    | none => rfl
    | some b => exact absurd h not_same_null_str
  | some a =>
    cases b with
    | none => exact absurd h not_same_str_null
    | some b => rw [Numerals.str_injective h.str_inj]

theorem same_uuid {a b : Uuid} (h : Same (.str a.str) (.str b.str)) : a = b := Numerals.str_injective h.str_inj

theorem same_int {m n : ℤ} (h : Same (.int m) (.int n)) : m = n := by
  cases h
  rfl

/-- The members of an artifact's context have one name each. -/
theorem HpkeContext.payload_nodup {a : HpkeContext} (fields : List (Text × Value)) (h : a.payload = .dict fields) :
    (fields.map Prod.fst).Nodup := by
  cases h
  simp only [List.map_cons, List.map_nil]
  decide

theorem DocumentGenerationHpkeContext.payload_nodup {a : DocumentGenerationHpkeContext} (fields : List (Text × Value))
    (h : a.payload = .dict fields) : (fields.map Prod.fst).Nodup := by
  cases h
  simp only [List.map_cons, List.map_nil]
  decide

/-- A scope determines its three members. -/
theorem same_scope {code code' : Text} {department department' station station' : Value}
    (h : Same (.dict [(Json.text "dataset_type_code", .str code), (Json.text "department_id", department),
        (Json.text "station_id", station)])
      (.dict [(Json.text "dataset_type_code", .str code'), (Json.text "department_id", department'),
        (Json.text "station_id", station')])) :
    code = code' ∧ Same department department' ∧ Same station station' := by
  have hnodup : ∀ g, Value.dict [(Json.text "dataset_type_code", .str code'), (Json.text "department_id", department'),
      (Json.text "station_id", station')] = .dict g → (g.map Prod.fst).Nodup := by
    intro g hg
    cases hg
    simp only [List.map_cons, List.map_nil]
    decide
  have hcode : Same (.str code) (.str code') := same_subscript h hnodup "dataset_type_code" rfl rfl
  have hdepartment : Same department department' := same_subscript h hnodup "department_id" rfl rfl
  have hstation : Same station station' := same_subscript h hnodup "station_id" rfl rfl
  exact ⟨hcode.str_inj, hdepartment, hstation⟩

/-- The object of an artifact's context determines it. -/
theorem HpkeContext.payload_injective {a b : HpkeContext} (h : Same a.payload b.payload) : a = b := by
  have hsha : Same (.str a.ciphertextSha256) (.str b.ciphertextSha256) := same_subscript h payload_nodup "ciphertext_sha256" rfl rfl
  have hinstallation : Same (.str a.installationId.str) (.str b.installationId.str) :=
    same_subscript h payload_nodup "installation_id" rfl rfl
  have hpublication : Same (.str a.publicationId.str) (.str b.publicationId.str) :=
    same_subscript h payload_nodup "publication_id" rfl rfl
  have htablet : Same (.str a.tabletId.str) (.str b.tabletId.str) := same_subscript h payload_nodup "tablet_id" rfl rfl
  have hschema : Same (.int a.schemaVersion) (.int b.schemaVersion) := same_subscript h payload_nodup "schema_version" rfl rfl
  have hversion : Same (.int a.versionNumber) (.int b.versionNumber) := same_subscript h payload_nodup "version_number" rfl rfl
  obtain ⟨hcode, hdepartment, hstation⟩ := same_scope (same_subscript h payload_nodup "scope" rfl rfl)
  cases a
  cases b
  obtain rfl := hsha.str_inj
  obtain rfl := same_uuid hinstallation
  obtain rfl := same_uuid hpublication
  obtain rfl := same_uuid htablet
  obtain rfl := same_int hschema
  obtain rfl := same_int hversion
  obtain rfl := hcode
  obtain rfl := same_optionalId hdepartment
  obtain rfl := same_optionalId hstation
  rfl

/-- The object of a generation's context determines it. -/
theorem DocumentGenerationHpkeContext.payload_injective {a b : DocumentGenerationHpkeContext} (h : Same a.payload b.payload) :
    a = b := by
  have hinstallation : Same (.str a.installationId.str) (.str b.installationId.str) :=
    same_subscript h payload_nodup "installation_id" rfl rfl
  have hpublication : Same (.str a.publicationId.str) (.str b.publicationId.str) :=
    same_subscript h payload_nodup "publication_id" rfl rfl
  have htablet : Same (.str a.tabletId.str) (.str b.tabletId.str) := same_subscript h payload_nodup "tablet_id" rfl rfl
  have hschema : Same (.int a.schemaVersion) (.int b.schemaVersion) := same_subscript h payload_nodup "schema_version" rfl rfl
  have hversion : Same (.int a.versionNumber) (.int b.versionNumber) := same_subscript h payload_nodup "version_number" rfl rfl
  obtain ⟨hcode, hdepartment, hstation⟩ := same_scope (same_subscript h payload_nodup "scope" rfl rfl)
  cases a
  cases b
  obtain rfl := same_uuid hinstallation
  obtain rfl := same_uuid hpublication
  obtain rfl := same_uuid htablet
  obtain rfl := same_int hschema
  obtain rfl := same_int hversion
  obtain rfl := hcode
  obtain rfl := same_uuid hdepartment
  obtain rfl := same_optionalId hstation
  rfl

/-- The two protocols keep the objects of the two kinds of context apart. -/
theorem InfoContext.payload_injective (h : Same c.payload c'.payload) : c = c' := by
  have hprotocol : protocol ≠ documentGenerationProtocol := by decide
  cases c with
  | dataset a =>
    cases c' with
    | dataset b => rw [HpkeContext.payload_injective h]
    | documentGeneration b =>
      have htag : Same (.str protocol) (.str documentGenerationProtocol) :=
        same_subscript h DocumentGenerationHpkeContext.payload_nodup "protocol" rfl rfl
      exact absurd htag.str_inj hprotocol
  | documentGeneration a =>
    cases c' with
    | dataset b =>
      have htag : Same (.str documentGenerationProtocol) (.str protocol) :=
        same_subscript h HpkeContext.payload_nodup "protocol" rfl rfl
      exact absurd htag.str_inj hprotocol.symm
    | documentGeneration b => rw [DocumentGenerationHpkeContext.payload_injective h]

/-- A text of ASCII letters, digits and the like. -/
theorem scalarText_of_ascii {t : Text} (h : ∀ c ∈ t, c < 128) : Json.ScalarText t := by
  intro c hc
  have hlt := h c hc
  exact .inl (by omega)

theorem isDatasetTypeCode_scalar {t : Text} (h : isDatasetTypeCode t = true) : Json.ScalarText t := by
  cases t with
  | nil => exact nofun
  | cons c rest =>
    simp only [isDatasetTypeCode, isLower, Json.isDigit, decide_eq_true_eq, List.all_eq_true, Bool.or_eq_true] at h
    obtain ⟨hfirst, -, hrest⟩ := h
    refine scalarText_of_ascii fun d hd => ?_
    rcases List.mem_cons.mp hd with rfl | hd
    · omega
    · have := hrest d hd
      omega

theorem isSha256_scalar {t : Text} (h : isSha256 t = true) : Json.ScalarText t := by
  simp only [isSha256, Json.isDigit, decide_eq_true_eq, List.all_eq_true, Bool.or_eq_true] at h
  refine scalarText_of_ascii fun d hd => ?_
  have := h.2 d hd
  omega

theorem proper_uuid (id : Uuid) : (Value.str id.str).Proper Json.ScalarText fun _ => False :=
  Json.proper_str.mpr (scalarText_of_ascii fun _ => Numerals.str_ascii)

theorem proper_optionalId (id : Option Uuid) : (optionalId id).Proper Json.ScalarText fun _ => False := by
  cases id with
  | none => exact Json.proper_null
  | some id => exact proper_uuid id

theorem proper_scope {code : Text} {department station : Value} (hcode : isDatasetTypeCode code = true)
    (hdepartment : department.Proper Json.ScalarText fun _ => False) (hstation : station.Proper Json.ScalarText fun _ => False) :
    (Value.dict [(Json.text "dataset_type_code", .str code), (Json.text "department_id", department),
      (Json.text "station_id", station)]).Proper Json.ScalarText fun _ => False := by
  have hnodup : [Json.text "dataset_type_code", Json.text "department_id", Json.text "station_id"].Nodup := by decide
  refine Json.proper_dict.mpr ⟨hnodup, ?_⟩
  exact List.forall_iff_forall_mem.mp ⟨⟨Json.Schema.scalarText_text _, Json.proper_str.mpr (isDatasetTypeCode_scalar hcode)⟩,
    ⟨Json.Schema.scalarText_text _, hdepartment⟩, ⟨Json.Schema.scalarText_text _, hstation⟩⟩

theorem HpkeContext.payload_proper {a : HpkeContext} (hcode : isDatasetTypeCode a.datasetTypeCode = true)
    (hsha : isSha256 a.ciphertextSha256 = true) : a.payload.Proper Json.ScalarText fun _ => False := by
  refine Json.proper_dict.mpr ⟨payload_nodup _ rfl, ?_⟩
  exact List.forall_iff_forall_mem.mp ⟨⟨Json.Schema.scalarText_text _, Json.proper_str.mpr (isSha256_scalar hsha)⟩,
    ⟨Json.Schema.scalarText_text _, proper_uuid _⟩,
    ⟨Json.Schema.scalarText_text _, Json.proper_str.mpr (Json.Schema.scalarText_text _)⟩,
    ⟨Json.Schema.scalarText_text _, proper_uuid _⟩,
    ⟨Json.Schema.scalarText_text _, Json.proper_int⟩,
    ⟨Json.Schema.scalarText_text _, proper_scope hcode (proper_optionalId _) (proper_optionalId _)⟩,
    ⟨Json.Schema.scalarText_text _, proper_uuid _⟩,
    ⟨Json.Schema.scalarText_text _, Json.proper_int⟩⟩

theorem DocumentGenerationHpkeContext.payload_proper {a : DocumentGenerationHpkeContext}
    (hcode : isDatasetTypeCode a.datasetTypeCode = true) : a.payload.Proper Json.ScalarText fun _ => False := by
  refine Json.proper_dict.mpr ⟨payload_nodup _ rfl, ?_⟩
  exact List.forall_iff_forall_mem.mp ⟨⟨Json.Schema.scalarText_text _, Json.proper_str.mpr (Json.Schema.scalarText_text _)⟩,
    ⟨Json.Schema.scalarText_text _, proper_uuid _⟩,
    ⟨Json.Schema.scalarText_text _, proper_uuid _⟩,
    ⟨Json.Schema.scalarText_text _, proper_uuid _⟩,
    ⟨Json.Schema.scalarText_text _, proper_scope hcode (proper_uuid _) (proper_optionalId _)⟩,
    ⟨Json.Schema.scalarText_text _, Json.proper_int⟩,
    ⟨Json.Schema.scalarText_text _, Json.proper_int⟩⟩

theorem jsonBytes_ok {v : Value} : jsonBytes py v = .ok bytes →
    bytes = Json.asciiBytes (Json.dumps (fun _ => []) v) := by
  intro h
  obtain ⟨-, -, h⟩ := bind_eq_ok.mp h
  exact (pure_eq_ok.mp h).symm

/-- The bytes of a context are the canonical text of its object. -/
theorem InfoContext.info_ok (h : c.info py = .ok bytes) :
    c.payload.Proper Json.ScalarText (fun _ => False) ∧ bytes = Json.asciiBytes (Json.dumps (fun _ => []) c.payload) := by
  cases c with
  | dataset a =>
    have h : a.info py = .ok bytes := h
    simp only [HpkeContext.info, check_eq_ok, not_not] at h
    obtain ⟨hcode, -, hsha, hbytes⟩ := h
    exact ⟨HpkeContext.payload_proper hcode hsha, jsonBytes_ok hbytes⟩
  | documentGeneration a =>
    obtain ⟨v, hv, hbytes⟩ := bind_eq_ok.mp h
    obtain ⟨hcode, -, -, rfl⟩ := wire_ok.mp hv
    exact ⟨DocumentGenerationHpkeContext.payload_proper hcode, jsonBytes_ok hbytes⟩

/-- Two contexts, of either kind, never have the same `info` bytes. -/
theorem InfoContext.info_injective (h : c.info py = .ok bytes) (h' : c'.info py = .ok bytes) : c = c' := by
  have hfloat : Json.FaithfulRepr (fun _ => []) fun _ => False := by constructor <;> nofun
  obtain ⟨hproper, hbytes⟩ := info_ok h
  obtain ⟨hproper', hbytes'⟩ := info_ok h'
  exact payload_injective ((Json.asciiBytes_dumps_eq_iff hfloat hproper hproper').mp (hbytes.symm.trans hbytes'))

end

/-! ### Sealing and opening -/

/-- The fixed suite: what it draws, the recipient's keys, and the two primitives; `none` is a failed
authentication or a malformed key. -/
structure Suite (Seed Public Secret : Type) where
  onP256 : Secret → Bool
  encrypt : Seed → Bytes → Public → Bytes → Bytes
  decrypt : Bytes → Secret → Bytes → Option Bytes

/-- What was sealed opens only under the `info` bytes it was sealed with. -/
def Suite.Binds {Seed Public Secret : Type} (suite : Suite Seed Public Secret) : Prop :=
  ∀ {seed plaintext recipient info secret info' opened},
    suite.decrypt (suite.encrypt seed plaintext recipient info) secret info' = some opened → info' = info

/-- `KEM.P256.enc_length()` -/
def encLength : ℕ := 65

section

variable {Seed Public Secret : Type}

def hpkeSeal (py : Interpreter) (suite : Suite Seed Public Secret) (seed : Seed) (plaintext : Bytes) (recipientPublicKey : Public)
    (context : InfoContext) : Except Raised (Bytes × Bytes) := do
  let encoded := suite.encrypt seed plaintext recipientPublicKey (← context.info py)
  return (encoded.take encLength, encoded.drop encLength)

/-- `except (InvalidTag, ValueError)` around the decryption; the library's own error is a `ValueError`. -/
def hpkeDecrypt (py : Interpreter) (suite : Suite Seed Public Secret) (message : Bytes) (recipientPrivateKey : Secret)
    (context : InfoContext) : Except Raised Bytes :=
  match context.info py with
  | .ok info =>
    match suite.decrypt message recipientPrivateKey info with
    | some plaintext => .ok plaintext
    | none => .error (.hpkeError "HPKE authentication failed.")
  | .error (.hpkeError _) | .error .valueError => .error (.hpkeError "HPKE authentication failed.")
  | .error raised => .error raised

def hpkeOpen (py : Interpreter) (suite : Suite Seed Public Secret) (encapsulatedKey ciphertext : Bytes) (recipientPrivateKey : Secret)
    (context : InfoContext) : Except Raised Bytes := do
  if ¬suite.onP256 recipientPrivateKey then
    throw (.hpkeError "HPKE requires a P-256 private key.")
  if encapsulatedKey.length ≠ encLength then
    throw (.hpkeError "HPKE encapsulated key has an invalid length.")
  hpkeDecrypt py suite (encapsulatedKey ++ ciphertext) recipientPrivateKey context

variable {py : Interpreter} {suite : Suite Seed Public Secret} {c c' : InfoContext} {enc ciphertext plaintext opened : Bytes}

theorem hpkeSeal_ok {seed : Seed} {key : Public} (h : hpkeSeal py suite seed plaintext key c = .ok (enc, ciphertext)) :
    ∃ info, c.info py = .ok info ∧ enc ++ ciphertext = suite.encrypt seed plaintext key info := by
  obtain ⟨info, hinfo, h⟩ := bind_eq_ok.mp h
  obtain ⟨rfl, rfl⟩ := Prod.mk.inj (pure_eq_ok.mp h)
  exact ⟨info, hinfo, List.take_append_drop ..⟩

theorem hpkeOpen_ok {secret : Secret} (h : hpkeOpen py suite enc ciphertext secret c = .ok opened) :
    ∃ info, c.info py = .ok info ∧ suite.decrypt (enc ++ ciphertext) secret info = some opened := by
  obtain ⟨-, h⟩ := check_eq_ok.mp h
  obtain ⟨-, h⟩ := check_eq_ok.mp h
  unfold hpkeDecrypt at h
  split at h
  · rename_i info hinfo
    split at h
    · rename_i plaintext hplaintext
      cases h
      exact ⟨info, hinfo, hplaintext⟩
    · cases h
  all_goals cases h

/-- A key sealed for one context opens under no other. -/
theorem open_only_sealed (hbinds : suite.Binds) {seed : Seed} {key : Public} {secret : Secret}
    (hseal : hpkeSeal py suite seed plaintext key c = .ok (enc, ciphertext))
    (hopen : hpkeOpen py suite enc ciphertext secret c' = .ok opened) : c' = c := by
  obtain ⟨info, hinfo, hencoded⟩ := hpkeSeal_ok hseal
  obtain ⟨info', hinfo', hopened⟩ := hpkeOpen_ok hopen
  rw [hencoded] at hopened
  obtain rfl := hbinds hopened
  exact InfoContext.info_injective hinfo' hinfo

/-- Wire forms are read back as the context they were written for, a wire form is accepted exactly when it
spells out a context, the `info` bytes tell all contexts of both kinds apart, and so do sealed keys. -/
theorem contexts_bound (py : Interpreter) (suite : Suite Seed Public Secret) (hbinds : suite.Binds) :
    (∀ c : DocumentGenerationHpkeContext, c.wire >>= fromWire py = c.wire.map fun _ => c) ∧
    (∀ v c, fromWire py v = .ok c ↔ WireFormOf py v c) ∧
    (∀ (c c' : InfoContext) bytes, c.info py = .ok bytes → c'.info py = .ok bytes → c = c') ∧
    ∀ (c c' : InfoContext) seed key secret plaintext opened enc ciphertext,
      hpkeSeal py suite seed plaintext key c = .ok (enc, ciphertext) →
      hpkeOpen py suite enc ciphertext secret c' = .ok opened → c' = c :=
  ⟨fromWire_wire, fun _ _ => fromWire_ok, fun _ _ _ h h' => InfoContext.info_injective h h',
    fun _ _ _ _ _ _ _ _ _ hseal hopen => open_only_sealed hbinds hseal hopen⟩

end

/-! ### Examples -/

/-- An interpreter on values without floating-point numbers and on ASCII digits. -/
def plainInterpreter : Interpreter where
  limits := ⟨1000, 4300⟩
  floatText _ := []
  containerText _ := .error .recursionError
  decimal _ := none

/-- A message framed by the key and the `info` bytes, whose length stands before them in unary. -/
def frame (key : UInt8) (info : Bytes) : Bytes :=
  4 :: key :: List.replicate 63 0 ++ (List.replicate info.length 1 ++ 0 :: info)

def framedSuite : Suite Unit UInt8 UInt8 where
  onP256 _ := true
  encrypt _ plaintext key info := frame key info ++ plaintext
  decrypt message key info :=
    if (frame key info).isPrefixOf message then some (message.drop (frame key info).length) else none

theorem unary_determined {m n : ℕ} {a b : Bytes} (h : List.replicate m (1 : UInt8) ++ 0 :: a = List.replicate n 1 ++ 0 :: b) :
    m = n ∧ a = b := by
  induction m generalizing n with
  | zero =>
    cases n with
    | zero => simpa using h
    | succ n => simp [List.replicate_succ] at h
  | succ m ih =>
    cases n with
    | zero => simp [List.replicate_succ] at h
    | succ n =>
      simp only [List.replicate_succ, List.cons_append, List.cons.injEq, true_and] at h
      obtain ⟨hlength, hrest⟩ := ih h
      exact ⟨congrArg Nat.succ hlength, hrest⟩

theorem framedSuite_binds : framedSuite.Binds := by
  intro seed plaintext key info secret info' opened h
  simp only [framedSuite, Option.ite_none_right_eq_some, List.isPrefixOf_iff_prefix] at h
  obtain ⟨⟨rest, hrest⟩, -⟩ := h
  simp only [frame, List.cons_append, List.append_assoc, List.cons.injEq, List.append_cancel_left_eq] at hrest
  obtain ⟨hlength, htail⟩ := unary_determined hrest.2.2
  exact List.append_inj_left htail hlength

def sampleContext : DocumentGenerationHpkeContext where
  publicationId := 1
  installationId := 2
  tabletId := 3
  departmentId := 4
  stationId := none
  datasetTypeCode := Json.text "fire_plans"
  versionNumber := 7
  schemaVersion := 1

/-- The object of a context is written only if the context is valid. -/
theorem wire_eq_payload {c c' : DocumentGenerationHpkeContext} (h : c'.wire = .ok c.payload) : 1 ≤ c.versionNumber := by
  obtain ⟨-, hversion, -, hpayload⟩ := wire_ok.mp h
  have hsame : Same c.payload c'.payload := by
    rw [hpayload]
  have hcontext : c = c' := DocumentGenerationHpkeContext.payload_injective hsame
  rw [hcontext]
  exact hversion

theorem fromWire_payload (py : Interpreter) (c : DocumentGenerationHpkeContext) : fromWire py c.payload = .ok c :=
  fromWire_ok.mpr (wireFormOf_payload c)

def unversionedContext : DocumentGenerationHpkeContext := { sampleContext with versionNumber := 0 }

/-- The reader takes a version the writer refuses. -/
theorem reads_unwritten : fromWire plainInterpreter unversionedContext.payload = .ok unversionedContext ∧
    ∀ c : DocumentGenerationHpkeContext, c.wire ≠ .ok unversionedContext.payload := by
  refine ⟨fromWire_payload _ _, fun c h => ?_⟩
  have hversion : 1 ≤ unversionedContext.versionNumber := wire_eq_payload h
  have hzero : unversionedContext.versionNumber = 0 := rfl
  omega

/-- The sample's bytes are written within the interpreter's limits. -/
theorem sampleContext_info : ∃ info, InfoContext.info plainInterpreter (.documentGeneration sampleContext) = .ok info := by
  have hwire : sampleContext.wire = .ok sampleContext.payload := rfl
  have hlimits : Json.written plainInterpreter.limits sampleContext.payload = .ok () := by decide +kernel
  have hinfo : InfoContext.info plainInterpreter (.documentGeneration sampleContext) =
      sampleContext.wire >>= jsonBytes plainInterpreter := rfl
  rw [hinfo, hwire, ok_bind, jsonBytes, hlimits]
  exact ⟨_, rfl⟩

theorem contexts_bound_framed : ∃ enc ciphertext,
    hpkeSeal plainInterpreter framedSuite () [1, 2, 3] 9 (.documentGeneration sampleContext) = .ok (enc, ciphertext) ∧
    ∀ secret c opened, hpkeOpen plainInterpreter framedSuite enc ciphertext secret c = .ok opened →
      c = .documentGeneration sampleContext := by
  obtain ⟨info, hinfo⟩ := sampleContext_info
  have hseal : hpkeSeal plainInterpreter framedSuite () [1, 2, 3] 9 (.documentGeneration sampleContext) =
      .ok ((frame 9 info ++ [1, 2, 3]).take encLength, (frame 9 info ++ [1, 2, 3]).drop encLength) := by
    rw [hpkeSeal, hinfo]
    rfl
  exact ⟨_, _, hseal, fun secret c opened hopen =>
    (contexts_bound plainInterpreter framedSuite framedSuite_binds).2.2.2 _ _ () 9 secret [1, 2, 3] opened _ _ hseal hopen⟩

end FireDash.Publications.Hpke
