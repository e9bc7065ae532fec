import FireDash.Lib.JsonRecords
import FireDash.Publications.Registry

/-! Source payloads as the JSON objects the builders make, and the fingerprints taken of them. -/
namespace FireDash.Publications.Payloads
open Json (Double FaithfulRepr Record Regular Same Schema ScalarText Text Value field text)

/-- The members of an object, in the order they were written. -/
abbrev Fields := List (Text × Value)

/-- `hashlib.sha256(data).hexdigest()`, and the texts of floating-point numbers. -/
structure Settings where
  sha256 : List UInt8 → Text
  floatRepr : Double → Text

/-! ### The fingerprint -/

/-- `names <= value.keys()` of an object. -/
def hasKeys (names : List String) : Value → Bool
  | .dict fields => names.all fun name => text name ∈ fields.map Prod.fst
  | _ => false

/-- `set(payload) == names`. -/
def keysAre (names : List String) (payload : Fields) : Bool :=
  (names.all fun name => text name ∈ payload.map Prod.fst) && (payload.map Prod.fst).all fun key => key ∈ names.map text

def isFileLibrarySnapshot : Value → Bool
  | .dict payload =>
    keysAre ["library", "source_revision", "folders", "documents"] payload &&
      match field payload (text "library"), field payload (text "folders"), field payload (text "documents") with
      | some library, some (.list folders), some (.list documents) =>
        hasKeys ["id", "name", "scope"] library &&
          folders.all (hasKeys ["id", "name", "parent_id"]) &&
          documents.all (hasKeys ["id", "name", "folder_id", "sha256", "size_bytes", "content_id"])
      | _, _, _ => false
  | _ => false

/-- `item["id"]`; the identities of folders and documents are texts. -/
def idOf : Value → Text
  | .dict fields =>
    match field fields (text "id") with
    | some (.str id) => id
    | _ => []
  | _ => []

/-- `sorted(items, key=lambda item: item["id"])`. -/
def sortedById (items : List Value) : List Value := items.insertionSort fun a b => idOf a ≤ idOf b

def without (name : String) : Value → Value
  | .dict fields => .dict (fields.filter fun f => f.1 ≠ text name)
  | v => v

def itemsOf : Option Value → List Value
  | some (.list items) => items
  | _ => []

/-- The payload of a file library without the bookkeeping that does not change what tablets receive. -/
def comparedLibrary (payload : Fields) : Fields :=
  let folders := itemsOf (field payload (text "folders"))
  let documents := itemsOf (field payload (text "documents"))
  let kept := payload.filter fun f => f.1 ≠ text "source_revision"
  Json.setField (Json.setField kept (text "folders") (.list (sortedById folders)))
    (text "documents") (.list (sortedById (documents.map (without "content_id"))))

def jsonBytes (settings : Settings) (payload : Fields) : List UInt8 :=
  Json.asciiBytes (Json.dumps settings.floatRepr (.dict payload))

/-- What is hashed for a payload. -/
def compared (payload : Fields) : Fields :=
  if isFileLibrarySnapshot (.dict payload) then comparedLibrary payload else payload

/-- The digest an uploaded source carries instead of a payload. -/
def exactDigest (payload : Fields) : Option Text :=
  match keysAre ["_exact_source_sha256"] payload, field payload (text "_exact_source_sha256") with
  | true, some (.str digest) => some digest
  | _, _ => none

def sourceFingerprintForPayload (settings : Settings) (payload : Fields) : Text :=
  match exactDigest payload with
  | some digest => digest
  | none => settings.sha256 (jsonBytes settings (compared payload))

/-! ### What the builders write -/

section

variable (P : Double → Prop)

def constant (s : String) : Schema := fun v => v = .str (text s)

/-- `str(row.id)`. -/
def identity : Schema := Schema.str fun s => s ≠ [] ∧ ScalarText s

def string : Schema := Schema.str ScalarText

/-- `value or None` of a text column. -/
def orNone : Schema := Schema.nullable string

def flag : Schema := fun v => ∃ b, v = .bool b

def number : Schema := fun v => ∃ n, v = .int n

/-- A coordinate of a geometry. -/
def coordinate : Schema := fun v => ∃ x, v = .float x ∧ P x

def point : Schema := Schema.object [("type", constant "Point"), ("coordinates", Schema.list (· = 2) (coordinate P))]

def featureProperties : List (String × Schema) :=
  [("external_identifier", string), ("street", orNone), ("house_number", orNone), ("location", orNone),
    ("hydrant_type", string), ("diameter_mm", Schema.nullable number), ("status", string)]

/-- A hydrant of `_hydrant_source_payload`. -/
def feature : List (String × Schema) :=
  [("type", constant "Feature"), ("id", identity), ("geometry", point P),
    ("properties", Schema.object featureProperties)]

/-- A person of `_personnel_source_payload`. -/
def person : List (String × Schema) :=
  [("id", identity), ("display_name", string), ("incident_commander_eligible", flag), ("commander_email", orNone)]

/-- A plan of `_fire_plan_source_manifest`. -/
def firePlan : List (String × Schema) :=
  [("id", identity), ("external_identifier", orNone), ("object_name", orNone), ("address", orNone),
    ("postal_code", orNone), ("city", orNone), ("fsd_location", orNone), ("bmz_location", orNone), ("rwa_info", orNone),
    ("longitude", Schema.nullable (coordinate P)), ("latitude", Schema.nullable (coordinate P)), ("sha256", string),
    ("page_count", number)]

/-- A plan of `_klgv_source_manifest`. -/
def klgvPlan : List (String × Schema) :=
  [("id", identity), ("external_identifier", orNone), ("object_name", string), ("address", string),
    ("postal_code", string), ("city", string), ("longitude", Schema.nullable (coordinate P)),
    ("latitude", Schema.nullable (coordinate P)), ("sha256", string), ("page_count", number)]

/-- An entry of `_phonebook_source_payload`. -/
def phonebookEntry : List (String × Schema) :=
  [("id", identity), ("first_name", orNone), ("last_name", orNone), ("organization_unit", orNone), ("function", orNone),
    ("phone_number", string)]

def departmentScope : Schema := Schema.object [("type", constant "DEPARTMENT"), ("department_id", identity)]

def stationScope : Schema :=
  Schema.object [("type", constant "STATION"), ("department_id", identity), ("station_id", identity)]

/-- The `library` member of `snapshot_for_library`. -/
def library : Schema :=
  Schema.object [("id", identity), ("name", string), ("scope", fun v => departmentScope v ∨ stationScope v)]

def folder : List (String × Schema) := [("id", identity), ("name", string), ("parent_id", Schema.nullable identity)]

def document : List (String × Schema) :=
  [("id", identity), ("name", string), ("folder_id", Schema.nullable identity), ("size_bytes", number), ("sha256", string),
    ("content_id", identity)]

/-- The rows of a query ordered by identity. Rows of one identity are copies of one record. -/
structure Rows (columns : List (String × Schema)) (rows : List Value) : Prop where
  row : ∀ v ∈ rows, Schema.object columns v
  sorted : rows.Pairwise fun a b => idOf a ≤ idOf b
  copies : ∀ a ∈ rows, ∀ b ∈ rows, idOf a = idOf b → a = b

/-- Entries of a library, in any order. -/
structure Entries (columns : List (String × Schema)) (entries : List Value) : Prop where
  entry : ∀ v ∈ entries, Schema.object columns v
  nodup : (entries.map idOf).Nodup

/-- What `SOURCE_BUILDERS` returns for a dataset. The rows of a table have distinct identities;
a person with two assignments to a station is listed twice. -/
inductive IsPayload : DatasetTypeCode → Fields → Prop
  | hydrants {rows : List Value} (hrows : Rows (feature P) rows) (hnodup : rows.Nodup) :
    IsPayload .departmentHydrants
      [(text "type", .str (text "FeatureCollection")), (text "features", .list rows), (text "schema_version", .int 1)]
  | personnel {station : Value} {rows : List Value} (hstation : identity station) (hrows : Rows person rows) :
    IsPayload .stationPersonnel [(text "station_id", station), (text "people", .list rows)]
  | firePlans {rows : List Value} (hrows : Rows (firePlan P) rows) (hnodup : rows.Nodup) :
    IsPayload .departmentFirePlans [(text "fire_plans", .list rows)]
  | klgvPlans {rows : List Value} (hrows : Rows (klgvPlan P) rows) (hnodup : rows.Nodup) :
    IsPayload .departmentKlgvPlans [(text "klgv_plans", .list rows)]
  | phonebook {code : DatasetTypeCode} {rows : List Value}
    (hcode : code = .departmentPhonebook ∨ code = .stationPhonebook) (hrows : Rows phonebookEntry rows)
    (hnodup : rows.Nodup) : IsPayload code [(text "entries", .list rows)]
  | dangerousGoods {digest : Value} (hdigest : string digest) :
    IsPayload .dangerousGoods [(text "_exact_source_sha256", digest)]
  | fileLibrary {code : DatasetTypeCode} {owner revision : Value} {folders documents : List Value}
    (hcode : code.isFileDataset = true) (howner : library owner) (hrevision : number revision)
    (hfolders : Entries folder folders) (hdocuments : Entries document documents) :
    IsPayload code [(text "library", owner), (text "source_revision", revision), (text "folders", .list folders),
      (text "documents", .list documents)]

end

/-! ### Records are written in one way -/

section

variable {P : Double → Prop}

theorem regular_constant (s : String) : Regular P (constant s) := by
  refine Regular.scalar ?_
  rintro v rfl
  exact ⟨trivial, Json.proper_str.mpr (Schema.scalarText_text s)⟩

theorem regular_identity : Regular P identity := Regular.str fun _ h => h.2

theorem regular_string : Regular P string := Regular.str fun _ h => h

theorem regular_orNone : Regular P orNone := regular_string.nullable

theorem regular_flag : Regular P flag := by
  refine Regular.scalar ?_
  rintro v ⟨b, rfl⟩
  exact ⟨trivial, Json.proper_bool⟩

theorem regular_number : Regular P number := by
  refine Regular.scalar ?_
  rintro v ⟨n, rfl⟩
  exact ⟨trivial, Json.proper_int⟩

theorem regular_coordinate : Regular P (coordinate P) := by
  refine Regular.scalar ?_
  rintro v ⟨x, rfl, hx⟩
  exact ⟨trivial, Json.proper_float.mpr hx⟩

theorem regular_point : Regular P (point P) := by
  refine Regular.object (by simp) ?_
  simp only [List.forall_mem_cons, List.not_mem_nil, IsEmpty.forall_iff, implies_true, and_true]
  exact ⟨regular_constant _, regular_coordinate.list⟩

theorem regular_featureProperties : Regular P (Schema.object featureProperties) := by
  refine Regular.object (by decide) (List.forall_iff_forall_mem.mp ?_)
  exact ⟨regular_string, regular_orNone, regular_orNone, regular_orNone, regular_string, regular_number.nullable,
    regular_string⟩

theorem regular_feature : Regular P (Schema.object (feature P)) := by
  refine Regular.object (by simp [feature]) (List.forall_iff_forall_mem.mp ?_)
  exact ⟨regular_constant _, regular_identity, regular_point, regular_featureProperties⟩

theorem regular_person : Regular P (Schema.object person) := by
  refine Regular.object (by decide) (List.forall_iff_forall_mem.mp ?_)
  exact ⟨regular_identity, regular_string, regular_flag, regular_orNone⟩

theorem regular_firePlan : Regular P (Schema.object (firePlan P)) := by
  refine Regular.object (by simp [firePlan]) (List.forall_iff_forall_mem.mp ?_)
  exact ⟨regular_identity, regular_orNone, regular_orNone, regular_orNone, regular_orNone, regular_orNone, regular_orNone,
    regular_orNone, regular_orNone, regular_coordinate.nullable, regular_coordinate.nullable, regular_string, regular_number⟩

theorem regular_klgvPlan : Regular P (Schema.object (klgvPlan P)) := by
  refine Regular.object (by simp [klgvPlan]) (List.forall_iff_forall_mem.mp ?_)
  exact ⟨regular_identity, regular_orNone, regular_string, regular_string, regular_string, regular_string,
    regular_coordinate.nullable, regular_coordinate.nullable, regular_string, regular_number⟩

theorem regular_phonebookEntry : Regular P (Schema.object phonebookEntry) := by
  refine Regular.object (by decide) (List.forall_iff_forall_mem.mp ?_)
  exact ⟨regular_identity, regular_orNone, regular_orNone, regular_orNone, regular_orNone, regular_string⟩

/-- A scope is written with its station or without one. -/
theorem regular_scope : Regular P fun v => departmentScope v ∨ stationScope v := by
  have hdepartment : Regular P departmentScope := by
    refine Regular.object (by simp) (List.forall_iff_forall_mem.mp ?_)
    exact ⟨regular_constant _, regular_identity⟩
  have hstation : Regular P stationScope := by
    refine Regular.object (by simp) (List.forall_iff_forall_mem.mp ?_)
    exact ⟨regular_constant _, regular_identity, regular_identity⟩
  have hdiffer : ∀ v w, stationScope v → departmentScope w → ¬ Same v w := by
    rintro v w ⟨f, rfl, hf⟩ ⟨g, rfl, hg⟩ hsame
    have hkey : text "station_id" ∈ g.map Prod.fst := hsame.mem_keys (by rw [hf.keys]; decide)
    rw [hg.keys] at hkey
    exact absurd hkey (by decide)
  refine ⟨fun {v w} hv hw hsame => ?_, fun {v} hv => hv.elim hdepartment.proper hstation.proper⟩
  rcases hv with hv | hv
  · rcases hw with hw | hw
    · exact hdepartment.fixed hv hw hsame
    · have hback := (Json.same_iff (hstation.proper hw) (hdepartment.proper hv)).mpr
        ((Json.same_iff (hdepartment.proper hv) (hstation.proper hw)).mp hsame).symm
      exact absurd hback (hdiffer w v hw hv)
  · rcases hw with hw | hw
    · exact absurd hsame (hdiffer v w hv hw)
    · exact hstation.fixed hv hw hsame

theorem regular_library : Regular P library := by
  refine Regular.object (by simp) (List.forall_iff_forall_mem.mp ?_)
  exact ⟨regular_identity, regular_string, regular_scope⟩

theorem regular_folder : Regular P (Schema.object folder) := by
  refine Regular.object (by decide) (List.forall_iff_forall_mem.mp ?_)
  exact ⟨regular_identity, regular_string, regular_identity.nullable⟩

/-- What is hashed of a document. -/
def comparedDocument : List (String × Schema) := document.filter fun c => c.1 ≠ "content_id"

theorem regular_comparedDocument : Regular P (Schema.object comparedDocument) := by
  have hcolumns : comparedDocument = [("id", identity), ("name", string), ("folder_id", Schema.nullable identity),
      ("size_bytes", number), ("sha256", string)] := by simp [comparedDocument, document]
  rw [hcolumns]
  refine Regular.object (by decide) (List.forall_iff_forall_mem.mp ?_)
  exact ⟨regular_identity, regular_string, regular_identity.nullable, regular_number, regular_string⟩

end

/-! ### Fingerprints -/

section

variable {P : Double → Prop} {code : DatasetTypeCode} {v w : Fields} {settings : Settings}

/-- What a fingerprint is taken of. -/
def comparedColumns (P : Double → Prop) : DatasetTypeCode → List (String × Schema)
  | .departmentHydrants =>
    [("type", constant "FeatureCollection"), ("features", Schema.list (fun _ => True) (Schema.object (feature P))),
      ("schema_version", number)]
  | .stationPersonnel => [("station_id", identity), ("people", Schema.list (fun _ => True) (Schema.object person))]
  | .departmentFirePlans => [("fire_plans", Schema.list (fun _ => True) (Schema.object (firePlan P)))]
  | .departmentKlgvPlans => [("klgv_plans", Schema.list (fun _ => True) (Schema.object (klgvPlan P)))]
  | .departmentPhonebook | .stationPhonebook =>
    [("entries", Schema.list (fun _ => True) (Schema.object phonebookEntry))]
  | .departmentFiles | .stationFiles =>
    [("library", library), ("folders", Schema.list (fun _ => True) (Schema.object folder)),
      ("documents", Schema.list (fun _ => True) (Schema.object comparedDocument))]
  | .dangerousGoods => [("_exact_source_sha256", string)]
  | _ => []

theorem regular_comparedColumns : Regular P (Schema.object (comparedColumns P code)) := by
  refine Regular.object ?_ ?_
  · cases code <;> simp [comparedColumns]
  · cases code with
    | departmentHydrants =>
      simp only [comparedColumns, List.forall_mem_cons, List.not_mem_nil, IsEmpty.forall_iff, implies_true, and_true]
      exact ⟨regular_constant _, regular_feature.list, regular_number⟩
    | stationPersonnel =>
      simp only [comparedColumns, List.forall_mem_cons, List.not_mem_nil, IsEmpty.forall_iff, implies_true, and_true]
      exact ⟨regular_identity, regular_person.list⟩
    | departmentFirePlans => simpa [comparedColumns] using regular_firePlan.list
    | departmentKlgvPlans => simpa [comparedColumns] using regular_klgvPlan.list
    | departmentPhonebook => simpa [comparedColumns] using regular_phonebookEntry.list
    | stationPhonebook => simpa [comparedColumns] using regular_phonebookEntry.list
    | departmentFiles =>
      simp only [comparedColumns, List.forall_mem_cons, List.not_mem_nil, IsEmpty.forall_iff, implies_true, and_true]
      exact ⟨regular_library, regular_folder.list, regular_comparedDocument.list⟩
    | stationFiles =>
      simp only [comparedColumns, List.forall_mem_cons, List.not_mem_nil, IsEmpty.forall_iff, implies_true, and_true]
      exact ⟨regular_library, regular_folder.list, regular_comparedDocument.list⟩
    | dangerousGoods => simpa [comparedColumns] using regular_string
    | _ => simp [comparedColumns]

theorem perm_sortedById (items : List Value) : (sortedById items).Perm items := List.perm_insertionSort _ _

theorem mem_sortedById {items : List Value} {item : Value} : item ∈ sortedById items ↔ item ∈ items :=
  (perm_sortedById items).mem_iff

/-- A record without one of its columns. -/
theorem record_without (name : String) {columns : List (String × Schema)} {f : Fields} (h : Record columns f) :
    Record (columns.filter fun c => c.1 ≠ name) (f.filter fun a => a.1 ≠ text name) := by
  induction h with
  | nil => exact .nil
  | @cons c a columns f hca hrest ih =>
    by_cases hname : c.1 = name
    · have htext : a.1 = text name := hname ▸ hca.1
      rw [List.filter_cons_of_neg (by simpa using hname), List.filter_cons_of_neg (by simpa using htext)]
      exact ih
    · have htext : a.1 ≠ text name := fun heq => hname (Json.text_injective (hca.1.symm.trans heq))
      rw [List.filter_cons_of_pos (by simpa using hname), List.filter_cons_of_pos (by simpa using htext)]
      exact .cons hca ih

theorem object_without {name : String} {columns : List (String × Schema)} {u : Value} (h : Schema.object columns u) :
    Schema.object (columns.filter fun c => c.1 ≠ name) (without name u) := by
  obtain ⟨f, rfl, hf⟩ := h
  exact ⟨_, rfl, record_without name hf⟩

/-- A record has the keys of its columns. -/
theorem hasKeys_object {columns : List (String × Schema)} {names : List String} (hnames : ∀ name ∈ names, name ∈ columns.map Prod.fst)
    {u : Value} (h : Schema.object columns u) : hasKeys names u = true := by
  obtain ⟨f, rfl, hf⟩ := h
  rw [hasKeys, List.all_eq_true]
  intro name hname
  rw [decide_eq_true_eq, hf.keys]
  exact List.mem_map_of_mem (hnames name hname)

theorem compared_fileLibrary {owner revision : Value} {folders documents : List Value} (howner : library owner)
    (hfolders : Entries folder folders) (hdocuments : Entries document documents) :
    compared [(text "library", owner), (text "source_revision", revision), (text "folders", .list folders),
        (text "documents", .list documents)] =
      [(text "library", owner), (text "folders", .list (sortedById folders)),
        (text "documents", .list (sortedById (documents.map (without "content_id"))))] := by
  have hsnapshot : isFileLibrarySnapshot (.dict [(text "library", owner), (text "source_revision", revision),
      (text "folders", .list folders), (text "documents", .list documents)]) =
        (hasKeys ["id", "name", "scope"] owner && folders.all (hasKeys ["id", "name", "parent_id"]) &&
          documents.all (hasKeys ["id", "name", "folder_id", "sha256", "size_bytes", "content_id"])) := rfl
  have hkeys : hasKeys ["id", "name", "scope"] owner = true := hasKeys_object (by simp) howner
  have hfolder : folders.all (hasKeys ["id", "name", "parent_id"]) = true :=
    List.all_eq_true.mpr fun u hu => hasKeys_object (by simp [folder]) (hfolders.entry u hu)
  have hdocument : documents.all (hasKeys ["id", "name", "folder_id", "sha256", "size_bytes", "content_id"]) = true :=
    List.all_eq_true.mpr fun u hu => hasKeys_object (by simp [document]) (hdocuments.entry u hu)
  rw [compared, hsnapshot, hkeys, hfolder, hdocument]
  rfl

theorem IsPayload.compared_object (h : IsPayload P code v) :
    Schema.object (comparedColumns P code) (.dict (compared v)) := by
  cases h with
  | hydrants hrows hnodup =>
    exact ⟨_, rfl, .cons ⟨rfl, rfl⟩ (.cons ⟨rfl, _, rfl, trivial, hrows.row⟩ (.cons ⟨rfl, 1, rfl⟩ .nil))⟩
  | personnel hstation hrows => exact ⟨_, rfl, .cons ⟨rfl, hstation⟩ (.cons ⟨rfl, _, rfl, trivial, hrows.row⟩ .nil)⟩
  | firePlans hrows hnodup => exact ⟨_, rfl, .cons ⟨rfl, _, rfl, trivial, hrows.row⟩ .nil⟩
  | klgvPlans hrows hnodup => exact ⟨_, rfl, .cons ⟨rfl, _, rfl, trivial, hrows.row⟩ .nil⟩
  | phonebook hcode hrows hnodup =>
    rcases hcode with rfl | rfl
    · exact ⟨_, rfl, .cons ⟨rfl, _, rfl, trivial, hrows.row⟩ .nil⟩
    · exact ⟨_, rfl, .cons ⟨rfl, _, rfl, trivial, hrows.row⟩ .nil⟩
  | dangerousGoods hdigest => exact ⟨_, rfl, .cons ⟨rfl, hdigest⟩ .nil⟩
  | fileLibrary hcode howner hrevision hfolders hdocuments =>
    rename_i owner revision folders documents
    rw [compared_fileLibrary howner hfolders hdocuments]
    have hrecord : Record [("library", library), ("folders", Schema.list (fun _ => True) (Schema.object folder)),
        ("documents", Schema.list (fun _ => True) (Schema.object comparedDocument))]
        [(text "library", owner), (text "folders", .list (sortedById folders)),
          (text "documents", .list (sortedById (documents.map (without "content_id"))))] := by
      refine .cons ⟨rfl, howner⟩ (.cons ⟨rfl, _, rfl, trivial, ?_⟩ (.cons ⟨rfl, _, rfl, trivial, ?_⟩ .nil))
      · exact fun u hu => hfolders.entry u (mem_sortedById.mp hu)
      · intro u hu
        obtain ⟨d, hd, rfl⟩ := List.mem_map.mp (mem_sortedById.mp hu)
        exact object_without (hdocuments.entry d hd)
    cases code with
    | departmentFiles => exact ⟨_, rfl, hrecord⟩
    | stationFiles => exact ⟨_, rfl, hrecord⟩
    | _ => cases hcode

/-- An uploaded source is compared by its digest, which nothing else carries. -/
theorem IsPayload.exactDigest_eq (h : IsPayload P code v) :
    code = .dangerousGoods ∧ (∃ digest, exactDigest v = some digest ∧ compared v = [(text "_exact_source_sha256", .str digest)]) ∨
      code ≠ .dangerousGoods ∧ exactDigest v = none := by
  cases h with
  | dangerousGoods hdigest =>
    obtain ⟨digest, rfl, -⟩ := hdigest
    exact .inl ⟨rfl, digest, rfl, rfl⟩
  | phonebook hcode hrows hnodup =>
    refine .inr ⟨?_, rfl⟩
    rcases hcode with rfl | rfl <;> simp
  | fileLibrary hcode howner hrevision hfolders hdocuments =>
    refine .inr ⟨?_, rfl⟩
    rintro rfl
    cases hcode
  | _ => exact .inr ⟨by simp, rfl⟩

/-- Two payloads of a dataset have one fingerprint exactly when what is compared is equal. -/
theorem sourceFingerprint_eq_iff (hsha : Function.Injective settings.sha256) (hfloat : FaithfulRepr settings.floatRepr P)
    (hv : IsPayload P code v) (hw : IsPayload P code w) :
    sourceFingerprintForPayload settings v = sourceFingerprintForPayload settings w ↔ compared v = compared w := by
  rcases hv.exactDigest_eq with ⟨hcode, digest, hdigest, hcompared⟩ | ⟨hcode, hdigest⟩
  · rcases hw.exactDigest_eq with ⟨-, digest', hdigest', hcompared'⟩ | ⟨hcode', -⟩
    · rw [sourceFingerprintForPayload, sourceFingerprintForPayload, hdigest, hdigest', hcompared, hcompared']
      simp
    · exact absurd hcode hcode'
  · rcases hw.exactDigest_eq with ⟨hcode', -⟩ | ⟨-, hdigest'⟩
    · exact absurd hcode' hcode
    · have hregular : Regular P (Schema.object (comparedColumns P code)) := regular_comparedColumns
      have hbytes := Json.asciiBytes_dumps_eq_iff hfloat (hregular.proper hv.compared_object) (hregular.proper hw.compared_object)
      rw [sourceFingerprintForPayload, sourceFingerprintForPayload, hdigest, hdigest', hsha.eq_iff, jsonBytes, jsonBytes, hbytes]
      constructor
      · intro h
        exact Value.dict.inj (hregular.fixed hv.compared_object hw.compared_object h)
      · intro h
        rw [h]

/-- Items with distinct identities are in order in one way only. -/
theorem sortedById_eq_iff {l m : List Value} (hnodup : (l.map idOf).Nodup) : sortedById l = sortedById m ↔ l.Perm m := by
  constructor
  · intro h
    exact (perm_sortedById l).symm.trans (h ▸ perm_sortedById m)
  · intro h
    have hsorted : ∀ k : List Value, (sortedById k).Pairwise fun a b => idOf a ≤ idOf b := fun k =>
      List.pairwise_insertionSort _ k
    have hperm : (sortedById l).Perm (sortedById m) := (perm_sortedById l).trans (h.trans (perm_sortedById m).symm)
    refine hperm.eq_of_pairwise (fun a b ha hb hab hba => ?_) (hsorted l) (hsorted m)
    have hmem : b ∈ l := h.mem_iff.mpr (mem_sortedById.mp hb)
    exact List.inj_on_of_nodup_map hnodup (mem_sortedById.mp ha) hmem (le_antisymm hab hba)

/-- Removing another member leaves the identity. -/
theorem idOf_without {name : String} (hname : name ≠ "id") {u : Value} : idOf (without name u) = idOf u := by
  cases u with
  | dict f =>
    have hfield : field (f.filter fun a => a.1 ≠ text name) (text "id") = field f (text "id") := by
      unfold field
      rw [List.find?_filter]
      congr 2
      funext a
      by_cases ha : a.1 = text "id"
      · have hne : text "id" ≠ text name := fun heq => hname (Json.text_injective heq).symm
        simp [ha, hne]
      · simp [ha]
    simp only [without, idOf, hfield]
  | _ => rfl

/-- Folders and documents in any order, and of documents what tablets receive. -/
def LogicallyEqual (v w : Fields) : Prop :=
  field v (text "library") = field w (text "library") ∧
    (itemsOf (field v (text "folders"))).Perm (itemsOf (field w (text "folders"))) ∧
    ((itemsOf (field v (text "documents"))).map (without "content_id")).Perm
      ((itemsOf (field w (text "documents"))).map (without "content_id"))

theorem IsPayload.of_isFileDataset (h : IsPayload P code v) (hcode : code.isFileDataset = true) :
    ∃ owner revision folders documents, v = [(text "library", owner), (text "source_revision", revision),
        (text "folders", .list folders), (text "documents", .list documents)] ∧
      library owner ∧ Entries folder folders ∧ Entries document documents := by
  cases h with
  | fileLibrary _ howner _ hfolders hdocuments => exact ⟨_, _, _, _, rfl, howner, hfolders, hdocuments⟩
  | phonebook hphonebook _ _ => rcases hphonebook with rfl | rfl <;> cases hcode
  | _ => cases hcode

theorem compared_eq_iff_of_fileLibrary (hcode : code.isFileDataset = true) (hv : IsPayload P code v) (hw : IsPayload P code w) :
    compared v = compared w ↔ LogicallyEqual v w := by
  obtain ⟨o, r, F, D, rfl, ho, hF, hD⟩ := hv.of_isFileDataset hcode
  obtain ⟨o', r', F', D', rfl, ho', hF', hD'⟩ := hw.of_isFileDataset hcode
  have hids : ((D.map (without "content_id")).map idOf).Nodup := by
    have hmap : (D.map (without "content_id")).map idOf = D.map idOf := by
      rw [List.map_map]
      exact List.map_congr_left fun d hd => idOf_without (by decide)
    rw [hmap]
    exact hD.nodup
  have hlogical : LogicallyEqual [(text "library", o), (text "source_revision", r), (text "folders", .list F),
        (text "documents", .list D)] [(text "library", o'), (text "source_revision", r'), (text "folders", .list F'),
        (text "documents", .list D')] ↔
      some o = some o' ∧ F.Perm F' ∧ (D.map (without "content_id")).Perm (D'.map (without "content_id")) := Iff.rfl
  rw [compared_fileLibrary ho hF hD, compared_fileLibrary ho' hF' hD', hlogical, ← sortedById_eq_iff hF.nodup,
    ← sortedById_eq_iff hids]
  simp

end

end FireDash.Publications.Payloads
