import FireDash.Publications.Payloads
import FireDash.Publications.Source

/-! The JSON payload of a frozen snapshot, and that every source builder returns a payload of its dataset. -/
namespace FireDash.Publications
open Json (Double Record Schema ScalarText Text Value text)
open Payloads (Fields IsPayload idOf)

/-- How identities, digests and coordinates are written. Texts of identities keep their order. -/
structure Writing (P : Double → Prop) where
  id : ℕ → Text
  hex : Digest → Text
  double : ℚ → Double
  id_lt : ∀ {m n}, m < n → id m < id n
  id_written : ∀ n, id n ≠ [] ∧ ScalarText (id n)
  hex_written : ∀ d, ScalarText (hex d)
  double_written : ∀ q, P (double q)

namespace Writing

section

variable {P : Double → Prop} (w : Writing P)

def optional : Option String → Value
  | some s => .str (text s)
  | none => .null

def coordinate (q : ℚ) : Value := .float (w.double q)

def longitude (location : Option Point) : Value := (location.map fun p => w.coordinate p.x).getD .null

def latitude (location : Option Point) : Value := (location.map fun p => w.coordinate p.y).getD .null

def feature (f : HydrantFeature) : Value :=
  .dict [(text "type", .str (text "Feature")), (text "id", .str (w.id f.id)),
    (text "geometry", .dict [(text "type", .str (text "Point")),
      (text "coordinates", .list [w.coordinate f.coordinates.x, w.coordinate f.coordinates.y])]),
    (text "properties", .dict [(text "external_identifier", .str (text f.externalIdentifier)), (text "street", optional f.street),
      (text "house_number", optional f.houseNumber), (text "location", optional f.location),
      (text "hydrant_type", .str (text f.hydrantType)), (text "diameter_mm", (f.diameterMm.map fun n : ℕ => Value.int n).getD .null),
      (text "status", .str (text f.status))])]

def person (r : PersonRecord) : Value :=
  .dict [(text "id", .str (w.id r.id)), (text "display_name", .str (text r.displayName)),
    (text "incident_commander_eligible", .bool r.incidentCommanderEligible), (text "commander_email", optional r.commanderEmail)]

def firePlan (r : FirePlanRecord) : Value :=
  .dict [(text "id", .str (w.id r.id)), (text "external_identifier", optional r.externalIdentifier),
    (text "object_name", optional r.objectName), (text "address", optional r.address), (text "postal_code", optional r.postalCode),
    (text "city", optional r.city), (text "fsd_location", optional r.fsdLocation), (text "bmz_location", optional r.bmzLocation),
    (text "rwa_info", optional r.rwaInfo), (text "longitude", w.longitude r.location), (text "latitude", w.latitude r.location),
    (text "sha256", .str (w.hex r.sha256)), (text "page_count", .int r.pageCount)]

def klgvPlan (r : KlgvPlanRecord) : Value :=
  .dict [(text "id", .str (w.id r.id)), (text "external_identifier", optional r.externalIdentifier),
    (text "object_name", .str (text r.objectName)), (text "address", .str (text r.address)),
    (text "postal_code", .str (text r.postalCode)), (text "city", .str (text r.city)), (text "longitude", w.longitude r.location),
    (text "latitude", w.latitude r.location), (text "sha256", .str (w.hex r.sha256)), (text "page_count", .int r.pageCount)]

def phonebookEntry (r : PhonebookRecord) : Value :=
  .dict [(text "id", .str (w.id r.id)), (text "first_name", optional r.firstName), (text "last_name", optional r.lastName),
    (text "organization_unit", optional r.organizationUnit), (text "function", optional r.function),
    (text "phone_number", .str (text r.phoneNumber))]

def scope : LibraryOwner → Value
  | .department d => .dict [(text "type", .str (text "DEPARTMENT")), (text "department_id", .str (w.id d))]
  | .station s => .dict [(text "type", .str (text "STATION")), (text "department_id", .str (w.id s.departmentId)),
      (text "station_id", .str (w.id s.id))]

def library (l : LibraryIdentity) : Value :=
  .dict [(text "id", .str (w.id l.id)), (text "name", .str (text l.name)), (text "scope", w.scope l.owner)]

def parent (id : Option ℕ) : Value := (id.map fun n => .str (w.id n)).getD .null

def folder (f : FolderRecord) : Value :=
  .dict [(text "id", .str (w.id f.id)), (text "name", .str (text f.name)), (text "parent_id", w.parent f.parentId)]

def document (d : FileRecord × ℕ) : Value :=
  .dict [(text "id", .str (w.id d.1.id)), (text "name", .str (text d.1.name)), (text "folder_id", w.parent d.1.folderId),
    (text "size_bytes", .int d.1.sizeBytes), (text "sha256", .str (w.hex d.1.sha256)), (text "content_id", .str (w.id d.2))]

/-- The payload of a snapshot of a distributed dataset. -/
def payload : Snapshot → Option Fields
  | .hydrants features => some [(text "type", .str (text "FeatureCollection")),
      (text "features", .list (features.map w.feature)), (text "schema_version", .int 1)]
  | .personnel station people => some [(text "station_id", .str (w.id station)), (text "people", .list (people.map w.person))]
  | .firePlans plans => some [(text "fire_plans", .list (plans.map w.firePlan))]
  | .klgvPlans plans => some [(text "klgv_plans", .list (plans.map w.klgvPlan))]
  | .phonebook entries => some [(text "entries", .list (entries.map w.phonebookEntry))]
  | .exactSource sha256 => some [(text "_exact_source_sha256", .str (w.hex sha256))]
  | .fileLibrary s => some [(text "library", w.library s.library), (text "source_revision", .int s.sourceRevision),
      (text "folders", .list (s.folders.map w.folder)), (text "documents", .list (s.documents.map w.document))]
  | .incidents | .items | .other _ => none

end

/-! ### Rows are written under their columns -/

section

variable {P : Double → Prop} (w : Writing P)

theorem identity_id (n : ℕ) : Payloads.identity (.str (w.id n)) := ⟨_, rfl, w.id_written n⟩

theorem string_text (s : String) : Payloads.string (.str (text s)) := ⟨_, rfl, Schema.scalarText_text s⟩

theorem string_hex (d : Digest) : Payloads.string (.str (w.hex d)) := ⟨_, rfl, w.hex_written d⟩

theorem orNone_optional (s : Option String) : Payloads.orNone (optional s) := by
  cases s with
  | none => exact .inl rfl
  | some s => exact .inr (string_text s)

theorem coordinate_coordinate (q : ℚ) : Payloads.coordinate P (w.coordinate q) := ⟨_, rfl, w.double_written q⟩

theorem nullable_longitude (location : Option Point) : Schema.nullable (Payloads.coordinate P) (w.longitude location) := by
  cases location with
  | none => exact .inl rfl
  | some p => exact .inr (w.coordinate_coordinate p.x)

theorem nullable_latitude (location : Option Point) : Schema.nullable (Payloads.coordinate P) (w.latitude location) := by
  cases location with
  | none => exact .inl rfl
  | some p => exact .inr (w.coordinate_coordinate p.y)

theorem nullable_parent (id : Option ℕ) : Schema.nullable Payloads.identity (w.parent id) := by
  cases id with
  | none => exact .inl rfl
  | some n => exact .inr (w.identity_id n)

theorem object_feature (f : HydrantFeature) : Schema.object (Payloads.feature P) (w.feature f) := by
  have hpoint : Payloads.point P (.dict [(text "type", .str (text "Point")),
      (text "coordinates", .list [w.coordinate f.coordinates.x, w.coordinate f.coordinates.y])]) := by
    refine ⟨_, rfl, .cons ⟨rfl, rfl⟩ (.cons ⟨rfl, _, rfl, rfl, ?_⟩ .nil)⟩
    simp only [List.forall_mem_cons, List.not_mem_nil, IsEmpty.forall_iff, implies_true, and_true]
    exact ⟨w.coordinate_coordinate _, w.coordinate_coordinate _⟩
  have hdiameter : Schema.nullable Payloads.number ((f.diameterMm.map fun n : ℕ => Value.int n).getD .null) := by
    cases f.diameterMm with
    | none => exact .inl rfl
    | some n => exact .inr ⟨n, rfl⟩
  exact ⟨_, rfl, .cons ⟨rfl, rfl⟩ (.cons ⟨rfl, w.identity_id _⟩ (.cons ⟨rfl, hpoint⟩ (.cons ⟨rfl, _, rfl,
    .cons ⟨rfl, string_text _⟩ (.cons ⟨rfl, orNone_optional _⟩ (.cons ⟨rfl, orNone_optional _⟩ (.cons ⟨rfl, orNone_optional _⟩
      (.cons ⟨rfl, string_text _⟩ (.cons ⟨rfl, hdiameter⟩ (.cons ⟨rfl, string_text _⟩ .nil))))))⟩ .nil)))⟩

theorem object_person (r : PersonRecord) : Schema.object Payloads.person (w.person r) :=
  ⟨_, rfl, .cons ⟨rfl, w.identity_id _⟩ (.cons ⟨rfl, string_text _⟩ (.cons ⟨rfl, _, rfl⟩ (.cons ⟨rfl, orNone_optional _⟩ .nil)))⟩

theorem object_firePlan (r : FirePlanRecord) : Schema.object (Payloads.firePlan P) (w.firePlan r) :=
  ⟨_, rfl, .cons ⟨rfl, w.identity_id _⟩ (.cons ⟨rfl, orNone_optional _⟩ (.cons ⟨rfl, orNone_optional _⟩
    (.cons ⟨rfl, orNone_optional _⟩ (.cons ⟨rfl, orNone_optional _⟩ (.cons ⟨rfl, orNone_optional _⟩ (.cons ⟨rfl, orNone_optional _⟩
      (.cons ⟨rfl, orNone_optional _⟩ (.cons ⟨rfl, orNone_optional _⟩ (.cons ⟨rfl, w.nullable_longitude _⟩
        (.cons ⟨rfl, w.nullable_latitude _⟩ (.cons ⟨rfl, w.string_hex _⟩ (.cons ⟨rfl, _, rfl⟩ .nil))))))))))))⟩

theorem object_klgvPlan (r : KlgvPlanRecord) : Schema.object (Payloads.klgvPlan P) (w.klgvPlan r) :=
  ⟨_, rfl, .cons ⟨rfl, w.identity_id _⟩ (.cons ⟨rfl, orNone_optional _⟩ (.cons ⟨rfl, string_text _⟩ (.cons ⟨rfl, string_text _⟩
    (.cons ⟨rfl, string_text _⟩ (.cons ⟨rfl, string_text _⟩ (.cons ⟨rfl, w.nullable_longitude _⟩ (.cons ⟨rfl, w.nullable_latitude _⟩
      (.cons ⟨rfl, w.string_hex _⟩ (.cons ⟨rfl, _, rfl⟩ .nil)))))))))⟩

theorem object_phonebookEntry (r : PhonebookRecord) : Schema.object Payloads.phonebookEntry (w.phonebookEntry r) :=
  ⟨_, rfl, .cons ⟨rfl, w.identity_id _⟩ (.cons ⟨rfl, orNone_optional _⟩ (.cons ⟨rfl, orNone_optional _⟩
    (.cons ⟨rfl, orNone_optional _⟩ (.cons ⟨rfl, orNone_optional _⟩ (.cons ⟨rfl, string_text _⟩ .nil)))))⟩

theorem library_library (l : LibraryIdentity) : Payloads.library (w.library l) := by
  refine ⟨_, rfl, .cons ⟨rfl, w.identity_id _⟩ (.cons ⟨rfl, string_text _⟩ (.cons ⟨rfl, ?_⟩ .nil))⟩
  cases l.owner with
  | department d => exact .inl ⟨_, rfl, .cons ⟨rfl, rfl⟩ (.cons ⟨rfl, w.identity_id _⟩ .nil)⟩
  | station s => exact .inr ⟨_, rfl, .cons ⟨rfl, rfl⟩ (.cons ⟨rfl, w.identity_id _⟩ (.cons ⟨rfl, w.identity_id _⟩ .nil))⟩

theorem object_folder (f : FolderRecord) : Schema.object Payloads.folder (w.folder f) :=
  ⟨_, rfl, .cons ⟨rfl, w.identity_id _⟩ (.cons ⟨rfl, string_text _⟩ (.cons ⟨rfl, w.nullable_parent _⟩ .nil))⟩

theorem object_document (d : FileRecord × ℕ) : Schema.object Payloads.document (w.document d) :=
  ⟨_, rfl, .cons ⟨rfl, w.identity_id _⟩ (.cons ⟨rfl, string_text _⟩ (.cons ⟨rfl, w.nullable_parent _⟩ (.cons ⟨rfl, _, rfl⟩
    (.cons ⟨rfl, w.string_hex _⟩ (.cons ⟨rfl, w.identity_id _⟩ .nil)))))⟩

end

/-! ### Source builders -/

section

variable {P : Double → Prop} (w : Writing P) {columns : List (String × Schema)} {α : Type} {i : α → ℕ} {write : α → Value} {l : List α}

theorem id_injective : Function.Injective w.id := by
  intro m n h
  rcases Nat.lt_trichotomy m n with hlt | heq | hlt
  · exact absurd h (w.id_lt hlt).ne
  · exact heq
  · exact absurd h.symm (w.id_lt hlt).ne

theorem mem_byId {a : α} : a ∈ byId i l ↔ a ∈ l := (List.perm_insertionSort _ l).mem_iff

/-- Rows ordered by their identities, where rows of one identity are written alike. -/
theorem rows_byId (hwrite : ∀ a, Schema.object columns (write a)) (hid : ∀ a, idOf (write a) = w.id (i a))
    (hcopies : ∀ a ∈ l, ∀ b ∈ l, i a = i b → write a = write b) : Payloads.Rows columns ((byId i l).map write) := by
  refine ⟨fun v hv => ?_, ?_, fun u hu v hv huv => ?_⟩
  · obtain ⟨a, -, rfl⟩ := List.mem_map.mp hv
    exact hwrite a
  · rw [List.pairwise_map]
    have hsorted : (byId i l).Pairwise fun a b => i a ≤ i b := List.pairwise_insertionSort _ l
    refine hsorted.imp fun {a b} hab => ?_
    rw [hid, hid]
    rcases Nat.lt_or_eq_of_le hab with hlt | heq
    · exact (w.id_lt hlt).le
    · rw [heq]
  · obtain ⟨a, ha, rfl⟩ := List.mem_map.mp hu
    obtain ⟨b, hb, rfl⟩ := List.mem_map.mp hv
    rw [hid, hid] at huv
    exact hcopies a (mem_byId.mp ha) b (mem_byId.mp hb) (w.id_injective huv)

theorem nodup_byId (hid : ∀ a, idOf (write a) = w.id (i a)) (hnodup : (l.map i).Nodup) : (((byId i l).map write).map idOf).Nodup := by
  have hmap : ((byId i l).map write).map idOf = ((byId i l).map i).map w.id := by
    rw [List.map_map, List.map_map]
    exact List.map_congr_left fun a _ => hid a
  rw [hmap]
  exact ((((List.perm_insertionSort _ l).map i).nodup_iff).mpr hnodup).map w.id_injective

/-- The rows of a table have distinct identities. -/
theorem rows_table (hwrite : ∀ a, Schema.object columns (write a)) (hid : ∀ a, idOf (write a) = w.id (i a))
    (hnodup : (l.map i).Nodup) : Payloads.Rows columns ((byId i l).map write) :=
  w.rows_byId hwrite hid fun a ha b hb hab => by rw [List.inj_on_of_nodup_map hnodup ha hb hab]

theorem nodup_table (hid : ∀ a, idOf (write a) = w.id (i a)) (hnodup : (l.map i).Nodup) : ((byId i l).map write).Nodup :=
  (w.nodup_byId hid hnodup).of_map idOf

end

end Writing

/-- Rows of one table have distinct identities, and an assignment refers to the row of its person. -/
structure Canonical.Keyed (canonical : Canonical) : Prop where
  hydrants : (canonical.hydrants.map (·.id)).Nodup
  firePlans : (canonical.firePlans.map (·.id)).Nodup
  klgvPlans : (canonical.klgvPlans.map (·.id)).Nodup
  phonebook : (canonical.phonebook.map (·.id)).Nodup
  people : ∀ a ∈ canonical.assignments, ∀ b ∈ canonical.assignments, a.person.id = b.person.id → a.person = b.person
  entries : ∀ l ∈ canonical.libraries, (l.entries.map (·.id)).Nodup

section

variable {P : Double → Prop} (w : Writing P) {env : Env} {canonical : Canonical} {definition : DatasetTypeDefinition} {target : Target}
  {snapshot : Snapshot} {fields : Fields}

theorem nodup_filter_map {α : Type} {id : α → ℕ} {l : List α} (h : (l.map id).Nodup) (p : α → Bool) : ((l.filter p).map id).Nodup :=
  (List.filter_sublist.map id).nodup h

/-- What is kept of a list is in its order. -/
theorem sublist_filterMap {α β γ : Type} {f : α → Option β} {g : β → γ} {h : α → γ} {l : List α}
    (hf : ∀ a b, f a = some b → g b = h a) : List.Sublist ((l.filterMap f).map g) (l.map h) := by
  induction l with
  | nil => exact .slnil
  | cons a l ih =>
    cases hfa : f a with
    | none =>
      rw [List.filterMap_cons_none hfa, List.map_cons]
      exact ih.cons _
    | some b =>
      rw [List.filterMap_cons_some hfa, List.map_cons, List.map_cons, hf a b hfa]
      exact ih.cons_cons _

theorem isPayload_hydrants (hkeyed : canonical.Keyed) (h : hydrantSourcePayload canonical target = .ok snapshot)
    (hfields : w.payload snapshot = some fields) : IsPayload P .departmentHydrants fields := by
  simp only [hydrantSourcePayload, check_eq_ok, pure_eq_ok] at h
  obtain ⟨-, rfl⟩ := h
  simp only [Writing.payload, Option.some.injEq] at hfields
  subst hfields
  rw [List.map_map]
  refine .hydrants ?_ ?_
  · exact w.rows_table (fun _ => w.object_feature _) (fun _ => rfl) (nodup_filter_map hkeyed.hydrants _)
  · exact w.nodup_table (fun _ => rfl) (nodup_filter_map hkeyed.hydrants _)

theorem isPayload_firePlans (hkeyed : canonical.Keyed) (h : firePlanSourcePayload canonical target = .ok snapshot)
    (hfields : w.payload snapshot = some fields) : IsPayload P .departmentFirePlans fields := by
  simp only [firePlanSourcePayload, check_eq_ok, pure_eq_ok] at h
  obtain ⟨-, rfl⟩ := h
  simp only [Writing.payload, Option.some.injEq] at hfields
  subst hfields
  rw [List.map_map]
  refine .firePlans ?_ ?_
  · exact w.rows_table (fun _ => w.object_firePlan _) (fun _ => rfl) (nodup_filter_map hkeyed.firePlans _)
  · exact w.nodup_table (fun _ => rfl) (nodup_filter_map hkeyed.firePlans _)

theorem isPayload_klgvPlans (hkeyed : canonical.Keyed) (h : klgvSourcePayload canonical target = .ok snapshot)
    (hfields : w.payload snapshot = some fields) : IsPayload P .departmentKlgvPlans fields := by
  simp only [klgvSourcePayload, check_eq_ok, pure_eq_ok] at h
  obtain ⟨-, rfl⟩ := h
  simp only [Writing.payload, Option.some.injEq] at hfields
  subst hfields
  rw [List.map_map]
  refine .klgvPlans ?_ ?_
  · exact w.rows_table (fun _ => w.object_klgvPlan _) (fun _ => rfl) (nodup_filter_map hkeyed.klgvPlans _)
  · exact w.nodup_table (fun _ => rfl) (nodup_filter_map hkeyed.klgvPlans _)

theorem isPayload_personnel {now : Time} (hkeyed : canonical.Keyed) (h : personnelSourcePayload now canonical target = .ok snapshot)
    (hfields : w.payload snapshot = some fields) : IsPayload P .stationPersonnel fields := by
  simp only [personnelSourcePayload, bind_eq_ok, pure_eq_ok] at h
  obtain ⟨station, -, rfl⟩ := h
  simp only [Writing.payload, Option.some.injEq] at hfields
  subst hfields
  rw [List.map_map]
  refine .personnel (w.identity_id _) (w.rows_byId (fun _ => w.object_person _) (fun _ => rfl) fun a ha b hb hab => ?_)
  have hperson := hkeyed.people a (List.mem_of_mem_filter ha) b (List.mem_of_mem_filter hb) hab
  simp only [Function.comp_apply, hperson]

theorem isPayload_phonebook {code : DatasetTypeCode} (hcode : code = .departmentPhonebook ∨ code = .stationPhonebook)
    (hkeyed : canonical.Keyed) (h : phonebookSourcePayload canonical target = .ok snapshot)
    (hfields : w.payload snapshot = some fields) : IsPayload P code fields := by
  simp only [phonebookSourcePayload, bind_eq_ok, pure_eq_ok] at h
  obtain ⟨entries, hentries, rfl⟩ := h
  simp only [Writing.payload, Option.some.injEq] at hfields
  subst hfields
  obtain ⟨p, rfl⟩ : ∃ p, entries = (byId (·.id) (canonical.phonebook.filter p)).map fun e =>
      { id := e.id
        firstName := orNone e.firstName
        lastName := orNone e.lastName
        organizationUnit := orNone e.organizationUnit
        function := orNone e.function
        phoneNumber := e.phoneNumber } := by
    unfold phonebookEntries at hentries
    cases hstation : target.station with
    | none =>
      simp only [hstation, pure_eq_ok] at hentries
      exact ⟨_, hentries.symm⟩
    | some station =>
      simp only [hstation] at hentries
      split_ifs at hentries with howner
      · cases hentries
      · simp only [pure_eq_ok] at hentries
        exact ⟨_, hentries.symm⟩
  rw [List.map_map]
  refine .phonebook hcode ?_ ?_
  · exact w.rows_table (fun _ => w.object_phonebookEntry _) (fun _ => rfl) (nodup_filter_map hkeyed.phonebook _)
  · exact w.nodup_table (fun _ => rfl) (nodup_filter_map hkeyed.phonebook _)

theorem isPayload_dangerousGoods (h : dangerousGoodsSourcePayload canonical target = .ok snapshot)
    (hfields : w.payload snapshot = some fields) : IsPayload P .dangerousGoods fields := by
  simp only [dangerousGoodsSourcePayload, check_eq_ok] at h
  obtain ⟨-, h⟩ := h
  cases hlatest : latestRevision canonical.dangerousGoods with
  | none =>
    rw [hlatest] at h
    cases h
  | some source =>
    simp only [hlatest, pure_eq_ok] at h
    subst h
    simp only [Writing.payload, Option.some.injEq] at hfields
    subst hfields
    exact .dangerousGoods (w.string_hex _)

theorem isPayload_fileLibrary {code : DatasetTypeCode} (hcode : code.isFileDataset = true) (hkeyed : canonical.Keyed)
    (h : fileLibrarySource canonical target = .ok snapshot) (hfields : w.payload snapshot = some fields) :
    IsPayload P code fields := by
  obtain ⟨owner, rfl⟩ : ∃ owner, snapshot = .fileLibrary (snapshotForLibrary (canonical.libraryOf owner)) := by
    unfold fileLibrarySource at h
    split at h
    · cases h
    · exact ⟨_, (Except.ok.inj h).symm⟩
    · exact ⟨_, (Except.ok.inj h).symm⟩
  have hnodup : ((canonical.libraryOf owner).entries.map (·.id)).Nodup := by
    unfold Canonical.libraryOf
    cases hfind : canonical.libraries.find? fun l => l.owner = owner with
    | none => exact .nil
    | some l => exact hkeyed.entries l (List.mem_of_find?_eq_some hfind)
  simp only [Writing.payload, snapshotForLibrary, Option.some.injEq] at hfields
  subst hfields
  have hsorted : ((byId (·.id) (canonical.libraryOf owner).entries).map (·.id)).Nodup :=
    ((List.perm_insertionSort _ _).map _).nodup_iff.mpr hnodup
  refine .fileLibrary hcode (w.library_library _) ⟨_, rfl⟩ ⟨fun v hv => ?_, ?_⟩ ⟨fun v hv => ?_, ?_⟩
  · obtain ⟨f, -, rfl⟩ := List.mem_map.mp hv
    exact w.object_folder f
  · have hids := (nodup_filter_map hsorted fun e => e.content.isNone).map w.id_injective
    rw [List.map_map] at hids
    rw [List.map_map, List.map_map]
    exact hids
  · obtain ⟨d, -, rfl⟩ := List.mem_map.mp hv
    exact w.object_document d
  · have hids := hsorted.map w.id_injective
    rw [List.map_map] at hids
    rw [List.map_map]
    refine (sublist_filterMap fun e d hd => ?_).nodup hids
    obtain ⟨c, -, rfl⟩ := Option.map_eq_some_iff.mp hd
    rfl

/-- A source builder returns a payload of its dataset. -/
theorem isPayload_of_buildSourcePayload (hkeyed : env.canonical.Keyed) (h : buildSourcePayload env definition target = .ok snapshot)
    (hfields : w.payload snapshot = some fields) : IsPayload P definition.code fields := by
  unfold buildSourcePayload at h
  cases hcode : definition.code with
  | departmentFiles =>
    rw [hcode] at h
    exact isPayload_fileLibrary w rfl hkeyed h hfields
  | stationFiles =>
    rw [hcode] at h
    exact isPayload_fileLibrary w rfl hkeyed h hfields
  | dangerousGoods =>
    rw [hcode] at h
    exact isPayload_dangerousGoods w h hfields
  | departmentHydrants =>
    rw [hcode] at h
    exact isPayload_hydrants w hkeyed h hfields
  | departmentFirePlans =>
    rw [hcode] at h
    exact isPayload_firePlans w hkeyed h hfields
  | stationPersonnel =>
    rw [hcode] at h
    exact isPayload_personnel w hkeyed h hfields
  | departmentPhonebook =>
    rw [hcode] at h
    exact isPayload_phonebook w (.inl rfl) hkeyed h hfields
  | stationPhonebook =>
    rw [hcode] at h
    exact isPayload_phonebook w (.inr rfl) hkeyed h hfields
  | departmentKlgvPlans =>
    rw [hcode] at h
    exact isPayload_klgvPlans w hkeyed h hfields
  | testDepartmentIncidents =>
    rw [hcode] at h
    cases h
    cases hfields
  | testSystemDataset =>
    rw [hcode] at h
    cases h
    cases hfields
  | unregistered code =>
    rw [hcode] at h
    cases h

/-! ### What a fingerprint tells apart -/

/-- Only the payloads of file libraries are hashed without some of their members. -/
theorem compared_of_not_file {code : DatasetTypeCode} (hcode : code.isFileDataset = false) (h : IsPayload P code fields) :
    Payloads.compared fields = fields := by
  cases h with
  | fileLibrary hfile _ _ _ _ =>
    rw [hfile] at hcode
    cases hcode
  | _ => rfl

/-- Two sources of a dataset, read at any two moments and of any scopes, have one fingerprint exactly when tablets receive
the same: equal payloads, or of file libraries the same folders and documents in any order. -/
theorem sources_told_apart {settings : Payloads.Settings} (hsha : Function.Injective settings.sha256)
    (hfloat : Json.FaithfulRepr settings.floatRepr P) {env' : Env} {target' : Target} {snapshot' : Snapshot} {fields' : Fields}
    (hkeyed : env.canonical.Keyed) (hkeyed' : env'.canonical.Keyed)
    (h : buildSourcePayload env definition target = .ok snapshot) (h' : buildSourcePayload env' definition target' = .ok snapshot')
    (hfields : w.payload snapshot = some fields) (hfields' : w.payload snapshot' = some fields') :
    Payloads.sourceFingerprintForPayload settings fields = Payloads.sourceFingerprintForPayload settings fields' ↔
      if definition.code.isFileDataset = true then Payloads.LogicallyEqual fields fields' else fields = fields' := by
  have hv := isPayload_of_buildSourcePayload w hkeyed h hfields
  have hv' := isPayload_of_buildSourcePayload w hkeyed' h' hfields'
  rw [Payloads.sourceFingerprint_eq_iff hsha hfloat hv hv']
  cases hcode : definition.code.isFileDataset with
  | true =>
    rw [if_pos rfl]
    exact Payloads.compared_eq_iff_of_fileLibrary hcode hv hv'
  | false =>
    rw [if_neg Bool.false_ne_true, compared_of_not_file hcode hv, compared_of_not_file hcode hv']

end

/-! ### A changed number -/

theorem lt_append (s : Text) (c : ℕ) (t : Text) : s < s ++ c :: t := by
  induction s with
  | nil => exact List.nil_lt_cons c t
  | cons d s ih => exact List.cons_lt_cons_iff.mpr (.inr ⟨rfl, ih⟩)

/-- Identities are written in unary. -/
def unary : Writing fun x => x = .finite 0 0 where
  id n := List.replicate (n + 1) 49
  hex d := text (toString d.toNat)
  double _ := .finite 0 0
  id_lt {m n} h := by
    obtain ⟨k, rfl⟩ := Nat.exists_eq_add_of_lt h
    have hlonger : List.replicate (m + k + 1 + 1) 49 = List.replicate (m + 1) 49 ++ 49 :: List.replicate k 49 := by
      rw [← List.replicate_succ, ← List.replicate_add]
      congr 1
      omega
    rw [hlonger]
    exact lt_append _ _ _
  id_written n := by
    refine ⟨List.cons_ne_nil _ _, fun c hc => .inl ?_⟩
    rw [List.eq_of_mem_replicate hc]
    decide
  hex_written _ := Schema.scalarText_text _
  double_written _ := rfl

def unhashed : Payloads.Settings := { sha256 := List.map UInt8.toNat, floatRepr := fun _ => text "0.0" }

theorem unhashed_faithful : Json.FaithfulRepr unhashed.floatRepr fun x => x = .finite 0 0 where
  number _ := show ∀ c ∈ text "0.0", Json.isNumberChar c = true by decide
  opens _ := ⟨48, text ".0", rfl, .inl rfl⟩
  marked _ := .inl (show 46 ∈ text "0.0" by decide)
  injective hx hy _ := hx.trans hy.symm

def controlRoom (number : String) : Env where
  now := 0
  canonical := { phonebook := [⟨7, 1, none, "", "", "", "Control room", number⟩] }

theorem keyed_controlRoom (number : String) : (controlRoom number).canonical.Keyed where
  hydrants := List.nodup_nil
  firePlans := List.nodup_nil
  klgvPlans := List.nodup_nil
  phonebook := List.nodup_singleton _
  people _ ha := absurd ha List.not_mem_nil
  entries _ hl := absurd hl List.not_mem_nil

/-- The registered definition of the phonebook of a department. -/
def phonebookDefinition : DatasetTypeDefinition where
  code := .departmentPhonebook
  scope := .department
  artifactFormat := .json
  currentSchemaVersion := 1
  summarySchema := [(.entryCount, .itemCount), (.sourceRevision, .nonNegativeInteger)]
  required := false
  supportedSchemaVersions := [1]

theorem changed_number_told_apart :
    let sources (number : String) : Snapshot := .phonebook [⟨7, none, none, none, some "Control room", number⟩]
    (∀ number, buildSourcePayload (controlRoom number) phonebookDefinition ⟨some 1, none, .departmentPhonebook⟩ = .ok (sources number)) ∧
      ∃ fields fields', unary.payload (sources "112") = some fields ∧ unary.payload (sources "113") = some fields' ∧
        Payloads.sourceFingerprintForPayload unhashed fields ≠ Payloads.sourceFingerprintForPayload unhashed fields' := by
  have hsha : Function.Injective unhashed.sha256 := List.map_injective_iff.mpr fun x y hxy => UInt8.toNat_inj.mp hxy
  have hsource : ∀ number, buildSourcePayload (controlRoom number) phonebookDefinition ⟨some 1, none, .departmentPhonebook⟩ =
      .ok (.phonebook [⟨7, none, none, none, some "Control room", number⟩]) := fun _ => rfl
  refine ⟨hsource, _, _, rfl, rfl, fun hsame => ?_⟩
  have hequal := (sources_told_apart unary hsha unhashed_faithful (keyed_controlRoom "112") (keyed_controlRoom "113")
    (hsource "112") (hsource "113") rfl rfl).mp hsame
  rw [if_neg (by decide)] at hequal
  simp only [List.map_cons, List.map_nil, List.cons.injEq, Prod.mk.injEq, Value.list.injEq, Writing.phonebookEntry, Value.dict.injEq,
    Value.str.injEq, true_and, and_true] at hequal
  exact absurd (Json.text_injective hequal) (by decide)

end FireDash.Publications
