import FireDash.Lib.JsonSchema
import FireDash.ReportTransfer.Envelopes
import Mathlib.Data.List.TakeWhile

/-! What a validated report document is: every value of it, by its place and its kind. -/
namespace FireDash.ReportTransfer

open Json (Text Value Schema ScalarText IsScalar)
open Json.Schema (record Tame)

/-! ### Schemas -/

def plain (settings : Settings) (minimum maximum : ℕ) : Schema := .str fun s =>
  minimum ≤ s.length ∧ s.length ≤ maximum ∧ 60 ∉ s ∧ 62 ∉ s ∧ ∀ c ∈ s, c = 10 ∨ c = 9 ∨ settings.isControl c = false

def keySchema : Schema := .str fun s => isName s = true

def named (name : String) : Schema := .str fun s => s = Json.text name

inductive ValueKind where
  | text
  | integer
  | decimal
  | boolean
  | date
  | datetime
  deriving DecidableEq

def ValueKind.name : ValueKind → String
  | .text => "text"
  | .integer => "integer"
  | .decimal => "decimal"
  | .boolean => "boolean"
  | .date => "date"
  | .datetime => "datetime"

def ValueKind.schema (settings : Settings) : ValueKind → Schema
  | .text => plain settings 0 4000
  | .integer => fun v => ∃ n, v = .int n ∧ n.natAbs ≤ 9007199254740991
  | .decimal => .str fun s => s.length ≤ 32 ∧ isDecimal s = true
  | .boolean => fun v => ∃ b, v = .bool b
  | .date => plain settings 1 10
  | .datetime => plain settings 1 35

def typedSchema (settings : Settings) : Schema := fun v =>
  ∃ kind : ValueKind, record [("type", named kind.name), ("value", kind.schema settings)] [] v

def fieldSchema (settings : Settings) : Schema :=
  record [("key", keySchema), ("label", plain settings 1 200), ("value", typedSchema settings)] []

def fieldsSchema (settings : Settings) : Schema := .list (· ≤ 100) (fieldSchema settings)

def columnSchema (settings : Settings) : Schema := record [("key", keySchema), ("label", plain settings 1 80)] []

def blockRecord (kind : String) (content : List (String × Schema)) : Schema :=
  record (("key", keySchema) :: ("kind", named kind) :: content) []

def tableSchema (settings : Settings) : Schema := fun v => ∃ columns, 1 ≤ columns ∧ columns ≤ 8 ∧
  blockRecord "table" [("columns", .list (· = columns) (columnSchema settings)),
    ("rows", .list (· ≤ 500) (.list (· = columns) (typedSchema settings)))] v

def referenceSchema (ids : List Uuid) : Schema := .str (· ∈ ids)

def blockSchema (settings : Settings) (ids : List Uuid) : Schema := fun v =>
  blockRecord "text" [("text", plain settings 0 20000)] v ∨ blockRecord "fields" [("fields", fieldsSchema settings)] v ∨
    tableSchema settings v ∨ blockRecord "attachment_refs" [("attachment_ids", .list (· ≤ 32) (referenceSchema ids))] v

def sectionSchema (settings : Settings) (ids : List Uuid) : Schema :=
  record [("key", keySchema), ("title", plain settings 1 200), ("blocks", .list (· ≤ 50) (blockSchema settings ids))] []

def attachmentSchema (settings : Settings) (id : Uuid) : Schema :=
  record [("id", .str (· = id)), ("title", plain settings 1 200), ("caption", plain settings 0 2000)] []

/-- The described attachments have these identifiers, in this order. -/
def attachmentsSchema (settings : Settings) (ids : List Uuid) : Schema := fun v =>
  ∃ items, v = .list items ∧ List.Forall₂ (attachmentSchema settings) ids items

def finalizationSchema (settings : Settings) (ids : List Uuid) : Schema :=
  record [("author", record [("id", plain settings 1 128), ("display_name", plain settings 1 160)] []),
    ("finalized_at", plain settings 1 35)] [("signature_attachment_id", referenceSchema ids)]

def documentSchema (settings : Settings) (ids : List Uuid) (reportId : Uuid) : Schema :=
  record [("report_id", .str (· = reportId)), ("schema_version", fun v => ∃ n, v = .int n ∧ n = 1),
    ("report_type", plain settings 1 80), ("title", plain settings 1 200), ("header", fieldsSchema settings),
    ("sections", .list (· ≤ 50) (sectionSchema settings ids)), ("attachments", attachmentsSchema settings ids),
    ("finalization", finalizationSchema settings ids)] []

/-! ### The checks establish the schemas -/

section

variable {settings : Settings} {value : Value} {fields : Fields} {ids : List Uuid}

theorem asText_eq_ok {value : Option Value} {s : Text} : asText value = .ok s ↔ value = some (.str s) := by
  unfold asText
  split
  · simp [eq_comm]
  · rename_i hno
    constructor
    · nofun
    · intro h
      exact absurd h (hno s)

theorem identifier_eq_ok {t id : Text} : identifier t = .ok id ↔ isCanonicalUuid t = true ∧ t = id := by
  simp only [identifier, bind_eq_ok, require_eq_ok, pure_eq_ok]
  constructor
  · rintro ⟨_, h, hid⟩
    exact ⟨h, hid⟩
  · rintro ⟨h, hid⟩
    exact ⟨(), h, hid⟩

theorem member_eq_ok {name : String} {v : Value} : member fields name = .ok v ↔ lookup fields (Json.text name) = some v := by
  unfold member
  split <;> simp_all

theorem plainText_ok {minimum maximum : ℕ} {s : Text} (h : plainText settings minimum maximum value = .ok s) :
    plain settings minimum maximum value := by
  simp only [plainText, bind_eq_ok, asText_eq_ok, require_eq_ok, pure_eq_ok] at h
  obtain ⟨t, ht, -, hlength, -, hmarkup, -, hplain, rfl⟩ := h
  refine ⟨t, Option.some.inj ht, hlength.1, hlength.2, hmarkup.1, hmarkup.2, fun c hc => ?_⟩
  have hall := List.all_eq_true.mp hplain c hc
  simpa using hall

theorem keyText_ok {s : Text} (h : keyText value = .ok s) : keySchema value := by
  simp only [keyText, bind_eq_ok, asText_eq_ok, require_eq_ok, pure_eq_ok] at h
  obtain ⟨t, ht, -, hname, rfl⟩ := h
  exact ⟨t, Option.some.inj ht, hname⟩

theorem items_ok {minimum maximum : ℕ} {l : List Value} (h : items minimum maximum value = .ok l) :
    value = .list l ∧ minimum ≤ l.length ∧ l.length ≤ maximum := by
  unfold items at h
  split at h
  · simp only [bind_eq_ok, require_eq_ok, pure_eq_ok] at h
    obtain ⟨-, hlength, rfl⟩ := h
    exact ⟨rfl, hlength⟩
  · cases h

/-- The keys of a shape are those of a record; its members are then checked one by one. -/
theorem shape_ok {required optional : List String} (h : shape required optional value = .ok fields) :
    value = .dict fields ∧ (∀ name ∈ required, ∃ w, lookup fields (Json.text name) = some w) ∧
      ∀ key ∈ fields.map Prod.fst, ∃ name ∈ required ++ optional, key = Json.text name := by
  simp only [shape, bind_eq_ok, require_eq_ok, pure_eq_ok] at h
  obtain ⟨fields', hdict, -, ⟨hrequired, hkeys⟩, rfl⟩ := h
  cases value with
  | dict members =>
    cases hdict
    refine ⟨rfl, fun name hname => ?_, fun key hkey => ?_⟩
    · obtain ⟨f, hf, hfname⟩ := List.mem_map.mp (hrequired _ (List.mem_map_of_mem hname))
      have hfound : (fields'.find? fun g => g.1 = Json.text name).isSome = true :=
        List.find?_isSome.mpr ⟨f, hf, by simpa using hfname⟩
      obtain ⟨g, hg⟩ := Option.isSome_iff_exists.mp hfound
      exact ⟨g.2, by rw [lookup, hg, Option.map_some]⟩
    · rcases hkeys key hkey with hmem | hmem
      · obtain ⟨name, hname, rfl⟩ := List.mem_map.mp hmem
        exact ⟨name, List.mem_append_left _ hname, rfl⟩
      · obtain ⟨name, hname, rfl⟩ := List.mem_map.mp hmem
        exact ⟨name, List.mem_append_right _ hname, rfl⟩
  | _ => cases hdict

/-- A shape whose members satisfy their schemas is a record. -/
theorem record_of_shape {required optional : List (String × Schema)}
    (h : shape (required.map Prod.fst) (optional.map Prod.fst) value = .ok fields)
    (hmembers : ∀ m ∈ required ++ optional, ∀ w, lookup fields (Json.text m.1) = some w → m.2 w) :
    record required optional value := by
  obtain ⟨rfl, hrequired, hkeys⟩ := shape_ok h
  refine ⟨fields, rfl, fun key hkey => ?_, fun m hm => ?_, fun m hm => hmembers m (List.mem_append_right _ hm)⟩
  · obtain ⟨name, hname, rfl⟩ := hkeys key hkey
    rw [← List.map_append] at hname
    obtain ⟨m, hm, rfl⟩ := List.mem_map.mp hname
    exact ⟨m, hm, rfl⟩
  · obtain ⟨w, hw⟩ := hrequired m.1 (List.mem_map_of_mem hm)
    exact ⟨w, hw, hmembers m (List.mem_append_left _ hm) w hw⟩

theorem discard_eq_ok {α : Type} {x : Except Error α} {u : PUnit} : discard x = .ok u ↔ ∃ a, x = .ok a := by
  cases x with
  | ok a => simp [discard, Functor.discard, Functor.mapConst, Except.map, Function.const]
  | error e => simp [discard, Functor.discard, Functor.mapConst, Except.map]

/-- What a member is, once it was read. -/
theorem schema_of_lookup {name : String} {v w : Value} {S : Schema} (hread : lookup fields (Json.text name) = some v) (hS : S v)
    (hw : lookup fields (Json.text name) = some w) : S w := by
  rw [hread] at hw
  cases hw
  exact hS

theorem timestamp_ok {u : Unit} (h : timestamp settings value = .ok u) : plain settings 1 35 value := by
  simp only [timestamp, bind_eq_ok] at h
  obtain ⟨s, hs, -⟩ := h
  exact plainText_ok hs

theorem typedValue_ok {u : Unit} (h : typedValue settings value = .ok u) : typedSchema settings value := by
  simp only [typedValue, bind_eq_ok, asText_eq_ok, member_eq_ok] at h
  obtain ⟨fields, hshape, kind, hkind, v, hv, h⟩ := h
  have hrecord : ∀ k : ValueKind, kind = Json.text k.name → k.schema settings v → typedSchema settings value := by
    rintro k rfl hk
    refine ⟨k, record_of_shape hshape fun m hm w hw => ?_⟩
    simp only [List.append_nil, List.mem_cons, List.not_mem_nil, or_false] at hm
    rcases hm with rfl | rfl
    · exact schema_of_lookup hkind ⟨_, rfl, rfl⟩ hw
    · exact schema_of_lookup hv hk hw
  split_ifs at h with htext hinteger hdecimal hboolean hdate hdatetime
  · obtain ⟨s, hs⟩ := discard_eq_ok.mp h
    exact hrecord .text htext (plainText_ok hs)
  · split at h
    · rename_i n
      exact hrecord .integer hinteger ⟨n, rfl, require_eq_ok.mp h⟩
    · cases h
  · split at h
    · rename_i s
      obtain ⟨hlength, hform⟩ := require_eq_ok.mp h
      exact hrecord .decimal hdecimal ⟨s, rfl, hlength, hform⟩
    · cases h
  · split at h
    · rename_i b
      exact hrecord .boolean hboolean ⟨b, rfl⟩
    · cases h
  · obtain ⟨s, hs, -⟩ := bind_eq_ok.mp h
    exact hrecord .date hdate (plainText_ok hs)
  · exact hrecord .datetime hdatetime (timestamp_ok h)

theorem labelledField_ok {key : Text} (h : labelledField settings value = .ok key) : fieldSchema settings value := by
  simp only [labelledField, bind_eq_ok, member_eq_ok, discard_eq_ok] at h
  obtain ⟨fields, hshape, k, hk, key', hkey, label, hlabel, -, ⟨s, hs⟩, v, hv, _, htyped, -⟩ := h
  refine record_of_shape hshape fun m hm w hw => ?_
  simp only [List.append_nil, List.mem_cons, List.not_mem_nil, or_false] at hm
  rcases hm with rfl | rfl | rfl
  · exact schema_of_lookup hk (keyText_ok hkey) hw
  · exact schema_of_lookup hlabel (plainText_ok hs) hw
  · exact schema_of_lookup hv (typedValue_ok htyped) hw

theorem checkFields_ok {u : Unit} (h : checkFields settings value = .ok u) : fieldsSchema settings value := by
  simp only [checkFields, bind_eq_ok] at h
  obtain ⟨l, hl, keys, hkeys, -⟩ := h
  obtain ⟨rfl, -, hlength⟩ := items_ok hl
  refine ⟨l, rfl, hlength, fun item hitem => ?_⟩
  obtain ⟨key, -, hkey⟩ := exists_right_of_forall₂ (mapM_eq_ok.mp hkeys) hitem
  exact labelledField_ok hkey

theorem column_ok {key : Text} (h : column settings value = .ok key) : columnSchema settings value := by
  simp only [column, bind_eq_ok, member_eq_ok, discard_eq_ok] at h
  obtain ⟨fields, hshape, k, hk, key', hkey, label, hlabel, -, ⟨s, hs⟩, -⟩ := h
  refine record_of_shape hshape fun m hm w hw => ?_
  simp only [List.append_nil, List.mem_cons, List.not_mem_nil, or_false] at hm
  rcases hm with rfl | rfl
  · exact schema_of_lookup hk (keyText_ok hkey) hw
  · exact schema_of_lookup hlabel (plainText_ok hs) hw

theorem tableRow_ok {columns : ℕ} {tally tally' : Tally} (h : tableRow settings columns tally value = .ok tally') :
    Schema.list (· = columns) (typedSchema settings) value := by
  simp only [tableRow, bind_eq_ok] at h
  obtain ⟨cells, hcells, _, -, _, htyped, -⟩ := h
  obtain ⟨rfl, hmin, hmax⟩ := items_ok hcells
  exact ⟨cells, rfl, le_antisymm hmax hmin, fun cell hcell => typedValue_ok (forM_eq_ok.mp htyped cell hcell)⟩

theorem attachmentReference_ok {id : Uuid} (h : attachmentReference ids value = .ok id) : referenceSchema ids value := by
  simp only [attachmentReference, bind_eq_ok, asText_eq_ok, identifier_eq_ok, require_eq_ok, pure_eq_ok] at h
  obtain ⟨s, hs, id', ⟨-, rfl⟩, -, hmem, -⟩ := h
  exact ⟨s, Option.some.inj hs, hmem⟩

/-- The keys every block has, beside its content. -/
theorem blockRecord_ok {name : String} {content : List (String × Schema)} {fields' : Fields} {k : Value} {key : Text}
    (hk : lookup fields (Json.text "key") = some k) (hkey : keyText k = .ok key)
    (hkind : lookup fields (Json.text "kind") = some (.str (Json.text name)))
    (hshape : shape ("key" :: "kind" :: content.map Prod.fst) [] (.dict fields) = .ok fields')
    (hcontent : ∀ m ∈ content, ∀ w, lookup fields' (Json.text m.1) = some w → m.2 w) :
    blockRecord name content (.dict fields) := by
  obtain ⟨hsame, -⟩ := shape_ok hshape
  cases hsame
  refine record_of_shape hshape fun m hm w hw => ?_
  simp only [List.append_nil, List.mem_cons] at hm
  rcases hm with rfl | rfl | hm
  · exact schema_of_lookup hk (keyText_ok hkey) hw
  · exact schema_of_lookup hkind ⟨_, rfl, rfl⟩ hw
  · exact hcontent m hm w hw

theorem block_ok {tally tally' : Tally} (h : block settings ids tally value = .ok tally') : blockSchema settings ids value := by
  simp only [block, bind_eq_ok, member_eq_ok, textField, asText_eq_ok] at h
  obtain ⟨fields, hdict, k, hk, key, hkey, _, -, kind, hkind, h⟩ := h
  cases value with
  | dict members =>
    cases hdict
    split_ifs at h with htext hfields htable hrefs
    · subst htext
      obtain ⟨fields', hshape, h⟩ := bind_eq_ok.mp h
      obtain ⟨v, hv, h⟩ := bind_eq_ok.mp h
      obtain ⟨_, hplain, -⟩ := bind_eq_ok.mp h
      obtain ⟨t, ht⟩ := discard_eq_ok.mp hplain
      refine .inl (blockRecord_ok hk hkey hkind hshape fun m hm w hw => ?_)
      rw [List.mem_singleton.mp hm] at hw ⊢
      exact schema_of_lookup (member_eq_ok.mp hv) (plainText_ok ht) hw
    · subst hfields
      obtain ⟨fields', hshape, h⟩ := bind_eq_ok.mp h
      obtain ⟨v, hv, h⟩ := bind_eq_ok.mp h
      obtain ⟨_, hchecked, -⟩ := bind_eq_ok.mp h
      refine .inr (.inl (blockRecord_ok hk hkey hkind hshape fun m hm w hw => ?_))
      rw [List.mem_singleton.mp hm] at hw ⊢
      exact schema_of_lookup (member_eq_ok.mp hv) (checkFields_ok hchecked) hw
    · subst htable
      simp only [bind_eq_ok, member_eq_ok] at h
      obtain ⟨fields', hshape, c, hc, cs, hcs, columns, hcolumns, _, -, r, hr, rows, hrows, hfold⟩ := h
      obtain ⟨rfl, hmin, hmax⟩ := items_ok hcs
      obtain ⟨rfl, -, hrowsmax⟩ := items_ok hrows
      have hlength : columns.length = cs.length := (mapM_eq_ok.mp hcolumns).length_eq.symm
      refine .inr (.inr (.inl ⟨columns.length, by omega, by omega, blockRecord_ok hk hkey hkind hshape fun m hm w hw => ?_⟩))
      simp only [List.mem_cons, List.not_mem_nil, or_false] at hm
      rcases hm with rfl | rfl
      · refine schema_of_lookup hc ⟨cs, rfl, hlength.symm, fun item hitem => ?_⟩ hw
        obtain ⟨column, -, hcolumn⟩ := exists_right_of_forall₂ (mapM_eq_ok.mp hcolumns) hitem
        exact column_ok hcolumn
      · refine schema_of_lookup hr ⟨rows, rfl, hrowsmax, fun row hrow => ?_⟩ hw
        obtain ⟨before, after, hstep⟩ := foldlM_step_ok hfold hrow
        exact tableRow_ok hstep
    · subst hrefs
      simp only [bind_eq_ok, member_eq_ok] at h
      obtain ⟨fields', hshape, v, hv, l, hl, references, hreferences, -⟩ := h
      obtain ⟨rfl, -, hmax⟩ := items_ok hl
      refine .inr (.inr (.inr (blockRecord_ok hk hkey hkind hshape fun m hm w hw => ?_)))
      rw [List.mem_singleton.mp hm] at hw ⊢
      refine schema_of_lookup hv ⟨l, rfl, hmax, fun item hitem => ?_⟩ hw
      obtain ⟨id, -, hid⟩ := exists_right_of_forall₂ (mapM_eq_ok.mp hreferences) hitem
      exact attachmentReference_ok hid
  | _ => cases hdict

theorem section_ok {tally tally' : Tally} (h : section' settings ids tally value = .ok tally') :
    sectionSchema settings ids value := by
  simp only [section', bind_eq_ok, member_eq_ok, discard_eq_ok] at h
  obtain ⟨fields, hshape, k, hk, key, hkey, t, ht, -, ⟨s, hs⟩, _, -, b, hb, blocks, hblocks, _, -, hfold⟩ := h
  obtain ⟨rfl, -, hmax⟩ := items_ok hblocks
  refine record_of_shape hshape fun m hm w hw => ?_
  simp only [List.append_nil, List.mem_cons, List.not_mem_nil, or_false] at hm
  rcases hm with rfl | rfl | rfl
  · exact schema_of_lookup hk (keyText_ok hkey) hw
  · exact schema_of_lookup ht (plainText_ok hs) hw
  · refine schema_of_lookup hb ⟨blocks, rfl, hmax, fun item hitem => ?_⟩ hw
    obtain ⟨before, after, hstep⟩ := foldlM_step_ok hfold hitem
    exact block_ok hstep

theorem attachment_ok {ids' : List Uuid} (h : attachment settings ids value = .ok ids') :
    ∃ id, ids' = ids ++ [id] ∧ id ∉ ids ∧ isCanonicalUuid id = true ∧ attachmentSchema settings id value := by
  simp only [attachment, bind_eq_ok, member_eq_ok, discard_eq_ok, textField, asText_eq_ok, identifier_eq_ok, require_eq_ok,
    pure_eq_ok] at h
  obtain ⟨fields, hshape, s, hs, id, ⟨huuid, rfl⟩, _, hnew, t, ht, -, ⟨title, htitle⟩, c, hc, -, ⟨caption, hcaption⟩, rfl⟩ := h
  refine ⟨s, rfl, hnew, huuid, record_of_shape hshape fun m hm w hw => ?_⟩
  simp only [List.append_nil, List.mem_cons, List.not_mem_nil, or_false] at hm
  rcases hm with rfl | rfl | rfl
  · exact schema_of_lookup hs ⟨s, rfl, rfl⟩ hw
  · exact schema_of_lookup ht (plainText_ok htitle) hw
  · exact schema_of_lookup hc (plainText_ok hcaption) hw

/-- The identifiers are read in the order of the attachments. -/
theorem attachments_ok {l : List Value} {ids' : List Uuid} (h : l.foldlM (attachment settings) ids = .ok ids')
    (hnodup : ids.Nodup) : ∃ new, ids' = ids ++ new ∧ ids'.Nodup ∧ (∀ id ∈ new, isCanonicalUuid id = true) ∧
      List.Forall₂ (attachmentSchema settings) new l := by
  induction l generalizing ids with
  | nil =>
    cases h
    exact ⟨[], by simp, hnodup, by simp, .nil⟩
  | cons v l ih =>
    rw [List.foldlM_cons, bind_eq_ok] at h
    obtain ⟨middle, hfirst, hrest⟩ := h
    obtain ⟨id, rfl, hnew, huuid, hschema⟩ := attachment_ok hfirst
    have hmiddle : (ids ++ [id]).Nodup := by
      rw [List.nodup_append_comm, List.singleton_append, List.nodup_cons]
      exact ⟨hnew, hnodup⟩
    obtain ⟨new, rfl, hall, huuids, hschemas⟩ := ih hrest hmiddle
    refine ⟨id :: new, by simp, hall, ?_, .cons hschema hschemas⟩
    rw [List.forall_mem_cons]
    exact ⟨huuid, huuids⟩

theorem finalization_ok {u : Unit} (h : finalization settings ids value = .ok u) : finalizationSchema settings ids value := by
  simp only [finalization, bind_eq_ok, member_eq_ok, discard_eq_ok] at h
  obtain ⟨fields, hshape, a, ha, author, hauthor, i, hi, -, ⟨id, hid⟩, n, hn, -, ⟨name, hname⟩, f, hf, _, htime, h⟩ := h
  refine record_of_shape hshape fun m hm w hw => ?_
  simp only [List.cons_append, List.nil_append, List.mem_cons, List.not_mem_nil, or_false] at hm
  rcases hm with rfl | rfl | rfl
  · refine schema_of_lookup ha (record_of_shape hauthor fun m hm w hw => ?_) hw
    simp only [List.append_nil, List.mem_cons, List.not_mem_nil, or_false] at hm
    rcases hm with rfl | rfl
    · exact schema_of_lookup hi (plainText_ok hid) hw
    · exact schema_of_lookup hn (plainText_ok hname) hw
  · exact schema_of_lookup hf (timestamp_ok htime) hw
  · dsimp only at hw
    rw [hw] at h
    obtain ⟨id', hreference⟩ := discard_eq_ok.mp h
    exact attachmentReference_ok hreference

/-- `validate_document`, the bound on the written document aside. -/
def checkDocument (settings : Settings) (document : Value) (reportId : Option Value)
    (attachmentHashes : List (Uuid × Text)) : Except Error Uuid := do
  let fields ← shape ["report_id", "schema_version", "report_type", "title", "header", "sections", "attachments",
    "finalization"] [] document
  let reportId ← identifier (← asText reportId)
  let named ← textField fields (Json.text "report_id")
  require (named = reportId)
  require (isInt (lookup fields (Json.text "schema_version")) 1)
  discard (plainText settings 1 80 (← member fields "report_type"))
  discard (plainText settings 1 200 (← member fields "title"))
  checkFields settings (← member fields "header")
  let ids ← (← items 0 32 (← member fields "attachments")).foldlM (attachment settings) []
  require (ids.isPerm (attachmentHashes.map Prod.fst))
  require (attachmentHashes.all fun a => isSha256 a.2)
  let _ ← (← items 0 50 (← member fields "sections")).foldlM (section' settings ids) {}
  finalization settings ids (← member fields "finalization")
  return named

theorem validateDocument_eq {document : Value} {reportId : Option Value} {attachmentHashes : List (Uuid × Text)} :
    validateDocument settings document reportId attachmentHashes =
      checkDocument settings document reportId attachmentHashes >>= fun id => do
        require ((canonical settings document).length ≤ 1024 * 1024)
        return id := by
  simp only [validateDocument, checkDocument, bind_assoc, pure_bind]

/-- What a checked document is, and that it names the report. -/
theorem checkDocument_ok {document : Value} {reportId : Option Value} {attachmentHashes : List (Uuid × Text)} {id : Uuid}
    (h : checkDocument settings document reportId attachmentHashes = .ok id) :
    ∃ ids, documentSchema settings ids id document ∧ ids.Nodup ∧ (∀ i ∈ ids, isCanonicalUuid i = true) ∧
      ids.Perm (attachmentHashes.map Prod.fst) ∧ (∀ a ∈ attachmentHashes, isSha256 a.2 = true) ∧
      reportId = some (.str id) ∧ isCanonicalUuid id = true := by
  simp only [checkDocument, bind_eq_ok, member_eq_ok, discard_eq_ok, textField, asText_eq_ok, identifier_eq_ok,
    require_eq_ok, pure_eq_ok] at h
  obtain ⟨fields, hshape, s, rfl, s', ⟨huuid, rfl⟩, named, hnamed, _, rfl, _, hversion, t, ht, -, ⟨type, htype⟩, l, hl, -,
    ⟨title, htitle⟩, hd, hhd, _, hheader, a, ha, attachments, hattachments, ids, hids, _, hperm, _, hhashes, b, hb, sections,
    hsections, tally, hfold, f, hf, _, hfinal, rfl⟩ := h
  obtain ⟨rfl, -, -⟩ := items_ok hattachments
  obtain ⟨rfl, -, hmax⟩ := items_ok hsections
  obtain ⟨new, hnew, hnodup, huuids, hschemas⟩ := attachments_ok hids List.nodup_nil
  rw [List.nil_append] at hnew
  subst hnew
  refine ⟨ids, record_of_shape hshape fun m hm w hw => ?_, hnodup, huuids, List.isPerm_iff.mp hperm,
    List.all_eq_true.mp hhashes, rfl, huuid⟩
  simp only [List.append_nil, List.mem_cons, List.not_mem_nil, or_false] at hm
  rcases hm with rfl | rfl | rfl | rfl | rfl | rfl | rfl | rfl
  · exact schema_of_lookup hnamed ⟨_, rfl, rfl⟩ hw
  · dsimp only at hw
    rw [hw] at hversion
    unfold isInt at hversion
    split at hversion
    · rename_i n hn
      cases hn
      exact ⟨n, rfl, of_decide_eq_true hversion⟩
    · cases hversion
  · exact schema_of_lookup ht (plainText_ok htype) hw
  · exact schema_of_lookup hl (plainText_ok htitle) hw
  · exact schema_of_lookup hhd (checkFields_ok hheader) hw
  · refine schema_of_lookup hb ⟨sections, rfl, hmax, fun item hitem => ?_⟩ hw
    obtain ⟨before, after, hstep⟩ := foldlM_step_ok hfold hitem
    exact section_ok hstep
  · exact schema_of_lookup ha ⟨attachments, rfl, hschemas⟩ hw
  · exact schema_of_lookup hf (finalization_ok hfinal) hw

/-- What a validated document is. -/
theorem validateDocument_ok {document : Value} {reportId : Option Value} {attachmentHashes : List (Uuid × Text)} {id : Uuid}
    (h : validateDocument settings document reportId attachmentHashes = .ok id) :
    ∃ ids, documentSchema settings ids id document ∧ ids.Nodup ∧ (∀ i ∈ ids, isCanonicalUuid i = true) ∧
      ids.Perm (attachmentHashes.map Prod.fst) ∧ (∀ a ∈ attachmentHashes, isSha256 a.2 = true) ∧
      reportId = some (.str id) ∧ isCanonicalUuid id = true := by
  simp only [validateDocument_eq, bind_eq_ok, pure_eq_ok] at h
  obtain ⟨id', hchecked, -, -, rfl⟩ := h
  exact checkDocument_ok hchecked

end

/-! ### Every value of a document can be written -/

/-- Surrogates are control characters, and nothing lies beyond the last code point. -/
def RefusesSurrogates (settings : Settings) : Prop := ∀ c, ¬IsScalar c → settings.isControl c = true

theorem isName_ascii {s : Text} (h : isName s = true) : ∀ c ∈ s, c < 128 := by
  intro c hc
  have hall := List.all_eq_true.mp (of_decide_eq_true h).2.2 c hc
  rcases of_decide_eq_true hall with hsafe | rfl
  · have hrange := of_decide_eq_true hsafe
    omega
  · omega

theorem isCanonicalUuid_ascii {s : Text} (h : isCanonicalUuid s = true) : ∀ c ∈ s, c < 128 := by
  intro c hc
  obtain ⟨i, hi, rfl⟩ := List.mem_iff_getElem.mp hc
  have hmem : (s[i], i) ∈ s.zipIdx := List.mk_mem_zipIdx_iff_getElem?.mpr (List.getElem?_eq_getElem hi)
  have hall := List.all_eq_true.mp (of_decide_eq_true h).2 _ hmem
  dsimp only at hall
  split at hall
  · have hdash := of_decide_eq_true hall
    omega
  · have hhex := of_decide_eq_true hall
    omega

theorem isSha256_ascii {s : Text} (h : isSha256 s = true) : ∀ c ∈ s, c < 128 := by
  intro c hc
  have hhex := of_decide_eq_true (List.all_eq_true.mp (of_decide_eq_true h).2 c hc)
  omega

theorem isDigit_lt {c : ℕ} (h : Json.isDigit c = true) : c < 128 := by
  have hrange := of_decide_eq_true h
  omega

theorem scanWhole_append (t : Text) : (Json.scanWhole t).1 ++ (Json.scanWhole t).2 = t ∧
    ∀ c ∈ (Json.scanWhole t).1, Json.isDigit c = true := by
  unfold Json.scanWhole
  split
  · refine ⟨rfl, fun c hc => ?_⟩
    rw [List.mem_singleton.mp hc]
    rfl
  · exact ⟨List.takeWhile_append_dropWhile, List.all_eq_true.mp List.all_takeWhile⟩

/-- A fraction that leaves nothing is a dot and digits. -/
theorem scanFraction_lt {t : Text} (h : (Json.scanFraction t).1 ≠ []) (hend : (Json.scanFraction t).2 = []) :
    ∀ c ∈ t, c < 128 := by
  have hdot : ∀ rest : Text, Json.scanFraction (46 :: rest) = if rest.takeWhile Json.isDigit = [] then ([], 46 :: rest)
      else (rest.takeWhile Json.isDigit, rest.dropWhile Json.isDigit) := fun _ => rfl
  by_cases hopen : ∃ rest, t = 46 :: rest
  · obtain ⟨rest, rfl⟩ := hopen
    rw [hdot] at h hend
    split_ifs at h hend with hdigits
    intro c hc
    rcases List.mem_cons.mp hc with rfl | hc
    · omega
    · exact isDigit_lt (List.dropWhile_eq_nil_iff.mp hend c hc)
  · unfold Json.scanFraction at h
    split at h
    · exact absurd ⟨_, rfl⟩ hopen
    · cases h rfl

theorem isDecimal_ascii {s : Text} (h : isDecimal s = true) : ∀ c ∈ s, c < 128 := by
  have hunsigned : ∀ t : Text, ((Json.scanWhole t).2 = [] ∨ (Json.scanFraction (Json.scanWhole t).2).1 ≠ [] ∧
      (Json.scanFraction (Json.scanWhole t).2).2 = []) → ∀ c ∈ t, c < 128 := by
    intro t hrest c hc
    obtain ⟨happend, hwhole⟩ := scanWhole_append t
    rw [← happend, List.mem_append] at hc
    rcases hc with hc | hc
    · exact isDigit_lt (hwhole c hc)
    · rcases hrest with hrest | ⟨hfraction, hend⟩
      · rw [hrest] at hc
        cases hc
      · exact scanFraction_lt hfraction hend c hc
  unfold isDecimal at h
  dsimp only at h
  have hform := (of_decide_eq_true h).2
  intro c hc
  by_cases hsign : s.head? = some 45
  · rw [if_pos hsign] at hform
    cases s with
    | nil => cases hsign
    | cons d s =>
      cases hsign
      rcases List.mem_cons.mp hc with rfl | hc
      · omega
      · exact hunsigned s hform c hc
  · rw [if_neg hsign] at hform
    exact hunsigned s hform c hc

/-- The texts a document may hold are all of one kind. -/
structure Admits (settings : Settings) (T : Text → Prop) : Prop where
  plain : ∀ s : Text, (∀ c ∈ s, c = 10 ∨ c = 9 ∨ settings.isControl c = false) → T s
  ascii : ∀ s : Text, (∀ c ∈ s, c < 128) → T s
  literal : ∀ name, T (Json.text name)

theorem admits_all (settings : Settings) : Admits settings fun _ => True := ⟨fun _ _ => trivial, fun _ _ => trivial, fun _ => trivial⟩

theorem admits_scalar {settings : Settings} (hcontrol : RefusesSurrogates settings) : Admits settings ScalarText where
  plain := by
    intro s hs c hc
    by_contra hno
    rcases hs c hc with rfl | rfl | hfree
    · exact hno (.inl (by omega))
    · exact hno (.inl (by omega))
    · rw [hcontrol c hno] at hfree
      cases hfree
  ascii s hs c hc := .inl (Nat.lt_trans (hs c hc) (by omega))
  literal := Schema.scalarText_text

section

variable {settings : Settings} {T : Text → Prop} {limits : Json.Limits} {ids : List Uuid}

theorem tame_plain (hT : Admits settings T) (minimum maximum : ℕ) {depth : ℕ} :
    Tame T limits depth (plain settings minimum maximum) :=
  Schema.tame_str fun s hs => hT.plain s hs.2.2.2.2

theorem tame_named (hT : Admits settings T) {name : String} {depth : ℕ} : Tame T limits depth (named name) := by
  refine Schema.tame_str ?_
  rintro s rfl
  exact hT.literal name

theorem tame_key (hT : Admits settings T) {depth : ℕ} : Tame T limits depth keySchema :=
  Schema.tame_str fun s hs => hT.ascii s (isName_ascii hs)

theorem tame_typed (hT : Admits settings T) (hdigits : 16 ≤ limits.digits) :
    Tame T limits 1 (typedSchema settings) := by
  have hkind : ∀ kind : ValueKind, Tame T limits 0 (kind.schema settings) := by
    intro kind
    cases kind with
    | text => exact tame_plain hT _ _
    | integer => exact Schema.tame_int (k := 16) (by omega) hdigits fun n hn => by omega
    | decimal => exact Schema.tame_str fun s hs => hT.ascii s (isDecimal_ascii hs.2)
    | boolean => exact Schema.tame_bool
    | date => exact tame_plain hT _ _
    | datetime => exact tame_plain hT _ _
  rintro v hv ⟨kind, hrecord⟩
  refine Schema.tame_record hT.literal (List.forall_iff_forall_mem.mp ?_) v hv hrecord
  exact ⟨tame_named hT, hkind kind⟩

theorem tame_fields (hT : Admits settings T) (hdigits : 16 ≤ limits.digits) :
    Tame T limits 3 (fieldsSchema settings) := by
  refine Schema.tame_list (Schema.tame_record hT.literal (List.forall_iff_forall_mem.mp ?_))
  exact ⟨tame_key hT, tame_plain hT _ _, tame_typed hT hdigits⟩

theorem tame_reference (hT : Admits settings T) (huuids : ∀ i ∈ ids, isCanonicalUuid i = true) {depth : ℕ} : Tame T limits depth (referenceSchema ids) :=
  Schema.tame_str fun s hs => hT.ascii s (isCanonicalUuid_ascii (huuids s hs))

theorem tame_blockRecord (hT : Admits settings T) {kind : String} {content : List (String × Schema)} (h : ∀ m ∈ content, Tame T limits 3 m.2) :
    Tame T limits 4 (blockRecord kind content) := by
  refine Schema.tame_record hT.literal ?_
  simp only [List.append_nil, List.forall_mem_cons]
  exact ⟨tame_key hT, tame_named hT, h⟩

theorem tame_block (hT : Admits settings T) (hdigits : 16 ≤ limits.digits)
    (huuids : ∀ i ∈ ids, isCanonicalUuid i = true) : Tame T limits 4 (blockSchema settings ids) := by
  rintro v hv (htext | hfields | ⟨columns, -, -, htable⟩ | hrefs)
  · refine tame_blockRecord hT (List.forall_iff_forall_mem.mp ?_) v hv htext
    exact tame_plain hT _ _
  · refine tame_blockRecord hT (List.forall_iff_forall_mem.mp ?_) v hv hfields
    exact tame_fields hT hdigits
  · refine tame_blockRecord hT ?_ v hv htable
    simp only [List.forall_mem_cons, List.not_mem_nil, false_implies, implies_true, and_true]
    refine ⟨Schema.tame_list (Schema.tame_record hT.literal ?_), Schema.tame_list (Schema.tame_list (tame_typed hT hdigits))⟩
    simp only [List.append_nil, List.forall_mem_cons, List.not_mem_nil, false_implies, implies_true, and_true]
    exact ⟨tame_key hT, tame_plain hT _ _⟩
  · refine tame_blockRecord hT ?_ v hv hrefs
    simp only [List.forall_mem_cons, List.not_mem_nil, false_implies, implies_true, and_true]
    exact Schema.tame_list (tame_reference hT huuids)

theorem tame_section (hT : Admits settings T) (hdigits : 16 ≤ limits.digits)
    (huuids : ∀ i ∈ ids, isCanonicalUuid i = true) : Tame T limits 6 (sectionSchema settings ids) := by
  refine Schema.tame_record hT.literal ?_
  simp only [List.append_nil, List.forall_mem_cons, List.not_mem_nil, false_implies, implies_true, and_true]
  exact ⟨tame_key hT, tame_plain hT _ _, Schema.tame_list (tame_block hT hdigits huuids)⟩

theorem tame_attachments (hT : Admits settings T) (huuids : ∀ i ∈ ids, isCanonicalUuid i = true) {depth : ℕ} :
    Tame T limits (depth + 2) (attachmentsSchema settings ids) := by
  have hitem : Tame T limits (depth + 1) fun v => ∃ id ∈ ids, attachmentSchema settings id v := by
    rintro v hv ⟨id, hid, hrecord⟩
    refine Schema.tame_record hT.literal (List.forall_iff_forall_mem.mp ?_) v hv hrecord
    refine ⟨Schema.tame_str ?_, tame_plain hT _ _, tame_plain hT _ _⟩
    rintro s rfl
    exact hT.ascii s (isCanonicalUuid_ascii (huuids s hid))
  refine (Schema.tame_list (L := fun _ => True) hitem).imp ?_
  rintro v ⟨items, rfl, hall⟩
  exact ⟨items, rfl, trivial, fun item hitem => exists_left_of_forall₂ hall hitem⟩

theorem tame_finalization (hT : Admits settings T) (huuids : ∀ i ∈ ids, isCanonicalUuid i = true) {depth : ℕ} :
    Tame T limits (depth + 2) (finalizationSchema settings ids) := by
  refine Schema.tame_record hT.literal (List.forall_iff_forall_mem.mp ?_)
  refine ⟨Schema.tame_record hT.literal ?_, tame_plain hT _ _, tame_reference hT huuids⟩
  simp only [List.append_nil, List.forall_mem_cons, List.not_mem_nil, false_implies, implies_true, and_true]
  exact ⟨tame_plain hT _ _, tame_plain hT _ _⟩

/-- A document nests eight levels. -/
theorem tame_document (hT : Admits settings T) (hdigits : 16 ≤ limits.digits)
    (huuids : ∀ i ∈ ids, isCanonicalUuid i = true) {id : Uuid} (huuid : isCanonicalUuid id = true) :
    Tame T limits 8 (documentSchema settings ids id) := by
  refine Schema.tame_record hT.literal ?_
  simp only [List.append_nil, List.forall_mem_cons, List.not_mem_nil, false_implies, implies_true, and_true]
  refine ⟨Schema.tame_str ?_, Schema.tame_int (k := 16) (by omega) hdigits fun n hn => by omega, tame_plain hT _ _,
    tame_plain hT _ _, (tame_fields hT hdigits).mono (by omega),
    Schema.tame_list (tame_section hT hdigits huuids), tame_attachments hT huuids,
    tame_finalization hT huuids⟩
  rintro s rfl
  exact hT.ascii s (isCanonicalUuid_ascii huuid)

end

end FireDash.ReportTransfer
