import FireDash.Lib.JsonAccess
import FireDash.ReportTransfer.DocumentSchema

/-! `validate_document` with everything its subscripts, loops and sets might raise: its own
checks come before each of them. -/
namespace FireDash.ReportTransfer.Raising

open Json (Text Value AccessError Key)

/-- What reading a report document raises. -/
inductive Raised where
  | report (e : Error)
  | access (e : AccessError)
  | zeroDivisionError
  | noReverseMatch
  deriving DecidableEq

/-- A check of its own, which raises nothing but `TransferError`. -/
def raising {α β : Type} (φ : α → β) : Except Error α → Except Raised β
  | .ok a => .ok (φ a)
  | .error e => .error (.report e)

def check {α : Type} (x : Except Error α) : Except Raised Unit := raising (fun _ => ()) x

/-- `require(False)`. -/
def refuse {α : Type} : Except Raised α := .error (.report invalidPackage)

def require (c : Prop) [Decidable c] : Except Raised Unit := check (ReportTransfer.require c)

def access {α : Type} (x : Except AccessError α) : Except Raised α := x.mapError .access

def subscript (value : Value) (name : String) : Except Raised Value := access (Json.subscript value (Json.text name))

/-! ### Shapes -/

def shape (required optional : List String) (value : Value) : Except Raised Unit :=
  check (ReportTransfer.shape required optional value)

def text (settings : Settings) (minimum maximum : ℕ) (value : Value) : Except Raised Unit :=
  check (plainText settings minimum maximum value)

def key (value : Value) : Except Raised Unit := check (keyText value)

def sequence (minimum maximum : ℕ) (value : Value) : Except Raised Unit := check (items minimum maximum value)

def unique (value : Value) (name : String) : Except Raised Unit := do
  let values ← (← access (Json.iterate value)).mapM (subscript · name)
  require (← values.mapM fun v => access (Json.hashed v)).Nodup

/-- The canonical text of an identifier. -/
def identifier (value : Value) : Except Raised Uuid := raising id (asText (some value) >>= ReportTransfer.identifier)

def timestamp (settings : Settings) (value : Value) : Except Raised Unit := check (ReportTransfer.timestamp settings value)

/-! ### Values and fields -/

def typedValue (settings : Settings) (item : Value) : Except Raised Unit := do
  shape ["type", "value"] [] item
  let kind ← subscript item "type"
  let value ← subscript item "value"
  match kind with
  | .str kind =>
    if kind = Json.text "text" then
      text settings 0 4000 value
    else if kind = Json.text "integer" then
      match value with
      | .int n => require (n.natAbs ≤ 9007199254740991)
      | _ => refuse
    else if kind = Json.text "decimal" then
      match value with
      | .str s => require (s.length ≤ 32 ∧ isDecimal s)
      | _ => refuse
    else if kind = Json.text "boolean" then
      match value with
      | .bool _ => return ()
      | _ => refuse
    else if kind = Json.text "date" then
      check (plainText settings 1 10 value >>= fun s => ReportTransfer.require (isIsoDate s))
    else if kind = Json.text "datetime" then
      timestamp settings value
    else refuse
  | _ => refuse

def labelledField (settings : Settings) (item : Value) : Except Raised Unit := do
  shape ["key", "label", "value"] [] item
  key (← subscript item "key")
  text settings 1 200 (← subscript item "label")
  typedValue settings (← subscript item "value")

/-- `fields`. -/
def checkFields (settings : Settings) (value : Value) : Except Raised Unit := do
  sequence 0 100 value
  (← access (Json.iterate value)).forM (labelledField settings)
  unique value "key"

/-! ### Sections -/

/-- The keys used so far, as a set, and the numbers of blocks and cells. -/
structure Seen where
  keys : List Key := []
  blocks : ℕ := 0
  cells : ℕ := 0
  deriving DecidableEq

def column (settings : Settings) (value : Value) : Except Raised Unit := do
  shape ["key", "label"] [] value
  key (← subscript value "key")
  text settings 1 80 (← subscript value "label")

def tableRow (settings : Settings) (block : Value) (seen : Seen) (row : Value) : Except Raised Seen := do
  let columns ← access (Json.length (← subscript block "columns"))
  sequence columns columns row
  let seen := { seen with cells := seen.cells + (← access (Json.length row)) }
  require (seen.cells ≤ 4000)
  (← access (Json.iterate row)).forM (typedValue settings)
  return seen

def attachmentReference (ids : List Key) (value : Value) : Except Raised Unit := do
  let _ ← identifier value
  require ((← access (Json.hashed value)) ∈ ids)

def textBlock (settings : Settings) (value : Value) : Except Raised Unit := do
  shape ["key", "kind", "text"] [] value
  text settings 0 20000 (← subscript value "text")

def fieldsBlock (settings : Settings) (value : Value) : Except Raised Unit := do
  shape ["key", "kind", "fields"] [] value
  checkFields settings (← subscript value "fields")

def tableBlock (settings : Settings) (seen : Seen) (value : Value) : Except Raised Seen := do
  shape ["key", "kind", "columns", "rows"] [] value
  sequence 1 8 (← subscript value "columns")
  (← access (Json.iterate (← subscript value "columns"))).forM (column settings)
  unique (← subscript value "columns") "key"
  sequence 0 500 (← subscript value "rows")
  (← access (Json.iterate (← subscript value "rows"))).foldlM (tableRow settings value) seen

def referencesBlock (ids : List Key) (value : Value) : Except Raised Unit := do
  shape ["key", "kind", "attachment_ids"] [] value
  sequence 0 32 (← subscript value "attachment_ids")
  let references ← access (Json.iterate (← subscript value "attachment_ids"))
  references.forM (attachmentReference ids)
  require (← references.mapM fun v => access (Json.hashed v)).Nodup

def block (settings : Settings) (ids : List Key) (seen : Seen) (value : Value) : Except Raised Seen := do
  check (asDict value)
  key (← access (Json.get value (Json.text "key")))
  let k ← access (Json.hashed (← subscript value "key"))
  require (k ∉ seen.keys)
  let seen := { seen with keys := k :: seen.keys }
  match ← access (Json.get value (Json.text "kind")) with
  | .str kind =>
    if kind = Json.text "text" then do
      textBlock settings value
      return seen
    else if kind = Json.text "fields" then do
      fieldsBlock settings value
      return seen
    else if kind = Json.text "table" then tableBlock settings seen value
    else if kind = Json.text "attachment_refs" then do
      referencesBlock ids value
      return seen
    else refuse
  | _ => refuse

def section' (settings : Settings) (ids : List Key) (seen : Seen) (value : Value) : Except Raised Seen := do
  shape ["key", "title", "blocks"] [] value
  key (← subscript value "key")
  text settings 1 200 (← subscript value "title")
  let k ← access (Json.hashed (← subscript value "key"))
  require (k ∉ seen.keys)
  sequence 0 50 (← subscript value "blocks")
  let seen := { seen with keys := k :: seen.keys, blocks := seen.blocks + (← access (Json.length (← subscript value "blocks"))) }
  require (seen.blocks ≤ 200)
  (← access (Json.iterate (← subscript value "blocks"))).foldlM (block settings ids) seen

/-! ### The document -/

def attachment (settings : Settings) (ids : List Key) (value : Value) : Except Raised (List Key) := do
  shape ["id", "title", "caption"] [] value
  let _ ← identifier (← subscript value "id")
  let id ← access (Json.hashed (← subscript value "id"))
  require (id ∉ ids)
  text settings 1 200 (← subscript value "title")
  text settings 0 2000 (← subscript value "caption")
  return ids ++ [id]

def finalization (settings : Settings) (ids : List Key) (value : Value) : Except Raised Unit := do
  shape ["author", "finalized_at"] ["signature_attachment_id"] value
  shape ["id", "display_name"] [] (← subscript value "author")
  text settings 1 128 (← subscript (← subscript value "author") "id")
  text settings 1 160 (← subscript (← subscript value "author") "display_name")
  timestamp settings (← subscript value "finalized_at")
  if ← access (Json.contains value (Json.text "signature_attachment_id")) then
    attachmentReference ids (← subscript value "signature_attachment_id")

/-- `document["report_id"] == str(identifier(report_id))`. -/
def isStr (value : Value) (s : Text) : Bool :=
  match value with
  | .str t => t = s
  | _ => false

/-- `validate_document`, the bound on the written document aside. -/
def checkDocument (settings : Settings) (document reportId : Value) (attachmentHashes : List (Uuid × Text)) :
    Except Raised Unit := do
  shape ["report_id", "schema_version", "report_type", "title", "header", "sections", "attachments", "finalization"] [] document
  let named ← subscript document "report_id"
  require (isStr named (← identifier reportId))
  require (isInt (some (← subscript document "schema_version")) 1)
  text settings 1 80 (← subscript document "report_type")
  text settings 1 200 (← subscript document "title")
  checkFields settings (← subscript document "header")
  sequence 0 32 (← subscript document "attachments")
  let ids ← (← access (Json.iterate (← subscript document "attachments"))).foldlM (attachment settings) []
  require (ids.isPerm (attachmentHashes.map fun a => Key.text a.1))
  require (attachmentHashes.all fun a => isSha256 a.2)
  sequence 0 50 (← subscript document "sections")
  let _ ← (← access (Json.iterate (← subscript document "sections"))).foldlM (section' settings ids) {}
  finalization settings ids (← subscript document "finalization")

def validateDocument (settings : Settings) (document reportId : Value) (attachmentHashes : List (Uuid × Text)) :
    Except Raised Unit := do
  checkDocument settings document reportId attachmentHashes
  access (Json.written settings.jsonLimits document)
  require ((canonical settings document).length ≤ 1024 * 1024)

/-! ### The checks raise nothing else -/

section

variable {α β γ δ σ τ : Type}

theorem raising_bind {φ : α → β} {ψ : γ → δ} {y : Except Error α} {g : α → Except Error γ} {f : β → Except Raised δ}
    (h : ∀ a, y = .ok a → f (φ a) = raising ψ (g a)) : (raising φ y >>= f) = raising ψ (y >>= g) := by
  cases y with
  | error e => rfl
  | ok a => exact h a rfl

theorem check_bind {ψ : γ → δ} {y : Except Error α} {g : α → Except Error γ} {f : Unit → Except Raised δ}
    (h : ∀ a, y = .ok a → f () = raising ψ (g a)) : (check y >>= f) = raising ψ (y >>= g) := raising_bind h

theorem check_discard {y : Except Error α} : check (discard y) = check y := by
  cases y <;> rfl

theorem forM_check {f' : α → Except Raised Unit} {f : α → Except Error β} (h : ∀ a, f' a = check (f a)) (l : List α) :
    l.forM f' = check (l.mapM f) := by
  induction l with
  | nil => rfl
  | cons a l ih =>
    have hcons : (a :: l).forM f' = f' a >>= fun _ => l.forM f' := rfl
    rw [hcons, List.mapM_cons, h, ih]
    refine raising_bind fun b _ => ?_
    cases l.mapM f <;> rfl

theorem forM_check_unit {f' : α → Except Raised Unit} {f : α → Except Error Unit} (h : ∀ a, f' a = check (f a)) (l : List α) :
    l.forM f' = check (l.forM f) := by
  induction l with
  | nil => rfl
  | cons a l ih =>
    have hcons : (a :: l).forM f' = f' a >>= fun _ => l.forM f' := rfl
    have hcons' : (a :: l).forM f = f a >>= fun _ => l.forM f := rfl
    rw [hcons, hcons', h, ih]
    exact raising_bind fun _ _ => rfl

theorem foldlM_raising {φ : σ → τ} {f' : τ → α → Except Raised τ} {f : σ → α → Except Error σ}
    (h : ∀ s a, f' (φ s) a = raising φ (f s a)) (l : List α) (s : σ) : l.foldlM f' (φ s) = raising φ (l.foldlM f s) := by
  induction l generalizing s with
  | nil => rfl
  | cons a l ih =>
    rw [List.foldlM_cons, List.foldlM_cons, h]
    exact raising_bind fun s' _ => ih s'

end

section

variable {settings : Settings} {value : Value} {fields : Fields} {required optional : List String}

/-- A subscript after the shape was checked finds what the check saw. -/
theorem subscript_shape (name : String) (h : ReportTransfer.shape required optional value = .ok fields) (hname : name ∈ required) :
    ∃ w, subscript value name = .ok w ∧ member fields name = .ok w ∧ lookup fields (Json.text name) = some w := by
  obtain ⟨rfl, hrequired, -⟩ := shape_ok h
  obtain ⟨w, hw⟩ := hrequired name hname
  refine ⟨w, ?_, member_eq_ok.mpr hw, hw⟩
  have hfield : Json.field fields (Json.text name) = some w := hw
  simp only [subscript, Json.subscript, hfield]
  rfl

theorem items_dict {minimum maximum : ℕ} {l : List Value} (h : items minimum maximum value = .ok l) :
    access (Json.iterate value) = .ok l ∧ access (Json.length value) = .ok l.length := by
  obtain ⟨rfl, -, -⟩ := items_ok h
  exact ⟨rfl, rfl⟩

/-- Every checked element has its key as a text, and so the set of the keys is the set of these texts. -/
theorem unique_eq {name : String} {l : List Value} {keys : List Text} (hvalue : access (Json.iterate value) = .ok l)
    (hkeys : List.Forall₂ (fun item k => subscript item name = .ok (.str k)) l keys) :
    unique value name = check (ReportTransfer.require keys.Nodup) := by
  have hvalues : l.mapM (subscript · name) = .ok (keys.map .str) := by
    rw [mapM_eq_ok, List.forall₂_map_right_iff]
    exact hkeys
  have hhashed : (keys.map Value.str).mapM (fun v => access (Json.hashed v)) = .ok (keys.map .text) := by
    rw [mapM_eq_ok, List.forall₂_map_left_iff, List.forall₂_map_right_iff]
    exact List.forall₂_same.mpr fun _ _ => rfl
  have hinjective : Function.Injective Key.text := fun _ _ h => Key.text.inj h
  simp only [unique, hvalue, ok_bind, hvalues, hhashed]
  unfold require ReportTransfer.require
  simp only [List.nodup_map_iff hinjective]

theorem key_eq_ok {v : Value} {s : Text} (h : keyText v = .ok s) : v = .str s := by
  simp only [keyText, bind_eq_ok, asText_eq_ok, pure_eq_ok] at h
  obtain ⟨t, ht, -, -, rfl⟩ := h
  exact Option.some.inj ht

theorem typedValue_eq : typedValue settings value = check (ReportTransfer.typedValue settings value) := by
  unfold typedValue ReportTransfer.typedValue
  refine check_bind fun fields hshape => ?_
  obtain ⟨kind, hkind, -, hkind'⟩ := subscript_shape "type" hshape (by simp)
  obtain ⟨v, hv, hv', -⟩ := subscript_shape "value" hshape (by simp)
  rw [hkind, hv, ok_bind, ok_bind, hkind', hv']
  cases kind with
  | str s =>
    simp only [asText, ok_bind, text, timestamp, refuse, require]
    split_ifs
    · exact check_discard.symm
    · cases v <;> rfl
    · cases v <;> rfl
    · cases v <;> rfl
    · rfl
    · rfl
    · rfl
  | _ => rfl

theorem labelledField_eq : labelledField settings value = check (ReportTransfer.labelledField settings value) := by
  unfold labelledField ReportTransfer.labelledField
  refine check_bind fun fields hshape => ?_
  obtain ⟨k, hk, hk', -⟩ := subscript_shape "key" hshape (by simp)
  obtain ⟨label, hlabel, hlabel', -⟩ := subscript_shape "label" hshape (by simp)
  obtain ⟨v, hv, hv', -⟩ := subscript_shape "value" hshape (by simp)
  rw [hk, hk', ok_bind, ok_bind]
  refine check_bind fun s _ => ?_
  rw [hlabel, hlabel', ok_bind, ok_bind, text, ← check_discard]
  refine check_bind fun _ _ => ?_
  rw [hv, hv', ok_bind, ok_bind, typedValue_eq]
  cases ReportTransfer.typedValue settings v <;> rfl

/-- A field or a column that was checked has the returned key. -/
theorem labelledField_key {k : Text} (h : ReportTransfer.labelledField settings value = .ok k) :
    subscript value "key" = .ok (.str k) := by
  simp only [ReportTransfer.labelledField, bind_eq_ok, pure_eq_ok] at h
  obtain ⟨fields, hshape, v, hv, k', hk, _, -, _, -, _, -, _, -, rfl⟩ := h
  obtain ⟨w, hw, hmember, -⟩ := subscript_shape "key" hshape (by simp)
  rw [hmember] at hv
  cases hv
  rw [hw, key_eq_ok hk]

theorem column_key {k : Text} (h : ReportTransfer.column settings value = .ok k) : subscript value "key" = .ok (.str k) := by
  simp only [ReportTransfer.column, bind_eq_ok, pure_eq_ok] at h
  obtain ⟨fields, hshape, v, hv, k', hk, _, -, _, -, rfl⟩ := h
  obtain ⟨w, hw, hmember, -⟩ := subscript_shape "key" hshape (by simp)
  rw [hmember] at hv
  cases hv
  rw [hw, key_eq_ok hk]

theorem checkFields_eq : checkFields settings value = check (ReportTransfer.checkFields settings value) := by
  unfold checkFields ReportTransfer.checkFields
  refine check_bind fun l hl => ?_
  rw [(items_dict hl).1, ok_bind, forM_check (fun _ => labelledField_eq)]
  refine check_bind fun keys hkeys => ?_
  exact unique_eq (items_dict hl).1 ((mapM_eq_ok.mp hkeys).imp fun _ _ => labelledField_key)

theorem column_eq : column settings value = check (ReportTransfer.column settings value) := by
  unfold column ReportTransfer.column
  refine check_bind fun fields hshape => ?_
  obtain ⟨k, hk, hk', -⟩ := subscript_shape "key" hshape (by simp)
  obtain ⟨label, hlabel, hlabel', -⟩ := subscript_shape "label" hshape (by simp)
  rw [hk, hk', ok_bind, ok_bind]
  refine check_bind fun s _ => ?_
  rw [hlabel, hlabel', ok_bind, ok_bind, text, ← check_discard]
  cases discard (plainText settings 1 80 label) <;> rfl

/-- What was seen, as the set of the keys. -/
def seen (tally : Tally) : Seen := ⟨tally.keys.map .text, tally.blocks, tally.cells⟩

theorem text_mem {s : Text} {l : List Text} : Key.text s ∈ l.map Key.text ↔ s ∈ l :=
  List.mem_map_of_injective fun _ _ h => Key.text.inj h

theorem isPerm_text {l : List Text} {hashes : List (Uuid × Text)} :
    (l.map Key.text).isPerm (hashes.map fun a => Key.text a.1) = l.isPerm (hashes.map Prod.fst) := by
  have hmap : hashes.map (fun a => Key.text a.1) = (hashes.map Prod.fst).map Key.text := by
    rw [List.map_map]
    rfl
  rw [Bool.eq_iff_iff, List.isPerm_iff, List.isPerm_iff, hmap]
  exact List.map_perm_map_iff fun _ _ h => Key.text.inj h

theorem mem_seen {s : Text} {tally : Tally} : Key.text s ∈ (seen tally).keys ↔ s ∈ tally.keys := text_mem

theorem tableRow_eq {block : Value} {columns : ℕ} {tally : Tally}
    (hcolumns : (subscript block "columns" >>= fun v => access (Json.length v)) = .ok columns) :
    tableRow settings block (seen tally) value = raising seen (ReportTransfer.tableRow settings columns tally value) := by
  unfold tableRow ReportTransfer.tableRow
  rw [← bind_assoc, hcolumns, ok_bind]
  refine check_bind fun l hl => ?_
  simp only [(items_dict hl).1, (items_dict hl).2, ok_bind]
  refine check_bind fun _ _ => ?_
  rw [forM_check_unit (fun _ => typedValue_eq)]
  exact check_bind fun _ _ => rfl

theorem attachmentReference_eq {ids : List Uuid} :
    attachmentReference (ids.map .text) value = check (ReportTransfer.attachmentReference ids value) := by
  unfold attachmentReference ReportTransfer.attachmentReference identifier
  conv_rhs => rw [← bind_assoc]
  refine raising_bind fun id hid => ?_
  simp only [bind_eq_ok, asText_eq_ok, identifier_eq_ok] at hid
  obtain ⟨s, hs, -, rfl⟩ := hid
  cases Option.some.inj hs
  have hhashed : access (Json.hashed (.str s)) = .ok (.text s) := rfl
  simp only [hhashed, ok_bind, require, text_mem]
  cases ReportTransfer.require (s ∈ ids) <;> rfl

theorem hashed_text {s : Text} : access (Json.hashed (.str s)) = .ok (.text s) := rfl

/-- A reference is the text it was checked as. -/
theorem attachmentReference_text {ids : List Uuid} {id : Uuid} (h : ReportTransfer.attachmentReference ids value = .ok id) :
    access (Json.hashed value) = .ok (.text id) := by
  simp only [ReportTransfer.attachmentReference, bind_eq_ok, asText_eq_ok, identifier_eq_ok, pure_eq_ok] at h
  obtain ⟨s, hs, id', ⟨-, rfl⟩, -, -, rfl⟩ := h
  cases Option.some.inj hs
  rfl

theorem textBlock_eq {α β : Type} (φ : α → β) {a : α} : (textBlock settings value >>= fun _ => pure (φ a)) =
    raising φ (do
      let fields ← ReportTransfer.shape ["key", "kind", "text"] [] value
      discard (plainText settings 0 20000 (← member fields "text"))
      return a) := by
  rw [textBlock, bind_assoc]
  refine check_bind fun fields hshape => ?_
  obtain ⟨v, hv, hv', -⟩ := subscript_shape "text" hshape (by simp)
  rw [hv, hv', ok_bind, ok_bind, text, ← check_discard]
  exact check_bind fun _ _ => rfl

theorem fieldsBlock_eq {α β : Type} (φ : α → β) {a : α} : (fieldsBlock settings value >>= fun _ => pure (φ a)) =
    raising φ (do
      let fields ← ReportTransfer.shape ["key", "kind", "fields"] [] value
      ReportTransfer.checkFields settings (← member fields "fields")
      return a) := by
  rw [fieldsBlock, bind_assoc]
  refine check_bind fun fields hshape => ?_
  obtain ⟨v, hv, hv', -⟩ := subscript_shape "fields" hshape (by simp)
  rw [hv, hv', ok_bind, ok_bind, checkFields_eq]
  exact check_bind fun _ _ => rfl

theorem tableBlock_eq {tally : Tally} : tableBlock settings (seen tally) value =
    raising seen (do
      let fields ← ReportTransfer.shape ["key", "kind", "columns", "rows"] [] value
      let columns ← (← items 1 8 (← member fields "columns")).mapM (ReportTransfer.column settings)
      ReportTransfer.require columns.Nodup
      (← items 0 500 (← member fields "rows")).foldlM (ReportTransfer.tableRow settings columns.length) tally) := by
  unfold tableBlock
  refine check_bind fun fields hshape => ?_
  obtain ⟨columns, hcolumns, hcolumns', -⟩ := subscript_shape "columns" hshape (by simp)
  obtain ⟨rows, hrows, hrows', -⟩ := subscript_shape "rows" hshape (by simp)
  simp only [hcolumns, hcolumns', hrows, hrows', ok_bind]
  refine check_bind fun l hl => ?_
  rw [(items_dict hl).1, ok_bind, forM_check (fun _ => column_eq)]
  refine check_bind fun keys hkeys => ?_
  have hkeys := mapM_eq_ok.mp hkeys
  rw [unique_eq (items_dict hl).1 (hkeys.imp fun _ _ => column_key)]
  refine check_bind fun _ _ => ?_
  refine check_bind fun r hr => ?_
  rw [(items_dict hr).1, ok_bind]
  refine foldlM_raising (fun tally row => tableRow_eq ?_) r tally
  rw [hcolumns, ok_bind, (items_dict hl).2, hkeys.length_eq]

theorem referencesBlock_eq {α β : Type} (φ : α → β) {a : α} {ids : List Uuid} :
    (referencesBlock (ids.map .text) value >>= fun _ => pure (φ a)) =
    raising φ (do
      let fields ← ReportTransfer.shape ["key", "kind", "attachment_ids"] [] value
      let references ← (← items 0 32 (← member fields "attachment_ids")).mapM (ReportTransfer.attachmentReference ids)
      ReportTransfer.require references.Nodup
      return a) := by
  rw [referencesBlock, bind_assoc]
  refine check_bind fun fields hshape => ?_
  obtain ⟨v, hv, hv', -⟩ := subscript_shape "attachment_ids" hshape (by simp)
  simp only [hv, hv', ok_bind, bind_assoc]
  refine check_bind fun l hl => ?_
  simp only [(items_dict hl).1, ok_bind]
  rw [forM_check (fun _ => attachmentReference_eq)]
  refine check_bind fun references hreferences => ?_
  have hhashed : l.mapM (fun v => access (Json.hashed v)) = .ok (references.map .text) := by
    rw [mapM_eq_ok, List.forall₂_map_right_iff]
    exact (mapM_eq_ok.mp hreferences).imp fun _ _ => attachmentReference_text
  have hinjective : Function.Injective Key.text := fun _ _ h => Key.text.inj h
  rw [hhashed, ok_bind, require]
  simp only [List.nodup_map_iff hinjective]
  exact check_bind fun _ _ => rfl

/-- A member read with `get`, where the check has it absent or a text. -/
theorem get_eq {name : String} : access (Json.get (.dict fields) (Json.text name)) = .ok ((lookup fields (Json.text name)).getD .null) := rfl

theorem block_eq {ids : List Uuid} {tally : Tally} :
    block settings (ids.map .text) (seen tally) value = raising seen (ReportTransfer.block settings ids tally value) := by
  unfold block ReportTransfer.block
  refine check_bind fun fields hdict => ?_
  cases value with
  | dict members =>
    cases hdict
    rw [get_eq, ok_bind]
    cases hk : lookup fields (Json.text "key") with
    | none =>
      rw [member, hk]
      rfl
    | some k =>
      have hsubscript : subscript (.dict fields) "key" = .ok k := by
        have hfield : Json.field fields (Json.text "key") = some k := hk
        simp only [subscript, Json.subscript, hfield]
        rfl
      rw [Option.getD_some, hsubscript, member_eq_ok.mpr hk, ok_bind]
      refine check_bind fun s hs => ?_
      cases key_eq_ok hs
      have hseen : ({ seen tally with keys := Key.text s :: (seen tally).keys } : Seen) =
          seen { tally with keys := s :: tally.keys } := rfl
      simp only [hashed_text, ok_bind, require, mem_seen, hseen, get_eq, textField]
      refine check_bind fun _ _ => ?_
      generalize ({ tally with keys := s :: tally.keys } : Tally) = tally'
      cases lookup fields (Json.text "kind") with
      | none => rfl
      | some kind =>
        cases kind with
        | str kind =>
          simp only [Option.getD_some, asText, ok_bind]
          split_ifs
          · exact textBlock_eq seen
          · exact fieldsBlock_eq seen
          · exact tableBlock_eq
          · exact referencesBlock_eq seen
          · rfl
        | _ => rfl
  | _ => cases hdict

theorem section_eq {ids : List Uuid} {tally : Tally} : section' settings (ids.map .text) (seen tally) value =
    raising seen (ReportTransfer.section' settings ids tally value) := by
  unfold section' ReportTransfer.section'
  refine check_bind fun fields hshape => ?_
  obtain ⟨k, hk, hk', -⟩ := subscript_shape "key" hshape (by simp)
  obtain ⟨title, htitle, htitle', -⟩ := subscript_shape "title" hshape (by simp)
  obtain ⟨blocks, hblocks, hblocks', -⟩ := subscript_shape "blocks" hshape (by simp)
  simp only [hk, hk', htitle, htitle', hblocks, hblocks', ok_bind]
  refine check_bind fun s hs => ?_
  cases key_eq_ok hs
  rw [text, ← check_discard]
  refine check_bind fun _ _ => ?_
  simp only [hashed_text, ok_bind, require, mem_seen]
  refine check_bind fun _ _ => ?_
  refine check_bind fun l hl => ?_
  simp only [(items_dict hl).1, (items_dict hl).2, ok_bind]
  exact check_bind fun _ _ => foldlM_raising (fun _ _ => block_eq) l
    { tally with keys := s :: tally.keys, blocks := tally.blocks + l.length }

theorem attachment_eq {ids : List Uuid} :
    attachment settings (ids.map .text) value = raising (List.map .text) (ReportTransfer.attachment settings ids value) := by
  unfold attachment ReportTransfer.attachment
  refine check_bind fun fields hshape => ?_
  obtain ⟨v, hv, -, hlookup⟩ := subscript_shape "id" hshape (by simp)
  obtain ⟨title, htitle, htitle', -⟩ := subscript_shape "title" hshape (by simp)
  obtain ⟨caption, hcaption, hcaption', -⟩ := subscript_shape "caption" hshape (by simp)
  simp only [hv, hlookup, htitle, htitle', hcaption, hcaption', ok_bind, textField, identifier]
  conv_rhs => rw [← bind_assoc]
  refine raising_bind fun id hid => ?_
  simp only [bind_eq_ok, asText_eq_ok, identifier_eq_ok] at hid
  obtain ⟨s, hs, -, rfl⟩ := hid
  cases Option.some.inj hs
  simp only [hashed_text, ok_bind, require, text_mem, text]
  refine check_bind fun _ _ => ?_
  rw [← check_discard]
  refine check_bind fun _ _ => ?_
  rw [← check_discard]
  refine check_bind fun _ _ => ?_
  simp only [raising, pure, Except.pure, List.map_append, List.map_cons, List.map_nil]

theorem finalization_eq {ids : List Uuid} :
    finalization settings (ids.map .text) value = check (ReportTransfer.finalization settings ids value) := by
  unfold finalization ReportTransfer.finalization
  refine check_bind fun fields hshape => ?_
  obtain ⟨author, hauthor, hauthor', -⟩ := subscript_shape "author" hshape (by simp)
  obtain ⟨moment, hmoment, hmoment', -⟩ := subscript_shape "finalized_at" hshape (by simp)
  obtain ⟨rfl, -, -⟩ := shape_ok hshape
  simp only [hauthor, hauthor', hmoment, hmoment', ok_bind]
  refine check_bind fun authorFields hauthorShape => ?_
  obtain ⟨id, hid, hid', -⟩ := subscript_shape "id" hauthorShape (by simp)
  obtain ⟨name, hname, hname', -⟩ := subscript_shape "display_name" hauthorShape (by simp)
  simp only [hid, hid', hname, hname', ok_bind, text]
  rw [← check_discard]
  refine check_bind fun _ _ => ?_
  rw [← check_discard]
  refine check_bind fun _ _ => ?_
  refine check_bind fun _ _ => ?_
  have hcontains : access (Json.contains (.dict fields) (Json.text "signature_attachment_id")) =
      .ok (decide (Json.text "signature_attachment_id" ∈ fields.map Prod.fst)) := rfl
  rw [hcontains, ok_bind]
  cases hsignature : lookup fields (Json.text "signature_attachment_id") with
  | none =>
    have habsent : Json.text "signature_attachment_id" ∉ fields.map Prod.fst := by
      intro hmem
      obtain ⟨f, hf, hname⟩ := List.mem_map.mp hmem
      rw [lookup, Option.map_eq_none_iff] at hsignature
      exact List.find?_eq_none.mp hsignature f hf (by simpa using hname)
    rw [if_neg (by simpa using habsent)]
    rfl
  | some v =>
    have hpresent : Json.text "signature_attachment_id" ∈ fields.map Prod.fst := by
      obtain ⟨f, hf, -⟩ := Option.map_eq_some_iff.mp hsignature
      have hname := List.find?_some hf
      exact List.mem_map.mpr ⟨f, List.mem_of_find?_eq_some hf, by simpa using hname⟩
    have hsubscript : subscript (.dict fields) "signature_attachment_id" = .ok v := by
      have hfield : Json.field fields (Json.text "signature_attachment_id") = some v := hsignature
      simp only [subscript, Json.subscript, hfield]
      rfl
    rw [if_pos (by simpa using hpresent), hsubscript, ok_bind, attachmentReference_eq, ← check_discard]
    rfl

theorem checkDocument_eq {document reportId : Value} {hashes : List (Uuid × Text)} :
    checkDocument settings document reportId hashes =
      check (ReportTransfer.checkDocument settings document (some reportId) hashes) := by
  unfold checkDocument ReportTransfer.checkDocument
  refine check_bind fun fields hshape => ?_
  obtain ⟨named, hnamed, -, hlookup⟩ := subscript_shape "report_id" hshape (by simp)
  obtain ⟨version, hversion, -, hlookup'⟩ := subscript_shape "schema_version" hshape (by simp)
  obtain ⟨type, htype, htype', -⟩ := subscript_shape "report_type" hshape (by simp)
  obtain ⟨title, htitle, htitle', -⟩ := subscript_shape "title" hshape (by simp)
  obtain ⟨header, hheader, hheader', -⟩ := subscript_shape "header" hshape (by simp)
  obtain ⟨attachments, hattachments, hattachments', -⟩ := subscript_shape "attachments" hshape (by simp)
  obtain ⟨sections, hsections, hsections', -⟩ := subscript_shape "sections" hshape (by simp)
  obtain ⟨final, hfinal, hfinal', -⟩ := subscript_shape "finalization" hshape (by simp)
  simp only [hnamed, hlookup, hversion, hlookup', htype, htype', htitle, htitle', hheader, hheader', hattachments,
    hattachments', hsections, hsections', hfinal, hfinal', ok_bind, textField, identifier]
  conv_rhs => rw [← bind_assoc]
  refine raising_bind fun id _ => ?_
  cases named with
  | str t =>
    simp only [asText, ok_bind, isStr, decide_eq_true_eq, require, text]
    refine check_bind fun _ _ => ?_
    refine check_bind fun _ _ => ?_
    rw [← check_discard]
    refine check_bind fun _ _ => ?_
    rw [← check_discard]
    refine check_bind fun _ _ => ?_
    rw [checkFields_eq]
    refine check_bind fun _ _ => ?_
    refine check_bind fun l hl => ?_
    rw [(items_dict hl).1, ok_bind]
    refine (congrArg (· >>= _) (foldlM_raising (fun _ _ => attachment_eq) l [])).trans ?_
    refine raising_bind fun ids _ => ?_
    rw [isPerm_text]
    refine check_bind fun _ _ => ?_
    refine check_bind fun _ _ => ?_
    refine check_bind fun b hb => ?_
    rw [(items_dict hb).1, ok_bind]
    refine (congrArg (· >>= _) (foldlM_raising (fun _ _ => section_eq) b {})).trans ?_
    refine raising_bind fun _ _ => ?_
    rw [finalization_eq]
    cases ReportTransfer.finalization settings ids final <;> rfl
  | _ => rfl

/-- The bound on the written document is checked once nothing can go wrong in writing it. -/
theorem validateDocument_eq {document reportId : Value} (hdistinct : document.Distinct) {hashes : List (Uuid × Text)}
    (hdepth : 8 ≤ settings.jsonLimits.depth) (hdigits : 16 ≤ settings.jsonLimits.digits) :
    validateDocument settings document reportId hashes =
      check (ReportTransfer.validateDocument settings document (some reportId) hashes) := by
  rw [validateDocument, checkDocument_eq, ReportTransfer.validateDocument_eq]
  refine check_bind fun id hchecked => ?_
  obtain ⟨ids, hschema, -, huuids, -, -, -, huuid⟩ := checkDocument_ok hchecked
  have hwritable := (tame_document (admits_all settings) hdigits huuids huuid).mono hdepth document hdistinct hschema
  have hwritten : access (Json.written settings.jsonLimits document) = .ok () := by
    simp only [Json.written, hwritable.2]
    rfl
  rw [hwritten, ok_bind, require]
  cases ReportTransfer.require ((canonical settings document).length ≤ 1024 * 1024) <;> rfl

end

/-! ### The one error of the checks -/

/-- The only error is a refused package. -/
def Refuses {α : Type} (x : Except Error α) : Prop := ∀ e, x = .error e → e = invalidPackage

section

variable {α β σ : Type}

theorem refuses_ok {a : α} : Refuses (.ok a : Except Error α) := nofun

theorem refuses_pure {a : α} : Refuses (pure a : Except Error α) := nofun

theorem refuses_invalid : Refuses (.error invalidPackage : Except Error α) := by
  intro e h
  cases h
  rfl

theorem refuses_require {c : Prop} [Decidable c] : Refuses (ReportTransfer.require c) := by
  unfold ReportTransfer.require
  split_ifs
  · exact refuses_ok
  · exact refuses_invalid

theorem Refuses.bind {x : Except Error α} {f : α → Except Error β} (hx : Refuses x) (hf : ∀ a, Refuses (f a)) :
    Refuses (x >>= f) := by
  cases x with
  | error e =>
    intro e' h
    cases h
    exact hx e rfl
  | ok a => exact hf a

theorem Refuses.discard {x : Except Error α} (hx : Refuses x) : Refuses (discard x) := by
  cases x with
  | error e =>
    intro e' h
    cases h
    exact hx e rfl
  | ok a => exact refuses_ok

theorem refuses_mapM {f : α → Except Error β} (hf : ∀ a, Refuses (f a)) (l : List α) : Refuses (l.mapM f) := by
  induction l with
  | nil => exact refuses_pure
  | cons a l ih =>
    rw [List.mapM_cons]
    exact (hf a).bind fun b => ih.bind fun l' => refuses_pure

theorem refuses_forM {f : α → Except Error Unit} (hf : ∀ a, Refuses (f a)) (l : List α) : Refuses (l.forM f) := by
  induction l with
  | nil => exact refuses_pure
  | cons a l ih => exact (hf a).bind fun _ => ih

theorem refuses_foldlM {f : σ → α → Except Error σ} (hf : ∀ s a, Refuses (f s a)) (l : List α) (s : σ) : Refuses (l.foldlM f s) := by
  induction l generalizing s with
  | nil => exact refuses_pure
  | cons a l ih =>
    rw [List.foldlM_cons]
    exact (hf s a).bind fun s' => ih s'

end

section

variable {settings : Settings} {value : Value} {fields : Fields}

theorem refuses_asText {v : Option Value} : Refuses (asText v) := by
  unfold asText
  split
  · exact refuses_ok
  · exact refuses_invalid

theorem refuses_asDict : Refuses (asDict value) := by
  cases value with
  | dict fields => exact refuses_ok
  | _ => exact refuses_invalid

theorem refuses_member {name : String} : Refuses (member fields name) := by
  unfold member
  split
  · exact refuses_ok
  · exact refuses_invalid

theorem refuses_shape {required optional : List String} : Refuses (ReportTransfer.shape required optional value) :=
  refuses_asDict.bind fun _ => refuses_require.bind fun _ => refuses_pure

theorem refuses_plainText {minimum maximum : ℕ} : Refuses (plainText settings minimum maximum value) :=
  refuses_asText.bind fun _ => refuses_require.bind fun _ => refuses_require.bind fun _ => refuses_require.bind fun _ =>
    refuses_pure

theorem refuses_keyText : Refuses (keyText value) :=
  refuses_asText.bind fun _ => refuses_require.bind fun _ => refuses_pure

theorem refuses_items {minimum maximum : ℕ} : Refuses (items minimum maximum value) := by
  cases value with
  | list l => exact refuses_require.bind fun _ => refuses_pure
  | _ => exact refuses_invalid

theorem refuses_identifier {s : Text} : Refuses (ReportTransfer.identifier s) := refuses_require.bind fun _ => refuses_pure

theorem refuses_timestamp : Refuses (ReportTransfer.timestamp settings value) :=
  refuses_plainText.bind fun _ => refuses_require

theorem refuses_typedValue : Refuses (ReportTransfer.typedValue settings value) := by
  refine refuses_shape.bind fun fields => refuses_asText.bind fun kind => refuses_member.bind fun v => ?_
  split_ifs
  · exact refuses_plainText.discard
  · cases v <;> first | exact refuses_require | exact refuses_invalid
  · cases v <;> first | exact refuses_require | exact refuses_invalid
  · cases v <;> first | exact refuses_pure | exact refuses_invalid
  · exact refuses_plainText.bind fun _ => refuses_require
  · exact refuses_timestamp
  · exact refuses_invalid

theorem refuses_labelledField : Refuses (ReportTransfer.labelledField settings value) :=
  refuses_shape.bind fun _ => refuses_member.bind fun _ => refuses_keyText.bind fun _ => refuses_member.bind fun _ =>
    refuses_plainText.discard.bind fun _ => refuses_member.bind fun _ => refuses_typedValue.bind fun _ => refuses_pure

theorem refuses_checkFields : Refuses (ReportTransfer.checkFields settings value) :=
  refuses_items.bind fun l => (refuses_mapM (fun _ => refuses_labelledField) l).bind fun _ => refuses_require

theorem refuses_column : Refuses (ReportTransfer.column settings value) :=
  refuses_shape.bind fun _ => refuses_member.bind fun _ => refuses_keyText.bind fun _ => refuses_member.bind fun _ =>
    refuses_plainText.discard.bind fun _ => refuses_pure

theorem refuses_tableRow {columns : ℕ} {tally : Tally} : Refuses (ReportTransfer.tableRow settings columns tally value) :=
  refuses_items.bind fun l => refuses_require.bind fun _ => (refuses_forM (fun _ => refuses_typedValue) l).bind fun _ =>
    refuses_pure

theorem refuses_attachmentReference {ids : List Uuid} : Refuses (ReportTransfer.attachmentReference ids value) :=
  refuses_asText.bind fun _ => refuses_identifier.bind fun _ => refuses_require.bind fun _ => refuses_pure

theorem refuses_block {ids : List Uuid} {tally : Tally} : Refuses (ReportTransfer.block settings ids tally value) := by
  refine refuses_asDict.bind fun _ => refuses_member.bind fun _ => refuses_keyText.bind fun _ => refuses_require.bind fun _ =>
    refuses_asText.bind fun kind => ?_
  split_ifs
  · exact refuses_shape.bind fun _ => refuses_member.bind fun _ => refuses_plainText.discard.bind fun _ => refuses_pure
  · exact refuses_shape.bind fun _ => refuses_member.bind fun _ => refuses_checkFields.bind fun _ => refuses_pure
  · refine refuses_shape.bind fun _ => refuses_member.bind fun _ => refuses_items.bind fun columns => ?_
    refine (refuses_mapM (fun _ => refuses_column) columns).bind fun _ => refuses_require.bind fun _ => ?_
    exact refuses_member.bind fun _ => refuses_items.bind fun rows => refuses_foldlM (fun _ _ => refuses_tableRow) rows _
  · refine refuses_shape.bind fun _ => refuses_member.bind fun _ => refuses_items.bind fun references => ?_
    exact (refuses_mapM (fun _ => refuses_attachmentReference) references).bind fun _ => refuses_require.bind fun _ => refuses_pure
  · exact refuses_invalid

theorem refuses_section {ids : List Uuid} {tally : Tally} : Refuses (ReportTransfer.section' settings ids tally value) :=
  refuses_shape.bind fun _ => refuses_member.bind fun _ => refuses_keyText.bind fun _ => refuses_member.bind fun _ =>
    refuses_plainText.discard.bind fun _ => refuses_require.bind fun _ => refuses_member.bind fun _ => refuses_items.bind fun blocks =>
      refuses_require.bind fun _ => refuses_foldlM (fun _ _ => refuses_block) blocks _

theorem refuses_attachment {ids : List Uuid} : Refuses (ReportTransfer.attachment settings ids value) :=
  refuses_shape.bind fun _ => refuses_asText.bind fun _ => refuses_identifier.bind fun _ => refuses_require.bind fun _ =>
    refuses_member.bind fun _ => refuses_plainText.discard.bind fun _ => refuses_member.bind fun _ =>
      refuses_plainText.discard.bind fun _ => refuses_pure

theorem refuses_finalization {ids : List Uuid} : Refuses (ReportTransfer.finalization settings ids value) := by
  refine refuses_shape.bind fun fields => refuses_member.bind fun _ => refuses_shape.bind fun _ => refuses_member.bind fun _ =>
    refuses_plainText.discard.bind fun _ => refuses_member.bind fun _ => refuses_plainText.discard.bind fun _ =>
      refuses_member.bind fun _ => refuses_timestamp.bind fun _ => ?_
  cases lookup fields (Json.text "signature_attachment_id") with
  | none => exact refuses_pure
  | some signature => exact refuses_attachmentReference.discard

theorem refuses_checkDocument {reportId : Option Value} {hashes : List (Uuid × Text)} :
    Refuses (ReportTransfer.checkDocument settings value reportId hashes) := by
  refine refuses_shape.bind fun _ => refuses_asText.bind fun _ => refuses_identifier.bind fun _ => refuses_asText.bind fun _ =>
    refuses_require.bind fun _ => refuses_require.bind fun _ => refuses_member.bind fun _ => refuses_plainText.discard.bind fun _ =>
      refuses_member.bind fun _ => refuses_plainText.discard.bind fun _ => refuses_member.bind fun _ => refuses_checkFields.bind fun _ => ?_
  refine refuses_member.bind fun _ => refuses_items.bind fun l => (refuses_foldlM (fun _ _ => refuses_attachment) l _).bind fun _ => ?_
  refine refuses_require.bind fun _ => refuses_require.bind fun _ => refuses_member.bind fun _ => refuses_items.bind fun s => ?_
  exact (refuses_foldlM (fun _ _ => refuses_section) s _).bind fun _ => refuses_member.bind fun _ =>
    refuses_finalization.bind fun _ => refuses_pure

theorem refuses_validateDocument {reportId : Option Value} {hashes : List (Uuid × Text)} :
    Refuses (ReportTransfer.validateDocument settings value reportId hashes) := by
  rw [ReportTransfer.validateDocument_eq]
  exact refuses_checkDocument.bind fun _ => refuses_require.bind fun _ => refuses_pure

end

end FireDash.ReportTransfer.Raising
