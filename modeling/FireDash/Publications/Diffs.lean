import FireDash.Publications.Payloads
import Mathlib.Data.Set.Card

/-! Bounded source-snapshot diffs for administrator publication inspection. -/
namespace FireDash.Publications.Diffs
open Json (AccessError Double FaithfulRepr Record Regular Schema Text Value Writer field text)
open Payloads (Fields IsPayload Settings idOf sourceFingerprintForPayload)

def previewLimit : ℕ := 25

/-- One changed field; a PDF shows neither of its hashes. -/
structure Change where
  field : Text
  before : Value
  after : Value

inductive Kind where
  | added
  | removed
  | changed
  deriving DecidableEq

structure Preview where
  kind : Kind
  label : Text
  fields : List Change

structure SourceDiff where
  added : ℕ
  removed : ℕ
  changed : ℕ
  total : ℕ
  preview : List Preview
  truncated : Option Bool

/-- `key.replace("_", " ").capitalize()` of a field name, which is ASCII. -/
def fieldName (key : Text) : Text :=
  match key.map fun c => if c = 95 then 32 else c with
  | [] => []
  | c :: rest =>
    (if 97 ≤ c ∧ c ≤ 122 then c - 32 else c) :: rest.map fun c => if 65 ≤ c ∧ c ≤ 90 then c + 32 else c

def flatten (value : Fields) : Fields :=
  let flattened := value.filter fun f => f.1 ≠ text "properties"
  match field value (text "properties") with
  | some (.dict properties) => properties.foldl (fun fields f => Json.setField fields f.1 f.2) flattened
  | _ => flattened

/-- `sorted(set(texts))`. -/
def sortedSet (texts : List Text) : List Text := texts.dedup.insertionSort (· ≤ ·)

/-- The fields whose difference is not looked at. -/
def hidden : List Text := [text "id", text "type", text "path"]

def changedField (old new : Fields) (key : Text) : Option Change :=
  if key ∈ hidden then none
  else
    let before := (field old key).getD .null
    let after := (field new key).getD .null
    if Json.eq before after then none
    else if key = text "sha256" then
      some ⟨text "PDF content", .str (text "Previous content"), .str (text "Updated content")⟩
    else some ⟨fieldName key, before, after⟩

def changedFields (old new : Fields) : List Change :=
  let old := flatten old
  let new := flatten new
  (sortedSet (old.map Prod.fst ++ new.map Prod.fst)).filterMap (changedField old new)

/-- The first of some values that is true, or the last. -/
def firstTrue : List Value → Value → Value
  | [], fallback => fallback
  | v :: rest, fallback => if Json.truth v then v else firstTrue rest fallback

def label (writer : Writer) (row : Fields) (fallback : Text) : Except AccessError Text :=
  if row = [] then .ok fallback
  else
    let properties : Fields := match field row (text "properties") with
      | some (.dict properties) => properties
      | _ => []
    let value (fields : Fields) (name : String) := (field fields (text name)).getD .null
    Json.str writer (firstTrue [value row "display_name", value row "object_name", value row "external_identifier",
      value properties "external_identifier"] (.str fallback))

/-- `row.get("id") or row.get("properties", {}).get("external_identifier")`. -/
def identity (row : Fields) : Except AccessError Value :=
  let id := (field row (text "id")).getD .null
  if Json.truth id then .ok id
  else Json.get ((field row (text "properties")).getD (.dict [])) (text "external_identifier")

def insertRow (writer : Writer) (result : Fields) : Value → Except AccessError Fields
  | .dict row => do
    match ← identity row with
    | .null => return result
    | id => return Json.setField result (← Json.str writer id) (.dict row)
  | _ => return result

def byId (writer : Writer) : Value → Except AccessError Fields
  | .list rows => rows.foldlM (insertRow writer) []
  | _ => return []

structure Tally where
  added : ℕ := 0
  removed : ℕ := 0
  changed : ℕ := 0
  preview : List Preview := []

def members : Value → Fields
  | .dict fields => fields
  | _ => []

def tally (writer : Writer) (beforeRows afterRows : Fields) (t : Tally) (identity : Text) : Except AccessError Tally := do
  match field beforeRows identity, field afterRows identity with
  | none, new =>
    let label ← label writer ((new.map members).getD []) identity
    return { t with added := t.added + 1, preview := t.preview ++ [⟨.added, label, []⟩] }
  | some old, none =>
    let label ← label writer (members old) identity
    return { t with removed := t.removed + 1, preview := t.preview ++ [⟨.removed, label, []⟩] }
  | some old, some new =>
    match changedFields (members old) (members new) with
    | [] => return t
    | fields =>
      let label ← label writer (members new) identity
      return { t with changed := t.changed + 1, preview := t.preview ++ [⟨.changed, label, fields⟩] }

def collectionKey (before after : Fields) : Option Text :=
  ["features", "people", "fire_plans", "klgv_plans"].map text |>.find? fun key =>
    key ∈ after.map Prod.fst ∨ key ∈ before.map Prod.fst

/-- Compare the canonical payload used by the source fingerprint, never artifacts. -/
def sourceDiff (writer : Writer) (before after : Fields) : Except AccessError SourceDiff := do
  match collectionKey before after with
  | none => return { added := 0, removed := 0, changed := 0, total := 0, preview := [], truncated := none }
  | some key =>
    let beforeRows ← byId writer ((field before key).getD (.list []))
    let afterRows ← byId writer ((field after key).getD (.list []))
    let identities := sortedSet (beforeRows.map Prod.fst ++ afterRows.map Prod.fst)
    let t ← identities.foldlM (tally writer beforeRows afterRows) {}
    return { added := t.added
             removed := t.removed
             changed := t.changed
             total := t.added + t.removed + t.changed
             preview := t.preview.take previewLimit
             truncated := some (decide (previewLimit < t.preview.length)) }

/-! ### Rows under their identities -/

theorem mem_sortedSet {texts : List Text} {t : Text} : t ∈ sortedSet texts ↔ t ∈ texts := by
  rw [sortedSet, (List.perm_insertionSort _ _).mem_iff, List.mem_dedup]

theorem nodup_sortedSet (texts : List Text) : (sortedSet texts).Nodup :=
  (List.perm_insertionSort _ _).nodup_iff.mpr (List.nodup_dedup texts)

theorem field_setField (fields : Fields) (key other : Text) (v : Value) :
    field (Json.setField fields key v) other = if other = key then some v else field fields other := by
  unfold Json.setField field
  by_cases hother : other = key
  · subst hother
    rw [if_pos rfl]
    split_ifs with hany
    · induction fields with
      | nil => cases hany
      | cons f fields ih =>
        by_cases hf : f.1 = other
        · simp [hf]
        · have hrest : (fields.any fun f => decide (f.1 = other)) = true := by simpa [hf] using hany
          rw [List.map_cons, if_neg hf, List.find?_cons_of_neg (by simpa using hf)]
          exact ih hrest
    · have hnone : fields.find? (fun f => decide (f.1 = other)) = none := by
        rw [List.find?_eq_none]
        intro f hf hname
        exact hany (List.any_eq_true.mpr ⟨f, hf, hname⟩)
      rw [List.find?_append, hnone]
      simp
  · rw [if_neg hother]
    split_ifs with hany
    · exact Json.field_replaced hother
    · rw [List.find?_append]
      have hne : key ≠ other := fun h => hother h.symm
      simp [hne]

theorem mem_keys_iff {fields : Fields} {key : Text} : key ∈ fields.map Prod.fst ↔ ∃ v, field fields key = some v := by
  unfold field
  constructor
  · intro h
    obtain ⟨f, hf, rfl⟩ := List.mem_map.mp h
    have hsome : (fields.find? fun g => decide (g.1 = f.1)).isSome = true := List.find?_isSome.mpr ⟨f, hf, by simp⟩
    obtain ⟨g, hg⟩ := Option.isSome_iff_exists.mp hsome
    exact ⟨g.2, by rw [hg]; rfl⟩
  · rintro ⟨v, hv⟩
    obtain ⟨g, hg, -⟩ := Option.map_eq_some_iff.mp hv
    have hkey := List.find?_some hg
    simp only [decide_eq_true_eq] at hkey
    exact hkey ▸ List.mem_map_of_mem (List.mem_of_find?_eq_some hg)

section

variable {writer : Writer} {columns : List (String × Schema)} {rows : List Value} {v : Value}

/-- The identity of a row is a text that is not empty. -/
theorem row_identity (hcolumns : (columns.map Prod.fst).Nodup) (hid : ("id", Payloads.identity) ∈ columns)
    (hv : Schema.object columns v) : ∃ f, v = .dict f ∧ Record columns f ∧ field f (text "id") = some (.str (idOf v)) ∧
      idOf v ≠ [] := by
  obtain ⟨f, rfl, hf⟩ := hv
  obtain ⟨w, hw, s, rfl, hs, -⟩ := hf.column hid
  have hfield : field f (text "id") = some (.str s) := Schema.field_of_mem (hf.nodup hcolumns) hw
  have hidOf : idOf (.dict f) = s := by simp only [idOf, hfield]
  exact ⟨f, rfl, hf, by rw [hfield, hidOf], hidOf ▸ hs⟩

theorem insertRow_row (hcolumns : (columns.map Prod.fst).Nodup) (hid : ("id", Payloads.identity) ∈ columns)
    (hv : Schema.object columns v) (result : Fields) :
    insertRow writer result v = .ok (Json.setField result (idOf v) v) := by
  obtain ⟨f, rfl, -, hfield, hne⟩ := row_identity hcolumns hid hv
  have hidentity : identity f = .ok (.str (idOf (.dict f))) := by
    unfold identity
    rw [hfield, Option.getD_some, if_pos]
    simpa [Json.truth] using hne
  simp only [insertRow, hidentity]
  rfl

/-- A row is found under its identity. -/
theorem field_foldl (hcopies : ∀ a ∈ rows, ∀ b ∈ rows, idOf a = idOf b → a = b) (result : Fields) (id : Text) :
    field (rows.foldl (fun result v => Json.setField result (idOf v) v) result) id = some v ↔
      (v ∈ rows ∧ idOf v = id) ∨ (id ∉ rows.map idOf ∧ field result id = some v) := by
  induction rows generalizing result with
  | nil => simp
  | cons a rows ih =>
    have hrest := fun b hb c hc => hcopies b (List.mem_cons_of_mem _ hb) c (List.mem_cons_of_mem _ hc)
    rw [List.foldl_cons, ih hrest, field_setField, List.map_cons]
    by_cases hid : id = idOf a
    · rw [if_pos hid, Option.some.injEq]
      constructor
      · rintro (⟨hv, hvid⟩ | ⟨-, rfl⟩)
        · exact .inl ⟨List.mem_cons_of_mem _ hv, hvid⟩
        · exact .inl ⟨List.mem_cons_self, hid.symm⟩
      · rintro (⟨hv, hvid⟩ | ⟨hnot, -⟩)
        · have heq : a = v := hcopies a List.mem_cons_self v hv (hid.symm.trans hvid.symm)
          by_cases hmem : id ∈ rows.map idOf
          · obtain ⟨b, hb, hbid⟩ := List.mem_map.mp hmem
            have hba : b = v := hcopies b (List.mem_cons_of_mem _ hb) v hv (hbid.trans hvid.symm)
            exact .inl ⟨hba ▸ hb, hvid⟩
          · exact .inr ⟨hmem, heq⟩
        · exact absurd (List.mem_cons.mpr (.inl hid)) hnot
    · rw [if_neg hid, List.mem_cons, List.mem_cons, not_or]
      constructor
      · rintro (⟨hv, hvid⟩ | ⟨hnot, hfield⟩)
        · exact .inl ⟨.inr hv, hvid⟩
        · exact .inr ⟨⟨hid, hnot⟩, hfield⟩
      · rintro (⟨rfl | hv, hvid⟩ | ⟨⟨-, hnot⟩, hfield⟩)
        · exact absurd hvid.symm hid
        · exact .inl ⟨hv, hvid⟩
        · exact .inr ⟨hnot, hfield⟩

theorem byId_ok (hcolumns : (columns.map Prod.fst).Nodup) (hid : ("id", Payloads.identity) ∈ columns)
    (hrows : Payloads.Rows columns rows) : ∃ result, byId writer (.list rows) = .ok result ∧
      ∀ id v, field result id = some v ↔ v ∈ rows ∧ idOf v = id := by
  have hfold : ∀ (l : List Value) (result : Fields), (∀ v ∈ l, Schema.object columns v) →
      l.foldlM (insertRow writer) result = .ok (l.foldl (fun result v => Json.setField result (idOf v) v) result) := by
    intro l
    induction l with
    | nil => exact fun _ _ => rfl
    | cons a l ih =>
      intro result hl
      rw [List.foldlM_cons, insertRow_row hcolumns hid (hl a List.mem_cons_self), ok_bind, List.foldl_cons]
      exact ih _ fun v hv => hl v (List.mem_cons_of_mem _ hv)
  refine ⟨_, hfold rows [] hrows.row, fun id v => ?_⟩
  rw [field_foldl hrows.copies]
  have hempty : field [] id = none := rfl
  simp [hempty]

end

/-! ### The fields and the label of a row -/

section

variable {P : Double → Prop} {writer : Writer} {columns : List (String × Schema)} {f g : Fields}

theorem changedFields_eq_nil_iff (h : Json.Aligned (flatten f) (flatten g)) : changedFields f g = [] ↔
    ∀ key v w, (key, v) ∈ flatten f → (key, w) ∈ flatten g → key ∉ hidden → Json.eq v w = true := by
  have hchanged : ∀ key v w, (key, v) ∈ flatten f → (key, w) ∈ flatten g →
      (changedField (flatten f) (flatten g) key = none ↔ (key ∉ hidden → Json.eq v w = true)) := by
    intro key v w hv hw
    unfold changedField
    rw [h.field_left hv, h.field_right hw, Option.getD_some, Option.getD_some]
    by_cases hkey : key ∈ hidden
    · rw [if_pos hkey]
      exact ⟨fun _ hnot => absurd hkey hnot, fun _ => rfl⟩
    · rw [if_neg hkey]
      dsimp only
      by_cases heq : Json.eq v w = true
      · rw [if_pos heq]
        exact ⟨fun _ _ => heq, fun _ => rfl⟩
      · rw [if_neg heq]
        refine ⟨fun hnone => ?_, fun hall => absurd (hall hkey) heq⟩
        split_ifs at hnone
  have hnil : changedFields f g = [] ↔
      ∀ key ∈ (flatten f).map Prod.fst ++ (flatten g).map Prod.fst, changedField (flatten f) (flatten g) key = none := by
    unfold changedFields
    rw [List.filterMap_eq_nil_iff]
    simp only [mem_sortedSet]
  rw [hnil]
  constructor
  · intro hall key v w hv hw
    exact (hchanged key v w hv hw).mp (hall key (List.mem_append_left _ (List.mem_map_of_mem hv)))
  · intro hall key hkey
    have hleft : key ∈ (flatten f).map Prod.fst := by
      rcases List.mem_append.mp hkey with hkey | hkey
      · exact hkey
      · exact h.keys ▸ hkey
    obtain ⟨a, ha, rfl⟩ := List.mem_map.mp hleft
    obtain ⟨w, hw⟩ : ∃ w, (a.1, w) ∈ flatten g := h.counterpart ha
    exact (hchanged a.1 a.2 w ha hw).mpr (hall a.1 a.2 w ha hw)

theorem field_eq_none_of_columns {name : String} (hname : name ∉ columns.map Prod.fst) (hf : Record columns f) :
    field f (text name) = none := by
  cases hfield : field f (text name) with
  | none => rfl
  | some v =>
    have hkey := mem_keys_iff.mpr ⟨v, hfield⟩
    rw [hf.keys] at hkey
    obtain ⟨other, hother, heq⟩ := List.mem_map.mp hkey
    exact absurd (Json.text_injective heq ▸ hother) hname

/-- A row without nested properties is compared as it is. -/
theorem flatten_flat (hname : "properties" ∉ columns.map Prod.fst) (hf : Record columns f) : flatten f = f := by
  have hfield := field_eq_none_of_columns hname hf
  have hfilter : (f.filter fun a => a.1 ≠ text "properties") = f := by
    rw [List.filter_eq_self]
    intro a ha
    have hkey : a.1 ∈ f.map Prod.fst := List.mem_map_of_mem ha
    rw [decide_eq_true_eq]
    intro heq
    obtain ⟨v, hv⟩ := mem_keys_iff.mp (heq ▸ hkey)
    rw [hfield] at hv
    cases hv
  simp only [flatten, hfield, hfilter]

/-- A text or nothing, as a label is made of. -/
def Labelling (v : Value) : Prop := v = .null ∨ ∃ s, v = .str s

theorem label_ok (hrow : ∀ name ∈ ["display_name", "object_name", "external_identifier"], ∀ v,
      field f (text name) = some v → Labelling v)
    (hproperties : ∀ p v, field f (text "properties") = some (.dict p) → field p (text "external_identifier") = some v →
      Labelling v) (fallback : Text) : ∃ l, label writer f fallback = .ok l := by
  have hvalue : ∀ (fields : Fields) (name : String), (∀ v, field fields (text name) = some v → Labelling v) →
      Labelling ((field fields (text name)).getD .null) := by
    intro fields name h
    cases hfield : field fields (text name) with
    | none => exact .inl rfl
    | some v => exact h v hfield
  have hfirst : ∀ values : List Value, (∀ v ∈ values, Labelling v) → ∃ l, Json.str writer (firstTrue values (.str fallback)) = .ok l := by
    intro values
    induction values with
    | nil => exact fun _ => ⟨fallback, rfl⟩
    | cons v values ih =>
      intro hvalues
      rw [List.forall_mem_cons] at hvalues
      rw [firstTrue]
      split_ifs with htrue
      · rcases hvalues.1 with rfl | ⟨s, rfl⟩
        · cases htrue
        · exact ⟨s, rfl⟩
      · exact ih hvalues.2
  unfold label
  split_ifs with hempty
  · exact ⟨fallback, rfl⟩
  · refine hfirst _ ?_
    simp only [List.forall_mem_cons, List.not_mem_nil, IsEmpty.forall_iff, implies_true, and_true] at hrow ⊢
    refine ⟨hvalue f _ hrow.1, hvalue f _ hrow.2.1, hvalue f _ hrow.2.2, hvalue _ _ fun v hv => ?_⟩
    cases hnested : field f (text "properties") with
    | none =>
      rw [hnested] at hv
      cases hv
    | some p =>
      rw [hnested] at hv
      cases p with
      | dict p => exact hproperties p v hnested hv
      | _ => cases hv

/-- Rows that are told apart as Python's `==` tells them apart, once they have one identity. -/
structure Comparable (writer : Writer) (columns : List (String × Schema)) : Prop where
  nodup : (columns.map Prod.fst).Nodup
  identified : ("id", Payloads.identity) ∈ columns
  labels : ∀ {f}, Record columns f → ∀ fallback, ∃ l, label writer f fallback = .ok l
  changes : ∀ {f g}, Record columns f → Record columns g → idOf (.dict f) = idOf (.dict g) →
    (changedFields f g = [] ↔ Json.eq (.dict f) (.dict g) = true)

theorem Comparable.flat (hnodup : (columns.map Prod.fst).Nodup) (hid : ("id", Payloads.identity) ∈ columns)
    (hnames : ∀ name ∈ ["type", "path", "properties"], name ∉ columns.map Prod.fst)
    (hlabels : ∀ c ∈ columns, c.1 ∈ ["display_name", "object_name", "external_identifier"] → ∀ v, c.2 v → Labelling v) :
    Comparable writer columns := by
  have hproperties : "properties" ∉ columns.map Prod.fst := hnames _ (by simp)
  have hvisible : ∀ {f key v}, Record columns f → (key, v) ∈ f → key ∈ hidden → key = text "id" := by
    intro f key v hf hv hhidden
    obtain ⟨c, hc, rfl, -⟩ := hf.member hv
    have hname : c.1 ∈ columns.map Prod.fst := List.mem_map_of_mem hc
    simp only [hidden, List.mem_cons, List.not_mem_nil, or_false] at hhidden
    rcases hhidden with h | h | h
    · exact h
    · exact absurd (Json.text_injective h ▸ hname) (hnames "type" (by simp))
    · exact absurd (Json.text_injective h ▸ hname) (hnames "path" (by simp))
  refine ⟨hnodup, hid, fun {f} hf fallback => ?_, fun {f g} hf hg hsame => ?_⟩
  · refine label_ok (fun name hname v hv => ?_) (fun p v hp hv => ?_) fallback
    · obtain ⟨a, ha, hav⟩ := Option.map_eq_some_iff.mp hv
      have hkey := List.find?_some ha
      simp only [decide_eq_true_eq] at hkey
      have hmem := List.mem_of_find?_eq_some ha
      obtain ⟨c, hc, hcname, hcv⟩ : ∃ c ∈ columns, a.1 = text c.1 ∧ c.2 a.2 := hf.member hmem
      have hcn : c.1 = name := Json.text_injective (hcname.symm.trans hkey)
      exact hlabels c hc (hcn ▸ hname) v (hav ▸ hcv)
    · rw [field_eq_none_of_columns hproperties hf] at hp
      cases hp
  · have haligned := Record.aligned hnodup hf hg
    have hf' := flatten_flat hproperties hf
    have hg' := flatten_flat hproperties hg
    rw [changedFields_eq_nil_iff (by rw [hf', hg']; exact haligned), hf', hg', haligned.eq_dict_iff]
    constructor
    · intro hall key v w hv hw
      by_cases hhidden : key ∈ hidden
      · have hkey := hvisible hf hv hhidden
        subst hkey
        obtain ⟨f', hf'eq, -, hfid, -⟩ := row_identity hnodup hid ⟨f, rfl, hf⟩
        obtain ⟨g', hg'eq, -, hgid, -⟩ := row_identity hnodup hid ⟨g, rfl, hg⟩
        cases hf'eq
        cases hg'eq
        rw [haligned.field_left hv] at hfid
        rw [haligned.field_right hw] at hgid
        cases hfid
        cases hgid
        rw [hsame]
        exact Json.eq_str_iff.mpr rfl
      · exact hall key v w hv hw hhidden
    · exact fun hall key v w hv hw _ => hall key v w hv hw

theorem labelling_string {v : Value} (h : Payloads.string v) : Labelling v := by
  obtain ⟨s, rfl, -⟩ := h
  exact .inr ⟨s, rfl⟩

theorem labelling_orNone {v : Value} (h : Payloads.orNone v) : Labelling v := by
  rcases h with rfl | h
  · exact .inl rfl
  · exact labelling_string h

theorem comparable_person : Comparable writer Payloads.person := by
  refine Comparable.flat (by decide) (by simp [Payloads.person]) (by decide) (List.forall_iff_forall_mem.mp ?_)
  exact ⟨by simp, fun _ _ => labelling_string, by simp, by simp⟩

theorem comparable_firePlan : Comparable writer (Payloads.firePlan P) := by
  refine Comparable.flat (by simp [Payloads.firePlan]) (by simp [Payloads.firePlan]) (by simp [Payloads.firePlan]) (List.forall_iff_forall_mem.mp ?_)
  exact ⟨by simp, fun _ _ => labelling_orNone, fun _ _ => labelling_orNone, by simp, by simp, by simp, by simp, by simp,
    by simp, by simp, by simp, by simp, by simp⟩

theorem comparable_klgvPlan : Comparable writer (Payloads.klgvPlan P) := by
  refine Comparable.flat (by simp [Payloads.klgvPlan]) (by simp [Payloads.klgvPlan]) (by simp [Payloads.klgvPlan]) (List.forall_iff_forall_mem.mp ?_)
  exact ⟨by simp, fun _ _ => labelling_orNone, fun _ _ => labelling_string, by simp, by simp, by simp, by simp, by simp,
    by simp, by simp⟩

/-- Members under new keys are added at the end. -/
theorem foldl_setField {base p : Fields} (hnodup : ((base ++ p).map Prod.fst).Nodup) :
    p.foldl (fun fields f => Json.setField fields f.1 f.2) base = base ++ p := by
  induction p generalizing base with
  | nil => rw [List.foldl_nil, List.append_nil]
  | cons a p ih =>
    have hnew : ¬ (base.any fun f => decide (f.1 = a.1)) = true := by
      rw [List.any_eq_true]
      rintro ⟨f, hf, hfa⟩
      rw [List.map_append, List.nodup_append] at hnodup
      exact hnodup.2.2 f.1 (List.mem_map_of_mem hf) a.1 (by simp) (of_decide_eq_true hfa)
    have hset : Json.setField base a.1 a.2 = base ++ [a] := by
      rw [Json.setField, if_neg hnew]
    rw [List.foldl_cons, hset, ih (by simpa using hnodup), List.append_assoc, List.singleton_append]

/-- A feature, its members written out. -/
theorem feature_record (hf : Record (Payloads.feature P) f) : ∃ i geometry p,
    f = [(text "type", .str (text "Feature")), (text "id", i), (text "geometry", geometry), (text "properties", .dict p)] ∧
      Payloads.identity i ∧ Record Payloads.featureProperties p := by
  unfold Payloads.feature Record at hf
  rw [List.forall₂_cons_left_iff] at hf
  obtain ⟨⟨k, t⟩, rest, ⟨rfl, rfl⟩, hrest, rfl⟩ := hf
  rw [List.forall₂_cons_left_iff] at hrest
  obtain ⟨⟨k, i⟩, rest, ⟨rfl, hi⟩, hrest, rfl⟩ := hrest
  rw [List.forall₂_cons_left_iff] at hrest
  obtain ⟨⟨k, geometry⟩, rest, ⟨rfl, -⟩, hrest, rfl⟩ := hrest
  rw [List.forall₂_cons_left_iff] at hrest
  obtain ⟨⟨k, properties⟩, rest, ⟨rfl, p, rfl, hp⟩, hrest, rfl⟩ := hrest
  rw [List.forall₂_nil_left_iff] at hrest
  subst hrest
  exact ⟨i, geometry, p, rfl, hi, hp⟩

theorem nodup_featureKeys :
    ([text "type", text "id", text "geometry"] ++ (Payloads.featureProperties.map Prod.fst).map text).Nodup := by decide

theorem flatten_feature {i geometry : Value} {p : Fields} (hp : Record Payloads.featureProperties p) :
    flatten [(text "type", .str (text "Feature")), (text "id", i), (text "geometry", geometry), (text "properties", .dict p)] =
      [(text "type", .str (text "Feature")), (text "id", i), (text "geometry", geometry)] ++ p := by
  have hflatten : flatten [(text "type", .str (text "Feature")), (text "id", i), (text "geometry", geometry),
      (text "properties", .dict p)] = p.foldl (fun fields f => Json.setField fields f.1 f.2)
        [(text "type", .str (text "Feature")), (text "id", i), (text "geometry", geometry)] := rfl
  rw [hflatten, foldl_setField]
  rw [List.map_append, hp.keys]
  exact nodup_featureKeys

theorem comparable_feature : Comparable writer (Payloads.feature P) := by
  refine ⟨by simp [Payloads.feature], by simp [Payloads.feature], fun {f} hf fallback => ?_, fun {f g} hf hg hsame => ?_⟩
  · obtain ⟨i, geometry, p, rfl, -, hp⟩ := feature_record hf
    refine label_ok (fun name hname v hv => ?_) (fun q v hq hv => ?_) fallback
    · have hkey : text name ∈ [text "type", text "id", text "geometry", text "properties"] :=
        mem_keys_iff.mpr ⟨v, hv⟩
      simp only [List.mem_cons, List.not_mem_nil, or_false] at hname
      rcases hname with rfl | rfl | rfl
      · exact absurd hkey (by decide)
      · exact absurd hkey (by decide)
      · exact absurd hkey (by decide)
    · cases hq
      obtain ⟨w, hw, hstring⟩ := hp.column (c := ("external_identifier", Payloads.string)) List.mem_cons_self
      rw [Schema.field_of_mem (hp.nodup (by decide)) hw] at hv
      cases hv
      exact labelling_string hstring
  · have haligned := Record.aligned (by simp [Payloads.feature]) hf hg
    obtain ⟨i, geometry, p, rfl, ⟨s, rfl, -⟩, hp⟩ := feature_record hf
    obtain ⟨i', geometry', q, rfl, ⟨s', rfl, -⟩, hq⟩ := feature_record hg
    have hid : s = s' := hsame
    subst hid
    have hproperties := Record.aligned (by decide) hp hq
    have hvisible : ∀ key ∈ p.map Prod.fst, key ∉ hidden := by
      rw [hp.keys]
      decide
    have hkeys : Json.Aligned ([(text "type", .str (text "Feature")), (text "id", .str s), (text "geometry", geometry)] ++ p)
        ([(text "type", .str (text "Feature")), (text "id", .str s), (text "geometry", geometry')] ++ q) := by
      refine ⟨by rw [List.map_append, List.map_append, hproperties.keys]; rfl, ?_⟩
      rw [List.map_append, hp.keys]
      exact nodup_featureKeys
    rw [changedFields_eq_nil_iff (by rw [flatten_feature hp, flatten_feature hq]; exact hkeys), flatten_feature hp,
      flatten_feature hq, hkeys.forall_iff, haligned.eq_dict_iff, haligned.forall_iff]
    have hshown : List.Forall₂ (fun a b : Text × Value => a.1 ∉ hidden → Json.eq a.2 b.2 = true) p q ↔
        Json.eq (.dict p) (.dict q) = true := by
      rw [hproperties.eq_dict_iff, ← hproperties.forall_iff (Q := fun key v w => key ∉ hidden → Json.eq v w = true)]
      constructor
      · exact fun hall key v w hv hw => hall key v w hv hw (hvisible key (List.mem_map_of_mem hv))
      · exact fun hall key v w hv hw _ => hall key v w hv hw
    have htype : text "type" ∈ hidden := by decide
    have hidentity : text "id" ∈ hidden := by decide
    have hgeometry : text "geometry" ∉ hidden := by decide
    simp only [List.cons_append, List.nil_append, List.forall₂_cons, hshown]
    simp [htype, hidentity, hgeometry]

end

/-! ### Counting -/

/-- Among distinct identities, those with a property are counted once each. -/
theorem countP_eq_ncard {ids : List Text} (hnodup : ids.Nodup) (p : Text → Bool) :
    ids.countP p = Set.ncard {id | id ∈ ids ∧ p id = true} := by
  have hset : {id | id ∈ ids ∧ p id = true} = ((ids.filter p).toFinset : Set Text) := by
    ext id
    simp
  rw [hset, Set.ncard_coe_finset, List.toFinset_card_of_nodup (hnodup.filter p), List.countP_eq_length_filter]

section

variable {writer : Writer} {beforeRows afterRows : Fields} {columns : List (String × Schema)} {l m : List Value}

def isAdded (beforeRows : Fields) (id : Text) : Bool := (field beforeRows id).isNone

def isRemoved (beforeRows afterRows : Fields) (id : Text) : Bool :=
  (field beforeRows id).isSome && (field afterRows id).isNone

def isChanged (beforeRows afterRows : Fields) (id : Text) : Bool :=
  match field beforeRows id, field afterRows id with
  | some old, some new => !(changedFields (members old) (members new)).isEmpty
  | _, _ => false

/-- One identity adds one to one of the three numbers at most. -/
theorem tally_ok (hlabels : ∀ id row, field beforeRows id = some row ∨ field afterRows id = some row →
      ∀ fallback, ∃ text, label writer (members row) fallback = .ok text)
    (t : Tally) {id : Text} (hid : (field beforeRows id).isSome = true ∨ (field afterRows id).isSome = true) :
    ∃ t', tally writer beforeRows afterRows t id = .ok t' ∧
      t'.added = t.added + (isAdded beforeRows id).toNat ∧
      t'.removed = t.removed + (isRemoved beforeRows afterRows id).toNat ∧
      t'.changed = t.changed + (isChanged beforeRows afterRows id).toNat := by
  unfold tally isAdded isRemoved isChanged
  cases hbefore : field beforeRows id with
  | none =>
    cases hafter : field afterRows id with
    | none =>
      rw [hbefore, hafter] at hid
      simp at hid
    | some new =>
      obtain ⟨shown, hshown⟩ := hlabels id new (.inr hafter) id
      simp only [Option.map_some, Option.getD_some, hshown]
      exact ⟨_, rfl, rfl, rfl, rfl⟩
  | some old =>
    cases hafter : field afterRows id with
    | none =>
      obtain ⟨shown, hshown⟩ := hlabels id old (.inl hbefore) id
      simp only [hshown]
      exact ⟨_, rfl, rfl, rfl, rfl⟩
    | some new =>
      cases hchanged : changedFields (members old) (members new) with
      | nil =>
        simp only [hchanged]
        exact ⟨_, rfl, rfl, rfl, rfl⟩
      | cons change changes =>
        obtain ⟨shown, hshown⟩ := hlabels id new (.inr hafter) id
        simp only [hchanged, hshown]
        exact ⟨_, rfl, rfl, rfl, rfl⟩

theorem foldlM_tally_ok (hlabels : ∀ id row, field beforeRows id = some row ∨ field afterRows id = some row →
      ∀ fallback, ∃ text, label writer (members row) fallback = .ok text) (ids : List Text)
    (hids : ∀ id ∈ ids, (field beforeRows id).isSome = true ∨ (field afterRows id).isSome = true) (t : Tally) :
    ∃ t', ids.foldlM (tally writer beforeRows afterRows) t = .ok t' ∧
      t'.added = t.added + ids.countP (isAdded beforeRows) ∧
      t'.removed = t.removed + ids.countP (isRemoved beforeRows afterRows) ∧
      t'.changed = t.changed + ids.countP (isChanged beforeRows afterRows) := by
  induction ids generalizing t with
  | nil => exact ⟨t, rfl, rfl, rfl, rfl⟩
  | cons id ids ih =>
    rw [List.forall_mem_cons] at hids
    obtain ⟨t', ht', hadded, hremoved, hchanged⟩ := tally_ok hlabels t hids.1
    obtain ⟨t'', ht'', hadded', hremoved', hchanged'⟩ := ih hids.2 t'
    have hcount : ∀ p : Text → Bool, (id :: ids).countP p = ids.countP p + (p id).toNat := by
      intro p
      rw [List.countP_cons]
      cases p id <;> rfl
    refine ⟨t'', ?_, ?_, ?_, ?_⟩
    · rw [List.foldlM_cons, ht', ok_bind, ht'']
    · rw [hcount]
      omega
    · rw [hcount]
      omega
    · rw [hcount]
      omega

/-- The identities under which rows are found are those of the rows. -/
theorem isSome_field_iff {rows : List Value} {result : Fields} (h : ∀ id v, field result id = some v ↔ v ∈ rows ∧ idOf v = id)
    (id : Text) : (field result id).isSome = true ↔ id ∈ rows.map idOf := by
  rw [Option.isSome_iff_exists, List.mem_map]
  exact exists_congr fun v => h id v

/-- The numbers of a diff of two collections of rows. -/
theorem sourceDiff_rows (hcomparable : Comparable writer columns) {before after : Fields} {key : Text}
    (hkey : collectionKey before after = some key) (hbefore : field before key = some (.list l))
    (hafter : field after key = some (.list m)) (hl : Payloads.Rows columns l) (hm : Payloads.Rows columns m) :
    ∃ d, sourceDiff writer before after = .ok d ∧ d.total = d.added + d.removed + d.changed ∧
      d.added = Set.ncard {id | id ∈ m.map idOf ∧ id ∉ l.map idOf} ∧
      d.removed = Set.ncard {id | id ∈ l.map idOf ∧ id ∉ m.map idOf} ∧
      d.changed = Set.ncard {id | ∃ old ∈ l, ∃ new ∈ m, idOf old = id ∧ idOf new = id ∧ ¬ Json.eq old new = true} := by
  have hbyId : ∀ rows, Payloads.Rows columns rows → ∃ result, byId writer (.list rows) = .ok result ∧
      ∀ id v, field result id = some v ↔ v ∈ rows ∧ idOf v = id :=
    fun rows hrows => byId_ok hcomparable.nodup hcomparable.identified hrows
  obtain ⟨beforeRows, hbeforeRows, hbeforeField⟩ := hbyId l hl
  obtain ⟨afterRows, hafterRows, hafterField⟩ := hbyId m hm
  have hbeforeSome := isSome_field_iff hbeforeField
  have hafterSome := isSome_field_iff hafterField
  have hids : ∀ id, id ∈ sortedSet (beforeRows.map Prod.fst ++ afterRows.map Prod.fst) ↔ id ∈ l.map idOf ∨ id ∈ m.map idOf := by
    intro id
    rw [mem_sortedSet, List.mem_append, mem_keys_iff, mem_keys_iff, ← Option.isSome_iff_exists, ← Option.isSome_iff_exists,
      hbeforeSome, hafterSome]
  have hlabels : ∀ id row, field beforeRows id = some row ∨ field afterRows id = some row →
      ∀ fallback, ∃ text, label writer (members row) fallback = .ok text := by
    have hobject : ∀ row, Schema.object columns row → ∀ fallback, ∃ text, label writer (members row) fallback = .ok text := by
      rintro row ⟨f, rfl, hf⟩
      exact hcomparable.labels hf
    rintro id row (hrow | hrow)
    · exact hobject row (hl.row row ((hbeforeField id row).mp hrow).1)
    · exact hobject row (hm.row row ((hafterField id row).mp hrow).1)
  obtain ⟨t, ht, hadded, hremoved, hchanged⟩ := foldlM_tally_ok hlabels
    (sortedSet (beforeRows.map Prod.fst ++ afterRows.map Prod.fst))
    (fun id hid => by rw [hbeforeSome, hafterSome]; exact (hids id).mp hid) {}
  have hnodup := nodup_sortedSet (beforeRows.map Prod.fst ++ afterRows.map Prod.fst)
  rw [countP_eq_ncard hnodup, Nat.zero_add] at hadded hremoved hchanged
  have haddedSet : ∀ id, isAdded beforeRows id = true ↔ id ∉ l.map idOf := by
    intro id
    rw [← hbeforeSome, isAdded]
    cases field beforeRows id <;> simp
  have hremovedSet : ∀ id, isRemoved beforeRows afterRows id = true ↔ id ∈ l.map idOf ∧ id ∉ m.map idOf := by
    intro id
    rw [← hbeforeSome, ← hafterSome, isRemoved]
    cases field beforeRows id <;> cases field afterRows id <;> simp
  have hchangedSet : ∀ id, isChanged beforeRows afterRows id = true ↔
      ∃ old ∈ l, ∃ new ∈ m, idOf old = id ∧ idOf new = id ∧ ¬ Json.eq old new = true := by
    intro id
    have hnew : ∀ {old new}, old ∈ l → new ∈ m → idOf old = id → idOf new = id →
        ((changedFields (members old) (members new)).isEmpty = true ↔ Json.eq old new = true) := by
      intro old new hold hnew holdid hnewid
      obtain ⟨f, rfl, hf⟩ := hl.row old hold
      obtain ⟨g, rfl, hg⟩ := hm.row new hnew
      rw [List.isEmpty_iff]
      exact hcomparable.changes hf hg (holdid.trans hnewid.symm)
    constructor
    · intro h
      unfold isChanged at h
      cases hold : field beforeRows id with
      | none => simp [hold] at h
      | some old =>
        cases hafter : field afterRows id with
        | none => simp [hold, hafter] at h
        | some new =>
          obtain ⟨holdl, holdid⟩ := (hbeforeField id old).mp hold
          obtain ⟨hnewm, hnewid⟩ := (hafterField id new).mp hafter
          refine ⟨old, holdl, new, hnewm, holdid, hnewid, fun heq => ?_⟩
          simp [hold, hafter, (hnew holdl hnewm holdid hnewid).mpr heq] at h
    · rintro ⟨old, hold, new, hnewm, holdid, hnewid, hne⟩
      have hB := (hbeforeField id old).mpr ⟨hold, holdid⟩
      have hA := (hafterField id new).mpr ⟨hnewm, hnewid⟩
      have hempty : ¬ (changedFields (members old) (members new)).isEmpty = true := fun h =>
        hne ((hnew hold hnewm holdid hnewid).mp h)
      simp only [isChanged, hB, hA]
      simpa using hempty
  refine ⟨⟨t.added, t.removed, t.changed, t.added + t.removed + t.changed, t.preview.take previewLimit,
    some (decide (previewLimit < t.preview.length))⟩, ?_, rfl, ?_, ?_, ?_⟩
  · simp only [sourceDiff, hkey, hbefore, hafter, Option.getD_some, hbeforeRows, hafterRows, ok_bind, ht]
    rfl
  · refine hadded.trans (congrArg Set.ncard (Set.ext fun id => ?_))
    rw [Set.mem_ofPred_eq, Set.mem_ofPred_eq, hids, haddedSet]
    tauto
  · refine hremoved.trans (congrArg Set.ncard (Set.ext fun id => ?_))
    rw [Set.mem_ofPred_eq, Set.mem_ofPred_eq, hids, hremovedSet]
    tauto
  · refine hchanged.trans (congrArg Set.ncard (Set.ext fun id => ?_))
    rw [Set.mem_ofPred_eq, Set.mem_ofPred_eq, hids, hchangedSet]
    constructor
    · exact fun h => h.2
    · rintro ⟨old, hold, new, hnew, holdid, hnewid, hne⟩
      exact ⟨.inl (List.mem_map.mpr ⟨old, hold, holdid⟩), old, hold, new, hnew, holdid, hnewid, hne⟩

end

end FireDash.Publications.Diffs
