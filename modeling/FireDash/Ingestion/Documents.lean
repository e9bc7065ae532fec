import FireDash.Lib.Numerals

/-! Fire plans and KLGV plans under a document import: the fields shown to a reviewer and the fields an
approved update writes. -/
namespace FireDash.Ingestion.Documents

open Json (Double Text)
open Numerals (Uuid)

/-- A position in degrees. -/
structure Point where
  longitude : Double
  latitude : Double
  deriving DecidableEq

inductive Action where
  | upsert
  | deactivate
  deriving DecidableEq

/-- A row of a package after its document was sanitized. -/
structure Row where
  action : Action
  externalIdentifier : Text
  title : Text
  address : Text
  postalCode : Text
  city : Text
  fsdLocation : Text
  bmzLocation : Text
  rwaInfo : Text
  longitude : Option Double
  latitude : Option Double
  originalFilename : Text
  fileSize : ℕ
  pageCount : ℕ
  sourcePdfSha256 : Text
  sanitizedPdfSha256 : Text

def Row.location (row : Row) : Option Point :=
  match row.longitude, row.latitude with
  | some longitude, some latitude => some ⟨longitude, latitude⟩
  | _, _ => none

/-- The columns of both kinds of plan. -/
structure Plan where
  id : Uuid
  department : ℕ
  externalIdentifier : Text
  objectName : Text
  address : Text
  postalCode : Text
  city : Text
  location : Option Point
  originalFilename : Text
  fileSize : ℕ
  pageCount : ℕ
  sha256 : Text
  sourcePdfSha256 : Text
  active : Bool
  updatedAt : ℕ
  deriving DecidableEq

structure FirePlan extends Plan where
  fsdLocation : Text
  bmzLocation : Text
  rwaInfo : Text
  documentKey : Text
  deriving DecidableEq

structure KlgvPlan extends Plan where
  path : Text
  deriving DecidableEq

/-! ### Fields -/

inductive TextField where
  | objectName
  | address
  | postalCode
  | city
  | fsdLocation
  | bmzLocation
  | rwaInfo
  deriving DecidableEq

inductive FieldName where
  | sourcePdfSha256
  | sanitizedPdfSha256
  | pdfSize
  | pageCount
  | text (field : TextField)
  | location
  deriving DecidableEq

def TextField.label : TextField → String
  | .objectName => "Object name"
  | .address => "Address"
  | .postalCode => "Postal code"
  | .city => "City"
  | .fsdLocation => "FSD location"
  | .bmzLocation => "BMZ location"
  | .rwaInfo => "RWA information"

def FieldName.label : FieldName → String
  | .sourcePdfSha256 => "Source PDF SHA-256"
  | .sanitizedPdfSha256 => "Sanitized PDF SHA-256"
  | .pdfSize => "PDF size"
  | .pageCount => "Pages"
  | .text field => field.label
  | .location => "Location"

/-- The value of a field. -/
inductive Content where
  | text (t : Text)
  | number (n : ℕ)
  | point (p : Option Point)
  deriving DecidableEq

/-- `f"{value / (1024 * 1024):.2f} MiB"`, by way of the nearest binary64 quotient. -/
def mibFormat (value : ℕ) : Text :=
  let unit := 2 ^ (value.log2 - 52)
  let hundredths := Double.halfEven (Double.halfEven value unit * unit * 100) (1024 * 1024)
  let digits := toString (hundredths % 100)
  Json.text (toString (hundredths / 100) ++ "." ++ (if digits.length = 1 then "0" ++ digits else digits) ++ " MiB")

/-- A field of the list of changes; `distanceKm` is given for a location that moves. -/
structure FieldChange where
  name : FieldName
  label : String
  current : Content
  proposed : Content
  distanceKm : Option Double := none
  deriving DecidableEq

/-- A field under its label. -/
def FieldChange.of (name : FieldName) (current proposed : Content) : FieldChange := { name, label := name.label, current, proposed }

/-! ### Fire plans -/

namespace FirePlan

def text (plan : FirePlan) : TextField → Text
  | .objectName => plan.objectName
  | .address => plan.address
  | .postalCode => plan.postalCode
  | .city => plan.city
  | .fsdLocation => plan.fsdLocation
  | .bmzLocation => plan.bmzLocation
  | .rwaInfo => plan.rwaInfo

/-- `setattr(current, field, value)` -/
def set (plan : FirePlan) (field : TextField) (value : Text) : FirePlan :=
  match field with
  | .objectName => { plan with objectName := value }
  | .address => { plan with address := value }
  | .postalCode => { plan with postalCode := value }
  | .city => { plan with city := value }
  | .fsdLocation => { plan with fsdLocation := value }
  | .bmzLocation => { plan with bmzLocation := value }
  | .rwaInfo => { plan with rwaInfo := value }

/-- The text fields a row proposes. -/
def proposed (row : Row) : List (TextField × Text) :=
  [(.objectName, row.title), (.address, row.address), (.postalCode, row.postalCode), (.city, row.city),
    (.fsdLocation, row.fsdLocation), (.bmzLocation, row.bmzLocation), (.rwaInfo, row.rwaInfo)]

/-- Empty values keep what is stored. -/
def assign (plan : FirePlan) (fields : List (TextField × Text)) : FirePlan :=
  fields.foldl (fun plan field => if field.2 = [] then plan else plan.set field.1 field.2) plan

def documentContentChanged (current : FirePlan) (row : Row) : Bool := current.sourcePdfSha256 ≠ row.sourcePdfSha256

def documentMetadataChanges (current : FirePlan) (row : Row) : Bool :=
  ((proposed row).any fun field => field.2 ≠ [] ∧ current.text field.1 ≠ field.2) ||
    (row.location ≠ none ∧ current.location ≠ row.location)

/-- The saved plan after its document was replaced under the key. -/
def replaceDocumentContent (current : FirePlan) (row : Row) (key : Text) (now : ℕ) : FirePlan :=
  let current := { current with
    documentKey := key
    originalFilename := row.originalFilename
    fileSize := row.fileSize
    pageCount := row.pageCount
    active := true
    sha256 := row.sanitizedPdfSha256
    sourcePdfSha256 := row.sourcePdfSha256 }
  let current := current.assign (proposed row)
  { current with location := row.location.orElse fun _ => current.location, updatedAt := now }

def mergeDocumentMetadata (current : FirePlan) (row : Row) (now : ℕ) : FirePlan :=
  if current.documentMetadataChanges row then
    let current := current.assign (proposed row)
    { current with location := if row.location ≠ none then row.location else current.location, updatedAt := now }
  else current

/-- The plan after its update was approved. -/
def approve (current : FirePlan) (row : Row) (key : Text) (now : ℕ) : FirePlan :=
  if current.documentContentChanged row then current.replaceDocumentContent row key now
  else current.mergeDocumentMetadata row now

end FirePlan

/-- What the replacement of a document shows. -/
def pdfChanges (current : Plan) (row : Row) : List FieldChange :=
  [.of .sourcePdfSha256 (.text current.sourcePdfSha256) (.text row.sourcePdfSha256),
    .of .sanitizedPdfSha256 (.text current.sha256) (.text row.sanitizedPdfSha256),
    .of .pdfSize (.text (mibFormat current.fileSize)) (.text (mibFormat row.fileSize)),
    .of .pageCount (.number current.pageCount) (.number row.pageCount)]

/-- A location that the row moves; `distance` rounds kilometres to three digits. -/
def locationChange (distance : Point → Point → Double) (current incoming : Option Point) : List FieldChange :=
  match incoming with
  | none => []
  | some incoming =>
    if current ≠ some incoming then
      [{ FieldChange.of .location (.point current) (.point (some incoming)) with
          distanceKm := current.map fun point => distance point incoming }]
    else []

/-- The location is looked at with every text field. -/
def FirePlan.documentChangedFields (distance : Point → Point → Double) (current : FirePlan) (row : Row) : List FieldChange :=
  (if current.documentContentChanged row then pdfChanges current.toPlan row else []) ++
  (FirePlan.proposed row).flatMap fun field =>
    (if field.2 ≠ [] ∧ current.text field.1 ≠ field.2 then
      [FieldChange.of (.text field.1) (.text (current.text field.1)) (.text field.2)] else []) ++
    locationChange distance current.location row.location

/-! ### KLGV plans -/

namespace KlgvPlan

/-- A KLGV plan has four of the text fields. -/
def text (plan : KlgvPlan) : TextField → Option Text
  | .objectName => some plan.objectName
  | .address => some plan.address
  | .postalCode => some plan.postalCode
  | .city => some plan.city
  | .fsdLocation => none
  | .bmzLocation => none
  | .rwaInfo => none

def proposed (row : Row) : List (TextField × Text) :=
  [(.objectName, row.title), (.address, row.address), (.postalCode, row.postalCode), (.city, row.city)]

def documentContentChanged (current : KlgvPlan) (row : Row) : Bool := current.sourcePdfSha256 ≠ row.sourcePdfSha256

def documentMetadataChanges (current : KlgvPlan) (row : Row) : Bool :=
  ((proposed row).any fun field => current.text field.1 ≠ some field.2) || row.location ≠ current.location

/-- The fields of a row, whatever they hold. -/
def assign (plan : KlgvPlan) (row : Row) : KlgvPlan :=
  { plan with
    objectName := row.title
    address := row.address
    postalCode := row.postalCode
    city := row.city
    location := row.location }

def replaceDocumentContent (current : KlgvPlan) (row : Row) (key : Text) (now : ℕ) : KlgvPlan :=
  let current := { current with
    originalFilename := row.originalFilename
    fileSize := row.fileSize
    pageCount := row.pageCount
    active := true
    path := key
    sha256 := row.sanitizedPdfSha256
    sourcePdfSha256 := row.sourcePdfSha256 }
  { current.assign row with updatedAt := now }

def mergeDocumentMetadata (current : KlgvPlan) (row : Row) (now : ℕ) : KlgvPlan :=
  if current.documentMetadataChanges row then { current.assign row with updatedAt := now } else current

def approve (current : KlgvPlan) (row : Row) (key : Text) (now : ℕ) : KlgvPlan :=
  if current.documentContentChanged row then current.replaceDocumentContent row key now
  else current.mergeDocumentMetadata row now

/-- Empty values and the location are not looked at. -/
def documentChangedFields (current : KlgvPlan) (row : Row) : List FieldChange :=
  (if current.documentContentChanged row then pdfChanges current.toPlan row else []) ++
  (proposed row).flatMap fun field =>
    if field.2 ≠ [] ∧ current.text field.1 ≠ some field.2 then
      [FieldChange.of (.text field.1) (.text ((current.text field.1).getD [])) (.text field.2)] else []

end KlgvPlan

/-! ### What a reviewer is shown -/

def FieldName.isPdf : FieldName → Bool
  | .sourcePdfSha256 => true
  | .sanitizedPdfSha256 => true
  | .pdfSize => true
  | .pageCount => true
  | .text _ => false
  | .location => false

/-- The fields a reviewer approves, by name. -/
def Plan.content (plan : Plan) (text : TextField → Option Text) : FieldName → Option Content
  | .sourcePdfSha256 => some (.text plan.sourcePdfSha256)
  | .sanitizedPdfSha256 => some (.text plan.sha256)
  | .pdfSize => some (.number plan.fileSize)
  | .pageCount => some (.number plan.pageCount)
  | .text field => (text field).map .text
  | .location => some (.point plan.location)

def FirePlan.content (plan : FirePlan) : FieldName → Option Content := plan.toPlan.content fun field => some (plan.text field)

def KlgvPlan.content (plan : KlgvPlan) : FieldName → Option Content := plan.toPlan.content plan.text

/-- A size is shown in MiB. -/
def Content.shown (name : FieldName) : Content → Content
  | .number n => if name = .pdfSize then .text (mibFormat n) else .number n
  | .text t => .text t
  | .point p => .point p

/-- The list of changes is there when an update is proposed, names each changed field once, and shows its values. -/
structure Reviewed (changes : List FieldChange) (proposes : Prop) (changed : FieldName → Prop)
    (before after : FieldName → Option Content) : Prop where
  listed : changes ≠ [] ↔ proposes
  once : (changes.map FieldChange.name).Nodup
  complete : ∀ name, (∃ c ∈ changes, c.name = name) ↔ changed name
  values : ∀ c ∈ changes, (before c.name).map (Content.shown c.name) = some c.current ∧
    (after c.name).map (Content.shown c.name) = some c.proposed

/-- The properties of a document change when the document is replaced. -/
def Changed (replaced : Bool) (before after : FieldName → Option Content) (name : FieldName) : Prop :=
  if name.isPdf then replaced = true else before name ≠ after name

section

variable {changes : List FieldChange} {proposes : Prop} {before after : FieldName → Option Content} {replaced : Bool} {row : Row}

/-- Field by field, a replaced document has to differ in all of its properties. -/
theorem reviewed_each_iff (hpdf : ∀ name, name.isPdf = true → ((∃ c ∈ changes, c.name = name) ↔ replaced = true))
    (hkept : replaced = false → ∀ name, name.isPdf = true → before name = after name) :
    Reviewed changes proposes (fun name => before name ≠ after name) before after ↔
      Reviewed changes proposes (Changed replaced before after) before after ∧
        (replaced = true → ∀ name, name.isPdf = true → before name ≠ after name) := by
  constructor
  · rintro ⟨hlisted, honce, hcomplete, hvalues⟩
    refine ⟨⟨hlisted, honce, fun name => ?_, hvalues⟩, fun hreplaced name hname => ?_⟩
    · unfold Changed
      split
      · exact hpdf name ‹_›
      · exact hcomplete name
    · exact (hcomplete name).mp ((hpdf name hname).mpr hreplaced)
  · rintro ⟨⟨hlisted, honce, hcomplete, hvalues⟩, hdiffer⟩
    refine ⟨hlisted, honce, fun name => ?_, hvalues⟩
    cases hname : name.isPdf with
    | false =>
      rw [hcomplete, Changed, hname]
      simp
    | true =>
      rw [hpdf name hname]
      constructor
      · exact fun hreplaced => hdiffer hreplaced name hname
      · intro hne
        cases hreplaced : replaced with
        | true => rfl
        | false => exact absurd (hkept hreplaced name hname) hne

theorem flatMap_ite {α β : Type} (p : α → Bool) (f : α → β) (l : List α) :
    (l.flatMap fun x => if p x then [f x] else []) = (l.filter p).map f := by
  induction l with
  | nil => rfl
  | cons x rest ih =>
    rw [List.flatMap_cons, ih, List.filter_cons]
    split <;> rfl

theorem mem_pdfChanges {current : Plan} {c : FieldChange} (hc : c ∈ pdfChanges current row) : c.name.isPdf = true := by
  simp only [pdfChanges, List.mem_cons, List.not_mem_nil, or_false] at hc
  rcases hc with rfl | rfl | rfl | rfl <;> rfl

theorem exists_pdfChanges {current : Plan} {name : FieldName} (h : name.isPdf = true) : ∃ c ∈ pdfChanges current row, c.name = name := by
  unfold pdfChanges
  cases name with
  | sourcePdfSha256 => exact ⟨_, List.mem_cons_self, rfl⟩
  | sanitizedPdfSha256 => exact ⟨_, List.mem_cons_of_mem _ List.mem_cons_self, rfl⟩
  | pdfSize => exact ⟨_, List.mem_cons_of_mem _ (List.mem_cons_of_mem _ List.mem_cons_self), rfl⟩
  | pageCount => exact ⟨_, List.mem_cons_of_mem _ (List.mem_cons_of_mem _ (List.mem_cons_of_mem _ List.mem_cons_self)), rfl⟩
  | text field => cases h
  | location => cases h

/-- The fields of a replaced document, followed by the text fields that differ. -/
def listedChanges (replaced : Bool) (current : Plan) (row : Row) (text : TextField → Text) (fields : List (TextField × Text)) :
    List FieldChange :=
  (if replaced then pdfChanges current row else []) ++
    fields.map fun field => .of (.text field.1) (.text (text field.1)) (.text field.2)

theorem mem_listedChanges {current : Plan} {text : TextField → Text} {fields : List (TextField × Text)} {c : FieldChange} :
    c ∈ listedChanges replaced current row text fields ↔ replaced = true ∧ c ∈ pdfChanges current row ∨
      ∃ field ∈ fields, c = .of (.text field.1) (.text (text field.1)) (.text field.2) := by
  unfold listedChanges
  cases replaced with
  | true => simp [eq_comm]
  | false => simp [eq_comm]

theorem listedChanges_names {current : Plan} {text : TextField → Text} {fields : List (TextField × Text)} {name : FieldName} :
    (∃ c ∈ listedChanges replaced current row text fields, c.name = name) ↔
      replaced = true ∧ name.isPdf = true ∨ ∃ field ∈ fields, name = .text field.1 := by
  constructor
  · rintro ⟨c, hc, rfl⟩
    rcases mem_listedChanges.mp hc with ⟨hreplaced, hc⟩ | ⟨field, hfield, rfl⟩
    · exact .inl ⟨hreplaced, mem_pdfChanges hc⟩
    · exact .inr ⟨field, hfield, rfl⟩
  · rintro (⟨hreplaced, hname⟩ | ⟨field, hfield, rfl⟩)
    · obtain ⟨c, hc, hcn⟩ : ∃ c ∈ pdfChanges current row, c.name = name := exists_pdfChanges hname
      exact ⟨c, mem_listedChanges.mpr (.inl ⟨hreplaced, hc⟩), hcn⟩
    · exact ⟨_, mem_listedChanges.mpr (.inr ⟨field, hfield, rfl⟩), rfl⟩

theorem nodup_listedChanges {current : Plan} {text : TextField → Text} {fields : List (TextField × Text)}
    (hfields : (fields.map Prod.fst).Nodup) : ((listedChanges replaced current row text fields).map FieldChange.name).Nodup := by
  have htexts : ((fields.map fun field => FieldChange.of (.text field.1) (.text (text field.1)) (.text field.2)).map
      FieldChange.name) = (fields.map Prod.fst).map FieldName.text := by
    rw [List.map_map, List.map_map]
    rfl
  have hnodup : ((fields.map Prod.fst).map FieldName.text).Nodup :=
    (List.nodup_map_iff fun a b hab => FieldName.text.inj hab).mpr hfields
  unfold listedChanges
  rw [List.map_append, htexts]
  cases replaced with
  | false => simpa using hnodup
  | true =>
    have hpdf : (pdfChanges current row).map FieldChange.name = [.sourcePdfSha256, .sanitizedPdfSha256, .pdfSize, .pageCount] := rfl
    have hfour : [FieldName.sourcePdfSha256, .sanitizedPdfSha256, .pdfSize, .pageCount].Nodup := by decide
    refine List.nodup_append.mpr ⟨hpdf ▸ hfour, hnodup, ?_⟩
    intro a ha b hb hab
    obtain ⟨c, hc, rfl⟩ := List.mem_map.mp ha
    obtain ⟨field, -, rfl⟩ := List.mem_map.mp hb
    have hpdf := mem_pdfChanges hc
    rw [hab] at hpdf
    cases hpdf

/-- A list of this kind is reviewed as soon as its text fields are those that change. -/
theorem reviewed_listedChanges {current : Plan} {text : TextField → Text} {fields : List (TextField × Text)}
    (hfields : (fields.map Prod.fst).Nodup) (hproposes : proposes ↔ replaced = true ∨ fields ≠ [])
    (hbefore : ∀ name, name.isPdf = true → before name = current.content (fun _ => none) name)
    (hafter : replaced = true → after .sourcePdfSha256 = some (.text row.sourcePdfSha256) ∧
      after .sanitizedPdfSha256 = some (.text row.sanitizedPdfSha256) ∧ after .pdfSize = some (.number row.fileSize) ∧
      after .pageCount = some (.number row.pageCount))
    (htexts : ∀ field, (∃ f ∈ fields, f.1 = field) ↔ before (.text field) ≠ after (.text field))
    (hvalues : ∀ f ∈ fields, before (.text f.1) = some (.text (text f.1)) ∧ after (.text f.1) = some (.text f.2))
    (hlocation : before .location = after .location) :
    Reviewed (listedChanges replaced current row text fields) proposes (Changed replaced before after) before after where
  listed := by
    rw [hproposes, ne_eq, listedChanges, List.append_eq_nil_iff, List.map_eq_nil_iff, not_and_or]
    cases replaced with
    | true => simp [pdfChanges]
    | false => simp
  once := nodup_listedChanges hfields
  complete := by
    intro name
    rw [listedChanges_names]
    unfold Changed
    cases name with
    | text field =>
      rw [← htexts field]
      simp [FieldName.isPdf, eq_comm]
    | location => simp [FieldName.isPdf, hlocation]
    | sourcePdfSha256 => simp [FieldName.isPdf]
    | sanitizedPdfSha256 => simp [FieldName.isPdf]
    | pdfSize => simp [FieldName.isPdf]
    | pageCount => simp [FieldName.isPdf]
  values := by
    intro c hc
    rcases mem_listedChanges.mp hc with ⟨hreplaced, hc⟩ | ⟨field, hfield, rfl⟩
    · obtain ⟨hsource, hsanitized, hsize, hpages⟩ := hafter hreplaced
      have hname := hbefore c.name (mem_pdfChanges hc)
      simp only [pdfChanges, List.mem_cons, List.not_mem_nil, or_false] at hc
      rcases hc with rfl | rfl | rfl | rfl
      · exact ⟨by rw [hname]; rfl, by simp [FieldChange.of, hsource, Content.shown]⟩
      · exact ⟨by rw [hname]; rfl, by simp [FieldChange.of, hsanitized, Content.shown]⟩
      · exact ⟨by rw [hname]; rfl, by simp [FieldChange.of, hsize, Content.shown]⟩
      · exact ⟨by rw [hname]; rfl, by simp [FieldChange.of, hpages, Content.shown]⟩
    · obtain ⟨hcurrent, hproposed⟩ := hvalues field hfield
      simp [FieldChange.of, hcurrent, hproposed, Content.shown]

end

/-! ### Fire plans under review -/

namespace FirePlan

section

variable {current : FirePlan} {row : Row} (key : Text) (now : ℕ)

theorem text_set (plan : FirePlan) (field other : TextField) (value : Text) :
    (plan.set field value).text other = if other = field then value else plan.text other := by
  cases field <;> cases other <;> rfl

/-- A column that no text field is stays as it was. -/
theorem assign_keeps {α : Type} (column : FirePlan → α) (hset : ∀ plan field value, column (set plan field value) = column plan)
    (plan : FirePlan) (fields : List (TextField × Text)) : column (plan.assign fields) = column plan := by
  unfold assign
  induction fields generalizing plan with
  | nil => rfl
  | cons field rest ih =>
    rw [List.foldl_cons, ih]
    split
    · rfl
    · exact hset plan field.1 field.2

theorem text_assign_of_not_mem (plan : FirePlan) {fields : List (TextField × Text)} {field : TextField}
    (h : field ∉ fields.map Prod.fst) : (plan.assign fields).text field = plan.text field := by
  unfold assign
  induction fields generalizing plan with
  | nil => rfl
  | cons head rest ih =>
    rw [List.map_cons, List.mem_cons, not_or] at h
    rw [List.foldl_cons, ih _ h.2]
    split
    · rfl
    · rw [text_set, if_neg h.1]

/-- A field takes the value that is proposed for it, unless that is empty. -/
theorem text_assign (plan : FirePlan) {fields : List (TextField × Text)} (hnodup : (fields.map Prod.fst).Nodup) {f : TextField × Text}
    (hf : f ∈ fields) : (plan.assign fields).text f.1 = if f.2 = [] then plan.text f.1 else f.2 := by
  induction fields generalizing plan with
  | nil => cases hf
  | cons head rest ih =>
    rw [List.map_cons, List.nodup_cons] at hnodup
    have hstep : plan.assign (head :: rest) = (if head.2 = [] then plan else plan.set head.1 head.2).assign rest := rfl
    rw [hstep]
    rcases List.mem_cons.mp hf with rfl | hmem
    · rw [text_assign_of_not_mem _ hnodup.1]
      split
      · rfl
      · rw [text_set, if_pos rfl]
    · have hother : f.1 ≠ head.1 := fun heq => hnodup.1 (heq ▸ List.mem_map_of_mem hmem)
      rw [ih _ hnodup.2 hmem]
      have hkept : (if head.2 = [] then plan else plan.set head.1 head.2).text f.1 = plan.text f.1 := by
        split
        · rfl
        · rw [text_set, if_neg hother]
      rw [hkept]

theorem nodup_proposed : ((proposed row).map Prod.fst).Nodup := by
  have hnodup : [TextField.objectName, .address, .postalCode, .city, .fsdLocation, .bmzLocation, .rwaInfo].Nodup := by decide
  exact hnodup

theorem mem_proposed (row : Row) (field : TextField) : ∃ value, (field, value) ∈ proposed row := by
  have hkey : field ∈ (proposed row).map Prod.fst := by
    change field ∈ [TextField.objectName, .address, .postalCode, .city, .fsdLocation, .bmzLocation, .rwaInfo]
    cases field <;> decide
  obtain ⟨f, hf, rfl⟩ := List.mem_map.mp hkey
  exact ⟨f.2, hf⟩

/-- A field differs from what the row proposes for it. -/
def differs (current : FirePlan) (f : TextField × Text) : Bool := f.2 ≠ [] ∧ current.text f.1 ≠ f.2

theorem documentMetadataChanges_iff : current.documentMetadataChanges row = true ↔
    (∃ f ∈ proposed row, current.differs f = true) ∨ row.location ≠ none ∧ current.location ≠ row.location := by
  simp [documentMetadataChanges, differs]

/-- The texts after an approval, whichever branch it takes. -/
theorem text_approve {f : TextField × Text} (hf : f ∈ proposed row) :
    (current.approve row key now).text f.1 = if f.2 = [] then current.text f.1 else f.2 := by
  unfold approve
  split
  · exact text_assign _ nodup_proposed hf
  · unfold mergeDocumentMetadata
    split
    · exact text_assign _ nodup_proposed hf
    · rename_i hnone
      rw [documentMetadataChanges_iff, not_or] at hnone
      have hsame : ¬current.differs f = true := fun hdiffers => hnone.1 ⟨f, hf, hdiffers⟩
      simp only [differs, decide_eq_true_eq, not_and, not_not] at hsame
      split
      · rfl
      · exact hsame ‹_›

theorem text_approve_iff (field : TextField) :
    (∃ f ∈ (proposed row).filter current.differs, f.1 = field) ↔ current.text field ≠ (current.approve row key now).text field := by
  obtain ⟨value, hvalue⟩ := mem_proposed row field
  have hafter : (current.approve row key now).text field = if value = [] then current.text field else value := text_approve key now hvalue
  rw [hafter]
  constructor
  · rintro ⟨f, hf, rfl⟩
    obtain ⟨hmem, hdiffers⟩ := List.mem_filter.mp hf
    have hfv : f = (f.1, value) := by
      have hkeys : ((proposed row).map Prod.fst).Nodup := nodup_proposed
      exact List.inj_on_of_nodup_map hkeys hmem hvalue rfl
    rw [hfv] at hdiffers
    simp only [differs, decide_eq_true_eq] at hdiffers
    rw [if_neg hdiffers.1]
    exact hdiffers.2
  · intro hne
    refine ⟨(field, value), List.mem_filter.mpr ⟨hvalue, ?_⟩, rfl⟩
    simp only [differs, decide_eq_true_eq]
    split at hne
    · exact absurd rfl hne
    · exact ⟨‹_›, hne⟩

theorem location_approve : (current.approve row key now).location = row.location.orElse fun _ => current.location := by
  have hassign : ∀ plan : FirePlan, (plan.assign (proposed row)).location = plan.location :=
    fun plan => assign_keeps (fun plan => plan.location) (fun plan field value => by cases field <;> rfl) plan _
  unfold approve
  split
  · unfold replaceDocumentContent
    dsimp only
    rw [hassign]
  · unfold mergeDocumentMetadata
    split
    · dsimp only
      rw [hassign]
      cases row.location with
      | none => rfl
      | some point => rfl
    · rename_i hnone
      rw [documentMetadataChanges_iff, not_or] at hnone
      cases hlocation : row.location with
      | none => rfl
      | some point =>
        have hsame := hnone.2
        rw [hlocation] at hsame
        simpa using hsame

theorem pdf_approve (hchanged : current.documentContentChanged row = true) :
    (current.approve row key now).sourcePdfSha256 = row.sourcePdfSha256 ∧
    (current.approve row key now).sha256 = row.sanitizedPdfSha256 ∧
    (current.approve row key now).fileSize = row.fileSize ∧ (current.approve row key now).pageCount = row.pageCount := by
  rw [approve, if_pos hchanged]
  unfold replaceDocumentContent
  exact ⟨assign_keeps (fun plan => plan.sourcePdfSha256) (fun plan field value => by cases field <;> rfl) _ _,
    assign_keeps (fun plan => plan.sha256) (fun plan field value => by cases field <;> rfl) _ _,
    assign_keeps (fun plan => plan.fileSize) (fun plan field value => by cases field <;> rfl) _ _,
    assign_keeps (fun plan => plan.pageCount) (fun plan field value => by cases field <;> rfl) _ _⟩

theorem pdf_kept (hsame : current.documentContentChanged row = false) {name : FieldName} (hname : name.isPdf = true) :
    current.content name = (current.approve row key now).content name := by
  have hkeeps : ∀ plan : FirePlan, (plan.assign (proposed row)).content name = plan.content name := by
    refine fun plan => assign_keeps (fun plan => plan.content name) (fun plan field value => ?_) plan _
    cases name with
    | text field => cases hname
    | location => cases hname
    | sourcePdfSha256 => cases field <;> rfl
    | sanitizedPdfSha256 => cases field <;> rfl
    | pdfSize => cases field <;> rfl
    | pageCount => cases field <;> rfl
  unfold approve mergeDocumentMetadata
  rw [hsame, if_neg Bool.false_ne_true]
  split
  · rw [← hkeeps current]
    cases name with
    | text field => cases hname
    | location => cases hname
    | sourcePdfSha256 => rfl
    | sanitizedPdfSha256 => rfl
    | pdfSize => rfl
    | pageCount => rfl
  · rfl

variable {distance : Point → Point → Double}

theorem locationChange_eq_nil {current incoming : Option Point} :
    locationChange distance current incoming = [] ↔ incoming = none ∨ incoming = current := by
  unfold locationChange
  cases incoming with
  | none => simp
  | some point =>
    dsimp only
    split
    · rename_i hne
      simp [Ne.symm hne]
    · rename_i heq
      simpa using (not_not.mp heq).symm

theorem documentChangedFields_eq (h : row.location = none ∨ row.location = current.location) :
    current.documentChangedFields distance row =
      listedChanges (current.documentContentChanged row) current.toPlan row current.text ((proposed row).filter current.differs) := by
  unfold documentChangedFields listedChanges
  rw [locationChange_eq_nil.mpr h, ← flatMap_ite]
  simp only [List.append_nil, differs, decide_eq_true_eq]

/-- A location that moves is listed with each of the text fields. -/
theorem not_nodup_changes (h : ¬(row.location = none ∨ row.location = current.location)) :
    ¬((current.documentChangedFields distance row).map FieldChange.name).Nodup := by
  have hlisted : locationChange distance current.location row.location ≠ [] := mt locationChange_eq_nil.mp h
  obtain ⟨change, hchange⟩ := List.exists_mem_of_ne_nil _ hlisted
  intro hnodup
  unfold documentChangedFields at hnodup
  rw [List.map_append, List.nodup_append, List.map_flatMap, List.nodup_flatMap] at hnodup
  obtain ⟨-, ⟨-, hdisjoint⟩, -⟩ := hnodup
  rw [proposed, List.pairwise_cons] at hdisjoint
  have htwo := hdisjoint.1 _ List.mem_cons_self
  have hmem : ∀ changes : List FieldChange,
      change.name ∈ (changes ++ locationChange distance current.location row.location).map FieldChange.name :=
    fun changes => List.mem_map_of_mem (List.mem_append_right _ hchange)
  exact htwo (hmem _) (hmem _)

theorem pdf_listed {name : FieldName} (hname : name.isPdf = true) :
    (∃ c ∈ current.documentChangedFields distance row, c.name = name) ↔ current.documentContentChanged row = true := by
  constructor
  · rintro ⟨c, hc, rfl⟩
    unfold documentChangedFields at hc
    rcases List.mem_append.mp hc with hc | hc
    · by_contra hsame
      rw [if_neg hsame] at hc
      cases hc
    · obtain ⟨f, -, hc⟩ := List.mem_flatMap.mp hc
      rcases List.mem_append.mp hc with hc | hc
      · split at hc
        · rw [List.mem_singleton.mp hc] at hname
          cases hname
        · cases hc
      · unfold locationChange at hc
        split at hc
        · cases hc
        · split at hc
          · rw [List.mem_singleton.mp hc] at hname
            cases hname
          · cases hc
  · intro hchanged
    obtain ⟨c, hc, hcn⟩ : ∃ c ∈ pdfChanges current.toPlan row, c.name = name := exists_pdfChanges hname
    refine ⟨c, List.mem_append_left _ ?_, hcn⟩
    rw [if_pos hchanged]
    exact hc

/-- A fire plan is reviewed in full exactly when the row does not move its location. -/
theorem reviewed_iff : Reviewed (current.documentChangedFields distance row)
    (current.documentContentChanged row = true ∨ current.documentMetadataChanges row = true)
    (Changed (current.documentContentChanged row) current.content (current.approve row key now).content)
    current.content (current.approve row key now).content ↔ row.location = none ∨ row.location = current.location := by
  constructor
  · intro hreviewed
    by_contra hmoves
    exact not_nodup_changes hmoves hreviewed.once
  · intro hstays
    rw [documentChangedFields_eq hstays]
    have hmetadata : current.documentMetadataChanges row = true ↔ (proposed row).filter current.differs ≠ [] := by
      rw [documentMetadataChanges_iff]
      constructor
      · rintro (⟨f, hf, hdiffers⟩ | ⟨hne, hmoves⟩) hnone
        · exact List.filter_eq_nil_iff.mp hnone f hf hdiffers
        · rcases hstays with hnil | hsame
          · exact hne hnil
          · exact hmoves hsame.symm
      · intro hsome
        obtain ⟨f, hf⟩ := List.exists_mem_of_ne_nil _ hsome
        obtain ⟨hmem, hdiffers⟩ := List.mem_filter.mp hf
        exact .inl ⟨f, hmem, hdiffers⟩
    refine reviewed_listedChanges (nodup_proposed.sublist (List.filter_sublist.map _)) (or_congr_right hmetadata) ?_ ?_ ?_ ?_ ?_
    · intro name hname
      cases name with
      | text field => cases hname
      | location => cases hname
      | sourcePdfSha256 => rfl
      | sanitizedPdfSha256 => rfl
      | pdfSize => rfl
      | pageCount => rfl
    · intro hchanged
      obtain ⟨hsource, hsanitized, hsize, hpages⟩ := pdf_approve key now hchanged
      exact ⟨congrArg (some ∘ Content.text) hsource, congrArg (some ∘ Content.text) hsanitized,
        congrArg (some ∘ Content.number) hsize, congrArg (some ∘ Content.number) hpages⟩
    · intro field
      rw [text_approve_iff key now field]
      simp [content, Plan.content]
    · intro f hf
      obtain ⟨hmem, hdiffers⟩ := List.mem_filter.mp hf
      simp only [differs, decide_eq_true_eq] at hdiffers
      refine ⟨rfl, ?_⟩
      have htext : (current.approve row key now).text f.1 = f.2 := by
        rw [text_approve key now hmem, if_neg hdiffers.1]
      exact congrArg (some ∘ Content.text) htext
    · refine congrArg (some ∘ Content.point) (Eq.trans ?_ (location_approve key now).symm)
      rcases hstays with hnil | hsame
      · rw [hnil]
        rfl
      · rw [hsame]
        cases current.location <;> rfl

end

end FirePlan

/-! ### KLGV plans under review -/

namespace KlgvPlan

section

variable {current : KlgvPlan} {row : Row} (key : Text) (now : ℕ)

theorem nodup_proposed : ((proposed row).map Prod.fst).Nodup := by
  have hnodup : [TextField.objectName, .address, .postalCode, .city].Nodup := by decide
  exact hnodup

theorem text_of_proposed (plan : KlgvPlan) {f : TextField × Text} (hf : f ∈ proposed row) :
    ({ plan.assign row with updatedAt := now } : KlgvPlan).text f.1 = some f.2 := by
  simp only [proposed, List.mem_cons, List.not_mem_nil, or_false] at hf
  rcases hf with rfl | rfl | rfl | rfl <;> rfl

theorem documentMetadataChanges_iff : current.documentMetadataChanges row = true ↔
    (∃ f ∈ proposed row, current.text f.1 ≠ some f.2) ∨ row.location ≠ current.location := by
  simp [documentMetadataChanges]

/-- Every field of the row is stored, or stood there before. -/
theorem text_approve {f : TextField × Text} (hf : f ∈ proposed row) : (current.approve row key now).text f.1 = some f.2 := by
  unfold approve
  split
  · exact text_of_proposed now _ hf
  · unfold mergeDocumentMetadata
    split
    · exact text_of_proposed now current hf
    · rename_i hnone
      rw [documentMetadataChanges_iff, not_or] at hnone
      by_contra hne
      exact hnone.1 ⟨f, hf, hne⟩

theorem location_approve : (current.approve row key now).location = row.location := by
  unfold approve
  split
  · rfl
  · unfold mergeDocumentMetadata
    split
    · rfl
    · rename_i hnone
      rw [documentMetadataChanges_iff, not_or] at hnone
      exact (not_not.mp hnone.2).symm

theorem text_absent (plan : KlgvPlan) {field : TextField} (h : field ∉ (proposed row).map Prod.fst) : plan.text field = none := by
  change field ∉ [TextField.objectName, .address, .postalCode, .city] at h
  cases field with
  | objectName => exact absurd (by decide) h
  | address => exact absurd (by decide) h
  | postalCode => exact absurd (by decide) h
  | city => exact absurd (by decide) h
  | fsdLocation => rfl
  | bmzLocation => rfl
  | rwaInfo => rfl

/-- The stored value differs, and the row proposes one. -/
def differs (current : KlgvPlan) (f : TextField × Text) : Bool := f.2 ≠ [] ∧ current.text f.1 ≠ some f.2

theorem documentChangedFields_eq : current.documentChangedFields row =
    listedChanges (current.documentContentChanged row) current.toPlan row (fun field => (current.text field).getD [])
      ((proposed row).filter current.differs) := by
  unfold documentChangedFields listedChanges
  rw [← flatMap_ite]
  simp only [differs, decide_eq_true_eq]

theorem pdf_kept (hsame : current.documentContentChanged row = false) {name : FieldName} (hname : name.isPdf = true) :
    current.content name = (current.approve row key now).content name := by
  unfold approve mergeDocumentMetadata
  rw [hsame, if_neg Bool.false_ne_true]
  split
  · cases name with
    | text field => cases hname
    | location => cases hname
    | sourcePdfSha256 => rfl
    | sanitizedPdfSha256 => rfl
    | pdfSize => rfl
    | pageCount => rfl
  · rfl

/-- A KLGV plan is reviewed in full exactly when the row keeps its location and empties no field. -/
theorem reviewed_iff : Reviewed (current.documentChangedFields row)
    (current.documentContentChanged row = true ∨ current.documentMetadataChanges row = true)
    (Changed (current.documentContentChanged row) current.content (current.approve row key now).content)
    current.content (current.approve row key now).content ↔
      row.location = current.location ∧ ∀ f ∈ proposed row, f.2 = [] → current.text f.1 = some [] := by
  constructor
  · intro hreviewed
    have hlisted : ∀ name, name.isPdf = false → current.content name ≠ (current.approve row key now).content name →
        ∃ f ∈ (proposed row).filter current.differs, name = .text f.1 := by
      intro name hname hne
      have hcomplete := hreviewed.complete name
      rw [documentChangedFields_eq, listedChanges_names, Changed, hname] at hcomplete
      rcases hcomplete.mpr hne with ⟨-, hpdf⟩ | hfield
      · cases hpdf
      · exact hfield
    constructor
    · by_contra hmoves
      have hne : current.content .location ≠ (current.approve row key now).content .location := by
        intro heq
        have hlocation : current.location = (current.approve row key now).location :=
          Content.point.inj (Option.some.inj heq)
        rw [location_approve] at hlocation
        exact hmoves hlocation.symm
      obtain ⟨f, -, hf⟩ := hlisted .location rfl hne
      cases hf
    · intro f hf hempty
      by_contra hstored
      have hne : current.content (.text f.1) ≠ (current.approve row key now).content (.text f.1) := by
        intro heq
        have htext : (current.text f.1).map Content.text = some (.text f.2) := by
          exact heq.trans (congrArg (Option.map Content.text) (text_approve key now hf))
        rw [hempty] at htext
        obtain ⟨t, ht, htt⟩ := Option.map_eq_some_iff.mp htext
        rw [Content.text.inj htt] at ht
        exact hstored ht
      obtain ⟨g, hg, hgf⟩ := hlisted (.text f.1) rfl hne
      obtain ⟨hmem, hdiffers⟩ := List.mem_filter.mp hg
      have hkey : f.1 = g.1 := FieldName.text.inj hgf
      obtain rfl : f = g := List.inj_on_of_nodup_map nodup_proposed hf hmem hkey
      simp only [differs, decide_eq_true_eq] at hdiffers
      exact hdiffers.1 hempty
  · rintro ⟨hlocation, hempty⟩
    rw [documentChangedFields_eq]
    have hdiffers : ∀ f ∈ proposed row, current.differs f = true ↔ current.text f.1 ≠ some f.2 := by
      intro f hf
      simp only [differs, decide_eq_true_eq, and_iff_right_iff_imp]
      intro hne hnil
      rw [hnil] at hne
      exact hne (hempty f hf hnil)
    have hmetadata : current.documentMetadataChanges row = true ↔ (proposed row).filter current.differs ≠ [] := by
      rw [documentMetadataChanges_iff]
      constructor
      · rintro (⟨f, hf, hne⟩ | hmoves) hnone
        · exact List.filter_eq_nil_iff.mp hnone f hf ((hdiffers f hf).mpr hne)
        · exact hmoves hlocation
      · intro hsome
        obtain ⟨f, hf⟩ := List.exists_mem_of_ne_nil _ hsome
        obtain ⟨hmem, hf⟩ := List.mem_filter.mp hf
        exact .inl ⟨f, hmem, (hdiffers f hmem).mp hf⟩
    refine reviewed_listedChanges (nodup_proposed.sublist (List.filter_sublist.map _)) (or_congr_right hmetadata) ?_ ?_ ?_ ?_ ?_
    · intro name hname
      cases name with
      | text field => cases hname
      | location => cases hname
      | sourcePdfSha256 => rfl
      | sanitizedPdfSha256 => rfl
      | pdfSize => rfl
      | pageCount => rfl
    · intro hchanged
      rw [approve, if_pos hchanged]
      exact ⟨rfl, rfl, rfl, rfl⟩
    · intro field
      by_cases hfield : field ∈ (proposed row).map Prod.fst
      · obtain ⟨f, hf, rfl⟩ := List.mem_map.mp hfield
        have hafter : (current.approve row key now).content (.text f.1) = some (.text f.2) :=
          congrArg (Option.map Content.text) (text_approve key now hf)
        rw [hafter]
        constructor
        · rintro ⟨g, hg, hgf⟩ heq
          obtain ⟨hmem, hg⟩ := List.mem_filter.mp hg
          obtain rfl : g = f := List.inj_on_of_nodup_map nodup_proposed hmem hf hgf
          obtain ⟨t, ht, htt⟩ := Option.map_eq_some_iff.mp heq
          rw [Content.text.inj htt] at ht
          exact (hdiffers g hf).mp hg ht
        · intro hne
          refine ⟨f, List.mem_filter.mpr ⟨hf, (hdiffers f hf).mpr fun htext => hne ?_⟩, rfl⟩
          exact congrArg (Option.map Content.text) htext
      · have hnone : ∀ plan : KlgvPlan, plan.content (.text field) = none :=
          fun plan => congrArg (Option.map Content.text) (text_absent plan hfield)
        rw [hnone, hnone]
        constructor
        · rintro ⟨f, hf, rfl⟩
          exact absurd (List.mem_map_of_mem (List.mem_filter.mp hf).1) hfield
        · exact fun hne => absurd rfl hne
    · intro f hf
      obtain ⟨hmem, -⟩ := List.mem_filter.mp hf
      refine ⟨?_, congrArg (Option.map Content.text) (text_approve key now hmem)⟩
      have hcolumn : ∃ t, current.text f.1 = some t := by
        simp only [proposed, List.mem_cons, List.not_mem_nil, or_false] at hmem
        rcases hmem with rfl | rfl | rfl | rfl <;> exact ⟨_, rfl⟩
      obtain ⟨t, ht⟩ := hcolumn
      simp only [content, Plan.content, ht, Option.map_some, Option.getD_some]
    · exact congrArg (some ∘ Content.point) (hlocation.symm.trans (location_approve key now).symm)

end

end KlgvPlan

/-- The properties of the new document all differ from those of the old one. -/
def PdfDiffers (current : Plan) (row : Row) : Prop :=
  current.sha256 ≠ row.sanitizedPdfSha256 ∧ current.fileSize ≠ row.fileSize ∧ current.pageCount ≠ row.pageCount

theorem pdfDiffers_iff {current : Plan} {row : Row} {before after : FieldName → Option Content}
    (hsource : current.sourcePdfSha256 ≠ row.sourcePdfSha256)
    (hbefore : ∀ name, name.isPdf = true → before name = current.content (fun _ => none) name)
    (hafter : after .sourcePdfSha256 = some (.text row.sourcePdfSha256) ∧
      after .sanitizedPdfSha256 = some (.text row.sanitizedPdfSha256) ∧ after .pdfSize = some (.number row.fileSize) ∧
      after .pageCount = some (.number row.pageCount)) :
    (∀ name, name.isPdf = true → before name ≠ after name) ↔ PdfDiffers current row := by
  obtain ⟨hs, ht, hn, hp⟩ := hafter
  constructor
  · intro hdiffer
    have hsanitized := hdiffer .sanitizedPdfSha256 rfl
    have hsize := hdiffer .pdfSize rfl
    have hpages := hdiffer .pageCount rfl
    rw [hbefore _ rfl, ht] at hsanitized
    rw [hbefore _ rfl, hn] at hsize
    rw [hbefore _ rfl, hp] at hpages
    refine ⟨fun heq => hsanitized ?_, fun heq => hsize ?_, fun heq => hpages ?_⟩
    · exact congrArg (some ∘ Content.text) heq
    · exact congrArg (some ∘ Content.number) heq
    · exact congrArg (some ∘ Content.number) heq
  · rintro ⟨hsanitized, hsize, hpages⟩ name hname
    rw [hbefore name hname]
    cases name with
    | text field => cases hname
    | location => cases hname
    | sourcePdfSha256 =>
      rw [hs]
      exact fun heq => hsource (Content.text.inj (Option.some.inj heq))
    | sanitizedPdfSha256 =>
      rw [ht]
      exact fun heq => hsanitized (Content.text.inj (Option.some.inj heq))
    | pdfSize =>
      rw [hn]
      exact fun heq => hsize (Content.number.inj (Option.some.inj heq))
    | pageCount =>
      rw [hp]
      exact fun heq => hpages (Content.number.inj (Option.some.inj heq))

/-- The review of a fire plan is complete exactly when the row does not move its location, that of a KLGV plan exactly
when the row neither moves it nor empties a field; property by property, a replaced document has to differ in all of them. -/
theorem changes_reviewed_iff (distance : Point → Point → Double) (key : Text) (now : ℕ) (row : Row) :
    (∀ current : FirePlan,
      let proposes := current.documentContentChanged row = true ∨ current.documentMetadataChanges row = true
      let after := (current.approve row key now).content
      (Reviewed (current.documentChangedFields distance row) proposes
        (Changed (current.documentContentChanged row) current.content after) current.content after ↔
        row.location = none ∨ row.location = current.location) ∧
      (Reviewed (current.documentChangedFields distance row) proposes (fun name => current.content name ≠ after name)
        current.content after ↔ (row.location = none ∨ row.location = current.location) ∧
          (current.documentContentChanged row = true → PdfDiffers current.toPlan row))) ∧
    ∀ current : KlgvPlan,
      let proposes := current.documentContentChanged row = true ∨ current.documentMetadataChanges row = true
      let after := (current.approve row key now).content
      (Reviewed (current.documentChangedFields row) proposes
        (Changed (current.documentContentChanged row) current.content after) current.content after ↔
        row.location = current.location ∧ ∀ f ∈ KlgvPlan.proposed row, f.2 = [] → current.text f.1 = some []) ∧
      (Reviewed (current.documentChangedFields row) proposes (fun name => current.content name ≠ after name)
        current.content after ↔
        (row.location = current.location ∧ ∀ f ∈ KlgvPlan.proposed row, f.2 = [] → current.text f.1 = some []) ∧
          (current.documentContentChanged row = true → PdfDiffers current.toPlan row)) := by
  refine ⟨fun current => ⟨FirePlan.reviewed_iff key now, ?_⟩, fun current => ⟨KlgvPlan.reviewed_iff key now, ?_⟩⟩
  · rw [reviewed_each_iff (fun name hname => FirePlan.pdf_listed hname) fun hsame name hname => FirePlan.pdf_kept key now hsame hname,
      FirePlan.reviewed_iff key now]
    refine and_congr_right fun _ => forall_congr' fun hchanged => ?_
    obtain ⟨hsource, hsanitized, hsize, hpages⟩ := FirePlan.pdf_approve key now hchanged
    refine pdfDiffers_iff (by simpa [FirePlan.documentContentChanged] using hchanged) (fun name hname => ?_)
      ⟨congrArg (some ∘ Content.text) hsource, congrArg (some ∘ Content.text) hsanitized,
        congrArg (some ∘ Content.number) hsize, congrArg (some ∘ Content.number) hpages⟩
    cases name <;> first | rfl | cases hname
  · have hpdf : ∀ name, name.isPdf = true →
        ((∃ c ∈ current.documentChangedFields row, c.name = name) ↔ current.documentContentChanged row = true) := by
      intro name hname
      rw [KlgvPlan.documentChangedFields_eq, listedChanges_names]
      constructor
      · rintro (⟨hchanged, -⟩ | ⟨f, -, rfl⟩)
        · exact hchanged
        · cases hname
      · exact fun hchanged => .inl ⟨hchanged, hname⟩
    rw [reviewed_each_iff hpdf fun hsame name hname => KlgvPlan.pdf_kept key now hsame hname, KlgvPlan.reviewed_iff key now]
    refine and_congr_right fun _ => forall_congr' fun hchanged => ?_
    refine pdfDiffers_iff (by simpa [KlgvPlan.documentContentChanged] using hchanged) (fun name hname => ?_) ?_
    · cases name <;> first | rfl | cases hname
    · rw [KlgvPlan.approve, if_pos hchanged]
      exact ⟨rfl, rfl, rfl, rfl⟩

def samplePoint (longitude : ℤ) : Point := ⟨.finite longitude 0, .finite 53 0⟩

def samplePlan : Plan where
  id := 1
  department := 1
  externalIdentifier := Json.text "A-1"
  objectName := Json.text "School"
  address := Json.text "Road 1"
  postalCode := Json.text "20095"
  city := Json.text "Hamburg"
  location := some (samplePoint 9)
  originalFilename := Json.text "a.pdf"
  fileSize := 1000
  pageCount := 2
  sha256 := Json.text "aa"
  sourcePdfSha256 := Json.text "bb"
  active := true
  updatedAt := 0

/-- The row of the plan with another longitude. -/
def movedRow : Row where
  action := .upsert
  externalIdentifier := samplePlan.externalIdentifier
  title := samplePlan.objectName
  address := samplePlan.address
  postalCode := samplePlan.postalCode
  city := samplePlan.city
  fsdLocation := []
  bmzLocation := []
  rwaInfo := []
  longitude := some (.finite 10 0)
  latitude := some (.finite 53 0)
  originalFilename := samplePlan.originalFilename
  fileSize := samplePlan.fileSize
  pageCount := samplePlan.pageCount
  sourcePdfSha256 := samplePlan.sourcePdfSha256
  sanitizedPdfSha256 := samplePlan.sha256

/-- A moved location is listed seven times for a fire plan and not at all for a KLGV plan. -/
theorem moved_listed_wrong :
    let firePlan : FirePlan := { samplePlan with fsdLocation := [], bmzLocation := [], rwaInfo := [], documentKey := Json.text "k" }
    let klgvPlan : KlgvPlan := { samplePlan with path := Json.text "k" }
    ((firePlan.documentChangedFields (fun _ _ => .finite 0 0) movedRow).map FieldChange.name = List.replicate 7 .location) ∧
    klgvPlan.documentMetadataChanges movedRow = true ∧ klgvPlan.documentChangedFields movedRow = [] ∧
    (klgvPlan.approve movedRow (Json.text "k") 1).location ≠ klgvPlan.location := by
  decide

end FireDash.Ingestion.Documents
