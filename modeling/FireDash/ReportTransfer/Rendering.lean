import FireDash.ReportTransfer.Digests
import FireDash.ReportTransfer.Validation

/-! The renderers of a report document, which index it directly: the PDF and the page of the
portal. A validated document makes both return. -/
namespace FireDash.ReportTransfer.Raising

open Json (Text Value Schema AccessError Key)
open Json.Schema (record)

/-! ### What is read from outside -/

/-- Where a parser of paragraph markup is. -/
inductive Reading where
  | plain
  | entity (name : Text)
  | tag (name : Text)
  deriving DecidableEq

def Reading.next : Reading → ℕ → Option Reading
  | .plain, c => some (if c = 38 then .entity [] else if c = 60 then .tag [] else .plain)
  | .entity name, c =>
    if c ≠ 59 then some (.entity (name ++ [c]))
    else if name = Json.text "amp" ∨ name = Json.text "lt" ∨ name = Json.text "gt" then some .plain
    else none
  | .tag name, c =>
    if c ≠ 62 then some (.tag (name ++ [c]))
    else if name = Json.text "br/" then some .plain
    else none

/-- Text whose only markup is the escaped characters and line breaks. -/
def Readable (markup : Text) : Prop := markup.foldlM Reading.next .plain = some .plain

instance : DecidablePred Readable := fun _ => inferInstanceAs (Decidable (_ = _))

/-- What the renderers rely on: the glyphs of the font, whether a heading is too tall for the
columns of its table, and how the interpreter writes objects and arrays; of ReportLab and Django,
what they take at least. -/
structure Renderer where
  supported : ℕ → Bool
  tall : ℕ → Text → Bool
  containerText : Value → Except AccessError Text
  /-- ReportLab parses the markup of a paragraph. -/
  parses : Text → Bool
  /-- ReportLab builds a table of so many columns from rows of these lengths. -/
  builds : ℕ → List ℕ → Bool
  /-- Django has a route for the identifiers. -/
  routes : List Text → Bool
  parses_of_readable : ∀ {markup}, Readable markup → parses markup = true
  builds_of_rectangular : ∀ {columns lengths}, 0 < columns → lengths ≠ [] → (∀ n ∈ lengths, n = columns) → builds columns lengths = true
  routes_of_canonical : ∀ {arguments}, (∀ a ∈ arguments, isCanonicalUuid a = true) → routes arguments = true

def writer (settings : Settings) (renderer : Renderer) : Json.Writer where
  limits := settings.jsonLimits
  floatText := settings.floatRepr
  containerText := renderer.containerText

/-- `str(value)`, as in `f"{value}"`. -/
def formatted (settings : Settings) (renderer : Renderer) (value : Value) : Except Raised Text :=
  access (Json.str (writer settings renderer) value)

def decimal (n : ℕ) : Text := Json.text (Nat.repr n)

/-! ### Paragraphs -/

/-- `f"[U+{ord(c):04X}]"`. -/
def codePoint (c : ℕ) : Text :=
  let digits : Text := (Nat.toDigits 16 c).map fun d => d.toUpper.toNat
  Json.text "[U+" ++ List.replicate (4 - digits.length) 48 ++ digits ++ [93]

def printable (renderer : Renderer) (s : Text) : Text :=
  s.flatMap fun c => if renderer.supported c ∨ c = 10 ∨ c = 9 then [c] else codePoint c

/-- `xml.sax.saxutils.escape`. -/
def escape (s : Text) : Text :=
  s.flatMap fun c =>
    if c = 38 then Json.text "&amp;" else if c = 60 then Json.text "&lt;" else if c = 62 then Json.text "&gt;" else [c]

/-- `.replace("\n", "<br/>").replace("\t", "    ")`. -/
def lineBreaks (s : Text) : Text :=
  s.flatMap fun c => if c = 10 then Json.text "<br/>" else if c = 9 then Json.text "    " else [c]

inductive Style where
  | title
  | heading
  | body
  deriving DecidableEq

structure Paragraph where
  style : Style
  markup : Text
  deriving DecidableEq

/-- `paragraph`: markup that does not parse is refused. -/
def paragraph (renderer : Renderer) (style : Style) (s : Text) : Except Raised Paragraph :=
  let markup := lineBreaks (escape (printable renderer s))
  if renderer.parses markup then .ok ⟨style, markup⟩ else .error (.access .valueError)

inductive Flowable where
  | paragraph (p : Paragraph)
  | table (data : List (List Paragraph))
  | spacer
  deriving DecidableEq

def line (renderer : Renderer) (style : Style) (s : Text) : Except Raised Flowable := do
  return .paragraph (← paragraph renderer style s)

/-! ### The PDF -/

def display (settings : Settings) (renderer : Renderer) (value : Value) : Except Raised Text := do
  if isStr (← subscript value "type") (Json.text "boolean") then
    return Json.text (if Json.truth (← subscript value "value") then "Yes" else "No")
  else formatted settings renderer (← subscript value "value")

def renderField (settings : Settings) (renderer : Renderer) (item : Value) : Except Raised Flowable := do
  let label ← formatted settings renderer (← subscript item "label")
  let shown ← display settings renderer (← subscript item "value")
  line renderer .body (label ++ Json.text ": " ++ shown)

def renderFields (settings : Settings) (renderer : Renderer) (items : Value) : Except Raised (List Flowable) := do
  (← access (Json.iterate items)).mapM (renderField settings renderer)

/-- `LongTable`, for the widths of the columns. -/
def longTable (renderer : Renderer) (columns : ℕ) (data : List (List Paragraph)) : Except Raised Flowable :=
  if renderer.builds columns (data.map List.length) then .ok (.table data) else .error (.access .valueError)

/-- Headings too tall for their columns are replaced by numbers, and explained above the table. -/
def shortHeadings (settings : Settings) (renderer : Renderer) (columns : List Value) :
    Except Raised (List Flowable × List Paragraph) := do
  let legend ← columns.zipIdx.mapM fun c => do
    let label ← formatted settings renderer (← subscript c.1 "label")
    line renderer .body (Json.text "Column " ++ decimal (c.2 + 1) ++ Json.text ": " ++ label)
  let headings ← (List.range columns.length).mapM fun i => paragraph renderer .body (decimal (i + 1))
  return (legend, headings)

def tableHeadings (settings : Settings) (renderer : Renderer) (columns : List Value) :
    Except Raised (List Flowable × List Paragraph) := do
  let headers ← columns.mapM fun c => do paragraph renderer .body (← formatted settings renderer (← subscript c "label"))
  if headers.any fun p => renderer.tall columns.length p.markup then shortHeadings settings renderer columns
  else return ([], headers)

/-- The width of a page is divided by the number of columns. -/
def divided (columns : ℕ) : Except Raised Unit := if columns = 0 then .error .zeroDivisionError else .ok ()

def renderTable (settings : Settings) (renderer : Renderer) (block : Value) : Except Raised (List Flowable) := do
  let columns ← access (Json.iterate (← subscript block "columns"))
  divided columns.length
  let headings ← tableHeadings settings renderer columns
  let rows ← (← access (Json.iterate (← subscript block "rows"))).mapM fun row => do
    (← access (Json.iterate row)).mapM fun c => do paragraph renderer .body (← display settings renderer c)
  let table ← longTable renderer columns.length (headings.2 :: rows)
  return headings.1 ++ [table, .spacer]

def renderReferences (renderer : Renderer) (numbers : List (Key × ℕ)) (block : Value) : Except Raised (List Flowable) := do
  let references ← (← access (Json.iterate (← subscript block "attachment_ids"))).mapM fun i => do
    return decimal (← access (Json.lookupKey numbers i))
  return [← line renderer .body (Json.text "Attachments: " ++ [44, 32].intercalate references)]

def renderBlock (settings : Settings) (renderer : Renderer) (numbers : List (Key × ℕ)) (block : Value) :
    Except Raised (List Flowable) := do
  let kind ← subscript block "kind"
  if isStr kind (Json.text "text") then
    return [← line renderer .body (← formatted settings renderer (← subscript block "text"))]
  else if isStr kind (Json.text "fields") then
    renderFields settings renderer (← subscript block "fields")
  else if isStr kind (Json.text "attachment_refs") then
    renderReferences renderer numbers block
  else if isStr kind (Json.text "table") then
    renderTable settings renderer block
  else return []

def renderSection (settings : Settings) (renderer : Renderer) (numbers : List (Key × ℕ)) (value : Value) :
    Except Raised (List Flowable) := do
  let title ← line renderer .heading (← formatted settings renderer (← subscript value "title"))
  let blocks ← (← access (Json.iterate (← subscript value "blocks"))).mapM (renderBlock settings renderer numbers)
  return title :: blocks.flatten

def renderAttachment (settings : Settings) (renderer : Renderer) (numbers : List (Key × ℕ)) (attachmentHashes : List (Uuid × Text))
    (value : Value) : Except Raised (List Flowable) := do
  let identity ← subscript value "id"
  let number ← access (Json.lookupKey numbers identity)
  let title ← formatted settings renderer (← subscript value "title")
  let caption ← formatted settings renderer (← subscript value "caption")
  let hash ← access (Json.lookupKey (attachmentHashes.map fun a => (Key.text a.1, a.2)) identity)
  let id ← formatted settings renderer identity
  return [← line renderer .body (decimal number ++ Json.text ". " ++ title), ← line renderer .body caption,
    ← line renderer .body (Json.text "ID: " ++ id ++ Json.text "; SHA-256: " ++ hash)]

def renderEmpty (renderer : Renderer) (numbers : List (Key × ℕ)) : Except Raised (List Flowable) := do
  if numbers = [] then return [← line renderer .body (Json.text "None")]
  else return []

def renderSignature (renderer : Renderer) (numbers : List (Key × ℕ)) (finalization : Value) : Except Raised (List Flowable) := do
  let signature ← access (Json.get finalization (Json.text "signature_attachment_id"))
  if Json.truth signature then
    let number ← access (Json.lookupKey numbers signature)
    return [← line renderer .body (Json.text "Signature reference (client-declared): Attachment " ++ decimal number)]
  else return []

/-- `document_digest`. -/
def documentDigest (settings : Settings) (document : Value) (attachmentHashes : List (Uuid × Text)) : Except Raised Text := do
  check (asDict document)
  validateDocument settings document (← access (Json.get document (Json.text "report_id"))) attachmentHashes
  let value := digestValue document attachmentHashes
  access (Json.written settings.jsonLimits value)
  return settings.sha256Hex (canonical settings value)

/-- The lines on the identity of the report, its author and the moments around it. -/
def renderMetadata (settings : Settings) (renderer : Renderer) (document : Value) (digest received exported : Text) :
    Except Raised (List Flowable) := do
  let author ← subscript (← subscript document "finalization") "author"
  let reportId ← formatted settings renderer (← subscript document "report_id")
  let reportType ← formatted settings renderer (← subscript document "report_type")
  let name ← formatted settings renderer (← subscript author "display_name")
  let id ← formatted settings renderer (← subscript author "id")
  let finalized ← formatted settings renderer (← subscript (← subscript document "finalization") "finalized_at")
  let metadata : List (String × Text) := [
    ("Report ID", reportId), ("Report type", reportType),
    ("Finalizing person (client-declared)", name ++ Json.text " (" ++ id ++ Json.text ")"),
    ("App finalization (client-declared)", finalized),
    ("Server receipt (server-observed)", received), ("PDF export (server-observed)", exported),
    ("Finalized document SHA-256", digest)]
  metadata.mapM fun m => line renderer .body (Json.text m.1 ++ Json.text ": " ++ m.2)

structure Pdf where
  story : List Flowable
  footer : Text
  deriving DecidableEq

/-- `render_pdf`, up to the layout of the story, with the moments of receipt and export as they are written. -/
def renderPdf (settings : Settings) (renderer : Renderer) (document : Value) (attachmentHashes : List (Uuid × Text))
    (received exported : Text) : Except Raised Pdf := do
  let digest ← documentDigest settings document attachmentHashes
  let title ← line renderer .title (← formatted settings renderer (← subscript document "title"))
  let metadata ← renderMetadata settings renderer document digest received exported
  let header ← renderFields settings renderer (← subscript document "header")
  let attachments ← access (Json.iterate (← subscript document "attachments"))
  let numbers ← attachments.zipIdx.mapM fun a => do return (← access (Json.hashed (← subscript a.1 "id")), a.2 + 1)
  let sections ← (← access (Json.iterate (← subscript document "sections"))).mapM (renderSection settings renderer numbers)
  let heading ← line renderer .heading (Json.text "JPEG attachments (download separately)")
  let empty ← renderEmpty renderer numbers
  let described ← attachments.mapM (renderAttachment settings renderer numbers attachmentHashes)
  let signature ← renderSignature renderer numbers (← subscript document "finalization")
  let footer ← formatted settings renderer (← subscript document "report_id")
  return {
    story := title :: metadata ++ header ++ sections.flatten ++ heading :: empty ++ described.flatten ++ signature
    footer := Json.text "Report " ++ footer }

/-! ### The page of the portal -/

/-- `reverse` of a route below the report, whose arguments are identifiers. -/
def reverse (renderer : Renderer) (arguments : List Text) (route : Text) : Except Raised Text :=
  if renderer.routes arguments then .ok route else .error .noReverseMatch

def displayValue (settings : Settings) (renderer : Renderer) (typed : Value) : Except Raised Value := do
  if isStr (← subscript typed "type") (Json.text "boolean") then
    return .str (Json.text (if Json.truth (← subscript typed "value") then "Ja" else "Nein"))
  else return .str (← formatted settings renderer (← subscript typed "value"))

def displayFields (settings : Settings) (renderer : Renderer) (fields : Value) : Except Raised Value := do
  let shown ← (← access (Json.iterate fields)).mapM fun field => do
    let label ← subscript field "label"
    let value ← displayValue settings renderer (← subscript field "value")
    return .dict [(Json.text "label", label), (Json.text "display_value", value)]
  return .list shown

def detailPhoto (settings : Settings) (renderer : Renderer) (reportId : Uuid) (photo : Value) : Except Raised Value := do
  let shown ← access (Json.mapping photo)
  let id ← formatted settings renderer (← subscript photo "id")
  let route := Json.text "/reports/" ++ reportId ++ Json.text "/photos/" ++ id ++ Json.text "/"
  let preview ← reverse renderer [reportId, id] (route ++ Json.text "preview/")
  let shown ← access (Json.assign shown (Json.text "preview_url") (.str preview))
  let download ← reverse renderer [reportId, id] route
  access (Json.assign shown (Json.text "download_url") (.str download))

def detailBlock (settings : Settings) (renderer : Renderer) (photoById : List (Key × Value)) (block : Value) :
    Except Raised Value := do
  let kind ← subscript block "kind"
  if isStr kind (Json.text "fields") then
    let shown ← displayFields settings renderer (← subscript block "fields")
    access (Json.assign block (Json.text "display_fields") shown)
  else if isStr kind (Json.text "table") then
    let rows ← (← access (Json.iterate (← subscript block "rows"))).mapM fun cells => do
      return .list (← (← access (Json.iterate cells)).mapM (displayValue settings renderer))
    access (Json.assign block (Json.text "display_rows") (.list rows))
  else if isStr kind (Json.text "attachment_refs") then
    let photos ← (← access (Json.iterate (← subscript block "attachment_ids"))).mapM fun i => access (Json.lookupKey photoById i)
    access (Json.assign block (Json.text "photos") (.list photos))
  else return block

structure Page where
  header : Value
  sections : List Value
  photos : List Value
  pdfUrl : Text

/-- `detail`, for the identity the route of the report was matched with. -/
def detail (settings : Settings) (renderer : Renderer) (document : Value) (reportId : Uuid) : Except Raised Page := do
  let sections ← access (Json.iterate (← subscript document "sections"))
  let photos ← (← access (Json.iterate (← subscript document "attachments"))).mapM (detailPhoto settings renderer reportId)
  let photoById ← photos.mapM fun p => do return (← access (Json.hashed (← subscript p "id")), p)
  let sections ← sections.mapM fun value => do
    let blocks ← (← access (Json.iterate (← subscript value "blocks"))).mapM (detailBlock settings renderer photoById)
    access (Json.assign value (Json.text "blocks") (.list blocks))
  let header ← displayFields settings renderer (← subscript document "header")
  let pdfUrl ← reverse renderer [reportId] (Json.text "/reports/" ++ reportId ++ Json.text "/pdf/")
  return ⟨header, sections, photos, pdfUrl⟩

/-! ### Paragraphs are well formed -/

section

variable {renderer : Renderer} {style : Style} {s : Text}

theorem reads_flatMap {f : ℕ → Text} (h : ∀ c, Readable (f c)) (s : Text) : Readable (s.flatMap f) := by
  induction s with
  | nil => rfl
  | cons c s ih =>
    rw [Readable, List.flatMap_cons, List.foldlM_append, h]
    exact ih

theorem reads_lineBreak {c : ℕ} (hamp : c ≠ 38) (hlt : c ≠ 60) : Readable (lineBreaks [c]) := by
  have hsingle : lineBreaks [c] = if c = 10 then Json.text "<br/>" else if c = 9 then Json.text "    " else [c] := by
    simp [lineBreaks]
  rw [hsingle]
  split_ifs
  · decide
  · decide
  · simp [Readable, Reading.next, hamp, hlt]

/-- Escaped text is markup, whatever it says. -/
theorem reads_escaped (s : Text) : Readable (lineBreaks (escape s)) := by
  rw [lineBreaks, escape, List.flatMap_assoc]
  refine reads_flatMap (fun c => ?_) s
  change Readable (lineBreaks _)
  split_ifs with hamp hlt hgt
  · decide
  · decide
  · decide
  · exact reads_lineBreak hamp hlt

theorem paragraph_returns : Returns (paragraph renderer style s) fun _ => True :=
  ⟨⟨style, lineBreaks (escape (printable renderer s))⟩, if_pos (renderer.parses_of_readable (reads_escaped _)), trivial⟩

theorem line_returns : Returns (line renderer style s) fun _ => True :=
  paragraph_returns.bind fun _ _ => returns_pure trivial

end

/-! ### Reading a described document -/

section

variable {settings : Settings} {renderer : Renderer} {v : Value} {ids : List Uuid}

theorem returns_access {α : Type} {x : Except AccessError α} {P : α → Prop} (h : Returns x P) : Returns (access x) P := by
  obtain ⟨a, rfl, ha⟩ := h
  exact ⟨a, rfl, ha⟩

/-- The member of a record at a place of its schema. -/
theorem reads {required optional : List (String × Schema)} {name : String} {S : Schema} (i : ℕ)
    (h : record required optional v) (hi : required[i]? = some (name, S)) : Returns (subscript v name) S :=
  returns_access (Json.subscript_record h (List.mem_of_getElem? hi))

theorem gets {required optional : List (String × Schema)} {name : String} {S : Schema} (i : ℕ)
    (h : record required optional v) (hi : required[i]? = some (name, S)) : Returns (access (Json.get v (Json.text name))) S :=
  returns_access (Json.get_required h (List.mem_of_getElem? hi))

theorem elements {L : ℕ → Prop} {S : Schema} (h : Schema.list L S v) :
    Returns (access (Json.iterate v)) fun l => L l.length ∧ ∀ item ∈ l, S item := returns_access (Json.iterate_list h)

theorem formatted_str {T : Text → Prop} (h : Schema.str T v) : Returns (formatted settings renderer v) fun s => v = .str s ∧ T s := by
  obtain ⟨s, rfl, hs⟩ := h
  exact ⟨s, rfl, rfl, hs⟩

theorem formatted_returns {T : Text → Prop} (h : Schema.str T v) : Returns (formatted settings renderer v) fun _ => True :=
  (formatted_str h).imp fun _ _ => trivial

/-- Every typed value is written out: the integers are of sixteen digits at most. -/
theorem formatted_typed (hdigits : 16 ≤ settings.jsonLimits.digits) {kind : ValueKind} (h : kind.schema settings v) :
    Returns (formatted settings renderer v) fun _ => True := by
  cases kind with
  | integer =>
    obtain ⟨n, rfl, hn⟩ := h
    have hlength : (Json.text (Nat.repr n.natAbs)).length ≤ 16 := by
      rw [Json.text, List.length_map, String.length_toList]
      exact (Nat.length_repr_le_iff (by omega)).mpr (by omega)
    have hfits : (Json.text (Nat.repr n.natAbs)).length ≤ (writer settings renderer).limits.digits := hlength.trans hdigits
    obtain ⟨t, ht⟩ := Json.str_int hfits
    exact returns_access ⟨t, ht, trivial⟩
  | boolean =>
    obtain ⟨b, rfl⟩ := h
    exact ⟨_, rfl, trivial⟩
  | text => exact formatted_returns h
  | decimal => exact formatted_returns h
  | date => exact formatted_returns h
  | datetime => exact formatted_returns h

theorem typed_reads (h : typedSchema settings v) : ∃ (kind : ValueKind) (w : Value),
    subscript v "type" = .ok (.str (Json.text kind.name)) ∧ subscript v "value" = .ok w ∧ kind.schema settings w := by
  obtain ⟨kind, hrecord⟩ := h
  obtain ⟨type, htype, s, rfl, rfl⟩ := reads 0 hrecord rfl
  obtain ⟨w, hw, hkind⟩ := reads 1 hrecord rfl
  exact ⟨kind, w, htype, hw, hkind⟩

theorem display_returns (hdigits : 16 ≤ settings.jsonLimits.digits) (h : typedSchema settings v) :
    Returns (display settings renderer v) fun _ => True := by
  obtain ⟨kind, w, htype, hw, hkind⟩ := typed_reads h
  simp only [display, htype, hw, ok_bind]
  by_cases hboolean : isStr (.str (Json.text kind.name)) (Json.text "boolean") = true
  · rw [if_pos hboolean]
    exact returns_pure trivial
  · rw [if_neg hboolean]
    exact formatted_typed hdigits hkind

theorem displayValue_returns (hdigits : 16 ≤ settings.jsonLimits.digits) (h : typedSchema settings v) :
    Returns (displayValue settings renderer v) fun _ => True := by
  obtain ⟨kind, w, htype, hw, hkind⟩ := typed_reads h
  simp only [displayValue, htype, hw, ok_bind]
  by_cases hboolean : isStr (.str (Json.text kind.name)) (Json.text "boolean") = true
  · rw [if_pos hboolean]
    exact returns_pure trivial
  · rw [if_neg hboolean]
    exact (formatted_typed hdigits hkind).bind fun _ _ => returns_pure trivial

/-! ### Attachments by their identifiers -/

/-- The entries of a dictionary over items with known identifiers. -/
theorem keyed_returns {α β : Type} {item : α → Value} {entry : α → β} {l : List α}
    (h : List.Forall₂ (fun id a => subscript (item a) "id" = .ok (.str id)) ids l) :
    Returns (l.mapM fun a => do return (← access (Json.hashed (← subscript (item a) "id")), entry a))
      fun entries => entries.map Prod.fst = ids.map Key.text := by
  induction h with
  | nil => exact ⟨[], rfl, rfl⟩
  | cons hid _ ih =>
    rw [List.mapM_cons, hid]
    refine ih.bind fun entries hentries => returns_pure ?_
    rw [List.map_cons, List.map_cons, hentries]

theorem keyOf_returns {β : Type} {entries : List (Key × β)} {T : Text → Prop} (h : Schema.str T v)
    (hmem : ∀ s, T s → Key.text s ∈ entries.map Prod.fst) : Returns (access (Json.lookupKey entries v)) fun b => ∃ e ∈ entries, e.2 = b := by
  obtain ⟨s, rfl, hs⟩ := h
  obtain ⟨e, he, -, hlookup⟩ := Json.lookupKey_ok (.str s) rfl (hmem s hs)
  exact returns_access ⟨e.2, hlookup, e, he, rfl⟩

/-- Numbered items have the identifiers of the items. -/
theorem forall₂_zipIdx {α β : Type} {R : β → α → Prop} {l : List α} {l' : List β} (h : List.Forall₂ R l' l) :
    List.Forall₂ (fun b a => R b a.1) l' l.zipIdx := by
  rw [← List.forall₂_map_right_iff, List.zipIdx_map_fst]
  exact h

/-! ### The PDF of a described document -/

theorem renderFields_returns (hdigits : 16 ≤ settings.jsonLimits.digits) (h : fieldsSchema settings v) :
    Returns (renderFields settings renderer v) fun _ => True := by
  refine (elements h).bind fun l hl => ?_
  refine (returns_mapM (Q := fun _ => True) fun item hitem => ?_).imp fun _ _ => trivial
  have hfield := hl.2 item hitem
  refine (reads 1 hfield rfl).bind fun label hlabel => ?_
  refine (formatted_returns hlabel).bind fun _ _ => ?_
  refine (reads 2 hfield rfl).bind fun value hvalue => ?_
  exact (display_returns hdigits hvalue).bind fun _ _ => line_returns

theorem shortHeadings_returns {columns : List Value} (h : ∀ c ∈ columns, columnSchema settings c) :
    Returns (shortHeadings settings renderer columns) fun headings => headings.2.length = columns.length := by
  have hlegend : Returns (columns.zipIdx.mapM fun c => do
      let label ← formatted settings renderer (← subscript c.1 "label")
      line renderer .body (Json.text "Column " ++ decimal (c.2 + 1) ++ Json.text ": " ++ label)) fun _ => True := by
    refine (returns_mapM (Q := fun _ => True) fun c hc => ?_).imp fun _ _ => trivial
    have hcolumn : columnSchema settings c.1 := h c.1 (List.fst_mem_of_mem_zipIdx hc)
    refine (reads 1 hcolumn rfl).bind fun label hlabel => ?_
    exact (formatted_returns hlabel).bind fun _ _ => line_returns
  refine hlegend.bind fun legend _ => ?_
  refine (returns_mapM (Q := fun _ => True) fun i _ => paragraph_returns).bind fun headings hheadings => ?_
  refine returns_pure ?_
  rw [hheadings.1, List.length_range]

theorem tableHeadings_returns {columns : List Value} (h : ∀ c ∈ columns, columnSchema settings c) :
    Returns (tableHeadings settings renderer columns) fun headings => headings.2.length = columns.length := by
  have hheaders : Returns (columns.mapM fun c => do
      paragraph renderer .body (← formatted settings renderer (← subscript c "label")))
      fun headers => headers.length = columns.length := by
    refine (returns_mapM (Q := fun _ => True) fun c hc => ?_).imp fun _ h => h.1
    refine (reads 1 (h c hc) rfl).bind fun label hlabel => ?_
    exact (formatted_returns hlabel).bind fun _ _ => paragraph_returns
  refine hheaders.bind fun headers hlength => ?_
  split_ifs
  · exact shortHeadings_returns h
  · exact returns_pure hlength

theorem renderTable_returns (hdigits : 16 ≤ settings.jsonLimits.digits) (h : tableSchema settings v) :
    Returns (renderTable settings renderer v) fun _ => True := by
  obtain ⟨n, hpos, -, htable⟩ := h
  refine (reads 2 htable rfl).bind fun columnsValue hcolumnsValue => ?_
  refine (elements hcolumnsValue).bind fun columns hcolumns => ?_
  have hnonzero : divided columns.length = .ok () := if_neg (by omega)
  rw [hnonzero, ok_bind]
  refine (tableHeadings_returns hcolumns.2).bind fun headings hheadings => ?_
  refine (reads 3 htable rfl).bind fun rowsValue hrowsValue => ?_
  refine (elements hrowsValue).bind fun rows hrows => ?_
  have hdata : Returns (rows.mapM fun row => do
      (← access (Json.iterate row)).mapM fun c => do paragraph renderer .body (← display settings renderer c))
      fun data => ∀ row ∈ data, row.length = columns.length := by
    refine (returns_mapM (Q := fun row => row.length = columns.length) fun row hrow => ?_).imp fun _ h => h.2
    refine (elements (hrows.2 row hrow)).bind fun cells hcells => ?_
    refine (returns_mapM (Q := fun _ => True) fun c hc => ?_).imp fun _ h => h.1.trans (hcells.1.trans hcolumns.1.symm)
    exact (display_returns hdigits (hcells.2 c hc)).bind fun _ _ => paragraph_returns
  refine hdata.bind fun data hdata => ?_
  have hrectangular : ∀ n ∈ (headings.2 :: data).map List.length, n = columns.length := by
    rw [List.forall_mem_map, List.forall_mem_cons]
    exact ⟨hheadings, hdata⟩
  have hbuilds : renderer.builds columns.length ((headings.2 :: data).map List.length) = true :=
    renderer.builds_of_rectangular (by omega) (List.cons_ne_nil _ _) hrectangular
  rw [longTable, if_pos hbuilds]
  exact returns_pure trivial

variable {numbers : List (Key × ℕ)} {hashes : List (Uuid × Text)}

theorem renderReferences_returns (hnumbers : ∀ id ∈ ids, Key.text id ∈ numbers.map Prod.fst)
    (h : blockRecord "attachment_refs" [("attachment_ids", .list (· ≤ 32) (referenceSchema ids))] v) :
    Returns (renderReferences renderer numbers v) fun _ => True := by
  refine (reads 2 h rfl).bind fun w hw => ?_
  refine (elements hw).bind fun l hl => ?_
  have hreferences : Returns (l.mapM fun i => do return decimal (← access (Json.lookupKey numbers i))) fun _ => True := by
    refine (returns_mapM (Q := fun _ => True) fun i hi => ?_).imp fun _ _ => trivial
    exact (keyOf_returns (hl.2 i hi) hnumbers).bind fun _ _ => returns_pure trivial
  exact hreferences.bind fun _ _ => line_returns.bind fun _ _ => returns_pure trivial

/-- Every kind of block is one the renderer knows. -/
theorem renderBlock_returns (hdigits : 16 ≤ settings.jsonLimits.digits)
    (hnumbers : ∀ id ∈ ids, Key.text id ∈ numbers.map Prod.fst) (h : blockSchema settings ids v) :
    Returns (renderBlock settings renderer numbers v) fun _ => True := by
  rcases h with htext | hfields | htable | hrefs
  · obtain ⟨kind, hkind, s, rfl, rfl⟩ := reads 1 htext rfl
    unfold renderBlock
    rw [hkind, ok_bind, if_pos (by decide)]
    refine (reads 2 htext rfl).bind fun w hw => ?_
    exact (formatted_returns hw).bind fun _ _ => line_returns.bind fun _ _ => returns_pure trivial
  · obtain ⟨kind, hkind, s, rfl, rfl⟩ := reads 1 hfields rfl
    unfold renderBlock
    rw [hkind, ok_bind, if_neg (by decide), if_pos (by decide)]
    exact (reads 2 hfields rfl).bind fun w hw => renderFields_returns hdigits hw
  · obtain ⟨n, hpos, hmax, hrecord⟩ := id htable
    obtain ⟨kind, hkind, s, rfl, rfl⟩ := reads 1 hrecord rfl
    unfold renderBlock
    rw [hkind, ok_bind, if_neg (by decide), if_neg (by decide), if_neg (by decide), if_pos (by decide)]
    exact renderTable_returns hdigits htable
  · obtain ⟨kind, hkind, s, rfl, rfl⟩ := reads 1 hrefs rfl
    unfold renderBlock
    rw [hkind, ok_bind, if_neg (by decide), if_neg (by decide), if_pos (by decide)]
    exact renderReferences_returns hnumbers hrefs

theorem renderSection_returns (hdigits : 16 ≤ settings.jsonLimits.digits)
    (hnumbers : ∀ id ∈ ids, Key.text id ∈ numbers.map Prod.fst) (h : sectionSchema settings ids v) :
    Returns (renderSection settings renderer numbers v) fun _ => True := by
  refine (reads 1 h rfl).bind fun title htitle => ?_
  refine (formatted_returns htitle).bind fun _ _ => line_returns.bind fun _ _ => ?_
  refine (reads 2 h rfl).bind fun w hw => ?_
  refine (elements hw).bind fun blocks hblocks => ?_
  refine (returns_mapM (Q := fun _ => True) fun block hblock => ?_).bind fun _ _ => returns_pure trivial
  exact renderBlock_returns hdigits hnumbers (hblocks.2 block hblock)

theorem renderAttachment_returns (hnumbers : ∀ id ∈ ids, Key.text id ∈ numbers.map Prod.fst)
    (hhashes : ∀ id ∈ ids, id ∈ hashes.map Prod.fst) {id : Uuid} (hid : id ∈ ids) (h : attachmentSchema settings id v) :
    Returns (renderAttachment settings renderer numbers hashes v) fun _ => True := by
  refine (reads 0 h rfl).bind fun identity hidentity => ?_
  have hnumber : ∀ s, s = id → Key.text s ∈ numbers.map Prod.fst := by
    rintro s rfl
    exact hnumbers s hid
  have hhash : ∀ s, s = id → Key.text s ∈ (hashes.map fun a => (Key.text a.1, a.2)).map Prod.fst := by
    rintro s rfl
    obtain ⟨a, ha, rfl⟩ := List.mem_map.mp (hhashes s hid)
    rw [List.map_map]
    exact List.mem_map.mpr ⟨a, ha, rfl⟩
  refine (keyOf_returns hidentity hnumber).bind fun number _ => ?_
  refine (reads 1 h rfl).bind fun title htitle => ?_
  refine (formatted_returns htitle).bind fun title _ => ?_
  refine (reads 2 h rfl).bind fun caption hcaption => ?_
  refine (formatted_returns hcaption).bind fun caption _ => ?_
  refine (keyOf_returns hidentity hhash).bind fun hash _ => ?_
  refine (formatted_returns hidentity).bind fun shown _ => ?_
  exact line_returns.bind fun _ _ => line_returns.bind fun _ _ => line_returns.bind fun _ _ => returns_pure trivial

theorem renderSignature_returns (hnumbers : ∀ id ∈ ids, Key.text id ∈ numbers.map Prod.fst) (h : finalizationSchema settings ids v) :
    Returns (renderSignature renderer numbers v) fun _ => True := by
  refine (returns_access (Json.get_record h List.mem_cons_self)).bind fun signature hsignature => ?_
  rcases hsignature with rfl | hreference
  · exact returns_pure trivial
  · split_ifs
    · refine (keyOf_returns hreference hnumbers).bind fun number _ => ?_
      exact line_returns.bind fun _ _ => returns_pure trivial
    · exact returns_pure trivial

theorem renderEmpty_returns : Returns (renderEmpty renderer numbers) fun _ => True := by
  unfold renderEmpty
  split_ifs
  · exact line_returns.bind fun _ _ => returns_pure trivial
  · exact returns_pure trivial

variable {document reportId : Value} {id : Uuid}

/-- A document as `validate_document` accepts it: its schema, and what the lookups by identifier rely on. -/
structure Accepted (settings : Settings) (document reportId : Value) (hashes : List (Uuid × Text)) (ids : List Uuid) (id : Uuid) : Prop where
  schema : documentSchema settings ids id document
  canonical : ∀ i ∈ ids, isCanonicalUuid i = true
  hashed : ids.Perm (hashes.map Prod.fst)
  named : reportId = .str id
  identifier : isCanonicalUuid id = true

/-- What validation accepts. -/
theorem accepted (hdistinct : document.Distinct) (hdepth : 8 ≤ settings.jsonLimits.depth)
    (hdigits : 16 ≤ settings.jsonLimits.digits) {u : Unit} (h : validateDocument settings document reportId hashes = .ok u) :
    ∃ ids id, Accepted settings document reportId hashes ids id := by
  rw [validateDocument_eq hdistinct hdepth hdigits] at h
  cases hvalid : ReportTransfer.validateDocument settings document (some reportId) hashes with
  | error e =>
    rw [hvalid] at h
    cases h
  | ok id =>
    obtain ⟨ids, hschema, -, huuids, hperm, -, hname, huuid⟩ := validateDocument_ok hvalid
    exact ⟨ids, id, hschema, huuids, hperm, Option.some.inj hname, huuid⟩

/-- The hashed value nests the document one level deeper. -/
theorem written_digestValue (hdistinct : document.Distinct) (hdepth : 9 ≤ settings.jsonLimits.depth)
    (hdigits : 16 ≤ settings.jsonLimits.digits) (h : Accepted settings document reportId hashes ids id) :
    access (Json.written settings.jsonLimits (digestValue document hashes)) = .ok () := by
  obtain ⟨d, hd⟩ : ∃ d, settings.jsonLimits.depth = d + 3 := ⟨settings.jsonLimits.depth - 3, by omega⟩
  have htame := (tame_document (admits_all settings) hdigits h.canonical h.identifier).mono (by omega : 8 ≤ d + 2)
  have hdocument := (htame document hdistinct h.schema).2
  have htext : ∀ n s, Json.writeError settings.jsonLimits n (.str s) = none := fun n s => by cases n <;> rfl
  have hentry : ∀ a, Json.writeError settings.jsonLimits (d + 1) (digestEntry a) = none := by
    intro a
    rw [digestEntry, Json.writeError, List.findSome?_eq_none_iff, List.forall_mem_cons, List.forall_mem_singleton]
    exact ⟨htext _ _, htext _ _⟩
  have hvalue : Json.writeError settings.jsonLimits (d + 3) (digestValue document hashes) = none := by
    rw [digestValue, Json.writeError, List.findSome?_eq_none_iff]
    simp only [List.forall_mem_cons, List.not_mem_nil, false_implies, implies_true, and_true]
    refine ⟨htext _ _, hdocument, ?_⟩
    rw [Json.writeError, List.findSome?_eq_none_iff]
    intro v hv
    obtain ⟨a, -, rfl⟩ := List.mem_map.mp hv
    exact hentry a
  simp only [Json.written, hd, hvalue]
  rfl

theorem documentDigest_returns (hdistinct : document.Distinct) (hdepth : 9 ≤ settings.jsonLimits.depth)
    (hdigits : 16 ≤ settings.jsonLimits.digits) (hvalid : validateDocument settings document reportId hashes = .ok ())
    (h : Accepted settings document reportId hashes ids id) : Returns (documentDigest settings document hashes) fun _ => True := by
  have hdict : check (asDict document) = .ok () := by
    have hschema := h.schema
    obtain ⟨fields, hfields, -⟩ := hschema
    rw [hfields]
    rfl
  unfold documentDigest
  rw [hdict, ok_bind]
  refine (gets 0 h.schema rfl).bind fun w hw => ?_
  obtain ⟨s, rfl, rfl⟩ := hw
  rw [← h.named, hvalid, ok_bind]
  dsimp only
  rw [written_digestValue hdistinct hdepth hdigits h, ok_bind]
  exact returns_pure trivial

theorem renderMetadata_returns (h : documentSchema settings ids id document) {digest received exported : Text} :
    Returns (renderMetadata settings renderer document digest received exported) fun _ => True := by
  refine (reads 7 h rfl).bind fun final hfinal => ?_
  refine (reads 0 hfinal rfl).bind fun author hauthor => ?_
  refine (reads 0 h rfl).bind fun named hnamed => ?_
  refine (formatted_returns hnamed).bind fun _ _ => ?_
  refine (reads 2 h rfl).bind fun type htype => ?_
  refine (formatted_returns htype).bind fun _ _ => ?_
  refine (reads 1 hauthor rfl).bind fun name hname => ?_
  refine (formatted_returns hname).bind fun _ _ => ?_
  refine (reads 0 hauthor rfl).bind fun authorId hauthorId => ?_
  refine (formatted_returns hauthorId).bind fun _ _ => ?_
  refine (reads 7 h rfl).bind fun final hfinal => ?_
  refine (reads 1 hfinal rfl).bind fun moment hmoment => ?_
  refine (formatted_returns hmoment).bind fun _ _ => ?_
  exact (returns_mapM (Q := fun _ => True) fun _ _ => line_returns).imp fun _ _ => trivial

/-- The attachments of a document, in the order of their identifiers. -/
theorem attachments_elements (h : attachmentsSchema settings ids v) :
    Returns (access (Json.iterate v)) fun l => List.Forall₂ (attachmentSchema settings) ids l := by
  obtain ⟨l, rfl, hl⟩ := h
  exact ⟨l, rfl, hl⟩

theorem attachment_id {i : Uuid} (h : attachmentSchema settings i v) : subscript v "id" = .ok (.str i) := by
  obtain ⟨w, hw, s, rfl, rfl⟩ := reads 0 h rfl
  exact hw

theorem renderPdf_returns (hdistinct : document.Distinct) (hdepth : 9 ≤ settings.jsonLimits.depth)
    (hdigits : 16 ≤ settings.jsonLimits.digits) (hvalid : validateDocument settings document reportId hashes = .ok ())
    (h : Accepted settings document reportId hashes ids id) {received exported : Text} :
    Returns (renderPdf settings renderer document hashes received exported) fun _ => True := by
  refine (documentDigest_returns hdistinct hdepth hdigits hvalid h).bind fun digest _ => ?_
  refine (reads 3 h.schema rfl).bind fun title htitle => ?_
  refine (formatted_returns htitle).bind fun _ _ => line_returns.bind fun _ _ => ?_
  refine (renderMetadata_returns h.schema).bind fun metadata _ => ?_
  refine (reads 4 h.schema rfl).bind fun header hheader => ?_
  refine (renderFields_returns hdigits hheader).bind fun _ _ => ?_
  refine (reads 6 h.schema rfl).bind fun attachments hattachments => ?_
  refine (attachments_elements hattachments).bind fun l hl => ?_
  have hids : List.Forall₂ (fun i (a : Value × ℕ) => subscript a.1 "id" = .ok (.str i)) ids l.zipIdx :=
    forall₂_zipIdx (hl.imp fun _ _ => attachment_id)
  refine (keyed_returns hids).bind fun numbers hnumbers => ?_
  have hnumbers : ∀ i ∈ ids, Key.text i ∈ numbers.map Prod.fst := by
    intro i hi
    rw [hnumbers]
    exact List.mem_map_of_mem hi
  have hhashes : ∀ i ∈ ids, i ∈ hashes.map Prod.fst := fun i hi => h.hashed.mem_iff.mp hi
  refine (reads 5 h.schema rfl).bind fun sections hsections => ?_
  refine (elements hsections).bind fun s hs => ?_
  refine (returns_mapM (Q := fun _ => True) fun value hvalue =>
    renderSection_returns hdigits hnumbers (hs.2 value hvalue)).bind fun _ _ => line_returns.bind fun _ _ => ?_
  refine renderEmpty_returns.bind fun _ _ => ?_
  have hdescribed : Returns (l.mapM (renderAttachment settings renderer numbers hashes)) fun _ => True := by
    refine (returns_mapM (Q := fun _ => True) fun value hvalue => ?_).imp fun _ _ => trivial
    obtain ⟨i, hi, hattachment⟩ := exists_left_of_forall₂ hl hvalue
    exact renderAttachment_returns hnumbers hhashes hi hattachment
  refine hdescribed.bind fun _ _ => ?_
  refine (reads 7 h.schema rfl).bind fun final hfinal => ?_
  refine (renderSignature_returns hnumbers hfinal).bind fun _ _ => ?_
  refine (reads 0 h.schema rfl).bind fun named hnamed => ?_
  exact (formatted_returns hnamed).bind fun _ _ => returns_pure trivial

/-! ### The page of a described document -/

theorem assigned {required optional : List (String × Schema)} (h : record required optional v) (name : Text) (item : Value) :
    Returns (access (Json.assign v name item)) fun _ => True := by
  obtain ⟨fields, rfl, -⟩ := h
  exact returns_access ((Json.assign_dict fields name item).imp fun _ _ => trivial)

theorem displayFields_returns (hdigits : 16 ≤ settings.jsonLimits.digits) (h : fieldsSchema settings v) :
    Returns (displayFields settings renderer v) fun _ => True := by
  refine (elements h).bind fun l hl => ?_
  refine (returns_mapM (Q := fun _ => True) fun item hitem => ?_).bind fun _ _ => returns_pure trivial
  refine (reads 1 (hl.2 item hitem) rfl).bind fun label _ => ?_
  refine (reads 2 (hl.2 item hitem) rfl).bind fun value hvalue => ?_
  exact (displayValue_returns hdigits hvalue).bind fun _ _ => returns_pure trivial

theorem reverse_ok {arguments : List Text} {route : Text} (h : ∀ a ∈ arguments, isCanonicalUuid a = true) :
    reverse renderer arguments route = .ok route := if_pos (renderer.routes_of_canonical h)

/-- A photo keeps its identifier, which the routes to it take. -/
theorem detailPhoto_returns {route i : Uuid} (hroute : isCanonicalUuid route = true) (hi : isCanonicalUuid i = true)
    (h : attachmentSchema settings i v) :
    Returns (detailPhoto settings renderer route v) fun p => subscript p "id" = .ok (.str i) := by
  have hid := attachment_id h
  have harguments : ∀ a ∈ [route, i], isCanonicalUuid a = true := by
    rw [List.forall_mem_cons, List.forall_mem_singleton]
    exact ⟨hroute, hi⟩
  obtain ⟨fields, rfl, -⟩ := h
  have hmapping : access (Json.mapping (.dict fields)) = .ok (.dict fields) := rfl
  have hformatted : formatted settings renderer (.str i) = .ok i := rfl
  unfold detailPhoto
  rw [hmapping, ok_bind, hid, ok_bind, hformatted, ok_bind]
  dsimp only
  rw [reverse_ok harguments, ok_bind]
  refine (returns_access (Json.assign_dict fields _ _)).bind fun shown hshown => ?_
  obtain ⟨fields', rfl, hfields⟩ := hshown
  rw [reverse_ok harguments, ok_bind]
  refine (returns_access (Json.assign_dict fields' _ _)).imp fun p hp => ?_
  obtain ⟨fields'', rfl, hfields'⟩ := hp
  have hsame : Json.field fields'' (Json.text "id") = Json.field fields (Json.text "id") :=
    (hfields' _ (by decide)).trans (hfields _ (by decide))
  unfold subscript Json.subscript at hid ⊢
  dsimp only at hid ⊢
  rw [hsame]
  exact hid

theorem detailBlock_returns {photoById : List (Key × Value)} (hdigits : 16 ≤ settings.jsonLimits.digits)
    (hphotos : ∀ i ∈ ids, Key.text i ∈ photoById.map Prod.fst) (h : blockSchema settings ids v) :
    Returns (detailBlock settings renderer photoById v) fun _ => True := by
  rcases h with htext | hfields | htable | hrefs
  · obtain ⟨kind, hkind, s, rfl, rfl⟩ := reads 1 htext rfl
    unfold detailBlock
    rw [hkind, ok_bind, if_neg (by decide), if_neg (by decide), if_neg (by decide)]
    exact returns_pure trivial
  · obtain ⟨kind, hkind, s, rfl, rfl⟩ := reads 1 hfields rfl
    unfold detailBlock
    rw [hkind, ok_bind, if_pos (by decide)]
    refine (reads 2 hfields rfl).bind fun w hw => ?_
    exact (displayFields_returns hdigits hw).bind fun _ _ => assigned hfields _ _
  · obtain ⟨n, -, -, hrecord⟩ := htable
    obtain ⟨kind, hkind, s, rfl, rfl⟩ := reads 1 hrecord rfl
    unfold detailBlock
    rw [hkind, ok_bind, if_neg (by decide), if_pos (by decide)]
    refine (reads 3 hrecord rfl).bind fun w hw => ?_
    refine (elements hw).bind fun rows hrows => ?_
    refine (returns_mapM (Q := fun _ => True) fun row hrow => ?_).bind fun _ _ => assigned hrecord _ _
    refine (elements (hrows.2 row hrow)).bind fun cells hcells => ?_
    refine (returns_mapM (Q := fun _ => True) fun c hc => ?_).bind fun _ _ => returns_pure trivial
    exact displayValue_returns hdigits (hcells.2 c hc)
  · obtain ⟨kind, hkind, s, rfl, rfl⟩ := reads 1 hrefs rfl
    unfold detailBlock
    rw [hkind, ok_bind, if_neg (by decide), if_neg (by decide), if_pos (by decide)]
    refine (reads 2 hrefs rfl).bind fun w hw => ?_
    refine (elements hw).bind fun l hl => ?_
    refine (returns_mapM (Q := fun _ => True) fun i hi => ?_).bind fun _ _ => assigned hrefs _ _
    exact (keyOf_returns (hl.2 i hi) hphotos).imp fun _ _ => trivial

theorem detail_returns {route : Uuid} (hroute : isCanonicalUuid route = true) (hdigits : 16 ≤ settings.jsonLimits.digits)
    (h : Accepted settings document reportId hashes ids id) : Returns (detail settings renderer document route) fun _ => True := by
  refine (reads 5 h.schema rfl).bind fun sections hsections => ?_
  refine (elements hsections).bind fun s hs => ?_
  refine (reads 6 h.schema rfl).bind fun attachments hattachments => ?_
  refine (attachments_elements hattachments).bind fun l hl => ?_
  have hknown : List.Forall₂ (fun i item => i ∈ ids ∧ attachmentSchema settings i item) ids l :=
    List.forall₂_iff_zip.mpr ⟨hl.length_eq, fun hmem => ⟨(List.of_mem_zip hmem).1, (List.forall₂_iff_zip.mp hl).2 hmem⟩⟩
  refine (returns_mapM_forall₂ hknown fun i item hitem =>
    detailPhoto_returns hroute (h.canonical i hitem.1) hitem.2).bind fun photos hphotos => ?_
  refine (keyed_returns hphotos).bind fun photoById hphotoById => ?_
  have hphotoById : ∀ i ∈ ids, Key.text i ∈ photoById.map Prod.fst := by
    intro i hi
    rw [hphotoById]
    exact List.mem_map_of_mem hi
  have hshown : Returns (s.mapM fun value => do
      let blocks ← (← access (Json.iterate (← subscript value "blocks"))).mapM (detailBlock settings renderer photoById)
      access (Json.assign value (Json.text "blocks") (.list blocks))) fun _ => True := by
    refine (returns_mapM (Q := fun _ => True) fun value hvalue => ?_).imp fun _ _ => trivial
    have hsection := hs.2 value hvalue
    refine (reads 2 hsection rfl).bind fun w hw => ?_
    refine (elements hw).bind fun blocks hblocks => ?_
    refine (returns_mapM (Q := fun _ => True) fun block hblock => ?_).bind fun _ _ => assigned hsection _ _
    exact detailBlock_returns hdigits hphotoById (hblocks.2 block hblock)
  refine hshown.bind fun _ _ => ?_
  refine (reads 4 h.schema rfl).bind fun header hheader => ?_
  refine (displayFields_returns hdigits hheader).bind fun _ _ => ?_
  rw [reverse_ok (List.forall_mem_singleton.mpr hroute), ok_bind]
  exact returns_pure trivial

end

/-- Validation raises nothing but the error of the report contract, and a document it returns for is
rendered as PDF and as page: no lookup, conversion or division of the renderers fails. -/
theorem validated_document_renders {settings : Settings} (renderer : Renderer) {document : Value} (hdistinct : document.Distinct)
    (hdepth : 9 ≤ settings.jsonLimits.depth) (hdigits : 16 ≤ settings.jsonLimits.digits) (reportId : Value) (hashes : List (Uuid × Text)) :
    (∀ e, validateDocument settings document reportId hashes = .error e → ∃ code status, e = .report (.transfer code status)) ∧
    (validateDocument settings document reportId hashes = .ok () →
      (∀ received exported, ∃ pdf, renderPdf settings renderer document hashes received exported = .ok pdf) ∧
      ∀ route, isCanonicalUuid route = true → ∃ page, detail settings renderer document route = .ok page) := by
  constructor
  · intro e h
    rw [validateDocument_eq hdistinct (by omega) hdigits] at h
    cases hvalid : ReportTransfer.validateDocument settings document (some reportId) hashes with
    | error e' =>
      rw [hvalid] at h
      cases h
      cases refuses_validateDocument e' hvalid
      exact ⟨_, _, rfl⟩
    | ok id =>
      rw [hvalid] at h
      cases h
  · intro hvalid
    obtain ⟨ids, id, haccepted⟩ := accepted hdistinct (by omega) hdigits hvalid
    constructor
    · intro received exported
      obtain ⟨pdf, hpdf, -⟩ := renderPdf_returns hdistinct hdepth hdigits hvalid haccepted
      exact ⟨pdf, hpdf⟩
    · intro route hroute
      obtain ⟨page, hpage, -⟩ := detail_returns hroute hdigits haccepted
      exact ⟨page, hpage⟩

/-- A font of the printable ASCII characters, whose headings fit four columns. -/
def sampleRenderer : Renderer where
  supported c := 32 ≤ c ∧ c < 127
  tall columns markup := 4 < columns ∧ 100 < markup.length
  containerText _ := .error .valueError
  parses markup := Readable markup
  builds columns lengths := 0 < columns ∧ lengths ≠ [] ∧ ∀ n ∈ lengths, n = columns
  routes arguments := ∀ a ∈ arguments, isCanonicalUuid a = true
  parses_of_readable := decide_eq_true
  builds_of_rectangular hcolumns hlengths h := decide_eq_true ⟨hcolumns, hlengths, h⟩
  routes_of_canonical := decide_eq_true

theorem sampleDocument_renders : ∃ pdf page,
    renderPdf digestSettings sampleRenderer (sampleDocument false) (attachmentHashes digestSettings [(uuidText 7, [1]), (uuidText 8, [2])])
      (Json.text "2026-10-28T15:00:00+00:00") (Json.text "2026-10-28T16:00:00+00:00") = .ok pdf ∧
    detail digestSettings sampleRenderer (sampleDocument false) (uuidText 6) = .ok page := by
  have hvalid : (validateDocument digestSettings (sampleDocument false) (.str (uuidText 6))
      (attachmentHashes digestSettings [(uuidText 7, [1]), (uuidText 8, [2])])).toOption = some () := by decide +kernel
  cases h : validateDocument digestSettings (sampleDocument false) (.str (uuidText 6))
      (attachmentHashes digestSettings [(uuidText 7, [1]), (uuidText 8, [2])]) with
  | error e =>
    rw [h] at hvalid
    cases hvalid
  | ok u =>
    have hdepth : 9 ≤ digestSettings.jsonLimits.depth := by decide
    have hdigits : 16 ≤ digestSettings.jsonLimits.digits := by decide
    have hrenders := validated_document_renders sampleRenderer (sampleDocument_distinct false) hdepth hdigits
      (.str (uuidText 6)) (attachmentHashes digestSettings [(uuidText 7, [1]), (uuidText 8, [2])])
    obtain ⟨hpdf, hpage⟩ := hrenders.2 h
    obtain ⟨pdf, hpdf⟩ := hpdf (Json.text "2026-10-28T15:00:00+00:00") (Json.text "2026-10-28T16:00:00+00:00")
    obtain ⟨page, hpage⟩ := hpage (uuidText 6) (by decide +kernel)
    exact ⟨pdf, page, hpdf, hpage⟩

end FireDash.ReportTransfer.Raising
