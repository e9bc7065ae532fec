import FireDash.ReportTransfer.Contract

/-! ReportDocument v1: the presentation structure of a report, validated without changing it. -/
namespace FireDash.ReportTransfer

open Json (Text Value)
open Publications (Bytes)

/-! ### Shapes -/

/-- `shape`: the keys are all the required ones, and beyond them optional ones only. -/
def shape (required optional : List String) (value : Value) : Except Error Fields := do
  let fields ← asDict value
  let keys := fields.map Prod.fst
  require ((∀ name ∈ required.map Json.text, name ∈ keys) ∧
    ∀ key ∈ keys, key ∈ required.map Json.text ∨ key ∈ optional.map Json.text)
  return fields

def member (fields : Fields) (name : String) : Except Error Value :=
  match lookup fields (Json.text name) with
  | some v => .ok v
  | none => .error invalidPackage

/-- `text`: plain text, without markup and control characters. -/
def plainText (settings : Settings) (minimum maximum : ℕ) (value : Value) : Except Error Text := do
  let s ← asText (some value)
  require (minimum ≤ s.length ∧ s.length ≤ maximum)
  require (60 ∉ s ∧ 62 ∉ s)
  require (s.all fun c => c = 10 ∨ c = 9 ∨ ¬settings.isControl c)
  return s

/-- `key`. -/
def keyText (value : Value) : Except Error Text := do
  let s ← asText (some value)
  require (isName s)
  return s

/-- `sequence`. -/
def items (minimum maximum : ℕ) : Value → Except Error (List Value)
  | .list l => do
    require (minimum ≤ l.length ∧ l.length ≤ maximum)
    return l
  | _ => .error invalidPackage

/-! ### Dates -/

def decimalDigits (t : Text) : Option ℕ := if t ≠ [] ∧ t.all Json.isDigit then some (Json.digitsValue t) else none

def daysInMonth (year month : ℕ) : ℕ :=
  if month = 2 then if year % 4 = 0 ∧ (year % 100 ≠ 0 ∨ year % 400 = 0) then 29 else 28
  else if month ∈ [4, 6, 9, 11] then 30 else 31

/-- A calendar date `YYYY-MM-DD`. -/
def isIsoDate (t : Text) : Bool :=
  match decimalDigits (t.take 4), decimalDigits ((t.drop 5).take 2), decimalDigits (t.drop 8) with
  | some year, some month, some day => t.length = 10 ∧ t[4]? = some 45 ∧ t[7]? = some 45 ∧ 1 ≤ year ∧
      1 ≤ month ∧ month ≤ 12 ∧ 1 ≤ day ∧ day ≤ daysInMonth year month
  | _, _, _ => false

/-- A time `HH:MM:SS`. -/
def isIsoTime (t : Text) : Bool :=
  match decimalDigits (t.take 2), decimalDigits ((t.drop 3).take 2), decimalDigits (t.drop 6) with
  | some hour, some minute, some second => t.length = 8 ∧ t[2]? = some 58 ∧ t[5]? = some 58 ∧ hour < 24 ∧
      minute < 60 ∧ second < 60
  | _, _, _ => false

/-- `Z`, or an offset of less than a day. -/
def isOffset (t : Text) : Bool :=
  match decimalDigits ((t.drop 1).take 2), decimalDigits (t.drop 4) with
  | some hours, some minutes => t.length = 6 ∧ (t.head? = some 43 ∨ t.head? = some 45) ∧ t[3]? = some 58 ∧
      60 * hours + minutes < 1440
  | _, _ => t = [90]

/-- Up to six digits of a fraction of a second, and the text after them. -/
def dropFraction : Text → Option Text
  | 46 :: rest =>
    let digits := rest.takeWhile Json.isDigit
    if digits ≠ [] ∧ digits.length ≤ 6 then some (rest.dropWhile Json.isDigit) else none
  | t => some t

/-- `timestamp`: a moment with its offset. -/
def timestamp (settings : Settings) (value : Value) : Except Error Unit := do
  let s ← plainText settings 1 35 value
  require (isIsoDate (s.take 10) ∧ s[10]? = some 84 ∧ isIsoTime ((s.drop 11).take 8) ∧
    ∃ rest ∈ dropFraction (s.drop 19), isOffset rest)

/-! ### Values and fields -/

/-- `-?(0|[1-9][0-9]*)(\.[0-9]+)?`. -/
def isDecimal (t : Text) : Bool :=
  let unsigned := if t.head? = some 45 then t.drop 1 else t
  let (whole, rest) := Json.scanWhole unsigned
  whole ≠ [] ∧ (rest = [] ∨ (Json.scanFraction rest).1 ≠ [] ∧ (Json.scanFraction rest).2 = [])

def typedValue (settings : Settings) (item : Value) : Except Error Unit := do
  let fields ← shape ["type", "value"] [] item
  let kind ← asText (lookup fields (Json.text "type"))
  let value ← member fields "value"
  if kind = Json.text "text" then
    discard (plainText settings 0 4000 value)
  else if kind = Json.text "integer" then
    match value with
    | .int n => require (n.natAbs ≤ 9007199254740991)
    | _ => throw invalidPackage
  else if kind = Json.text "decimal" then
    match value with
    | .str s => require (s.length ≤ 32 ∧ isDecimal s)
    | _ => throw invalidPackage
  else if kind = Json.text "boolean" then
    match value with
    | .bool _ => return ()
    | _ => throw invalidPackage
  else if kind = Json.text "date" then
    require (isIsoDate (← plainText settings 1 10 value))
  else if kind = Json.text "datetime" then
    timestamp settings value
  else throw invalidPackage

/-- One labelled field; its key. -/
def labelledField (settings : Settings) (item : Value) : Except Error Text := do
  let fields ← shape ["key", "label", "value"] [] item
  let key ← keyText (← member fields "key")
  discard (plainText settings 1 200 (← member fields "label"))
  typedValue settings (← member fields "value")
  return key

def checkFields (settings : Settings) (value : Value) : Except Error Unit := do
  let keys ← (← items 0 100 value).mapM (labelledField settings)
  require keys.Nodup

/-! ### Sections -/

/-- What the document bounds as a whole: the keys used and the number of blocks and cells. -/
structure Tally where
  keys : List Text := []
  blocks : ℕ := 0
  cells : ℕ := 0
  deriving DecidableEq

def column (settings : Settings) (value : Value) : Except Error Text := do
  let fields ← shape ["key", "label"] [] value
  let key ← keyText (← member fields "key")
  discard (plainText settings 1 80 (← member fields "label"))
  return key

/-- A row of a table with so many columns. -/
def tableRow (settings : Settings) (columns : ℕ) (tally : Tally) (value : Value) : Except Error Tally := do
  let cells ← items columns columns value
  let tally := { tally with cells := tally.cells + cells.length }
  require (tally.cells ≤ 4000)
  cells.forM (typedValue settings)
  return tally

def attachmentReference (ids : List Uuid) (value : Value) : Except Error Uuid := do
  let id ← identifier (← asText (some value))
  require (id ∈ ids)
  return id

def block (settings : Settings) (ids : List Uuid) (tally : Tally) (value : Value) : Except Error Tally := do
  let fields ← asDict value
  let key ← keyText (← member fields "key")
  require (key ∉ tally.keys)
  let tally := { tally with keys := key :: tally.keys }
  let kind ← textField fields (Json.text "kind")
  if kind = Json.text "text" then
    let fields ← shape ["key", "kind", "text"] [] value
    discard (plainText settings 0 20000 (← member fields "text"))
    return tally
  else if kind = Json.text "fields" then
    let fields ← shape ["key", "kind", "fields"] [] value
    checkFields settings (← member fields "fields")
    return tally
  else if kind = Json.text "table" then
    let fields ← shape ["key", "kind", "columns", "rows"] [] value
    let columns ← (← items 1 8 (← member fields "columns")).mapM (column settings)
    require columns.Nodup
    (← items 0 500 (← member fields "rows")).foldlM (tableRow settings columns.length) tally
  else if kind = Json.text "attachment_refs" then
    let fields ← shape ["key", "kind", "attachment_ids"] [] value
    let references ← (← items 0 32 (← member fields "attachment_ids")).mapM (attachmentReference ids)
    require references.Nodup
    return tally
  else throw invalidPackage

def section' (settings : Settings) (ids : List Uuid) (tally : Tally) (value : Value) : Except Error Tally := do
  let fields ← shape ["key", "title", "blocks"] [] value
  let key ← keyText (← member fields "key")
  discard (plainText settings 1 200 (← member fields "title"))
  require (key ∉ tally.keys)
  let blocks ← items 0 50 (← member fields "blocks")
  let tally := { tally with keys := key :: tally.keys, blocks := tally.blocks + blocks.length }
  require (tally.blocks ≤ 200)
  blocks.foldlM (block settings ids) tally

/-! ### The document -/

/-- A described attachment, next to those before it. -/
def attachment (settings : Settings) (ids : List Uuid) (value : Value) : Except Error (List Uuid) := do
  let fields ← shape ["id", "title", "caption"] [] value
  let id ← identifier (← textField fields (Json.text "id"))
  require (id ∉ ids)
  discard (plainText settings 1 200 (← member fields "title"))
  discard (plainText settings 0 2000 (← member fields "caption"))
  return ids ++ [id]

def finalization (settings : Settings) (ids : List Uuid) (value : Value) : Except Error Unit := do
  let fields ← shape ["author", "finalized_at"] ["signature_attachment_id"] value
  let author ← shape ["id", "display_name"] [] (← member fields "author")
  discard (plainText settings 1 128 (← member author "id"))
  discard (plainText settings 1 160 (← member author "display_name"))
  timestamp settings (← member fields "finalized_at")
  match lookup fields (Json.text "signature_attachment_id") with
  | none => return ()
  | some signature => discard (attachmentReference ids signature)

def isSha256 (t : Text) : Bool := t.length = 64 ∧ t.all isLowerHex

/-- `validate_document`, for a report identity and the hash of every attachment; the identity
the document names. -/
def validateDocument (settings : Settings) (document : Value) (reportId : Option Value)
    (attachmentHashes : List (Uuid × Text)) : Except Error Uuid := do
  let fields ← shape ["report_id", "schema_version", "report_type", "title", "header", "sections", "attachments",
    "finalization"] [] document
  let reportId ← identifier (← asText reportId)
  let named ← textField fields (Json.text "report_id")
  require (named = reportId)
  require (isInt (lookup fields (Json.text "schema_version")) 1)
  discard (plainText settings 1 80 (← member fields "report_type"))
  discard (plainText settings 1 200 (← member fields "title"))
  checkFields settings (← member fields "header")
  let ids ← (← items 0 32 (← member fields "attachments")).foldlM (attachment settings) []
  require (ids.isPerm (attachmentHashes.map Prod.fst))
  require (attachmentHashes.all fun a => isSha256 a.2)
  let _ ← (← items 0 50 (← member fields "sections")).foldlM (section' settings ids) {}
  finalization settings ids (← member fields "finalization")
  require ((canonical settings document).length ≤ 1024 * 1024)
  return named

/-- The digest of a validated document with its attachments, and the identity it names. -/
def documentDigest (settings : Settings) (document : Value) (attachmentHashes : List (Uuid × Text)) :
    Except Error (Text × Uuid) := do
  let fields ← asDict document
  let reportId ← validateDocument settings document (lookup fields (Json.text "report_id")) attachmentHashes
  let sorted := attachmentHashes.insertionSort fun a b => a.1 ≤ b.1
  let value : Value := .dict [
    (Json.text "profile", .str (Json.text "firedash-report-document-sha256-v1")),
    (Json.text "document", document),
    (Json.text "attachments", .list (sorted.map fun a =>
      .dict [(Json.text "id", .str a.1), (Json.text "sha256", .str a.2)]))]
  return (settings.sha256Hex (canonical settings value), reportId)

end FireDash.ReportTransfer
