import FireDash.Lib.Json

/-! The curated dangerous-goods file, as the server and the tablet validate its bytes. -/
namespace FireDash.DangerousGoods

open Json

abbrev Fields := List (Text × Value)

/-- The outcomes of a validator that does not accept; `failure` is the exception it documents. -/
inductive Raised where
  | failure (message : String)
  | typeError
  | recursionError
  | valueError
  deriving DecidableEq

/-! ### Values -/

def find (fields : Fields) (key : Text) : Option Value := (fields.find? fun f => f.1 = key).map (·.2)

/-- `mapping.get(key)`. -/
def get (fields : Fields) (key : String) : Value := (find fields (text key)).getD .null

def keysAre (fields : Fields) (keys : List String) : Bool :=
  fields.all (fun f => f.1 ∈ keys.map text) ∧ keys.all fun key => (find fields (text key)).isSome

def asText : Value → Option Text
  | .str s => some s
  | _ => none

def asList : Value → Option (List Value)
  | .list items => some items
  | _ => none

def asDict : Value → Option Fields
  | .dict fields => some fields
  | _ => none

/-- A list of two items. -/
def asPair (v : Value) : Option (Value × Value) :=
  match asList v with
  | some [a, b] => some (a, b)
  | _ => none

def isText (v : Value) (s : String) : Bool := asText v = some (text s)

def isTexts (v : Value) (texts : List String) : Bool :=
  match asList v with
  | some items => items.map asText = texts.map fun s => some (text s)
  | none => false

/-- A list of strings. -/
def isTextList (v : Value) : Bool :=
  match asList v with
  | some items => items.all fun item => (asText item).isSome
  | none => false

def isNonempty (s : Text) : Bool := s.any fun c => ¬isSpace c

/-- `value == n`; a boolean is the integer it converts to. -/
def eqInt : Value → ℕ → Bool
  | .int i, n => i = n
  | .bool b, n => (if b then 1 else 0) = n
  | .float x, n => x.eqInt n
  | _, _ => false

/-- `type(value) is int`. -/
def isInt : Value → Bool
  | .int _ => true
  | _ => false

def isHashable : Value → Bool
  | .list _ | .dict _ => false
  | _ => true

/-! ### Checks of both validators -/

def mapping (v : Value) (label : String) : Except String Fields :=
  match asDict v with
  | some fields => .ok fields
  | none => .error (label ++ " must be an object.")

def nonemptyString (v : Value) (label : String) : Except String Text :=
  match asText v with
  | some s => if isNonempty s then .ok s else .error (label ++ " must be a non-empty string.")
  | none => .error (label ++ " must be a non-empty string.")

/-- `_fail(message)` under a condition. -/
def check (c : Bool) (message : String) : Except String Unit := if c then .ok () else .error message

/-- The value is a string that is a key of the mapping. -/
def isKey (v : Value) (fields : Fields) : Bool :=
  match asText v with
  | some s => (find fields s).isSome
  | none => false

def candidateCodes : List String := ["7A", "7B", "7C"]

def validatePlacard (v : Value) (assets : Fields) : Except String Unit :=
  match asText v with
  | some s =>
    check (find assets s).isSome "Placard string does not resolve through the asset catalog."
  | none => do
    let placard ← mapping v "Placard"
    let kind := get placard "kind"
    if isText kind "conditional" then
      check (keysAre placard ["kind", "code"] && isKey (get placard "code") assets)
        "Conditional placard must reference one catalog asset."
    else if isText kind "variable" then do
      check (keysAre placard ["kind", "candidate_codes", "selection_basis"] &&
        (asText (get placard "selection_basis")).isSome) "Variable placard is invalid."
      check (isTexts (get placard "candidate_codes") candidateCodes &&
        candidateCodes.all fun code => (find assets (text code)).isSome)
        "Variable placard must use exactly 7A, 7B, and 7C."
    else if isText kind "none" then
      check (keysAre placard ["kind"]) "None placard is invalid."
    else if isText kind "reference" then do
      check (keysAre placard ["kind", "reference"]) "Reference placard is invalid."
      let _ ← nonemptyString (get placard "reference") "Reference placard"
      return ()
    else .error "Placard object kind is invalid."

/-- Language-keyed lists of strings. -/
def validRemarks (v : Value) : Bool :=
  match asDict v with
  | some fields => fields.all fun f => isTextList f.2
  | none => false

def isUn (v : Text) : Bool := v.length = 4 ∧ v.all isDigit

def adrStringFields : List String :=
  ["class", "classification_code", "hazard_identification_number", "packing_group"]

def validateAdr (assets adr : Fields) : Except String Unit := do
  check (adrStringFields.all fun field => (find adr (text field)).all fun v => (asText v).isSome)
    "ADR field type is invalid."
  check ((find adr (text "remarks")).all validRemarks) "ADR remarks type is invalid."
  match find adr (text "placards") with
  | some placards =>
    match asList placards with
    | some placards => placards.forM fun placard => validatePlacard placard assets
    | none => .error "ADR placards must be a list."
  | none => .ok ()

def validNames (v : Value) : Bool :=
  match asDict v with
  | some official => official ≠ [] ∧ official.all fun f => (asText f.2).any isNonempty
  | none => false

def isNull : Value → Bool
  | .null => true
  | _ => false

/-- One entry of `goods`; the result is its identifier. -/
def validateGood (assets cards : Fields) (ids : List Text) (item : Value) : Except String Text := do
  let good ← mapping item "goods entry"
  let identifier ← nonemptyString (get good "id") "goods.id"
  check (identifier ∉ ids) "goods IDs must be unique."
  check ((asText (get good "un_number")).any isUn) "UN number must be a four-digit string."
  let names ← mapping (get good "names") "names"
  let official ← mapping (get names "official") "names.official"
  check (validNames (.dict official)) "names.official must be a non-empty language-keyed string mapping."
  check (isNull (get names "aliases") || validRemarks (get names "aliases"))
    "names.aliases must be language-keyed string arrays."
  if isNull (get good "adr") = false then
    let adr ← mapping (get good "adr") "adr"
    validateAdr assets adr
  let eri := get good "eri"
  check (isNull eri || ((asList eri).any fun codes => codes.all fun code => isKey code cards))
    "ERI references must point to existing ERI cards."
  return identifier

def validateGoods (assets cards : Fields) : List Text → List Value → Except String Unit
  | _, [] => .ok ()
  | ids, item :: goods => do
    let identifier ← validateGood assets cards ids item
    validateGoods assets cards (identifier :: ids) goods

def validateDefaults (cards : Fields) (v : Value) : Except String Unit := do
  let defaults ← mapping v "eri_defaults"
  check (defaults.all fun f => isUn f.1 && isKey f.2 cards)
    "ERI defaults must reference valid UN numbers and cards."

def entryKinds : List String := ["title", "heading", "item"]

def validateSource (source : Option Fields) (id : String) : Except String Unit := do
  let missing := "Required BAM and ERICards provenance/legal structures are missing."
  match source with
  | none => .error missing
  | some source =>
    match asDict (get source "legal") with
    | none => .error missing
    | some legal => do
      check (["provider", "dataset", "source_file", "sha256", "source_url"].all fun key =>
        (asText (get source key)).any fun s => s ≠ []) "Required source provenance is incomplete."
      if id = "bam" then
        check ((asText (get legal "legal_url")).isSome &&
          ["license", "attribution", "processing"].all fun key => (asDict (get legal key)).isSome)
          "BAM legal source structure is incomplete."
      if id = "ericards" then
        check ((["terms_url", "guidance_url", "disclaimer_url"].all fun key => (asText (get legal key)).isSome) &&
          ["attribution", "reproduction"].all fun key => (asDict (get legal key)).isSome)
          "ERICards legal source structure is incomplete."

/-- The source a dictionary keyed by `id` holds, the last one of that identity. -/
def sourceById (sources : List Fields) (id : String) : Option Fields :=
  sources.reverse.find? fun source => isText (get source "id") id

def sourceIds : List String := ["bam", "ericards"]

/-- The parts of a document up to its lists of records. -/
structure Header where
  metadata : Fields
  assets : Fields
  goods : List Value
  cards : Fields

def validateAssets (assets : Fields) : Except String Unit :=
  check (assets.all fun f => (asText f.2).any fun s => s ≠ []) "Placard asset catalog is invalid."

/-- The declared 7X placard. -/
def validSevenX (v : Value) : Bool :=
  match asDict v with
  | some sevenX => isText (get sevenX "kind") "variable" && isTexts (get sevenX "candidate_codes") candidateCodes
  | none => false

/-- From the metadata to the lists of records. -/
def readHeader (root : Fields) : Except String Header := do
  let metadata ← mapping (get root "metadata") "metadata"
  check (isText (get metadata "publication_profile") "compact") "metadata.publication_profile must be compact."
  let catalog ← mapping (get metadata "placard_catalog") "metadata.placard_catalog"
  let assets ← mapping (get catalog "available_assets") "metadata.placard_catalog.available_assets"
  validateAssets assets
  let specialValues ← mapping (get catalog "special_values") "metadata.placard_catalog.special_values"
  check (validSevenX (get specialValues "7X")) "Declared 7X placard contract must use exactly 7A, 7B, and 7C."
  let cards ← mapping (get root "eri_cards") "eri_cards"
  match asList (get root "goods") with
  | some goods => return ⟨metadata, assets, goods, cards⟩
  | none => .error "goods must be a list."

def Header.countsMatch (h : Header) : Bool :=
  eqInt (get h.metadata "record_count") h.goods.length && eqInt (get h.metadata "eri_card_count") h.cards.length

/-- The records, up to the cards. -/
def Header.validateRecords (h : Header) (root : Fields) : Except String Unit := do
  validateGoods h.assets h.cards [] h.goods
  validateDefaults h.cards (get root "eri_defaults")

/-- What the server reads of a document before its cards. -/
def readRecords (document : Value) : Except String (Fields × Header) := do
  let root ← mapping document "Document"
  check (isText (get root "dataset_type") "dangerous_goods" && eqInt (get root "schema_version") 1)
    "Document must be dangerous_goods schema version 1."
  let h ← readHeader root
  check h.countsMatch "Metadata counts do not match the document."
  h.validateRecords root
  return (root, h)

/-- The loop over the cards of one code; `i` is the index of the entry. -/
def validateEntries (entry : ℕ → Value → Except Raised Unit) : ℕ → List Value → Except Raised Unit
  | _, [] => .ok ()
  | i, e :: entries => do
    entry i e
    validateEntries entry (i + 1) entries

def validateCards (entry : ℕ → Value → Except Raised Unit) (cards : Fields) : Except Raised Unit :=
  cards.forM fun f =>
    match asList f.2 with
    | some (e :: entries) => validateEntries entry 0 (e :: entries)
    | _ => .error (.failure "ERI cards must be non-empty lists.")

def isPair (kind content : Value) : Bool :=
  entryKinds.any (isText kind) && (asText content).isSome

/-- What remains of an entry check after its kind was looked up. -/
def validatePair (i : ℕ) (kind content : Value) : Except Raised Unit :=
  if isPair kind content = false then .error (.failure "ERI card entries must be [kind, text] pairs.")
  else if i = 0 ∧ isText kind "title" = false then .error (.failure "ERI cards must start with a title.")
  else .ok ()

def Raised.ofFailure {α : Type} (r : Except String α) : Except Raised α := r.mapError .failure

/-- The exceptions of the JSON reader; an undecodable file is a failure, with the message of its validator. -/
def Raised.ofJson (undecodable : String) : Json.Error → Raised
  | .decode => .failure undecodable
  | .constant .nan => .failure "Invalid JSON constant: NaN."
  | .constant .infinity => .failure "Invalid JSON constant: Infinity."
  | .constant .negativeInfinity => .failure "Invalid JSON constant: -Infinity."
  | .recursion => .recursionError
  | .digits => .valueError

/-- `json.loads(payload.decode("utf-8"))`. -/
def readDocument (limits : Limits) (parseConstant : ParseConstant) (undecodable : String) (payload : List UInt8) :
    Except Raised Value :=
  match decodeUtf8 payload with
  | some t => (loads limits parseConstant t).mapError (Raised.ofJson undecodable)
  | none => .error (Raised.ofJson undecodable .decode)

/-! ### The server -/

namespace Server

/-- Looking the kind up in a set hashes it first. -/
def validateEntry (i : ℕ) (entry : Value) : Except Raised Unit :=
  match asPair entry with
  | some (kind, content) => if isHashable kind = false then .error .typeError else validatePair i kind content
  | none => .error (.failure "ERI card entries must be [kind, text] pairs.")

/-- The sources that are objects; a dictionary keyed by their identities hashes every one. -/
def readSources (v : Value) : Except Raised (List Fields) :=
  match asList v with
  | some sources =>
    if (sources.filterMap asDict).all fun source => isHashable (get source "id") then .ok (sources.filterMap asDict)
    else .error .typeError
  | none => .error (.failure "Sources must be a list.")

def validateDocument (document : Value) : Except Raised (Fields × ℕ × ℕ) := do
  let (root, h) ← Raised.ofFailure (readRecords document)
  validateCards validateEntry h.cards
  let sources ← readSources (get root "sources")
  sourceIds.forM fun id => Raised.ofFailure (validateSource (sourceById sources id) id)
  return (root, h.goods.length, h.cards.length)

/-- `apps.ingestion.dangerous_goods.validate_dangerous_goods`. -/
def validateDangerousGoods (limits : Limits) (payload : List UInt8) : Except Raised (Fields × ℕ × ℕ) := do
  let document ← readDocument limits defaultConstant "Source must be UTF-8 JSON." payload
  validateDocument document

end Server

/-! ### The tablet -/

namespace Tablet

def validateEntry (i : ℕ) (entry : Value) : Except Raised Unit :=
  match asPair entry with
  | some (kind, content) =>
    if (asText kind).isNone then .error (.failure "ERI card entries must be [kind, text] pairs.")
    else validatePair i kind content
  | none => .error (.failure "ERI card entries must be [kind, text] pairs.")

def readSources (v : Value) : Except Raised (List Fields) :=
  match asList v with
  | some sources => .ok ((sources.filterMap asDict).filter fun source => (asText (get source "id")).isSome)
  | none => .error (.failure "Sources must be a list.")

structure Summary where
  recordCount : ℕ
  eriCardCount : ℕ
  adrEdition : Value
  ericardsVersion : Value
  sha256 : Text

/-- `schemaVersion` is the one of the signed manifest entry. -/
def validateDocument (schemaVersion : Value) (sha256 : Text) (document : Value) : Except Raised Summary := do
  let root ← Raised.ofFailure (mapping document "Document")
  Raised.ofFailure (check (isText (get root "dataset_type") "dangerous_goods" && eqInt (get root "schema_version") 1)
    "Document must be dangerous_goods schema version 1.")
  Raised.ofFailure (check (isInt (get root "schema_version") && isInt schemaVersion && eqInt schemaVersion 1)
    "Unsupported schema version; expected 1.")
  let h ← Raised.ofFailure (readHeader root)
  Raised.ofFailure (check (isInt (get h.metadata "record_count") && isInt (get h.metadata "eri_card_count"))
    "Metadata counts must be integers.")
  Raised.ofFailure (check h.countsMatch "Metadata counts do not match the document.")
  Raised.ofFailure (h.validateRecords root)
  validateCards validateEntry h.cards
  let sources ← readSources (get root "sources")
  sourceIds.forM fun id => Raised.ofFailure (validateSource (sourceById sources id) id)
  return ⟨h.goods.length, h.cards.length, get h.metadata "adr_edition", get h.metadata "ericards_version", sha256⟩

/-- `_dg_fail` names the dataset. -/
def labelled : Raised → Raised
  | .failure message => .failure ("dangerous_goods: " ++ message)
  | e => e

/-- `tools.fake_ipad.datasets.validate_dangerous_goods`; `decodeError` is the text of the exception for an undecodable file. -/
def validateDangerousGoods (limits : Limits) (decodeError : List UInt8 → String) (sha256Hex : List UInt8 → Text)
    (payload : List UInt8) (schemaVersion : Value) : Except Raised Summary :=
  Except.mapError labelled do
    let document ← readDocument limits noConstant ("Source must be UTF-8 JSON: " ++ decodeError payload) payload
    validateDocument schemaVersion (sha256Hex payload) document

end Tablet

end FireDash.DangerousGoods
