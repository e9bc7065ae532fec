import FireDash.Lib.Base64
import FireDash.Lib.JsonCanonical
import FireDash.Publications.Source

/-! The report envelope: a flattened JWE with a protected header of fixed fields, its
base64url and JSON encodings, and the identifiers it names. -/
namespace FireDash.ReportTransfer

open Base64 (b64decode encode isUrlSafe)
open Json (Text Value)
open Publications (Bytes Time)

/-- What the report services raise. `transfer` carries the code and the HTTP status. -/
inductive Error where
  | transfer (code : String) (status : ℕ)
  | osError
  | databaseError (message : String)
  | doesNotExist
  deriving DecidableEq

def invalidPackage : Error := .transfer "invalid_package" 400

def require (c : Prop) [Decidable c] : Except Error Unit := if c then .ok () else .error invalidPackage

/-- An RSA private key of the report keyring. -/
structure RsaKey where
  id : ℕ
  keySize : ℕ
  deriving DecidableEq

/-- What the imaging library reads off a picture it decodes completely. -/
structure Image where
  format : String
  width : ℕ
  height : ℕ
  deriving DecidableEq

/-- The report settings and the primitives behind them. `privateKeys` is `none` where the
keyring credential is unusable. -/
structure Settings where
  maxRequestBytes : ℕ
  maxJsonBytes : ℕ
  maxJpegBytes : ℕ
  maxAttachments : ℕ
  maxImagePixels : ℕ
  retentionHours : ℕ
  maxReports : ℕ
  mailsPerMinute : ℕ
  mailsPerHour : ℕ
  jsonLimits : Json.Limits
  floatRepr : Json.Double → Text
  isControl : ℕ → Bool
  sha256Hex : Bytes → Text
  privateKeys : Option (List (Text × RsaKey))
  rsaDecrypt : RsaKey → Bytes → Option Bytes
  aesGcmDecrypt : Bytes → Bytes → Bytes → Bytes → Option Bytes
  openImage : Bytes → Option Image

/-! ### JSON and base64url -/

def parseJson (settings : Settings) (raw : Bytes) : Except Error Value :=
  match Json.decodeUtf8 raw with
  | none => .error invalidPackage
  | some t =>
    match Json.loadsUnique settings.jsonLimits t with
    | .ok v => .ok v
    | .error _ => .error invalidPackage

/-- The canonical bytes of a JSON value. -/
def canonical (settings : Settings) (value : Value) : Bytes := Json.asciiBytes (Json.dumps settings.floatRepr value)

/-- Canonical unpadded base64url only. -/
def decode (value : Text) : Except Error Bytes := do
  require (value ≠ [] ∧ value.all isUrlSafe)
  match b64decode value with
  | none => throw invalidPackage
  | some raw =>
    require (encode raw = value)
    return raw

/-! ### Objects -/

abbrev Fields := List (Text × Value)

def lookup (fields : Fields) (name : Text) : Option Value := (fields.find? fun f => f.1 = name).map Prod.snd

/-- The keys of an object are exactly the given names. -/
def hasExactly (names : List Text) (fields : Fields) : Bool := (fields.map Prod.fst).isPerm names

def asDict : Value → Except Error Fields
  | .dict fields => .ok fields
  | _ => .error invalidPackage

def asText : Option Value → Except Error Text
  | some (.str s) => .ok s
  | _ => .error invalidPackage

def textField (fields : Fields) (name : Text) : Except Error Text := asText (lookup fields name)

/-! ### Identifiers -/

def isLowerHex (c : ℕ) : Bool := 48 ≤ c ∧ c ≤ 57 ∨ 97 ≤ c ∧ c ≤ 102

/-- `str(UUID(value)) == value`. -/
def isCanonicalUuid (t : Text) : Bool :=
  t.length = 36 ∧ t.zipIdx.all fun (c, i) => if i ∈ [8, 13, 18, 23] then c = 45 else isLowerHex c

/-- An identifier, as its canonical text. -/
abbrev Uuid := Text

def identifier (value : Text) : Except Error Uuid := do
  require (isCanonicalUuid value)
  return value

/-- `str(pk)` of a row whose key is the number. -/
def uuidText (n : ℕ) : Uuid :=
  let digit (i : ℕ) : ℕ := Json.hexChar (n / 16 ^ i % 16)
  let group (high low : ℕ) : Text := ((List.range' low (high - low)).map digit).reverse
  group 32 24 ++ 45 :: group 24 20 ++ 45 :: group 20 16 ++ 45 :: group 16 12 ++ 45 :: group 12 0

/-! ### The envelope -/

/-- A flattened JWE. -/
structure Jwe where
  protectedHeader : Text
  encryptedKey : Text
  iv : Text
  ciphertext : Text
  tag : Text
  deriving DecidableEq

def jweFields : List Text :=
  [Json.text "protected", Json.text "encrypted_key", Json.text "iv", Json.text "ciphertext", Json.text "tag"]

def readJwe (envelope : Value) : Except Error Jwe := do
  let fields ← asDict envelope
  require (hasExactly jweFields fields)
  return {
    protectedHeader := ← textField fields (Json.text "protected")
    encryptedKey := ← textField fields (Json.text "encrypted_key")
    iv := ← textField fields (Json.text "iv")
    ciphertext := ← textField fields (Json.text "ciphertext")
    tag := ← textField fields (Json.text "tag") }

/-- The members of the protected header that are not fixed. -/
structure Header where
  kid : Text
  submissionId : Uuid
  reportId : Uuid
  recipientPersonnelId : Uuid
  installationId : Uuid
  departmentId : Uuid
  stationId : Uuid
  deriving DecidableEq

def headerFields : List Text :=
  ["typ", "alg", "enc", "kid", "package_version", "schema_version", "submission_id", "report_id",
    "recipient_personnel_id", "installation_id", "department_id", "station_id"].map Json.text

/-- `[A-Za-z0-9._-]{1,64}`. -/
def isName (t : Text) : Bool := 1 ≤ t.length ∧ t.length ≤ 64 ∧ t.all fun c => isUrlSafe c ∨ c = 46

def isText (value : Option Value) (expected : String) : Bool :=
  match value with
  | some (.str s) => s = Json.text expected
  | _ => false

def isInt (value : Option Value) (expected : ℤ) : Bool :=
  match value with
  | some (.int n) => n = expected
  | _ => false

def identifierField (fields : Fields) (name : String) : Except Error Uuid := do
  identifier (← textField fields (Json.text name))

def readHeader (value : Value) : Except Error Header := do
  let fields ← asDict value
  require (hasExactly headerFields fields)
  require (isText (lookup fields (Json.text "typ")) "firedash-report+jwe" ∧
    isText (lookup fields (Json.text "alg")) "RSA-OAEP-256" ∧ isText (lookup fields (Json.text "enc")) "A256GCM")
  require (isInt (lookup fields (Json.text "package_version")) 1)
  require (isText (lookup fields (Json.text "schema_version")) "transport-json-v1")
  let kid ← textField fields (Json.text "kid")
  require (isName kid)
  return {
    kid := kid
    submissionId := ← identifierField fields "submission_id"
    reportId := ← identifierField fields "report_id"
    recipientPersonnelId := ← identifierField fields "recipient_personnel_id"
    installationId := ← identifierField fields "installation_id"
    departmentId := ← identifierField fields "department_id"
    stationId := ← identifierField fields "station_id" }

/-- The header of a well-formed envelope; the members of the envelope are read along with it. -/
def inspectEnvelope (settings : Settings) (envelope : Value) : Except Error (Jwe × Header) := do
  let jwe ← readJwe envelope
  require (jwe.protectedHeader.length ≤ 4096)
  let header ← readHeader (← parseJson settings (← decode jwe.protectedHeader))
  return (jwe, header)

end FireDash.ReportTransfer
