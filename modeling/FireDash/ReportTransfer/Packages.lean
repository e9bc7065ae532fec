import FireDash.ReportTransfer.Documents

/-! The encrypted package of a report: decryption, the declared contents and their hashes,
and the validated document. -/
namespace FireDash.ReportTransfer

open Json (Text Value)
open Publications (Bytes)

/-- A photo of a package; its report identity and media type are fixed by the validation. -/
structure Attachment where
  id : Uuid
  size : ℕ
  sha256 : Text
  data : Text
  deriving DecidableEq

/-- A validated package. -/
structure Package where
  document : Value
  attachments : List Attachment
  documentDigest : Text

/-- `_content`: declared bytes, with their size, digest and transfer encoding. -/
def content (settings : Settings) (limit : ℕ) (names : List String) (item : Value) :
    Except Error (Fields × Attachment × Bytes) := do
  let fields ← asDict item
  require (hasExactly (names.map Json.text) fields)
  match lookup fields (Json.text "size") with
  | some (.int size) =>
    require (0 < size ∧ size ≤ limit)
    let data ← textField fields (Json.text "data")
    require (data.length ≤ (limit + 2) / 3 * 4)
    let raw ← decode data
    let sha256 ← textField fields (Json.text "sha256")
    require (raw.length = size ∧ settings.sha256Hex raw = sha256)
    return (fields, ⟨[], size.toNat, sha256, data⟩, raw)
  | _ => throw invalidPackage

/-- `_jpeg`. -/
def checkJpeg (settings : Settings) (raw : Bytes) : Except Error Unit := do
  match settings.openImage raw with
  | none => throw invalidPackage
  | some image =>
    require (image.format = "JPEG" ∧ image.width * image.height ≤ settings.maxImagePixels)
    require (raw.take 2 = [0xFF, 0xD8] ∧ raw.drop (raw.length - 2) = [0xFF, 0xD9])

def photo (settings : Settings) (header : Header) (before : List Attachment) (item : Value) :
    Except Error (List Attachment) := do
  let (fields, described, raw) ← content settings settings.maxJpegBytes
    ["id", "report_id", "media_type", "size", "sha256", "data"] item
  let id ← identifierField fields "id"
  let reportId ← textField fields (Json.text "report_id")
  require (id ∉ before.map Attachment.id ∧ reportId = header.reportId ∧
    isText (lookup fields (Json.text "media_type")) "image/jpeg")
  checkJpeg settings raw
  return before ++ [{ described with id := id }]

def reference (value : Value) : Except Error Uuid := do
  identifier (← asText (some value))

/-- The content of a decrypted package. -/
def readPackage (settings : Settings) (header : Header) (plaintext : Bytes) : Except Error Package := do
  let package ← asDict (← parseJson settings plaintext)
  require (hasExactly [Json.text "report", Json.text "attachments"] package)
  let (reportFields, _, report) ← content settings settings.maxJsonBytes ["data", "size", "sha256", "attachment_ids"]
    (← member package "report")
  let document ← parseJson settings report
  let fields ← asDict document
  let listed ← items 0 settings.maxAttachments (← member package "attachments")
  let references ← items listed.length listed.length (← member reportFields "attachment_ids")
  let attachments ← listed.foldlM (photo settings header) []
  let references ← references.mapM reference
  require references.Nodup
  require (references.isPerm (attachments.map Attachment.id))
  let (digest, _) ← documentDigest settings document (attachments.map fun a => (a.id, a.sha256))
  let reportId ← textField fields (Json.text "report_id")
  require (reportId = header.reportId)
  return ⟨document, attachments, digest⟩

/-- `decrypt_and_validate`. -/
def decryptAndValidate (settings : Settings) (jwe : Jwe) (header : Header) : Except Error Package := do
  match settings.privateKeys with
  | none => throw (.transfer "report_keys_unavailable" 503)
  | some keys =>
    match keys.find? fun k => k.1 = header.kid with
    | none => throw (.transfer "unknown_report_key" 400)
    | some (_, key) =>
      let wrapped ← decode jwe.encryptedKey
      let iv ← decode jwe.iv
      let ciphertext ← decode jwe.ciphertext
      let tag ← decode jwe.tag
      require (wrapped.length = key.keySize / 8 ∧ iv.length = 12 ∧ tag.length = 16)
      match settings.rsaDecrypt key wrapped with
      | none => throw invalidPackage
      | some cek =>
        require (cek.length = 32)
        match settings.aesGcmDecrypt cek iv (ciphertext ++ tag) (Json.asciiBytes jwe.protectedHeader) with
        | none => throw invalidPackage
        | some plaintext => readPackage settings header plaintext

end FireDash.ReportTransfer
