import FireDash.Lib.Machine
import FireDash.ReportTransfer.Models
import Mathlib.Logic.Function.Basic

/-! Submissions as processes beside the rows and the spool: each step of `submit`, of a
completed download and of a cleanup may be the last one before a failure or a crash. -/
namespace FireDash.ReportTransfer

open Base64 (encode)
open Json (Text Value)
open Publications (Bytes Time day)
open Delivery (InstallationId)

/-- Where a `submit` stands. Its transaction is open from `validated` to `inserted`, with the
lock of the installation; the lock of the spool is taken with the first write. -/
inductive SubmitPhase where
  | checked
  | validated (authorized : Authorized) (documentDigest : Text)
  | written (authorized : Authorized) (documentDigest : Text) (writtenAt : Time)
  | inserted (row : Submission)
  | committed (row : Submission)
  | failing (error : Error)
  | answered (outcome : Except Error (Result × Bool))
  | crashed

def SubmitPhase.inTransaction : SubmitPhase → Bool
  | .validated .. | .written .. | .inserted _ => true
  | _ => false

def SubmitPhase.holdsSpool : SubmitPhase → Bool
  | .written .. | .inserted _ => true
  | _ => false

/-- The header is what the envelope was inspected to. `row` is the row the call committed. -/
structure SubmitRun where
  installation : InstallationId
  envelope : Value
  jwe : Jwe
  header : Header
  phase : SubmitPhase := .checked
  row : Option ℕ := none

def SubmitRun.move (phase : SubmitPhase) (run : SubmitRun) : SubmitRun := { run with phase := phase }

/-- Rows, payload files by their key, the calls and the clock. A payload key is a new UUID: the
number of the call that drew it. -/
structure Store where
  directory : Directory
  rows : Table Submission := ⟨[]⟩
  files : ℕ → Option Bytes := fun _ => none
  runs : Table SubmitRun := ⟨[]⟩
  downloads : Table Download := ⟨[]⟩
  now : Time := 0

inductive Action where
  | tick (elapsed : Time)
  | edit (directory : Directory)
  | begin (installation : InstallationId) (envelope : Value)
  | enter (id : ℕ)
  | write (id : ℕ)
  | failWrite (id : ℕ) (error : Error) (leftover : Option Bytes)
  | insert (id : ℕ)
  | abort (id : ℕ) (error : Error)
  | commit (id : ℕ)
  | respond (id : ℕ)
  | failCommitted (id : ℕ) (error : Error)
  | removePayload (id : ℕ) (removed : Bool)
  | crash (id : ℕ)
  | completeDownload (submission : ℕ)
  | journal (download : ℕ) (written : Bool)
  | record (download : ℕ)
  | denyRecord (download : ℕ)
  | unlinkReceipt (download : ℕ)
  | reconcile (download : ℕ) (unlinked : Bool)
  | purge (submission : ℕ) (at' : Time) (committed : Bool)
  | sweep (kept : List ℕ)

/-! ### The parts of `submit` -/

def scopeNotAuthorized : Error := .transfer "scope_not_authorized" 403

def idempotencyConflict : Error := .transfer "idempotency_conflict" 409

/-- The checks before the transaction. -/
def inspectSubmission (settings : Settings) (directory : Directory) (now : Time) (installation : InstallationId)
    (envelope : Value) : Except Error (Jwe × Header) := do
  let (jwe, header) ← inspectEnvelope settings envelope
  let authorized ← authorize directory installation now
  if header.installationId ≠ uuidText installation ∨ header.departmentId ≠ uuidText authorized.department ∨
      header.stationId ≠ uuidText authorized.station then
    throw scopeNotAuthorized
  if (canonical settings envelope).length > settings.maxRequestBytes then
    throw (.transfer "package_too_large" 413)
  return (jwe, header)

/-- The checks repeated and made under the lock of the installation. -/
def readmitted (directory : Directory) (now : Time) (installation : InstallationId) (header : Header) :
    Except Error Authorized := do
  let authorized ← authorize directory installation now
  if header.departmentId ≠ uuidText authorized.department ∨ header.stationId ≠ uuidText authorized.station then
    throw scopeNotAuthorized
  discard (recipientFor directory authorized.department header.recipientPersonnelId)
  return authorized

/-- The digest of the bytes a call would store. -/
def SubmitRun.digest (settings : Settings) (run : SubmitRun) : Text := settings.sha256Hex (canonical settings run.envelope)

/-- One of the two identities is the one of the row. -/
def SubmitRun.claims (run : SubmitRun) (row : Submission) : Bool :=
  row.installation = run.installation ∧
    (row.submissionId = run.header.submissionId ∨ row.reportId = run.header.reportId)

/-- The row a call creates, next to the moments of its columns. -/
def SubmitRun.newRow (settings : Settings) (run : SubmitRun) (key : ℕ) (authorized : Authorized) (documentDigest : Text)
    (writtenAt now : Time) : Submission where
  installation := run.installation
  submissionId := run.header.submissionId
  reportId := run.header.reportId
  recipient := run.header.recipientPersonnelId
  department := authorized.department
  station := authorized.station
  payloadDigest := run.digest settings
  documentDigest := documentDigest
  payloadKey := some key
  keyVersion := run.header.kid
  createdAt := now
  expiresAt := writtenAt + min settings.retentionHours 168 * hour

namespace Store

def moveRun (s : Store) (id : ℕ) (phase : SubmitPhase) : Store := { s with runs := s.runs.modify id (SubmitRun.move phase) }

def setFile (s : Store) (key : ℕ) (content : Option Bytes) : Store :=
  { s with files := Function.update s.files key content }

/-- The lock of an installation is free. -/
def installationFree (s : Store) (installation : InstallationId) : Bool :=
  s.runs.any (fun run => run.installation = installation ∧ run.phase.inTransaction) = false

def spoolFree (s : Store) : Bool := s.runs.any (fun run => run.phase.holdsSpool) = false

def completions (s : Store) (pk : ℕ) : List Time := pendingDownloads s.downloads pk

/-- `effective_expiry` of a stored row. -/
def expiry (s : Store) (pk : ℕ) (row : Submission) : Time := effectiveExpiry row (s.completions pk)

/-- The first step inside the transaction: the answer, or what a new row records. -/
def admission (settings : Settings) (s : Store) (run : SubmitRun) : Except Error (Result ⊕ Authorized × Text) := do
  let authorized ← readmitted s.directory s.now run.installation run.header
  match s.rows.first run.claims with
  | some (pk, existing) =>
    if existing.submissionId ≠ run.header.submissionId ∨ existing.payloadDigest ≠ run.digest settings then
      throw idempotencyConflict
    return .inl (result existing (s.completions pk) s.now)
  | none =>
    let package ← decryptAndValidate settings run.jwe run.header
    return .inr (authorized, package.documentDigest)

def setDownload (s : Store) (id : ℕ) (f : Download → Download) : Store :=
  { s with downloads := s.downloads.modify id f }

def setRow (s : Store) (pk : ℕ) (row : Submission) : Store := { s with rows := s.rows.modify pk fun _ => row }

/-- A payload file some row refers to. -/
def isReferenced (s : Store) (key : ℕ) : Bool := s.rows.any fun row => row.payloadKey = some key

/-- One step of one process; `none` when the process cannot take it. -/
def step (settings : Settings) (s : Store) : Action → Option Store
  | .tick elapsed => some { s with now := s.now + elapsed }
  | .edit directory => some { s with directory := directory }
  | .begin installation envelope =>
    match inspectSubmission settings s.directory s.now installation envelope with
    | .ok (jwe, header) => some { s with runs := s.runs.insert { installation, envelope, jwe, header } }
    | .error _ => some s
  | .enter id => do
    let run ← s.runs.find id
    match run.phase with
    | .checked =>
      if s.installationFree run.installation then
        match s.admission settings run with
        | .ok (.inl answer) => some (s.moveRun id (.answered (.ok (answer, false))))
        | .ok (.inr (authorized, documentDigest)) => some (s.moveRun id (.validated authorized documentDigest))
        | .error e => some (s.moveRun id (.answered (.error e)))
      else none
    | _ => none
  | .write id => do
    let run ← s.runs.find id
    match run.phase with
    | .validated authorized documentDigest =>
      if s.spoolFree then
        some ((s.setFile id (some (canonical settings run.envelope))).moveRun id (.written authorized documentDigest s.now))
      else none
    | _ => none
  | .failWrite id error leftover => do
    -- The file is removed again where that works; the key is not known to the handler.
    let run ← s.runs.find id
    match run.phase with
    | .validated _ _ =>
      if s.spoolFree then some ((s.setFile id leftover).moveRun id (.answered (.error error))) else none
    | _ => none
  | .insert id => do
    let run ← s.runs.find id
    match run.phase with
    | .written authorized documentDigest writtenAt =>
      if s.rows.any run.claims then
        some (s.moveRun id (.failing (.databaseError "Submission with this installation and identity already exists.")))
      else some (s.moveRun id (.inserted (run.newRow settings id authorized documentDigest writtenAt s.now)))
    | _ => none
  | .abort id error => do
    let run ← s.runs.find id
    match run.phase with
    | .checked | .validated _ _ => some (s.moveRun id (.answered (.error error)))
    | .written _ _ _ | .inserted _ => some (s.moveRun id (.failing error))
    | _ => none
  | .commit id => do
    let run ← s.runs.find id
    match run.phase with
    | .inserted row =>
      some { s with
        rows := s.rows.insert row
        runs := s.runs.modify id fun run => { run with phase := .committed row, row := some s.rows.nextId } }
    | _ => none
  | .respond id => do
    let run ← s.runs.find id
    match run.phase, run.row with
    | .committed row, some pk => some (s.moveRun id (.answered (.ok (result row (s.completions pk) s.now, true))))
    | _, _ => none
  | .failCommitted id error => do
    let run ← s.runs.find id
    match run.phase with
    | .committed _ => some (s.moveRun id (.failing error))
    | _ => none
  | .removePayload id removed => do
    let run ← s.runs.find id
    match run.phase with
    | .failing error =>
      some ((if removed then s.setFile id none else s).moveRun id (.answered (.error (if removed then error else .osError))))
    | _ => none
  | .crash id => do
    let _ ← s.runs.find id
    some (s.moveRun id .crashed)
  | .completeDownload submission => do
    let _ ← s.rows.find submission
    some { s with downloads := s.downloads.insert { submission, completedAt := s.now } }
  | .journal id written => do
    let download ← s.downloads.find id
    if download.phase = .completed then
      some (s.setDownload id fun d => { d with receipt := written, written := written, phase := .journaled })
    else none
  | .record id => do
    let download ← s.downloads.find id
    let row ← s.rows.find download.submission
    if download.phase = .journaled then
      match recordSuccessfulDownload row (s.completions download.submission) download.completedAt s.now with
      | .ok row => some ((s.setRow download.submission row).setDownload id fun d => { d with phase := .recorded })
      | .error _ => some (s.setDownload id fun d => { d with phase := .ended })
    else none
  | .denyRecord id => do
    let download ← s.downloads.find id
    if download.phase = .journaled then some (s.setDownload id fun d => { d with phase := .ended }) else none
  | .unlinkReceipt id => do
    let download ← s.downloads.find id
    if download.phase = .recorded then
      some (s.setDownload id fun d => { d with receipt := false, phase := .ended })
    else none
  | .reconcile id unlinked => do
    let download ← s.downloads.find id
    let row ← s.rows.find download.submission
    let unlink (s : Store) : Store := if unlinked then s.setDownload id fun d => { d with receipt := false } else s
    if download.receipt then
      if row.state = .ready then
        match recordSuccessfulDownload row (s.completions download.submission) download.completedAt s.now with
        | .ok row => some (unlink (s.setRow download.submission row))
        | .error _ => some s
      else some (unlink s)
    else none
  | .purge pk at' committed => do
    let row ← s.rows.find pk
    let key ← row.payloadKey
    if at' ≤ s.now ∧ s.spoolFree ∧ row.isDue at' ∧ s.expiry pk row ≤ at' then
      let unlinked := s.setFile key none
      some (if committed then unlinked.setRow pk row.purged else unlinked)
    else none
  | .sweep kept =>
    if s.spoolFree then
      some { s with files := fun key => if s.isReferenced key ∨ key ∈ kept then s.files key else none }
    else none

end Store

/-- The system, started with an empty spool. -/
def submissionSystem (settings : Settings) : Machine Store Action where
  init s := s.rows = ⟨[]⟩ ∧ s.files = (fun _ => none) ∧ s.runs = ⟨[]⟩ ∧ s.downloads = ⟨[]⟩
  step s a t := s.step settings a = some t

/-! ### A small system, for the runs shown with the results -/

/-- A digest of sixty-four hexadecimal digits. -/
def sampleHash (bytes : Bytes) : Text :=
  let n := bytes.foldl (fun n b => (257 * n + b.toNat + 1) % 2 ^ 256) 0
  (List.range 64).map fun i => Json.hexChar (n / 16 ^ i % 16)

/-- Every key is wrapped in two bytes, and a ciphertext is the text before its tag. -/
def sampleSettings : Settings where
  maxRequestBytes := 8192
  maxJsonBytes := 4096
  maxJpegBytes := 4096
  maxAttachments := 12
  maxImagePixels := 100
  retentionHours := 168
  maxReports := 20
  mailsPerMinute := 3
  mailsPerHour := 10
  jsonLimits := ⟨16, 64⟩
  floatRepr := fun _ => Json.text "0.5"
  isControl := fun c => c < 32
  sha256Hex := sampleHash
  privateKeys := some [(Json.text "1", ⟨1, 16⟩)]
  rsaDecrypt := fun _ _ => some (List.replicate 32 0)
  aesGcmDecrypt := fun _ _ data _ => some (data.take (data.length - 16))
  openImage := fun _ => none

def sampleReport (reportId : Uuid) (title : String) : Value :=
  .dict [
    (Json.text "report_id", .str reportId),
    (Json.text "schema_version", .int 1),
    (Json.text "report_type", .str (Json.text "incident")),
    (Json.text "title", .str (Json.text title)),
    (Json.text "header", .list []),
    (Json.text "sections", .list []),
    (Json.text "attachments", .list []),
    (Json.text "finalization", .dict [
      (Json.text "author", .dict [(Json.text "id", .str (Json.text "1")), (Json.text "display_name", .str (Json.text "A"))]),
      (Json.text "finalized_at", .str (Json.text "2026-10-28T14:30:00Z"))])]

def samplePackage (reportId : Uuid) (title : String) : Bytes :=
  let report := canonical sampleSettings (sampleReport reportId title)
  canonical sampleSettings (.dict [
    (Json.text "report", .dict [
      (Json.text "data", .str (encode report)),
      (Json.text "size", .int report.length),
      (Json.text "sha256", .str (sampleHash report)),
      (Json.text "attachment_ids", .list [])]),
    (Json.text "attachments", .list [])])

/-- The report of installation 0 of department 1, for the person with the number 9. -/
def sampleHeader (submissionId reportId : Uuid) : Value :=
  .dict [
    (Json.text "typ", .str (Json.text "firedash-report+jwe")),
    (Json.text "alg", .str (Json.text "RSA-OAEP-256")),
    (Json.text "enc", .str (Json.text "A256GCM")),
    (Json.text "kid", .str (Json.text "1")),
    (Json.text "package_version", .int 1),
    (Json.text "schema_version", .str (Json.text "transport-json-v1")),
    (Json.text "submission_id", .str submissionId),
    (Json.text "report_id", .str reportId),
    (Json.text "recipient_personnel_id", .str (uuidText 9)),
    (Json.text "installation_id", .str (uuidText 0)),
    (Json.text "department_id", .str (uuidText 1)),
    (Json.text "station_id", .str (uuidText 0))]

def sampleJwe (submissionId reportId : Uuid) (title : String) : Jwe where
  protectedHeader := encode (canonical sampleSettings (sampleHeader submissionId reportId))
  encryptedKey := encode [1, 2]
  iv := encode (List.replicate 12 0)
  ciphertext := encode (samplePackage reportId title)
  tag := encode (List.replicate 16 0)

def sampleEnvelope (submissionId reportId : Uuid) (title : String) : Value :=
  let jwe := sampleJwe submissionId reportId title
  Json.textObject [
    (Json.text "protected", jwe.protectedHeader), (Json.text "encrypted_key", jwe.encryptedKey), (Json.text "iv", jwe.iv),
    (Json.text "ciphertext", jwe.ciphertext), (Json.text "tag", jwe.tag)]

/-- The installation is authorized for a year, and the person may receive reports. -/
def sampleDirectory : Directory where
  fleet := { Delivery.sampleFleet with
    installations := ⟨[{
      tablet := 0
      appVersion := "1.0.0"
      hpkePublicKey := 4 :: List.replicate 64 0
      authorizationValidUntil := 365 * day }]⟩ }
  people := [{ id := uuidText 9, department := 1, incidentCommanderEmail := some (Json.text "commander@example.test") }]

def sampleStore : Store := { directory := sampleDirectory }

theorem reachable_sampleStore : (submissionSystem sampleSettings).Reachable sampleStore :=
  .init ⟨rfl, rfl, rfl, rfl⟩

/-- A call of the sample installation, up to its commit. -/
def accepts (id : ℕ) (envelope : Value) : List Action :=
  [.begin 0 envelope, .enter id, .write id, .insert id, .commit id]

end FireDash.ReportTransfer
