import FireDash.Lib.Pace
import FireDash.ReportTransfer.Exports

/-! Access of recipients: transfers as generations of one recipient, their one-time tokens and the
portal sessions they open, beside the submissions. -/
namespace FireDash.ReportTransfer

open Json (Text Value)
open Publications (Bytes Time DepartmentId minute day)
open Delivery (InstallationId)

inductive MailState where
  | processing
  | sent
  | failed
  | unknown
  deriving DecidableEq

/-- A row of `ReportTransfer`; `submissions` is the snapshot it was created with. -/
structure Transfer where
  installation : InstallationId
  recipient : Uuid
  transferRequestId : Uuid
  requestDigest : Text
  recipientEmailDigest : Text
  submissions : List ℕ
  tokenDigest : Text
  issuedAt : Time
  tokenExpiresAt : Time
  consumedAt : Option Time := none
  revokedAt : Option Time := none
  mailState : MailState := .processing
  mailCode : String := "pending"
  deriving DecidableEq

/-- A row of `ReportPortalSession`. -/
structure PortalSession where
  transfer : ℕ
  sessionDigest : Text
  lastSeenAt : Time
  loggedOutAt : Option Time := none
  deriving DecidableEq

/-- What a browser session holds. -/
structure WebSession where
  sessionKey : Option Text
  reportPortal : Option ℕ
  deriving DecidableEq

/-- The settings of the portal; `emailDigest` is the keyed fingerprint of a mailbox. -/
structure PortalSettings where
  settings : Settings
  emailDigest : Text → Text
  publicOriginValid : Bool

/-- How the provider ends a send. -/
inductive MailOutcome where
  | noProvider
  | rejected
  | indeterminate
  | delivered
  | unavailable
  deriving DecidableEq

/-- A request between two of its transactions. -/
inductive Call where
  | send (transfer : ℕ)
  | mailed (transfer : ℕ) (state : MailState) (code : String)
  | redeem (token : Text)
  | revokeToken (token : Text)
  | revokePortal (transfer : ℕ)
  | done
  deriving DecidableEq

/-- The submissions with the access granted to them. -/
structure Access where
  store : Store
  transfers : Table Transfer := ⟨[]⟩
  sessions : Table PortalSession := ⟨[]⟩
  calls : Table Call := ⟨[]⟩

def accessUnavailable : Error := .transfer "access_unavailable" 403

namespace Access

def now (s : Access) : Time := s.store.now

def setTransfer (s : Access) (id : ℕ) (f : Transfer → Transfer) : Access := { s with transfers := s.transfers.modify id f }

def setSession (s : Access) (id : ℕ) (f : PortalSession → PortalSession) : Access :=
  { s with sessions := s.sessions.modify id f }

def setCall (s : Access) (id : ℕ) (call : Call) : Access := { s with calls := s.calls.modify id fun _ => call }

/-! ### Checks -/

/-- `check_transfer`; the department of the tablet. -/
def checkTransfer (portal : PortalSettings) (s : Access) (row : Transfer) : Except Error DepartmentId := do
  if row.revokedAt ≠ none ∨ row.mailState ≠ .sent then
    throw accessUnavailable
  match s.store.directory.fleet.installations.find row.installation with
  | none => throw .doesNotExist
  | some installation =>
    match s.store.directory.fleet.tablets.find installation.tablet with
    | none => throw .doesNotExist
    | some tablet =>
      match s.store.directory.fleet.departments.find tablet.department with
      | none => throw .doesNotExist
      | some department =>
        if ¬installation.status.isCurrent ∨ ¬tablet.active ∨ tablet.status ≠ .active ∨ department.status ≠ .active then
          throw accessUnavailable
        let recipient ← recipientFor s.store.directory tablet.department row.recipient
        if portal.emailDigest recipient.email ≠ row.recipientEmailDigest then
          throw accessUnavailable
        return tablet.department

/-- `check_report` passes. -/
def reportAvailable (s : Access) (pk : ℕ) (installation : InstallationId) (recipient : Uuid) (department : DepartmentId) :
    Bool :=
  match s.store.rows.find pk with
  | none => false
  | some row => row.installation = installation ∧ row.recipient = recipient ∧ row.department = department ∧
      row.documentSchemaVersion = some 1 ∧ row.state = .ready ∧ s.now < s.store.expiry pk row

/-- The rows a new transfer covers, in the order of their keys. -/
def eligible (s : Access) (installation : InstallationId) (recipient : Uuid) (department : DepartmentId) : List ℕ :=
  (s.store.rows.entries.filter fun (pk, row) =>
    row.installation = installation ∧ row.recipient = recipient ∧ row.department = department ∧ row.state = .ready ∧
      row.documentSchemaVersion = some 1 ∧ s.now < row.expiresAt ∧
      s.reportAvailable pk installation recipient department).map Prod.fst

def loadRow (settings : Settings) (s : Access) (pk : ℕ) : Except Error (Value × List Attachment) :=
  match s.store.rows.find pk with
  | none => .error .doesNotExist
  | some row => loadVerifiedPayload settings s.store.files row

/-! ### Transfers -/

def recipientDigest (settings : Settings) (person : Uuid) : Text :=
  settings.sha256Hex (canonical settings (.dict [(Json.text "recipient_personnel_id", .str person)]))

/-- `digest` -/
def tokenDigest (settings : Settings) (token : Text) : Text := settings.sha256Hex (Json.encodeUtf8 token)

/-- The transfers of an installation issued less than an hour ago. -/
def hourly (s : Access) (installation : InstallationId) : ℕ :=
  s.transfers.rows.countP fun t => t.installation = installation ∧ s.now < t.issuedAt + hour

/-- The transfers for one recipient issued less than a minute ago. -/
def minutely (s : Access) (installation : InstallationId) (recipient : Uuid) : ℕ :=
  s.transfers.rows.countP fun t =>
    t.installation = installation ∧ t.recipient = recipient ∧ s.now < t.issuedAt + minute

def isActiveFor (installation : InstallationId) (recipient : Uuid) (t : Transfer) : Bool :=
  t.installation = installation ∧ t.recipient = recipient ∧ t.revokedAt = none

/-- The locked part of `request_transfer`: an earlier transfer under the identity, or a new one. -/
def requestTransfer (portal : PortalSettings) (s : Access) (installation : InstallationId) (requestId person : Uuid)
    (token : Text) : Except Error (ℕ ⊕ Transfer) := do
  let authorized ← authorize s.store.directory installation s.now
  let settings := portal.settings
  let fingerprint := recipientDigest settings person
  match s.transfers.first fun t => t.installation = installation ∧ t.transferRequestId = requestId with
  | some (id, prior) =>
    if prior.requestDigest ≠ fingerprint then
      throw idempotencyConflict
    discard (recipientFor s.store.directory authorized.department person)
    return .inl id
  | none =>
    let recipient ← recipientFor s.store.directory authorized.department person
    let rows := s.eligible installation person authorized.department
    if rows.length > min (max settings.maxReports 1) 100 then
      throw (.transfer "too_many_reports" 409)
    if rows = [] then
      throw (.transfer "no_reports_available" 409)
    rows.forM fun pk => discard (s.loadRow settings pk)
    if s.hourly installation ≥ settings.mailsPerHour ∨ s.minutely installation recipient.personnelId ≥ settings.mailsPerMinute then
      throw (.transfer "transfer_rate_limited" 429)
    if ¬portal.publicOriginValid then
      throw (.transfer "portal_unavailable" 503)
    if s.transfers.any fun t => t.tokenDigest = tokenDigest settings token then
      throw (.databaseError "Report transfer with this Token digest already exists.")
    return .inr {
      installation := installation
      recipient := recipient.personnelId
      transferRequestId := requestId
      requestDigest := fingerprint
      recipientEmailDigest := portal.emailDigest recipient.email
      submissions := rows
      tokenDigest := tokenDigest settings token
      issuedAt := s.now
      tokenExpiresAt := s.now + 60 * minute }

/-- The unrevoked transfers for a recipient end. -/
def revokePrevious (s : Access) (installation : InstallationId) (recipient : Uuid) : Table Transfer :=
  ⟨s.transfers.rows.map fun t => if isActiveFor installation recipient t then { t with revokedAt := some s.now } else t⟩

/-- The earlier generation is revoked and the new transfer created. -/
def createTransfer (s : Access) (transfer : Transfer) : Access :=
  { s with
    transfers := (s.revokePrevious transfer.installation transfer.recipient).insert transfer
    calls := s.calls.insert (.send s.transfers.nextId) }

/-- `send_link`. -/
def sendLink (portal : PortalSettings) (s : Access) (row : Transfer) (delivery : MailOutcome) : MailState × String :=
  if row.revokedAt ≠ none ∨ row.tokenExpiresAt ≤ s.now then (.failed, "access_unavailable")
  else
    match (do
      let authorized ← authorize s.store.directory row.installation s.now
      recipientFor s.store.directory authorized.department row.recipient) with
    | .error _ => (.failed, "delivery_unavailable")
    | .ok recipient =>
      if portal.emailDigest recipient.email ≠ row.recipientEmailDigest then (.failed, "recipient_changed")
      else
        match delivery with
        | .noProvider => (.failed, "provider_unavailable")
        | .rejected => (.failed, "message_rejected")
        | .indeterminate => (.unknown, "delivery_indeterminate")
        | .delivered => (.sent, "delivered")
        | .unavailable => (.failed, "delivery_unavailable")

/-- The locked part of `revoke_tablet`: the transfer of the installation. -/
def revokeTablet (s : Access) (installation : InstallationId) (id : ℕ) : Except Error Access := do
  discard (authorize s.store.directory installation s.now)
  match s.transfers.find id with
  | none => throw (.transfer "transfer_not_found" 404)
  | some row =>
    if row.installation ≠ installation then
      throw (.transfer "transfer_not_found" 404)
    if row.revokedAt = none then
      return s.setTransfer id fun t => { t with revokedAt := some s.now }
    else return s

/-! ### Tokens -/

/-- `token_transfer`. -/
def tokenTransfer (portal : PortalSettings) (s : Access) (token : Text) : Except Error (ℕ × Transfer) := do
  if token.length ≠ 43 then
    throw accessUnavailable
  match s.transfers.first fun t => t.tokenDigest = tokenDigest portal.settings token with
  | none => throw accessUnavailable
  | some (id, row) =>
    if row.tokenExpiresAt ≤ s.now ∨ row.revokedAt ≠ none ∨ row.mailState ≠ .sent then
      throw accessUnavailable
    if row.consumedAt = none then
      discard (s.checkTransfer portal row)
    return (id, row)

/-- The locked part of `_redeem`: the transfer that a new portal session opens. -/
def redeem (portal : PortalSettings) (s : Access) (token : Text) : Except Error ℕ := do
  let (id, row) ← s.tokenTransfer portal token
  if row.consumedAt ≠ none then
    throw (.transfer "access_used" 409)
  let department ← s.checkTransfer portal row
  if row.submissions.any fun pk => s.reportAvailable pk row.installation row.recipient department then
    return id
  else throw accessUnavailable

def openSession (s : Access) (id : ℕ) (sessionDigest : Text) : Access :=
  { s.setTransfer id fun t => { t with consumedAt := some s.now } with
    sessions := s.sessions.insert { transfer := id, sessionDigest := sessionDigest, lastSeenAt := s.now } }

/-- The locked part of `revoke_token`: the transfer to revoke. -/
def revokeToken (portal : PortalSettings) (s : Access) (token : Text) : Except Error ℕ := do
  let (id, row) ← s.tokenTransfer portal token
  if row.consumedAt = none then
    throw accessUnavailable
  return id

/-! ### Portal sessions -/

/-- `portal_context`: the session, its transfer and the reports it may read. -/
def portalContext (portal : PortalSettings) (s : Access) (web : WebSession) (reportId : Option Uuid) :
    Except Error (ℕ × ℕ × List ℕ) := do
  match web.reportPortal, web.sessionKey with
  | some sessionId, some key =>
    match s.sessions.find sessionId with
    | none => throw accessUnavailable
    | some session =>
      match s.transfers.find session.transfer with
      | none => throw .doesNotExist
      | some transfer =>
        if session.loggedOutAt ≠ none ∨ session.lastSeenAt + 30 * minute ≤ s.now ∨
            session.sessionDigest ≠ tokenDigest portal.settings key then
          throw accessUnavailable
        let department ← s.checkTransfer portal transfer
        if transfer.consumedAt = none then
          throw accessUnavailable
        let readable := fun pk => s.reportAvailable pk transfer.installation transfer.recipient department
        match reportId with
        | none => return (sessionId, session.transfer, transfer.submissions.filter readable)
        | some reportId =>
          let rows := transfer.submissions.filter fun pk => ∃ row ∈ s.store.rows.find pk, row.reportId = reportId
          if rows = [] ∨ ¬rows.all readable then
            throw (.transfer "report_unavailable" 404)
          return (sessionId, session.transfer, rows)
  | _, _ => throw accessUnavailable

def touch (s : Access) (sessionId : ℕ) : Access := s.setSession sessionId fun session => { session with lastSeenAt := s.now }

/-- `load_portal_submission`: the session, the row read and its content. -/
def loadPortalSubmission (portal : PortalSettings) (s : Access) (web : WebSession) (reportId : Uuid) :
    Except Error (ℕ × ℕ × Value × List Attachment) := do
  let (sessionId, _, rows) ← s.portalContext portal web (some reportId)
  match rows with
  | [] => throw .doesNotExist
  | pk :: _ =>
    match s.store.rows.find pk with
    | none => throw .doesNotExist
    | some row =>
      if row.state ≠ .ready ∨ s.store.expiry pk row ≤ s.now then
        throw (.transfer "submission_expired" 410)
      let (document, attachments) ← loadVerifiedPayload portal.settings s.store.files row
      return (sessionId, pk, document, attachments)

end Access

/-! ### Requests as steps -/

inductive AccessAction where
  | store (a : Action)
  | requestTransfer (installation : InstallationId) (requestId person : Uuid) (token : Text)
  | sendLink (call : ℕ) (delivery : MailOutcome)
  | recordMail (call : ℕ)
  | revokeTablet (installation : InstallationId) (transfer : ℕ)
  | beginRedeem (token : Text)
  | finishRedeem (call : ℕ) (sessionKey : Text)
  | beginRevokeToken (token : Text)
  | finishRevokeToken (call : ℕ)
  | openPortal (web : WebSession) (reportId : Option Uuid)
  | loadReport (web : WebSession) (reportId : Uuid)
  | beginRevokePortal (web : WebSession)
  | finishRevokePortal (call : ℕ)
  | logout (web : WebSession)

namespace Access

/-- The lock of the installation of a transfer is free. -/
def lockFree (s : Access) (id : ℕ) : Bool := ∀ t ∈ s.transfers.find id, s.store.installationFree t.installation

def revoke (s : Access) (id : ℕ) : Access := s.setTransfer id fun t => { t with revokedAt := some s.now }

/-- One step: a transaction of one request, or a step of the submissions. -/
def step (portal : PortalSettings) (s : Access) : AccessAction → Option Access
  | .store a => (s.store.step portal.settings a).map fun store => { s with store := store }
  | .requestTransfer installation requestId person token =>
    if s.store.installationFree installation then
      match s.requestTransfer portal installation requestId person token with
      | .ok (.inr transfer) => some (s.createTransfer transfer)
      | _ => some s
    else none
  | .sendLink id delivery => do
    let call ← s.calls.find id
    match call with
    | .send transfer =>
      let row ← s.transfers.find transfer
      let (state, code) := s.sendLink portal row delivery
      some (s.setCall id (.mailed transfer state code))
    | _ => none
  | .recordMail id => do
    let call ← s.calls.find id
    match call with
    | .mailed transfer state code =>
      some ((s.setTransfer transfer fun t => { t with mailState := state, mailCode := code }).setCall id .done)
    | _ => none
  | .revokeTablet installation id =>
    if s.store.installationFree installation then
      match s.revokeTablet installation id with
      | .ok t => some t
      | .error _ => some s
    else none
  | .beginRedeem token =>
    match s.tokenTransfer portal token with
    | .ok _ => some { s with calls := s.calls.insert (.redeem token) }
    | .error _ => some s
  | .finishRedeem id sessionKey => do
    let call ← s.calls.find id
    match call with
    | .redeem token =>
      match s.redeem portal token with
      | .ok transfer =>
        if s.lockFree transfer then
          some ((s.openSession transfer (tokenDigest portal.settings sessionKey)).setCall id .done)
        else none
      | .error _ => some (s.setCall id .done)
    | _ => none
  | .beginRevokeToken token =>
    match s.tokenTransfer portal token with
    | .ok _ => some { s with calls := s.calls.insert (.revokeToken token) }
    | .error _ => some s
  | .finishRevokeToken id => do
    let call ← s.calls.find id
    match call with
    | .revokeToken token =>
      match s.revokeToken portal token with
      | .ok transfer => if s.lockFree transfer then some ((s.revoke transfer).setCall id .done) else none
      | .error _ => some (s.setCall id .done)
    | _ => none
  | .openPortal web reportId =>
    match s.portalContext portal web reportId with
    | .ok (sessionId, transfer, _) => if s.lockFree transfer then some (s.touch sessionId) else none
    | .error _ => some s
  | .loadReport web reportId =>
    match s.portalContext portal web (some reportId) with
    | .ok (_, transfer, _) =>
      -- A failure after the context was granted rolls the session back.
      match s.loadPortalSubmission portal web reportId with
      | .ok (sessionId, _) => if s.lockFree transfer then some (s.touch sessionId) else none
      | .error _ => some s
    | .error _ => some s
  | .beginRevokePortal web =>
    match s.portalContext portal web none with
    | .ok (sessionId, transfer, _) =>
      if s.lockFree transfer then
        some { s.touch sessionId with calls := s.calls.insert (.revokePortal transfer) }
      else none
    | .error _ => some s
  | .finishRevokePortal id => do
    let call ← s.calls.find id
    match call with
    | .revokePortal transfer =>
      let row ← s.transfers.find transfer
      if s.lockFree transfer then
        some ((if row.revokedAt = none then s.revoke transfer else s).setCall id .done)
      else none
    | _ => none
  | .logout web =>
    match web.reportPortal with
    | some id => some (s.setSession id fun session => { session with loggedOutAt := some s.now })
    | none => some s

end Access

/-- The system, started without submissions, transfers and sessions. -/
def accessSystem (portal : PortalSettings) : Machine Access AccessAction where
  init s := (submissionSystem portal.settings).init s.store ∧ s.transfers = ⟨[]⟩ ∧ s.sessions = ⟨[]⟩ ∧ s.calls = ⟨[]⟩
  step s a t := s.step portal a = some t

end FireDash.ReportTransfer
