import FireDash.Lib.Machine
import FireDash.Lib.Table
import FireDash.Publications.Source

/-! One attempt to mail a report, and the durable requests that make an installation's retries of
it idempotent: calls that claim a request, send, and write the result, in separate transactions. -/
namespace FireDash.OutboundMail

open Json (Text)
open Publications (Bytes Time DepartmentId)

abbrev InstallationId := ℕ
abbrev PersonId := ℕ
abbrev DeliveryRequestId := ℕ

/-! ### Messages and providers -/

structure MailAddress where
  displayName : Text
  email : Text
  deriving DecidableEq

structure MailAttachment where
  filename : Text
  mimeType : Text
  content : Bytes
  deriving DecidableEq

structure OutboundMessage where
  sender : MailAddress
  recipient : MailAddress
  subject : Text
  body : Text
  attachments : List MailAttachment
  deriving DecidableEq

structure MailSendResult where
  provider : Text
  providerMessageId : Option Text := none
  deriving DecidableEq

/-- The classes of `MailProviderError`. -/
inductive MailProviderError where
  | providerFailure
  | providerUnavailable
  | messageRejected
  | providerConfiguration
  deriving DecidableEq

/-- What raises while a message is built and sent. -/
inductive Raised where
  | provider (error : MailProviderError)
  | unexpected
  deriving DecidableEq

/-- How a call of `send` ends; `other` is a value that is no `MailSendResult`. -/
inductive SendAnswer where
  | result (result : MailSendResult)
  | other
  | raised (error : Raised)
  deriving DecidableEq

/-! ### `deliver_outbound_report` -/

inductive ReportDeliveryCode where
  | delivered
  | recipientNotAuthorized
  | recipientEmailUnavailable
  | recipientDomainNotAllowed
  | invalidAttachment
  | attachmentTooLarge
  | invalidPdf
  | unsupportedPdfEncryption
  | pdfInspectionUnavailable
  | providerUnavailable
  | messageRejected
  | providerConfiguration
  | deliveryUnavailable
  deriving DecidableEq

/-- The codes of `ReportAdmissionError`. -/
inductive AdmissionCode where
  | recipientNotAuthorized
  | recipientEmailUnavailable
  | recipientDomainNotAllowed
  | invalidAttachment
  | attachmentTooLarge
  | attachmentLimitUnavailable
  | invalidPdf
  | malformedPdf
  | unsupportedPdfEncryption
  | pdfInspectionUnavailable
  deriving DecidableEq

structure ReportDeliveryOutcome where
  code : ReportDeliveryCode
  delivered : Bool := false
  deriving DecidableEq

/-- Codes that are not public end as an invalid attachment. -/
def admissionCode : AdmissionCode → ReportDeliveryCode
  | .recipientNotAuthorized => .recipientNotAuthorized
  | .recipientEmailUnavailable => .recipientEmailUnavailable
  | .recipientDomainNotAllowed => .recipientDomainNotAllowed
  | .invalidAttachment => .invalidAttachment
  | .attachmentTooLarge => .attachmentTooLarge
  | .invalidPdf => .invalidPdf
  | .unsupportedPdfEncryption => .unsupportedPdfEncryption
  | .pdfInspectionUnavailable => .pdfInspectionUnavailable
  | .attachmentLimitUnavailable | .malformedPdf => .invalidAttachment

def providerCode : MailProviderError → ReportDeliveryCode
  | .providerUnavailable => .providerUnavailable
  | .messageRejected => .messageRejected
  | .providerConfiguration => .providerConfiguration
  | .providerFailure => .providerUnavailable

/-- The outcome of an exception between the building of the message and the answer. -/
def raisedOutcome : Raised → ReportDeliveryOutcome
  | .provider error => ⟨providerCode error, false⟩
  | .unexpected => ⟨.providerUnavailable, false⟩

def answerOutcome : SendAnswer → ReportDeliveryOutcome
  | .result _ => ⟨.delivered, true⟩
  | .other => raisedOutcome (.provider .providerUnavailable)
  | .raised error => raisedOutcome error

structure AdmittedReportRecipient where
  personnelId : PersonId
  email : Text
  deriving DecidableEq

structure AdmittedReport where
  recipient : AdmittedReportRecipient
  pdfBytes : Bytes
  deriving DecidableEq

/-- What one attempt reads: the admission of a report, the usable provider by its sender, the
recipient resolved again, and whether the addresses of a message are valid. -/
structure DeliveryEnv where
  admitOutboundReport : DepartmentId → PersonId → Bytes → Except AdmissionCode AdmittedReport
  resolveDepartmentMailProvider : DepartmentId → Option (Except Raised MailAddress)
  resolveReportRecipient : DepartmentId → PersonId → Except AdmissionCode AdmittedReportRecipient
  validAddress : MailAddress → Bool

def reportSubject : Text := "FireDash report".toList.map Char.toNat
def reportBody : Text := "A FireDash report is attached.".toList.map Char.toNat
def reportAttachmentFilename : Text := "firedash-report.pdf".toList.map Char.toNat
def recipientDisplayName : Text := "FireDash recipient".toList.map Char.toNat
def pdfMimeType : Text := "application/pdf".toList.map Char.toNat

def recipientToMailAddress (email : Text) : MailAddress := ⟨recipientDisplayName, email⟩

/-- The message of a report, or the exception of an address that is not valid. -/
def reportMessage (env : DeliveryEnv) (sender : Except Raised MailAddress) (recipient : AdmittedReportRecipient)
    (pdf : Bytes) : Except Raised OutboundMessage := do
  let sender ← sender
  let address := recipientToMailAddress recipient.email
  if env.validAddress address = false then
    throw .unexpected
  return ⟨sender, address, reportSubject, reportBody, [⟨reportAttachmentFilename, pdfMimeType, pdf⟩]⟩

/-- `deliver_outbound_report` up to the call of the provider: the outcome it ends with, or the
message it sends. -/
def prepareDelivery (env : DeliveryEnv) (department : DepartmentId) (recipient : PersonId) (pdf : Bytes) :
    Except ReportDeliveryOutcome OutboundMessage :=
  match env.admitOutboundReport department recipient pdf with
  | .error code => .error ⟨admissionCode code, false⟩
  | .ok admitted =>
    match env.resolveDepartmentMailProvider department with
    | none => .error ⟨.deliveryUnavailable, false⟩
    | some sender =>
      match env.resolveReportRecipient department admitted.recipient.personnelId with
      | .error code => .error ⟨admissionCode code, false⟩
      | .ok recipient => (reportMessage env sender recipient admitted.pdfBytes).mapError raisedOutcome

theorem answerOutcome_delivered {answer : SendAnswer} (h : (answerOutcome answer).delivered = true) :
    ∃ result, answer = .result result := by
  cases answer with
  | result result => exact ⟨result, rfl⟩
  | other => simp [answerOutcome, raisedOutcome] at h
  | raised error => cases error <;> simp [answerOutcome, raisedOutcome] at h

/-- Nothing is delivered without a call of the provider. -/
theorem prepareDelivery_not_delivered {env : DeliveryEnv} {department : DepartmentId} {recipient : PersonId} {pdf : Bytes}
    {outcome : ReportDeliveryOutcome} (h : prepareDelivery env department recipient pdf = .error outcome) :
    outcome.delivered = false := by
  unfold prepareDelivery at h
  split at h
  · cases h
    rfl
  · split at h
    · cases h
      rfl
    · split at h
      · cases h
        rfl
      · generalize reportMessage env _ _ _ = message at h
        cases message with
        | ok message => cases h
        | error error =>
          cases h
          cases error <;> rfl

/-! ### Requests -/

inductive RequestState where
  | processing
  | success
  | failed
  | unknown
  deriving DecidableEq

/-- A row of `TabletReportDeliveryRequest`. `resultCode` is `none` where the column is blank. -/
structure TabletReportDeliveryRequest where
  installation : InstallationId
  department : DepartmentId
  deliveryRequestId : DeliveryRequestId
  recipientPersonnelId : PersonId
  state : RequestState := .processing
  resultCode : Option ReportDeliveryCode := none
  completedAt : Option Time := none
  deriving DecidableEq

/-- The code of a `TabletReportDeliveryResult`. -/
inductive ResultCode where
  | outcome (code : Option ReportDeliveryCode)
  | deliveryIndeterminate
  | idempotencyConflict
  deriving DecidableEq

inductive ResultState where
  | request (state : RequestState)
  | conflict
  deriving DecidableEq

structure TabletReportDeliveryResult where
  state : ResultState
  code : ResultCode
  deriving DecidableEq

/-- `_terminal_state`. -/
def terminalState (outcome : ReportDeliveryOutcome) : RequestState :=
  if outcome.delivered then .success
  else if outcome.code = .providerUnavailable then .unknown
  else .failed

/-- `_replay`. -/
def replay (request : TabletReportDeliveryRequest) (recipient : PersonId) : TabletReportDeliveryResult :=
  if request.recipientPersonnelId ≠ recipient then ⟨.conflict, .idempotencyConflict⟩
  else if request.state = .processing then ⟨.request .unknown, .deliveryIndeterminate⟩
  else ⟨.request request.state, .outcome request.resultCode⟩

/-- The result written to a request. -/
def TabletReportDeliveryRequest.recorded (request : TabletReportDeliveryRequest) (outcome : ReportDeliveryOutcome)
    (now : Time) : TabletReportDeliveryRequest :=
  { request with state := terminalState outcome, resultCode := some outcome.code, completedAt := some now }

theorem terminalState_ne_processing (outcome : ReportDeliveryOutcome) : terminalState outcome ≠ .processing := by
  unfold terminalState
  split
  · simp
  · split <;> simp

theorem delivered_of_terminalState {outcome : ReportDeliveryOutcome} (h : terminalState outcome = .success) :
    outcome.delivered = true := by
  unfold terminalState at h
  split at h
  · assumption
  · split at h <;> cases h

/-! ### Calls -/

/-- A call of `submit_tablet_report_delivery`. -/
structure Submission where
  installation : InstallationId
  department : DepartmentId
  deliveryRequestId : DeliveryRequestId
  recipientPersonnelId : PersonId
  pdf : Bytes
  deriving DecidableEq

/-- Where a call stands; a crash may end it anywhere. -/
inductive Phase where
  | submitted
  | missing
  | collided
  | claimed (request : ℕ)
  | prepared (request : ℕ) (message : OutboundMessage)
  | sending (request : ℕ) (send : ℕ)
  | decided (request : ℕ) (outcome : ReportDeliveryOutcome)
  | returned (result : TabletReportDeliveryResult)
  | crashed
  deriving DecidableEq

structure Call where
  submission : Submission
  phase : Phase := .submitted
  deriving DecidableEq

/-- One call of a provider's `send`, by the call that claimed the request. -/
structure Send where
  call : ℕ
  request : ℕ
  message : OutboundMessage
  answer : Option SendAnswer := none
  deriving DecidableEq

/-- The requests, the calls in progress, and every call made to a provider. -/
structure DeliveryState where
  requests : Table TabletReportDeliveryRequest := ⟨[]⟩
  calls : Table Call := ⟨[]⟩
  sends : Table Send := ⟨[]⟩

/-- A step of a call. -/
inductive Move where
  | get
  | create
  | prepare (env : DeliveryEnv)
  | send
  | answer (answer : SendAnswer)
  | write (now : Time)
  | crash

inductive Action where
  | submit (submission : Submission)
  | move (call : ℕ) (move : Move)

/-- The rows a unique constraint keeps apart. -/
def TabletReportDeliveryRequest.isOf (request : TabletReportDeliveryRequest) (submission : Submission) : Bool :=
  request.installation = submission.installation ∧ request.deliveryRequestId = submission.deliveryRequestId

/-- The row a call inserts. -/
def Submission.request (submission : Submission) : TabletReportDeliveryRequest where
  installation := submission.installation
  department := submission.department
  deliveryRequestId := submission.deliveryRequestId
  recipientPersonnelId := submission.recipientPersonnelId

namespace DeliveryState

def enter (s : DeliveryState) (call : ℕ) (phase : Phase) : DeliveryState :=
  { s with calls := s.calls.modify call fun c => { c with phase := phase } }

/-- The read of `get_or_create`, also after a collision: a row found is replayed. -/
def get (s : DeliveryState) (id : ℕ) (call : Call) : DeliveryState :=
  match s.requests.first fun r => r.isOf call.submission with
  | some (_, row) => s.enter id (.returned (replay row call.submission.recipientPersonnelId))
  | none => s.enter id (if call.phase = .submitted then .missing else .crashed)

/-- The insert of `get_or_create`, with the commit of its transaction. -/
def create (s : DeliveryState) (id : ℕ) (call : Call) : DeliveryState :=
  if s.requests.any fun r => r.isOf call.submission then s.enter id .collided
  else { s.enter id (.claimed s.requests.nextId) with requests := s.requests.insert call.submission.request }

def prepare (s : DeliveryState) (id : ℕ) (call : Call) (request : ℕ) (env : DeliveryEnv) : DeliveryState :=
  match prepareDelivery env call.submission.department call.submission.recipientPersonnelId call.submission.pdf with
  | .error outcome => s.enter id (.decided request outcome)
  | .ok message => s.enter id (.prepared request message)

/-- The transaction that writes the result. -/
def write (s : DeliveryState) (id : ℕ) (request : ℕ) (outcome : ReportDeliveryOutcome) (now : Time) : DeliveryState :=
  { s.enter id (.returned ⟨.request (terminalState outcome), .outcome (some outcome.code)⟩) with
    requests := s.requests.modify request fun r => r.recorded outcome now }

/-- A step of a call; nothing happens where the call is not in the phase of the step. -/
def advance (s : DeliveryState) (id : ℕ) (call : Call) (move : Move) : DeliveryState :=
  match move, call.phase with
  | .get, .submitted | .get, .collided => s.get id call
  | .create, .missing => s.create id call
  | .prepare env, .claimed request => s.prepare id call request env
  | .send, .prepared request message =>
    { s.enter id (.sending request s.sends.nextId) with
      sends := s.sends.insert { call := id, request := request, message := message } }
  | .answer answer, .sending request send =>
    { s.enter id (.decided request (answerOutcome answer)) with
      sends := s.sends.modify send fun e => { e with answer := some answer } }
  | .write now, .decided request outcome => s.write id request outcome now
  | .crash, .returned _ => s
  | .crash, _ => s.enter id .crashed
  | _, _ => s

def step (s : DeliveryState) : Action → DeliveryState
  | .submit submission => { s with calls := s.calls.insert { submission := submission } }
  | .move id move =>
    match s.calls.find id with
    | some call => s.advance id call move
    | none => s

end DeliveryState

/-- Any number of calls, in any order of their steps, each of which may crash anywhere. -/
def deliverySystem : Machine DeliveryState Action where
  init s := s.requests.rows = [] ∧ s.calls.rows = [] ∧ s.sends.rows = []
  step s action t := s.step action = t

end FireDash.OutboundMail
