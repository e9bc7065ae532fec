import FireDash.Delivery.Fleet
import FireDash.Publications.Services.Queue
import FireDash.ReportTransfer.Packages

/-! Stored submissions and the receipts of completed downloads, the deadline they leave a
submission, and the directory that authorizes installations and recipients. -/
namespace FireDash.ReportTransfer

open Json (Text)
open Publications (Bytes Time DepartmentId minute day)
open Delivery (Fleet InstallationId)

def hour : ℕ := 60 * minute

/-! ### Installations and recipients -/

/-- A person of a department. -/
structure Person where
  id : Uuid
  department : DepartmentId
  active : Bool := true
  departed : Bool := false
  incidentCommanderEligible : Bool := true
  incidentCommanderEmail : Option Text
  emailVerified : Bool := true
  deriving DecidableEq

/-- The rows an authorization reads. `normalizedEmail` is `none` for an address that is not
valid, `recipientAllowed` the recipient policy of a department. -/
structure Directory where
  fleet : Fleet
  people : List Person := []
  normalizedEmail : Text → Option Text := some
  recipientAllowed : DepartmentId → Text → Bool := fun _ _ => true

/-- The installation with its department and the station of its vehicle. -/
structure Authorized where
  installation : InstallationId
  department : DepartmentId
  station : ℕ
  deriving DecidableEq

def notAuthorized : Error := .transfer "installation_not_authorized" 403

/-- `authorize`. -/
def authorize (directory : Directory) (id : InstallationId) (now : Time) : Except Error Authorized :=
  match Delivery.controlPlaneContext directory.fleet id now with
  | .error (.manifestError _) => .error notAuthorized
  | .error _ => .error .doesNotExist
  | .ok context =>
    match context.vehicle with
    | none => .error notAuthorized
    | some (_, vehicle) =>
      match directory.fleet.stations.find vehicle.station with
      | none => .error .doesNotExist
      | some station =>
        if context.tablet.status ≠ .active ∨ station.department ≠ context.tablet.department then .error notAuthorized
        else .ok ⟨id, context.tablet.department, vehicle.station⟩

/-- An admitted recipient, with the normalized address. -/
structure Recipient where
  personnelId : Uuid
  email : Text
  deriving DecidableEq

/-- `resolve_report_recipient`, with every refusal as `none`. -/
def resolveReportRecipient (directory : Directory) (department : DepartmentId) (id : Uuid) : Option Recipient := do
  let person ← directory.people.find? fun p => p.id = id ∧ p.department = department
  if ¬person.active ∨ person.departed ∨ ¬person.incidentCommanderEligible ∨ ¬person.emailVerified then none
  let email ← directory.normalizedEmail (← person.incidentCommanderEmail)
  if directory.recipientAllowed department email then some ⟨person.id, email⟩ else none

/-- `recipient_for`. -/
def recipientFor (directory : Directory) (department : DepartmentId) (id : Uuid) : Except Error Recipient :=
  match resolveReportRecipient directory department id with
  | some recipient => .ok recipient
  | none => .error (.transfer "recipient_not_authorized" 403)

/-! ### Submissions -/

inductive ReportState where
  | ready
  | expired
  deriving DecidableEq

/-- A row of `ReportSubmission`. `payloadKey` is `none` where the column is blank. -/
structure Submission where
  installation : InstallationId
  submissionId : Uuid
  reportId : Uuid
  recipient : Uuid
  department : DepartmentId
  station : ℕ
  payloadDigest : Text
  documentDigest : Text
  documentSchemaVersion : Option ℕ := some 1
  firstDownloadAt : Option Time := none
  payloadKey : Option ℕ
  keyVersion : Text
  state : ReportState := .ready
  createdAt : Time
  expiresAt : Time
  deriving DecidableEq

/-- Where a completed download stands. -/
inductive DownloadPhase where
  | completed
  | journaled
  | recorded
  | ended
  deriving DecidableEq

/-- A completed download. `receipt` says that its receipt lies in the spool, `written` that it
was put there. -/
structure Download where
  submission : ℕ
  completedAt : Time
  receipt : Bool := false
  written : Bool := false
  phase : DownloadPhase := .completed
  deriving DecidableEq

/-- `pending_downloads`. -/
def pendingDownloads (downloads : Table Download) (pk : ℕ) : List Time :=
  (downloads.rows.filter fun d => d.receipt ∧ d.submission = pk).map Download.completedAt

/-- The deadline of the columns of a row. -/
def Submission.deadline (row : Submission) : Time :=
  match row.firstDownloadAt with
  | none => min row.expiresAt (row.createdAt + 7 * day)
  | some first => min (min row.expiresAt (row.createdAt + 7 * day)) (first + 48 * hour)

/-- `effective_expiry`, with the completion times of the receipts of the row. -/
def effectiveExpiry (row : Submission) (completions : List Time) : Time :=
  completions.foldl
    (fun deadline at' => if row.createdAt ≤ at' then min deadline (at' + 48 * hour) else deadline) row.deadline

/-- What a submission or a status request answers. -/
structure Result where
  submissionId : Uuid
  reportId : Uuid
  state : ReportState
  expiresAt : Time
  deriving DecidableEq

def result (row : Submission) (completions : List Time) (now : Time) : Result where
  submissionId := row.submissionId
  reportId := row.reportId
  state := if effectiveExpiry row completions ≤ now then .expired else row.state
  expiresAt := effectiveExpiry row completions

/-- `record_successful_download`, on the locked row. -/
def recordSuccessfulDownload (row : Submission) (completions : List Time) (completedAt now : Time) :
    Except Error Submission := do
  require (row.createdAt ≤ completedAt ∧ completedAt ≤ now)
  if row.state ≠ .ready ∨ effectiveExpiry row completions ≤ completedAt then
    throw (.transfer "submission_expired" 410)
  let row := match row.firstDownloadAt with
    | none => { row with firstDownloadAt := some completedAt }
    | some first => if completedAt < first then { row with firstDownloadAt := some completedAt } else row
  return { row with expiresAt := effectiveExpiry row completions }

/-- The rows a cleanup selects for removal: a column alone makes them due. -/
def Submission.isDue (row : Submission) (now : Time) : Bool :=
  row.state = .ready ∧ (row.expiresAt ≤ now ∨ row.createdAt + 7 * day ≤ now ∨
    ∃ first ∈ row.firstDownloadAt, first + 48 * hour ≤ now)

/-- The row after its content was removed. -/
def Submission.purged (row : Submission) : Submission := { row with payloadKey := none, state := .expired }

/-! ### The deadline -/

variable {row : Submission} {completions : List Time} {t : Time}

theorem foldl_completions_le (row : Submission) (completions : List Time) (start t : Time) :
    t ≤ completions.foldl (fun deadline at' => if row.createdAt ≤ at' then min deadline (at' + 48 * hour) else deadline)
      start ↔ t ≤ start ∧ ∀ c ∈ completions, row.createdAt ≤ c → t ≤ c + 48 * hour := by
  induction completions generalizing start with
  | nil => simp
  | cons c completions ih =>
    rw [List.foldl_cons, ih, List.forall_mem_cons]
    by_cases hc : row.createdAt ≤ c
    · rw [if_pos hc, Nat.le_min]
      simp only [hc, true_imp_iff, and_assoc]
    · rw [if_neg hc]
      simp only [hc, false_imp_iff, true_and]

theorem le_deadline : t ≤ row.deadline ↔
    t ≤ row.expiresAt ∧ t ≤ row.createdAt + 7 * day ∧ ∀ first ∈ row.firstDownloadAt, t ≤ first + 48 * hour := by
  unfold Submission.deadline
  cases row.firstDownloadAt with
  | none => simp
  | some first => simp

/-- The deadline is the earliest of the expiry column, seven days after creation, and two days
after each download the row or a receipt records. -/
theorem le_effectiveExpiry : t ≤ effectiveExpiry row completions ↔
    t ≤ row.expiresAt ∧ t ≤ row.createdAt + 7 * day ∧ (∀ first ∈ row.firstDownloadAt, t ≤ first + 48 * hour) ∧
      ∀ c ∈ completions, row.createdAt ≤ c → t ≤ c + 48 * hour := by
  unfold effectiveExpiry
  rw [foldl_completions_le, le_deadline]
  tauto

theorem effectiveExpiry_le_expiresAt (row : Submission) (completions : List Time) :
    effectiveExpiry row completions ≤ row.expiresAt := (le_effectiveExpiry.mp le_rfl).1

theorem effectiveExpiry_le_week (row : Submission) (completions : List Time) :
    effectiveExpiry row completions ≤ row.createdAt + 7 * day := (le_effectiveExpiry.mp le_rfl).2.1

theorem effectiveExpiry_le_first {first : Time} (h : row.firstDownloadAt = some first) :
    effectiveExpiry row completions ≤ first + 48 * hour := (le_effectiveExpiry.mp le_rfl).2.2.1 first h

theorem effectiveExpiry_le_completion {c : Time} (hc : c ∈ completions) (hafter : row.createdAt ≤ c) :
    effectiveExpiry row completions ≤ c + 48 * hour := (le_effectiveExpiry.mp le_rfl).2.2.2 c hc hafter

/-- A recorded download only moves the deadline forward in time. -/
theorem recordSuccessfulDownload_ok {completedAt now : Time} {row' : Submission}
    (h : recordSuccessfulDownload row completions completedAt now = .ok row') :
    row.state = .ready ∧ row.createdAt ≤ completedAt ∧ completedAt ≤ now ∧
      completedAt < effectiveExpiry row completions ∧
      ∃ first, (∀ f ∈ row.firstDownloadAt, first ≤ f) ∧ first ≤ completedAt ∧ row.createdAt ≤ completedAt ∧
        (first = completedAt ∨ row.firstDownloadAt = some first) ∧
        row' = { row with
          firstDownloadAt := some first
          expiresAt := effectiveExpiry { row with firstDownloadAt := some first } completions } := by
  unfold recordSuccessfulDownload at h
  simp only [bind_eq_ok, check_eq_ok, require] at h
  obtain ⟨u, hrange, h⟩ := h
  split at hrange
  · rename_i hr
    obtain ⟨hguard, h⟩ := h
    rw [not_or, not_not, not_le] at hguard
    refine ⟨hguard.1, hr.1, hr.2, hguard.2, ?_⟩
    cases hf : row.firstDownloadAt with
    | none =>
      simp only [hf, pure_eq_ok] at h
      exact ⟨completedAt, by simp, le_rfl, hr.1, .inl rfl, h.symm⟩
    | some first =>
      simp only [hf] at h
      by_cases hlt : completedAt < first
      · rw [if_pos hlt, pure_eq_ok] at h
        exact ⟨completedAt, by simp [hlt.le], le_rfl, hr.1, .inl rfl, h.symm⟩
      · rw [if_neg hlt, pure_eq_ok] at h
        refine ⟨first, by simp, Nat.not_lt.mp hlt, hr.1, .inr rfl, ?_⟩
        rw [← h]
        cases row
        cases hf
        rfl
  · cases hrange

end FireDash.ReportTransfer
