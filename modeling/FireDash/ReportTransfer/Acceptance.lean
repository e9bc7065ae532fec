import FireDash.ReportTransfer.Envelopes

/-! What every step of a submission keeps: rows are those of accepted envelopes, and no two rows
of an installation share an identity. -/
namespace FireDash.ReportTransfer

open Json (Text Value)
open Publications (Bytes Time)
open Delivery (InstallationId)

/-- The columns of a row that never change. -/
def Submission.fixed (row : Submission) : Submission :=
  { row with firstDownloadAt := none, payloadKey := none, state := .ready, expiresAt := 0 }

/-- The envelope of the call decrypts to a package with the digest, within its own scope. -/
structure SubmitRun.Validated (settings : Settings) (run : SubmitRun) (authorized : Authorized) (documentDigest : Text) :
    Prop where
  department : run.header.departmentId = uuidText authorized.department
  station : run.header.stationId = uuidText authorized.station
  package : ∃ package, decryptAndValidate settings run.jwe run.header = .ok package ∧ package.documentDigest = documentDigest

/-- The row is one the call created, with the payload key of the call while it is ready. -/
structure SubmitRun.Accepted (settings : Settings) (key : ℕ) (run : SubmitRun) (row : Submission) : Prop where
  validated : ∃ authorized documentDigest, run.Validated settings authorized documentDigest ∧
    row.fixed = (run.newRow settings key authorized documentDigest row.createdAt row.createdAt).fixed
  expiresAt_le : row.expiresAt ≤ row.createdAt + min settings.retentionHours 168 * hour
  payload : row.payloadKey = if row.state = .ready then some key else none

/-- What the phase of a call says about it. -/
def SubmitRun.Consistent (settings : Settings) (s : Store) (id : ℕ) (run : SubmitRun) : Prop :=
  match run.phase with
  | .checked => run.row = none
  | .validated authorized documentDigest => run.row = none ∧ run.Validated settings authorized documentDigest
  | .written authorized documentDigest writtenAt => run.row = none ∧ run.Validated settings authorized documentDigest ∧
      writtenAt ≤ s.now ∧ s.files id = some (canonical settings run.envelope)
  | .inserted row => run.row = none ∧ run.Accepted settings id row ∧ row.createdAt ≤ s.now ∧ row.state = .ready ∧
      s.files id = some (canonical settings run.envelope)
  | _ => True

namespace Store

/-- Calls hold their locks alone, and rows belong to the calls that committed them. -/
structure Sound (settings : Settings) (s : Store) : Prop where
  inspected : ∀ {i run}, s.runs.find i = some run →
    inspectEnvelope settings run.envelope = .ok (run.jwe, run.header) ∧ run.header.installationId = uuidText run.installation
  consistent : ∀ {i run}, s.runs.find i = some run → run.Consistent settings s i
  installation_lock : ∀ {i j u v}, s.runs.find i = some u → s.runs.find j = some v → u.phase.inTransaction = true →
    v.phase.inTransaction = true → u.installation = v.installation → i = j
  spool_lock : ∀ {i j u v}, s.runs.find i = some u → s.runs.find j = some v → u.phase.holdsSpool = true →
    v.phase.holdsSpool = true → i = j
  unclaimed : ∀ {i run}, s.runs.find i = some run → run.phase.inTransaction = true →
    ∀ {pk row}, s.rows.find pk = some row → run.claims row = false
  distinct : ∀ {i j r r'}, s.rows.find i = some r → s.rows.find j = some r' → r.installation = r'.installation →
    r.submissionId = r'.submissionId ∨ r.reportId = r'.reportId → i = j
  accepted : ∀ {i run pk}, s.runs.find i = some run → run.row = some pk →
    ∃ row, s.rows.find pk = some row ∧ run.Accepted settings i row
  origin : ∀ {pk row}, s.rows.find pk = some row → ∃ i run, s.runs.find i = some run ∧ run.row = some pk
  created : ∀ {pk row}, s.rows.find pk = some row → row.createdAt ≤ s.now

/-- The moves of a call that touch neither rows nor files. -/
inductive Moves (settings : Settings) (s : Store) (id : ℕ) (run : SubmitRun) : Action → SubmitPhase → Prop
  | refuse {e : Error} (hphase : run.phase = .checked) (hadmitted : s.admission settings run = .error e) :
    Moves settings s id run (.enter id) (.answered (.error e))
  | replay {answer : Result} (hphase : run.phase = .checked) (hadmitted : s.admission settings run = .ok (.inl answer)) :
    Moves settings s id run (.enter id) (.answered (.ok (answer, false)))
  | validate {authorized : Authorized} {documentDigest : Text} (hphase : run.phase = .checked)
    (hfree : s.installationFree run.installation = true)
    (hadmitted : s.admission settings run = .ok (.inr (authorized, documentDigest))) :
    Moves settings s id run (.enter id) (.validated authorized documentDigest)
  | clash {e : Error} (hphase : run.phase.holdsSpool = true) : Moves settings s id run (.insert id) (.failing e)
  | insert {authorized : Authorized} {documentDigest : Text} {writtenAt : Time}
    (hphase : run.phase = .written authorized documentDigest writtenAt) :
    Moves settings s id run (.insert id) (.inserted (run.newRow settings id authorized documentDigest writtenAt s.now))
  | abort {e : Error} (hphase : run.phase = .checked ∨ ∃ authorized documentDigest, run.phase = .validated authorized documentDigest) :
    Moves settings s id run (.abort id e) (.answered (.error e))
  | abortWritten {e : Error} (hphase : run.phase.holdsSpool = true) : Moves settings s id run (.abort id e) (.failing e)
  | respond {row : Submission} {pk : ℕ} (hphase : run.phase = .committed row) (hrow : run.row = some pk) :
    Moves settings s id run (.respond id) (.answered (.ok (result row (s.completions pk) s.now, true)))
  | failCommitted {row : Submission} {e : Error} (hphase : run.phase = .committed row) :
    Moves settings s id run (.failCommitted id e) (.failing e)
  | crash : Moves settings s id run (.crash id) .crashed

/-- What a step that is taken does. -/
inductive Taken (settings : Settings) (s : Store) : Action → Store → Prop
  | tick (elapsed : Time) : Taken settings s (.tick elapsed) { s with now := s.now + elapsed }
  | edit (directory : Directory) : Taken settings s (.edit directory) { s with directory := directory }
  | begun {installation : InstallationId} {envelope : Value} {jwe : Jwe} {header : Header}
    (hinspect : inspectSubmission settings s.directory s.now installation envelope = .ok (jwe, header)) :
    Taken settings s (.begin installation envelope) { s with runs := s.runs.insert { installation, envelope, jwe, header } }
  | refused {installation : InstallationId} {envelope : Value} : Taken settings s (.begin installation envelope) s
  | moved {a : Action} {id : ℕ} {run : SubmitRun} {phase : SubmitPhase} (hrun : s.runs.find id = some run)
    (hmove : Moves settings s id run a phase) : Taken settings s a (s.moveRun id phase)
  | write {id : ℕ} {run : SubmitRun} {authorized : Authorized} {documentDigest : Text} (hrun : s.runs.find id = some run)
    (hphase : run.phase = .validated authorized documentDigest) (hfree : s.spoolFree = true) :
    Taken settings s (.write id)
      ((s.setFile id (some (canonical settings run.envelope))).moveRun id (.written authorized documentDigest s.now))
  | failWrite {id : ℕ} {run : SubmitRun} {e : Error} {leftover : Option Bytes} {authorized : Authorized}
    {documentDigest : Text} (hrun : s.runs.find id = some run) (hphase : run.phase = .validated authorized documentDigest) :
    Taken settings s (.failWrite id e leftover) ((s.setFile id leftover).moveRun id (.answered (.error e)))
  | commit {id : ℕ} {run : SubmitRun} {row : Submission} (hrun : s.runs.find id = some run)
    (hphase : run.phase = .inserted row) :
    Taken settings s (.commit id) { s with
      rows := s.rows.insert row
      runs := s.runs.modify id fun run => { run with phase := .committed row, row := some s.rows.nextId } }
  | removePayload {id : ℕ} {run : SubmitRun} {e : Error} (hrun : s.runs.find id = some run)
    (hphase : run.phase = .failing e) :
    Taken settings s (.removePayload id true) ((s.setFile id none).moveRun id (.answered (.error e)))
  | keepPayload {id : ℕ} {run : SubmitRun} {e : Error} (hrun : s.runs.find id = some run)
    (hphase : run.phase = .failing e) :
    Taken settings s (.removePayload id false) (s.moveRun id (.answered (.error .osError)))
  | completeDownload {pk : ℕ} {row : Submission} (hrow : s.rows.find pk = some row) :
    Taken settings s (.completeDownload pk)
      { s with downloads := s.downloads.insert { submission := pk, completedAt := s.now } }
  | journal {id : ℕ} {download : Download} {written : Bool} (hdownload : s.downloads.find id = some download)
    (hphase : download.phase = .completed) :
    Taken settings s (.journal id written)
      (s.setDownload id fun d => { d with receipt := written, written := written, phase := .journaled })
  | record {id : ℕ} {download : Download} {row row' : Submission} (hdownload : s.downloads.find id = some download)
    (hrow : s.rows.find download.submission = some row) (hphase : download.phase = .journaled)
    (hrecord : recordSuccessfulDownload row (s.completions download.submission) download.completedAt s.now = .ok row') :
    Taken settings s (.record id) ((s.setRow download.submission row').setDownload id fun d => { d with phase := .recorded })
  | unrecorded {a : Action} {id : ℕ} {download : Download} (hdownload : s.downloads.find id = some download)
    (hphase : download.phase = .journaled) (ha : a = .record id ∨ a = .denyRecord id) :
    Taken settings s a (s.setDownload id fun d => { d with phase := .ended })
  | unlinkReceipt {id : ℕ} {download : Download} (hdownload : s.downloads.find id = some download)
    (hphase : download.phase = .recorded) :
    Taken settings s (.unlinkReceipt id) (s.setDownload id fun d => { d with receipt := false, phase := .ended })
  | reconcile {id : ℕ} {download : Download} {row row' : Submission} {unlinked : Bool}
    (hdownload : s.downloads.find id = some download) (hrow : s.rows.find download.submission = some row)
    (hrecord : recordSuccessfulDownload row (s.completions download.submission) download.completedAt s.now = .ok row') :
    Taken settings s (.reconcile id unlinked)
      (if unlinked then (s.setRow download.submission row').setDownload id fun d => { d with receipt := false }
        else s.setRow download.submission row')
  | unreconciled {id : ℕ} {unlinked : Bool} : Taken settings s (.reconcile id unlinked) s
  | dropReceipt {id : ℕ} {download : Download} {row : Submission} (hdownload : s.downloads.find id = some download)
    (hrow : s.rows.find download.submission = some row) (hstate : row.state ≠ .ready) :
    Taken settings s (.reconcile id true) (s.setDownload id fun d => { d with receipt := false })
  | purge {pk : ℕ} {row : Submission} {key : ℕ} {at' : Time} (hrow : s.rows.find pk = some row)
    (hkey : row.payloadKey = some key) (hat : at' ≤ s.now) (hfree : s.spoolFree = true) (hdue : row.isDue at' = true)
    (hexpired : s.expiry pk row ≤ at') : Taken settings s (.purge pk at' true) ((s.setFile key none).setRow pk row.purged)
  | purgeInterrupted {pk : ℕ} {row : Submission} {key : ℕ} {at' : Time} (hrow : s.rows.find pk = some row)
    (hkey : row.payloadKey = some key) (hfree : s.spoolFree = true) :
    Taken settings s (.purge pk at' false) (s.setFile key none)
  | sweep {kept : List ℕ} (hfree : s.spoolFree = true) :
    Taken settings s (.sweep kept)
      { s with files := fun key => if s.isReferenced key ∨ key ∈ kept then s.files key else none }

section

variable {settings : Settings} {s t : Store}

theorem step_taken {a : Action} (hs : s.step settings a = some t) : Taken settings s a t := by
  cases a with
  | tick elapsed =>
    cases hs
    exact .tick elapsed
  | edit directory =>
    cases hs
    exact .edit directory
  | «begin» installation envelope =>
    simp only [step] at hs
    split at hs
    · rename_i jwe header hinspect
      cases hs
      exact .begun hinspect
    · cases hs
      exact .refused
  | enter id =>
    simp only [step, bind_eq_some] at hs
    obtain ⟨run, hrun, hs⟩ := hs
    split at hs
    · rename_i hphase
      simp only [Option.ite_none_right_eq_some] at hs
      obtain ⟨hfree, hs⟩ := hs
      split at hs
      · rename_i answer hadmitted
        cases hs
        exact .moved hrun (.replay hphase hadmitted)
      · rename_i authorized documentDigest hadmitted
        cases hs
        exact .moved hrun (.validate hphase hfree hadmitted)
      · rename_i e hadmitted
        cases hs
        exact .moved hrun (.refuse hphase hadmitted)
    · cases hs
  | write id =>
    simp only [step, bind_eq_some] at hs
    obtain ⟨run, hrun, hs⟩ := hs
    split at hs
    · rename_i authorized documentDigest hphase
      simp only [Option.ite_none_right_eq_some, Option.some.injEq] at hs
      obtain ⟨hfree, rfl⟩ := hs
      exact .write hrun hphase hfree
    · cases hs
  | failWrite id e leftover =>
    simp only [step, bind_eq_some] at hs
    obtain ⟨run, hrun, hs⟩ := hs
    split at hs
    · rename_i authorized documentDigest hphase
      simp only [Option.ite_none_right_eq_some, Option.some.injEq] at hs
      obtain ⟨hfree, rfl⟩ := hs
      exact .failWrite hrun hphase
    · cases hs
  | insert id =>
    simp only [step, bind_eq_some] at hs
    obtain ⟨run, hrun, hs⟩ := hs
    split at hs
    · rename_i authorized documentDigest writtenAt hphase
      split at hs
      · cases hs
        exact .moved hrun (.clash (by rw [hphase]; rfl))
      · cases hs
        exact .moved hrun (.insert hphase)
    · cases hs
  | abort id e =>
    simp only [step, bind_eq_some] at hs
    obtain ⟨run, hrun, hs⟩ := hs
    split at hs
    · rename_i hphase
      cases hs
      exact .moved hrun (.abort (.inl hphase))
    · rename_i authorized documentDigest hphase
      cases hs
      exact .moved hrun (.abort (.inr ⟨authorized, documentDigest, hphase⟩))
    · rename_i hphase
      cases hs
      exact .moved hrun (.abortWritten (by rw [hphase]; rfl))
    · rename_i hphase
      cases hs
      exact .moved hrun (.abortWritten (by rw [hphase]; rfl))
    · cases hs
  | commit id =>
    simp only [step, bind_eq_some] at hs
    obtain ⟨run, hrun, hs⟩ := hs
    split at hs
    · rename_i row hphase
      cases hs
      exact .commit hrun hphase
    · cases hs
  | respond id =>
    simp only [step, bind_eq_some] at hs
    obtain ⟨run, hrun, hs⟩ := hs
    split at hs
    · rename_i row pk hphase hrow
      cases hs
      exact .moved hrun (.respond hphase hrow)
    · cases hs
  | failCommitted id e =>
    simp only [step, bind_eq_some] at hs
    obtain ⟨run, hrun, hs⟩ := hs
    split at hs
    · rename_i row hphase
      cases hs
      exact .moved hrun (.failCommitted hphase)
    · cases hs
  | removePayload id removed =>
    simp only [step, bind_eq_some] at hs
    obtain ⟨run, hrun, hs⟩ := hs
    split at hs
    · rename_i e hphase
      cases removed with
      | true =>
        cases hs
        exact .removePayload hrun hphase
      | false =>
        cases hs
        exact .keepPayload hrun hphase
    · cases hs
  | crash id =>
    simp only [step, bind_eq_some] at hs
    obtain ⟨run, hrun, hs⟩ := hs
    cases hs
    exact .moved hrun .crash
  | completeDownload pk =>
    simp only [step, bind_eq_some] at hs
    obtain ⟨row, hrow, hs⟩ := hs
    cases hs
    exact .completeDownload hrow
  | journal id written =>
    simp only [step, bind_eq_some, Option.ite_none_right_eq_some, Option.some.injEq] at hs
    obtain ⟨download, hdownload, hphase, rfl⟩ := hs
    exact .journal hdownload hphase
  | record id =>
    simp only [step, bind_eq_some, Option.ite_none_right_eq_some] at hs
    obtain ⟨download, hdownload, row, hrow, hphase, hs⟩ := hs
    split at hs
    · rename_i row' hrecord
      cases hs
      exact .record hdownload hrow hphase hrecord
    · cases hs
      exact .unrecorded hdownload hphase (.inl rfl)
  | denyRecord id =>
    simp only [step, bind_eq_some, Option.ite_none_right_eq_some, Option.some.injEq] at hs
    obtain ⟨download, hdownload, hphase, rfl⟩ := hs
    exact .unrecorded hdownload hphase (.inr rfl)
  | unlinkReceipt id =>
    simp only [step, bind_eq_some, Option.ite_none_right_eq_some, Option.some.injEq] at hs
    obtain ⟨download, hdownload, hphase, rfl⟩ := hs
    exact .unlinkReceipt hdownload hphase
  | reconcile id unlinked =>
    simp only [step, bind_eq_some, Option.ite_none_right_eq_some] at hs
    obtain ⟨download, hdownload, row, hrow, -, hs⟩ := hs
    split at hs
    · split at hs
      · rename_i row' hrecord
        cases hs
        exact .reconcile hdownload hrow hrecord
      · cases hs
        exact .unreconciled
    · rename_i hstate
      cases unlinked with
      | true =>
        cases hs
        exact .dropReceipt hdownload hrow hstate
      | false =>
        cases hs
        exact .unreconciled
  | purge pk at' committed =>
    simp only [step, bind_eq_some, Option.ite_none_right_eq_some] at hs
    obtain ⟨row, hrow, key, hkey, ⟨hat, hfree, hdue, hexpired⟩, hs⟩ := hs
    cases committed with
    | true =>
      cases hs
      exact .purge hrow hkey hat hfree hdue hexpired
    | false =>
      cases hs
      exact .purgeInterrupted hrow hkey hfree
  | sweep kept =>
    simp only [step, Option.ite_none_right_eq_some, Option.some.injEq] at hs
    obtain ⟨hfree, rfl⟩ := hs
    exact .sweep hfree

/-! ### Rows -/

end

end Store

/-- What a row may become. -/
structure Submission.Follows (row row' : Submission) : Prop where
  fixed : row'.fixed = row.fixed
  expiresAt : row'.expiresAt ≤ row.expiresAt
  payload : row'.payloadKey = row.payloadKey ∧ row'.state = row.state ∨ row'.payloadKey = none ∧ row'.state = .expired

theorem Submission.Follows.refl (row : Submission) : row.Follows row := ⟨rfl, le_rfl, .inl ⟨rfl, rfl⟩⟩

theorem identity_of_fixed {row row' : Submission} (h : row'.fixed = row.fixed) :
    row'.installation = row.installation ∧ row'.submissionId = row.submissionId ∧ row'.reportId = row.reportId := by
  have hinstallation : row'.fixed.installation = row.fixed.installation := by rw [h]
  have hsubmission : row'.fixed.submissionId = row.fixed.submissionId := by rw [h]
  have hreport : row'.fixed.reportId = row.fixed.reportId := by rw [h]
  exact ⟨hinstallation, hsubmission, hreport⟩

theorem Submission.Follows.createdAt {row row' : Submission} (h : row.Follows row') : row'.createdAt = row.createdAt := by
  have hcreated : row'.fixed.createdAt = row.fixed.createdAt := by rw [h.fixed]
  exact hcreated

theorem follows_record {row row' : Submission} {completions : List Time} {completedAt now : Time}
    (h : recordSuccessfulDownload row completions completedAt now = .ok row') : row.Follows row' := by
  obtain ⟨-, -, -, -, first, -, -, -, -, rfl⟩ := recordSuccessfulDownload_ok h
  exact ⟨rfl, effectiveExpiry_le_expiresAt _ _, .inl ⟨rfl, rfl⟩⟩

theorem follows_purged (row : Submission) : row.Follows row.purged := ⟨rfl, le_rfl, .inr ⟨rfl, rfl⟩⟩

theorem claims_fixed {run : SubmitRun} {row row' : Submission} (h : row'.fixed = row.fixed) :
    run.claims row' = run.claims row := by
  obtain ⟨hi, hs, hr⟩ := identity_of_fixed h
  simp only [SubmitRun.claims, hi, hs, hr]

theorem SubmitRun.Accepted.follows {settings : Settings} {key : ℕ} {run : SubmitRun} {row row' : Submission}
    (h : run.Accepted settings key row) (hf : row.Follows row') : run.Accepted settings key row' where
  validated := by
    rw [hf.fixed, hf.createdAt]
    exact h.validated
  expiresAt_le := by
    rw [hf.createdAt]
    exact hf.expiresAt.trans h.expiresAt_le
  payload := by
    rcases hf.payload with ⟨hkey, hstate⟩ | ⟨hkey, hstate⟩
    · rw [hkey, hstate]
      exact h.payload
    · rw [hkey, hstate]
      rfl

theorem SubmitRun.Accepted.move {settings : Settings} {key : ℕ} {run : SubmitRun} {row : Submission}
    (h : run.Accepted settings key row) (phase : SubmitPhase) : (run.move phase).Accepted settings key row := by
  obtain ⟨⟨authorized, documentDigest, hvalidated, hfixed⟩, hexpires, hpayload⟩ := h
  exact ⟨⟨authorized, documentDigest, ⟨hvalidated.department, hvalidated.station, hvalidated.package⟩, hfixed⟩, hexpires,
    hpayload⟩

/-- The row of a validated call. -/
theorem SubmitRun.Validated.accepted {settings : Settings} {key : ℕ} {run : SubmitRun} {authorized : Authorized}
    {documentDigest : Text} {writtenAt now : Time} (h : run.Validated settings authorized documentDigest)
    (ht : writtenAt ≤ now) : run.Accepted settings key (run.newRow settings key authorized documentDigest writtenAt now) where
  validated := by
    refine ⟨authorized, documentDigest, h, ?_⟩
    simp only [Submission.fixed, SubmitRun.newRow]
  expiresAt_le := by
    have hle : ∀ k : ℕ, writtenAt + k ≤ now + k := fun k => Nat.add_le_add_right ht k
    exact hle (min settings.retentionHours 168 * hour)
  payload := rfl

namespace Store

section

variable {settings : Settings} {s t : Store}

theorem find_moveRun {id i : ℕ} {phase : SubmitPhase} {run : SubmitRun}
    (h : (s.runs.modify id (SubmitRun.move phase)).find i = some run) :
    i ≠ id ∧ s.runs.find i = some run ∨ i = id ∧ ∃ u, s.runs.find id = some u ∧ run = u.move phase := by
  rw [Table.find_modify] at h
  split at h
  · rename_i hi
    subst hi
    obtain ⟨u, hu, rfl⟩ := Option.map_eq_some_iff.mp h
    exact .inr ⟨rfl, u, hu, rfl⟩
  · rename_i hi
    exact .inl ⟨fun he => hi he.symm, h⟩

/-- Every run after a move comes from one before it. -/
theorem find_moveRun_old {id i : ℕ} {phase : SubmitPhase} {run : SubmitRun}
    (h : (s.runs.modify id (SubmitRun.move phase)).find i = some run) :
    ∃ u, s.runs.find i = some u ∧ run = u.move run.phase ∧ (i ≠ id → run = u) ∧ (i = id → run.phase = phase) := by
  rcases find_moveRun h with ⟨hi, hrun⟩ | ⟨rfl, u, hu, rfl⟩
  · exact ⟨run, hrun, rfl, fun _ => rfl, fun he => absurd he hi⟩
  · exact ⟨u, hu, rfl, fun he => absurd rfl he, fun _ => rfl⟩

theorem consistent_mono {i : ℕ} {run : SubmitRun} (h : run.Consistent settings s i) (hnow : s.now ≤ t.now)
    (hfile : run.phase.holdsSpool = true → t.files i = s.files i) : run.Consistent settings t i := by
  unfold SubmitRun.Consistent at h ⊢
  split
  · rename_i hphase
    rw [hphase] at h
    exact h
  · rename_i hphase
    rw [hphase] at h
    exact h
  · rename_i hphase
    rw [hphase] at h hfile
    exact ⟨h.1, h.2.1, h.2.2.1.trans hnow, (hfile rfl).trans h.2.2.2⟩
  · rename_i hphase
    rw [hphase] at h hfile
    exact ⟨h.1, h.2.1, h.2.2.1.trans hnow, h.2.2.2.1, (hfile rfl).trans h.2.2.2.2⟩
  · trivial

/-- A step that leaves the calls alone. -/
theorem Sound.keep (h : s.Sound settings) (hruns : t.runs = s.runs)
    (hrows : Table.Evolve Submission.Follows (fun _ => False) s.rows t.rows) (hnow : s.now ≤ t.now)
    (hfiles : ∀ {i run}, s.runs.find i = some run → run.phase.holdsSpool = true → t.files i = s.files i) :
    t.Sound settings := by
  have hold : ∀ {pk row'}, t.rows.find pk = some row' → ∃ row, s.rows.find pk = some row ∧ row.Follows row' := by
    intro pk row' hrow
    rcases hrows.old hrow with hfalse | hrow
    · exact hfalse.elim
    · exact hrow
  constructor
  · intro i run hrun
    rw [hruns] at hrun
    exact h.inspected hrun
  · intro i run hrun
    rw [hruns] at hrun
    exact consistent_mono (h.consistent hrun) hnow (hfiles hrun)
  · rw [hruns]
    exact h.installation_lock
  · rw [hruns]
    exact h.spool_lock
  · intro i run hrun hin pk row' hrow'
    rw [hruns] at hrun
    obtain ⟨row, hrow, hf⟩ := hold hrow'
    rw [claims_fixed hf.fixed]
    exact h.unclaimed hrun hin hrow
  · intro i j r r' hr hr' hinstallation hids
    obtain ⟨u, hu, hfu⟩ := hold hr
    obtain ⟨v, hv, hfv⟩ := hold hr'
    obtain ⟨hiu, hsu, hru⟩ := identity_of_fixed hfu.fixed
    obtain ⟨hiv, hsv, hrv⟩ := identity_of_fixed hfv.fixed
    exact h.distinct hu hv (by rw [← hiu, ← hiv, hinstallation]) (by rw [← hsu, ← hsv, ← hru, ← hrv]; exact hids)
  · intro i run pk hrun hpk
    rw [hruns] at hrun
    obtain ⟨row, hrow, haccepted⟩ := h.accepted hrun hpk
    obtain ⟨row', hrow', hf⟩ := hrows.rows hrow
    exact ⟨row', hrow', haccepted.follows hf⟩
  · intro pk row' hrow'
    obtain ⟨row, hrow, -⟩ := hold hrow'
    rw [hruns]
    exact h.origin hrow
  · intro pk row' hrow'
    obtain ⟨row, hrow, hf⟩ := hold hrow'
    rw [hf.createdAt]
    exact (h.created hrow).trans hnow

/-- A step that moves one call and touches at most its own file. -/
theorem Sound.moved (h : s.Sound settings) {id : ℕ} {run : SubmitRun} {phase : SubmitPhase}
    (hrun : s.runs.find id = some run) (hruns : t.runs = s.runs.modify id (SubmitRun.move phase)) (hrows : t.rows = s.rows)
    (hnow : t.now = s.now) (hfiles : ∀ {i}, i ≠ id → t.files i = s.files i)
    (hconsistent : (run.move phase).Consistent settings t id)
    (hin : phase.inTransaction = true → run.phase.inTransaction = true ∨
      s.installationFree run.installation = true ∧ ∀ {pk row}, s.rows.find pk = some row → run.claims row = false)
    (hspool : phase.holdsSpool = true → run.phase.holdsSpool = true ∨ s.spoolFree = true) : t.Sound settings := by
  have hold : ∀ {i u}, t.runs.find i = some u →
      ∃ v, s.runs.find i = some v ∧ u = v.move u.phase ∧ (i ≠ id → u = v) ∧ (i = id → u.phase = phase) := by
    intro i u hu
    rw [hruns] at hu
    exact find_moveRun_old hu
  have hid : ∀ {v}, s.runs.find id = some v → v = run := by
    intro v hv
    rw [hrun] at hv
    exact (Option.some.inj hv).symm
  -- A transaction after the move was one before it, unless it has just taken the free lock.
  have hwas : ∀ {i u v}, s.runs.find i = some v → (i ≠ id → u = v) → (i = id → u.phase = phase) →
      u.phase.inTransaction = true → v.phase.inTransaction = true ∨ i = id ∧ s.installationFree run.installation = true ∧
        ∀ {pk row}, s.rows.find pk = some row → run.claims row = false := by
    intro i u v hv hne heq huin
    by_cases hi : i = id
    · subst hi
      obtain rfl := hid hv
      rw [heq rfl] at huin
      exact (hin huin).imp id fun hfree => ⟨rfl, hfree⟩
    · rw [hne hi] at huin
      exact .inl huin
  constructor
  · intro i u hu
    obtain ⟨v, hv, he, -, -⟩ := hold hu
    have hinspected := h.inspected hv
    rw [he]
    exact hinspected
  · intro i u hu
    obtain ⟨v, hv, he, hne, heq⟩ := hold hu
    by_cases hi : i = id
    · subst hi
      obtain rfl := hid hv
      rw [he, heq rfl]
      exact hconsistent
    · rw [hne hi]
      exact consistent_mono (h.consistent hv) hnow.ge fun _ => hfiles hi
  · intro i j u u' hu hu' hui hui' hinstallation
    obtain ⟨v, hv, he, hne, heq⟩ := hold hu
    obtain ⟨v', hv', he', hne', heq'⟩ := hold hu'
    have hvi : u.installation = v.installation := by rw [he]; rfl
    have hvi' : u'.installation = v'.installation := by rw [he']; rfl
    rcases hwas hv hne heq hui with hvin | ⟨rfl, hfree, -⟩
    · rcases hwas hv' hne' heq' hui' with hvin' | ⟨rfl, hfree, -⟩
      · exact h.installation_lock hv hv' hvin hvin' (by rw [← hvi, ← hvi', hinstallation])
      · obtain rfl := hid hv'
        have hno := Table.any_eq_false.mp (of_decide_eq_true hfree) i v hv
        simp [hvin, ← hvi, ← hvi', hinstallation] at hno
    · by_cases hj : j = i
      · exact hj.symm
      · obtain rfl := hid hv
        have hno := Table.any_eq_false.mp (of_decide_eq_true hfree) j v' hv'
        rw [hne' hj] at hui'
        simp [hui', ← hvi, ← hvi', hinstallation] at hno
  · intro i j u u' hu hu' hui hui'
    obtain ⟨v, hv, he, hne, heq⟩ := hold hu
    obtain ⟨v', hv', he', hne', heq'⟩ := hold hu'
    by_cases hi : i = id
    · by_cases hj : j = id
      · rw [hi, hj]
      · subst hi
        obtain rfl := hid hv
        rw [heq rfl] at hui
        rw [hne' hj] at hui'
        rcases hspool hui with hvs | hfree
        · exact h.spool_lock hv hv' hvs hui'
        · have hno := Table.any_eq_false.mp (of_decide_eq_true hfree) j v' hv'
          simp [hui'] at hno
    · rw [hne hi] at hui
      by_cases hj : j = id
      · subst hj
        obtain rfl := hid hv'
        rw [heq' rfl] at hui'
        rcases hspool hui' with hvs | hfree
        · exact h.spool_lock hv hv' hui hvs
        · have hno := Table.any_eq_false.mp (of_decide_eq_true hfree) i v hv
          simp [hui] at hno
      · rw [hne' hj] at hui'
        exact h.spool_lock hv hv' hui hui'
  · intro i u hu huin pk row hrow
    obtain ⟨v, hv, he, hne, heq⟩ := hold hu
    rw [hrows] at hrow
    have hclaims : u.claims row = v.claims row := by rw [he]; rfl
    rw [hclaims]
    rcases hwas hv hne heq huin with hvin | ⟨rfl, -, hnone⟩
    · exact h.unclaimed hv hvin hrow
    · obtain rfl := hid hv
      exact hnone hrow
  · rw [hrows]
    exact h.distinct
  · intro i u pk hu hpk
    obtain ⟨v, hv, he, -, -⟩ := hold hu
    have hrow : v.row = some pk := by
      rw [he] at hpk
      exact hpk
    obtain ⟨row, hfind, haccepted⟩ := h.accepted hv hrow
    rw [hrows, he]
    exact ⟨row, hfind, haccepted.move _⟩
  · intro pk row hrow
    rw [hrows] at hrow
    obtain ⟨i, v, hv, hpk⟩ := h.origin hrow
    rw [hruns]
    by_cases hi : id = i
    · subst hi
      refine ⟨id, v.move phase, ?_, hpk⟩
      rw [Table.find_modify, if_pos rfl, hv]
      rfl
    · refine ⟨i, v, ?_, hpk⟩
      rw [Table.find_modify, if_neg hi]
      exact hv
  · intro pk row hrow
    rw [hrows] at hrow
    rw [hnow]
    exact h.created hrow

theorem inspectSubmission_ok {directory : Directory} {now : Time} {installation : InstallationId} {envelope : Value}
    {jwe : Jwe} {header : Header}
    (h : inspectSubmission settings directory now installation envelope = .ok (jwe, header)) :
    inspectEnvelope settings envelope = .ok (jwe, header) ∧ header.installationId = uuidText installation := by
  unfold inspectSubmission at h
  simp only [bind_eq_ok, check_eq_ok, pure_eq_ok] at h
  obtain ⟨⟨j, head⟩, hinspect, authorized, -, hscope, -, he⟩ := h
  cases he
  rw [not_or, not_not] at hscope
  exact ⟨hinspect, hscope.1⟩

theorem readmit_ok {directory : Directory} {now : Time} {installation : InstallationId} {header : Header}
    {authorized : Authorized} (h : readmitted directory now installation header = .ok authorized) :
    header.departmentId = uuidText authorized.department ∧ header.stationId = uuidText authorized.station := by
  unfold readmitted at h
  simp only [bind_eq_ok, check_eq_ok, pure_eq_ok] at h
  obtain ⟨granted, -, hscope, -, -, rfl⟩ := h
  rw [not_or, not_not, not_not] at hscope
  exact hscope

/-- A call that is let through found no row with one of its identities. -/
theorem admission_new {run : SubmitRun} {authorized : Authorized} {documentDigest : Text}
    (h : s.admission settings run = .ok (.inr (authorized, documentDigest))) :
    run.Validated settings authorized documentDigest ∧
      ∀ {pk row}, s.rows.find pk = some row → run.claims row = false := by
  unfold admission at h
  simp only [bind_eq_ok] at h
  obtain ⟨granted, hgranted, h⟩ := h
  split at h
  · simp only [check_eq_ok, pure_eq_ok] at h
    cases h.2
  · rename_i hfirst
    simp only [bind_eq_ok, pure_eq_ok] at h
    obtain ⟨package, hpackage, he⟩ := h
    cases he
    obtain ⟨hdepartment, hstation⟩ := readmit_ok hgranted
    exact ⟨⟨hdepartment, hstation, package, hpackage, rfl⟩, fun hrow => Table.first_eq_none.mp hfirst _ _ hrow⟩

/-- A call that has passed its checks begins. -/
theorem Sound.begun (h : s.Sound settings) {run : SubmitRun}
    (hinspected : inspectEnvelope settings run.envelope = .ok (run.jwe, run.header) ∧
      run.header.installationId = uuidText run.installation)
    (hphase : run.phase = .checked) (hrow : run.row = none) : Sound settings { s with runs := s.runs.insert run } := by
  have hold : ∀ {i u}, (s.runs.insert run).find i = some u → u = run ∨ s.runs.find i = some u := by
    intro i u hu
    rw [Table.find_insert] at hu
    split at hu
    · exact .inl (Option.some.inj hu).symm
    · exact .inr hu
  have hin : ∀ {i u}, (s.runs.insert run).find i = some u → u.phase.inTransaction = true → s.runs.find i = some u := by
    intro i u hu huin
    rcases hold hu with rfl | hu
    · rw [hphase] at huin
      cases huin
    · exact hu
  have hspool : ∀ {i u}, (s.runs.insert run).find i = some u → u.phase.holdsSpool = true → s.runs.find i = some u := by
    intro i u hu hus
    rcases hold hu with rfl | hu
    · rw [hphase] at hus
      cases hus
    · exact hu
  constructor
  · intro i u hu
    rcases hold hu with rfl | hu
    · exact hinspected
    · exact h.inspected hu
  · intro i u hu
    rcases hold hu with rfl | hu
    · unfold SubmitRun.Consistent
      rw [hphase]
      exact hrow
    · exact h.consistent hu
  · intro i j u v hu hv hui hvi he
    exact h.installation_lock (hin hu hui) (hin hv hvi) hui hvi he
  · intro i j u v hu hv hui hvi
    exact h.spool_lock (hspool hu hui) (hspool hv hvi) hui hvi
  · intro i u hu hui pk row hrow
    exact h.unclaimed (hin hu hui) hui hrow
  · exact h.distinct
  · intro i u pk hu hpk
    rcases hold hu with rfl | hu
    · rw [hrow] at hpk
      cases hpk
    · exact h.accepted hu hpk
  · intro pk row hrow
    obtain ⟨i, u, hu, hpk⟩ := h.origin hrow
    refine ⟨i, u, ?_, hpk⟩
    show (s.runs.insert run).find i = some u
    rw [Table.find_insert, if_neg (Table.lt_nextId_of_find hu).ne]
    exact hu
  · exact h.created

/-- A call commits its row. -/
theorem Sound.committed (h : s.Sound settings) {id : ℕ} {run : SubmitRun} {row : Submission}
    (hrun : s.runs.find id = some run) (hphase : run.phase = .inserted row) :
    Sound settings { s with
      rows := s.rows.insert row
      runs := s.runs.modify id fun run => { run with phase := .committed row, row := some s.rows.nextId } } := by
  have hin : run.phase.inTransaction = true := by
    rw [hphase]
    rfl
  have hconsistent := h.consistent hrun
  unfold SubmitRun.Consistent at hconsistent
  rw [hphase] at hconsistent
  obtain ⟨-, haccepted, hcreated, -, -⟩ := hconsistent
  have hold : ∀ {i u}, (s.runs.modify id fun run =>
      { run with phase := .committed row, row := some s.rows.nextId }).find i = some u →
        i ≠ id ∧ s.runs.find i = some u ∨
          i = id ∧ u = { run with phase := .committed row, row := some s.rows.nextId } := by
    intro i u hu
    rw [Table.find_modify] at hu
    split at hu
    · rename_i hi
      subst hi
      rw [hrun] at hu
      exact .inr ⟨rfl, (Option.some.inj hu).symm⟩
    · rename_i hi
      exact .inl ⟨fun he => hi he.symm, hu⟩
  have hrows : ∀ {pk r}, (s.rows.insert row).find pk = some r →
      pk = s.rows.nextId ∧ row = r ∨ s.rows.find pk = some r := by
    intro pk r hr
    rw [Table.find_insert] at hr
    split at hr
    · rename_i he
      exact .inl ⟨he, Option.some.inj hr⟩
    · exact .inr hr
  have hkept : ∀ {pk r}, s.rows.find pk = some r → (s.rows.insert row).find pk = some r := by
    intro pk r hr
    rw [Table.find_insert, if_neg (Table.lt_nextId_of_find hr).ne]
    exact hr
  -- The row has the identities of the call.
  have hidentity : row.installation = run.installation ∧ row.submissionId = run.header.submissionId ∧
      row.reportId = run.header.reportId := by
    obtain ⟨authorized, documentDigest, -, hfixed⟩ := haccepted.validated
    exact identity_of_fixed hfixed
  constructor
  · intro i u hu
    rcases hold hu with ⟨-, hu⟩ | ⟨rfl, rfl⟩
    · exact h.inspected hu
    · have hinspected := h.inspected hrun
      exact hinspected
  · intro i u hu
    rcases hold hu with ⟨-, hu⟩ | ⟨rfl, rfl⟩
    · exact consistent_mono (h.consistent hu) le_rfl fun _ => rfl
    · exact trivial
  · intro i j u v hu hv hui hvi he
    rcases hold hu with ⟨-, hu⟩ | ⟨-, rfl⟩
    · rcases hold hv with ⟨-, hv⟩ | ⟨-, rfl⟩
      · exact h.installation_lock hu hv hui hvi he
      · cases hvi
    · cases hui
  · intro i j u v hu hv hui hvi
    rcases hold hu with ⟨-, hu⟩ | ⟨-, rfl⟩
    · rcases hold hv with ⟨-, hv⟩ | ⟨-, rfl⟩
      · exact h.spool_lock hu hv hui hvi
      · cases hvi
    · cases hui
  · intro i u hu hui pk r hr
    rcases hold hu with ⟨hi, hu⟩ | ⟨-, rfl⟩
    · rcases hrows hr with ⟨-, rfl⟩ | hr
      · -- Another open transaction is one of another installation.
        have hother : u.installation ≠ run.installation := fun he => hi (h.installation_lock hu hrun hui hin he)
        simp only [SubmitRun.claims, hidentity.1, decide_eq_false_iff_not, not_and]
        exact fun he => absurd he.symm hother
      · exact h.unclaimed hu hui hr
    · cases hui
  · intro i j r r' hr hr' hinstallation hids
    have hnew : ∀ {pk old}, s.rows.find pk = some old → old.installation = row.installation →
        ¬(old.submissionId = row.submissionId ∨ old.reportId = row.reportId) := by
      intro pk old hold' hsame
      have hclaims := h.unclaimed hrun hin hold'
      simp only [SubmitRun.claims, decide_eq_false_iff_not, not_and] at hclaims
      rw [hidentity.2.1, hidentity.2.2]
      exact hclaims (hsame.trans hidentity.1)
    rcases hrows hr with ⟨rfl, rfl⟩ | hr
    · rcases hrows hr' with ⟨rfl, -⟩ | hr'
      · rfl
      · exact absurd (hids.imp Eq.symm Eq.symm) (hnew hr' hinstallation.symm)
    · rcases hrows hr' with ⟨rfl, rfl⟩ | hr'
      · exact absurd hids (hnew hr hinstallation)
      · exact h.distinct hr hr' hinstallation hids
  · intro i u pk hu hpk
    rcases hold hu with ⟨-, hu⟩ | ⟨rfl, rfl⟩
    · obtain ⟨r, hr, ha⟩ := h.accepted hu hpk
      exact ⟨r, hkept hr, ha⟩
    · cases hpk
      refine ⟨row, by simp, ?_⟩
      obtain ⟨⟨authorized, documentDigest, hvalidated, hfixed⟩, hexpires, hpayload⟩ := haccepted
      exact ⟨⟨authorized, documentDigest, ⟨hvalidated.department, hvalidated.station, hvalidated.package⟩, hfixed⟩,
        hexpires, hpayload⟩
  · intro pk r hr
    rcases hrows hr with ⟨rfl, rfl⟩ | hr
    · refine ⟨id, { run with phase := .committed row, row := some s.rows.nextId }, ?_, rfl⟩
      show (s.runs.modify id _).find id = _
      rw [Table.find_modify, if_pos rfl, hrun]
      rfl
    · obtain ⟨i, u, hu, hpk⟩ := h.origin hr
      have hi : id ≠ i := by
        rintro rfl
        have hcons := h.consistent hrun
        rw [hrun] at hu
        cases hu
        unfold SubmitRun.Consistent at hcons
        rw [hphase] at hcons
        rw [hcons.1] at hpk
        cases hpk
      refine ⟨i, u, ?_, hpk⟩
      show (s.runs.modify id _).find i = _
      rw [Table.find_modify, if_neg hi]
      exact hu
  · intro pk r hr
    rcases hrows hr with ⟨-, rfl⟩ | hr
    · exact hcreated
    · exact h.created hr

theorem rows_refl : Table.Evolve Submission.Follows (fun _ => False) s.rows s.rows :=
  Table.Evolve.refl Submission.Follows.refl

theorem rows_setRow {pk : ℕ} {row row' : Submission} (hrow : s.rows.find pk = some row) (hf : row.Follows row') :
    Table.Evolve Submission.Follows (fun _ => False) s.rows (s.setRow pk row').rows := by
  refine Table.Evolve.modify Submission.Follows.refl fun old hold => ?_
  rw [hrow] at hold
  cases hold
  exact hf

/-- No call is writing while the lock of the spool is free. -/
theorem not_holdsSpool (hfree : s.spoolFree = true) {i : ℕ} {run : SubmitRun} (hrun : s.runs.find i = some run) :
    run.phase.holdsSpool ≠ true := by
  have hno := Table.any_eq_false.mp (of_decide_eq_true hfree) i run hrun
  simp [hno]

theorem inTransaction_of_holdsSpool {phase : SubmitPhase} (h : phase.holdsSpool = true) : phase.inTransaction = true := by
  cases phase <;> first | rfl | cases h

theorem Sound.move (h : s.Sound settings) {a : Action} {id : ℕ} {run : SubmitRun} {phase : SubmitPhase}
    (hrun : s.runs.find id = some run) (hmove : Moves settings s id run a phase) :
    (s.moveRun id phase).Sound settings := by
  have hconsistent := h.consistent hrun
  unfold SubmitRun.Consistent at hconsistent
  refine h.moved hrun rfl rfl rfl (fun _ => rfl) ?_ ?_ ?_
  · cases hmove with
    | validate hphase hfree hadmitted =>
      rw [hphase] at hconsistent
      obtain ⟨hvalidated, -⟩ := admission_new hadmitted
      exact ⟨hconsistent, ⟨hvalidated.department, hvalidated.station, hvalidated.package⟩⟩
    | insert hphase =>
      rw [hphase] at hconsistent
      obtain ⟨hrow, hvalidated, ht, hfile⟩ := hconsistent
      exact ⟨hrow, (hvalidated.accepted ht).move _, le_rfl, rfl, hfile⟩
    | _ => exact trivial
  · intro hin
    cases hmove with
    | validate hphase hfree hadmitted => exact .inr ⟨hfree, (admission_new hadmitted).2⟩
    | insert hphase =>
      rw [hphase]
      exact .inl rfl
    | _ => cases hin
  · intro hspool
    cases hmove with
    | insert hphase =>
      rw [hphase]
      exact .inl rfl
    | _ => cases hspool

theorem sound_step {a : Action} (h : s.Sound settings) (hs : s.step settings a = some t) : t.Sound settings := by
  cases step_taken hs with
  | tick elapsed => exact h.keep rfl rows_refl (Nat.le_add_right _ _) fun _ _ => rfl
  | edit directory => exact h.keep rfl rows_refl le_rfl fun _ _ => rfl
  | begun hinspect => exact h.begun (inspectSubmission_ok hinspect) rfl rfl
  | refused => exact h
  | moved hrun hmove => exact h.move hrun hmove
  | write hrun hphase hfree =>
    have hconsistent := h.consistent hrun
    unfold SubmitRun.Consistent at hconsistent
    rw [hphase] at hconsistent
    refine h.moved hrun rfl rfl rfl (fun hi => Function.update_of_ne hi _ _) ?_ ?_ ?_
    · obtain ⟨hrow, hvalidated⟩ := hconsistent
      exact ⟨hrow, ⟨hvalidated.department, hvalidated.station, hvalidated.package⟩, le_rfl, Function.update_self _ _ _⟩
    · intro _
      rw [hphase]
      exact .inl rfl
    · exact fun _ => .inr hfree
  | failWrite hrun hphase =>
    refine h.moved hrun rfl rfl rfl (fun hi => Function.update_of_ne hi _ _) trivial ?_ ?_
    · intro hin
      cases hin
    · intro hspool
      cases hspool
  | commit hrun hphase => exact h.committed hrun hphase
  | removePayload hrun hphase =>
    refine h.moved hrun rfl rfl rfl (fun hi => Function.update_of_ne hi _ _) trivial ?_ ?_
    · intro hin
      cases hin
    · intro hspool
      cases hspool
  | keepPayload hrun hphase =>
    refine h.moved hrun rfl rfl rfl (fun _ => rfl) trivial ?_ ?_
    · intro hin
      cases hin
    · intro hspool
      cases hspool
  | completeDownload => exact h.keep rfl rows_refl le_rfl fun _ _ => rfl
  | journal => exact h.keep rfl rows_refl le_rfl fun _ _ => rfl
  | record hdownload hrow hphase hrecord =>
    exact h.keep rfl (rows_setRow hrow (follows_record hrecord)) le_rfl fun _ _ => rfl
  | unrecorded => exact h.keep rfl rows_refl le_rfl fun _ _ => rfl
  | unlinkReceipt => exact h.keep rfl rows_refl le_rfl fun _ _ => rfl
  | @reconcile id download row row' unlinked hdownload hrow hrecord =>
    have hset := rows_setRow hrow (follows_record hrecord)
    cases unlinked with
    | true => exact h.keep rfl hset le_rfl fun _ _ => rfl
    | false => exact h.keep rfl hset le_rfl fun _ _ => rfl
  | unreconciled => exact h
  | dropReceipt => exact h.keep rfl rows_refl le_rfl fun _ _ => rfl
  | purge hrow hkey hat hfree hdue hexpired =>
    exact h.keep rfl (rows_setRow hrow (follows_purged _)) le_rfl fun hrun hspool =>
      absurd hspool (not_holdsSpool hfree hrun)
  | purgeInterrupted hrow hkey hfree =>
    exact h.keep rfl rows_refl le_rfl fun hrun hspool => absurd hspool (not_holdsSpool hfree hrun)
  | sweep hfree => exact h.keep rfl rows_refl le_rfl fun hrun hspool => absurd hspool (not_holdsSpool hfree hrun)

theorem sound_init (h : (submissionSystem settings).init s) : s.Sound settings := by
  obtain ⟨hrows, -, hruns, -⟩ := h
  have hrun : ∀ {i : ℕ} {run : SubmitRun}, s.runs.find i ≠ some run := by
    intro i run
    rw [hruns]
    simp [Table.find]
  have hrow : ∀ {pk : ℕ} {row : Submission}, s.rows.find pk ≠ some row := by
    intro pk row
    rw [hrows]
    simp [Table.find]
  constructor
  · exact fun h => absurd h hrun
  · exact fun h => absurd h hrun
  · exact fun h => absurd h hrun
  · exact fun h => absurd h hrun
  · exact fun h => absurd h hrun
  · exact fun h => absurd h hrow
  · exact fun h => absurd h hrun
  · exact fun h => absurd h hrow
  · exact fun h => absurd h hrow

theorem sound_reachable (h : (submissionSystem settings).Reachable s) : s.Sound settings :=
  h.invariant (fun _ => sound_init) fun _ _ _ hI hs => sound_step hI hs

end

end Store
end FireDash.ReportTransfer
