import FireDash.ReportTransfer.Resubmission

/-! The verified payload of a stored row: its own chain of checks accepts exactly the bytes that
were accepted at submission. -/
namespace FireDash.ReportTransfer

open Json (Text Value)
open Publications (Bytes Time)

def integrityFailure : Error := .transfer "report_integrity_failure" 409

/-- `load_verified_payload`. -/
def loadVerifiedPayload (settings : Settings) (files : ℕ → Option Bytes) (row : Submission) :
    Except Error (Value × List Attachment) := do
  if row.documentSchemaVersion ≠ some 1 then
    throw (.transfer "legacy_report_document" 409)
  match row.payloadKey with
  | none => throw (.transfer "report_storage_unavailable" 503)
  | some key =>
    match files key with
    | none => throw .osError
    | some raw =>
      if settings.sha256Hex raw ≠ row.payloadDigest then
        throw integrityFailure
      let (jwe, header) ← inspectEnvelope settings (← parseJson settings raw)
      if header.installationId ≠ uuidText row.installation ∨ header.departmentId ≠ uuidText row.department ∨
          header.stationId ≠ uuidText row.station ∨ header.recipientPersonnelId ≠ row.recipient ∨
          header.submissionId ≠ row.submissionId ∨ header.reportId ≠ row.reportId then
        throw integrityFailure
      let package ← decryptAndValidate settings jwe header
      let reportId ← textField (← asDict package.document) (Json.text "report_id")
      if package.documentDigest ≠ row.documentDigest ∨ reportId ≠ row.reportId then
        throw integrityFailure
      return (package.document, package.attachments)

variable {settings : Settings} {s : Store}

theorem readPackage_reportId {header : Header} {plaintext : Bytes} {package : Package}
    (h : readPackage settings header plaintext = .ok package) : ∃ fields, asDict package.document = .ok fields ∧
      textField fields (Json.text "report_id") = .ok header.reportId := by
  unfold readPackage at h
  simp only [bind_eq_ok, require_eq_ok, pure_eq_ok, Unique.exists_iff] at h
  obtain ⟨value, -, members, -, -, report, -, reported, -, document, -, fields, hdict, attachments, -, listed, -, ids, -,
    references, -, described, -, named, -, -, -, digest, -, reportId, hid, rfl, rfl⟩ := h
  exact ⟨fields, hdict, hid⟩

/-- A decrypted package names the report of its header. -/
theorem decryptAndValidate_reportId {jwe : Jwe} {header : Header} {package : Package}
    (h : decryptAndValidate settings jwe header = .ok package) : ∃ fields, asDict package.document = .ok fields ∧
      textField fields (Json.text "report_id") = .ok header.reportId := by
  unfold decryptAndValidate at h
  split at h
  · cases h
  · split at h
    · cases h
    · simp only [bind_eq_ok] at h
      obtain ⟨wrapped, -, iv, -, ciphertext, -, tag, -, -, -, h⟩ := h
      split at h
      · cases h
      · simp only [bind_eq_ok] at h
        obtain ⟨-, -, h⟩ := h
        split at h
        · cases h
        · exact readPackage_reportId h

/-- The accepted bytes of a row are loaded as the package that was validated. -/
theorem loadVerifiedPayload_accepted {i : ℕ} {run : SubmitRun} {row : Submission} {package : Package}
    {files : ℕ → Option Bytes} (haccepted : run.Accepted settings i row)
    (hinspected : inspectEnvelope settings run.envelope = .ok (run.jwe, run.header) ∧
      run.header.installationId = uuidText run.installation)
    (hdecrypt : decryptAndValidate settings run.jwe run.header = .ok package) (hready : row.state = .ready)
    (hfile : files i = some (canonical settings run.envelope)) :
    loadVerifiedPayload settings files row = .ok (package.document, package.attachments) := by
  obtain ⟨authorized, documentDigest, hvalidated, hfixed⟩ := haccepted.validated
  obtain ⟨package', hpackage', hdigest⟩ := hvalidated.package
  rw [hdecrypt] at hpackage'
  cases hpackage'
  obtain ⟨stored, hparse, hstored⟩ := inspect_stored hinspected.1 hdecrypt
  obtain ⟨fields, hdict, hreport⟩ := decryptAndValidate_reportId hdecrypt
  have hkey : row.payloadKey = some i := by
    rw [haccepted.payload, if_pos hready]
  have hversion : row.fixed.documentSchemaVersion = some 1 := by rw [hfixed]; rfl
  have hdepartment : row.fixed.department = authorized.department := by rw [hfixed]; rfl
  have hstation : row.fixed.station = authorized.station := by rw [hfixed]; rfl
  have hrecipient : row.fixed.recipient = run.header.recipientPersonnelId := by rw [hfixed]; rfl
  have hdocument : row.fixed.documentDigest = documentDigest := by rw [hfixed]; rfl
  obtain ⟨hi, hs, hr, hd⟩ := haccepted.identity
  have hversion : row.documentSchemaVersion = some 1 := hversion
  have hdigested : settings.sha256Hex (canonical settings run.envelope) = row.payloadDigest := hd.symm
  have hscope : run.header.installationId = uuidText row.installation ∧
      run.header.departmentId = uuidText row.department ∧ run.header.stationId = uuidText row.station := by
    refine ⟨hinspected.2.trans (congrArg uuidText hi.symm), ?_, ?_⟩
    · exact hvalidated.department.trans (congrArg uuidText hdepartment.symm)
    · exact hvalidated.station.trans (congrArg uuidText hstation.symm)
  have hrecipient : run.header.recipientPersonnelId = row.recipient := hrecipient.symm
  have hdocument : package.documentDigest = row.documentDigest := hdigest.trans hdocument.symm
  simp only [loadVerifiedPayload, hversion, hkey, hfile, hdigested, hparse, hstored, ok_bind, hscope.1, hscope.2.1,
    hscope.2.2, hrecipient, ← hs, ← hr, hdecrypt, hdict, hreport, hdocument, ne_eq, not_true_eq_false, or_false, if_false]
  rfl

/-- Bytes of another digest are rejected. -/
theorem loadVerifiedPayload_altered {i : ℕ} {run : SubmitRun} {row : Submission} {files : ℕ → Option Bytes} {raw : Bytes}
    (haccepted : run.Accepted settings i row) (hready : row.state = .ready) (hfile : files i = some raw)
    (hdigest : settings.sha256Hex raw ≠ settings.sha256Hex (canonical settings run.envelope)) :
    loadVerifiedPayload settings files row = .error integrityFailure := by
  obtain ⟨authorized, documentDigest, -, hfixed⟩ := haccepted.validated
  have hversion : row.fixed.documentSchemaVersion = some 1 := by rw [hfixed]; rfl
  have hkey : row.payloadKey = some i := by
    rw [haccepted.payload, if_pos hready]
  have hversion : row.documentSchemaVersion = some 1 := hversion
  have hother : settings.sha256Hex raw ≠ row.payloadDigest := by
    rw [haccepted.identity.2.2.2]
    exact hdigest
  simp only [loadVerifiedPayload, hversion, hkey, hfile, ne_eq, not_true_eq_false, if_false, hother, not_false_eq_true,
    if_true]
  rfl

/-- Accepted implies loadable: while its row is ready, the accepted bytes load as exactly the document
and attachments that were validated, and bytes that differ from them are rejected. -/
theorem accepted_loads (h : (submissionSystem settings).Reachable s) {i pk : ℕ} {run : SubmitRun} {row : Submission}
    (hrun : s.runs.find i = some run) (hpk : run.row = some pk) (hrow : s.rows.find pk = some row)
    (hready : row.state = .ready) :
    ∃ package, inspectEnvelope settings run.envelope = .ok (run.jwe, run.header) ∧
      decryptAndValidate settings run.jwe run.header = .ok package ∧ package.documentDigest = row.documentDigest ∧
      row.payloadKey = some i ∧ ∀ files raw, files i = some raw →
        (raw = canonical settings run.envelope →
          loadVerifiedPayload settings files row = .ok (package.document, package.attachments)) ∧
        (raw ≠ canonical settings run.envelope →
          (settings.sha256Hex raw = settings.sha256Hex (canonical settings run.envelope) →
            raw = canonical settings run.envelope) →
          loadVerifiedPayload settings files row = .error integrityFailure) := by
  have hsound := Store.sound_reachable h
  obtain ⟨r, hr, haccepted⟩ := hsound.accepted hrun hpk
  rw [hrow] at hr
  cases hr
  obtain ⟨package, hdecrypt, hdigest⟩ := haccepted.decrypts
  have hinspected := hsound.inspected hrun
  have hkey : row.payloadKey = some i := by
    rw [haccepted.payload, if_pos hready]
  refine ⟨package, hinspected.1, hdecrypt, hdigest, hkey, ?_⟩
  intro files raw hfile
  constructor
  · rintro rfl
    exact loadVerifiedPayload_accepted haccepted hinspected hdecrypt hready hfile
  · intro hne hcollision
    exact loadVerifiedPayload_altered haccepted hready hfile fun he => hne (hcollision he)

/-- The sample report is loaded from its file, and from no other bytes of a different digest. -/
theorem sample_loads : ∃ (s : Store) (run : SubmitRun) (row : Submission) (package : Package), Machine.follow (Store.step sampleSettings) sampleStore
      (accepts 0 sampleSubmission ++ [.respond 0]) = some s ∧ s.runs.find 0 = some run ∧ s.rows.find 0 = some row ∧
    loadVerifiedPayload sampleSettings s.files row = .ok (package.document, package.attachments) ∧
    loadVerifiedPayload sampleSettings (fun _ => some []) row = .error integrityFailure := by
  have hfollow : (Machine.follow (Store.step sampleSettings) sampleStore
      (accepts 0 sampleSubmission ++ [.respond 0])).map
        (fun s => ((s.runs.find 0).map fun u => (u.row, canonical sampleSettings u.envelope),
          (s.rows.find 0).map Submission.state, s.files 0)) =
      some (some (some 0, canonical sampleSettings sampleSubmission), some .ready,
        some (canonical sampleSettings sampleSubmission)) := by decide +kernel
  obtain ⟨s, hs, hfacts⟩ := Option.map_eq_some_iff.mp hfollow
  simp only [Prod.mk.injEq, Option.map_eq_some_iff] at hfacts
  obtain ⟨⟨run, hrun, hpk, hbytes⟩, ⟨row, hrow, hready⟩, hfile⟩ := hfacts
  have hreach := reachable_sampleStore.follow (M := submissionSystem sampleSettings) (fun h => h) hs
  obtain ⟨package, -, -, -, -, hloads⟩ := accepted_loads hreach hrun hpk hrow hready
  have hother : [] ≠ canonical sampleSettings sampleSubmission := by decide +kernel
  have hcollision : sampleHash [] ≠ sampleHash (canonical sampleSettings sampleSubmission) := by decide +kernel
  refine ⟨s, run, row, package, hs, hrun, hrow, (hloads s.files _ hfile).1 hbytes.symm, ?_⟩
  refine (hloads (fun _ => some []) [] rfl).2 (by rw [hbytes]; exact hother) ?_
  rw [hbytes]
  exact fun he => absurd he hcollision

end FireDash.ReportTransfer
