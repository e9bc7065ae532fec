import FireDash.ReportTransfer.Acceptance

/-! Retries: the row of an envelope answers every later submission of the same bytes, and guards
both of its identities against other content. -/
namespace FireDash.ReportTransfer

open Json (Text Value)
open Publications (Bytes Time day)

theorem SubmitRun.Accepted.identity {settings : Settings} {key : ℕ} {run : SubmitRun} {row : Submission}
    (h : run.Accepted settings key row) : row.installation = run.installation ∧
      row.submissionId = run.header.submissionId ∧ row.reportId = run.header.reportId ∧
      row.payloadDigest = run.digest settings := by
  obtain ⟨authorized, documentDigest, -, hfixed⟩ := h.validated
  obtain ⟨hi, hs, hr⟩ := identity_of_fixed hfixed
  have hd : row.fixed.payloadDigest = run.digest settings := by rw [hfixed]; rfl
  exact ⟨hi, hs, hr, hd⟩

theorem SubmitRun.Accepted.decrypts {settings : Settings} {key : ℕ} {run : SubmitRun} {row : Submission}
    (h : run.Accepted settings key row) : ∃ package, decryptAndValidate settings run.jwe run.header = .ok package ∧
      package.documentDigest = row.documentDigest := by
  obtain ⟨authorized, documentDigest, hvalidated, hfixed⟩ := h.validated
  obtain ⟨package, hpackage, hdigest⟩ := hvalidated.package
  have hd : row.fixed.documentDigest = documentDigest := by rw [hfixed]; rfl
  exact ⟨package, hpackage, hdigest.trans hd.symm⟩

namespace Store

/-- What a call answers once it holds the lock of its installation. -/
def reply (s : Store) (run : SubmitRun) (outcome : Except Error (Result × Bool)) : Except Error (Result × Bool) :=
  match readmitted s.directory s.now run.installation run.header with
  | .ok _ => outcome
  | .error e => .error e

section

variable {settings : Settings} {s t : Store} {id : ℕ} {run : SubmitRun}

/-- A call that finds a row answers from it. -/
theorem step_enter_existing {pk : ℕ} {existing : Submission} (hrun : s.runs.find id = some run)
    (hfirst : s.rows.first run.claims = some (pk, existing)) (hs : s.step settings (.enter id) = some t) :
    t = s.moveRun id (.answered (s.reply run
      (if existing.submissionId ≠ run.header.submissionId ∨ existing.payloadDigest ≠ run.digest settings then
        .error idempotencyConflict
      else .ok (result existing (s.completions pk) s.now, false)))) := by
  have hadmitted : s.admission settings run = match readmitted s.directory s.now run.installation run.header with
      | .error e => .error e
      | .ok _ =>
        if existing.submissionId ≠ run.header.submissionId ∨ existing.payloadDigest ≠ run.digest settings then
          .error idempotencyConflict
        else .ok (.inl (result existing (s.completions pk) s.now)) := by
    unfold admission
    cases readmitted s.directory s.now run.installation run.header with
    | error e => rfl
    | ok authorized =>
      simp only [ok_bind, hfirst]
      split_ifs <;> rfl
  unfold reply
  simp only [step, hrun, Option.bind_eq_bind, Option.bind_some] at hs
  split at hs
  · rw [Option.ite_none_right_eq_some, hadmitted] at hs
    obtain ⟨-, hs⟩ := hs
    cases hreadmitted : readmitted s.directory s.now run.installation run.header with
    | error e =>
      simp only [hreadmitted, Option.some.injEq] at hs
      exact hs.symm
    | ok authorized =>
      simp only [hreadmitted] at hs
      by_cases hconflict : existing.submissionId ≠ run.header.submissionId ∨ existing.payloadDigest ≠ run.digest settings
      · simp only [if_pos hconflict, Option.some.injEq] at hs ⊢
        exact hs.symm
      · simp only [if_neg hconflict, Option.some.injEq] at hs ⊢
        exact hs.symm
  · cases hs

/-- The only row with an identity of a call is found by it. -/
theorem Sound.first_claims (h : s.Sound settings) {pk : ℕ} {row : Submission} (hrow : s.rows.find pk = some row)
    (hinstallation : row.installation = run.installation) (hsubmission : row.submissionId = run.header.submissionId)
    (hreport : row.reportId = run.header.reportId) : s.rows.first run.claims = some (pk, row) := by
  cases hfirst : s.rows.first run.claims with
  | none =>
    have hno := Table.first_eq_none.mp hfirst pk row hrow
    simp [SubmitRun.claims, hinstallation, hsubmission] at hno
  | some found =>
    obtain ⟨pk', existing⟩ := found
    obtain ⟨hfind, hclaims⟩ := Table.first_eq_some hfirst
    simp only [SubmitRun.claims, decide_eq_true_eq] at hclaims
    have hsame : pk' = pk := by
      refine h.distinct hfind hrow (hclaims.1.trans hinstallation.symm) ?_
      rw [hsubmission, hreport]
      exact hclaims.2
    subst hsame
    rw [hrow] at hfind
    cases hfind
    rfl

/-- The same bytes have the same header. -/
theorem Sound.header_eq (h : s.Sound settings) {first pk : ℕ} {u : SubmitRun} (hfirst : s.runs.find first = some u)
    (hpk : u.row = some pk) (hrun : s.runs.find id = some run)
    (hbytes : canonical settings run.envelope = canonical settings u.envelope) : run.header = u.header := by
  obtain ⟨row, -, haccepted⟩ := h.accepted hfirst hpk
  obtain ⟨package, hpackage, -⟩ := haccepted.decrypts
  exact (inspected_of_canonical (h.inspected hrun).1 (h.inspected hfirst).1 hpackage hbytes).2

/-- A call that submits the bytes of a row again. -/
theorem Sound.resubmitted (h : s.Sound settings) {first pk : ℕ} {u : SubmitRun} {row : Submission}
    (hfirst : s.runs.find first = some u) (hpk : u.row = some pk) (hrow : s.rows.find pk = some row)
    (hrun : s.runs.find id = some run) (hinstallation : run.installation = u.installation)
    (hbytes : canonical settings run.envelope = canonical settings u.envelope)
    (hs : s.step settings (.enter id) = some t) :
    t = s.moveRun id (.answered (s.reply run (.ok (result row (s.completions pk) s.now, false)))) := by
  obtain ⟨row', hrow', haccepted⟩ := h.accepted hfirst hpk
  rw [hrow] at hrow'
  cases hrow'
  obtain ⟨hi, hsub, hrep, hdigest⟩ := haccepted.identity
  have hheader := h.header_eq hfirst hpk hrun hbytes
  have hfound := h.first_claims hrow (hi.trans hinstallation.symm) (hsub.trans (by rw [hheader]))
    (hrep.trans (by rw [hheader]))
  rw [step_enter_existing hrun hfound hs, if_neg]
  rw [not_or, not_not, not_not]
  refine ⟨hsub.trans (by rw [hheader]), ?_⟩
  rw [hdigest]
  unfold SubmitRun.digest
  rw [hbytes]

/-- A call that reuses an identity of a row for other bytes. -/
theorem Sound.conflicting (h : s.Sound settings) {first pk : ℕ} {u : SubmitRun} {row : Submission}
    (hfirst : s.runs.find first = some u) (hpk : u.row = some pk) (hrow : s.rows.find pk = some row)
    (hrun : s.runs.find id = some run) (hclaims : run.claims row = true)
    (hdistinct : ∀ {i v}, s.runs.find i = some v → v.row ≠ none → run.digest settings = v.digest settings →
      canonical settings run.envelope = canonical settings v.envelope)
    (hbytes : canonical settings run.envelope ≠ canonical settings u.envelope)
    (hs : s.step settings (.enter id) = some t) :
    t = s.moveRun id (.answered (s.reply run (.error idempotencyConflict))) := by
  cases hfound : s.rows.first run.claims with
  | none =>
    rw [Table.first_eq_none.mp hfound pk row hrow] at hclaims
    cases hclaims
  | some found =>
    obtain ⟨pk', existing⟩ := found
    rw [step_enter_existing hrun hfound hs]
    by_cases hsame : existing.submissionId = run.header.submissionId ∧ existing.payloadDigest = run.digest settings
    · exfalso
      obtain ⟨hfind, -⟩ := Table.first_eq_some hfound
      obtain ⟨j, v, hv, hvpk⟩ := h.origin hfind
      obtain ⟨existing', hfind', haccepted⟩ := h.accepted hv hvpk
      rw [hfind] at hfind'
      cases hfind'
      obtain ⟨hvi, hvs, hvr, hvd⟩ := haccepted.identity
      have hvbytes := hdistinct hv (by rw [hvpk]; exact Option.some_ne_none _) (hsame.2.symm.trans hvd)
      have hheader := h.header_eq hv hvpk hrun hvbytes
      -- The row found holds these very bytes, so it has both identities and is the given row.
      have hpks : pk' = pk := by
        simp only [SubmitRun.claims, decide_eq_true_eq] at hclaims
        refine h.distinct hfind hrow ?_ ?_
        · obtain ⟨-, hexisting⟩ := Table.first_eq_some hfound
          simp only [SubmitRun.claims, decide_eq_true_eq] at hexisting
          exact hexisting.1.trans hclaims.1.symm
        · rw [hvs, hvr, ← hheader]
          exact hclaims.2.imp Eq.symm Eq.symm
      subst hpks
      obtain ⟨row', hrow', haccepted'⟩ := h.accepted hfirst hpk
      rw [hfind] at hrow'
      cases hrow'
      have hud := haccepted'.identity.2.2.2
      exact hbytes (hdistinct hfirst (by rw [hpk]; exact Option.some_ne_none _) (hsame.2.symm.trans hud))
    · rw [not_and_or] at hsame
      rw [if_pos hsame]

end

end Store

/-- Submission is exactly once per installation: no two rows share an identity, the bytes of a row
are answered from it, other bytes under one of its identities are a conflict, and neither answer
touches rows or files. -/
theorem submission_exactly_once {settings : Settings} {s : Store} (h : (submissionSystem settings).Reachable s) :
    (∀ {i j r r'}, s.rows.find i = some r → s.rows.find j = some r' → r.installation = r'.installation →
      r.submissionId = r'.submissionId ∨ r.reportId = r'.reportId → i = j) ∧
    ∀ {first pk id u run row t}, s.runs.find first = some u → u.row = some pk → s.rows.find pk = some row →
      s.runs.find id = some run → s.step settings (.enter id) = some t →
      (run.installation = u.installation → canonical settings run.envelope = canonical settings u.envelope →
        t = s.moveRun id (.answered (s.reply run (.ok (result row (s.completions pk) s.now, false))))) ∧
      (run.claims row = true →
        (∀ {i v}, s.runs.find i = some v → v.row ≠ none → run.digest settings = v.digest settings →
          canonical settings run.envelope = canonical settings v.envelope) →
        canonical settings run.envelope ≠ canonical settings u.envelope →
        t = s.moveRun id (.answered (s.reply run (.error idempotencyConflict)))) := by
  have hsound := Store.sound_reachable h
  refine ⟨hsound.distinct, ?_⟩
  intro first pk id u run row t hfirst hpk hrow hrun hs
  constructor
  · intro hinstallation hbytes
    exact hsound.resubmitted hfirst hpk hrow hrun hinstallation hbytes hs
  · intro hclaims hdistinct hbytes
    exact hsound.conflicting hfirst hpk hrow hrun hclaims hdistinct hbytes hs

/-! ### A report submitted twice -/

def sampleSubmission : Value := sampleEnvelope (uuidText 5) (uuidText 6) "Fire"

/-- The calls that hold an answer, with it. -/
def Store.answer (s : Store) (id : ℕ) : Option (Result × Bool) := do
  let run ← s.runs.find id
  match run.phase with
  | .answered (.ok answer) => some answer
  | _ => none

set_option synthInstance.maxSize 1000 in
theorem resubmitted_again : ∃ s t u run row, (submissionSystem sampleSettings).Reachable s ∧ s.runs.find 0 = some u ∧
    s.runs.find 1 = some run ∧ s.rows.find 0 = some row ∧ s.step sampleSettings (.enter 1) = some t ∧
    t = s.moveRun 1 (.answered (s.reply run (.ok (result row (s.completions 0) s.now, false)))) := by
  have hfollow : (Machine.follow (Store.step sampleSettings) sampleStore
      (accepts 0 sampleSubmission ++ [.respond 0, .begin 0 sampleSubmission])).map
        (fun s => ((s.runs.find 0).map fun u => (u.installation, u.row, canonical sampleSettings u.envelope),
          (s.runs.find 1).map fun v => (v.installation, canonical sampleSettings v.envelope),
          (s.rows.find 0).isSome, (s.step sampleSettings (.enter 1)).isSome)) =
      some (some (0, some 0, canonical sampleSettings sampleSubmission),
        some (0, canonical sampleSettings sampleSubmission), true, true) := by decide +kernel
  obtain ⟨s, hs, hfacts⟩ := Option.map_eq_some_iff.mp hfollow
  simp only [Prod.mk.injEq, Option.map_eq_some_iff] at hfacts
  obtain ⟨⟨u, hu, hui, hpk, hub⟩, ⟨run, hrun, hri, hrb⟩, hrow, hstep⟩ := hfacts
  obtain ⟨row, hrow⟩ := Option.isSome_iff_exists.mp hrow
  obtain ⟨t, ht⟩ := Option.isSome_iff_exists.mp hstep
  have hreach := reachable_sampleStore.follow (M := submissionSystem sampleSettings) (fun h => h) hs
  exact ⟨s, t, u, run, row, hreach, hu, hrun, hrow, ht,
    ((submission_exactly_once hreach).2 hu hpk hrow hrun ht).1 (hri.trans hui.symm) (hrb.trans hub.symm)⟩

set_option synthInstance.maxSize 1000 in
/-- After seven days the same bytes are answered with the expired state. -/
theorem resubmitted_after_expiry : ¬∀ s, (submissionSystem sampleSettings).Reachable s →
    ∀ i j u v, s.runs.find i = some u → s.runs.find j = some v → u.installation = v.installation →
      canonical sampleSettings u.envelope = canonical sampleSettings v.envelope →
      ∀ r r', s.answer i = some (r, true) → s.answer j = some (r', false) → r' = r := by
  intro hall
  have hfollow : (Machine.follow (Store.step sampleSettings) sampleStore
      (accepts 0 sampleSubmission ++ [.respond 0, .tick (7 * day), .begin 0 sampleSubmission, .enter 1])).map
        (fun s => ((s.runs.find 0).map fun u => (u.installation, canonical sampleSettings u.envelope),
          (s.runs.find 1).map fun v => (v.installation, canonical sampleSettings v.envelope), s.answer 0, s.answer 1)) =
      some (some (0, canonical sampleSettings sampleSubmission), some (0, canonical sampleSettings sampleSubmission),
        some (⟨uuidText 5, uuidText 6, .ready, 7 * day⟩, true), some (⟨uuidText 5, uuidText 6, .expired, 7 * day⟩, false)) := by
    decide +kernel
  obtain ⟨s, hs, hfacts⟩ := Option.map_eq_some_iff.mp hfollow
  simp only [Prod.mk.injEq, Option.map_eq_some_iff] at hfacts
  obtain ⟨⟨u, hu, hui, hub⟩, ⟨v, hv, hvi, hvb⟩, hfirst, hsecond⟩ := hfacts
  have hreach := reachable_sampleStore.follow (M := submissionSystem sampleSettings) (fun h => h) hs
  have hsame := hall s hreach 0 1 u v hu hv (hui.trans hvi.symm) (hub.trans hvb.symm) _ _ hfirst hsecond
  cases hsame

end FireDash.ReportTransfer
