import FireDash.ReportTransfer.Resubmission

/-! The deadline of a submission over its whole life: downloads, receipts and cleanups may only
bring it forward while the submission is ready. -/
namespace FireDash.ReportTransfer

open Json (Text Value)
open Publications (Bytes Time day)

/-- The row records a download at the moment or before. -/
def Submission.RecordedBy (row : Submission) (t : Time) : Prop := ∃ first ∈ row.firstDownloadAt, first ≤ t

/-- What a row becomes as time passes; an expired one stays as it is. -/
structure Submission.Ages (row row' : Submission) : Prop where
  createdAt : row'.createdAt = row.createdAt
  expiresAt : row'.expiresAt ≤ row.expiresAt
  recorded : ∀ {t}, row.RecordedBy t → row'.RecordedBy t
  expired : row.state = .expired → row' = row

theorem Submission.Ages.refl (row : Submission) : row.Ages row := ⟨rfl, le_rfl, id, fun _ => rfl⟩

theorem Submission.Ages.trans {a b c : Submission} (h : a.Ages b) (h' : b.Ages c) : a.Ages c where
  createdAt := h'.createdAt.trans h.createdAt
  expiresAt := h'.expiresAt.trans h.expiresAt
  recorded ht := h'.recorded (h.recorded ht)
  expired he := by
    have hb := h.expired he
    subst hb
    exact h'.expired he

theorem ages_record {row row' : Submission} {completions : List Time} {completedAt now : Time}
    (h : recordSuccessfulDownload row completions completedAt now = .ok row') :
    row.Ages row' ∧ row'.RecordedBy completedAt := by
  obtain ⟨hstate, -, -, -, first, hold, hle, -, -, rfl⟩ := recordSuccessfulDownload_ok h
  refine ⟨⟨rfl, effectiveExpiry_le_expiresAt _ _, ?_, ?_⟩, first, rfl, hle⟩
  · rintro t ⟨f, hf, ht⟩
    exact ⟨first, rfl, (hold f hf).trans ht⟩
  · intro he
    rw [hstate] at he
    cases he

theorem ages_purged {row : Submission} {t : Time} (h : row.isDue t = true) :
    row.Ages row.purged ∧ row.purged.deadline ≤ t := by
  simp only [Submission.isDue, decide_eq_true_eq, Option.mem_def] at h
  obtain ⟨hstate, hdue⟩ := h
  refine ⟨⟨rfl, le_rfl, id, ?_⟩, ?_⟩
  · intro he
    rw [hstate] at he
    cases he
  · obtain ⟨hexpires, hweek, hfirst⟩ := le_deadline.mp (le_refl row.purged.deadline)
    rcases hdue with hdue | hdue | ⟨first, hf, hdue⟩
    · exact hexpires.trans hdue
    · exact hweek.trans hdue
    · exact (hfirst first hf).trans hdue

/-- A download beside its row: its receipt is removed only once the row records it or is expired. -/
structure Download.Kept (row : Submission) (d : Download) : Prop where
  createdAt_le : row.createdAt ≤ d.completedAt
  fresh : d.phase = .completed → d.receipt = false
  recorded : d.phase = .recorded → row.RecordedBy d.completedAt
  written : d.written = true → row.state = .ready → d.receipt = true ∨ row.RecordedBy d.completedAt

theorem Download.Kept.ages {row row' : Submission} {d : Download} (h : d.Kept row) (hages : row.Ages row') : d.Kept row' where
  createdAt_le := by
    rw [hages.createdAt]
    exact h.createdAt_le
  fresh := h.fresh
  recorded hphase := hages.recorded (h.recorded hphase)
  written hwritten hready := by
    have hold : row.state = .ready := by
      cases hstate : row.state with
      | ready => rfl
      | expired =>
        rw [hages.expired hstate, hstate] at hready
        cases hready
    exact (h.written hwritten hold).imp id hages.recorded

namespace Store

section

variable {settings : Settings} {s t u : Store} {pk id : ℕ} {row row' : Submission} {c : Time}

theorem mem_completions : c ∈ s.completions pk ↔
    ∃ i d, s.downloads.find i = some d ∧ d.receipt = true ∧ d.submission = pk ∧ d.completedAt = c := by
  unfold completions pendingDownloads
  simp only [List.mem_map, List.mem_filter, decide_eq_true_eq]
  constructor
  · rintro ⟨d, ⟨hd, hreceipt, hpk⟩, hc⟩
    obtain ⟨i, hi⟩ := List.mem_iff_getElem?.mp hd
    exact ⟨i, d, hi, hreceipt, hpk, hc⟩
  · rintro ⟨i, d, hi, hreceipt, hpk, hc⟩
    exact ⟨d, ⟨List.mem_of_getElem? hi, hreceipt, hpk⟩, hc⟩

theorem expiry_le_deadline (s : Store) (pk : ℕ) (row : Submission) : s.expiry pk row ≤ row.deadline := by
  rw [le_deadline]
  obtain ⟨hexpires, hweek, hfirst, -⟩ := le_effectiveExpiry.mp (le_refl (s.expiry pk row))
  exact ⟨hexpires, hweek, hfirst⟩

theorem expiry_le_recorded (h : row.RecordedBy c) : s.expiry pk row ≤ c + 48 * hour := by
  obtain ⟨first, hf, hle⟩ := h
  exact (effectiveExpiry_le_first hf).trans (Nat.add_le_add_right hle _)

/-- The deadline does not move back where no completion is lost. -/
theorem expiry_mono (h : row.Ages row') (hc : ∀ {c}, c ∈ s.completions pk → c ∈ t.completions pk ∨ row'.RecordedBy c) :
    t.expiry pk row' ≤ s.expiry pk row := by
  refine le_effectiveExpiry.mpr ⟨?_, ?_, ?_, ?_⟩
  · exact (effectiveExpiry_le_expiresAt _ _).trans h.expiresAt
  · rw [← h.createdAt]
    exact effectiveExpiry_le_week _ _
  · intro first hf
    exact expiry_le_recorded (h.recorded ⟨first, hf, le_rfl⟩)
  · intro c hmem hafter
    rcases hc hmem with hmem | hrecorded
    · exact effectiveExpiry_le_completion hmem (by rw [h.createdAt]; exact hafter)
    · exact expiry_le_recorded hrecorded

/-! ### Downloads and their receipts -/

structure Journaled (s : Store) : Prop where
  kept : ∀ {i d}, s.downloads.find i = some d → ∃ row, s.rows.find d.submission = some row ∧ d.Kept row
  expired : ∀ {pk row}, s.rows.find pk = some row → row.state = .expired → row.deadline ≤ s.now

/-- What a step does to the deadlines. -/
structure Aged (s t : Store) : Prop where
  rows : Table.Evolve Submission.Ages (fun _ => True) s.rows t.rows
  completions : ∀ {pk row row' c}, s.rows.find pk = some row → t.rows.find pk = some row' → row'.state = .ready →
    c ∈ s.completions pk → c ∈ t.completions pk ∨ row'.RecordedBy c
  now : s.now ≤ t.now

theorem Journaled.next (h : s.Journaled) (hnow : s.now ≤ t.now)
    (hkept : ∀ {i d}, t.downloads.find i = some d → ∃ row, t.rows.find d.submission = some row ∧ d.Kept row)
    (hexpired : ∀ {pk row}, t.rows.find pk = some row → row.state = .expired →
      s.rows.find pk = some row ∨ row.deadline ≤ t.now) : t.Journaled where
  kept := hkept
  expired hrow hstate := by
    rcases hexpired hrow hstate with hold | hle
    · exact (h.expired hold hstate).trans hnow
    · exact hle

/-- A download that a step leaves alone. -/
theorem Journaled.download (h : s.Journaled) (hrows : Table.Evolve Submission.Ages (fun _ => True) s.rows t.rows)
    {i : ℕ} {d : Download} (hd : s.downloads.find i = some d) : ∃ row, t.rows.find d.submission = some row ∧ d.Kept row := by
  obtain ⟨old, hold, hkept⟩ := h.kept hd
  obtain ⟨new, hnew, hages⟩ := hrows.rows hold
  exact ⟨new, hnew, hkept.ages hages⟩

/-- A step that leaves the downloads alone. -/
theorem Journaled.keep (h : s.Journaled) (hdownloads : t.downloads = s.downloads)
    (hrows : Table.Evolve Submission.Ages (fun _ => True) s.rows t.rows) (hnow : s.now ≤ t.now)
    (hexpired : ∀ {pk row}, t.rows.find pk = some row → row.state = .expired →
      s.rows.find pk = some row ∨ row.deadline ≤ t.now) : t.Journaled ∧ s.Aged t := by
  refine ⟨h.next hnow ?_ hexpired, hrows, ?_, hnow⟩
  · intro i d hd
    rw [hdownloads] at hd
    exact h.download hrows hd
  · intro pk row row' c _ _ _ hc
    refine .inl ?_
    unfold Store.completions at hc ⊢
    rw [hdownloads]
    exact hc

/-- A step that rewrites one download, for the same completion. -/
theorem Journaled.set (h : s.Journaled) {d : Download} {f : Download → Download}
    (hdownloads : t.downloads = s.downloads.modify id f) (hd : s.downloads.find id = some d)
    (hrows : Table.Evolve Submission.Ages (fun _ => True) s.rows t.rows) (hnow : s.now ≤ t.now)
    (hsame : (f d).submission = d.submission ∧ (f d).completedAt = d.completedAt)
    (hkept : ∀ {row}, t.rows.find d.submission = some row → d.Kept row → (f d).Kept row ∧
      (d.receipt = true → row.state = .ready → (f d).receipt = true ∨ row.RecordedBy d.completedAt))
    (hexpired : ∀ {pk row}, t.rows.find pk = some row → row.state = .expired → s.rows.find pk = some row) :
    t.Journaled ∧ s.Aged t := by
  have hself : t.downloads.find id = some (f d) := by
    rw [hdownloads, Table.find_modify, if_pos rfl, hd]
    rfl
  obtain ⟨row, hrow, hd'⟩ := h.download hrows hd
  refine ⟨h.next hnow ?_ fun hrow hstate => .inl (hexpired hrow hstate), hrows, ?_, hnow⟩
  · intro i e he
    by_cases hi : id = i
    · subst hi
      rw [hself] at he
      cases he
      rw [hsame.1]
      exact ⟨row, hrow, (hkept hrow hd').1⟩
    · rw [hdownloads, Table.find_modify, if_neg hi] at he
      exact h.download hrows he
  · intro pk old r c _ hr hready hc
    rw [mem_completions] at hc
    obtain ⟨i, e, he, hreceipt, hpk, hce⟩ := hc
    by_cases hi : id = i
    · subst hi
      rw [hd] at he
      cases he
      rw [← hpk, hrow] at hr
      cases hr
      rw [← hce]
      rcases (hkept hrow hd').2 hreceipt hready with hleft | hrec
      · exact .inl (mem_completions.mpr ⟨id, f d, hself, hleft, hsame.1.trans hpk, hsame.2⟩)
      · exact .inr hrec
    · refine .inl (mem_completions.mpr ⟨i, e, ?_, hreceipt, hpk, hce⟩)
      rw [hdownloads, Table.find_modify, if_neg hi]
      exact he

theorem ages_refl : Table.Evolve Submission.Ages (fun _ => True) s.rows s.rows :=
  Table.Evolve.refl Submission.Ages.refl

theorem ages_setRow (hrow : s.rows.find pk = some row) (hages : row.Ages row') :
    Table.Evolve Submission.Ages (fun _ => True) s.rows (s.setRow pk row').rows := by
  refine Table.Evolve.modify Submission.Ages.refl fun old hold => ?_
  rw [hrow] at hold
  cases hold
  exact hages

theorem find_setRow (hrow : s.rows.find pk = some row) {j : ℕ} {r : Submission}
    (hr : (s.setRow pk row').rows.find j = some r) : j ≠ pk ∧ s.rows.find j = some r ∨ j = pk ∧ r = row' := by
  have hr : (s.rows.modify pk fun _ => row').find j = some r := hr
  rw [Table.find_modify] at hr
  split at hr
  · rename_i hj
    subst hj
    rw [hrow] at hr
    exact .inr ⟨rfl, (Option.some.inj hr).symm⟩
  · rename_i hj
    exact .inl ⟨fun he => hj he.symm, hr⟩

/-! ### Every step -/

theorem Journaled.insert (h : s.Journaled) (hrow : s.rows.find pk = some row) (hcreated : row.createdAt ≤ s.now) :
    Journaled { s with downloads := s.downloads.insert { submission := pk, completedAt := s.now } } ∧
      s.Aged { s with downloads := s.downloads.insert { submission := pk, completedAt := s.now } } := by
  refine ⟨h.next le_rfl ?_ fun hr _ => .inl hr, ages_refl, ?_, le_rfl⟩
  · intro i d hd
    have hd : (s.downloads.insert { submission := pk, completedAt := s.now }).find i = some d := hd
    rw [Table.find_insert] at hd
    split at hd
    · cases hd
      exact ⟨row, hrow, hcreated, fun _ => rfl, nofun, nofun⟩
    · exact h.kept hd
  · intro pk' old r c _ _ _ hc
    rw [mem_completions] at hc
    obtain ⟨i, d, hd, hr, hpk, hdc⟩ := hc
    refine .inl (mem_completions.mpr ⟨i, d, ?_, hr, hpk, hdc⟩)
    show (s.downloads.insert _).find i = some d
    rw [Table.find_insert, if_neg (Table.lt_nextId_of_find hd).ne]
    exact hd

/-- A row that is expired after an update of another one, or of a ready one to a ready one, was so
before. -/
theorem expired_setRow (hrow : s.rows.find pk = some row) (hready : row'.state = .ready) {j : ℕ} {r : Submission}
    (hr : (s.setRow pk row').rows.find j = some r) (hstate : r.state = .expired) : s.rows.find j = some r := by
  rcases find_setRow hrow hr with ⟨-, hr⟩ | ⟨-, rfl⟩
  · exact hr
  · rw [hready] at hstate
    cases hstate

theorem find_setRow_self (hrow : s.rows.find pk = some row) : (s.setRow pk row').rows.find pk = some row' := by
  show (s.rows.modify pk fun _ => row').find pk = _
  rw [Table.find_modify, if_pos rfl, hrow]
  rfl

theorem recorded_ready {completions : List Time} {completedAt now : Time}
    (h : recordSuccessfulDownload row completions completedAt now = .ok row') : row'.state = .ready := by
  obtain ⟨hstate, -, -, -, first, -, -, -, -, rfl⟩ := recordSuccessfulDownload_ok h
  exact hstate

theorem journaled_step {a : Action} (hsound : s.Sound settings) (h : s.Journaled) (hs : s.step settings a = some t) :
    t.Journaled ∧ s.Aged t := by
  cases step_taken hs with
  | tick elapsed => exact h.keep rfl ages_refl (Nat.le_add_right _ _) fun hr _ => .inl hr
  | edit directory => exact h.keep rfl ages_refl le_rfl fun hr _ => .inl hr
  | begun => exact h.keep rfl ages_refl le_rfl fun hr _ => .inl hr
  | refused => exact h.keep rfl ages_refl le_rfl fun hr _ => .inl hr
  | moved => exact h.keep rfl ages_refl le_rfl fun hr _ => .inl hr
  | write => exact h.keep rfl ages_refl le_rfl fun hr _ => .inl hr
  | failWrite => exact h.keep rfl ages_refl le_rfl fun hr _ => .inl hr
  | @commit id run row hrun hphase =>
    have hconsistent := hsound.consistent hrun
    unfold SubmitRun.Consistent at hconsistent
    rw [hphase] at hconsistent
    obtain ⟨-, -, -, hready, -⟩ := hconsistent
    refine h.keep rfl (Table.Evolve.insert Submission.Ages.refl trivial) le_rfl fun {j r} hr hstate => ?_
    have hr : (s.rows.insert row).find j = some r := hr
    rw [Table.find_insert] at hr
    split at hr
    · cases hr
      rw [hready] at hstate
      cases hstate
    · exact .inl hr
  | removePayload => exact h.keep rfl ages_refl le_rfl fun hr _ => .inl hr
  | keepPayload => exact h.keep rfl ages_refl le_rfl fun hr _ => .inl hr
  | completeDownload hrow => exact h.insert hrow (hsound.created hrow)
  | @journal id download written hdownload hphase =>
    refine h.set rfl hdownload ages_refl le_rfl ⟨rfl, rfl⟩ ?_ fun hr _ => hr
    intro row hrow hkept
    refine ⟨⟨hkept.createdAt_le, nofun, nofun, fun hwritten _ => .inl hwritten⟩, ?_⟩
    intro hreceipt
    rw [hkept.fresh hphase] at hreceipt
    cases hreceipt
  | record hdownload hrow hphase hrecord =>
    obtain ⟨hages, hrec⟩ := ages_record hrecord
    refine h.set rfl hdownload (ages_setRow hrow hages) le_rfl ⟨rfl, rfl⟩ ?_ (expired_setRow hrow (recorded_ready hrecord))
    intro r hr hkept
    have hr := (find_setRow_self hrow).symm.trans hr
    cases hr
    exact ⟨⟨hkept.createdAt_le, nofun, fun _ => hrec, fun _ _ => .inr hrec⟩, fun hreceipt _ => .inl hreceipt⟩
  | unrecorded hdownload hphase =>
    refine h.set rfl hdownload ages_refl le_rfl ⟨rfl, rfl⟩ ?_ fun hr _ => hr
    intro row hrow hkept
    exact ⟨⟨hkept.createdAt_le, nofun, nofun, hkept.written⟩, fun hreceipt _ => .inl hreceipt⟩
  | unlinkReceipt hdownload hphase =>
    refine h.set rfl hdownload ages_refl le_rfl ⟨rfl, rfl⟩ ?_ fun hr _ => hr
    intro row hrow hkept
    have hrec := hkept.recorded hphase
    exact ⟨⟨hkept.createdAt_le, nofun, nofun, fun _ _ => .inr hrec⟩, fun _ _ => .inr hrec⟩
  | @reconcile id download row row' unlinked hdownload hrow hrecord =>
    obtain ⟨hages, hrec⟩ := ages_record hrecord
    have hset := ages_setRow hrow hages
    have hexpired : ∀ {j r}, (s.setRow download.submission row').rows.find j = some r → r.state = .expired →
        s.rows.find j = some r := expired_setRow hrow (recorded_ready hrecord)
    cases unlinked with
    | true =>
      refine h.set rfl hdownload hset le_rfl ⟨rfl, rfl⟩ ?_ hexpired
      intro r hr hkept
      have hr := (find_setRow_self hrow).symm.trans hr
      cases hr
      exact ⟨⟨hkept.createdAt_le, fun _ => rfl, fun _ => hrec, fun _ _ => .inr hrec⟩, fun _ _ => .inr hrec⟩
    | false => exact h.keep rfl hset le_rfl fun hr hstate => .inl (hexpired hr hstate)
  | unreconciled => exact h.keep rfl ages_refl le_rfl fun hr _ => .inl hr
  | dropReceipt hdownload hrow hstate =>
    refine h.set rfl hdownload ages_refl le_rfl ⟨rfl, rfl⟩ ?_ fun hr _ => hr
    intro r hr hkept
    have hr := hrow.symm.trans hr
    cases hr
    exact ⟨⟨hkept.createdAt_le, fun _ => rfl, hkept.recorded, fun _ hready => absurd hready hstate⟩,
      fun _ hready => absurd hready hstate⟩
  | @purge pk row key at' hrow hkey hat hfree hdue hexpired =>
    obtain ⟨hages, hdeadline⟩ := ages_purged hdue
    refine h.keep rfl (ages_setRow hrow hages) le_rfl fun {j r} hr hstate => ?_
    rcases find_setRow hrow hr with ⟨-, hr⟩ | ⟨-, rfl⟩
    · exact .inl hr
    · exact .inr (hdeadline.trans hat)
  | purgeInterrupted => exact h.keep rfl ages_refl le_rfl fun hr _ => .inl hr
  | sweep => exact h.keep rfl ages_refl le_rfl fun hr _ => .inl hr

/-! ### Every run -/

theorem journaled_init (h : (submissionSystem settings).init s) : s.Journaled := by
  obtain ⟨hrows, -, -, hdownloads⟩ := h
  constructor
  · intro i d hd
    rw [hdownloads] at hd
    simp [Table.find] at hd
  · intro pk row hrow
    rw [hrows] at hrow
    simp [Table.find] at hrow

theorem journaled_reachable (h : (submissionSystem settings).Reachable s) : s.Journaled := by
  have hboth : s.Sound settings ∧ s.Journaled := by
    refine h.invariant (I := fun s => s.Sound settings ∧ s.Journaled) (fun s hi => ⟨sound_init hi, journaled_init hi⟩) ?_
    intro s a t hI hs
    exact ⟨sound_step hI.1 hs, (journaled_step hI.1 hI.2 hs).1⟩
  exact hboth.2

/-- The states after any number of further steps. -/
def Later (settings : Settings) : Store → Store → Prop := Relation.ReflTransGen fun s t => ∃ a, s.step settings a = some t

theorem Aged.refl (s : Store) : s.Aged s := ⟨ages_refl, fun _ _ _ hc => .inl hc, le_rfl⟩

theorem Aged.trans (h : s.Aged t) (h' : t.Aged u) : s.Aged u where
  rows := h.rows.trans Submission.Ages.trans (fun _ _ => trivial) h'.rows
  completions := by
    intro pk row row'' c hrow hrow'' hready hc
    obtain ⟨row', hrow', -⟩ := h.rows.rows hrow
    obtain ⟨r, hr, hages⟩ := h'.rows.rows hrow'
    rw [hrow''] at hr
    cases hr
    have hready' : row'.state = .ready := by
      cases hstate : row'.state with
      | ready => rfl
      | expired =>
        rw [hages.expired hstate, hstate] at hready
        cases hready
    rcases h.completions hrow hrow' hready' hc with hc | hrec
    · exact h'.completions hrow' hrow'' hready hc
    · exact .inr (hages.recorded hrec)
  now := h.now.trans h'.now

theorem aged_later (h : (submissionSystem settings).Reachable s) (hst : Later settings s t) :
    (submissionSystem settings).Reachable t ∧ s.Aged t := by
  induction hst with
  | refl => exact ⟨h, .refl s⟩
  | tail _ hs ih =>
    obtain ⟨a, hs⟩ := hs
    obtain ⟨hreach, haged⟩ := ih
    have hnext := (journaled_step (sound_reachable hreach) (journaled_reachable hreach) hs).2
    exact ⟨hreach.next hs, haged.trans hnext⟩

end

end Store

/-- The deadline of a submission never moves back while it is ready, and an expired one stays at or
before every moment at which it was expired; it is within the retention after creation, and within
two days after every download whose receipt was written, while the submission is ready. -/
theorem deadline_bounds {settings : Settings} {s t : Store} (h : (submissionSystem settings).Reachable s)
    (hst : Store.Later settings s t) {pk : ℕ} {row : Submission} (hrow : s.rows.find pk = some row) :
    ∃ row', t.rows.find pk = some row' ∧ row'.createdAt = row.createdAt ∧
      (row'.state = .ready → t.expiry pk row' ≤ s.expiry pk row) ∧
      (row.state = .expired → row'.state = .expired ∧ t.expiry pk row' ≤ s.now) ∧
      t.expiry pk row' ≤ row.createdAt + min settings.retentionHours 168 * hour ∧
      ∀ d ∈ t.downloads.rows, d.submission = pk → d.written = true → row'.state = .ready →
        t.expiry pk row' ≤ d.completedAt + 48 * hour := by
  obtain ⟨hreach, haged⟩ := Store.aged_later h hst
  have hsound := Store.sound_reachable hreach
  have hjournaled := Store.journaled_reachable hreach
  obtain ⟨row', hrow', hages⟩ := haged.rows.rows hrow
  refine ⟨row', hrow', hages.createdAt, ?_, ?_, ?_, ?_⟩
  · intro hready
    exact Store.expiry_mono hages fun hc => haged.completions hrow hrow' hready hc
  · intro hexpired
    have hsame := hages.expired hexpired
    subst hsame
    exact ⟨hexpired, (Store.expiry_le_deadline t pk row').trans ((Store.journaled_reachable h).expired hrow hexpired)⟩
  · obtain ⟨i, run, hrun, hpk⟩ := hsound.origin hrow'
    obtain ⟨r, hr, haccepted⟩ := hsound.accepted hrun hpk
    rw [hrow'] at hr
    cases hr
    rw [← hages.createdAt]
    exact (effectiveExpiry_le_expiresAt _ _).trans haccepted.expiresAt_le
  · intro d hd hsubmission hwritten hready
    obtain ⟨i, hi⟩ := List.mem_iff_getElem?.mp hd
    obtain ⟨r, hr, hkept⟩ := hjournaled.kept hi
    rw [hsubmission, hrow'] at hr
    cases hr
    rcases hkept.written hwritten hready with hreceipt | hrec
    · exact effectiveExpiry_le_completion (Store.mem_completions.mpr ⟨i, d, hi, hreceipt, hsubmission, rfl⟩) hkept.createdAt_le
    · exact Store.expiry_le_recorded hrec

/-! ### A receipt that comes after its content is gone -/

/-- A download completed after a hundred hours; its receipt is written as the week ends. -/
def lateReceipt : List Action :=
  accepts 0 sampleSubmission ++ [.respond 0, .tick (100 * hour), .completeDownload 0, .tick (68 * hour), .journal 0 true]

theorem lateReceipt_bounds : ∃ s t row, Machine.follow (Store.step sampleSettings) sampleStore lateReceipt = some s ∧
    s.step sampleSettings (.record 0) = some t ∧ s.rows.find 0 = some row ∧
    ∃ row', t.rows.find 0 = some row' ∧ row'.createdAt = row.createdAt ∧
      (row'.state = .ready → t.expiry 0 row' ≤ s.expiry 0 row) ∧
      (row.state = .expired → row'.state = .expired ∧ t.expiry 0 row' ≤ s.now) ∧
      t.expiry 0 row' ≤ row.createdAt + min sampleSettings.retentionHours 168 * hour ∧
      ∀ d ∈ t.downloads.rows, d.submission = 0 → d.written = true → row'.state = .ready →
        t.expiry 0 row' ≤ d.completedAt + 48 * hour := by
  have hfollow : (Machine.follow (Store.step sampleSettings) sampleStore lateReceipt).map
      (fun s => ((s.rows.find 0).isSome, (s.step sampleSettings (.record 0)).isSome)) = some (true, true) := by
    decide +kernel
  obtain ⟨s, hs, hfacts⟩ := Option.map_eq_some_iff.mp hfollow
  obtain ⟨hrow, hstep⟩ := Prod.mk.inj hfacts
  obtain ⟨row, hrow⟩ := Option.isSome_iff_exists.mp hrow
  obtain ⟨t, ht⟩ := Option.isSome_iff_exists.mp hstep
  have hreach := reachable_sampleStore.follow (M := submissionSystem sampleSettings) (fun h => h) hs
  exact ⟨s, t, row, hs, ht, hrow, deadline_bounds hreach (Relation.ReflTransGen.single ⟨_, ht⟩) hrow⟩

/-- The next cleanup removes the receipt unrecorded, and the deadline moves back to the week. -/
theorem deadline_moves_back : ¬∀ s t a, (submissionSystem sampleSettings).Reachable s → s.step sampleSettings a = some t →
    ∀ pk row row', s.rows.find pk = some row → t.rows.find pk = some row' → t.expiry pk row' ≤ s.expiry pk row := by
  intro hall
  have hfollow : (Machine.follow (Store.step sampleSettings) sampleStore (lateReceipt ++ [.purge 0 (168 * hour) true])).map
      (fun s => ((s.rows.find 0).map (s.expiry 0), (s.step sampleSettings (.reconcile 0 true)).map fun t =>
        (t.rows.find 0).map (t.expiry 0))) = some (some (148 * hour), some (some (168 * hour))) := by decide +kernel
  obtain ⟨s, hs, hfacts⟩ := Option.map_eq_some_iff.mp hfollow
  simp only [Prod.mk.injEq, Option.map_eq_some_iff] at hfacts
  obtain ⟨⟨row, hrow, hbefore⟩, t, ht, row', hrow', hafter⟩ := hfacts
  have hreach := reachable_sampleStore.follow (M := submissionSystem sampleSettings) (fun h => h) hs
  have hle := hall s t _ hreach ht 0 row row' hrow hrow'
  rw [hbefore, hafter] at hle
  exact absurd hle (by decide)

end FireDash.ReportTransfer
