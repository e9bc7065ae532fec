import FireDash.ReportTransfer.Resubmission

/-! Rows and spool agree: a ready submission has its file, unless a call fails after its commit. -/
namespace FireDash.ReportTransfer

open Json (Text Value)
open Publications (Bytes Time)

/-- No failure after a commit, and no removal whose row is rolled back. -/
def Action.keepsPayloads : Action → Bool
  | .failCommitted _ _ => false
  | .purge _ _ committed => committed
  | _ => true

namespace Store

/-- Every ready row has the file of its envelope, and a sweep leaves files of ready rows only, but
for those it fails to remove. -/
structure Agrees (settings : Settings) (s : Store) : Prop where
  stored : ∀ {pk row}, s.rows.find pk = some row → row.state = .ready → ∃ i run, s.runs.find i = some run ∧
    run.row = some pk ∧ row.payloadKey = some i ∧ s.files i = some (canonical settings run.envelope) ∧
    settings.sha256Hex (canonical settings run.envelope) = row.payloadDigest
  swept : ∀ {kept t}, s.step settings (.sweep kept) = some t → ∀ {key}, t.files key ≠ none →
    key ∈ kept ∨ ∃ pk row, t.rows.find pk = some row ∧ row.state = .ready ∧ row.payloadKey = some key

/-- The files of the calls whose rows are ready, and calls that fail without a row. -/
structure Keeps (settings : Settings) (s : Store) : Prop where
  file : ∀ {i run pk row}, s.runs.find i = some run → run.row = some pk → s.rows.find pk = some row →
    row.state = .ready → s.files i = some (canonical settings run.envelope)
  failing : ∀ {i run e}, s.runs.find i = some run → run.phase = .failing e → run.row = none

section

variable {settings : Settings} {s t : Store}

/-- A call has no row while its transaction is open. -/
theorem Sound.row_of_inTransaction (h : s.Sound settings) {i : ℕ} {run : SubmitRun} (hrun : s.runs.find i = some run)
    (hin : run.phase.inTransaction = true) : run.row = none := by
  have hconsistent := h.consistent hrun
  unfold SubmitRun.Consistent at hconsistent
  split at hconsistent
  · exact hconsistent
  · exact hconsistent.1
  · exact hconsistent.1
  · exact hconsistent.1
  · rename_i hchecked hvalidated hwritten hinserted
    cases hphase : run.phase with
    | validated a d => exact absurd hphase (hvalidated a d)
    | written a d w => exact absurd hphase (hwritten a d w)
    | inserted row => exact absurd hphase (hinserted row)
    | _ =>
      rw [hphase] at hin
      cases hin

/-- The key of a row is the number of the one call that committed it. -/
theorem Sound.payloadKey (h : s.Sound settings) {i pk key : ℕ} {run : SubmitRun} {row : Submission}
    (hrun : s.runs.find i = some run) (hpk : run.row = some pk) (hrow : s.rows.find pk = some row)
    (hkey : row.payloadKey = some key) : key = i ∧ row.state = .ready := by
  obtain ⟨row', hrow', haccepted⟩ := h.accepted hrun hpk
  rw [hrow] at hrow'
  cases hrow'
  have hpayload := haccepted.payload
  rw [hkey] at hpayload
  by_cases hready : row.state = .ready
  · rw [if_pos hready] at hpayload
    exact ⟨Option.some.inj hpayload, hready⟩
  · rw [if_neg hready] at hpayload
    cases hpayload

/-- A step that keeps the files of the calls with a ready row. -/
theorem Keeps.step (h : s.Keeps settings)
    (hruns : ∀ {i run}, t.runs.find i = some run → ∃ u, s.runs.find i = some u ∧ run.envelope = u.envelope ∧
      run.row = u.row ∧ ∀ e, run.phase = .failing e → u.row = none)
    (hrows : ∀ {pk row}, t.rows.find pk = some row → row.state = .ready →
      ∃ old, s.rows.find pk = some old ∧ old.state = .ready)
    (hfiles : ∀ {i u pk row}, s.runs.find i = some u → u.row = some pk → t.rows.find pk = some row →
      row.state = .ready → t.files i = s.files i) : t.Keeps settings where
  file hrun hpk hrow hready := by
    obtain ⟨u, hu, henvelope, hurow, -⟩ := hruns hrun
    rw [hurow] at hpk
    obtain ⟨old, hold, holdready⟩ := hrows hrow hready
    rw [henvelope, hfiles hu hpk hrow hready]
    exact h.file hu hpk hold holdready
  failing hrun hphase := by
    obtain ⟨u, hu, -, hurow, hfailing⟩ := hruns hrun
    rw [hurow]
    exact hfailing _ hphase

/-- A step that leaves calls and rows alone. -/
theorem Keeps.same (h : s.Keeps settings) (hruns : t.runs = s.runs)
    (hrows : Table.Evolve Submission.Follows (fun _ => False) s.rows t.rows)
    (hfiles : ∀ {i u pk row}, s.runs.find i = some u → u.row = some pk → t.rows.find pk = some row →
      row.state = .ready → t.files i = s.files i) : t.Keeps settings := by
  refine h.step ?_ ?_ hfiles
  · intro i run hrun
    rw [hruns] at hrun
    exact ⟨run, hrun, rfl, rfl, fun e he => h.failing hrun he⟩
  · intro pk row hrow hready
    rcases hrows.old hrow with hfalse | ⟨old, hold, hf⟩
    · exact hfalse.elim
    · refine ⟨old, hold, ?_⟩
      rcases hf.payload with ⟨-, hstate⟩ | ⟨-, hstate⟩
      · rw [← hstate]
        exact hready
      · rw [hready] at hstate
        cases hstate

/-- A step that moves a call without a row, or one that does not fail. -/
theorem Keeps.moved (h : s.Keeps settings) {id : ℕ} {run : SubmitRun} {phase : SubmitPhase}
    (hrun : s.runs.find id = some run) (hruns : t.runs = s.runs.modify id (SubmitRun.move phase)) (hrows : t.rows = s.rows)
    (hfailing : ∀ e, phase = .failing e → run.row = none)
    (hfiles : ∀ {i}, i ≠ id ∨ run.row ≠ none → t.files i = s.files i) : t.Keeps settings := by
  refine h.step ?_ ?_ ?_
  · intro i u hu
    rw [hruns] at hu
    rcases find_moveRun hu with ⟨-, hu⟩ | ⟨rfl, v, hv, rfl⟩
    · exact ⟨u, hu, rfl, rfl, fun e he => h.failing hu he⟩
    · rw [hrun] at hv
      cases hv
      exact ⟨run, hrun, rfl, rfl, hfailing⟩
  · intro pk row hrow hready
    rw [hrows] at hrow
    exact ⟨row, hrow, hready⟩
  · intro i u pk row hu hpk hrow hready
    refine hfiles ?_
    by_cases hi : i = id
    · subst hi
      rw [hrun] at hu
      cases hu
      exact .inr (by rw [hpk]; exact Option.some_ne_none _)
    · exact .inl hi

theorem keeps_step {a : Action} (hsound : s.Sound settings) (h : s.Keeps settings) (ha : a.keepsPayloads = true)
    (hs : s.step settings a = some t) : t.Keeps settings := by
  cases step_taken hs with
  | tick elapsed => exact h.same rfl rows_refl fun _ _ _ _ => rfl
  | edit directory => exact h.same rfl rows_refl fun _ _ _ _ => rfl
  | @begun installation envelope jwe header hinspect =>
    have hold : ∀ {i u}, (s.runs.insert ⟨installation, envelope, jwe, header, .checked, none⟩).find i = some u →
        s.runs.find i = some u ∨ u.row = none ∧ u.phase = .checked := by
      intro i u hu
      rw [Table.find_insert] at hu
      split at hu
      · cases hu
        exact .inr ⟨rfl, rfl⟩
      · exact .inl hu
    constructor
    · intro i u pk row hu hpk hrow hready
      rcases hold hu with hu | ⟨hnone, -⟩
      · exact h.file hu hpk hrow hready
      · rw [hnone] at hpk
        cases hpk
    · intro i u e hu he
      rcases hold hu with hu | ⟨hnone, -⟩
      · exact h.failing hu he
      · exact hnone
  | refused => exact h
  | moved hrun hmove =>
    refine h.moved hrun rfl rfl ?_ fun _ => rfl
    rintro e rfl
    cases hmove with
    | clash hspool => exact hsound.row_of_inTransaction hrun (inTransaction_of_holdsSpool hspool)
    | abortWritten hspool => exact hsound.row_of_inTransaction hrun (inTransaction_of_holdsSpool hspool)
    | failCommitted => cases ha
  | write hrun hphase hfree =>
    have hnone := hsound.row_of_inTransaction hrun (by rw [hphase]; rfl)
    refine h.moved hrun rfl rfl (fun _ he => by cases he) fun hi => ?_
    exact Function.update_of_ne (hi.resolve_right fun hne => hne hnone) _ _
  | failWrite hrun hphase =>
    have hnone := hsound.row_of_inTransaction hrun (by rw [hphase]; rfl)
    refine h.moved hrun rfl rfl (fun _ he => by cases he) fun hi => ?_
    exact Function.update_of_ne (hi.resolve_right fun hne => hne hnone) _ _
  | @commit id run row hrun hphase =>
    have hconsistent := hsound.consistent hrun
    unfold SubmitRun.Consistent at hconsistent
    rw [hphase] at hconsistent
    obtain ⟨hnone, -, -, -, hfile⟩ := hconsistent
    have hold : ∀ {i u}, (s.runs.modify id fun run =>
        { run with phase := .committed row, row := some s.rows.nextId }).find i = some u →
          s.runs.find i = some u ∨ i = id ∧ u.envelope = run.envelope ∧ u.phase = .committed row ∧
            u.row = some s.rows.nextId := by
      intro i u hu
      rw [Table.find_modify] at hu
      split at hu
      · rename_i hi
        subst hi
        rw [hrun] at hu
        cases hu
        exact .inr ⟨rfl, rfl, rfl, rfl⟩
      · exact .inl hu
    constructor
    · intro i u pk r hu hpk hr hready
      rcases hold hu with hu | ⟨rfl, henvelope, -, -⟩
      · obtain ⟨r', hr', -⟩ := hsound.accepted hu hpk
        have hne : pk ≠ s.rows.nextId := (Table.lt_nextId_of_find hr').ne
        have hr : (s.rows.insert row).find pk = some r := hr
        rw [Table.find_insert, if_neg hne] at hr
        exact h.file hu hpk hr hready
      · rw [henvelope]
        exact hfile
    · intro i u e hu he
      rcases hold hu with hu | ⟨-, -, hcommitted, -⟩
      · exact h.failing hu he
      · rw [hcommitted] at he
        cases he
  | removePayload hrun hphase =>
    refine h.moved hrun rfl rfl (fun _ he => by cases he) fun hi => ?_
    exact Function.update_of_ne (hi.resolve_right fun hne => hne (h.failing hrun hphase)) _ _
  | keepPayload hrun hphase => exact h.moved hrun rfl rfl (fun _ he => by cases he) fun _ => rfl
  | completeDownload => exact h.same rfl rows_refl fun _ _ _ _ => rfl
  | journal => exact h.same rfl rows_refl fun _ _ _ _ => rfl
  | record hdownload hrow hphase hrecord =>
    exact h.same rfl (rows_setRow hrow (follows_record hrecord)) fun _ _ _ _ => rfl
  | unrecorded => exact h.same rfl rows_refl fun _ _ _ _ => rfl
  | unlinkReceipt => exact h.same rfl rows_refl fun _ _ _ _ => rfl
  | @reconcile id download row row' unlinked hdownload hrow hrecord =>
    have hset := rows_setRow hrow (follows_record hrecord)
    cases unlinked with
    | true => exact h.same rfl hset fun _ _ _ _ => rfl
    | false => exact h.same rfl hset fun _ _ _ _ => rfl
  | unreconciled => exact h
  | dropReceipt => exact h.same rfl rows_refl fun _ _ _ _ => rfl
  | @purge pk row key at' hrow hkey hat hfree hdue hexpired =>
    refine h.same rfl (rows_setRow hrow (follows_purged _)) ?_
    intro i u pk' r hu hpk hr hready
    refine Function.update_of_ne ?_ _ _
    rintro rfl
    -- The call of the purged row is another one than that of a ready row.
    obtain ⟨j, v, hv, hvpk⟩ := hsound.origin hrow
    obtain ⟨rfl, -⟩ := hsound.payloadKey hv hvpk hrow hkey
    rw [hu] at hv
    cases hv
    rw [hpk] at hvpk
    cases hvpk
    have hr : (s.rows.modify pk fun _ => row.purged).find pk = some r := hr
    rw [Table.find_modify, if_pos rfl, hrow] at hr
    cases hr
    cases hready
  | purgeInterrupted => cases ha
  | @sweep kept hfree =>
    refine h.same rfl rows_refl ?_
    intro i u pk row hu hpk hrow hready
    obtain ⟨row', hrow', haccepted⟩ := hsound.accepted hu hpk
    have hrow : s.rows.find pk = some row := hrow
    rw [hrow] at hrow'
    cases hrow'
    have hpayload := haccepted.payload
    rw [if_pos hready] at hpayload
    have hreferenced : s.isReferenced i = true := Table.any_eq_true.mpr ⟨pk, row, hrow, by simp [hpayload]⟩
    exact if_pos (.inl hreferenced)

theorem keeps_init (h : (submissionSystem settings).init s) : s.Keeps settings := by
  obtain ⟨-, -, hruns, -⟩ := h
  constructor
  · intro i run pk row hrun
    rw [hruns] at hrun
    simp [Table.find] at hrun
  · intro i run e hrun
    rw [hruns] at hrun
    simp [Table.find] at hrun

theorem Keeps.agrees (h : s.Keeps settings) (hsound : s.Sound settings) : s.Agrees settings where
  stored := by
    intro pk row hrow hready
    obtain ⟨i, run, hrun, hpk⟩ := hsound.origin hrow
    obtain ⟨row', hrow', haccepted⟩ := hsound.accepted hrun hpk
    rw [hrow] at hrow'
    cases hrow'
    have hpayload := haccepted.payload
    rw [if_pos hready] at hpayload
    exact ⟨i, run, hrun, hpk, hpayload, h.file hrun hpk hrow hready, haccepted.identity.2.2.2.symm⟩
  swept := by
    intro kept t hs key hfile
    simp only [Store.step, Option.ite_none_right_eq_some, Option.some.injEq] at hs
    obtain ⟨-, rfl⟩ := hs
    by_cases hkept : s.isReferenced key = true ∨ key ∈ kept
    · rcases hkept with hreferenced | hkept
      · obtain ⟨pk, row, hrow, hkey⟩ := Table.any_eq_true.mp hreferenced
        simp only [decide_eq_true_eq] at hkey
        obtain ⟨i, run, hrun, hpk⟩ := hsound.origin hrow
        exact .inr ⟨pk, row, hrow, (hsound.payloadKey hrun hpk hrow hkey).2, hkey⟩
      · exact .inl hkept
    · exact absurd (if_neg hkept) hfile

end

end Store

/-- Rows and spool agree in every run in which no call fails after its commit and no removal is
rolled back. -/
theorem spool_agrees {settings : Settings} {s : Store}
    (h : (submissionSystem settings).ReachableBy (fun _ a => a.keepsPayloads = true) s) : s.Agrees settings := by
  have hkeeps : s.Keeps settings :=
    h.invariant (fun _ => Store.keeps_init) fun _ _ _ hreach hI ha hs =>
      Store.keeps_step (Store.sound_reachable hreach) hI ha hs
  exact hkeeps.agrees (Store.sound_reachable h.reachable)

/-! ### A call that fails once its row is committed -/

theorem accepted_agrees : ∃ s, Machine.follow (Store.step sampleSettings) sampleStore
    (accepts 0 sampleSubmission ++ [.respond 0, .sweep []]) = some s ∧ s.rows.nextId = 1 ∧ s.Agrees sampleSettings := by
  have hfollow : (Machine.follow (Store.step sampleSettings) sampleStore
      (accepts 0 sampleSubmission ++ [.respond 0, .sweep []])).map (·.rows.nextId) = some 1 := by decide +kernel
  obtain ⟨s, hs, hrows⟩ := Option.map_eq_some_iff.mp hfollow
  have hstart : (submissionSystem sampleSettings).ReachableBy (fun _ a => a.keepsPayloads = true) sampleStore :=
    .init ⟨rfl, rfl, rfl, rfl⟩
  refine ⟨s, hs, hrows, spool_agrees (hstart.follow (fun h => h) ?_ hs)⟩
  intro a ha _
  simp only [accepts, List.cons_append, List.nil_append, List.mem_cons, List.not_mem_nil, or_false] at ha
  rcases ha with rfl | rfl | rfl | rfl | rfl | rfl | rfl <;> rfl

/-- The failure removes the file of the committed row. -/
theorem failedCommitted_not_agrees :
    ¬∀ s, (submissionSystem sampleSettings).Reachable s → s.Agrees sampleSettings := by
  intro hall
  have hfollow : (Machine.follow (Store.step sampleSettings) sampleStore
      (accepts 0 sampleSubmission ++ [.failCommitted 0 .osError, .removePayload 0 true])).map
        (fun s => ((s.rows.find 0).map fun row => (row.state, row.payloadKey), s.files 0)) =
      some (some (.ready, some 0), none) := by decide +kernel
  obtain ⟨s, hs, hfacts⟩ := Option.map_eq_some_iff.mp hfollow
  simp only [Prod.mk.injEq, Option.map_eq_some_iff] at hfacts
  obtain ⟨⟨row, hrow, hready, hkey⟩, hfile⟩ := hfacts
  have hreach := reachable_sampleStore.follow (M := submissionSystem sampleSettings) (fun h => h) hs
  obtain ⟨i, run, -, -, hkey', hstored, -⟩ := (hall s hreach).stored hrow hready
  rw [hkey] at hkey'
  cases hkey'
  rw [hfile] at hstored
  cases hstored

end FireDash.ReportTransfer
