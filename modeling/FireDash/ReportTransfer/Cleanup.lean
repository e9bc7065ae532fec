import FireDash.ReportTransfer.Deadlines

/-! The cleanup pass: it folds receipts into the rows, removes the content of rows past their
deadline and sweeps payload files without a row. -/
namespace FireDash.ReportTransfer

open Publications (Bytes Time day)

/-- A `.receipt` file. Its name starts with a submission; its content is `none` where it is not a receipt. -/
structure Receipt where
  name : ℕ
  submission : ℕ
  content : Option (ℕ × Time)
  deriving DecidableEq

def storageUnavailable : Error := .transfer "report_storage_unavailable" 503

/-- `read_download_receipt`. -/
def Receipt.read (receipt : Receipt) (clock : Time) : Except Error (ℕ × Time) :=
  match receipt.content with
  | some (pk, completedAt) =>
    if pk = receipt.submission ∧ completedAt ≤ clock then .ok (pk, completedAt) else .error storageUnavailable
  | none => .error storageUnavailable

/-- The rows of the submissions and the files of the spool directory: payloads by key, receipts in
the order of the directory, and the ages of interrupted receipts. -/
structure Spool where
  rows : Table Submission := ⟨[]⟩
  payloads : List (ℕ × Bytes) := []
  receipts : List Receipt := []
  temporaries : List Time := []
  deriving DecidableEq

attribute [ext] Spool

namespace Spool

/-- `pending_downloads`: one unreadable receipt of the submission fails the reading. -/
def pendingDownloads (s : Spool) (clock : Time) (pk : ℕ) : Except Error (List Time) :=
  (s.receipts.filter fun r => r.submission = pk).mapM fun r => do return (← r.read clock).2

/-- `effective_expiry`. -/
def effectiveExpiry (s : Spool) (clock : Time) (pk : ℕ) (row : Submission) : Except Error Time := do
  return ReportTransfer.effectiveExpiry row (← s.pendingDownloads clock pk)

def unlink (s : Spool) (name : ℕ) : Spool := { s with receipts := s.receipts.filter fun r => r.name ≠ name }

/-- `record_successful_download`, on the locked row. -/
def record (s : Spool) (clock : Time) (pk : ℕ) (row : Submission) (completedAt : Time) : Except Error Spool := do
  let completions ← s.pendingDownloads clock pk
  let row' ← recordSuccessfulDownload row completions completedAt clock
  return { s with rows := s.rows.modify pk fun _ => row' }

/-- What cleanup does with one receipt. -/
def reconcile (clock : Time) (s : Spool) (receipt : Receipt) : Except Error Spool := do
  let completion ← receipt.read clock
  match s.rows.find completion.1 with
  | some row =>
    if row.state = .ready then return (← s.record clock completion.1 row completion.2).unlink receipt.name
    else return s.unlink receipt.name
  | none => return s.unlink receipt.name

/-- What cleanup does with one selected row; `none` where it is not due after all. -/
def purge (now clock : Time) (s : Spool) (pk : ℕ) : Except Error (Option Spool) := do
  match s.rows.find pk with
  | some row =>
    if row.state ≠ .ready then return none
    if now < (← s.effectiveExpiry clock pk row) then return none
    match row.payloadKey with
    | some key =>
      return some { s with
        payloads := s.payloads.filter fun p => p.1 ≠ key
        rows := s.rows.modify pk Submission.purged }
    | none => throw storageUnavailable
  | none => throw .doesNotExist

def isReferenced (s : Spool) (key : ℕ) : Bool := s.rows.any fun row => row.payloadKey = some key

/-- A pass so far, with what it reports. -/
structure Pass where
  spool : Spool
  expired : ℕ := 0
  orphans : ℕ := 0
  failed : ℕ := 0
  deriving DecidableEq

def Pass.reconcile (clock : Time) (p : Pass) (receipt : Receipt) : Pass :=
  match p.spool.reconcile clock receipt with
  | .ok t => { p with spool := t }
  | .error _ => { p with failed := p.failed + 1 }

def Pass.purge (now clock : Time) (p : Pass) (pk : ℕ) : Pass :=
  match p.spool.purge now clock pk with
  | .ok (some t) => { p with spool := t, expired := p.expired + 1 }
  | .ok none => p
  | .error _ => { p with failed := p.failed + 1 }

/-- Payloads no row refers to go, and interrupted receipts after an hour. -/
def Pass.sweep (now : Time) (p : Pass) : Pass where
  spool := { p.spool with
    payloads := p.spool.payloads.filter fun f => p.spool.isReferenced f.1
    temporaries := p.spool.temporaries.filter fun modified => now ≤ modified + hour }
  expired := p.expired
  orphans := p.orphans + p.spool.payloads.countP (fun f => ¬p.spool.isReferenced f.1) +
    p.spool.temporaries.countP fun modified => modified + hour < now
  failed := p.failed

/-- The rows a query selects for removal. -/
def due (s : Spool) (now : Time) : List ℕ := (s.rows.filter fun row => row.isDue now).map Prod.fst

/-- `cleanup`, at a moment of the clock. -/
def cleanup (now clock : Time) (s : Spool) : Pass :=
  let reconciled := s.receipts.foldl (Pass.reconcile clock) { spool := s }
  let purged := (reconciled.spool.due now).foldl (Pass.purge now clock) reconciled
  purged.sweep now

/-! ### Readable receipts -/

/-- Every receipt of a submission can be read. -/
def Readable (s : Spool) (clock : Time) (pk : ℕ) : Prop :=
  ∀ r ∈ s.receipts, r.submission = pk → ∃ completedAt, r.read clock = .ok (pk, completedAt)

/-- The completion times of the receipts of a submission. -/
def completions (s : Spool) (pk : ℕ) : List Time :=
  (s.receipts.filter fun r => r.submission = pk).filterMap fun r => r.content.map Prod.snd

end Spool

theorem Receipt.read_ok {r : Receipt} {clock : Time} {completion : ℕ × Time} :
    r.read clock = .ok completion ↔ r.content = some completion ∧ completion.1 = r.submission ∧ completion.2 ≤ clock := by
  obtain ⟨pk, completedAt⟩ := completion
  unfold Receipt.read
  cases r.content with
  | none => simp
  | some content =>
    dsimp only
    split_ifs with h
    · constructor
      · intro heq
        cases heq
        exact ⟨rfl, h⟩
      · rintro ⟨heq, -⟩
        cases heq
        rfl
    · constructor
      · nofun
      · rintro ⟨heq, hread⟩
        cases heq
        exact absurd hread h

namespace Spool

variable {s t : Spool} {clock now : Time} {pk : ℕ} {row : Submission} {r : Receipt}

theorem pendingDownloads_ok {times : List Time} :
    s.pendingDownloads clock pk = .ok times ↔ s.Readable clock pk ∧ s.completions pk = times := by
  have hread : ∀ l : List Receipt, (∀ r ∈ l, r.submission = pk) → ∀ times, l.mapM (fun r => do return (← r.read clock).2) = .ok times ↔
      (∀ r ∈ l, ∃ completedAt, r.read clock = .ok (pk, completedAt)) ∧ l.filterMap (fun r => r.content.map Prod.snd) = times := by
    intro l hl
    induction l with
    | nil =>
      intro times
      simp [pure, Except.pure]
    | cons r l ih =>
      intro times
      rw [List.forall_mem_cons] at hl
      simp only [List.mapM_cons, bind_eq_ok, pure_eq_ok, List.forall_mem_cons]
      constructor
      · rintro ⟨c, ⟨completion, hc, rfl⟩, cs, hcs, rfl⟩
        obtain ⟨hall, hfilter⟩ := (ih hl.2 cs).mp hcs
        obtain ⟨hcontent, hname, -⟩ := Receipt.read_ok.mp hc
        refine ⟨⟨⟨completion.2, ?_⟩, hall⟩, ?_⟩
        · rw [hc, ← hl.1, ← hname]
        · rw [List.filterMap_cons, hcontent, ← hfilter]
          rfl
      · rintro ⟨⟨⟨c, hc⟩, hall⟩, rfl⟩
        obtain ⟨hcontent, -, -⟩ := Receipt.read_ok.mp hc
        refine ⟨c, ⟨_, hc, rfl⟩, _, (ih hl.2 _).mpr ⟨hall, rfl⟩, ?_⟩
        rw [List.filterMap_cons, hcontent]
        rfl
  have hsubmission : ∀ r ∈ s.receipts.filter (fun r => r.submission = pk), r.submission = pk := by
    intro r hr
    simpa using (List.mem_filter.mp hr).2
  rw [pendingDownloads, hread _ hsubmission]
  simp only [Readable, completions, List.mem_filter, decide_eq_true_eq, and_imp]

theorem effectiveExpiry_ok {e : Time} : s.effectiveExpiry clock pk row = .ok e ↔
    s.Readable clock pk ∧ ReportTransfer.effectiveExpiry row (s.completions pk) = e := by
  simp only [effectiveExpiry, bind_eq_ok, pure_eq_ok, pendingDownloads_ok]
  constructor
  · rintro ⟨times, ⟨hreadable, rfl⟩, he⟩
    exact ⟨hreadable, he⟩
  · rintro ⟨hreadable, he⟩
    exact ⟨_, ⟨hreadable, rfl⟩, he⟩

/-- What a reconciled receipt leaves. -/
theorem reconcile_ok (h : s.reconcile clock r = .ok t) : ∃ completedAt, r.read clock = .ok (r.submission, completedAt) ∧
    ((∃ row row', s.rows.find r.submission = some row ∧ row.state = .ready ∧ s.Readable clock r.submission ∧
        recordSuccessfulDownload row (s.completions r.submission) completedAt clock = .ok row' ∧
        t = { s with rows := s.rows.modify r.submission fun _ => row' }.unlink r.name) ∨
      (∀ row, s.rows.find r.submission = some row → row.state ≠ .ready) ∧ t = s.unlink r.name) := by
  simp only [reconcile, bind_eq_ok] at h
  obtain ⟨⟨pk, completedAt⟩, hread, h⟩ := h
  obtain ⟨-, rfl, -⟩ := Receipt.read_ok.mp hread
  refine ⟨completedAt, hread, ?_⟩
  dsimp only at h
  cases hrow : s.rows.find r.submission with
  | none =>
    rw [hrow] at h
    exact .inr ⟨nofun, (pure_eq_ok.mp h).symm⟩
  | some row =>
    rw [hrow] at h
    dsimp only at h
    by_cases hready : row.state = .ready
    · rw [if_pos hready] at h
      simp only [record, bind_eq_ok, pure_eq_ok, pendingDownloads_ok] at h
      obtain ⟨s', ⟨times, ⟨hreadable, rfl⟩, row', hrecord, rfl⟩, rfl⟩ := h
      exact .inl ⟨row, row', rfl, hready, hreadable, hrecord, rfl⟩
    · rw [if_neg hready] at h
      refine .inr ⟨fun row' hrow' => ?_, (pure_eq_ok.mp h).symm⟩
      cases hrow'
      exact hready

end Spool

/-! ### One recorded completion -/

section

variable {row row' : Submission} {completions completions' : List Time} {completedAt clock : Time}

/-- A completion is refused before the report was created and from its deadline on. -/
theorem recordSuccessfulDownload_refused (hready : row.state = .ready) (hclock : completedAt ≤ clock) :
    (∃ e, recordSuccessfulDownload row completions completedAt clock = .error e) ↔
      completedAt < row.createdAt ∨ effectiveExpiry row completions ≤ completedAt := by
  unfold recordSuccessfulDownload require
  by_cases hcreated : row.createdAt ≤ completedAt
  · rw [if_pos ⟨hcreated, hclock⟩, ok_bind]
    by_cases hlate : effectiveExpiry row completions ≤ completedAt
    · rw [if_pos (.inr hlate)]
      exact ⟨fun _ => .inr hlate, fun _ => ⟨_, rfl⟩⟩
    · rw [if_neg (not_or.mpr ⟨not_not.mpr hready, hlate⟩)]
      constructor
      · rintro ⟨e, he⟩
        cases he
      · rintro (h | h)
        · exact absurd hcreated (not_le.mpr h)
        · exact absurd h hlate
  · rw [if_neg fun h => hcreated h.1]
    exact ⟨fun _ => .inl (not_le.mp hcreated), fun _ => ⟨_, rfl⟩⟩

theorem effectiveExpiry_congr (h : ∀ c, c ∈ completions ↔ c ∈ completions') :
    effectiveExpiry row completions = effectiveExpiry row completions' := by
  refine eq_of_forall_le_iff fun t => ?_
  rw [le_effectiveExpiry, le_effectiveExpiry]
  simp only [h]

/-- The row after a completion has the deadline it had with the receipt, also once that is gone. -/
theorem effectiveExpiry_recorded (h : recordSuccessfulDownload row completions completedAt clock = .ok row')
    (hmem : completedAt ∈ completions) (hsub : ∀ c ∈ completions', c ∈ completions)
    (hrest : ∀ c ∈ completions, c ∈ completions' ∨ c = completedAt) :
    effectiveExpiry row' completions' = effectiveExpiry row completions := by
  obtain ⟨-, hcreated, -, -, first, hearliest, hfirst, -, hcase, hrow⟩ := recordSuccessfulDownload_ok h
  refine eq_of_forall_le_iff fun t => ?_
  rw [hrow, le_effectiveExpiry, le_effectiveExpiry]
  simp only [le_effectiveExpiry, Option.mem_some_iff, forall_eq']
  constructor
  · rintro ⟨⟨hexpires, hweek, hnew, hall⟩, -, -, -⟩
    refine ⟨hexpires, hweek, fun f hf => ?_, hall⟩
    exact hnew.trans (Nat.add_le_add_right (hearliest f hf) _)
  · rintro ⟨hexpires, hweek, hold, hall⟩
    have hnew : t ≤ first + 48 * hour := by
      rcases hcase with rfl | hsame
      · exact hall _ hmem hcreated
      · exact hold first hsame
    exact ⟨⟨hexpires, hweek, hnew, hall⟩, hweek, hnew, fun c hc => hall c (hsub c hc)⟩

/-- The deadline is that of the columns or of one of the receipts. -/
theorem effectiveExpiry_cases : effectiveExpiry row completions = row.deadline ∨
    ∃ c ∈ completions, row.createdAt ≤ c ∧ effectiveExpiry row completions = c + 48 * hour := by
  have hfold : ∀ (l : List Time) (start : Time),
      l.foldl (fun deadline at' => if row.createdAt ≤ at' then min deadline (at' + 48 * hour) else deadline) start = start ∨
      ∃ c ∈ l, row.createdAt ≤ c ∧
        l.foldl (fun deadline at' => if row.createdAt ≤ at' then min deadline (at' + 48 * hour) else deadline) start = c + 48 * hour := by
    intro l
    induction l with
    | nil => exact fun _ => .inl rfl
    | cons c l ih =>
      intro start
      rw [List.foldl_cons]
      rcases ih (if row.createdAt ≤ c then min start (c + 48 * hour) else start) with h | ⟨d, hd, hcreated, h⟩
      · rw [h]
        by_cases hc : row.createdAt ≤ c
        · rw [if_pos hc]
          rcases Nat.le_total start (c + 48 * hour) with hle | hle
          · exact .inl (Nat.min_eq_left hle)
          · exact .inr ⟨c, List.mem_cons_self, hc, Nat.min_eq_right hle⟩
        · rw [if_neg hc]
          exact .inl rfl
      · exact .inr ⟨d, List.mem_cons_of_mem _ hd, hcreated, h⟩
  exact hfold completions row.deadline

/-- Where every receipt left was refused, the columns alone give the deadline. -/
theorem effectiveExpiry_refused (h : ∀ c ∈ completions, c < row.createdAt ∨ effectiveExpiry row completions ≤ c) :
    effectiveExpiry row completions = row.deadline := by
  rcases @effectiveExpiry_cases row completions with hdeadline | ⟨c, hc, hcreated, hexpiry⟩
  · exact hdeadline
  · have hpos : c < c + 48 * hour := Nat.lt_add_of_pos_right (by decide)
    rcases h c hc with hbefore | hlate
    · exact absurd hcreated (not_le.mpr hbefore)
    · rw [hexpiry] at hlate
      exact absurd hlate (not_le.mpr hpos)

theorem isDue_iff {now : Time} : row.isDue now = true ↔ row.state = .ready ∧ row.deadline ≤ now := by
  unfold Submission.isDue Submission.deadline
  cases row.firstDownloadAt with
  | none => simp
  | some first => simp

end

/-! ### The receipts of a pass -/

namespace Spool

/-- A receipt after its turn: what it left if it could be folded. -/
def reconciled (clock : Time) (s : Spool) (receipt : Receipt) : Spool :=
  match s.reconcile clock receipt with
  | .ok t => t
  | .error _ => s

theorem foldl_reconcile (clock : Time) (l : List Receipt) (p : Pass) :
    (l.foldl (Pass.reconcile clock) p).spool = l.foldl (reconciled clock) p.spool := by
  induction l generalizing p with
  | nil => rfl
  | cons r l ih =>
    rw [List.foldl_cons, List.foldl_cons, ih]
    congr 1
    unfold Pass.reconcile reconciled
    cases p.spool.reconcile clock r <;> rfl

/-- Why a receipt stays: it cannot be read, or its row is ready and refuses the completion. -/
def Stays (s : Spool) (clock : Time) (r : Receipt) : Prop := ∀ completedAt, r.read clock = .ok (r.submission, completedAt) →
  ∃ row, s.rows.find r.submission = some row ∧ row.state = .ready ∧ (s.Readable clock r.submission →
    completedAt < row.createdAt ∨ ReportTransfer.effectiveExpiry row (s.completions r.submission) ≤ completedAt)

/-- What the receipts handled so far have left of a spool. -/
structure Folds (clock : Time) (s : Spool) (done : List Receipt) (t : Spool) : Prop where
  payloads : t.payloads = s.payloads
  temporaries : t.temporaries = s.temporaries
  receipts : t.receipts.Sublist s.receipts
  waiting : ∀ r ∈ s.receipts, r ∉ done → r ∈ t.receipts
  unreadable : ∀ r ∈ s.receipts, (∀ completedAt, r.read clock ≠ .ok (r.submission, completedAt)) → r ∈ t.receipts
  row : ∀ pk row, s.rows.find pk = some row → ∃ row', t.rows.find pk = some row' ∧
    row' = { row with firstDownloadAt := row'.firstDownloadAt, expiresAt := row'.expiresAt }
  absent : ∀ pk, s.rows.find pk = none → t.rows.find pk = none
  unchanged : ∀ pk row, s.rows.find pk = some row → (row.state ≠ .ready ∨ ¬s.Readable clock pk) → t.rows.find pk = some row
  untouched : ∀ pk, (∀ r ∈ done, r.submission = pk → r ∈ t.receipts) → t.rows.find pk = s.rows.find pk
  expiry : ∀ pk row row', s.rows.find pk = some row → row.state = .ready → s.Readable clock pk → t.rows.find pk = some row' →
    ReportTransfer.effectiveExpiry row' (t.completions pk) = ReportTransfer.effectiveExpiry row (s.completions pk)
  stays : ∀ r ∈ done, r ∈ t.receipts → s.Stays clock r
  recorded : ∀ r ∈ done, r ∉ t.receipts → ∀ row, s.rows.find r.submission = some row → row.state = .ready →
    ∃ completedAt row' first, r.read clock = .ok (r.submission, completedAt) ∧ s.Readable clock r.submission ∧
      row.createdAt ≤ completedAt ∧ completedAt < ReportTransfer.effectiveExpiry row (s.completions r.submission) ∧
      t.rows.find r.submission = some row' ∧ row'.firstDownloadAt = some first ∧ first ≤ completedAt

section

variable {s t : Spool} {clock : Time} {pk : ℕ} {r : Receipt} {done : List Receipt}

theorem mem_completions {c : Time} : c ∈ s.completions pk ↔
    ∃ r ∈ s.receipts, r.submission = pk ∧ ∃ q, r.content = some (q, c) := by
  simp only [completions, List.mem_filterMap, List.mem_filter, decide_eq_true_eq, Option.map_eq_some_iff, Prod.exists,
    exists_eq_right, and_assoc]

theorem mem_unlink (hnames : (s.receipts.map Receipt.name).Nodup) (hr : r ∈ s.receipts) {r' : Receipt} :
    r' ∈ (s.unlink r.name).receipts ↔ r' ∈ s.receipts ∧ r' ≠ r := by
  simp only [unlink, List.mem_filter, decide_eq_true_eq]
  refine and_congr_right fun hr' => not_congr ⟨fun hname => ?_, fun h => by rw [h]⟩
  exact List.inj_on_of_nodup_map hnames hr' hr hname

theorem Folds.refl : Folds clock s [] s where
  payloads := rfl
  temporaries := rfl
  receipts := .refl _
  waiting _ hr _ := hr
  unreadable _ hr _ := hr
  row _ row hrow := ⟨row, hrow, rfl⟩
  absent _ h := h
  unchanged _ _ h _ := h
  untouched _ _ := rfl
  expiry _ row row' hrow _ _ hrow' := by
    rw [hrow] at hrow'
    cases hrow'
    rfl
  stays := by simp
  recorded := by simp

/-- A pass keeps what can be read readable, and reads no more than before. -/
theorem Folds.readable_iff (h : Folds clock s done t) : t.Readable clock pk ↔ s.Readable clock pk := by
  constructor
  · intro ht r hr hpk
    by_contra hno
    have hkept := h.unreadable r hr fun completedAt hread => hno ⟨completedAt, by rw [hread, hpk]⟩
    exact hno (ht r hkept hpk)
  · exact fun hs r hr hpk => hs r (h.receipts.subset hr) hpk

/-- A row is ready after some receipts when it was before. -/
theorem Folds.find_ready (h : Folds clock s done t) {row' : Submission} (hrow' : t.rows.find pk = some row') :
    ∃ row, s.rows.find pk = some row ∧ row' = { row with firstDownloadAt := row'.firstDownloadAt, expiresAt := row'.expiresAt } := by
  cases hrow : s.rows.find pk with
  | none =>
    rw [h.absent pk hrow] at hrow'
    cases hrow'
  | some row =>
    obtain ⟨row'', hfind, hsame⟩ := h.row pk row hrow
    rw [hrow'] at hfind
    cases hfind
    exact ⟨row, rfl, hsame⟩

/-- A receipt that cannot be folded stays for a reason. -/
theorem stays_of_error {e : Error} (h : s.reconcile clock r = .error e) : s.Stays clock r := by
  intro completedAt hread
  unfold reconcile at h
  rw [hread, ok_bind] at h
  dsimp only at h
  cases hrow : s.rows.find r.submission with
  | none =>
    rw [hrow] at h
    cases h
  | some row =>
    rw [hrow] at h
    dsimp only at h
    by_cases hready : row.state = .ready
    · refine ⟨row, rfl, hready, fun hreadable => ?_⟩
      have htimes := pendingDownloads_ok.mpr ⟨hreadable, rfl⟩
      rw [if_pos hready, record, htimes, ok_bind] at h
      obtain ⟨-, -, hclock⟩ := Receipt.read_ok.mp hread
      refine (recordSuccessfulDownload_refused hready hclock).mp ?_
      cases hrecord : recordSuccessfulDownload row (s.completions r.submission) completedAt clock with
      | error e => exact ⟨e, rfl⟩
      | ok row' =>
        rw [hrecord] at h
        cases h
    · rw [if_neg hready] at h
      cases h

theorem Folds.stays_iff (h : Folds clock s done t) : t.Stays clock r ↔ s.Stays clock r := by
  refine forall₂_congr fun completedAt hread => ?_
  constructor
  · rintro ⟨row', hrow', hready, hrefused⟩
    obtain ⟨row, hrow, hsame⟩ := h.find_ready hrow'
    have hstate : row.state = .ready := by
      rw [hsame] at hready
      exact hready
    have hcreated : row'.createdAt = row.createdAt := by rw [hsame]
    refine ⟨row, hrow, hstate, fun hreadable => ?_⟩
    rw [← hcreated, ← h.expiry _ _ _ hrow hstate hreadable hrow']
    exact hrefused (h.readable_iff.mpr hreadable)
  · rintro ⟨row, hrow, hready, hrefused⟩
    obtain ⟨row', hrow', hsame⟩ := h.row _ _ hrow
    have hstate : row'.state = .ready := by
      rw [hsame]
      exact hready
    have hcreated : row'.createdAt = row.createdAt := by rw [hsame]
    refine ⟨row', hrow', hstate, fun hreadable => ?_⟩
    have hreadable := h.readable_iff.mp hreadable
    rw [hcreated, h.expiry _ _ _ hrow hready hreadable hrow']
    exact hrefused hreadable

/-- The receipts of other submissions are as they were without one receipt. -/
theorem completions_unlink (hnames : (s.receipts.map Receipt.name).Nodup) (hr : r ∈ s.receipts) (hpk : pk ≠ r.submission)
    {c : Time} : c ∈ (s.unlink r.name).completions pk ↔ c ∈ s.completions pk := by
  rw [mem_completions, mem_completions]
  constructor
  · rintro ⟨r', hr', hname, hcontent⟩
    exact ⟨r', ((mem_unlink hnames hr).mp hr').1, hname, hcontent⟩
  · rintro ⟨r', hr', hname, hcontent⟩
    refine ⟨r', (mem_unlink hnames hr).mpr ⟨hr', ?_⟩, hname, hcontent⟩
    rintro rfl
    exact hpk hname.symm

/-- What was unlinked, rows as they may be by then. -/
theorem Folds.unlinked (h : Folds clock s done t) (hnames : (s.receipts.map Receipt.name).Nodup) (hr : r ∈ s.receipts)
    (hdone : r ∉ done) {completedAt : Time} (hread : r.read clock = .ok (r.submission, completedAt)) {rows : Table Submission}
    (hrow : ∀ pk row, s.rows.find pk = some row → ∃ row', rows.find pk = some row' ∧
      row' = { row with firstDownloadAt := row'.firstDownloadAt, expiresAt := row'.expiresAt })
    (hother : ∀ pk, pk ≠ r.submission → rows.find pk = t.rows.find pk)
    (hown : ∀ row row', s.rows.find r.submission = some row → rows.find r.submission = some row' →
      (row.state ≠ .ready ∨ ¬s.Readable clock r.submission → row' = row) ∧
      (row.state = .ready → s.Readable clock r.submission →
        ReportTransfer.effectiveExpiry row' (({ t with rows := rows }.unlink r.name).completions r.submission) =
          ReportTransfer.effectiveExpiry row (s.completions r.submission)))
    (habsent : s.rows.find r.submission = none → rows.find r.submission = none)
    (hfirst : ∀ row row' first, t.rows.find r.submission = some row → row.firstDownloadAt = some first →
      rows.find r.submission = some row' → ∃ first', row'.firstDownloadAt = some first' ∧ first' ≤ first)
    (hnew : ∀ row, s.rows.find r.submission = some row → row.state = .ready → s.Readable clock r.submission ∧
      row.createdAt ≤ completedAt ∧ completedAt < ReportTransfer.effectiveExpiry row (s.completions r.submission) ∧
      ∃ row' first, rows.find r.submission = some row' ∧ row'.firstDownloadAt = some first ∧ first ≤ completedAt) :
    Folds clock s (r :: done) ({ t with rows := rows }.unlink r.name) := by
  have hnames' : (({ t with rows := rows } : Spool).receipts.map Receipt.name).Nodup := (h.receipts.map _).nodup hnames
  have hr' : r ∈ ({ t with rows := rows } : Spool).receipts := h.waiting r hr hdone
  have hmem : ∀ {r'}, r' ∈ ({ t with rows := rows }.unlink r.name).receipts ↔ r' ∈ t.receipts ∧ r' ≠ r := mem_unlink hnames' hr'
  constructor
  case payloads => exact h.payloads
  case temporaries => exact h.temporaries
  case receipts => exact List.filter_sublist.trans h.receipts
  case waiting =>
    intro r' hr' hdone'
    rw [List.mem_cons, not_or] at hdone'
    exact hmem.mpr ⟨h.waiting r' hr' hdone'.2, hdone'.1⟩
  case unreadable =>
    intro r' hr' hunreadable
    refine hmem.mpr ⟨h.unreadable r' hr' hunreadable, ?_⟩
    rintro rfl
    exact hunreadable completedAt hread
  case row => exact hrow
  case absent =>
    intro pk hpk
    by_cases heq : pk = r.submission
    · rw [heq] at hpk ⊢
      exact habsent hpk
    · exact (hother pk heq).trans (h.absent pk hpk)
  case unchanged =>
    intro pk row hpk hreason
    by_cases heq : pk = r.submission
    · subst heq
      obtain ⟨row', hrow', -⟩ := hrow _ row hpk
      change rows.find r.submission = some row
      rw [hrow', (hown row row' hpk hrow').1 hreason]
    · exact (hother pk heq).trans (h.unchanged pk row hpk hreason)
  case untouched =>
    intro pk hkept
    have hne : pk ≠ r.submission := by
      rintro rfl
      exact (hmem.mp (hkept r List.mem_cons_self rfl)).2 rfl
    exact (hother pk hne).trans (h.untouched pk fun r' hr' hname => (hmem.mp (hkept r' (List.mem_cons_of_mem _ hr') hname)).1)
  case expiry =>
    intro pk row row' hpk hready hreadable hrow'
    by_cases heq : pk = r.submission
    · subst heq
      exact (hown row row' hpk hrow').2 hready hreadable
    · have hrow'' : t.rows.find pk = some row' := (hother pk heq).symm.trans hrow'
      rw [← h.expiry pk row row' hpk hready hreadable hrow'']
      exact effectiveExpiry_congr fun c => completions_unlink hnames' hr' heq
  case stays =>
    intro r' hr' hkept
    obtain ⟨hkept, hne⟩ := hmem.mp hkept
    rcases List.mem_cons.mp hr' with heq | hr'
    · exact absurd heq hne
    · exact h.stays r' hr' hkept
  case recorded =>
    intro r' hr' hgone row hpk hready
    by_cases heq : r' = r
    · subst heq
      obtain ⟨hreadable, hcreated, hlate, row', first, hrow', hfirst', hle⟩ := hnew row hpk hready
      exact ⟨completedAt, row', first, hread, hreadable, hcreated, hlate, hrow', hfirst', hle⟩
    · rw [hmem, not_and, not_not] at hgone
      have hgone : r' ∉ t.receipts := fun hkept => heq (hgone hkept)
      obtain ⟨c, row', first, hread', hreadable, hcreated, hlate, hrow', hfirst', hle⟩ :=
        h.recorded r' ((List.mem_cons.mp hr').resolve_left heq) hgone row hpk hready
      by_cases hsame : r'.submission = r.submission
      · obtain ⟨row'', hrow'', -⟩ := hrow _ row hpk
        rw [hsame] at hrow' hrow''
        obtain ⟨first', hfirst'', hle'⟩ := hfirst row' row'' first hrow' hfirst' hrow''
        exact ⟨c, row'', first', hread', hreadable, hcreated, hlate, by rw [hsame]; exact hrow'', hfirst'', hle'.trans hle⟩
      · exact ⟨c, row', first, hread', hreadable, hcreated, hlate, (hother _ hsame).trans hrow', hfirst', hle⟩

/-- A receipt of a submission that is not ready is dropped. -/
theorem Folds.dropped (h : Folds clock s done t) (hnames : (s.receipts.map Receipt.name).Nodup) (hr : r ∈ s.receipts)
    (hdone : r ∉ done) {completedAt : Time} (hread : r.read clock = .ok (r.submission, completedAt))
    (hclosed : ∀ row, t.rows.find r.submission = some row → row.state ≠ .ready) :
    Folds clock s (r :: done) (t.unlink r.name) := by
  have hclosed' : ∀ row, s.rows.find r.submission = some row → row.state ≠ .ready := by
    intro row hrow hready
    obtain ⟨row', hrow', hsame⟩ := h.row _ row hrow
    refine hclosed row' hrow' ?_
    rw [hsame]
    exact hready
  refine h.unlinked hnames hr hdone hread h.row (fun _ _ => rfl) ?_ (h.absent _) ?_ ?_
  · intro row row' hrow hrow'
    constructor
    · intro hreason
      rw [h.unchanged _ row hrow hreason] at hrow'
      exact (Option.some.inj hrow').symm
    · intro hready
      exact absurd hready (hclosed' row hrow)
  · intro row row' first hrow hfirst hrow'
    rw [hrow] at hrow'
    cases hrow'
    exact ⟨first, hfirst, le_rfl⟩
  · intro row hrow hready
    exact absurd hready (hclosed' row hrow)

/-- A receipt whose completion is recorded goes with it. -/
theorem Folds.folded (h : Folds clock s done t) (hnames : (s.receipts.map Receipt.name).Nodup) (hr : r ∈ s.receipts)
    (hdone : r ∉ done) {completedAt : Time} (hread : r.read clock = .ok (r.submission, completedAt)) {row row' : Submission}
    (hrow : t.rows.find r.submission = some row) (hready : row.state = .ready) (hreadable : t.Readable clock r.submission)
    (hrecord : recordSuccessfulDownload row (t.completions r.submission) completedAt clock = .ok row') :
    Folds clock s (r :: done) ({ t with rows := t.rows.modify r.submission fun _ => row' }.unlink r.name) := by
  have hnames' : (t.receipts.map Receipt.name).Nodup := (h.receipts.map _).nodup hnames
  have hkept : r ∈ t.receipts := h.waiting r hr hdone
  obtain ⟨hcontent, -, -⟩ := Receipt.read_ok.mp hread
  obtain ⟨row₀, hrow₀, hsame₀⟩ := h.find_ready hrow
  have hready₀ : row₀.state = .ready := by
    rw [hsame₀] at hready
    exact hready
  obtain ⟨-, hcreated, -, hlate, first, hearliest, hle, -, -, hrow'⟩ := recordSuccessfulDownload_ok hrecord
  have hown : (t.rows.modify r.submission fun _ => row').find r.submission = some row' := by
    rw [Table.find_modify, if_pos rfl, hrow]
    rfl
  have hother : ∀ pk, pk ≠ r.submission → (t.rows.modify r.submission fun _ => row').find pk = t.rows.find pk := by
    intro pk hpk
    rw [Table.find_modify, if_neg hpk.symm]
  have hmem : ∀ c, c ∈ ({ t with rows := t.rows.modify r.submission fun _ => row' }.unlink r.name).completions r.submission ↔
      ∃ r' ∈ t.receipts, r' ≠ r ∧ r'.submission = r.submission ∧ ∃ q, r'.content = some (q, c) := by
    intro c
    have hunlink := @mem_unlink { t with rows := t.rows.modify r.submission fun _ => row' } r hnames' hkept
    simp only [mem_completions, hunlink, and_assoc]
  refine h.unlinked hnames hr hdone hread ?_ hother ?_ ?_ ?_ ?_
  · intro pk row₁ hrow₁
    by_cases hpk : pk = r.submission
    · subst hpk
      rw [hrow₀] at hrow₁
      cases hrow₁
      refine ⟨row', hown, ?_⟩
      rw [hrow', hsame₀]
    · rw [hother pk hpk]
      exact h.row pk row₁ hrow₁
  · intro row₁ row₂ hrow₁ hrow₂
    rw [hrow₀] at hrow₁
    rw [hown] at hrow₂
    cases hrow₁
    cases hrow₂
    constructor
    · rintro (hclosed | hno)
      · exact absurd hready₀ hclosed
      · exact absurd (h.readable_iff.mp hreadable) hno
    · intro _ hreadable₀
      rw [← h.expiry _ _ _ hrow₀ hready₀ hreadable₀ hrow]
      refine effectiveExpiry_recorded hrecord (mem_completions.mpr ⟨r, hkept, rfl, _, hcontent⟩) ?_ ?_
      · intro c hc
        obtain ⟨r', hr', -, hname, hc⟩ := (hmem c).mp hc
        exact mem_completions.mpr ⟨r', hr', hname, hc⟩
      · intro c hc
        obtain ⟨r', hr', hname, q, hcontent'⟩ := mem_completions.mp hc
        by_cases heq : r' = r
        · subst heq
          rw [hcontent] at hcontent'
          cases hcontent'
          exact .inr rfl
        · exact .inl ((hmem c).mpr ⟨r', hr', heq, hname, q, hcontent'⟩)
  · intro hnone
    rw [hrow₀] at hnone
    cases hnone
  · intro row₁ row₂ f hrow₁ hfirst hrow₂
    rw [hrow] at hrow₁
    rw [hown] at hrow₂
    cases hrow₁
    cases hrow₂
    refine ⟨first, ?_, hearliest f hfirst⟩
    rw [hrow']
  · intro row₁ hrow₁ _
    rw [hrow₀] at hrow₁
    cases hrow₁
    have hreadable₀ := h.readable_iff.mp hreadable
    rw [h.expiry _ _ _ hrow₀ hready₀ hreadable₀ hrow] at hlate
    rw [hsame₀] at hcreated
    refine ⟨hreadable₀, hcreated, hlate, row', first, hown, ?_, hle⟩
    rw [hrow']

theorem Folds.step (h : Folds clock s done t) (hnames : (s.receipts.map Receipt.name).Nodup) (hr : r ∈ s.receipts)
    (hdone : r ∉ done) : Folds clock s (r :: done) (reconciled clock t r) := by
  unfold reconciled
  cases hreconcile : t.reconcile clock r with
  | error e =>
    have hkept := h.waiting r hr hdone
    have hstays := h.stays_iff.mp (stays_of_error hreconcile)
    exact { h with
      waiting := fun r' hr' hdone' => h.waiting r' hr' fun hmem => hdone' (List.mem_cons_of_mem _ hmem)
      untouched := fun pk hkept' => h.untouched pk fun r' hr' => hkept' r' (List.mem_cons_of_mem _ hr')
      stays := fun r' hr' hr'' => (List.mem_cons.mp hr').elim (fun heq => heq ▸ hstays) fun hr' => h.stays r' hr' hr''
      recorded := fun r' hr' hgone => h.recorded r' ((List.mem_cons.mp hr').resolve_left fun heq => hgone (heq ▸ hkept)) hgone }
  | ok t' =>
    obtain ⟨completedAt, hread, hcase⟩ := reconcile_ok hreconcile
    rcases hcase with ⟨row, row', hrow, hready, hreadable, hrecord, rfl⟩ | ⟨hclosed, rfl⟩
    · exact h.folded hnames hr hdone hread hrow hready hreadable hrecord
    · exact h.dropped hnames hr hdone hread hclosed

/-- What a pass over all receipts leaves. -/
theorem folds_all (hnames : (s.receipts.map Receipt.name).Nodup) :
    ∃ done, (∀ r, r ∈ done ↔ r ∈ s.receipts) ∧ Folds clock s done (s.receipts.foldl (reconciled clock) s) := by
  have hrun : ∀ (l : List Receipt) (done : List Receipt) (t : Spool), Folds clock s done t → (∀ r ∈ l, r ∈ s.receipts) → l.Nodup →
      (∀ r ∈ l, r ∉ done) → ∃ done', (∀ r, r ∈ done' ↔ r ∈ l ∨ r ∈ done) ∧ Folds clock s done' (l.foldl (reconciled clock) t) := by
    intro l
    induction l with
    | nil => exact fun done t h _ _ _ => ⟨done, by simp, h⟩
    | cons r l ih =>
      intro done t h hl hnodup hdone
      rw [List.forall_mem_cons] at hl hdone
      rw [List.nodup_cons] at hnodup
      have hfresh : ∀ r' ∈ l, r' ∉ r :: done := by
        intro r' hr' hmem
        rcases List.mem_cons.mp hmem with rfl | hmem
        · exact hnodup.1 hr'
        · exact hdone.2 r' hr' hmem
      obtain ⟨done', hmem, hfolds⟩ := ih (r :: done) _ (h.step hnames hl.1 hdone.1) hl.2 hnodup.2 hfresh
      refine ⟨done', fun r' => ?_, hfolds⟩
      rw [hmem, List.mem_cons, List.mem_cons]
      tauto
  obtain ⟨done, hmem, hfolds⟩ := hrun s.receipts [] s .refl (fun _ hr => hr) hnames.of_map (by simp)
  exact ⟨done, by simpa using hmem, hfolds⟩

end

/-! ### The rows of a pass -/

/-- The row is ready, past its deadline, and has its content to remove. -/
def Purgeable (s : Spool) (now clock : Time) (pk : ℕ) (row : Submission) (key : ℕ) : Prop :=
  s.rows.find pk = some row ∧ row.state = .ready ∧ (∃ e, s.effectiveExpiry clock pk row = .ok e ∧ e ≤ now) ∧
    row.payloadKey = some key

def purged (now clock : Time) (s : Spool) (pk : ℕ) : Spool :=
  match s.purge now clock pk with
  | .ok (some t) => t
  | _ => s

theorem foldl_purge (now clock : Time) (l : List ℕ) (p : Pass) :
    (l.foldl (Pass.purge now clock) p).spool = l.foldl (purged now clock) p.spool := by
  induction l generalizing p with
  | nil => rfl
  | cons pk l ih =>
    rw [List.foldl_cons, List.foldl_cons, ih]
    congr 1
    unfold Pass.purge purged
    cases p.spool.purge now clock pk with
    | error e => rfl
    | ok t => cases t <;> rfl

section

variable {s t : Spool} {now clock : Time} {pk : ℕ} {row : Submission} {l : List ℕ}

theorem purge_some : s.purge now clock pk = .ok (some t) ↔ ∃ row key, s.Purgeable now clock pk row key ∧ t = { s with
    payloads := s.payloads.filter fun p => p.1 ≠ key
    rows := s.rows.modify pk Submission.purged } := by
  unfold purge Purgeable
  cases hrow : s.rows.find pk with
  | none => simp [throw, throwThe, MonadExceptOf.throw]
  | some row =>
    dsimp only
    by_cases hready : row.state = .ready
    · rw [if_neg (not_not.mpr hready)]
      cases hexpiry : s.effectiveExpiry clock pk row with
      | error e =>
        constructor
        · nofun
        · rintro ⟨row', key, ⟨heq, -, ⟨e', he', -⟩, -⟩, -⟩
          cases heq
          rw [hexpiry] at he'
          cases he'
      | ok e =>
        rw [ok_bind]
        by_cases hlate : now < e
        · rw [if_pos hlate]
          constructor
          · nofun
          · rintro ⟨row', key, ⟨heq, -, ⟨e', he', hle⟩, -⟩, -⟩
            cases heq
            rw [hexpiry] at he'
            cases he'
            exact absurd hle (not_le.mpr hlate)
        · rw [if_neg hlate]
          cases hkey : row.payloadKey with
          | none =>
            constructor
            · nofun
            · rintro ⟨row', key, ⟨heq, -, -, hkey'⟩, -⟩
              cases heq
              rw [hkey] at hkey'
              cases hkey'
          | some key =>
            constructor
            · intro h
              cases h
              exact ⟨row, key, ⟨rfl, hready, ⟨e, hexpiry, not_lt.mp hlate⟩, hkey⟩, rfl⟩
            · rintro ⟨row', key', ⟨heq, -, -, hkey'⟩, rfl⟩
              cases heq
              rw [hkey] at hkey'
              cases hkey'
              rfl
    · rw [if_pos hready]
      constructor
      · nofun
      · rintro ⟨row', key, ⟨heq, hready', -⟩, -⟩
        cases heq
        exact absurd hready' hready

/-- What the rows selected so far have left. -/
structure Purges (now clock : Time) (s : Spool) (done : List ℕ) (t : Spool) : Prop where
  receipts : t.receipts = s.receipts
  temporaries : t.temporaries = s.temporaries
  rows : ∀ pk, t.rows.find pk = s.rows.find pk ∨ pk ∈ done ∧ ∃ row key, s.Purgeable now clock pk row key ∧ t.rows.find pk = some row.purged
  all : ∀ pk ∈ done, ∀ row key, s.Purgeable now clock pk row key → t.rows.find pk = some row.purged
  payloads : ∀ f, f ∈ t.payloads ↔ f ∈ s.payloads ∧ ∀ pk row, s.Purgeable now clock pk row f.1 → t.rows.find pk ≠ some row.purged
  order : t.payloads.Sublist s.payloads

theorem Purgeable.ready_ne {key : ℕ} (h : s.Purgeable now clock pk row key) {row' : Submission} :
    s.rows.find pk ≠ some row'.purged := by
  obtain ⟨hrow, hready, -⟩ := h
  intro heq
  rw [hrow] at heq
  cases heq
  cases hready

theorem Purges.refl : Purges now clock s [] s where
  receipts := rfl
  temporaries := rfl
  rows _ := .inl rfl
  all := by simp
  payloads f := ⟨fun hf => ⟨hf, fun _ _ h => h.ready_ne⟩, And.left⟩
  order := .refl _

theorem Purges.purgeable_iff {done : List ℕ} (h : Purges now clock s done t) (hpk : pk ∉ done) {key : ℕ} :
    t.Purgeable now clock pk row key ↔ s.Purgeable now clock pk row key := by
  have hrow : t.rows.find pk = s.rows.find pk := (h.rows pk).resolve_right fun hdone => hpk hdone.1
  have hexpiry : t.effectiveExpiry clock pk row = s.effectiveExpiry clock pk row := by
    unfold effectiveExpiry pendingDownloads
    rw [h.receipts]
  rw [Purgeable, Purgeable, hrow, hexpiry]

theorem Purges.step {done : List ℕ} (h : Purges now clock s done t) (hpk : pk ∉ done) :
    Purges now clock s (pk :: done) (purged now clock t pk) := by
  have hrow : t.rows.find pk = s.rows.find pk := (h.rows pk).resolve_right fun hdone => hpk hdone.1
  unfold purged
  split
  · rename_i t' ht'
    obtain ⟨row, key, hpurgeable, rfl⟩ := purge_some.mp ht'
    have hpurgeable := (h.purgeable_iff hpk).mp hpurgeable
    have hown : (t.rows.modify pk Submission.purged).find pk = some row.purged := by
      rw [Table.find_modify, if_pos rfl, hrow, hpurgeable.1]
      rfl
    have hother : ∀ pk', pk' ≠ pk → (t.rows.modify pk Submission.purged).find pk' = t.rows.find pk' := by
      intro pk' hne
      rw [Table.find_modify, if_neg hne.symm]
    constructor
    · exact h.receipts
    · exact h.temporaries
    · intro pk'
      by_cases heq : pk' = pk
      · subst heq
        exact .inr ⟨List.mem_cons_self, row, key, hpurgeable, hown⟩
      · dsimp only
        rw [hother pk' heq]
        exact (h.rows pk').imp_right fun hdone => ⟨List.mem_cons_of_mem _ hdone.1, hdone.2⟩
    · intro pk' hmem row' key' hpurgeable'
      by_cases heq : pk' = pk
      · subst heq
        have hsame := hpurgeable.1.symm.trans hpurgeable'.1
        cases hsame
        exact hown
      · dsimp only
        rw [hother pk' heq]
        exact h.all pk' ((List.mem_cons.mp hmem).resolve_left heq) row' key' hpurgeable'
    · intro f
      simp only [List.mem_filter, decide_eq_true_eq, h.payloads f, and_assoc]
      refine and_congr_right fun _ => ⟨?_, ?_⟩
      · rintro ⟨hall, hkey⟩ pk' row' hpurgeable'
        by_cases heq : pk' = pk
        · subst heq
          have hsame := hpurgeable.1.symm.trans hpurgeable'.1
          cases hsame
          have hkeys := hpurgeable.2.2.2.symm.trans hpurgeable'.2.2.2
          exact absurd (Option.some.inj hkeys).symm hkey
        · rw [hother pk' heq]
          exact hall pk' row' hpurgeable'
      · intro hall
        constructor
        · intro pk' row' hpurgeable'
          by_cases heq : pk' = pk
          · subst heq
            rw [hrow]
            exact hpurgeable'.ready_ne
          · have hne := hall pk' row' hpurgeable'
            rwa [hother pk' heq] at hne
        · intro hkey
          refine hall pk row ?_ hown
          rw [hkey]
          exact hpurgeable
    · exact List.filter_sublist.trans h.order
  · rename_i hno
    constructor
    · exact h.receipts
    · exact h.temporaries
    · intro pk'
      exact (h.rows pk').imp_right fun hdone => ⟨List.mem_cons_of_mem _ hdone.1, hdone.2⟩
    · intro pk' hmem row' key' hpurgeable'
      rcases List.mem_cons.mp hmem with rfl | hmem
      · exact absurd (purge_some.mpr ⟨row', key', (h.purgeable_iff hpk).mpr hpurgeable', rfl⟩) (hno _)
      · exact h.all pk' hmem row' key' hpurgeable'
    · exact h.payloads
    · exact h.order

theorem purges_all (hnodup : l.Nodup) : ∃ done, (∀ pk, pk ∈ done ↔ pk ∈ l) ∧ Purges now clock s done (l.foldl (purged now clock) s) := by
  have hrun : ∀ (l done : List ℕ) (t : Spool), Purges now clock s done t → l.Nodup → (∀ pk ∈ l, pk ∉ done) →
      ∃ done', (∀ pk, pk ∈ done' ↔ pk ∈ l ∨ pk ∈ done) ∧ Purges now clock s done' (l.foldl (purged now clock) t) := by
    intro l
    induction l with
    | nil => exact fun done t h _ _ => ⟨done, by simp, h⟩
    | cons pk l ih =>
      intro done t h hnodup hdone
      rw [List.nodup_cons] at hnodup
      rw [List.forall_mem_cons] at hdone
      have hfresh : ∀ pk' ∈ l, pk' ∉ pk :: done := by
        intro pk' hpk' hmem
        rcases List.mem_cons.mp hmem with rfl | hmem
        · exact hnodup.1 hpk'
        · exact hdone.2 pk' hpk' hmem
      obtain ⟨done', hmem, hpurges⟩ := ih (pk :: done) _ (h.step hdone.1) hnodup.2 hfresh
      refine ⟨done', fun pk' => ?_, hpurges⟩
      rw [hmem, List.mem_cons, List.mem_cons]
      tauto
  obtain ⟨done, hmem, hpurges⟩ := hrun l [] s .refl hnodup (by simp)
  exact ⟨done, by simpa using hmem, hpurges⟩

end

/-! ### A whole pass -/

/-- Files have different names, a payload belongs to one row, and ready rows have one. -/
structure WellFormed (s : Spool) : Prop where
  names : (s.receipts.map Receipt.name).Nodup
  files : (s.payloads.map Prod.fst).Nodup
  keys : ∀ i j row row' key, s.rows.find i = some row → s.rows.find j = some row' → row.payloadKey = some key →
    row'.payloadKey = some key → i = j
  ready : ∀ i row, s.rows.find i = some row → row.state = .ready → ∃ key, row.payloadKey = some key

/-- What a pass leaves of a spool. -/
structure Cleaned (now clock : Time) (s t : Spool) : Prop where
  /-- From the deadline on a submission is expired and its payload gone. -/
  expired : ∀ pk row e, s.rows.find pk = some row → row.state = .ready → s.effectiveExpiry clock pk row = .ok e → e ≤ now →
    ∃ row', t.rows.find pk = some row' ∧ row'.state = .expired ∧ row'.payloadKey = none ∧
      ∀ key content, row.payloadKey = some key → (key, content) ∉ t.payloads
  /-- Before it, the submission and its payload stay, and so does the deadline. -/
  kept : ∀ pk row e, s.rows.find pk = some row → row.state = .ready → s.effectiveExpiry clock pk row = .ok e → now < e →
    ∃ row', t.rows.find pk = some row' ∧ t.effectiveExpiry clock pk row' = .ok e ∧
      row' = { row with firstDownloadAt := row'.firstDownloadAt, expiresAt := row'.expiresAt } ∧
      ((∀ r ∈ s.receipts, r.submission = pk → s.Stays clock r) → row' = row) ∧
      ∀ key content, row.payloadKey = some key → ((key, content) ∈ t.payloads ↔ (key, content) ∈ s.payloads)
  /-- Other rows stay as they are, also those whose receipts cannot be read. -/
  unchanged : ∀ pk row, s.rows.find pk = some row → (row.state ≠ .ready ∨ ∃ e, s.effectiveExpiry clock pk row = .error e) →
    t.rows.find pk = some row
  absent : ∀ pk, s.rows.find pk = none → t.rows.find pk = none
  /-- The receipts left are those that cannot be folded. -/
  receipts : ∀ r, r ∈ t.receipts ↔ r ∈ s.receipts ∧ s.Stays clock r
  order : t.receipts.Sublist s.receipts
  /-- A folded completion is in the row. -/
  folded : ∀ r ∈ s.receipts, ¬s.Stays clock r → ∀ row, s.rows.find r.submission = some row → row.state = .ready →
    ∃ completedAt row' first, r.read clock = .ok (r.submission, completedAt) ∧ t.rows.find r.submission = some row' ∧
      row'.firstDownloadAt = some first ∧ first ≤ completedAt
  /-- The payloads left are those of the rows. -/
  payloads : ∀ f, f ∈ t.payloads ↔ f ∈ s.payloads ∧ ∃ pk row, t.rows.find pk = some row ∧ row.payloadKey = some f.1
  contents : t.payloads.Sublist s.payloads
  temporaries : t.temporaries = s.temporaries.filter fun modified => now ≤ modified + hour

section

variable {s : Spool} {now clock : Time}

/-- The parts of a pass. -/
theorem cleanup_parts (now clock : Time) (hs : s.WellFormed) : ∃ t u done done', Folds clock s done t ∧ (∀ r, r ∈ done ↔ r ∈ s.receipts) ∧
    Purges now clock t done' u ∧ (∀ pk, pk ∈ done' ↔ pk ∈ t.due now) ∧
    (cleanup now clock s).spool = { u with
      payloads := u.payloads.filter fun f => u.isReferenced f.1
      temporaries := u.temporaries.filter fun modified => now ≤ modified + hour } := by
  obtain ⟨done, hall, hfolds⟩ := @folds_all s clock hs.names
  have hnodup : ((s.receipts.foldl (reconciled clock) s).due now).Nodup := Table.nodup_keys_filter _ _
  obtain ⟨done', hdone', hpurges⟩ := @purges_all _ now clock _ hnodup
  refine ⟨_, _, done, done', hfolds, hall, hpurges, hdone', ?_⟩
  unfold cleanup Pass.sweep
  simp only [foldl_purge, foldl_reconcile]

theorem mem_due {pk : ℕ} : pk ∈ s.due now ↔ ∃ row, s.rows.find pk = some row ∧ row.state = .ready ∧ row.deadline ≤ now := by
  simp only [due, List.mem_map, Prod.exists, exists_and_right, exists_eq_right, Table.mem_filter, isDue_iff]

/-- After all receipts had their turn, the columns of a ready row give its deadline. -/
theorem Folds.deadline {t : Spool} {done : List Receipt} (h : Folds clock s done t) (hall : ∀ r ∈ s.receipts, r ∈ done) {pk : ℕ}
    {row row' : Submission} (hrow : s.rows.find pk = some row) (hready : row.state = .ready) (hreadable : s.Readable clock pk)
    (hrow' : t.rows.find pk = some row') :
    row'.deadline = ReportTransfer.effectiveExpiry row (s.completions pk) := by
  have hexpiry := h.expiry pk row row' hrow hready hreadable hrow'
  have hcreated : row'.createdAt = row.createdAt := by
    obtain ⟨row'', hfind, hsame⟩ := h.row pk row hrow
    rw [hrow'] at hfind
    cases hfind
    rw [hsame]
  have hrefused : ∀ c ∈ t.completions pk, c < row'.createdAt ∨ ReportTransfer.effectiveExpiry row' (t.completions pk) ≤ c := by
    intro c hc
    obtain ⟨r, hr, rfl, q, hcontent⟩ := mem_completions.mp hc
    have hr₀ := h.receipts.subset hr
    obtain ⟨completedAt, hread⟩ := hreadable r hr₀ rfl
    obtain ⟨hcontent', -, -⟩ := Receipt.read_ok.mp hread
    rw [hcontent] at hcontent'
    cases hcontent'
    obtain ⟨row₀, hrow₀, -, hstays⟩ := h.stays r (hall r hr₀) hr c hread
    rw [hrow] at hrow₀
    cases hrow₀
    rw [hcreated, hexpiry]
    exact hstays hreadable
  rw [← effectiveExpiry_refused hrefused, hexpiry]

/-- The receipts left are those that cannot be folded. -/
theorem Folds.mem_receipts {t : Spool} {done : List Receipt} (h : Folds clock s done t) (hall : ∀ r ∈ s.receipts, r ∈ done)
    {r : Receipt} : r ∈ t.receipts ↔ r ∈ s.receipts ∧ s.Stays clock r := by
  constructor
  · intro hr
    have hr₀ := h.receipts.subset hr
    exact ⟨hr₀, h.stays r (hall r hr₀) hr⟩
  · rintro ⟨hr, hstays⟩
    by_contra hgone
    by_cases hread : ∃ completedAt, r.read clock = .ok (r.submission, completedAt)
    · obtain ⟨completedAt, hread⟩ := hread
      obtain ⟨row, hrow, hready, hrefused⟩ := hstays completedAt hread
      obtain ⟨c, -, -, hread', hreadable, hcreated, hlate, -⟩ := h.recorded r (hall r hr) hgone row hrow hready
      rw [hread] at hread'
      cases hread'
      rcases hrefused hreadable with hbefore | hafter
      · exact absurd hcreated (not_le.mpr hbefore)
      · exact absurd hafter (not_le.mpr hlate)
    · exact hgone (h.unreadable r hr fun completedAt hread' => hread ⟨completedAt, hread'⟩)

/-- The columns a pass may change never make two rows share a payload. -/
theorem Folds.keys {t : Spool} {done : List Receipt} (h : Folds clock s done t) (hs : s.WellFormed) {i j : ℕ}
    {row row' : Submission} {key : ℕ} (hi : t.rows.find i = some row) (hj : t.rows.find j = some row')
    (hkey : row.payloadKey = some key) (hkey' : row'.payloadKey = some key) : i = j := by
  obtain ⟨row₀, hrow₀, hsame⟩ := h.find_ready hi
  obtain ⟨row₀', hrow₀', hsame'⟩ := h.find_ready hj
  rw [hsame] at hkey
  rw [hsame'] at hkey'
  exact hs.keys i j _ _ key hrow₀ hrow₀' hkey hkey'

/-- A payload stays when a row still has it, and only then. -/
theorem Purges.mem_payloads {t u : Spool} {done : List ℕ} (h : Purges now clock t done u)
    (hkeys : ∀ i j row row' key, t.rows.find i = some row → t.rows.find j = some row' → row.payloadKey = some key →
      row'.payloadKey = some key → i = j) {f : ℕ × Bytes} :
    f ∈ u.payloads.filter (fun f => u.isReferenced f.1) ↔ f ∈ t.payloads ∧
      ∃ pk row, u.rows.find pk = some row ∧ row.payloadKey = some f.1 := by
  have hreferenced : u.isReferenced f.1 = true ↔ ∃ pk row, u.rows.find pk = some row ∧ row.payloadKey = some f.1 := by
    rw [isReferenced, Table.any_eq_true]
    simp only [decide_eq_true_eq]
  rw [List.mem_filter, hreferenced, h.payloads, and_assoc, and_congr_right_iff]
  refine fun _ => ⟨And.right, fun hrow => ⟨fun pk row hpurgeable hpurged => ?_, hrow⟩⟩
  obtain ⟨pk', row', hrow', hkey'⟩ := hrow
  rcases h.rows pk' with hsame | ⟨-, row'', key'', -, hpurged''⟩
  · have hpk := hkeys pk pk' row row' f.1 hpurgeable.1 (hsame.symm.trans hrow') hpurgeable.2.2.2 hkey'
    subst hpk
    rw [hpurged] at hrow'
    cases hrow'
    cases hkey'
  · rw [hpurged''] at hrow'
    cases hrow'
    cases hkey'

theorem cleanup_cleaned (hs : s.WellFormed) (now clock : Time) : Cleaned now clock s (cleanup now clock s).spool := by
  obtain ⟨t, u, done, done', hfolds, hdone, hpurges, hdue, hparts⟩ := cleanup_parts now clock hs
  have hall : ∀ r ∈ s.receipts, r ∈ done := fun r hr => (hdone r).mpr hr
  have hkeys := fun i j row row' key => @Folds.keys s clock t done hfolds hs i j row row' key
  have hexpiry : ∀ pk row e, t.effectiveExpiry clock pk row = .ok e ↔ s.Readable clock pk ∧
      ReportTransfer.effectiveExpiry row (t.completions pk) = e := by
    intro pk row e
    rw [effectiveExpiry_ok, hfolds.readable_iff]
  rw [hparts]
  constructor
  case expired =>
    intro pk row e hrow hready he hle
    obtain ⟨hreadable, hexpires⟩ := effectiveExpiry_ok.mp he
    obtain ⟨row', hrow', hsame⟩ := hfolds.row pk row hrow
    obtain ⟨key, hkey⟩ := hs.ready pk row hrow hready
    have hdeadline := hfolds.deadline hall hrow hready hreadable hrow'
    have hready' : row'.state = .ready := by
      rw [hsame]
      exact hready
    have hkey' : row'.payloadKey = some key := by
      rw [hsame]
      exact hkey
    have hpurgeable : t.Purgeable now clock pk row' key := by
      refine ⟨hrow', hready', ⟨e, ?_, hle⟩, hkey'⟩
      rw [hexpiry, hfolds.expiry pk row row' hrow hready hreadable hrow']
      exact ⟨hreadable, hexpires⟩
    have hmem : pk ∈ done' := by
      rw [hdue, mem_due]
      exact ⟨row', hrow', hready', by rw [hdeadline, hexpires]; exact hle⟩
    have hpurged := hpurges.all pk hmem row' key hpurgeable
    refine ⟨row'.purged, hpurged, rfl, rfl, fun key' content hkey'' hcontent => ?_⟩
    rw [hkey] at hkey''
    cases hkey''
    exact ((hpurges.payloads _).mp (List.mem_filter.mp hcontent).1).2 pk row' hpurgeable hpurged
  case kept =>
    intro pk row e hrow hready he hlt
    obtain ⟨hreadable, hexpires⟩ := effectiveExpiry_ok.mp he
    obtain ⟨row', hrow', hsame⟩ := hfolds.row pk row hrow
    have hexpiry' : t.effectiveExpiry clock pk row' = .ok e := by
      rw [hexpiry, hfolds.expiry pk row row' hrow hready hreadable hrow']
      exact ⟨hreadable, hexpires⟩
    have hstays : u.rows.find pk = some row' := by
      rcases hpurges.rows pk with heq | ⟨-, row'', key, ⟨hrow'', -, ⟨e', he', hle⟩, -⟩, -⟩
      · rw [heq, hrow']
      · rw [hrow'] at hrow''
        cases hrow''
        rw [hexpiry'] at he'
        cases he'
        exact absurd hle (not_le.mpr hlt)
    have hreceipts : ∀ row, u.effectiveExpiry clock pk row = t.effectiveExpiry clock pk row := by
      intro row
      unfold effectiveExpiry pendingDownloads
      rw [hpurges.receipts]
    refine ⟨row', hstays, (hreceipts row').trans hexpiry', hsame, fun hrefused => ?_, fun key content hkey => ?_⟩
    · have huntouched := hfolds.untouched pk fun r hr hname =>
        (hfolds.mem_receipts hall).mpr ⟨(hdone r).mp hr, hrefused r ((hdone r).mp hr) hname⟩
      rw [hrow', hrow] at huntouched
      exact Option.some.inj huntouched
    · rw [hpurges.mem_payloads hkeys, hfolds.payloads]
      refine ⟨And.left, fun hcontent => ⟨hcontent, pk, row', hstays, ?_⟩⟩
      rw [hsame]
      exact hkey
  case unchanged =>
    intro pk row hrow hreason
    have hreason' : row.state ≠ .ready ∨ ¬s.Readable clock pk := by
      refine hreason.imp_right ?_
      rintro ⟨e, he⟩ hreadable
      rw [effectiveExpiry_ok.mpr ⟨hreadable, rfl⟩] at he
      cases he
    have hrow' := hfolds.unchanged pk row hrow hreason'
    rcases hpurges.rows pk with heq | ⟨-, row'', key, ⟨hrow'', hready, ⟨e', he', -⟩, -⟩, -⟩
    · exact heq.trans hrow'
    · rw [hrow'] at hrow''
      cases hrow''
      rcases hreason' with hclosed | hno
      · exact absurd hready hclosed
      · exact absurd ((hexpiry _ _ _).mp he').1 hno
  case absent =>
    intro pk hpk
    rcases hpurges.rows pk with heq | ⟨-, row'', key, ⟨hrow'', -⟩, -⟩
    · exact heq.trans (hfolds.absent pk hpk)
    · rw [hfolds.absent pk hpk] at hrow''
      cases hrow''
  case receipts =>
    intro r
    change r ∈ u.receipts ↔ _
    rw [hpurges.receipts]
    exact hfolds.mem_receipts hall
  case order =>
    change u.receipts.Sublist _
    rw [hpurges.receipts]
    exact hfolds.receipts
  case folded =>
    intro r hr hstays row hrow hready
    have hgone : r ∉ t.receipts := fun hkept => hstays ((hfolds.mem_receipts hall).mp hkept).2
    obtain ⟨c, row', first, hread, -, -, -, hrow', hfirst, hle⟩ := hfolds.recorded r (hall r hr) hgone row hrow hready
    rcases hpurges.rows r.submission with heq | ⟨-, row'', key, ⟨hrow'', -⟩, hpurged⟩
    · exact ⟨c, row', first, hread, heq.trans hrow', hfirst, hle⟩
    · rw [hrow'] at hrow''
      cases hrow''
      exact ⟨c, row'.purged, first, hread, hpurged, hfirst, hle⟩
  case payloads =>
    intro f
    rw [hpurges.mem_payloads hkeys, hfolds.payloads]
  case contents =>
    refine List.filter_sublist.trans (hpurges.order.trans ?_)
    rw [hfolds.payloads]
  case temporaries =>
    rw [hpurges.temporaries, hfolds.temporaries]

end

/-! ### Another pass -/

/-- What another pass has nothing to do about, receipts of closed submissions aside. -/
structure Settled (now clock : Time) (s : Spool) : Prop extends s.WellFormed where
  pending : ∀ pk row e, s.rows.find pk = some row → row.state = .ready → s.effectiveExpiry clock pk row = .ok e → now < e
  stays : ∀ r ∈ s.receipts, ∀ row, s.rows.find r.submission = some row → row.state = .ready → s.Stays clock r
  referenced : ∀ f ∈ s.payloads, ∃ pk row, s.rows.find pk = some row ∧ row.payloadKey = some f.1
  young : ∀ modified ∈ s.temporaries, now ≤ modified + hour

section

variable {s t : Spool} {now clock : Time} {pk : ℕ}

theorem eq_of_sublist {α : Type} {l l' : List α} (h : l.Sublist l') (hnodup : l'.Nodup) (hall : ∀ a ∈ l', a ∈ l) : l = l' := by
  have hperm : l.Perm l' := (List.perm_ext_iff_of_nodup (h.nodup hnodup) hnodup).mpr fun a => ⟨fun ha => h.subset ha, hall a⟩
  exact h.eq_of_length hperm.length_eq

/-- Where a row after a pass comes from. -/
theorem Cleaned.cases (h : Cleaned now clock s t) {row' : Submission} (hrow' : t.rows.find pk = some row') :
    ∃ row, s.rows.find pk = some row ∧
      (row' = row ∧ (row.state ≠ .ready ∨ ∃ e, s.effectiveExpiry clock pk row = .error e) ∨
        (∃ e, row.state = .ready ∧ s.effectiveExpiry clock pk row = .ok e ∧ now < e ∧ t.effectiveExpiry clock pk row' = .ok e ∧
          row' = { row with firstDownloadAt := row'.firstDownloadAt, expiresAt := row'.expiresAt }) ∨
        row'.state = .expired ∧ row'.payloadKey = none) := by
  cases hrow : s.rows.find pk with
  | none =>
    rw [h.absent pk hrow] at hrow'
    cases hrow'
  | some row =>
    refine ⟨row, rfl, ?_⟩
    by_cases hready : row.state = .ready
    · cases hexpiry : s.effectiveExpiry clock pk row with
      | error e =>
        rw [h.unchanged pk row hrow (.inr ⟨e, hexpiry⟩)] at hrow'
        cases hrow'
        exact .inl ⟨rfl, .inr ⟨e, rfl⟩⟩
      | ok e =>
        by_cases hle : e ≤ now
        · obtain ⟨row'', hrow'', hexpired, hkey, -⟩ := h.expired pk row e hrow hready hexpiry hle
          rw [hrow'] at hrow''
          cases hrow''
          exact .inr (.inr ⟨hexpired, hkey⟩)
        · obtain ⟨row'', hrow'', hexpiry', hsame, -⟩ := h.kept pk row e hrow hready hexpiry (not_le.mp hle)
          rw [hrow'] at hrow''
          cases hrow''
          exact .inr (.inl ⟨e, hready, rfl, not_le.mp hle, hexpiry', hsame⟩)
    · rw [h.unchanged pk row hrow (.inl hready)] at hrow'
      cases hrow'
      exact .inl ⟨rfl, .inl hready⟩

/-- A payload of a row after a pass was its payload before. -/
theorem Cleaned.payloadKey (h : Cleaned now clock s t) {row' : Submission} {key : ℕ} (hrow' : t.rows.find pk = some row')
    (hkey : row'.payloadKey = some key) : ∃ row, s.rows.find pk = some row ∧ row.payloadKey = some key := by
  obtain ⟨row, hrow, hcase⟩ := h.cases hrow'
  refine ⟨row, hrow, ?_⟩
  rcases hcase with ⟨rfl, -⟩ | ⟨e, -, -, -, -, hsame⟩ | ⟨-, hnone⟩
  · exact hkey
  · rw [hsame] at hkey
    exact hkey
  · rw [hnone] at hkey
    cases hkey

/-- A receipt that cannot be read is left. -/
theorem Cleaned.readable (h : Cleaned now clock s t) (ht : t.Readable clock pk) : s.Readable clock pk := by
  intro r hr hname
  by_contra hno
  have hkept := (h.receipts r).mpr ⟨hr, fun c hread => absurd ⟨c, by rw [← hname]; exact hread⟩ hno⟩
  exact hno (ht r hkept hname)

theorem Cleaned.settled (h : Cleaned now clock s t) (hs : s.WellFormed) : Settled now clock t := by
  have hready : ∀ pk row', t.rows.find pk = some row' → row'.state = .ready → t.Readable clock pk →
      ∃ row e, s.rows.find pk = some row ∧ row.state = .ready ∧ s.effectiveExpiry clock pk row = .ok e ∧ now < e ∧
        t.effectiveExpiry clock pk row' = .ok e ∧
        row' = { row with firstDownloadAt := row'.firstDownloadAt, expiresAt := row'.expiresAt } := by
    intro pk row' hrow' hstate hreadable
    obtain ⟨row, hrow, hcase⟩ := h.cases hrow'
    rcases hcase with ⟨rfl, hclosed | ⟨e, he⟩⟩ | ⟨e, hready, he, hlt, he', hsame⟩ | ⟨hexpired, -⟩
    · exact absurd hstate hclosed
    · rw [effectiveExpiry_ok.mpr ⟨h.readable hreadable, rfl⟩] at he
      cases he
    · exact ⟨row, e, hrow, hready, he, hlt, he', hsame⟩
    · rw [hstate] at hexpired
      cases hexpired
  refine { names := ?_, files := ?_, keys := ?_, ready := ?_, pending := ?_, stays := ?_, referenced := ?_, young := ?_ }
  · exact (h.order.map _).nodup hs.names
  · exact (h.contents.map _).nodup hs.files
  · intro i j row row' key hi hj hkey hkey'
    obtain ⟨row₀, hrow₀, hkey₀⟩ := h.payloadKey hi hkey
    obtain ⟨row₀', hrow₀', hkey₀'⟩ := h.payloadKey hj hkey'
    exact hs.keys i j row₀ row₀' key hrow₀ hrow₀' hkey₀ hkey₀'
  · intro i row' hrow' hstate
    obtain ⟨row, hrow, hcase⟩ := h.cases hrow'
    rcases hcase with ⟨rfl, -⟩ | ⟨e, hready, -, -, -, hsame⟩ | ⟨hexpired, -⟩
    · exact hs.ready i row' hrow hstate
    · obtain ⟨key, hkey⟩ := hs.ready i row hrow hready
      refine ⟨key, ?_⟩
      rw [hsame]
      exact hkey
    · rw [hstate] at hexpired
      cases hexpired
  · intro pk row' e hrow' hstate he
    obtain ⟨row, e', -, -, -, hlt, he', -⟩ := hready pk row' hrow' hstate (effectiveExpiry_ok.mp he).1
    rw [he] at he'
    cases he'
    exact hlt
  · intro r hr row' hrow' hstate c hread
    refine ⟨row', hrow', hstate, fun hreadable => ?_⟩
    obtain ⟨row, e, hrow, -, he, -, he', hsame⟩ := hready _ row' hrow' hstate hreadable
    obtain ⟨row₀, hrow₀, -, hrefused⟩ := ((h.receipts r).mp hr).2 c hread
    rw [hrow] at hrow₀
    cases hrow₀
    obtain ⟨hreadable₀, hexpires⟩ := effectiveExpiry_ok.mp he
    obtain ⟨-, hexpires'⟩ := effectiveExpiry_ok.mp he'
    have hcreated : row'.createdAt = row.createdAt := by rw [hsame]
    rw [hcreated, hexpires', ← hexpires]
    exact hrefused hreadable₀
  · exact fun f hf => ((h.payloads f).mp hf).2
  · intro modified hmodified
    rw [h.temporaries] at hmodified
    simpa using (List.mem_filter.mp hmodified).2

/-- A pass over what is settled drops the receipts of closed submissions. -/
theorem Settled.cleanup (hs : Settled now clock s) : (cleanup now clock s).spool.rows = s.rows ∧
    (Spool.cleanup now clock s).spool.payloads = s.payloads ∧ (Spool.cleanup now clock s).spool.temporaries = s.temporaries := by
  have h := cleanup_cleaned hs.toWellFormed now clock
  have hrows : (Spool.cleanup now clock s).spool.rows = s.rows := by
    ext1 pk
    cases hrow : s.rows.find pk with
    | none => exact h.absent pk hrow
    | some row =>
      by_cases hready : row.state = .ready
      · cases hexpiry : s.effectiveExpiry clock pk row with
        | error e => exact h.unchanged pk row hrow (.inr ⟨e, hexpiry⟩)
        | ok e =>
          obtain ⟨row', hrow', -, -, hsame, -⟩ := h.kept pk row e hrow hready hexpiry (hs.pending pk row e hrow hready hexpiry)
          rw [hrow', hsame]
          rintro r hr rfl
          exact hs.stays r hr row hrow hready
      · exact h.unchanged pk row hrow (.inl hready)
  refine ⟨hrows, ?_, ?_⟩
  · refine eq_of_sublist h.contents hs.files.of_map fun f hf => (h.payloads f).mpr ⟨hf, ?_⟩
    rw [hrows]
    exact hs.referenced f hf
  · rw [h.temporaries, List.filter_eq_self]
    intro modified hmodified
    simpa using hs.young modified hmodified

theorem cleanup_again (hs : s.WellFormed) (now clock : Time) :
    let t := (cleanup now clock s).spool
    let u := (cleanup now clock t).spool
    u.rows = t.rows ∧ u.payloads = t.payloads ∧ u.temporaries = t.temporaries ∧
      (∀ r, r ∈ u.receipts ↔ r ∈ t.receipts ∧ t.Stays clock r) ∧ (cleanup now clock u).spool = u := by
  intro t u
  have ht : Settled now clock t := (cleanup_cleaned hs now clock).settled hs
  have htu : Cleaned now clock t u := cleanup_cleaned ht.toWellFormed now clock
  have hu : Settled now clock u := htu.settled ht.toWellFormed
  obtain ⟨hrows, hpayloads, htemporaries⟩ := ht.cleanup
  refine ⟨hrows, hpayloads, htemporaries, htu.receipts, ?_⟩
  obtain ⟨hrows', hpayloads', htemporaries'⟩ := hu.cleanup
  have hreceipts' : (Spool.cleanup now clock u).spool.receipts = u.receipts := by
    have hu' := cleanup_cleaned hu.toWellFormed now clock
    refine eq_of_sublist hu'.order hu.names.of_map fun r hr => (hu'.receipts r).mpr ⟨hr, fun c hread => ?_⟩
    obtain ⟨row, hrow, hready, -⟩ := ((htu.receipts r).mp hr).2 c hread
    rw [← hrows] at hrow
    exact hu.stays r hr row hrow hready c hread
  exact Spool.ext hrows' hpayloads' hreceipts' htemporaries'

/-- What a pass leaves, and what a second pass at the same moment adds to it: it drops the receipts of the
submissions the first has closed; a third changes nothing. -/
theorem cleanup_leaves (hs : s.WellFormed) (now clock : Time) :
    Cleaned now clock s (Spool.cleanup now clock s).spool ∧
      ∃ u, (Spool.cleanup now clock (Spool.cleanup now clock s).spool).spool = u ∧
        u.rows = (Spool.cleanup now clock s).spool.rows ∧ u.payloads = (Spool.cleanup now clock s).spool.payloads ∧
        u.temporaries = (Spool.cleanup now clock s).spool.temporaries ∧
        (∀ r, r ∈ u.receipts ↔ r ∈ (Spool.cleanup now clock s).spool.receipts ∧ (Spool.cleanup now clock s).spool.Stays clock r) ∧
        (Spool.cleanup now clock u).spool = u := by
  obtain ⟨hrows, hpayloads, htemporaries, hreceipts, hthird⟩ := cleanup_again hs now clock
  exact ⟨cleanup_cleaned hs now clock, _, rfl, hrows, hpayloads, htemporaries, hreceipts, hthird⟩

end

end Spool

/-! ### The spool of the service -/

/-- The steps of a cleanup that is not cut short. -/
def Action.isCleanup : Action → Bool
  | .reconcile _ unlinked => unlinked
  | .purge _ _ committed => committed
  | .sweep kept => kept = []
  | _ => false

namespace Store

/-- The rows and files of the service as cleanup finds them. -/
def spool (s : Store) : Spool where
  rows := s.rows
  payloads := (List.range s.runs.rows.length).filterMap fun key => (s.files key).map fun content => (key, content)
  receipts := (s.downloads.filter Download.receipt).map fun d => ⟨d.1, d.2.submission, some (d.2.submission, d.2.completedAt)⟩

section

variable {settings : Settings} {s t u : Store} {pk : ℕ} {row : Submission}

theorem mem_spool_receipts {r : Receipt} : r ∈ s.spool.receipts ↔ ∃ d, s.downloads.find r.name = some d ∧ d.receipt = true ∧
    r.submission = d.submission ∧ r.content = some (d.submission, d.completedAt) := by
  simp only [spool, List.mem_map, Prod.exists, Table.mem_filter]
  constructor
  · rintro ⟨i, d, ⟨hd, hreceipt⟩, rfl⟩
    exact ⟨d, hd, hreceipt, rfl, rfl⟩
  · rintro ⟨d, hd, hreceipt, hsubmission, hcontent⟩
    refine ⟨r.name, d, ⟨hd, hreceipt⟩, ?_⟩
    cases r
    cases hsubmission
    cases hcontent
    rfl

/-- The spool of a service is one cleanup can rely on. -/
theorem spool_wellFormed (h : (submissionSystem settings).Reachable s) : s.spool.WellFormed := by
  have hsound := sound_reachable h
  have hown : ∀ {pk row}, s.rows.find pk = some row → ∃ i run, s.runs.find i = some run ∧ run.row = some pk ∧
      row.payloadKey = if row.state = .ready then some i else none := by
    intro pk row hrow
    obtain ⟨i, run, hrun, hpk⟩ := hsound.origin hrow
    obtain ⟨row', hrow', haccepted⟩ := hsound.accepted hrun hpk
    rw [hrow] at hrow'
    cases hrow'
    exact ⟨i, run, hrun, hpk, haccepted.payload⟩
  refine { names := ?_, files := ?_, keys := ?_, ready := ?_ }
  · have hnames : s.spool.receipts.map Receipt.name = (s.downloads.filter Download.receipt).map Prod.fst := by
      rw [spool, List.map_map]
      rfl
    rw [hnames]
    exact Table.nodup_keys_filter _ _
  · have hfiles : s.spool.payloads.map Prod.fst = (List.range s.runs.rows.length).filter fun key => (s.files key).isSome := by
      unfold spool
      induction List.range s.runs.rows.length with
      | nil => rfl
      | cons key l ih => cases hfile : s.files key <;> simp_all
    rw [hfiles]
    exact List.nodup_range.filter _
  · intro i j row row' key hi hj hkey hkey'
    obtain ⟨a, run, hrun, hpk, hpayload⟩ := hown hi
    obtain ⟨b, run', hrun', hpk', hpayload'⟩ := hown hj
    have ha : some a = some key := by
      rw [hpayload] at hkey
      split_ifs at hkey
      exact hkey
    have hb : some b = some key := by
      rw [hpayload'] at hkey'
      split_ifs at hkey'
      exact hkey'
    cases ha
    cases hb
    rw [hrun] at hrun'
    cases hrun'
    rw [hpk] at hpk'
    exact Option.some.inj hpk'
  · intro i row hrow hready
    obtain ⟨a, -, -, -, hpayload⟩ := hown hrow
    exact ⟨a, by rw [hpayload, if_pos hready]⟩

/-- No download is completed in the future. -/
theorem completed_step (h : ∀ {i d}, s.downloads.find i = some d → d.completedAt ≤ s.now) {a : Action}
    (hs : s.step settings a = some t) {i : ℕ} {d : Download} (hd : t.downloads.find i = some d) : d.completedAt ≤ t.now := by
  have hset : ∀ {id : ℕ} {f : Download → Download}, (s.downloads.modify id f).find i = some d →
      (∀ d, (f d).completedAt = d.completedAt) → d.completedAt ≤ s.now := by
    intro id f hmodified hf
    rw [Table.find_modify] at hmodified
    split_ifs at hmodified
    · obtain ⟨e, he, rfl⟩ := Option.map_eq_some_iff.mp hmodified
      rw [hf]
      exact h he
    · exact h hmodified
  cases step_taken hs with
  | tick elapsed => exact (h hd).trans (Nat.le_add_right _ _)
  | completeDownload hrow =>
    rcases Table.find_insert_cases hd with ⟨-, rfl⟩ | hd
    · exact le_rfl
    · exact h hd
  | journal => exact hset hd fun _ => rfl
  | record => exact hset hd fun _ => rfl
  | unrecorded => exact hset hd fun _ => rfl
  | unlinkReceipt => exact hset hd fun _ => rfl
  | @reconcile id download row row' unlinked hdownload =>
    cases unlinked with
    | true => exact hset hd fun _ => rfl
    | false => exact h hd
  | dropReceipt => exact hset hd fun _ => rfl
  | _ => exact h hd

theorem completedAt_le_now (h : (submissionSystem settings).Reachable s) {i : ℕ} {d : Download}
    (hd : s.downloads.find i = some d) : d.completedAt ≤ s.now := by
  have hcompleted : ∀ {i d}, s.downloads.find i = some d → d.completedAt ≤ s.now := by
    refine h.invariant (I := fun s => ∀ {i d}, s.downloads.find i = some d → d.completedAt ≤ s.now) ?_ ?_
    · intro s hinit i d hd
      obtain ⟨-, -, -, hdownloads⟩ := hinit
      rw [hdownloads] at hd
      simp [Table.find] at hd
    · intro s a t hI hs i d hd
      exact completed_step hI hs hd
  exact hcompleted hd

theorem spool_completions (s : Store) (pk : ℕ) : s.spool.completions pk = s.completions pk := by
  have hrows : s.downloads.rows = s.downloads.entries.map Prod.snd := by
    simp [Table.entries, Function.comp_def, List.zipIdx_map_fst]
  unfold completions pendingDownloads Spool.completions spool Table.filter
  rw [hrows]
  simp only [List.filter_map, List.filter_filter, List.filterMap_map, List.map_map, Function.comp_def, Option.map_some]
  rw [List.filterMap_eq_map']
  congr 1
  refine List.filter_congr fun e _ => ?_
  simp [Bool.and_comm]

/-- Every receipt the service has written can be read. -/
theorem spool_pendingDownloads (h : (submissionSystem settings).Reachable s) :
    s.spool.pendingDownloads s.now pk = .ok (s.completions pk) := by
  rw [Spool.pendingDownloads_ok]
  refine ⟨?_, s.spool_completions pk⟩
  rintro r hr rfl
  obtain ⟨d, hd, -, hsubmission, hcontent⟩ := mem_spool_receipts.mp hr
  refine ⟨d.completedAt, Receipt.read_ok.mpr ⟨?_, rfl, completedAt_le_now h hd⟩⟩
  rw [hcontent, hsubmission]

/-- Cleanup goes by the deadline all others go by. -/
theorem spool_expiry (h : (submissionSystem settings).Reachable s) :
    s.spool.effectiveExpiry s.now pk row = .ok (s.expiry pk row) := by
  rw [Spool.effectiveExpiry, spool_pendingDownloads h]
  rfl

/-! ### A pass as a run of the service -/

/-- From one state to the other by complete steps of cleanup alone. -/
structure Cleans (settings : Settings) (s t : Store) : Prop where
  steps : Relation.ReflTransGen (fun s t => ∃ a : Action, a.isCleanup = true ∧ s.step settings a = some t) s t
  now : t.now = s.now
  runs : t.runs = s.runs

theorem Cleans.refl : Cleans settings s s := ⟨.refl, rfl, rfl⟩

theorem Cleans.trans (h : Cleans settings s t) (h' : Cleans settings t u) : Cleans settings s u :=
  ⟨h.steps.trans h'.steps, h'.now.trans h.now, h'.runs.trans h.runs⟩

theorem Cleans.step {a : Action} (ha : a.isCleanup = true) (hs : s.step settings a = some t) (hnow : t.now = s.now)
    (hruns : t.runs = s.runs) : Cleans settings s t := ⟨.single ⟨a, ha, hs⟩, hnow, hruns⟩

theorem Cleans.reachable (h : Cleans settings s t) (hs : (submissionSystem settings).Reachable s) :
    (submissionSystem settings).Reachable t := by
  obtain ⟨hsteps, -, -⟩ := h
  induction hsteps with
  | refl => exact hs
  | tail _ hstep ih =>
    obtain ⟨a, -, hstep⟩ := hstep
    exact ih.next hstep

theorem Cleans.spoolFree (h : Cleans settings s t) (hs : s.spoolFree = true) : t.spoolFree = true := by
  unfold Store.spoolFree at hs ⊢
  rw [h.runs]
  exact hs

theorem spool_unlink (id : ℕ) : (s.setDownload id fun d => { d with receipt := false }).spool = s.spool.unlink id := by
  have hdropped : (s.downloads.modify id fun d => { d with receipt := false }).entries.filter (fun e => e.2.receipt) =
      (s.downloads.entries.filter fun e => e.2.receipt).filter fun e => e.1 ≠ id :=
    Table.filter_entries_modify (fun _ _ _ => rfl) fun _ _ => rfl
  unfold spool Spool.unlink setDownload Table.filter
  dsimp only
  rw [hdropped, List.filter_map]
  rfl

/-- What is left of the payloads where the files that meet a condition are. -/
theorem payloads_restricted {f g : ℕ → Option Bytes} {p : ℕ → Bool} (h : ∀ key, g key = if p key then f key else none)
    (l : List ℕ) : l.filterMap (fun key => (g key).map fun content => (key, content)) =
      (l.filterMap fun key => (f key).map fun content => (key, content)).filter fun file => p file.1 := by
  rw [List.filter_filterMap]
  refine List.filterMap_congr fun key _ => ?_
  rw [h]
  cases f key with
  | none => simp
  | some content => by_cases hp : p key <;> simp [hp, Option.filter]

/-- A loop over turns that are steps, each of which leaves what the others start from. -/
theorem cleans_foldl {ι : Type} {f : Time → Spool → ι → Spool} {P : Store → ι → Prop}
    (hturn : ∀ {s i}, (submissionSystem settings).Reachable s → s.spoolFree = true → P s i →
      ∃ t, Cleans settings s t ∧ t.spool = f s.now s.spool i ∧ ∀ j, j ≠ i → P s j → P t j)
    {l : List ι} (hnodup : l.Nodup) (h : (submissionSystem settings).Reachable s) (hfree : s.spoolFree = true)
    (hl : ∀ i ∈ l, P s i) : ∃ t, Cleans settings s t ∧ t.spool = l.foldl (f s.now) s.spool := by
  induction l generalizing s with
  | nil => exact ⟨s, .refl, rfl⟩
  | cons i l ih =>
    rw [List.nodup_cons] at hnodup
    obtain ⟨t, hst, ht, hkeep⟩ := hturn h hfree (hl i List.mem_cons_self)
    obtain ⟨u, htu, hu⟩ := ih hnodup.2 (hst.reachable h) (hst.spoolFree hfree) fun j hj =>
      hkeep j (fun heq => hnodup.1 (heq ▸ hj)) (hl j (List.mem_cons_of_mem _ hj))
    refine ⟨u, hst.trans htu, ?_⟩
    rw [hu, ht, hst.now]
    rfl

/-- The turn of a receipt is a step, or leaves all as it is. -/
theorem reconcile_cleans (h : (submissionSystem settings).Reachable s) {r : Receipt} (hr : r ∈ s.spool.receipts) :
    ∃ t, Cleans settings s t ∧ t.spool = Spool.reconciled s.now s.spool r ∧
      ∀ r', r' ≠ r → r' ∈ s.spool.receipts → r' ∈ t.spool.receipts := by
  obtain ⟨d, hd, hreceipt, hsubmission, hcontent⟩ := mem_spool_receipts.mp hr
  obtain ⟨row, hrow, -⟩ := (journaled_reachable h).kept hd
  have hread : r.read s.now = .ok (d.submission, d.completedAt) :=
    Receipt.read_ok.mpr ⟨hcontent, hsubmission.symm, completedAt_le_now h hd⟩
  have hfound : s.spool.rows.find d.submission = some row := hrow
  have hothers : ∀ r', r' ≠ r → r' ∈ s.spool.receipts → r' ∈ (s.spool.unlink r.name).receipts := by
    intro r' hne hr'
    exact List.mem_filter.mpr ⟨hr', decide_eq_true fun hname =>
      hne (List.inj_on_of_nodup_map (spool_wellFormed h).names hr' hr hname)⟩
  by_cases hready : row.state = .ready
  · have hpending : s.spool.pendingDownloads s.now d.submission = .ok (s.completions d.submission) := spool_pendingDownloads h
    cases hrecord : recordSuccessfulDownload row (s.completions d.submission) d.completedAt s.now with
    | error e =>
      refine ⟨s, .refl, ?_, fun _ _ hr' => hr'⟩
      simp only [Spool.reconciled, Spool.reconcile, Spool.record, hread, ok_bind, hfound, if_pos hready, hpending, hrecord]
      rfl
    | ok row' =>
      refine ⟨(s.setRow d.submission row').setDownload r.name fun d => { d with receipt := false },
        .step (a := .reconcile r.name true) rfl ?_ rfl rfl, ?_, ?_⟩
      · simp [Store.step, hd, hrow, hreceipt, hready, hrecord]
      · simp only [spool_unlink, Spool.reconciled, Spool.reconcile, Spool.record, hread, ok_bind, hfound, if_pos hready, hpending,
          hrecord]
        rfl
      · rw [spool_unlink]
        exact hothers
  · refine ⟨s.setDownload r.name fun d => { d with receipt := false }, .step (a := .reconcile r.name true) rfl ?_ rfl rfl, ?_, ?_⟩
    · simp [Store.step, hd, hrow, hreceipt, hready]
    · simp only [spool_unlink, Spool.reconciled, Spool.reconcile, hread, ok_bind, hfound, if_neg hready]
      rfl
    · rw [spool_unlink]
      exact hothers

/-- The turn of a row that is due. -/
theorem purge_cleans (h : (submissionSystem settings).Reachable s) (hfree : s.spoolFree = true)
    (hdue : ∃ row, s.rows.find pk = some row ∧ row.isDue s.now = true) :
    ∃ t, Cleans settings s t ∧ t.spool = Spool.purged s.now s.now s.spool pk ∧
      ∀ i, i ≠ pk → (∃ row, s.rows.find i = some row ∧ row.isDue s.now = true) →
        ∃ row, t.rows.find i = some row ∧ row.isDue t.now = true := by
  obtain ⟨row, hrow, hdue⟩ := hdue
  have hready := (isDue_iff.mp hdue).1
  by_cases hexpired : s.expiry pk row ≤ s.now
  · obtain ⟨key, hkey⟩ := (spool_wellFormed h).ready pk row hrow hready
    have hpurge := Spool.purge_some.mpr ⟨row, key, ⟨hrow, hready, ⟨_, spool_expiry h, hexpired⟩, hkey⟩, rfl⟩
    refine ⟨(s.setFile key none).setRow pk row.purged, .step (a := .purge pk s.now true) rfl ?_ rfl rfl, ?_, ?_⟩
    · simp [Store.step, hrow, hkey, hfree, hdue, hexpired]
    · simp only [Spool.purged, hpurge]
      refine Spool.ext (Table.modify_congr hrow rfl) ?_ rfl rfl
      refine payloads_restricted (f := s.files) (p := fun k => k ≠ key) (fun k => ?_) _
      by_cases hk : k = key <;> simp [setFile, setRow, hk]
    · rintro i hi ⟨row', hrow', hdue'⟩
      refine ⟨row', ?_, hdue'⟩
      change (s.rows.modify pk _).find i = some row'
      rw [Table.find_modify, if_neg (Ne.symm hi)]
      exact hrow'
  · refine ⟨s, .refl, ?_, fun _ _ hother => hother⟩
    unfold Spool.purged
    split
    · rename_i t ht
      obtain ⟨row', key, ⟨hrow', -, ⟨e, he, hle⟩, -⟩, -⟩ := Spool.purge_some.mp ht
      cases hrow.symm.trans hrow'
      rw [spool_expiry h] at he
      cases he
      exact absurd hle hexpired
    · rfl

/-- While no call writes, a pass of cleanup is a run of the service: its steps lead to the rows and files the pass leaves. -/
theorem cleanup_cleans (h : (submissionSystem settings).Reachable s) (hfree : s.spoolFree = true) :
    ∃ t, Cleans settings s t ∧ t.spool = (Spool.cleanup s.now s.now s.spool).spool := by
  obtain ⟨t, hst, ht⟩ := cleans_foldl (f := Spool.reconciled) (P := fun s r => r ∈ s.spool.receipts)
    (fun hreach _ hr => reconcile_cleans hreach hr) (spool_wellFormed h).names.of_map h hfree fun _ hr => hr
  obtain ⟨u, htu, hu⟩ := cleans_foldl (f := fun now => Spool.purged now now) (l := t.spool.due t.now)
    (P := fun s pk => ∃ row, s.rows.find pk = some row ∧ row.isDue s.now = true)
    (fun hreach hfree hdue => purge_cleans hreach hfree hdue) (Table.nodup_keys_filter t.rows fun row => row.isDue t.now)
    (hst.reachable h) (hst.spoolFree hfree) fun pk hpk => by
      obtain ⟨row, hrow, hready, hdeadline⟩ := Spool.mem_due.mp hpk
      exact ⟨row, hrow, isDue_iff.mpr ⟨hready, hdeadline⟩⟩
  have hfree' := htu.spoolFree (hst.spoolFree hfree)
  have hsweep : Cleans settings u { u with files := fun key => if u.isReferenced key ∨ key ∈ [] then u.files key else none } :=
    .step (a := .sweep []) rfl (if_pos hfree') rfl rfl
  refine ⟨_, (hst.trans htu).trans hsweep, ?_⟩
  rw [ht, hst.now] at hu
  unfold Spool.cleanup Spool.Pass.sweep
  simp only [Spool.foldl_purge, Spool.foldl_reconcile]
  rw [← hu]
  refine Spool.ext rfl ?_ rfl rfl
  refine payloads_restricted (fun key => ?_) _
  simp only [List.not_mem_nil, or_false]
  rfl

end

end Store

/-! ### A download that ends after the deadline -/

/-- A download that was begun in time is completed an hour after the week, and its receipt written. -/
def lateDownload : List Action :=
  accepts 0 sampleSubmission ++ [.respond 0, .tick (169 * hour), .completeDownload 0, .journal 0 true]

theorem lateDownload_leaves : ∃ s u, Machine.follow (Store.step sampleSettings) sampleStore lateDownload = some s ∧
    Spool.Cleaned s.now s.now s.spool (Spool.cleanup s.now s.now s.spool).spool ∧
    (Spool.cleanup s.now s.now (Spool.cleanup s.now s.now s.spool).spool).spool = u ∧
    (Spool.cleanup s.now s.now u).spool = u := by
  have hfollow : (Machine.follow (Store.step sampleSettings) sampleStore lateDownload).isSome = true := by decide +kernel
  obtain ⟨s, hs⟩ := Option.isSome_iff_exists.mp hfollow
  have hreach := reachable_sampleStore.follow (M := submissionSystem sampleSettings) (fun h => h) hs
  obtain ⟨hcleaned, u, hu, -, -, -, -, hthird⟩ := Spool.cleanup_leaves (Store.spool_wellFormed hreach) s.now s.now
  exact ⟨s, u, hs, hcleaned, hu, hthird⟩

/-- The pass that closes the submission leaves the receipt, and the next pass removes it. -/
theorem lateDownload_left :
    (¬∀ s, (submissionSystem sampleSettings).Reachable s → ∀ pk row e, s.rows.find pk = some row → row.state = .ready →
      s.spool.effectiveExpiry s.now pk row = .ok e → e ≤ s.now →
        ∀ r ∈ (Spool.cleanup s.now s.now s.spool).spool.receipts, r.submission ≠ pk) ∧
    ¬∀ s, (submissionSystem sampleSettings).Reachable s →
      (Spool.cleanup s.now s.now (Spool.cleanup s.now s.now s.spool).spool).spool = (Spool.cleanup s.now s.now s.spool).spool := by
  have hfollow : (Machine.follow (Store.step sampleSettings) sampleStore lateDownload).map
      (fun s => ((s.rows.find 0).map fun row => (row.state, decide (s.expiry 0 row ≤ s.now)),
        (Spool.cleanup s.now s.now s.spool).spool.receipts.map Receipt.submission,
        (Spool.cleanup s.now s.now (Spool.cleanup s.now s.now s.spool).spool).spool.receipts.map Receipt.submission)) =
      some (some (.ready, true), [0], []) := by decide +kernel
  obtain ⟨s, hs, hfacts⟩ := Option.map_eq_some_iff.mp hfollow
  simp only [Prod.mk.injEq, Option.map_eq_some_iff, decide_eq_true_eq] at hfacts
  obtain ⟨⟨row, hrow, hready, hle⟩, hfirst, hsecond⟩ := hfacts
  have hreach := reachable_sampleStore.follow (M := submissionSystem sampleSettings) (fun h => h) hs
  constructor
  · intro hall
    have hmem : 0 ∈ (Spool.cleanup s.now s.now s.spool).spool.receipts.map Receipt.submission := by
      rw [hfirst]
      exact List.mem_cons_self
    obtain ⟨r, hr, hsubmission⟩ := List.mem_map.mp hmem
    exact hall s hreach 0 row _ hrow hready (Store.spool_expiry hreach) hle r hr hsubmission
  · intro hall
    rw [hall s hreach, hfirst] at hsecond
    cases hsecond

end FireDash.ReportTransfer
