import Mathlib.Data.Multiset.Filter
import Mathlib.Order.Nat

/-! Limits on failures: a window opens with a failure, and too many failures of one window lock further attempts out
for a while. Attempts may overlap, up to a number of workers; whoever was admitted before a lock may still fail. A failure
reads the clock before it is recorded, so that a late one is recorded with a time that has passed. -/
namespace FireDash

structure Lockout where
  maxFailures : ℕ
  window : ℕ
  lockout : ℕ

namespace Lockout

structure Row where
  failureCount : ℕ := 0
  windowStartedAt : ℕ
  lockedUntil : Option ℕ := none
  deriving DecidableEq

def Row.isLocked (r : Row) (now : ℕ) : Bool := r.lockedUntil.any fun lockedUntil => now < lockedUntil

/-- A window that has passed is closed. -/
def Row.reopen (l : Lockout) (now : ℕ) (r : Row) : Row :=
  if r.windowStartedAt + l.window ≤ now then { windowStartedAt := now } else r

def Row.fail (l : Lockout) (now : ℕ) (r : Row) : Row :=
  { r with
    failureCount := r.failureCount + 1
    lockedUntil := if l.maxFailures ≤ r.failureCount + 1 then some (now + l.lockout) else r.lockedUntil }

def record (l : Lockout) (now : ℕ) (row : Option Row) : Row := ((row.getD { windowStartedAt := now }).reopen l now).fail l now

/-- An attempt under way was admitted, or has failed and read the clock. -/
inductive Phase
  | admitted
  | failed (read : ℕ)

def Phase.readBefore (start : ℕ) : Phase → Bool
  | .admitted => false
  | .failed read => read < start

theorem Phase.admitted_readBefore (start : ℕ) : ¬Phase.admitted.readBefore start = true := Bool.false_ne_true

theorem Phase.failed_readBefore {read start : ℕ} : (Phase.failed read).readBefore start = true ↔ read < start := decide_eq_true_iff

/-- A failure, by when it read the clock and when it was recorded. -/
structure Failure where
  read : ℕ
  recorded : ℕ
  deriving DecidableEq

/-- The attempts of one subject: the time, those under way, the failures in the order in which they were recorded, and the row. -/
inductive Attempts (l : Lockout) (workers : ℕ) : ℕ → Multiset Phase → List Failure → Option Row → Prop
  | start : Attempts l workers 0 0 [] none
  | later {now now' : ℕ} {held : Multiset Phase} {failures : List Failure} {row : Option Row}
      (h : Attempts l workers now held failures row) (hle : now ≤ now') : Attempts l workers now' held failures row
  | allow {now asked : ℕ} {held : Multiset Phase} {failures : List Failure} {row : Option Row} (h : Attempts l workers now held failures row)
      (hasked : asked ≤ now) (hheld : held.card < workers) (hopen : ∀ r, row = some r → r.isLocked asked = false) :
      Attempts l workers now (.admitted ::ₘ held) failures row
  | read {now : ℕ} {held : Multiset Phase} {failures : List Failure} {row : Option Row}
      (h : Attempts l workers now (.admitted ::ₘ held) failures row) : Attempts l workers now (.failed now ::ₘ held) failures row
  | leave {now : ℕ} {phase : Phase} {held : Multiset Phase} {failures : List Failure} {row : Option Row}
      (h : Attempts l workers now (phase ::ₘ held) failures row) : Attempts l workers now held failures row
  | record {now read : ℕ} {held : Multiset Phase} {failures : List Failure} {row : Option Row}
      (h : Attempts l workers now (.failed read ::ₘ held) failures row) :
      Attempts l workers now held (failures ++ [⟨read, now⟩]) (some (l.record read row))

/-- The failures recorded in a stretch. -/
def between (failures : List Failure) (start stop : ℕ) : ℕ := failures.countP fun f => start ≤ f.recorded ∧ f.recorded < stop

/-- Those of them that had read the clock before the stretch. -/
def stale (failures : List Failure) (start stop : ℕ) : ℕ :=
  failures.countP fun f => f.read < start ∧ start ≤ f.recorded ∧ f.recorded < stop

def fresh (failures : List Failure) (start stop : ℕ) : ℕ :=
  failures.countP fun f => start ≤ f.read ∧ start ≤ f.recorded ∧ f.recorded < stop

/-- The failures that were being recorded at some time of a stretch. -/
def during (failures : List Failure) (start stop : ℕ) : ℕ := failures.countP fun f => f.read < stop ∧ start ≤ f.recorded

variable {l : Lockout} {workers span now now' read start stop streak : ℕ} {held : Multiset Phase} {phase : Phase} {failures : List Failure}
  {r : Row} {row : Option Row}

theorem between_eq (failures : List Failure) (start stop : ℕ) : between failures start stop = fresh failures start stop + stale failures start stop := by
  unfold between fresh stale
  induction failures with
  | nil => rfl
  | cons f failures ih =>
    simp only [List.countP_cons, ih, decide_eq_true_eq]
    split <;> split <;> split <;> omega

theorem stale_append : stale (failures ++ [⟨read, now⟩]) start stop =
    stale failures start stop + if read < start ∧ start ≤ now ∧ now < stop then 1 else 0 := by
  unfold stale
  rw [List.countP_append, List.countP_singleton]
  simp only [decide_eq_true_eq]

theorem fresh_append : fresh (failures ++ [⟨read, now⟩]) start stop =
    fresh failures start stop + if start ≤ read ∧ start ≤ now ∧ now < stop then 1 else 0 := by
  unfold fresh
  rw [List.countP_append, List.countP_singleton]
  simp only [decide_eq_true_eq]

theorem during_append : during (failures ++ [⟨read, now⟩]) start stop =
    during failures start stop + if read < stop ∧ start ≤ now then 1 else 0 := by
  unfold during
  rw [List.countP_append, List.countP_singleton]
  simp only [decide_eq_true_eq]

/-! ### The attempts under way -/

structure Kept (workers now : ℕ) (held : Multiset Phase) (failures : List Failure) : Prop where
  few : held.card ≤ workers
  read : ∀ read, Phase.failed read ∈ held → read ≤ now
  recorded : ∀ f ∈ failures, f.recorded ≤ now

theorem Attempts.kept (h : Attempts l workers now held failures row) : Kept workers now held failures := by
  induction h with
  | start => exact ⟨Nat.zero_le _, fun _ hmem => absurd hmem (Multiset.notMem_zero _), fun _ hf => absurd hf List.not_mem_nil⟩
  | later h hle ih => exact ⟨ih.few, fun read hread => (ih.read read hread).trans hle, fun f hf => (ih.recorded f hf).trans hle⟩
  | allow h _ hheld _ ih =>
    refine ⟨by rwa [Multiset.card_cons], fun read hread => ?_, ih.recorded⟩
    rcases Multiset.mem_cons.mp hread with heq | hmem
    · cases heq
    · exact ih.read read hmem
  | read h ih =>
    refine ⟨by simpa only [Multiset.card_cons] using ih.few, fun read hread => ?_, ih.recorded⟩
    rcases Multiset.mem_cons.mp hread with heq | hmem
    · exact (Phase.failed.inj heq).le
    · exact ih.read read (Multiset.mem_cons_of_mem hmem)
  | leave h ih => 
    have hcard := ih.few
    rw [Multiset.card_cons] at hcard
    exact ⟨Nat.le_of_succ_le hcard, fun read hread => ih.read read (Multiset.mem_cons_of_mem hread), ih.recorded⟩
  | @record now read held failures row h ih =>
    have hcard := ih.few
    rw [Multiset.card_cons] at hcard
    refine ⟨Nat.le_of_succ_le hcard, fun read hread => ih.read read (Multiset.mem_cons_of_mem hread), fun f hf => ?_⟩
    rcases List.mem_append.mp hf with hf | hf
    · exact ih.recorded f hf
    · rw [List.mem_singleton.mp hf]

/-- Before a stretch none of its failures is recorded. -/
theorem Kept.none_before (h : Kept workers now held failures) (hbefore : now < start) :
    fresh failures start stop = 0 ∧ stale failures start stop = 0 := by
  have hearly : ∀ f ∈ failures, f.recorded < start := fun f hf => (h.recorded f hf).trans_lt hbefore
  constructor
  · exact List.countP_eq_zero.mpr fun f hf hin => absurd (of_decide_eq_true hin).2.1 (Nat.not_le.mpr (hearly f hf))
  · exact List.countP_eq_zero.mpr fun f hf hin => absurd (of_decide_eq_true hin).2.1 (Nat.not_le.mpr (hearly f hf))

/-- Each worker brings one reading of the clock at most into a stretch. -/
theorem Attempts.stale_le (h : Attempts l workers now held failures row) (start stop : ℕ) :
    stale failures start stop + held.countP (fun phase => phase.readBefore start) ≤ workers := by
  induction h with
  | start => exact Nat.zero_le _
  | later _ _ ih => exact ih
  | allow _ _ _ _ ih =>
    rw [Multiset.countP_cons, if_neg (Phase.admitted_readBefore start), Nat.add_zero]
    exact ih
  | @read now held failures row h ih =>
    rw [Multiset.countP_cons, if_neg (Phase.admitted_readBefore start), Nat.add_zero] at ih
    rw [Multiset.countP_cons]
    split
    · rename_i hbefore
      have hcard := h.kept.few
      rw [Multiset.card_cons] at hcard
      rw [(h.kept.none_before (Phase.failed_readBefore.mp hbefore)).2]
      have hle := Multiset.countP_le_card (fun phase : Phase => phase.readBefore start) held
      omega
    · exact ih
  | leave _ ih =>
    rw [Multiset.countP_cons] at ih
    omega
  | @record now read held failures row h ih =>
    rw [Multiset.countP_cons] at ih
    rw [stale_append]
    split
    · rename_i hstale
      rw [if_pos (Phase.failed_readBefore.mpr hstale.1)] at ih
      omega
    · omega

/-! ### What locks a subject -/

/-- What a row stands for. -/
structure Counts (l : Lockout) (now : ℕ) (failures : List Failure) (r : Row) : Prop where
  started : r.windowStartedAt ≤ now
  count : r.failureCount ≤ during failures r.windowStartedAt (r.windowStartedAt + l.window)
  locked : ∀ u, r.lockedUntil = some u → l.maxFailures ≤ r.failureCount ∧ ∃ f ∈ failures, u = f.read + l.lockout

theorem Counts.fresh (hread : read ≤ now) : Counts l now failures { windowStartedAt := read } where
  started := hread
  count := Nat.zero_le _
  locked u hu := by cases hu

theorem Counts.fail (h : Counts l now failures r) (hrunning : read < r.windowStartedAt + l.window) :
    Counts l now (failures ++ [⟨read, now⟩]) (r.fail l read) where
  started := h.started
  count := by
    show r.failureCount + 1 ≤ during (failures ++ [⟨read, now⟩]) r.windowStartedAt (r.windowStartedAt + l.window)
    rw [during_append, if_pos ⟨hrunning, h.started⟩]
    exact Nat.succ_le_succ h.count
  locked u hu := by
    unfold Row.fail at hu ⊢
    dsimp only at hu ⊢
    split at hu
    · rename_i hfull
      exact ⟨hfull, ⟨read, now⟩, List.mem_append_right _ List.mem_cons_self, (Option.some.inj hu).symm⟩
    · rename_i hfew
      exact absurd (Nat.le_succ_of_le (h.locked u hu).1) hfew

theorem Attempts.counts (hwindow : 0 < l.window) (h : Attempts l workers now held failures row) :
    ∀ r, row = some r → Counts l now failures r := by
  induction h with
  | start => exact nofun
  | later h hle ih => exact fun r hr => ⟨(ih r hr).started.trans hle, (ih r hr).count, (ih r hr).locked⟩
  | allow _ _ _ _ ih => exact ih
  | read _ ih => exact ih
  | leave _ ih => exact ih
  | @record now read held failures row h ih =>
    intro r hr
    obtain rfl := Option.some.inj hr
    have hread : read ≤ now := h.kept.read read (Multiset.mem_cons_self _ _)
    have hopens : read < read + l.window := Nat.lt_add_of_pos_right hwindow
    unfold Lockout.record
    cases row with
    | none =>
      rw [Option.getD_none, Row.reopen, ite_self]
      exact (Counts.fresh hread).fail hopens
    | some r =>
      rw [Option.getD_some, Row.reopen]
      split
      · exact (Counts.fresh hread).fail hopens
      · rename_i hrunning
        exact (ih r rfl).fail (Nat.not_le.mp hrunning)

/-- The failures that one window can hold while its lock stands: up to the limit, and those of attempts then under way. -/
def perWindow (l : Lockout) (workers : ℕ) : ℕ := l.maxFailures + workers - 1

/-- The last failures of a stretch, all of one window and with none before them that read the clock before the stretch: once
they reach the limit, the lock outlasts the stretch. -/
structure Streak (l : Lockout) (workers start held : ℕ) (r : Row) (streak : ℕ) : Prop where
  few : streak ≤ l.perWindow workers
  count : streak ≤ r.failureCount
  locked : 0 < streak → l.maxFailures ≤ r.failureCount →
    streak + held ≤ l.perWindow workers ∧ ∃ u, r.lockedUntil = some u ∧ start + l.lockout ≤ u

theorem Streak.zero {held : ℕ} : Streak l workers start held r 0 := ⟨Nat.zero_le _, Nat.zero_le _, nofun⟩

/-- A stretch falls into streaks: another one begins with each window that opens in it, and after each stale failure. -/
def Stretch (l : Lockout) (workers start stop held : ℕ) (failures : List Failure) (r : Row) : Prop :=
  ∃ streak, Streak l workers start held r streak ∧ fresh failures start stop ≤
    (stale failures start stop + if start ≤ r.windowStartedAt then 1 else 0) * l.perWindow workers + streak

theorem Stretch.leave {k : ℕ} (h : Stretch l workers start stop (k + 1) failures r) : Stretch l workers start stop k failures r := by
  obtain ⟨streak, hstreak, hfresh⟩ := h
  refine ⟨streak, ⟨hstreak.few, hstreak.count, fun hpos hfull => ?_⟩, hfresh⟩
  obtain ⟨hheld, hlocked⟩ := hstreak.locked hpos hfull
  exact ⟨Nat.le_of_succ_le hheld, hlocked⟩

/-- Whoever is admitted found no lock, so that the streak has not reached the limit. -/
theorem Stretch.allow {k asked : ℕ} (h : Stretch l workers start (start + span) k failures r) (hlockout : span ≤ l.lockout)
    (hasked : asked < start + span) (hopen : r.isLocked asked = false) : Stretch l workers start (start + span) (k + 1) failures r := by
  obtain ⟨streak, hstreak, hfresh⟩ := h
  refine ⟨streak, ⟨hstreak.few, hstreak.count, fun hpos hfull => ?_⟩, hfresh⟩
  obtain ⟨-, u, hu, hlate⟩ := hstreak.locked hpos hfull
  unfold Row.isLocked at hopen
  rw [hu, Option.any_some, decide_eq_false_iff_not] at hopen
  omega

/-- Only one window opens within a stretch that is no longer. -/
theorem Stretch.reopen {k : ℕ} (h : Stretch l workers start (start + span) k failures r) (hwithin : span ≤ l.window)
    (hstart : start ≤ read) (hread : read < start + span) : Stretch l workers start (start + span) k failures (r.reopen l read) := by
  unfold Row.reopen
  split
  · rename_i hpassed
    obtain ⟨streak, hstreak, hfresh⟩ := h
    refine ⟨0, .zero, ?_⟩
    have hearly : ¬start ≤ r.windowStartedAt := by omega
    have hfew := hstreak.few
    rw [if_neg hearly, Nat.add_zero] at hfresh
    rw [if_pos hstart, Nat.succ_mul]
    omega
  · exact h

theorem Stretch.fail {k : ℕ} (h : Stretch l workers start stop (k + 1) failures r) (hpositive : 0 < l.maxFailures) (hk : k < workers)
    (hstart : start ≤ read) (hread : read ≤ now) (hnow : now < stop) :
    Stretch l workers start stop k (failures ++ [⟨read, now⟩]) (r.fail l read) := by
  obtain ⟨streak, hstreak, hfresh⟩ := h
  -- the streak with one more failure is still within what a window holds, also with all that is under way when it locks
  have hfull : l.maxFailures ≤ r.failureCount + 1 → streak + 1 + k ≤ l.perWindow workers := by
    intro hreached
    by_cases hlocked : 0 < streak ∧ l.maxFailures ≤ r.failureCount
    · have hheld := (hstreak.locked hlocked.1 hlocked.2).1
      omega
    · have hcount := hstreak.count
      unfold perWindow
      omega
  refine ⟨streak + 1, ⟨?_, Nat.succ_le_succ hstreak.count, fun _ hreached => ⟨hfull hreached, read + l.lockout, if_pos hreached, ?_⟩⟩, ?_⟩
  · by_cases hreached : l.maxFailures ≤ r.failureCount + 1
    · exact (Nat.le_add_right _ k).trans (hfull hreached)
    · have hcount := hstreak.count
      unfold perWindow
      omega
  · exact Nat.add_le_add_right hstart _
  · rw [fresh_append, stale_append, if_pos ⟨hstart, hstart.trans hread, hnow⟩, if_neg fun hstale => Nat.not_le.mpr hstale.1 hstart]
    exact Nat.succ_le_succ hfresh

/-- A failure that read the clock before the stretch ends a streak, whatever it does to the lock. -/
theorem Stretch.stale {k : ℕ} (h : Stretch l workers start stop (k + 1) failures r) (hstale : read < start) (hstart : start ≤ now)
    (hnow : now < stop) : Stretch l workers start stop k (failures ++ [⟨read, now⟩]) ((r.reopen l read).fail l read) := by
  obtain ⟨streak, hstreak, hfresh⟩ := h
  refine ⟨0, .zero, ?_⟩
  rw [fresh_append, if_neg fun hin => Nat.not_le.mpr hstale hin.1, stale_append, if_pos ⟨hstale, hstart, hnow⟩]
  -- a stale reading closes no window that opened in the stretch
  have hopened : (if start ≤ r.windowStartedAt then 1 else 0) ≤ if start ≤ (r.reopen l read).windowStartedAt then 1 else 0 := by
    unfold Row.reopen
    by_cases hpassed : r.windowStartedAt + l.window ≤ read
    · rw [if_neg (by omega)]
      exact Nat.zero_le _
    · rw [if_neg hpassed]
  calc fresh failures start stop
    _ ≤ (Lockout.stale failures start stop + if start ≤ r.windowStartedAt then 1 else 0) * l.perWindow workers + streak := hfresh
    _ ≤ (Lockout.stale failures start stop + if start ≤ (r.reopen l read).windowStartedAt then 1 else 0) * l.perWindow workers +
        l.perWindow workers := Nat.add_le_add (Nat.mul_le_mul_right _ (Nat.add_le_add_left hopened _)) hstreak.few
    _ = (Lockout.stale failures start stop + 1 + if start ≤ (r.reopen l read).windowStartedAt then 1 else 0) * l.perWindow workers := by
      rw [Nat.add_right_comm, Nat.succ_mul]

theorem Stretch.fresh_le {k : ℕ} (h : Stretch l workers start stop k failures r) :
    fresh failures start stop ≤ (Lockout.stale failures start stop + 2) * l.perWindow workers := by
  obtain ⟨streak, hstreak, hfresh⟩ := h
  have hopened : (if start ≤ r.windowStartedAt then 1 else 0) ≤ 1 := by
    split
    · exact le_rfl
    · exact Nat.zero_le _
  calc fresh failures start stop
    _ ≤ (Lockout.stale failures start stop + if start ≤ r.windowStartedAt then 1 else 0) * l.perWindow workers + streak := hfresh
    _ ≤ (Lockout.stale failures start stop + 1) * l.perWindow workers + l.perWindow workers :=
      Nat.add_le_add (Nat.mul_le_mul_right _ (Nat.add_le_add_left hopened _)) hstreak.few
    _ = (Lockout.stale failures start stop + 2) * l.perWindow workers := (Nat.succ_mul _ _).symm

/-- A step of the record, within the stretch. -/
theorem Stretch.record {k : ℕ} (h : Stretch l workers start (start + span) (k + 1) failures r) (hkept : Kept workers now held failures)
    (hpositive : 0 < l.maxFailures) (hwithin : span ≤ l.window) (hk : k < workers) (hread : read ≤ now) (hnow : now < start + span) :
    Stretch l workers start (start + span) k (failures ++ [⟨read, now⟩]) ((r.reopen l read).fail l read) := by
  by_cases hstart : start ≤ read
  · exact (h.reopen hwithin hstart (hread.trans_lt hnow)).fail hpositive hk hstart hread hnow
  · by_cases hbegun : start ≤ now
    · exact h.stale (Nat.not_le.mp hstart) hbegun hnow
    · refine ⟨0, .zero, ?_⟩
      rw [fresh_append, (hkept.none_before (Nat.not_le.mp hbegun)).1, if_neg fun hin => hstart hin.1]
      exact Nat.zero_le _

theorem Attempts.stretch (hpositive : 0 < l.maxFailures) (hwithin : span ≤ l.window) (hlockout : span ≤ l.lockout)
    (h : Attempts l workers now held failures row) (start : ℕ) :
    fresh failures start (start + span) ≤ (stale failures start (start + span) + 2) * l.perWindow workers ∧
    (row = none → failures = []) ∧
    ∀ r, row = some r → now < start + span → Stretch l workers start (start + span) held.card failures r := by
  induction h with
  | start => exact ⟨Nat.zero_le _, fun _ => rfl, nofun⟩
  | later h hle ih => exact ⟨ih.1, ih.2.1, fun r hr hnow => ih.2.2 r hr (hle.trans_lt hnow)⟩
  | allow h hasked hheld hopen ih =>
    refine ⟨ih.1, ih.2.1, fun r hr hnow => ?_⟩
    rw [Multiset.card_cons]
    exact (ih.2.2 r hr hnow).allow hlockout (hasked.trans_lt hnow) (hopen r hr)
  | read h ih => simpa only [Multiset.card_cons] using ih
  | leave h ih =>
    refine ⟨ih.1, ih.2.1, fun r hr hnow => ?_⟩
    have hstretch := ih.2.2 r hr hnow
    rw [Multiset.card_cons] at hstretch
    exact hstretch.leave
  | @record now read held failures row h ih =>
    obtain ⟨hfew, hnone, hsome⟩ := ih
    have hcard := h.kept.few
    rw [Multiset.card_cons] at hcard hsome
    have hread : read ≤ now := h.kept.read read (Multiset.mem_cons_self _ _)
    have hstretch : now < start + span → Stretch l workers start (start + span) held.card (failures ++ [⟨read, now⟩]) (l.record read row) := by
      intro hnow
      cases row with
      | none =>
        have hempty : Stretch l workers start (start + span) (held.card + 1) failures { windowStartedAt := read } := by
          rw [hnone rfl]
          exact ⟨0, .zero, Nat.zero_le _⟩
        exact hempty.record h.kept hpositive hwithin hcard hread hnow
      | some r => exact (hsome r rfl hnow).record h.kept hpositive hwithin hcard hread hnow
    refine ⟨?_, nofun, fun r hr hnow => Option.some.inj hr ▸ hstretch hnow⟩
    by_cases hnow : now < start + span
    · exact (hstretch hnow).fresh_le
    · rw [fresh_append, stale_append, if_neg fun hin => hnow hin.2.2, if_neg fun hin => hnow hin.2.2, Nat.add_zero, Nat.add_zero]
      exact hfew

/-- A stretch no longer than the window and the lock sees two streaks, and one more for each failure that read the clock before it. -/
theorem Attempts.between_le (hpositive : 0 < l.maxFailures) (hwithin : span ≤ l.window) (hlockout : span ≤ l.lockout)
    (h : Attempts l workers now held failures row) (start : ℕ) :
    between failures start (start + span) ≤ (stale failures start (start + span) + 2) * (l.maxFailures + workers - 1) +
      stale failures start (start + span) := by
  rw [between_eq]
  exact Nat.add_le_add_right (h.stretch hpositive hwithin hlockout start).1 _

end Lockout
end FireDash
