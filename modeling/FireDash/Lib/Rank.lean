import Mathlib.Data.List.Sort

/-! Ranks in a list: how many entries have a larger key. The entries of small rank are those
that a descending order puts first. Selecting rows and sorting them commute. -/
namespace FireDash

variable {α : Type}

/-- The number of entries with a larger key. -/
def rank (key : α → ℕ) (l : List α) (a : α) : ℕ := l.countP fun b => key a < key b

theorem rank_perm {key : α → ℕ} {l l' : List α} (h : l.Perm l') (a : α) : rank key l a = rank key l' a :=
  h.countP_eq _

theorem rank_filter_le (key : α → ℕ) (l : List α) (p : α → Bool) (a : α) :
    rank key (l.filter p) a ≤ rank key l a :=
  List.filter_sublist.countP_le

/-- Counting the larger entries, or listing and counting them. -/
theorem rank_eq_length (key : α → ℕ) (l : List α) (a : α) :
    rank key l a = (l.filter fun b => key a < key b).length :=
  List.countP_eq_length_filter

theorem rank_eq_zero {key : α → ℕ} {l : List α} {a : α} : rank key l a = 0 ↔ ∀ b ∈ l, key b ≤ key a := by
  simp [rank, List.countP_eq_zero]

/-- Some entry of a nonempty list has nothing above it. -/
theorem exists_rank_eq_zero (key : α → ℕ) {l : List α} {a : α} (ha : a ∈ l) : ∃ b ∈ l, rank key l b = 0 := by
  simp only [rank_eq_zero]
  induction l generalizing a with
  | nil => cases ha
  | cons c l ih =>
    cases l with
    | nil => exact ⟨c, List.mem_cons_self, by simp⟩
    | cons d l =>
      obtain ⟨b, hb, hmax⟩ := ih List.mem_cons_self
      by_cases hbc : key b < key c
      · refine ⟨c, List.mem_cons_self, fun e he => ?_⟩
        rcases List.mem_cons.mp he with rfl | he
        · exact le_refl _
        · have := hmax e he
          omega
      · refine ⟨b, List.mem_cons_of_mem _ hb, fun e he => ?_⟩
        rcases List.mem_cons.mp he with rfl | he
        · omega
        · exact hmax e he

/-- In a descending list, the first `n` entries are those of rank below `n`. -/
theorem mem_take_iff_rank {key : α → ℕ} {l : List α} (h : l.Pairwise fun a b => key b < key a) {n : ℕ} {a : α} :
    a ∈ l.take n ↔ a ∈ l ∧ rank key l a < n := by
  induction l generalizing n with
  | nil => simp
  | cons b l ih =>
    obtain ⟨hb, hl⟩ := List.pairwise_cons.mp h
    cases n with
    | zero => simp
    | succ n =>
      rw [List.take_succ_cons, List.mem_cons, List.mem_cons, ih hl]
      have hcons : rank key (b :: l) a = rank key l a + if key a < key b then 1 else 0 := by
        simp [rank, List.countP_cons]
      rw [hcons]
      by_cases hab : a = b
      · subst hab
        have hzero : rank key l a = 0 := rank_eq_zero.mpr fun c hc => (hb c hc).le
        simp [hzero]
      · simp only [hab, false_or]
        constructor
        · rintro ⟨ha, hr⟩
          exact ⟨ha, by rw [if_pos (hb a ha)]; omega⟩
        · rintro ⟨ha, hr⟩
          rw [if_pos (hb a ha)] at hr
          exact ⟨ha, by omega⟩

/-- Dropping one entry outside the first `n` leaves the first `n` as they were. -/
theorem rank_filter_lt_iff {key : α → ℕ} {l : List α} {p : α → Bool} {b : α} {n : ℕ} (hb : n ≤ rank key l b)
    (hp : ∀ c ∈ l, p c = false → c = b) (a : α) : rank key (l.filter p) a < n ↔ rank key l a < n := by
  constructor
  · intro ha
    by_contra hn
    by_cases hab : key a < key b
    · -- Everything larger than the dropped entry stayed, and is larger than `a` too.
      have hle : rank key l b ≤ rank key (l.filter p) a := by
        unfold rank
        rw [List.countP_filter]
        refine List.countP_mono_left fun c hc hlt => ?_
        simp only [decide_eq_true_eq] at hlt
        have hkept : p c = true := by
          by_contra hne
          have hcb := hp c hc (by simpa using hne)
          subst hcb
          omega
        simp only [Bool.and_eq_true, decide_eq_true_eq]
        exact ⟨by omega, hkept⟩
      omega
    · have heq : rank key (l.filter p) a = rank key l a := by
        unfold rank
        rw [List.countP_filter]
        refine List.countP_congr fun c hc => ?_
        simp only [Bool.and_eq_true, decide_eq_true_eq, and_iff_left_iff_imp]
        intro hlt
        by_contra hne
        have hcb := hp c hc (by simpa using hne)
        subst hcb
        exact hab hlt
      omega
  · intro ha
    have hle := rank_filter_le key l p a
    omega

/-! ### Cursors -/

/-- The entries that a cursor leaves in a descending list: those with a smaller key. -/
def below (key : α → ℕ) (cursor : Option ℕ) (a : α) : Bool :=
  match cursor with
  | none => true
  | some c => key a < c

/-- Behind an entry of a descending list stand the entries below it. -/
theorem filter_below {key : α → ℕ} {pre post : List α} {a : α}
    (h : (pre ++ a :: post).Pairwise fun b c => key c < key b) :
    (pre ++ a :: post).filter (below key (some (key a))) = post := by
  obtain ⟨-, hpost, hpre⟩ := List.pairwise_append.mp h
  have hbefore : pre.filter (below key (some (key a))) = [] := by
    rw [List.filter_eq_nil_iff]
    intro b hb hlt
    have hab := hpre b hb a List.mem_cons_self
    simp only [below, decide_eq_true_eq] at hlt
    omega
  have hbehind : post.filter (below key (some (key a))) = post := by
    rw [List.filter_eq_self]
    intro c hc
    have hca := (List.pairwise_cons.mp hpost).1 c hc
    simpa [below] using hca
  have hself : below key (some (key a)) a = false := by simp [below]
  rw [List.filter_append, List.filter_cons, hself, hbefore, hbehind]
  simp

/-! ### Stable sorting -/

section Sorting

variable {r : α → α → Prop} [DecidableRel r]

/-- A row dropped from an ordered list makes no difference to where the others are inserted. -/
theorem filter_orderedInsert (ht : ∀ a b c, r a b → r b c → r a c) (p : α → Bool) (a : α) {l : List α}
    (hl : l.Pairwise r) :
    (l.orderedInsert r a).filter p = if p a then (l.filter p).orderedInsert r a else l.filter p := by
  induction l with
  | nil => cases hp : p a <;> simp [hp]
  | cons b l ih =>
    rw [List.pairwise_cons] at hl
    by_cases hab : r a b
    · have hfront : (l.filter p).orderedInsert r a = a :: l.filter p := by
        cases hf : l.filter p with
        | nil => rfl
        | cons c rest =>
          have hc : c ∈ l := List.mem_of_mem_filter (hf ▸ List.mem_cons_self)
          rw [List.orderedInsert_cons, if_pos (ht a b c hab (hl.1 c hc))]
      rw [List.orderedInsert_cons, if_pos hab]
      cases hb : p b <;> cases ha : p a <;> simp [ha, hb, hab, hfront]
    · rw [List.orderedInsert_cons, if_neg hab]
      cases hb : p b <;> cases ha : p a <;> simp [ha, hb, hab, ih hl.2]

/-- Selecting from a sorted list is sorting the selection. -/
theorem filter_insertionSort (hr : ∀ a b, r a b ∨ r b a) (ht : ∀ a b c, r a b → r b c → r a c) (p : α → Bool)
    (l : List α) : (l.insertionSort r).filter p = (l.filter p).insertionSort r := by
  have : Std.Total r := ⟨hr⟩
  have : IsTrans α r := ⟨ht⟩
  induction l with
  | nil => rfl
  | cons a l ih =>
    rw [List.insertionSort_cons, filter_orderedInsert ht p a (List.pairwise_insertionSort r l), ih]
    cases hp : p a <;> simp [hp]

end Sorting

end FireDash
