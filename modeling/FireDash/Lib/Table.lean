import Mathlib.Data.List.Sort

/-! Append-only tables. The primary key of a row is the position at which it was
inserted, so keys are unique, never reused, and no row can be dropped. -/
namespace FireDash

universe u

structure Table (α : Type u) where
  rows : List α
  deriving DecidableEq

namespace Table

variable {α : Type u}

instance : Inhabited (Table α) := ⟨⟨[]⟩⟩

def find (t : Table α) (i : ℕ) : Option α := t.rows[i]?

/-- The key the next inserted row receives. -/
def nextId (t : Table α) : ℕ := t.rows.length

def insert (t : Table α) (a : α) : Table α := ⟨t.rows ++ [a]⟩

/-- Rewrite one row; an unknown key changes nothing. -/
def modify (t : Table α) (i : ℕ) (f : α → α) : Table α := ⟨t.rows.modify i f⟩

def entries (t : Table α) : List (ℕ × α) := t.rows.zipIdx.map Prod.swap

def filter (t : Table α) (p : α → Bool) : List (ℕ × α) := t.entries.filter fun e => p e.2

def first (t : Table α) (p : α → Bool) : Option (ℕ × α) := t.entries.find? fun e => p e.2

def any (t : Table α) (p : α → Bool) : Bool := t.rows.any p

@[ext] theorem ext {s t : Table α} (h : ∀ i, s.find i = t.find i) : s = t := by
  cases s with | mk rs =>
  cases t with | mk rt =>
  congr 1
  exact List.ext_getElem? h

@[simp, grind =] theorem find_insert (t : Table α) (a : α) (i : ℕ) :
    (t.insert a).find i = if i = t.nextId then some a else t.find i := by
  by_cases he : i = t.nextId
  · rw [if_pos he, he]
    simp [find, insert, nextId]
  · rw [if_neg he]
    unfold nextId at he
    rcases Nat.lt_or_gt_of_ne he with hl | hl
    · exact List.getElem?_append_left hl
    · simp only [find, insert]
      rw [List.getElem?_eq_none (by simp; omega), List.getElem?_eq_none (by omega)]

@[simp, grind =] theorem find_modify (t : Table α) (i j : ℕ) (f : α → α) :
    (t.modify i f).find j = if i = j then (t.find j).map f else t.find j := by
  simp only [find, modify, List.getElem?_modify]
  split_ifs <;> cases t.rows[j]? <;> rfl

/-- A row after an insertion is the new one or an old one. -/
theorem find_insert_cases {t : Table α} {a b : α} {i : ℕ} (h : (t.insert a).find i = some b) :
    i = t.nextId ∧ b = a ∨ t.find i = some b := by
  rw [find_insert] at h
  split at h
  · cases h
    exact .inl ⟨‹_›, rfl⟩
  · exact .inr h

/-- A row after a rewrite is the rewritten one or another one. -/
theorem find_modify_cases {t : Table α} {i j : ℕ} {f : α → α} {a b : α} (ha : t.find i = some a)
    (h : (t.modify i f).find j = some b) : j = i ∧ b = f a ∨ j ≠ i ∧ t.find j = some b := by
  rw [find_modify] at h
  split at h
  · rename_i hij
    rw [← hij, ha] at h
    cases h
    exact .inl ⟨hij.symm, rfl⟩
  · exact .inr ⟨Ne.symm ‹_›, h⟩

theorem modify_modify (t : Table α) (i : ℕ) (f g : α → α) :
    (t.modify i f).modify i g = t.modify i (g ∘ f) := by
  ext j
  by_cases h : i = j <;> simp [h]

/-- Only the value a rewrite takes on the row itself matters. -/
theorem modify_congr {t : Table α} {i : ℕ} {a : α} {f g : α → α} (h : t.find i = some a) (hfg : f a = g a) :
    t.modify i f = t.modify i g := by
  ext j
  by_cases hj : i = j
  · subst hj
    simp [h, hfg]
  · simp [hj]

theorem modify_eq_self {t : Table α} {i : ℕ} {a : α} {f : α → α} (h : t.find i = some a) (hf : f a = a) :
    t.modify i f = t := by
  ext j
  by_cases hj : i = j
  · subst hj
    simp [h, hf]
  · simp [hj]

/-- Rewriting the row just inserted. -/
theorem insert_modify (t : Table α) (a : α) (f : α → α) :
    (t.insert a).modify t.nextId f = t.insert (f a) := by
  ext j
  by_cases hj : t.nextId = j
  · subst hj
    simp
  · simp [hj, Ne.symm hj]

@[simp] theorem nextId_insert (t : Table α) (a : α) : (t.insert a).nextId = t.nextId + 1 := by
  simp [nextId, insert]

@[simp] theorem nextId_modify (t : Table α) (i : ℕ) (f : α → α) :
    (t.modify i f).nextId = t.nextId := by
  simp [nextId, modify]

@[grind →] theorem lt_nextId_of_find {t : Table α} {i : ℕ} {a : α} (h : t.find i = some a) :
    i < t.nextId :=
  (List.getElem?_eq_some_iff.mp h).1

@[simp, grind =] theorem find_nextId (t : Table α) : t.find t.nextId = none := by
  simp [find, nextId]

theorem mem_entries {t : Table α} {i : ℕ} {a : α} : (i, a) ∈ t.entries ↔ t.find i = some a := by
  simp only [entries, List.mem_map, find]
  constructor
  · rintro ⟨⟨b, j⟩, hm, he⟩
    obtain ⟨rfl, rfl⟩ := Prod.mk.inj he
    exact List.mem_zipIdx_iff_getElem?.mp hm
  · intro h
    exact ⟨(a, i), List.mem_zipIdx_iff_getElem?.mpr h, rfl⟩

theorem getElem?_entries (t : Table α) (i : ℕ) : t.entries[i]? = (t.find i).map fun a => (i, a) := by
  simp only [entries, find, List.getElem?_map, List.getElem?_zipIdx]
  cases t.rows[i]? <;> simp

theorem entries_modify (t : Table α) (i : ℕ) (f : α → α) :
    (t.modify i f).entries = t.entries.map fun e => if e.1 = i then (e.1, f e.2) else e := by
  refine List.ext_getElem? fun k => ?_
  rw [List.getElem?_map, getElem?_entries, getElem?_entries, find_modify]
  by_cases hk : i = k
  · subst hk
    cases t.find i <;> simp
  · cases t.find k <;> simp [hk, Ne.symm hk]

/-- Rewriting a row so that it leaves a selection drops just that row from it. -/
theorem filter_entries_modify {t : Table α} {i : ℕ} {f : α → α} {p p' : ℕ × α → Bool}
    (hp : ∀ e ∈ t.entries, e.1 ≠ i → p' e = p e) (hi : ∀ a, t.find i = some a → p' (i, f a) = false) :
    (t.modify i f).entries.filter p' = (t.entries.filter p).filter fun e => e.1 ≠ i := by
  rw [entries_modify, List.filter_map, List.filter_filter]
  have hsel : (t.entries.filter (p' ∘ fun e => if e.1 = i then (e.1, f e.2) else e)) =
      t.entries.filter fun e => decide (e.1 ≠ i) && p e := by
    refine List.filter_congr ?_
    rintro ⟨k, a⟩ he
    by_cases hk : k = i
    · subst hk
      simp [hi a (mem_entries.mp he)]
    · simp [hk, hp _ he hk]
  rw [hsel]
  conv_rhs => rw [← List.map_id (t.entries.filter fun e => decide (e.1 ≠ i) && p e)]
  refine List.map_congr_left fun e he => ?_
  have hk : e.1 ≠ i := by
    have := (List.mem_filter.mp he).2
    simp only [Bool.and_eq_true, decide_eq_true_eq] at this
    exact this.1
  simp [hk]

theorem forall_entries {t : Table α} {P : ℕ × α → Prop} :
    (∀ e ∈ t.entries, P e) ↔ ∀ i a, t.find i = some a → P (i, a) := by
  constructor
  · intro h i a hi
    exact h (i, a) (mem_entries.mpr hi)
  · rintro h ⟨i, a⟩ he
    exact h i a (mem_entries.mp he)

theorem mem_filter {t : Table α} {p : α → Bool} {i : ℕ} {a : α} :
    (i, a) ∈ t.filter p ↔ t.find i = some a ∧ p a = true := by
  simp [filter, mem_entries]

theorem first_eq_some {t : Table α} {p : α → Bool} {i : ℕ} {a : α} (h : t.first p = some (i, a)) :
    t.find i = some a ∧ p a = true :=
  ⟨mem_entries.mp (List.mem_of_find?_eq_some h),
    List.find?_some (p := fun e : ℕ × α => p e.2) h⟩

theorem first_eq_none {t : Table α} {p : α → Bool} :
    t.first p = none ↔ ∀ i a, t.find i = some a → p a = false := by
  simp only [first, List.find?_eq_none, Prod.forall, mem_entries, Bool.not_eq_true]

theorem any_eq_true {t : Table α} {p : α → Bool} :
    t.any p = true ↔ ∃ i a, t.find i = some a ∧ p a = true := by
  simp only [any, List.any_eq_true, find]
  constructor
  · rintro ⟨a, ha, hp⟩
    obtain ⟨i, hi⟩ := List.mem_iff_getElem?.mp ha
    exact ⟨i, a, hi, hp⟩
  · rintro ⟨i, a, hi, hp⟩
    exact ⟨a, List.mem_of_getElem? hi, hp⟩

theorem any_eq_false {t : Table α} {p : α → Bool} :
    t.any p = false ↔ ∀ i a, t.find i = some a → p a = false := by
  rw [← Bool.not_eq_true, any_eq_true]
  simp only [not_exists, not_and, Bool.not_eq_true]

theorem map_fst_entries (t : Table α) : t.entries.map Prod.fst = List.range t.rows.length := by
  rw [entries, List.map_map, List.range_eq_range']
  exact List.zipIdx_map_snd 0 t.rows

theorem nodup_keys (t : Table α) : (t.entries.map Prod.fst).Nodup := by
  rw [map_fst_entries]
  exact List.nodup_range

theorem nodup_keys_filter (t : Table α) (p : α → Bool) : ((t.filter p).map Prod.fst).Nodup :=
  t.nodup_keys.sublist (List.filter_sublist.map Prod.fst)

theorem pairwise_keys (t : Table α) : t.entries.Pairwise fun a b => a.1 < b.1 := by
  rw [← List.pairwise_map (f := Prod.fst), map_fst_entries]
  exact List.pairwise_lt_range

/-- Two tables with the same selected rows have the same selection. -/
theorem filter_entries_congr {t t' : Table α} {p : ℕ × α → Bool}
    (h : ∀ i a, p (i, a) = true → (t'.find i = some a ↔ t.find i = some a)) :
    t'.entries.filter p = t.entries.filter p := by
  have hsorted : ∀ u : Table α, (u.entries.filter p).Pairwise fun a b => a.1 < b.1 := fun u =>
    u.pairwise_keys.sublist List.filter_sublist
  have hnodup : ∀ u : Table α, (u.entries.filter p).Nodup := fun u =>
    (hsorted u).imp fun {a b} hlt he => absurd (congrArg Prod.fst he) hlt.ne
  have hasymm : ∀ a b : ℕ × α, a ∈ t'.entries.filter p → b ∈ t.entries.filter p → a.1 < b.1 → b.1 < a.1 → a = b :=
    fun a b _ _ hab hba => absurd hab hba.asymm
  refine List.Perm.eq_of_pairwise hasymm (hsorted t') (hsorted t) ?_
  · rw [List.perm_ext_iff_of_nodup (hnodup t') (hnodup t)]
    rintro ⟨i, a⟩
    simp only [List.mem_filter, mem_entries]
    exact ⟨fun ⟨hi, hp⟩ => ⟨(h i a hp).mp hi, hp⟩, fun ⟨hi, hp⟩ => ⟨(h i a hp).mpr hi, hp⟩⟩

theorem find_map (t : Table α) (f : α → α) (i : ℕ) : (⟨t.rows.map f⟩ : Table α).find i = (t.find i).map f := by
  simp [find]

/-! ### Evolving tables -/

/-- Every row stays related to what it becomes, and every new row is an admitted one. -/
structure Evolve (R : α → α → Prop) (P : α → Prop) (t t' : Table α) : Prop where
  rows : ∀ {i a}, t.find i = some a → ∃ b, t'.find i = some b ∧ R a b
  fresh : ∀ {i b}, t.find i = none → t'.find i = some b → P b

section Evolve

variable {R : α → α → Prop} {P Q : α → Prop} {t t' t'' : Table α}

theorem Evolve.refl (hR : ∀ a, R a a) : Evolve R P t t where
  rows {_ a} h := ⟨a, h, hR a⟩
  fresh hn h := by
    rw [hn] at h
    cases h

theorem Evolve.mono (h : Evolve R P t t') (hP : ∀ a, P a → Q a) : Evolve R Q t t' :=
  ⟨h.rows, fun hn hb => hP _ (h.fresh hn hb)⟩

theorem Evolve.imp {R' : α → α → Prop} (h : Evolve R P t t') (hR : ∀ a b, R a b → R' a b) : Evolve R' P t t' where
  rows ha := by
    obtain ⟨b, hb, hab⟩ := h.rows ha
    exact ⟨b, hb, hR _ _ hab⟩
  fresh := h.fresh

theorem Evolve.trans (hR : ∀ {a b c}, R a b → R b c → R a c) (hP : ∀ {a b}, P a → R a b → P b)
    (h : Evolve R P t t') (h' : Evolve R P t' t'') : Evolve R P t t'' where
  rows ha := by
    obtain ⟨b, hb, hab⟩ := h.rows ha
    obtain ⟨c, hc, hbc⟩ := h'.rows hb
    exact ⟨c, hc, hR hab hbc⟩
  fresh {i c} hn hc := by
    cases hb : t'.find i with
    | none => exact h'.fresh hb hc
    | some b =>
      obtain ⟨c', hc', hbc⟩ := h'.rows hb
      rw [hc] at hc'
      cases hc'
      exact hP (h.fresh hn hb) hbc

/-- A row after the change is an admitted new one, or comes from an old row. -/
theorem Evolve.old (h : Evolve R P t t') {i : ℕ} {b : α} (hb : t'.find i = some b) :
    P b ∨ ∃ a, t.find i = some a ∧ R a b := by
  cases ha : t.find i with
  | none => exact .inl (h.fresh ha hb)
  | some a =>
    obtain ⟨b', hb', hab⟩ := h.rows ha
    rw [hb] at hb'
    cases hb'
    exact .inr ⟨a, rfl, hab⟩

/-- A change that admits no new row keeps the number of rows. -/
theorem Evolve.nextId (h : Evolve R (fun _ => False) t t') : t'.nextId = t.nextId := by
  rcases Nat.lt_trichotomy t'.nextId t.nextId with hlt | heq | hgt
  · obtain ⟨b, hb, -⟩ := h.rows (List.getElem?_eq_getElem hlt)
    exact absurd (lt_nextId_of_find hb) (Nat.lt_irrefl _)
  · exact heq
  · exact (h.fresh t.find_nextId (List.getElem?_eq_getElem hgt)).elim

/-- Columns that a change of the rows keeps, when no row is added. -/
theorem Evolve.map_rows {β : Type*} {f : α → β} (h : Evolve R (fun _ => False) t t') (hf : ∀ {a b}, R a b → f b = f a) :
    t'.rows.map f = t.rows.map f := by
  refine List.ext_getElem? fun i => ?_
  rw [List.getElem?_map, List.getElem?_map]
  have hrow : (t'.find i).map f = (t.find i).map f := by
    cases ha : t.find i with
    | none =>
      cases hb : t'.find i with
      | none => rfl
      | some b => exact (h.fresh ha hb).elim
    | some a =>
      obtain ⟨b, hb, hab⟩ := h.rows ha
      rw [hb, Option.map_some, Option.map_some, hf hab]
  exact hrow

theorem Evolve.modify (hR : ∀ a, R a a) {i : ℕ} {f : α → α} (hf : ∀ a, t.find i = some a → R a (f a)) :
    Evolve R P t (t.modify i f) where
  rows {j a} ha := by
    by_cases hj : i = j
    · subst hj
      exact ⟨f a, by simp [ha], hf a ha⟩
    · exact ⟨a, by simp [hj, ha], hR a⟩
  fresh hn hb := by
    rw [find_modify, hn] at hb
    split at hb <;> cases hb

theorem Evolve.map {f : α → α} (hf : ∀ a, R a (f a)) : Evolve R P t ⟨t.rows.map f⟩ where
  rows {_ a} ha := ⟨f a, by rw [find_map, ha]; rfl, hf a⟩
  fresh hn hb := by
    rw [find_map, hn] at hb
    cases hb

theorem Evolve.insert (hR : ∀ a, R a a) {a : α} (ha : P a) : Evolve R P t (t.insert a) where
  rows {i b} hb := ⟨b, by simp [(lt_nextId_of_find hb).ne, hb], hR b⟩
  fresh hn hb := by
    rw [find_insert, hn] at hb
    split at hb <;> cases hb
    exact ha

end Evolve

end Table
end FireDash
