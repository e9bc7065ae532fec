import Mathlib.Data.List.Nodup
import Mathlib.Algebra.BigOperators.Group.List.Basic
import Mathlib.Algebra.Order.BigOperators.Group.List
import Mathlib.Algebra.Order.Group.Int
import Mathlib.Algebra.GroupWithZero.Nat
import Mathlib.Algebra.Ring.Int.Defs

/-! Tables with an explicit primary key. No two rows share it, a saved row replaces the
one with its key, and rows can be deleted. -/
namespace FireDash

structure Rows {α κ : Type} (key : α → κ) where
  list : List α := []
  nodup : (list.map key).Nodup := by simp
  deriving DecidableEq

namespace Rows

variable {α κ : Type} [DecidableEq κ] {key : α → κ}

instance : Inhabited (Rows key) := ⟨{}⟩

def find (t : Rows key) (i : κ) : Option α := t.list.find? fun a => key a = i

theorem mem_of_find {t : Rows key} {i : κ} {a : α} (h : t.find i = some a) : a ∈ t.list :=
  List.mem_of_find?_eq_some h

theorem key_of_find {t : Rows key} {i : κ} {a : α} (h : t.find i = some a) : key a = i := by
  simpa using List.find?_some h

theorem find_of_mem {t : Rows key} {a : α} (h : a ∈ t.list) : t.find (key a) = some a := by
  cases hf : t.find (key a) with
  | none => simpa using List.find?_eq_none.mp hf a h
  | some b =>
    have hb : b = a := List.inj_on_of_nodup_map t.nodup (mem_of_find hf) h (key_of_find hf)
    rw [hb]

theorem find_eq_some {t : Rows key} {i : κ} {a : α} : t.find i = some a ↔ a ∈ t.list ∧ key a = i := by
  constructor
  · intro h
    exact ⟨mem_of_find h, key_of_find h⟩
  · rintro ⟨h, rfl⟩
    exact find_of_mem h

theorem find_eq_none {t : Rows key} {i : κ} : t.find i = none ↔ ∀ a ∈ t.list, key a ≠ i := by
  simp [find]

omit [DecidableEq κ] in
/-- Rows with one key are one row. -/
theorem eq_of_key {t : Rows key} {a b : α} (ha : a ∈ t.list) (hb : b ∈ t.list) (h : key a = key b) : a = b :=
  List.inj_on_of_nodup_map t.nodup ha hb h

def insert (t : Rows key) (a : α) (h : t.find (key a) = none) : Rows key where
  list := t.list ++ [a]
  nodup := by
    rw [List.map_append, List.nodup_append]
    refine ⟨t.nodup, by simp, ?_⟩
    rintro i hi j hj rfl
    obtain ⟨b, hb, rfl⟩ := List.mem_map.mp hi
    obtain ⟨c, hc, hk⟩ := List.mem_map.mp hj
    obtain rfl := List.mem_singleton.mp hc
    exact find_eq_none.mp h b hb hk.symm

/-- An insert under a key in use is refused. -/
def insert? (t : Rows key) (a : α) : Option (Rows key) :=
  if h : t.find (key a) = none then some (t.insert a h) else none

/-- Rewrite the row with the key of the given one; without such a row nothing changes. -/
def save (t : Rows key) (a : α) : Rows key where
  list := t.list.map fun b => if key b = key a then a else b
  nodup := by
    have hkeys : (t.list.map fun b => if key b = key a then a else b).map key = t.list.map key := by
      rw [List.map_map]
      refine List.map_congr_left fun b _ => ?_
      by_cases hb : key b = key a
      · simp [hb]
      · simp [hb]
    rw [hkeys]
    exact t.nodup

def delete (t : Rows key) (p : α → Bool) : Rows key where
  list := t.list.filter fun a => !p a
  nodup := t.nodup.sublist ((List.filter_sublist).map key)

def sum (t : Rows key) (f : α → ℤ) : ℤ := (t.list.map f).sum

theorem insert?_eq_some {t u : Rows key} {a : α} (h : t.insert? a = some u) :
    ∃ ha : t.find (key a) = none, u = t.insert a ha := by
  unfold insert? at h
  by_cases ha : t.find (key a) = none
  · rw [dif_pos ha] at h
    exact ⟨ha, (Option.some.inj h).symm⟩
  · rw [dif_neg ha] at h
    cases h

@[simp] theorem mem_insert {t : Rows key} {a b : α} (h : t.find (key a) = none) :
    b ∈ (t.insert a h).list ↔ b ∈ t.list ∨ b = a := by
  simp [insert]

theorem mem_save {t : Rows key} {a b : α} :
    b ∈ (t.save a).list ↔ (b ∈ t.list ∧ key b ≠ key a) ∨ (b = a ∧ ∃ c ∈ t.list, key c = key a) := by
  simp only [save, List.mem_map]
  constructor
  · rintro ⟨c, hc, rfl⟩
    by_cases hk : key c = key a
    · rw [if_pos hk]
      exact .inr ⟨rfl, c, hc, hk⟩
    · rw [if_neg hk]
      exact .inl ⟨hc, hk⟩
  · rintro (⟨hb, hk⟩ | ⟨rfl, c, hc, hk⟩)
    · exact ⟨b, hb, if_neg hk⟩
    · exact ⟨c, hc, if_pos hk⟩

omit [DecidableEq κ] in
@[simp] theorem mem_delete {t : Rows key} {p : α → Bool} {a : α} :
    a ∈ (t.delete p).list ↔ a ∈ t.list ∧ p a = false := by
  simp [delete]

theorem find_insert {t : Rows key} {a : α} (h : t.find (key a) = none) (i : κ) :
    (t.insert a h).find i = if key a = i then some a else t.find i := by
  by_cases hi : key a = i
  · subst hi
    rw [if_pos rfl, find_eq_some]
    simp
  · rw [if_neg hi]
    simp [find, insert, hi]

theorem find_save {t : Rows key} {a : α} (i : κ) :
    (t.save a).find i = if key a = i then (t.find i).map fun _ => a else t.find i := by
  by_cases hi : key a = i
  · subst hi
    rw [if_pos rfl]
    cases hf : t.find (key a) with
    | none =>
      rw [Option.map_none, find_eq_none]
      intro b hb
      rcases mem_save.mp hb with ⟨-, hk⟩ | ⟨rfl, c, hc, hk⟩
      · exact hk
      · exact absurd hk (find_eq_none.mp hf c hc)
    | some b =>
      obtain ⟨hb, hk⟩ := find_eq_some.mp hf
      rw [Option.map_some, find_eq_some]
      exact ⟨mem_save.mpr (.inr ⟨rfl, b, hb, hk⟩), rfl⟩
  · rw [if_neg hi]
    cases hf : t.find i with
    | none =>
      rw [find_eq_none]
      intro b hb
      rcases mem_save.mp hb with ⟨hb, -⟩ | ⟨rfl, -⟩
      · exact find_eq_none.mp hf b hb
      · exact hi
    | some b =>
      obtain ⟨hb, rfl⟩ := find_eq_some.mp hf
      rw [find_eq_some]
      exact ⟨mem_save.mpr (.inl ⟨hb, fun h => hi h.symm⟩), rfl⟩

theorem find_delete {t : Rows key} {p : α → Bool} (i : κ) :
    (t.delete p).find i = (t.find i).filter fun a => !p a := by
  cases hf : t.find i with
  | none =>
    rw [Option.filter_none, find_eq_none]
    intro a ha
    exact find_eq_none.mp hf a (mem_delete.mp ha).1
  | some b =>
    obtain ⟨hb, rfl⟩ := find_eq_some.mp hf
    by_cases hp : p b = true
    · rw [Option.filter_some, if_neg (by simp [hp]), find_eq_none]
      intro a ha hk
      obtain ⟨ha, hpa⟩ := mem_delete.mp ha
      rw [eq_of_key ha hb hk, hp] at hpa
      cases hpa
    · rw [Option.filter_some, if_pos (by simp [hp]), find_eq_some]
      exact ⟨mem_delete.mpr ⟨hb, by simpa using hp⟩, rfl⟩

omit [DecidableEq κ] in
@[ext] theorem ext {t u : Rows key} (h : t.list = u.list) : t = u := by
  cases t
  cases u
  cases h
  rfl

omit [DecidableEq κ] in
theorem delete_congr {t : Rows key} {p q : α → Bool} (h : ∀ a ∈ t.list, p a = q a) : t.delete p = t.delete q := by
  ext1
  show t.list.filter _ = t.list.filter _
  exact List.filter_congr fun a ha => by rw [h a ha]

omit [DecidableEq κ] in
theorem delete_delete (t : Rows key) (p q : α → Bool) : (t.delete p).delete q = t.delete fun a => p a || q a := by
  ext1
  show (t.list.filter _).filter _ = t.list.filter _
  rw [List.filter_filter]
  exact List.filter_congr fun a _ => by rw [Bool.not_or, Bool.and_comm]

omit [DecidableEq κ] in
theorem delete_eq_self {t : Rows key} {p : α → Bool} (h : ∀ a ∈ t.list, p a = false) : t.delete p = t := by
  ext1
  show t.list.filter _ = t.list
  exact List.filter_eq_self.mpr fun a ha => by rw [h a ha]; rfl

@[simp] theorem sum_insert {t : Rows key} {a : α} (h : t.find (key a) = none) (f : α → ℤ) :
    (t.insert a h).sum f = t.sum f + f a := by
  simp [sum, insert]

omit [DecidableEq κ] in
/-- Deleted rows leave the sum. -/
theorem sum_delete (t : Rows key) (p : α → Bool) (f : α → ℤ) :
    (t.delete p).sum f = t.sum f - ((t.list.filter p).map f).sum := by
  have hlist : (t.delete p).sum f = ((t.list.filter fun a => !p a).map f).sum := rfl
  rw [hlist]
  unfold sum
  induction t.list with
  | nil => simp
  | cons a l ih =>
    cases hp : p a with
    | true =>
      simp only [List.filter_cons, hp, Bool.not_true, Bool.false_eq_true, if_false, if_true, List.map_cons,
        List.sum_cons, ih]
      omega
    | false =>
      simp only [List.filter_cons, hp, Bool.not_false, Bool.false_eq_true, if_false, if_true, List.map_cons,
        List.sum_cons, ih]
      omega

omit [DecidableEq κ] in
theorem sum_congr {t : Rows key} {f g : α → ℤ} (h : ∀ a ∈ t.list, f a = g a) : t.sum f = t.sum g := by
  unfold sum
  rw [List.map_congr_left h]

private theorem sum_map_save {l : List α} (hl : (l.map key).Nodup) {a b : α} (hb : b ∈ l) (hk : key b = key a)
    (f : α → ℤ) : ((l.map fun c => if key c = key a then a else c).map f).sum = (l.map f).sum - f b + f a := by
  induction l with
  | nil => cases hb
  | cons c l ih =>
    rw [List.map_cons, List.nodup_cons] at hl
    rcases List.mem_cons.mp hb with rfl | hb
    · have hkeep : (l.map fun c => if key c = key a then a else c) = l := by
        refine (List.map_congr_left fun d hd => ?_).trans (List.map_id l)
        refine if_neg fun hd' => hl.1 ?_
        rw [hk, ← hd']
        exact List.mem_map_of_mem hd
      simp only [List.map_cons, hkeep, hk, if_true, List.sum_cons]
      omega
    · have hne : key c ≠ key a := by
        intro h
        apply hl.1
        rw [h, ← hk]
        exact List.mem_map_of_mem hb
      simp only [List.map_cons, if_neg hne, List.sum_cons, ih hl.2 hb]
      omega

/-- A saved row changes the sum by the difference of its two values. -/
theorem sum_save {t : Rows key} {a b : α} (h : t.find (key a) = some b) (f : α → ℤ) :
    (t.save a).sum f = t.sum f - f b + f a := by
  obtain ⟨hb, hk⟩ := find_eq_some.mp h
  exact sum_map_save t.nodup hb hk f

omit [DecidableEq κ] in
theorem sum_nonneg {t : Rows key} {f : α → ℤ} (h : ∀ a ∈ t.list, 0 ≤ f a) : 0 ≤ t.sum f := by
  apply List.sum_nonneg
  intro x hx
  obtain ⟨a, ha, rfl⟩ := List.mem_map.mp hx
  exact h a ha

end Rows
end FireDash
