import FireDash.Lib.Machine
import Mathlib.Data.List.Basic
import Mathlib.Data.List.Nodup
import Mathlib.Data.List.Perm.Basic
import Mathlib.Data.Nat.Notation

/-! Snapshots of rows under keys, compared before the rows are used: when two snapshots agree, no row
that is found by its key was written in between. -/
namespace FireDash.Snapshots

/-! ### Dictionaries over rows -/

section

variable {ρ κ φ : Type}

/-- No two rows stand under one key. -/
def Injective (key : ρ → κ) (rows : List ρ) : Prop := ∀ a ∈ rows, ∀ b ∈ rows, key a = key b → a = b

theorem Injective.perm {key : ρ → κ} {rows rows' : List ρ} (hinj : Injective key rows) (h : rows.Perm rows') : Injective key rows' :=
  fun a ha b hb => hinj a (h.mem_iff.mpr ha) b (h.mem_iff.mpr hb)

/-- The items of a dictionary in the order they are written, later ones replacing earlier ones. -/
def snapshot (key : ρ → κ) (print : ρ → φ) (rows : List ρ) : List (κ × φ) := rows.map fun r => (key r, print r)

variable [DecidableEq κ]

/-- The row a dictionary over `rows` holds under a key: the last one of the key. -/
def last (key : ρ → κ) (rows : List ρ) (k : κ) : Option ρ := (rows.filter (key · = k)).getLast?

def get (d : List (κ × φ)) (k : κ) : Option φ := (last Prod.fst d k).map Prod.snd

variable {key : ρ → κ} {print : ρ → φ} {rows rows' : List ρ} {k : κ} {r : ρ}

theorem last_eq_some (h : last key rows k = some r) : r ∈ rows ∧ key r = k := by
  have hmem := List.mem_filter.mp (List.mem_of_getLast? h)
  exact ⟨hmem.1, of_decide_eq_true hmem.2⟩

theorem last_eq_none_iff : last key rows k = none ↔ ∀ r ∈ rows, key r ≠ k := by
  rw [last, List.getLast?_eq_none_iff, List.filter_eq_nil_iff]
  simp only [decide_eq_true_eq, ne_eq]

theorem last_of_mem (hinj : Injective key rows) (hr : r ∈ rows) : last key rows (key r) = some r := by
  cases h : last key rows (key r) with
  | none => exact absurd rfl (last_eq_none_iff.mp h r hr)
  | some s =>
    obtain ⟨hs, hkey⟩ := last_eq_some h
    rw [hinj s hs r hr hkey]

/-- The order of the rows does not matter under distinct keys. -/
theorem last_perm (hinj : Injective key rows) (h : rows.Perm rows') : last key rows k = last key rows' k := by
  cases hk : last key rows k with
  | none => exact (last_eq_none_iff.mpr fun r hr => last_eq_none_iff.mp hk r (h.mem_iff.mpr hr)).symm
  | some r =>
    obtain ⟨hr, rfl⟩ := last_eq_some hk
    exact (last_of_mem (hinj.perm h) (h.mem_iff.mp hr)).symm

theorem get_snapshot : get (snapshot key print rows) k = (last key rows k).map print := by
  unfold get last snapshot
  rw [List.filter_map, List.getLast?_map, Option.map_map]
  rfl

theorem get_eq_none {d : List (κ × φ)} (h : ∀ item ∈ d, item.1 ≠ k) : get d k = none := by
  rw [get, last_eq_none_iff.mpr h]
  rfl

variable [DecidableEq φ]

/-- `d == e` -/
def agree (d e : List (κ × φ)) : Bool := (d ++ e).all fun item => get d item.1 = get e item.1

theorem agree_iff {d e : List (κ × φ)} : agree d e = true ↔ ∀ k, get d k = get e k := by
  rw [agree, List.all_eq_true]
  constructor
  · intro hall k
    by_cases hmem : ∃ item ∈ d ++ e, item.1 = k
    · obtain ⟨item, hitem, rfl⟩ := hmem
      exact of_decide_eq_true (hall item hitem)
    · have hnone : ∀ item ∈ d ++ e, item.1 ≠ k := fun item hitem hk => hmem ⟨item, hitem, hk⟩
      rw [get_eq_none fun item hitem => hnone item (List.mem_append_left _ hitem),
        get_eq_none fun item hitem => hnone item (List.mem_append_right _ hitem)]
  · exact fun hall item _ => decide_eq_true (hall item.1)

/-- Rows of agreeing snapshots stand under the same keys. -/
theorem exists_key (h : agree (snapshot key print rows) (snapshot key print rows') = true) (hr : r ∈ rows) :
    ∃ s ∈ rows', key s = key r := by
  by_contra hnone
  push Not at hnone
  have hget := agree_iff.mp h (key r)
  rw [get_snapshot, get_snapshot, last_eq_none_iff.mpr hnone, Option.map_none, Option.map_eq_none_iff] at hget
  exact last_eq_none_iff.mp hget r hr rfl

end

/-! ### Stamped edits -/

section

variable {ρ ι : Type} [DecidableEq ι]

/-- One write of any number of rows, such as a single save or an import. -/
inductive Edit (ρ ι : Type) where
  | create (rs : List ρ)
  | save (rs : List ρ)
  | delete (is : List ι)

/-- The identifiers of the rows that are written. -/
def Edit.targets (id : ρ → ι) : Edit ρ ι → List ι
  | .create rs => rs.map id
  | .save rs => rs.map id
  | .delete is => is

/-- A saved row takes the place of the one with its identifier. -/
def Edit.apply (id : ρ → ι) (rows : List ρ) : Edit ρ ι → List ρ
  | .create rs => rows ++ rs
  | .save rs => rows.map fun x => (last id rs (id x)).getD x
  | .delete is => rows.filter (id · ∉ is)

/-- Written rows are stamped after a moment; the rows of one edit may share a stamp, and created rows are new. -/
def Edit.Stamped (id : ρ → ι) (stamp : ρ → ℕ) (rows : List ρ) (moment : ℕ) : Edit ρ ι → Prop
  | .create rs => ∀ r ∈ rs, moment < stamp r ∧ ∀ x ∈ rows, id x ≠ id r
  | .save rs => ∀ r ∈ rs, moment < stamp r
  | .delete _ => True

/-- Stored rows, and the moment they are read first. -/
structure Stored (ρ : Type) where
  rows : List ρ
  clock : ℕ

/-- Edits of stored rows after the moment they are read first, that leave rows of a kind the store accepts. Nothing is asked
of their stamps beside that. -/
def editing (id : ρ → ι) (stamp : ρ → ℕ) (Accepted : List ρ → Prop) : Machine (Stored ρ) (Edit ρ ι) where
  init s := Accepted s.rows ∧ ∀ r ∈ s.rows, stamp r ≤ s.clock
  step s e t := t.clock = s.clock ∧ e.Stamped id stamp s.rows s.clock ∧ t.rows = e.apply id s.rows ∧ Accepted t.rows

variable {id : ρ → ι} {stamp : ρ → ℕ} {Accepted : List ρ → Prop} {rows : List ρ} {r : ρ} {moment : ℕ} {e : Edit ρ ι}

/-- After an edit a row is one that was written, or an earlier one that was no target. -/
theorem mem_apply (he : e.Stamped id stamp rows moment) (hr : r ∈ e.apply id rows) :
    moment < stamp r ∨ r ∈ rows ∧ id r ∉ e.targets id := by
  cases e with
  | create rs =>
    rcases List.mem_append.mp hr with hr | hr
    · refine .inr ⟨hr, fun htarget => ?_⟩
      obtain ⟨x, hx, hid⟩ := List.mem_map.mp htarget
      exact (he x hx).2 r hr hid.symm
    · exact .inl (he r hr).1
  | save rs =>
    obtain ⟨y, hy, heq⟩ := List.mem_map.mp hr
    cases hlast : last id rs (id y) with
    | none =>
      rw [hlast, Option.getD_none] at heq
      rw [← heq]
      refine .inr ⟨hy, fun htarget => ?_⟩
      obtain ⟨x, hx, hid⟩ := List.mem_map.mp htarget
      exact last_eq_none_iff.mp hlast x hx hid
    | some x =>
      rw [hlast, Option.getD_some] at heq
      rw [← heq]
      exact .inl (he x (last_eq_some hlast).1)
  | delete is =>
    obtain ⟨hmem, hkept⟩ := List.mem_filter.mp hr
    exact .inr ⟨hmem, of_decide_eq_true hkept⟩

theorem Run.accepted {s t : Stored ρ} {trace : List (Stored ρ × Edit ρ ι × Stored ρ)}
    (h : (editing id stamp Accepted).Run s trace t) : Accepted s.rows ∧ Accepted t.rows ∧ (∀ r ∈ s.rows, stamp r ≤ s.clock) ∧
      t.clock = s.clock := by
  induction h with
  | start h => exact ⟨h.1, h.1, h.2, rfl⟩
  | next h hs ih =>
    obtain ⟨hclock, -, -, haccepted⟩ := hs
    exact ⟨ih.1, haccepted, ih.2.2.1, hclock.trans ih.2.2.2⟩

/-- A row with an early stamp was there from the start, and no edit was about it. -/
theorem untouched_of_stamp_le {s t : Stored ρ} {trace : List (Stored ρ × Edit ρ ι × Stored ρ)}
    (h : (editing id stamp Accepted).Run s trace t) (hr : r ∈ t.rows) (hstamp : stamp r ≤ s.clock) :
    r ∈ s.rows ∧ ∀ step ∈ trace, id r ∉ step.2.1.targets id := by
  induction h with
  | start h => exact ⟨hr, fun _ hstep => absurd hstep List.not_mem_nil⟩
  | @next t t' trace e h hs ih =>
    obtain ⟨-, hstamped, hrows, -⟩ := hs
    have hclock := (Run.accepted h).2.2.2
    rw [hrows] at hr
    rcases mem_apply hstamped hr with hlater | ⟨hmem, hother⟩
    · omega
    · obtain ⟨hold, huntouched⟩ := ih hmem
      refine ⟨hold, fun step hstep => ?_⟩
      rcases List.mem_append.mp hstep with hstep | hstep
      · exact huntouched step hstep
      · rw [List.mem_singleton.mp hstep]
        exact hother

variable {κ φ : Type} [DecidableEq κ] [DecidableEq φ] {key : ρ → κ} {print : ρ → φ} {before after found : List ρ} {k : κ}
  {p : ρ → Bool}

/-- The rows found by their keys after a run are those found before it, untouched by every edit, as soon as the two
snapshots agree; each list holds the selected rows in an order of its own. -/
theorem untouched_of_agree {s t : Stored ρ} {trace : List (Stored ρ × Edit ρ ι × Stored ρ)}
    (h : (editing id stamp Accepted).Run s trace t) (hbefore : before.Perm (s.rows.filter p)) (hafter : after.Perm (t.rows.filter p))
    (hfound : found.Perm (t.rows.filter p)) (hinj : Injective key before) (hinj' : Injective key after)
    (hprint : ∀ a ∈ before, ∀ b ∈ after, print a = print b → stamp a = stamp b)
    (hagree : agree (snapshot key print before) (snapshot key print after) = true) :
    last key found k = last key before k ∧
      ∀ r, last key before k = some r → ∀ step ∈ trace, id r ∉ step.2.1.targets id := by
  have horder : last key found k = last key after k := by
    have hperm : after.Perm found := hafter.trans hfound.symm
    exact (last_perm hinj' hperm).symm
  have hget := agree_iff.mp hagree k
  rw [get_snapshot, get_snapshot] at hget
  rw [horder]
  cases hk : last key before k with
  | none =>
    rw [hk, Option.map_none] at hget
    exact ⟨Option.map_eq_none_iff.mp hget.symm, nofun⟩
  | some a =>
    rw [hk, Option.map_some] at hget
    obtain ⟨b, hb, hprints⟩ := Option.map_eq_some_iff.mp hget.symm
    obtain ⟨ha, hak⟩ := last_eq_some hk
    obtain ⟨hb', hbk⟩ := last_eq_some hb
    have hstamp : stamp a = stamp b := hprint a ha b hb' hprints.symm
    have hbt := List.mem_filter.mp (hafter.mem_iff.mp hb')
    have has := List.mem_filter.mp (hbefore.mem_iff.mp ha)
    have hold : stamp b ≤ s.clock := by
      rw [← hstamp]
      exact (Run.accepted h).2.2.1 a has.1
    obtain ⟨hbs, huntouched⟩ := untouched_of_stamp_le h hbt.1 hold
    have hbbefore : b ∈ before := hbefore.mem_iff.mpr (List.mem_filter.mpr ⟨hbs, hbt.2⟩)
    obtain rfl : b = a := hinj b hbbefore a ha (hbk.trans hak.symm)
    refine ⟨hb, fun r hr => ?_⟩
    obtain rfl := Option.some.inj hr
    exact huntouched

end

end FireDash.Snapshots
