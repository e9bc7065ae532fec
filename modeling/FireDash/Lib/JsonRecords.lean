import FireDash.Lib.JsonAccess

/-! Objects written with their members in one order: when two of them are the same, and when they are `==`. -/
namespace FireDash.Json

section

variable {s t : Text} {l m : List Value} {f g : List (Text × Value)} {v w : Value}

@[simp] theorem same_list_iff : Same (.list l) (.list m) ↔ SameItems l m := by
  constructor
  · intro h
    cases h with
    | list h => exact h
  · exact .list

@[simp] theorem sameItems_nil_iff : SameItems [] m ↔ m = [] := by
  constructor
  · intro h
    cases h
    rfl
  · rintro rfl
    exact .nil

@[simp] theorem sameItems_cons_iff : SameItems (v :: l) (w :: m) ↔ Same v w ∧ SameItems l m := by
  constructor
  · intro h
    cases h with
    | cons h hs => exact ⟨h, hs⟩
  · rintro ⟨h, hs⟩
    exact .cons h hs

theorem sameItems_iff_forall₂ : SameItems l m ↔ List.Forall₂ Same l m := by
  induction l generalizing m with
  | nil => rw [sameItems_nil_iff, List.forall₂_nil_left_iff]
  | cons v l ih =>
    cases m with
    | nil =>
      constructor
      · intro h
        cases h
      · intro h
        cases h
    | cons w m => rw [sameItems_cons_iff, List.forall₂_cons, ih]

/-- An object has the keys of whatever it is the same as. -/
theorem Same.mem_keys (h : Same (.dict f) (.dict g)) {key : Text} (hkey : key ∈ f.map Prod.fst) : key ∈ g.map Prod.fst := by
  obtain ⟨a, ha, rfl⟩ := List.mem_map.mp hkey
  obtain ⟨w, hw, -⟩ := h.member ha
  exact List.mem_map.mpr ⟨_, hw, rfl⟩

end

/-! ### Objects with their keys in one order -/

/-- Two objects with the same keys, in one order. -/
structure Aligned (f g : List (Text × Value)) : Prop where
  keys : f.map Prod.fst = g.map Prod.fst
  nodup : (f.map Prod.fst).Nodup

namespace Aligned

variable {f g : List (Text × Value)} {key : Text} {v w : Value}

theorem symm (h : Aligned f g) : Aligned g f := ⟨h.keys.symm, h.keys ▸ h.nodup⟩

theorem field_left (h : Aligned f g) (hv : (key, v) ∈ f) : field f key = some v := Schema.field_of_mem h.nodup hv

theorem field_right (h : Aligned f g) (hw : (key, w) ∈ g) : field g key = some w := h.symm.field_left hw

/-- A member of one object has its counterpart in the other. -/
theorem counterpart (h : Aligned f g) (hv : (key, v) ∈ f) : ∃ w, (key, w) ∈ g := by
  have hkey : key ∈ g.map Prod.fst := h.keys ▸ List.mem_map.mpr ⟨(key, v), hv, rfl⟩
  obtain ⟨b, hb, rfl⟩ := List.mem_map.mp hkey
  exact ⟨b.2, hb⟩

/-- The members are equal when each is equal to its counterpart. -/
theorem ext (h : Aligned f g) (hmembers : ∀ key v w, (key, v) ∈ f → (key, w) ∈ g → v = w) : f = g := by
  obtain ⟨hkeys, hnodup⟩ := h
  refine List.ext_getElem ?_ fun i hi hi' => ?_
  · have hlength := congrArg List.length hkeys
    rwa [List.length_map, List.length_map] at hlength
  · have hkey : f[i].1 = g[i].1 := by
      have hmap : (f.map Prod.fst)[i]? = (g.map Prod.fst)[i]? := by rw [hkeys]
      rw [List.getElem?_map, List.getElem?_map, List.getElem?_eq_getElem hi, List.getElem?_eq_getElem hi'] at hmap
      exact Option.some.inj hmap
    have hvalue : f[i].2 = g[i].2 := by
      refine hmembers f[i].1 f[i].2 g[i].2 (List.getElem_mem hi) ?_
      rw [hkey]
      exact List.getElem_mem hi'
    exact Prod.ext hkey hvalue

/-- What holds of every member and its counterpart holds place by place. -/
theorem forall_iff (h : Aligned f g) {Q : Text → Value → Value → Prop} :
    (∀ key v w, (key, v) ∈ f → (key, w) ∈ g → Q key v w) ↔ List.Forall₂ (fun a b => Q a.1 a.2 b.2) f g := by
  obtain ⟨hkeys, hnodup⟩ := h
  induction f generalizing g with
  | nil =>
    rw [List.map_nil, eq_comm, List.map_eq_nil_iff] at hkeys
    subst hkeys
    exact ⟨fun _ => .nil, fun _ key v w hv _ => by cases hv⟩
  | cons a f ih =>
    cases g with
    | nil => cases hkeys
    | cons b g =>
      rw [List.map_cons, List.map_cons, List.cons.injEq] at hkeys
      rw [List.map_cons, List.nodup_cons] at hnodup
      have hab := hkeys.1
      have hnew : ∀ w, (a.1, w) ∉ g := fun w hw => hnodup.1 (hkeys.2 ▸ List.mem_map.mpr ⟨_, hw, rfl⟩)
      have hnew' : ∀ v, (b.1, v) ∉ f := fun v hv => hnodup.1 (hab ▸ List.mem_map.mpr ⟨_, hv, rfl⟩)
      rw [List.forall₂_cons, ← ih hkeys.2 hnodup.2]
      constructor
      · intro hall
        refine ⟨hall a.1 a.2 b.2 List.mem_cons_self (hab ▸ List.mem_cons_self), fun key v w hv hw => ?_⟩
        exact hall key v w (List.mem_cons_of_mem _ hv) (List.mem_cons_of_mem _ hw)
      · rintro ⟨hfirst, hrest⟩ key v w hv hw
        rcases List.mem_cons.mp hv with rfl | hv
        · rcases List.mem_cons.mp hw with rfl | hw
          · exact hfirst
          · exact absurd hw (hnew w)
        · rcases List.mem_cons.mp hw with rfl | hw
          · exact absurd hv (hnew' v)
          · exact hrest key v w hv hw

end Aligned

/-! ### Python's `==` -/

mutual
/-- `v == w`. -/
def eq : Value → Value → Bool
  | .list l, .list m => eqItems l m
  | .dict f, .dict g => f.length = g.length && eqMembers f g
  | v, w =>
    match hashed v, hashed w with
    | .ok k, .ok k' => k = k' && k ≠ .real .nan
    | _, _ => false

def eqItems : List Value → List Value → Bool
  | [], [] => true
  | v :: l, w :: m => eq v w && eqItems l m
  | _, _ => false

def eqMembers : List (Text × Value) → List (Text × Value) → Bool
  | [], _ => true
  | (key, v) :: rest, g =>
    (match field g key with
      | some w => eq v w
      | none => false) && eqMembers rest g
end

section

variable {s t : Text} {b c : Bool} {l : List Value} {f g : List (Text × Value)} {v w : Value}

@[simp] theorem eq_null_iff : eq .null w = true ↔ w = .null := by
  cases w with
  | float x => cases x <;> simp [eq, hashed]; split_ifs <;> simp
  | _ => simp [eq, hashed]

@[simp] theorem eq_str_iff : eq (.str s) w = true ↔ w = .str s := by
  cases w with
  | float x => cases x <;> simp [eq, hashed]; split_ifs <;> simp
  | str t =>
    simp only [eq, hashed]
    grind
  | _ => simp [eq, hashed]

@[simp] theorem eq_bool_bool : eq (.bool b) (.bool c) = true ↔ b = c := by
  cases b <;> cases c <;> decide

theorem eqMembers_iff : eqMembers f g = true ↔ ∀ a ∈ f, ∃ w, field g a.1 = some w ∧ eq a.2 w = true := by
  induction f with
  | nil => simp [eqMembers]
  | cons a f ih =>
    obtain ⟨key, v⟩ := a
    rw [eqMembers, Bool.and_eq_true, ih, List.forall_mem_cons]
    refine and_congr_left' ?_
    cases field g key with
    | none => simp
    | some w => simp

/-- Objects with the same keys are `==` when their members are. -/
theorem Aligned.eq_dict_iff (h : Aligned f g) :
    eq (.dict f) (.dict g) = true ↔ ∀ key v w, (key, v) ∈ f → (key, w) ∈ g → eq v w = true := by
  have hlength : f.length = g.length := by
    have hmap := congrArg List.length h.keys
    rwa [List.length_map, List.length_map] at hmap
  rw [eq, Bool.and_eq_true, decide_eq_true_eq, eqMembers_iff]
  constructor
  · rintro ⟨-, hall⟩ key v w hv hw
    obtain ⟨w', hw', heq⟩ := hall _ hv
    rw [h.field_right hw] at hw'
    cases hw'
    exact heq
  · refine fun hall => ⟨hlength, fun a ha => ?_⟩
    obtain ⟨w, hw⟩ := h.counterpart ha
    exact ⟨w, h.field_right hw, hall _ _ _ ha hw⟩

theorem hashed_float (x : Double) : ∃ k, hashed (.float x) = .ok k ∧ (x ≠ .nan → k ≠ .real .nan) := by
  cases x with
  | finite m e =>
    simp only [hashed]
    by_cases hfraction : e < 0 ∧ m % 2 ^ (-e).toNat ≠ 0
    · rw [if_pos hfraction]
      exact ⟨_, rfl, by simp⟩
    · rw [if_neg hfraction]
      exact ⟨_, rfl, by simp⟩
  | nan => exact ⟨_, rfl, fun h => absurd rfl h⟩
  | infinity negative => exact ⟨_, rfl, by simp⟩

/-- Without a NaN in it, a value is `==` to itself. -/
theorem eq_self {T : Text → Prop} {P : Double → Prop} (hP : ∀ x, P x → x ≠ .nan) (h : v.Proper T P) : eq v v = true := by
  induction v using Value.induction with
  | null => decide
  | bool b => exact eq_bool_bool.mpr rfl
  | int n => simp [eq, hashed]
  | float x =>
    obtain ⟨k, hk, hnan⟩ := hashed_float x
    have hne := hnan (hP x (proper_float.mp h))
    simp only [eq, hk, Bool.and_eq_true, decide_eq_true_eq]
    exact ⟨trivial, hne⟩
  | str s => exact eq_str_iff.mpr rfl
  | list items ih =>
    rw [eq]
    have hitems := proper_list.mp h
    clear h
    induction items with
    | nil => rfl
    | cons w items ihitems =>
      rw [eqItems, Bool.and_eq_true]
      exact ⟨ih w List.mem_cons_self (hitems w List.mem_cons_self),
        ihitems (fun u hu => ih u (List.mem_cons_of_mem _ hu)) fun u hu => hitems u (List.mem_cons_of_mem _ hu)⟩
  | dict fields ih =>
    obtain ⟨hnodup, hfields⟩ := proper_dict.mp h
    rw [eq, Bool.and_eq_true, eqMembers_iff]
    exact ⟨by simp, fun a ha => ⟨a.2, Schema.field_of_mem hnodup ha, ih a ha (hfields a ha).2⟩⟩

end

/-! ### Records -/

/-- Neither an array nor an object. -/
def Value.Scalar : Value → Prop
  | .list _ | .dict _ => False
  | _ => True

/-- Values that are the same only when they are equal, with texts and floating-point numbers that
can be written. -/
structure Regular (P : Double → Prop) (S : Schema) : Prop where
  fixed : ∀ {v w}, S v → S w → Same v w → v = w
  proper : ∀ {v}, S v → v.Proper ScalarText P

/-- The columns in their order, each with a value of its schema. -/
def Record (columns : List (String × Schema)) (fields : List (Text × Value)) : Prop :=
  List.Forall₂ (fun c f => f.1 = text c.1 ∧ c.2 f.2) columns fields

def Schema.object (columns : List (String × Schema)) : Schema := fun v => ∃ fields, v = .dict fields ∧ Record columns fields

def Schema.nullable (S : Schema) : Schema := fun v => v = .null ∨ S v

section

variable {P : Double → Prop} {S T : Schema} {columns : List (String × Schema)} {f g : List (Text × Value)}
  {l m : List Value} {v w : Value}

namespace Record

theorem keys (hf : Record columns f) : f.map Prod.fst = (columns.map Prod.fst).map text := by
  induction hf with
  | nil => rfl
  | cons h hrest ih => rw [List.map_cons, List.map_cons, List.map_cons, ih, h.1]

theorem nodup (hcolumns : (columns.map Prod.fst).Nodup) (hf : Record columns f) : (f.map Prod.fst).Nodup := by
  rw [hf.keys]
  exact hcolumns.map fun a b h => text_injective h

theorem aligned (hcolumns : (columns.map Prod.fst).Nodup) (hf : Record columns f) (hg : Record columns g) : Aligned f g :=
  ⟨hf.keys.trans hg.keys.symm, hf.nodup hcolumns⟩

/-- A member is one of a column. -/
theorem member (hf : Record columns f) {key : Text} (hv : (key, v) ∈ f) : ∃ c ∈ columns, key = text c.1 ∧ c.2 v :=
  exists_left_of_forall₂ hf hv

/-- A column has a member. -/
theorem column (hf : Record columns f) {c : String × Schema} (hc : c ∈ columns) : ∃ v, (text c.1, v) ∈ f ∧ c.2 v := by
  obtain ⟨a, ha, hkey, hS⟩ := exists_right_of_forall₂ hf hc
  exact ⟨a.2, by rw [← hkey]; exact ha, hS⟩

end Record

namespace Regular

theorem scalar (h : ∀ v, S v → v.Scalar ∧ v.Proper ScalarText P) : Regular P S := by
  refine ⟨fun {v w} hv _ hsame => ?_, fun hv => (h _ hv).2⟩
  have hscalar := (h v hv).1
  cases hsame with
  | list h => exact absurd hscalar id
  | dict hf h hg => exact absurd hscalar id
  | _ => rfl

theorem str {T : Text → Prop} (hT : ∀ s, T s → ScalarText s) : Regular P (Schema.str T) := by
  refine scalar ?_
  rintro v ⟨s, rfl, hs⟩
  exact ⟨trivial, proper_str.mpr (hT s hs)⟩

theorem nullable (h : Regular P S) : Regular P (Schema.nullable S) := by
  refine ⟨fun {v w} hv hw hsame => ?_, fun {v} hv => ?_⟩
  · rcases hv with rfl | hv
    · cases hsame
      rfl
    · rcases hw with rfl | hw
      · cases hsame
        rfl
      · exact h.fixed hv hw hsame
  · rcases hv with rfl | hv
    · exact proper_null
    · exact h.proper hv

theorem items (h : Regular P S) (hl : ∀ v ∈ l, S v) (hm : ∀ w ∈ m, S w) (hsame : SameItems l m) : l = m := by
  rw [sameItems_iff_forall₂] at hsame
  induction hsame with
  | nil => rfl
  | cons hvw hrest ih =>
    rw [List.forall_mem_cons] at hl hm
    rw [h.fixed hl.1 hm.1 hvw, ih hl.2 hm.2]

theorem list {L : ℕ → Prop} (h : Regular P S) : Regular P (Schema.list L S) := by
  constructor
  · rintro v w ⟨l, rfl, -, hl⟩ ⟨m, rfl, -, hm⟩ hsame
    rw [h.items hl hm (same_list_iff.mp hsame)]
  · rintro v ⟨l, rfl, -, hl⟩
    exact proper_list.mpr fun w hw => h.proper (hl w hw)

/-- Objects whose columns are regular are regular. -/
theorem object (hcolumns : (columns.map Prod.fst).Nodup) (h : ∀ c ∈ columns, Regular P c.2) :
    Regular P (Schema.object columns) := by
  constructor
  · rintro v w ⟨f, rfl, hf⟩ ⟨g, rfl, hg⟩ hsame
    have haligned := Record.aligned hcolumns hf hg
    have hfg : f = g := by
      refine haligned.ext fun key v w hv hw => ?_
      obtain ⟨w', hw', hvw⟩ := hsame.member hv
      have hfield := haligned.field_right hw'
      rw [haligned.field_right hw] at hfield
      cases hfield
      obtain ⟨c, hc, hkey, hcv⟩ := hf.member hv
      obtain ⟨w', hw', hcw⟩ := hg.column hc
      have hsecond := haligned.field_right (hkey ▸ hw')
      rw [haligned.field_right hw] at hsecond
      cases hsecond
      exact (h c hc).fixed hcv hcw hvw
    rw [hfg]
  · rintro v ⟨f, rfl, hf⟩
    refine proper_dict.mpr ⟨hf.nodup hcolumns, fun a ha => ?_⟩
    obtain ⟨c, hc, hname, hcv⟩ := hf.member ha
    exact ⟨hname ▸ Schema.scalarText_text c.1, (h c hc).proper hcv⟩

end Regular

end

end FireDash.Json
