import FireDash.Lib.JsonInjective

/-! Schemas: texts, lists and records of JSON values, and what every value of one is like. -/
namespace FireDash.Json

/-! ### What cannot be written -/

/-- What `json.dumps` without the constants raises within some levels of nesting. -/
def writeError (limits : Limits) : ℕ → Value → Option Error
  | _, .int n => if limits.digits < (text (Nat.repr n.natAbs)).length then some .digits else none
  | _, .float (.finite _ _) => none
  | _, .float .nan => some (.constant .nan)
  | _, .float (.infinity negative) => some (.constant (if negative then .negativeInfinity else .infinity))
  | 0, .list _ | 0, .dict _ => some .recursion
  | depth + 1, .list items => items.findSome? (writeError limits depth)
  | depth + 1, .dict fields => fields.findSome? fun f => writeError limits depth f.2
  | _, _ => none

section

variable {limits : Limits} {v : Value}

theorem writeError_mono {m n : ℕ} (hle : m ≤ n) (h : writeError limits m v = none) : writeError limits n v = none := by
  induction m generalizing n v with
  | zero =>
    cases v with
    | list items => cases h
    | dict fields => cases h
    | float x => cases x <;> cases n <;> exact h
    | _ => cases n <;> exact h
  | succ m ih =>
    obtain ⟨n, rfl⟩ : ∃ k, n = k + 1 := ⟨n - 1, by omega⟩
    have hle' : m ≤ n := by omega
    cases v with
    | list items =>
      rw [writeError, List.findSome?_eq_none_iff] at h ⊢
      exact fun w hw => ih hle' (h w hw)
    | dict fields =>
      rw [writeError, List.findSome?_eq_none_iff] at h ⊢
      exact fun f hf => ih hle' (h f hf)
    | float x => cases x <;> exact h
    | _ => exact h

end

/-! ### Schemas -/

/-- The value of a member. -/
def field (fields : List (Text × Value)) (name : Text) : Option Value := (fields.find? fun f => f.1 = name).map Prod.snd

abbrev Schema := Value → Prop

namespace Schema

/-- A text with a property. -/
def str (T : Text → Prop) : Schema := fun v => ∃ s, v = .str s ∧ T s

/-- Items of one schema, of a number with a property. -/
def list (L : ℕ → Prop) (S : Schema) : Schema := fun v => ∃ items, v = .list items ∧ L items.length ∧ ∀ item ∈ items, S item

/-- An object with the required members, and beyond them optional ones only. -/
def record (required optional : List (String × Schema)) : Schema := fun v => ∃ fields, v = .dict fields ∧
  (∀ key ∈ fields.map Prod.fst, ∃ m ∈ required ++ optional, key = text m.1) ∧
  (∀ m ∈ required, ∃ w, field fields (text m.1) = some w ∧ m.2 w) ∧
  ∀ m ∈ optional, ∀ w, field fields (text m.1) = some w → m.2 w

section

variable {required optional : List (String × Schema)} {fields : List (Text × Value)}

theorem field_of_mem (hnodup : (fields.map Prod.fst).Nodup) {f : Text × Value} (hf : f ∈ fields) :
    field fields f.1 = some f.2 := by
  unfold field
  cases hfind : fields.find? fun g => g.1 = f.1 with
  | none =>
    have hno := List.find?_eq_none.mp hfind f hf
    simp at hno
  | some g =>
    have hkey := List.find?_some hfind
    simp only [decide_eq_true_eq] at hkey
    have hsame : g = f := List.inj_on_of_nodup_map hnodup (List.mem_of_find?_eq_some hfind) hf hkey
    rw [hsame, Option.map_some]

/-- Every member of a record is one the schema names. -/
theorem record_member (h : record required optional (.dict fields)) (hnodup : (fields.map Prod.fst).Nodup)
    {f : Text × Value} (hf : f ∈ fields) : ∃ m ∈ required ++ optional, f.1 = text m.1 ∧ m.2 f.2 := by
  obtain ⟨fields', hfields, hkeys, hrequired, hoptional⟩ := h
  cases hfields
  have hfield := field_of_mem hnodup hf
  obtain ⟨m, hm, hname⟩ := hkeys f.1 (List.mem_map_of_mem hf)
  rw [hname] at hfield
  refine ⟨m, hm, hname, ?_⟩
  rcases List.mem_append.mp hm with hm | hm
  · obtain ⟨w, hw, hS⟩ := hrequired m hm
    rw [hfield] at hw
    cases hw
    exact hS
  · exact hoptional m hm f.2 hfield

end

theorem scalarText_text (s : String) : ScalarText (text s) := by
  intro c hc
  obtain ⟨d, -, rfl⟩ := List.mem_map.mp hc
  rcases d.valid with hlow | ⟨hhigh, hmax⟩
  · exact .inl hlow
  · exact .inr ⟨hhigh, hmax⟩

/-- Values of the schema have texts of one kind and no floating-point numbers, and can be written
within some levels of nesting. -/
def Tame (T : Text → Prop) (limits : Limits) (depth : ℕ) (S : Schema) : Prop :=
  ∀ v, v.Distinct → S v → v.Proper T (fun _ => False) ∧ writeError limits depth v = none

section

variable {T : Text → Prop} {limits : Limits} {depth : ℕ} {S : Schema}

theorem Tame.mono {depth' : ℕ} (h : Tame T limits depth S) (hle : depth ≤ depth') : Tame T limits depth' S := fun v hv hS =>
  ⟨(h v hv hS).1, writeError_mono hle (h v hv hS).2⟩

theorem Tame.imp {S' : Schema} (h : Tame T limits depth S) (hS : ∀ v, S' v → S v) : Tame T limits depth S' :=
  fun v hv hv' => h v hv (hS v hv')

theorem tame_str {T' : Text → Prop} (hT : ∀ s, T' s → T s) : Tame T limits depth (str T') := by
  rintro v - ⟨s, rfl, hs⟩
  exact ⟨proper_str.mpr (hT s hs), by cases depth <;> rfl⟩

theorem tame_bool : Tame T limits depth fun v => ∃ b, v = .bool b := by
  rintro v - ⟨b, rfl⟩
  exact ⟨proper_bool, by cases depth <;> rfl⟩

theorem tame_int {N : ℤ → Prop} {k : ℕ} (hk : 0 < k) (hlimit : k ≤ limits.digits) (hN : ∀ n, N n → n.natAbs < 10 ^ k) :
    Tame T limits depth fun v => ∃ n, v = .int n ∧ N n := by
  rintro v - ⟨n, rfl, hn⟩
  refine ⟨proper_int, ?_⟩
  have hlength : (text (Nat.repr n.natAbs)).length ≤ k := by
    rw [text, List.length_map, String.length_toList]
    exact (Nat.length_repr_le_iff hk).mpr (hN n hn)
  have hwrite : writeError limits depth (.int n) =
      if limits.digits < (text (Nat.repr n.natAbs)).length then some .digits else none := by cases depth <;> rfl
  rw [hwrite, if_neg (by omega)]

theorem tame_list {L : ℕ → Prop} (h : Tame T limits depth S) : Tame T limits (depth + 1) (list L S) := by
  rintro v hv ⟨items, rfl, -, hitems⟩
  have hdistinct := proper_list.mp hv
  refine ⟨proper_list.mpr fun w hw => (h w (hdistinct w hw) (hitems w hw)).1, ?_⟩
  rw [writeError, List.findSome?_eq_none_iff]
  exact fun w hw => (h w (hdistinct w hw) (hitems w hw)).2

theorem tame_record (hT : ∀ name, T (text name)) {required optional : List (String × Schema)} (h : ∀ m ∈ required ++ optional, Tame T limits depth m.2) :
    Tame T limits (depth + 1) (record required optional) := by
  intro v hv hrecord
  obtain ⟨fields, rfl, -⟩ := id hrecord
  obtain ⟨hnodup, hfields⟩ := proper_dict.mp hv
  have hmember : ∀ f ∈ fields, T f.1 ∧ f.2.Proper T (fun _ => False) ∧ writeError limits depth f.2 = none := by
    intro f hf
    obtain ⟨m, hm, hname, hS⟩ := record_member hrecord hnodup hf
    exact ⟨hname ▸ hT m.1, h m hm f.2 (hfields f hf).2 hS⟩
  refine ⟨proper_dict.mpr ⟨hnodup, fun f hf => ⟨(hmember f hf).1, (hmember f hf).2.1⟩⟩, ?_⟩
  rw [writeError, List.findSome?_eq_none_iff]
  exact fun f hf => (hmember f hf).2.2

end

end Schema

end FireDash.Json
