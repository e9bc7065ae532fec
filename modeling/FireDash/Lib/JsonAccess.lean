import FireDash.Lib.JsonSchema
import Mathlib.Data.List.Infix

/-! Reading a JSON value without asking first what it is, and what that raises. -/
namespace FireDash.Json

/-- What reading a value of the wrong kind raises. -/
inductive AccessError where
  | keyError
  | typeError
  | attributeError
  | valueError
  | recursionError
  deriving DecidableEq

/-- `value[name]`. -/
def subscript (value : Value) (name : Text) : Except AccessError Value :=
  match value with
  | .dict fields =>
    match field fields name with
    | some w => .ok w
    | none => .error .keyError
  | _ => .error .typeError

/-- `value.get(name)`. -/
def get (value : Value) (name : Text) : Except AccessError Value :=
  match value with
  | .dict fields => .ok ((field fields name).getD .null)
  | _ => .error .attributeError

/-- `name in value`. -/
def contains (value : Value) (name : Text) : Except AccessError Bool :=
  match value with
  | .dict fields => .ok (name ∈ fields.map Prod.fst)
  | .list items => .ok (items.any fun | .str s => s = name | _ => false)
  | .str s => .ok (name <:+: s)
  | _ => .error .typeError

/-- What `for item in value` goes through. -/
def iterate : Value → Except AccessError (List Value)
  | .list items => .ok items
  | .dict fields => .ok (fields.map fun f => .str f.1)
  | .str s => .ok (s.map fun c => .str [c])
  | _ => .error .typeError

/-- `len(value)`. -/
def length (value : Value) : Except AccessError ℕ := do return (← iterate value).length

/-- `value[name] = item`. -/
def assign (value : Value) (name : Text) (item : Value) : Except AccessError Value :=
  match value with
  | .dict fields =>
    if name ∈ fields.map Prod.fst then .ok (.dict (fields.map fun f => if f.1 = name then (name, item) else f))
    else .ok (.dict (fields ++ [(name, item)]))
  | _ => .error .typeError

/-- `{**value}`. -/
def mapping : Value → Except AccessError Value
  | .dict fields => .ok (.dict fields)
  | _ => .error .typeError

/-- `bool(value)`. -/
def truth : Value → Bool
  | .null => false
  | .bool b => b
  | .int n => n ≠ 0
  | .float (.finite m _) => m ≠ 0
  | .float _ => true
  | .str s => s ≠ []
  | .list items => items ≠ []
  | .dict fields => fields ≠ []

/-- A value as an element of a set or a key: a truth value is a number, and so is a whole float. -/
inductive Key where
  | null
  | number (n : ℤ)
  | real (x : Double)
  | text (s : Text)
  deriving DecidableEq

/-- Objects and arrays are not hashable. -/
def hashed : Value → Except AccessError Key
  | .null => .ok .null
  | .bool b => .ok (.number (if b then 1 else 0))
  | .int n => .ok (.number n)
  | .float (.finite m e) =>
    if e < 0 ∧ m % 2 ^ (-e).toNat ≠ 0 then .ok (.real (.finite m e))
    else .ok (.number (m * 2 ^ e.toNat / 2 ^ (-e).toNat))
  | .float x => .ok (.real x)
  | .str s => .ok (.text s)
  | .list _ | .dict _ => .error .typeError

/-- `mapping[key]` of a mapping built by the code, the last entry of a key counting. -/
def lookupKey {α : Type} (entries : List (Key × α)) (key : Value) : Except AccessError α := do
  let k ← hashed key
  match entries.reverse.find? fun e => e.1 = k with
  | some e => return e.2
  | none => throw .keyError

/-- How numbers, objects and arrays are written out. -/
structure Writer where
  limits : Limits
  floatText : Double → Text
  containerText : Value → Except AccessError Text

/-- `str(value)`. -/
def str (writer : Writer) : Value → Except AccessError Text
  | .null => .ok (text "None")
  | .bool b => .ok (text (if b then "True" else "False"))
  | .int n =>
    let digits := text (Nat.repr n.natAbs)
    if writer.limits.digits < digits.length then .error .valueError
    else .ok (if n < 0 then 45 :: digits else digits)
  | .float x => .ok (writer.floatText x)
  | .str s => .ok s
  | .list items => writer.containerText (.list items)
  | .dict fields => writer.containerText (.dict fields)

/-- Whether `json.dumps` without the constants returns. -/
def written (limits : Limits) (value : Value) : Except AccessError Unit :=
  match writeError limits limits.depth value with
  | none => .ok ()
  | some .recursion => .error .recursionError
  | some _ => .error .valueError

theorem str_int {writer : Writer} {n : ℤ} (h : (text (Nat.repr n.natAbs)).length ≤ writer.limits.digits) :
    ∃ t, str writer (.int n) = .ok t := by
  have hint : str writer (.int n) = if writer.limits.digits < (text (Nat.repr n.natAbs)).length then .error .valueError
      else .ok (if n < 0 then 45 :: text (Nat.repr n.natAbs) else text (Nat.repr n.natAbs)) := rfl
  exact ⟨_, by rw [hint, if_neg (not_lt.mpr h)]⟩

/-! ### Reading what a schema describes -/

section

variable {required optional : List (String × Schema)} {v : Value} {name : String} {S : Schema}

theorem subscript_record (h : Schema.record required optional v) (hm : (name, S) ∈ required) :
    Returns (subscript v (text name)) S := by
  obtain ⟨fields, rfl, -, hrequired, -⟩ := h
  obtain ⟨w, hw, hS⟩ := hrequired _ hm
  exact ⟨w, by simp only [subscript, hw], hS⟩

theorem get_record (h : Schema.record required optional v) (hm : (name, S) ∈ optional) :
    Returns (get v (text name)) fun w => w = .null ∨ S w := by
  obtain ⟨fields, rfl, -, -, hoptional⟩ := h
  cases hw : field fields (text name) with
  | none => exact ⟨.null, by simp only [get, hw, Option.getD_none], .inl rfl⟩
  | some w => exact ⟨w, by simp only [get, hw, Option.getD_some], .inr (hoptional _ hm w hw)⟩

theorem get_required (h : Schema.record required optional v) (hm : (name, S) ∈ required) : Returns (get v (text name)) S := by
  obtain ⟨fields, rfl, -, hrequired, -⟩ := h
  obtain ⟨w, hw, hS⟩ := hrequired _ hm
  exact ⟨w, by simp only [get, hw, Option.getD_some], hS⟩

theorem iterate_list {L : ℕ → Prop} (h : Schema.list L S v) :
    Returns (iterate v) fun items => L items.length ∧ ∀ item ∈ items, S item := by
  obtain ⟨items, rfl, hlength, hitems⟩ := h
  exact ⟨items, rfl, hlength, hitems⟩

theorem field_replaced {fields : List (Text × Value)} {name other : Text} {item : Value} (h : other ≠ name) :
    field (fields.map fun f => if f.1 = name then (name, item) else f) other = field fields other := by
  unfold field
  induction fields with
  | nil => rfl
  | cons f fields ih =>
    rw [List.map_cons]
    by_cases hname : f.1 = name
    · have hno : decide (f.1 = other) = false := by
        rw [hname]
        exact decide_eq_false h.symm
      have hno' : decide (name = other) = false := decide_eq_false h.symm
      rw [if_pos hname, List.find?_cons, List.find?_cons, hno, hno']
      exact ih
    · rw [if_neg hname, List.find?_cons, List.find?_cons]
      cases decide (f.1 = other) with
      | true => rfl
      | false => exact ih

/-- An assignment to an object changes the one member only. -/
theorem assign_dict (fields : List (Text × Value)) (name : Text) (item : Value) :
    Returns (assign (.dict fields) name item) fun w => ∃ fields', w = .dict fields' ∧
      ∀ other, other ≠ name → field fields' other = field fields other := by
  by_cases hmem : name ∈ fields.map Prod.fst
  · exact ⟨.dict _, by simp only [assign, if_pos hmem]; rfl, _, rfl, fun other hother => field_replaced hother⟩
  · refine ⟨.dict (fields ++ [(name, item)]), by simp only [assign, if_neg hmem], _, rfl, fun other hother => ?_⟩
    have hno : decide (name = other) = false := decide_eq_false hother.symm
    rw [field, field, List.find?_append]
    cases fields.find? fun f => f.1 = other with
    | none => rw [Option.none_or, List.find?_cons, hno]; rfl
    | some f => rfl

end

section

variable {α : Type} {entries : List (Key × α)}

/-- A key among the entries is found. -/
theorem lookupKey_ok (key : Value) {k : Key} (hkey : hashed key = .ok k) (hmem : k ∈ entries.map Prod.fst) :
    ∃ e ∈ entries, e.1 = k ∧ lookupKey entries key = .ok e.2 := by
  obtain ⟨e, he, hek⟩ := List.mem_map.mp hmem
  have hfound : (entries.reverse.find? fun e => e.1 = k).isSome = true :=
    List.find?_isSome.mpr ⟨e, List.mem_reverse.mpr he, by simpa using hek⟩
  obtain ⟨f, hf⟩ := Option.isSome_iff_exists.mp hfound
  have hkeyf := List.find?_some hf
  refine ⟨f, List.mem_reverse.mp (List.mem_of_find?_eq_some hf), by simpa using hkeyf, ?_⟩
  unfold lookupKey
  rw [hkey, ok_bind, hf]
  rfl

end

end FireDash.Json
