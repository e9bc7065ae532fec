import FireDash.Lib.JsonCanonical
import Std.Data.String.ToInt

/-! The canonical JSON text determines the value, up to the order of the members of its objects. -/
namespace FireDash.Json

/-! ### Strings -/

/-- Unicode scalar values: no surrogates. -/
def IsScalar (c : ℕ) : Prop := c < 0xD800 ∨ 0xE000 ≤ c ∧ c < 0x110000

def ScalarText (s : Text) : Prop := ∀ c ∈ s, IsScalar c

theorem hexDigit_hexChar : ∀ d < 16, hexDigit (hexChar d) = some d := by decide

theorem hexEscape_hexChar {c : ℕ} (h : c < 0x10000) :
    hexEscape (hexChar (c / 4096 % 16)) (hexChar (c / 256 % 16)) (hexChar (c / 16 % 16)) (hexChar (c % 16)) = some c := by
  have hlt : ∀ n : ℕ, n % 16 < 16 := fun n => Nat.mod_lt _ (by omega)
  simp only [hexEscape, hexDigit_hexChar _ (hlt _)]
  have hsum : ((c / 4096 % 16 * 16 + c / 256 % 16) * 16 + c / 16 % 16) * 16 + c % 16 = c := by omega
  simpa using hsum

theorem scanString_unicodeEscape {c : ℕ} (hc : c < 0x10000) (hsurrogate : isHighSurrogate c = false) (t : Text) :
    scanString (unicodeEscape c ++ t) = prepend c (scanString t) := by
  simp only [unicodeEscape, List.cons_append, List.nil_append]
  rw [scanString, hexEscape_hexChar hc]
  simp only [hsurrogate]

theorem scanString_surrogates {high low : ℕ} (hhigh : isHighSurrogate high = true) (hlow : isLowSurrogate low = true)
    (t : Text) : scanString (unicodeEscape high ++ (unicodeEscape low ++ t)) =
      prepend (joinSurrogates high low) (scanString t) := by
  have hhigh' : high < 0x10000 := by
    simp only [isHighSurrogate, decide_eq_true_eq, Bool.decide_and, Bool.and_eq_true] at hhigh
    omega
  have hlow' : low < 0x10000 := by
    simp only [isLowSurrogate, decide_eq_true_eq, Bool.decide_and, Bool.and_eq_true] at hlow
    omega
  simp only [unicodeEscape, List.cons_append, List.nil_append]
  rw [scanString, hexEscape_hexChar hhigh']
  simp only [hhigh, hexEscape_hexChar hlow', hlow, if_true]

/-- The reader takes one written character at a time. -/
theorem scanString_escapeChar {c : ℕ} (h : IsScalar c) (t : Text) :
    scanString (escapeChar c ++ t) = prepend c (scanString t) := by
  unfold IsScalar at h
  unfold escapeChar
  split_ifs with h34 h92 h10 h13 h9 h12 h8 hplain hshort
  · subst h34
    rfl
  · subst h92
    rfl
  · subst h10
    rfl
  · subst h13
    rfl
  · subst h9
    rfl
  · subst h12
    rfl
  · subst h8
    rfl
  · rw [List.cons_append, List.nil_append, scanString]
    · rw [if_neg (by omega)]
    · exact h34
    · omega
    · omega
  · refine scanString_unicodeEscape hshort ?_ t
    simp only [isHighSurrogate, decide_eq_false_iff_not]
    omega
  · have hjoin : joinSurrogates (0xD800 + (c - 0x10000) / 0x400 % 0x400) (0xDC00 + (c - 0x10000) % 0x400) = c := by
      unfold joinSurrogates
      omega
    rw [List.append_assoc, scanString_surrogates, hjoin]
    · simp only [isHighSurrogate, decide_eq_true_eq]
      omega
    · simp only [isLowSurrogate, decide_eq_true_eq]
      omega

/-- The reader inverts the writer on strings. -/
theorem scanString_dumped {s : Text} (h : ScalarText s) (rest : Text) :
    scanString (s.flatMap escapeChar ++ 34 :: rest) = .ok (s, rest) := by
  induction s with
  | nil =>
    rw [List.flatMap_nil, List.nil_append]
    unfold scanString
    rfl
  | cons c s ih =>
    have htail := ih fun d hd => h d (List.mem_cons_of_mem _ hd)
    rw [List.flatMap_cons, List.append_assoc, scanString_escapeChar (h c List.mem_cons_self), htail]
    rfl

theorem dumpString_determined {s t : Text} (hs : ScalarText s) (ht : ScalarText t) {r r' : Text}
    (h : dumpString s ++ r = dumpString t ++ r') : s = t ∧ r = r' := by
  simp only [dumpString, List.cons_append, List.append_assoc, List.nil_append, List.cons.injEq, true_and] at h
  have hscan := scanString_dumped hs r
  rw [h, scanString_dumped ht r'] at hscan
  obtain ⟨hst, hr⟩ := Prod.mk.inj (Except.ok.inj hscan)
  exact ⟨hst.symm, hr.symm⟩

/-! ### Numbers -/

def isNumberChar (c : ℕ) : Bool := isDigit c ∨ c ∈ [43, 45, 46, 69, 101]

/-- Whatever was written before this text ends there. -/
def Delimited (t : Text) : Prop := ∀ c ∈ t.head?, isNumberChar c = false

theorem number_determined {a b r s : Text} (ha : ∀ c ∈ a, isNumberChar c = true) (hb : ∀ c ∈ b, isNumberChar c = true)
    (hr : Delimited r) (hs : Delimited s) (h : a ++ r = b ++ s) : a = b ∧ r = s := by
  have hstop : ∀ {t : Text}, Delimited t → t.takeWhile isNumberChar = [] := by
    intro t ht
    cases t with
    | nil => rfl
    | cons c t => exact List.takeWhile_cons_of_neg (by simp [ht c rfl])
  have hread := congrArg (List.takeWhile isNumberChar) h
  rw [List.takeWhile_append_of_pos ha, List.takeWhile_append_of_pos hb, hstop hr, hstop hs, List.append_nil,
    List.append_nil] at hread
  subst hread
  exact ⟨rfl, List.append_cancel_left h⟩

/-- What the texts of some floating-point values have in common with `float.__repr__`. -/
structure FaithfulRepr (floatRepr : Double → Text) (P : Double → Prop) : Prop where
  number : ∀ {x}, P x → ∀ c ∈ floatRepr x, isNumberChar c = true
  opens : ∀ {x}, P x → ∃ c t, floatRepr x = c :: t ∧ (isDigit c = true ∨ c = 45)
  marked : ∀ {x}, P x → 46 ∈ floatRepr x ∨ 101 ∈ floatRepr x
  injective : ∀ {x y}, P x → P y → floatRepr x = floatRepr y → x = y

theorem text_injective {a b : String} (h : text a = text b) : a = b := by
  have hlist : a.toList = b.toList := List.map_injective_iff.mpr (fun _ _ => Char.toNat_inj.mp) h
  exact String.toList_inj.mp hlist

theorem text_append (a b : String) : text (a ++ b) = text a ++ text b := by
  simp [text]

theorem isDigit_text_repr (n : ℕ) : ∀ c ∈ text (Nat.repr n), isDigit c = true := by
  intro c hc
  obtain ⟨d, hd, rfl⟩ := List.mem_map.mp hc
  rw [Nat.toList_repr] at hd
  have hdigit := Char.isDigit_iff_toNat.mp (Nat.isDigit_of_mem_toDigits (by omega) (by omega) hd)
  exact decide_eq_true hdigit

theorem text_repr_ne_nil (n : ℕ) : text (Nat.repr n) ≠ [] := by
  intro h
  exact Nat.repr_ne_empty (text_injective h)

/-- The digits of an integer, and a sign before those of a negative one. -/
theorem text_int (n : ℤ) : ∃ digits : Text, digits ≠ [] ∧ (∀ c ∈ digits, isDigit c = true) ∧
    (text (toString n) = digits ∨ text (toString n) = 45 :: digits) := by
  cases n with
  | ofNat m => exact ⟨_, text_repr_ne_nil m, isDigit_text_repr m, .inl rfl⟩
  | negSucc m =>
    refine ⟨_, text_repr_ne_nil (m + 1), isDigit_text_repr (m + 1), .inr ?_⟩
    have happend : text (toString (Int.negSucc m)) = text ("-" ++ Nat.repr (m + 1)) := rfl
    rw [happend, text_append]
    rfl

theorem isNumberChar_of_isDigit {c : ℕ} (h : isDigit c = true) : isNumberChar c = true := by
  simp [isNumberChar, h]

theorem text_int_injective {m n : ℤ} (h : text (toString m) = text (toString n)) : m = n := by
  have hrepr : ∀ k : ℤ, toString k = Int.repr k := fun k => rfl
  exact Int.repr_inj.mp (by rw [← hrepr, ← hrepr]; exact text_injective h)

theorem text_int_number (n : ℤ) : (∀ c ∈ text (toString n), isNumberChar c = true) ∧
    46 ∉ text (toString n) ∧ 101 ∉ text (toString n) := by
  obtain ⟨digits, -, hdigits, heq⟩ := text_int n
  have hno : ∀ c, isDigit c = false → c ∉ digits := fun c hc hmem => by
    rw [hdigits c hmem] at hc
    cases hc
  rcases heq with heq | heq
  · rw [heq]
    exact ⟨fun c hc => isNumberChar_of_isDigit (hdigits c hc), hno 46 rfl, hno 101 rfl⟩
  · rw [heq]
    refine ⟨fun c hc => ?_, ?_, ?_⟩
    · rcases List.mem_cons.mp hc with rfl | hc
      · rfl
      · exact isNumberChar_of_isDigit (hdigits c hc)
    · simpa using hno 46 rfl
    · simpa using hno 101 rfl

/-! ### Values -/

theorem sizeOf_item {v : Value} {items : List Value} (h : v ∈ items) : sizeOf v < 1 + sizeOf items := by
  have := List.sizeOf_lt_of_mem h
  omega

theorem sizeOf_member {f : Text × Value} {fields : List (Text × Value)} (h : f ∈ fields) :
    sizeOf f.2 < 1 + sizeOf fields := by
  have hf := List.sizeOf_lt_of_mem h
  have hpair : sizeOf f = 1 + sizeOf f.1 + sizeOf f.2 := rfl
  omega

/-- A property of the items of a list and of the members of an object is one of every value. -/
@[elab_as_elim] theorem Value.induction {motive : Value → Prop} (null : motive .null) (bool : ∀ b, motive (.bool b))
    (int : ∀ n, motive (.int n)) (float : ∀ x, motive (.float x)) (str : ∀ s, motive (.str s))
    (list : ∀ items, (∀ v ∈ items, motive v) → motive (.list items))
    (dict : ∀ fields, (∀ f ∈ fields, motive f.2) → motive (.dict fields)) : ∀ v, motive v
  | .null => null
  | .bool b => bool b
  | .int n => int n
  | .float x => float x
  | .str s => str s
  | .list items => list items fun v _ => Value.induction null bool int float str list dict v
  | .dict fields => dict fields fun f _ => Value.induction null bool int float str list dict f.2
decreasing_by
  · simpa using sizeOf_item ‹v ∈ items›
  · simpa using sizeOf_member ‹f ∈ fields›

/-- Texts and floating-point values of one kind, and objects with distinct keys. -/
def Value.Proper (T : Text → Prop) (P : Double → Prop) : Value → Prop
  | .float x => P x
  | .str s => T s
  | .list items => ∀ v ∈ items, v.Proper T P
  | .dict fields => (fields.map Prod.fst).Nodup ∧ ∀ f ∈ fields, T f.1 ∧ f.2.Proper T P
  | _ => True
decreasing_by
  · simpa using sizeOf_item ‹v ∈ items›
  · simpa using sizeOf_member ‹f ∈ fields›

/-- Objects with distinct keys, as a reader makes them. -/
def Value.Distinct (v : Value) : Prop := v.Proper (fun _ => True) fun _ => True

section

variable {T : Text → Prop} {P : Double → Prop} {items : List Value} {fields : List (Text × Value)}

@[simp] theorem proper_list : (Value.list items).Proper T P ↔ ∀ v ∈ items, v.Proper T P := by rw [Value.Proper]

@[simp] theorem proper_dict : (Value.dict fields).Proper T P ↔
    (fields.map Prod.fst).Nodup ∧ ∀ f ∈ fields, T f.1 ∧ f.2.Proper T P := by rw [Value.Proper]

@[simp] theorem proper_str {s : Text} : (Value.str s).Proper T P ↔ T s := by rw [Value.Proper]

@[simp] theorem proper_float {x : Double} : (Value.float x).Proper T P ↔ P x := by rw [Value.Proper]

@[simp] theorem proper_int {n : ℤ} : (Value.int n).Proper T P := by simp [Value.Proper]

@[simp] theorem proper_bool {b : Bool} : (Value.bool b).Proper T P := by simp [Value.Proper]

@[simp] theorem proper_null : Value.null.Proper T P := by simp [Value.Proper]

end

mutual
/-- The members of every object in the order of their keys. -/
def normalize : Value → Value
  | .list items => .list (normalizeItems items)
  | .dict fields => .dict ((normalizeFields fields).insertionSort fun a b => a.1 ≤ b.1)
  | v => v

def normalizeItems : List Value → List Value
  | [] => []
  | v :: rest => normalize v :: normalizeItems rest

def normalizeFields : List (Text × Value) → List (Text × Value)
  | [] => []
  | (key, v) :: rest => (key, normalize v) :: normalizeFields rest
end

mutual
/-- The text of a value whose members stand in order. -/
def render (floatRepr : Double → Text) : Value → Text
  | .null => text "null"
  | .bool true => text "true"
  | .bool false => text "false"
  | .int n => text (toString n)
  | .float x => floatRepr x
  | .str s => dumpString s
  | .list items => 91 :: (commaSeparated (renderItems floatRepr items) ++ [93])
  | .dict fields => 123 :: (commaSeparated (renderFields floatRepr fields) ++ [125])

def renderItems (floatRepr : Double → Text) : List Value → List Text
  | [] => []
  | v :: rest => render floatRepr v :: renderItems floatRepr rest

def renderFields (floatRepr : Double → Text) : List (Text × Value) → List Text
  | [] => []
  | (key, v) :: rest => dumpMember (key, render floatRepr v) :: renderFields floatRepr rest
end

def normalizeMember (f : Text × Value) : Text × Value := (f.1, normalize f.2)

def renderMember (floatRepr : Double → Text) (f : Text × Value) : Text := dumpMember (f.1, render floatRepr f.2)

section

variable {P : Double → Prop} {floatRepr : Double → Text} {v w : Value} {items : List Value} {fields : List (Text × Value)}

theorem normalize_list : normalize (.list items) = .list (items.map normalize) := by
  have hmap : normalizeItems items = items.map normalize := by
    induction items with
    | nil => rfl
    | cons v items ih => rw [normalizeItems, ih, List.map_cons]
  rw [normalize, hmap]

theorem normalize_dict : normalize (.dict fields) =
    .dict ((fields.insertionSort fun a b => a.1 ≤ b.1).map normalizeMember) := by
  have hmap : normalizeFields fields = fields.map normalizeMember := by
    induction fields with
    | nil => rfl
    | cons f fields ih =>
      obtain ⟨key, v⟩ := f
      rw [normalizeFields, ih, List.map_cons]
      rfl
  have hsort := List.map_insertionSort (fun a b : Text × Value => a.1 ≤ b.1) (fun a b : Text × Value => a.1 ≤ b.1)
    normalizeMember fields fun _ _ _ _ => Iff.rfl
  rw [normalize, hmap, hsort]

theorem render_list : render floatRepr (.list items) = 91 :: (commaSeparated (items.map (render floatRepr)) ++ [93]) := by
  have hmap : renderItems floatRepr items = items.map (render floatRepr) := by
    induction items with
    | nil => rfl
    | cons v items ih => rw [renderItems, ih, List.map_cons]
  rw [render, hmap]

theorem render_dict : render floatRepr (.dict fields) =
    123 :: (commaSeparated (fields.map (renderMember floatRepr)) ++ [125]) := by
  have hmap : renderFields floatRepr fields = fields.map (renderMember floatRepr) := by
    induction fields with
    | nil => rfl
    | cons f fields ih =>
      obtain ⟨key, v⟩ := f
      rw [renderFields, ih, List.map_cons]
      rfl
  rw [render, hmap]

theorem dumps_list : dumps floatRepr (.list items) = 91 :: (commaSeparated (items.map (dumps floatRepr)) ++ [93]) := by
  have hmap : dumpItems floatRepr items = items.map (dumps floatRepr) := by
    induction items with
    | nil => rfl
    | cons v items ih => rw [dumpItems, ih, List.map_cons]
  rw [dumps, hmap]

theorem dumps_dict : dumps floatRepr (.dict fields) = 123 :: (commaSeparated
    ((fields.insertionSort fun a b => a.1 ≤ b.1).map fun f => dumpMember (f.1, dumps floatRepr f.2)) ++ [125]) := by
  have hmap : dumpFields floatRepr fields = fields.map fun f => (f.1, dumps floatRepr f.2) := by
    induction fields with
    | nil => rfl
    | cons f fields ih =>
      obtain ⟨key, v⟩ := f
      rw [dumpFields, ih, List.map_cons]
  have hsort := List.map_insertionSort (fun a b : Text × Value => a.1 ≤ b.1) (fun a b : Text × Text => a.1 ≤ b.1)
    (fun f : Text × Value => (f.1, dumps floatRepr f.2)) fields fun _ _ _ _ => Iff.rfl
  rw [dumps, hmap, dumpObject, ← hsort, List.map_map]
  rfl

/-- The writer sorts the members and writes them in order. -/
theorem dumps_eq_render (v : Value) : dumps floatRepr v = render floatRepr (normalize v) := by
  induction v using Value.induction with
  | null => rfl
  | bool b => cases b <;> rfl
  | int n => rfl
  | float x => rfl
  | str s => rfl
  | list items ih =>
    rw [dumps_list, normalize_list, render_list, List.map_map]
    congr 3
    exact List.map_congr_left ih
  | dict fields ih =>
    rw [dumps_dict, normalize_dict, render_dict, List.map_map]
    congr 3
    refine List.map_congr_left fun f hf => ?_
    have hmem := (List.perm_insertionSort _ _).mem_iff.mp hf
    rw [ih f hmem]
    rfl

theorem proper_normalize {T : Text → Prop} (h : v.Proper T P) : (normalize v).Proper T P := by
  induction v using Value.induction with
  | list items ih =>
    rw [proper_list] at h
    rw [normalize_list, proper_list]
    intro w hw
    obtain ⟨v, hv, rfl⟩ := List.mem_map.mp hw
    exact ih v hv (h v hv)
  | dict fields ih =>
    obtain ⟨hnodup, hfields⟩ := proper_dict.mp h
    have hperm := List.perm_insertionSort (fun a b : Text × Value => a.1 ≤ b.1) fields
    rw [normalize_dict, proper_dict, List.map_map]
    refine ⟨(hperm.map Prod.fst).nodup_iff.mpr hnodup, fun f hf => ?_⟩
    obtain ⟨g, hg, rfl⟩ := List.mem_map.mp hf
    have hmem := hperm.mem_iff.mp hg
    exact ⟨(hfields g hmem).1, ih g hmem (hfields g hmem).2⟩
  | _ => exact h

end

/-! ### The text determines the value -/

inductive Kind where
  | null
  | bool (b : Bool)
  | number
  | str
  | list
  | dict
  deriving DecidableEq

def Value.kind : Value → Kind
  | .null => .null
  | .bool b => .bool b
  | .int _ | .float _ => .number
  | .str _ => .str
  | .list _ => .list
  | .dict _ => .dict

/-- The kind of value a text with this first character is of. -/
def charKind (c : ℕ) : Kind :=
  if c = 110 then .null
  else if c = 116 then .bool true
  else if c = 102 then .bool false
  else if c = 34 then .str
  else if c = 91 then .list
  else if c = 123 then .dict
  else .number

section

variable {P : Double → Prop} {floatRepr : Double → Text} {v w : Value}

theorem charKind_number {c : ℕ} (h : isDigit c = true ∨ c = 45) : charKind c = .number ∧ c ≠ 44 ∧ c ≠ 93 ∧ c ≠ 125 := by
  have hrange : 48 ≤ c ∧ c ≤ 57 ∨ c = 45 := h.imp_left of_decide_eq_true
  refine ⟨?_, by omega, by omega, by omega⟩
  unfold charKind
  rw [if_neg (by omega), if_neg (by omega), if_neg (by omega), if_neg (by omega), if_neg (by omega), if_neg (by omega)]

theorem render_head (hfloat : FaithfulRepr floatRepr P) (h : v.Proper ScalarText P) :
    ∃ c t, render floatRepr v = c :: t ∧ charKind c = v.kind ∧ c ≠ 44 ∧ c ≠ 93 ∧ c ≠ 125 := by
  cases v with
  | null => exact ⟨_, _, rfl, by decide⟩
  | bool b => cases b <;> exact ⟨_, _, rfl, by decide⟩
  | int n =>
    obtain ⟨digits, hne, hdigits, heq⟩ := text_int n
    obtain ⟨d, t, rfl⟩ := List.exists_cons_of_ne_nil hne
    rcases heq with heq | heq
    · exact ⟨d, t, heq, charKind_number (.inl (hdigits d List.mem_cons_self))⟩
    · exact ⟨45, d :: t, heq, charKind_number (.inr rfl)⟩
  | float x =>
    obtain ⟨c, t, heq, hc⟩ := hfloat.opens (proper_float.mp h)
    exact ⟨c, t, heq, charKind_number hc⟩
  | str s => exact ⟨34, _, rfl, rfl, by decide⟩
  | list items => exact ⟨91, _, by rw [render], rfl, by decide⟩
  | dict fields => exact ⟨123, _, by rw [render], rfl, by decide⟩

theorem kind_eq_of_render (hfloat : FaithfulRepr floatRepr P) {r s : Text} (hv : v.Proper ScalarText P) (hw : w.Proper ScalarText P)
    (h : render floatRepr v ++ r = render floatRepr w ++ s) : v.kind = w.kind := by
  obtain ⟨c, t, hc, hkind, -⟩ := render_head hfloat hv
  obtain ⟨d, u, hd, hkind', -⟩ := render_head hfloat hw
  rw [hc, hd] at h
  rw [← hkind, ← hkind', (List.cons.inj h).1]

/-- What the rest of a sequence is, after an item. -/
def commaRest (close : ℕ) (r : Text) : List Text → Text
  | [] => close :: r
  | t :: ts => 44 :: (commaSeparated (t :: ts) ++ close :: r)

theorem commaSeparated_cons (close : ℕ) (r t : Text) (ts : List Text) :
    commaSeparated (t :: ts) ++ close :: r = t ++ commaRest close r ts := by
  cases ts with
  | nil => rfl
  | cons u us => simp [commaSeparated, commaRest]

theorem delimited_commaRest {close : ℕ} (h : isNumberChar close = false) (r : Text) (ts : List Text) :
    Delimited (commaRest close r ts) := by
  intro c hc
  cases ts with
  | nil =>
    cases hc
    exact h
  | cons t ts =>
    cases hc
    rfl

/-- Items whose texts determine them are determined by their sequence. -/
theorem commaSeparated_determined {α : Type} {f : α → Text} (close : ℕ) (hclose : isNumberChar close = false)
    (hcomma : close ≠ 44) {l m : List α} (hhead : ∀ a, a ∈ l ∨ a ∈ m → ∃ c t, f a = c :: t ∧ c ≠ close)
    (hdet : ∀ a ∈ l, ∀ b ∈ m, ∀ r s, Delimited r → Delimited s → f a ++ r = f b ++ s → a = b ∧ r = s) {r s : Text}
    (h : commaSeparated (l.map f) ++ close :: r = commaSeparated (m.map f) ++ close :: s) : l = m ∧ r = s := by
  have hopen : ∀ a, a ∈ l ∨ a ∈ m → ∀ t u : Text, f a ++ t ≠ close :: u := by
    intro a ha t u heq
    obtain ⟨c, v, hc, hne⟩ := hhead a ha
    rw [hc] at heq
    exact hne (List.cons.inj heq).1
  induction l generalizing m with
  | nil =>
    cases m with
    | nil => exact ⟨rfl, (List.cons.inj h).2⟩
    | cons b m =>
      rw [List.map_cons, commaSeparated_cons] at h
      exact absurd h.symm (hopen b (.inr List.mem_cons_self) _ _)
  | cons a l ih =>
    cases m with
    | nil =>
      rw [List.map_cons, commaSeparated_cons] at h
      exact absurd h (hopen a (.inl List.mem_cons_self) _ _)
    | cons b m =>
      rw [List.map_cons, List.map_cons, commaSeparated_cons, commaSeparated_cons] at h
      obtain ⟨rfl, hrest⟩ := hdet a List.mem_cons_self b List.mem_cons_self _ _ (delimited_commaRest hclose r _)
        (delimited_commaRest hclose s _) h
      cases l with
      | nil =>
        cases m with
        | nil => exact ⟨rfl, (List.cons.inj hrest).2⟩
        | cons d m => exact absurd (List.cons.inj hrest).1 hcomma
      | cons c l =>
        cases m with
        | nil => exact absurd (List.cons.inj hrest).1.symm hcomma
        | cons d m =>
          have hin : ∀ x, x ∈ c :: l ∨ x ∈ d :: m → x ∈ a :: c :: l ∨ x ∈ a :: d :: m := fun x =>
            .imp (List.mem_cons_of_mem _) (List.mem_cons_of_mem _)
          have hnext := ih (m := d :: m) (fun x hx => hhead x (hin x hx))
            (fun x hx y hy => hdet x (List.mem_cons_of_mem _ hx) y (List.mem_cons_of_mem _ hy))
            (List.cons.inj hrest).2 fun x hx => hopen x (hin x hx)
          exact ⟨by rw [hnext.1], hnext.2⟩

theorem renderMember_determined {f g : Text × Value} (hf : ScalarText f.1) (hg : ScalarText g.1) {r s : Text}
    (hdet : ∀ {t u : Text}, render floatRepr f.2 ++ t = render floatRepr g.2 ++ u → Delimited t → Delimited u →
      f.2 = g.2 ∧ t = u) (hr : Delimited r) (hs : Delimited s)
    (h : renderMember floatRepr f ++ r = renderMember floatRepr g ++ s) : f = g ∧ r = s := by
  simp only [renderMember, dumpMember, List.append_assoc, List.cons_append] at h
  obtain ⟨hkey, hrest⟩ := dumpString_determined hf hg h
  obtain ⟨hvalue, hrest⟩ := hdet (List.cons.inj hrest).2 hr hs
  exact ⟨Prod.ext hkey hvalue, hrest⟩

/-- A written value followed by anything that ends it is read back in one way only. -/
theorem render_determined (hfloat : FaithfulRepr floatRepr P) (hv : v.Proper ScalarText P) (hw : w.Proper ScalarText P) {r s : Text}
    (hr : Delimited r) (hs : Delimited s) (h : render floatRepr v ++ r = render floatRepr w ++ s) : v = w ∧ r = s := by
  have hkind := kind_eq_of_render hfloat hv hw h
  induction v using Value.induction generalizing w r s with
  | null =>
    cases w <;> cases hkind
    exact ⟨rfl, List.append_cancel_left h⟩
  | bool b =>
    cases w <;> cases hkind
    exact ⟨rfl, List.append_cancel_left h⟩
  | int n =>
    obtain ⟨hnumber, hdot, hexp⟩ := text_int_number n
    cases w with
    | int m =>
      obtain ⟨htext, hrest⟩ := number_determined hnumber (text_int_number m).1 hr hs h
      exact ⟨by rw [text_int_injective htext], hrest⟩
    | float y =>
      have hy := proper_float.mp hw
      obtain ⟨htext, -⟩ := number_determined hnumber (hfloat.number hy) hr hs h
      rw [htext] at hdot hexp
      exact ((hfloat.marked hy).elim hdot hexp).elim
    | _ => cases hkind
  | float x =>
    have hx := proper_float.mp hv
    cases w with
    | int m =>
      obtain ⟨hnumber, hdot, hexp⟩ := text_int_number m
      obtain ⟨htext, -⟩ := number_determined (hfloat.number hx) hnumber hr hs h
      rw [← htext] at hdot hexp
      exact ((hfloat.marked hx).elim hdot hexp).elim
    | float y =>
      have hy := proper_float.mp hw
      obtain ⟨htext, hrest⟩ := number_determined (hfloat.number hx) (hfloat.number hy) hr hs h
      exact ⟨by rw [hfloat.injective hx hy htext], hrest⟩
    | _ => cases hkind
  | str a =>
    cases w <;> cases hkind
    obtain ⟨hstr, hrest⟩ := dumpString_determined (proper_str.mp hv) (proper_str.mp hw) h
    exact ⟨by rw [hstr], hrest⟩
  | list items ih =>
    cases w <;> cases hkind
    rename_i items'
    rw [proper_list] at hv hw
    simp only [render_list, List.cons_append, List.append_assoc, List.nil_append] at h
    have hdet := commaSeparated_determined (f := render floatRepr) (l := items) (m := items') 93 rfl (by decide) ?_ ?_ (List.cons.inj h).2
    · exact ⟨by rw [hdet.1], hdet.2⟩
    · intro a ha
      obtain ⟨c, t, hc, -, -, hne, -⟩ := render_head hfloat (ha.elim (hv a) (hw a))
      exact ⟨c, t, hc, hne⟩
    · intro a ha b hb r s hr hs hab
      exact ih a ha (hv a ha) (hw b hb) hr hs hab (kind_eq_of_render hfloat (hv a ha) (hw b hb) hab)
  | dict fields ih =>
    cases w <;> cases hkind
    rename_i fields'
    have hv' := (proper_dict.mp hv).2
    have hw' := (proper_dict.mp hw).2
    simp only [render_dict, List.cons_append, List.append_assoc, List.nil_append] at h
    have hdet := commaSeparated_determined (f := renderMember floatRepr) (l := fields) (m := fields') 125 rfl (by decide)
      ?_ ?_ (List.cons.inj h).2
    · exact ⟨by rw [hdet.1], hdet.2⟩
    · exact fun a _ => ⟨34, _, rfl, by decide⟩
    · intro a ha b hb r s hr hs hab
      refine renderMember_determined (hv' a ha).1 (hw' b hb).1 (fun {t u} htu ht hu => ?_) hr hs hab
      exact ih a ha (hv' a ha).2 (hw' b hb).2 ht hu htu (kind_eq_of_render hfloat (hv' a ha).2 (hw' b hb).2 htu)

theorem dumps_injective (hfloat : FaithfulRepr floatRepr P) (hv : v.Proper ScalarText P) (hw : w.Proper ScalarText P)
    (h : dumps floatRepr v = dumps floatRepr w) : normalize v = normalize w := by
  rw [dumps_eq_render, dumps_eq_render] at h
  have hend : Delimited [] := by simp [Delimited]
  refine (render_determined hfloat (proper_normalize hv) (proper_normalize hw) hend hend ?_).1
  rw [h]

end

/-! ### Equality up to the order of members -/

mutual
/-- The same value, where the members of an object may stand in any order. -/
inductive Same : Value → Value → Prop
  | null : Same .null .null
  | bool (b : Bool) : Same (.bool b) (.bool b)
  | int (n : ℤ) : Same (.int n) (.int n)
  | float (x : Double) : Same (.float x) (.float x)
  | str (s : Text) : Same (.str s) (.str s)
  | list {l m : List Value} (h : SameItems l m) : Same (.list l) (.list m)
  | dict {f f' g' g : List (Text × Value)} (hf : f.Perm f') (h : SameMembers f' g') (hg : g'.Perm g) :
      Same (.dict f) (.dict g)

inductive SameItems : List Value → List Value → Prop
  | nil : SameItems [] []
  | cons {v w : Value} {l m : List Value} (h : Same v w) (hs : SameItems l m) : SameItems (v :: l) (w :: m)

inductive SameMembers : List (Text × Value) → List (Text × Value) → Prop
  | nil : SameMembers [] []
  | cons {v w : Value} {f g : List (Text × Value)} (key : Text) (h : Same v w) (hs : SameMembers f g) :
      SameMembers ((key, v) :: f) ((key, w) :: g)
end

section

variable {T : Text → Prop} {P : Double → Prop} {floatRepr : Double → Text} {v w : Value}

/-- Members with distinct keys are in order in one way only. -/
theorem sorted_eq_of_perm {β : Type} {f g : List (Text × β)} (h : f.Perm g) (hnodup : (f.map Prod.fst).Nodup) :
    (f.insertionSort fun a b => a.1 ≤ b.1) = g.insertionSort fun a b => a.1 ≤ b.1 := by
  have hf := List.perm_insertionSort (fun a b : Text × β => a.1 ≤ b.1) f
  have hg := List.perm_insertionSort (fun a b : Text × β => a.1 ≤ b.1) g
  refine List.Perm.eq_of_pairwise (fun a b ha hb hab hba => ?_)
    (List.pairwise_insertionSort _ f) (List.pairwise_insertionSort _ g) (hf.trans (h.trans hg.symm))
  have ha' := hf.mem_iff.mp ha
  have hb' := h.mem_iff.mpr (hg.mem_iff.mp hb)
  exact List.inj_on_of_nodup_map hnodup ha' hb' (le_antisymm hab hba)

theorem normalize_dict_eq {f f' g' g : List (Text × Value)} (hf : f.Perm f')
    (h : f'.map normalizeMember = g'.map normalizeMember) (hg : g'.Perm g) (hnodup : (f.map Prod.fst).Nodup) :
    normalize (.dict f) = normalize (.dict g) := by
  have hsort : ∀ l : List (Text × Value), (l.insertionSort fun a b => a.1 ≤ b.1).map normalizeMember =
      (l.map normalizeMember).insertionSort fun a b => a.1 ≤ b.1 := fun l =>
    List.map_insertionSort (fun a b : Text × Value => a.1 ≤ b.1) (fun a b : Text × Value => a.1 ≤ b.1)
      normalizeMember l fun _ _ _ _ => Iff.rfl
  have hperm : (f.map normalizeMember).Perm (g.map normalizeMember) :=
    (hf.map _).trans ((List.Perm.of_eq h).trans (hg.map _))
  rw [normalize_dict, normalize_dict, hsort, hsort, sorted_eq_of_perm hperm]
  rw [List.map_map]
  exact hnodup

mutual
theorem Same.normalize_eq {v w : Value} : Same v w → v.Proper T P → w.Proper T P → normalize v = normalize w
  | .null, _, _ => rfl
  | .bool _, _, _ => rfl
  | .int _, _, _ => rfl
  | .float _, _, _ => rfl
  | .str _, _, _ => rfl
  | .list h, hv, hw => by
    rw [normalize_list, normalize_list, h.map_eq (proper_list.mp hv) (proper_list.mp hw)]
  | .dict hf h hg, hv, hw => by
    obtain ⟨hnodup, hv⟩ := proper_dict.mp hv
    obtain ⟨-, hw⟩ := proper_dict.mp hw
    have hmap := h.map_eq (fun a ha => (hv a (hf.mem_iff.mpr ha)).2) fun b hb => (hw b (hg.mem_iff.mp hb)).2
    exact normalize_dict_eq hf hmap hg hnodup

theorem SameItems.map_eq {l m : List Value} : SameItems l m → (∀ v ∈ l, v.Proper T P) → (∀ w ∈ m, w.Proper T P) →
    l.map normalize = m.map normalize
  | .nil, _, _ => rfl
  | .cons h hs, hl, hm => by
    rw [List.map_cons, List.map_cons, h.normalize_eq (hl _ List.mem_cons_self) (hm _ List.mem_cons_self),
      hs.map_eq (fun v hv => hl v (List.mem_cons_of_mem _ hv)) fun w hw => hm w (List.mem_cons_of_mem _ hw)]

theorem SameMembers.map_eq {f g : List (Text × Value)} : SameMembers f g → (∀ a ∈ f, a.2.Proper T P) →
    (∀ b ∈ g, b.2.Proper T P) → f.map normalizeMember = g.map normalizeMember
  | .nil, _, _ => rfl
  | .cons key h hs, hf, hg => by
    have hhead := h.normalize_eq (hf _ List.mem_cons_self) (hg _ List.mem_cons_self)
    rw [List.map_cons, List.map_cons, hs.map_eq (fun a ha => hf a (List.mem_cons_of_mem _ ha)) fun b hb =>
      hg b (List.mem_cons_of_mem _ hb)]
    simp only [normalizeMember, hhead]
end

theorem same_of_map_eq {f g : List (Text × Value)} (hsame : ∀ a ∈ f, ∀ w, normalize a.2 = normalize w → Same a.2 w)
    (h : f.map normalizeMember = g.map normalizeMember) : SameMembers f g := by
  induction f generalizing g with
  | nil =>
    obtain rfl := List.map_eq_nil_iff.mp h.symm
    exact .nil
  | cons a f ih =>
    obtain ⟨b, g, rfl, hhead, htail⟩ := List.map_eq_cons_iff.mp h.symm
    obtain ⟨key, v⟩ := a
    obtain ⟨key', w⟩ := b
    obtain ⟨rfl, hvalue⟩ := Prod.mk.inj hhead
    have hfirst := hsame _ List.mem_cons_self w hvalue.symm
    exact .cons _ hfirst (ih (fun c hc => hsame c (List.mem_cons_of_mem _ hc)) htail.symm)

theorem sameItems_of_map_eq {l m : List Value} (hsame : ∀ v ∈ l, ∀ w, normalize v = normalize w → Same v w)
    (h : l.map normalize = m.map normalize) : SameItems l m := by
  induction l generalizing m with
  | nil =>
    obtain rfl := List.map_eq_nil_iff.mp h.symm
    exact .nil
  | cons v l ih =>
    obtain ⟨w, m, rfl, hhead, htail⟩ := List.map_eq_cons_iff.mp h.symm
    have hfirst := hsame v List.mem_cons_self w hhead.symm
    exact .cons hfirst (ih (fun c hc => hsame c (List.mem_cons_of_mem _ hc)) htail.symm)

/-- Values with one normal form are the same. -/
theorem same_of_normalize_eq (h : normalize v = normalize w) : Same v w := by
  induction v using Value.induction generalizing w with
  | null =>
    cases w <;> cases h
    exact .null
  | bool b =>
    cases w <;> cases h
    exact .bool b
  | int n =>
    cases w <;> cases h
    exact .int n
  | float x =>
    cases w <;> cases h
    exact .float x
  | str s =>
    cases w <;> cases h
    exact .str s
  | list items ih =>
    rw [normalize_list] at h
    cases w with
    | list items' =>
      rw [normalize_list] at h
      exact .list (sameItems_of_map_eq (fun v hv w => ih v hv) (Value.list.inj h))
    | _ => cases h
  | dict fields ih =>
    rw [normalize_dict] at h
    cases w with
    | dict fields' =>
      rw [normalize_dict] at h
      have hperm := List.perm_insertionSort (fun a b : Text × Value => a.1 ≤ b.1) fields
      refine .dict hperm.symm (same_of_map_eq (fun a ha w => ?_) (Value.dict.inj h)) (List.perm_insertionSort _ fields')
      exact ih a (hperm.mem_iff.mp ha)
    | _ => cases h

@[refl] theorem Same.refl (v : Value) : Same v v := same_of_normalize_eq rfl

theorem Same.str_inj {s t : Text} (h : Same (.str s) (.str t)) : s = t := by
  cases h
  rfl

theorem SameMembers.member {f g : List (Text × Value)} (h : SameMembers f g) {key : Text} (hv : (key, v) ∈ f) :
    ∃ w, (key, w) ∈ g ∧ Same v w := by
  induction f generalizing g with
  | nil => cases hv
  | cons a f ih =>
    cases h with
    | cons key' hfirst hrest =>
      rcases List.mem_cons.mp hv with heq | hv
      · cases heq
        exact ⟨_, List.mem_cons_self, hfirst⟩
      · obtain ⟨w, hw, hsame⟩ := ih hrest hv
        exact ⟨w, List.mem_cons_of_mem _ hw, hsame⟩

/-- A member of an object has a member of the same key and value in every same object. -/
theorem Same.member {f g : List (Text × Value)} (h : Same (.dict f) (.dict g)) {key : Text} (hv : (key, v) ∈ f) :
    ∃ w, (key, w) ∈ g ∧ Same v w := by
  cases h with
  | dict hf hmembers hg =>
    obtain ⟨w, hw, hsame⟩ := hmembers.member (hf.mem_iff.mp hv)
    exact ⟨w, hg.mem_iff.mp hw, hsame⟩

theorem same_iff (hv : v.Proper T P) (hw : w.Proper T P) : Same v w ↔ normalize v = normalize w :=
  ⟨fun h => h.normalize_eq hv hw, same_of_normalize_eq⟩

/-- Two values have one canonical text exactly when they are the same. -/
theorem dumps_eq_iff (hfloat : FaithfulRepr floatRepr P) (hv : v.Proper ScalarText P) (hw : w.Proper ScalarText P) :
    dumps floatRepr v = dumps floatRepr w ↔ Same v w := by
  refine ⟨fun h => same_of_normalize_eq (dumps_injective hfloat hv hw h), fun h => ?_⟩
  rw [dumps_eq_render, dumps_eq_render, h.normalize_eq hv hw]

end

/-! ### ASCII -/

section

variable {P : Double → Prop} {floatRepr : Double → Text} {v w : Value}

theorem escapeChar_ascii (d : ℕ) : ∀ c ∈ escapeChar d, c < 128 := by
  have hhex : ∀ n : ℕ, hexChar (n % 16) < 128 := by
    intro n
    have hlt : n % 16 < 16 := Nat.mod_lt _ (by omega)
    unfold hexChar
    split <;> omega
  have hunicode : ∀ n, ∀ c ∈ unicodeEscape n, c < 128 := by
    intro n c hc
    simp only [unicodeEscape, List.mem_cons, List.not_mem_nil, or_false] at hc
    rcases hc with rfl | rfl | rfl | rfl | rfl | rfl
    · omega
    · omega
    · exact hhex _
    · exact hhex _
    · exact hhex _
    · exact hhex _
  have hpair : ∀ n < 128, ∀ c ∈ ([92, n] : Text), c < 128 := by
    intro n hn c hc
    simp only [List.mem_cons, List.not_mem_nil, or_false] at hc
    omega
  unfold escapeChar
  split_ifs with h34 h92 h10 h13 h9 h12 h8 hplain hshort
  · exact hpair 34 (by omega)
  · exact hpair 92 (by omega)
  · exact hpair 110 (by omega)
  · exact hpair 114 (by omega)
  · exact hpair 116 (by omega)
  · exact hpair 102 (by omega)
  · exact hpair 98 (by omega)
  · intro c hc
    rw [List.mem_singleton.mp hc]
    omega
  · exact hunicode d
  · exact fun c hc => (List.mem_append.mp hc).elim (hunicode _ c) (hunicode _ c)

theorem dumpString_ascii (s : Text) : ∀ c ∈ dumpString s, c < 128 := by
  intro c hc
  simp only [dumpString, List.mem_cons, List.mem_append, List.mem_flatMap, List.not_mem_nil, or_false] at hc
  rcases hc with rfl | ⟨d, -, hd⟩ | rfl
  · omega
  · exact escapeChar_ascii d c hd
  · omega

theorem mem_commaSeparated {ts : List Text} {c : ℕ} (h : c ∈ commaSeparated ts) : c = 44 ∨ ∃ t ∈ ts, c ∈ t := by
  induction ts with
  | nil => cases h
  | cons t ts ih =>
    cases ts with
    | nil => exact .inr ⟨t, List.mem_cons_self, h⟩
    | cons u us =>
      have hjoin : commaSeparated (t :: u :: us) = t ++ 44 :: commaSeparated (u :: us) := rfl
      rw [hjoin, List.mem_append, List.mem_cons] at h
      rcases h with h | rfl | h
      · exact .inr ⟨t, List.mem_cons_self, h⟩
      · exact .inl rfl
      · rcases ih h with hcomma | ⟨x, hx, hc⟩
        · exact .inl hcomma
        · exact .inr ⟨x, List.mem_cons_of_mem _ hx, hc⟩

theorem render_ascii (hfloat : FaithfulRepr floatRepr P) (hv : v.Proper ScalarText P) : ∀ c ∈ render floatRepr v, c < 128 := by
  have hnumber : ∀ c, isNumberChar c = true → c < 128 := by
    intro c hc
    rcases of_decide_eq_true hc with hc | hc
    · have hle := (of_decide_eq_true hc).2
      omega
    · simp only [List.mem_cons, List.not_mem_nil, or_false] at hc
      omega
  have hliteral : ∀ c ∈ text "null" ++ text "true" ++ text "false", c < 128 := by decide
  induction v using Value.induction with
  | null => exact fun c hc => hliteral c (List.mem_append_left _ (List.mem_append_left _ hc))
  | bool b =>
    cases b with
    | true => exact fun c hc => hliteral c (List.mem_append_left _ (List.mem_append_right _ hc))
    | false => exact fun c hc => hliteral c (List.mem_append_right _ hc)
  | int n => exact fun c hc => hnumber c ((text_int_number n).1 c hc)
  | float x => exact fun c hc => hnumber c (hfloat.number (proper_float.mp hv) c hc)
  | str s => exact dumpString_ascii s
  | list items ih =>
    intro c hc
    rw [render_list, List.mem_cons, List.mem_append, List.mem_singleton] at hc
    rcases hc with rfl | hc | rfl
    · omega
    · rcases mem_commaSeparated hc with rfl | ⟨t, ht, hc⟩
      · omega
      · obtain ⟨a, ha, rfl⟩ := List.mem_map.mp ht
        exact ih a ha (proper_list.mp hv a ha) c hc
    · omega
  | dict fields ih =>
    intro c hc
    rw [render_dict, List.mem_cons, List.mem_append, List.mem_singleton] at hc
    rcases hc with rfl | hc | rfl
    · omega
    · rcases mem_commaSeparated hc with rfl | ⟨t, ht, hc⟩
      · omega
      · obtain ⟨f, hf, rfl⟩ := List.mem_map.mp ht
        simp only [renderMember, dumpMember, List.mem_append, List.mem_cons] at hc
        rcases hc with hc | rfl | hc
        · exact dumpString_ascii f.1 c hc
        · omega
        · exact ih f hf ((proper_dict.mp hv).2 f hf).2 c hc
    · omega

theorem asciiBytes_injective {a b : Text} (ha : ∀ c ∈ a, c < 128) (hb : ∀ c ∈ b, c < 128)
    (h : asciiBytes a = asciiBytes b) : a = b := by
  have hback : ∀ t : Text, (∀ c ∈ t, c < 128) → (asciiBytes t).map UInt8.toNat = t := by
    intro t ht
    rw [asciiBytes, List.map_map]
    refine (List.map_congr_left fun c hc => ?_).trans (List.map_id t)
    have hlt : c < 256 := Nat.lt_trans (ht c hc) (by omega)
    exact UInt8.toNat_ofNat_of_lt' hlt
  rw [← hback a ha, ← hback b hb, h]

/-- The canonical bytes of two values agree exactly when the values are the same. -/
theorem asciiBytes_dumps_eq_iff (hfloat : FaithfulRepr floatRepr P) (hv : v.Proper ScalarText P) (hw : w.Proper ScalarText P) :
    asciiBytes (dumps floatRepr v) = asciiBytes (dumps floatRepr w) ↔ Same v w := by
  rw [← dumps_eq_iff hfloat hv hw]
  refine ⟨asciiBytes_injective ?_ ?_, congrArg asciiBytes⟩
  · rw [dumps_eq_render]
    exact render_ascii hfloat (proper_normalize hv)
  · rw [dumps_eq_render]
    exact render_ascii hfloat (proper_normalize hw)

end

end FireDash.Json
