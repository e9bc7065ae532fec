import FireDash.Lib.Json
import Mathlib.Data.List.Lex
import Mathlib.Data.List.Sort

/-! The canonical JSON writer, and a reader that refuses duplicate keys. What the writer makes
of an object of plain texts is what the reader makes that object of. -/
namespace FireDash.Json

/-! ### Writer -/

/-- A lowercase hexadecimal digit. -/
def hexChar (d : ℕ) : ℕ := if d < 10 then 48 + d else 87 + d

def unicodeEscape (c : ℕ) : Text :=
  [92, 117, hexChar (c / 4096 % 16), hexChar (c / 256 % 16), hexChar (c / 16 % 16), hexChar (c % 16)]

/-- A character inside a string, in ASCII. -/
def escapeChar (c : ℕ) : Text :=
  if c = 34 then [92, 34]
  else if c = 92 then [92, 92]
  else if c = 10 then [92, 110]
  else if c = 13 then [92, 114]
  else if c = 9 then [92, 116]
  else if c = 12 then [92, 102]
  else if c = 8 then [92, 98]
  else if 32 ≤ c ∧ c ≤ 126 then [c]
  else if c < 0x10000 then unicodeEscape c
  else unicodeEscape (0xD800 + (c - 0x10000) / 0x400 % 0x400) ++ unicodeEscape (0xDC00 + (c - 0x10000) % 0x400)

def dumpString (s : Text) : Text := 34 :: (s.flatMap escapeChar ++ [34])

def commaSeparated : List Text → Text
  | [] => []
  | [t] => t
  | t :: rest => t ++ 44 :: commaSeparated rest

def dumpMember (f : Text × Text) : Text := dumpString f.1 ++ 58 :: f.2

def dumpObject (fields : List (Text × Text)) : Text :=
  123 :: (commaSeparated ((fields.insertionSort fun a b => a.1 ≤ b.1).map dumpMember) ++ [125])

mutual
/-- `json.dumps` with sorted keys, the shortest separators and ASCII output; `floatRepr` is
`float.__repr__`. -/
def dumps (floatRepr : Double → Text) : Value → Text
  | .null => text "null"
  | .bool true => text "true"
  | .bool false => text "false"
  | .int n => text (toString n)
  | .float x => floatRepr x
  | .str s => dumpString s
  | .list items => 91 :: (commaSeparated (dumpItems floatRepr items) ++ [93])
  | .dict fields => dumpObject (dumpFields floatRepr fields)

def dumpItems (floatRepr : Double → Text) : List Value → List Text
  | [] => []
  | v :: rest => dumps floatRepr v :: dumpItems floatRepr rest

def dumpFields (floatRepr : Double → Text) : List (Text × Value) → List (Text × Text)
  | [] => []
  | (key, v) :: rest => (key, dumps floatRepr v) :: dumpFields floatRepr rest
end

/-! ### Reader -/

/-- The members of an object, up to its brace; a repeated key is refused. -/
def scanUniqueMembers (element : Text → Except Error (Value × Text)) :
    ℕ → List (Text × Value) → Text → Except Error (List (Text × Value) × Text)
  | 0, _, _ => .error .decode
  | fuel + 1, fields, t =>
    match t with
    | 34 :: t => do
      let (key, rest) ← scanString t
      match skipWhitespace rest with
      | 58 :: rest =>
        let (v, rest) ← element (skipWhitespace rest)
        if fields.any fun f => f.1 = key then .error .decode
        else
          match skipWhitespace rest with
          | 125 :: rest => return (fields ++ [(key, v)], rest)
          | 44 :: rest => scanUniqueMembers element fuel (fields ++ [(key, v)]) (skipWhitespace rest)
          | _ => .error .decode
      | _ => .error .decode
    | _ => .error .decode

def scanUniqueObject (element : Text → Except Error (Value × Text)) (t : Text) : Except Error (Value × Text) :=
  match skipWhitespace t with
  | 125 :: rest => .ok (.dict [], rest)
  | t => do
    let (fields, rest) ← scanUniqueMembers element t.length [] t
    return (.dict fields, rest)

/-- A number beyond the range of the finite ones is refused. -/
def finiteScalar : Except Error (Value × Text) → Except Error (Value × Text)
  | .ok (.float (.infinity _), _) => .error .decode
  | r => r

def scanUniqueValue (limits : Limits) (nested : Option (Text → Except Error (Value × Text))) :
    Text → Except Error (Value × Text)
  | 34 :: rest => do
    let (s, rest) ← scanString rest
    return (.str s, rest)
  | 123 :: rest =>
    match nested with
    | some element => scanUniqueObject element rest
    | none => .error .recursion
  | 91 :: rest =>
    match nested with
    | some element => scanArray element rest
    | none => .error .recursion
  | t => finiteScalar (scanScalar limits noConstant t)

def scanUniqueOnce (limits : Limits) : ℕ → Text → Except Error (Value × Text)
  | 0 => scanUniqueValue limits none
  | depth + 1 => scanUniqueValue limits (some (scanUniqueOnce limits depth))

/-- `json.loads` without duplicate keys, without the constants and without infinite numbers. -/
def loadsUnique (limits : Limits) (t : Text) : Except Error Value :=
  if t.head? = some 0xFEFF then .error .decode
  else do
    let (v, rest) ← scanUniqueOnce limits limits.depth (skipWhitespace t)
    if skipWhitespace rest = [] then return v else .error .decode

/-- `text.encode("ascii")`. -/
def asciiBytes (t : Text) : List UInt8 := t.map UInt8.ofNat

/-! ### Objects of plain texts -/

/-- Printable ASCII without the quote and the backslash: written as it is. -/
def Plain (s : Text) : Prop := ∀ c ∈ s, 32 ≤ c ∧ c ≤ 126 ∧ c ≠ 34 ∧ c ≠ 92

theorem escapeChar_plain {c : ℕ} (h : 32 ≤ c ∧ c ≤ 126 ∧ c ≠ 34 ∧ c ≠ 92) : escapeChar c = [c] := by
  unfold escapeChar
  rw [if_neg h.2.2.1, if_neg h.2.2.2, if_neg (by omega), if_neg (by omega), if_neg (by omega), if_neg (by omega),
    if_neg (by omega), if_pos ⟨h.1, h.2.1⟩]

theorem dumpString_plain {s : Text} (h : Plain s) : dumpString s = 34 :: (s ++ [34]) := by
  unfold dumpString
  congr 2
  induction s with
  | nil => rfl
  | cons c s ih =>
    rw [List.flatMap_cons, escapeChar_plain (h c List.mem_cons_self), ih fun d hd => h d (List.mem_cons_of_mem _ hd)]
    rfl

theorem scanString_plain {s : Text} (h : Plain s) (rest : Text) : scanString (s ++ 34 :: rest) = .ok (s, rest) := by
  induction s with
  | nil =>
    rw [List.nil_append]
    unfold scanString
    rfl
  | cons c s ih =>
    obtain ⟨hlow, -, hquote, hslash⟩ := h c List.mem_cons_self
    have htail := ih fun d hd => h d (List.mem_cons_of_mem _ hd)
    rw [List.cons_append, scanString]
    · rw [if_neg (by omega), htail]
      rfl
    · omega
    · omega
    · omega

theorem skipWhitespace_cons {c : ℕ} (h : isWhitespace c = false) (t : Text) : skipWhitespace (c :: t) = c :: t :=
  List.dropWhile_cons_of_neg (by simp [h])

/-- A member whose value is a text. -/
def dumpTextMember (f : Text × Text) : Text := dumpMember (f.1, dumpString f.2)

theorem dumpTextMember_plain {f : Text × Text} (hk : Plain f.1) (hv : Plain f.2) (rest : Text) :
    dumpTextMember f ++ rest = 34 :: (f.1 ++ 34 :: 58 :: 34 :: (f.2 ++ 34 :: rest)) := by
  unfold dumpTextMember dumpMember
  rw [dumpString_plain hk, dumpString_plain hv]
  simp

theorem scanUniqueMembers_text {element : Text → Except Error (Value × Text)}
    (helement : ∀ v rest, Plain v → element (34 :: (v ++ 34 :: rest)) = .ok (.str v, rest)) (f : Text × Text)
    (fs : List (Text × Text)) {fuel : ℕ} (hfuel : fs.length < fuel) {before : List (Text × Value)} (rest : Text)
    (hplain : ∀ g ∈ f :: fs, Plain g.1 ∧ Plain g.2) (hnodup : (before.map Prod.fst ++ (f :: fs).map Prod.fst).Nodup) :
    scanUniqueMembers element fuel before (commaSeparated ((f :: fs).map dumpTextMember) ++ 125 :: rest) =
      .ok (before ++ (f :: fs).map fun g => (g.1, .str g.2), rest) := by
  induction fs generalizing f before fuel with
  | nil =>
    obtain ⟨hk, hv⟩ := hplain f List.mem_cons_self
    obtain ⟨fuel, rfl⟩ : ∃ n, fuel = n + 1 := ⟨fuel - 1, by simp at hfuel; omega⟩
    have hnew : (before.any fun g => g.1 = f.1) = false := by
      simp only [List.any_eq_false, decide_eq_true_eq]
      intro g hg he
      rw [List.nodup_append] at hnodup
      exact hnodup.2.2 g.1 (List.mem_map_of_mem hg) f.1 (by simp) he
    simp only [List.map_cons, List.map_nil, commaSeparated]
    rw [dumpTextMember_plain hk hv]
    simp only [scanUniqueMembers, scanString_plain hk, helement _ _ hv, ok_bind, hnew,
      skipWhitespace_cons (c := 58) (by decide), skipWhitespace_cons (c := 34) (by decide),
      skipWhitespace_cons (c := 125) (by decide), Bool.false_eq_true, if_false]
    rfl
  | cons g gs ih =>
    obtain ⟨hk, hv⟩ := hplain f List.mem_cons_self
    obtain ⟨fuel, rfl⟩ : ∃ n, fuel = n + 1 := ⟨fuel - 1, by omega⟩
    rw [List.length_cons] at hfuel
    have hnew : (before.any fun g => g.1 = f.1) = false := by
      simp only [List.any_eq_false, decide_eq_true_eq]
      intro g hg he
      rw [List.nodup_append] at hnodup
      exact hnodup.2.2 g.1 (List.mem_map_of_mem hg) f.1 (by simp) he
    have hnext := @ih g fuel (by omega) (before ++ [(f.1, .str f.2)])
      (fun d hd => hplain d (List.mem_cons_of_mem _ hd)) (by simpa using hnodup)
    have hopen : ∀ t : Text, ∃ u, commaSeparated ((g :: gs).map dumpTextMember) ++ t = 34 :: u := by
      intro t
      obtain ⟨hgk, hgv⟩ := hplain g (by simp)
      cases gs with
      | nil =>
        simp only [List.map_cons, List.map_nil, commaSeparated]
        exact ⟨_, dumpTextMember_plain hgk hgv t⟩
      | cons d ds =>
        simp only [List.map_cons, commaSeparated, List.append_assoc]
        exact ⟨_, dumpTextMember_plain hgk hgv _⟩
    obtain ⟨u, hu⟩ := hopen (125 :: rest)
    have hjoin : commaSeparated ((f :: g :: gs).map dumpTextMember) =
        dumpTextMember f ++ 44 :: commaSeparated ((g :: gs).map dumpTextMember) := rfl
    rw [hjoin, List.append_assoc, List.cons_append, dumpTextMember_plain hk hv, hu]
    rw [hu] at hnext
    simp only [scanUniqueMembers, scanString_plain hk, helement _ _ hv, ok_bind, hnew, hnext,
      skipWhitespace_cons (c := 58) (by decide), skipWhitespace_cons (c := 34) (by decide),
      skipWhitespace_cons (c := 44) (by decide), Bool.false_eq_true, if_false]
    simp

/-- An object of texts. -/
def textObject (fields : List (Text × Text)) : Value := .dict (fields.map fun f => (f.1, .str f.2))

theorem scanUniqueOnce_text (limits : Limits) (depth : ℕ) {v : Text} (rest : Text) (hv : Plain v) :
    scanUniqueOnce limits depth (34 :: (v ++ 34 :: rest)) = .ok (.str v, rest) := by
  cases depth with
  | zero =>
    simp only [scanUniqueOnce, scanUniqueValue, scanString_plain hv, ok_bind]
    rfl
  | succ depth =>
    simp only [scanUniqueOnce, scanUniqueValue, scanString_plain hv, ok_bind]
    rfl

theorem length_le_commaSeparated (ts : List Text) (h : ∀ t ∈ ts, t ≠ []) : ts.length ≤ (commaSeparated ts).length := by
  induction ts with
  | nil => simp
  | cons t ts ih =>
    have ht : 0 < t.length := List.length_pos_iff.mpr (h t List.mem_cons_self)
    cases ts with
    | nil =>
      simp only [commaSeparated, List.length_cons, List.length_nil]
      omega
    | cons u us =>
      have hrest := ih fun d hd => h d (List.mem_cons_of_mem _ hd)
      have hjoin : commaSeparated (t :: u :: us) = t ++ 44 :: commaSeparated (u :: us) := rfl
      rw [List.length_cons] at hrest
      rw [hjoin, List.length_append, List.length_cons, List.length_cons, List.length_cons]
      omega

theorem loadsUnique_members {limits : Limits} (hdepth : 0 < limits.depth) {fields : List (Text × Text)} (hne : fields ≠ [])
    (hplain : ∀ f ∈ fields, Plain f.1 ∧ Plain f.2) (hnodup : (fields.map Prod.fst).Nodup) :
    loadsUnique limits (123 :: (commaSeparated (fields.map dumpTextMember) ++ [125])) = .ok (textObject fields) := by
  obtain ⟨f, fs, rfl⟩ := List.exists_cons_of_ne_nil hne
  obtain ⟨depth, hd⟩ : ∃ n, limits.depth = n + 1 := ⟨limits.depth - 1, by omega⟩
  have hfuel : fs.length < (commaSeparated ((f :: fs).map dumpTextMember) ++ [125]).length := by
    have hmember : ∀ t ∈ (f :: fs).map dumpTextMember, t ≠ [] := by
      intro t ht
      obtain ⟨g, -, rfl⟩ := List.mem_map.mp ht
      exact List.cons_ne_nil _ _
    have hle := length_le_commaSeparated ((f :: fs).map dumpTextMember) hmember
    rw [List.length_map, List.length_cons] at hle
    rw [List.length_append]
    omega
  have hmembers := @scanUniqueMembers_text (scanUniqueOnce limits depth)
    (fun v rest hv => scanUniqueOnce_text limits depth rest hv) f fs _ hfuel [] [] hplain (by simpa using hnodup)
  have hopen : ∃ u, commaSeparated ((f :: fs).map dumpTextMember) ++ [125] = 34 :: u := by
    obtain ⟨hk, hv⟩ := hplain f List.mem_cons_self
    cases fs with
    | nil => exact ⟨_, dumpTextMember_plain hk hv _⟩
    | cons g gs =>
      simp only [List.map_cons, commaSeparated, List.append_assoc]
      exact ⟨_, dumpTextMember_plain hk hv _⟩
  obtain ⟨u, hu⟩ := hopen
  rw [hu] at hmembers ⊢
  simp only [loadsUnique, hd, scanUniqueOnce, scanUniqueValue, scanUniqueObject, hmembers, ok_bind,
    skipWhitespace_cons (c := 123) (by decide), skipWhitespace_cons (c := 34) (by decide), List.head?_cons]
  rfl

theorem dumps_textObject (floatRepr : Double → Text) (fields : List (Text × Text)) :
    dumps floatRepr (textObject fields) =
      123 :: (commaSeparated ((fields.insertionSort fun a b => a.1 ≤ b.1).map dumpTextMember) ++ [125]) := by
  have hfields : dumpFields floatRepr (fields.map fun f => (f.1, .str f.2)) =
      fields.map fun f => (f.1, dumpString f.2) := by
    induction fields with
    | nil => rfl
    | cons f fs ih =>
      rw [List.map_cons, List.map_cons, ← ih]
      rfl
  have hsort : ((fields.map fun f => (f.1, dumpString f.2)).insertionSort fun a b => a.1 ≤ b.1) =
      (fields.insertionSort fun a b => a.1 ≤ b.1).map fun f => (f.1, dumpString f.2) :=
    (List.map_insertionSort (fun a b : Text × Text => a.1 ≤ b.1) (fun a b : Text × Text => a.1 ≤ b.1)
      (fun f : Text × Text => (f.1, dumpString f.2)) fields fun _ _ _ _ => Iff.rfl).symm
  have hdumps : dumps floatRepr (textObject fields) = dumpObject (dumpFields floatRepr (fields.map fun f => (f.1, .str f.2))) :=
    rfl
  rw [hdumps, hfields]
  unfold dumpObject
  rw [hsort, List.map_map]
  rfl

/-- The reader inverts the writer on objects of plain texts, up to the order of the members. -/
theorem loadsUnique_dumps {limits : Limits} (hdepth : 0 < limits.depth) (floatRepr : Double → Text)
    {fields : List (Text × Text)} (hne : fields ≠ []) (hplain : ∀ f ∈ fields, Plain f.1 ∧ Plain f.2)
    (hnodup : (fields.map Prod.fst).Nodup) : loadsUnique limits (dumps floatRepr (textObject fields)) =
      .ok (textObject (fields.insertionSort fun a b => a.1 ≤ b.1)) := by
  have hperm := List.perm_insertionSort (fun a b : Text × Text => a.1 ≤ b.1) fields
  rw [dumps_textObject]
  refine loadsUnique_members hdepth ?_ ?_ ?_
  · intro he
    rw [he] at hperm
    exact hne hperm.symm.eq_nil
  · intro f hf
    exact hplain f (hperm.mem_iff.mp hf)
  · exact (hperm.map Prod.fst).nodup_iff.mpr hnodup

end FireDash.Json
