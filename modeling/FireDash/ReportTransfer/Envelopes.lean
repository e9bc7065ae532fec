import FireDash.ReportTransfer.Submissions
import Mathlib.Data.List.Perm.Basic

/-! The canonical bytes of an envelope and its members determine each other. -/
namespace FireDash.ReportTransfer

open Base64 (isUrlSafe)
open Json (Text Value Plain)
open Publications (Bytes)

/-- The members of an envelope. -/
def Jwe.members (jwe : Jwe) : List (Text × Text) :=
  [(Json.text "protected", jwe.protectedHeader), (Json.text "encrypted_key", jwe.encryptedKey), (Json.text "iv", jwe.iv),
    (Json.text "ciphertext", jwe.ciphertext), (Json.text "tag", jwe.tag)]

/-- All five members are written as they are. -/
def Jwe.IsPlain (jwe : Jwe) : Prop := ∀ f ∈ jwe.members, Plain f.2

theorem jwe_keys (jwe : Jwe) : jwe.members.map Prod.fst = jweFields := rfl

theorem nodup_jweFields : jweFields.Nodup := by decide

theorem plain_jweFields : ∀ name ∈ jweFields, Plain name := by
  unfold Plain
  decide

/-! ### Lookups -/

theorem lookup_eq_some {fields : Fields} {name : Text} {v : Value} (h : lookup fields name = some v) :
    (name, v) ∈ fields := by
  unfold lookup at h
  obtain ⟨⟨key, w⟩, hf, rfl⟩ := Option.map_eq_some_iff.mp h
  have hkey := List.find?_some hf
  simp only [decide_eq_true_eq] at hkey
  subst hkey
  exact List.mem_of_find?_eq_some hf

theorem lookup_of_mem {fields : Fields} (hnodup : (fields.map Prod.fst).Nodup) {name : Text} {v : Value}
    (h : (name, v) ∈ fields) : lookup fields name = some v := by
  unfold lookup
  cases hf : fields.find? fun f => f.1 = name with
  | none =>
    have hno := List.find?_eq_none.mp hf (name, v) h
    simp at hno
  | some g =>
    have hkey := List.find?_some hf
    simp only [decide_eq_true_eq] at hkey
    have hmem := List.mem_of_find?_eq_some hf
    have hsame : g = (name, v) := List.inj_on_of_nodup_map hnodup hmem h hkey
    rw [hsame]
    rfl

theorem textField_ok {fields : Fields} {name s : Text} (h : textField fields name = .ok s) : (name, .str s) ∈ fields := by
  unfold textField at h
  cases hl : lookup fields name with
  | none =>
    rw [hl] at h
    cases h
  | some v =>
    rw [hl] at h
    cases v with
    | str t =>
      cases h
      exact lookup_eq_some hl
    | _ => cases h

theorem require_eq_ok {c : Prop} [Decidable c] {u : Unit} : require c = .ok u ↔ c := by
  unfold require
  by_cases h : c
  · simp [h]
  · simp [h]

/-! ### Reading the members -/

theorem readJwe_members {envelope : Value} {jwe : Jwe} (h : readJwe envelope = .ok jwe) :
    ∃ fields, envelope = .dict fields ∧ (fields.map Prod.fst).Perm jweFields ∧
      ∀ f ∈ jwe.members, (f.1, Value.str f.2) ∈ fields := by
  unfold readJwe at h
  simp only [bind_eq_ok, require_eq_ok, pure_eq_ok] at h
  obtain ⟨fields, hdict, -, hexactly, p, hp, k, hk, i, hi, c, hc, t, ht, rfl⟩ := h
  cases envelope with
  | dict members =>
    cases hdict
    refine ⟨fields, rfl, List.isPerm_iff.mp hexactly, ?_⟩
    intro f hf
    simp only [Jwe.members, List.mem_cons, List.not_mem_nil, or_false] at hf
    rcases hf with rfl | rfl | rfl | rfl | rfl
    · exact textField_ok hp
    · exact textField_ok hk
    · exact textField_ok hi
    · exact textField_ok hc
    · exact textField_ok ht
  | _ => cases hdict

/-- The members of an envelope are those read from it, in some order. -/
theorem perm_members {fields : Fields} {jwe : Jwe} (hkeys : (fields.map Prod.fst).Perm jweFields)
    (hmem : ∀ f ∈ jwe.members, (f.1, Value.str f.2) ∈ fields) :
    fields.Perm (jwe.members.map fun f => (f.1, .str f.2)) := by
  have hnodup : (fields.map Prod.fst).Nodup := hkeys.nodup_iff.mpr nodup_jweFields
  have hmembers : (jwe.members.map fun f => (f.1, Value.str f.2)).Nodup := by
    refine List.Nodup.of_map Prod.fst ?_
    rw [List.map_map]
    exact nodup_jweFields
  rw [List.perm_ext_iff_of_nodup hnodup.of_map hmembers]
  rintro ⟨name, v⟩
  constructor
  · intro h
    have hname : name ∈ jwe.members.map Prod.fst := by
      rw [jwe_keys]
      exact hkeys.mem_iff.mp (List.mem_map_of_mem (f := Prod.fst) h)
    obtain ⟨f, hf, rfl⟩ := List.mem_map.mp hname
    have hsame : (f.1, v) = (f.1, Value.str f.2) := List.inj_on_of_nodup_map hnodup h (hmem f hf) rfl
    rw [hsame]
    exact List.mem_map.mpr ⟨f, hf, rfl⟩
  · intro h
    obtain ⟨f, hf, he⟩ := List.mem_map.mp h
    rw [← he]
    exact hmem f hf

theorem readJwe_of_perm {fields : Fields} {jwe : Jwe} (h : fields.Perm (jwe.members.map fun f => (f.1, .str f.2))) :
    readJwe (.dict fields) = .ok jwe := by
  have hkeys : (fields.map Prod.fst).Perm jweFields := by
    have hmap := h.map Prod.fst
    rw [List.map_map] at hmap
    exact hmap
  have hnodup : (fields.map Prod.fst).Nodup := hkeys.nodup_iff.mpr nodup_jweFields
  have hfield : ∀ f ∈ jwe.members, textField fields f.1 = .ok f.2 := by
    intro f hf
    unfold textField
    rw [lookup_of_mem hnodup (h.mem_iff.mpr (List.mem_map_of_mem (f := fun f => (f.1, Value.str f.2)) hf))]
    rfl
  have hexactly : hasExactly jweFields fields = true := List.isPerm_iff.mpr hkeys
  simp only [readJwe, asDict, ok_bind, require, hexactly, if_true]
  rw [hfield (Json.text "protected", jwe.protectedHeader) (by simp [Jwe.members]),
    hfield (Json.text "encrypted_key", jwe.encryptedKey) (by simp [Jwe.members]),
    hfield (Json.text "iv", jwe.iv) (by simp [Jwe.members]),
    hfield (Json.text "ciphertext", jwe.ciphertext) (by simp [Jwe.members]),
    hfield (Json.text "tag", jwe.tag) (by simp [Jwe.members])]
  rfl

/-! ### Canonical bytes -/

/-- The members in the order of their names. -/
def Jwe.sorted (jwe : Jwe) : List (Text × Text) := jwe.members.insertionSort fun a b => a.1 ≤ b.1

theorem perm_sorted (jwe : Jwe) : jwe.sorted.Perm jwe.members := List.perm_insertionSort _ _

/-- Lists of members that agree up to their order agree once they are sorted. -/
theorem insertionSort_eq_of_perm {l l' : List (Text × Text)} (h : l.Perm l') (hnodup : (l.map Prod.fst).Nodup) :
    (l.insertionSort fun a b => a.1 ≤ b.1) = l'.insertionSort fun a b => a.1 ≤ b.1 := by
  have hsorted : ∀ m : List (Text × Text), (m.insertionSort fun a b => a.1 ≤ b.1).Pairwise fun a b => a.1 ≤ b.1 :=
    fun m => List.pairwise_insertionSort _ m
  have hperm : (l.insertionSort fun a b => a.1 ≤ b.1).Perm (l'.insertionSort fun a b => a.1 ≤ b.1) :=
    (List.perm_insertionSort _ l).trans (h.trans (List.perm_insertionSort _ l').symm)
  refine List.Perm.eq_of_pairwise ?_ (hsorted l) (hsorted l') hperm
  intro a b ha hb hab hba
  have hl : a ∈ l := (List.perm_insertionSort _ l).mem_iff.mp ha
  have hl' : b ∈ l := h.mem_iff.mpr ((List.perm_insertionSort _ l').mem_iff.mp hb)
  exact List.inj_on_of_nodup_map hnodup hl hl' (le_antisymm hab hba)

/-- The text whose bytes an envelope is stored as. -/
def Jwe.text (settings : Settings) (jwe : Jwe) : Text := Json.dumps settings.floatRepr (Json.textObject jwe.members)

/-- The canonical bytes depend on the members only. -/
theorem canonical_eq (settings : Settings) {envelope : Value} {jwe : Jwe} (h : readJwe envelope = .ok jwe) :
    canonical settings envelope = Json.asciiBytes (jwe.text settings) := by
  obtain ⟨fields, rfl, hkeys, hmem⟩ := readJwe_members h
  have hperm := perm_members hkeys hmem
  have htexts : ∃ texts : List (Text × Text), fields = texts.map fun f => (f.1, Value.str f.2) := by
    have hall : ∀ f ∈ fields, ∃ g : Text × Text, (g.1, Value.str g.2) = f := by
      intro f hf
      obtain ⟨g, -, hg⟩ := List.mem_map.mp (hperm.mem_iff.mp hf)
      exact ⟨g, hg⟩
    clear hkeys hmem hperm h
    induction fields with
    | nil => exact ⟨[], rfl⟩
    | cons f fs ih =>
      obtain ⟨g, hg⟩ := hall f List.mem_cons_self
      obtain ⟨texts, rfl⟩ := ih fun d hd => hall d (List.mem_cons_of_mem _ hd)
      exact ⟨g :: texts, by rw [List.map_cons, hg]⟩
  obtain ⟨texts, rfl⟩ := htexts
  have hinj : Function.Injective fun f : Text × Text => (f.1, Value.str f.2) := by
    rintro ⟨a, b⟩ ⟨c, d⟩ he
    simpa using he
  have hsame : texts.Perm jwe.members := (List.map_perm_map_iff hinj).mp hperm
  have hnodup : (texts.map Prod.fst).Nodup := by
    rw [(hsame.map Prod.fst).nodup_iff]
    exact nodup_jweFields
  unfold canonical Jwe.text
  have hdict : Value.dict (texts.map fun f => (f.1, Value.str f.2)) = Json.textObject texts := rfl
  rw [hdict, Json.dumps_textObject, Json.dumps_textObject, insertionSort_eq_of_perm hsame hnodup]

/-! ### Reading canonical bytes back -/

theorem isUrlSafe_plain {t : Text} (h : t.all isUrlSafe = true) : Plain t := by
  intro c hc
  have hsafe := List.all_eq_true.mp h c hc
  unfold isUrlSafe at hsafe
  simp only [decide_eq_true_eq] at hsafe
  omega

theorem decode_plain {t : Text} {raw : Bytes} (h : decode t = .ok raw) : Plain t := by
  unfold decode at h
  simp only [bind_eq_ok, require_eq_ok] at h
  obtain ⟨-, ⟨-, hsafe⟩, -⟩ := h
  exact isUrlSafe_plain hsafe

/-- A backslash is what every character that is not plain is written with. -/
theorem plain_of_escapeChar {c : ℕ} (h : 92 ∉ Json.escapeChar c) : 32 ≤ c ∧ c ≤ 126 ∧ c ≠ 34 ∧ c ≠ 92 := by
  unfold Json.escapeChar at h
  split_ifs at h with h1 h2 h3 h4 h5 h6 h7 h8 h9
  all_goals first
    | exact ⟨h8.1, h8.2, h1, h2⟩
    | exact absurd (by simp [Json.unicodeEscape]) h

theorem plain_of_dumpString {t : Text} (h : 92 ∉ Json.dumpString t) : Plain t := by
  intro c hc
  refine plain_of_escapeChar fun hmem => h ?_
  unfold Json.dumpString
  refine List.mem_cons_of_mem _ (List.mem_append_left _ ?_)
  exact List.mem_flatMap.mpr ⟨c, hc, hmem⟩

theorem mem_commaSeparated {ts : List Text} {t : Text} (ht : t ∈ ts) {c : ℕ} (hc : c ∈ t) : c ∈ Json.commaSeparated ts := by
  induction ts with
  | nil => cases ht
  | cons u us ih =>
    cases us with
    | nil =>
      obtain rfl := List.mem_singleton.mp ht
      exact hc
    | cons v vs =>
      have hjoin : Json.commaSeparated (u :: v :: vs) = u ++ 44 :: Json.commaSeparated (v :: vs) := rfl
      rw [hjoin]
      rcases List.mem_cons.mp ht with rfl | ht
      · exact List.mem_append_left _ hc
      · exact List.mem_append_right _ (List.mem_cons_of_mem _ (ih ht))

theorem of_mem_commaSeparated {ts : List Text} {c : ℕ} (hc : c ∈ Json.commaSeparated ts) : c = 44 ∨ ∃ t ∈ ts, c ∈ t := by
  induction ts with
  | nil => cases hc
  | cons u us ih =>
    cases us with
    | nil => exact .inr ⟨u, List.mem_cons_self, hc⟩
    | cons v vs =>
      have hjoin : Json.commaSeparated (u :: v :: vs) = u ++ 44 :: Json.commaSeparated (v :: vs) := rfl
      rw [hjoin, List.mem_append, List.mem_cons] at hc
      rcases hc with hc | hc | hc
      · exact .inr ⟨u, List.mem_cons_self, hc⟩
      · exact .inl hc
      · rcases ih hc with h | ⟨t, ht, h⟩
        · exact .inl h
        · exact .inr ⟨t, List.mem_cons_of_mem _ ht, h⟩

theorem text_eq (settings : Settings) (jwe : Jwe) :
    jwe.text settings = 123 :: (Json.commaSeparated (jwe.sorted.map Json.dumpTextMember) ++ [125]) :=
  Json.dumps_textObject _ _

theorem sorted_plain {jwe : Jwe} (h : jwe.IsPlain) : ∀ f ∈ jwe.sorted, Plain f.1 ∧ Plain f.2 := by
  intro f hf
  have hmem := (perm_sorted jwe).mem_iff.mp hf
  refine ⟨plain_jweFields f.1 ?_, h f hmem⟩
  rw [← jwe_keys jwe]
  exact List.mem_map_of_mem hmem

theorem dumpTextMember_nil {f : Text × Text} (hk : Plain f.1) (hv : Plain f.2) :
    Json.dumpTextMember f = 34 :: (f.1 ++ 34 :: 58 :: 34 :: (f.2 ++ [34])) := by
  have h := Json.dumpTextMember_plain hk hv []
  rwa [List.append_nil] at h

theorem mem_text {settings : Settings} {jwe : Jwe} (h : jwe.IsPlain) {c : ℕ} (hc : c ∈ jwe.text settings) :
    32 ≤ c ∧ c ≤ 126 ∧ c ≠ 92 := by
  rw [text_eq, List.mem_cons, List.mem_append, List.mem_singleton] at hc
  rcases hc with rfl | hc | rfl
  · omega
  · rcases of_mem_commaSeparated hc with rfl | ⟨t, ht, hct⟩
    · omega
    · obtain ⟨f, hf, rfl⟩ := List.mem_map.mp ht
      obtain ⟨hk, hv⟩ := sorted_plain h f hf
      have hmember := dumpTextMember_nil hk hv
      rw [hmember] at hct
      simp only [List.mem_cons, List.mem_append, List.not_mem_nil, or_false] at hct
      rcases hct with rfl | hct | rfl | rfl | rfl | hct | rfl
      · omega
      · exact ⟨(hk c hct).1, (hk c hct).2.1, (hk c hct).2.2.2⟩
      · omega
      · omega
      · omega
      · exact ⟨(hv c hct).1, (hv c hct).2.1, (hv c hct).2.2.2⟩
      · omega
  · omega

/-- An envelope written without a backslash is plain. -/
theorem plain_of_text {settings : Settings} {jwe : Jwe} (h : 92 ∉ jwe.text settings) : jwe.IsPlain := by
  intro f hf
  refine plain_of_dumpString fun hmem => h ?_
  rw [text_eq]
  refine List.mem_cons_of_mem _ (List.mem_append_left _ ?_)
  have hsorted : f ∈ jwe.sorted := (perm_sorted jwe).mem_iff.mpr hf
  refine mem_commaSeparated (List.mem_map_of_mem hsorted) ?_
  unfold Json.dumpTextMember Json.dumpMember
  exact List.mem_append_right _ (List.mem_cons_of_mem _ hmem)

theorem decodeUtf8_ascii {t : Text} (h : ∀ c ∈ t, c ≤ 126) : Json.decodeUtf8 (Json.asciiBytes t) = some t := by
  induction t with
  | nil => rfl
  | cons c t ih =>
    have hc := h c List.mem_cons_self
    have hsmall : UInt8.ofNat c < 0x80 := by
      rw [UInt8.lt_iff_toNat_lt, UInt8.toNat_ofNat_of_lt' (show c < 256 by omega)]
      exact show c < 128 by omega
    have hcons : Json.asciiBytes (c :: t) = UInt8.ofNat c :: Json.asciiBytes t := rfl
    rw [hcons, Json.decodeUtf8.eq_def]
    simp only [if_pos hsmall]
    rw [ih fun d hd => h d (List.mem_cons_of_mem _ hd),
      UInt8.toNat_ofNat_of_lt' (show c < 256 by omega)]
    rfl

/-- ASCII bytes determine their text. -/
theorem asciiBytes_inj {t u : Text} (ht : ∀ c ∈ t, c ≤ 126) (hu : ∀ c ∈ u, c ≤ 126)
    (h : Json.asciiBytes t = Json.asciiBytes u) : t = u := by
  have hdecode := decodeUtf8_ascii ht
  rw [h, decodeUtf8_ascii hu] at hdecode
  exact (Option.some.inj hdecode).symm

/-- What the reader makes of the stored text of a plain envelope. -/
theorem loadsUnique_text {settings : Settings} (hdepth : 0 < settings.jsonLimits.depth) {jwe : Jwe} (h : jwe.IsPlain) :
    Json.loadsUnique settings.jsonLimits (jwe.text settings) = .ok (Json.textObject jwe.sorted) := by
  refine Json.loadsUnique_dumps hdepth _ (List.cons_ne_nil _ _) ?_ nodup_jweFields
  intro f hf
  exact sorted_plain h f ((perm_sorted jwe).mem_iff.mpr hf)

theorem parseJson_text {settings : Settings} (hdepth : 0 < settings.jsonLimits.depth) {jwe : Jwe} (h : jwe.IsPlain) :
    parseJson settings (Json.asciiBytes (jwe.text settings)) = .ok (Json.textObject jwe.sorted) := by
  unfold parseJson
  rw [decodeUtf8_ascii fun c hc => (mem_text h hc).2.1]
  simp only [loadsUnique_text hdepth h]

theorem readJwe_sorted (jwe : Jwe) : readJwe (Json.textObject jwe.sorted) = .ok jwe :=
  readJwe_of_perm ((perm_sorted jwe).map _)

/-- The stored text of a plain envelope determines its members. -/
theorem eq_of_text {settings : Settings} (hdepth : 0 < settings.jsonLimits.depth) {jwe jwe' : Jwe} (h : jwe.IsPlain)
    (h' : jwe'.IsPlain) (ht : jwe.text settings = jwe'.text settings) : jwe = jwe' := by
  have hload := loadsUnique_text hdepth h
  rw [ht, loadsUnique_text hdepth h'] at hload
  have hread := readJwe_sorted jwe
  rw [← Except.ok.inj hload, readJwe_sorted jwe'] at hread
  exact (Except.ok.inj hread).symm

/-! ### Inspected and decrypted envelopes -/

theorem scanMagnitude_ne_dict {limits : Json.Limits} {negative : Bool} {t rest : Text} {fields : Fields} :
    Json.scanMagnitude limits negative t ≠ .ok (.dict fields, rest) := by
  intro h
  unfold Json.scanMagnitude at h
  dsimp only at h
  split_ifs at h <;> cases h

theorem scanScalar_ne_dict {limits : Json.Limits} {t rest : Text} {fields : Fields} :
    Json.scanScalar limits Json.noConstant t ≠ .ok (.dict fields, rest) := by
  intro h
  unfold Json.scanScalar at h
  split at h
  case h_7 =>
    unfold Json.scanNumber at h
    split at h
    · exact scanMagnitude_ne_dict h
    · exact scanMagnitude_ne_dict h
  all_goals cases h

/-- An object is read at a positive depth only. -/
theorem depth_pos {limits : Json.Limits} {t : Text} {fields : Fields} (h : Json.loadsUnique limits t = .ok (.dict fields)) :
    0 < limits.depth := by
  rcases Nat.eq_zero_or_pos limits.depth with hzero | hpos
  · exfalso
    unfold Json.loadsUnique at h
    rw [hzero] at h
    split at h
    · cases h
    · simp only [bind_eq_ok, Json.scanUniqueOnce] at h
      obtain ⟨⟨v, rest⟩, hscan, h⟩ := h
      split at h
      · obtain rfl : v = .dict fields := pure_eq_ok.mp h
        unfold Json.scanUniqueValue at hscan
        split at hscan
        · simp only [bind_eq_ok, pure_eq_ok] at hscan
          obtain ⟨a, -, he⟩ := hscan
          cases he
        · cases hscan
        · cases hscan
        · unfold Json.finiteScalar at hscan
          split at hscan
          · cases hscan
          · exact scanScalar_ne_dict hscan
      · cases h
  · exact hpos

theorem inspectEnvelope_ok {settings : Settings} {envelope : Value} {jwe : Jwe} {header : Header}
    (h : inspectEnvelope settings envelope = .ok (jwe, header)) :
    readJwe envelope = .ok jwe ∧ Plain jwe.protectedHeader ∧ 0 < settings.jsonLimits.depth := by
  unfold inspectEnvelope at h
  simp only [bind_eq_ok, require_eq_ok, pure_eq_ok, Prod.mk.injEq] at h
  obtain ⟨j, hread, -, -, raw, hraw, value, hparse, head, hhead, rfl, rfl⟩ := h
  refine ⟨hread, decode_plain hraw, ?_⟩
  unfold parseJson at hparse
  split at hparse
  · cases hparse
  · split at hparse
    · rename_i v hloads
      cases hparse
      unfold readHeader at hhead
      simp only [bind_eq_ok] at hhead
      obtain ⟨fields, hdict, -⟩ := hhead
      cases value with
      | dict members => exact depth_pos hloads
      | _ => cases hdict
    · cases hparse

theorem decryptAndValidate_ok {settings : Settings} {jwe : Jwe} {header : Header} {package : Package}
    (h : decryptAndValidate settings jwe header = .ok package) :
    Plain jwe.encryptedKey ∧ Plain jwe.iv ∧ Plain jwe.ciphertext ∧ Plain jwe.tag := by
  unfold decryptAndValidate at h
  split at h
  · cases h
  · split at h
    · cases h
    · simp only [bind_eq_ok] at h
      obtain ⟨wrapped, hwrapped, iv, hiv, ciphertext, hciphertext, tag, htag, -⟩ := h
      exact ⟨decode_plain hwrapped, decode_plain hiv, decode_plain hciphertext, decode_plain htag⟩

/-- An envelope that decrypts is plain. -/
theorem isPlain_of_decrypted {settings : Settings} {envelope : Value} {jwe : Jwe} {header : Header} {package : Package}
    (hinspect : inspectEnvelope settings envelope = .ok (jwe, header))
    (hdecrypt : decryptAndValidate settings jwe header = .ok package) : jwe.IsPlain := by
  obtain ⟨-, hprotected, -⟩ := inspectEnvelope_ok hinspect
  obtain ⟨hkey, hiv, hciphertext, htag⟩ := decryptAndValidate_ok hdecrypt
  intro f hf
  simp only [Jwe.members, List.mem_cons, List.not_mem_nil, or_false] at hf
  rcases hf with rfl | rfl | rfl | rfl | rfl
  · exact hprotected
  · exact hkey
  · exact hiv
  · exact hciphertext
  · exact htag

/-- The inspection of an envelope depends on its members only. -/
theorem inspectEnvelope_congr {settings : Settings} {envelope envelope' : Value} {jwe : Jwe}
    (h : readJwe envelope = .ok jwe) (h' : readJwe envelope' = .ok jwe) :
    inspectEnvelope settings envelope = inspectEnvelope settings envelope' := by
  unfold inspectEnvelope
  rw [h, h']

/-- The stored bytes of an accepted envelope are read as that envelope. -/
theorem inspect_stored {settings : Settings} {envelope : Value} {jwe : Jwe} {header : Header} {package : Package}
    (hinspect : inspectEnvelope settings envelope = .ok (jwe, header))
    (hdecrypt : decryptAndValidate settings jwe header = .ok package) :
    ∃ stored, parseJson settings (canonical settings envelope) = .ok stored ∧
      inspectEnvelope settings stored = .ok (jwe, header) := by
  obtain ⟨hread, -, hdepth⟩ := inspectEnvelope_ok hinspect
  have hplain := isPlain_of_decrypted hinspect hdecrypt
  refine ⟨Json.textObject jwe.sorted, ?_, ?_⟩
  · rw [canonical_eq settings hread, parseJson_text hdepth hplain]
  · rw [inspectEnvelope_congr (readJwe_sorted jwe) hread, hinspect]

/-! ### Equal bytes -/

theorem unicodeEscape_le (c : ℕ) : ∀ d ∈ Json.unicodeEscape c, d ≤ 126 := by
  have hhex : ∀ n, Json.hexChar (n % 16) ≤ 126 := by
    intro n
    unfold Json.hexChar
    split_ifs <;> omega
  intro d hd
  simp only [Json.unicodeEscape, List.mem_cons, List.not_mem_nil, or_false] at hd
  rcases hd with rfl | rfl | rfl | rfl | rfl | rfl
  · omega
  · omega
  all_goals exact hhex _

theorem escapeChar_le (c : ℕ) : ∀ d ∈ Json.escapeChar c, d ≤ 126 := by
  intro d hd
  unfold Json.escapeChar at hd
  split_ifs at hd
  all_goals first
    | exact unicodeEscape_le c d hd
    | exact (List.mem_append.mp hd).elim (unicodeEscape_le _ d) (unicodeEscape_le _ d)
    | simp only [List.mem_cons, List.not_mem_nil, or_false] at hd
      omega

theorem dumpString_le (t : Text) : ∀ c ∈ Json.dumpString t, c ≤ 126 := by
  intro c hc
  unfold Json.dumpString at hc
  simp only [List.mem_cons, List.mem_append, List.mem_flatMap, List.not_mem_nil, or_false] at hc
  rcases hc with rfl | ⟨d, -, hd⟩ | rfl
  · omega
  · exact escapeChar_le d c hd
  · omega

theorem text_le (settings : Settings) (jwe : Jwe) : ∀ c ∈ jwe.text settings, c ≤ 126 := by
  intro c hc
  rw [text_eq, List.mem_cons, List.mem_append, List.mem_singleton] at hc
  rcases hc with rfl | hc | rfl
  · omega
  · rcases of_mem_commaSeparated hc with rfl | ⟨t, ht, hct⟩
    · omega
    · obtain ⟨f, -, rfl⟩ := List.mem_map.mp ht
      unfold Json.dumpTextMember Json.dumpMember at hct
      rcases List.mem_append.mp hct with hct | hct
      · exact dumpString_le _ c hct
      · rcases List.mem_cons.mp hct with rfl | hct
        · omega
        · exact dumpString_le _ c hct
  · omega

/-- An envelope with the bytes of one that decrypts has its members and its header. -/
theorem inspected_of_canonical {settings : Settings} {envelope stored : Value} {jwe jwe' : Jwe} {header header' : Header}
    {package : Package} (hinspect : inspectEnvelope settings envelope = .ok (jwe, header))
    (hstored : inspectEnvelope settings stored = .ok (jwe', header'))
    (hdecrypt : decryptAndValidate settings jwe' header' = .ok package)
    (hbytes : canonical settings envelope = canonical settings stored) : jwe = jwe' ∧ header = header' := by
  obtain ⟨hread, -, hdepth⟩ := inspectEnvelope_ok hinspect
  obtain ⟨hread', -, -⟩ := inspectEnvelope_ok hstored
  have hplain := isPlain_of_decrypted hstored hdecrypt
  rw [canonical_eq settings hread, canonical_eq settings hread'] at hbytes
  have htext := asciiBytes_inj (text_le settings jwe) (text_le settings jwe') hbytes
  have hclear : 92 ∉ jwe.text settings := by
    rw [htext]
    exact fun h => (mem_text hplain h).2.2 rfl
  obtain rfl := eq_of_text hdepth (plain_of_text hclear) hplain htext
  rw [inspectEnvelope_congr hread hread', hstored] at hinspect
  cases hinspect
  exact ⟨rfl, rfl⟩

end FireDash.ReportTransfer
