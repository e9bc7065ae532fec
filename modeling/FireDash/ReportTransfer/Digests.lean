import FireDash.ReportTransfer.DocumentSchema

/-! The digest of a finalized document determines the document and its attachments. -/
namespace FireDash.ReportTransfer

open Json (Text Value Same ScalarText IsScalar FaithfulRepr)
open Publications (Bytes)

/-! ### What is hashed -/

/-- An attachment in the digest. -/
def digestEntry (a : Uuid × Text) : Value := .dict [(Json.text "id", .str a.1), (Json.text "sha256", .str a.2)]

def digestValue (document : Value) (attachmentHashes : List (Uuid × Text)) : Value := .dict [
  (Json.text "profile", .str (Json.text "firedash-report-document-sha256-v1")),
  (Json.text "document", document),
  (Json.text "attachments", .list ((attachmentHashes.insertionSort fun a b => a.1 ≤ b.1).map digestEntry))]

/-- The attachments as `attachment_hashes` names them: the hash of the bytes of every one. -/
def attachmentHashes (settings : Settings) (attachments : List (Uuid × Bytes)) : List (Uuid × Text) :=
  attachments.map fun a => (a.1, settings.sha256Hex a.2)

section

variable {settings : Settings} {document document' : Value} {hashes hashes' : List (Uuid × Text)} {digest digest' : Text}
  {id id' : Uuid}

theorem documentDigest_ok (h : documentDigest settings document hashes = .ok (digest, id)) :
    (∃ reportId, validateDocument settings document reportId hashes = .ok id) ∧
      digest = settings.sha256Hex (canonical settings (digestValue document hashes)) := by
  simp only [documentDigest, bind_eq_ok, pure_eq_ok, Prod.mk.injEq] at h
  obtain ⟨fields, -, id', hvalid, hdigest, rfl⟩ := h
  exact ⟨⟨_, hvalid⟩, hdigest.symm⟩

/-! ### The hashed value -/

theorem same_digestEntry {a b : Uuid × Text} (h : Same (digestEntry a) (digestEntry b)) : a = b := by
  have hfirst : (Json.text "id", Value.str a.1) ∈ [(Json.text "id", Value.str a.1), (Json.text "sha256", .str a.2)] :=
    List.mem_cons_self
  obtain ⟨v, hv, hid⟩ := h.member hfirst
  have hsecond : (Json.text "sha256", Value.str a.2) ∈ [(Json.text "id", Value.str a.1), (Json.text "sha256", .str a.2)] :=
    List.mem_cons_of_mem _ List.mem_cons_self
  obtain ⟨w, hw, hsha⟩ := h.member hsecond
  have hkeys : Json.text "id" ≠ Json.text "sha256" := by decide
  simp only [List.mem_cons, List.not_mem_nil, Prod.mk.injEq, hkeys, hkeys.symm, false_and, true_and, or_false, false_or]
    at hv hw
  subst hv hw
  exact Prod.ext hid.str_inj hsha.str_inj

theorem same_digestEntries {l m : List (Uuid × Text)} (h : Json.SameItems (l.map digestEntry) (m.map digestEntry)) : l = m := by
  induction l generalizing m with
  | nil =>
    cases m with
    | nil => rfl
    | cons b m => cases h
  | cons a l ih =>
    cases m with
    | nil => cases h
    | cons b m =>
      cases h with
      | cons hfirst hrest => rw [same_digestEntry hfirst, ih hrest]

/-- The hashed values are the same when the documents are and the attachments stand in one order. -/
theorem same_digestValue : Same (digestValue document hashes) (digestValue document' hashes') ↔ Same document document' ∧
    hashes.insertionSort (fun a b => a.1 ≤ b.1) = hashes'.insertionSort fun a b => a.1 ≤ b.1 := by
  have hprofile : Json.text "profile" ≠ Json.text "document" ∧ Json.text "profile" ≠ Json.text "attachments" ∧
      Json.text "document" ≠ Json.text "attachments" := by decide
  obtain ⟨hpd, hpa, hda⟩ := hprofile
  constructor
  · intro h
    obtain ⟨v, hv, hdocument⟩ := h.member (List.mem_cons_of_mem _ List.mem_cons_self)
    obtain ⟨w, hw, hattachments⟩ := h.member (List.mem_cons_of_mem _ (List.mem_cons_of_mem _ List.mem_cons_self))
    simp only [List.mem_cons, List.not_mem_nil, Prod.mk.injEq, hpd.symm, hpa.symm, hda, hda.symm, false_and, true_and,
      or_false, false_or] at hv hw
    subst hv hw
    refine ⟨hdocument, ?_⟩
    cases hattachments with
    | list hitems => exact same_digestEntries hitems
  · rintro ⟨hdocument, hsorted⟩
    unfold digestValue
    rw [hsorted]
    exact .dict (.refl _) (.cons _ (.refl _) (.cons _ hdocument (.cons _ (.refl _) .nil))) (.refl _)

/-- A validated document and its attachments are of scalar texts, without floating-point numbers. -/
theorem proper_digestValue (hcontrol : RefusesSurrogates settings) (hdistinct : document.Distinct) {reportId : Option Value}
    (h : validateDocument settings document reportId hashes = .ok id) :
    (digestValue document hashes).Proper ScalarText fun _ => False := by
  obtain ⟨ids, hschema, -, huuids, hperm, hhashes, -, huuid⟩ := validateDocument_ok h
  have hT := admits_scalar hcontrol
  have htame := @tame_document settings ScalarText ⟨8, 16⟩ ids hT le_rfl huuids id huuid
  have hentries : ∀ a ∈ hashes, ScalarText a.1 ∧ ScalarText a.2 := by
    intro a ha
    have hid := hperm.mem_iff.mpr (List.mem_map_of_mem ha)
    exact ⟨hT.ascii _ (isCanonicalUuid_ascii (huuids a.1 hid)), hT.ascii _ (isSha256_ascii (hhashes a ha))⟩
  have hentry : ∀ a ∈ hashes.insertionSort (fun a b => a.1 ≤ b.1), (digestEntry a).Proper ScalarText fun _ => False := by
    intro a ha
    obtain ⟨hid, hsha⟩ := hentries a ((List.perm_insertionSort _ _).mem_iff.mp ha)
    simp only [digestEntry, Json.proper_dict, List.forall_mem_cons, List.map_cons, List.map_nil, Json.proper_str]
    exact ⟨by decide, ⟨Json.Schema.scalarText_text _, hid⟩, ⟨Json.Schema.scalarText_text _, hsha⟩, by simp⟩
  simp only [digestValue, Json.proper_dict, List.forall_mem_cons, List.map_cons, List.map_nil, Json.proper_str, Json.proper_list]
  refine ⟨by decide, ⟨Json.Schema.scalarText_text _, Json.Schema.scalarText_text _⟩,
    ⟨Json.Schema.scalarText_text _, (htame document hdistinct hschema).1⟩, ⟨Json.Schema.scalarText_text _, ?_⟩, by simp⟩
  intro v hv
  obtain ⟨a, ha, rfl⟩ := List.mem_map.mp hv
  exact hentry a ha

/-- The canonical bytes of what is hashed determine it. -/
theorem canonical_digestValue (hcontrol : RefusesSurrogates settings) (hd : document.Distinct) (hd' : document'.Distinct)
    {reportId reportId' : Option Value} (h : validateDocument settings document reportId hashes = .ok id)
    (h' : validateDocument settings document' reportId' hashes' = .ok id') :
    canonical settings (digestValue document hashes) = canonical settings (digestValue document' hashes') ↔
      Same (digestValue document hashes) (digestValue document' hashes') := by
  -- no validated document holds a floating-point number, so nothing is asked of their texts
  have hfloat : FaithfulRepr settings.floatRepr fun _ => False := by
    constructor <;> nofun
  exact Json.asciiBytes_dumps_eq_iff hfloat (proper_digestValue hcontrol hd h) (proper_digestValue hcontrol hd' h')

end

section

variable {settings : Settings} {attachments attachments' : List (Uuid × Bytes)}

/-- The hashes in the order of the identifiers agree when every attachment has one content. -/
theorem sorted_attachmentHashes (hsha : Function.Injective settings.sha256Hex) (hnodup : (attachments.map Prod.fst).Nodup)
    (hnodup' : (attachments'.map Prod.fst).Nodup) :
    (attachmentHashes settings attachments).insertionSort (fun a b => a.1 ≤ b.1) =
        (attachmentHashes settings attachments').insertionSort (fun a b => a.1 ≤ b.1) ↔
      ∀ a, a ∈ attachments ↔ a ∈ attachments' := by
  have hinjective : Function.Injective fun a : Uuid × Bytes => (a.1, settings.sha256Hex a.2) := by
    intro a b heq
    obtain ⟨hid, hhash⟩ := Prod.mk.inj heq
    exact Prod.ext hid (hsha hhash)
  constructor
  · intro heq
    have hperm : (attachmentHashes settings attachments).Perm (attachmentHashes settings attachments') := by
      refine (List.perm_insertionSort (fun a b => a.1 ≤ b.1) _).symm.trans ?_
      rw [heq]
      exact List.perm_insertionSort _ _
    intro a
    have hmem := hperm.mem_iff (a := (a.1, settings.sha256Hex a.2))
    rw [attachmentHashes, attachmentHashes] at hmem
    rwa [List.mem_map_of_injective hinjective, List.mem_map_of_injective hinjective] at hmem
  · intro hmem
    have hperm : attachments.Perm attachments' := (List.perm_ext_iff_of_nodup hnodup.of_map hnodup'.of_map).mpr hmem
    refine Json.sorted_eq_of_perm (hperm.map _) ?_
    rw [attachmentHashes, List.map_map]
    exact hnodup

/-- Two validated documents with attachments have one digest exactly when the documents are the same
JSON value and every attachment has the same bytes in both. -/
theorem documentDigest_eq_iff (hsha : Function.Injective settings.sha256Hex) (hcontrol : RefusesSurrogates settings)
    {document document' : Value} (hd : document.Distinct) (hd' : document'.Distinct)
    (hnodup : (attachments.map Prod.fst).Nodup) (hnodup' : (attachments'.map Prod.fst).Nodup) {digest digest' : Text}
    {id id' : Uuid} (h : documentDigest settings document (attachmentHashes settings attachments) = .ok (digest, id))
    (h' : documentDigest settings document' (attachmentHashes settings attachments') = .ok (digest', id')) :
    digest = digest' ↔ Same document document' ∧ ∀ a, a ∈ attachments ↔ a ∈ attachments' := by
  obtain ⟨⟨reportId, hvalid⟩, rfl⟩ := documentDigest_ok h
  obtain ⟨⟨reportId', hvalid'⟩, rfl⟩ := documentDigest_ok h'
  rw [hsha.eq_iff, canonical_digestValue hcontrol hd hd' hvalid hvalid', same_digestValue,
    sorted_attachmentHashes hsha hnodup hnodup']

end

/-! ### One document, sent twice -/

/-- A hash of 64 characters for short contents: the bytes in hexadecimal after a one, padded with zeros. -/
def paddedHex (bytes : Bytes) : Text :=
  let hex := 49 :: bytes.flatMap fun b => [Json.hexChar (b.toNat / 16), Json.hexChar (b.toNat % 16)]
  List.replicate (64 - hex.length) 48 ++ hex

theorem hexChar_injective : ∀ m < 16, ∀ n < 16, Json.hexChar m = Json.hexChar n → m = n := by decide

theorem paddedHex_injective : Function.Injective paddedHex := by
  have hbytes : Function.Injective fun bytes : Bytes =>
      bytes.flatMap fun b => [Json.hexChar (b.toNat / 16), Json.hexChar (b.toNat % 16)] := by
    intro a
    induction a with
    | nil =>
      intro b h
      cases b with
      | nil => rfl
      | cons y b => simp at h
    | cons x a ih =>
      intro b h
      cases b with
      | nil => simp at h
      | cons y b =>
        simp only [List.flatMap_cons, List.cons_append, List.nil_append, List.cons.injEq] at h
        obtain ⟨hhigh, hlow, hrest⟩ := h
        have hx := x.toNat_lt
        have hy := y.toNat_lt
        have hhigh := hexChar_injective _ (by omega) _ (by omega) hhigh
        have hlow := hexChar_injective _ (by omega) _ (by omega) hlow
        have hbyte : x = y := UInt8.toNat_inj.mp (by omega)
        rw [hbyte, ih hrest]
  have hdrop : ∀ bytes, (paddedHex bytes).dropWhile (· = 48) =
      49 :: bytes.flatMap fun b => [Json.hexChar (b.toNat / 16), Json.hexChar (b.toNat % 16)] := by
    intro bytes
    unfold paddedHex
    dsimp only
    rw [List.dropWhile_append_of_pos]
    · rfl
    · intro c hc
      rw [(List.mem_replicate.mp hc).2]
      rfl
  intro a b h
  refine hbytes ?_
  have hdropped := hdrop a
  rw [h, hdrop b] at hdropped
  exact (List.cons.inj hdropped).2.symm

/-- Surrogates are refused along with the control characters. -/
def digestSettings : Settings where
  __ := sampleSettings
  sha256Hex := paddedHex
  isControl c := c < 32 ∨ ¬(c < 55296 ∨ 57343 < c ∧ c < 1114112)

/-- A report with a field, a table, two pictures and a signature; its members in one of two orders. -/
def sampleDocument (reordered : Bool) : Value :=
  let key : Text × Value := (Json.text "key", .str (Json.text "a"))
  let picture (n : ℕ) : Value := .dict [
    (Json.text "id", .str (uuidText n)), (Json.text "title", .str (Json.text "Picture")), (Json.text "caption", .str [])]
  let number : Value := .dict [(Json.text "type", .str (Json.text "integer")), (Json.text "value", .int 3)]
  let label : Text × Value := (Json.text "label", .str (Json.text "Hoses"))
  let field : Value := .dict (if reordered then [label, (Json.text "value", number), key] else [key, label, (Json.text "value", number)])
  let table : Value := .dict [(Json.text "key", .str (Json.text "b")), (Json.text "kind", .str (Json.text "table")),
    (Json.text "columns", .list [.dict [key, label]]), (Json.text "rows", .list [.list [number]])]
  let pictures : Value := .dict [(Json.text "key", .str (Json.text "c")), (Json.text "kind", .str (Json.text "attachment_refs")),
    (Json.text "attachment_ids", .list [.str (uuidText 8), .str (uuidText 7)])]
  let members : List (Text × Value) := [
    (Json.text "report_id", .str (uuidText 6)),
    (Json.text "schema_version", .int 1),
    (Json.text "report_type", .str (Json.text "incident")),
    (Json.text "title", .str (Json.text "Fire")),
    (Json.text "header", .list [field]),
    (Json.text "sections", .list [.dict [key, (Json.text "title", .str (Json.text "Material")),
      (Json.text "blocks", .list [table, pictures])]]),
    (Json.text "attachments", .list [picture 7, picture 8]),
    (Json.text "finalization", .dict [
      (Json.text "author", .dict [(Json.text "id", .str (Json.text "1")), (Json.text "display_name", .str (Json.text "A"))]),
      (Json.text "finalized_at", .str (Json.text "2026-10-28T14:30:00Z")),
      (Json.text "signature_attachment_id", .str (uuidText 8))])]
  .dict (if reordered then members.reverse else members)

theorem sampleDocument_distinct (reordered : Bool) : (sampleDocument reordered).Distinct := by
  cases reordered <;>
  · simp only [sampleDocument, Value.Distinct, if_true, if_false, Bool.false_eq_true, List.reverse_cons, List.reverse_nil,
      List.nil_append, List.cons_append, Json.proper_dict, Json.proper_list, Json.proper_str, Json.proper_int,
      List.forall_mem_cons, List.map_cons, List.map_nil, List.not_mem_nil, false_implies, implies_true, and_true, true_and]
    decide +kernel

theorem sampleDocument_digest : ∃ digest digest' id id',
    documentDigest digestSettings (sampleDocument false) (attachmentHashes digestSettings [(uuidText 7, [1]), (uuidText 8, [2])]) =
      .ok (digest, id) ∧
    documentDigest digestSettings (sampleDocument true) (attachmentHashes digestSettings [(uuidText 8, [2]), (uuidText 7, [1])]) =
      .ok (digest', id') ∧
    (digest = digest' ↔ Same (sampleDocument false) (sampleDocument true) ∧
      ∀ a, a ∈ [(uuidText 7, [1]), (uuidText 8, [2])] ↔ a ∈ [(uuidText 8, [2]), (uuidText 7, [(1 : UInt8)])]) := by
  have hcontrol : RefusesSurrogates digestSettings := fun c hc => decide_eq_true (.inr hc)
  have hok : (documentDigest digestSettings (sampleDocument false)
      (attachmentHashes digestSettings [(uuidText 7, [1]), (uuidText 8, [2])])).toOption.isSome = true := by decide +kernel
  have hok' : (documentDigest digestSettings (sampleDocument true)
      (attachmentHashes digestSettings [(uuidText 8, [2]), (uuidText 7, [1])])).toOption.isSome = true := by decide +kernel
  cases h : documentDigest digestSettings (sampleDocument false)
      (attachmentHashes digestSettings [(uuidText 7, [1]), (uuidText 8, [2])]) with
  | error e =>
    rw [h] at hok
    cases hok
  | ok first =>
    cases h' : documentDigest digestSettings (sampleDocument true)
        (attachmentHashes digestSettings [(uuidText 8, [2]), (uuidText 7, [1])]) with
    | error e =>
      rw [h'] at hok'
      cases hok'
    | ok second =>
      exact ⟨first.1, second.1, first.2, second.2, rfl, rfl, documentDigest_eq_iff paddedHex_injective hcontrol
        (sampleDocument_distinct false) (sampleDocument_distinct true) (by decide +kernel) (by decide +kernel) h h'⟩

end FireDash.ReportTransfer
