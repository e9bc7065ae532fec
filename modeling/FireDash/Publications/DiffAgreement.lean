import FireDash.Publications.Diffs

/-! When a source diff agrees with the source fingerprints. -/
namespace FireDash.Publications.Diffs
open Json (Double FaithfulRepr Record Regular Schema Text Value Writer field text)
open Payloads (Fields IsPayload Settings compared idOf itemsOf sourceFingerprintForPayload)

/-- The records of a payload: the items of its arrays. -/
def records (payload : Fields) : List Value := payload.flatMap fun f => itemsOf (some f.2)

/-- Every added, removed and changed record is counted once. -/
structure Counted (d : SourceDiff) (before after : Fields) : Prop where
  added : d.added = Set.ncard {id | id ∈ (records after).map idOf ∧ id ∉ (records before).map idOf}
  removed : d.removed = Set.ncard {id | id ∈ (records before).map idOf ∧ id ∉ (records after).map idOf}
  changed : d.changed =
    Set.ncard {id | ∃ old ∈ records before, ∃ new ∈ records after, idOf old = id ∧ idOf new = id ∧ old ≠ new}

/-- No difference is reported exactly for one fingerprint, and otherwise every record is counted. -/
def Agrees (settings : Settings) (writer : Writer) (before after : Fields) : Prop :=
  ∃ d, sourceDiff writer before after = .ok d ∧
    (d.total = 0 ↔ sourceFingerprintForPayload settings before = sourceFingerprintForPayload settings after) ∧
    (sourceFingerprintForPayload settings before ≠ sourceFingerprintForPayload settings after → Counted d before after)

/-- What a diff can show. A hydrant or a plan may not change in the sign of a zero coordinate only;
people may not change in how often they are listed only, or the station itself; nothing may change
in a phonebook, in an uploaded source, or in what tablets receive of a file library. -/
def Showable (code : DatasetTypeCode) (before after : Fields) : Prop :=
  match code with
  | .departmentHydrants | .departmentFirePlans | .departmentKlgvPlans =>
    ∀ old ∈ records before, ∀ new ∈ records after, idOf old = idOf new → Json.eq old new = true → old = new
  | .stationPersonnel => (∀ person, person ∈ records before ↔ person ∈ records after) → before = after
  | .departmentFiles | .stationFiles => Payloads.LogicallyEqual before after
  | _ => before = after

section

variable {P : Double → Prop} {settings : Settings} {writer : Writer} {columns : List (String × Schema)} {l m : List Value}
  {before after : Fields} {code : DatasetTypeCode}

/-- Ordered rows without repetition are determined by which rows they are. -/
theorem rows_eq_of_mem_iff (hl : Payloads.Rows columns l) (hm : Payloads.Rows columns m) (hlnodup : l.Nodup) (hmnodup : m.Nodup)
    (h : ∀ v, v ∈ l ↔ v ∈ m) : l = m := by
  have hperm : l.Perm m := (List.perm_ext_iff_of_nodup hlnodup hmnodup).mpr h
  refine hperm.eq_of_pairwise (fun a b ha hb hab hba => ?_) hl.sorted hm.sorted
  exact hl.copies a ha b ((h b).mpr hb) (le_antisymm hab hba)

/-- A collection of rows is diffed as its fingerprint is taken, except for rows that are `==`
without being equal and for rows that are repeated. -/
theorem agrees_rows_iff (hcomparable : Comparable writer columns) (hself : ∀ v, Schema.object columns v → Json.eq v v = true)
    (key : Text) (hkey : collectionKey before after = some key) (hbefore : field before key = some (.list l))
    (hafter : field after key = some (.list m)) (hl : Payloads.Rows columns l) (hm : Payloads.Rows columns m)
    (hrecords : records before = l) (hrecords' : records after = m)
    (hfingerprint : sourceFingerprintForPayload settings before = sourceFingerprintForPayload settings after ↔ before = after) :
    Agrees settings writer before after ↔
      (∀ old ∈ l, ∀ new ∈ m, idOf old = idOf new → Json.eq old new = true → old = new) ∧
        ((∀ v, v ∈ l ↔ v ∈ m) → before = after) := by
  obtain ⟨d, hd, htotal, hadded, hremoved, hchanged⟩ := sourceDiff_rows hcomparable hkey hbefore hafter hl hm
  have hfiniteIn : ∀ (rows : List Value) (s : Set Text), (∀ id ∈ s, id ∈ rows.map idOf) → s.Finite := fun rows s hs =>
    (List.finite_toSet (rows.map idOf)).subset hs
  have hrows : before = after → l = m := fun h => by rw [← hrecords, ← hrecords', h]
  have hsubset : {id | ∃ old ∈ l, ∃ new ∈ m, idOf old = id ∧ idOf new = id ∧ ¬ Json.eq old new = true} ⊆
      {id | ∃ old ∈ l, ∃ new ∈ m, idOf old = id ∧ idOf new = id ∧ old ≠ new} := by
    rintro id ⟨old, hold, new, hnew, holdid, hnewid, hne⟩
    exact ⟨old, hold, new, hnew, holdid, hnewid, fun heq => hne (heq ▸ hself old (hl.row old hold))⟩
  have hagrees : Agrees settings writer before after ↔ (d.total = 0 ↔ before = after) ∧
      (before ≠ after → d.changed = Set.ncard {id | ∃ old ∈ l, ∃ new ∈ m, idOf old = id ∧ idOf new = id ∧ old ≠ new}) := by
    unfold Agrees
    rw [hd, ← hfingerprint]
    constructor
    · rintro ⟨d', hd', hzero, hcounted⟩
      cases hd'
      refine ⟨hzero, fun hne => ?_⟩
      have h := (hcounted (mt hfingerprint.mp hne)).changed
      rwa [hrecords, hrecords'] at h
    · rintro ⟨hzero, hcount⟩
      refine ⟨d, rfl, hzero, fun hne => ⟨?_, ?_, ?_⟩⟩
      · rw [hrecords, hrecords']
        exact hadded
      · rw [hrecords, hrecords']
        exact hremoved
      · rw [hrecords, hrecords']
        exact hcount (mt hfingerprint.mpr hne)
  -- the same rows leave nothing to report
  have hsame : (∀ v, v ∈ l ↔ v ∈ m) → d.total = 0 := by
    intro h
    have hids : ∀ id, id ∈ l.map idOf ↔ id ∈ m.map idOf := by
      intro id
      rw [List.mem_map, List.mem_map]
      exact exists_congr fun v => and_congr_left' (h v)
    have haddedNone : {id | id ∈ m.map idOf ∧ id ∉ l.map idOf} = (∅ : Set Text) :=
      Set.eq_empty_of_forall_notMem fun id hid => hid.2 ((hids id).mpr hid.1)
    have hremovedNone : {id | id ∈ l.map idOf ∧ id ∉ m.map idOf} = (∅ : Set Text) :=
      Set.eq_empty_of_forall_notMem fun id hid => hid.2 ((hids id).mp hid.1)
    have hchangedNone : {id | ∃ old ∈ l, ∃ new ∈ m, idOf old = id ∧ idOf new = id ∧ ¬ Json.eq old new = true} = (∅ : Set Text) := by
      refine Set.eq_empty_of_forall_notMem ?_
      rintro id ⟨old, hold, new, hnew, holdid, hnewid, hne⟩
      have heq : old = new := hm.copies old ((h old).mp hold) new hnew (holdid.trans hnewid.symm)
      exact hne (heq ▸ hself old (hl.row old hold))
    rw [htotal, hadded, hremoved, hchanged, haddedNone, hremovedNone, hchangedNone, Set.ncard_empty]
  rw [hagrees]
  constructor
  · rintro ⟨hzero, hcount⟩
    refine ⟨fun old hold new hnew hid heq => ?_, fun h => hzero.mp (hsame h)⟩
    by_contra hne
    have hdiffer : before ≠ after := by
      intro h
      exact hne (hl.copies old hold new (hrows h ▸ hnew) hid)
    have hcard := hcount hdiffer
    rw [hchanged] at hcard
    have hfinite : {id | ∃ old ∈ l, ∃ new ∈ m, idOf old = id ∧ idOf new = id ∧ old ≠ new}.Finite := by
      refine hfiniteIn l _ ?_
      rintro id ⟨old, hold, new, hnew, rfl, -⟩
      exact List.mem_map_of_mem hold
    have hsets := Set.eq_of_subset_of_ncard_le hsubset hcard.ge hfinite
    have hmem : idOf old ∈ {id | ∃ old ∈ l, ∃ new ∈ m, idOf old = id ∧ idOf new = id ∧ old ≠ new} :=
      ⟨old, hold, new, hnew, rfl, hid.symm, hne⟩
    rw [← hsets] at hmem
    obtain ⟨old', hold', new', hnew', holdid, hnewid, hne'⟩ := hmem
    have hold'' := hl.copies old' hold' old hold holdid
    have hnew'' := hm.copies new' hnew' new hnew (hnewid.trans hid)
    rw [hold'', hnew''] at hne'
    exact hne' heq
  · rintro ⟨heq, hmembers⟩
    have hsets : {id | ∃ old ∈ l, ∃ new ∈ m, idOf old = id ∧ idOf new = id ∧ ¬ Json.eq old new = true} =
        {id | ∃ old ∈ l, ∃ new ∈ m, idOf old = id ∧ idOf new = id ∧ old ≠ new} := by
      refine Set.Subset.antisymm hsubset ?_
      rintro id ⟨old, hold, new, hnew, holdid, hnewid, hne⟩
      exact ⟨old, hold, new, hnew, holdid, hnewid, fun h => hne (heq old hold new hnew (holdid.trans hnewid.symm) h)⟩
    refine ⟨⟨fun hzero => hmembers ?_, fun h => hsame fun v => by rw [hrows h]⟩, fun _ => by rw [hchanged, hsets]⟩
    have haddedNone : {id | id ∈ m.map idOf ∧ id ∉ l.map idOf} = (∅ : Set Text) :=
      (Set.ncard_eq_zero (hfiniteIn m _ fun id hid => hid.1)).mp (by omega)
    have hremovedNone : {id | id ∈ l.map idOf ∧ id ∉ m.map idOf} = (∅ : Set Text) :=
      (Set.ncard_eq_zero (hfiniteIn l _ fun id hid => hid.1)).mp (by omega)
    have hchangedNone : {id | ∃ old ∈ l, ∃ new ∈ m, idOf old = id ∧ idOf new = id ∧ old ≠ new} = (∅ : Set Text) := by
      rw [hsets] at hchanged
      refine (Set.ncard_eq_zero (hfiniteIn l _ ?_)).mp (by omega)
      rintro id ⟨old, hold, new, hnew, rfl, -⟩
      exact List.mem_map_of_mem hold
    have hpartner : ∀ old ∈ l, ∀ new ∈ m, idOf old = idOf new → old = new := by
      intro old hold new hnew hid
      by_contra hne
      have hmem : idOf old ∈ {id | ∃ old ∈ l, ∃ new ∈ m, idOf old = id ∧ idOf new = id ∧ old ≠ new} :=
        ⟨old, hold, new, hnew, rfl, hid.symm, hne⟩
      rw [hchangedNone] at hmem
      exact hmem
    intro v
    constructor
    · intro hv
      by_cases hid : idOf v ∈ m.map idOf
      · obtain ⟨new, hnew, hnewid⟩ := List.mem_map.mp hid
        rw [hpartner v hv new hnew hnewid.symm]
        exact hnew
      · have hmem : idOf v ∈ {id | id ∈ l.map idOf ∧ id ∉ m.map idOf} := ⟨List.mem_map_of_mem hv, hid⟩
        rw [hremovedNone] at hmem
        exact absurd hmem id
    · intro hv
      by_cases hid : idOf v ∈ l.map idOf
      · obtain ⟨old, hold, holdid⟩ := List.mem_map.mp hid
        rw [← hpartner old hold v hv holdid]
        exact hold
      · have hmem : idOf v ∈ {id | id ∈ m.map idOf ∧ id ∉ l.map idOf} := ⟨List.mem_map_of_mem hv, hid⟩
        rw [haddedNone] at hmem
        exact absurd hmem id

/-- Rows without repetition are diffed as their fingerprint is taken, except for rows that are `==`
without being equal. -/
theorem agrees_tables_iff (hcomparable : Comparable writer columns) (hself : ∀ v, Schema.object columns v → Json.eq v v = true)
    (key : Text) (hkey : collectionKey before after = some key) (hbefore : field before key = some (.list l))
    (hafter : field after key = some (.list m)) (hl : Payloads.Rows columns l) (hm : Payloads.Rows columns m)
    (hlnodup : l.Nodup) (hmnodup : m.Nodup)
    (hrecords : records before = l) (hrecords' : records after = m) (hrows : l = m → before = after)
    (hfingerprint : sourceFingerprintForPayload settings before = sourceFingerprintForPayload settings after ↔ before = after) :
    Agrees settings writer before after ↔
      ∀ old ∈ records before, ∀ new ∈ records after, idOf old = idOf new → Json.eq old new = true → old = new := by
  rw [agrees_rows_iff hcomparable hself key hkey hbefore hafter hl hm hrecords hrecords' hfingerprint, hrecords, hrecords']
  exact ⟨fun h => h.1, fun h => ⟨h, fun hmem => hrows (rows_eq_of_mem_iff hl hm hlnodup hmnodup hmem)⟩⟩

/-- A payload without a collection the diff knows is diffed as if nothing could change in it. -/
theorem agrees_iff_of_collectionKey (writer : Writer) (hkey : collectionKey before after = none) : Agrees settings writer before after ↔
    sourceFingerprintForPayload settings before = sourceFingerprintForPayload settings after := by
  have hd : sourceDiff writer before after = .ok ⟨0, 0, 0, 0, [], none⟩ := by
    simp only [sourceDiff, hkey]
    rfl
  constructor
  · rintro ⟨d, hd', hzero, -⟩
    rw [hd] at hd'
    cases hd'
    exact hzero.mp rfl
  · intro h
    exact ⟨_, hd, ⟨fun _ => h, fun _ => rfl⟩, fun hne => absurd h hne⟩

/-- People are equal when they are `==`. -/
theorem person_eq_of_eq {old new : Value} (hold : Schema.object Payloads.person old) (hnew : Schema.object Payloads.person new)
    (h : Json.eq old new = true) : old = new := by
  obtain ⟨f, rfl, hf⟩ := hold
  obtain ⟨g, rfl, hg⟩ := hnew
  have haligned := Record.aligned (by decide) hf hg
  have hmembers := haligned.eq_dict_iff.mp h
  have hstring : ∀ {s v}, Json.eq (.str s) v = true → Value.str s = v := fun h => (Json.eq_str_iff.mp h).symm
  rw [haligned.ext fun key v w hv hw => ?_]
  have heq := hmembers key v w hv hw
  obtain ⟨c, hc, rfl, hcv⟩ := hf.member hv
  simp only [Payloads.person, List.mem_cons, List.not_mem_nil, or_false] at hc
  rcases hc with rfl | rfl | rfl | rfl
  · obtain ⟨s, rfl, -⟩ := hcv
    exact hstring heq
  · obtain ⟨s, rfl, -⟩ := hcv
    exact hstring heq
  · obtain ⟨b, rfl⟩ := hcv
    obtain ⟨w', hw', b', rfl⟩ := hg.column (c := ("incident_commander_eligible", Payloads.flag))
      (by simp [Payloads.person])
    have hfield := haligned.field_right hw'
    rw [haligned.field_right hw] at hfield
    cases hfield
    rw [Json.eq_bool_bool.mp heq]
  · rcases hcv with rfl | ⟨s, rfl, -⟩
    · exact (Json.eq_null_iff.mp heq).symm
    · exact hstring heq

/-- The diff of two payloads of a dataset agrees with their fingerprints exactly when it can show
what changed. -/
theorem agrees_iff_showable (hsha : Function.Injective settings.sha256) (hfloat : FaithfulRepr settings.floatRepr P)
    (hnan : ∀ x, P x → x ≠ .nan) (hbefore : IsPayload P code before) (hafter : IsPayload P code after) :
    Agrees settings writer before after ↔ Showable code before after := by
  have hfingerprint := Payloads.sourceFingerprint_eq_iff hsha hfloat hbefore hafter
  cases hbefore with
  | hydrants hrows hnodup =>
    cases hafter with
    | hydrants hrows' hnodup' =>
      exact agrees_tables_iff (comparable_feature (P := P))
        (fun v hv => Json.eq_self hnan (Payloads.regular_feature.proper hv)) (text "features") rfl rfl rfl hrows hrows' hnodup
        hnodup' (List.append_nil _) (List.append_nil _) (fun h => by rw [h]) hfingerprint
    | phonebook hcode _ _ => simp at hcode
    | fileLibrary hcode _ _ _ _ => cases hcode
  | personnel hstation hrows =>
    cases hafter with
    | personnel hstation' hrows' =>
      obtain ⟨s, rfl, -⟩ := hstation
      obtain ⟨s', rfl, -⟩ := hstation'
      rename_i l m
      have hrecords : records [(text "station_id", .str s), (text "people", .list l)] = l := List.append_nil l
      have hrecords' : records [(text "station_id", .str s'), (text "people", .list m)] = m := List.append_nil m
      rw [agrees_rows_iff comparable_person (fun v hv => Json.eq_self hnan (Payloads.regular_person.proper hv)) (text "people")
        rfl rfl rfl hrows hrows' hrecords hrecords' hfingerprint, Showable, hrecords, hrecords']
      constructor
      · exact fun h => h.2
      · exact fun h => ⟨fun old hold new hnew _ heq => person_eq_of_eq (hrows.row old hold) (hrows'.row new hnew) heq, h⟩
    | phonebook hcode _ _ => simp at hcode
    | fileLibrary hcode _ _ _ _ => cases hcode
  | firePlans hrows hnodup =>
    cases hafter with
    | firePlans hrows' hnodup' =>
      exact agrees_tables_iff (comparable_firePlan (P := P))
        (fun v hv => Json.eq_self hnan (Payloads.regular_firePlan.proper hv)) (text "fire_plans") rfl rfl rfl hrows hrows' hnodup
        hnodup' (List.append_nil _) (List.append_nil _) (fun h => by rw [h]) hfingerprint
    | phonebook hcode _ _ => simp at hcode
    | fileLibrary hcode _ _ _ _ => cases hcode
  | klgvPlans hrows hnodup =>
    cases hafter with
    | klgvPlans hrows' hnodup' =>
      exact agrees_tables_iff (comparable_klgvPlan (P := P))
        (fun v hv => Json.eq_self hnan (Payloads.regular_klgvPlan.proper hv)) (text "klgv_plans") rfl rfl rfl hrows hrows' hnodup
        hnodup' (List.append_nil _) (List.append_nil _) (fun h => by rw [h]) hfingerprint
    | phonebook hcode _ _ => simp at hcode
    | fileLibrary hcode _ _ _ _ => cases hcode
  | phonebook hcode hrows hnodup =>
    cases hafter with
    | phonebook _ hrows' hnodup' =>
      have hagrees := (agrees_iff_of_collectionKey writer rfl).trans hfingerprint
      rcases hcode with rfl | rfl
      · exact hagrees
      · exact hagrees
    | fileLibrary hfile _ _ _ _ => rcases hcode with rfl | rfl <;> cases hfile
    | _ => simp at hcode
  | dangerousGoods hdigest =>
    cases hafter with
    | dangerousGoods hdigest' => exact (agrees_iff_of_collectionKey writer rfl).trans hfingerprint
    | phonebook hcode _ _ => simp at hcode
    | fileLibrary hcode _ _ _ _ => cases hcode
  | fileLibrary hcode howner hrevision hfolders hdocuments =>
    have hbefore := IsPayload.fileLibrary (P := P) hcode howner hrevision hfolders hdocuments
    have hlogical := Payloads.compared_eq_iff_of_fileLibrary hcode hbefore hafter
    obtain ⟨owner', revision', folders', documents', rfl, -⟩ := hafter.of_isFileDataset hcode
    have hagrees := (agrees_iff_of_collectionKey writer rfl).trans (hfingerprint.trans hlogical)
    cases code with
    | departmentFiles => exact hagrees
    | stationFiles => exact hagrees
    | _ => cases hcode

end

/-! ### A person who joins a station, and a new phonebook entry -/

def plain : Settings := { sha256 := List.map UInt8.toNat, floatRepr := fun _ => [] }

def plainWriter : Writer where
  limits := ⟨8, 8⟩
  floatText := fun _ => []
  containerText := fun _ => .ok []

def member (id name : String) : Value :=
  .dict [(text "id", .str (text id)), (text "display_name", .str (text name)), (text "incident_commander_eligible", .bool false),
    (text "commander_email", .null)]

def crew (people : List Value) : Fields := [(text "station_id", .str (text "5a")), (text "people", .list people)]

def phonebook (entries : List Value) : Fields := [(text "entries", .list entries)]

def contact (id number : String) : Value :=
  .dict [(text "id", .str (text id)), (text "first_name", .null), (text "last_name", .null), (text "organization_unit", .null),
    (text "function", .str (text "Control room")), (text "phone_number", .str (text number))]

theorem member_object {id name : String} (hid : text id ≠ []) : Schema.object Payloads.person (member id name) :=
  ⟨_, rfl, .cons ⟨rfl, _, rfl, hid, Schema.scalarText_text id⟩ (.cons ⟨rfl, _, rfl, Schema.scalarText_text name⟩
    (.cons ⟨rfl, false, rfl⟩ (.cons ⟨rfl, .inl rfl⟩ .nil)))⟩

theorem contact_object {id number : String} (hid : text id ≠ []) : Schema.object Payloads.phonebookEntry (contact id number) :=
  ⟨_, rfl, .cons ⟨rfl, _, rfl, hid, Schema.scalarText_text id⟩ (.cons ⟨rfl, .inl rfl⟩ (.cons ⟨rfl, .inl rfl⟩
    (.cons ⟨rfl, .inl rfl⟩ (.cons ⟨rfl, .inr ⟨_, rfl, Schema.scalarText_text "Control room"⟩⟩
      (.cons ⟨rfl, _, rfl, Schema.scalarText_text number⟩ .nil)))))⟩

theorem plain_injective : Function.Injective plain.sha256 := by
  intro a b h
  exact List.map_injective_iff.mpr (fun x y hxy => UInt8.toNat_inj.mp hxy) h

theorem rows_singleton {columns : List (String × Schema)} {v : Value} (hv : Schema.object columns v) : Payloads.Rows columns [v] := by
  refine ⟨fun w hw => List.mem_singleton.mp hw ▸ hv, List.pairwise_singleton _ _, fun a ha b hb _ => ?_⟩
  rw [List.mem_singleton.mp ha, List.mem_singleton.mp hb]

theorem rows_nil (columns : List (String × Schema)) : Payloads.Rows columns [] := by
  constructor <;> simp

/-- No float occurs in the samples. -/
theorem plain_faithful : FaithfulRepr plain.floatRepr fun _ => False := by
  constructor <;> exact fun h => h.elim

/-- Someone who joins a station is reported. -/
theorem joined_agrees : Agrees plain plainWriter (crew []) (crew [member "1f" "Ada"]) := by
  have hstation : Payloads.identity (.str (text "5a")) := ⟨_, rfl, by decide, Schema.scalarText_text _⟩
  refine (agrees_iff_showable plain_injective plain_faithful (fun _ h => h.elim) (IsPayload.personnel hstation (rows_nil _))
    (IsPayload.personnel hstation (rows_singleton (member_object (by decide))))).mpr fun h => ?_
  have hnone : member "1f" "Ada" ∈ records (crew []) := (h _).mpr List.mem_cons_self
  cases hnone

/-- A new phonebook entry is not reported, though the fingerprint changes. -/
theorem newEntry_unreported : IsPayload (fun _ => False) .departmentPhonebook (phonebook []) ∧
    IsPayload (fun _ => False) .departmentPhonebook (phonebook [contact "2c" "112"]) ∧
    ¬ Agrees plain plainWriter (phonebook []) (phonebook [contact "2c" "112"]) := by
  have hbefore : IsPayload (fun _ => False) .departmentPhonebook (phonebook []) := .phonebook (.inl rfl) (rows_nil _) .nil
  have hafter : IsPayload (fun _ => False) .departmentPhonebook (phonebook [contact "2c" "112"]) :=
    .phonebook (.inl rfl) (rows_singleton (contact_object (by decide))) (List.nodup_singleton _)
  refine ⟨hbefore, hafter, fun hagrees => ?_⟩
  obtain ⟨d, hd, hzero, -⟩ := hagrees
  have htotal : d.total = 0 := by
    cases hd
    rfl
  have hcompared := (Payloads.sourceFingerprint_eq_iff plain_injective plain_faithful hbefore hafter).mp (hzero.mp htotal)
  cases hcompared

end FireDash.Publications.Diffs
