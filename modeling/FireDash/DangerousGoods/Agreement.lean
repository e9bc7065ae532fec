import FireDash.DangerousGoods.Validation

/-! On which files the server and the tablet agree, and on which the server raises only the
exception it documents. -/
namespace FireDash.DangerousGoods

open Json

variable {limits : Limits} {decodeError : List UInt8 → String} {sha256Hex : List UInt8 → Text} {payload : List UInt8} {α : Type}

/-- A loop stops at the first item that is at fault. -/
theorem forM_eq_find {ε : Type} {f : α → Except ε Unit} {bad : α → Bool} (h : ∀ a, bad a = false ↔ f a = .ok ())
    (l : List α) : l.forM f = match l.find? bad with | none => .ok () | some a => f a := by
  induction l with
  | nil => rfl
  | cons a l ih =>
    have hcons : (a :: l).forM f = (f a >>= fun _ => l.forM f) := rfl
    rw [hcons, List.find?_cons]
    cases hbad : bad a with
    | false =>
      rw [(h a).mp hbad]
      exact ih
    | true =>
      cases hf : f a with
      | error e => exact hf.symm
      | ok u =>
        rw [(h a).mpr hf] at hbad
        cases hbad

theorem forM_append {ε : Type} (f : α → Except ε Unit) (l l' : List α) :
    (l ++ l').forM f = (l.forM f >>= fun _ => l'.forM f) := by
  induction l with
  | nil => rfl
  | cons a l ih =>
    have hcons : ∀ l : List α, (a :: l).forM f = (f a >>= fun _ => l.forM f) := fun _ => rfl
    rw [List.cons_append, hcons, hcons, ih]
    cases f a <;> rfl

/-! ### The cards -/

/-- The card entries in the order of their checks, with their indices; a card that is no
non-empty list stands as `none`. -/
def cardEntries (cards : Fields) : List (Option (ℕ × Value)) :=
  cards.flatMap fun f =>
    match asList f.2 with
    | some (e :: entries) => ((e :: entries).zipIdx 0).map fun p => some (p.2, p.1)
    | _ => [none]

/-- An entry that is not a `[kind, text]` pair, or does not start its card with a title. -/
def isFaulty : Option (ℕ × Value) → Bool
  | none => true
  | some (i, entry) =>
    match asPair entry with
    | some (kind, content) => !isPair kind content || i == 0 && !isText kind "title"
    | none => true

/-- A pair whose kind is an array or an object. -/
def HasUnhashableKind (x : Option (ℕ × Value)) : Prop :=
  ∃ i entry kind content, x = some (i, entry) ∧ asPair entry = some (kind, content) ∧ isHashable kind = false

def checkEntry (entry : ℕ → Value → Except Raised Unit) : Option (ℕ × Value) → Except Raised Unit
  | none => .error (.failure "ERI cards must be non-empty lists.")
  | some (i, e) => entry i e

theorem validateEntries_eq (entry : ℕ → Value → Except Raised Unit) (i : ℕ) (entries : List Value) :
    validateEntries entry i entries =
      ((entries.zipIdx i).map fun p => some (p.2, p.1)).forM (checkEntry entry) := by
  induction entries generalizing i with
  | nil => rfl
  | cons e entries ih =>
    unfold validateEntries
    rw [ih]
    rfl

theorem validateCards_eq (entry : ℕ → Value → Except Raised Unit) (cards : Fields) :
    validateCards entry cards = (cardEntries cards).forM (checkEntry entry) := by
  unfold validateCards cardEntries
  induction cards with
  | nil => rfl
  | cons f cards ih =>
    rw [List.flatMap_cons, forM_append, ← ih]
    have hcons : ∀ g : Text × Value → Except Raised Unit, (f :: cards).forM g = (g f >>= fun _ => cards.forM g) :=
      fun _ => rfl
    rw [hcons]
    congr 1
    generalize asList f.2 = items
    rcases items with _ | _ | ⟨e, entries⟩
    · rfl
    · rfl
    · exact validateEntries_eq entry 0 (e :: entries)

theorem isHashable_of_isPair {kind content : Value} (h : isPair kind content = true) : isHashable kind = true := by
  cases kind <;> simp_all [isPair, isText, asText, isHashable, entryKinds]

theorem validatePair_ok {i : ℕ} {kind content : Value} : validatePair i kind content = .ok () ↔
    isPair kind content = true ∧ (i = 0 → isText kind "title" = true) := by
  unfold validatePair
  grind

theorem serverEntry_ok (x : Option (ℕ × Value)) :
    isFaulty x = false ↔ checkEntry Server.validateEntry x = .ok () := by
  cases x with
  | none => simp [isFaulty, checkEntry]
  | some p =>
    unfold isFaulty checkEntry Server.validateEntry
    dsimp only
    cases asPair p.2 with
    | none => simp
    | some pair =>
      obtain ⟨kind, content⟩ := pair
      dsimp only
      by_cases hhash : isHashable kind = false
      · have hno : isPair kind content = false := by
          by_contra hp
          rw [isHashable_of_isPair (by simpa using hp)] at hhash
          cases hhash
        simp [hno, hhash]
      · rw [if_neg hhash, validatePair_ok]
        cases isPair kind content <;> simp

theorem tabletEntry_ok (x : Option (ℕ × Value)) :
    isFaulty x = false ↔ checkEntry Tablet.validateEntry x = .ok () := by
  cases x with
  | none => simp [isFaulty, checkEntry]
  | some p =>
    unfold isFaulty checkEntry Tablet.validateEntry
    dsimp only
    cases asPair p.2 with
    | none => simp
    | some pair =>
      obtain ⟨kind, content⟩ := pair
      dsimp only
      by_cases htext : (asText kind).isNone = true
      · have hno : isPair kind content = false := by
          rw [Option.isNone_iff_eq_none] at htext
          simp [isPair, isText, htext]
        simp [hno, htext]
      · rw [if_neg htext, validatePair_ok]
        cases isPair kind content <;> simp

/-- The server's check of a faulty entry fails as documented, but for a kind it cannot hash. -/
theorem serverEntry_error {x : Option (ℕ × Value)} {e : Raised} (h : checkEntry Server.validateEntry x = .error e) :
    (∃ m, e = .failure m) ↔ ¬HasUnhashableKind x := by
  cases x with
  | none =>
    cases h
    simp [HasUnhashableKind]
  | some p =>
    unfold checkEntry Server.validateEntry at h
    dsimp only at h
    cases hpair : asPair p.2 with
    | none =>
      rw [hpair] at h
      cases h
      refine ⟨fun _ => ?_, fun _ => ⟨_, rfl⟩⟩
      rintro ⟨i, entry, kind, content, hx, hpair', -⟩
      cases hx
      rw [hpair] at hpair'
      cases hpair'
    | some pair =>
      rw [hpair] at h
      dsimp only at h
      by_cases hhash : isHashable pair.1 = false
      · rw [if_pos hhash] at h
        cases h
        simp only [reduceCtorEq, exists_false, false_iff, not_not]
        exact ⟨p.1, p.2, pair.1, pair.2, rfl, hpair, hhash⟩
      · have hno : ¬HasUnhashableKind (some p) := by
          rintro ⟨i, entry, kind, content, hx, hpair', hhash'⟩
          cases hx
          rw [hpair] at hpair'
          cases hpair'
          exact hhash hhash'
        refine ⟨fun _ => hno, fun _ => ?_⟩
        rw [if_neg hhash] at h
        unfold validatePair at h
        split_ifs at h <;> cases h <;> exact ⟨_, rfl⟩

/-- No entry is at fault. -/
def CardsValid (cards : Fields) : Prop := (cardEntries cards).find? isFaulty = none

theorem validateCards_ok {entry : ℕ → Value → Except Raised Unit}
    (h : ∀ x, isFaulty x = false ↔ checkEntry entry x = .ok ()) {cards : Fields} :
    validateCards entry cards = .ok () ↔ CardsValid cards := by
  rw [validateCards_eq, forM_eq_find h, CardsValid]
  cases hfind : (cardEntries cards).find? isFaulty with
  | none => simp
  | some x =>
    have hbad := List.find?_some hfind
    simp only [reduceCtorEq, iff_false]
    rw [← h x, hbad]
    simp

/-! ### The sources -/

def SourcesValid (v : Value) : Prop :=
  ∃ sources, asList v = some sources ∧
    ∀ id ∈ sourceIds, validateSource (sourceById (sources.filterMap asDict) id) id = .ok ()

/-- No source object has an array or an object for its identity. -/
def IdsHashable (v : Value) : Prop :=
  ∀ sources, asList v = some sources → ∀ source ∈ sources.filterMap asDict, isHashable (get source "id") = true

theorem sourceById_filter (sources : List Fields) (id : String) :
    sourceById (sources.filter fun source => (asText (get source "id")).isSome) id = sourceById sources id := by
  unfold sourceById
  rw [← List.filter_reverse, List.find?_filter]
  congr 1
  funext source
  unfold isText
  cases asText (get source "id") <;> simp

/-- The three positions the tablet requires to be JSON integers. -/
def Exact (root : Fields) (h : Header) : Prop :=
  isInt (get root "schema_version") = true ∧ isInt (get h.metadata "record_count") = true ∧
    isInt (get h.metadata "eri_card_count") = true

theorem check_eq_ok' {c : Bool} {message : String} : check c message = .ok () ↔ c = true := by
  unfold check
  cases c <;> simp

theorem ofFailure_eq_ok {r : Except String α} {a : α} : Raised.ofFailure r = .ok a ↔ r = .ok a := by
  unfold Raised.ofFailure
  cases r <;> simp [Except.mapError]

theorem ofFailure_eq_error {r : Except String α} {e : Raised} (h : Raised.ofFailure r = .error e) :
    ∃ m, e = .failure m := by
  unfold Raised.ofFailure at h
  cases r with
  | ok a => cases h
  | error m => exact ⟨m, (Except.error.inj h).symm⟩

/-! ### Documents -/

theorem serverDocument_eq {document : Value} {root : Fields} {h : Header} (hr : readRecords document = .ok (root, h)) :
    Server.validateDocument document = (do
      validateCards Server.validateEntry h.cards
      let sources ← Server.readSources (get root "sources")
      sourceIds.forM fun id => Raised.ofFailure (validateSource (sourceById sources id) id)
      return (root, h.goods.length, h.cards.length)) := by
  unfold Server.validateDocument
  rw [hr]
  rfl

theorem serverSources_ok {v : Value} {sources : List Fields} : Server.readSources v = .ok sources ↔
    IdsHashable v ∧ ∃ items, asList v = some items ∧ sources = items.filterMap asDict := by
  unfold Server.readSources IdsHashable
  cases asList v with
  | none => simp
  | some items =>
    dsimp only
    split
    · rename_i hall
      simp only [Except.ok.injEq, Option.some.injEq, forall_eq', exists_eq_left']
      rw [List.all_eq_true] at hall
      exact ⟨fun he => ⟨hall, he.symm⟩, fun he => he.2.symm⟩
    · rename_i hall
      simp only [reduceCtorEq, Option.some.injEq, forall_eq', exists_eq_left', false_iff, not_and]
      intro hno
      exact absurd (List.all_eq_true.mpr hno) hall

theorem serverSources_error {v : Value} {e : Raised} (h : Server.readSources v = .error e) :
    (∃ m, e = .failure m) ↔ IdsHashable v := by
  unfold Server.readSources at h
  unfold IdsHashable
  cases hv : asList v with
  | none =>
    rw [hv] at h
    obtain rfl := Except.error.inj h
    simp
  | some items =>
    rw [hv] at h
    dsimp only at h
    split at h
    · cases h
    · rename_i hall
      obtain rfl := Except.error.inj h
      rw [List.all_eq_true] at hall
      simp only [reduceCtorEq, exists_false, Option.some.injEq, forall_eq', false_iff]
      exact hall

theorem serverSources_unhashable {v : Value} (h : ¬IdsHashable v) : Server.readSources v = .error .typeError := by
  cases hread : Server.readSources v with
  | ok sources => exact absurd (serverSources_ok.mp hread).1 h
  | error e =>
    have he := serverSources_error hread
    unfold Server.readSources at hread
    split at hread
    · split at hread
      · cases hread
      · exact hread.symm
    · obtain rfl := Except.error.inj hread
      exact absurd (he.mp ⟨_, rfl⟩) h

theorem validateSources_error {β : Type} {ids : List String} {sources : List Fields} {b : β} {e : Raised}
    (h : ((do
      ids.forM fun id => Raised.ofFailure (validateSource (sourceById sources id) id)
      return b) : Except Raised β) = .error e) : ∃ m, e = .failure m := by
  induction ids with
  | nil => cases h
  | cons id ids ih =>
    have hcons : (id :: ids).forM (fun id => Raised.ofFailure (validateSource (sourceById sources id) id)) =
        (Raised.ofFailure (validateSource (sourceById sources id) id) >>= fun _ =>
          ids.forM fun id => Raised.ofFailure (validateSource (sourceById sources id) id)) := rfl
    rw [hcons] at h
    cases hcheck : Raised.ofFailure (validateSource (sourceById sources id) id) with
    | ok u =>
      rw [hcheck] at h
      exact ih h
    | error e' =>
      rw [hcheck] at h
      obtain rfl := Except.error.inj h
      exact ofFailure_eq_error hcheck

theorem serverDocument_ok {document : Value} : (∃ r, Server.validateDocument document = .ok r) ↔
    ∃ root h, readRecords document = .ok (root, h) ∧ CardsValid h.cards ∧ SourcesValid (get root "sources") ∧
      IdsHashable (get root "sources") := by
  cases hr : readRecords document with
  | error m => simp [Server.validateDocument, hr, Raised.ofFailure, Except.mapError, bind, Except.bind]
  | ok records =>
    obtain ⟨root, h⟩ := records
    rw [serverDocument_eq hr]
    simp only [bind_eq_ok, Unique.exists_iff, PUnit.default_eq_unit, pure_eq_ok, validateCards_ok serverEntry_ok,
      serverSources_ok, forM_eq_ok, ofFailure_eq_ok, Except.ok.injEq, Prod.mk.injEq, SourcesValid]
    constructor
    · rintro ⟨-, hcards, sources, ⟨hids, items, hitems, rfl⟩, hvalid, -⟩
      exact ⟨root, h, ⟨rfl, rfl⟩, hcards, ⟨items, hitems, hvalid⟩, hids⟩
    · rintro ⟨_, _, ⟨rfl, rfl⟩, hcards, ⟨items, hitems, hvalid⟩, hids⟩
      exact ⟨_, hcards, _, ⟨hids, items, hitems, rfl⟩, hvalid, rfl⟩

/-- The server raises what it documents, but for kinds and identities that it cannot hash. -/
theorem serverDocument_error {document : Value} :
    (∀ e, Server.validateDocument document = .error e → ∃ m, e = .failure m) ↔
      ∀ root h, readRecords document = .ok (root, h) →
        (∀ x, (cardEntries h.cards).find? isFaulty = some x → ¬HasUnhashableKind x) ∧
          (CardsValid h.cards → IdsHashable (get root "sources")) := by
  cases hr : readRecords document with
  | error m =>
    have hfails : Server.validateDocument document = .error (.failure m) := by
      unfold Server.validateDocument
      rw [hr]
      rfl
    rw [hfails]
    refine ⟨fun _ => by simp, fun _ e he => ⟨m, (Except.error.inj he).symm⟩⟩
  | ok records =>
    obtain ⟨root, h⟩ := records
    simp only [Except.ok.injEq, Prod.mk.injEq, and_imp]
    have hstep : (∀ e, Server.validateDocument document = .error e → ∃ m, e = .failure m) ↔
        (∀ x, (cardEntries h.cards).find? isFaulty = some x → ¬HasUnhashableKind x) ∧
          (CardsValid h.cards → IdsHashable (get root "sources")) := by
      rw [serverDocument_eq hr]
      cases hfind : (cardEntries h.cards).find? isFaulty with
      | some x =>
        have hcards : validateCards Server.validateEntry h.cards = checkEntry Server.validateEntry x := by
          rw [validateCards_eq, forM_eq_find serverEntry_ok, hfind]
        have hno : ¬CardsValid h.cards := by
          unfold CardsValid
          rw [hfind]
          simp
        rw [hcards]
        cases hentry : checkEntry Server.validateEntry x with
        | ok u =>
          have hbad := List.find?_some hfind
          rw [(serverEntry_ok x).mpr hentry] at hbad
          cases hbad
        | error e =>
          have he := serverEntry_error hentry
          simp only [Option.some.injEq, forall_eq']
          refine ⟨fun hall => ⟨he.mp (hall e rfl), fun hc => absurd hc hno⟩, fun hall e' he' => ?_⟩
          obtain rfl := Except.error.inj he'
          exact he.mpr hall.1
      | none =>
        have hcards : CardsValid h.cards := hfind
        have hnext : ∀ e, ((do
            let sources ← Server.readSources (get root "sources")
            sourceIds.forM fun id => Raised.ofFailure (validateSource (sourceById sources id) id)
            return (root, h.goods.length, h.cards.length)) : Except Raised (Fields × ℕ × ℕ)) = .error e →
            ((∃ m, e = .failure m) ↔ IdsHashable (get root "sources")) := by
          intro e he
          cases hread : Server.readSources (get root "sources") with
          | error e' =>
            rw [hread] at he
            obtain rfl := Except.error.inj he
            exact serverSources_error hread
          | ok sources =>
            rw [hread] at he
            have hfailure := validateSources_error he
            have hids := (serverSources_ok.mp hread).1
            exact ⟨fun _ => hids, fun _ => hfailure⟩
        rw [(validateCards_ok serverEntry_ok).mpr hcards]
        refine ⟨fun hall => ⟨by simp, fun _ => ?_⟩, fun hall e he => (hnext e he).mpr (hall.2 hcards)⟩
        by_contra hids
        have hread := serverSources_unhashable hids
        have hraised := hall .typeError (by rw [hread]; rfl)
        obtain ⟨m, hm⟩ := hraised
        cases hm
    rw [hstep]
    constructor
    · rintro hall _ _ rfl rfl
      exact hall
    · intro hall
      exact hall root h rfl rfl

theorem readRecords_ok {document : Value} {root : Fields} {h : Header} : readRecords document = .ok (root, h) ↔
    mapping document "Document" = .ok root ∧
      (isText (get root "dataset_type") "dangerous_goods" && eqInt (get root "schema_version") 1) = true ∧
      readHeader root = .ok h ∧ h.countsMatch = true ∧ h.validateRecords root = .ok () := by
  simp only [readRecords, bind_eq_ok, Unique.exists_iff, PUnit.default_eq_unit, pure_eq_ok, check_eq_ok', Prod.mk.injEq]
  constructor
  · rintro ⟨_, hroot, htype, _, hheader, hcounts, hrecords, rfl, rfl⟩
    exact ⟨hroot, htype, hheader, hcounts, hrecords⟩
  · rintro ⟨hroot, htype, hheader, hcounts, hrecords⟩
    exact ⟨root, hroot, htype, h, hheader, hcounts, hrecords, rfl, rfl⟩

theorem tabletSources_ok {v : Value} : (∃ sources, Tablet.readSources v = .ok sources ∧
      ∀ id ∈ sourceIds, validateSource (sourceById sources id) id = .ok ()) ↔ SourcesValid v := by
  unfold Tablet.readSources SourcesValid
  cases asList v with
  | none => simp
  | some items => simp [sourceById_filter]

theorem tabletDocument_ok {sha256 : Text} {document : Value} :
    (∃ r, Tablet.validateDocument (.int 1) sha256 document = .ok r) ↔
      ∃ root h, readRecords document = .ok (root, h) ∧ Exact root h ∧ CardsValid h.cards ∧
        SourcesValid (get root "sources") := by
  simp only [readRecords_ok, ← tabletSources_ok]
  constructor
  · rintro ⟨r, hr⟩
    simp only [Tablet.validateDocument, bind_eq_ok, Unique.exists_iff, PUnit.default_eq_unit, ofFailure_eq_ok, forM_eq_ok,
      validateCards_ok tabletEntry_ok, check_eq_ok', Bool.and_eq_true] at hr
    obtain ⟨root, hroot, htype, ⟨⟨hversion, -⟩, -⟩, h, hheader, hints, hcounts, hrecords, hcards, sources, hread, hvalid, -⟩ := hr
    exact ⟨root, h, ⟨hroot, by simpa using htype, hheader, hcounts, hrecords⟩, ⟨hversion, hints⟩, hcards, sources, hread, hvalid⟩
  · rintro ⟨root, h, ⟨hroot, htype, hheader, hcounts, hrecords⟩, ⟨hversion, hints⟩, hcards, sources, hread, hvalid⟩
    refine ⟨⟨h.goods.length, h.cards.length, get h.metadata "adr_edition", get h.metadata "ericards_version", sha256⟩, ?_⟩
    simp only [Tablet.validateDocument, bind_eq_ok, Unique.exists_iff, PUnit.default_eq_unit, ofFailure_eq_ok, forM_eq_ok,
      validateCards_ok tabletEntry_ok, check_eq_ok', Bool.and_eq_true]
    exact ⟨root, hroot, by simpa using htype, ⟨⟨hversion, rfl⟩, rfl⟩, h, hheader, hints, hcounts, hrecords, hcards, sources, hread, hvalid, rfl⟩

/-! ### Files -/

/-- The server accepts what the tablet accepts, and raises only what it documents. -/
structure Agrees (limits : Limits) (decodeError : List UInt8 → String) (sha256Hex : List UInt8 → Text) (payload : List UInt8) : Prop where
  accepts : (∃ r, Server.validateDangerousGoods limits payload = .ok r) ↔
    ∃ r, Tablet.validateDangerousGoods limits decodeError sha256Hex payload (.int 1) = .ok r
  raises : ∀ e, Server.validateDangerousGoods limits payload = .error e → ∃ message, e = .failure message

/-- The file is a JSON document with the given records, which pass the checks before the cards. -/
def Records (limits : Limits) (payload : List UInt8) (t : Text) (root : Fields) (h : Header) : Prop :=
  decodeUtf8 payload = some t ∧
    ∃ document, loads limits defaultConstant t = .ok document ∧ readRecords document = .ok (root, h)

/-- The nesting and the integers stay within the limits of the interpreter, the first faulty card entry has no
unhashable kind, and the sources behind faultless cards have no unhashable identity; a file that is otherwise valid
holds neither `NaN` nor an infinity, and integers where the tablet requires them. -/
structure Regular (limits : Limits) (payload : List UInt8) : Prop where
  limited : ∀ t, decodeUtf8 payload = some t → loads limits defaultConstant t ≠ .error .recursion ∧
    loads limits defaultConstant t ≠ .error .digits
  kinds : ∀ t root h, Records limits payload t root h →
    ∀ x, (cardEntries h.cards).find? isFaulty = some x → ¬HasUnhashableKind x
  identities : ∀ t root h, Records limits payload t root h → CardsValid h.cards → IdsHashable (get root "sources")
  exact : ∀ t root h, Records limits payload t root h → CardsValid h.cards → SourcesValid (get root "sources") →
    (∀ c, loads limits noConstant t ≠ .error (.constant c)) ∧ Exact root h

theorem loads_noConstant_ok {t : Text} {document : Value} (hloads : loads limits defaultConstant t = .ok document) :
    loads limits noConstant t = .ok document ↔ ∀ c, loads limits noConstant t ≠ .error (.constant c) := by
  have hrestricts : Restricts (loads limits noConstant t) (loads limits defaultConstant t) := loads_restricts t
  constructor
  · intro h c
    rw [h]
    simp
  · intro h
    rcases hrestricts.agree with heq | ⟨c, hc⟩
    · rw [heq, hloads]
    · exact absurd hc (h c)

theorem loads_noConstant_error {t : Text} {e : Json.Error} (hloads : loads limits defaultConstant t = .error e) :
    ∃ e', loads limits noConstant t = .error e' := by
  have hrestricts : Restricts (loads limits noConstant t) (loads limits defaultConstant t) := loads_restricts t
  rcases hrestricts.agree with heq | ⟨c, hc⟩
  · exact ⟨e, heq.trans hloads⟩
  · exact ⟨_, hc⟩

theorem tabletAccepts_iff {t : Text} (hdecode : decodeUtf8 payload = some t) :
    (∃ r, Tablet.validateDangerousGoods limits decodeError sha256Hex payload (.int 1) = .ok r) ↔
      ∃ document, loads limits noConstant t = .ok document ∧
        ∃ r, Tablet.validateDocument (.int 1) (sha256Hex payload) document = .ok r := by
  unfold Tablet.validateDangerousGoods readDocument
  rw [hdecode]
  dsimp only
  cases loads limits noConstant t with
  | error e => simp [Except.mapError, bind, Except.bind]
  | ok document =>
    simp only [Except.ok.injEq, exists_eq_left']
    change (∃ r, Except.mapError Tablet.labelled (Tablet.validateDocument (.int 1) (sha256Hex payload) document) = .ok r) ↔ _
    cases Tablet.validateDocument (.int 1) (sha256Hex payload) document <;> simp [Except.mapError]

theorem agrees_of_undecodable (hdecode : decodeUtf8 payload = none) : Agrees limits decodeError sha256Hex payload := by
  constructor
  · simp [Server.validateDangerousGoods, Tablet.validateDangerousGoods, readDocument, hdecode, bind, Except.bind,
      Except.mapError]
  · intro e he
    simp only [Server.validateDangerousGoods, readDocument, hdecode] at he
    obtain rfl := Except.error.inj he
    exact ⟨_, rfl⟩

theorem agrees_of_unreadable {t : Text} {e : Json.Error} (hdecode : decodeUtf8 payload = some t)
    (hloads : loads limits defaultConstant t = .error e) :
    Agrees limits decodeError sha256Hex payload ↔ e ≠ .recursion ∧ e ≠ .digits := by
  have hserver : Server.validateDangerousGoods limits payload = .error (Raised.ofJson "Source must be UTF-8 JSON." e) := by
    simp [Server.validateDangerousGoods, readDocument, hdecode, hloads, bind, Except.bind, Except.mapError]
  have hraised : (∃ message, Raised.ofJson "Source must be UTF-8 JSON." e = .failure message) ↔ e ≠ .recursion ∧ e ≠ .digits := by
    cases e with
    | constant c => cases c <;> simp [Raised.ofJson]
    | _ => simp [Raised.ofJson]
  rw [← hraised]
  refine ⟨fun h => h.raises _ hserver, fun h => ⟨?_, fun e' he' => ?_⟩⟩
  · obtain ⟨e', he'⟩ := loads_noConstant_error hloads
    rw [hserver, tabletAccepts_iff hdecode, he']
    simp
  · rw [hserver] at he'
    obtain rfl := Except.error.inj he'
    exact h

theorem agrees_of_readable {t : Text} {document : Value} (hdecode : decodeUtf8 payload = some t)
    (hloads : loads limits defaultConstant t = .ok document) : Agrees limits decodeError sha256Hex payload ↔
      ∀ root h, readRecords document = .ok (root, h) →
        (∀ x, (cardEntries h.cards).find? isFaulty = some x → ¬HasUnhashableKind x) ∧
          (CardsValid h.cards → IdsHashable (get root "sources")) ∧
          (CardsValid h.cards → SourcesValid (get root "sources") →
            (∀ c, loads limits noConstant t ≠ .error (.constant c)) ∧ Exact root h) := by
  have hserver : Server.validateDangerousGoods limits payload = Server.validateDocument document := by
    simp [Server.validateDangerousGoods, readDocument, hdecode, hloads, bind, Except.bind, Except.mapError]
  have htablet : (∃ r, Tablet.validateDangerousGoods limits decodeError sha256Hex payload (.int 1) = .ok r) ↔
      (∀ c, loads limits noConstant t ≠ .error (.constant c)) ∧
        ∃ root h, readRecords document = .ok (root, h) ∧ Exact root h ∧ CardsValid h.cards ∧
          SourcesValid (get root "sources") := by
    rw [tabletAccepts_iff hdecode, ← loads_noConstant_ok hloads, ← @tabletDocument_ok (sha256Hex payload)]
    constructor
    · rintro ⟨document', hd, hr⟩
      have heq : document' = document := by
        have hok := (loads_noConstant_ok hloads).mpr (by rw [hd]; simp)
        rw [hd] at hok
        exact Except.ok.inj hok
      subst heq
      exact ⟨hd, hr⟩
    · rintro ⟨hd, hr⟩
      exact ⟨document, hd, hr⟩
  constructor
  · rintro ⟨haccepts, hraises⟩ root h hr
    rw [hserver] at hraises
    obtain ⟨hkinds, hids⟩ := serverDocument_error.mp hraises root h hr
    refine ⟨hkinds, hids, fun hcards hsources => ?_⟩
    rw [hserver, htablet, serverDocument_ok] at haccepts
    obtain ⟨hconstants, root', h', hr', hexact, -⟩ := haccepts.mp ⟨root, h, hr, hcards, hsources, hids hcards⟩
    rw [hr] at hr'
    cases hr'
    exact ⟨hconstants, hexact⟩
  · intro hall
    constructor
    · rw [hserver, htablet, serverDocument_ok]
      constructor
      · rintro ⟨root, h, hr, hcards, hsources, -⟩
        obtain ⟨hconstants, hexact⟩ := (hall root h hr).2.2 hcards hsources
        exact ⟨hconstants, root, h, hr, hexact, hcards, hsources⟩
      · rintro ⟨-, root, h, hr, -, hcards, hsources⟩
        exact ⟨root, h, hr, hcards, hsources, (hall root h hr).2.1 hcards⟩
    · rw [hserver]
      exact serverDocument_error.mpr fun root h hr => ⟨(hall root h hr).1, (hall root h hr).2.1⟩

/-- Both validators accept the same files, and the server raises what it documents, on the regular files and on
no others. -/
theorem agrees_iff_regular (limits : Limits) (decodeError : List UInt8 → String) (sha256Hex : List UInt8 → Text) (payload : List UInt8) :
    Agrees limits decodeError sha256Hex payload ↔ Regular limits payload := by
  cases hdecode : decodeUtf8 payload with
  | none =>
    have hregular : Regular limits payload := by
      constructor <;> simp [Records, hdecode]
    exact ⟨fun _ => hregular, fun _ => agrees_of_undecodable hdecode⟩
  | some t =>
    cases hloads : loads limits defaultConstant t with
    | error e =>
      rw [agrees_of_unreadable hdecode hloads]
      constructor
      · rintro ⟨hrecursion, hdigits⟩
        have hnone : ∀ t' root h, ¬Records limits payload t' root h := by
          rintro t' root h ⟨ht, document, hd, -⟩
          obtain rfl := Option.some.inj (hdecode.symm.trans ht)
          rw [hloads] at hd
          cases hd
        refine ⟨fun t' ht => ?_, fun t' root h hh => absurd hh (hnone t' root h),
          fun t' root h hh => absurd hh (hnone t' root h), fun t' root h hh => absurd hh (hnone t' root h)⟩
        obtain rfl := Option.some.inj (hdecode.symm.trans ht)
        rw [hloads]
        exact ⟨fun heq => hrecursion (Except.error.inj heq), fun heq => hdigits (Except.error.inj heq)⟩
      · intro hregular
        have hlimited := hregular.limited t hdecode
        rw [hloads] at hlimited
        exact ⟨fun heq => hlimited.1 (heq ▸ rfl), fun heq => hlimited.2 (heq ▸ rfl)⟩
    | ok document =>
      rw [agrees_of_readable hdecode hloads]
      have hrecords : ∀ t' root h, Records limits payload t' root h ↔ t = t' ∧ readRecords document = .ok (root, h) := by
        intro t' root h
        unfold Records
        rw [hdecode, Option.some.injEq]
        constructor
        · rintro ⟨rfl, document', hd, hr⟩
          obtain rfl := Except.ok.inj (hloads.symm.trans hd)
          exact ⟨rfl, hr⟩
        · rintro ⟨rfl, hr⟩
          exact ⟨rfl, document, hloads, hr⟩
      constructor
      · intro hall
        constructor
        · intro t' ht
          obtain rfl := Option.some.inj (hdecode.symm.trans ht)
          rw [hloads]
          simp
        · intro t' root h hh
          exact (hall root h ((hrecords t' root h).mp hh).2).1
        · intro t' root h hh
          exact (hall root h ((hrecords t' root h).mp hh).2).2.1
        · intro t' root h hh
          obtain ⟨rfl, hr⟩ := (hrecords t' root h).mp hh
          exact (hall root h hr).2.2
      · intro hregular root h hr
        have hh := (hrecords t root h).mpr ⟨rfl, hr⟩
        exact ⟨hregular.kinds t root h hh, hregular.identities t root h hh, hregular.exact t root h hh⟩

/-! ### A file whose schema version is a decimal -/

def quoted (s : String) : Text := 34 :: text s ++ [34]

def array (items : List Text) : Text := 91 :: (items.intersperse [44]).flatten ++ [93]

def object (fields : List (String × Text)) : Text :=
  123 :: ((fields.map fun f => quoted f.1 ++ 58 :: f.2).intersperse [44]).flatten ++ [125]

def sampleSource (id : String) (legal : List (String × Text)) : Text :=
  object [("id", quoted id), ("provider", quoted "p"), ("dataset", quoted "d"), ("source_file", quoted "f"),
    ("sha256", quoted "s"), ("source_url", quoted "u"), ("legal", object legal)]

def sampleMetadata : Text :=
  let sevenX := object [("kind", quoted "variable"), ("candidate_codes", array (candidateCodes.map quoted))]
  object [("publication_profile", quoted "compact"),
    ("placard_catalog", object [("available_assets", object []), ("special_values", object [("7X", sevenX)])]),
    ("record_count", text "0"), ("eri_card_count", text "0")]

/-- The smallest valid file, with its schema version written as given. -/
def sampleFile (schemaVersion : String) : List UInt8 :=
  let bam := sampleSource "bam"
    [("legal_url", quoted ""), ("license", object []), ("attribution", object []), ("processing", object [])]
  let ericards := sampleSource "ericards"
    [("terms_url", quoted ""), ("guidance_url", quoted ""), ("disclaimer_url", quoted ""), ("attribution", object []),
      ("reproduction", object [])]
  (object [("dataset_type", quoted "dangerous_goods"), ("schema_version", text schemaVersion),
    ("metadata", sampleMetadata), ("goods", array []), ("eri_cards", object []), ("eri_defaults", object []),
    ("sources", array [bam, ericards])]).map UInt8.ofNat

def isAccepted {ε : Type} : Except ε α → Bool
  | .ok _ => true
  | .error _ => false

theorem isAccepted_iff {ε : Type} {r : Except ε α} : isAccepted r = true ↔ ∃ a, r = .ok a := by
  cases r <;> simp [isAccepted]

example : isAccepted (Tablet.validateDangerousGoods ⟨50, 4300⟩ (fun _ => "") (fun _ => []) (sampleFile "1") (.int 1)) = true := by
  decide +kernel

/-- The server takes version 1.0 for version 1, and the tablet refuses it. -/
theorem decimalVersion_not_agrees : ¬Agrees ⟨50, 4300⟩ (fun _ => "") (fun _ => []) (sampleFile "1.0") := by
  intro h
  have hserver : isAccepted (Server.validateDangerousGoods ⟨50, 4300⟩ (sampleFile "1.0")) = true := by
    decide +kernel
  have htablet : isAccepted (Tablet.validateDangerousGoods ⟨50, 4300⟩ (fun _ => "") (fun _ => []) (sampleFile "1.0") (.int 1)) =
      false := by
    decide +kernel
  have haccepted := isAccepted_iff.mpr (h.accepts.mp (isAccepted_iff.mp hserver))
  rw [htablet] at haccepted
  cases haccepted

end FireDash.DangerousGoods
