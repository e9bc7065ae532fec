import FireDash.Ingestion.Documents
import FireDash.Lib.JsonSchema
import FireDash.Lib.Snapshots

/-! The baseline of a preview: fingerprints of the stored fire plans, KLGV plans and hydrants under the identity
an import matches them by. -/
namespace FireDash.Ingestion.Baselines

open Documents (FirePlan KlgvPlan Plan Point Row)
open Json (Double FaithfulRepr Same ScalarText Text Value)
open Numerals (Uuid)
open Snapshots (Edit Injective Stored agree editing last snapshot)

/-- The digest of texts, and how a moment and a number are written. -/
structure Settings where
  sha256 : Text → Text
  isoformat : ℕ → Text
  floatRepr : Double → Text

def fingerprint (settings : Settings) (value : Value) : Text := settings.sha256 (Json.dumps settings.floatRepr value)

structure Hydrant where
  id : Uuid
  department : ℕ
  externalIdentifier : Text
  geometry : Point
  street : Text
  houseNumber : Text
  location : Option Text
  hydrantType : Text
  diameterMm : Option ℕ
  status : Text
  updatedAt : ℕ
  deriving DecidableEq

/-! ### Identities -/

def externalKey (externalIdentifier : Text) : Text := Json.text "external_identifier:" ++ externalIdentifier

/-- `_document_identity_key` in the domain of fire plans. -/
def firePlanKey (externalIdentifier address : Text) : Text :=
  if Json.strip externalIdentifier ≠ [] then externalKey (Json.strip externalIdentifier)
  else Json.text "address:" ++ Json.strip address

/-- `_document_identity_key` in the domain of KLGV plans; a null character separates the name from the address. -/
def klgvPlanKey (externalIdentifier objectName address : Text) : Text :=
  if Json.strip externalIdentifier ≠ [] then externalKey (Json.strip externalIdentifier)
  else Json.text "object_name_address:" ++ (Json.strip objectName ++ 0 :: Json.strip address)

/-! ### What is fingerprinted -/

def FirePlan.payload (isoformat : ℕ → Text) (plan : FirePlan) : Value :=
  .dict [(Json.text "updated_at", .str (isoformat plan.updatedAt)), (Json.text "active", .bool plan.active),
    (Json.text "sha256", .str plan.sha256), (Json.text "object_name", .str plan.objectName),
    (Json.text "address", .str plan.address), (Json.text "postal_code", .str plan.postalCode),
    (Json.text "city", .str plan.city), (Json.text "fsd_location", .str plan.fsdLocation),
    (Json.text "bmz_location", .str plan.bmzLocation), (Json.text "rwa_info", .str plan.rwaInfo)]

def pointValue (point : Point) : Value :=
  .dict [(Json.text "longitude", .float point.longitude), (Json.text "latitude", .float point.latitude)]

def KlgvPlan.payload (isoformat : ℕ → Text) (plan : KlgvPlan) : Value :=
  .dict [(Json.text "updated_at", .str (isoformat plan.updatedAt)), (Json.text "active", .bool plan.active),
    (Json.text "sha256", .str plan.sha256), (Json.text "object_name", .str plan.objectName),
    (Json.text "address", .str plan.address), (Json.text "postal_code", .str plan.postalCode),
    (Json.text "city", .str plan.city), (Json.text "location", (plan.location.map pointValue).getD .null)]

def hydrantBusinessValues (hydrant : Hydrant) : Value :=
  .dict [(Json.text "longitude", .float hydrant.geometry.longitude), (Json.text "latitude", .float hydrant.geometry.latitude),
    (Json.text "street", .str hydrant.street), (Json.text "house_number", .str hydrant.houseNumber),
    (Json.text "location", (hydrant.location.map Value.str).getD .null), (Json.text "hydrant_type", .str hydrant.hydrantType),
    (Json.text "diameter_mm", (hydrant.diameterMm.map fun n => Value.int n).getD .null), (Json.text "status", .str hydrant.status)]

def Hydrant.payload (isoformat : ℕ → Text) (hydrant : Hydrant) : Value :=
  .dict [(Json.text "updated_at", .str (isoformat hydrant.updatedAt)), (Json.text "business_values", hydrantBusinessValues hydrant)]

/-! ### Preview and confirmation -/

/-- How the rows `τ` of an import are matched with the records `ρ` of a domain, and what the database accepts:
`Storable` records, any two of which are `Compatible`. -/
structure Catalogue (ρ τ : Type) where
  id : ρ → Uuid
  department : ρ → ℕ
  updatedAt : ρ → ℕ
  key : ρ → Text
  rowKey : τ → Text
  /-- The records the queries select beside the department. -/
  relevant : List τ → ρ → Bool
  payload : (ℕ → Text) → ρ → Value
  staleMessage : String
  Storable : (Double → Prop) → ρ → Prop
  Compatible : ρ → ρ → Prop

inductive Error where
  | importError (message : String)
  | dataError
  deriving DecidableEq

namespace Catalogue

variable {ρ τ : Type}

/-- The baseline over the records a query returned. -/
def baseline (c : Catalogue ρ τ) (settings : Settings) (fetched : List ρ) : List (Text × Text) :=
  snapshot c.key (fun r => fingerprint settings (c.payload settings.isoformat r)) fetched

/-- The baseline stored with a preview; the database refuses a null character in a JSON text. -/
def createPreview (c : Catalogue ρ τ) (settings : Settings) (fetched : List ρ) : Except Error (List (Text × Text)) :=
  let baseline := c.baseline settings fetched
  if baseline.any fun item => 0 ∈ item.1 then throw .dataError else return baseline

/-- The rows with the records a confirmed import reads as their matches: `fetched` for the baseline, `found` under lock. -/
def applyPreview (c : Catalogue ρ τ) (settings : Settings) (baseline : List (Text × Text)) (fetched found : List ρ) (rows : List τ) :
    Except Error (List (τ × Option ρ)) :=
  if agree (c.baseline settings fetched) baseline then return rows.map fun row => (row, last c.key found (c.rowKey row))
  else throw (.importError c.staleMessage)

/-- The queried records in the order of the query, which the database chooses. -/
def Fetched (c : Catalogue ρ τ) (rows : List τ) (department : ℕ) (stored fetched : List ρ) : Prop :=
  fetched.Perm (stored.filter fun r => c.department r = department ∧ c.relevant rows r = true)

/-- What the columns and constraints of the table let stand. -/
def Accepted (c : Catalogue ρ τ) (P : Double → Prop) (stored : List ρ) : Prop :=
  (∀ r ∈ stored, c.Storable P r) ∧ stored.Pairwise c.Compatible

end Catalogue

/-- A text column: Unicode without the null character. -/
def Column (t : Text) : Prop := ScalarText t ∧ 0 ∉ t

/-- The columns of a plan as its services store them. -/
structure PlanColumns (P : Double → Prop) (plan : Plan) : Prop where
  externalIdentifier : Column plan.externalIdentifier
  objectName : Column plan.objectName
  address : Column plan.address
  postalCode : Column plan.postalCode
  city : Column plan.city
  sha256 : Column plan.sha256
  location : ∀ point, plan.location = some point → P point.longitude ∧ P point.latitude
  identifierStripped : Json.strip plan.externalIdentifier = plan.externalIdentifier
  addressStripped : Json.strip plan.address = plan.address

/-- Two records do not share an external identifier, unless it is blank. -/
def identifiersDiffer (first second : Text) : Prop := first ≠ [] → first ≠ second

def firePlans : Catalogue FirePlan Row where
  id plan := plan.id
  department plan := plan.department
  updatedAt plan := plan.updatedAt
  key plan := firePlanKey plan.externalIdentifier plan.address
  rowKey row := firePlanKey row.externalIdentifier row.address
  relevant _ _ := true
  payload := FirePlan.payload
  staleMessage := "Canonical documents changed; re-preview is required."
  Storable P plan := PlanColumns P plan.toPlan ∧ Column plan.fsdLocation ∧ Column plan.bmzLocation ∧ Column plan.rwaInfo ∧
    (plan.externalIdentifier ≠ [] ∨ plan.address ≠ [])
  Compatible a b := a.department = b.department → identifiersDiffer a.externalIdentifier b.externalIdentifier ∧
    (a.externalIdentifier = [] → b.externalIdentifier = [] → a.address ≠ [] → a.address ≠ b.address)

def klgvPlans : Catalogue KlgvPlan Row where
  id plan := plan.id
  department plan := plan.department
  updatedAt plan := plan.updatedAt
  key plan := klgvPlanKey plan.externalIdentifier plan.objectName plan.address
  rowKey row := klgvPlanKey row.externalIdentifier row.title row.address
  relevant _ _ := true
  payload := KlgvPlan.payload
  staleMessage := "Canonical documents changed; re-preview is required."
  Storable P plan := PlanColumns P plan.toPlan ∧ Json.strip plan.objectName = plan.objectName
  Compatible a b := a.department = b.department → identifiersDiffer a.externalIdentifier b.externalIdentifier

/-- The non-empty identifiers among the rows, as a set. -/
def hydrantIdentifiers (rows : List Text) : List Text := rows.filter (· ≠ [])

/-- The rows of a hydrant import by their external identifiers. -/
def hydrants : Catalogue Hydrant Text where
  id hydrant := hydrant.id
  department hydrant := hydrant.department
  updatedAt hydrant := hydrant.updatedAt
  key hydrant := hydrant.externalIdentifier
  rowKey identifier := identifier
  relevant rows hydrant := hydrant.externalIdentifier ∈ hydrantIdentifiers rows
  payload := Hydrant.payload
  staleMessage := "Canonical hydrants changed; re-preview is required."
  Storable P hydrant := Column hydrant.externalIdentifier ∧ Column hydrant.street ∧ Column hydrant.houseNumber ∧
    (∀ t, hydrant.location = some t → Column t) ∧ Column hydrant.hydrantType ∧ Column hydrant.status ∧
    P hydrant.geometry.longitude ∧ P hydrant.geometry.latitude
  Compatible a b := a.department = b.department → identifiersDiffer a.externalIdentifier b.externalIdentifier

/-! ### Stale previews -/

namespace Catalogue

section

variable {ρ τ : Type} (c : Catalogue ρ τ) (settings : Settings) (P : Double → Prop)

/-- Records with one key that holds no null character are not let stand together. -/
def Separated : Prop :=
  ∀ rows a b, c.Storable P a → c.Storable P b → c.department a = c.department b → c.relevant rows a = true →
    c.relevant rows b = true → 0 ∉ c.key a → c.key a = c.key b → ¬c.Compatible a b

/-- A fingerprint tells when the record was last written. -/
def Dated : Prop :=
  ∀ a b, c.Storable P a → c.Storable P b → fingerprint settings (c.payload settings.isoformat a) =
    fingerprint settings (c.payload settings.isoformat b) → c.updatedAt a = c.updatedAt b

/-- Whatever edits come between a preview and its confirmation, single ones and imports of many rows under one stamp, either
the confirmation is refused, or it matches every row with the record the preview matched it with, and no edit was about that
record. -/
def Detects : Prop :=
  ∀ s trace t, (editing c.id c.updatedAt (c.Accepted P)).Run s trace t →
    ∀ (rows : List τ) (department : ℕ) (before after found : List ρ) (baseline : List (Text × Text)),
      c.Fetched rows department s.rows before → c.Fetched rows department t.rows after →
      c.Fetched rows department t.rows found → c.createPreview settings before = .ok baseline →
      c.applyPreview settings baseline after found rows = .error (.importError c.staleMessage) ∨
      c.applyPreview settings baseline after found rows = .ok (rows.map fun row => (row, last c.key before (c.rowKey row))) ∧
        ∀ row ∈ rows, ∀ r, last c.key before (c.rowKey row) = some r → ∀ step ∈ trace, c.id r ∉ step.2.1.targets c.id

variable {c settings P}

theorem eq_or_of_pairwise {α : Type} {R : α → α → Prop} {l : List α} (h : l.Pairwise R) {a b : α} (ha : a ∈ l) (hb : b ∈ l) :
    a = b ∨ R a b ∨ R b a := by
  have hforward : l.Pairwise fun x y => x = y ∨ R x y ∨ R y x := h.imp fun hR => .inr (.inl hR)
  have hbackward : l.Pairwise fun x y => y = x ∨ R y x ∨ R x y := h.imp fun hR => .inr (.inr hR)
  exact List.Pairwise.forall_of_forall_of_flip (fun _ _ => .inl rfl) hforward hbackward ha hb

/-- The constraints decide whether the records a query returns have identities of their own. -/
theorem injective_of_apart {rows : List τ} {department : ℕ} {stored fetched : List ρ} (haccepted : c.Accepted P stored)
    (hfetched : c.Fetched rows department stored fetched)
    (hapart : ∀ a ∈ fetched, ∀ b, c.Storable P a → c.Storable P b → c.department a = c.department b → c.relevant rows a = true →
      c.relevant rows b = true → c.key a = c.key b → c.Compatible a b → a = b) : Injective c.key fetched := by
  have hselected : ∀ r ∈ fetched, r ∈ stored ∧ c.department r = department ∧ c.relevant rows r = true := by
    intro r hr
    have hmem := List.mem_filter.mp (hfetched.mem_iff.mp hr)
    simpa using hmem
  intro a ha b hb hkey
  obtain ⟨hsa, hda, hra⟩ := hselected a ha
  obtain ⟨hsb, hdb, hrb⟩ := hselected b hb
  have hstorable := haccepted.1
  rcases eq_or_of_pairwise haccepted.2 hsa hsb with heq | hcompatible | hcompatible
  · exact heq
  · exact hapart a ha b (hstorable a hsa) (hstorable b hsb) (hda.trans hdb.symm) hra hrb hkey hcompatible
  · exact (hapart b hb a (hstorable b hsb) (hstorable a hsa) (hdb.trans hda.symm) hrb hra hkey.symm hcompatible).symm

theorem Separated.injective (hsep : c.Separated P) {rows : List τ} {department : ℕ} {stored fetched : List ρ}
    (haccepted : c.Accepted P stored) (hfetched : c.Fetched rows department stored fetched) (hnull : ∀ r ∈ fetched, 0 ∉ c.key r) :
    Injective c.key fetched :=
  injective_of_apart haccepted hfetched fun a ha b hsa hsb hdepartment hra hrb hkey hcompatible =>
    absurd hcompatible (hsep rows a b hsa hsb hdepartment hra hrb (hnull a ha) hkey)

theorem createPreview_eq_ok {fetched : List ρ} {baseline : List (Text × Text)}
    (h : c.createPreview settings fetched = .ok baseline) : baseline = c.baseline settings fetched ∧ ∀ r ∈ fetched, 0 ∉ c.key r := by
  unfold createPreview at h
  dsimp only at h
  split at h
  · cases h
  · rename_i hnone
    cases h
    refine ⟨rfl, fun r hr hnull => hnone ?_⟩
    have hitem : (c.key r, fingerprint settings (c.payload settings.isoformat r)) ∈ c.baseline settings fetched := List.mem_map_of_mem hr
    exact List.any_eq_true.mpr ⟨_, hitem, decide_eq_true hnull⟩

/-- Separated keys and dated fingerprints detect every edit of a matched record. -/
theorem detects (hsep : c.Separated P) (hdated : c.Dated settings P) : c.Detects settings P := by
  intro s trace t hrun rows department before after found baseline hbefore hafter hfound hpreview
  obtain ⟨rfl, hnull⟩ := createPreview_eq_ok hpreview
  unfold applyPreview
  by_cases hagree : agree (c.baseline settings after) (c.baseline settings before) = true
  · rw [if_pos hagree]
    obtain ⟨hstart, hend, -, -⟩ := Snapshots.Run.accepted hrun
    have hinj : Injective c.key before := hsep.injective hstart hbefore hnull
    have hnull' : ∀ r ∈ after, 0 ∉ c.key r := by
      intro r hr
      obtain ⟨x, hx, hkey⟩ := Snapshots.exists_key hagree hr
      rw [← hkey]
      exact hnull x hx
    have hinj' : Injective c.key after := hsep.injective hend hafter hnull'
    have hprint : ∀ a ∈ before, ∀ b ∈ after, fingerprint settings (c.payload settings.isoformat a) =
        fingerprint settings (c.payload settings.isoformat b) → c.updatedAt a = c.updatedAt b := by
      intro a ha b hb
      have hsa := (List.mem_filter.mp (hbefore.mem_iff.mp ha)).1
      have hsb := (List.mem_filter.mp (hafter.mem_iff.mp hb)).1
      exact hdated a b (hstart.1 a hsa) (hend.1 b hsb)
    have hagree' : agree (c.baseline settings before) (c.baseline settings after) = true :=
      Snapshots.agree_iff.mpr fun k => (Snapshots.agree_iff.mp hagree k).symm
    have huntouched : ∀ k, last c.key found k = last c.key before k ∧
        ∀ r, last c.key before k = some r → ∀ step ∈ trace, c.id r ∉ step.2.1.targets c.id :=
      fun k => Snapshots.untouched_of_agree hrun hbefore hafter hfound hinj hinj' hprint hagree'
    refine .inr ⟨?_, fun row _ r hr => (huntouched (c.rowKey row)).2 r hr⟩
    exact congrArg Except.ok (List.map_congr_left fun row _ => congrArg (Prod.mk row) (huntouched (c.rowKey row)).1)
  · rw [if_neg hagree]
    exact .inl rfl

end

end Catalogue

/-! ### Identities of stored records -/

section

variable {P : Double → Prop}

theorem externalKey_injective {a b : Text} (h : externalKey a = externalKey b) : a = b := List.append_cancel_left h

theorem firePlanKey_external {externalIdentifier address : Text} (hstrip : Json.strip externalIdentifier = externalIdentifier)
    (hne : externalIdentifier ≠ []) : firePlanKey externalIdentifier address = externalKey externalIdentifier := by
  rw [firePlanKey, hstrip, if_pos hne]

theorem firePlanKey_address {address : Text} (hstrip : Json.strip address = address) :
    firePlanKey [] address = Json.text "address:" ++ address := by
  rw [firePlanKey, if_neg (by decide), hstrip]

theorem head_externalKey (a : Text) : (externalKey a).head? = some 101 := by
  have hhead : (Json.text "external_identifier:").head? = some 101 := by decide
  rw [externalKey, List.head?_append, hhead]
  rfl

theorem externalKey_ne_address (a b : Text) : externalKey a ≠ Json.text "address:" ++ b := by
  intro h
  have hhead : (Json.text "address:").head? = some 97 := by decide
  have hkey := head_externalKey a
  rw [h, List.head?_append, hhead, Option.some_or] at hkey
  exact absurd hkey (by decide)

/-- The constraints on fire plans keep their identities apart. -/
theorem firePlan_separated {a b : FirePlan} (ha : firePlans.Storable P a) (hb : firePlans.Storable P b)
    (hdepartment : a.department = b.department) (hkey : firePlans.key a = firePlans.key b) : ¬firePlans.Compatible a b := by
  obtain ⟨hcolumns, -, -, -, hidentity⟩ := ha
  obtain ⟨hcolumns', -, -, -, hidentity'⟩ := hb
  intro hcompatible
  obtain ⟨hidentifiers, haddresses⟩ := hcompatible hdepartment
  change firePlanKey a.externalIdentifier a.address = firePlanKey b.externalIdentifier b.address at hkey
  by_cases hblank : a.externalIdentifier = []
  · by_cases hblank' : b.externalIdentifier = []
    · rw [hblank, hblank', firePlanKey_address hcolumns.addressStripped, firePlanKey_address hcolumns'.addressStripped] at hkey
      have haddress : a.address ≠ [] := hidentity.resolve_left (not_not.mpr hblank)
      exact haddresses hblank hblank' haddress (List.append_cancel_left hkey)
    · rw [hblank, firePlanKey_address hcolumns.addressStripped, firePlanKey_external hcolumns'.identifierStripped hblank'] at hkey
      exact externalKey_ne_address _ _ hkey.symm
  · rw [firePlanKey_external hcolumns.identifierStripped hblank] at hkey
    by_cases hblank' : b.externalIdentifier = []
    · rw [hblank', firePlanKey_address hcolumns'.addressStripped] at hkey
      exact externalKey_ne_address _ _ hkey
    · rw [firePlanKey_external hcolumns'.identifierStripped hblank'] at hkey
      exact hidentifiers hblank (externalKey_injective hkey)

theorem hydrant_separated {a b : Hydrant} (hdepartment : a.department = b.department) (hne : a.externalIdentifier ≠ [])
    (hkey : a.externalIdentifier = b.externalIdentifier) : ¬hydrants.Compatible a b :=
  fun hcompatible => hcompatible hdepartment hne hkey

theorem klgvPlanKey_external {externalIdentifier objectName address : Text}
    (hstrip : Json.strip externalIdentifier = externalIdentifier) (hne : externalIdentifier ≠ []) :
    klgvPlanKey externalIdentifier objectName address = externalKey externalIdentifier := by
  rw [klgvPlanKey, hstrip, if_pos hne]

theorem klgvPlanKey_blank {objectName address : Text} (hname : Json.strip objectName = objectName)
    (haddress : Json.strip address = address) :
    klgvPlanKey [] objectName address = Json.text "object_name_address:" ++ (objectName ++ 0 :: address) := by
  rw [klgvPlanKey, if_neg (by decide), hname, haddress]

theorem externalKey_ne_objectName (a b : Text) : externalKey a ≠ Json.text "object_name_address:" ++ b := by
  intro h
  have hhead : (Json.text "object_name_address:").head? = some 111 := by decide
  have hkey := head_externalKey a
  rw [h, List.head?_append, hhead, Option.some_or] at hkey
  exact absurd hkey (by decide)

/-- A text without null characters is read off before the first one. -/
theorem split_null {a b c d : Text} (ha : 0 ∉ a) (hc : 0 ∉ c) (h : a ++ 0 :: b = c ++ 0 :: d) : a = c ∧ b = d := by
  induction a generalizing c with
  | nil =>
    cases c with
    | nil => exact ⟨rfl, (List.cons.inj h).2⟩
    | cons x rest => exact absurd (List.mem_cons.mpr (.inl (List.cons.inj h).1)) hc
  | cons x rest ih =>
    cases c with
    | nil => exact absurd (List.mem_cons.mpr (.inl (List.cons.inj h).1.symm)) ha
    | cons y others =>
      rw [List.mem_cons, not_or] at ha hc
      obtain ⟨hhead, htail⟩ := List.cons.inj h
      obtain ⟨hsame, hrest⟩ := ih ha.2 hc.2 htail
      exact ⟨by rw [hhead, hsame], hrest⟩

/-- KLGV plans of one identity share an external identifier, or have none and share name and address. -/
theorem klgvPlan_key_eq_iff {a b : KlgvPlan} (ha : klgvPlans.Storable P a) (hb : klgvPlans.Storable P b) :
    klgvPlans.key a = klgvPlans.key b ↔ a.externalIdentifier = b.externalIdentifier ∧
      (a.externalIdentifier = [] → a.objectName = b.objectName ∧ a.address = b.address) := by
  obtain ⟨hcolumns, hname⟩ := ha
  obtain ⟨hcolumns', hname'⟩ := hb
  change klgvPlanKey a.externalIdentifier a.objectName a.address = klgvPlanKey b.externalIdentifier b.objectName b.address ↔ _
  by_cases hblank : a.externalIdentifier = []
  · by_cases hblank' : b.externalIdentifier = []
    · rw [hblank, hblank', klgvPlanKey_blank hname hcolumns.addressStripped, klgvPlanKey_blank hname' hcolumns'.addressStripped]
      constructor
      · intro hkey
        exact ⟨rfl, fun _ => split_null hcolumns.objectName.2 hcolumns'.objectName.2 (List.append_cancel_left hkey)⟩
      · rintro ⟨-, hsame⟩
        obtain ⟨hnames, haddresses⟩ := hsame rfl
        rw [hnames, haddresses]
    · rw [hblank, klgvPlanKey_blank hname hcolumns.addressStripped, klgvPlanKey_external hcolumns'.identifierStripped hblank']
      constructor
      · exact fun hkey => absurd hkey.symm (externalKey_ne_objectName _ _)
      · exact fun hsame => absurd hsame.1.symm hblank'
  · rw [klgvPlanKey_external hcolumns.identifierStripped hblank]
    by_cases hblank' : b.externalIdentifier = []
    · rw [hblank', klgvPlanKey_blank hname' hcolumns'.addressStripped]
      constructor
      · exact fun hkey => absurd hkey (externalKey_ne_objectName _ _)
      · exact fun hsame => absurd hsame.1 hblank
    · rw [klgvPlanKey_external hcolumns'.identifierStripped hblank']
      constructor
      · exact fun hkey => ⟨externalKey_injective hkey, fun hnil => absurd hnil hblank⟩
      · exact fun hsame => by rw [hsame.1]

/-- Without a null character in its identity a KLGV plan has an external identifier. -/
theorem klgvPlan_separated {a b : KlgvPlan} (ha : klgvPlans.Storable P a) (hb : klgvPlans.Storable P b)
    (hdepartment : a.department = b.department) (hnull : 0 ∉ klgvPlans.key a) (hkey : klgvPlans.key a = klgvPlans.key b) :
    ¬klgvPlans.Compatible a b := by
  have hne : a.externalIdentifier ≠ [] := by
    intro hblank
    apply hnull
    change 0 ∈ klgvPlanKey a.externalIdentifier a.objectName a.address
    rw [hblank, klgvPlanKey_blank ha.2 ha.1.addressStripped]
    exact List.mem_append_right _ (List.mem_append_right _ List.mem_cons_self)
  exact fun hcompatible => hcompatible hdepartment hne ((klgvPlan_key_eq_iff ha hb).mp hkey).1

end

/-! ### Fingerprints of stored records -/

section

variable {P : Double → Prop} {settings : Settings}

/-- Objects of one fingerprint carry the same time of their last update. -/
theorem updatedAt_of_fingerprint (hsha : Function.Injective settings.sha256) (hfloat : FaithfulRepr settings.floatRepr P)
    {key t u : Text} {rest rest' : List (Text × Value)} (hv : (Value.dict ((key, .str t) :: rest)).Proper ScalarText P)
    (hw : (Value.dict ((key, .str u) :: rest')).Proper ScalarText P)
    (h : fingerprint settings (.dict ((key, .str t) :: rest)) = fingerprint settings (.dict ((key, .str u) :: rest'))) : t = u := by
  have hsame : Same (.dict ((key, .str t) :: rest)) (.dict ((key, .str u) :: rest')) := (Json.dumps_eq_iff hfloat hv hw).mp (hsha h)
  obtain ⟨w, hmem, hvalue⟩ := hsame.member List.mem_cons_self
  have hnodup := (Json.proper_dict.mp hw).1
  rw [List.map_cons, List.nodup_cons] at hnodup
  rcases List.mem_cons.mp hmem with heq | hrest
  · rw [(Prod.mk.inj heq).2] at hvalue
    exact hvalue.str_inj
  · exact absurd (List.mem_map_of_mem hrest) hnodup.1

theorem nodup_texts {names : List String} (h : names.Nodup) : (names.map Json.text).Nodup :=
  (List.nodup_map_iff fun _ _ => Json.text_injective).mpr h

theorem firePlan_proper (hiso : ∀ n, ScalarText (settings.isoformat n)) {plan : FirePlan} (h : firePlans.Storable P plan) :
    (FirePlan.payload settings.isoformat plan).Proper ScalarText P := by
  obtain ⟨hcolumns, hfsd, hbmz, hrwa, -⟩ := h
  refine Json.proper_dict.mpr ⟨nodup_texts (show ["updated_at", "active", "sha256", "object_name", "address", "postal_code", "city",
    "fsd_location", "bmz_location", "rwa_info"].Nodup by decide), ?_⟩
  simp only [List.forall_mem_cons, List.not_mem_nil, false_implies, implies_true, and_true, Json.proper_str, Json.proper_bool,
    Json.Schema.scalarText_text, true_and]
  exact ⟨hiso _, hcolumns.sha256.1, hcolumns.objectName.1, hcolumns.address.1, hcolumns.postalCode.1, hcolumns.city.1, hfsd.1, hbmz.1, hrwa.1⟩

theorem point_proper {point : Point} (h : P point.longitude ∧ P point.latitude) : (pointValue point).Proper ScalarText P := by
  refine Json.proper_dict.mpr ⟨nodup_texts (show ["longitude", "latitude"].Nodup by decide), ?_⟩
  simp only [List.forall_mem_cons, List.not_mem_nil, false_implies, implies_true, and_true, Json.proper_float, Json.Schema.scalarText_text, true_and]
  exact h

theorem klgvPlan_proper (hiso : ∀ n, ScalarText (settings.isoformat n)) {plan : KlgvPlan} (h : klgvPlans.Storable P plan) :
    (KlgvPlan.payload settings.isoformat plan).Proper ScalarText P := by
  obtain ⟨hcolumns, -⟩ := h
  have hlocation : ((plan.location.map pointValue).getD .null).Proper ScalarText P := by
    cases hpoint : plan.location with
    | none => exact Json.proper_null
    | some point => exact point_proper (hcolumns.location point hpoint)
  refine Json.proper_dict.mpr ⟨nodup_texts (show ["updated_at", "active", "sha256", "object_name", "address", "postal_code", "city",
    "location"].Nodup by decide), ?_⟩
  simp only [List.forall_mem_cons, List.not_mem_nil, false_implies, implies_true, and_true, Json.proper_str, Json.proper_bool,
    Json.Schema.scalarText_text, true_and]
  exact ⟨hiso _, hcolumns.sha256.1, hcolumns.objectName.1, hcolumns.address.1, hcolumns.postalCode.1, hcolumns.city.1, hlocation⟩

theorem hydrant_proper (hiso : ∀ n, ScalarText (settings.isoformat n)) {hydrant : Hydrant} (h : hydrants.Storable P hydrant) :
    (Hydrant.payload settings.isoformat hydrant).Proper ScalarText P := by
  obtain ⟨-, hstreet, hnumber, hlocation, htype, hstatus, hgeometry⟩ := h
  have htext : ((hydrant.location.map Value.str).getD .null).Proper ScalarText P := by
    cases hsome : hydrant.location with
    | none => exact Json.proper_null
    | some t => exact Json.proper_str.mpr (hlocation t hsome).1
  have hdiameter : ((hydrant.diameterMm.map fun n => Value.int n).getD .null).Proper ScalarText P := by
    cases hydrant.diameterMm with
    | none => exact Json.proper_null
    | some n => exact Json.proper_int
  have hvalues : (hydrantBusinessValues hydrant).Proper ScalarText P := by
    refine Json.proper_dict.mpr ⟨nodup_texts (show ["longitude", "latitude", "street", "house_number", "location", "hydrant_type",
      "diameter_mm", "status"].Nodup by decide), ?_⟩
    simp only [List.forall_mem_cons, List.not_mem_nil, false_implies, implies_true, and_true, Json.proper_str, Json.proper_float,
      Json.Schema.scalarText_text, true_and]
    exact ⟨hgeometry.1, hgeometry.2, hstreet.1, hnumber.1, htext, htype.1, hdiameter, hstatus.1⟩
  refine Json.proper_dict.mpr ⟨nodup_texts (show ["updated_at", "business_values"].Nodup by decide), ?_⟩
  simp only [List.forall_mem_cons, List.not_mem_nil, false_implies, implies_true, and_true, Json.proper_str, Json.Schema.scalarText_text, true_and]
  exact ⟨hiso _, hvalues⟩

end

/-- The identities of a department's KLGV plans collapse exactly when two plans without external identifier share their
name and address. -/
theorem klgvPlan_injective_iff {P : Double → Prop} {rows : List Row} {department : ℕ} {stored fetched : List KlgvPlan}
    (haccepted : klgvPlans.Accepted P stored) (hfetched : klgvPlans.Fetched rows department stored fetched) :
    Injective klgvPlans.key fetched ↔ ∀ a ∈ fetched, ∀ b ∈ fetched, a.externalIdentifier = [] → b.externalIdentifier = [] →
      a.objectName = b.objectName → a.address = b.address → a = b := by
  have hstorable : ∀ r ∈ fetched, klgvPlans.Storable P r :=
    fun r hr => haccepted.1 r (List.mem_filter.mp (hfetched.mem_iff.mp hr)).1
  constructor
  · intro hinj a ha b hb hblank hblank' hname haddress
    refine hinj a ha b hb ((klgvPlan_key_eq_iff (hstorable a ha) (hstorable b hb)).mpr ⟨hblank.trans hblank'.symm, fun _ => ⟨hname, haddress⟩⟩)
  · intro hblanks a ha b hb hkey
    obtain ⟨hidentifier, hsame⟩ := (klgvPlan_key_eq_iff (hstorable a ha) (hstorable b hb)).mp hkey
    by_cases hblank : a.externalIdentifier = []
    · obtain ⟨hname, haddress⟩ := hsame hblank
      exact hblanks a ha b hb hblank (hidentifier ▸ hblank) hname haddress
    · have hselected : ∀ r ∈ fetched, r ∈ stored ∧ r.department = department := by
        intro r hr
        have hmem := List.mem_filter.mp (hfetched.mem_iff.mp hr)
        simpa [klgvPlans] using hmem
      obtain ⟨hsa, hda⟩ := hselected a ha
      obtain ⟨hsb, hdb⟩ := hselected b hb
      rcases Catalogue.eq_or_of_pairwise haccepted.2 hsa hsb with heq | hcompatible | hcompatible
      · exact heq
      · exact absurd hidentifier (hcompatible (hda.trans hdb.symm) hblank)
      · exact absurd hidentifier.symm (hcompatible (hdb.trans hda.symm) (hidentifier ▸ hblank))

/-- Between a preview and its confirmation every edit of a matched record is detected, and only KLGV plans without
external identifier can share an identity. -/
theorem stale_previews_detected (settings : Settings) (P : Double → Prop) (hsha : Function.Injective settings.sha256)
    (hiso : Function.Injective settings.isoformat) (htext : ∀ n, ScalarText (settings.isoformat n))
    (hfloat : FaithfulRepr settings.floatRepr P) :
    firePlans.Detects settings P ∧ klgvPlans.Detects settings P ∧ hydrants.Detects settings P ∧
    (∀ rows department stored fetched, firePlans.Accepted P stored → firePlans.Fetched rows department stored fetched →
      Injective firePlans.key fetched) ∧
    (∀ rows department stored fetched, hydrants.Accepted P stored → hydrants.Fetched rows department stored fetched →
      Injective hydrants.key fetched) ∧
    ∀ rows department stored fetched, klgvPlans.Accepted P stored → klgvPlans.Fetched rows department stored fetched →
      (Injective klgvPlans.key fetched ↔ ∀ a ∈ fetched, ∀ b ∈ fetched, a.externalIdentifier = [] → b.externalIdentifier = [] →
        a.objectName = b.objectName → a.address = b.address → a = b) := by
  have hne : ∀ rows (a : Hydrant), hydrants.relevant rows a = true → a.externalIdentifier ≠ [] := by
    intro rows a ha
    have hmem := List.mem_filter.mp (of_decide_eq_true ha)
    exact of_decide_eq_true hmem.2
  refine ⟨?_, ?_, ?_, ?_, ?_, fun rows department stored fetched => klgvPlan_injective_iff⟩
  · refine Catalogue.detects (fun rows a b ha hb hdepartment _ _ _ hkey => firePlan_separated ha hb hdepartment hkey) ?_
    exact fun a b ha hb h => hiso (updatedAt_of_fingerprint hsha hfloat (firePlan_proper htext ha) (firePlan_proper htext hb) h)
  · refine Catalogue.detects (fun rows a b ha hb hdepartment _ _ hnull hkey => klgvPlan_separated ha hb hdepartment hnull hkey) ?_
    exact fun a b ha hb h => hiso (updatedAt_of_fingerprint hsha hfloat (klgvPlan_proper htext ha) (klgvPlan_proper htext hb) h)
  · refine Catalogue.detects (fun rows a b _ _ hdepartment hra _ _ hkey => hydrant_separated hdepartment (hne rows a hra) hkey) ?_
    exact fun a b ha hb h => hiso (updatedAt_of_fingerprint hsha hfloat (hydrant_proper htext ha) (hydrant_proper htext hb) h)
  · intro rows department stored fetched haccepted hfetched
    exact Catalogue.injective_of_apart haccepted hfetched fun a _ b ha hb hdepartment _ _ hkey hcompatible =>
      absurd hcompatible (firePlan_separated ha hb hdepartment hkey)
  · intro rows department stored fetched haccepted hfetched
    exact Catalogue.injective_of_apart haccepted hfetched fun a _ b _ _ hdepartment hra _ hkey hcompatible =>
      absurd hcompatible (hydrant_separated hdepartment (hne rows a hra) hkey)

/-- A digest that keeps its text, and moments as runs of one digit. -/
def plain : Settings := { sha256 := id, isoformat := fun n => List.replicate n 48, floatRepr := fun _ => [] }

def school (id : Uuid) (externalIdentifier : String) (updatedAt : ℕ) : KlgvPlan where
  id := id
  department := 1
  externalIdentifier := Json.text externalIdentifier
  objectName := Json.text "School"
  address := Json.text "Road"
  postalCode := Json.text "20095"
  city := Json.text "Hamburg"
  location := none
  originalFilename := []
  fileSize := 1
  pageCount := 1
  sha256 := []
  sourcePdfSha256 := []
  active := true
  updatedAt := updatedAt
  path := []

theorem column_of_all {t : Text} (h : (t.all fun c => 0 < c ∧ c < 55296) = true) : Column t := by
  have hchar : ∀ c ∈ t, 0 < c ∧ c < 55296 := by simpa using h
  exact ⟨fun c hc => .inl (hchar c hc).2, fun hnull => absurd (hchar 0 hnull).1 (Nat.lt_irrefl 0)⟩

theorem school_storable {externalIdentifier : String} (hcolumn : Column (Json.text externalIdentifier))
    (hstrip : Json.strip (Json.text externalIdentifier) = Json.text externalIdentifier) (id : Uuid) (updatedAt : ℕ) :
    klgvPlans.Storable (fun _ => False) (school id externalIdentifier updatedAt) := by
  have hname : Column (Json.text "School") := column_of_all (by decide)
  have haddress : Column (Json.text "Road") := column_of_all (by decide)
  have hpostal : Column (Json.text "20095") := column_of_all (by decide)
  have hcity : Column (Json.text "Hamburg") := column_of_all (by decide)
  have hempty : Column [] := column_of_all (by decide)
  have hstripped : Json.strip (Json.text "Road") = Json.text "Road" := by decide
  have hstripped' : Json.strip (Json.text "School") = Json.text "School" := by decide
  exact ⟨⟨hcolumn, hname, haddress, hpostal, hcity, hempty, nofun, hstrip, hstripped⟩, hstripped'⟩

def schoolRow : Row where
  action := .upsert
  externalIdentifier := Json.text "K-1"
  title := Json.text "School"
  address := Json.text "Road"
  postalCode := Json.text "20095"
  city := Json.text "Hamburg"
  fsdLocation := []
  bmzLocation := []
  rwaInfo := []
  longitude := none
  latitude := none
  originalFilename := []
  fileSize := 1
  pageCount := 1
  sourcePdfSha256 := []
  sanitizedPdfSha256 := []

/-- Two plans of a department, last written at one moment. -/
def schools (updatedAt : ℕ) : List KlgvPlan := [school 1 "K-1" updatedAt, school 2 "K-2" updatedAt]

theorem schools_accepted (updatedAt : ℕ) : klgvPlans.Accepted (fun _ => False) (schools updatedAt) := by
  constructor
  · intro r hr
    rcases List.mem_cons.mp hr with rfl | hr
    · exact school_storable (column_of_all (by decide)) (by decide) 1 updatedAt
    · rw [List.mem_singleton.mp hr]
      exact school_storable (column_of_all (by decide)) (by decide) 2 updatedAt
  · refine List.pairwise_pair.mpr fun _ _ => ?_
    show Json.text "K-1" ≠ Json.text "K-2"
    decide

/-- An import after the preview that saves two plans under one stamp makes the confirmation fail. -/
theorem stale_preview_school :
    klgvPlans.applyPreview plain (klgvPlans.baseline plain (schools 3)) (schools 5) (schools 5) [schoolRow] =
      .error (.importError klgvPlans.staleMessage) := by
  have hiso : Function.Injective plain.isoformat := by
    intro m n h
    simpa [plain] using congrArg List.length h
  have htext : ∀ n, ScalarText (plain.isoformat n) := by
    intro n c hc
    rw [(List.mem_replicate.mp hc).2]
    exact .inl (by decide)
  have hfloat : FaithfulRepr plain.floatRepr fun _ => False := by constructor <;> nofun
  have hstamps : ∀ updatedAt, ∀ r ∈ schools updatedAt, r.updatedAt = updatedAt := by
    intro updatedAt r hr
    rcases List.mem_cons.mp hr with rfl | hr
    · rfl
    · rw [List.mem_singleton.mp hr]
      rfl
  have hinit : (editing klgvPlans.id klgvPlans.updatedAt (klgvPlans.Accepted fun _ => False)).init ⟨schools 3, 4⟩ := by
    refine ⟨schools_accepted 3, fun r hr => ?_⟩
    show r.updatedAt ≤ 4
    rw [hstamps 3 r hr]
    decide
  have hstep : (editing klgvPlans.id klgvPlans.updatedAt (klgvPlans.Accepted fun _ => False)).step ⟨schools 3, 4⟩
      (.save (schools 5)) ⟨schools 5, 4⟩ := by
    refine ⟨rfl, fun r hr => ?_, rfl, schools_accepted 5⟩
    show 4 < r.updatedAt
    rw [hstamps 5 r hr]
    decide
  have hrun := (Machine.Run.start hinit).next hstep
  have hdetects := (stale_previews_detected plain _ Function.injective_id hiso htext hfloat).2.1 _ _ _ hrun [schoolRow] 1
    (schools 3) (schools 5) (schools 5) (klgvPlans.baseline plain (schools 3)) (List.Perm.refl _)
    (List.Perm.refl _) (List.Perm.refl _) rfl
  rcases hdetects with hstale | ⟨-, huntouched⟩
  · exact hstale
  · exact absurd List.mem_cons_self (huntouched schoolRow List.mem_cons_self _ rfl _ List.mem_cons_self)

/-- Two plans of one department without external identifier, of one name and address, have one identity. -/
theorem klgv_identities_collapse :
    klgvPlans.Accepted (fun _ => False) [school 1 "" 1, school 2 "" 1] ∧ ¬Injective klgvPlans.key [school 1 "" 1, school 2 "" 1] := by
  refine ⟨⟨fun r hr => ?_, ?_⟩, fun hinj => ?_⟩
  · have hstorable : ∀ id, klgvPlans.Storable (fun _ => False) (school id "" 1) :=
      fun id => school_storable (column_of_all (by decide)) (by decide) id 1
    rcases List.mem_cons.mp hr with rfl | hr
    · exact hstorable 1
    · rw [List.mem_singleton.mp hr]
      exact hstorable 2
  · refine List.pairwise_pair.mpr fun _ hne => ?_
    exact absurd rfl hne
  · have heq := hinj _ List.mem_cons_self _ (List.mem_cons_of_mem _ List.mem_cons_self) rfl
    exact absurd (congrArg (fun plan : KlgvPlan => plan.id) heq) (by decide)

end FireDash.Ingestion.Baselines
