import FireDash.Delivery.System

/-! One publication never blocks a whole manifest: every ready publication has what its
delivery format needs, so its entry renders, and no two entries share type and scope. -/
namespace FireDash.Delivery

open Publications Tx

/-! ### The invariant -/

/-- Every ready publication can be delivered. -/
def AllDeliverable (s : State) : Prop :=
  ∀ {id p}, s.db.publications.find id = some p → p.artifactStatus = .ready → p.Deliverable s.db.documents id

/-- A ready grant holds its wrapped key. -/
def GrantsKeyed (s : State) : Prop :=
  ∀ {i g}, s.db.keyGrants.find i = some g → g.status = .ready →
    g.hpkeEncapsulatedKey.isSome = true ∧ g.hpkeWrappedKey.isSome = true

variable {s t : State} {crypto : DeliveryCrypto} {settings : Settings}

/-- Signatures have a length, so none is the empty value of a null column. -/
def Signing (crypto : DeliveryCrypto) : Prop := ∀ key text, crypto.ed25519Sign key text ≠ []

theorem Resigned.deliverable (hsign : Signing crypto) {d : DocumentTables} {id : PublicationId} {p q : Publication}
    (hr : Resigned crypto p q) (h : p.Deliverable d id) : q.Deliverable d id := by
  obtain ⟨key, text, version, rfl⟩ := hr
  obtain ⟨definition, hdef, hstation, hmeta⟩ := h
  refine ⟨definition, hdef, hstation, ?_⟩
  split
  · rename_i hformat
    rwa [if_pos hformat] at hmeta
  · rename_i hformat
    rw [if_neg hformat] at hmeta
    exact ⟨hmeta.1, hmeta.2.1, hsign key text⟩

theorem Effect.deliverable {db db' : Db} (he : Effect db db')
    (h : ∀ {id p}, db.publications.find id = some p → p.artifactStatus = .ready → p.Deliverable db.documents id)
    {id : PublicationId} {q : Publication} (hq : db'.publications.find id = some q)
    (hready : q.artifactStatus = .ready) : q.Deliverable db'.documents id := by
  cases hp : db.publications.find id with
  | none =>
    obtain ⟨p, -, hpending, hev⟩ := he.fresh hp hq
    rcases hev.ready hready with ⟨hp', -⟩ | hdel
    · rw [hpending] at hp'
      cases hp'
    · exact hdel
  | some p =>
    obtain ⟨q', hq', hev⟩ := he.rows hp
    rw [hq] at hq'
    cases hq'
    rcases hev.ready hready with ⟨hp', hart⟩ | hdel
    · exact (h hp hp').mono he.documents hev.key hev.schemaVersion hart
    · exact hdel

theorem Served.allDeliverable (hsign : Signing crypto) (hs : Served crypto settings s t) (h : AllDeliverable s) :
    AllDeliverable t := by
  cases hs with
  | upkeep hu =>
    intro id p hp hready
    rw [hu.documents]
    exact h (hu.publications ▸ hp) hready
  | claimGrant => exact h
  | endGrant => exact h
  | claimManifest => exact h
  | @endManifest id now m u outcome hm hst hu hsigns =>
    obtain ⟨v, hv, hr⟩ := hu
    intro i q hq hready
    have hdocs : u.db.documents = s.db.documents := by rw [hr.rest]; exact hv.upkeep.documents
    have hq' : u.db.publications.find i = some q := hq
    obtain ⟨p, hp, hpq⟩ := hr.row hq'
    rw [hv.upkeep.publications] at hp
    change q.Deliverable u.db.documents i
    rw [hdocs]
    rcases hpq with rfl | hpq
    · exact h hp hready
    · have hstatus : p.artifactStatus = .ready := by
        obtain ⟨key, text, version, rfl⟩ := hpq
        exact hready
      exact hpq.deliverable hsign (h hp hstatus)
  | endGenerationGrant => exact h

theorem Stepped.allDeliverable (hsign : Signing crypto) (hs : Stepped crypto settings s t) (h : AllDeliverable s) :
    AllDeliverable t := by
  cases hs with
  | publication he hi => exact fun hq hready => Effect.deliverable he h hq hready
  | served hs => exact hs.allDeliverable hsign h

theorem Stepped.grantsKeyed (hs : Stepped crypto settings s t) (h : GrantsKeyed s) : GrantsKeyed t := by
  intro i g hg hst
  rcases hs.readyGrant hg hst with hold | ⟨g₀, now, encapsulatedKey, wrappedKey, -, -, rfl⟩
  · exact h hold hst
  · exact ⟨rfl, rfl⟩

/-! ### Rendering -/

/-- The dataset type and the scope of an entry. -/
def DatasetEntry.label : DatasetEntry → DatasetTypeCode × ScopePayload
  | .document e => (e.type, e.scope)
  | .artifact e => (e.type, e.scope)

def PayloadDataset.label : PayloadDataset → DatasetTypeCode × ScopePayload
  | .document e => (e.type, e.scope)
  | .artifact d => (d.entry.type, d.entry.scope)

/-- The department and the station a valid key has, by its scope type. -/
theorem validateDatasetScope_shape {key : ScopeKey} {definition : DatasetTypeDefinition}
    (h : validateDatasetScope key = .ok definition) :
    match key.scopeType with
    | .system => key.target.department = none ∧ key.target.station = none
    | .department => key.target.department.isSome = true ∧ key.target.station = none
    | .station => key.target.department.isSome = true ∧ key.target.station.isSome = true := by
  simp only [validateDatasetScope, bind_eq_ok, check_eq_ok] at h
  obtain ⟨d, -, -, h⟩ := h
  cases hscope : key.scopeType <;> simp only [hscope, check_eq_ok, not_or] at h <;>
    simpa [Option.isNone_iff_eq_none, Option.isSome_iff_ne_none] using h.1

/-- The signed scope of a valid key repeats its columns. -/
theorem publicationScopePayload_eq {p : Publication} {definition : DatasetTypeDefinition}
    (h : validateDatasetScope p.key = .ok definition) :
    publicationScopePayload p =
      .ok ⟨p.key.scopeType, p.key.target.department, p.key.target.station.map (·.id)⟩ := by
  have hshape := validateDatasetScope_shape h
  unfold publicationScopePayload
  cases hscope : p.key.scopeType with
  | system =>
    simp only [hscope] at hshape
    rw [hshape.1, hshape.2]
    rfl
  | department =>
    simp only [hscope] at hshape
    obtain ⟨department, hd⟩ := Option.isSome_iff_exists.mp hshape.1
    rw [hd, hshape.2]
    rfl
  | station =>
    simp only [hscope] at hshape
    obtain ⟨department, hd⟩ := Option.isSome_iff_exists.mp hshape.1
    obtain ⟨station, hst⟩ := Option.isSome_iff_exists.mp hshape.2
    rw [hd, hst]
    rfl

/-- Publications of one dataset type with the same signed scope have the same key. -/
theorem key_eq_of_payload {d : DocumentTables} {i j : PublicationId} {p q : Publication}
    (hp : p.Deliverable d i) (hq : q.Deliverable d j)
    (hcode : p.key.target.datasetTypeCode = q.key.target.datasetTypeCode)
    (hscope : publicationScopePayload p = publicationScopePayload q) : p.key = q.key := by
  obtain ⟨dp, hvp, hstp, -⟩ := hp
  obtain ⟨dq, hvq, hstq, -⟩ := hq
  rw [publicationScopePayload_eq hvp, publicationScopePayload_eq hvq, Except.ok.injEq, ScopePayload.mk.injEq] at hscope
  obtain ⟨htype, hdep, hst⟩ := hscope
  -- A station is determined by its row and its department, which is that of the key.
  have hstation : p.key.target.station = q.key.target.station := by
    cases hps : p.key.target.station with
    | none =>
      rw [hps, Option.map_none] at hst
      exact (Option.map_eq_none_iff.mp hst.symm).symm
    | some a =>
      cases hqs : q.key.target.station with
      | none =>
        rw [hps, hqs] at hst
        cases hst
      | some b =>
        have hid : a.id = b.id := by
          rw [hps, hqs] at hst
          exact Option.some.inj hst
        have hd : a.departmentId = b.departmentId := by
          have := hstp a hps
          rw [hdep, hstq b hqs] at this
          exact (Option.some.inj this).symm
        have hab : a = b := by
          cases a
          cases b
          simp only at hid hd
          rw [hid, hd]
        rw [hab]
  rcases hpk : p.key with ⟨tp, ⟨depp, stp, codep⟩⟩
  rcases hqk : q.key with ⟨tq, ⟨depq, stq, codeq⟩⟩
  simp only [hpk, hqk] at hcode htype hdep hstation
  rw [hcode, htype, hdep, hstation]

/-- The entry of a complete document generation renders. -/
theorem documentEntry_ok (definition : DatasetTypeDefinition) {d : DocumentTables} {id : PublicationId}
    {p : Publication} {scope : ScopePayload} (hscope : publicationScopePayload p = .ok scope)
    (h : p.schemaVersion = 2 ∧ d.manifests.any (·.publication = id) = true) :
    ∃ entry, documentEntry definition d id p = .ok entry := by
  have hcheck : ¬(p.schemaVersion ≠ 2 ∨ ¬d.manifests.any (·.publication = id)) := by
    rw [not_or, not_not, not_not]
    exact h
  unfold documentEntry
  rw [if_neg hcheck, hscope]
  exact ⟨_, rfl⟩

theorem publicationManifestEntry_ok {d : DocumentTables} {e : PublicationId × Publication}
    (h : e.2.Deliverable d e.1) : ∃ entry, publicationManifestEntry d e = .ok entry := by
  obtain ⟨definition, hvalid, -, hmeta⟩ := h
  have hscope := publicationScopePayload_eq hvalid
  unfold publicationManifestEntry
  rw [validateDatasetScope_definition hvalid, ok_bind]
  by_cases hformat : definition.artifactFormat = .documentManifestV2
  · rw [if_pos hformat] at hmeta
    obtain ⟨entry, hentry⟩ := documentEntry_ok definition hscope hmeta
    rw [if_pos hformat, hentry]
    exact ⟨_, rfl⟩
  · rw [if_neg hformat] at hmeta
    have hcheck : ¬(e.2.artifact.nonce = [] ∨ e.2.artifact.wrappedCek = [] ∨ e.2.artifact.signature = []) := by
      rw [not_or, not_or]
      exact hmeta
    rw [if_neg hformat]
    unfold artifactEntry
    rw [if_neg hcheck, hscope]
    exact ⟨_, rfl⟩

/-- An entry is labelled with the dataset type and the signed scope of its publication. -/
theorem publicationManifestEntry_label {d : DocumentTables} {e : PublicationId × Publication} {entry : DatasetEntry}
    (h : publicationManifestEntry d e = .ok entry) :
    entry.label.1 = e.2.key.target.datasetTypeCode ∧ publicationScopePayload e.2 = .ok entry.label.2 := by
  simp only [publicationManifestEntry, bind_eq_ok] at h
  obtain ⟨definition, -, h⟩ := h
  split at h
  · simp only [documentEntry, bind_eq_ok, check_eq_ok, pure_eq_ok] at h
    obtain ⟨_, ⟨-, scope, hscope, rfl⟩, rfl⟩ := h
    exact ⟨rfl, hscope⟩
  · simp only [artifactEntry, bind_eq_ok, check_eq_ok, pure_eq_ok] at h
    obtain ⟨_, ⟨-, scope, hscope, rfl⟩, rfl⟩ := h
    exact ⟨rfl, hscope⟩

theorem isDocumentManifestDelivery_eq {p : Publication} {definition : DatasetTypeDefinition}
    (h : getDatasetDefinition p.key.target.datasetTypeCode = .ok definition) :
    isDocumentManifestDelivery p = .ok (decide (definition.artifactFormat = .documentManifestV2)) := by
  unfold isDocumentManifestDelivery
  rw [h]
  rfl

/-- A document generation has no grant; the other publications have one with its key. -/
theorem payloadDataset_ok {d : DocumentTables} {grants : List (ℕ × KeyGrant)} {e : PublicationId × Publication}
    (h : e.2.Deliverable d e.1)
    (hg : isDocumentManifestDelivery e.2 = .ok false → ∃ r ∈ grants, r.2.publication = e.1)
    (hkeyed : ∀ r ∈ grants, r.2.hpkeEncapsulatedKey.isSome = true ∧ r.2.hpkeWrappedKey.isSome = true) :
    ∃ dataset, payloadDataset d grants e = .ok dataset := by
  obtain ⟨definition, hvalid, -, hmeta⟩ := h
  have hdef := validateDatasetScope_definition hvalid
  have hscope := publicationScopePayload_eq hvalid
  unfold payloadDataset
  rw [hdef, ok_bind]
  by_cases hformat : definition.artifactFormat = .documentManifestV2
  · rw [if_pos hformat] at hmeta
    obtain ⟨entry, hentry⟩ := documentEntry_ok definition hscope hmeta
    rw [if_pos hformat, hentry]
    exact ⟨_, rfl⟩
  · rw [if_neg hformat] at hmeta
    have hcheck : ¬(e.2.artifact.nonce = [] ∨ e.2.artifact.wrappedCek = [] ∨ e.2.artifact.signature = []) := by
      rw [not_or, not_or]
      exact hmeta
    obtain ⟨r, hr, hid⟩ := hg (by rw [isDocumentManifestDelivery_eq hdef, decide_eq_false hformat])
    rw [if_neg hformat]
    cases hfind : grants.reverse.find? fun g => decide (g.2.publication = e.1) with
    | none =>
      have hnone := List.find?_eq_none.mp hfind r (List.mem_reverse.mpr hr)
      exact absurd hid (by simpa using hnone)
    | some row =>
      obtain ⟨i, g⟩ := row
      have hmem : (i, g) ∈ grants := List.mem_reverse.mp (List.mem_of_find?_eq_some hfind)
      obtain ⟨henc, hwrapped⟩ := hkeyed (i, g) hmem
      obtain ⟨enc, henc⟩ := Option.isSome_iff_exists.mp henc
      obtain ⟨wrapped, hwrapped⟩ := Option.isSome_iff_exists.mp hwrapped
      have hembedded : embeddedGrant g = .ok ⟨"HPKE", g.hpkeCiphersuite, enc, wrapped⟩ := by
        unfold embeddedGrant
        simp only at henc hwrapped
        rw [henc, hwrapped]
        rfl
      dsimp only
      rw [hscope, ok_bind, if_neg hcheck, hembedded]
      exact ⟨_, rfl⟩

theorem payloadDataset_label {d : DocumentTables} {grants : List (ℕ × KeyGrant)} {e : PublicationId × Publication}
    {dataset : PayloadDataset} (h : payloadDataset d grants e = .ok dataset) :
    dataset.label.1 = e.2.key.target.datasetTypeCode ∧ publicationScopePayload e.2 = .ok dataset.label.2 := by
  simp only [payloadDataset, bind_eq_ok] at h
  obtain ⟨definition, -, h⟩ := h
  split at h
  · simp only [documentEntry, bind_eq_ok, check_eq_ok, pure_eq_ok] at h
    obtain ⟨_, ⟨-, scope, hscope, rfl⟩, rfl⟩ := h
    exact ⟨rfl, hscope⟩
  · split at h
    · cases h
    · simp only [bind_eq_ok, check_eq_ok, pure_eq_ok] at h
      obtain ⟨scope, hscope, -, keyGrant, -, rfl⟩ := h
      exact ⟨rfl, hscope⟩

/-- The labels of a rendered list are those of its publications. -/
theorem labels_eq {β : Type} {f : PublicationId × Publication → Except Error β} {label : β → DatasetTypeCode × ScopePayload}
    (hlabel : ∀ {e b}, f e = .ok b → (label b).1 = e.2.key.target.datasetTypeCode ∧
      publicationScopePayload e.2 = .ok (label b).2) {l : List (PublicationId × Publication)} {l' : List β}
    (h : l.mapM f = .ok l') : l'.map (fun b => ((label b).1, (Except.ok (label b).2 : Except Error ScopePayload))) =
      l.map fun e => (e.2.key.target.datasetTypeCode, publicationScopePayload e.2) := by
  have hall := mapM_eq_ok.mp h
  clear h
  induction hall with
  | nil => rfl
  | cons hb _ ih =>
    obtain ⟨hcode, hscope⟩ := hlabel hb
    rw [List.map_cons, List.map_cons, ih, hcode, hscope]

/-- Two publications of a list with the same label are the same one. -/
def LabelsDistinct (l : List (PublicationId × Publication)) : Prop :=
  (l.map fun e => (e.2.key.target.datasetTypeCode, publicationScopePayload e.2)).Nodup

theorem labels_nodup {β : Type} {f : PublicationId × Publication → Except Error β} {label : β → DatasetTypeCode × ScopePayload}
    (hlabel : ∀ {e b}, f e = .ok b → (label b).1 = e.2.key.target.datasetTypeCode ∧
      publicationScopePayload e.2 = .ok (label b).2) {l : List (PublicationId × Publication)} {l' : List β}
    (hl : LabelsDistinct l) (h : l.mapM f = .ok l') : (l'.map label).Nodup := by
  have heq := labels_eq hlabel h
  have hnd : (l'.map fun b => ((label b).1, (Except.ok (label b).2 : Except Error ScopePayload))).Nodup := heq ▸ hl
  have hcomp : (l'.map fun b => ((label b).1, (Except.ok (label b).2 : Except Error ScopePayload))) =
      (l'.map label).map fun x => (x.1, (Except.ok x.2 : Except Error ScopePayload)) := by
    rw [List.map_map]
    rfl
  rw [hcomp] at hnd
  exact hnd.of_map _

/-- One scope has one current publication, so published ones differ in type or scope. -/
theorem published_labels (hi : Publications.Inv s.db.core) (h : AllDeliverable s)
    {l : List (PublicationId × Publication)} (hnd : (l.map Prod.fst).Nodup)
    (hl : ∀ e ∈ l, s.db.publications.find e.1 = some e.2 ∧ e.2.status = .published ∧ e.2.artifactStatus = .ready) :
    LabelsDistinct l := by
  refine List.Nodup.map_on ?_ (List.Nodup.of_map _ hnd)
  rintro ⟨i, p⟩ hp ⟨j, q⟩ hq heq
  obtain ⟨hpfind, hpst, hpready⟩ := hl _ hp
  obtain ⟨hqfind, hqst, hqready⟩ := hl _ hq
  obtain ⟨hcode, hscope⟩ := Prod.mk.inj heq
  have hkey := key_eq_of_payload (h hpfind hpready) (h hqfind hqready) hcode hscope
  obtain ⟨sp, hsp, hspk⟩ := hi.publication_scope hpfind
  obtain ⟨sq, hsq, hsqk⟩ := hi.publication_scope hqfind
  have hsame : p.scopeState = q.scopeState := hi.scope_key hsp hsq (by rw [hspk, hsqk, hkey])
  obtain ⟨sc, hsc, hcur⟩ := hi.published_current hpfind hpst
  obtain ⟨sc', hsc', hcur'⟩ := hi.published_current hqfind hqst
  rw [hsame, hsc'] at hsc
  cases hsc
  rw [hcur] at hcur'
  cases hcur'
  rw [hpfind] at hqfind
  cases hqfind
  rfl

/-- The list renders in all three forms, whatever is signed again in between. -/
structure Renders (crypto : DeliveryCrypto) (s : State) (installation : InstallationId) (context : Context)
    (publications : List (PublicationId × Publication)) : Prop where
  entries : ∃ entries, publications.mapM (publicationManifestEntry s.db.documents) = .ok entries ∧
    (entries.map DatasetEntry.label).Nodup
  hash : ∀ settings generation capabilities, ∃ stateHash,
    manifestStateHash settings s.db.documents context publications generation capabilities = .ok stateHash
  payload : ∀ {v grants publications'}, Requests s v → GrantsFor s v installation publications grants →
    (∀ r ∈ grants, r.2.status = .ready) →
    List.Forall₂ (fun (e e' : PublicationId × Publication) => e'.1 = e.1 ∧ (e'.2 = e.2 ∨ Resigned crypto e.2 e'.2))
      publications publications' →
    ∀ settings generation now capabilities, ∃ payload,
      manifestPayload settings s.db.documents context publications' grants generation now capabilities = .ok payload ∧
        (payload.datasets.map PayloadDataset.label).Nodup

/-- Signing again keeps the key, so the dataset type and the scope. -/
theorem LabelsDistinct.resigned {l l' : List (PublicationId × Publication)} (h : LabelsDistinct l)
    (hl : List.Forall₂ (fun (e e' : PublicationId × Publication) =>
      e'.1 = e.1 ∧ (e'.2 = e.2 ∨ Resigned crypto e.2 e'.2)) l l') : LabelsDistinct l' := by
  have heq : l'.map (fun e => (e.2.key.target.datasetTypeCode, publicationScopePayload e.2)) =
      l.map fun e => (e.2.key.target.datasetTypeCode, publicationScopePayload e.2) := by
    clear h
    induction hl with
    | nil => rfl
    | @cons e e' l l' he _ ih =>
      have hkey : e'.2.key = e.2.key := by
        rcases he.2 with hsame | hr
        · rw [hsame]
        · exact hr.columns.2.1
      rw [List.map_cons, List.map_cons, ih]
      simp only [publicationScopePayload, hkey]
  unfold LabelsDistinct
  rw [heq]
  exact h

/-- A list of current ready rows renders. -/
theorem renders {installation : InstallationId} {now : Time} {context : Context}
    {publications : List (PublicationId × Publication)} (hsign : Signing crypto) (hi : Publications.Inv s.db.core)
    (hD : AllDeliverable s) (hK : GrantsKeyed s)
    (h : manifestPublications s installation now = .ok (context, publications)) :
    Renders crypto s installation context publications := by
  obtain ⟨hnd, hrows⟩ := manifestPublications_rows h
  have hall : ∀ e ∈ publications, s.db.publications.find e.1 = some e.2 ∧ e.2.status = .published ∧
      e.2.artifactStatus = .ready := fun e he => ⟨hrows e he, manifestPublications_published h he⟩
  have hdel : ∀ e ∈ publications, e.2.Deliverable s.db.documents e.1 := fun e he =>
    hD (hall e he).1 (hall e he).2.2
  have hlabels := published_labels hi hD hnd hall
  obtain ⟨entries, hentries⟩ := mapM_exists_ok fun e he => publicationManifestEntry_ok (hdel e he)
  refine ⟨⟨entries, hentries, labels_nodup publicationManifestEntry_label hlabels hentries⟩, ?_, ?_⟩
  · intro settings generation capabilities
    unfold manifestStateHash manifestState
    rw [hentries]
    exact ⟨_, rfl⟩
  · intro v grants publications' hv hgrants hready hresigned settings generation now' capabilities
    have hkeyed : ∀ r ∈ grants, r.2.hpkeEncapsulatedKey.isSome = true ∧ r.2.hpkeWrappedKey.isSome = true :=
      fun r hr => hK (ready_of_reset hv.upkeep.keyGrants (hgrants.ready hr (hready r hr)).1 (hready r hr)) (hready r hr)
    have hone : ∀ e' ∈ publications', ∃ dataset, payloadDataset s.db.documents grants e' = .ok dataset := by
      intro e' he'
      obtain ⟨e, he, hid, hrow⟩ := exists_left_of_forall₂ hresigned he'
      have hkey : e'.2.key = e.2.key := by
        rcases hrow with hsame | hr
        · rw [hsame]
        · exact hr.columns.2.1
      have hdelivered : e'.2.Deliverable s.db.documents e'.1 := by
        rw [hid]
        rcases hrow with hsame | hr
        · rw [hsame]
          exact hdel e he
        · exact hr.deliverable hsign (hdel e he)
      refine payloadDataset_ok hdelivered (fun hart => ?_) hkeyed
      simp only [isDocumentManifestDelivery, hkey] at hart
      have hfilter : e ∈ publications.filter fun e => isDocumentManifestDelivery e.2 = .ok false :=
        List.mem_filter.mpr ⟨he, decide_eq_true hart⟩
      obtain ⟨r, hr, u, -, -, -, hpub, -⟩ := exists_right_of_forall₂ hgrants hfilter
      exact ⟨r, hr, hpub.trans hid.symm⟩
    obtain ⟨datasets, hdatasets⟩ := mapM_exists_ok hone
    have hnodup : (datasets.map PayloadDataset.label).Nodup :=
      labels_nodup (f := payloadDataset s.db.documents grants) payloadDataset_label (hlabels.resigned hresigned) hdatasets
    unfold manifestPayload
    rw [hdatasets, ok_bind]
    exact ⟨_, rfl, hnodup⟩

/-- In every reachable state a current ready publication is complete, and the manifest of an
authorized installation renders with entries that differ in type or scope. -/
theorem manifest_never_blocked {hash : ManifestState → String} (hsign : Signing crypto)
    (h : (delivery crypto hash).Reachable s) :
    (∀ id p, s.db.publications.find id = some p → p.status = .published → p.artifactStatus = .ready →
      p.Deliverable s.db.documents id ∧ ∃ scope, publicationScopePayload p = .ok scope) ∧
    ∀ installation now context, controlPlaneContext s.fleet installation now = .ok context →
      context.tablet.status = .inactive ∨ context.tablet.status = .active →
      ∃ publications, manifestPublications s installation now = .ok (context, publications) ∧
        Renders crypto s installation context publications := by
  have hi := delivery_inv h
  have hD : AllDeliverable s := delivery_invariant (I := AllDeliverable) (fun _ hd => Deployed.deliverable hd)
    (fun _ _ _ _ _ hI hs => hs.allDeliverable hsign hI) h
  have hK : GrantsKeyed s := by
    refine delivery_invariant (I := GrantsKeyed) (fun s hd i g hg => ?_) (fun _ _ _ _ _ hI hs => hs.grantsKeyed hI) h
    rw [Deployed.keyGrants hd] at hg
    cases hg
  constructor
  · intro id p hp _ hready
    obtain ⟨definition, hvalid, -⟩ := hD hp hready
    exact ⟨hD hp hready, _, publicationScopePayload_eq hvalid⟩
  · intro installation now context hcontext hstatus
    have hlisted : ∃ publications, manifestPublications s installation now = .ok (context, publications) := by
      simp only [manifestPublications_eq_ok]
      rcases hstatus with hst | hst
      · exact ⟨_, hcontext, .inl ⟨hst, rfl⟩⟩
      · cases hv : context.vehicle with
        | none => exact ⟨_, hcontext, .inr (.inl ⟨hst, rfl, rfl⟩)⟩
        | some v => exact ⟨_, hcontext, .inr (.inr ⟨hst, v.1, v.2, rfl, rfl⟩)⟩
    obtain ⟨publications, hpublications⟩ := hlisted
    exact ⟨publications, hpublications, renders hsign hi hD hK hpublications⟩

/-- The manifest of the sample tablet lists the phonebook its department published. -/
theorem publishedPhonebook_unblocked : ∃ context publications,
    manifestPublications (sampleRun (publishPhonebook 0 1 0)) 0 5 = .ok (context, publications) ∧
      publications.map Prod.fst = [0] ∧
      Renders sampleCrypto (sampleRun (publishPhonebook 0 1 0)) 0 context publications := by
  have hsign : Signing sampleCrypto := fun _ _ => by simp [sampleCrypto]
  have hlisted : (manifestPublications (sampleRun (publishPhonebook 0 1 0)) 0 5).map (fun r => r.2.map Prod.fst) =
      .ok [0] := by decide +kernel
  cases hc : controlPlaneContext (sampleRun (publishPhonebook 0 1 0)).fleet 0 5 with
  | error e =>
    have hok : (controlPlaneContext (sampleRun (publishPhonebook 0 1 0)).fleet 0 5).isOk = true := by decide +kernel
    rw [hc] at hok
    cases hok
  | ok context =>
    have hactive : (controlPlaneContext (sampleRun (publishPhonebook 0 1 0)).fleet 0 5).map (·.tablet.status) =
        .ok .active := by decide +kernel
    rw [hc] at hactive
    obtain ⟨publications, hp, hr⟩ := (manifest_never_blocked hsign (reachable_sampleRun _)).2 0 5 context hc
      (.inr (Except.ok.inj hactive))
    rw [hp] at hlisted
    exact ⟨context, publications, hp, Except.ok.inj hlisted, hr⟩

end FireDash.Delivery
