import FireDash.Delivery.System
import Mathlib.Data.Countable.Basic
import Mathlib.Logic.Equiv.List
import Mathlib.Tactic.DeriveCountable

/-! Coalescing by state hash: the hashed state determines a payload but for its timestamp and
its key grants, and a signed manifest is only served for the state it was signed for. -/
namespace FireDash.Delivery

open Publications Tx

/-! ### What the hashed state determines -/

/-- The entry without its key grant. -/
def PayloadDataset.erased : PayloadDataset → PayloadDataset
  | .document entry => .document entry
  | .artifact dataset => .artifact { dataset with keyGrant := ⟨"", "", [], []⟩ }

/-- The payload without its timestamp and its key grants. -/
def Payload.erased (payload : Payload) : Payload :=
  { payload with generatedAt := 0, datasets := payload.datasets.map PayloadDataset.erased }

/-- The payload entry that an entry of the hashed state determines. -/
def DatasetEntry.rendered : DatasetEntry → Except Error PayloadDataset
  | .document entry => .ok (.document entry)
  | .artifact entry => do
    let definition ← getDatasetDefinition entry.type
    return .artifact {
      entry := entry
      required := definition.required
      minimumAppVersion := definition.minimumAppVersion
      artifactFormat := definition.artifactFormat
      downloadUrl := entry.publicationId
      keyGrant := ⟨"", "", [], []⟩ }

/-- The payload that a hashed state determines. -/
def ManifestState.rendered (state : ManifestState) : Except Error Payload := do
  let datasets ← state.datasets.mapM DatasetEntry.rendered
  return {
    manifestGeneration := state.generation
    signatureAlgorithm := "Ed25519"
    signingKeyVersion := state.signingKeyVersion
    generatedAt := 0
    authorizationValidUntil := state.authorizationValidUntil
    configuration := state.configuration
    datasets := datasets
    capabilities := state.capabilities }

/-- The publication of an entry. -/
def DatasetEntry.publicationId : DatasetEntry → PublicationId
  | .document entry => entry.publicationId
  | .artifact entry => entry.publicationId

variable {s t : State} {crypto : DeliveryCrypto} {settings : Settings} {d : DocumentTables}

theorem publicationManifestEntry_id {e : PublicationId × Publication} {entry : DatasetEntry}
    (h : publicationManifestEntry d e = .ok entry) : entry.publicationId = e.1 := by
  simp only [publicationManifestEntry, bind_eq_ok] at h
  obtain ⟨definition, -, h⟩ := h
  split at h
  · simp only [documentEntry, bind_eq_ok, check_eq_ok, pure_eq_ok] at h
    obtain ⟨_, ⟨-, scope, -, rfl⟩, rfl⟩ := h
    rfl
  · simp only [artifactEntry, bind_eq_ok, check_eq_ok, pure_eq_ok] at h
    obtain ⟨_, ⟨-, scope, -, rfl⟩, rfl⟩ := h
    rfl

/-- Both texts of a publication carry the same columns. -/
theorem payloadDataset_rendered {grants : List (ℕ × KeyGrant)} {e : PublicationId × Publication}
    {dataset : PayloadDataset} {entry : DatasetEntry} (hd : payloadDataset d grants e = .ok dataset)
    (he : publicationManifestEntry d e = .ok entry) : entry.rendered = .ok dataset.erased := by
  simp only [publicationManifestEntry, bind_eq_ok] at he
  obtain ⟨definition, hdef, he⟩ := he
  unfold payloadDataset at hd
  rw [hdef, ok_bind] at hd
  by_cases hformat : definition.artifactFormat = .documentManifestV2
  · rw [if_pos hformat] at hd he
    simp only [bind_eq_ok, pure_eq_ok] at hd he
    obtain ⟨a, ha, rfl⟩ := hd
    obtain ⟨b, hb, rfl⟩ := he
    rw [ha] at hb
    cases hb
    rfl
  · rw [if_neg hformat] at hd he
    simp only [artifactEntry, bind_eq_ok, check_eq_ok, pure_eq_ok] at he
    obtain ⟨_, ⟨-, scope, hscope, rfl⟩, rfl⟩ := he
    split at hd
    · cases hd
    · simp only [hscope, ok_bind, bind_eq_ok, check_eq_ok, pure_eq_ok] at hd
      obtain ⟨-, keyGrant, -, rfl⟩ := hd
      simp only [DatasetEntry.rendered, hdef, ok_bind]
      rfl

/-- A publication that was signed again renders as before, unless its artifact has another signature. -/
theorem payloadDataset_resigned {grants : List (ℕ × KeyGrant)} {e e' : PublicationId × Publication}
    {dataset : PayloadDataset} {entry : DatasetEntry} (hid : e'.1 = e.1)
    (hrow : e'.2 = e.2 ∨ Resigned crypto e.2 e'.2) (hd : payloadDataset d grants e' = .ok dataset)
    (he : publicationManifestEntry d e = .ok entry) : entry.rendered = .ok dataset.erased ∨
      ∃ a, entry = .artifact a ∧ a.publicationId = e.1 ∧
        ¬(a.artifactSignature = e'.2.artifact.signature ∧
          a.artifactSigningKeyVersion = e'.2.artifact.signingKeyVersion) := by
  obtain ⟨id, p⟩ := e
  obtain ⟨id', q⟩ := e'
  obtain rfl : id' = id := hid
  rcases hrow with rfl | ⟨key, text, version, rfl⟩
  · exact .inl (payloadDataset_rendered hd he)
  · by_cases hsig : crypto.ed25519Sign key text = p.artifact.signature ∧ version = p.artifact.signingKeyVersion
    · rw [hsig.1, hsig.2] at hd
      exact .inl (payloadDataset_rendered hd he)
    · simp only [publicationManifestEntry, bind_eq_ok] at he
      obtain ⟨definition, hdef, he⟩ := he
      by_cases hformat : definition.artifactFormat = .documentManifestV2
      · -- A document entry reads nothing of the artifact.
        refine .inl ?_
        unfold payloadDataset at hd
        rw [hdef, ok_bind] at hd
        rw [if_pos hformat] at hd he
        simp only [bind_eq_ok, pure_eq_ok] at hd he
        obtain ⟨a, ha, rfl⟩ := hd
        obtain ⟨b, hb, rfl⟩ := he
        have hsame : (Except.ok a : Except Error DocumentEntry) = .ok b := ha.symm.trans hb
        cases hsame
        rfl
      · rw [if_neg hformat] at he
        simp only [artifactEntry, bind_eq_ok, check_eq_ok, pure_eq_ok] at he
        obtain ⟨_, ⟨-, scope, -, rfl⟩, rfl⟩ := he
        exact .inr ⟨_, rfl, rfl, fun h => hsig ⟨h.1.symm, h.2.symm⟩⟩

/-- What two renderings of one hashed state share. -/
structure SameManifest (settings settings' : Settings) (documents documents' : DocumentTables) (context context' : Context)
    (publications publications' : List (PublicationId × Publication)) (generation generation' : ℕ)
    (capabilities capabilities' : Capabilities) : Prop where
  installation : context.installationId = context'.installationId
  assetState : context.tablet.status = context'.tablet.status
  configuration : tabletConfiguration settings context = tabletConfiguration settings' context'
  listed : publications.map Prod.fst = publications'.map Prod.fst
  urls : capabilities = capabilities'
  payload : ∀ {grants grants' now now' payload payload'},
    manifestPayload settings documents context publications grants generation now capabilities = .ok payload →
    manifestPayload settings' documents' context' publications' grants' generation' now' capabilities' = .ok payload' →
    payload.erased = payload'.erased

variable {context : Context} {publications : List (PublicationId × Publication)} {generation : ℕ}
  {capabilities : Capabilities} {state : ManifestState}

theorem manifestState_eq_ok (h : manifestState settings d context publications generation capabilities = .ok state) :
    publications.mapM (publicationManifestEntry d) = .ok state.datasets ∧
      state = { generation := generation
                tabletAssetState := context.tablet.status
                signingKeyVersion := settings.publications.signingKeyVersion
                authorizationValidUntil := context.installation.authorizationValidUntil
                configuration := tabletConfiguration settings context
                datasets := state.datasets
                capabilities := capabilities } := by
  simp only [manifestState, bind_eq_ok, pure_eq_ok] at h
  obtain ⟨datasets, hdatasets, rfl⟩ := h
  exact ⟨hdatasets, rfl⟩

/-- The ids of a hashed list are those of its publications. -/
theorem manifestState_ids (h : manifestState settings d context publications generation capabilities = .ok state) :
    state.datasets.map DatasetEntry.publicationId = publications.map Prod.fst := by
  have hids : ∀ {l : List (PublicationId × Publication)} {entries : List DatasetEntry},
      List.Forall₂ (fun e entry => publicationManifestEntry d e = .ok entry) l entries →
      entries.map DatasetEntry.publicationId = l.map Prod.fst := by
    intro l entries hall
    induction hall with
    | nil => rfl
    | cons he _ ih => rw [List.map_cons, List.map_cons, ih, publicationManifestEntry_id he]
  exact hids (mapM_eq_ok.mp (manifestState_eq_ok h).1)

/-- A payload is what its hashed state determines. -/
theorem manifestPayload_rendered {grants : List (ℕ × KeyGrant)} {now : Time} {payload : Payload}
    (hp : manifestPayload settings d context publications grants generation now capabilities = .ok payload)
    (hs : manifestState settings d context publications generation capabilities = .ok state) :
    state.rendered = .ok payload.erased := by
  obtain ⟨hentries, hstate⟩ := manifestState_eq_ok hs
  simp only [manifestPayload, bind_eq_ok, pure_eq_ok] at hp
  obtain ⟨datasets, hdatasets, rfl⟩ := hp
  have hrendered : state.datasets.mapM DatasetEntry.rendered = .ok (datasets.map PayloadDataset.erased) := by
    have hone : ∀ e entry dataset, publicationManifestEntry d e = .ok entry →
        payloadDataset d grants e = .ok dataset → entry.rendered = .ok dataset.erased :=
      fun _ _ _ he hd => payloadDataset_rendered hd he
    rw [mapM_eq_ok, List.forall₂_map_right_iff]
    exact forall₂_join hone (mapM_eq_ok.mp hentries) (mapM_eq_ok.mp hdatasets)
  unfold ManifestState.rendered
  rw [hrendered, hstate]
  rfl

theorem manifestStateHash_eq_ok {stateHash : String} :
    manifestStateHash settings d context publications generation capabilities = .ok stateHash ↔
      ∃ state, manifestState settings d context publications generation capabilities = .ok state ∧
        settings.stateHash state = stateHash := by
  simp only [manifestStateHash, bind_eq_ok, pure_eq_ok]

/-- Equal hashes come from the same manifest. -/
theorem sameManifest_of_hash {hash : ManifestState → String} (hinj : Function.Injective hash) {settings' : Settings}
    (hs : settings.stateHash = hash) (hs' : settings'.stateHash = hash) {d' : DocumentTables} {context' : Context}
    {publications' : List (PublicationId × Publication)} {generation' : ℕ} {capabilities' : Capabilities}
    {stateHash : String} (h : manifestStateHash settings d context publications generation capabilities = .ok stateHash)
    (h' : manifestStateHash settings' d' context' publications' generation' capabilities' = .ok stateHash) :
    SameManifest settings settings' d d' context context' publications publications' generation generation'
      capabilities capabilities' := by
  obtain ⟨state, hstate, hhash⟩ := manifestStateHash_eq_ok.mp h
  obtain ⟨state', hstate', hhash'⟩ := manifestStateHash_eq_ok.mp h'
  have hsame : state' = state := by
    apply hinj
    rw [← hs, hhash, hs, ← hs', hhash']
  subst hsame
  have hcolumns := (manifestState_eq_ok hstate).2
  have hcolumns' := (manifestState_eq_ok hstate').2
  rw [hcolumns] at hcolumns'
  simp only [ManifestState.mk.injEq] at hcolumns'
  obtain ⟨hgen, hasset, hversion, hvalid, hconf, -, hcap⟩ := hcolumns'
  refine ⟨?_, hasset, hconf, (manifestState_ids hstate).symm.trans (manifestState_ids hstate'), hcap, ?_⟩
  · exact congrArg TabletConfiguration.installationId hconf
  · intro grants grants' now now' payload payload' hp hp'
    have heq := (manifestPayload_rendered hp hstate).symm.trans (manifestPayload_rendered hp' hstate')
    exact Except.ok.inj heq

/-! ### Signed manifests -/

/-- An artifact the hashed state lists was signed again since, for good. -/
def Overtaken (s : State) (state : ManifestState) : Prop :=
  ∃ a p, DatasetEntry.artifact a ∈ state.datasets ∧ s.db.publications.find a.publicationId = some p ∧
    p.status.isFinished = true ∧ a.publicationId ∉ s.legacyUpgrades ∧
    ¬(a.artifactSignature = p.artifact.signature ∧ a.artifactSigningKeyVersion = p.artifact.signingKeyVersion)

/-- Every ready manifest is what the state behind its hash determines, or was overtaken. -/
def ManifestsMatch (hash : ManifestState → String) (s : State) : Prop :=
  ∀ {i m}, s.signedManifests.find i = some m → m.status = .ready → ∃ payload state, m.payload = some payload ∧
    hash state = m.stateHash ∧ (state.rendered = .ok payload.erased ∨ Overtaken s state)

/-- The state an installation is in now is not overtaken. -/
theorem not_overtaken (h : manifestState settings s.db.documents context publications generation capabilities = .ok state)
    (hrows : ∀ e ∈ publications, s.db.publications.find e.1 = some e.2) : ¬Overtaken s state := by
  rintro ⟨a, p, hmem, hp, -, -, hdiff⟩
  obtain ⟨e, he, hentry⟩ := exists_left_of_forall₂ (mapM_eq_ok.mp (manifestState_eq_ok h).1) hmem
  have hid : a.publicationId = e.1 := publicationManifestEntry_id hentry
  rw [hid, hrows e he] at hp
  cases hp
  apply hdiff
  simp only [publicationManifestEntry, bind_eq_ok] at hentry
  obtain ⟨definition, -, hentry⟩ := hentry
  split at hentry
  · simp only [bind_eq_ok, pure_eq_ok, reduceCtorEq, and_false] at hentry
    obtain ⟨_, hno⟩ := hentry
    cases hno
  · simp only [artifactEntry, bind_eq_ok, check_eq_ok, pure_eq_ok] at hentry
    obtain ⟨_, ⟨-, scope, -, rfl⟩, he⟩ := hentry
    cases he
    exact ⟨rfl, rfl⟩

/-- Rows that are finished and not marked keep their artifact. -/
theorem Stepped.overtaken (hs : Stepped crypto settings s t) (h : Overtaken s state) : Overtaken t state := by
  obtain ⟨a, p, hmem, hp, hfinished, hmarked, hdiff⟩ := h
  have hkeep : ∀ u : State, u.db.publications.find a.publicationId = some p →
      (∀ id ∈ u.legacyUpgrades, id ∈ s.legacyUpgrades) → Overtaken u state := fun u hu hmark =>
    ⟨a, p, hmem, hu, hfinished, fun hin => hmarked (hmark _ hin), hdiff⟩
  cases hs with
  | publication he hi =>
    obtain ⟨q, hq, hev⟩ := he.rows hp
    have hart := (hev.finished hfinished).1
    exact ⟨a, q, hmem, hq, PublicationStatus.mayBecome_finished hev.status hfinished, hmarked, by rw [hart]; exact hdiff⟩
  | served hs =>
    cases hs with
    | upkeep hu => exact hkeep _ (hu.publications ▸ hp) fun id hid => hu.legacyUpgrades ▸ hid
    | claimGrant => exact hkeep _ hp fun _ hid => hid
    | endGrant => exact hkeep _ hp fun _ hid => hid
    | claimManifest => exact hkeep _ hp fun _ hid => hid
    | @endManifest id now m u outcome hm hrunning hu hsigns =>
      obtain ⟨v, hv, hr⟩ := hu
      have hmarks : v.legacyUpgrades = s.legacyUpgrades := hv.upkeep.legacyUpgrades
      obtain ⟨q, hq, hpq⟩ := hr.rows (hv.upkeep.publications ▸ hp)
      rcases hpq with rfl | ⟨hin, -, -⟩
      · exact hkeep _ hq fun id hid => hmarks ▸ hr.markers id hid
      · exact absurd (hmarks ▸ hin) hmarked
    | endGenerationGrant => exact hkeep _ hp fun _ hid => hid

/-- The entry was signed again, so that the state listing it is overtaken. -/
def EntryOvertaken (s : State) (entry : DatasetEntry) : Prop :=
  ∃ a p, entry = .artifact a ∧ s.db.publications.find a.publicationId = some p ∧ p.status.isFinished = true ∧
    a.publicationId ∉ s.legacyUpgrades ∧
    ¬(a.artifactSignature = p.artifact.signature ∧ a.artifactSigningKeyVersion = p.artifact.signingKeyVersion)

/-- What a build signs is what its hashed state determines, or it signed an artifact again. -/
theorem Signs.rendered_or_overtaken {v u : State} {m : SignedManifest} {now : Time} {publications' : List (PublicationId × Publication)}
    {grants : List (ℕ × KeyGrant)} {payload : Payload}
    (h : Signs settings crypto s v u m now context publications publications' grants capabilities payload)
    (hs : manifestState settings s.db.documents context publications m.generation capabilities = .ok state) :
    state.rendered = .ok payload.erased ∨ Overtaken u state := by
  obtain ⟨hentries, hstate⟩ := manifestState_eq_ok hs
  have hpay := h.rendered
  simp only [manifestPayload, bind_eq_ok, pure_eq_ok] at hpay
  obtain ⟨datasets, hdatasets, rfl⟩ := hpay
  have hlisted := manifestPublications_rows h.listed
  have hpublished : ∀ e ∈ publications, e.2.status.isFinished = true := fun e he => by
    rw [(manifestPublications_published h.listed he).1]
    rfl
  -- Each publication, as it was listed and as it was rendered.
  have hpairs : List.Forall₂ (fun (e' e : PublicationId × Publication) => e'.1 = e.1 ∧
      u.db.publications.find e.1 = some e'.2 ∧ e'.2.status.isFinished = true ∧
      (e'.2 = e.2 ∨ e.1 ∉ u.legacyUpgrades ∧ Resigned crypto e.2 e'.2)) publications' publications := by
    have hall := (List.forall₂_and_left (p := fun e => e ∈ publications) _ _).mpr ⟨fun e he => he, h.rows⟩
    refine hall.flip.imp ?_
    rintro e' e ⟨he, hid, hrow⟩
    have hv : v.db.publications.find e.1 = some e.2 := by
      rw [h.requests.upkeep.publications]
      exact hlisted.2 e he
    obtain ⟨q, hq, hpq⟩ := h.resigns.rows hv
    rw [hrow] at hq
    cases hq
    rcases hpq with hsame | ⟨-, hmark, hres⟩
    · exact ⟨hid, hrow, hsame ▸ hpublished e he, .inl hsame⟩
    · exact ⟨hid, hrow, hres.columns.2.2 ▸ hpublished e he, .inr ⟨hmark, hres⟩⟩
  have hone : ∀ e' e dataset, (e'.1 = e.1 ∧ u.db.publications.find e.1 = some e'.2 ∧
      e'.2.status.isFinished = true ∧ (e'.2 = e.2 ∨ e.1 ∉ u.legacyUpgrades ∧ Resigned crypto e.2 e'.2)) →
      payloadDataset s.db.documents grants e' = .ok dataset →
      ∀ entry, publicationManifestEntry s.db.documents e = .ok entry →
        entry.rendered = .ok dataset.erased ∨ EntryOvertaken u entry := by
    rintro e' e dataset ⟨hid, hrow, hfinished, hpq⟩ hd entry he
    rcases payloadDataset_resigned hid (hpq.imp (fun h => h) fun h => h.2) hd he with hr | ⟨a, rfl, hida, hdiff⟩
    · exact .inl hr
    · rcases hpq with hsame | ⟨hmark, -⟩
      · exact .inl (payloadDataset_rendered hd (by rw [Prod.ext hid hsame]; exact he))
      · exact .inr ⟨a, e'.2, rfl, hida ▸ hrow, hfinished, hida ▸ hmark, hdiff⟩
  have hmatched : List.Forall₂ (fun entry dataset => entry.rendered = .ok dataset.erased ∨ EntryOvertaken u entry)
      state.datasets datasets :=
    forall₂_join (fun e entry dataset he hd => hd entry he) (mapM_eq_ok.mp hentries)
      (forall₂_join hone hpairs (mapM_eq_ok.mp hdatasets))
  by_cases hover : ∃ entry ∈ state.datasets, EntryOvertaken u entry
  · obtain ⟨entry, hmem, a, p, rfl, hrow⟩ := hover
    exact .inr ⟨a, p, hmem, hrow⟩
  · have hall := (List.forall₂_and_left (p := fun entry => entry ∈ state.datasets) _ _).mpr ⟨fun entry he => he, hmatched⟩
    have hrendered : state.datasets.mapM DatasetEntry.rendered = .ok (datasets.map PayloadDataset.erased) := by
      rw [mapM_eq_ok, List.forall₂_map_right_iff]
      refine hall.imp ?_
      rintro entry dataset ⟨hmem, hr | ho⟩
      · exact hr
      · exact absurd ⟨entry, hmem, ho⟩ hover
    refine .inl ?_
    unfold ManifestState.rendered
    rw [hrendered, hstate]
    rfl

/-- The invariant behind coalescing holds in every run. -/
theorem manifestsMatch_of_reachable {hash : ManifestState → String} (h : (delivery crypto hash).Reachable s) :
    ManifestsMatch hash s := by
  refine delivery_invariant (I := ManifestsMatch hash) (fun s hd i m hm => ?_) (fun s t settings hhash hi hI hs => ?_) h
  · rw [Deployed.signedManifests hd] at hm
    cases hm
  · intro i m hm hst
    rcases hs.readyManifest hm hst with hold | hsigned
    · obtain ⟨payload, state, hp, hstate, hrendered⟩ := hI hold hst
      exact ⟨payload, state, hp, hstate, hrendered.imp (fun h => h) fun h => hs.overtaken h⟩
    · obtain ⟨m₀, now, payload, signature, v, u, context, publications, publications', grants, capabilities,
        hm₀, hrunning, rfl, hsigns, rfl⟩ := hsigned
      obtain ⟨state, hstate, hhashed⟩ := manifestStateHash_eq_ok.mp hsigns.hash
      refine ⟨payload, state, rfl, ?_, (hsigns.rendered_or_overtaken hstate).imp (fun h => h) fun h => h⟩
      rw [← hhash]
      exact hhashed

/-- Equal hashes come from one manifest; and what a request returns is what the current state
of the installation determines. -/
theorem coalescing_sound {hash : ManifestState → String} (hinj : Function.Injective hash) :
    (∀ {settings settings' documents documents' context context' publications publications' generation generation'
        capabilities capabilities' stateHash}, settings.stateHash = hash → settings'.stateHash = hash →
      manifestStateHash settings documents context publications generation capabilities = .ok stateHash →
      manifestStateHash settings' documents' context' publications' generation' capabilities' = .ok stateHash →
      SameManifest settings settings' documents documents' context context' publications publications'
        generation generation' capabilities capabilities') ∧
    ∀ {s : State} {settings installation generation now clock r t payload}, (delivery crypto hash).Reachable s →
      settings.stateHash = hash → requestManifest settings installation generation now clock s = (.ok r, t) →
      r.payload = some payload → ∃ signed context publications capabilities state,
        payload.payload = some signed ∧ manifestPublications s installation now = .ok (context, publications) ∧
        manifestCapabilities settings s.fleet = .ok capabilities ∧
        manifestState settings s.db.documents context publications generation capabilities = .ok state ∧
        state.rendered = .ok signed.erased := by
  constructor
  · intro settings settings' documents documents' context context' publications publications' generation generation'
      capabilities capabilities' stateHash hs hs' h h'
    exact sameManifest_of_hash hinj hs hs' h h'
  · intro s settings installation generation now clock r t payload hreach hhash hreq hpayload
    obtain ⟨-, hserved⟩ := requestManifest_spec.of_ok hreq
    obtain ⟨-, id, m, hserves⟩ := hserved payload hpayload
    obtain ⟨hm, -⟩ := Table.first_eq_some hserves.first
    obtain ⟨signed, state, hsigned, hstate, hmatch⟩ := manifestsMatch_of_reachable hreach hm hserves.ready
    have hcurrent := hserves.hash
    simp only [installationStateHash, bind_eq_ok] at hcurrent
    obtain ⟨⟨context, publications⟩, hlisted, capabilities, hcap, hnow⟩ := hcurrent
    obtain ⟨state', hstate', hhash'⟩ := manifestStateHash_eq_ok.mp hnow
    have hsame : state' = state := by
      apply hinj
      rw [hstate, ← hhash', hhash]
    subst hsame
    refine ⟨signed, context, publications, capabilities, state', hserves.payload.1.trans hsigned, hlisted, hcap, hstate', ?_⟩
    rcases hmatch with hrendered | hover
    · exact hrendered
    · exact absurd hover (not_overtaken hstate' (manifestPublications_rows hlisted).2)

/-! ### An injective hash -/

instance countableChar : Countable Char := Function.Injective.countable (f := Char.toNat) fun _ _ h => Char.toNat_inj.mp h

instance countableString : Countable String := Function.Injective.countable (f := String.toList) fun _ _ h => String.toList_inj.mp h

instance countableUInt8 : Countable UInt8 := Function.Injective.countable (f := UInt8.toNat) fun _ _ h => UInt8.toNat_inj.mp h

instance countableBitVec {n : ℕ} : Countable (BitVec n) :=
  Function.Injective.countable (f := BitVec.toNat) fun _ _ h => BitVec.eq_of_toNat_eq h

deriving instance Countable for ScopeType, DatasetTypeCode, ArtifactFormat, ReportTransfer, TabletConfiguration
deriving instance Countable for ScopePayload, DocumentEntry, ArtifactEntry, DatasetEntry
deriving instance Countable for Capabilities, TabletStatus, ManifestState

/-- There are no more hashed states than numbers. -/
noncomputable def stateNumber : ManifestState → ℕ := (exists_injective_nat ManifestState).choose

theorem stateNumber_injective : Function.Injective stateNumber := (exists_injective_nat ManifestState).choose_spec

/-- The state of the sample tablet while the phonebook is published. -/
def phonebookState : Except Error ManifestState := do
  let published := sampleRun (publishPhonebook 0 1 0)
  let (context, publications) ← manifestPublications published 0 5
  let capabilities ← manifestCapabilities sampleSettings published.fleet
  manifestState sampleSettings published.db.documents context publications 1 capabilities

/-- A text for each state, of which the runs below only meet the first. -/
@[irreducible] noncomputable def phonebookHash (state : ManifestState) : String :=
  if phonebookState.toOption = some state then "phonebook" else String.ofList (List.replicate (stateNumber state) 'a')

theorem phonebookHash_injective : Function.Injective phonebookHash := by
  have hother : ∀ n, "phonebook" ≠ String.ofList (List.replicate n 'a') := by
    intro n heq
    have hmem : 'p' ∈ List.replicate n 'a' := by
      rw [← String.toList_ofList (l := List.replicate n 'a'), ← heq]
      decide
    exact absurd (List.eq_of_mem_replicate hmem) (by decide)
  intro state state' h
  unfold phonebookHash at h
  split_ifs at h with hstate hstate' hstate'
  · exact Option.some.inj (hstate.symm.trans hstate')
  · exact absurd h (hother _)
  · exact absurd h.symm (hother _)
  · have hlist := congrArg List.length (String.ofList_injective h)
    rw [List.length_replicate, List.length_replicate] at hlist
    exact stateNumber_injective hlist

noncomputable def phonebookSettings : Settings := { sampleSettings with stateHash := phonebookHash }

/-- The sample deployment with a manifest of the first phonebook. -/
noncomputable def phonebookServed : State := runActions sampleCrypto phonebookSettings { fleet := sampleFleet } servedPhonebook

/-- Its tablet after an update of the application. -/
noncomputable def phonebookUpdated : State :=
  { phonebookServed with
    fleet := { sampleFleet with
      installations := ⟨sampleFleet.installations.rows.map fun installation => { installation with appVersion := "1.1.0" }⟩ } }

/-- What the state of the tablet hashes to. -/
noncomputable def hashedListing (s : State) : Except Error String := do
  let (context, publications) ← manifestPublications s 0 5
  manifestStateHash phonebookSettings s.db.documents context publications 1 { webUrl := "https://rescue.example" }

/-- The phonebook is served, and an update of the application leaves the manifest as it is. -/
theorem servedPhonebook_coalesces : Function.Injective phonebookHash ∧
    (∃ context context' publications publications', manifestPublications phonebookServed 0 5 = .ok (context, publications) ∧
      manifestPublications phonebookUpdated 0 5 = .ok (context', publications') ∧ context ≠ context' ∧ publications.length = 1 ∧
      SameManifest phonebookSettings phonebookSettings phonebookServed.db.documents phonebookUpdated.db.documents context context'
        publications publications' 1 1 { webUrl := "https://rescue.example" } { webUrl := "https://rescue.example" }) ∧
    ∃ r payload signed context publications capabilities state,
      requestManifest phonebookSettings 0 1 5 5 phonebookServed = (.ok r, exec (requestManifest phonebookSettings 0 1 5 5) phonebookServed) ∧
      r.payload = some payload ∧ payload.payload = some signed ∧
      manifestPublications phonebookServed 0 5 = .ok (context, publications) ∧
      manifestCapabilities phonebookSettings phonebookServed.fleet = .ok capabilities ∧
      manifestState phonebookSettings phonebookServed.db.documents context publications 1 capabilities = .ok state ∧
      state.rendered = .ok signed.erased := by
  obtain ⟨hsame, hserved⟩ := @coalescing_sound sampleCrypto phonebookHash phonebookHash_injective
  refine ⟨phonebookHash_injective, ?_, ?_⟩
  · have hhash : hashedListing phonebookServed = .ok "phonebook" := by decide +kernel
    have hhash' : hashedListing phonebookUpdated = .ok "phonebook" := by decide +kernel
    have hlisted : (manifestPublications phonebookServed 0 5).map (fun l => (l.1.installation.appVersion, l.2.length)) = .ok ("1.0.0", 1) := by
      decide +kernel
    have hlisted' : (manifestPublications phonebookUpdated 0 5).map (fun l => l.1.installation.appVersion) = .ok "1.1.0" := by
      decide +kernel
    obtain ⟨⟨context, publications⟩, hfound, hhash⟩ := bind_eq_ok.mp hhash
    obtain ⟨⟨context', publications'⟩, hfound', hhash'⟩ := bind_eq_ok.mp hhash'
    rw [hfound] at hlisted
    rw [hfound'] at hlisted'
    obtain ⟨hversion, hone⟩ := Prod.mk.inj (Except.ok.inj hlisted)
    have hversion' := Except.ok.inj hlisted'
    refine ⟨context, context', publications, publications', hfound, hfound', ?_, hone, hsame rfl rfl hhash hhash'⟩
    rintro rfl
    exact absurd (hversion.symm.trans hversion') (by decide)
  · have hreach : (delivery sampleCrypto phonebookHash).Reachable phonebookServed :=
      @reachable_runActions _ sampleCrypto phonebookSettings (.init deployed_sample) servedPhonebook
    have hready : ((requestManifest phonebookSettings 0 1 5 5 phonebookServed).1.map fun r => r.payload.isSome) = .ok true := by
      decide +kernel
    unfold exec
    cases hreq : requestManifest phonebookSettings 0 1 5 5 phonebookServed with
    | mk result t =>
      rw [hreq] at hready
      cases result with
      | error e => cases hready
      | ok r =>
        obtain ⟨payload, hpayload⟩ := Option.isSome_iff_exists.mp (Except.ok.inj hready)
        obtain ⟨signed, context, publications, capabilities, state, hsigned, hlisted, hcap, hstate, hrendered⟩ :=
          hserved hreach rfl hreq hpayload
        exact ⟨r, payload, signed, context, publications, capabilities, state, rfl, hpayload, hsigned, hlisted, hcap, hstate, hrendered⟩

end FireDash.Delivery
