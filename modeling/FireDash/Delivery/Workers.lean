import FireDash.Delivery.Upkeep

/-! What a transaction of a delivery worker does: claims, ended grants, re-signed artifacts
and signed manifests. -/
namespace FireDash.Delivery

open Publications Tx

variable {s t u : State} {crypto : DeliveryCrypto} {settings : Settings}

/-! ### Claims and dataset key grants -/

theorem oldest_eq_some {α : Type} {createdAt : α → Time} {select : ℕ → α → Bool} {t : Table α} {i : ℕ} {a : α}
    (h : oldest createdAt select t = some (i, a)) : t.find i = some a ∧ select i a = true := by
  have hmem := List.mem_of_mem_head? h
  rw [List.mem_insertionSort, List.mem_filter, Table.mem_entries] at hmem
  exact hmem

theorem claimNextDatasetKeyGrant_spec {locked : List ℕ} : wp (claimNextDatasetKeyGrant locked)
    (fun r t => r = none ∧ t = s ∨ ∃ id g, r = some id ∧ s.db.keyGrants.find id = some g ∧ g.status = .pending ∧
      t = s.modifyKeyGrant id claimedGrant) (fun _ _ => False) s := by
  simp only [claimNextDatasetKeyGrant, wp_atomic, wp_bind, wp_get]
  cases h : oldest KeyGrant.createdAt (fun id g => g.status = .pending ∧ id ∉ locked) s.db.keyGrants with
  | none => exact .inl ⟨rfl, rfl⟩
  | some row =>
    obtain ⟨id, g⟩ := row
    obtain ⟨hfind, hsel⟩ := oldest_eq_some h
    simp only [decide_eq_true_eq] at hsel
    exact .inr ⟨id, g, rfl, hfind, hsel.1, rfl⟩

theorem claimNextSignedManifest_spec {excludeIds locked : List ℕ} : wp (claimNextSignedManifest excludeIds locked)
    (fun r t => r = none ∧ t = s ∨ ∃ id m, r = some id ∧ s.signedManifests.find id = some m ∧ m.status = .pending ∧
      t = s.modifyManifest id SignedManifest.claimed) (fun _ _ => False) s := by
  simp only [claimNextSignedManifest, wp_atomic, wp_bind, wp_get]
  cases h : oldest SignedManifest.createdAt
      (fun id m => m.status = .pending ∧ id ∉ excludeIds ∧ id ∉ locked) s.signedManifests with
  | none => exact .inl ⟨rfl, rfl⟩
  | some row =>
    obtain ⟨id, m⟩ := row
    obtain ⟨hfind, hsel⟩ := oldest_eq_some h
    simp only [decide_eq_true_eq] at hsel
    exact .inr ⟨id, m, rfl, hfind, hsel.1, rfl⟩

/-- A build ends the running grant it finds, or leaves everything as it is. -/
theorem buildClaimedDatasetKeyGrant_spec {worker : DeliveryWorker} {id : ℕ} {now : Time} :
    wp (buildClaimedDatasetKeyGrant crypto worker id now)
      (fun _ t => ∃ g, s.db.keyGrants.find id = some g ∧ (g.status ≠ .running ∧ t = s ∨
        g.status = .running ∧ ∃ outcome, grantOutcome (wrapContentKey crypto worker s g now) = .ok outcome ∧
          t = s.modifyKeyGrant id (outcome.store now)))
      (fun e t => t = s ∧ ∀ g, s.db.keyGrants.find id = some g → g.status = .running ∧
        grantOutcome (wrapContentKey crypto worker s g now) = .error e) s := by
  simp only [buildClaimedDatasetKeyGrant, wp_atomic, wp_bind, wp_get, wp_require]
  refine ⟨fun g hg => ?_, fun hn => ⟨trivial, fun g hg => ?_⟩⟩
  · by_cases hrun : g.status = .running
    · rw [if_neg (not_not.mpr hrun)]
      simp only [wp_bind, wp_ofExcept, wp_modify]
      refine ⟨fun outcome ho => ⟨g, hg, .inr ⟨hrun, outcome, ho, rfl⟩⟩, fun e he => ⟨trivial, fun g' hg' => ?_⟩⟩
      rw [hg] at hg'
      cases hg'
      exact ⟨hrun, he⟩
    · rw [if_pos hrun]
      exact ⟨g, hg, .inl ⟨hrun, rfl⟩⟩
  · rw [hn] at hg
    cases hg

/-! ### Legacy signatures -/

/-- A row signed again by the worker. -/
def Resigned (crypto : DeliveryCrypto) (p q : Publication) : Prop :=
  ∃ key text version, q = { p with artifact := { p.artifact with
    signature := crypto.ed25519Sign key text, signingKeyVersion := version } }

/-- Marked artifacts were signed again, each once. -/
structure Resigns (crypto : DeliveryCrypto) (s t : State) : Prop where
  rest : t = { s with
    db := { s.db with publications := t.db.publications }, legacyUpgrades := t.legacyUpgrades }
  rows : ∀ {id p}, s.db.publications.find id = some p → ∃ q, t.db.publications.find id = some q ∧
    (q = p ∨ id ∈ s.legacyUpgrades ∧ id ∉ t.legacyUpgrades ∧ Resigned crypto p q)
  fresh : ∀ {id}, s.db.publications.find id = none → t.db.publications.find id = none
  markers : ∀ id ∈ t.legacyUpgrades, id ∈ s.legacyUpgrades

theorem Resigns.refl (s : State) : Resigns crypto s s := ⟨rfl, fun h => ⟨_, h, .inl rfl⟩, id, fun _ h => h⟩

theorem Resigns.trans (h : Resigns crypto s t) (h' : Resigns crypto t u) : Resigns crypto s u where
  rest := by
    rw [h'.rest, h.rest]
  rows hp := by
    obtain ⟨q, hq, hpq⟩ := h.rows hp
    obtain ⟨r, hr, hqr⟩ := h'.rows hq
    refine ⟨r, hr, ?_⟩
    rcases hpq with rfl | ⟨hs, ht, hpq⟩
    · rcases hqr with rfl | ⟨ht, hu, hqr⟩
      · exact .inl rfl
      · exact .inr ⟨h.markers _ ht, hu, hqr⟩
    · rcases hqr with rfl | ⟨ht', -, -⟩
      · exact .inr ⟨hs, fun hu => ht (h'.markers _ hu), hpq⟩
      · exact absurd ht' ht
  fresh hn := h'.fresh (h.fresh hn)
  markers id hid := h.markers id (h'.markers id hid)

/-- The row that is signed keeps its content; the worker holds what the database stores. -/
theorem upgradeLegacyScopeSignature_spec {cfg : Config} {worker : DeliveryWorker} {e : PublicationId × Publication}
    (he : s.db.publications.find e.1 = some e.2) :
    wp (upgradeLegacyScopeSignature cfg crypto worker e)
      (fun e' t => Resigns crypto s t ∧ e'.1 = e.1 ∧ t.db.publications.find e.1 = some e'.2 ∧
        ∀ k, k ≠ e.1 → t.db.publications.find k = s.db.publications.find k)
      (fun _ t => t = s) s := by
  simp only [upgradeLegacyScopeSignature, wp_atomic, wp_bind, wp_get]
  by_cases hmarked : e.1 ∈ s.legacyUpgrades
  · rw [if_neg (not_not.mpr hmarked)]
    simp only [wp_bind, wp_require, wp_ensure, wp_ofExcept, wp_modify, wp_pure, implies_true, and_true]
    intro ciphertext _ _ key _ _
    refine ⟨⟨rfl, fun {id p} hp => ?_, fun {id} hn => ?_, fun id hid => ?_⟩, ?_, ?_, fun k hk => ?_⟩
    · by_cases hid : e.1 = id
      · subst hid
        refine ⟨_, by simp [Db.modifyPublication, hp]; rfl, .inr ⟨hmarked, by simp, key, _, cfg.signingKeyVersion, rfl⟩⟩
      · exact ⟨p, by simp [Db.modifyPublication, hid, hp], .inl rfl⟩
    · simp [Db.modifyPublication, hn]
    · exact (List.mem_filter.mp hid).1
    · trivial
    · simp [Db.modifyPublication, he]
    · simp [Db.modifyPublication, hk.symm]
  · rw [if_pos hmarked]
    exact ⟨.refl s, rfl, he, fun _ _ => rfl⟩

theorem upgradeLegacyScopeSignatures_spec {cfg : Config} {worker : DeliveryWorker}
    {l : List (PublicationId × Publication)} (hnd : (l.map Prod.fst).Nodup)
    (hl : ∀ e ∈ l, s.db.publications.find e.1 = some e.2) :
    wp (upgradeLegacyScopeSignatures cfg crypto worker l)
      (fun l' t => Resigns crypto s t ∧ (∀ k, k ∉ l.map Prod.fst → t.db.publications.find k = s.db.publications.find k) ∧
        List.Forall₂ (fun (e e' : PublicationId × Publication) =>
          e'.1 = e.1 ∧ t.db.publications.find e.1 = some e'.2) l l')
      (fun _ t => Resigns crypto s t) s := by
  induction l generalizing s with
  | nil => exact ⟨.refl s, fun _ _ => rfl, .nil⟩
  | cons e rest ih =>
    rw [List.map_cons, List.nodup_cons] at hnd
    have he := hl e List.mem_cons_self
    -- The remaining artifacts, once the first is settled.
    have hrest : ∀ (e' : PublicationId × Publication) t, Resigns crypto s t → e'.1 = e.1 →
        t.db.publications.find e.1 = some e'.2 →
        (∀ k, k ≠ e.1 → t.db.publications.find k = s.db.publications.find k) →
        wp (upgradeLegacyScopeSignatures cfg crypto worker rest)
          (fun rest' u => Resigns crypto s u ∧
            (∀ k, k ∉ (e :: rest).map Prod.fst → u.db.publications.find k = s.db.publications.find k) ∧
            List.Forall₂ (fun (e e' : PublicationId × Publication) =>
              e'.1 = e.1 ∧ u.db.publications.find e.1 = some e'.2) (e :: rest) (e' :: rest'))
          (fun _ u => Resigns crypto s u) t := by
      intro e' t hst hid hfind hframe
      have hfound : ∀ a ∈ rest, t.db.publications.find a.1 = some a.2 := by
        intro a ha
        have hne : a.1 ≠ e.1 := fun h => hnd.1 (h ▸ List.mem_map_of_mem ha)
        rw [hframe a.1 hne]
        exact hl a (List.mem_cons_of_mem _ ha)
      refine wp_mono (ih hnd.2 hfound) ?_ fun _ u hu => hst.trans hu
      rintro rest' u ⟨htu, hkeep, hall⟩
      refine ⟨hst.trans htu, fun k hk => ?_, .cons ⟨hid, (hkeep e.1 hnd.1).trans hfind⟩ hall⟩
      rw [List.map_cons, List.mem_cons, not_or] at hk
      rw [hkeep k hk.2, hframe k hk.1]
    simp only [upgradeLegacyScopeSignatures, wp_bind, wp_ofExcept, wp_ite, wp_pure]
    refine ⟨fun b _ => ⟨fun _ => ?_, fun _ => ?_⟩, fun _ _ => .refl s⟩
    · exact hrest e s (.refl s) rfl he fun _ _ => rfl
    · refine wp_mono (upgradeLegacyScopeSignature_spec he) ?_ fun _ t ht => ht ▸ .refl t
      rintro e' t ⟨hst, hid, hfind, hframe⟩
      exact hrest e' t hst hid hfind hframe

/-! ### Signed manifests -/

/-- The delivered list holds rows of the publication table, each once. -/
theorem manifestPublications_rows {id : InstallationId} {now : Time} {context : Context}
    {publications : List (PublicationId × Publication)}
    (h : manifestPublications s id now = .ok (context, publications)) :
    (publications.map Prod.fst).Nodup ∧ ∀ e ∈ publications, s.db.publications.find e.1 = some e.2 := by
  have hdeliverable : ∀ department vehicle, ((s.deliverable department vehicle).map Prod.fst).Nodup ∧
      ∀ e ∈ s.deliverable department vehicle, s.db.publications.find e.1 = some e.2 := by
    intro department vehicle
    refine ⟨?_, fun e he => (State.mem_deliverable.mp he).1⟩
    rw [State.deliverable_eq]
    have hperm := List.perm_insertionSort (fun a b : PublicationId × Publication =>
      codeOrder a.2.key.target.datasetTypeCode ≤ codeOrder b.2.key.target.datasetTypeCode)
      (s.db.publications.entries.filter fun e => Selected s.fleet department vehicle e.2)
    exact (hperm.map Prod.fst).nodup_iff.mpr (s.db.publications.nodup_keys_filter _)
  obtain ⟨-, ⟨-, rfl⟩ | ⟨-, -, rfl⟩ | ⟨-, vehicleId, vehicle, -, rfl⟩⟩ := manifestPublications_eq_ok.mp h
  · simp
  · simp
  · exact hdeliverable _ _

theorem manifestPublications_published {id : InstallationId} {now : Time} {context : Context}
    {publications : List (PublicationId × Publication)}
    (h : manifestPublications s id now = .ok (context, publications)) {e : PublicationId × Publication}
    (he : e ∈ publications) : e.2.status = .published ∧ e.2.artifactStatus = .ready := by
  obtain ⟨-, ⟨-, rfl⟩ | ⟨-, -, rfl⟩ | ⟨-, vehicleId, vehicle, -, rfl⟩⟩ := manifestPublications_eq_ok.mp h
  · cases he
  · cases he
  · have hsel := (State.mem_deliverable.mp he).2
    simp only [Selected, inDeliveryQuery, decide_eq_true_eq] at hsel
    exact ⟨hsel.1.2.1, hsel.1.2.2.1⟩

/-- How a manifest comes to be signed: the state it is rendered from has the hash of its row,
its grants are ready, and the artifacts may be signed again in between. -/
structure Signs (settings : Settings) (crypto : DeliveryCrypto) (s v t : State) (m : SignedManifest) (now : Time)
    (context : Context) (publications publications' : List (PublicationId × Publication))
    (grants : List (ℕ × KeyGrant)) (capabilities : Capabilities) (payload : Payload) : Prop where
  listed : manifestPublications s m.appInstallation now = .ok (context, publications)
  validUrl : manifestCapabilities settings s.fleet = .ok capabilities
  hash : manifestStateHash settings s.db.documents context publications m.generation capabilities = .ok m.stateHash
  requests : Requests s v
  granted : GrantsFor s v m.appInstallation publications grants
  ready : ∀ r ∈ grants, r.2.status = .ready
  resigns : Resigns crypto v t
  rows : List.Forall₂ (fun (e e' : PublicationId × Publication) =>
    e'.1 = e.1 ∧ t.db.publications.find e.1 = some e'.2) publications publications'
  rendered : manifestPayload settings s.db.documents context publications' grants m.generation now capabilities =
    .ok payload

/-- What building a manifest does before its outcome is stored. -/
def Prepares (crypto : DeliveryCrypto) (s t : State) : Prop := ∃ v, Requests s v ∧ Resigns crypto v t

theorem tryManifest_spec {worker : DeliveryWorker} {m : SignedManifest} {now clock : Time} :
    wp (tryManifest settings crypto worker m now clock)
      (fun outcome t => Prepares crypto s t ∧ ∀ payload signature, outcome = .ready payload signature →
        ∃ v context publications publications' grants capabilities,
          Signs settings crypto s v t m now context publications publications' grants capabilities payload)
      (fun _ t => Prepares crypto s t) s := by
  have hstay : ∀ {v}, Requests s v → Prepares crypto s v := fun h => ⟨_, h, .refl _⟩
  simp only [tryManifest, wp_bind, wp_get, wp_ofExcept]
  refine ⟨fun a ha => ?_, fun _ _ => hstay (.refl s)⟩
  obtain ⟨context, publications⟩ := a
  refine wp_mono requestGrants_requests ?_ fun _ v hv => hstay hv
  rintro grants v ⟨hv, hgrants⟩
  refine ⟨fun capabilities hcap => ⟨fun stateHash hhash => ?_, fun _ _ => hstay hv⟩, fun _ _ => hstay hv⟩
  have hout : ∀ outcome : ManifestOutcome, (∀ payload signature, outcome ≠ .ready payload signature) →
      Prepares crypto s v ∧ ∀ payload signature, outcome = .ready payload signature →
        ∃ v' context publications publications' grants capabilities,
          Signs settings crypto s v' v m now context publications publications' grants capabilities payload :=
    fun outcome hne => ⟨hstay hv, fun payload signature he => absurd he (hne payload signature)⟩
  rw [wp_ite]
  refine ⟨fun _ => hout _ (by simp), fun hsame => ?_⟩
  rw [wp_ite]
  refine ⟨fun _ => hout _ (by simp), fun _ => ?_⟩
  rw [wp_ite]
  refine ⟨fun _ => hout _ (by simp), fun _ => ?_⟩
  rw [wp_ite]
  refine ⟨fun _ => hout _ (by simp), fun hready => ?_⟩
  obtain rfl := not_not.mp hsame
  have hallready : ∀ r ∈ grants, r.2.status = .ready := by
    intro r hr
    by_contra hne
    exact hready (List.any_eq_true.mpr ⟨r, hr, by simpa using hne⟩)
  obtain ⟨hnd, hrows⟩ := manifestPublications_rows ha
  rw [← hv.upkeep.publications] at hrows
  simp only [wp_bind, wp_ofExcept, wp_pure]
  refine wp_mono (upgradeLegacyScopeSignatures_spec hnd hrows) ?_ fun _ t ht => ⟨v, hv, ht⟩
  rintro publications' t ⟨ht, -, hall⟩
  refine ⟨fun payload hpay => ⟨fun signature _ => ⟨⟨v, hv, ht⟩, ?_⟩, fun _ _ => ⟨v, hv, ht⟩⟩, fun _ _ => ⟨v, hv, ht⟩⟩
  rintro payload' signature' he
  cases he
  exact ⟨v, context, publications, publications', grants, capabilities,
    ⟨ha, hcap, hhash, hv, hgrants, hallready, ht, hall, hpay⟩⟩

/-- A handled error never yields a signed manifest and changes nothing further. -/
theorem manifestFailure_spec {e : Error} {x : Service ManifestOutcome} (h : manifestFailure e = some x) :
    ∃ outcome : ManifestOutcome, x = pure outcome ∧ ∀ payload signature, outcome ≠ .ready payload signature := by
  unfold manifestFailure at h
  split at h
  · cases h
    exact ⟨_, rfl, by simp⟩
  · split at h
    · cases h
      exact ⟨_, rfl, by simp⟩
    · cases h

/-- A build ends the running manifest it finds, or leaves everything as it is. -/
theorem buildClaimedSignedManifest_spec {worker : DeliveryWorker} {id : ℕ} {now clock : Time} :
    wp (buildClaimedSignedManifest settings crypto worker id now clock)
      (fun _ t => ∃ m, s.signedManifests.find id = some m ∧ (m.status ≠ .running ∧ t = s ∨
        m.status = .running ∧ ∃ (u : State) (outcome : ManifestOutcome), Prepares crypto s u ∧
          t = u.modifyManifest id (outcome.store settings.publications now) ∧
          ∀ payload signature, outcome = .ready payload signature →
            ∃ v context publications publications' grants capabilities,
              Signs settings crypto s v u m now context publications publications' grants capabilities payload))
      (fun _ t => t = s) s := by
  simp only [buildClaimedSignedManifest, wp_atomic, wp_bind, wp_get, wp_require]
  refine ⟨fun m hm => ?_, fun _ => trivial⟩
  by_cases hrun : m.status = .running
  · rw [if_neg (not_not.mpr hrun)]
    simp only [wp_bind, wp_handle, wp_modify]
    refine wp_mono tryManifest_spec ?_ ?_
    · rintro outcome u ⟨hu, hsigns⟩
      exact ⟨m, hm, .inr ⟨hrun, u, outcome, hu, rfl, hsigns⟩⟩
    · rintro e u hu
      refine ⟨fun x hx => ?_, fun _ => trivial⟩
      obtain ⟨outcome, rfl, hne⟩ := manifestFailure_spec hx
      exact ⟨m, hm, .inr ⟨hrun, u, outcome, hu, rfl, fun payload signature he => absurd he (hne payload signature)⟩⟩
  · rw [if_pos hrun]
    exact ⟨m, hm, .inl ⟨hrun, rfl⟩⟩

/-! ### Generation key grants -/

/-- A key is only made for a building attempt, so an authorized one has its key stored. -/
theorem ensureGenerationKey_eq_ok {cfg : Config} {worker : WorkerEnv} {documents documents' : DocumentTables}
    {id : PublicationId} {p : Publication} {key : GenerationKey} (hst : p.status ≠ .building)
    (h : ensureGenerationKey cfg crypto.toCrypto worker documents id p = .ok (documents', key)) :
    documents' = documents := by
  unfold ensureGenerationKey at h
  split at h
  · simp only [pure_eq_ok, Prod.mk.injEq] at h
    exact h.1.symm
  · rw [check_eq_ok] at h
    exact absurd h.1 (not_not.mpr hst)

/-- An authorized generation is current, or a retained library. -/
theorem GenerationAuthorized.status {id : PublicationId} {context : Context} {vehicle : Vehicle} {p : Publication}
    {sc : Scope} (h : GenerationAuthorized s id context vehicle p sc) :
    p.status = .published ∨ p.status = .superseded ∧ p.key.target.datasetTypeCode.isFileDataset = true := by
  rcases h.listed with ⟨hmem, -⟩ | hretained
  · obtain ⟨⟨id', p'⟩, hm, rfl⟩ := List.mem_map.mp hmem
    obtain ⟨hp, hsel⟩ := State.mem_deliverable.mp hm
    have hsame : p' = p := by
      have hp' := h.publication
      rw [hp] at hp'
      exact Option.some.inj hp'
    subst hsame
    simp only [Selected, inDeliveryQuery, decide_eq_true_eq] at hsel
    exact .inl hsel.1.2.1
  · simp only [retainedLibrary, decide_eq_true_eq] at hretained
    exact .inr ⟨hretained.2.1, hretained.1⟩

/-- A grant ends ready only for a generation authorized in the state the worker leaves. -/
theorem wrapGenerationKey_spec {cfg : Config} {worker : DeliveryWorker} {g : KeyGrant} {now clock : Time} :
    wp (wrapGenerationKey cfg crypto worker g now clock)
      (fun outcome t => t = s ∧ ∀ encapsulatedKey wrappedKey, outcome = .ready encapsulatedKey wrappedKey →
        ∃ context, authorizedGeneration s g.publication g.appInstallation clock = .ok context)
      (fun _ t => t = s) s := by
  simp only [wrapGenerationKey, wp_bind, wp_get, wp_ofExcept, wp_require, wp_modify, wp_pure, implies_true, and_true]
  intro context hc p hp r hr
  obtain ⟨documents, key⟩ := r
  obtain ⟨-, -, vehicleId, vehicle, p', sc, -, hauth⟩ := authorizedGeneration_eq_ok.mp hc
  have hst : p.status ≠ .building := by
    have hp' := hauth.publication
    rw [hp] at hp'
    cases hp'
    rcases hauth.status with h | ⟨h, -⟩ <;> rw [h] <;> decide
  obtain rfl := ensureGenerationKey_eq_ok hst hr
  have hsame : { s with db := { s.db with documents := s.db.documents } } = s := rfl
  simp only [hsame]
  refine ⟨fun generationKey _ => ⟨fun r _ => ⟨fun context' hc' => ⟨trivial, fun _ _ _ => ⟨context', hc'⟩⟩,
    fun _ _ => trivial⟩, fun _ _ => trivial⟩, fun _ _ => trivial⟩

theorem generationGrantFailure_spec {e : Error} {x : Service GrantOutcome} (h : generationGrantFailure e = some x) :
    ∃ outcome : GrantOutcome, x = pure outcome ∧
      ∀ encapsulatedKey wrappedKey, outcome ≠ .ready encapsulatedKey wrappedKey := by
  unfold generationGrantFailure at h
  split at h
  · cases h
    exact ⟨_, rfl, by simp⟩
  · cases h
    exact ⟨_, rfl, by simp⟩
  · split at h
    · cases h
      exact ⟨_, rfl, by simp⟩
    · cases h

/-- The worker ends the oldest open grant. -/
theorem processNextGenerationKeyGrant_spec {cfg : Config} {worker : DeliveryWorker} {locked : List ℕ}
    {now clock : Time} : wp (processNextGenerationKeyGrant cfg crypto worker locked now clock)
      (fun r t => r = none ∧ t = s ∨ ∃ (id : ℕ) (g : KeyGrant) (outcome : GrantOutcome),
        r = some id ∧ s.db.generationKeyGrants.find id = some g ∧
        (g.status = .pending ∨ g.status = .running) ∧
        t = (s.modifyGenerationKeyGrant id fun row => { row with status := .running }).modifyGenerationKeyGrant id
          (outcome.store clock) ∧
        ∀ encapsulatedKey wrappedKey, outcome = .ready encapsulatedKey wrappedKey →
          ∃ context, authorizedGeneration s g.publication g.appInstallation clock = .ok context)
      (fun _ t => t = s) s := by
  simp only [processNextGenerationKeyGrant, wp_atomic, wp_bind, wp_get]
  cases h : oldest KeyGrant.createdAt (fun id g => (g.status = .pending ∨ g.status = .running) ∧ id ∉ locked)
      s.db.generationKeyGrants with
  | none => exact .inl ⟨rfl, rfl⟩
  | some row =>
    obtain ⟨id, g⟩ := row
    obtain ⟨hfind, hsel⟩ := oldest_eq_some h
    simp only [decide_eq_true_eq] at hsel
    simp only [wp_bind, wp_modify, wp_handle, wp_pure]
    refine wp_mono wrapGenerationKey_spec ?_ ?_
    · rintro outcome t ⟨rfl, hready⟩
      exact .inr ⟨id, g, outcome, rfl, hfind, hsel.1, rfl, hready⟩
    · rintro e t rfl
      refine ⟨fun x hx => ?_, fun _ => trivial⟩
      obtain ⟨outcome, rfl, hne⟩ := generationGrantFailure_spec hx
      exact .inr ⟨id, g, outcome, rfl, hfind, hsel.1, rfl, fun _ _ he => absurd he (hne _ _)⟩

end FireDash.Delivery
