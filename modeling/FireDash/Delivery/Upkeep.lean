import FireDash.Delivery.Assets

/-! What requests and the services of the fleet may do to grants and signed manifests: put
them back to waiting, or withdraw them. -/
namespace FireDash.Delivery

open Publications Tx

/-- A grant stays, waits again or is revoked, under its own names. -/
def ResetGrant (g g' : KeyGrant) : Prop :=
  g' = g ∨ (g'.status = .pending ∨ g'.status = .revoked) ∧ g'.publication = g.publication ∧
    g'.appInstallation = g.appInstallation

/-- A manifest stays, waits again or is obsolete, under its own names. -/
def ResetManifest (m m' : SignedManifest) : Prop :=
  m' = m ∨ (m'.status = .pending ∨ m'.status = .obsolete) ∧ m'.appInstallation = m.appInstallation ∧
    m'.stateHash = m.stateHash ∧ m'.generation = m.generation

/-- A new grant waits, and names existing rows. -/
def NewGrant (s : State) (g : KeyGrant) : Prop :=
  (g.status = .pending ∨ g.status = .revoked) ∧ (s.db.publications.find g.publication).isSome = true ∧
    (s.fleet.installations.find g.appInstallation).isSome = true

/-- A new manifest waits, and names an existing installation. -/
def NewManifest (s : State) (m : SignedManifest) : Prop :=
  (m.status = .pending ∨ m.status = .obsolete) ∧ (s.fleet.installations.find m.appInstallation).isSome = true

/-- The effect of a request or of a service of the fleet. -/
structure Upkeep (s t : State) : Prop where
  db : t.db = { s.db with keyGrants := t.db.keyGrants, generationKeyGrants := t.db.generationKeyGrants }
  legacyUpgrades : t.legacyUpgrades = s.legacyUpgrades
  wellFormed : s.fleet.wellFormed = true → t.fleet.wellFormed = true
  installations : s.fleet.installations.nextId ≤ t.fleet.installations.nextId
  keyGrants : Table.Evolve ResetGrant (NewGrant t) s.db.keyGrants t.db.keyGrants
  generationKeyGrants : Table.Evolve ResetGrant (NewGrant t) s.db.generationKeyGrants t.db.generationKeyGrants
  manifests : Table.Evolve ResetManifest (NewManifest t) s.signedManifests t.signedManifests

/-! ### Composition -/

theorem ResetGrant.refl (g : KeyGrant) : ResetGrant g g := .inl rfl

theorem ResetGrant.trans {a b c : KeyGrant} (h : ResetGrant a b) (h' : ResetGrant b c) : ResetGrant a c := by
  rcases h' with rfl | ⟨hst', hp', hi'⟩
  · exact h
  · rcases h with rfl | ⟨-, hp, hi⟩
    · exact .inr ⟨hst', hp', hi'⟩
    · exact .inr ⟨hst', hp'.trans hp, hi'.trans hi⟩

theorem ResetManifest.refl (m : SignedManifest) : ResetManifest m m := .inl rfl

theorem ResetManifest.trans {a b c : SignedManifest} (h : ResetManifest a b) (h' : ResetManifest b c) :
    ResetManifest a c := by
  rcases h' with rfl | ⟨hst', hi', hh', hg'⟩
  · exact h
  · rcases h with rfl | ⟨-, hi, hh, hg⟩
    · exact .inr ⟨hst', hi', hh', hg'⟩
    · exact .inr ⟨hst', hi'.trans hi, hh'.trans hh, hg'.trans hg⟩

theorem NewGrant.reset {s : State} {g g' : KeyGrant} (h : NewGrant s g) (hr : ResetGrant g g') : NewGrant s g' := by
  rcases hr with rfl | ⟨hst, hp, hi⟩
  · exact h
  · exact ⟨hst, by rw [hp]; exact h.2.1, by rw [hi]; exact h.2.2⟩

theorem NewManifest.reset {s : State} {m m' : SignedManifest} (h : NewManifest s m) (hr : ResetManifest m m') :
    NewManifest s m' := by
  rcases hr with rfl | ⟨hst, hi, -, -⟩
  · exact h
  · exact ⟨hst, by rw [hi]; exact h.2⟩

/-- Keys are handed out in order, so a row stays found while the counter does not fall. -/
theorem isSome_find_of_nextId_le {α : Type} {t t' : Table α} (h : t.nextId ≤ t'.nextId) {i : ℕ}
    (hi : (t.find i).isSome = true) : (t'.find i).isSome = true := by
  obtain ⟨a, ha⟩ := Option.isSome_iff_exists.mp hi
  have hlt := Table.lt_nextId_of_find ha
  unfold Table.nextId at h hlt
  exact Option.isSome_iff_exists.mpr ⟨_, List.getElem?_eq_getElem (by omega)⟩

variable {s t u : State}

theorem Upkeep.publications (h : Upkeep s t) : t.db.publications = s.db.publications := by
  rw [h.db]

theorem Upkeep.documents (h : Upkeep s t) : t.db.documents = s.db.documents := by
  rw [h.db]

theorem Upkeep.newGrant (h : Upkeep s t) (g : KeyGrant) (hg : NewGrant s g) : NewGrant t g :=
  ⟨hg.1, by rw [h.publications]; exact hg.2.1, isSome_find_of_nextId_le h.installations hg.2.2⟩

theorem Upkeep.newManifest (h : Upkeep s t) (m : SignedManifest) (hm : NewManifest s m) : NewManifest t m :=
  ⟨hm.1, isSome_find_of_nextId_le h.installations hm.2⟩

theorem Upkeep.refl (s : State) : Upkeep s s where
  db := rfl
  legacyUpgrades := rfl
  wellFormed h := h
  installations := le_rfl
  keyGrants := .refl ResetGrant.refl
  generationKeyGrants := .refl ResetGrant.refl
  manifests := .refl ResetManifest.refl

theorem Upkeep.trans (h : Upkeep s t) (h' : Upkeep t u) : Upkeep s u where
  db := by
    rw [h'.db, h.db]
  legacyUpgrades := h'.legacyUpgrades.trans h.legacyUpgrades
  wellFormed hw := h'.wellFormed (h.wellFormed hw)
  installations := h.installations.trans h'.installations
  keyGrants := .trans ResetGrant.trans NewGrant.reset (h.keyGrants.mono h'.newGrant) h'.keyGrants
  generationKeyGrants :=
    .trans ResetGrant.trans NewGrant.reset (h.generationKeyGrants.mono h'.newGrant) h'.generationKeyGrants
  manifests := .trans ResetManifest.trans NewManifest.reset (h.manifests.mono h'.newManifest) h'.manifests

instance : IsPreorder State Upkeep where
  refl := Upkeep.refl
  trans _ _ _ := Upkeep.trans

/-! ### Elementary writes -/

theorem Upkeep.modifyKeyGrant {i : ℕ} {f : KeyGrant → KeyGrant}
    (hf : ∀ g, s.db.keyGrants.find i = some g → ResetGrant g (f g)) : Upkeep s (s.modifyKeyGrant i f) :=
  { Upkeep.refl s with db := rfl, keyGrants := .modify ResetGrant.refl hf }

theorem Upkeep.modifyGenerationKeyGrant {i : ℕ} {f : KeyGrant → KeyGrant}
    (hf : ∀ g, s.db.generationKeyGrants.find i = some g → ResetGrant g (f g)) :
    Upkeep s (s.modifyGenerationKeyGrant i f) :=
  { Upkeep.refl s with db := rfl, generationKeyGrants := .modify ResetGrant.refl hf }

theorem Upkeep.insertKeyGrant {g : KeyGrant} (hg : NewGrant s g) : Upkeep s (s.insertKeyGrant g) :=
  { Upkeep.refl s with db := rfl, keyGrants := .insert ResetGrant.refl hg }

theorem Upkeep.insertGenerationKeyGrant {g : KeyGrant} (hg : NewGrant s g) :
    Upkeep s (s.insertGenerationKeyGrant g) :=
  { Upkeep.refl s with db := rfl, generationKeyGrants := .insert ResetGrant.refl hg }

theorem Upkeep.modifyManifest {i : ℕ} {f : SignedManifest → SignedManifest}
    (hf : ∀ m, s.signedManifests.find i = some m → ResetManifest m (f m)) : Upkeep s (s.modifyManifest i f) :=
  { Upkeep.refl s with manifests := .modify ResetManifest.refl hf }

theorem Upkeep.mapManifests {f : SignedManifest → SignedManifest} (hf : ∀ m, ResetManifest m (f m)) :
    Upkeep s { s with signedManifests := ⟨s.signedManifests.rows.map f⟩ } :=
  { Upkeep.refl s with manifests := .map hf }

theorem Upkeep.insertManifest {m : SignedManifest} (hm : NewManifest s m) :
    Upkeep s { s with signedManifests := s.signedManifests.insert m } :=
  { Upkeep.refl s with manifests := .insert ResetManifest.refl hm }

theorem Upkeep.modifyFleet {f : Fleet → Fleet} (hw : s.fleet.wellFormed = true → (f s.fleet).wellFormed = true)
    (hi : s.fleet.installations.nextId ≤ (f s.fleet).installations.nextId) : Upkeep s (s.modifyFleet f) where
  db := rfl
  legacyUpgrades := rfl
  wellFormed := hw
  installations := hi
  keyGrants := .refl ResetGrant.refl
  generationKeyGrants := .refl ResetGrant.refl
  manifests := .refl ResetManifest.refl

theorem Upkeep.revokeDatasetKeyGrants (now : Time) (installation : InstallationId) :
    Upkeep s (s.revokeDatasetKeyGrants now installation) := by
  have hmap : ∀ t : Table KeyGrant, Table.Evolve ResetGrant (NewGrant (s.revokeDatasetKeyGrants now installation))
      t (revokeInstallationGrants now installation t) := by
    refine fun t => .map fun g => ?_
    split
    · exact .inr ⟨.inr rfl, rfl, rfl⟩
    · exact .refl g
  exact { Upkeep.refl s with db := rfl, keyGrants := hmap _, generationKeyGrants := hmap _ }

theorem Upkeep.revokeInstallations (now : Time) (installations : List InstallationId) :
    Upkeep s (s.revokeInstallations now installations) := by
  unfold State.revokeInstallations
  induction installations generalizing s with
  | nil => exact .refl s
  | cons id rest ih => exact (Upkeep.revokeDatasetKeyGrants now id).trans ih

theorem Upkeep.obsoleteManifests (now : Time) (reason : String) (installations : List InstallationId) :
    Upkeep s (s.obsoleteManifests now reason installations) := by
  refine .mapManifests fun m => ?_
  split
  · exact .inr ⟨.inr rfl, rfl, rfl, rfl⟩
  · exact .refl m

theorem Upkeep.invalidateSignedManifests (now : Time) (reason : String) :
    Upkeep s (s.invalidateSignedManifests now reason) := by
  refine .mapManifests fun m => ?_
  split
  · exact .inr ⟨.inr rfl, rfl, rfl, rfl⟩
  · exact .refl m

/-! ### Requests -/

theorem found_eq_ok {α : Type} {row : Option α} {a : α} : found row = .ok a ↔ row = some a := by
  cases row <;> simp [found]

/-- An installation that resolves to a context exists. -/
theorem controlPlaneContext_installation {fleet : Fleet} {id : InstallationId} {now : Time} {context : Context}
    (h : controlPlaneContext fleet id now = .ok context) :
    fleet.installations.find id = some context.installation ∧ context.installationId = id := by
  simp only [controlPlaneContext, bind_eq_ok, found_eq_ok, check_eq_ok] at h
  obtain ⟨installation, hi, tablet, -, department, -, -, h⟩ := h
  split at h
  · obtain rfl := pure_eq_ok.mp h
    exact ⟨hi, rfl⟩
  · split at h
    · split at h <;>
      · obtain rfl := pure_eq_ok.mp h
        exact ⟨hi, rfl⟩
    · obtain rfl := pure_eq_ok.mp h
      exact ⟨hi, rfl⟩

theorem grantFor_eq_some {grants : Table KeyGrant} {publication : PublicationId} {installation : InstallationId}
    {i : ℕ} {g : KeyGrant} (h : grantFor grants publication installation = some (i, g)) :
    grants.find i = some g ∧ g.publication = publication ∧ g.appInstallation = installation := by
  obtain ⟨hf, hp⟩ := Table.first_eq_some h
  simp only [decide_eq_true_eq] at hp
  exact ⟨hf, hp⟩

theorem renewedGrant_reset (g : KeyGrant) : ResetGrant g (renewedGrant g) := .inr ⟨.inl rfl, rfl, rfl⟩

theorem retriedGrant_reset (g : KeyGrant) : ResetGrant g (retriedGrant g) := .inr ⟨.inl rfl, rfl, rfl⟩

/-- Requests for dataset keys: other tables stay, and so do ready grants. -/
structure Requests (s t : State) : Prop where
  upkeep : Upkeep s t
  fleet : t.fleet = s.fleet
  manifests : t.signedManifests = s.signedManifests
  generationKeyGrants : t.db.generationKeyGrants = s.db.generationKeyGrants
  ready : ∀ {i g}, s.db.keyGrants.find i = some g → g.status = .ready → t.db.keyGrants.find i = some g

theorem Requests.refl (s : State) : Requests s s := ⟨.refl s, rfl, rfl, rfl, fun h _ => h⟩

theorem Requests.trans (h : Requests s t) (h' : Requests t u) : Requests s u where
  upkeep := h.upkeep.trans h'.upkeep
  fleet := h'.fleet.trans h.fleet
  manifests := h'.manifests.trans h.manifests
  generationKeyGrants := h'.generationKeyGrants.trans h.generationKeyGrants
  ready hg hst := h'.ready (h.ready hg hst) hst

/-- Resetting a grant that is not ready. -/
theorem Requests.modify {i : ℕ} {g : KeyGrant} {f : KeyGrant → KeyGrant} (hg : s.db.keyGrants.find i = some g)
    (hst : g.status ≠ .ready) (hf : ∀ g, ResetGrant g (f g)) : Requests s (s.modifyKeyGrant i f) where
  upkeep := .modifyKeyGrant fun g _ => hf g
  fleet := rfl
  manifests := rfl
  generationKeyGrants := rfl
  ready {j g'} hj hready := by
    have hne : i ≠ j := by
      rintro rfl
      rw [hg] at hj
      cases hj
      exact hst hready
    simp [State.modifyKeyGrant, hne, hj]

/-- The row a request returned, and the names it is for. -/
def Granted (s : State) (publication : PublicationId) (installation : InstallationId) (r : ℕ × KeyGrant) : Prop :=
  s.db.keyGrants.find r.1 = some r.2 ∧ r.2.publication = publication ∧ r.2.appInstallation = installation

theorem requestDatasetKeyGrant_requests {publication : PublicationId} {installation : InstallationId} {retry : Bool}
    {now : Time} : wp (requestDatasetKeyGrant publication installation retry now)
      (fun r t => Requests s t ∧ Granted t publication installation r) (fun _ t => t = s) s := by
  simp only [requestDatasetKeyGrant, wp_atomic, wp_bind, wp_get, wp_ensure, wp_ofExcept, implies_true, and_true]
  intro a ha hmem
  cases hg : grantFor s.db.keyGrants publication installation with
  | some row =>
    obtain ⟨i, g⟩ := row
    obtain ⟨hfind, hp, hi⟩ := grantFor_eq_some hg
    dsimp only
    by_cases hrevoked : g.status = .revoked
    · rw [if_pos hrevoked]
      simp only [wp_bind, wp_modify, wp_pure]
      refine ⟨.modify hfind (by rw [hrevoked]; decide) renewedGrant_reset, ?_, hp, hi⟩
      simp [State.modifyKeyGrant, hfind]
    · rw [if_neg hrevoked]
      by_cases hretry : retry = true ∧ g.status = .failed
      · rw [if_pos hretry]
        simp only [wp_bind, wp_modify, wp_pure]
        refine ⟨.modify hfind (by rw [hretry.2]; decide) retriedGrant_reset, ?_, hp, hi⟩
        simp [State.modifyKeyGrant, hfind]
      · rw [if_neg hretry]
        exact ⟨.refl s, hfind, hp, hi⟩
  | none =>
    simp only [wp_bind, wp_modify, wp_pure]
    obtain ⟨context, vehicle, publications⟩ := a
    obtain ⟨hcontext, -, -, rfl⟩ := authorizedPublications_eq_ok.mp ha
    obtain ⟨⟨id, row⟩, hrow, rfl⟩ := List.mem_map.mp hmem
    have hnew : NewGrant s { publication := id, appInstallation := installation, createdAt := now } := by
      refine ⟨.inl rfl, ?_, ?_⟩
      · rw [(State.mem_deliverable.mp hrow).1]
        rfl
      · rw [(controlPlaneContext_installation hcontext).1]
        rfl
    refine ⟨⟨.insertKeyGrant hnew, rfl, rfl, rfl, fun {j g} hj _ => ?_⟩, by simp [State.insertKeyGrant], rfl, rfl⟩
    simp [State.insertKeyGrant, (Table.lt_nextId_of_find hj).ne, hj]

/-- The grants returned for the artifact publications of a list, each as it was at one moment
of the pass. -/
def GrantsFor (s t : State) (installation : InstallationId) (publications : List (PublicationId × Publication))
    (grants : List (ℕ × KeyGrant)) : Prop :=
  List.Forall₂ (fun (e : PublicationId × Publication) r =>
      ∃ u, Requests s u ∧ Requests u t ∧ Granted u e.1 installation r)
    (publications.filter fun e => isDocumentManifestDelivery e.2 = .ok false) grants

theorem requestGrants_requests {installation : InstallationId} {retry : Bool} {now : Time}
    {publications : List (PublicationId × Publication)} :
    wp (requestGrants installation retry now publications)
      (fun grants t => Requests s t ∧ GrantsFor s t installation publications grants) (fun _ t => Requests s t) s := by
  induction publications generalizing s with
  | nil => exact ⟨.refl s, .nil⟩
  | cons e rest ih =>
    simp only [requestGrants, wp_bind, wp_ofExcept, wp_ite, Bool.not_eq_true]
    refine ⟨fun b hb => ⟨fun htrue => ?_, fun hfalse => ?_⟩, fun _ _ => .refl s⟩
    · have hdrop : ((e :: rest).filter fun e => isDocumentManifestDelivery e.2 = .ok false) =
          rest.filter fun e => isDocumentManifestDelivery e.2 = .ok false :=
        List.filter_cons_of_neg (by simp [hb, htrue])
      refine wp_mono ih (fun grants t ht => ⟨ht.1, ?_⟩) fun _ _ h => h
      unfold GrantsFor
      rw [hdrop]
      exact ht.2
    · have hkeep : ((e :: rest).filter fun e => isDocumentManifestDelivery e.2 = .ok false) =
          e :: rest.filter fun e => isDocumentManifestDelivery e.2 = .ok false :=
        List.filter_cons_of_pos (by simp [hb, hfalse])
      refine wp_mono requestDatasetKeyGrant_requests ?_ fun _ t ht => ht ▸ .refl s
      rintro r u ⟨hu, hgranted⟩
      refine wp_mono ih ?_ fun _ t ht => hu.trans ht
      rintro grants t ⟨ht, hall⟩
      refine ⟨hu.trans ht, ?_⟩
      unfold GrantsFor
      rw [hkeep]
      refine .cons ⟨u, hu, ht, hgranted⟩ (hall.imp ?_)
      rintro e' r' ⟨v, hv, hvt, hg⟩
      exact ⟨v, hu.trans hv, hvt, hg⟩

/-- A returned grant that is ready is a row of the table after the pass. -/
theorem GrantsFor.ready {installation : InstallationId} {publications : List (PublicationId × Publication)}
    {grants : List (ℕ × KeyGrant)} (h : GrantsFor s t installation publications grants) {r : ℕ × KeyGrant}
    (hr : r ∈ grants) (hst : r.2.status = .ready) :
    t.db.keyGrants.find r.1 = some r.2 ∧ r.2.appInstallation = installation := by
  obtain ⟨e, -, u, -, hut, hfind, -, hinst⟩ := exists_left_of_forall₂ h hr
  exact ⟨hut.ready hfind hst, hinst⟩

/-- The ready manifest row a request serves. -/
structure Serves (settings : Settings) (s : State) (installation : InstallationId) (generation : ℕ) (now : Time)
    (id : ℕ) (m : SignedManifest) (payload : SignedPayload) : Prop where
  first : s.signedManifests.first (fun m' => m'.appInstallation = installation ∧ m'.stateHash = m.stateHash) =
    some (id, m)
  ready : m.status = .ready
  hash : installationStateHash settings s installation generation now = .ok m.stateHash
  payload : payload.payload = m.payload ∧ m.signature = some payload.signature

theorem requestManifest_spec {settings : Settings} {installation : InstallationId} {generation : ℕ}
    {now clock : Time} : wp (requestManifest settings installation generation now clock)
      (fun r t => Upkeep s t ∧ ∀ payload, r.payload = some payload →
        Requests s t ∧ ∃ id m, Serves settings s installation generation now id m payload) (fun _ t => t = s) s := by
  simp only [requestManifest, wp_atomic, wp_bind, wp_get, wp_ofExcept]
  refine ⟨fun a ha => ?_, fun _ _ => trivial⟩
  obtain ⟨context, publications⟩ := a
  refine wp_mono requestGrants_requests ?_ fun _ _ _ => trivial
  rintro grants u ⟨hu, -⟩
  refine ⟨fun capabilities hcap => ⟨fun stateHash hhash => ?_, fun _ _ => trivial⟩, fun _ _ => trivial⟩
  have hash : installationStateHash settings s installation generation now = .ok stateHash := by
    simp only [installationStateHash, bind_eq_ok]
    exact ⟨(context, publications), ha, capabilities, hcap, hhash⟩
  have hexists : (u.fleet.installations.find installation).isSome = true := by
    rw [hu.fleet, (controlPlaneContext_installation (manifestPublications_eq_ok.mp ha).1).1]
    rfl
  simp only [manifestFor, wp_bind, wp_get]
  cases hfirst : u.signedManifests.first fun m => m.appInstallation = installation ∧ m.stateHash = stateHash with
  | some row =>
    obtain ⟨id, m⟩ := row
    obtain ⟨hfind, hm⟩ := Table.first_eq_some hfirst
    simp only [decide_eq_true_eq] at hm
    obtain ⟨hinst, rfl⟩ := hm
    simp only [wp_pure]
    by_cases hretry : m.status = .failed ∨ m.status = .obsolete
    · rw [if_pos hretry]
      simp only [wp_bind, wp_modify, wp_pure]
      refine ⟨hu.upkeep.trans (.modifyManifest fun m _ => .inr ⟨.inl rfl, rfl, rfl, rfl⟩), fun payload hp => ?_⟩
      cases hp
    · rw [if_neg hretry]
      by_cases hready : m.status = .ready
      · rw [if_pos hready]
        simp only [wp_bind, wp_require, wp_pure]
        refine ⟨fun signature hsig => ⟨hu.upkeep, fun payload hp => ⟨hu, id, m, ?_⟩⟩, fun _ => trivial⟩
        cases hp
        exact ⟨hu.manifests ▸ hfirst, hready, hash, rfl, hsig⟩
      · rw [if_neg hready]
        refine ⟨hu.upkeep, fun payload hp => ?_⟩
        cases hp
  | none =>
    simp only [wp_bind, wp_modify, wp_pure]
    rw [if_neg (by simp), if_neg (by simp)]
    refine ⟨hu.upkeep.trans (.insertManifest ⟨.inl rfl, hexists⟩), fun payload hp => ?_⟩
    cases hp

theorem requestGenerationKeyGrant_upkeep {publication : PublicationId} {installation : InstallationId} {now : Time} :
    Frames Upkeep (requestGenerationKeyGrant publication installation now) s := by
  unfold requestGenerationKeyGrant
  refine .atomic (wp_bind.mpr ((wp_get).mpr (wp_bind.mpr (wp_ofExcept.mpr ⟨fun context hc => ?_, fun _ _ => trivial⟩))))
  cases hg : grantFor s.db.generationKeyGrants publication installation with
  | some row =>
    obtain ⟨i, g⟩ := row
    dsimp only
    by_cases hreset : g.status = .failed ∨ g.status = .revoked
    · rw [if_pos hreset]
      exact Upkeep.modifyGenerationKeyGrant fun g _ => renewedGrant_reset g
    · rw [if_neg hreset]
      exact Upkeep.refl s
  | none =>
    obtain ⟨hcontext, -, vehicleId, vehicle, p, sc, -, hauth⟩ := authorizedGeneration_eq_ok.mp hc
    refine Upkeep.insertGenerationKeyGrant ⟨.inl rfl, ?_, ?_⟩
    · rw [hauth.publication]
      rfl
    · rw [(controlPlaneContext_installation hcontext).1]
      rfl

/-! ### Services of the fleet -/

theorem Fleet.wellFormed_iff {fleet : Fleet} : fleet.wellFormed = true ↔
    (∀ a ∈ fleet.installations.rows, (fleet.tablets.find a.tablet).isSome = true) ∧
      ∀ t ∈ fleet.tablets.rows, (fleet.departments.find t.department).isSome = true := by
  simp [Fleet.wellFormed]

/-- A fleet edit that leaves installations and tablets to other rows only in their states. -/
theorem Fleet.wellFormed_congr {fleet fleet' : Fleet} (hd : fleet'.departments = fleet.departments)
    (ht : fleet'.tablets.nextId = fleet.tablets.nextId)
    (hi : ∀ a ∈ fleet'.installations.rows, (fleet.tablets.find a.tablet).isSome = true ∨
      ∃ b ∈ fleet.installations.rows, b.tablet = a.tablet)
    (hrows : ∀ t ∈ fleet'.tablets.rows, ∃ u ∈ fleet.tablets.rows, u.department = t.department)
    (hw : fleet.wellFormed = true) : fleet'.wellFormed = true := by
  rw [Fleet.wellFormed_iff] at hw ⊢
  constructor
  · intro a ha
    have hold : (fleet.tablets.find a.tablet).isSome = true := by
      rcases hi a ha with h | ⟨b, hb, he⟩
      · exact h
      · rw [← he]
        exact hw.1 b hb
    exact isSome_find_of_nextId_le ht.ge hold
  · intro t htr
    obtain ⟨u, hu, he⟩ := hrows t htr
    rw [hd, ← he]
    exact hw.2 u hu

theorem Upkeep.modifyTablet (id : TabletId) {f : Tablet → Tablet} (hf : ∀ t, (f t).department = t.department) :
    Upkeep s (s.modifyFleet fun fleet => fleet.modifyTablet id f) := by
  refine .modifyFleet (fun hw => ?_) le_rfl
  refine @Fleet.wellFormed_congr s.fleet _ rfl (Table.nextId_modify _ _ _) (fun a ha => .inr ⟨a, ha, rfl⟩) (fun t ht => ?_) hw
  obtain ⟨i, hi⟩ := List.mem_iff_getElem?.mp ht
  have hfind : (s.fleet.tablets.modify id f).find i = some t := hi
  rw [Table.find_modify] at hfind
  split at hfind
  · obtain ⟨u, hu, rfl⟩ := Option.map_eq_some_iff.mp hfind
    exact ⟨u, List.mem_of_getElem? hu, (hf u).symm⟩
  · exact ⟨t, List.mem_of_getElem? hfind, rfl⟩

/-- Installations move to other states, and new ones belong to existing tablets. -/
theorem Upkeep.modifyInstallations {f : Fleet → Table AppInstallation}
    (hn : s.fleet.installations.nextId ≤ (f s.fleet).nextId)
    (hi : ∀ a ∈ (f s.fleet).rows, (s.fleet.tablets.find a.tablet).isSome = true ∨
      ∃ b ∈ s.fleet.installations.rows, b.tablet = a.tablet) :
    Upkeep s (s.modifyFleet fun fleet => { fleet with installations := f fleet }) :=
  .modifyFleet (Fleet.wellFormed_congr rfl rfl hi fun t ht => ⟨t, ht, rfl⟩) hn

theorem Upkeep.mapInstallations {f : AppInstallation → AppInstallation} (hf : ∀ a, (f a).tablet = a.tablet) :
    Upkeep s (s.modifyFleet fun fleet => { fleet with installations := ⟨fleet.installations.rows.map f⟩ }) := by
  refine .modifyInstallations (by simp [Table.nextId]) fun a ha => ?_
  obtain ⟨b, hb, rfl⟩ := List.mem_map.mp ha
  exact .inr ⟨b, hb, (hf b).symm⟩

theorem Upkeep.endInstallations (tablet : TabletId) (status : InstallationStatus) :
    Upkeep s (s.modifyFleet fun fleet => fleet.endInstallations tablet status) := by
  refine .mapInstallations fun a => ?_
  split <;> rfl

theorem Upkeep.revokeTabletInstallations (id : TabletId) (now : Time) :
    Upkeep s (s.revokeTabletInstallations id now) :=
  (Upkeep.endInstallations id .revoked).trans (.revokeInstallations now _)

theorem transitionedTablet_upkeep {admin : DepartmentId → Bool} {id : TabletId} {status : TabletStatus} :
    wp (transitionedTablet admin id status) (fun _ t => t = s) (fun _ t => t = s) s := by
  simp [transitionedTablet]

/-- A transition of a tablet, then writes that are no more than upkeep. -/
theorem transition_upkeep {admin : DepartmentId → Bool} {id : TabletId} {status : TabletStatus}
    {rest : Tablet → Service Unit} (h : ∀ tablet, Frames Upkeep (rest tablet) s) :
    Frames Upkeep (atomic (transitionedTablet admin id status >>= rest)) s := by
  refine .atomic (wp_bind.mpr (wp_mono transitionedTablet_upkeep (fun tablet t ht => ?_) fun _ _ _ => trivial))
  subst ht
  exact wp_mono (h tablet) (fun _ _ hu => hu) fun _ _ _ => trivial

theorem activateTablet_upkeep {admin : DepartmentId → Bool} {id : TabletId} {now : Time} :
    Frames Upkeep (activateTablet admin id now) s := by
  refine transition_upkeep fun tablet => frames_get_bind.mpr ?_
  refine (frames_require _ _).bind fun _ _ _ => (frames_ensure _ _).bind fun _ _ _ => ?_
  refine (frames_ensure _ _).bind fun _ _ _ => (frames_ensure _ _).bind fun _ t _ => ?_
  exact frames_modify.mpr (.modifyTablet id fun _ => rfl)

theorem deactivateTablet_upkeep {admin : DepartmentId → Bool} {id : TabletId} {now : Time} :
    Frames Upkeep (deactivateTablet admin id now) s := by
  refine transition_upkeep fun tablet => frames_get_bind.mpr (Frames.bind (frames_modify.mpr ?_) fun _ t _ => ?_)
  · exact (Upkeep.revokeInstallations now _).trans (.obsoleteManifests now _ _)
  · exact frames_modify.mpr (.modifyTablet id fun _ => rfl)

theorem withdrawTablet_upkeep {status : TabletStatus} {admin : DepartmentId → Bool} {id : TabletId} {now : Time} :
    Frames Upkeep (withdrawTablet status admin id now) s := by
  refine transition_upkeep fun tablet => Frames.bind (frames_modify.mpr ?_) fun _ t _ => ?_
  · exact .revokeTabletInstallations id now
  · exact frames_modify.mpr (.modifyTablet id fun _ => rfl)

theorem recoverTablet_upkeep {admin : DepartmentId → Bool} {id : TabletId} :
    Frames Upkeep (recoverTablet admin id) s :=
  transition_upkeep fun _ => frames_modify.mpr (.modifyTablet id fun _ => rfl)

theorem revokeInstallation_upkeep {admin : DepartmentId → Bool} {id : InstallationId} {now : Time} :
    Frames Upkeep (revokeInstallation admin id now) s := by
  unfold revokeInstallation
  refine Frames.toAtomic ?_
  refine frames_get_bind.mpr ((frames_require _ _).bind fun _ _ _ => (frames_require _ _).bind fun _ _ _ => ?_)
  refine (frames_ensure _ _).bind fun _ _ _ => (frames_ensure _ _).bind fun _ t _ => ?_
  refine Frames.bind (frames_modify.mpr (.modifyInstallations ?_ fun a ha => ?_)) fun _ u _ => ?_
  · rw [Table.nextId_modify]
  · obtain ⟨i, hi⟩ := List.mem_iff_getElem?.mp ha
    have hfind : (t.fleet.installations.modify id fun row => { row with status := .revoked }).find i = some a := hi
    rw [Table.find_modify] at hfind
    split at hfind
    · obtain ⟨b, hb, rfl⟩ := Option.map_eq_some_iff.mp hfind
      exact .inr ⟨b, List.mem_of_getElem? hb, rfl⟩
    · exact .inr ⟨a, List.mem_of_getElem? hfind, rfl⟩
  · exact frames_modify.mpr (.revokeDatasetKeyGrants now id)

theorem completeSuccessfulAdoption_upkeep {id : TabletId} {appVersion : String} {hpkePublicKey : Bytes}
    {leaseTarget now : Time} :
    Frames Upkeep (completeSuccessfulAdoption id appVersion hpkePublicKey leaseTarget now) s := by
  unfold completeSuccessfulAdoption
  refine Frames.toAtomic ?_
  refine frames_get_bind.mpr (frames_bind ((wp_require _ _).mpr ⟨fun tablet ht => ⟨.refl s, ?_⟩, fun _ => .refl s⟩))
  refine frames_bind (wp_ofExcept.mpr ⟨fun _ _ => ⟨.refl s, ?_⟩, fun _ _ => .refl s⟩)
  refine Frames.bind (frames_modify.mpr ?_) fun _ u _ => frames_get_bind.mpr (frames_modify.mpr ?_)
  · refine (Upkeep.endInstallations id .replaced).trans ?_
    refine .modifyInstallations (f := fun fleet => fleet.installations.insert _) (by simp) fun a ha => ?_
    rcases List.mem_append.mp ha with hold | hnew
    · exact .inr ⟨a, hold, rfl⟩
    · obtain rfl := List.mem_singleton.mp hnew
      refine .inl ?_
      change (s.fleet.tablets.find id).isSome = true
      rw [ht]
      rfl
  · exact .revokeInstallations now _

theorem markStaleInstallations_upkeep {now : Time} : Frames Upkeep (markStaleInstallations now) s := by
  refine frames_modify.mpr (.mapInstallations fun a => ?_)
  split <;> rfl

/-- A write of vehicles or assignments. -/
theorem Upkeep.modifyVehicles {f : Fleet → Fleet} (hd : (f s.fleet).departments = s.fleet.departments)
    (ht : (f s.fleet).tablets = s.fleet.tablets) (hi : (f s.fleet).installations = s.fleet.installations) :
    Upkeep s (s.modifyFleet f) := by
  refine .modifyFleet (fun hw => ?_) (by rw [hi])
  exact Fleet.wellFormed_congr hd (by rw [ht]) (fun a ha => .inr ⟨a, hi ▸ ha, rfl⟩) (fun t h => ⟨t, ht ▸ h, rfl⟩) hw

theorem retireVehicle_upkeep {admin : DepartmentId → Bool} {id : VehicleId} {now : Time} :
    Frames Upkeep (retireVehicle admin id now) s := by
  unfold retireVehicle
  refine Frames.toAtomic ?_
  refine frames_get_bind.mpr ((frames_require _ _).bind fun _ _ _ => (frames_ensure _ _).bind fun _ _ _ => ?_)
  refine (frames_ensure _ _).bind fun _ _ _ => Frames.bind (frames_modify.mpr (.modifyVehicles rfl rfl rfl)) fun _ _ _ => ?_
  exact Frames.bind (frames_modify.mpr (.revokeInstallations now _)) fun _ _ _ =>
    frames_modify.mpr (.modifyVehicles rfl rfl rfl)

theorem assignTabletVehicle_upkeep {authorized : Bool} {id : TabletId} {vehicleId : VehicleId} {effectiveAt now : Time} :
    Frames Upkeep (assignTabletVehicle authorized id vehicleId effectiveAt now) s := by
  unfold assignTabletVehicle
  refine Frames.toAtomic ?_
  refine frames_get_bind.mpr ((frames_require _ _).bind fun _ _ _ => (frames_require _ _).bind fun _ _ _ => ?_)
  refine (frames_ensure _ _).bind fun _ _ _ => (frames_ofExcept _).bind fun _ _ _ => ?_
  exact frames_modify.mpr (.modifyVehicles rfl rfl rfl)

theorem setVehicleRescueGuidesWebUrl_upkeep {settings : Settings} {systemAdmin : Bool} {url : String} {now : Time} :
    Frames Upkeep (setVehicleRescueGuidesWebUrl settings systemAdmin url now) s := by
  unfold setVehicleRescueGuidesWebUrl
  refine Frames.toAtomic ?_
  refine (frames_ensure _ _).bind fun _ _ _ => frames_get_bind.mpr ((frames_ensure _ _).bind fun _ t _ => ?_)
  split
  · exact frames_pure ()
  · refine (frames_ensure _ _).bind fun _ _ _ => Frames.bind (frames_modify.mpr (.modifyVehicles rfl rfl rfl)) fun _ _ _ => ?_
    exact frames_modify.mpr (.invalidateSignedManifests now _)

theorem editFleet_upkeep {fleet : Fleet} : Frames Upkeep (editFleet fleet) s := by
  unfold editFleet
  refine frames_get_bind.mpr (frames_bind ((wp_ensure _ _).mpr ⟨fun h => ⟨.refl s, ?_⟩, fun _ => .refl s⟩))
  exact Upkeep.modifyFleet (f := fun _ => fleet) (fun _ => h.1) h.2

end FireDash.Delivery
