import FireDash.Delivery.FleetEffects

/-! Who is issued key grants: requests and workers put a grant in use only for an active
installation of an active tablet. -/
namespace FireDash.Delivery

open Publications Tx

variable {s t u : State} {crypto : DeliveryCrypto} {settings : Settings} {fleet : Fleet} {grants grants' : Table KeyGrant}

/-- An active installation of an active tablet. -/
def Fleet.Operational (fleet : Fleet) (id : InstallationId) : Prop :=
  ∃ installation tablet, fleet.installations.find id = some installation ∧ installation.status = .active ∧
    fleet.tablets.find installation.tablet = some tablet ∧ tablet.status = .active

/-- A grant in use was in use before, for the same installation, or its installation is operational. -/
def GrantsIssued (fleet : Fleet) (grants grants' : Table KeyGrant) : Prop :=
  ∀ i g, grants'.find i = some g → g.status ≠ .revoked →
    (∃ g₀, grants.find i = some g₀ ∧ g₀.status ≠ .revoked ∧ g₀.appInstallation = g.appInstallation) ∨
      fleet.Operational g.appInstallation

/-- The effect of a request or of a worker: of the fleet at most the capability URL changes. -/
structure Issues (s t : State) : Prop where
  fleet : t.fleet = { s.fleet with rescueGuidesUrl := t.fleet.rescueGuidesUrl }
  keyGrants : GrantsIssued s.fleet s.db.keyGrants t.db.keyGrants
  generationKeyGrants : GrantsIssued s.fleet s.db.generationKeyGrants t.db.generationKeyGrants

/-! ### Grants in use -/

theorem GrantsIssued.refl : GrantsIssued fleet grants grants := fun _ g hg hst => .inl ⟨g, hg, hst, rfl⟩

theorem GrantsIssued.trans {grants'' : Table KeyGrant} (h : GrantsIssued fleet grants grants')
    (h' : GrantsIssued fleet grants' grants'') : GrantsIssued fleet grants grants'' := by
  intro i g hg hst
  rcases h' i g hg hst with ⟨g', hg', hst', hid'⟩ | hop
  · rw [← hid']
    exact h i g' hg' hst'
  · exact .inr hop

theorem GrantsIssued.modify {id : ℕ} {f : KeyGrant → KeyGrant}
    (hf : ∀ g, grants.find id = some g → (f g).status ≠ .revoked →
      g.status ≠ .revoked ∧ g.appInstallation = (f g).appInstallation ∨ fleet.Operational (f g).appInstallation) :
    GrantsIssued fleet grants (grants.modify id f) := by
  intro i g hg hst
  rw [Table.find_modify] at hg
  split at hg
  · obtain ⟨g₀, hg₀, rfl⟩ := Option.map_eq_some_iff.mp hg
    subst_vars
    rcases hf g₀ hg₀ hst with ⟨hst₀, hid⟩ | hop
    · exact .inl ⟨g₀, hg₀, hst₀, hid⟩
    · exact .inr hop
  · exact .inl ⟨g, hg, hst, rfl⟩

theorem GrantsIssued.insert {g : KeyGrant} (hg : fleet.Operational g.appInstallation) :
    GrantsIssued fleet grants (grants.insert g) := by
  intro i g' hg' hst
  rw [Table.find_insert] at hg'
  split at hg'
  · cases hg'
    exact .inr hg
  · exact .inl ⟨g', hg', hst, rfl⟩

theorem GrantsIssued.of_revoked (h : GrantsRevoked grants grants') : GrantsIssued fleet grants grants' := by
  intro i g hg hst
  rcases h.old hg with hold | ⟨_, -, -, -, hrevoked⟩
  · exact .inl ⟨g, hold, hst, rfl⟩
  · exact absurd hrevoked hst

theorem Issues.refl (s : State) : Issues s s := ⟨rfl, .refl, .refl⟩

theorem Issues.trans (h : Issues s t) (h' : Issues t u) : Issues s u := by
  have hop : ∀ id, t.fleet.Operational id ↔ s.fleet.Operational id := by
    intro id
    unfold Fleet.Operational
    rw [h.fleet]
  have hissued : ∀ {g g' : Table KeyGrant}, GrantsIssued t.fleet g g' → GrantsIssued s.fleet g g' :=
    fun hg i r hr hst => (hg i r hr hst).imp id (hop _).mp
  refine ⟨?_, h.keyGrants.trans (hissued h'.keyGrants), h.generationKeyGrants.trans (hissued h'.generationKeyGrants)⟩
  rw [h'.fleet, h.fleet]

instance : IsPreorder State Issues where
  refl := Issues.refl
  trans _ _ _ := Issues.trans

theorem Issues.modifyKeyGrant {id : ℕ} {f : KeyGrant → KeyGrant}
    (hf : ∀ g, s.db.keyGrants.find id = some g → (f g).status ≠ .revoked →
      g.status ≠ .revoked ∧ g.appInstallation = (f g).appInstallation ∨ s.fleet.Operational (f g).appInstallation) :
    Issues s (s.modifyKeyGrant id f) := ⟨rfl, .modify hf, .refl⟩

theorem Issues.modifyGenerationKeyGrant {id : ℕ} {f : KeyGrant → KeyGrant}
    (hf : ∀ g, s.db.generationKeyGrants.find id = some g → (f g).status ≠ .revoked →
      g.status ≠ .revoked ∧ g.appInstallation = (f g).appInstallation ∨ s.fleet.Operational (f g).appInstallation) :
    Issues s (s.modifyGenerationKeyGrant id f) := ⟨rfl, .refl, .modify hf⟩

theorem Issues.modifyManifests (f : Table SignedManifest → Table SignedManifest) :
    Issues s { s with signedManifests := f s.signedManifests } := ⟨rfl, .refl, .refl⟩

/-! ### Requests -/

/-- A context is resolved for an active installation and its tablet. -/
theorem controlPlaneContext_rows {id : InstallationId} {now : Time} {context : Context}
    (h : controlPlaneContext fleet id now = .ok context) :
    fleet.installations.find id = some context.installation ∧ context.installation.status = .active ∧
      fleet.tablets.find context.installation.tablet = some context.tablet := by
  simp only [controlPlaneContext, bind_eq_ok, found_eq_ok, check_eq_ok] at h
  obtain ⟨installation, hi, tablet, ht, department, -, hguard, h⟩ := h
  simp only [not_or, not_not] at hguard
  have hrows : context.installation = installation → context.tablet = tablet →
      fleet.installations.find id = some context.installation ∧ context.installation.status = .active ∧
        fleet.tablets.find context.installation.tablet = some context.tablet := by
    intro hei het
    rw [hei, het]
    exact ⟨hi, hguard.1, ht⟩
  split at h
  · obtain rfl := pure_eq_ok.mp h
    exact hrows rfl rfl
  · split at h
    · split at h <;>
      · obtain rfl := pure_eq_ok.mp h
        exact hrows rfl rfl
    · obtain rfl := pure_eq_ok.mp h
      exact hrows rfl rfl

theorem operational_of_context {id : InstallationId} {now : Time} {context : Context}
    (h : controlPlaneContext fleet id now = .ok context) (hst : context.tablet.status = .active) :
    fleet.Operational id := by
  obtain ⟨hi, hactive, ht⟩ := controlPlaneContext_rows h
  exact ⟨context.installation, context.tablet, hi, hactive, ht, hst⟩

theorem requestDatasetKeyGrant_issues {publication : PublicationId} {installation : InstallationId} {retry : Bool}
    {now : Time} : Frames Issues (requestDatasetKeyGrant publication installation retry now) s := by
  unfold requestDatasetKeyGrant
  refine .atomic (wp_bind.mpr ((wp_get).mpr (wp_bind.mpr (wp_ofExcept.mpr ⟨fun a ha => ?_, fun _ _ => trivial⟩))))
  obtain ⟨context, vehicle, publications⟩ := a
  obtain ⟨hcontext, hst, -, -⟩ := authorizedPublications_eq_ok.mp ha
  have hop : s.fleet.Operational installation := operational_of_context hcontext hst
  refine wp_bind.mpr ((wp_ensure _ _).mpr ⟨fun _ => ?_, fun _ => trivial⟩)
  cases hg : grantFor s.db.keyGrants publication installation with
  | some row =>
    obtain ⟨i, g⟩ := row
    obtain ⟨hfind, -, hid⟩ := grantFor_eq_some hg
    have hwrite : ∀ f : KeyGrant → KeyGrant, (f g).appInstallation = g.appInstallation → Issues s (s.modifyKeyGrant i f) := by
      intro f hf
      refine .modifyKeyGrant fun g' hg' _ => .inr ?_
      rw [hfind] at hg'
      cases hg'
      rw [hf, hid]
      exact hop
    dsimp only
    simp only [wp_ite, wp_bind, wp_modify, wp_pure]
    exact ⟨fun _ => hwrite renewedGrant rfl, fun _ => ⟨fun _ => hwrite retriedGrant rfl, fun _ => .refl s⟩⟩
  | none =>
    exact ⟨rfl, .insert hop, .refl⟩

theorem requestGrants_issues {installation : InstallationId} {retry : Bool} {now : Time}
    {publications : List (PublicationId × Publication)} :
    Frames Issues (requestGrants installation retry now publications) s := by
  induction publications generalizing s with
  | nil => exact frames_pure _
  | cons e rest ih =>
    refine (frames_ofExcept _).bind fun document t _ => ?_
    cases document with
    | true => exact ih
    | false => exact requestDatasetKeyGrant_issues.bind fun _ _ _ => ih.bind fun _ _ _ => frames_pure _

theorem manifestFor_issues {installation : InstallationId} {stateHash : String} {generation : ℕ} {now : Time} :
    Frames Issues (manifestFor installation stateHash generation now) s := by
  refine frames_get_bind.mpr ?_
  split
  · exact frames_pure _
  · exact Frames.bind (frames_modify.mpr (.modifyManifests fun manifests => manifests.insert _)) fun _ _ _ => frames_pure _

theorem requestManifest_issues {installation : InstallationId} {generation : ℕ} {now clock : Time} :
    Frames Issues (requestManifest settings installation generation now clock) s := by
  unfold requestManifest
  refine Frames.toAtomic ?_
  refine frames_get_bind.mpr ((frames_ofExcept _).bind fun a _ _ => ?_)
  obtain ⟨context, publications⟩ := a
  refine requestGrants_issues.bind fun _ _ _ => (frames_ofExcept _).bind fun _ _ _ => ?_
  refine (frames_ofExcept _).bind fun _ _ _ => manifestFor_issues.bind fun row _ _ => ?_
  obtain ⟨id, manifest⟩ := row
  dsimp only
  split
  · exact Frames.bind (frames_modify.mpr (.modifyManifests fun manifests => manifests.modify id _)) fun _ _ _ => frames_pure _
  · split
    · exact (frames_require _ _).bind fun _ _ _ => frames_pure _
    · exact frames_pure _

theorem requestGenerationKeyGrant_issues {publication : PublicationId} {installation : InstallationId} {now : Time} :
    Frames Issues (requestGenerationKeyGrant publication installation now) s := by
  unfold requestGenerationKeyGrant
  refine .atomic (wp_bind.mpr ((wp_get).mpr (wp_bind.mpr (wp_ofExcept.mpr ⟨fun context hc => ?_, fun _ _ => trivial⟩))))
  obtain ⟨hcontext, hst, -⟩ := authorizedGeneration_eq_ok.mp hc
  have hop : s.fleet.Operational installation := operational_of_context hcontext hst
  cases hg : grantFor s.db.generationKeyGrants publication installation with
  | some row =>
    obtain ⟨i, g⟩ := row
    obtain ⟨hfind, -, hid⟩ := grantFor_eq_some hg
    dsimp only
    simp only [wp_ite, wp_bind, wp_modify, wp_pure]
    refine ⟨fun _ => .modifyGenerationKeyGrant fun g' hg' _ => .inr ?_, fun _ => .refl s⟩
    rw [hfind] at hg'
    cases hg'
    rw [show (renewedGrant g).appInstallation = installation from hid]
    exact hop
  | none => exact ⟨rfl, .refl, .insert hop⟩

/-! ### Workers -/

theorem claimNextDatasetKeyGrant_issues {locked : List ℕ} : Frames Issues (claimNextDatasetKeyGrant locked) s := by
  refine wp_mono claimNextDatasetKeyGrant_spec (fun _ t ht => ?_) fun _ _ hf => hf.elim
  rcases ht with ⟨-, rfl⟩ | ⟨id, g, -, hg, hst, rfl⟩
  · exact .refl t
  · refine .modifyKeyGrant fun g' hg' _ => .inl ⟨?_, rfl⟩
    rw [hg] at hg'
    cases hg'
    rw [hst]
    decide

theorem GrantOutcome.store_appInstallation (outcome : GrantOutcome) (now : Time) (g : KeyGrant) :
    (outcome.store now g).appInstallation = g.appInstallation := by
  cases outcome <;> rfl

theorem buildClaimedDatasetKeyGrant_issues {worker : DeliveryWorker} {id : ℕ} {now : Time} :
    Frames Issues (buildClaimedDatasetKeyGrant crypto worker id now) s := by
  refine wp_mono buildClaimedDatasetKeyGrant_spec (fun _ t ht => ?_) fun _ t ht => ht.1 ▸ .refl t
  obtain ⟨g, hg, ⟨-, rfl⟩ | ⟨hst, outcome, -, rfl⟩⟩ := ht
  · exact .refl t
  · refine .modifyKeyGrant fun g' hg' _ => .inl ⟨?_, (outcome.store_appInstallation now g').symm⟩
    rw [hg] at hg'
    cases hg'
    rw [hst]
    decide

theorem claimNextSignedManifest_issues {excludeIds locked : List ℕ} :
    Frames Issues (claimNextSignedManifest excludeIds locked) s := by
  refine wp_mono claimNextSignedManifest_spec (fun _ t ht => ?_) fun _ _ hf => hf.elim
  rcases ht with ⟨-, rfl⟩ | ⟨id, m, -, -, -, rfl⟩
  · exact .refl t
  · exact .modifyManifests fun manifests => manifests.modify id _

theorem upgradeLegacyScopeSignatures_issues {cfg : Config} {worker : DeliveryWorker}
    {l : List (PublicationId × Publication)} :
    Frames Issues (upgradeLegacyScopeSignatures cfg crypto worker l) s := by
  have hone : ∀ (e : PublicationId × Publication) u, Frames Issues (upgradeLegacyScopeSignature cfg crypto worker e) u := by
    intro e u
    unfold upgradeLegacyScopeSignature
    refine Frames.toAtomic (frames_get_bind.mpr ?_)
    split
    · exact frames_pure e
    · refine (frames_require _ _).bind fun _ _ _ => (frames_ensure _ _).bind fun _ _ _ => (frames_ofExcept _).bind fun _ _ _ => ?_
      refine (frames_ensure _ _).bind fun _ v _ => Frames.bind (frames_modify.mpr ?_) fun _ _ _ => frames_pure _
      exact ⟨rfl, .refl, .refl⟩
  induction l generalizing s with
  | nil => exact frames_pure _
  | cons e rest ih =>
    refine (frames_ofExcept _).bind fun document t _ => ?_
    have hrest : ∀ (e' : PublicationId × Publication) u, Frames Issues (do
        let rest' ← upgradeLegacyScopeSignatures cfg crypto worker rest
        pure (e' :: rest')) u := fun e' u => ih.bind fun _ _ _ => frames_pure _
    cases document with
    | true => exact hrest e t
    | false => exact (hone e t).bind fun e' u _ => hrest e' u

theorem tryManifest_issues {worker : DeliveryWorker} {m : SignedManifest} {now clock : Time} :
    Frames Issues (tryManifest settings crypto worker m now clock) s := by
  refine frames_get_bind.mpr ((frames_ofExcept _).bind fun a _ _ => ?_)
  obtain ⟨context, publications⟩ := a
  refine requestGrants_issues.bind fun grants _ _ => (frames_ofExcept _).bind fun _ _ _ => ?_
  refine (frames_ofExcept _).bind fun stateHash t _ => ?_
  split
  · exact frames_pure _
  split
  · exact frames_pure _
  split
  · exact frames_pure _
  split
  · exact frames_pure _
  · refine upgradeLegacyScopeSignatures_issues.bind fun _ _ _ => (frames_ofExcept _).bind fun _ _ _ => ?_
    exact (frames_ofExcept _).bind fun _ _ _ => frames_pure _

theorem buildClaimedSignedManifest_issues {worker : DeliveryWorker} {id : ℕ} {now clock : Time} :
    Frames Issues (buildClaimedSignedManifest settings crypto worker id now clock) s := by
  unfold buildClaimedSignedManifest
  refine Frames.toAtomic (frames_get_bind.mpr ((frames_require _ _).bind fun m _ _ => ?_))
  split
  · exact frames_pure _
  · refine Frames.bind (tryManifest_issues.handle fun e y hy t _ => ?_) fun outcome _ _ => ?_
    · obtain ⟨outcome, rfl, -⟩ := manifestFailure_spec hy
      exact frames_pure _
    · exact frames_modify.mpr (.modifyManifests fun manifests => manifests.modify id _)

theorem processNextGenerationKeyGrant_issues {cfg : Config} {worker : DeliveryWorker} {locked : List ℕ}
    {now clock : Time} : Frames Issues (processNextGenerationKeyGrant cfg crypto worker locked now clock) s := by
  refine wp_mono processNextGenerationKeyGrant_spec (fun _ t ht => ?_) fun _ t ht => ht ▸ .refl t
  rcases ht with ⟨-, rfl⟩ | ⟨id, g, outcome, -, hg, hst, rfl, -⟩
  · exact .refl t
  · have hlive : g.status ≠ .revoked := by
      rcases hst with hst | hst <;> rw [hst] <;> decide
    have hrunning : Issues s (s.modifyGenerationKeyGrant id fun row => { row with status := .running }) := by
      refine .modifyGenerationKeyGrant fun g' hg' _ => .inl ⟨?_, rfl⟩
      rw [hg] at hg'
      cases hg'
      exact hlive
    refine hrunning.trans (.modifyGenerationKeyGrant fun g' hg' _ => .inl ⟨?_, (outcome.store_appInstallation clock g').symm⟩)
    simp only [State.modifyGenerationKeyGrant, Table.find_modify, if_true, hg, Option.map_some, Option.some.injEq] at hg'
    rw [← hg']
    simp

/-! ### Every other transaction -/

theorem setVehicleRescueGuidesWebUrl_issues {systemAdmin : Bool} {url : String} {now : Time} :
    Frames Issues (setVehicleRescueGuidesWebUrl settings systemAdmin url now) s := by
  unfold setVehicleRescueGuidesWebUrl
  refine Frames.toAtomic ?_
  refine (frames_ensure _ _).bind fun _ _ _ => frames_get_bind.mpr ((frames_ensure _ _).bind fun _ t _ => ?_)
  split
  · exact frames_pure ()
  · refine (frames_ensure _ _).bind fun _ _ _ => Frames.bind (frames_modify.mpr ⟨rfl, .refl, .refl⟩) fun _ _ _ => ?_
    exact frames_modify.mpr (.modifyManifests fun _ => _)

/-- The action is no service of the fleet. -/
def Action.outsideFleet : Action → Bool
  | .fleet _ => false
  | _ => true

theorem Action.issues (a : Action) (hout : a.outsideFleet = true) (hi : Publications.Inv s.db.core) :
    Issues s (exec (a.run crypto settings) s) := by
  cases a with
  | publication env call =>
    have he : Effect s.db (exec (call.run settings.publications env) s.db) := call.effect hi
    exact ⟨rfl, .of_revoked he.keyGrants, .of_revoked he.generationKeyGrants⟩
  | fleet call => cases hout
  | requestDatasetKeyGrant id installation retryFailed now =>
    exact (requestDatasetKeyGrant_issues.bind fun _ _ _ => frames_pure ()).exec
  | requestManifest installation generation now clock =>
    exact (requestManifest_issues.bind fun _ _ _ => frames_pure ()).exec
  | requestGenerationKeyGrant id installation now =>
    exact (requestGenerationKeyGrant_issues.bind fun _ _ _ => frames_pure ()).exec
  | claimNextDatasetKeyGrant locked => exact (claimNextDatasetKeyGrant_issues.bind fun _ _ _ => frames_pure ()).exec
  | buildClaimedDatasetKeyGrant worker id now => exact buildClaimedDatasetKeyGrant_issues.exec
  | claimNextSignedManifest excludeIds locked =>
    exact (claimNextSignedManifest_issues.bind fun _ _ _ => frames_pure ()).exec
  | buildClaimedSignedManifest worker id now clock => exact buildClaimedSignedManifest_issues.exec
  | processNextGenerationKeyGrant worker locked now clock =>
    exact (processNextGenerationKeyGrant_issues.bind fun _ _ _ => frames_pure ()).exec

/-! ### Installations with a grant -/

/-- Some key grant of the installation is not revoked. -/
def State.HasGrant (s : State) (id : InstallationId) : Prop :=
  ∃ i g, (s.db.keyGrants.find i = some g ∨ s.db.generationKeyGrants.find i = some g) ∧ g.appInstallation = id ∧
    g.status ≠ .revoked

theorem Issues.hasGrant {id : InstallationId} (h : Issues s t) (hg : t.HasGrant id) :
    s.HasGrant id ∨ s.fleet.Operational id := by
  obtain ⟨i, g, hfind, rfl, hst⟩ := hg
  rcases hfind with hfind | hfind
  · rcases h.keyGrants i g hfind hst with ⟨g₀, hg₀, hst₀, hid⟩ | hop
    · exact .inl ⟨i, g₀, .inl hg₀, hid, hst₀⟩
    · exact .inr hop
  · rcases h.generationKeyGrants i g hfind hst with ⟨g₀, hg₀, hst₀, hid⟩ | hop
    · exact .inl ⟨i, g₀, .inr hg₀, hid, hst₀⟩
    · exact .inr hop

theorem find_revokeInstallationGrants {now : Time} {installation : InstallationId} {i : ℕ} {g : KeyGrant}
    (hg : (revokeInstallationGrants now installation grants).find i = some g) (hst : g.status ≠ .revoked) :
    grants.find i = some g ∧ g.appInstallation ≠ installation := by
  unfold revokeInstallationGrants at hg
  rw [Table.find_map] at hg
  obtain ⟨g₀, hg₀, rfl⟩ := Option.map_eq_some_iff.mp hg
  split at hst
  · exact absurd rfl hst
  · rename_i hkept
    rw [if_neg hkept]
    exact ⟨hg₀, fun hid => hkept ⟨hid, hst⟩⟩

theorem hasGrant_revokeDatasetKeyGrants {now : Time} {installation id : InstallationId}
    (h : (s.revokeDatasetKeyGrants now installation).HasGrant id) : s.HasGrant id ∧ id ≠ installation := by
  obtain ⟨i, g, hfind, rfl, hst⟩ := h
  rcases hfind with hfind | hfind
  · obtain ⟨hg, hne⟩ := find_revokeInstallationGrants hfind hst
    exact ⟨⟨i, g, .inl hg, rfl, hst⟩, hne⟩
  · obtain ⟨hg, hne⟩ := find_revokeInstallationGrants hfind hst
    exact ⟨⟨i, g, .inr hg, rfl, hst⟩, hne⟩

theorem hasGrant_revokeInstallations {now : Time} {installations : List InstallationId} {id : InstallationId}
    (h : (s.revokeInstallations now installations).HasGrant id) : s.HasGrant id ∧ id ∉ installations := by
  unfold State.revokeInstallations at h
  induction installations generalizing s with
  | nil => exact ⟨h, List.not_mem_nil⟩
  | cons installation rest ih =>
    obtain ⟨hrest, hnot⟩ := ih h
    obtain ⟨hs, hne⟩ := hasGrant_revokeDatasetKeyGrants hrest
    exact ⟨hs, List.not_mem_cons_of_ne_of_not_mem hne hnot⟩

@[simp] theorem fleet_revokeInstallations (s : State) (now : Time) (installations : List InstallationId) :
    (s.revokeInstallations now installations).fleet = s.fleet := by
  unfold State.revokeInstallations
  induction installations generalizing s with
  | nil => rfl
  | cons id rest ih => exact ih _

@[simp] theorem core_revokeInstallations (s : State) (now : Time) (installations : List InstallationId) :
    (s.revokeInstallations now installations).db.core = s.db.core := by
  unfold State.revokeInstallations
  induction installations generalizing s with
  | nil => rfl
  | cons id rest ih => exact ih _

@[simp] theorem signedManifests_revokeInstallations (s : State) (now : Time) (installations : List InstallationId) :
    (s.revokeInstallations now installations).signedManifests = s.signedManifests := by
  unfold State.revokeInstallations
  induction installations generalizing s with
  | nil => rfl
  | cons id rest ih => exact ih _

/-! ### The fleet after its services -/

@[simp] theorem fleet_withStatus (s : State) (id : TabletId) (status : TabletStatus) (active : Bool) :
    (s.withStatus id status active).fleet =
      s.fleet.modifyTablet id fun row => { row with status := status, active := active } := rfl

@[simp] theorem fleet_obsoleteManifests (s : State) (now : Time) (reason : String) (installations : List InstallationId) :
    (s.obsoleteManifests now reason installations).fleet = s.fleet := rfl

@[simp] theorem fleet_revokeTabletInstallations (s : State) (id : TabletId) (now : Time) :
    (s.revokeTabletInstallations id now).fleet = s.fleet.endInstallations id .revoked :=
  fleet_revokeInstallations _ now _

theorem find_endInstallations {tablet : TabletId} {status : InstallationStatus} (i : InstallationId) :
    (fleet.endInstallations tablet status).installations.find i = (fleet.installations.find i).map fun a =>
      if a.tablet = tablet ∧ a.status.isCurrent then { a with status := status } else a := Table.find_map _ _ i

@[simp] theorem nextId_endInstallations (fleet : Fleet) (tablet : TabletId) (status : InstallationStatus) :
    (fleet.endInstallations tablet status).installations.nextId = fleet.installations.nextId := by
  simp [Fleet.endInstallations, Table.nextId]

theorem mem_installationsOf {tablet : TabletId} {select : InstallationStatus → Bool} {i : InstallationId} :
    i ∈ fleet.installationsOf tablet select ↔
      ∃ a, fleet.installations.find i = some a ∧ a.tablet = tablet ∧ select a.status = true := by
  simp only [Fleet.installationsOf, List.mem_map, Prod.exists, Table.mem_filter, decide_eq_true_eq]
  constructor
  · rintro ⟨j, a, h, rfl⟩
    exact ⟨a, h⟩
  · rintro ⟨a, h⟩
    exact ⟨i, a, h, rfl⟩

end FireDash.Delivery
