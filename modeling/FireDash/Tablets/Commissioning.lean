import FireDash.Tablets.Installations
import FireDash.Delivery.StaleManifests

/-! Data access and the service of a tablet: what a step that takes it out of service withdraws,
and which signed manifests outlive it. -/
namespace FireDash.Tablets

open Json (Text)
open Publications (Bytes Time DepartmentId)
open Delivery (Tablet TabletId TabletStatus AppInstallation InstallationId InstallationStatus assetTransition SignedManifest)

variable {settings : Settings} {s t : Registry} {action : Action}

/-! ### Manifests of a former service -/

/-- The tablet of the installation leaves operational service in the step. -/
def leavesService (s t : Registry) (id : InstallationId) : Bool :=
  ∃ a ∈ s.fleet.installations.find id, (∃ row ∈ s.fleet.tablets.find a.tablet, row.status = .active) ∧
    ∃ row ∈ t.fleet.tablets.find a.tablet, row.status ≠ .active

/-- The build of the manifest just signed it. -/
def signedIn (s t : Registry) (i : ℕ) : Bool :=
  (s.delivery.signedManifests.find i).map (·.status) ≠ some .ready ∧
    (t.delivery.signedManifests.find i).map (·.status) = some .ready

/-- The manifests that were ready when their tablet left service, and were not signed since. -/
def formerAfter (s t : Registry) (former : List ℕ) : List ℕ :=
  (s.delivery.signedManifests.entries.filter fun e =>
    (e.1 ∈ former ∨ e.2.status = .ready ∧ leavesService s t e.2.appInstallation) ∧ ¬signedIn s t e.1).map Prod.fst

/-- The tablet system beside the list of its former manifests. -/
def commissioned (settings : Settings) : Machine (Registry × List ℕ) Action :=
  (tabletSystem settings).recording [] formerAfter

/-- No administrator recovers a tablet in service, or deactivates a lost one. -/
def Documented (s : Registry) : Action → Prop
  | .recoverTablet admin id =>
    ∀ tablet, s.fleet.tablets.find id = some tablet → admin tablet.department = true → tablet.status ≠ .active
  | .deactivateTablet admin id =>
    ∀ tablet, s.fleet.tablets.find id = some tablet → admin tablet.department = true → tablet.status ≠ .lost
  | _ => True

/-- The tablet of a lifecycle operation and the states its docstring names as its sources. -/
def Action.sources : Action → Option (TabletId × List TabletStatus)
  | .activateTablet _ id => some (id, [.inactive])
  | .deactivateTablet _ id => some (id, [.active])
  | .markTabletLost _ id => some (id, [.active, .inactive])
  | .recoverTablet _ id => some (id, [.lost])
  | .retireTablet _ id => some (id, [.active, .inactive])
  | _ => none

/-- A lifecycle operation succeeds only from its documented source states. -/
def FromSource (settings : Settings) (s : Registry) (action : Action) : Prop :=
  ∀ id sources t, action.sources = some (id, sources) → s.run settings action = .ok t →
    ∃ tablet, s.fleet.tablets.find id = some tablet ∧ tablet.status ∈ sources

theorem mem_formerAfter {former : List ℕ} {i : ℕ} (h : i ∈ formerAfter s t former) :
    ∃ m, s.delivery.signedManifests.find i = some m ∧
      (i ∈ former ∨ m.status = .ready ∧ leavesService s t m.appInstallation = true) ∧ signedIn s t i = false := by
  obtain ⟨⟨j, m⟩, hmem, rfl⟩ := List.mem_map.mp h
  obtain ⟨hentry, hsel⟩ := List.mem_filter.mp hmem
  simp only [decide_eq_true_eq, Bool.not_eq_true] at hsel
  exact ⟨m, Table.mem_entries.mp hentry, hsel.1, hsel.2⟩

/-! ### Source states -/

theorem assetTransition_sources {status : TabletStatus} :
    (assetTransition status .active = true ↔ status = .inactive) ∧
      (assetTransition status .inactive = true ↔ status = .active ∨ status = .lost) ∧
      (assetTransition status .lost = true ↔ status = .active ∨ status = .inactive) ∧
      (assetTransition status .retired = true ↔ status = .active ∨ status = .inactive) := by
  cases status <;> decide

/-- A service that cannot raise succeeds. -/
theorem Registry.onDelivery_ok {x : Delivery.Service Unit}
    (h : Tx.wp x (fun _ _ => True) (fun _ _ => False) s.delivery) : ∃ t, s.onDelivery x = .ok t := by
  unfold Registry.onDelivery
  unfold Tx.wp at h
  split
  · exact ⟨_, rfl⟩
  · rename_i hraised
    rw [hraised] at h
    exact h.elim

section ToInactive

variable {admin : DepartmentId → Bool} {id : TabletId} {tablet : Tablet}

theorem transitionedTablet_returns {status : TabletStatus} (htablet : s.fleet.tablets.find id = some tablet)
    (hadmin : admin tablet.department = true) (htransition : assetTransition tablet.status status = true) :
    Tx.wp (Delivery.transitionedTablet admin id status) (fun _ _ => True) (fun _ _ => False) s.delivery := by
  have hrow : s.delivery.fleet.tablets.find id = some tablet := htablet
  simp [Delivery.transitionedTablet, hrow, hadmin, htransition]

theorem recoverTablet_ok (htablet : s.fleet.tablets.find id = some tablet) (hadmin : admin tablet.department = true)
    (htransition : assetTransition tablet.status .inactive = true) : ∃ t, s.recoverTablet admin id = .ok t := by
  apply Registry.onDelivery_ok
  unfold Delivery.recoverTablet
  rw [Tx.wp_atomic, Tx.wp_bind]
  exact Tx.wp_mono (transitionedTablet_returns htablet hadmin htransition) (fun _ _ _ => trivial) fun _ _ hf => hf.elim

theorem deactivateTablet_ok (htablet : s.fleet.tablets.find id = some tablet) (hadmin : admin tablet.department = true)
    (htransition : assetTransition tablet.status .inactive = true) : ∃ t, s.deactivateTablet admin id = .ok t := by
  apply Registry.onDelivery_ok
  unfold Delivery.deactivateTablet
  rw [Tx.wp_atomic, Tx.wp_bind]
  exact Tx.wp_mono (transitionedTablet_returns htablet hadmin htransition) (fun _ _ _ => trivial) fun _ _ hf => hf.elim

end ToInactive

/-- What a lifecycle operation was checked for when it succeeds. -/
theorem onDelivery_transitioned {x : Delivery.Service Unit} {admin : DepartmentId → Bool} {id : TabletId}
    {status : TabletStatus} {k : Tablet → Delivery.Service Unit}
    (hx : x = Tx.atomic (Delivery.transitionedTablet admin id status >>= k)) (h : s.onDelivery x = .ok t) :
    ∃ tablet, s.fleet.tablets.find id = some tablet ∧ admin tablet.department = true ∧
      assetTransition tablet.status status = true := by
  have hwp : Tx.wp x (fun _ _ => ∃ tablet, s.fleet.tablets.find id = some tablet ∧ admin tablet.department = true ∧
      assetTransition tablet.status status = true) (fun _ _ => True) s.delivery := by
    rw [hx, Tx.wp_atomic, Tx.wp_bind]
    refine Tx.wp_mono Delivery.transitionedTablet_spec ?_ fun _ _ _ => trivial
    rintro tablet d ⟨rfl, hchecked⟩
    exact Tx.wp_of_forall (fun _ _ _ => ⟨tablet, hchecked⟩) fun _ _ _ => trivial
  obtain ⟨-, hchecked, -⟩ := Registry.onDelivery_eq_ok hwp h
  exact hchecked

/-- The operations succeed from other states just where `Documented` excludes them. -/
theorem fromSource_iff : FromSource settings s action ↔ Documented s action := by
  have hfirst : ∀ {x : Except Error Registry} {f : Registry → Registry} {t},
      (do let u ← x; return f u) = .ok t → ∃ u, x = .ok u := by
    intro x f t h
    simp only [bind_eq_ok] at h
    obtain ⟨u, hu, -⟩ := h
    exact ⟨u, hu⟩
  constructor
  · intro h
    cases action with
    | recoverTablet admin id =>
      intro tablet htablet hadmin hactive
      obtain ⟨t, ht⟩ := recoverTablet_ok htablet hadmin (by rw [hactive]; decide)
      obtain ⟨row, hrow, hmem⟩ := h id _ t rfl ht
      rw [htablet] at hrow
      cases hrow
      rw [hactive] at hmem
      exact absurd hmem (by decide)
    | deactivateTablet admin id =>
      intro tablet htablet hadmin hlost
      obtain ⟨t, ht⟩ := deactivateTablet_ok htablet hadmin (by rw [hlost]; decide)
      obtain ⟨row, hrow, hmem⟩ := h id _ t rfl ht
      rw [htablet] at hrow
      cases hrow
      rw [hlost] at hmem
      exact absurd hmem (by decide)
    | _ => trivial
  · intro hdoc id sources t hsources hrun
    cases action with
    | activateTablet admin id =>
      cases hsources
      obtain ⟨tablet, htablet, -, htransition⟩ := onDelivery_transitioned rfl hrun
      exact ⟨tablet, htablet, by simp [assetTransition_sources.1.mp htransition]⟩
    | deactivateTablet admin id =>
      cases hsources
      obtain ⟨tablet, htablet, hadmin, htransition⟩ := onDelivery_transitioned rfl hrun
      have hnot := hdoc tablet htablet hadmin
      refine ⟨tablet, htablet, ?_⟩
      rcases assetTransition_sources.2.1.mp htransition with hst | hst
      · simp [hst]
      · exact absurd hst hnot
    | markTabletLost admin id =>
      cases hsources
      obtain ⟨u, hu⟩ := hfirst hrun
      obtain ⟨tablet, htablet, -, htransition⟩ := onDelivery_transitioned rfl hu
      exact ⟨tablet, htablet, by simpa using assetTransition_sources.2.2.1.mp htransition⟩
    | recoverTablet admin id =>
      cases hsources
      obtain ⟨tablet, htablet, hadmin, htransition⟩ := onDelivery_transitioned rfl hrun
      have hnot := hdoc tablet htablet hadmin
      refine ⟨tablet, htablet, ?_⟩
      rcases assetTransition_sources.2.1.mp htransition with hst | hst
      · exact absurd hst hnot
      · simp [hst]
    | retireTablet admin id =>
      cases hsources
      obtain ⟨u, hu⟩ := hfirst hrun
      obtain ⟨tablet, htablet, -, htransition⟩ := onDelivery_transitioned rfl hu
      exact ⟨tablet, htablet, by simpa using assetTransition_sources.2.2.2.mp htransition⟩
    | _ => cases hsources

/-! ### What a step that ends a service withdraws -/

/-- A manifest is ready after a step because it was, or because a build that ran just signed it. -/
theorem Taken.readyManifest (h : Taken settings s action t) {i : ℕ} {m : SignedManifest}
    (hm : t.delivery.signedManifests.find i = some m) (hst : m.status = .ready) :
    s.delivery.signedManifests.find i = some m ∨
      ∃ m₀, s.delivery.signedManifests.find i = some m₀ ∧ m₀.status = .running ∧ m₀.appInstallation = m.appInstallation := by
  cases h with
  | kept h => exact h.manifests i m hm hst
  | @failed id calls =>
    rcases recordFailedAttempt_cases s id with he | ⟨request, -, -, -, he⟩
    · rw [he] at hm
      exact .inl hm
    · rw [he] at hm
      exact .inl hm
  | adopted =>
    change (Delivery.State.revokeInstallations _ s.now _).signedManifests.find i = some m at hm
    rw [Delivery.signedManifests_revokeInstallations] at hm
    exact .inl hm
  | @deactivated id tablet reason htablet htransition =>
    change (Table.mk ((s.delivery.revokeInstallations s.now (s.delivery.current id)).signedManifests.rows.map _)).find i =
      some m at hm
    rw [Table.find_map, Delivery.signedManifests_revokeInstallations] at hm
    obtain ⟨m₀, hm₀, rfl⟩ := Option.map_eq_some_iff.mp hm
    split at hst
    · cases hst
    · rename_i hother
      rw [if_neg hother]
      exact .inl hm₀
  | @withdrawn id tablet status htablet htransition hstatus =>
    change (Delivery.State.revokeInstallations _ s.now _).signedManifests.find i = some m at hm
    rw [Delivery.signedManifests_revokeInstallations] at hm
    exact .inl hm
  | _ => exact .inl hm

/-- A grant is in use after a step because it was, or because its installation is operational. -/
theorem Taken.hasGrant (h : Taken settings s action t) {id : InstallationId} (hg : t.delivery.HasGrant id) :
    s.delivery.HasGrant id ∨ s.fleet.Operational id := by
  cases h with
  | kept h => exact h.grants id hg
  | @failed request calls =>
    rcases recordFailedAttempt_cases s request with he | ⟨r, -, -, -, he⟩
    · rw [he] at hg
      exact .inl hg
    · rw [he] at hg
      exact .inl hg
  | adopted => exact .inl (Delivery.hasGrant_revokeInstallations hg).1
  | deactivated => exact .inl (Delivery.hasGrant_revokeInstallations hg).1
  | withdrawn => exact .inl (Delivery.hasGrant_revokeInstallations hg).1
  | revoked => exact .inl (Delivery.hasGrant_revokeDatasetKeyGrants hg).1
  | _ => exact .inl hg

/-- No installation of the tablet has a grant, and no manifest of a current one is ready. -/
structure Decommissioned (t : Registry) (id : TabletId) : Prop where
  grants : ∀ i a, t.fleet.installations.find i = some a → a.tablet = id → ¬t.delivery.HasGrant i
  manifests : ∀ k m a, t.delivery.signedManifests.find k = some m → m.status = .ready →
    t.fleet.installations.find m.appInstallation = some a → a.tablet = id → a.status.isCurrent = false

theorem Withdrawn.decommissioned (hs : Sound s) {id : TabletId} (hw : Withdrawn s id) : Decommissioned s id where
  grants i a ha htablet hg := by
    obtain ⟨b, hb, hcurrent⟩ := hs.grants hg
    rw [ha] at hb
    cases hb
    rw [hw.installations i a ha htablet] at hcurrent
    cases hcurrent
  manifests _ m a _ _ ha htablet := hw.installations m.appInstallation a ha htablet

/-- A tablet that leaves service by a documented transition is decommissioned. -/
theorem Taken.decommissioned (h : Taken settings s action t) (hs : Sound s) (hdoc : Documented s action) {id : TabletId}
    {row row' : Tablet} (hrow : s.fleet.tablets.find id = some row) (hactive : row.status = .active)
    (hrow' : t.fleet.tablets.find id = some row') (hleft : row'.status ≠ .active) : Decommissioned t id := by
  have hsound : Sound t := hs.step h
  have hsame : t.fleet.tablets = s.fleet.tablets → Decommissioned t id := by
    intro he
    rw [he, hrow] at hrow'
    cases hrow'
    exact absurd hactive hleft
  have hmoved : ∀ {moved : TabletId} {status : TabletStatus} {active : Bool},
      (s.fleet.tablets.modify moved fun r => { r with status := status, active := active }).find id = some row' →
      moved = id ∧ row'.status = status := by
    intro moved status active hfind
    rw [Table.find_modify] at hfind
    split at hfind
    · rw [hrow, Option.map_some, Option.some.injEq] at hfind
      exact ⟨‹_›, by rw [← hfind]⟩
    · rw [hrow] at hfind
      cases hfind
      exact absurd hactive hleft
  cases h with
  | kept h => exact hsame h.tablets
  | tabletCreated =>
    change (s.fleet.tablets.insert _).find id = some row' at hrow'
    rw [Table.find_insert, if_neg (Table.lt_nextId_of_find hrow).ne, hrow] at hrow'
    cases hrow'
    exact absurd hactive hleft
  | @failed request calls =>
    rcases recordFailedAttempt_cases s request with he | ⟨r, -, -, -, he⟩ <;> exact hsame (by rw [he]; rfl)
  | adopted =>
    refine hsame ?_
    change (Delivery.State.revokeInstallations _ s.now _).fleet.tablets = _
    rw [Delivery.fleet_revokeInstallations]
    rfl
  | @transitioned moved tablet status htablet htransition hstatus haction =>
    obtain ⟨rfl, hst⟩ := hmoved hrow'
    rcases hstatus with rfl | rfl
    · exact absurd hst hleft
    · -- Only a recovery moves a tablet there, and none of a tablet in service is documented.
      obtain ⟨admin, hadmin, rfl⟩ := haction rfl
      rw [hrow] at htablet
      cases htablet
      exact absurd hactive (hdoc row hrow hadmin)
  | @deactivated moved tablet reason htablet htransition =>
    change (Delivery.State.withStatus _ moved .inactive true).fleet.tablets.find id = some row' at hrow'
    rw [Delivery.fleet_withStatus, Delivery.fleet_obsoleteManifests, Delivery.fleet_revokeInstallations] at hrow'
    obtain ⟨rfl, hst⟩ := hmoved hrow'
    have hinstallations : ∀ i, (Delivery.State.withStatus ((s.delivery.revokeInstallations s.now
        (s.delivery.current moved)).obsoleteManifests s.now reason (s.delivery.current moved)) moved .inactive
        true).fleet.installations.find i = s.fleet.installations.find i := by
      intro i
      simp [Registry.fleet, Delivery.Fleet.modifyTablet]
    constructor
    · intro i a ha htab hg
      obtain ⟨hold, hnot⟩ := Delivery.hasGrant_revokeInstallations hg
      obtain ⟨b, hb, hcurrent⟩ := hs.grants hold
      rw [show _ = some a from (hinstallations i).symm.trans ha] at hb
      cases hb
      exact hnot (Delivery.mem_installationsOf.mpr ⟨a, (hinstallations i).symm.trans ha, htab, hcurrent⟩)
    · intro k m a hm hst ha htab
      rw [← Bool.not_eq_true]
      intro hcurrent
      change (Table.mk ((s.delivery.revokeInstallations s.now (s.delivery.current moved)).signedManifests.rows.map
        _)).find k = some m at hm
      rw [Table.find_map] at hm
      obtain ⟨m₀, -, rfl⟩ := Option.map_eq_some_iff.mp hm
      split at hst
      · cases hst
      · rename_i hother
        rw [if_neg hother] at ha
        exact hother (Delivery.mem_installationsOf.mpr ⟨a, (hinstallations _).symm.trans ha, htab, hcurrent⟩)
  | @withdrawn moved tablet status htablet htransition hstatus =>
    have hfind := hrow'
    change ((s.delivery.revokeTabletInstallations moved s.now).withStatus moved status false).fleet.tablets.find id =
      some row' at hfind
    rw [Delivery.fleet_withStatus, Delivery.fleet_revokeTabletInstallations] at hfind
    obtain ⟨rfl, -⟩ := hmoved hfind
    exact withdrawn_revokeAdoptions.decommissioned hsound
  | _ => exact hsame rfl

/-! ### Every run -/

/-- Grants in use belong to tablets in service. -/
def GrantsActive (s : Registry) : Prop :=
  ∀ i, s.delivery.HasGrant i → ∃ a tablet, s.fleet.installations.find i = some a ∧
    s.fleet.tablets.find a.tablet = some tablet ∧ tablet.status = .active

/-- Former manifests that are still ready belong to installations that ended. -/
def Spent (s : Registry) (former : List ℕ) : Prop :=
  ∀ k ∈ former, ∀ m, s.delivery.signedManifests.find k = some m → m.status = .ready →
    ∃ a, s.fleet.installations.find m.appInstallation = some a ∧ a.status.isCurrent = false

theorem GrantsActive.step (h : Taken settings s action t) (hs : Sound s) (hdoc : Documented s action)
    (hg : GrantsActive s) : GrantsActive t := by
  intro i hgrant
  have hbefore : ∃ a tablet, s.fleet.installations.find i = some a ∧ s.fleet.tablets.find a.tablet = some tablet ∧
      tablet.status = .active := by
    rcases h.hasGrant hgrant with hold | ⟨a, tablet, ha, -, htablet, hactive⟩
    · exact hg i hold
    · exact ⟨a, tablet, ha, htablet, hactive⟩
  obtain ⟨a, tablet, ha, htablet, hactive⟩ := hbefore
  obtain ⟨b, hb, hab⟩ := h.installations.rows ha
  obtain ⟨row, hrow, -⟩ := h.tablets.rows htablet
  refine ⟨b, row, hb, by rw [hab.1]; exact hrow, ?_⟩
  by_contra hleft
  have hout := h.decommissioned hs hdoc htablet hactive hrow hleft
  exact hout.grants i b hb hab.1 hgrant

theorem Spent.step (h : Taken settings s action t) (hs : Sound s) (hdoc : Documented s action) {former : List ℕ}
    (hspent : Spent s former) : Spent t (formerAfter s t former) := by
  intro k hk m hm hst
  obtain ⟨m₀, hm₀, hcause, hunsigned⟩ := mem_formerAfter hk
  have hsame : m₀ = m := by
    rcases h.readyManifest hm hst with hold | ⟨m₁, hm₁, hrunning, -⟩
    · exact Option.some.inj (hm₀.symm.trans hold)
    · rw [signedIn, hm₁, hm, Option.map_some, Option.map_some, hrunning, hst] at hunsigned
      exact absurd hunsigned (by decide)
  subst hsame
  rcases hcause with hold | ⟨-, hleaves⟩
  · obtain ⟨a, ha, hended⟩ := hspent k hold m₀ hm₀ hst
    obtain ⟨b, hb, hab⟩ := h.installations.rows ha
    refine ⟨b, hb, ?_⟩
    rw [hab.2 hended]
    exact hended
  · simp only [leavesService, decide_eq_true_eq, Option.mem_def] at hleaves
    obtain ⟨a, ha, ⟨row, hrow, hactive⟩, row', hrow', hleft⟩ := hleaves
    obtain ⟨b, hb, hab⟩ := h.installations.rows ha
    have hout := h.decommissioned hs hdoc hrow hactive hrow' hleft
    exact ⟨b, hb, hout.manifests k m₀ b hm hst hb hab.1⟩

theorem commissioned_invariant {former : List ℕ}
    (h : (commissioned settings).ReachableBy (fun w => Documented w.1) (s, former)) :
    (tabletSystem settings).Reachable s ∧ GrantsActive s ∧ Spent s former := by
  refine h.recording_invariant (I := fun s former => GrantsActive s ∧ Spent s former) ?_ ?_
  · intro s hinit
    refine ⟨?_, fun k hk => absurd hk List.not_mem_nil⟩
    rintro i ⟨j, g, hg, -⟩
    rw [hinit.1.keyGrants, hinit.1.generationKeyGrants] at hg
    rcases hg with hg | hg <;> cases hg
  · rintro s former action t hreach ⟨hgrants, hspent⟩ hdoc rfl
    obtain ⟨hi, hs⟩ := sound_of_reachable hreach
    have htaken : Taken settings s action (s.step settings action) := step_taken hi action
    exact ⟨hgrants.step htaken hs hdoc, hspent.step htaken hs hdoc⟩

/-- In every run in which no administrator recovers a tablet in service or deactivates a lost one:
a tablet out of service has no key grant in use, a request is never answered with a manifest that
was ready when its tablet left service, and the lifecycle operations succeed from their documented
source states only. -/
theorem noAccess_outside_service {former : List ℕ}
    (h : (commissioned settings).ReachableBy (fun w => Documented w.1) (s, former)) :
    (∀ i a tablet, s.fleet.installations.find i = some a → s.fleet.tablets.find a.tablet = some tablet →
      tablet.status ≠ .active → ¬s.delivery.HasGrant i) ∧
    (∀ deliverySettings installation generation now clock r d payload,
      Delivery.requestManifest deliverySettings installation generation now clock s.delivery = (.ok r, d) →
      r.payload = some payload → ∃ k m, k ∉ former ∧ s.delivery.signedManifests.find k = some m ∧
        m.appInstallation = installation ∧ payload.payload = m.payload ∧ m.signature = some payload.signature) ∧
    ∀ action, Documented s action → FromSource settings s action := by
  obtain ⟨hreach, hgrants, hspent⟩ := commissioned_invariant h
  refine ⟨?_, ?_, fun action hdoc => fromSource_iff.mpr hdoc⟩
  · intro i a tablet ha htablet hout hgrant
    obtain ⟨b, row, hb, hrow, hactive⟩ := hgrants i hgrant
    rw [ha] at hb
    cases hb
    rw [htablet] at hrow
    cases hrow
    exact hout hactive
  · intro deliverySettings installation generation now clock r d payload hreq hp
    obtain ⟨-, hserved⟩ := Delivery.requestManifest_spec.of_ok hreq
    obtain ⟨-, k, m, hserves⟩ := hserved payload hp
    obtain ⟨hm, hsel⟩ := Table.first_eq_some hserves.first
    simp only [decide_eq_true_eq] at hsel
    refine ⟨k, m, fun hformer => ?_, hm, hsel.1, hserves.payload⟩
    -- The request is for an installation that did not end.
    have hhash := hserves.hash
    simp only [Delivery.installationStateHash, bind_eq_ok] at hhash
    obtain ⟨⟨context, publications⟩, hlisted, -⟩ := hhash
    obtain ⟨hi, hactive, -⟩ := Delivery.controlPlaneContext_rows (Delivery.manifestPublications_eq_ok.mp hlisted).1
    obtain ⟨a, ha, hended⟩ := hspent k hformer m hm hserves.ready
    rw [hsel.1, show s.fleet.installations.find installation = some context.installation from hi] at ha
    cases ha
    rw [hactive] at hended
    cases hended

/-! ### A tablet recovered from service -/

/-- The adopted tablet in service, with its first manifest. -/
def servedTablet : Registry × List ℕ :=
  (adoptedTablet ++ Delivery.servedPhonebook.map (Action.delivery Delivery.sampleSettings)).foldl
    (recordedStep formerAfter) (sampleRegistry, [])

theorem reachableBy_servedTablet :
    (commissioned sampleSettings).ReachableBy (fun w => Documented w.1) servedTablet := by
  have hinit : (commissioned sampleSettings).ReachableBy (fun w => Documented w.1) (sampleRegistry, []) :=
    .init ⟨init_sampleRegistry, rfl⟩
  refine reachableBy_recordedRun hinit _ fun action haction w => ?_
  simp only [adoptedTablet, assignedTablet, List.mem_append, List.mem_cons, List.mem_map, List.not_mem_nil,
    or_false] at haction
  rcases haction with ((rfl | rfl | rfl | rfl) | rfl | rfl | rfl | rfl | rfl) | ⟨a, -, rfl⟩ <;> trivial

theorem servedTablet_active : servedTablet.1.fleet.tablets.find 0 = some { department := 1, status := .active } := by
  decide +kernel

/-- Once deactivated it has no grant, and its manifest is a former one. -/
theorem deactivatedTablet_noGrant : (recordedStep formerAfter servedTablet (.deactivateTablet (fun _ => true) 0)).2 = [0] ∧
    ¬(recordedStep formerAfter servedTablet (.deactivateTablet (fun _ => true) 0)).1.delivery.HasGrant 0 := by
  have hdoc : Documented servedTablet.1 (.deactivateTablet (fun _ => true) 0) := by
    intro tablet htablet _
    rw [servedTablet_active] at htablet
    cases htablet
    decide
  have hreach := reachableBy_recordedStep reachableBy_servedTablet hdoc
  have hformer : (recordedStep formerAfter servedTablet (.deactivateTablet (fun _ => true) 0)).2 = [0] := by decide +kernel
  have htablet : ((recordedStep formerAfter servedTablet (.deactivateTablet (fun _ => true) 0)).1.fleet.installations.find
      0).map (·.tablet) = some 0 := by decide +kernel
  have hrow : (recordedStep formerAfter servedTablet (.deactivateTablet (fun _ => true) 0)).1.fleet.tablets.find 0 =
      some { department := 1 } := by decide +kernel
  generalize recordedStep formerAfter servedTablet (.deactivateTablet (fun _ => true) 0) = w at *
  obtain ⟨a, ha, htab⟩ := Option.map_eq_some_iff.mp htablet
  exact ⟨hformer, (noAccess_outside_service hreach).1 0 a { department := 1 } ha (htab ▸ hrow) (by decide)⟩

/-- The tablet in service is recovered: it is inactive with its grant in use, and activated again
it is served the manifest of its former service. -/
theorem recoveredTablet_keeps_access : ∃ s t u former,
    (commissioned sampleSettings).Reachable (s, []) ∧ (commissioned sampleSettings).Reachable (u, former) ∧
      ¬FromSource sampleSettings s (.recoverTablet (fun _ => true) 0) ∧
      t = s.step sampleSettings (.recoverTablet (fun _ => true) 0) ∧
      t.fleet.tablets.find 0 = some { department := 1, status := .inactive } ∧ t.delivery.HasGrant 0 ∧
      u = t.step sampleSettings (.activateTablet (fun _ => true) 0) ∧
      (∃ r d payload, Delivery.requestManifest Delivery.sampleSettings 0 1 4 4 u.delivery = (.ok r, d) ∧
        r.payload = some payload) ∧
      ∀ k m, u.delivery.signedManifests.find k = some m → k ∈ former := by
  have hnone : servedTablet.2 = [] := by decide +kernel
  have hrow : (recordedStep formerAfter servedTablet (.recoverTablet (fun _ => true) 0)).1.fleet.tablets.find 0 =
      some { department := 1, status := .inactive } := by decide +kernel
  have hgrant : ((recordedStep formerAfter servedTablet (.recoverTablet (fun _ => true) 0)).1.delivery.db.keyGrants.find
      0).map (fun g => (g.appInstallation, g.status)) = some (0, .ready) := by decide +kernel
  have hformer : (recordedStep formerAfter (recordedStep formerAfter servedTablet (.recoverTablet (fun _ => true) 0))
      (.activateTablet (fun _ => true) 0)).2 = [0] := by decide +kernel
  have hrows : (recordedStep formerAfter (recordedStep formerAfter servedTablet (.recoverTablet (fun _ => true) 0))
      (.activateTablet (fun _ => true) 0)).1.delivery.signedManifests.rows.length = 1 := by decide +kernel
  have hserved : (Delivery.servedPayload (recordedStep formerAfter (recordedStep formerAfter servedTablet
      (.recoverTablet (fun _ => true) 0)) (.activateTablet (fun _ => true) 0)).1.delivery).isSome = true := by
    decide +kernel
  have hbefore := servedTablet_active
  have hreach := reachableBy_servedTablet.reachable
  generalize servedTablet = w at *
  have hlast := reachable_recordedStep hreach (.recoverTablet (fun _ => true) 0)
  have hagain := reachable_recordedStep hlast (.activateTablet (fun _ => true) 0)
  obtain ⟨s, former⟩ := w
  cases hnone
  refine ⟨s, _, _, _, hreach, hagain, ?_, rfl, hrow, ?_, rfl, ?_, ?_⟩
  · rw [fromSource_iff]
    exact fun hdoc => hdoc _ hbefore rfl rfl
  · obtain ⟨g, hg, hready⟩ := Option.map_eq_some_iff.mp hgrant
    rw [Prod.mk.injEq] at hready
    exact ⟨0, g, .inl hg, hready.1, by rw [hready.2]; decide⟩
  · obtain ⟨signed, hsigned⟩ := Option.isSome_iff_exists.mp hserved
    obtain ⟨r, payload, hreq, hp, -⟩ := Delivery.servedPayload_eq_some hsigned
    exact ⟨r, _, payload, hreq, hp⟩
  · intro k m hm
    have hk : k < 1 := by
      rw [← hrows]
      exact Table.lt_nextId_of_find hm
    rw [show formerAfter _ _ _ = [0] from hformer, List.mem_singleton]
    omega

end FireDash.Tablets
