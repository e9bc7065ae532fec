import FireDash.Delivery.System

/-! What the services of the fleet write, and which grants requests and workers may issue. -/
namespace FireDash.Delivery

open Publications Tx

variable {s t u : State} {crypto : DeliveryCrypto} {settings : Settings}

/-! ### Services of the fleet -/

theorem transitionedTablet_spec {admin : DepartmentId → Bool} {id : TabletId} {status : TabletStatus} :
    wp (transitionedTablet admin id status)
      (fun tablet t => t = s ∧ s.fleet.tablets.find id = some tablet ∧ admin tablet.department = true ∧
        assetTransition tablet.status status = true)
      (fun _ _ => True) s := by
  simp only [transitionedTablet, wp_bind, wp_get, wp_require, wp_ensure, wp_pure, implies_true, and_true, true_and]
  intro tablet htablet hadmin htransition
  exact ⟨htablet, hadmin, htransition⟩

/-- The tablet with its new status. -/
def State.withStatus (s : State) (id : TabletId) (status : TabletStatus) (active : Bool) : State :=
  s.modifyFleet fun fleet => fleet.modifyTablet id fun row => { row with status := status, active := active }

theorem activateTablet_spec {admin : DepartmentId → Bool} {id : TabletId} {now : Time} :
    wp (activateTablet admin id now)
      (fun _ t => ∃ tablet, s.fleet.tablets.find id = some tablet ∧ assetTransition tablet.status .active = true ∧
        t = s.withStatus id .active true) (fun _ t => t = s) s := by
  unfold activateTablet
  rw [wp_atomic, wp_bind]
  refine wp_mono transitionedTablet_spec ?_ fun _ _ _ => rfl
  rintro tablet t ⟨rfl, htablet, -, htransition⟩
  simp only [wp_bind, wp_get, wp_require, wp_ensure, wp_modify, implies_true, and_true]
  intro _ _ _ _ _
  exact ⟨tablet, htablet, htransition, rfl⟩

/-- The current installations of a tablet. -/
def State.current (s : State) (id : TabletId) : List InstallationId :=
  s.fleet.installationsOf id InstallationStatus.isCurrent

theorem deactivateTablet_spec {admin : DepartmentId → Bool} {id : TabletId} {now : Time} :
    wp (deactivateTablet admin id now)
      (fun _ t => ∃ tablet, s.fleet.tablets.find id = some tablet ∧ assetTransition tablet.status .inactive = true ∧
        t = ((s.revokeInstallations now (s.current id)).obsoleteManifests now "Tablet asset was deactivated."
          (s.current id)).withStatus id .inactive true) (fun _ t => t = s) s := by
  unfold deactivateTablet
  rw [wp_atomic, wp_bind]
  refine wp_mono transitionedTablet_spec ?_ fun _ _ _ => rfl
  rintro tablet t ⟨rfl, htablet, -, htransition⟩
  simp only [wp_bind, wp_get, wp_modify]
  exact ⟨tablet, htablet, htransition, rfl⟩

theorem withdrawTablet_spec {status : TabletStatus} {admin : DepartmentId → Bool} {id : TabletId} {now : Time} :
    wp (withdrawTablet status admin id now)
      (fun _ t => ∃ tablet, s.fleet.tablets.find id = some tablet ∧ assetTransition tablet.status status = true ∧
        t = (s.revokeTabletInstallations id now).withStatus id status false) (fun _ t => t = s) s := by
  unfold withdrawTablet
  rw [wp_atomic, wp_bind]
  refine wp_mono transitionedTablet_spec ?_ fun _ _ _ => rfl
  rintro tablet t ⟨rfl, htablet, -, htransition⟩
  simp only [wp_bind, wp_modify]
  exact ⟨tablet, htablet, htransition, rfl⟩

theorem recoverTablet_spec {admin : DepartmentId → Bool} {id : TabletId} :
    wp (recoverTablet admin id)
      (fun _ t => ∃ tablet, s.fleet.tablets.find id = some tablet ∧ admin tablet.department = true ∧
        assetTransition tablet.status .inactive = true ∧ t = s.withStatus id .inactive true) (fun _ t => t = s) s := by
  unfold recoverTablet
  rw [wp_atomic, wp_bind]
  refine wp_mono transitionedTablet_spec ?_ fun _ _ _ => rfl
  rintro tablet t ⟨rfl, htablet, hadmin, htransition⟩
  exact ⟨tablet, htablet, hadmin, htransition, rfl⟩

/-- The installation with another status. -/
def State.withInstallation (s : State) (id : InstallationId) (status : InstallationStatus) : State :=
  s.modifyFleet fun fleet =>
    { fleet with installations := fleet.installations.modify id fun row => { row with status := status } }

theorem revokeInstallation_spec {admin : DepartmentId → Bool} {id : InstallationId} {now : Time} :
    wp (revokeInstallation admin id now)
      (fun _ t => ∃ installation, s.fleet.installations.find id = some installation ∧
        installation.status.isCurrent = true ∧
        t = (s.withInstallation id .revoked).revokeDatasetKeyGrants now id) (fun _ t => t = s) s := by
  unfold revokeInstallation
  simp only [wp_atomic, wp_bind, wp_get, wp_require, wp_ensure, wp_modify, implies_true, and_true]
  intro installation hinstallation _ _ _ hcurrent
  exact ⟨installation, hinstallation, hcurrent, rfl⟩

/-- The fleet after an adoption. -/
def Fleet.adopted (fleet : Fleet) (installation : AppInstallation) : Fleet :=
  { fleet.endInstallations installation.tablet .replaced with
    installations := (fleet.endInstallations installation.tablet .replaced).installations.insert installation }

theorem requireOperationalTablet_ok {fleet : Fleet} {id : TabletId} {tablet : Tablet} {now : Time}
    (h : requireOperationalTablet fleet id tablet now = .ok ()) :
    tablet.active = true ∧ (tablet.status = .inactive ∨ tablet.status = .active) := by
  unfold requireOperationalTablet at h
  rw [bind_eq_ok] at h
  obtain ⟨department, -, h⟩ := h
  rw [check_eq_ok, check_eq_ok] at h
  obtain ⟨hactive, hstatus, -⟩ := h
  rw [not_or, not_not, not_not] at hactive
  rw [not_and_or, not_not, not_not] at hstatus
  exact ⟨hactive.2, hstatus⟩

theorem completeSuccessfulAdoption_spec {id : TabletId} {appVersion : String} {hpkePublicKey : Bytes}
    {leaseTarget now : Time} :
    wp (completeSuccessfulAdoption id appVersion hpkePublicKey leaseTarget now)
      (fun _ t => ∃ tablet, s.fleet.tablets.find id = some tablet ∧
        requireOperationalTablet s.fleet id tablet now = .ok () ∧
        ∃ v, v = s.modifyFleet (fun fleet => fleet.adopted ⟨id, .active, appVersion, hpkePublicKey, leaseTarget⟩) ∧
          t = v.revokeInstallations now (v.fleet.installationsOf id (· = .replaced)))
      (fun _ t => t = s) s := by
  unfold completeSuccessfulAdoption
  simp only [wp_atomic, wp_bind, wp_get, wp_require, wp_ofExcept, wp_modify, implies_true, and_true]
  intro tablet htablet a ha
  exact ⟨tablet, htablet, ha, _, rfl, rfl⟩

theorem retireVehicle_spec {admin : DepartmentId → Bool} {id : VehicleId} {now : Time} :
    wp (retireVehicle admin id now)
      (fun _ t => ∃ vehicle, s.fleet.vehicles.find id = some vehicle ∧ vehicle.active = true ∧
        ∃ v installations, v = s.modifyFleet (fun fleet => { fleet with assignments := ⟨fleet.assignments.rows.map fun a =>
            if a.vehicle = id ∧ a.isOpen then a.finished now now else a⟩ }) ∧
          t = (v.revokeInstallations now installations).modifyFleet fun fleet =>
            { fleet with vehicles := fleet.vehicles.modify id fun row => { row with active := false } })
      (fun _ t => t = s) s := by
  unfold retireVehicle
  simp only [wp_atomic, wp_bind, wp_get, wp_require, wp_ensure, wp_modify, implies_true, and_true]
  intro vehicle hvehicle _ hactive
  exact ⟨vehicle, hvehicle, hactive, _, _, rfl, rfl⟩

theorem validateTabletVehicle_ok {fleet : Fleet} {tablet : Tablet} {vehicle : Vehicle}
    (h : validateTabletVehicle fleet tablet vehicle = .ok ()) :
    vehicle.active = true ∧ tablet.department = vehicle.department ∧
      ∃ station, fleet.stations.find vehicle.station = some station ∧ station.active = true := by
  unfold validateTabletVehicle at h
  simp only [bind_eq_ok, check_eq_ok, found_eq_ok] at h
  obtain ⟨department, -, -, hoperational, station, hstation, h⟩ := h
  simp only [not_or, not_not] at hoperational
  refine ⟨hoperational.2.1, hoperational.2.2, station, hstation, ?_⟩
  by_contra hactive
  rw [if_pos hactive] at h
  exact throw_ne_ok h

/-- The open assignment of a tablet, ended. -/
def Fleet.endAssignment (fleet : Fleet) (id : TabletId) (effectiveAt now : Time) : Table TabletVehicleAssignment :=
  match fleet.assignments.first fun a => a.tablet = id ∧ a.isOpen with
  | some (i, _) => fleet.assignments.modify i (TabletVehicleAssignment.finished effectiveAt now)
  | none => fleet.assignments

theorem assignTabletVehicle_spec {authorized : Bool} {id : TabletId} {vehicleId : VehicleId} {effectiveAt now : Time} :
    wp (assignTabletVehicle authorized id vehicleId effectiveAt now)
      (fun _ t => ∃ tablet vehicle, s.fleet.tablets.find id = some tablet ∧ s.fleet.vehicles.find vehicleId = some vehicle ∧
        validateTabletVehicle s.fleet tablet vehicle = .ok () ∧
        t = s.modifyFleet fun fleet => { fleet with
          assignments := (fleet.endAssignment id effectiveAt now).insert
            { tablet := id, vehicle := vehicleId, validFrom := effectiveAt } })
      (fun _ t => t = s) s := by
  unfold assignTabletVehicle
  simp only [wp_atomic, wp_bind, wp_get, wp_require, wp_ensure, wp_ofExcept, wp_modify, implies_true, and_true]
  intro vehicle hvehicle tablet htablet _ a ha
  exact ⟨tablet, vehicle, htablet, hvehicle, ha, rfl⟩

end FireDash.Delivery
