import FireDash.Tablets.Lifecycle

/-! What the services leave alone: leases, policies and labels of tablets change in registrations,
contacts and the settings of departments only. -/
namespace FireDash.Tablets

open Json (Text)
open Publications (Bytes Time DepartmentId)
open Delivery (Tablet TabletId TabletStatus AppInstallation InstallationId InstallationStatus)

variable {settings : Settings} {s t : Registry} {action : Action}

/-- Leases, policies and labels stay as they are, and no tablet is registered. -/
structure Undisturbed (s t : Registry) : Prop where
  installations : Table.Evolve (fun a b : AppInstallation => b.authorizationValidUntil = a.authorizationValidUntil)
    (fun _ => True) s.fleet.installations t.fleet.installations
  policies : t.policies = s.policies
  labels : t.labels = s.labels
  tablets : t.fleet.tablets.nextId = s.fleet.tablets.nextId

theorem Undisturbed.of_eq (hinstallations : t.fleet.installations = s.fleet.installations) (hpolicies : t.policies = s.policies)
    (hlabels : t.labels = s.labels) (htablets : t.fleet.tablets.nextId = s.fleet.tablets.nextId) : Undisturbed s t where
  installations := hinstallations ▸ .refl fun _ => rfl
  policies := hpolicies
  labels := hlabels
  tablets := htablets

/-- Changes of the status of installations are none of their leases. -/
theorem endInstallations_lease (fleet : Delivery.Fleet) (id : TabletId) (status : InstallationStatus) :
    Table.Evolve (fun a b : AppInstallation => b.authorizationValidUntil = a.authorizationValidUntil) (fun _ => True)
      fleet.installations (fleet.endInstallations id status).installations := by
  refine .map fun a => ?_
  split <;> rfl

theorem finishCompletion_undisturbed {call : ℕ} {credential : Text} {c : Call} :
    Undisturbed s ((s.finishCompletion settings c credential).1.setCall call (s.finishCompletion settings c credential).2) := by
  cases c with
  | complete id =>
    simp only [Registry.finishCompletion]
    split
    · rename_i installationId u h
      obtain ⟨request, invitation, installation, identity, -, -, -, -, -, rfl⟩ := completeSuccessfulAdoption_eq_ok h
      have hfleet : ((s.adopted id request installation identity).setCall call (.answered installationId)).fleet =
          s.fleet.adopted installation := Delivery.fleet_revokeInstallations ..
      refine ⟨?_, rfl, rfl, by rw [hfleet]; rfl⟩
      rw [hfleet]
      refine (endInstallations_lease s.fleet installation.tablet .replaced).trans (fun h h' => h'.trans h) (fun _ _ => trivial) ?_
      apply Table.Evolve.insert
      · exact fun _ => rfl
      · trivial
    · exact .of_eq rfl rfl rfl rfl
  | replay id challengeResponse =>
    simp only [Registry.finishCompletion]
    split
    · rename_i installationId u h
      obtain ⟨request, invitation, installation, -, rfl⟩ := replaySuccessfulCompletion_eq_ok h
      exact .of_eq rfl rfl rfl rfl
    · exact .of_eq rfl rfl rfl rfl
  | recordFailure id =>
    simp only [Registry.finishCompletion]
    rcases recordFailedAttempt_cases s id with he | ⟨request, -, -, -, he⟩
    · rw [he]
      exact .of_eq rfl rfl rfl rfl
    · rw [he]
      exact .of_eq rfl rfl rfl rfl
  | answered installation => exact .of_eq rfl rfl rfl rfl
  | refused => exact .of_eq rfl rfl rfl rfl

theorem withdrawTablet_undisturbed {id : TabletId} {status : TabletStatus} :
    Undisturbed s (Registry.revokeAdoptions
      { s with delivery := (s.delivery.revokeTabletInstallations id s.now).withStatus id status false } id) := by
  have hfleet : (Registry.revokeAdoptions
      { s with delivery := (s.delivery.revokeTabletInstallations id s.now).withStatus id status false } id).fleet =
        (s.fleet.endInstallations id .revoked).modifyTablet id fun row => { row with status := status, active := false } := by
    change ((s.delivery.revokeTabletInstallations id s.now).withStatus id status false).fleet = _
    rw [Delivery.fleet_withStatus, Delivery.fleet_revokeTabletInstallations]
    rfl
  refine ⟨?_, rfl, rfl, ?_⟩
  · rw [hfleet]
    exact endInstallations_lease s.fleet id .revoked
  · rw [hfleet]
    simp [Delivery.Fleet.modifyTablet, Delivery.Fleet.endInstallations]

theorem retireVehicle_undisturbed {admin : DepartmentId → Bool} {id : Delivery.VehicleId}
    (h : s.retireVehicle admin id = .ok t) : Undisturbed s t := by
  have hkeeps : Keeps s t := retireVehicle_keeps h
  obtain ⟨vehicle, -, -, d, v, installations, -, -, rfl⟩ := retireVehicle_eq_ok h
  exact .of_eq hkeeps.installations rfl rfl (by rw [hkeeps.tablets])

/-- The installation whose lease an action may move. -/
def Action.contacted : Action → Option InstallationId
  | .checkIn id _ _ _ => some id
  | .refreshInstallationLease id _ _ _ => some id
  | _ => none

def Action.editsDepartments : Action → Bool
  | .editDepartments _ _ _ _ => true
  | _ => false

def Action.registers : Action → Bool
  | .createTablet _ _ _ _ => true
  | _ => false

theorem run_undisturbed (hi : Publications.Inv s.delivery.db.core) (h : s.run settings action = .ok t)
    (hcontact : action.contacted = none) (hedit : action.editsDepartments = false) (hregister : action.registers = false) :
    Undisturbed s t := by
  cases action with
  | tick elapsed =>
    cases h
    exact .of_eq rfl rfl rfl rfl
  | delivery deliverySettings a =>
    simp only [Registry.run] at h
    split at h
    · rename_i ha
      cases h
      have hissues : Delivery.Issues s.delivery (Tx.exec (a.run settings.crypto deliverySettings) s.delivery) :=
        isExternal_issues ha hi
      refine .of_eq ?_ rfl rfl ?_
      · simp only [Registry.fleet]
        rw [hissues.fleet]
      · simp only [Registry.fleet]
        rw [hissues.fleet]
    · cases h
      exact .of_eq rfl rfl rfl rfl
  | editDepartments departments policies features minimumAppVersion => cases hedit
  | editPersonnel stations =>
    cases h
    exact .of_eq rfl rfl rfl rfl
  | createTablet admin department displayName assetNumber => cases hregister
  | createAdoptionInvitation admin id expiresAt token =>
    simp only [Registry.run, Registry.createAdoptionInvitation, bind_eq_ok, check_eq_ok, pure_eq_ok] at h
    obtain ⟨tablet, -, -, u, -, -, rfl⟩ := h
    exact .of_eq rfl rfl rfl rfl
  | createAdoptionRequest token installationUuid appVersion hpkePublicKey hpkeCiphersuite nonce =>
    obtain ⟨request, invitation, -, -, -, -, -, rfl⟩ := createAdoptionRequest_eq_ok h
    exact .of_eq rfl rfl rfl rfl
  | beginCompletion id challengeResponse confirmed =>
    simp only [Registry.run, bind_eq_ok, pure_eq_ok] at h
    obtain ⟨call, -, rfl⟩ := h
    exact .of_eq rfl rfl rfl rfl
  | finishCompletion call credential =>
    simp only [Registry.run, bind_eq_ok, pure_eq_ok] at h
    obtain ⟨c, -, rfl⟩ := h
    exact finishCompletion_undisturbed
  | checkIn id credential appVersion minimum => cases hcontact
  | refreshInstallationLease id credential appVersion minimum => cases hcontact
  | markStaleInstallations now =>
    cases h
    refine ⟨.map fun a => ?_, rfl, rfl, rfl⟩
    split <;> rfl
  | activateTablet admin id =>
    obtain ⟨d, ⟨tablet, -, -, rfl⟩, rfl⟩ := Registry.onDelivery_eq_ok Delivery.activateTablet_spec h
    exact .of_eq rfl rfl rfl (Table.nextId_modify ..)
  | deactivateTablet admin id =>
    obtain ⟨d, ⟨tablet, -, -, rfl⟩, rfl⟩ := Registry.onDelivery_eq_ok Delivery.deactivateTablet_spec h
    refine .of_eq ?_ rfl rfl ?_
    · simp [Registry.fleet, Delivery.Fleet.modifyTablet]
    · simp [Registry.fleet, Delivery.Fleet.modifyTablet]
  | markTabletLost admin id =>
    simp only [Registry.run, Registry.markTabletLost, bind_eq_ok, pure_eq_ok] at h
    obtain ⟨u, hu, rfl⟩ := h
    obtain ⟨d, ⟨tablet, -, -, rfl⟩, rfl⟩ := Registry.onDelivery_eq_ok Delivery.withdrawTablet_spec hu
    exact withdrawTablet_undisturbed
  | recoverTablet admin id =>
    obtain ⟨d, ⟨tablet, -, -, -, rfl⟩, rfl⟩ := Registry.onDelivery_eq_ok Delivery.recoverTablet_spec h
    exact .of_eq rfl rfl rfl (Table.nextId_modify ..)
  | retireTablet admin id =>
    simp only [Registry.run, Registry.retireTablet, bind_eq_ok, pure_eq_ok] at h
    obtain ⟨u, hu, rfl⟩ := h
    obtain ⟨d, ⟨tablet, -, -, rfl⟩, rfl⟩ := Registry.onDelivery_eq_ok Delivery.withdrawTablet_spec hu
    exact withdrawTablet_undisturbed
  | revokeInstallation admin id =>
    obtain ⟨d, ⟨installation, -, -, rfl⟩, rfl⟩ := Registry.onDelivery_eq_ok Delivery.revokeInstallation_spec h
    refine ⟨?_, rfl, rfl, rfl⟩
    apply Table.Evolve.modify
    · exact fun _ => rfl
    · exact fun _ _ => rfl
  | createStation admin department details active =>
    simp only [Registry.run, Registry.createStation, bind_eq_ok, check_eq_ok, pure_eq_ok] at h
    obtain ⟨-, -, -, rfl⟩ := h
    exact .of_eq rfl rfl rfl rfl
  | updateStation admin id details active =>
    simp only [Registry.run, Registry.updateStation, bind_eq_ok, check_eq_ok] at h
    obtain ⟨station, -, current, -, -, h⟩ := h
    split at h
    · cases h
      exact .of_eq rfl rfl rfl rfl
    · split at h
      · obtain ⟨-, rfl⟩ := deactivateStation_eq_ok h
        exact .of_eq rfl rfl rfl rfl
      · cases h
        exact .of_eq rfl rfl rfl rfl
  | deactivateStation id =>
    obtain ⟨-, rfl⟩ := deactivateStation_eq_ok h
    exact .of_eq rfl rfl rfl rfl
  | createVehicle admin department station seenActive details active =>
    simp only [Registry.run, Registry.createVehicle, bind_eq_ok, check_eq_ok, pure_eq_ok] at h
    obtain ⟨-, -, row, -, -, -, rfl⟩ := h
    exact .of_eq rfl rfl rfl rfl
  | updateVehicle admin id details active =>
    simp only [Registry.run, Registry.updateVehicle, bind_eq_ok, check_eq_ok] at h
    obtain ⟨vehicle, -, current, -, -, h⟩ := h
    split at h
    · cases h
      exact .of_eq rfl rfl rfl rfl
    · split at h
      · exact retireVehicle_undisturbed h
      · cases h
        exact .of_eq rfl rfl rfl rfl
  | retireVehicle admin id => exact retireVehicle_undisturbed h
  | assignTabletVehicle authorized id vehicle effectiveAt =>
    obtain ⟨tablet, vehicle, validFrom, -, -, -, rfl⟩ := assignTabletVehicle_eq_ok h
    exact .of_eq rfl rfl rfl rfl

end FireDash.Tablets
