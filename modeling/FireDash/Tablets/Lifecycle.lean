import FireDash.Tablets.System
import FireDash.Delivery.Issuance

/-! What each step of the tablet system may do to tablets, installations and adoptions, and the
lifecycle of installations over every run. -/
namespace FireDash.Tablets

open Json (Text)
open Publications (Bytes Time DepartmentId)
open Delivery (Fleet Tablet TabletId TabletStatus AppInstallation InstallationId InstallationStatus assetTransition
  SignedManifest StationRow Vehicle VehicleId TabletVehicleAssignment)

variable {settings : Settings} {s t u : Registry} {action : Action}

/-! ### Services of the delivery tables -/

theorem found_eq_ok {α : Type} {row : Option α} {a : α} : found row = .ok a ↔ row = some a := by
  cases row <;> simp [found]

theorem lift_eq_ok {α : Type} {x : Except Publications.Error α} {a : α} : lift x = .ok a ↔ x = .ok a := by
  cases x <;> simp [lift, Except.mapError]

theorem Registry.onDelivery_eq_ok {x : Delivery.Service Unit} {Q : Delivery.State → Prop}
    {E : Publications.Error → Delivery.State → Prop} (h : Tx.wp x (fun _ d => Q d) E s.delivery)
    (hok : s.onDelivery x = .ok t) : ∃ d, Q d ∧ t = { s with delivery := d } := by
  unfold Registry.onDelivery at hok
  cases hx : x s.delivery with
  | mk r d =>
    rw [hx] at hok
    cases r with
    | ok a =>
      cases hok
      exact ⟨d, h.of_ok hx, rfl⟩
    | error e => cases hok

/-! ### What one step can do -/

/-- Tablets, installations and adoptions stay. Grants are put in use for operational installations
only, and manifests are signed from builds that run. -/
structure Keeps (s t : Registry) : Prop where
  tablets : t.fleet.tablets = s.fleet.tablets
  installations : t.fleet.installations = s.fleet.installations
  identities : t.identities = s.identities
  invitations : t.invitations = s.invitations
  requests : t.requests = s.requests
  now : s.now ≤ t.now
  grants : ∀ id, t.delivery.HasGrant id → s.delivery.HasGrant id ∨ s.fleet.Operational id
  manifests : ∀ i m, t.delivery.signedManifests.find i = some m → m.status = .ready →
    s.delivery.signedManifests.find i = some m ∨
      ∃ m₀, s.delivery.signedManifests.find i = some m₀ ∧ m₀.status = .running ∧ m₀.appInstallation = m.appInstallation
  lifecycle : Publications.Inv s.delivery.db.core → Publications.Inv t.delivery.db.core

/-- The delivery tables other than the fleet, and the clock, are those of before. -/
theorem Keeps.of_eq (htablets : t.fleet.tablets = s.fleet.tablets)
    (hinstallations : t.fleet.installations = s.fleet.installations) (hidentities : t.identities = s.identities)
    (hinvitations : t.invitations = s.invitations) (hrequests : t.requests = s.requests) (hnow : s.now ≤ t.now)
    (hdb : t.delivery.db = s.delivery.db) (hmanifests : t.delivery.signedManifests = s.delivery.signedManifests) :
    Keeps s t where
  tablets := htablets
  installations := hinstallations
  identities := hidentities
  invitations := hinvitations
  requests := hrequests
  now := hnow
  grants id h := by
    unfold Delivery.State.HasGrant at h ⊢
    rw [hdb] at h
    exact .inl h
  manifests i m hm _ := .inl (hmanifests ▸ hm)
  lifecycle hi := by
    rw [hdb]
    exact hi

/-- The installations of a contact: current ones stay current, all others as they are. -/
def Contact (installations installations' : Table AppInstallation) : Prop :=
  Table.Evolve (fun a b => b = a ∨ b.tablet = a.tablet ∧ a.status.isCurrent = true ∧ b.status.isCurrent = true)
    (fun _ => False) installations installations'

/-- The checks of a completion: its request is open, its invitation unused, its tablet in service
and its identity new. -/
structure Completes (s : Registry) (id : ℕ) (request : AdoptionRequest) (invitation : AdoptionInvitation) : Prop where
  requestRow : s.requests.find id = some request
  invitationRow : s.invitations.find request.invitation = some invitation
  incomplete : request.completedAt = none
  unexpired : s.now < request.expiresAt
  attempts : request.failedAttemptCount < maxFailedAttempts
  unused : invitation.usedAt = none
  unrevoked : invitation.revokedAt = none
  inService : ∃ tablet, s.fleet.tablets.find invitation.tablet = some tablet ∧ tablet.active = true ∧
    (tablet.status = .inactive ∨ tablet.status = .active)
  fresh : ∀ i identity, s.identities.find i = some identity → identity.installationUuid ≠ request.installationUuid

/-- The state a completion leaves. -/
def Registry.adopted (s : Registry) (id : ℕ) (request : AdoptionRequest) (installation : AppInstallation)
    (identity : Identity) : Registry :=
  let delivery := s.delivery.modifyFleet fun fleet => fleet.adopted installation
  { s with
    delivery := delivery.revokeInstallations s.now (delivery.fleet.installationsOf installation.tablet (· = .replaced))
    identities := s.identities.insert identity
    requests := s.requests.modify id fun r =>
      { r with completedAt := some s.now, completionReplayValidUntil := some (s.now + completionReplayDuration) }
    invitations := s.invitations.modify request.invitation fun i => { i with usedAt := some s.now } }

/-- The checks of a replay: its request was completed within the window, and its installation,
known by the same identity, is current. -/
structure Replays (s : Registry) (id : ℕ) (challengeResponse : Bytes) (request : AdoptionRequest)
    (invitation : AdoptionInvitation) (installationId : InstallationId) (installation : AppInstallation) : Prop where
  requestRow : s.requests.find id = some request
  invitationRow : s.invitations.find request.invitation = some invitation
  identified : ∃ identity, s.identities.find installationId = some identity ∧
    identity.installationUuid = request.installationUuid
  installationRow : s.fleet.installations.find installationId = some installation
  current : installation.status.isCurrent = true
  completed : request.completedAt ≠ none
  window : ∃ validUntil, request.completionReplayValidUntil = some validUntil ∧ s.now < validUntil
  valid : request.completionReplayInvalidatedAt = none
  unrevoked : invitation.revokedAt = none
  response : request.expectedHmacDigest = challengeResponse

/-- The action runs the transaction of a call that completes the request. -/
def CompletesBy (s : Registry) (action : Action) (id : ℕ) : Prop :=
  ∃ call credential, action = .finishCompletion call credential ∧ s.calls.find call = some (.complete id)

/-- The effect of a step on stations, vehicles and assignments. -/
inductive Arranged (s : Registry) (action : Action) :
    Table StationRow → Table Vehicle → Table TabletVehicleAssignment → Prop
  | kept : Arranged s action s.fleet.stations s.fleet.vehicles s.fleet.assignments
  | stationCreated {row : StationRow} :
    Arranged s action (s.fleet.stations.insert row) s.fleet.vehicles s.fleet.assignments
  | stationChanged {id : StationId} {active : Bool}
    (hempty : active = false → ∀ row, s.fleet.stations.find id = some row → row.active = true →
      ∀ i v, s.fleet.vehicles.find i = some v → v.station = id → v.active = false) :
    Arranged s action (s.fleet.stations.modify id fun row => { row with active := active }) s.fleet.vehicles
      s.fleet.assignments
  | vehicleCreated {vehicle : Vehicle} {row : StationRow} (hrow : s.fleet.stations.find vehicle.station = some row)
    (hdepartment : row.department = vehicle.department) :
    Arranged s action s.fleet.stations (s.fleet.vehicles.insert vehicle) s.fleet.assignments
  | vehicleChanged {id : VehicleId} {vehicle : Vehicle} {active : Bool} (hvehicle : s.fleet.vehicles.find id = some vehicle)
    (hretired : active = false → vehicle.active = false)
    (haction : ∃ admin details, admin vehicle.department = true ∧ action = .updateVehicle admin id details active) :
    Arranged s action s.fleet.stations (s.fleet.vehicles.modify id fun row => { row with active := active })
      s.fleet.assignments
  | vehicleRetired {id : VehicleId} :
    Arranged s action s.fleet.stations (s.fleet.vehicles.modify id fun row => { row with active := false })
      ⟨s.fleet.assignments.rows.map fun a => if a.vehicle = id ∧ a.isOpen then a.finished s.now s.now else a⟩
  | assigned {id : TabletId} {vehicleId : VehicleId} {tablet : Tablet} {vehicle : Vehicle} {validFrom : Time}
    (htablet : s.fleet.tablets.find id = some tablet) (hvehicle : s.fleet.vehicles.find vehicleId = some vehicle)
    (hvalid : Delivery.validateTabletVehicle s.fleet tablet vehicle = .ok ()) :
    Arranged s action s.fleet.stations s.fleet.vehicles
      ((s.fleet.endAssignment id validFrom s.now).insert { tablet := id, vehicle := vehicleId, validFrom := validFrom })

/-- The effect of a step on tablets, installations and adoptions. -/
inductive Taken (settings : Settings) (s : Registry) (action : Action) : Registry → Prop
  | kept {t : Registry} (h : Keeps s t) (harranged : Arranged s action t.fleet.stations t.fleet.vehicles t.fleet.assignments) :
    Taken settings s action t
  | tabletCreated {department : DepartmentId} {label : TabletLabel} {policies : Table TabletPolicy} :
    Taken settings s action { s.insertTablet department label with policies := policies }
  | invited {id : TabletId} {tablet : Tablet} {tokenHash : Text} {expiresAt : Time}
    (htablet : s.fleet.tablets.find id = some tablet) (hactive : tablet.active = true)
    (hstatus : tablet.status = .inactive ∨ tablet.status = .active) :
    Taken settings s action { s with
      invitations := s.invitations.insert { tablet := id, tokenHash := tokenHash, expiresAt := expiresAt } }
  | requested {request : AdoptionRequest} (hinvitation : (s.invitations.find request.invitation).isSome = true)
    (hopen : request.completedAt = none) (hcount : request.failedAttemptCount = 0) :
    Taken settings s action { s with requests := s.requests.insert request }
  | failed {id : ℕ} {calls : Table Call} : Taken settings s action { s.recordFailedAttempt id with calls := calls }
  | adopted {id : ℕ} {request : AdoptionRequest} {invitation : AdoptionInvitation} {installation : AppInstallation}
    {identity : Identity} {calls : Table Call} (hcall : CompletesBy s action id) (h : Completes s id request invitation) (htablet : installation.tablet = invitation.tablet)
    (hstatus : installation.status = .active) (hidentity : identity.installationUuid = request.installationUuid) :
    Taken settings s action { s.adopted id request installation identity with calls := calls }
  | replayed {id : ℕ} {challengeResponse : Bytes} {request : AdoptionRequest} {invitation : AdoptionInvitation}
    {installationId : InstallationId} {installation : AppInstallation} {credentialHash : Text} {calls : Table Call}
    (h : Replays s id challengeResponse request invitation installationId installation) :
    Taken settings s action { s with
      identities := s.identities.modify installationId fun i => { i with credentialHash := credentialHash }
      calls := calls }
  | contacted {installations : Table AppInstallation} (h : Contact s.fleet.installations installations) :
    Taken settings s action (s.setFleet fun fleet => { fleet with installations := installations })
  | transitioned {id : TabletId} {tablet : Tablet} {status : TabletStatus} (htablet : s.fleet.tablets.find id = some tablet)
    (htransition : assetTransition tablet.status status = true) (hstatus : status = .active ∨ status = .inactive)
    (haction : status = .inactive → ∃ admin, admin tablet.department = true ∧ action = .recoverTablet admin id) :
    Taken settings s action { s with delivery := s.delivery.withStatus id status true }
  | deactivated {id : TabletId} {tablet : Tablet} {reason : String} (htablet : s.fleet.tablets.find id = some tablet)
    (htransition : assetTransition tablet.status .inactive = true) :
    Taken settings s action { s with delivery := ((s.delivery.revokeInstallations s.now (s.delivery.current id)).obsoleteManifests
      s.now reason (s.delivery.current id)).withStatus id .inactive true }
  | withdrawn {id : TabletId} {tablet : Tablet} {status : TabletStatus} (htablet : s.fleet.tablets.find id = some tablet)
    (htransition : assetTransition tablet.status status = true) (hstatus : status = .lost ∨ status = .retired) :
    Taken settings s action (Registry.revokeAdoptions
      { s with delivery := (s.delivery.revokeTabletInstallations id s.now).withStatus id status false } id)
  | revoked {id : InstallationId} {installation : AppInstallation}
    (hinstallation : s.fleet.installations.find id = some installation) (hcurrent : installation.status.isCurrent = true) :
    Taken settings s action { s with delivery := (s.delivery.withInstallation id .revoked).revokeDatasetKeyGrants s.now id }

/-! ### Requests, workers and the organization -/

theorem Keeps.refl (s : Registry) : Keeps s s := .of_eq rfl rfl rfl rfl rfl le_rfl rfl rfl

theorem Keeps.delivery {deliverySettings : Delivery.Settings} {d : Delivery.State} (hissues : Delivery.Issues s.delivery d)
    (hstepped : Delivery.Stepped settings.crypto deliverySettings s.delivery d) :
    Keeps s { s with delivery := d } where
  tablets := by
    change d.fleet.tablets = s.delivery.fleet.tablets
    rw [hissues.fleet]
  installations := by
    change d.fleet.installations = s.delivery.fleet.installations
    rw [hissues.fleet]
  identities := rfl
  invitations := rfl
  requests := rfl
  now := le_rfl
  grants _ h := hissues.hasGrant h
  manifests i m hm hst := by
    rcases hstepped.readyManifest hm hst with hold | hsigned
    · exact .inl hold
    · obtain ⟨m₀, now, payload, signature, v, u, context, publications, publications', grants, capabilities, hm₀, hrunning,
        rfl, -, -⟩ := hsigned
      exact .inr ⟨m₀, hm₀, hrunning, rfl⟩
  lifecycle hi := hstepped.inv hi

/-- The transactions of requests and workers leave the fleet to the tablet services. -/
theorem isExternal_issues {deliverySettings : Delivery.Settings} {a : Delivery.Action} (ha : isExternal a = true)
    (hi : Publications.Inv s.delivery.db.core) :
    Delivery.Issues s.delivery (Tx.exec (a.run settings.crypto deliverySettings) s.delivery) := by
  by_cases hout : a.outsideFleet = true
  · exact a.issues hout hi
  · cases a with
    | fleet call =>
      cases call with
      | setVehicleRescueGuidesWebUrl systemAdmin url now => exact Delivery.setVehicleRescueGuidesWebUrl_issues.exec
      | _ => cases ha
    | _ => exact absurd rfl hout

theorem isExternal_taken {deliverySettings : Delivery.Settings} {a : Delivery.Action} (ha : isExternal a = true)
    (hi : Publications.Inv s.delivery.db.core) :
    Taken settings s action { s with delivery := Tx.exec (a.run settings.crypto deliverySettings) s.delivery } := by
  have hstepped : Delivery.Stepped settings.crypto deliverySettings s.delivery
      (Tx.exec (a.run settings.crypto deliverySettings) s.delivery) := a.stepped hi
  have hissues : Delivery.Issues s.delivery (Tx.exec (a.run settings.crypto deliverySettings) s.delivery) :=
    isExternal_issues ha hi
  refine .kept (.delivery hissues hstepped) ?_
  simp only [Registry.fleet]
  rw [hissues.fleet]
  exact .kept

theorem createGeneratedTablet_eq_ok {department : DepartmentId} {displayName : Text} {policy : TabletPolicy} {attempts : ℕ}
    (h : s.createGeneratedTablet department displayName policy attempts = .ok t) :
    ∃ label policies, t = { s.insertTablet department label with policies := policies } := by
  induction attempts generalizing policy with
  | zero => cases h
  | succ attempts ih =>
    simp only [Registry.createGeneratedTablet, bind_eq_ok] at h
    obtain ⟨assetNumber, -, h⟩ := h
    split at h
    · exact ih h
    · cases h
      exact ⟨_, _, rfl⟩

theorem createTablet_taken {admin : DepartmentId → Bool} {department : DepartmentId} {displayName assetNumber : Text}
    (h : s.createTablet admin department displayName assetNumber = .ok t) : Taken settings s action t := by
  simp only [Registry.createTablet, bind_eq_ok, check_eq_ok] at h
  obtain ⟨-, -, policy, -, -, -, -, h⟩ := h
  split at h
  · obtain ⟨label, policies, rfl⟩ := createGeneratedTablet_eq_ok h
    exact .tabletCreated
  · split at h
    · cases h
    · cases h
      exact .tabletCreated

theorem deactivateStation_eq_ok {id : StationId} (h : s.deactivateStation id = .ok t) :
    (∀ i v, s.fleet.vehicles.find i = some v → v.station = id → v.active = false) ∧
      t = s.setStation id fun row => { row with active := false } := by
  simp only [Registry.deactivateStation, bind_eq_ok, check_eq_ok, pure_eq_ok, Bool.not_eq_true] at h
  obtain ⟨-, -, hvehicles, -, rfl⟩ := h
  refine ⟨fun i v hv hid => ?_, rfl⟩
  have hno := Table.any_eq_false.mp hvehicles i v hv
  simpa [hid] using hno

theorem retireVehicle_eq_ok {admin : DepartmentId → Bool} {id : VehicleId}
    (h : s.retireVehicle admin id = .ok t) : ∃ vehicle, s.fleet.vehicles.find id = some vehicle ∧ vehicle.active = true ∧
      ∃ d v installations, d = s.delivery.modifyFleet (fun fleet => { fleet with
          assignments := ⟨fleet.assignments.rows.map fun a =>
            if a.vehicle = id ∧ a.isOpen then a.finished s.now s.now else a⟩ }) ∧
        v = (d.revokeInstallations s.now installations).modifyFleet (fun fleet =>
          { fleet with vehicles := fleet.vehicles.modify id fun row => { row with active := false } }) ∧
        t = { s with delivery := v } := by
  simp only [Registry.retireVehicle, bind_eq_ok, check_eq_ok, pure_eq_ok] at h
  obtain ⟨u, hu, -, rfl⟩ := h
  obtain ⟨d, ⟨vehicle, hvehicle, hactive, v, installations, hv, hd⟩, rfl⟩ := Registry.onDelivery_eq_ok Delivery.retireVehicle_spec hu
  exact ⟨vehicle, hvehicle, hactive, v, d, installations, hv, hd, rfl⟩

theorem retireVehicle_keeps {admin : DepartmentId → Bool} {id : VehicleId}
    (h : s.retireVehicle admin id = .ok t) : Keeps s t := by
  obtain ⟨vehicle, -, -, d, v, installations, rfl, rfl, rfl⟩ := retireVehicle_eq_ok h
  constructor
  case grants => exact fun id h => .inl (Delivery.hasGrant_revokeInstallations h).1
  case manifests =>
    intro i m hm _
    refine .inl ?_
    simpa [Delivery.State.modifyFleet] using hm
  case lifecycle =>
    intro hi
    change Publications.Inv (Delivery.State.revokeInstallations _ s.now installations).db.core
    rw [Delivery.core_revokeInstallations]
    exact hi
  all_goals simp [Registry.fleet, Delivery.State.modifyFleet]

theorem retireVehicle_taken {admin : DepartmentId → Bool} {id : VehicleId} (h : s.retireVehicle admin id = .ok t) :
    Taken settings s action t := by
  refine .kept (retireVehicle_keeps h) ?_
  obtain ⟨vehicle, -, -, d, v, installations, rfl, rfl, rfl⟩ := retireVehicle_eq_ok h
  simp only [Registry.fleet, Delivery.State.modifyFleet, Delivery.fleet_revokeInstallations]
  exact .vehicleRetired

theorem deactivateStation_taken {id : StationId} (h : s.deactivateStation id = .ok t) : Taken settings s action t := by
  obtain ⟨hempty, rfl⟩ := deactivateStation_eq_ok h
  exact .kept (.of_eq rfl rfl rfl rfl rfl le_rfl rfl rfl) (.stationChanged fun _ _ _ _ => hempty)

theorem updateStation_taken {admin : DepartmentId → Bool} {id : StationId} {details : StationDetails} {active : Bool}
    (h : s.updateStation admin id details active = .ok t) : Taken settings s action t := by
  simp only [Registry.updateStation, bind_eq_ok, check_eq_ok, found_eq_ok] at h
  obtain ⟨station, hstation, current, -, -, h⟩ := h
  split at h
  · cases h
    exact .kept (.refl s) .kept
  · split at h
    · exact deactivateStation_taken h
    · rename_i hstays
      cases h
      refine .kept (.of_eq rfl rfl rfl rfl rfl le_rfl rfl rfl) (.stationChanged fun hinactive row hrow hactive => ?_)
      rw [hstation] at hrow
      cases hrow
      exact absurd ⟨by rw [hinactive]; decide, hactive⟩ hstays

theorem createVehicle_taken {admin : DepartmentId → Bool} {department : DepartmentId} {station : StationId}
    {seenActive : Bool} {details : VehicleDetails} {active : Bool}
    (h : s.createVehicle admin department station seenActive details active = .ok t) : Taken settings s action t := by
  simp only [Registry.createVehicle, bind_eq_ok, check_eq_ok, pure_eq_ok, found_eq_ok] at h
  obtain ⟨-, -, row, hrow, -, hplace, rfl⟩ := h
  rw [not_or, not_not] at hplace
  exact .kept (.of_eq rfl rfl rfl rfl rfl le_rfl rfl rfl) (.vehicleCreated hrow hplace.1)

theorem updateVehicle_taken {admin : DepartmentId → Bool} {id : VehicleId} {details : VehicleDetails} {active : Bool}
    (h : s.updateVehicle admin id details active = .ok t) :
    Taken settings s (.updateVehicle admin id details active) t := by
  simp only [Registry.updateVehicle, bind_eq_ok, check_eq_ok, found_eq_ok, not_not] at h
  obtain ⟨vehicle, hvehicle, current, -, hadmin, h⟩ := h
  split at h
  · cases h
    exact .kept (.refl s) .kept
  · split at h
    · exact retireVehicle_taken h
    · rename_i hstays
      cases h
      refine .kept (.of_eq rfl rfl rfl rfl rfl le_rfl rfl rfl)
        (.vehicleChanged hvehicle (fun hinactive => ?_) ⟨admin, details, hadmin, rfl⟩)
      rw [← Bool.not_eq_true]
      exact fun hactive => hstays ⟨by rw [hinactive]; decide, hactive⟩

theorem assignTabletVehicle_eq_ok {authorized : Bool} {id : TabletId} {vehicleId : VehicleId}
    {effectiveAt : Option Time} (h : s.assignTabletVehicle authorized id vehicleId effectiveAt = .ok t) :
    ∃ tablet vehicle validFrom, s.fleet.tablets.find id = some tablet ∧ s.fleet.vehicles.find vehicleId = some vehicle ∧
      Delivery.validateTabletVehicle s.fleet tablet vehicle = .ok () ∧
      t = s.setFleet fun fleet => { fleet with
        assignments := (fleet.endAssignment id validFrom s.now).insert
          { tablet := id, vehicle := vehicleId, validFrom := validFrom } } := by
  simp only [Registry.assignTabletVehicle, bind_eq_ok, check_eq_ok, pure_eq_ok] at h
  obtain ⟨u, hu, -, rfl⟩ := h
  obtain ⟨d, ⟨tablet, vehicle, htablet, hvehicle, hvalid, rfl⟩, rfl⟩ :=
    Registry.onDelivery_eq_ok Delivery.assignTabletVehicle_spec hu
  exact ⟨tablet, vehicle, _, htablet, hvehicle, hvalid, rfl⟩

theorem assignTabletVehicle_taken {authorized : Bool} {id : TabletId} {vehicleId : VehicleId}
    {effectiveAt : Option Time} (h : s.assignTabletVehicle authorized id vehicleId effectiveAt = .ok t) :
    Taken settings s action t := by
  obtain ⟨tablet, vehicle, validFrom, htablet, hvehicle, hvalid, rfl⟩ := assignTabletVehicle_eq_ok h
  exact .kept (.of_eq rfl rfl rfl rfl rfl le_rfl rfl rfl) (.assigned htablet hvehicle hvalid)

/-! ### Adoptions -/

theorem requireOperationalTablet_eq_ok {id : TabletId} {tablet : Tablet} (h : s.requireOperationalTablet id tablet = .ok ()) :
    tablet.active = true ∧ (tablet.status = .inactive ∨ tablet.status = .active) :=
  Delivery.requireOperationalTablet_ok (lift_eq_ok.mp h)

theorem createAdoptionInvitation_taken {admin : DepartmentId → Bool} {id : TabletId} {expiresAt : Option Time}
    {token : Text} (h : s.createAdoptionInvitation settings admin id expiresAt token = .ok t) : Taken settings s action t := by
  simp only [Registry.createAdoptionInvitation, bind_eq_ok, check_eq_ok, pure_eq_ok, found_eq_ok] at h
  obtain ⟨tablet, htablet, -, a, hoperational, -, rfl⟩ := h
  obtain ⟨hactive, hstatus⟩ := requireOperationalTablet_eq_ok hoperational
  exact .invited htablet hactive hstatus

theorem invitationForToken_eq_ok {token : Text} {id : ℕ} {invitation : AdoptionInvitation}
    (h : s.invitationForToken settings token = .ok (id, invitation)) :
    s.invitations.find id = some invitation ∧ invitation.usedAt = none ∧ invitation.revokedAt = none ∧
      s.now < invitation.expiresAt := by
  unfold Registry.invitationForToken at h
  split at h
  · cases h
  · rename_i row hfirst
    split at h
    · cases h
    · rename_i husable
      cases h
      simp only [not_or, not_not, not_le] at husable
      exact ⟨(Table.first_eq_some hfirst).1, husable⟩

theorem createAdoptionRequest_eq_ok {token : Text} {installationUuid : InstallationUuid} {appVersion : String}
    {hpkePublicKey : Bytes} {hpkeCiphersuite : String} {nonce : Bytes}
    (h : s.createAdoptionRequest settings token installationUuid appVersion hpkePublicKey hpkeCiphersuite nonce = .ok t) :
    ∃ request invitation, s.invitations.find request.invitation = some invitation ∧ s.now < invitation.expiresAt ∧
      request.completedAt = none ∧ request.failedAttemptCount = 0 ∧ request.expiresAt = s.now + challengeDuration ∧
      t = { s with requests := s.requests.insert request } := by
  simp only [Registry.createAdoptionRequest, bind_eq_ok, check_eq_ok] at h
  obtain ⟨version, -, -, ⟨id, invitation⟩, hfound, tablet, -, -, -, publicKey, -, h⟩ := h
  obtain ⟨hinvitation, -, -, hunexpired⟩ := invitationForToken_eq_ok hfound
  dsimp only at h
  split at h
  · cases h
  · cases h
    exact ⟨_, invitation, hinvitation, hunexpired, rfl, rfl, rfl, rfl⟩

theorem completeSuccessfulAdoption_eq_ok {id : ℕ} {credential : Text} {installationId : InstallationId}
    (h : s.completeSuccessfulAdoption settings id credential = .ok (installationId, t)) :
    ∃ request invitation installation identity, Completes s id request invitation ∧
      installationId = s.identities.nextId ∧ installation.tablet = invitation.tablet ∧ installation.status = .active ∧
      identity.installationUuid = request.installationUuid ∧ t = s.adopted id request installation identity := by
  simp only [Registry.completeSuccessfulAdoption, bind_eq_ok, check_eq_ok, found_eq_ok, pure_eq_ok, Prod.mk.injEq,
    not_not, not_le, ge_iff_le] at h
  obtain ⟨request, hrequest, invitation, hinvitation, hopen, hunexpired, hattempts, hunused, hunrevoked, tablet, htablet, a,
    hoperational, hfresh, validUntil, -, u, hu, rfl, rfl⟩ := h
  obtain ⟨d, ⟨tablet', htablet', -, v, rfl, rfl⟩, rfl⟩ :=
    Registry.onDelivery_eq_ok Delivery.completeSuccessfulAdoption_spec hu
  obtain ⟨hactive, hstatus⟩ := requireOperationalTablet_eq_ok hoperational
  refine ⟨request, invitation, _, _, ⟨hrequest, hinvitation, hopen, hunexpired, hattempts, hunused, hunrevoked,
    ⟨tablet, htablet, hactive, hstatus⟩, fun i identity hi => ?_⟩, rfl, rfl, rfl, rfl, rfl⟩
  have hno := Table.any_eq_false.mp (Bool.not_eq_true _ ▸ hfresh) i identity hi
  simpa using hno

theorem replaySuccessfulCompletion_eq_ok {id : ℕ} {challengeResponse : Bytes} {credential : Text}
    {installationId : InstallationId}
    (h : s.replaySuccessfulCompletion settings id challengeResponse credential = .ok (installationId, t)) :
    ∃ request invitation installation, Replays s id challengeResponse request invitation installationId installation ∧
      t = { s with identities := s.identities.modify installationId fun i =>
        { i with credentialHash := settings.secretDigest credential } } := by
  simp only [Registry.replaySuccessfulCompletion, bind_eq_ok, found_eq_ok] at h
  obtain ⟨request, hrequest, invitation, hinvitation, h⟩ := h
  split at h
  · cases h
  · rename_i row identity hfirst
    obtain ⟨hidentity, huuid⟩ := Table.first_eq_some hfirst
    simp only [bind_eq_ok, found_eq_ok, check_eq_ok, pure_eq_ok, Prod.mk.injEq, not_or, not_not, ne_eq] at h
    obtain ⟨installation, hinstallation, ⟨hcompleted, hwindow, hvalid, hunrevoked, hresponse⟩, hcurrent, rfl, rfl⟩ := h
    simp only [not_forall, not_le] at hwindow
    obtain ⟨validUntil, hmem, hlt⟩ := hwindow
    refine ⟨request, invitation, installation, ⟨hrequest, hinvitation, ⟨identity, hidentity, by simpa using huuid⟩,
      hinstallation, ?_, hcompleted, ⟨validUntil, hmem, hlt⟩, hvalid, hunrevoked, hresponse⟩, rfl⟩
    revert hcurrent
    cases installation.status <;> simp [InstallationStatus.isCurrent]

/-! ### Check-ins -/

/-- A check-in may move the lease, the version and the health of a current installation. -/
theorem setInstallation_taken {id : InstallationId} {a b : AppInstallation} (ha : s.fleet.installations.find id = some a)
    (htablet : b.tablet = a.tablet) (hcurrent : a.status.isCurrent = true) (hcurrent' : b.status.isCurrent = true) :
    Taken settings s action (s.setInstallation id fun _ => b) := by
  refine .contacted (.modify (fun _ => .inl rfl) fun a' ha' => .inr ?_)
  rw [ha] at ha'
  cases ha'
  exact ⟨htablet, hcurrent, hcurrent'⟩

theorem updateAppTelemetry_columns (a : AppInstallation) (appVersion : Option String) :
    (Registry.updateAppTelemetry a appVersion).tablet = a.tablet ∧ (Registry.updateAppTelemetry a appVersion).status = a.status := by
  cases appVersion <;> exact ⟨rfl, rfl⟩

theorem renewLeaseIfDue_columns {a b : AppInstallation} {tablet : Tablet} (h : s.renewLeaseIfDue a tablet = .ok b) :
    b.tablet = a.tablet ∧ b.status = a.status := by
  unfold Registry.renewLeaseIfDue at h
  split at h
  · cases h
    exact ⟨rfl, rfl⟩
  · simp only [bind_eq_ok, pure_eq_ok] at h
    obtain ⟨target, -, rfl⟩ := h
    exact ⟨rfl, rfl⟩

theorem recoverStaleInstallation_columns {id : InstallationId} {a b : AppInstallation} {tablet : Tablet}
    (h : s.recoverStaleInstallation id a tablet = .ok b) : b.tablet = a.tablet ∧ b.status = .active := by
  simp only [Registry.recoverStaleInstallation, bind_eq_ok, check_eq_ok, pure_eq_ok] at h
  obtain ⟨-, -, -, target, -, rfl⟩ := h
  exact ⟨rfl, rfl⟩

theorem checkedIn_columns {id : InstallationId} {a b : AppInstallation} {appVersion : Option String}
    {minimum : Option Delivery.AppVersion} (h : s.checkedIn id a appVersion minimum = .ok b) :
    a.status.isCurrent = true ∧ b.tablet = a.tablet ∧ b.status.isCurrent = true := by
  simp only [Registry.checkedIn, bind_eq_ok, check_eq_ok, not_not] at h
  obtain ⟨hcurrent, tablet, -, h⟩ := h
  refine ⟨hcurrent, ?_⟩
  split at h
  · simp only [bind_eq_ok, check_eq_ok, pure_eq_ok] at h
    obtain ⟨department, -, -, -, -, rfl⟩ := h
    obtain ⟨ht, hst⟩ := updateAppTelemetry_columns a appVersion
    exact ⟨ht, hst ▸ hcurrent⟩
  · -- The lease may have run out; the version is stored before the compatibility check.
    generalize hmarked : (if a.status = .active ∧ a.authorizationValidUntil ≤ s.now then
      ({ a with status := .stale } : AppInstallation) else a) = marked at h
    have hcolumns : marked.tablet = a.tablet ∧ marked.status.isCurrent = true := by
      rw [← hmarked]
      split
      · exact ⟨rfl, rfl⟩
      · exact ⟨rfl, hcurrent⟩
    obtain ⟨ht, hst⟩ := updateAppTelemetry_columns marked appVersion
    generalize Registry.updateAppTelemetry marked appVersion = c at h ht hst
    simp only [bind_eq_ok] at h
    obtain ⟨blocked, -, h⟩ := h
    have hc : c.tablet = a.tablet ∧ c.status.isCurrent = true := ⟨ht.trans hcolumns.1, hst ▸ hcolumns.2⟩
    split at h
    · cases h
      exact hc
    · split at h
      · simp only [bind_eq_ok] at h
        obtain ⟨d, hd, h⟩ := h
        obtain ⟨hd, hactive⟩ := recoverStaleInstallation_columns hd
        obtain ⟨hb, hbst⟩ := renewLeaseIfDue_columns h
        refine ⟨hb.trans (hd.trans hc.1), ?_⟩
        rw [hbst, hactive]
        rfl
      · simp only [bind_eq_ok] at h
        obtain ⟨-, -, h⟩ := h
        obtain ⟨hb, hbst⟩ := renewLeaseIfDue_columns h
        exact ⟨hb.trans hc.1, hbst ▸ hc.2⟩

theorem authenticated_eq_ok {id : InstallationId} {credential : Text} {a : AppInstallation}
    (h : s.authenticated settings id credential = .ok a) : s.fleet.installations.find id = some a := by
  simp only [Registry.authenticated, bind_eq_ok, check_eq_ok, pure_eq_ok, found_eq_ok] at h
  obtain ⟨installation, hinstallation, -, -, -, rfl⟩ := h
  exact hinstallation

theorem checkIn_taken {id : InstallationId} {credential : Text} {appVersion : Option String}
    {minimum : Option Delivery.AppVersion} (h : s.checkIn settings id credential appVersion minimum = .ok t) :
    Taken settings s action t := by
  simp only [Registry.checkIn, bind_eq_ok, pure_eq_ok] at h
  obtain ⟨a, ha, b, hb, rfl⟩ := h
  obtain ⟨hcurrent, htablet, hcurrent'⟩ := checkedIn_columns hb
  exact setInstallation_taken (authenticated_eq_ok ha) htablet hcurrent hcurrent'

theorem refreshed_columns {a b : AppInstallation} {appVersion : Option String} {minimum : Option Delivery.AppVersion}
    (h : s.refreshed a appVersion minimum = .ok b) : a.status = .active ∧ b.tablet = a.tablet ∧ b.status = .active := by
  simp only [Registry.refreshed, bind_eq_ok, check_eq_ok, not_or, not_not] at h
  obtain ⟨⟨hactive, -⟩, tablet, -, -, -, -, target, -, blocked, -, h⟩ := h
  obtain ⟨ht, hst⟩ := updateAppTelemetry_columns a appVersion
  refine ⟨hactive, ?_⟩
  split at h
  · cases h
    exact ⟨ht, hst.trans hactive⟩
  · cases h
    exact ⟨ht, hst.trans hactive⟩

theorem refreshInstallationLease_taken {id : InstallationId} {credential : Text} {appVersion : Option String}
    {minimum : Option Delivery.AppVersion}
    (h : s.refreshInstallationLease settings id credential appVersion minimum = .ok t) : Taken settings s action t := by
  simp only [Registry.refreshInstallationLease, bind_eq_ok, pure_eq_ok] at h
  obtain ⟨a, ha, b, hb, rfl⟩ := h
  obtain ⟨hactive, htablet, hactive'⟩ := refreshed_columns hb
  exact setInstallation_taken (authenticated_eq_ok ha) htablet (by rw [hactive]; rfl) (by rw [hactive']; rfl)

theorem markStaleInstallations_taken {now : Time} (h : s.markStaleInstallations now = .ok t) : Taken settings s action t := by
  cases h
  refine .contacted (.map fun a => ?_)
  split
  · rename_i hexpired
    exact .inr ⟨rfl, by rw [hexpired.1]; rfl, rfl⟩
  · exact .inl rfl

/-! ### The asset lifecycle -/

theorem activateTablet_taken {admin : DepartmentId → Bool} {id : TabletId} (h : s.activateTablet admin id = .ok t) :
    Taken settings s action t := by
  obtain ⟨d, ⟨tablet, htablet, htransition, rfl⟩, rfl⟩ := Registry.onDelivery_eq_ok Delivery.activateTablet_spec h
  exact .transitioned htablet htransition (.inl rfl) fun hst => by cases hst

theorem deactivateTablet_taken {admin : DepartmentId → Bool} {id : TabletId} (h : s.deactivateTablet admin id = .ok t) :
    Taken settings s action t := by
  obtain ⟨d, ⟨tablet, htablet, htransition, rfl⟩, rfl⟩ := Registry.onDelivery_eq_ok Delivery.deactivateTablet_spec h
  exact .deactivated htablet htransition

theorem recoverTablet_taken {admin : DepartmentId → Bool} {id : TabletId} (h : s.recoverTablet admin id = .ok t) :
    Taken settings s (.recoverTablet admin id) t := by
  obtain ⟨d, ⟨tablet, htablet, hadmin, htransition, rfl⟩, rfl⟩ := Registry.onDelivery_eq_ok Delivery.recoverTablet_spec h
  exact .transitioned htablet htransition (.inr rfl) fun _ => ⟨admin, hadmin, rfl⟩

theorem markTabletLost_taken {admin : DepartmentId → Bool} {id : TabletId} (h : s.markTabletLost admin id = .ok t) :
    Taken settings s action t := by
  simp only [Registry.markTabletLost, bind_eq_ok, pure_eq_ok] at h
  obtain ⟨u, hu, rfl⟩ := h
  obtain ⟨d, ⟨tablet, htablet, htransition, rfl⟩, rfl⟩ := Registry.onDelivery_eq_ok Delivery.withdrawTablet_spec hu
  exact .withdrawn htablet htransition (.inl rfl)

theorem retireTablet_taken {admin : DepartmentId → Bool} {id : TabletId} (h : s.retireTablet admin id = .ok t) :
    Taken settings s action t := by
  simp only [Registry.retireTablet, bind_eq_ok, pure_eq_ok] at h
  obtain ⟨u, hu, rfl⟩ := h
  obtain ⟨d, ⟨tablet, htablet, htransition, rfl⟩, rfl⟩ := Registry.onDelivery_eq_ok Delivery.withdrawTablet_spec hu
  exact .withdrawn htablet htransition (.inr rfl)

theorem revokeInstallation_taken {admin : DepartmentId → Bool} {id : InstallationId}
    (h : s.revokeInstallation admin id = .ok t) : Taken settings s action t := by
  obtain ⟨d, ⟨installation, hinstallation, hcurrent, rfl⟩, rfl⟩ :=
    Registry.onDelivery_eq_ok Delivery.revokeInstallation_spec h
  exact .revoked hinstallation hcurrent

/-! ### Every step -/

theorem finishCompletion_taken {call : ℕ} {credential : Text} {c : Call} (hcall : s.calls.find call = some c) :
    Taken settings s (.finishCompletion call credential)
      ((s.finishCompletion settings c credential).1.setCall call (s.finishCompletion settings c credential).2) := by
  have hsame : ∀ answer, Taken settings s (.finishCompletion call credential) (s.setCall call answer) := fun _ =>
    .kept (.of_eq rfl rfl rfl rfl rfl le_rfl rfl rfl) .kept
  cases c with
  | complete id =>
    simp only [Registry.finishCompletion]
    split
    · rename_i installationId u h
      obtain ⟨request, invitation, installation, identity, hc, -, htablet, hstatus, hidentity, rfl⟩ :=
        completeSuccessfulAdoption_eq_ok h
      exact .adopted ⟨call, credential, rfl, hcall⟩ hc htablet hstatus hidentity
    · exact hsame .refused
  | replay id challengeResponse =>
    simp only [Registry.finishCompletion]
    split
    · rename_i installationId u h
      obtain ⟨request, invitation, installation, hr, rfl⟩ := replaySuccessfulCompletion_eq_ok h
      exact .replayed hr
    · exact hsame .refused
  | recordFailure id => exact .failed
  | answered installation => exact hsame (.answered installation)
  | refused => exact hsame .refused

theorem run_taken (hi : Publications.Inv s.delivery.db.core) (h : s.run settings action = .ok t) :
    Taken settings s action t := by
  cases action with
  | tick elapsed =>
    cases h
    exact .kept (.of_eq rfl rfl rfl rfl rfl (Nat.le_add_right _ _) rfl rfl) .kept
  | delivery deliverySettings a =>
    simp only [Registry.run] at h
    split at h
    · rename_i ha
      cases h
      exact isExternal_taken ha hi
    · cases h
      exact .kept (.refl s) .kept
  | editDepartments departments policies features minimumAppVersion =>
    simp only [Registry.run] at h
    split at h
    · cases h
      exact .kept (.of_eq rfl rfl rfl rfl rfl le_rfl rfl rfl) .kept
    · cases h
  | editPersonnel stations =>
    cases h
    exact .kept (.of_eq rfl rfl rfl rfl rfl le_rfl rfl rfl) .kept
  | createTablet admin department displayName assetNumber => exact createTablet_taken h
  | createAdoptionInvitation admin id expiresAt token => exact createAdoptionInvitation_taken h
  | createAdoptionRequest token installationUuid appVersion hpkePublicKey hpkeCiphersuite nonce =>
    obtain ⟨request, invitation, hinvitation, -, hopen, hcount, -, rfl⟩ := createAdoptionRequest_eq_ok h
    exact .requested (by rw [hinvitation]; rfl) hopen hcount
  | beginCompletion id challengeResponse confirmed =>
    simp only [Registry.run, bind_eq_ok, pure_eq_ok] at h
    obtain ⟨call, -, rfl⟩ := h
    exact .kept (.of_eq rfl rfl rfl rfl rfl le_rfl rfl rfl) .kept
  | finishCompletion call credential =>
    simp only [Registry.run, bind_eq_ok, pure_eq_ok, found_eq_ok] at h
    obtain ⟨c, hc, rfl⟩ := h
    exact finishCompletion_taken hc
  | checkIn id credential appVersion minimum => exact checkIn_taken h
  | refreshInstallationLease id credential appVersion minimum => exact refreshInstallationLease_taken h
  | markStaleInstallations now => exact markStaleInstallations_taken h
  | activateTablet admin id => exact activateTablet_taken h
  | deactivateTablet admin id => exact deactivateTablet_taken h
  | markTabletLost admin id => exact markTabletLost_taken h
  | recoverTablet admin id => exact recoverTablet_taken h
  | retireTablet admin id => exact retireTablet_taken h
  | revokeInstallation admin id => exact revokeInstallation_taken h
  | createStation admin department details active =>
    simp only [Registry.run, Registry.createStation, bind_eq_ok, check_eq_ok, pure_eq_ok] at h
    obtain ⟨-, -, -, rfl⟩ := h
    exact .kept (.of_eq rfl rfl rfl rfl rfl le_rfl rfl rfl) .stationCreated
  | updateStation admin id details active => exact updateStation_taken h
  | deactivateStation id => exact deactivateStation_taken h
  | createVehicle admin department station seenActive details active => exact createVehicle_taken h
  | updateVehicle admin id details active => exact updateVehicle_taken h
  | retireVehicle admin id => exact retireVehicle_taken h
  | assignTabletVehicle authorized id vehicle effectiveAt => exact assignTabletVehicle_taken h

theorem step_taken (hi : Publications.Inv s.delivery.db.core) (action : Action) :
    Taken settings s action (s.step settings action) := by
  unfold Registry.step
  cases h : s.run settings action with
  | ok t => exact run_taken hi h
  | error e => exact .kept (.refl s) .kept

/-! ### What every step keeps -/

/-- An installation stays with its tablet, and ended ones stay as they are. -/
def InstallationKept (a b : AppInstallation) : Prop :=
  b.tablet = a.tablet ∧ (a.status.isCurrent = false → b.status = a.status)

/-- The status of a tablet stays, or moves along the transitions of assets. -/
def TabletKept (a b : Tablet) : Prop :=
  b.department = a.department ∧ (b.status = a.status ∨ assetTransition a.status b.status = true)

/-- An invitation is for its tablet; uses and revocations stay, and failures only grow. -/
structure InvitationKept (v w : AdoptionInvitation) : Prop where
  tablet : w.tablet = v.tablet
  expiresAt : w.expiresAt = v.expiresAt
  used : v.usedAt ≠ none → w.usedAt = v.usedAt
  revoked : v.revokedAt ≠ none → w.revokedAt ≠ none
  failures : v.failedAttemptCount ≤ w.failedAttemptCount
  limit : w.failedAttemptCount = v.failedAttemptCount ∨
    (maxFailedAttempts ≤ w.failedAttemptCount → w.revokedAt ≠ none)

/-- A request is for its invitation and its identity; a completion stays, and so does its end. -/
structure RequestKept (r q : AdoptionRequest) : Prop where
  invitation : q.invitation = r.invitation
  installationUuid : q.installationUuid = r.installationUuid
  expiresAt : q.expiresAt = r.expiresAt
  completed : r.completedAt ≠ none → q.completedAt = r.completedAt ∧
    q.completionReplayValidUntil = r.completionReplayValidUntil ∧ q.failedAttemptCount = r.failedAttemptCount
  invalidated : r.completionReplayInvalidatedAt ≠ none → q.completionReplayInvalidatedAt ≠ none
  failures : r.failedAttemptCount ≤ q.failedAttemptCount

theorem InvitationKept.refl (v : AdoptionInvitation) : InvitationKept v v :=
  ⟨rfl, rfl, fun _ => rfl, id, le_rfl, .inl rfl⟩

theorem RequestKept.refl (r : AdoptionRequest) : RequestKept r r := ⟨rfl, rfl, rfl, fun _ => ⟨rfl, rfl, rfl⟩, id, le_rfl⟩

theorem InstallationKept.refl (a : AppInstallation) : InstallationKept a a := ⟨rfl, fun _ => rfl⟩

theorem InstallationKept.trans {a b c : AppInstallation} (h : InstallationKept a b) (h' : InstallationKept b c) :
    InstallationKept a c := by
  refine ⟨h'.1.trans h.1, fun hended => ?_⟩
  have hb := h.2 hended
  exact (h'.2 (hb ▸ hended)).trans hb

theorem TabletKept.refl (a : Tablet) : TabletKept a a := ⟨rfl, .inl rfl⟩

/-- A failed proof counts while its request is open, or changes nothing. -/
theorem recordFailedAttempt_cases (s : Registry) (id : ℕ) : s.recordFailedAttempt id = s ∨
    ∃ request, s.requests.find id = some request ∧ request.completedAt = none ∧ s.now < request.expiresAt ∧
      s.recordFailedAttempt id = { s with
        requests := s.requests.modify id fun r => { r with failedAttemptCount := r.failedAttemptCount + 1 }
        invitations := s.invitations.modify request.invitation (Registry.AdoptionInvitation.failed s.now) } := by
  unfold Registry.recordFailedAttempt
  split
  · exact .inl rfl
  · rename_i request hrequest
    split
    · exact .inl rfl
    · rename_i hopen
      simp only [not_or, not_not, not_le] at hopen
      exact .inr ⟨request, hrequest, hopen.1, hopen.2, rfl⟩

theorem endInstallations_kept (fleet : Fleet) (id : TabletId) (status : InstallationStatus) : Table.Evolve InstallationKept
    (fun _ => False) fleet.installations (fleet.endInstallations id status).installations := by
  refine .map fun a => ?_
  split
  · rename_i hcurrent
    exact ⟨rfl, fun hended => absurd hcurrent.2 (by rw [hended]; decide)⟩
  · exact .refl a

/-- No adoption is completed. -/
structure Unadopted (s t : Registry) : Prop where
  installations : Table.Evolve InstallationKept (fun _ => False) s.fleet.installations t.fleet.installations
  identities : Table.Evolve (fun a b : Identity => b.installationUuid = a.installationUuid) (fun _ => False)
    s.identities t.identities
  completions : ∀ i r, t.requests.find i = some r → r.completedAt ≠ none →
    ∃ r₀, s.requests.find i = some r₀ ∧ r₀.completedAt ≠ none

/-- An adoption is completed by the transaction of a call. -/
structure Adopts (s : Registry) (action : Action) (t : Registry) (id : ℕ) (request : AdoptionRequest)
    (invitation : AdoptionInvitation) (installation : AppInstallation) (identity : Identity) : Prop where
  call : CompletesBy s action id
  completes : Completes s id request invitation
  tablet : installation.tablet = invitation.tablet
  status : installation.status = .active
  uuid : identity.installationUuid = request.installationUuid
  state : ∃ calls, t = { s.adopted id request installation identity with calls := calls }

theorem Unadopted.of_eq (hinstallations : Table.Evolve InstallationKept (fun _ => False) s.fleet.installations
    t.fleet.installations) (hidentities : t.identities = s.identities) (hrequests : t.requests = s.requests) :
    Unadopted s t where
  installations := hinstallations
  identities := hidentities ▸ .refl fun _ => rfl
  completions _ r hr hcompleted := ⟨r, hrequests ▸ hr, hcompleted⟩

theorem Taken.adoption (h : Taken settings s action t) :
    Unadopted s t ∨ ∃ id request invitation installation identity, Adopts s action t id request invitation installation identity := by
  have hsame : Table.Evolve InstallationKept (fun _ => False) s.fleet.installations s.fleet.installations :=
    .refl InstallationKept.refl
  cases h with
  | kept h => exact .inl (.of_eq (h.installations ▸ hsame) h.identities h.requests)
  | requested hinvitation hopen hcount =>
    refine .inl ⟨hsame, .refl fun _ => rfl, fun i r hr hcompleted => ?_⟩
    rw [Table.find_insert] at hr
    split at hr
    · cases hr
      exact absurd hopen hcompleted
    · exact ⟨r, hr, hcompleted⟩
  | @failed id calls =>
    rcases recordFailedAttempt_cases s id with he | ⟨request, -, -, -, he⟩
    · rw [he]
      exact .inl (.of_eq hsame rfl rfl)
    · rw [he]
      refine .inl ⟨hsame, .refl fun _ => rfl, fun i r hr hcompleted => ?_⟩
      simp only [Table.find_modify] at hr
      split at hr
      · obtain ⟨r₀, hr₀, rfl⟩ := Option.map_eq_some_iff.mp hr
        exact ⟨r₀, hr₀, hcompleted⟩
      · exact ⟨r, hr, hcompleted⟩
  | @adopted id request invitation installation identity calls hcall h htablet hstatus hidentity =>
    exact .inr ⟨id, request, invitation, installation, identity, hcall, h, htablet, hstatus, hidentity, calls, rfl⟩
  | @replayed id challengeResponse request invitation installationId installation credentialHash calls h =>
    refine .inl ⟨hsame, ?_, fun i r hr hcompleted => ⟨r, hr, hcompleted⟩⟩
    apply Table.Evolve.modify
    · exact fun _ => rfl
    · exact fun _ _ => rfl
  | contacted h =>
    refine .inl (.of_eq (h.imp fun a b hab => ?_) rfl rfl)
    rcases hab with rfl | ⟨htablet, hcurrent, -⟩
    · exact .refl b
    · exact ⟨htablet, fun hended => absurd hcurrent (by rw [hended]; decide)⟩
  | @deactivated id tablet reason htablet htransition =>
    refine .inl (.of_eq ?_ rfl rfl)
    change Table.Evolve _ _ _ (Delivery.State.withStatus _ id .inactive true).fleet.installations
    rw [Delivery.fleet_withStatus, Delivery.fleet_obsoleteManifests, Delivery.fleet_revokeInstallations]
    exact hsame
  | @withdrawn id tablet status htablet htransition hstatus =>
    refine .inl ⟨?_, .refl fun _ => rfl, fun i r hr hcompleted => ?_⟩
    · change Table.Evolve _ _ _ ((s.delivery.revokeTabletInstallations id s.now).withStatus id status false).fleet.installations
      rw [Delivery.fleet_withStatus, Delivery.fleet_revokeTabletInstallations]
      exact endInstallations_kept s.fleet id .revoked
    · simp only [Registry.revokeAdoptions, Table.find_map] at hr
      obtain ⟨r₀, hr₀, rfl⟩ := Option.map_eq_some_iff.mp hr
      refine ⟨r₀, hr₀, ?_⟩
      split at hcompleted <;> exact hcompleted
  | @revoked id installation hinstallation hcurrent =>
    refine .inl (.of_eq (.modify InstallationKept.refl fun a ha => ⟨rfl, fun hended => ?_⟩) rfl rfl)
    rw [hinstallation] at ha
    cases ha
    rw [hcurrent] at hended
    cases hended
  | _ => exact .inl (.of_eq hsame rfl rfl)

/-- The installations an adoption leaves. -/
theorem Adopts.installations {id : ℕ} {request : AdoptionRequest} {invitation : AdoptionInvitation}
    {installation : AppInstallation} {identity : Identity} (h : Adopts s action t id request invitation installation identity) :
    t.fleet.installations = (s.fleet.adopted installation).installations := by
  obtain ⟨calls, rfl⟩ := h.state
  change (Delivery.State.revokeInstallations _ s.now _).fleet.installations = _
  rw [Delivery.fleet_revokeInstallations]
  rfl

section Adopts

variable {id : ℕ} {request : AdoptionRequest} {invitation : AdoptionInvitation} {installation : AppInstallation}
  {identity : Identity}

theorem Adopts.identities (h : Adopts s action t id request invitation installation identity) :
    t.identities = s.identities.insert identity := by
  obtain ⟨calls, rfl⟩ := h.state
  rfl

/-- The adopted request is completed, and no other changes. -/
theorem Adopts.request_cases (h : Adopts s action t id request invitation installation identity) {i : ℕ} {r : AdoptionRequest}
    (hr : t.requests.find i = some r) : i ≠ id ∧ s.requests.find i = some r ∨
      i = id ∧ r = { request with
        completedAt := some s.now, completionReplayValidUntil := some (s.now + completionReplayDuration) } := by
  obtain ⟨calls, rfl⟩ := h.state
  simp only [Registry.adopted, Table.find_modify] at hr
  split at hr
  · subst_vars
    rw [h.completes.requestRow, Option.map_some, Option.some.injEq] at hr
    exact .inr ⟨rfl, hr.symm⟩
  · exact .inl ⟨Ne.symm ‹_›, hr⟩

/-- Its invitation is used, and no other changes. -/
theorem Adopts.invitation_cases (h : Adopts s action t id request invitation installation identity) {i : ℕ}
    {v : AdoptionInvitation} (hv : t.invitations.find i = some v) : i ≠ request.invitation ∧ s.invitations.find i = some v ∨
      i = request.invitation ∧ v = { invitation with usedAt := some s.now } := by
  obtain ⟨calls, rfl⟩ := h.state
  simp only [Registry.adopted, Table.find_modify] at hv
  split at hv
  · subst_vars
    rw [h.completes.invitationRow, Option.map_some, Option.some.injEq] at hv
    exact .inr ⟨rfl, hv.symm⟩
  · exact .inl ⟨Ne.symm ‹_›, hv⟩

end Adopts

theorem Taken.installations (h : Taken settings s action t) : Table.Evolve InstallationKept
    (fun a => ∃ tablet, s.fleet.tablets.find a.tablet = some tablet ∧ tablet.active = true)
    s.fleet.installations t.fleet.installations := by
  rcases h.adoption with h | ⟨id, request, invitation, installation, identity, h⟩
  · exact h.installations.mono fun _ hf => hf.elim
  · rw [h.installations]
    obtain ⟨tablet, htablet, hactive, -⟩ := h.completes.inService
    rw [← h.tablet] at htablet
    refine .trans InstallationKept.trans ?_ ((endInstallations_kept s.fleet installation.tablet .replaced).mono
      fun _ hf => hf.elim) (.insert InstallationKept.refl ⟨tablet, htablet, hactive⟩)
    rintro a b ⟨tablet, htablet, hactive⟩ hab
    exact ⟨tablet, by rw [hab.1]; exact htablet, hactive⟩

/-- The identity of an installation is given for ever. -/
theorem Taken.identities (h : Taken settings s action t) :
    Table.Evolve (fun a b : Identity => b.installationUuid = a.installationUuid) (fun _ => True) s.identities t.identities := by
  rcases h.adoption with h | ⟨id, request, invitation, installation, identity, h⟩
  · exact h.identities.mono fun _ _ => trivial
  · rw [h.identities]
    apply Table.Evolve.insert
    · exact fun _ => rfl
    · trivial

theorem Taken.tablets (h : Taken settings s action t) :
    Table.Evolve TabletKept (fun a => a.status = .inactive ∧ a.active = true) s.fleet.tablets t.fleet.tablets := by
  have hsame : t.fleet.tablets = s.fleet.tablets →
      Table.Evolve TabletKept (fun a => a.status = .inactive ∧ a.active = true) s.fleet.tablets t.fleet.tablets :=
    fun he => he ▸ .refl TabletKept.refl
  have hmoved : ∀ {id : TabletId} {tablet : Tablet} {status : TabletStatus} {active : Bool},
      s.fleet.tablets.find id = some tablet → assetTransition tablet.status status = true →
      Table.Evolve TabletKept (fun a => a.status = .inactive ∧ a.active = true) s.fleet.tablets
        (s.fleet.tablets.modify id fun row => { row with status := status, active := active }) := by
    intro id tablet status active htablet htransition
    refine .modify TabletKept.refl fun a ha => ⟨rfl, .inr ?_⟩
    rw [htablet] at ha
    cases ha
    exact htransition
  cases h with
  | kept h => exact hsame h.tablets
  | tabletCreated => exact .insert TabletKept.refl ⟨rfl, rfl⟩
  | @failed id calls =>
    rcases recordFailedAttempt_cases s id with he | ⟨request, -, -, -, he⟩ <;> exact hsame (by rw [he]; rfl)
  | adopted =>
    refine hsame ?_
    change (Delivery.State.revokeInstallations _ s.now _).fleet.tablets = _
    rw [Delivery.fleet_revokeInstallations]
    rfl
  | transitioned htablet htransition hstatus haction => exact hmoved htablet htransition
  | @deactivated id tablet reason htablet htransition =>
    change Table.Evolve _ _ _ (Delivery.State.withStatus _ id .inactive true).fleet.tablets
    rw [Delivery.fleet_withStatus, Delivery.fleet_obsoleteManifests, Delivery.fleet_revokeInstallations]
    exact hmoved htablet htransition
  | @withdrawn id tablet status htablet htransition hstatus =>
    change Table.Evolve _ _ _ ((s.delivery.revokeTabletInstallations id s.now).withStatus id status false).fleet.tablets
    rw [Delivery.fleet_withStatus, Delivery.fleet_revokeTabletInstallations]
    exact hmoved htablet htransition
  | _ => exact hsame rfl

theorem Taken.invitations (h : Taken settings s action t) : Table.Evolve InvitationKept
    (fun v => v.usedAt = none ∧ v.revokedAt = none ∧ v.failedAttemptCount = 0 ∧
      ∃ tablet, s.fleet.tablets.find v.tablet = some tablet ∧ tablet.active = true)
    s.invitations t.invitations := by
  cases h with
  | kept h => exact h.invitations ▸ .refl InvitationKept.refl
  | invited htablet hactive hstatus => exact .insert InvitationKept.refl ⟨rfl, rfl, rfl, _, htablet, hactive⟩
  | @failed id calls =>
    rcases recordFailedAttempt_cases s id with he | ⟨request, -, -, -, he⟩
    · rw [he]
      exact .refl InvitationKept.refl
    · rw [he]
      refine .modify InvitationKept.refl fun v _ =>
        ⟨rfl, rfl, fun _ => rfl, fun hrevoked => ?_, Nat.le_succ _, .inr fun hlimit => ?_⟩
      · simp only [Registry.AdoptionInvitation.failed]
        split
        · simp
        · exact hrevoked
      · simp only [Registry.AdoptionInvitation.failed] at hlimit ⊢
        rw [if_pos hlimit]
        simp
  | @adopted id request invitation installation identity calls hcall h htablet hstatus hidentity =>
    refine .modify InvitationKept.refl fun v hv => ⟨rfl, rfl, fun hused => ?_, fun hrevoked => hrevoked, le_rfl, .inl rfl⟩
    rw [h.invitationRow] at hv
    cases hv
    exact absurd h.unused hused
  | withdrawn htablet htransition hstatus =>
    refine .map fun v => ?_
    split
    · rename_i hopen
      exact ⟨rfl, rfl, fun _ => rfl, fun _ => by simp, le_rfl, .inl rfl⟩
    · exact .refl v
  | _ => exact .refl InvitationKept.refl

theorem Taken.requests (h : Taken settings s action t) : Table.Evolve RequestKept
    (fun r => r.completedAt = none ∧ r.failedAttemptCount = 0 ∧ (s.invitations.find r.invitation).isSome = true)
    s.requests t.requests := by
  cases h with
  | kept h => exact h.requests ▸ .refl RequestKept.refl
  | requested hinvitation hopen hcount => exact .insert RequestKept.refl ⟨hopen, hcount, hinvitation⟩
  | @failed id calls =>
    rcases recordFailedAttempt_cases s id with he | ⟨request, hrequest, hopen, -, he⟩
    · rw [he]
      exact .refl RequestKept.refl
    · rw [he]
      refine .modify RequestKept.refl fun r hr => ⟨rfl, rfl, rfl, fun hcompleted => ?_, fun h => h, Nat.le_succ _⟩
      rw [hrequest] at hr
      cases hr
      exact absurd hopen hcompleted
  | @adopted id request invitation installation identity calls hcall h htablet hstatus hidentity =>
    refine .modify RequestKept.refl fun r hr => ⟨rfl, rfl, rfl, fun hcompleted => ?_, fun h => h, le_rfl⟩
    rw [h.requestRow] at hr
    cases hr
    exact absurd h.incomplete hcompleted
  | withdrawn htablet htransition hstatus =>
    refine .map fun r => ?_
    split
    · exact ⟨rfl, rfl, rfl, fun _ => ⟨rfl, rfl, rfl⟩, fun _ => by simp, le_rfl⟩
    · exact .refl r
  | _ => exact .refl RequestKept.refl

theorem Taken.now_le (h : Taken settings s action t) : s.now ≤ t.now := by
  cases h with
  | kept h => exact h.now
  | @failed id calls =>
    rcases recordFailedAttempt_cases s id with he | ⟨request, -, -, -, he⟩ <;> rw [he]
  | _ => exact Nat.le_refl s.now

/-! ### Invariants of every run -/

theorem Taken.lifecycle (h : Taken settings s action t) (hi : Publications.Inv s.delivery.db.core) :
    Publications.Inv t.delivery.db.core := by
  have hfailed : ∀ id, (s.recordFailedAttempt id).delivery = s.delivery := by
    intro id
    unfold Registry.recordFailedAttempt
    split
    · rfl
    · split <;> rfl
  have hrevoked : ∀ (d : Delivery.State) l, d.db.core = s.delivery.db.core →
      Publications.Inv (d.revokeInstallations s.now l).db.core := by
    intro d l hd
    rw [Delivery.core_revokeInstallations, hd]
    exact hi
  cases h with
  | kept h => exact h.lifecycle hi
  | failed =>
    change Publications.Inv (s.recordFailedAttempt _).delivery.db.core
    rw [hfailed]
    exact hi
  | adopted => exact hrevoked _ _ rfl
  | deactivated => exact hrevoked _ _ rfl
  | withdrawn => exact hrevoked _ _ rfl
  | _ => exact hi

/-- Invariant rule of the tablet system: every kind of step that meets the condition keeps what
holds at the start. -/
theorem tabletSystem_invariantBy {C : Registry → Action → Prop} {I : Registry → Prop}
    (hinit : ∀ s, (tabletSystem settings).init s → I s)
    (hstep : ∀ s action t, (tabletSystem settings).Reachable s → I s → C s action → Taken settings s action t → I t)
    (h : (tabletSystem settings).ReachableBy C s) : Publications.Inv s.delivery.db.core ∧ I s := by
  refine h.invariant (I := fun s : Registry => Publications.Inv s.delivery.db.core ∧ I s) ?_ ?_
  · exact fun s hs => ⟨hs.1.inv, hinit s hs⟩
  · rintro s action t hreach ⟨hi, hI⟩ hC rfl
    have htaken : Taken settings s action (s.step settings action) := step_taken hi action
    exact ⟨htaken.lifecycle hi, hstep s action _ hreach hI hC htaken⟩

theorem tabletSystem_invariant {I : Registry → Prop} (hinit : ∀ s, (tabletSystem settings).init s → I s)
    (hstep : ∀ s action t, I s → Taken settings s action t → I t) (h : (tabletSystem settings).Reachable s) :
    Publications.Inv s.delivery.db.core ∧ I s := by
  obtain ⟨s₀, trace, hrun⟩ := h
  exact tabletSystem_invariantBy (C := fun _ _ => True) hinit (fun s action t _ hI _ ht => hstep s action t hI ht)
    ⟨s₀, trace, hrun, fun _ _ => trivial⟩

end FireDash.Tablets
