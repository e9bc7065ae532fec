import FireDash.Delivery.Documents

/-! The services of the tablet fleet: the lifecycle of tablet assets, their installations and
vehicle assignments, and what each of them withdraws from delivery. -/
namespace FireDash.Delivery

open Publications

/-! ### Lookups and row edits -/

/-- `ASSET_TRANSITIONS`. -/
def assetTransition : TabletStatus → TabletStatus → Bool
  | .inactive, q => q ∈ [TabletStatus.active, .lost, .retired]
  | .active, q => q ∈ [TabletStatus.inactive, .lost, .retired]
  | .lost, q => q = .inactive
  | .retired, _ => false

namespace Fleet

/-- The installations of a tablet selected by their status. -/
def installationsOf (fleet : Fleet) (tablet : TabletId) (select : InstallationStatus → Bool) :
    List InstallationId :=
  (fleet.installations.filter fun a => a.tablet = tablet ∧ select a.status).map Prod.fst

/-- An assignment in force puts the tablet on an operational vehicle of its department. -/
def hasCurrentOperationalAssignment (fleet : Fleet) (id : TabletId) (tablet : Tablet) (now : Time) : Bool :=
  fleet.assignments.any fun a => a.tablet = id ∧ a.coversAt now ∧
    ∃ v ∈ fleet.operationalVehicle a.vehicle, v.department = tablet.department

def modifyTablet (fleet : Fleet) (id : TabletId) (f : Tablet → Tablet) : Fleet :=
  { fleet with tablets := fleet.tablets.modify id f }

/-- Move the current installations of a tablet to another status. -/
def endInstallations (fleet : Fleet) (tablet : TabletId) (status : InstallationStatus) : Fleet :=
  { fleet with installations := ⟨fleet.installations.rows.map fun a =>
      if a.tablet = tablet ∧ a.status.isCurrent then { a with status := status } else a⟩ }

/-- The foreign keys of installations and tablets name existing rows. -/
def wellFormed (fleet : Fleet) : Bool :=
  (fleet.installations.rows.all fun a => (fleet.tablets.find a.tablet).isSome) ∧
    fleet.tablets.rows.all fun t => (fleet.departments.find t.department).isSome

end Fleet

namespace State

def modifyFleet (s : State) (f : Fleet → Fleet) : State := { s with fleet := f s.fleet }

/-- Make prior grant material of several installations unusable. -/
def revokeInstallations (s : State) (now : Time) (installations : List InstallationId) : State :=
  installations.foldl (fun s id => s.revokeDatasetKeyGrants now id) s

/-- A formerly operational signed manifest must not be reused. -/
def obsoleteManifests (s : State) (now : Time) (reason : String) (installations : List InstallationId) : State :=
  { s with signedManifests := ⟨s.signedManifests.rows.map fun m =>
      if m.appInstallation ∈ installations then
        { m with status := .obsolete, completedAt := some now, errorMessage := reason }
      else m⟩ }

end State

/-! ### The asset lifecycle -/

/-- The locked tablet, for an administrator of its department and a transition it may take. -/
def transitionedTablet (admin : DepartmentId → Bool) (id : TabletId) (status : TabletStatus) : Service Tablet := do
  let s ← Tx.get
  let tablet ← Tx.require (s.fleet.tablets.find id) .doesNotExist
  Tx.ensure (admin tablet.department) .permissionDenied
  Tx.ensure (assetTransition tablet.status status)
    (.tabletError "This lifecycle transition is not available for the tablet.")
  return tablet

/-- Commission a known asset back into operational service. -/
def activateTablet (admin : DepartmentId → Bool) (id : TabletId) (now : Time) : Service Unit :=
  Tx.atomic do
    let tablet ← transitionedTablet admin id .active
    let s ← Tx.get
    let department ← Tx.require (s.fleet.departments.find tablet.department) .doesNotExist
    Tx.ensure (department.status = .active ∧ tablet.active)
      (.tabletError "Tablet department must be active before activation.")
    Tx.ensure (s.fleet.installationsOf id InstallationStatus.isCurrent ≠ [])
      (.tabletError "Tablet requires a current installation before it can be activated.")
    Tx.ensure (s.fleet.hasCurrentOperationalAssignment id tablet now)
      (.tabletError "Tablet requires a current active vehicle assignment before activation.")
    Tx.modify fun s => s.modifyFleet fun fleet =>
      fleet.modifyTablet id fun row => { row with status := .active, active := true }

/-- Withdraw operational access without revoking identity. -/
def deactivateTablet (admin : DepartmentId → Bool) (id : TabletId) (now : Time) : Service Unit :=
  Tx.atomic do
    let _ ← transitionedTablet admin id .inactive
    let s ← Tx.get
    let current := s.fleet.installationsOf id InstallationStatus.isCurrent
    Tx.modify fun s => (s.revokeInstallations now current).obsoleteManifests now "Tablet asset was deactivated." current
    Tx.modify fun s => s.modifyFleet fun fleet =>
      fleet.modifyTablet id fun row => { row with status := .inactive, active := true }

/-- `_revoke_tablet_installations`: every revoked installation of the tablet loses its grants. -/
def State.revokeTabletInstallations (s : State) (id : TabletId) (now : Time) : State :=
  let s := s.modifyFleet fun fleet => fleet.endInstallations id .revoked
  s.revokeInstallations now (s.fleet.installationsOf id (· = .revoked))

/-- Withdraw a tablet from service with its installations. -/
def withdrawTablet (status : TabletStatus) (admin : DepartmentId → Bool) (id : TabletId) (now : Time) :
    Service Unit :=
  Tx.atomic do
    let _ ← transitionedTablet admin id status
    Tx.modify fun s => s.revokeTabletInstallations id now
    Tx.modify fun s => s.modifyFleet fun fleet =>
      fleet.modifyTablet id fun row => { row with status := status, active := false }

def markTabletLost (admin : DepartmentId → Bool) (id : TabletId) (now : Time) : Service Unit :=
  withdrawTablet .lost admin id now

def retireTablet (admin : DepartmentId → Bool) (id : TabletId) (now : Time) : Service Unit :=
  withdrawTablet .retired admin id now

/-- A found tablet returns to stock; the transition table also admits an active one. -/
def recoverTablet (admin : DepartmentId → Bool) (id : TabletId) : Service Unit :=
  Tx.atomic do
    let _ ← transitionedTablet admin id .inactive
    Tx.modify fun s => s.modifyFleet fun fleet =>
      fleet.modifyTablet id fun row => { row with status := .inactive, active := true }

/-! ### Installations -/

/-- Revoke one current installation without changing the tablet asset. -/
def revokeInstallation (admin : DepartmentId → Bool) (id : InstallationId) (now : Time) : Service Unit :=
  Tx.atomic do
    let s ← Tx.get
    let installation ← Tx.require (s.fleet.installations.find id) .doesNotExist
    let tablet ← Tx.require (s.fleet.tablets.find installation.tablet) .doesNotExist
    Tx.ensure (admin tablet.department) .permissionDenied
    Tx.ensure installation.status.isCurrent (.tabletError "Only a current installation can be revoked.")
    Tx.modify fun s => s.modifyFleet fun fleet =>
      { fleet with installations := fleet.installations.modify id fun row => { row with status := .revoked } }
    Tx.modify fun s => s.revokeDatasetKeyGrants now id

/-- The prerequisites of an adoption, which is allowed while the asset is inactive. -/
def requireOperationalTablet (fleet : Fleet) (id : TabletId) (tablet : Tablet) (now : Time) : Except Error Unit := do
  let department ← found (fleet.departments.find tablet.department)
  if department.status ≠ .active ∨ ¬tablet.active then
    throw (.tabletError "Tablet department must be active.")
  if tablet.status ≠ .inactive ∧ tablet.status ≠ .active then
    throw (.tabletError "Tablet cannot be adopted.")
  if ¬fleet.hasCurrentOperationalAssignment id tablet now then
    throw (.tabletError "Tablet requires a current active vehicle assignment.")

/-- The fleet writes of an adoption whose request and invitation are valid: the current
installations are replaced by a new one. -/
def completeSuccessfulAdoption (id : TabletId) (appVersion : String) (hpkePublicKey : Bytes)
    (leaseTarget now : Time) : Service Unit :=
  Tx.atomic do
    let s ← Tx.get
    let tablet ← Tx.require (s.fleet.tablets.find id) .doesNotExist
    Tx.ofExcept (requireOperationalTablet s.fleet id tablet now)
    let installation : AppInstallation :=
      { tablet := id
        appVersion := appVersion
        hpkePublicKey := hpkePublicKey
        authorizationValidUntil := leaseTarget }
    Tx.modify fun s => s.modifyFleet fun fleet =>
      let fleet := fleet.endInstallations id .replaced
      { fleet with installations := fleet.installations.insert installation }
    let s ← Tx.get
    let replaced := s.fleet.installationsOf id (· = .replaced)
    Tx.modify fun s => s.revokeInstallations now replaced

/-- Installation health only; the asset state is unchanged. -/
def markStaleInstallations (now : Time) : Service Unit :=
  Tx.modify fun s => s.modifyFleet fun fleet =>
    { fleet with installations := ⟨fleet.installations.rows.map fun a =>
        if a.status = .active ∧ a.authorizationValidUntil ≤ now then { a with status := .stale } else a⟩ }

/-! ### Vehicles and assignments -/

/-- End an open assignment. -/
def TabletVehicleAssignment.finished (validUntil now : Time) (a : TabletVehicleAssignment) :
    TabletVehicleAssignment :=
  { a with validUntil := some validUntil, endedAt := some now }

/-- Terminally retire a vehicle and end its open assignments. -/
def retireVehicle (admin : DepartmentId → Bool) (id : VehicleId) (now : Time) : Service Unit :=
  Tx.atomic do
    let s ← Tx.get
    let vehicle ← Tx.require (s.fleet.vehicles.find id) .doesNotExist
    Tx.ensure (admin vehicle.department) .permissionDenied
    Tx.ensure vehicle.active (.assignmentError "Vehicle is already retired.")
    let ended := (s.fleet.assignments.filter fun a => a.vehicle = id ∧ a.isOpen).map fun e => e.2.tablet
    Tx.modify fun s => s.modifyFleet fun fleet =>
      { fleet with assignments := ⟨fleet.assignments.rows.map fun a =>
          if a.vehicle = id ∧ a.isOpen then a.finished now now else a⟩ }
    Tx.modify fun s => s.revokeInstallations now
      (ended.flatMap fun tablet => s.fleet.installationsOf tablet InstallationStatus.isCurrent)
    Tx.modify fun s => s.modifyFleet fun fleet =>
      { fleet with vehicles := fleet.vehicles.modify id fun row => { row with active := false } }

/-- The operational state an assignment requires. -/
def validateTabletVehicle (fleet : Fleet) (tablet : Tablet) (vehicle : Vehicle) : Except Error Unit := do
  let department ← found (fleet.departments.find tablet.department)
  if department.status ≠ .active then
    throw (.assignmentError "Department is not operationally active.")
  if ¬tablet.active ∨ ¬vehicle.active ∨ tablet.department ≠ vehicle.department then
    throw (.assignmentError "Tablet and vehicle must be active and belong to the same department.")
  let station ← found (fleet.stations.find vehicle.station)
  if ¬station.active then
    throw (.assignmentError "Vehicle station is not operationally active.")

/-- Put a tablet on a vehicle, ending its open assignment. `authorized` is the decision of the
caller's administrator scope. -/
def assignTabletVehicle (authorized : Bool) (id : TabletId) (vehicleId : VehicleId) (effectiveAt now : Time) :
    Service Unit :=
  Tx.atomic do
    let s ← Tx.get
    let vehicle ← Tx.require (s.fleet.vehicles.find vehicleId) .doesNotExist
    let tablet ← Tx.require (s.fleet.tablets.find id) .doesNotExist
    Tx.ensure authorized .permissionDenied
    Tx.ofExcept (validateTabletVehicle s.fleet tablet vehicle)
    let current := s.fleet.assignments.first fun a => a.tablet = id ∧ a.isOpen
    Tx.modify fun s => s.modifyFleet fun fleet =>
      let assignments :=
        match current with
        | some (i, _) => fleet.assignments.modify i (TabletVehicleAssignment.finished effectiveAt now)
        | none => fleet.assignments
      { fleet with assignments := assignments.insert { tablet := id, vehicle := vehicleId, validFrom := effectiveAt } }

/-! ### Configuration -/

/-- Set the global capability URL and invalidate the deliverable manifests. -/
def setVehicleRescueGuidesWebUrl (settings : Settings) (systemAdmin : Bool) (url : String) (now : Time) :
    Service Unit :=
  Tx.atomic do
    Tx.ensure systemAdmin .permissionDenied
    let s ← Tx.get
    Tx.ensure (settings.validWebUrl s.fleet.rescueGuidesUrl) (.validationError "Enter a valid URL.")
    if s.fleet.rescueGuidesUrl = url then
      return ()
    Tx.ensure (settings.validWebUrl url) (.validationError "Enter a valid URL.")
    Tx.modify fun s => s.modifyFleet fun fleet => { fleet with rescueGuidesUrl := url }
    Tx.modify fun s => s.invalidateSignedManifests now "Vehicle Rescue Guides configuration changed."

/-- Any other write of the fleet tables: check-ins, lease renewals, stations, features,
departments, compatibility. The database keeps installations and refuses dangling keys. -/
def editFleet (fleet : Fleet) : Service Unit := do
  let s ← Tx.get
  Tx.ensure (fleet.wellFormed ∧ s.fleet.installations.nextId ≤ fleet.installations.nextId)
    (.databaseError "Foreign key violation.")
  Tx.modify fun s => { s with fleet := fleet }

end FireDash.Delivery
