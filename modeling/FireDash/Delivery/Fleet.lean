import FireDash.Publications.Models

/-! The tablet fleet: departments, stations, vehicles, tablets with their app installations
and vehicle assignments, and the control-plane context an installation resolves to. -/
namespace FireDash.Delivery

open Publications

abbrev InstallationId := ℕ
abbrev TabletId := ℕ
abbrev VehicleId := ℕ

inductive DepartmentStatus where
  | active
  | suspended
  | deactivated
  deriving DecidableEq

structure Department where
  status : DepartmentStatus := .active
  deriving DecidableEq

/-- The columns of `Station` the fleet reads. -/
structure StationRow where
  department : DepartmentId
  active : Bool := true
  deriving DecidableEq

structure Vehicle where
  department : DepartmentId
  station : ℕ
  active : Bool := true
  deriving DecidableEq

inductive TabletStatus where
  | inactive
  | active
  | lost
  | retired
  deriving DecidableEq

structure Tablet where
  department : DepartmentId
  status : TabletStatus := .inactive
  active : Bool := true
  deriving DecidableEq

inductive InstallationStatus where
  | active
  | stale
  | revoked
  | replaced
  deriving DecidableEq

/-- `ACTIVE` or `STALE`. -/
def InstallationStatus.isCurrent : InstallationStatus → Bool
  | .active | .stale => true
  | _ => false

structure AppInstallation where
  tablet : TabletId
  status : InstallationStatus := .active
  appVersion : String
  hpkePublicKey : Bytes
  authorizationValidUntil : Time
  deriving DecidableEq

structure TabletVehicleAssignment where
  tablet : TabletId
  vehicle : VehicleId
  validFrom : Time
  validUntil : Option Time := none
  endedAt : Option Time := none
  deriving DecidableEq

/-- `valid_until` and `ended_at` are both null. -/
def TabletVehicleAssignment.isOpen (a : TabletVehicleAssignment) : Bool := a.validUntil = none ∧ a.endedAt = none

/-- The validity window of an assignment that was not ended contains the moment. -/
def TabletVehicleAssignment.coversAt (now : Time) (a : TabletVehicleAssignment) : Bool :=
  a.validFrom ≤ now ∧ a.endedAt = none ∧ (a.validUntil = none ∨ ∃ u ∈ a.validUntil, now < u)

structure DepartmentFeature where
  department : DepartmentId
  featureCode : FeatureCode
  enabled : Bool := true
  deriving DecidableEq

/-- The rows that decide what a tablet may receive. `minimumAppVersion` is the compatibility
policy of API version one, `rescueGuidesUrl` the singleton capability configuration. -/
structure Fleet where
  departments : Table Department := ⟨[]⟩
  stations : Table StationRow := ⟨[]⟩
  vehicles : Table Vehicle := ⟨[]⟩
  tablets : Table Tablet := ⟨[]⟩
  installations : Table AppInstallation := ⟨[]⟩
  assignments : Table TabletVehicleAssignment := ⟨[]⟩
  features : List DepartmentFeature := []
  minimumAppVersion : Option String := none
  rescueGuidesUrl : String
  deriving DecidableEq

/-- The row of a foreign key. -/
def found {α : Type} (row : Option α) : Except Error α :=
  match row with
  | some a => .ok a
  | none => .error .doesNotExist

namespace Fleet

/-- Deliverable capabilities are enabled unless a deactivation was persisted. -/
def isFeatureEnabled (fleet : Fleet) (department : DepartmentId) (featureCode : FeatureCode) : Bool :=
  match fleet.features.find? fun f => f.department = department ∧ f.featureCode = featureCode with
  | some feature => feature.enabled
  | none => true

/-- An active vehicle at an active station. -/
def operationalVehicle (fleet : Fleet) (id : VehicleId) : Option Vehicle :=
  match fleet.vehicles.find id with
  | some vehicle => if vehicle.active ∧ ∃ s ∈ fleet.stations.find vehicle.station, s.active then some vehicle else none
  | none => none

/-- The vehicle of the first assignment of a tablet in force with an operational vehicle. -/
def assignedVehicle (fleet : Fleet) (tablet : TabletId) (now : Time) : Option (VehicleId × Vehicle) :=
  fleet.assignments.rows.findSome? fun a =>
    if a.tablet = tablet ∧ a.coversAt now then (fleet.operationalVehicle a.vehicle).map fun v => (a.vehicle, v)
    else none

end Fleet

/-- An authenticated installation with its tablet and, when it has one, its vehicle. -/
structure Context where
  installationId : InstallationId
  installation : AppInstallation
  tablet : Tablet
  vehicle : Option (VehicleId × Vehicle)
  deriving DecidableEq

/-- Resolve authenticated identity and configuration without granting datasets. An inactive
asset or an unassigned tablet keeps its identity and has no vehicle. -/
def controlPlaneContext (fleet : Fleet) (id : InstallationId) (now : Time) : Except Error Context := do
  let installation ← found (fleet.installations.find id)
  let tablet ← found (fleet.tablets.find installation.tablet)
  let department ← found (fleet.departments.find tablet.department)
  if installation.status ≠ .active ∨ installation.authorizationValidUntil ≤ now ∨ ¬tablet.active ∨
      department.status ≠ .active then
    throw (.manifestError "Installation is not authorized for control-plane synchronization.")
  if tablet.status = .inactive then
    return ⟨id, installation, tablet, none⟩
  match fleet.assignedVehicle installation.tablet now with
  | some (vehicleId, vehicle) =>
    if vehicle.department ≠ tablet.department then
      return ⟨id, installation, tablet, none⟩
    return ⟨id, installation, tablet, some (vehicleId, vehicle)⟩
  | none => return ⟨id, installation, tablet, none⟩

/-- Resolve the active operational dataset scope only. -/
def authorizationContext (fleet : Fleet) (id : InstallationId) (now : Time) :
    Except Error (Context × VehicleId × Vehicle) := do
  let context ← controlPlaneContext fleet id now
  if context.tablet.status ≠ .active then
    throw (.manifestError "Installation is not authorized for operational datasets.")
  match context.vehicle with
  | none => throw (.manifestError "Installation has no current authorized vehicle assignment.")
  | some vehicle => return (context, vehicle)

/-! ### Application versions -/

structure AppVersion where
  major : ℕ
  minor : ℕ
  patch : ℕ
  deriving DecidableEq

def AppVersion.lt (a b : AppVersion) : Bool :=
  a.major < b.major ∨ a.major = b.major ∧ (a.minor < b.minor ∨ a.minor = b.minor ∧ a.patch < b.patch)

/-- `0`, or decimal digits without a leading zero. -/
def versionComponent : List Char → Option ℕ
  | [] => none
  | ['0'] => some 0
  | c :: rest =>
    if c ≠ '0' ∧ (c :: rest).all Char.isDigit then
      some ((c :: rest).foldl (fun n d => 10 * n + (d.toNat - '0'.toNat)) 0)
    else none

def maxVersionComponent : ℕ := 2147483647

def parseAppVersion (value : String) : Except Error AppVersion :=
  match (value.toList.splitOn '.').map versionComponent with
  | [some major, some minor, some patch] =>
    if major > maxVersionComponent ∨ minor > maxVersionComponent ∨ patch > maxVersionComponent then
      .error (.appVersionError "App version component is too large.")
    else .ok ⟨major, minor, patch⟩
  | _ => .error (.appVersionError "App version must be MAJOR.MINOR.PATCH.")

/-- The configured minimum of the API generation the tablets use. -/
def Fleet.minimumSupportedAppVersion (fleet : Fleet) : Except Error (Option AppVersion) :=
  match fleet.minimumAppVersion with
  | none => .ok none
  | some value => (parseAppVersion value).map some

/-! ### A small fleet, for the runs shown with the results -/

/-- Department 1 has one active tablet, assigned to its only vehicle. -/
def sampleFleet : Fleet where
  departments := ⟨[{}, {}]⟩
  stations := ⟨[{ department := 1 }]⟩
  vehicles := ⟨[{ department := 1, station := 0 }]⟩
  tablets := ⟨[{ department := 1, status := .active }]⟩
  installations := ⟨[{
    tablet := 0
    appVersion := "1.0.0"
    hpkePublicKey := 4 :: List.replicate 64 0
    authorizationValidUntil := 1000 }]⟩
  assignments := ⟨[{ tablet := 0, vehicle := 0, validFrom := 0 }]⟩
  rescueGuidesUrl := "https://rescue.example"

end FireDash.Delivery
