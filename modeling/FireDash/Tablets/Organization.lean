import FireDash.Tablets.Adoption

/-! Registration of tablets, and the stations and vehicles they are assigned to. -/
namespace FireDash.Tablets

open Json (Text)
open Publications (Time DepartmentId)
open Delivery (TabletId VehicleId)

/-! ### Asset numbers -/

def maxAssetNumberLength : ℕ := 128

def maxAssetNumberAllocationAttempts : ℕ := 1000

/-- `str(sequence).zfill(width)`. -/
def zfill (sequence width : ℕ) : Text :=
  let digits := Json.text (toString sequence)
  List.replicate (width - digits.length) 48 ++ digits

def formattedAssetNumber (policy : TabletPolicy) (sequence : ℕ) : Except Error Text :=
  let assetNumber := policy.assetNumberPrefix ++ zfill sequence policy.assetNumberWidth
  if assetNumber.length > maxAssetNumberLength then
    throw (.tablet "The next generated asset number does not fit the Tablet asset-number length." "asset_number_exhausted")
  else return assetNumber

def StationDetails.stripped (d : StationDetails) : StationDetails :=
  ⟨strip d.name, strip d.shortCode, strip d.street, strip d.houseNumber, strip d.postalCode, strip d.city⟩

def VehicleDetails.stripped (d : VehicleDetails) : VehicleDetails :=
  ⟨strip d.displayName, strip d.callSign, strip d.assetIdentifier⟩

namespace Registry

def setStation (s : Registry) (id : StationId) (f : Delivery.StationRow → Delivery.StationRow) : Registry :=
  s.setFleet fun fleet => { fleet with stations := fleet.stations.modify id f }

def setVehicle (s : Registry) (id : VehicleId) (f : Delivery.Vehicle → Delivery.Vehicle) : Registry :=
  s.setFleet fun fleet => { fleet with vehicles := fleet.vehicles.modify id f }

/-- Another tablet of the department has a label that satisfies `p`. -/
def labelTaken (s : Registry) (department : DepartmentId) (p : TabletLabel → Bool) : Bool :=
  s.fleet.tablets.entries.any fun (id, tablet) => tablet.department = department ∧ ∃ l ∈ s.labels.find id, p l

/-- `Tablet.objects.create`. -/
def insertTablet (s : Registry) (department : DepartmentId) (label : TabletLabel) : Registry :=
  { s.setFleet (fun fleet => { fleet with tablets := fleet.tablets.insert { department := department } }) with
    labels := s.labels.insert label }

/-- `_create_generated_tablet`: each attempt advances the sequence, and a taken number is skipped. -/
def createGeneratedTablet (s : Registry) (department : DepartmentId) (displayName : Text) (policy : TabletPolicy) :
    ℕ → Except Error Registry
  | 0 => .error (.tablet "Unable to allocate a unique Tablet asset number after 1000 attempts."
      "asset_number_allocation_exhausted")
  | attempts + 1 => do
    let sequence := policy.assetNumberSequence + 1
    let assetNumber ← formattedAssetNumber policy sequence
    let policy := { policy with assetNumberSequence := sequence }
    if s.labelTaken department (fun l => l.assetNumber = assetNumber) then
      s.createGeneratedTablet department displayName policy attempts
    else
      return { s.insertTablet department ⟨displayName, assetNumber⟩ with
        policies := s.policies.modify department fun _ => policy }

def createTablet (s : Registry) (admin : DepartmentId → Bool) (department : DepartmentId) (displayName assetNumber : Text) :
    Except Error Registry := do
  discard (found (s.fleet.departments.find department))
  let policy ← found (s.policies.find department)
  if ¬admin department then
    throw .permissionDenied
  let displayName := strip displayName
  if displayName = [] then
    throw (.tablet "Tablet display name is required.")
  let assetNumber := strip assetNumber
  if s.labelTaken department (fun l => l.displayName = displayName) then
    throw (.tablet "A tablet with this display name already exists in the department.")
  -- The policy of the department alone decides on automatic numbering.
  if policy.autoEnabled then
    s.createGeneratedTablet department displayName policy maxAssetNumberAllocationAttempts
  else if assetNumber ≠ [] ∧ s.labelTaken department (fun l => l.assetNumber = assetNumber) then
    throw (.tablet "A tablet with this asset number already exists in the department.")
  else
    return s.insertTablet department ⟨displayName, assetNumber⟩

/-! ### Stations -/

def createStation (s : Registry) (admin : DepartmentId → Bool) (department : DepartmentId) (details : StationDetails)
    (active : Bool) : Except Error Registry := do
  discard (found (s.fleet.departments.find department))
  if ¬admin department then
    throw .permissionDenied
  return { s.setFleet (fun fleet => { fleet with stations := fleet.stations.insert ⟨department, active⟩ }) with
    stationDetails := s.stationDetails.insert details.stripped }

/-- An empty station is taken out of service. -/
def deactivateStation (s : Registry) (id : StationId) : Except Error Registry := do
  discard (found (s.fleet.stations.find id))
  if s.fleet.vehicles.any fun v => v.station = id ∧ v.active then
    throw (.assignment "Deactivate or move active vehicles before deactivating a station.")
  if id ∈ s.personnel then
    throw (.assignment "End or transfer current personnel assignments before deactivating a station.")
  return s.setStation id fun row => { row with active := false }

def updateStation (s : Registry) (admin : DepartmentId → Bool) (id : StationId) (details : StationDetails) (active : Bool) :
    Except Error Registry := do
  let station ← found (s.fleet.stations.find id)
  let current ← found (s.stationDetails.find id)
  if ¬admin station.department then
    throw .permissionDenied
  if current = details.stripped ∧ station.active = active then
    return s
  if ¬active ∧ station.active then
    s.deactivateStation id
  else
    return { s.setStation id (fun row => { row with active := active }) with
      stationDetails := s.stationDetails.modify id fun _ => details.stripped }

/-! ### Vehicles -/

/-- `seenActive` is the flag of the caller's copy of the station, which may be outdated. -/
def createVehicle (s : Registry) (admin : DepartmentId → Bool) (department : DepartmentId) (station : StationId)
    (seenActive : Bool) (details : VehicleDetails) (active : Bool) : Except Error Registry := do
  discard (found (s.fleet.departments.find department))
  let row ← found (s.fleet.stations.find station)
  if ¬admin department then
    throw .permissionDenied
  if row.department ≠ department ∨ ¬seenActive then
    throw (.assignment "Vehicle station must be active and in the selected department.")
  return { s.setFleet (fun fleet => { fleet with vehicles := fleet.vehicles.insert ⟨department, station, active⟩ }) with
    vehicleDetails := s.vehicleDetails.insert details.stripped }

/-- Retirement ends the open assignments now, each after it began. -/
def retireVehicle (s : Registry) (admin : DepartmentId → Bool) (id : VehicleId) : Except Error Registry := do
  let t ← s.onDelivery (Delivery.retireVehicle admin id s.now)
  if s.fleet.assignments.any fun a => a.vehicle = id ∧ a.isOpen ∧ s.now ≤ a.validFrom then
    throw .integrityError
  return t

def updateVehicle (s : Registry) (admin : DepartmentId → Bool) (id : VehicleId) (details : VehicleDetails) (active : Bool) :
    Except Error Registry := do
  let vehicle ← found (s.fleet.vehicles.find id)
  let current ← found (s.vehicleDetails.find id)
  if ¬admin vehicle.department then
    throw .permissionDenied
  if current = details.stripped ∧ vehicle.active = active then
    return s
  if ¬active ∧ vehicle.active then
    s.retireVehicle admin id
  else
    return { s.setVehicle id (fun row => { row with active := active }) with
      vehicleDetails := s.vehicleDetails.modify id fun _ => details.stripped }

/-- A reassignment ends the open assignment at the effective moment, after it began. -/
def assignTabletVehicle (s : Registry) (authorized : Bool) (id : TabletId) (vehicle : VehicleId)
    (effectiveAt : Option Time) : Except Error Registry := do
  let effectiveAt := effectiveAt.getD s.now
  let t ← s.onDelivery (Delivery.assignTabletVehicle authorized id vehicle effectiveAt s.now)
  if s.fleet.assignments.any fun a => a.tablet = id ∧ a.isOpen ∧ effectiveAt ≤ a.validFrom then
    throw .integrityError
  return t

end Registry
end FireDash.Tablets
