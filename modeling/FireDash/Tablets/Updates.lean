import FireDash.Tablets.Commissioning

/-! Edits of stations and vehicles: which of the submitted fields an update stores. -/
namespace FireDash.Tablets

open Publications (Time DepartmentId)
open Delivery (VehicleId)

variable {settings : Settings} {s t : Registry} {admin : DepartmentId → Bool} {active : Bool}

/-! ### Stations -/

section Station

variable {id : StationId} {details : StationDetails}

/-- The submitted fields are stored, without the blanks around them. -/
def StationStored (t : Registry) (id : StationId) (details : StationDetails) (active : Bool) : Prop :=
  t.stationDetails.find id = some details.stripped ∧ ∃ row, t.fleet.stations.find id = some row ∧ row.active = active

/-- An update stores what was submitted, or raises and changes nothing. -/
def StationPersists (settings : Settings) (s : Registry) (admin : DepartmentId → Bool) (id : StationId)
    (details : StationDetails) (active : Bool) : Prop :=
  (∀ t, s.run settings (.updateStation admin id details active) = .ok t → StationStored t id details active) ∧
    ∀ e, s.run settings (.updateStation admin id details active) = .error e →
      s.step settings (.updateStation admin id details active) = s

/-- No active vehicle and no open personnel assignment is at the station. -/
def Vacant (s : Registry) (id : StationId) : Prop :=
  (∀ i v, s.fleet.vehicles.find i = some v → v.station = id → v.active = false) ∧ id ∉ s.personnel

/-- Where the update takes a vacant active station out of service, nothing else is edited. -/
def EditsOrDeactivates (s : Registry) (admin : DepartmentId → Bool) (id : StationId) (details : StationDetails)
    (active : Bool) : Prop :=
  ∀ station current, s.fleet.stations.find id = some station → s.stationDetails.find id = some current →
    admin station.department = true → station.active = true → active = false → Vacant s id → current = details.stripped

theorem setStation_row {row : Delivery.StationRow} (hrow : s.fleet.stations.find id = some row) :
    (s.setStation id fun r => { r with active := active }).fleet.stations.find id = some { row with active := active } := by
  change (s.fleet.stations.modify id _).find id = _
  rw [Table.find_modify, if_pos rfl, hrow]
  rfl

theorem deactivateStation_ok {row : Delivery.StationRow} (hrow : s.fleet.stations.find id = some row) (hvacant : Vacant s id) :
    s.deactivateStation id = .ok (s.setStation id fun r => { r with active := false }) := by
  have hvehicles : (s.fleet.vehicles.any fun v => v.station = id ∧ v.active) = false := by
    refine Table.any_eq_false.mpr fun i v hv => ?_
    by_cases hid : v.station = id
    · simp [hvacant.1 i v hv hid]
    · simp [hid]
  have hrow : found (s.fleet.stations.find id) = .ok row := found_eq_ok.mpr hrow
  simp only [Registry.deactivateStation, hrow, hvehicles, hvacant.2]
  rfl

theorem updateStation_persists_iff : StationPersists settings s admin id details active ↔
    EditsOrDeactivates s admin id details active := by
  constructor
  · rintro ⟨hstored, -⟩ station current hstation hcurrent hadmin hactive hinactive hvacant
    by_contra hedited
    have hrun : s.run settings (.updateStation admin id details active) =
        .ok (s.setStation id fun r => { r with active := false }) := by
      simp only [Registry.run, Registry.updateStation, found_eq_ok.mpr hstation, found_eq_ok.mpr hcurrent, ok_bind]
      simp only [hadmin, hactive, hinactive, hedited]
      exact deactivateStation_ok hstation hvacant
    have hdetails : s.stationDetails.find id = some details.stripped := (hstored _ hrun).1
    rw [hcurrent] at hdetails
    exact hedited (Option.some.inj hdetails)
  · intro hedits
    refine ⟨fun t h => ?_, fun e h => ?_⟩
    · simp only [Registry.run, Registry.updateStation, bind_eq_ok, check_eq_ok, found_eq_ok, not_not] at h
      obtain ⟨station, hstation, current, hcurrent, hadmin, h⟩ := h
      split at h
      · rename_i hsame
        cases h
        exact ⟨by rw [hcurrent, hsame.1], station, hstation, hsame.2⟩
      · split at h
        · rename_i hout
          have hinactive : active = false := Bool.not_eq_true _ ▸ hout.1
          obtain ⟨hempty, hpersonnel, rfl⟩ : (∀ i v, s.fleet.vehicles.find i = some v → v.station = id → v.active = false) ∧
              id ∉ s.personnel ∧ t = s.setStation id fun row => { row with active := false } := by
            obtain ⟨hempty, ht⟩ := deactivateStation_eq_ok h
            simp only [Registry.deactivateStation, bind_eq_ok, check_eq_ok] at h
            obtain ⟨-, -, -, hpersonnel, -⟩ := h
            exact ⟨hempty, hpersonnel, ht⟩
          have hkept := hedits station current hstation hcurrent hadmin hout.2 hinactive ⟨hempty, hpersonnel⟩
          exact ⟨by rw [← hkept]; exact hcurrent, _, setStation_row hstation, hinactive.symm⟩
        · cases h
          refine ⟨?_, _, setStation_row hstation, rfl⟩
          change (s.stationDetails.modify id _).find id = _
          rw [Table.find_modify, if_pos rfl, hcurrent]
          rfl
    · unfold Registry.step
      rw [h]

end Station

/-! ### Vehicles -/

section Vehicle

variable {id : VehicleId} {details : VehicleDetails}

def VehicleStored (t : Registry) (id : VehicleId) (details : VehicleDetails) (active : Bool) : Prop :=
  t.vehicleDetails.find id = some details.stripped ∧ ∃ row, t.fleet.vehicles.find id = some row ∧ row.active = active

def VehiclePersists (settings : Settings) (s : Registry) (admin : DepartmentId → Bool) (id : VehicleId)
    (details : VehicleDetails) (active : Bool) : Prop :=
  (∀ t, s.run settings (.updateVehicle admin id details active) = .ok t → VehicleStored t id details active) ∧
    ∀ e, s.run settings (.updateVehicle admin id details active) = .error e →
      s.step settings (.updateVehicle admin id details active) = s

/-- Every open assignment of the vehicle has begun, so that it can end now. -/
def Endable (s : Registry) (id : VehicleId) : Prop :=
  (s.fleet.assignments.any fun a => a.vehicle = id ∧ a.isOpen ∧ s.now ≤ a.validFrom) = false

/-- Where the update retires the vehicle, nothing else is edited. -/
def EditsOrRetires (s : Registry) (admin : DepartmentId → Bool) (id : VehicleId) (details : VehicleDetails)
    (active : Bool) : Prop :=
  ∀ vehicle current, s.fleet.vehicles.find id = some vehicle → s.vehicleDetails.find id = some current →
    admin vehicle.department = true → vehicle.active = true → active = false → Endable s id → current = details.stripped

theorem retireVehicle_ok {vehicle : Delivery.Vehicle} (hvehicle : s.fleet.vehicles.find id = some vehicle)
    (hadmin : admin vehicle.department = true) (hactive : vehicle.active = true) (hendable : Endable s id) :
    ∃ t, s.retireVehicle admin id = .ok t := by
  have hrow : s.delivery.fleet.vehicles.find id = some vehicle := hvehicle
  have hreturns : Tx.wp (Delivery.retireVehicle admin id s.now) (fun _ _ => True) (fun _ _ => False) s.delivery := by
    unfold Delivery.retireVehicle
    simp [hrow, hadmin, hactive]
  obtain ⟨t, ht⟩ := Registry.onDelivery_ok hreturns
  unfold Endable at hendable
  refine ⟨t, ?_⟩
  simp only [Registry.retireVehicle, ht, ok_bind, hendable]
  rfl

/-- Retirement leaves the details of vehicles alone. -/
theorem retireVehicle_details (h : s.retireVehicle admin id = .ok t) : t.vehicleDetails = s.vehicleDetails ∧
    ∀ vehicle, s.fleet.vehicles.find id = some vehicle → t.fleet.vehicles.find id = some { vehicle with active := false } := by
  obtain ⟨-, -, -, d, v, installations, rfl, rfl, rfl⟩ := retireVehicle_eq_ok h
  refine ⟨rfl, fun vehicle hvehicle => ?_⟩
  change ((Delivery.State.revokeInstallations _ s.now installations).fleet.vehicles.modify id _).find id = _
  rw [Delivery.fleet_revokeInstallations, Table.find_modify, if_pos rfl]
  change (s.fleet.vehicles.find id).map _ = _
  rw [hvehicle]
  rfl

theorem retireVehicle_endable (h : s.retireVehicle admin id = .ok t) : Endable s id := by
  simp only [Registry.retireVehicle, bind_eq_ok, check_eq_ok] at h
  obtain ⟨-, -, hendable, -⟩ := h
  unfold Endable
  rw [← Bool.not_eq_true]
  exact hendable

theorem updateVehicle_persists_iff : VehiclePersists settings s admin id details active ↔
    EditsOrRetires s admin id details active := by
  constructor
  · rintro ⟨hstored, -⟩ vehicle current hvehicle hcurrent hadmin hactive hinactive hendable
    by_contra hedited
    obtain ⟨t, ht⟩ := retireVehicle_ok hvehicle hadmin hactive hendable
    have hrun : s.run settings (.updateVehicle admin id details active) = .ok t := by
      simp only [Registry.run, Registry.updateVehicle, found_eq_ok.mpr hvehicle, found_eq_ok.mpr hcurrent, ok_bind]
      simp only [hadmin, hactive, hinactive, hedited]
      exact ht
    have hdetails : t.vehicleDetails.find id = some details.stripped := (hstored _ hrun).1
    rw [(retireVehicle_details ht).1, hcurrent] at hdetails
    exact hedited (Option.some.inj hdetails)
  · intro hedits
    refine ⟨fun t h => ?_, fun e h => ?_⟩
    · simp only [Registry.run, Registry.updateVehicle, bind_eq_ok, check_eq_ok, found_eq_ok, not_not] at h
      obtain ⟨vehicle, hvehicle, current, hcurrent, hadmin, h⟩ := h
      split at h
      · rename_i hsame
        cases h
        exact ⟨by rw [hcurrent, hsame.1], vehicle, hvehicle, hsame.2⟩
      · split at h
        · rename_i hout
          have hinactive : active = false := Bool.not_eq_true _ ▸ hout.1
          have hkept := hedits vehicle current hvehicle hcurrent hadmin hout.2 hinactive (retireVehicle_endable h)
          obtain ⟨hdetails, hrow⟩ := retireVehicle_details h
          exact ⟨by rw [hdetails, ← hkept]; exact hcurrent, _, hrow vehicle hvehicle, hinactive.symm⟩
        · cases h
          refine ⟨?_, { vehicle with active := active }, ?_, rfl⟩
          · change (s.vehicleDetails.modify id _).find id = _
            rw [Table.find_modify, if_pos rfl, hcurrent]
            rfl
          · change (s.fleet.vehicles.modify id _).find id = _
            rw [Table.find_modify, if_pos rfl, hvehicle]
            rfl
    · unfold Registry.step
      rw [h]

end Vehicle

/-- An update stores every submitted field, or raises and changes nothing, exactly when it does not edit
other fields in the call that takes the station or the vehicle out of service. -/
theorem updates_persist_iff (settings : Settings) (s : Registry) (admin : DepartmentId → Bool) (active : Bool) :
    (∀ id details, StationPersists settings s admin id details active ↔ EditsOrDeactivates s admin id details active) ∧
      ∀ id details, VehiclePersists settings s admin id details active ↔ EditsOrRetires s admin id details active :=
  ⟨fun _ _ => updateStation_persists_iff, fun _ _ => updateVehicle_persists_iff⟩

/-- A station renamed in the call that deactivates it keeps its old name. -/
theorem renamed_deactivated_keeps_name :
    ((sampleRun [.createStation (fun _ => true) 1 ⟨[83], [83], [], [], [], []⟩ true]).run sampleSettings
        (.updateStation (fun _ => true) 0 ⟨[84], [83], [], [], [], []⟩ false)).map
          (fun t => (t.stationDetails.find 0, (t.fleet.stations.find 0).map (·.active))) =
        .ok (some ⟨[83], [83], [], [], [], []⟩, some false) ∧
      ¬StationPersists sampleSettings (sampleRun [.createStation (fun _ => true) 1 ⟨[83], [83], [], [], [], []⟩ true])
        (fun _ => true) 0 ⟨[84], [83], [], [], [], []⟩ false := by
  have hrun : ((sampleRun [.createStation (fun _ => true) 1 ⟨[83], [83], [], [], [], []⟩ true]).run sampleSettings
      (.updateStation (fun _ => true) 0 ⟨[84], [83], [], [], [], []⟩ false)).map
        (fun t => (t.stationDetails.find 0, (t.fleet.stations.find 0).map (·.active))) =
      .ok (some ⟨[83], [83], [], [], [], []⟩, some false) := by decide +kernel
  refine ⟨hrun, ?_⟩
  rintro ⟨hstored, -⟩
  cases h : (sampleRun [.createStation (fun _ => true) 1 ⟨[83], [83], [], [], [], []⟩ true]).run sampleSettings
      (.updateStation (fun _ => true) 0 ⟨[84], [83], [], [], [], []⟩ false) with
  | error e =>
    rw [h] at hrun
    cases hrun
  | ok t =>
    rw [h] at hrun
    have hdetails : t.stationDetails.find 0 = some ⟨[83], [83], [], [], [], []⟩ := (Prod.mk.inj (Except.ok.inj hrun)).1
    rw [(hstored t h).1] at hdetails
    revert hdetails
    decide

end FireDash.Tablets
