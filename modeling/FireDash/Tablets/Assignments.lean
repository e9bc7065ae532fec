import FireDash.Tablets.Installations

/-! The assignments of tablets to vehicles: what the services of stations, vehicles and tablets
keep between the four tables, and when a retired vehicle stays out of service. -/
namespace FireDash.Tablets

open Delivery (Fleet Tablet TabletId StationRow Vehicle VehicleId TabletVehicleAssignment)
open Publications (Time DepartmentId)

variable {settings : Settings} {s t : Registry} {action : Action} {tablets tablets' : Table Tablet}
  {stations stations' : Table StationRow} {vehicles vehicles' : Table Vehicle}
  {assignments assignments' : Table TabletVehicleAssignment}

/-- The tablet and the vehicle are of one department, the vehicle is in service, and so is its
station, which is in that department. -/
def InService (tablets : Table Tablet) (stations : Table StationRow) (vehicles : Table Vehicle)
    (a : TabletVehicleAssignment) : Prop :=
  ∃ tablet vehicle station, tablets.find a.tablet = some tablet ∧ vehicles.find a.vehicle = some vehicle ∧
    stations.find vehicle.station = some station ∧ vehicle.active = true ∧ tablet.department = vehicle.department ∧
    station.active = true ∧ station.department = vehicle.department

/-- What holds between the tables in every run. -/
structure Placed (tablets : Table Tablet) (stations : Table StationRow) (vehicles : Table Vehicle)
    (assignments : Table TabletVehicleAssignment) : Prop where
  single : ∀ {i j a b}, assignments.find i = some a → assignments.find j = some b → a.tablet = b.tablet →
    a.isOpen = true → b.isOpen = true → i = j
  inService : ∀ {i a}, assignments.find i = some a → a.isOpen = true → InService tablets stations vehicles a
  stationed : ∀ {i v}, vehicles.find i = some v → ∃ row, stations.find v.station = some row ∧ row.department = v.department

/-! ### Steps -/

theorem Taken.arranged (h : Taken settings s action t) :
    Arranged s action t.fleet.stations t.fleet.vehicles t.fleet.assignments := by
  cases h with
  | kept h harranged => exact harranged
  | @failed id calls =>
    rcases recordFailedAttempt_cases s id with he | ⟨request, -, -, -, he⟩ <;> rw [he] <;> exact .kept
  | adopted =>
    change Arranged s action (Delivery.State.revokeInstallations _ s.now _).fleet.stations
      (Delivery.State.revokeInstallations _ s.now _).fleet.vehicles
      (Delivery.State.revokeInstallations _ s.now _).fleet.assignments
    rw [Delivery.fleet_revokeInstallations]
    exact .kept
  | @deactivated id tablet reason htablet htransition =>
    change Arranged s action (Delivery.State.withStatus _ id .inactive true).fleet.stations
      (Delivery.State.withStatus _ id .inactive true).fleet.vehicles
      (Delivery.State.withStatus _ id .inactive true).fleet.assignments
    rw [Delivery.fleet_withStatus, Delivery.fleet_obsoleteManifests, Delivery.fleet_revokeInstallations]
    exact .kept
  | @withdrawn id tablet status htablet htransition hstatus =>
    change Arranged s action ((s.delivery.revokeTabletInstallations id s.now).withStatus id status false).fleet.stations
      ((s.delivery.revokeTabletInstallations id s.now).withStatus id status false).fleet.vehicles
      ((s.delivery.revokeTabletInstallations id s.now).withStatus id status false).fleet.assignments
    rw [Delivery.fleet_withStatus, Delivery.fleet_revokeTabletInstallations]
    exact .kept
  | _ => exact .kept

/-- The vehicles in service of the open assignments stay so, and stations with a vehicle in
service stay active. -/
structure Serviced (stations stations' : Table StationRow) (vehicles vehicles' : Table Vehicle)
    (assignments' : Table TabletVehicleAssignment) : Prop where
  inUse : ∀ i a v, assignments'.find i = some a → a.isOpen = true → vehicles.find a.vehicle = some v → v.active = true →
    ∃ v', vehicles'.find a.vehicle = some v' ∧ v'.active = true ∧ v'.station = v.station ∧ v'.department = v.department
  staffed : ∀ i row j v, stations.find i = some row → row.active = true → vehicles.find j = some v → v.station = i →
    v.active = true → ∃ row', stations'.find i = some row' ∧ row'.active = true ∧ row'.department = row.department

theorem Serviced.of_stations (h : ∀ i row j v, stations.find i = some row → row.active = true → vehicles.find j = some v →
    v.station = i → v.active = true →
    ∃ row', stations'.find i = some row' ∧ row'.active = true ∧ row'.department = row.department) :
    Serviced stations stations' vehicles vehicles assignments where
  inUse _ _ v _ _ hv hactive := ⟨v, hv, hactive, rfl, rfl⟩
  staffed := h

theorem Serviced.of_vehicles (h : ∀ i a v, assignments'.find i = some a → a.isOpen = true →
    vehicles.find a.vehicle = some v → v.active = true →
    ∃ v', vehicles'.find a.vehicle = some v' ∧ v'.active = true ∧ v'.station = v.station ∧ v'.department = v.department) :
    Serviced stations stations vehicles vehicles' assignments' where
  inUse := h
  staffed _ row _ _ hrow hactive _ _ _ := ⟨row, hrow, hactive, rfl⟩

theorem Serviced.refl : Serviced stations stations vehicles vehicles assignments :=
  .of_vehicles fun _ _ v _ _ hv hactive => ⟨v, hv, hactive, rfl, rfl⟩

/-- The tablets stay in their departments. -/
def Housed (tablets tablets' : Table Tablet) : Prop :=
  ∀ i row, tablets.find i = some row → ∃ row', tablets'.find i = some row' ∧ row'.department = row.department

theorem InService.kept {i : ℕ} {a : TabletVehicleAssignment} (h : InService tablets stations vehicles a)
    (htablets : Housed tablets tablets') (hserviced : Serviced stations stations' vehicles vehicles' assignments')
    (ha : assignments'.find i = some a) (hopen : a.isOpen = true) : InService tablets' stations' vehicles' a := by
  obtain ⟨tablet, vehicle, station, htablet, hvehicle, hstation, hactive, hdepartment, hactive', hplace⟩ := h
  obtain ⟨tablet', htablet', hsame⟩ := htablets _ _ htablet
  obtain ⟨vehicle', hvehicle', hstays, hat, hof⟩ := hserviced.inUse i a vehicle ha hopen hvehicle hactive
  obtain ⟨station', hstation', hstays', hin⟩ :=
    hserviced.staffed _ station _ vehicle hstation hactive' hvehicle rfl hactive
  refine ⟨tablet', vehicle', station', htablet', hvehicle', by rw [hat]; exact hstation', hstays, ?_, hstays', ?_⟩
  · rw [hsame, hof]
    exact hdepartment
  · rw [hin, hof]
    exact hplace

theorem Placed.kept (hp : Placed tablets stations vehicles assignments) (htablets : Housed tablets tablets')
    (hserviced : Serviced stations stations' vehicles vehicles' assignments')
    (hassignments : ∀ i a, assignments'.find i = some a → a.isOpen = true → assignments.find i = some a)
    (hstationed : ∀ i v, vehicles'.find i = some v →
      ∃ row, stations'.find v.station = some row ∧ row.department = v.department) :
    Placed tablets' stations' vehicles' assignments' where
  single ha hb htablet hopen hopen' :=
    hp.single (hassignments _ _ ha hopen) (hassignments _ _ hb hopen') htablet hopen hopen'
  inService ha hopen := (hp.inService (hassignments _ _ ha hopen) hopen).kept htablets hserviced ha hopen
  stationed hv := hstationed _ _ hv

/-- The vehicles of a table with one flag rewritten are at the stations of before. -/
theorem stationed_modify {id : VehicleId} {active : Bool}
    (h : ∀ i v, vehicles.find i = some v → ∃ row, stations.find v.station = some row ∧ row.department = v.department)
    {i : VehicleId} {v : Vehicle} (hv : (vehicles.modify id fun row => { row with active := active }).find i = some v) :
    ∃ row, stations.find v.station = some row ∧ row.department = v.department := by
  rw [Table.find_modify] at hv
  split at hv
  · obtain ⟨v₀, hv₀, rfl⟩ := Option.map_eq_some_iff.mp hv
    exact h i v₀ hv₀
  · exact h i v hv

/-! ### Stations -/

theorem Placed.stationCreated {row : StationRow} (hp : Placed tablets stations vehicles assignments)
    (htablets : Housed tablets tablets') : Placed tablets' (stations.insert row) vehicles assignments := by
  have hkept : ∀ i station, stations.find i = some station → (stations.insert row).find i = some station := by
    intro i station hrow
    rw [Table.find_insert, if_neg (Table.lt_nextId_of_find hrow).ne]
    exact hrow
  refine hp.kept htablets (.of_stations fun i station _ _ hrow hactive _ _ _ => ?_) (fun _ _ ha _ => ha)
    fun i v hv => ?_
  · exact ⟨station, hkept i station hrow, hactive, rfl⟩
  · obtain ⟨station, hstation, hdepartment⟩ := hp.stationed hv
    exact ⟨station, hkept _ _ hstation, hdepartment⟩

/-- The station of a vehicle in service is not deactivated. -/
theorem Placed.stationChanged {id : StationId} {active : Bool} (hp : Placed tablets stations vehicles assignments)
    (htablets : Housed tablets tablets')
    (hempty : active = false → ∀ row, stations.find id = some row → row.active = true →
      ∀ i v, vehicles.find i = some v → v.station = id → v.active = false) :
    Placed tablets' (stations.modify id fun row => { row with active := active }) vehicles assignments := by
  refine hp.kept htablets (.of_stations fun i row j v hrow hactive hv hat hvactive => ?_) (fun _ _ ha _ => ha)
    fun i v hv => ?_
  · rw [Table.find_modify, hrow]
    by_cases hid : id = i
    · subst hid
      rw [if_pos rfl]
      refine ⟨{ row with active := active }, rfl, ?_, rfl⟩
      by_contra hclosed
      have hout := hempty (by simpa using hclosed) row hrow hactive j v hv hat
      rw [hvactive] at hout
      cases hout
    · rw [if_neg hid]
      exact ⟨row, rfl, hactive, rfl⟩
  · obtain ⟨station, hstation, hdepartment⟩ := hp.stationed hv
    rw [Table.find_modify, hstation]
    split
    · exact ⟨_, rfl, hdepartment⟩
    · exact ⟨station, rfl, hdepartment⟩

/-! ### Vehicles -/

theorem Placed.vehicleCreated {vehicle : Vehicle} {row : StationRow} (hp : Placed tablets stations vehicles assignments)
    (htablets : Housed tablets tablets') (hrow : stations.find vehicle.station = some row)
    (hdepartment : row.department = vehicle.department) :
    Placed tablets' stations (vehicles.insert vehicle) assignments := by
  refine hp.kept htablets (.of_vehicles fun i a v _ _ hv hactive => ?_) (fun _ _ ha _ => ha) fun i v hv => ?_
  · rw [Table.find_insert, if_neg (Table.lt_nextId_of_find hv).ne]
    exact ⟨v, hv, hactive, rfl, rfl⟩
  · rw [Table.find_insert] at hv
    split at hv
    · cases hv
      exact ⟨row, hrow, hdepartment⟩
    · exact hp.stationed hv

/-- A vehicle in service is taken out of it by its retirement only. -/
theorem Placed.vehicleChanged {id : VehicleId} {vehicle : Vehicle} {active : Bool}
    (hp : Placed tablets stations vehicles assignments) (htablets : Housed tablets tablets')
    (hvehicle : vehicles.find id = some vehicle) (hretired : active = false → vehicle.active = false) :
    Placed tablets' stations (vehicles.modify id fun row => { row with active := active }) assignments := by
  refine hp.kept htablets (.of_vehicles fun i a v _ _ hv hactive => ?_) (fun _ _ ha _ => ha)
    fun i v hv => stationed_modify (fun _ _ => hp.stationed) hv
  rw [Table.find_modify]
  by_cases hid : id = a.vehicle
  · rw [if_pos hid, hv]
    refine ⟨{ v with active := active }, rfl, ?_, rfl, rfl⟩
    rw [hid, hv] at hvehicle
    cases hvehicle
    by_contra hclosed
    rw [hretired (by simpa using hclosed)] at hactive
    cases hactive
  · rw [if_neg hid]
    exact ⟨v, hv, hactive, rfl, rfl⟩

/-- A retirement ends the open assignments of its vehicle. -/
theorem Placed.vehicleRetired {id : VehicleId} {now : Time} (hp : Placed tablets stations vehicles assignments)
    (htablets : Housed tablets tablets') :
    Placed tablets' stations (vehicles.modify id fun row => { row with active := false })
      ⟨assignments.rows.map fun a => if a.vehicle = id ∧ a.isOpen then a.finished now now else a⟩ := by
  have hold : ∀ i a, (Table.mk (assignments.rows.map fun a =>
      if a.vehicle = id ∧ a.isOpen then a.finished now now else a)).find i = some a → a.isOpen = true →
      assignments.find i = some a ∧ a.vehicle ≠ id := by
    intro i a ha hopen
    rw [Table.find_map] at ha
    obtain ⟨a₀, ha₀, rfl⟩ := Option.map_eq_some_iff.mp ha
    split at hopen
    · simp [TabletVehicleAssignment.finished, TabletVehicleAssignment.isOpen] at hopen
    · rename_i hother
      rw [if_neg hother]
      exact ⟨ha₀, fun hid => hother ⟨hid, hopen⟩⟩
  refine hp.kept htablets (.of_vehicles fun i a v ha hopen hv hactive => ?_)
    (fun i a ha hopen => (hold i a ha hopen).1) fun i v hv => stationed_modify (fun _ _ => hp.stationed) hv
  rw [Table.find_modify, if_neg (hold i a ha hopen).2.symm]
  exact ⟨v, hv, hactive, rfl, rfl⟩

/-! ### Assignments -/

/-- The assignments of the other tablets stay open, and those only. -/
theorem find_endAssignment {fleet : Fleet} {id : TabletId} {effectiveAt now : Time}
    (hsingle : ∀ {i j a b}, fleet.assignments.find i = some a → fleet.assignments.find j = some b → a.tablet = b.tablet →
      a.isOpen = true → b.isOpen = true → i = j) {i : ℕ} {b : TabletVehicleAssignment}
    (hb : (fleet.endAssignment id effectiveAt now).find i = some b) (hopen : b.isOpen = true) :
    fleet.assignments.find i = some b ∧ b.tablet ≠ id := by
  unfold Fleet.endAssignment at hb
  split at hb
  · rename_i j a hfirst
    obtain ⟨ha, hsel⟩ := Table.first_eq_some hfirst
    simp only [decide_eq_true_eq] at hsel
    rw [Table.find_modify] at hb
    split at hb
    · obtain ⟨a', -, rfl⟩ := Option.map_eq_some_iff.mp hb
      simp [TabletVehicleAssignment.finished, TabletVehicleAssignment.isOpen] at hopen
    · rename_i hne
      refine ⟨hb, fun htablet => hne ?_⟩
      exact hsingle ha hb (hsel.1.trans htablet.symm) hsel.2 hopen
  · rename_i hnone
    refine ⟨hb, fun htablet => ?_⟩
    have hno := Table.first_eq_none.mp hnone i b hb
    simp [htablet, hopen] at hno

theorem nextId_endAssignment (fleet : Fleet) (id : TabletId) (effectiveAt now : Time) :
    (fleet.endAssignment id effectiveAt now).nextId = fleet.assignments.nextId := by
  unfold Fleet.endAssignment
  split <;> simp

/-- The new assignment is the open one of its tablet. -/
theorem Placed.assigned {fleet : Fleet} {id : TabletId} {vehicleId : VehicleId} {tablet : Tablet} {vehicle : Vehicle}
    {validFrom now : Time} (hp : Placed fleet.tablets fleet.stations fleet.vehicles fleet.assignments)
    (htablets : Housed fleet.tablets tablets') (htablet : fleet.tablets.find id = some tablet)
    (hvehicle : fleet.vehicles.find vehicleId = some vehicle)
    (hvalid : Delivery.validateTabletVehicle fleet tablet vehicle = .ok ()) :
    Placed tablets' fleet.stations fleet.vehicles ((fleet.endAssignment id validFrom now).insert
      { tablet := id, vehicle := vehicleId, validFrom := validFrom }) := by
  have hcases : ∀ {i a}, ((fleet.endAssignment id validFrom now).insert
      { tablet := id, vehicle := vehicleId, validFrom := validFrom }).find i = some a → a.isOpen = true →
      i = fleet.assignments.nextId ∧ a = { tablet := id, vehicle := vehicleId, validFrom := validFrom } ∨
        fleet.assignments.find i = some a ∧ a.tablet ≠ id := by
    intro i a ha hopen
    rw [Table.find_insert, nextId_endAssignment] at ha
    split at ha
    · cases ha
      exact .inl ⟨‹_›, rfl⟩
    · exact .inr (find_endAssignment hp.single ha hopen)
  refine ⟨fun ha hb htab hopen hopen' => ?_, fun ha hopen => ?_, hp.stationed⟩
  · rcases hcases ha hopen with ⟨rfl, rfl⟩ | ⟨ha₀, hne⟩
    · rcases hcases hb hopen' with ⟨rfl, -⟩ | ⟨-, hne⟩
      · rfl
      · exact absurd htab.symm hne
    · rcases hcases hb hopen' with ⟨rfl, rfl⟩ | ⟨hb₀, -⟩
      · exact absurd htab hne
      · exact hp.single ha₀ hb₀ htab hopen hopen'
  · rcases hcases ha hopen with ⟨rfl, rfl⟩ | ⟨ha₀, -⟩
    · obtain ⟨hactive, hdepartment, station, hstation, hstationActive⟩ := Delivery.validateTabletVehicle_ok hvalid
      obtain ⟨station', hstation', hin⟩ := hp.stationed hvehicle
      rw [hstation] at hstation'
      cases hstation'
      obtain ⟨tablet', htablet', hsame⟩ := htablets id tablet htablet
      exact ⟨tablet', vehicle, station, htablet', hvehicle, hstation, hactive, hsame.trans hdepartment, hstationActive, hin⟩
    · exact (hp.inService ha₀ hopen).kept htablets .refl ha₀ hopen

/-! ### Every run -/

def Registry.Placed (s : Registry) : Prop :=
  Tablets.Placed s.fleet.tablets s.fleet.stations s.fleet.vehicles s.fleet.assignments

theorem Registry.Placed.step (h : Taken settings s action t) (hp : s.Placed) : t.Placed := by
  have htablets : Housed s.fleet.tablets t.fleet.tablets := by
    intro i row hrow
    obtain ⟨row', hrow', hkept⟩ := h.tablets.rows hrow
    exact ⟨row', hrow', hkept.1⟩
  have harranged := h.arranged
  unfold Registry.Placed at hp ⊢
  generalize t.fleet.tablets = tablets', t.fleet.stations = stations', t.fleet.vehicles = vehicles',
    t.fleet.assignments = assignments' at htablets harranged ⊢
  cases harranged with
  | kept => exact hp.kept htablets .refl (fun _ _ ha _ => ha) fun _ _ => hp.stationed
  | stationCreated => exact hp.stationCreated htablets
  | stationChanged hempty => exact hp.stationChanged htablets hempty
  | vehicleCreated hrow hdepartment => exact hp.vehicleCreated htablets hrow hdepartment
  | vehicleChanged hvehicle hretired haction => exact hp.vehicleChanged htablets hvehicle hretired
  | vehicleRetired => exact hp.vehicleRetired htablets
  | assigned htablet hvehicle hvalid => exact hp.assigned htablets htablet hvehicle hvalid

theorem placed_of_reachable (h : (tabletSystem settings).Reachable s) : s.Placed := by
  refine (tabletSystem_invariant (fun s hs => ?_) (fun s action t hI ht => hI.step ht) h).2
  obtain ⟨-, -, hvehicles, -, -, hassignments, -⟩ := hs
  unfold Registry.Placed
  rw [hvehicles, hassignments]
  constructor
  · intro i j a b ha
    cases ha
  · intro i a ha
    cases ha
  · intro i v hv
    cases hv

/-- The vehicles that were in service and are not any more have been retired. -/
def retiredAfter (s t : Registry) (retired : List VehicleId) : List VehicleId :=
  retired ++ (s.fleet.vehicles.entries.filter fun e =>
    e.2.active ∧ ∃ v ∈ t.fleet.vehicles.find e.1, v.active = false).map Prod.fst

/-- The tablet system beside the list of its retired vehicles. -/
def retiring (settings : Settings) : Machine (Registry × List VehicleId) Action :=
  (tabletSystem settings).recording [] retiredAfter

/-- No administrator sets the flag of a retired vehicle again. -/
def Terminal (s : Registry) (retired : List VehicleId) : Action → Prop
  | .updateVehicle admin id _ active => active = true →
    ∀ vehicle, s.fleet.vehicles.find id = some vehicle → admin vehicle.department = true → id ∉ retired
  | _ => True

/-- Retired vehicles are out of service. -/
def Retired (s : Registry) (retired : List VehicleId) : Prop :=
  ∀ id ∈ retired, ∃ v, s.fleet.vehicles.find id = some v ∧ v.active = false

theorem Retired.step (h : Taken settings s action t) {retired : List VehicleId} (hterminal : Terminal s retired action)
    (hr : Retired s retired) : Retired t (retiredAfter s t retired) := by
  intro id hid
  rcases List.mem_append.mp hid with hold | hnew
  · obtain ⟨v, hv, hout⟩ := hr id hold
    have harranged := h.arranged
    generalize t.fleet.stations = stations', t.fleet.vehicles = vehicles', t.fleet.assignments = assignments' at harranged ⊢
    have hmodified : ∀ {changed : VehicleId} {active : Bool}, (changed = id → active = false) → ∃ v',
        (s.fleet.vehicles.modify changed fun row => { row with active := active }).find id = some v' ∧
          v'.active = false := by
      intro changed active hactive
      rw [Table.find_modify, hv]
      split
      · exact ⟨_, rfl, hactive ‹_›⟩
      · exact ⟨v, rfl, hout⟩
    cases harranged with
    | vehicleCreated hrow hdepartment =>
      rw [Table.find_insert, if_neg (Table.lt_nextId_of_find hv).ne]
      exact ⟨v, hv, hout⟩
    | @vehicleChanged changed vehicle active hvehicle hretired haction =>
      refine hmodified fun hsame => ?_
      obtain ⟨admin, details, hadmin, rfl⟩ := haction
      rw [← Bool.not_eq_true]
      exact fun hactive => hterminal hactive vehicle hvehicle hadmin (hsame ▸ hold)
    | vehicleRetired => exact hmodified fun _ => rfl
    | _ => exact ⟨v, hv, hout⟩
  · obtain ⟨⟨i, v⟩, hmem, rfl⟩ := List.mem_map.mp hnew
    have hsel := (List.mem_filter.mp hmem).2
    simp only [decide_eq_true_eq, Option.mem_def] at hsel
    exact hsel.2

/-- In every run in which no administrator sets the flag of a retired vehicle again: a tablet has
one open assignment at most, an open one puts a tablet on a vehicle in service of its department
whose station is active and in that department, and a retired vehicle stays out of service. -/
theorem assignments_inService {retired : List VehicleId}
    (h : (retiring settings).ReachableBy (fun w => Terminal w.1 w.2) (s, retired)) :
    (∀ i j a b, s.fleet.assignments.find i = some a → s.fleet.assignments.find j = some b → a.tablet = b.tablet →
      a.isOpen = true → b.isOpen = true → i = j) ∧
    (∀ i a, s.fleet.assignments.find i = some a → a.isOpen = true →
      InService s.fleet.tablets s.fleet.stations s.fleet.vehicles a) ∧
    ∀ id ∈ retired, ∃ vehicle, s.fleet.vehicles.find id = some vehicle ∧ vehicle.active = false := by
  obtain ⟨hreach, hretired⟩ : (tabletSystem settings).Reachable s ∧ Retired s retired := by
    refine h.recording_invariant (fun s _ id hid => absurd hid List.not_mem_nil) ?_
    rintro s retired action t hreach hr hterminal rfl
    have htaken : Taken settings s action (s.step settings action) := step_taken (sound_of_reachable hreach).1 action
    exact hr.step htaken hterminal
  have hp := placed_of_reachable hreach
  exact ⟨fun i j a b => hp.single, fun i a => hp.inService, hretired⟩

/-! ### A retired vehicle in service again -/

/-- The assigned tablet of the sample, a minute later. -/
def placedTablet : Registry × List VehicleId :=
  (assignedTablet ++ [Action.tick 60000000]).foldl (recordedStep retiredAfter) (sampleRegistry, [])

theorem reachableBy_placedTablet :
    (retiring sampleSettings).ReachableBy (fun w => Terminal w.1 w.2) placedTablet := by
  have hinit : (retiring sampleSettings).ReachableBy (fun w => Terminal w.1 w.2) (sampleRegistry, []) :=
    .init ⟨init_sampleRegistry, rfl⟩
  refine reachableBy_recordedRun hinit _ fun action haction w => ?_
  simp only [assignedTablet, List.mem_append, List.mem_cons, List.not_mem_nil, or_false] at haction
  rcases haction with (rfl | rfl | rfl | rfl) | rfl <;> trivial

/-- Its vehicle is retired, which ends the assignment. -/
theorem retiredVehicle_outOfService :
    (recordedStep retiredAfter placedTablet (.retireVehicle (fun _ => true) 0)).2 = [0] ∧
      ∃ vehicle, (recordedStep retiredAfter placedTablet (.retireVehicle (fun _ => true) 0)).1.fleet.vehicles.find 0 =
        some vehicle ∧ vehicle.active = false := by
  have hterminal : Terminal placedTablet.1 placedTablet.2 (.retireVehicle (fun _ => true) 0) := trivial
  have hreach := reachableBy_recordedStep reachableBy_placedTablet hterminal
  have hretired : (recordedStep retiredAfter placedTablet (.retireVehicle (fun _ => true) 0)).2 = [0] := by decide +kernel
  generalize recordedStep retiredAfter placedTablet (.retireVehicle (fun _ => true) 0) = w at *
  obtain ⟨s, retired⟩ := w
  refine ⟨hretired, (assignments_inService hreach).2.2 0 ?_⟩
  rw [show retired = [0] from hretired]
  exact List.mem_singleton_self 0

/-- An edit of the retired vehicle puts it in service again. -/
theorem retiredVehicle_revived : ∃ s retired vehicle, (retiring sampleSettings).Reachable (s, retired) ∧ 0 ∈ retired ∧
    s.fleet.vehicles.find 0 = some vehicle ∧ vehicle.active = true := by
  have hreach : (retiring sampleSettings).Reachable (recordedStep retiredAfter
      (recordedStep retiredAfter placedTablet (.retireVehicle (fun _ => true) 0))
      (.updateVehicle (fun _ => true) 0 ⟨[86], [86], []⟩ true)) :=
    reachable_recordedStep (reachable_recordedStep reachableBy_placedTablet.reachable _) _
  have hretired : (recordedStep retiredAfter
      (recordedStep retiredAfter placedTablet (.retireVehicle (fun _ => true) 0))
      (.updateVehicle (fun _ => true) 0 ⟨[86], [86], []⟩ true)).2 = [0] := by decide +kernel
  have hactive : (recordedStep retiredAfter
      (recordedStep retiredAfter placedTablet (.retireVehicle (fun _ => true) 0))
      (.updateVehicle (fun _ => true) 0 ⟨[86], [86], []⟩ true)).1.fleet.vehicles.find 0 =
      some { department := 1, station := 0 } := by decide +kernel
  generalize recordedStep retiredAfter _ _ = w at *
  exact ⟨w.1, w.2, _, hreach, by rw [hretired]; exact List.mem_singleton_self 0, hactive, rfl⟩

end FireDash.Tablets
