import FireDash.Publications.Services.Queue

/-! People and their station assignments, with the services that change them. -/
namespace FireDash.Personnel

open Json (Text strip text)
open Publications (Actor DepartmentId Time)

abbrev PersonId := ℕ
abbrev StationId := ℕ
abbrev AssignmentId := ℕ

/-! ### Rows -/

inductive LifecycleStatus where
  | active
  | departed
  | anonymized
  deriving DecidableEq

structure Person where
  department : DepartmentId
  personnelNumber : Option Text := none
  firstName : Option Text := none
  lastName : Option Text := none
  displayName : Text := []
  lifecycleStatus : LifecycleStatus := .active
  active : Bool := true
  incidentCommanderEligible : Bool := false
  incidentCommanderEmail : Option Text := none
  emailVerifiedAt : Option Time := none
  emailVerifiedBy : Option Actor := none
  departedAt : Option Time := none
  retentionUntil : Option Time := none
  anonymizedAt : Option Time := none
  anonymizedBy : Option Actor := none
  deriving DecidableEq

inductive AssignmentType where
  | home
  | temporary
  deriving DecidableEq

structure StationAssignment where
  person : PersonId
  station : StationId
  assignmentType : AssignmentType
  validFrom : Time
  validUntil : Option Time := none
  reason : Text := []
  createdBy : Actor
  endedBy : Option Actor := none
  endedAt : Option Time := none
  deriving DecidableEq

structure RetentionPolicy where
  department : DepartmentId
  retentionPeriod : ℕ
  updatedBy : Actor
  deriving DecidableEq

/-- A station or a department, as the caller of a service holds it. -/
structure Station where
  id : StationId
  department : DepartmentId
  active : Bool := true
  deriving DecidableEq

structure Department where
  id : DepartmentId
  operational : Bool := true
  deriving DecidableEq

/-- A deleted person leaves an empty place. -/
structure State where
  people : Table (Option Person) := ⟨[]⟩
  assignments : Table StationAssignment := ⟨[]⟩
  policies : List RetentionPolicy := []
  publications : Publications.Db := {}

def State.person (s : State) (id : PersonId) : Option Person := (s.people.find id).join

/-- What a call observes; `referenced` says that a report transfer names the person. -/
structure Env where
  publications : Publications.Env
  isDepartmentAdmin : Actor → DepartmentId → Bool
  activeStationIds : Actor → List StationId
  operational : DepartmentId → Bool
  station : StationId → Option Station
  referenced : PersonId → Bool

def Env.now (env : Env) : Time := env.publications.now

structure Config where
  publications : Publications.Config
  casefold : Text → Text

inductive Error where
  | permissionDenied (message : String)
  | personnelError (message : String)
  | assignmentError (message : String)
  | integrityError
  | doesNotExist
  | publication (e : Publications.Error)
  deriving DecidableEq

abbrev Service := Tx State Error

/-! ### Constraints of the tables -/

/-- `person_lifecycle_state_consistency` -/
def Person.consistent (p : Person) : Bool :=
  match p.lifecycleStatus with
  | .active => p.active && p.departedAt.isNone
  | .departed => !p.active && p.departedAt.isSome
  | .anonymized => !p.active && p.anonymizedAt.isSome

/-- `unique_active_personnel_number_per_department` -/
def State.numberFree (s : State) (id : PersonId) (p : Person) : Bool :=
  p.lifecycleStatus ≠ .active || p.personnelNumber.isNone || s.people.entries.all fun e =>
    e.1 = id || e.2.all fun q =>
      q.lifecycleStatus ≠ .active || q.department ≠ p.department || q.personnelNumber ≠ p.personnelNumber

/-- `personnel_assignment_valid_window` -/
def StationAssignment.validWindow (a : StationAssignment) : Bool := a.validUntil.all fun u => a.validFrom < u

def StationAssignment.isOpenHome (a : StationAssignment) : Bool :=
  a.assignmentType = .home && a.validUntil.isNone && a.endedAt.isNone

/-- `one_open_home_assignment_per_person` -/
def State.homeFree (s : State) (a : StationAssignment) : Bool :=
  !a.isOpenHome || s.assignments.rows.all fun b => !b.isOpenHome || b.person ≠ a.person

def insertPerson (p : Person) : Service PersonId := do
  let s ← Tx.get
  Tx.ensure (p.consistent = true ∧ s.numberFree s.people.nextId p = true) .integrityError
  Tx.modify fun s => { s with people := s.people.insert (some p) }
  return s.people.nextId

def savePerson (id : PersonId) (p : Person) : Service Unit := do
  let s ← Tx.get
  Tx.ensure (p.consistent = true ∧ s.numberFree id p = true) .integrityError
  Tx.modify fun s => { s with people := s.people.modify id fun _ => some p }

def insertAssignment (a : StationAssignment) : Service AssignmentId := do
  let s ← Tx.get
  Tx.ensure (a.validWindow = true ∧ s.homeFree a = true) .integrityError
  Tx.modify fun s => { s with assignments := s.assignments.insert a }
  return s.assignments.nextId

/-- Write an assignment that is no open home after it. -/
def closeAssignment (k : AssignmentId) (a : StationAssignment) : Service Unit := do
  Tx.ensure (a.validWindow = true) .integrityError
  Tx.modify fun s => { s with assignments := s.assignments.modify k fun _ => a }

/-! ### Reads -/

/-- An assignment in force at an instant. -/
def StationAssignment.isCurrent (a : StationAssignment) (now : Time) : Bool :=
  a.validFrom ≤ now && a.endedAt.isNone && a.validUntil.all fun u => now < u

def currentHome (s : State) (id : PersonId) (now : Time) : Option (AssignmentId × StationAssignment) :=
  s.assignments.first fun a => a.person = id && a.assignmentType = .home && a.isCurrent now

def visibleStationIds (env : Env) (s : State) (id : PersonId) : List StationId :=
  ((s.assignments.rows.filter fun a =>
    a.person = id && (env.station a.station).any (·.active) && a.isCurrent env.now).map (·.station)).dedup

def stationCanManageVisiblePerson (env : Env) (s : State) (actor : Actor) (id : PersonId) (station : Station) : Bool :=
  station.id ∈ env.activeStationIds actor && s.assignments.rows.any fun a =>
    a.person = id && a.station = station.id && a.isCurrent env.now

def normalizeEmail (cfg : Config) (value : Text) : Text := cfg.casefold (strip value)

/-- A text as the optional column keeps it. -/
def orNone (value : Text) : Option Text := if value = [] then none else some value

/-! ### Shared steps -/

section

variable (cfg : Config) (env : Env)

def markDirty (department : DepartmentId) (station : Station) (actor : Option Actor) : Service Unit := fun s =>
  match Publications.markDirty cfg.publications env.publications
    ⟨some department, some ⟨station.id, station.department⟩, .stationPersonnel⟩ actor s.publications with
  | (.ok _, db) => (.ok (), { s with publications := db })
  | (.error e, db) => (.error (.publication e), { s with publications := db })

def markStations (department : DepartmentId) (stations : List StationId) (actor : Actor) : Service Unit :=
  Tx.forEach (fun id => do
    let station ← Tx.require (env.station id) .doesNotExist
    markDirty cfg env department station (some actor)) stations

def markVisibleStationScopes (id : PersonId) (p : Person) (actor : Actor) : Service Unit := do
  let s ← Tx.get
  markStations cfg env p.department (visibleStationIds env s id) actor

def lockPerson (id : PersonId) : Service Person := do
  let s ← Tx.get
  Tx.require (s.person id) .doesNotExist

def requireDepartmentAdmin (actor : Actor) (department : DepartmentId) (message : String) : Service Unit :=
  Tx.ensure (env.isDepartmentAdmin actor department = true) (.permissionDenied message)

/-- `require_department_admin`, which also asks for an active department. -/
def requireOperationalAdmin (actor : Actor) (department : DepartmentId) : Service Unit :=
  Tx.ensure (env.operational department = true ∧ env.isDepartmentAdmin actor department = true)
    (.permissionDenied "Department administrator scope is required.")

/-- Every active person keeps a home assignment in force. -/
def ensureCurrentHome (id : PersonId) (p : Person) : Service Unit := do
  let s ← Tx.get
  Tx.ensure (p.active = true → (currentHome s id env.now).isSome = true)
    (.assignmentError "Every active person must have exactly one current HOME assignment.")

def validatePersonStation (p : Person) (station : Station) : Service Unit := do
  Tx.ensure (env.operational p.department = true) (.assignmentError "Department is not operationally active.")
  Tx.ensure (p.active = true ∧ station.active = true ∧ p.department = station.department)
    (.assignmentError "Person and station must be active and belong to the same department.")

/-! ### The personnel services -/

def createPerson (actor : Actor) (department : Department) (homeStation : Station) (personnelNumber : Option Text)
    (firstName lastName : Text) (eligible : Bool) (email : Text) : Service PersonId :=
  Tx.atomic do
    requireDepartmentAdmin env actor department.id "Only department administrators can create personnel."
    Tx.ensure (department.id = homeStation.department ∧ homeStation.active = true)
      (.personnelError "Home station must be active and in the personnel department.")
    let displayName := strip (strip firstName ++ text " " ++ strip lastName)
    Tx.ensure (displayName ≠ []) (.personnelError "Personnel display name is required.")
    let normalized := if email = [] then none else some (normalizeEmail cfg email)
    Tx.ensure (normalized.getD [] ≠ [] → eligible = true)
      (.personnelError "Commander eligibility is required before setting commander email.")
    let p : Person :=
      { department := department.id
        personnelNumber := personnelNumber.bind orNone
        firstName := some (strip firstName)
        lastName := some (strip lastName)
        displayName := displayName
        incidentCommanderEligible := eligible
        incidentCommanderEmail := normalized }
    let id ← insertPerson p
    let _ ← insertAssignment
      { person := id, station := homeStation.id, assignmentType := .home, validFrom := env.now, createdBy := actor }
    ensureCurrentHome env id p
    markDirty cfg env department.id homeStation (some actor)
    return id

def updatePerson (actor : Actor) (id : PersonId) (personnelNumber : Option Text) (firstName lastName : Text) :
    Service Unit :=
  Tx.atomic do
    let p ← lockPerson id
    requireDepartmentAdmin env actor p.department "Department administrator scope is required."
    Tx.ensure (p.lifecycleStatus = .active) (.personnelError "Only active personnel can be edited.")
    let q : Person :=
      { p with
        personnelNumber := personnelNumber.bind orNone
        firstName := some (strip firstName)
        lastName := some (strip lastName)
        displayName := strip (strip firstName ++ text " " ++ strip lastName) }
    Tx.ensure (q.displayName ≠ []) (.personnelError "Personnel display name is required.")
    Tx.whenever (q ≠ p) do
      savePerson id q
      markVisibleStationScopes cfg env id q actor

/-- Remove a person without protected history. -/
def deletePerson (actor : Actor) (id : PersonId) : Service Unit :=
  Tx.atomic do
    let p ← lockPerson id
    requireDepartmentAdmin env actor p.department "Department administrator scope is required."
    let s ← Tx.get
    Tx.ensure ((s.assignments.rows.all fun a => a.person ≠ id) = true ∧ env.referenced id = false)
      (.personnelError "Personnel cannot be deleted while protected assignment or history records exist.")
    Tx.modify fun s => { s with people := s.people.modify id fun _ => none }
    markStations cfg env p.department (visibleStationIds env s id) actor

def setCommanderEligibility (actor : Actor) (id : PersonId) (eligible : Bool) (station : Option Station) :
    Service Unit :=
  Tx.atomic do
    let p ← lockPerson id
    let s ← Tx.get
    Tx.ensure (env.isDepartmentAdmin actor p.department = true ∨
        ∃ st ∈ station, st.department = p.department ∧ stationCanManageVisiblePerson env s actor id st = true)
      (.permissionDenied "Personnel is outside the administrator's scope.")
    Tx.ensure (p.lifecycleStatus = .active) (.personnelError "Only active personnel can be commander eligible.")
    Tx.whenever (p.incidentCommanderEligible ≠ eligible) do
      let q : Person :=
        { p with
          incidentCommanderEligible := eligible
          emailVerifiedAt := if eligible then p.emailVerifiedAt else none
          emailVerifiedBy := if eligible then p.emailVerifiedBy else none }
      savePerson id q
      markVisibleStationScopes cfg env id q actor

def setCommanderEmail (actor : Actor) (id : PersonId) (email : Text) : Service Unit :=
  Tx.atomic do
    let p ← lockPerson id
    requireDepartmentAdmin env actor p.department "Department administrator scope is required."
    Tx.ensure (p.incidentCommanderEligible = true)
      (.personnelError "Commander eligibility is required before setting commander email.")
    let normalized := normalizeEmail cfg email
    Tx.whenever (¬(p.incidentCommanderEmail = some normalized ∧ p.emailVerifiedAt = none)) do
      let q : Person :=
        { p with incidentCommanderEmail := some normalized, emailVerifiedAt := none, emailVerifiedBy := none }
      savePerson id q
      markVisibleStationScopes cfg env id q actor

def verifyCommanderEmail (actor : Actor) (id : PersonId) : Service Unit :=
  Tx.atomic do
    let p ← lockPerson id
    requireDepartmentAdmin env actor p.department "Department administrator scope is required."
    Tx.ensure (p.incidentCommanderEligible = true ∧ p.incidentCommanderEmail.getD [] ≠ [])
      (.personnelError "Eligible personnel with an email address are required for verification.")
    Tx.whenever (p.emailVerifiedAt = none) do
      let q : Person := { p with emailVerifiedAt := some env.now, emailVerifiedBy := some actor }
      savePerson id q
      markVisibleStationScopes cfg env id q actor

def setRetentionPolicy (actor : Actor) (department : DepartmentId) (retentionPeriod : ℤ) : Service Unit :=
  Tx.atomic do
    Tx.ensure (env.isDepartmentAdmin actor department = true ∧ 0 < retentionPeriod)
      (.permissionDenied "A positive retention period and department scope are required.")
    let policy : RetentionPolicy := ⟨department, retentionPeriod.toNat, actor⟩
    let s ← Tx.get
    match s.policies.find? (fun row => row.department = department) with
    | none => Tx.modify fun s => { s with policies := s.policies ++ [policy] }
    | some row =>
      Tx.whenever (row.retentionPeriod ≠ policy.retentionPeriod) (Tx.modify fun s =>
        { s with policies := s.policies.map fun row => if row.department = department then policy else row })

/-- The bulk update that ends the assignments without an end. -/
def endOpenAssignments (id : PersonId) (actor : Actor) : Service Unit := do
  let s ← Tx.get
  let ends (a : StationAssignment) : Bool := a.person = id && a.endedAt.isNone && a.validUntil.isNone
  Tx.ensure ((s.assignments.rows.all fun a => !ends a || a.validFrom < env.now) = true) .integrityError
  Tx.modify fun s => { s with assignments := ⟨s.assignments.rows.map fun a =>
    if ends a then { a with validUntil := some env.now, endedAt := some env.now, endedBy := some actor } else a⟩ }

def offboardPerson (actor : Actor) (id : PersonId) : Service Unit :=
  Tx.atomic do
    let p ← lockPerson id
    requireDepartmentAdmin env actor p.department "Only department administrators can offboard personnel."
    let s ← Tx.get
    let policy ← Tx.require (s.policies.find? fun row => row.department = p.department)
      (.personnelError "A department retention policy is required before offboarding.")
    endOpenAssignments env id actor
    savePerson id
      { p with
        lifecycleStatus := .departed
        active := false
        departedAt := some env.now
        retentionUntil := some (env.now + policy.retentionPeriod)
        incidentCommanderEligible := false
        incidentCommanderEmail := none
        emailVerifiedAt := none
        emailVerifiedBy := none }
    markStations cfg env p.department (visibleStationIds env s id) actor

def anonymizePerson (actor : Actor) (id : PersonId) : Service Unit :=
  Tx.atomic do
    let p ← lockPerson id
    requireDepartmentAdmin env actor p.department "Only department administrators can anonymize personnel."
    Tx.ensure (p.lifecycleStatus = .departed ∧ ∃ u ∈ p.retentionUntil, u ≤ env.now)
      (.personnelError "Personnel retention period has not expired.")
    let q : Person :=
      { p with
        personnelNumber := none
        firstName := none
        lastName := none
        displayName := text "Former member"
        incidentCommanderEligible := false
        incidentCommanderEmail := none
        emailVerifiedAt := none
        emailVerifiedBy := none
        lifecycleStatus := .anonymized
        active := false
        anonymizedAt := some env.now
        anonymizedBy := some actor }
    savePerson id q
    markVisibleStationScopes cfg env id q actor

/-! ### The assignment services -/

def createPersonWithHome (department : Department) (station : Station) (actor : Actor) (effectiveAt : Option Time) :
    Service PersonId :=
  Tx.atomic do
    Tx.ensure (department.id = station.department)
      (.assignmentError "Person and home station must belong to the same department.")
    Tx.ensure (department.operational = true) (.assignmentError "Department is not operationally active.")
    Tx.ensure (station.active = true) (.assignmentError "Home station is not operationally active.")
    let p : Person := { department := department.id }
    let id ← insertPerson p
    let _ ← insertAssignment
      { person := id, station := station.id, assignmentType := .home, validFrom := effectiveAt.getD env.now
        createdBy := actor }
    ensureCurrentHome env id p
    return id

def transferHome (id : PersonId) (station : Station) (actor : Actor) (effectiveAt : Option Time) :
    Service AssignmentId :=
  Tx.atomic do
    let p ← lockPerson id
    requireOperationalAdmin env actor p.department
    validatePersonStation env p station
    let effective := effectiveAt.getD env.now
    let s ← Tx.get
    let (k, current) ← Tx.require (currentHome s id env.now)
      (.assignmentError "Active people require one current HOME assignment before transfer.")
    Tx.ensure (current.station ≠ station.id) (.assignmentError "Person already has this home station.")
    closeAssignment k { current with validUntil := some effective, endedAt := some env.now, endedBy := some actor }
    let new ← insertAssignment
      { person := id, station := station.id, assignmentType := .home, validFrom := effective, createdBy := actor }
    ensureCurrentHome env id p
    let previous ← Tx.require (env.station current.station) .doesNotExist
    markDirty cfg env p.department previous (some actor)
    markDirty cfg env p.department station (some actor)
    return new

def createTemporaryAssignment (id : PersonId) (station : Station) (actor : Actor) (validUntil : Option Time)
    (reason : Text) : Service AssignmentId :=
  Tx.atomic do
    let p ← lockPerson id
    requireOperationalAdmin env actor p.department
    validatePersonStation env p station
    let expiry ← Tx.require (validUntil.filter fun u => env.now < u)
      (.assignmentError "Temporary assignments require a future expiry.")
    let k ← insertAssignment
      { person := id, station := station.id, assignmentType := .temporary, validFrom := env.now
        validUntil := some expiry, reason := strip reason, createdBy := actor }
    markDirty cfg env p.department station (some actor)
    return k

/-- End a temporary assignment, by an administrator or by its expiry. -/
def endTemporaryAssignment (k : AssignmentId) (actor : Option Actor) : Service Unit :=
  Tx.atomic do
    let s ← Tx.get
    let a ← Tx.require (s.assignments.find k) .doesNotExist
    let p ← Tx.require (s.person a.person) .doesNotExist
    Tx.ensure (a.assignmentType = .temporary)
      (.assignmentError "Only temporary assignments can be ended through this service.")
    Tx.whenever (a.endedAt = none) do
      Tx.forEach (fun user => requireOperationalAdmin env user p.department) actor.toList
      closeAssignment k { a with endedAt := some env.now, endedBy := actor }
      let station ← Tx.require (env.station a.station) .doesNotExist
      markDirty cfg env p.department station actor

end

end FireDash.Personnel
