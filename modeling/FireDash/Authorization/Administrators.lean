import FireDash.Lib.Json
import FireDash.Lib.Machine
import FireDash.Lib.Table

/-! Accounts and the roles they hold, and the services that add, suspend, reinstate, revoke and
remove the administrators of departments. -/
namespace FireDash.Authorization

open Json (Text)

abbrev UserId := ℕ
abbrev DepartmentId := ℕ
abbrev StationId := ℕ
abbrev MembershipId := ℕ
abbrev Time := ℕ

inductive Error where
  | permissionDenied (message : String)
  | valueError (message : String)
  | doesNotExist
  | integrityError
  deriving DecidableEq

/-! ### Rows -/

structure User where
  email : Text
  displayName : Text
  isActive : Bool := true
  mfaEnabled : Bool := false
  usablePassword : Bool := true
  deriving DecidableEq

structure AccountSetupToken where
  user : UserId
  tokenHash : Text
  expiresAt : Time
  createdBy : UserId
  usedAt : Option Time := none
  deriving DecidableEq

inductive DepartmentStatus where
  | active
  | suspended
  | deactivated
  deriving DecidableEq

inductive AuthorityStatus where
  | active
  | suspended
  | revoked
  deriving DecidableEq

/-- The one registered role. -/
structure SystemRole where
  user : UserId
  active : Bool := true
  deriving DecidableEq

structure DepartmentMembership where
  user : UserId
  department : DepartmentId
  status : AuthorityStatus := .active
  createdBy : UserId
  revokedAt : Option Time := none
  revokedBy : Option UserId := none
  suspendedAt : Option Time := none
  suspendedBy : Option UserId := none
  deriving DecidableEq

structure StationAdminAssignment where
  user : UserId
  station : StationId
  status : AuthorityStatus := .active
  createdBy : UserId
  revokedAt : Option Time := none
  revokedBy : Option UserId := none
  deriving DecidableEq

/-- The accounts, and the authority given to them; a department is its status, a station its
department. -/
structure Accounts where
  now : Time := 0
  users : Table User := ⟨[]⟩
  departments : Table DepartmentStatus := ⟨[]⟩
  stations : Table DepartmentId := ⟨[]⟩
  systemRoles : Table SystemRole := ⟨[]⟩
  memberships : Table DepartmentMembership := ⟨[]⟩
  stationAssignments : Table StationAdminAssignment := ⟨[]⟩
  setupTokens : Table AccountSetupToken := ⟨[]⟩

namespace Accounts

def found {α : Type} (row : Option α) : Except Error α := row.elim (.error .doesNotExist) .ok

/-! ### Scopes -/

def userIsActive (s : Accounts) (user : UserId) : Bool := (s.users.find user).any fun row => row.isActive

/-- `is_system_admin`; an account that does not exist is not authenticated. -/
def isSystemAdmin (s : Accounts) (user : UserId) : Bool :=
  s.userIsActive user && s.systemRoles.any fun row => row.user = user ∧ row.active

def departmentIsActive (s : Accounts) (department : DepartmentId) : Bool := s.departments.find department = some .active

/-- The filter of `effective_department_admin_memberships`. -/
def isEffective (s : Accounts) (department : DepartmentId) (m : DepartmentMembership) : Bool :=
  m.status = .active ∧ s.userIsActive m.user ∧ s.departmentIsActive m.department ∧ m.department = department

def effectiveDepartmentAdminMemberships (s : Accounts) (department : DepartmentId) :
    List (MembershipId × DepartmentMembership) :=
  s.memberships.filter (s.isEffective department)

/-- `department.id in active_department_ids(user)`. -/
def inActiveDepartmentIds (s : Accounts) (user : UserId) (department : DepartmentId) : Bool :=
  s.userIsActive user && s.departmentIsActive department &&
    s.memberships.any fun m => m.user = user ∧ m.department = department ∧ m.status = .active

def requireDepartmentAdmin (s : Accounts) (actor : UserId) (department : DepartmentId) : Except Error Unit :=
  if ¬s.departmentIsActive department ∨ ¬s.inActiveDepartmentIds actor department then
    .error (.permissionDenied "Department administrator scope is required.")
  else .ok ()

/-- Lifecycle administration belongs to the tenant. -/
def requireTenantLifecycleActor (s : Accounts) (actor : UserId) (department : DepartmentId) : Except Error Unit :=
  if s.isSystemAdmin actor then
    .error (.permissionDenied "System administrators may not manage tenant administrator lifecycle.")
  else s.requireDepartmentAdmin actor department

def preventLastEffectiveAdminRemoval (s : Accounts) (department : DepartmentId) (id : MembershipId)
    (membership : DepartmentMembership) : Except Error Unit :=
  if membership.status ≠ .active then .ok ()
  else if ¬(s.effectiveDepartmentAdminMemberships department).any fun e => e.1 = id then .ok ()
  else if (s.effectiveDepartmentAdminMemberships department).length ≤ 1 then
    .error (.valueError "An operational department must retain one effective Department Administrator.")
  else .ok ()

/-! ### Accounts -/

def setMembership (s : Accounts) (id : MembershipId) (f : DepartmentMembership → DepartmentMembership) : Accounts :=
  { s with memberships := s.memberships.modify id f }

/-- `create_setup_token`: an inactive account with a token of a day. `normalizeEmail` is the
normalization of an address. -/
def createSetupToken (normalizeEmail : Text → Text) (s : Accounts) (actor : UserId) (email displayName tokenHash : Text) :
    Except Error (UserId × Accounts) := do
  let email := normalizeEmail email
  if s.users.any fun row => row.email = email then
    throw (.valueError "An account with this email address already exists.")
  if email = [] then
    throw (.valueError "Users must have an email address.")
  if displayName = [] then
    throw (.valueError "Users must have a display name.")
  if s.setupTokens.any fun row => row.tokenHash = tokenHash then
    throw .integrityError
  let user := s.users.nextId
  return (user, { s with
    users := s.users.insert { email := email, displayName := displayName, isActive := false, usablePassword := false }
    setupTokens := s.setupTokens.insert
      { user := user, tokenHash := tokenHash, expiresAt := s.now + 24 * 3600000000, createdBy := actor } })

/-- `consume_setup_token` with the token of a hash; an unusable one changes nothing. -/
def consumeSetupToken (s : Accounts) (tokenHash : Text) : Accounts :=
  match s.setupTokens.first fun row => row.tokenHash = tokenHash with
  | some (id, token) =>
    if token.usedAt = none ∧ s.now < token.expiresAt then
      { s with
        users := s.users.modify token.user fun row => { row with isActive := true, usablePassword := true }
        setupTokens := s.setupTokens.modify id fun row => { row with usedAt := some s.now } }
    else s
  | none => s

/-- `permanently_deactivate_and_anonymize_user`, with the address it draws. -/
def permanentlyDeactivateAndAnonymizeUser (s : Accounts) (user : UserId) (anonymousEmail : Text) : Except Error Accounts :=
  if s.users.entries.any fun e => e.1 ≠ user ∧ e.2.email = anonymousEmail then .error .integrityError
  else .ok { s with
    users := s.users.modify user fun row => { row with
      email := anonymousEmail, displayName := "Deleted administrator".toList.map Char.toNat, isActive := false
      mfaEnabled := false, usablePassword := false }
    setupTokens := ⟨s.setupTokens.rows.map fun row =>
      if row.user = user ∧ row.usedAt = none then { row with usedAt := some s.now } else row⟩ }

/-! ### Administrators -/

/-- The membership of a new administrator, which the constraint on active roles admits. -/
def createMembership (s : Accounts) (user : UserId) (department : DepartmentId) (actor : UserId) : Except Error Accounts :=
  if s.memberships.any fun m => m.user = user ∧ m.status = .active then .error .integrityError
  else .ok { s with memberships := s.memberships.insert { user := user, department := department, createdBy := actor } }

/-- A system administrator bootstraps an orphaned department only. -/
def requireProvisioningActor (s : Accounts) (actor : UserId) (department : DepartmentId) (status : DepartmentStatus) :
    Except Error Unit :=
  if s.isSystemAdmin actor then
    if status ≠ .active then
      .error (.permissionDenied "Department must be operational before administrator bootstrap.")
    else if s.effectiveDepartmentAdminMemberships department ≠ [] then
      .error (.permissionDenied "System administrators may only bootstrap orphaned departments.")
    else .ok ()
  else if ¬s.inActiveDepartmentIds actor department then
    .error (.permissionDenied "Department administrator scope is required.")
  else .ok ()

def provisionDepartmentAdmin (normalizeEmail : Text → Text) (s : Accounts) (actor : UserId) (department : DepartmentId)
    (email displayName tokenHash : Text) : Except Error Accounts := do
  let status ← found (s.departments.find department)
  s.requireProvisioningActor actor department status
  let created ← createSetupToken normalizeEmail s actor email displayName tokenHash
  created.2.createMembership created.1 department actor

def suspendDepartmentAdmin (s : Accounts) (actor : UserId) (id : MembershipId) : Except Error Accounts := do
  let membership ← found (s.memberships.find id)
  s.requireTenantLifecycleActor actor membership.department
  if membership.status ≠ .active then
    throw (.valueError "Only an active Department Administrator can be suspended.")
  s.preventLastEffectiveAdminRemoval membership.department id membership
  return s.setMembership id fun m =>
    { m with status := .suspended, suspendedAt := some s.now, suspendedBy := some actor }

def reinstateDepartmentAdmin (s : Accounts) (actor : UserId) (id : MembershipId) : Except Error Accounts := do
  let membership ← found (s.memberships.find id)
  s.requireTenantLifecycleActor actor membership.department
  if membership.status ≠ .suspended then
    throw (.valueError "Only a suspended Department Administrator can be reinstated.")
  if s.memberships.entries.any fun e => e.1 ≠ id ∧ e.2.user = membership.user ∧ e.2.status = .active then
    throw (.valueError "This account already actively administers a department.")
  return s.setMembership id fun m => { m with status := .active }

/-- A revoked membership. -/
def revoked (now : Time) (actor : UserId) (m : DepartmentMembership) : DepartmentMembership :=
  { m with status := .revoked, revokedAt := some now, revokedBy := some actor }

def revokeDepartmentAdmin (s : Accounts) (actor : UserId) (id : MembershipId) : Except Error Accounts := do
  let membership ← found (s.memberships.find id)
  s.requireTenantLifecycleActor actor membership.department
  if membership.status ≠ .active ∧ membership.status ≠ .suspended then
    throw (.valueError "Only active or suspended Department Administrator authority can be revoked.")
  s.preventLastEffectiveAdminRemoval membership.department id membership
  return s.setMembership id (revoked s.now actor)

/-- The loop over the memberships of a removed account. -/
def revokeMemberships (s : Accounts) (department : DepartmentId) (actor : UserId) :
    List (MembershipId × DepartmentMembership) → Except Error Accounts
  | [] => .ok s
  | (id, membership) :: rest => do
    s.preventLastEffectiveAdminRemoval department id membership
    if membership.status ≠ .revoked then
      revokeMemberships (s.setMembership id (revoked s.now actor)) department actor rest
    else revokeMemberships s department actor rest

/-- The loop over its station assignments. -/
def revokeStationAssignments (s : Accounts) (actor user : UserId) (department : DepartmentId) : Accounts :=
  { s with stationAssignments := ⟨s.stationAssignments.rows.map fun a =>
      if a.user = user ∧ s.stations.find a.station = some department ∧ a.status ≠ .revoked then
        { a with status := .revoked, revokedAt := some s.now, revokedBy := some actor }
      else a⟩ }

def permanentlyRemoveAdministrator (s : Accounts) (actor user : UserId) (department : DepartmentId) (anonymousEmail : Text) :
    Except Error Accounts := do
  let _ ← found (s.departments.find department)
  s.requireTenantLifecycleActor actor department
  if s.isSystemAdmin user then
    throw (.valueError "A System Administrator cannot be permanently removed from tenant administration.")
  let memberships := s.memberships.filter fun m => m.user = user ∧ m.department = department
  if memberships = [] ∧
      ¬s.stationAssignments.any fun a => a.user = user ∧ s.stations.find a.station = some department then
    throw (.valueError "User has no administrator authority in this department.")
  if (s.memberships.any fun m => m.user = user ∧ m.status = .active ∧ m.department ≠ department) ∨
      s.stationAssignments.any fun a => a.user = user ∧ a.status = .active ∧ s.stations.find a.station ≠ some department then
    throw (.valueError
      "Administrator has authority outside this department and cannot be permanently removed here.")
  let s ← s.revokeMemberships department actor memberships
  (s.revokeStationAssignments actor user department).permanentlyDeactivateAndAnonymizeUser user anonymousEmail

end Accounts

/-! ### Every order of calls -/

/-- The calls, beside the use of a setup token, the edits of other services (station authority,
departments, roles given to an account) and time. -/
inductive Action where
  | provisionDepartmentAdmin (actor : UserId) (department : DepartmentId) (email displayName tokenHash : Text)
  | suspendDepartmentAdmin (actor : UserId) (membership : MembershipId)
  | reinstateDepartmentAdmin (actor : UserId) (membership : MembershipId)
  | revokeDepartmentAdmin (actor : UserId) (membership : MembershipId)
  | permanentlyRemoveAdministrator (actor user : UserId) (department : DepartmentId) (anonymousEmail : Text)
  | consumeSetupToken (tokenHash : Text)
  | editAuthority (systemRoles : Table SystemRole) (stationAssignments : Table StationAdminAssignment)
  | editDepartments (departments : Table DepartmentStatus) (stations : Table DepartmentId)
  | tick (elapsed : Time)

namespace Accounts

/-- A call, in one transaction. -/
def perform (normalizeEmail : Text → Text) (s : Accounts) : Action → Except Error Accounts
  | .provisionDepartmentAdmin actor department email displayName tokenHash =>
    s.provisionDepartmentAdmin normalizeEmail actor department email displayName tokenHash
  | .suspendDepartmentAdmin actor membership => s.suspendDepartmentAdmin actor membership
  | .reinstateDepartmentAdmin actor membership => s.reinstateDepartmentAdmin actor membership
  | .revokeDepartmentAdmin actor membership => s.revokeDepartmentAdmin actor membership
  | .permanentlyRemoveAdministrator actor user department anonymousEmail =>
    s.permanentlyRemoveAdministrator actor user department anonymousEmail
  | .consumeSetupToken tokenHash => .ok (s.consumeSetupToken tokenHash)
  | .editAuthority systemRoles stationAssignments =>
    .ok { s with systemRoles := systemRoles, stationAssignments := stationAssignments }
  | .editDepartments departments stations => .ok { s with departments := departments, stations := stations }
  | .tick elapsed => .ok { s with now := s.now + elapsed }

/-- A call that raises changes nothing. -/
def step (normalizeEmail : Text → Text) (s : Accounts) (action : Action) : Accounts :=
  match s.perform normalizeEmail action with
  | .ok t => t
  | .error _ => s

end Accounts

/-- Every sequence of calls by any actors, from any accounts. -/
def administration (normalizeEmail : Text → Text) : Machine Accounts Action where
  init _ := True
  step s action t := s.step normalizeEmail action = t

end FireDash.Authorization
