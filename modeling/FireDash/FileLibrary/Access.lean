import FireDash.FileLibrary.Models

/-! Who may touch a library: tenant authority, and the temporary access of a department
administrator to one station library. -/
namespace FireDash.FileLibrary

open Publications (Actor DepartmentId LibraryOwner)

inductive Permission where
  | read
  | manage
  | delete
  deriving DecidableEq

inductive Access where
  | normal
  | temporary
  deriving DecidableEq

/-- `TEMPORARY_ACCESS_DURATION`, six hours. -/
def temporaryAccessDuration : ℕ := 6 * 3600 * 1000000

/-- `require_scope` on the owner of a library. -/
def requireLibrary (env : Env) (actor : Actor) (owner : LibraryOwner) : Except Error Unit :=
  if env.isSystemAdmin actor then .error .permissionDenied
  else
    match owner with
    | .department id => if id ∈ env.activeDepartmentIds actor then .ok () else .error .permissionDenied
    | .station station =>
      if env.activeDepartmentIds actor = [] ∧ station.id ∈ env.activeStationIds actor then .ok ()
      else .error .permissionDenied

/-- `_revoke_access`; a revoked grant keeps its first reason. -/
def revokeAccess (env : Env) (id : ℕ) (reason : String) : Service Unit :=
  Tx.modify fun s => { s with accesses := s.accesses.modify id fun access =>
    if access.revokedAt.isSome then access
    else { access with revokedAt := some env.publications.now, revocationReason := reason } }

/-- The unrevoked grant of a user, if it has one. -/
def State.openAccess (s : State) (actor : Actor) : Option (ℕ × TemporaryStationAccess) :=
  s.accesses.first fun access => access.user = actor ∧ access.revokedAt = none

/-- Whether the holder still has the authority a grant was given under. -/
def TemporaryStationAccess.authorized (env : Env) (access : TemporaryStationAccess) : Bool :=
  access.department ∈ env.activeDepartmentIds access.user ∧ env.stationActive access.station ∧
    env.stationDepartment access.station = some access.department

def activeTemporaryAccess (env : Env) (actor : Actor) : Service (Option (ℕ × TemporaryStationAccess)) :=
  Tx.atomic do
    let s ← Tx.get
    match s.openAccess actor with
    | none => return none
    | some (id, access) =>
      if access.expiresAt ≤ env.publications.now then
        revokeAccess env id "expired"
        return none
      if ¬access.authorized env then
        revokeAccess env id "authority_revoked"
        return none
      return some (id, access)

def revokeTemporaryAccess (env : Env) (actor : Actor) (reason : String) :
    Service (Option (ℕ × TemporaryStationAccess)) :=
  Tx.atomic do
    let active ← activeTemporaryAccess env actor
    match active with
    | some (id, _) => revokeAccess env id reason
    | none => pure ()
    return active

def requireLibraryAccess (env : Env) (actor : Actor) (library : Library) (permission : Permission) :
    Service Access := do
  match requireLibrary env actor library.owner with
  | .ok _ => return .normal
  | .error e =>
    match permission, library.owner with
    | .manage, _ => Tx.raise e
    | _, .department _ => Tx.raise e
    | _, .station station =>
      match ← activeTemporaryAccess env actor with
      | none => Tx.raise .permissionDenied
      | some (_, access) =>
        Tx.ensure (access.station = station.id) .permissionDenied
        return .temporary

/-- The scope row `lock_scope` creates, with the revision of the library. -/
def Library.newScope (library : Library) : Publications.Scope :=
  { key := scopeKwargs library.owner, sourceRevision := library.sourceRevision }

def lockScope (library : Library) : Service Unit := do
  let s ← Tx.get
  match s.publications.scopeWithKey (scopeKwargs library.owner) with
  | some _ => pure ()
  | none =>
    let scopes := s.publications.scopes.insert library.newScope
    Tx.modify fun s => { s with publications := { s.publications with scopes := scopes } }

def getLibrary (id : ℕ) : Service Library := do
  let s ← Tx.get
  Tx.require (s.libraries.find id) .doesNotExist

def lockedLibrary (env : Env) (actor : Actor) (libraryId : ℕ) (permission : Permission) :
    Service (Library × Access) := do
  let preview ← getLibrary libraryId
  let _ ← requireLibraryAccess env actor preview permission
  lockScope preview
  let library ← getLibrary libraryId
  let access ← requireLibraryAccess env actor library permission
  return (library, access)

/-- Persist the expiry clean-up before and after the rollback boundary of a mutation. -/
def libraryMutation {α : Type} (env : Env) (actor : Actor) (libraryId : ℕ) (permission : Permission)
    (function : Service α) : Service α := do
  let _ ← activeTemporaryAccess env actor
  Tx.handle
    (fun e =>
      if e = .permissionDenied then
        some do
          let _ ← activeTemporaryAccess env actor
          Tx.raise e
      else none)
    (Tx.atomic do
      let library ← getLibrary libraryId
      let _ ← requireLibraryAccess env actor library permission
      function)

end FireDash.FileLibrary
