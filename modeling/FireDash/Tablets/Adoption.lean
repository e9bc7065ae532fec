import FireDash.Tablets.Models

/-! Adoption and service of tablets: invitations, requests with their challenge, completions and
their replay, check-ins and leases, and the lifecycle of an asset with all it withdraws. -/
namespace FireDash.Tablets

open Json (Text)
open Publications (Bytes Time DepartmentId minute day)
open Delivery (Tablet TabletId AppInstallation InstallationId AppVersion parseAppVersion)

namespace Registry

/-! ### Requirements -/

def requireOperationalTablet (s : Registry) (id : TabletId) (tablet : Tablet) : Except Error Unit :=
  lift (Delivery.requireOperationalTablet s.fleet id tablet s.now)

/-- The asset state and scope needed for operational authorization. -/
def requireActiveOperationalTablet (s : Registry) (id : TabletId) (tablet : Tablet) : Except Error Unit := do
  let department ← found (s.fleet.departments.find tablet.department)
  if department.status ≠ .active ∨ ¬tablet.active then
    throw (.tablet "Tablet department must be active." "installation_inactive")
  if tablet.status ≠ .active then
    throw (.tablet "Tablet is not active for operational service." "installation_inactive")
  if ¬s.fleet.hasCurrentOperationalAssignment id tablet s.now then
    throw (.tablet "Tablet requires a current active vehicle assignment." "installation_inactive")

/-- The department-owned lease from now on. -/
def leaseTarget (s : Registry) (department : DepartmentId) : Except Error Time := do
  let policy ← found (s.policies.find department)
  return s.now + policy.leaseDays * day

/-! ### Invitations and requests -/

def createAdoptionInvitation (settings : Settings) (s : Registry) (admin : DepartmentId → Bool) (id : TabletId)
    (expiresAt : Option Time) (token : Text) : Except Error Registry := do
  let tablet ← found (s.fleet.tablets.find id)
  if ¬admin tablet.department then
    throw .permissionDenied
  s.requireOperationalTablet id tablet
  if s.invitations.any fun i => i.tokenHash = settings.secretDigest token then
    throw .integrityError
  return { s with invitations := s.invitations.insert {
    tablet := id
    tokenHash := settings.secretDigest token
    expiresAt := expiresAt.getD (s.now + invitationDuration) } }

def invitationForToken (settings : Settings) (s : Registry) (token : Text) : Except Error (ℕ × AdoptionInvitation) :=
  match s.invitations.first fun i => i.tokenHash = settings.secretDigest token with
  | none => throw (.tablet "Invitation is invalid or expired.")
  | some (id, invitation) =>
    if invitation.usedAt ≠ none ∨ invitation.revokedAt ≠ none ∨ invitation.expiresAt ≤ s.now then
      throw (.tablet "Invitation is invalid or expired.")
    else return (id, invitation)

/-- `str` of a version. -/
def versionText (version : AppVersion) : String :=
  toString version.major ++ "." ++ toString version.minor ++ "." ++ toString version.patch

/-- A request with its sealed challenge. -/
def createAdoptionRequest (settings : Settings) (s : Registry) (token : Text) (installationUuid : InstallationUuid)
    (appVersion : String) (hpkePublicKey : Bytes) (hpkeCiphersuite : String) (nonce : Bytes) : Except Error Registry := do
  let version ← lift (parseAppVersion appVersion)
  if hpkeCiphersuite ≠ Delivery.hpkeCiphersuite then
    throw (.tablet "Unsupported HPKE cipher suite.")
  let (id, invitation) ← s.invitationForToken settings token
  let tablet ← found (s.fleet.tablets.find invitation.tablet)
  s.requireOperationalTablet invitation.tablet tablet
  let publicKey ← lift (Delivery.parseP256PublicKey settings.crypto hpkePublicKey)
  let context : ChallengeContext :=
    { adoptionRequestId := s.requests.nextId
      installationUuid := installationUuid
      tabletId := invitation.tablet
      publicKeyFingerprint := settings.fingerprint publicKey
      expiresAt := s.now + challengeDuration }
  match settings.hpkeSeal nonce publicKey context with
  | none => throw (.tablet "HPKE sealing failed.")
  | some encryptedChallenge =>
    return { s with requests := s.requests.insert {
      invitation := id
      installationUuid := installationUuid
      appVersion := versionText version
      hpkePublicKey := hpkePublicKey
      expectedHmacDigest := settings.hmacDigest nonce context
      encryptedChallenge := encryptedChallenge
      expiresAt := s.now + challengeDuration } }

/-! ### Completion -/

/-- `complete_adoption` up to the transaction it goes on with. -/
def beginCompletion (s : Registry) (id : ℕ) (challengeResponse : Bytes) (confirmed : Bool) : Except Error Call := do
  if ¬confirmed then
    throw (.tablet "Adoption was not confirmed.")
  let request ← found (s.requests.find id)
  let invitation ← found (s.invitations.find request.invitation)
  if request.completedAt ≠ none then
    return .replay id challengeResponse
  if request.expiresAt ≤ s.now then
    throw (.tablet "Adoption request is expired." "adoption_request_expired")
  if request.failedAttemptCount ≥ maxFailedAttempts then
    throw (.tablet "Adoption request has reached the maximum failed attempts." "adoption_attempt_limit_reached")
  if invitation.usedAt ≠ none then
    throw (.tablet "Invitation has already been used." "invitation_invalid")
  if invitation.revokedAt ≠ none then
    throw (.tablet "Invitation has been revoked." "invitation_invalid")
  if request.expectedHmacDigest ≠ challengeResponse then
    return .recordFailure id
  return .complete id

/-- A failed proof counts for its request and for its invitation, which the last one revokes. -/
def AdoptionInvitation.failed (now : Time) (invitation : AdoptionInvitation) : AdoptionInvitation :=
  { invitation with
    failedAttemptCount := invitation.failedAttemptCount + 1
    revokedAt := if maxFailedAttempts ≤ invitation.failedAttemptCount + 1 then some now else invitation.revokedAt }

/-- `_record_failed_attempt`. -/
def recordFailedAttempt (s : Registry) (id : ℕ) : Registry :=
  match s.requests.find id with
  | none => s
  | some request =>
    if request.completedAt ≠ none ∨ request.expiresAt ≤ s.now then s
    else
      (s.setRequest id fun r => { r with failedAttemptCount := r.failedAttemptCount + 1 }).setInvitation
        request.invitation (AdoptionInvitation.failed s.now)

/-- `_complete_successful_adoption`; the key of the new installation. -/
def completeSuccessfulAdoption (settings : Settings) (s : Registry) (id : ℕ) (credential : Text) :
    Except Error (InstallationId × Registry) := do
  let request ← found (s.requests.find id)
  let invitation ← found (s.invitations.find request.invitation)
  if request.completedAt ≠ none then
    throw (.tablet "Adoption request has already been completed." "adoption_request_completed")
  if request.expiresAt ≤ s.now then
    throw (.tablet "Adoption request is expired." "adoption_request_expired")
  if request.failedAttemptCount ≥ maxFailedAttempts then
    throw (.tablet "Adoption request has reached the maximum failed attempts." "adoption_attempt_limit_reached")
  if invitation.usedAt ≠ none then
    throw (.tablet "Invitation has already been used." "invitation_invalid")
  if invitation.revokedAt ≠ none then
    throw (.tablet "Invitation has been revoked." "invitation_invalid")
  let tablet ← found (s.fleet.tablets.find invitation.tablet)
  s.requireOperationalTablet invitation.tablet tablet
  -- A known identity replays its own completion; it is not installed again.
  if s.identities.any fun i => i.installationUuid = request.installationUuid then
    throw (.tablet "Installation UUID is already provisioned; replay the original completion request.")
  let validUntil ← s.leaseTarget tablet.department
  let t ← s.onDelivery
    (Delivery.completeSuccessfulAdoption invitation.tablet request.appVersion request.hpkePublicKey validUntil s.now)
  let identity : Identity :=
    { installationUuid := request.installationUuid, credentialHash := settings.secretDigest credential }
  let completed (r : AdoptionRequest) : AdoptionRequest :=
    { r with completedAt := some s.now, completionReplayValidUntil := some (s.now + completionReplayDuration) }
  return (s.identities.nextId,
    { t with
      identities := s.identities.insert identity
      requests := s.requests.modify id completed
      invitations := s.invitations.modify request.invitation fun i => { i with usedAt := some s.now } })

/-- `_replay_successful_completion`; the key of the installation that gets a new credential. -/
def replaySuccessfulCompletion (settings : Settings) (s : Registry) (id : ℕ) (challengeResponse : Bytes)
    (credential : Text) : Except Error (InstallationId × Registry) := do
  let request ← found (s.requests.find id)
  let invitation ← found (s.invitations.find request.invitation)
  match s.identities.first fun i => i.installationUuid = request.installationUuid with
  | none => throw .doesNotExist
  | some (installationId, _) =>
    let installation ← found (s.fleet.installations.find installationId)
    if request.completedAt = none ∨ (∀ validUntil ∈ request.completionReplayValidUntil, validUntil ≤ s.now) ∨
        request.completionReplayInvalidatedAt ≠ none ∨ invitation.revokedAt ≠ none ∨
        request.expectedHmacDigest ≠ challengeResponse then
      throw (.tablet "Completion recovery is not available." "adoption_request_completed")
    if installation.status = .revoked ∨ installation.status = .replaced then
      throw (.tablet "Completion recovery is not available." "installation_inactive")
    let rotated (i : Identity) : Identity := { i with credentialHash := settings.secretDigest credential }
    return (installationId, { s with identities := s.identities.modify installationId rotated })

/-! ### Check-ins and leases -/

/-- `update_app_telemetry`, of the version alone. -/
def updateAppTelemetry (installation : AppInstallation) (appVersion : Option String) : AppInstallation :=
  match appVersion with
  | none => installation
  | some version => { installation with appVersion := version }

/-- The version is below the supported minimum. -/
def compatibilityBlocked (installation : AppInstallation) (minimum : Option AppVersion) : Except Error Bool :=
  match minimum with
  | none => return false
  | some minimum => do
    let version ← lift (parseAppVersion installation.appVersion)
    return version.lt minimum

/-- The installation a credential belongs to. -/
def authenticated (settings : Settings) (s : Registry) (id : InstallationId) (credential : Text) :
    Except Error AppInstallation := do
  let installation ← found (s.fleet.installations.find id)
  let identity ← found (s.identities.find id)
  if identity.credentialHash ≠ settings.secretDigest credential then
    throw .permissionDenied
  return installation

def isCurrentInstallation (s : Registry) (id : InstallationId) (installation : AppInstallation) : Bool :=
  ∀ i ∈ s.fleet.installationsOf installation.tablet Delivery.InstallationStatus.isCurrent, i = id

def recoverStaleInstallation (s : Registry) (id : InstallationId) (installation : AppInstallation) (tablet : Tablet) :
    Except Error AppInstallation := do
  if installation.status ≠ .stale ∨ ¬s.isCurrentInstallation id installation then
    throw (.tablet "Installation is not active." "installation_inactive")
  s.requireActiveOperationalTablet installation.tablet tablet
  return { installation with status := .active, authorizationValidUntil := (← s.leaseTarget tablet.department) }

/-- `_eligible_for_lease_renewal`, in an active department. -/
def eligibleForLeaseRenewal (s : Registry) (installation : AppInstallation) (tablet : Tablet) : Bool :=
  installation.status = .active ∧ s.now < installation.authorizationValidUntil ∧ tablet.active ∧ tablet.status = .active ∧
    ∃ d ∈ s.fleet.departments.find tablet.department, d.status = .active

def renewLeaseIfDue (s : Registry) (installation : AppInstallation) (tablet : Tablet) : Except Error AppInstallation := do
  if ¬s.eligibleForLeaseRenewal installation tablet ∨
      s.now + autoRenewThreshold < installation.authorizationValidUntil then
    return installation
  return { installation with authorizationValidUntil := (← s.leaseTarget tablet.department) }

/-- The row a check-in leaves of an installation. -/
def checkedIn (s : Registry) (id : InstallationId) (installation : AppInstallation) (appVersion : Option String)
    (minimum : Option AppVersion) : Except Error AppInstallation := do
  if ¬installation.status.isCurrent then
    throw (.tablet "Installation is not active." "installation_inactive")
  let tablet ← found (s.fleet.tablets.find installation.tablet)
  if tablet.status = .inactive then
    -- A heartbeat of an asset in stock never renews a lease.
    let department ← found (s.fleet.departments.find tablet.department)
    if department.status ≠ .active ∨ ¬tablet.active then
      throw (.tablet "Tablet department must be active." "installation_inactive")
    let installation := updateAppTelemetry installation appVersion
    discard (compatibilityBlocked installation minimum)
    return installation
  let installation : AppInstallation :=
    if installation.status = .active ∧ installation.authorizationValidUntil ≤ s.now then
      { installation with status := .stale }
    else installation
  let installation := updateAppTelemetry installation appVersion
  if ← compatibilityBlocked installation minimum then
    return installation
  if installation.status = .stale then
    s.renewLeaseIfDue (← s.recoverStaleInstallation id installation tablet) tablet
  else
    s.requireActiveOperationalTablet installation.tablet tablet
    s.renewLeaseIfDue installation tablet

def checkIn (settings : Settings) (s : Registry) (id : InstallationId) (credential : Text) (appVersion : Option String)
    (minimum : Option AppVersion) : Except Error Registry := do
  let installation ← s.authenticated settings id credential
  let installation ← s.checkedIn id installation appVersion minimum
  return s.setInstallation id fun _ => installation

/-- The row an explicit refresh leaves of an installation. -/
def refreshed (s : Registry) (installation : AppInstallation) (appVersion : Option String) (minimum : Option AppVersion) :
    Except Error AppInstallation := do
  if installation.status ≠ .active ∨ installation.authorizationValidUntil ≤ s.now then
    throw (.tablet "Installation is not active." "installation_inactive")
  let tablet ← found (s.fleet.tablets.find installation.tablet)
  s.requireOperationalTablet installation.tablet tablet
  if ¬s.eligibleForLeaseRenewal installation tablet then
    throw (.tablet "Only an active, authorized installation can be renewed." "installation_inactive")
  let target ← s.leaseTarget tablet.department
  let installation := updateAppTelemetry installation appVersion
  if ← compatibilityBlocked installation minimum then
    return installation
  return { installation with authorizationValidUntil := max installation.authorizationValidUntil target }

def refreshInstallationLease (settings : Settings) (s : Registry) (id : InstallationId) (credential : Text)
    (appVersion : Option String) (minimum : Option AppVersion) : Except Error Registry := do
  let installation ← s.authenticated settings id credential
  let installation ← s.refreshed installation appVersion minimum
  return s.setInstallation id fun _ => installation

/-! ### The asset lifecycle -/

def activateTablet (s : Registry) (admin : DepartmentId → Bool) (id : TabletId) : Except Error Registry :=
  s.onDelivery (Delivery.activateTablet admin id s.now)

def deactivateTablet (s : Registry) (admin : DepartmentId → Bool) (id : TabletId) : Except Error Registry :=
  s.onDelivery (Delivery.deactivateTablet admin id s.now)

/-- A completed adoption of the tablet may still be replayed. -/
def replayable (s : Registry) (id : TabletId) (request : AdoptionRequest) : Bool :=
  (∃ i ∈ s.invitations.find request.invitation, i.tablet = id) ∧ request.completedAt ≠ none ∧
    (∃ validUntil ∈ request.completionReplayValidUntil, s.now < validUntil) ∧ request.completionReplayInvalidatedAt = none

/-- What `_revoke_tablet_installations` does to the adoptions of a tablet. -/
def revokeAdoptions (s : Registry) (id : TabletId) : Registry :=
  { s with
    requests := ⟨s.requests.rows.map fun r =>
      if s.replayable id r then { r with completionReplayInvalidatedAt := some s.now } else r⟩
    invitations := ⟨s.invitations.rows.map fun i =>
      if i.tablet = id ∧ i.usedAt = none ∧ i.revokedAt = none then { i with revokedAt := some s.now } else i⟩ }

def markTabletLost (s : Registry) (admin : DepartmentId → Bool) (id : TabletId) : Except Error Registry := do
  let t ← s.onDelivery (Delivery.markTabletLost admin id s.now)
  return t.revokeAdoptions id

def retireTablet (s : Registry) (admin : DepartmentId → Bool) (id : TabletId) : Except Error Registry := do
  let t ← s.onDelivery (Delivery.retireTablet admin id s.now)
  return t.revokeAdoptions id

def recoverTablet (s : Registry) (admin : DepartmentId → Bool) (id : TabletId) : Except Error Registry :=
  s.onDelivery (Delivery.recoverTablet admin id)

def revokeInstallation (s : Registry) (admin : DepartmentId → Bool) (id : InstallationId) : Except Error Registry :=
  s.onDelivery (Delivery.revokeInstallation admin id s.now)

def markStaleInstallations (s : Registry) (now : Time) : Except Error Registry :=
  s.onDelivery (Delivery.markStaleInstallations now)

end Registry
end FireDash.Tablets
