import FireDash.Delivery.System

/-! The tables tablets are administered with: assets and their labels, installations and their
credentials, adoption invitations and requests, vehicles and stations, beside the delivery tables. -/
namespace FireDash.Tablets

open Json (Text)
open Publications (Bytes Time DepartmentId minute day)
open Delivery (Fleet Tablet TabletId AppInstallation InstallationId VehicleId AppVersion)

abbrev StationId := ℕ
abbrev InstallationUuid := ℕ

inductive Error where
  | tablet (message : String) (code : String := "invalid_request")
  | assignment (message : String)
  | permissionDenied
  | doesNotExist
  | integrityError
  | delivery (e : Publications.Error)
  deriving DecidableEq

/-! ### Rows -/

/-- The columns of `Tablet` that name an asset, under the key of the tablet. -/
structure TabletLabel where
  displayName : Text
  assetNumber : Text
  deriving DecidableEq

/-- The tablet policy of a department, under its key. -/
structure TabletPolicy where
  leaseDays : ℕ := 7
  autoEnabled : Bool := false
  assetNumberPrefix : Text := []
  assetNumberWidth : ℕ := 1
  assetNumberSequence : ℕ := 0
  deriving DecidableEq

/-- The identity of an installation, under its key. -/
structure Identity where
  installationUuid : InstallationUuid
  credentialHash : Text
  deriving DecidableEq

structure AdoptionInvitation where
  tablet : TabletId
  tokenHash : Text
  expiresAt : Time
  usedAt : Option Time := none
  revokedAt : Option Time := none
  failedAttemptCount : ℕ := 0
  deriving DecidableEq

structure AdoptionRequest where
  invitation : ℕ
  installationUuid : InstallationUuid
  appVersion : String
  hpkePublicKey : Bytes
  expectedHmacDigest : Bytes
  encryptedChallenge : Bytes
  expiresAt : Time
  completedAt : Option Time := none
  completionReplayValidUntil : Option Time := none
  completionReplayInvalidatedAt : Option Time := none
  failedAttemptCount : ℕ := 0
  deriving DecidableEq

/-- The columns of `Vehicle` beside those of the fleet. -/
structure VehicleDetails where
  displayName : Text
  callSign : Text
  assetIdentifier : Text
  deriving DecidableEq

/-- The columns of `Station` beside those of the fleet. -/
structure StationDetails where
  name : Text
  shortCode : Text
  street : Text
  houseNumber : Text
  postalCode : Text
  city : Text
  deriving DecidableEq

/-- A request to complete an adoption, between the check of its proof and what follows from it. -/
inductive Call where
  | complete (request : ℕ)
  | replay (request : ℕ) (challengeResponse : Bytes)
  | recordFailure (request : ℕ)
  | answered (installation : InstallationId)
  | refused
  deriving DecidableEq

/-! ### Settings -/

/-- `AdoptionChallengeContext`, of the mode `adoption`. -/
structure ChallengeContext where
  adoptionRequestId : ℕ
  installationUuid : InstallationUuid
  tabletId : TabletId
  publicKeyFingerprint : Text
  expiresAt : Time
  deriving DecidableEq

/-- Keyed digests and HPKE; `hpkeSeal` has no value where the primitive raises. -/
structure Settings where
  crypto : Delivery.DeliveryCrypto
  secretDigest : Text → Text
  fingerprint : Bytes → Text
  hmacDigest : Bytes → ChallengeContext → Bytes
  hpkeSeal : Bytes → Bytes → ChallengeContext → Option Bytes

def invitationDuration : ℕ := 15 * minute

def challengeDuration : ℕ := 5 * minute

def maxFailedAttempts : ℕ := 5

def completionReplayDuration : ℕ := 10 * minute

def autoRenewThreshold : ℕ := 2 * day

/-! ### The database -/

/-- The tables. Labels, policies, identities and details lie under the keys of their fleet rows;
`personnel` holds the stations of the open personnel assignments. -/
structure Registry where
  delivery : Delivery.State
  labels : Table TabletLabel := ⟨[]⟩
  policies : Table TabletPolicy := ⟨[]⟩
  identities : Table Identity := ⟨[]⟩
  invitations : Table AdoptionInvitation := ⟨[]⟩
  requests : Table AdoptionRequest := ⟨[]⟩
  vehicleDetails : Table VehicleDetails := ⟨[]⟩
  stationDetails : Table StationDetails := ⟨[]⟩
  personnel : List StationId := []
  calls : Table Call := ⟨[]⟩
  now : Time := 0

namespace Registry

def fleet (s : Registry) : Fleet := s.delivery.fleet

def setFleet (s : Registry) (f : Fleet → Fleet) : Registry := { s with delivery := s.delivery.modifyFleet f }

def setInstallation (s : Registry) (id : InstallationId) (f : AppInstallation → AppInstallation) : Registry :=
  s.setFleet fun fleet => { fleet with installations := fleet.installations.modify id f }

def setInvitation (s : Registry) (id : ℕ) (f : AdoptionInvitation → AdoptionInvitation) : Registry :=
  { s with invitations := s.invitations.modify id f }

def setRequest (s : Registry) (id : ℕ) (f : AdoptionRequest → AdoptionRequest) : Registry :=
  { s with requests := s.requests.modify id f }

def setCall (s : Registry) (id : ℕ) (call : Call) : Registry := { s with calls := s.calls.modify id fun _ => call }

/-- A service of the delivery tables, with its rollback. -/
def onDelivery (s : Registry) (x : Delivery.Service Unit) : Except Error Registry :=
  match x s.delivery with
  | (.ok _, delivery) => .ok { s with delivery := delivery }
  | (.error e, _) => .error (.delivery e)

end Registry

/-- The row of a foreign key. -/
def found {α : Type} (row : Option α) : Except Error α :=
  match row with
  | some a => .ok a
  | none => .error .doesNotExist

/-- Errors of the delivery services, raised here. -/
def lift {α : Type} (x : Except Publications.Error α) : Except Error α := x.mapError .delivery

/-- `str.strip`. -/
def strip (value : Text) : Text := ((value.dropWhile Json.isSpace).reverse.dropWhile Json.isSpace).reverse

end FireDash.Tablets
