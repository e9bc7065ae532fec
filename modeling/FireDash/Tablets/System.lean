import FireDash.Tablets.Organization

/-! The tablets of an installation as a machine: every service and every transaction of an adoption
is one step, beside the requests and workers of the delivery. -/
namespace FireDash.Tablets

open Json (Text)
open Publications (Bytes Time DepartmentId)
open Delivery (TabletId InstallationId VehicleId AppVersion Department DepartmentFeature)

/-- A delivery transaction that writes neither tablets nor what they are assigned to. -/
def isExternal : Delivery.Action → Bool
  | .fleet (.setVehicleRescueGuidesWebUrl _ _ _) => true
  | .fleet _ => false
  | _ => true

inductive Action where
  | tick (elapsed : Time)
  | delivery (settings : Delivery.Settings) (a : Delivery.Action)
  | editDepartments (departments : Table Department) (policies : Table TabletPolicy) (features : List DepartmentFeature)
    (minimumAppVersion : Option String)
  | editPersonnel (stations : List StationId)
  | createTablet (admin : DepartmentId → Bool) (department : DepartmentId) (displayName assetNumber : Text)
  | createAdoptionInvitation (admin : DepartmentId → Bool) (id : TabletId) (expiresAt : Option Time) (token : Text)
  | createAdoptionRequest (token : Text) (installationUuid : InstallationUuid) (appVersion : String)
    (hpkePublicKey : Bytes) (hpkeCiphersuite : String) (nonce : Bytes)
  | beginCompletion (id : ℕ) (challengeResponse : Bytes) (confirmed : Bool)
  | finishCompletion (call : ℕ) (credential : Text)
  | checkIn (id : InstallationId) (credential : Text) (appVersion : Option String) (minimum : Option AppVersion)
  | refreshInstallationLease (id : InstallationId) (credential : Text) (appVersion : Option String)
    (minimum : Option AppVersion)
  | markStaleInstallations (now : Time)
  | activateTablet (admin : DepartmentId → Bool) (id : TabletId)
  | deactivateTablet (admin : DepartmentId → Bool) (id : TabletId)
  | markTabletLost (admin : DepartmentId → Bool) (id : TabletId)
  | recoverTablet (admin : DepartmentId → Bool) (id : TabletId)
  | retireTablet (admin : DepartmentId → Bool) (id : TabletId)
  | revokeInstallation (admin : DepartmentId → Bool) (id : InstallationId)
  | createStation (admin : DepartmentId → Bool) (department : DepartmentId) (details : StationDetails) (active : Bool)
  | updateStation (admin : DepartmentId → Bool) (id : StationId) (details : StationDetails) (active : Bool)
  | deactivateStation (id : StationId)
  | createVehicle (admin : DepartmentId → Bool) (department : DepartmentId) (station : StationId) (seenActive : Bool)
    (details : VehicleDetails) (active : Bool)
  | updateVehicle (admin : DepartmentId → Bool) (id : VehicleId) (details : VehicleDetails) (active : Bool)
  | retireVehicle (admin : DepartmentId → Bool) (id : VehicleId)
  | assignTabletVehicle (authorized : Bool) (id : TabletId) (vehicle : VehicleId) (effectiveAt : Option Time)

namespace Registry

/-- The transaction a completion goes on with, and its answer. -/
def finishCompletion (settings : Settings) (s : Registry) (call : Call) (credential : Text) : Registry × Call :=
  match call with
  | .complete id =>
    match s.completeSuccessfulAdoption settings id credential with
    | .ok (installation, t) => (t, .answered installation)
    | .error _ => (s, .refused)
  | .replay id challengeResponse =>
    match s.replaySuccessfulCompletion settings id challengeResponse credential with
    | .ok (installation, t) => (t, .answered installation)
    | .error _ => (s, .refused)
  | .recordFailure id => (s.recordFailedAttempt id, .refused)
  | .answered installation => (s, .answered installation)
  | .refused => (s, .refused)

/-- The transaction of an action; an error rolls it back. -/
def run (settings : Settings) (s : Registry) : Action → Except Error Registry
  | .tick elapsed => return { s with now := s.now + elapsed }
  | .delivery deliverySettings a =>
    if isExternal a then
      return { s with delivery := Tx.exec (a.run settings.crypto deliverySettings) s.delivery }
    else return s
  | .editDepartments departments policies features minimumAppVersion =>
    if s.fleet.departments.nextId ≤ departments.nextId then
      return { s.setFleet (fun fleet => { fleet with departments, features, minimumAppVersion }) with policies }
    else throw .integrityError
  | .editPersonnel stations => return { s with personnel := stations }
  | .createTablet admin department displayName assetNumber => s.createTablet admin department displayName assetNumber
  | .createAdoptionInvitation admin id expiresAt token => s.createAdoptionInvitation settings admin id expiresAt token
  | .createAdoptionRequest token installationUuid appVersion hpkePublicKey hpkeCiphersuite nonce =>
    s.createAdoptionRequest settings token installationUuid appVersion hpkePublicKey hpkeCiphersuite nonce
  | .beginCompletion id challengeResponse confirmed => do
    let call ← s.beginCompletion id challengeResponse confirmed
    return { s with calls := s.calls.insert call }
  | .finishCompletion id credential => do
    let call ← found (s.calls.find id)
    let (t, answer) := s.finishCompletion settings call credential
    return t.setCall id answer
  | .checkIn id credential appVersion minimum => s.checkIn settings id credential appVersion minimum
  | .refreshInstallationLease id credential appVersion minimum =>
    s.refreshInstallationLease settings id credential appVersion minimum
  | .markStaleInstallations now => s.markStaleInstallations now
  | .activateTablet admin id => s.activateTablet admin id
  | .deactivateTablet admin id => s.deactivateTablet admin id
  | .markTabletLost admin id => s.markTabletLost admin id
  | .recoverTablet admin id => s.recoverTablet admin id
  | .retireTablet admin id => s.retireTablet admin id
  | .revokeInstallation admin id => s.revokeInstallation admin id
  | .createStation admin department details active => s.createStation admin department details active
  | .updateStation admin id details active => s.updateStation admin id details active
  | .deactivateStation id => s.deactivateStation id
  | .createVehicle admin department station seenActive details active =>
    s.createVehicle admin department station seenActive details active
  | .updateVehicle admin id details active => s.updateVehicle admin id details active
  | .retireVehicle admin id => s.retireVehicle admin id
  | .assignTabletVehicle authorized id vehicle effectiveAt => s.assignTabletVehicle authorized id vehicle effectiveAt

/-- The state after an action, whichever way it ends. -/
def step (settings : Settings) (s : Registry) (a : Action) : Registry :=
  match s.run settings a with
  | .ok t => t
  | .error _ => s

end Registry

/-- The system, started without stations, vehicles and tablets. -/
def tabletSystem (settings : Settings) : Machine Registry Action where
  init s := Delivery.Deployed s.delivery ∧ s.fleet.stations = ⟨[]⟩ ∧ s.fleet.vehicles = ⟨[]⟩ ∧ s.fleet.tablets = ⟨[]⟩ ∧
    s.fleet.installations = ⟨[]⟩ ∧ s.fleet.assignments = ⟨[]⟩ ∧ s.labels = ⟨[]⟩ ∧ s.identities = ⟨[]⟩ ∧
    s.invitations = ⟨[]⟩ ∧ s.requests = ⟨[]⟩ ∧ s.vehicleDetails = ⟨[]⟩ ∧ s.stationDetails = ⟨[]⟩ ∧ s.calls = ⟨[]⟩
  step s a t := t = s.step settings a

/-! ### A small deployment, for the runs shown with the results -/

/-- Secrets stand for their digests, and a challenge for its own answer. -/
def sampleSettings : Settings where
  crypto := Delivery.sampleCrypto
  secretDigest secret := secret
  fingerprint key := key.map UInt8.toNat
  hmacDigest nonce _ := nonce
  hpkeSeal nonce _ _ := some nonce

/-- Two active departments under their default policies, before the first station. -/
def sampleRegistry : Registry where
  delivery := { fleet := { departments := ⟨[{}, {}]⟩, rescueGuidesUrl := "https://rescue.example" } }
  policies := ⟨[{}, {}]⟩

/-- A run of the sample deployment. -/
def sampleRun (actions : List Action) : Registry := actions.foldl (Registry.step sampleSettings) sampleRegistry

theorem init_sampleRegistry : (tabletSystem sampleSettings).init sampleRegistry := by
  refine ⟨⟨⟨Publications.sampleConfig, .empty⟩, fun h => ?_, fun id hid => ?_, by decide +kernel, rfl, rfl, rfl⟩, rfl, rfl,
    rfl, rfl, rfl, rfl, rfl, rfl, rfl, rfl, rfl, rfl⟩
  · simp [Table.find, sampleRegistry] at h
  · cases hid

/-- The actions meet a condition in the states they are taken in. -/
theorem reachableBy_foldl {settings : Settings} {C : Registry → Action → Prop} {s : Registry} (actions : List Action)
    (h : (tabletSystem settings).ReachableBy C s) (hC : ∀ a ∈ actions, ∀ s, C s a) :
    (tabletSystem settings).ReachableBy C (actions.foldl (Registry.step settings) s) := by
  induction actions generalizing s with
  | nil => exact h
  | cons a rest ih =>
    have hnext : (tabletSystem settings).ReachableBy C (s.step settings a) := h.next (hC a List.mem_cons_self s) rfl
    exact ih hnext fun b hb => hC b (List.mem_cons_of_mem a hb)

theorem reachable_sampleRun (actions : List Action) : (tabletSystem sampleSettings).Reachable (sampleRun actions) :=
  (reachableBy_foldl (C := fun _ _ => True) actions (.init init_sampleRegistry) fun _ _ _ => trivial).reachable

section Recorded

variable {γ : Type} {start : γ} {record : Registry → Registry → γ → γ} {C : Registry × γ → Action → Prop} {w : Registry × γ}

/-- A step of the sample deployment beside a record. -/
def recordedStep (record : Registry → Registry → γ → γ) (w : Registry × γ) (action : Action) : Registry × γ :=
  (w.1.step sampleSettings action, record w.1 (w.1.step sampleSettings action) w.2)

theorem reachableBy_recordedStep (h : ((tabletSystem sampleSettings).recording start record).ReachableBy C w)
    {action : Action} (hC : C w action) :
    ((tabletSystem sampleSettings).recording start record).ReachableBy C (recordedStep record w action) :=
  h.next hC ⟨rfl, rfl⟩

theorem reachable_recordedStep (h : ((tabletSystem sampleSettings).recording start record).Reachable w)
    (action : Action) :
    ((tabletSystem sampleSettings).recording start record).Reachable (recordedStep record w action) :=
  h.next (a := action) ⟨rfl, rfl⟩

theorem reachableBy_recordedRun (h : ((tabletSystem sampleSettings).recording start record).ReachableBy C w)
    (actions : List Action) (hC : ∀ action ∈ actions, ∀ w, C w action) :
    ((tabletSystem sampleSettings).recording start record).ReachableBy C (actions.foldl (recordedStep record) w) := by
  induction actions generalizing w with
  | nil => exact h
  | cons a rest ih =>
    have hnext := reachableBy_recordedStep h (hC a List.mem_cons_self w)
    exact ih hnext fun b hb => hC b (List.mem_cons_of_mem a hb)

end Recorded

/-- The tablet of department 1 is put on its vehicle. -/
def assignedTablet : List Action :=
  [.createStation (fun _ => true) 1 ⟨[83], [83], [83], [83], [83], [83]⟩ true,
    .createVehicle (fun _ => true) 1 0 true ⟨[86], [86], []⟩ true, .createTablet (fun _ => true) 1 [84] [],
    .assignTabletVehicle true 0 0 none]

/-- It is adopted with the invitation code 65 and commissioned. -/
def adoptedTablet : List Action := assignedTablet ++
  [.createAdoptionInvitation (fun _ => true) 0 none [65],
    .createAdoptionRequest [65] 7 "1.0.0" (4 :: List.replicate 64 0) Delivery.hpkeCiphersuite [1],
    .beginCompletion 0 [1] true, .finishCompletion 0 [66], .activateTablet (fun _ => true) 0]

end FireDash.Tablets
