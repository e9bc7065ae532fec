import FireDash.Delivery.WorkerGrants

/-! Key grants of document generations: requests, and the worker that serves the oldest
grant that is pending or was left running. -/
namespace FireDash.Delivery

open Publications

/-- Only fresh persisted authorization can request replacement key material. -/
def requestGenerationKeyGrant (publication : PublicationId) (installation : InstallationId) (now : Time) :
    Service (ℕ × KeyGrant) :=
  Tx.atomic do
    let s ← Tx.get
    let _ ← Tx.ofExcept (authorizedGeneration s publication installation now)
    match grantFor s.db.generationKeyGrants publication installation with
    | some (id, grant) =>
      if grant.status = .failed ∨ grant.status = .revoked then
        Tx.modify fun s => s.modifyGenerationKeyGrant id renewedGrant
        return (id, renewedGrant grant)
      return (id, grant)
    | none =>
      let grant : KeyGrant := { publication := publication, appInstallation := installation, createdAt := now }
      Tx.modify fun s => s.insertGenerationKeyGrant grant
      return (s.db.generationKeyGrants.nextId, grant)

/-- Everything `process_next_generation_key_grant` does inside its `try`. -/
def wrapGenerationKey (cfg : Config) (crypto : DeliveryCrypto) (worker : DeliveryWorker) (grant : KeyGrant)
    (now clock : Time) : Service GrantOutcome := do
  let s ← Tx.get
  let context ← Tx.ofExcept (authorizedGeneration s grant.publication grant.appInstallation now)
  let publication ← Tx.require (s.db.publications.find grant.publication) .doesNotExist
  let (documents, key) ← Tx.ofExcept
    (ensureGenerationKey cfg crypto.toCrypto worker.toWorkerEnv s.db.documents grant.publication publication)
  Tx.modify fun s => { s with db := { s.db with documents := documents } }
  let generationKey ← Tx.ofExcept (unwrapKey crypto.toCrypto worker.toWorkerEnv key.wrappedKey)
  let (encapsulatedKey, wrappedKey) ← Tx.ofExcept
    (hpkeSeal crypto worker generationKey context.installation.hpkePublicKey
      { hpkeContext .generation grant.publication publication context with schemaVersion := 2 })
  let s ← Tx.get
  let _ ← Tx.ofExcept (authorizedGeneration s grant.publication grant.appInstallation clock)
  return .ready encapsulatedKey wrappedKey

/-- The errors `process_next_generation_key_grant` turns into an outcome. -/
def generationGrantFailure : Error → Option (Service GrantOutcome)
  | .manifestError message => some (pure (.revoked message))
  | .invalidUnwrap => some (pure (.failed (errorText .invalidUnwrap)))
  | e => if isValueError e then some (pure (.failed (errorText e))) else none

/-- Serve the oldest open grant in one transaction; a grant another worker left running is
taken up again. -/
def processNextGenerationKeyGrant (cfg : Config) (crypto : DeliveryCrypto) (worker : DeliveryWorker)
    (locked : List ℕ) (now clock : Time) : Service (Option ℕ) :=
  Tx.atomic do
    let s ← Tx.get
    match oldest KeyGrant.createdAt (fun id g => (g.status = .pending ∨ g.status = .running) ∧ id ∉ locked)
        s.db.generationKeyGrants with
    | none => return none
    | some (id, grant) =>
      Tx.modify fun s => s.modifyGenerationKeyGrant id fun row => { row with status := .running }
      let outcome ← Tx.handle generationGrantFailure (wrapGenerationKey cfg crypto worker grant now clock)
      Tx.modify fun s => s.modifyGenerationKeyGrant id (outcome.store clock)
      return some id

end FireDash.Delivery
