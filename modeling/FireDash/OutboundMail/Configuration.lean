import FireDash.Lib.Json
import FireDash.Lib.Transaction

/-! Outbound-mail settings of the system and of the departments: the services that change and
verify them, the rotation of their secrets, and the provider a department delivers with. -/
namespace FireDash.OutboundMail.Configuration

open Json (Text strip text)

abbrev Time := ℕ
abbrev Actor := ℕ
abbrev DepartmentId := ℕ
abbrev Bytes := List UInt8

/-! ### Rows -/

inductive DeliveryMode where
  | disabled
  | api
  | smtp
  deriving DecidableEq

inductive DepartmentDeliveryMode where
  | disabled
  | system
  | customSmtp
  deriving DecidableEq

/-- A provider identity; the one API provider is Brevo. -/
inductive ProviderId where
  | brevo
  | smtp
  deriving DecidableEq

inductive TlsMode where
  | starttls
  | implicitTls
  deriving DecidableEq

inductive VerificationOutcome where
  | success
  | failed
  deriving DecidableEq

/-- A stored application secret. -/
structure Envelope where
  keyVersion : Text
  nonce : Bytes
  ciphertext : Bytes
  deriving DecidableEq

/-- The SMTP columns of either row. -/
structure SmtpSettings where
  host : Text := []
  port : Option ℕ := none
  tlsMode : Option TlsMode := none
  senderName : Text := []
  senderEmail : Text := []
  username : Text := []
  passwordEncrypted : Option Envelope := none
  deriving DecidableEq

/-- The columns of the last verification; blank ones are `none`. -/
structure Verdict where
  outcome : Option VerificationOutcome := none
  verifiedAt : Option Time := none
  code : Text := []
  deriving DecidableEq

structure SystemMailConfiguration where
  deliveryMode : DeliveryMode := .disabled
  apiProvider : Option ProviderId := none
  brevoSenderName : Text := []
  brevoSenderEmail : Text := []
  brevoApiKeyEncrypted : Option Envelope := none
  smtp : SmtpSettings := {}
  outboundMailHttpsProxy : Option Text := none
  verificationProvider : Option ProviderId := none
  verdict : Verdict := {}
  updatedBy : Option Actor := none
  deriving DecidableEq

structure DepartmentMailConfiguration where
  department : DepartmentId
  deliveryMode : DepartmentDeliveryMode := .disabled
  smtp : SmtpSettings := {}
  verdict : Verdict := {}
  updatedBy : Option Actor := none
  deriving DecidableEq

/-- `eligible` are the departments allowed to use the system-managed mail. -/
structure State where
  system : Option SystemMailConfiguration := none
  departments : Table DepartmentMailConfiguration := ⟨[]⟩
  eligible : List DepartmentId := []

/-- The stored secrets of outbound mail. -/
inductive SecretReference where
  | systemApiKey
  | systemSmtpPassword
  | departmentSmtpPassword (id : ℕ)
  deriving DecidableEq

inductive Error where
  | permissionDenied
  | validationError (message : String)
  | mailProviderError (code : Text)
  | applicationSecretError (code : String)
  | rotationError (reference : SecretReference) (code : String)
  | doesNotExist
  | integrityError
  | unexpected
  deriving DecidableEq

abbrev Service := Tx State Error

/-! ### Application secrets -/

/-- The deployment key ring. -/
structure KeyRing where
  keys : List (Text × Bytes)
  activeVersion : Text

/-- Authenticated encryption, the checks of `full_clean` and the proxy validator. -/
structure Config where
  encrypt : Bytes → Bytes → Text → Text → Bytes
  decrypt : Bytes → Bytes → Text → Bytes → Option Text
  validSystem : SystemMailConfiguration → Bool
  validDepartment : DepartmentMailConfiguration → Bool
  validProxy : Text → Bool

/-- What a call observes. -/
structure Env where
  now : Time
  ring : KeyRing
  nonce : Bytes
  isSystemAdmin : Actor → Bool
  isDepartmentAdmin : Actor → DepartmentId → Bool

section

variable (cfg : Config) (env : Env)

/-- The key ring is loaded for every operation and must hold its active key. -/
def configuredCipher : Except Error Bytes :=
  match env.ring.keys.lookup env.ring.activeVersion with
  | some key => .ok key
  | none => .error (.applicationSecretError "key_unavailable")

def encryptApplicationSecret (plaintext context : Text) : Except Error Envelope := do
  let key ← configuredCipher env
  return ⟨env.ring.activeVersion, env.nonce, cfg.encrypt key env.nonce context plaintext⟩

def decryptApplicationSecret (envelope : Envelope) (context : Text) : Except Error Text := do
  let _ ← configuredCipher env
  match env.ring.keys.lookup envelope.keyVersion with
  | none => .error (.applicationSecretError "unknown_key_version")
  | some key =>
    match cfg.decrypt key envelope.nonce context envelope.ciphertext with
    | some plaintext => .ok plaintext
    | none => .error (.applicationSecretError "decryption_failed")

def brevoApiKeyContext : Text := text "outbound-mail:api:brevo"

def smtpPasswordContext : Text := text "outbound-mail:smtp:password"

def departmentSmtpPasswordContext (department : DepartmentId) : Text :=
  text "outbound-mail:department:" ++ text (toString department) ++ text ":smtp:password"

/-! ### Providers -/

structure SmtpEffectiveConfiguration where
  host : Text
  port : ℕ
  tlsMode : TlsMode
  senderName : Text
  senderEmail : Text
  username : Text
  password : Text
  deriving DecidableEq

inductive Provider where
  | brevo (senderName senderEmail apiKey : Text)
  | smtp (configuration : SmtpEffectiveConfiguration)
  deriving DecidableEq

def Provider.providerId : Provider → ProviderId
  | .brevo .. => .brevo
  | .smtp _ => .smtp

def providerConfigurationError : Error := .mailProviderError (text "provider_configuration")

/-- `validate_smtp_configuration`, with the values it found. -/
def SmtpSettings.validate (c : SmtpSettings) : Except Error (ℕ × TlsMode) :=
  match c.port, c.tlsMode with
  | some (port + 1), some tlsMode =>
    if c.host ≠ [] ∧ c.senderName ≠ [] ∧ c.senderEmail ≠ [] then .ok (port + 1, tlsMode)
    else .error (.validationError "SMTP delivery configuration is incomplete.")
  | _, _ => .error (.validationError "SMTP delivery configuration is incomplete.")

def SmtpSettings.paired (c : SmtpSettings) : Bool := decide (c.username ≠ []) == c.passwordEncrypted.isSome

/-- The password of a complete configuration. -/
def SmtpSettings.password (c : SmtpSettings) (context : Text) : Except Error Text :=
  if c.username = [] then .ok []
  else
    match c.passwordEncrypted with
    | none => .error (.applicationSecretError "malformed_envelope")
    | some envelope => decryptApplicationSecret cfg env envelope context

/-- The adapter over complete and paired settings. -/
def SmtpSettings.provider (c : SmtpSettings) (context : Text) : Except Error Provider :=
  match c.validate with
  | .error e => .error e
  | .ok (port, tlsMode) =>
    if c.paired = false then .error providerConfigurationError
    else
      match c.password cfg env context with
      | .ok password => .ok (.smtp ⟨c.host, port, tlsMode, c.senderName, c.senderEmail, c.username, password⟩)
      | .error _ => .error providerConfigurationError

def SystemMailConfiguration.brevoProvider (row : SystemMailConfiguration) : Except Error Provider :=
  match row.brevoApiKeyEncrypted with
  | none => .error providerConfigurationError
  | some envelope =>
    if row.brevoSenderName = [] ∨ row.brevoSenderEmail = [] then .error providerConfigurationError
    else
      match decryptApplicationSecret cfg env envelope brevoApiKeyContext with
      | .ok apiKey => .ok (.brevo row.brevoSenderName row.brevoSenderEmail apiKey)
      | .error _ => .error providerConfigurationError

/-- `resolve_effective_provider`, through the registered factories. -/
def SystemMailConfiguration.effectiveProvider (row : SystemMailConfiguration) : Except Error Provider :=
  match row.deliveryMode, row.apiProvider with
  | .api, some .brevo => row.brevoProvider cfg env
  | .api, some .smtp | .smtp, _ => row.smtp.provider cfg env smtpPasswordContext
  | .api, none | .disabled, _ => .error providerConfigurationError

def SystemMailConfiguration.validateActivation (row : SystemMailConfiguration) : Except Error Unit :=
  match row.deliveryMode with
  | .disabled => .ok ()
  | .api =>
    match row.apiProvider with
    | none => .error (.validationError "An API provider is required for API mail delivery.")
    | some .smtp => .error (.validationError "Unsupported API mail provider.")
    | some .brevo =>
      if row.brevoSenderName ≠ [] ∧ row.brevoSenderEmail ≠ [] ∧ row.brevoApiKeyEncrypted.isSome then .ok ()
      else .error (.validationError "Brevo API delivery configuration is incomplete.")
  | .smtp => do
    let _ ← row.smtp.validate
    if row.smtp.paired then .ok ()
    else .error (.validationError "SMTP username and password must be configured together.")

/-! ### Shared steps -/

def requireSystemAdmin (actor : Actor) : Service Unit := Tx.ensure (env.isSystemAdmin actor = true) .permissionDenied

def requireDepartmentMailManager (actor : Actor) (department : DepartmentId) : Service Unit :=
  Tx.ensure (env.isSystemAdmin actor = true ∨ env.isDepartmentAdmin actor department = true) .permissionDenied

/-- `_locked_configuration`, which creates the row of a new system. -/
def lockedConfiguration : Service SystemMailConfiguration := do
  let s ← Tx.get
  match s.system with
  | some row => return row
  | none =>
    Tx.modify fun s => { s with system := some {} }
    return {}

/-- `system_mail_smtp_auth_pair` and `department_mail_smtp_auth_pair` are the pairing. -/
def saveSystem (row : SystemMailConfiguration) : Service Unit := do
  Tx.ensure (row.smtp.paired = true) .integrityError
  Tx.modify fun s => { s with system := some row }

def invalidateVerification (row : SystemMailConfiguration) : SystemMailConfiguration :=
  { row with verificationProvider := none, verdict := {} }

def State.departmentConfiguration (s : State) (department : DepartmentId) : Option (ℕ × DepartmentMailConfiguration) :=
  s.departments.first fun row => row.department = department

def lockedDepartmentConfiguration (department : DepartmentId) : Service (ℕ × DepartmentMailConfiguration) := do
  let s ← Tx.get
  match s.departmentConfiguration department with
  | some found => return found
  | none =>
    let row : DepartmentMailConfiguration := { department := department }
    Tx.modify fun s => { s with departments := s.departments.insert row }
    return (s.departments.nextId, row)

def saveDepartment (id : ℕ) (row : DepartmentMailConfiguration) : Service Unit := do
  Tx.ensure (row.smtp.paired = true) .integrityError
  Tx.modify fun s => { s with departments := s.departments.modify id fun _ => row }

def invalidateDepartmentSmtpVerification (row : DepartmentMailConfiguration) : DepartmentMailConfiguration :=
  { row with verdict := {} }

/-! ### The system services -/

def configureOutboundMailHttpsProxy (actor : Actor) (proxyUrl : Text) : Service Unit :=
  Tx.atomic do
    requireSystemAdmin env actor
    let proxyUrl := strip proxyUrl
    Tx.ensure (cfg.validProxy proxyUrl = true) (.validationError "A valid HTTPS proxy URL is required.")
    let row ← lockedConfiguration
    Tx.whenever (row.outboundMailHttpsProxy ≠ some proxyUrl)
      (saveSystem (invalidateVerification { row with outboundMailHttpsProxy := some proxyUrl, updatedBy := some actor }))

/-- What the network answers to a verification. -/
inductive Answer where
  | verified
  | refused (code : Text)
  | raises

/-- What a verification of a constructed provider comes to, with the provider that passed it; only
failures of mail providers are recorded. -/
def observe (provider : Except Error Provider) (answer : Answer) : Except Error (Option Provider × Verdict) :=
  match provider, answer with
  | .ok provider, .verified => .ok (some provider, ⟨some .success, some env.now, text "verified"⟩)
  | .ok _, .refused code => .ok (none, ⟨some .failed, some env.now, code⟩)
  | .error (.mailProviderError code), _ => .ok (none, ⟨some .failed, some env.now, code⟩)
  | .ok _, .raises => .error .unexpected
  | .error e, _ => .error e

structure VerificationResult where
  provider : Option ProviderId
  verdict : Verdict
  deriving DecidableEq

/-- Observe the selected provider without sending or changing its activation. -/
def verifySystemMailConfiguration (actor : Actor) (answer : Answer) : Service VerificationResult :=
  Tx.atomic do
    requireSystemAdmin env actor
    let row ← lockedConfiguration
    let identity : Option ProviderId :=
      match row.deliveryMode with
      | .api => row.apiProvider
      | .smtp => some .smtp
      | .disabled => none
    let (passed, verdict) ← Tx.ofExcept (observe env (row.effectiveProvider cfg env) answer)
    let provider := (passed.map Provider.providerId).or identity
    saveSystem { row with verificationProvider := provider, verdict := verdict }
    return ⟨provider, verdict⟩

def configureBrevo (actor : Actor) (senderName senderEmail : Text) : Service Unit :=
  Tx.atomic do
    requireSystemAdmin env actor
    let row ← lockedConfiguration
    let row := { row with
      brevoSenderName := strip senderName, brevoSenderEmail := strip senderEmail, updatedBy := some actor }
    Tx.ensure (cfg.validSystem row = true) (.validationError "full_clean")
    Tx.ensure (row.brevoSenderName ≠ [] ∧ row.brevoSenderEmail ≠ [])
      (.validationError "Brevo sender name and email are required.")
    saveSystem (invalidateVerification row)

def replaceBrevoApiKey (actor : Actor) (apiKey : Text) : Service Unit :=
  Tx.atomic do
    requireSystemAdmin env actor
    Tx.ensure (apiKey ≠ []) (.validationError "An API key is required for replacement.")
    let row ← lockedConfiguration
    let envelope ← Tx.ofExcept (encryptApplicationSecret cfg env apiKey brevoApiKeyContext)
    saveSystem (invalidateVerification { row with brevoApiKeyEncrypted := some envelope, updatedBy := some actor })

def clearBrevoApiKey (actor : Actor) : Service Unit :=
  Tx.atomic do
    requireSystemAdmin env actor
    let row ← lockedConfiguration
    saveSystem (invalidateVerification { row with brevoApiKeyEncrypted := none, updatedBy := some actor })

/-- The endpoint columns a caller sets. -/
structure SmtpEndpoint where
  host : Text
  port : Option ℕ
  tlsMode : Option TlsMode
  senderName : Text
  senderEmail : Text

def SmtpSettings.withEndpoint (c : SmtpSettings) (e : SmtpEndpoint) : SmtpSettings :=
  { c with
    host := strip e.host, port := e.port, tlsMode := e.tlsMode
    senderName := strip e.senderName, senderEmail := strip e.senderEmail }

def configureSmtp (actor : Actor) (endpoint : SmtpEndpoint) : Service Unit :=
  Tx.atomic do
    requireSystemAdmin env actor
    let row ← lockedConfiguration
    let row := { row with smtp := row.smtp.withEndpoint endpoint, updatedBy := some actor }
    Tx.ensure (cfg.validSystem row = true) (.validationError "full_clean")
    let _ ← Tx.ofExcept row.smtp.validate
    saveSystem (invalidateVerification row)

def replaceSmtpCredentials (actor : Actor) (username password : Text) : Service Unit :=
  Tx.atomic do
    requireSystemAdmin env actor
    Tx.ensure (username ≠ [] ∧ password ≠ [])
      (.validationError "SMTP username and password are both required for replacement.")
    let row ← lockedConfiguration
    let envelope ← Tx.ofExcept (encryptApplicationSecret cfg env password smtpPasswordContext)
    saveSystem (invalidateVerification { row with
      smtp := { row.smtp with username := username, passwordEncrypted := some envelope }, updatedBy := some actor })

def clearSmtpCredentials (actor : Actor) : Service Unit :=
  Tx.atomic do
    requireSystemAdmin env actor
    let row ← lockedConfiguration
    saveSystem (invalidateVerification { row with
      smtp := { row.smtp with username := [], passwordEncrypted := none }, updatedBy := some actor })

def setDeliveryMode (actor : Actor) (deliveryMode : DeliveryMode) (apiProvider : Option ProviderId) : Service Unit :=
  Tx.atomic do
    requireSystemAdmin env actor
    let row ← lockedConfiguration
    let row := { row with
      deliveryMode := deliveryMode
      apiProvider := if deliveryMode = .api then apiProvider else row.apiProvider }
    Tx.ensure (cfg.validSystem row = true) (.validationError "full_clean")
    Tx.ofExcept row.validateActivation
    saveSystem { row with updatedBy := some actor }

/-! ### The department services -/

def configureDepartmentSmtp (actor : Actor) (department : DepartmentId) (endpoint : SmtpEndpoint) : Service Unit :=
  Tx.atomic do
    requireDepartmentMailManager env actor department
    let (id, old) ← lockedDepartmentConfiguration department
    let row := { old with smtp := old.smtp.withEndpoint endpoint }
    Tx.ensure (cfg.validDepartment row = true) (.validationError "full_clean")
    let _ ← Tx.ofExcept row.smtp.validate
    Tx.whenever (row.smtp ≠ old.smtp)
      (saveDepartment id (invalidateDepartmentSmtpVerification { row with updatedBy := some actor }))

def replaceDepartmentSmtpCredentials (actor : Actor) (department : DepartmentId) (username password : Text) :
    Service Unit :=
  Tx.atomic do
    requireDepartmentMailManager env actor department
    Tx.ensure (username ≠ [] ∧ password ≠ [])
      (.validationError "SMTP username and password are both required for replacement.")
    let (id, row) ← lockedDepartmentConfiguration department
    let envelope ←
      Tx.ofExcept (encryptApplicationSecret cfg env password (departmentSmtpPasswordContext department))
    saveDepartment id (invalidateDepartmentSmtpVerification { row with
      smtp := { row.smtp with username := username, passwordEncrypted := some envelope }, updatedBy := some actor })

def clearDepartmentSmtpCredentials (actor : Actor) (department : DepartmentId) : Service Unit :=
  Tx.atomic do
    requireDepartmentMailManager env actor department
    let (id, row) ← lockedDepartmentConfiguration department
    Tx.whenever (row.smtp.username ≠ [] ∨ row.smtp.passwordEncrypted ≠ none)
      (saveDepartment id (invalidateDepartmentSmtpVerification { row with
        smtp := { row.smtp with username := [], passwordEncrypted := none }, updatedBy := some actor }))

/-- Verify a department endpoint without sending a message or changing its mode. -/
def verifyDepartmentSmtpConfiguration (actor : Actor) (department : DepartmentId) (answer : Answer) : Service Verdict :=
  Tx.atomic do
    requireDepartmentMailManager env actor department
    let s ← Tx.get
    let (id, row) ← Tx.require (s.departmentConfiguration department)
      (.validationError "SMTP delivery configuration is incomplete.")
    let (_, verdict) ←
      Tx.ofExcept (observe env (row.smtp.provider cfg env (departmentSmtpPasswordContext department)) answer)
    saveDepartment id { row with verdict := verdict }
    return verdict

def setDepartmentDeliveryMode (actor : Actor) (department : DepartmentId)
    (deliveryMode : Option DepartmentDeliveryMode) : Service Unit :=
  Tx.atomic do
    requireDepartmentMailManager env actor department
    let (id, row) ← lockedDepartmentConfiguration department
    let s ← Tx.get
    let mode ← Tx.require deliveryMode (.validationError "Unsupported department mail delivery mode.")
    Tx.ensure (mode = .system → department ∈ s.eligible)
      (.validationError "This department is not authorized for system-managed mail.")
    Tx.whenever (mode = .customSmtp) do
      let _ ← Tx.ofExcept row.smtp.validate
      Tx.ensure (row.smtp.paired = true)
        (.validationError "SMTP username and password must be configured together.")
    Tx.whenever (row.deliveryMode ≠ mode) (saveDepartment id { row with deliveryMode := mode, updatedBy := some actor })

/-! ### Secret rotation -/

def liveSecretReferences (s : State) : List SecretReference :=
  (if s.system.isSome then [.systemApiKey, .systemSmtpPassword] else []) ++
    s.departments.entries.map fun e => .departmentSmtpPassword e.1

/-- A stored secret under the active key, unless it is already. -/
def rotated (envelope : Envelope) (context : Text) : Except Error Envelope :=
  if envelope.keyVersion = env.ring.activeVersion then .ok envelope
  else do
    let plaintext ← decryptApplicationSecret cfg env envelope context
    encryptApplicationSecret cfg env plaintext context

def rotationFailure (reference : SecretReference) : Error → Error
  | .applicationSecretError code => .rotationError reference code
  | e => e

/-- Re-encrypt one secret; nothing else of its row changes. -/
def rotateSecret (reference : SecretReference) : Service Unit :=
  Tx.mapError (rotationFailure reference) <| Tx.atomic do
    let s ← Tx.get
    match reference with
    | .systemApiKey =>
      match s.system with
      | some row =>
        match row.brevoApiKeyEncrypted with
        | some envelope =>
          let replacement ← Tx.ofExcept (rotated cfg env envelope brevoApiKeyContext)
          saveSystem { row with brevoApiKeyEncrypted := some replacement }
        | none => pure ()
      | none => pure ()
    | .systemSmtpPassword =>
      match s.system with
      | some row =>
        match row.smtp.passwordEncrypted with
        | some envelope =>
          let replacement ← Tx.ofExcept (rotated cfg env envelope smtpPasswordContext)
          saveSystem { row with smtp := { row.smtp with passwordEncrypted := some replacement } }
        | none => pure ()
      | none => pure ()
    | .departmentSmtpPassword id =>
      match s.departments.find id with
      | some row =>
        match row.smtp.passwordEncrypted with
        | some envelope =>
          let replacement ← Tx.ofExcept (rotated cfg env envelope (departmentSmtpPasswordContext row.department))
          saveDepartment id { row with smtp := { row.smtp with passwordEncrypted := some replacement } }
        | none => pure ()
      | none => pure ()

/-- Re-encrypt one row at a time; an error keeps the rows done before it. -/
def rotateOutboundMailSecrets : Service Unit := do
  let _ ← Tx.ofExcept (configuredCipher env)
  let s ← Tx.get
  Tx.forEach (rotateSecret cfg env) (liveSecretReferences s)

/-! ### Resolution -/

inductive UnavailableReason where
  | departmentDisabled
  | managedMailNotAllowed
  | systemMailDisabled
  | systemConfigurationIncomplete
  | systemVerificationRequired
  | departmentSmtpConfigurationIncomplete
  | departmentSmtpVerificationRequired
  | providerConfiguration
  deriving DecidableEq

def Verdict.isCurrent (v : Verdict) : Bool := v.outcome = some .success && v.verifiedAt.isSome

/-- Only an already verified active system provider. -/
def resolveSystemProvider (s : State) : Except UnavailableReason Provider :=
  match s.system with
  | none => .error .systemMailDisabled
  | some row =>
    if row.deliveryMode = .disabled then .error .systemMailDisabled
    else
      let providerId : Option ProviderId := if row.deliveryMode = .api then row.apiProvider else some .smtp
      match row.validateActivation with
      | .error _ => .error .systemConfigurationIncomplete
      | .ok _ =>
        if row.verificationProvider = providerId ∧ row.verdict.isCurrent = true then
          match row.effectiveProvider cfg env with
          | .ok provider => .ok provider
          | .error _ => .error .providerConfiguration
        else .error .systemVerificationRequired

def resolveDepartmentSmtpProvider (row : DepartmentMailConfiguration) : Except UnavailableReason Provider :=
  match row.smtp.validate with
  | .error _ => .error .departmentSmtpConfigurationIncomplete
  | .ok _ =>
    if row.smtp.paired = false then .error .departmentSmtpConfigurationIncomplete
    else if row.verdict.isCurrent = false then .error .departmentSmtpVerificationRequired
    else
      match row.smtp.provider cfg env (departmentSmtpPasswordContext row.department) with
      | .ok provider => .ok provider
      | .error _ => .error .providerConfiguration

/-- The current effective provider of a department, or why it has none. -/
def resolveDepartmentMailProvider (s : State) (department : DepartmentId) : Except UnavailableReason Provider :=
  match s.departmentConfiguration department with
  | none => .error .departmentDisabled
  | some (_, row) =>
    match row.deliveryMode with
    | .disabled => .error .departmentDisabled
    | .system =>
      if department ∈ s.eligible then resolveSystemProvider cfg env s else .error .managedMailNotAllowed
    | .customSmtp => resolveDepartmentSmtpProvider cfg env row

end

end FireDash.OutboundMail.Configuration
