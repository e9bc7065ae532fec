import FireDash.Lib.Machine
import FireDash.OutboundMail.Configuration
import Mathlib.Data.UInt

/-! A usable provider is built from the settings that its last verification passed, over every run
of the mail services and of secret rotations. -/
namespace FireDash.OutboundMail.Configuration

open Json (Text text)
open Tx

/-- A successful decryption returns what was encrypted, whichever key and context it used. -/
def Authentic (cfg : Config) : Prop :=
  ∀ key key' nonce context context' plaintext found,
    cfg.decrypt key' nonce context' (cfg.encrypt key nonce context plaintext) = some found → found = plaintext

/-! ### Runs -/

inductive Call where
  | configureOutboundMailHttpsProxy (actor : Actor) (proxyUrl : Text)
  | verifySystemMailConfiguration (actor : Actor) (answer : Answer)
  | configureBrevo (actor : Actor) (senderName senderEmail : Text)
  | replaceBrevoApiKey (actor : Actor) (apiKey : Text)
  | clearBrevoApiKey (actor : Actor)
  | configureSmtp (actor : Actor) (endpoint : SmtpEndpoint)
  | replaceSmtpCredentials (actor : Actor) (username password : Text)
  | clearSmtpCredentials (actor : Actor)
  | setDeliveryMode (actor : Actor) (deliveryMode : DeliveryMode) (apiProvider : Option ProviderId)
  | configureDepartmentSmtp (actor : Actor) (department : DepartmentId) (endpoint : SmtpEndpoint)
  | replaceDepartmentSmtpCredentials (actor : Actor) (department : DepartmentId) (username password : Text)
  | clearDepartmentSmtpCredentials (actor : Actor) (department : DepartmentId)
  | verifyDepartmentSmtpConfiguration (actor : Actor) (department : DepartmentId) (answer : Answer)
  | setDepartmentDeliveryMode (actor : Actor) (department : DepartmentId) (mode : Option DepartmentDeliveryMode)
  | rotateOutboundMailSecrets
  | setEligible (eligible : List DepartmentId)

/-- The transaction of a call, its result dropped. -/
def Call.run (cfg : Config) (env : Env) : Call → Service Unit
  | .configureOutboundMailHttpsProxy actor proxyUrl => Configuration.configureOutboundMailHttpsProxy cfg env actor proxyUrl
  | .verifySystemMailConfiguration actor answer => do
    let _ ← Configuration.verifySystemMailConfiguration cfg env actor answer
  | .configureBrevo actor senderName senderEmail => Configuration.configureBrevo cfg env actor senderName senderEmail
  | .replaceBrevoApiKey actor apiKey => Configuration.replaceBrevoApiKey cfg env actor apiKey
  | .clearBrevoApiKey actor => Configuration.clearBrevoApiKey env actor
  | .configureSmtp actor endpoint => Configuration.configureSmtp cfg env actor endpoint
  | .replaceSmtpCredentials actor username password => Configuration.replaceSmtpCredentials cfg env actor username password
  | .clearSmtpCredentials actor => Configuration.clearSmtpCredentials env actor
  | .setDeliveryMode actor deliveryMode apiProvider => Configuration.setDeliveryMode cfg env actor deliveryMode apiProvider
  | .configureDepartmentSmtp actor department endpoint =>
    Configuration.configureDepartmentSmtp cfg env actor department endpoint
  | .replaceDepartmentSmtpCredentials actor department username password =>
    Configuration.replaceDepartmentSmtpCredentials cfg env actor department username password
  | .clearDepartmentSmtpCredentials actor department => Configuration.clearDepartmentSmtpCredentials env actor department
  | .verifyDepartmentSmtpConfiguration actor department answer => do
    let _ ← Configuration.verifyDepartmentSmtpConfiguration cfg env actor department answer
  | .setDepartmentDeliveryMode actor department mode => Configuration.setDepartmentDeliveryMode env actor department mode
  | .rotateOutboundMailSecrets => Configuration.rotateOutboundMailSecrets cfg env
  | .setEligible eligible => Tx.modify fun s => { s with eligible := eligible }

/-- The effective configuration of a provider: for the API with the stored proxy setting. -/
structure Effective where
  provider : Provider
  proxy : Option Text := none
  deriving DecidableEq

/-- What a verification used, if a provider could be built, and how it came out. -/
structure Verified where
  effective : Option Effective
  outcome : Option VerificationOutcome
  deriving DecidableEq

def effectiveOf (row : SystemMailConfiguration) (provider : Provider) : Effective :=
  ⟨provider, if provider.providerId = .brevo then row.outboundMailHttpsProxy else none⟩

/-- The settings beside the last verification of the system and of each department. -/
structure World where
  state : State := {}
  system : Option Verified := none
  department : DepartmentId → Option Verified := fun _ => none

/-- What a returned verification of the system used and how it came out. -/
def recordSystem (cfg : Config) (env : Env) (call : Call) (w : World) : Option Verified :=
  match call with
  | .verifySystemMailConfiguration actor answer =>
    match (verifySystemMailConfiguration cfg env actor answer w.state).1 with
    | .ok result =>
      let row := w.state.system.getD {}
      some ⟨(row.effectiveProvider cfg env).toOption.map (effectiveOf row), result.verdict.outcome⟩
    | .error _ => w.system
  | _ => w.system

def recordDepartment (cfg : Config) (env : Env) (call : Call) (w : World) : DepartmentId → Option Verified :=
  match call with
  | .verifyDepartmentSmtpConfiguration actor department answer =>
    match (verifyDepartmentSmtpConfiguration cfg env actor department answer w.state).1 with
    | .ok verdict =>
      let provider := (w.state.departmentConfiguration department).bind fun found =>
        (found.2.smtp.provider cfg env (departmentSmtpPasswordContext department)).toOption
      Function.update w.department department (some ⟨provider.map fun p => ⟨p, none⟩, verdict.outcome⟩)
    | .error _ => w.department
  | _ => w.department

def after (cfg : Config) (w : World) (a : Env × Call) : World :=
  ⟨exec (a.2.run cfg a.1) w.state, recordSystem cfg a.1 a.2 w, recordDepartment cfg a.1 a.2 w⟩

/-- Calls run one after another from a system without mail settings. -/
def system (cfg : Config) : Machine World (Env × Call) where
  init w := w.state.system = none ∧ w.state.departments = ⟨[]⟩
  step w a w' := w' = after cfg w a

/-! ### The invariant -/

/-- The envelope holds the plaintext. -/
def Seals (cfg : Config) (envelope : Envelope) (plaintext : Text) : Prop :=
  ∃ key context, envelope.ciphertext = cfg.encrypt key envelope.nonce context plaintext

/-- The columns and the stored password are those of the effective configuration. -/
structure SmtpSettings.Matches (cfg : Config) (c : SmtpSettings) (e : SmtpEffectiveConfiguration) : Prop where
  host : c.host = e.host
  port : c.port = some e.port
  tlsMode : c.tlsMode = some e.tlsMode
  senderName : c.senderName = e.senderName
  senderEmail : c.senderEmail = e.senderEmail
  username : c.username = e.username
  none : c.username = [] → e.password = []
  password : c.username ≠ [] → ∃ envelope, c.passwordEncrypted = some envelope ∧ Seals cfg envelope e.password

def SystemMailConfiguration.Matches (cfg : Config) (row : SystemMailConfiguration) (e : Effective) : Prop :=
  match e.provider with
  | .brevo senderName senderEmail apiKey =>
    row.brevoSenderName = senderName ∧ row.brevoSenderEmail = senderEmail ∧ row.outboundMailHttpsProxy = e.proxy ∧
      ∃ envelope, row.brevoApiKeyEncrypted = some envelope ∧ Seals cfg envelope apiKey
  | .smtp configuration => e.proxy = none ∧ row.smtp.Matches cfg configuration

/-- Every stored envelope holds some secret. -/
def Sealed (cfg : Config) (envelope : Option Envelope) : Prop := ∀ e, envelope = some e → ∃ plaintext, Seals cfg e plaintext

/-- A current verdict is that of the last verification, on the settings as they are. -/
structure SystemMailConfiguration.Sound (cfg : Config) (row : SystemMailConfiguration) (v : Option Verified) : Prop where
  apiKey : Sealed cfg row.brevoApiKeyEncrypted
  password : Sealed cfg row.smtp.passwordEncrypted
  current : row.verdict.isCurrent = true → ∃ e, v = some ⟨some e, some .success⟩ ∧
    row.verificationProvider = some e.provider.providerId ∧ row.Matches cfg e

structure DepartmentMailConfiguration.Sound (cfg : Config) (row : DepartmentMailConfiguration) (v : Option Verified) :
    Prop where
  password : Sealed cfg row.smtp.passwordEncrypted
  current : row.verdict.isCurrent = true → ∃ c, v = some ⟨some ⟨.smtp c, none⟩, some .success⟩ ∧ row.smtp.Matches cfg c

structure Sound (cfg : Config) (s : State) (v : Option Verified) (vd : DepartmentId → Option Verified) : Prop where
  system : ∀ row, s.system = some row → row.Sound cfg v
  department : ∀ id row, s.departments.find id = some row → row.Sound cfg (vd row.department)
  unique : ∀ id id' row row', s.departments.find id = some row → s.departments.find id' = some row' →
    row.department = row'.department → id = id'

section

variable {cfg : Config} {env : Env} {envelope : Envelope} {context plaintext found : Text} {provider : Provider}

theorem seals_of_encrypt (h : encryptApplicationSecret cfg env plaintext context = .ok envelope) :
    Seals cfg envelope plaintext := by
  simp only [encryptApplicationSecret, bind_eq_ok, pure_eq_ok] at h
  obtain ⟨key, -, rfl⟩ := h
  exact ⟨key, context, rfl⟩

theorem eq_of_decrypt (ha : Authentic cfg) (h : decryptApplicationSecret cfg env envelope context = .ok found)
    (hs : Seals cfg envelope plaintext) : found = plaintext := by
  obtain ⟨key, context', hcipher⟩ := hs
  simp only [decryptApplicationSecret, bind_eq_ok] at h
  obtain ⟨-, -, h⟩ := h
  split at h
  · cases h
  · split at h
    · rename_i hdecrypt
      cases h
      rw [hcipher] at hdecrypt
      exact ha _ _ _ _ _ _ _ hdecrypt
    · cases h

theorem seals_of_rotated (ha : Authentic cfg) {replacement : Envelope}
    (h : rotated cfg env envelope context = .ok replacement) (hs : Seals cfg envelope plaintext) :
    Seals cfg replacement plaintext := by
  unfold rotated at h
  split at h
  · cases h
    exact hs
  · simp only [bind_eq_ok] at h
    obtain ⟨found, hdecrypt, hencrypt⟩ := h
    rw [← eq_of_decrypt ha hdecrypt hs]
    exact seals_of_encrypt hencrypt

/-! ### Providers -/

theorem validate_eq_ok {c : SmtpSettings} {found : ℕ × TlsMode} (h : c.validate = .ok found) :
    c.port = some found.1 ∧ c.tlsMode = some found.2 := by
  unfold SmtpSettings.validate at h
  split at h
  · rename_i port tlsMode hport htls
    split at h
    · cases h
      exact ⟨hport, htls⟩
    · cases h
  · cases h

/-- The adapter has the columns of its settings, and the password their envelope opens to. -/
theorem smtpProvider_eq_ok {c : SmtpSettings} (h : c.provider cfg env context = .ok provider) :
    ∃ e : SmtpEffectiveConfiguration, provider = .smtp e ∧ c.host = e.host ∧ c.port = some e.port ∧
      c.tlsMode = some e.tlsMode ∧ c.senderName = e.senderName ∧ c.senderEmail = e.senderEmail ∧
      c.username = e.username ∧ (c.username = [] → e.password = []) ∧
      (c.username ≠ [] → ∃ envelope, c.passwordEncrypted = some envelope ∧
        decryptApplicationSecret cfg env envelope context = .ok e.password) := by
  unfold SmtpSettings.provider at h
  split at h
  · cases h
  · rename_i port tlsMode hvalid
    obtain ⟨hport, htls⟩ := validate_eq_ok hvalid
    split at h
    · cases h
    · split at h
      · rename_i password hpassword
        cases h
        unfold SmtpSettings.password at hpassword
        refine ⟨_, rfl, rfl, hport, htls, rfl, rfl, rfl, fun hno => ?_, fun hsome => ?_⟩
        · rw [if_pos hno] at hpassword
          cases hpassword
          rfl
        · rw [if_neg hsome] at hpassword
          split at hpassword
          · cases hpassword
          · rename_i envelope henvelope
            exact ⟨envelope, henvelope, hpassword⟩
      · cases h

theorem SmtpSettings.matches_of_provider (ha : Authentic cfg) {c : SmtpSettings} (hsealed : Sealed cfg c.passwordEncrypted)
    (h : c.provider cfg env context = .ok provider) : ∃ e, provider = .smtp e ∧ c.Matches cfg e := by
  obtain ⟨e, rfl, hhost, hport, htls, hname, hemail, huser, hnone, hpassword⟩ := smtpProvider_eq_ok h
  refine ⟨e, rfl, hhost, hport, htls, hname, hemail, huser, hnone, fun hsome => ?_⟩
  obtain ⟨envelope, henvelope, hdecrypt⟩ := hpassword hsome
  obtain ⟨plaintext, hs⟩ := hsealed envelope henvelope
  refine ⟨envelope, henvelope, ?_⟩
  rw [eq_of_decrypt ha hdecrypt hs]
  exact hs

/-- Settings that match an effective configuration build that one. -/
theorem SmtpSettings.Matches.provider_eq (ha : Authentic cfg) {c : SmtpSettings} {e : SmtpEffectiveConfiguration}
    (hm : c.Matches cfg e) (h : c.provider cfg env context = .ok provider) : provider = .smtp e := by
  obtain ⟨e', rfl, hhost, hport, htls, hname, hemail, huser, hnone, hpassword⟩ := smtpProvider_eq_ok h
  have hsecret : e'.password = e.password := by
    by_cases hno : c.username = []
    · rw [hnone hno, hm.none hno]
    · obtain ⟨envelope, henvelope, hdecrypt⟩ := hpassword hno
      obtain ⟨envelope', henvelope', hs⟩ := hm.password hno
      rw [henvelope] at henvelope'
      cases henvelope'
      exact eq_of_decrypt ha hdecrypt hs
  have hport' : e'.port = e.port := Option.some.inj (hport.symm.trans hm.port)
  have htls' : e'.tlsMode = e.tlsMode := Option.some.inj (htls.symm.trans hm.tlsMode)
  have hhost' := hhost.symm.trans hm.host
  have hname' := hname.symm.trans hm.senderName
  have hemail' := hemail.symm.trans hm.senderEmail
  have huser' := huser.symm.trans hm.username
  cases e
  cases e'
  simp only [Provider.smtp.injEq, SmtpEffectiveConfiguration.mk.injEq]
  exact ⟨hhost', hport', htls', hname', hemail', huser', hsecret⟩

/-! ### The system row -/

theorem brevoProvider_eq_ok {row : SystemMailConfiguration} (h : row.brevoProvider cfg env = .ok provider) :
    ∃ envelope apiKey, row.brevoApiKeyEncrypted = some envelope ∧
      provider = .brevo row.brevoSenderName row.brevoSenderEmail apiKey ∧
      decryptApplicationSecret cfg env envelope brevoApiKeyContext = .ok apiKey := by
  unfold SystemMailConfiguration.brevoProvider at h
  split at h
  · cases h
  · rename_i envelope henvelope
    split at h
    · cases h
    · split at h
      · rename_i apiKey hdecrypt
        cases h
        exact ⟨envelope, apiKey, henvelope, rfl, hdecrypt⟩
      · cases h

/-- The provider of a row is the one its mode selects, built from the columns of that provider. -/
theorem effectiveProvider_eq_ok {row : SystemMailConfiguration} (h : row.effectiveProvider cfg env = .ok provider) :
    (if row.deliveryMode = .api then row.apiProvider else some .smtp) = some provider.providerId ∧
      (row.brevoProvider cfg env = .ok provider ∧ provider.providerId = .brevo ∨
        row.smtp.provider cfg env smtpPasswordContext = .ok provider ∧ provider.providerId = .smtp) := by
  unfold SystemMailConfiguration.effectiveProvider at h
  split at h
  · rename_i hmode hid
    have hbrevo : provider.providerId = .brevo := by
      obtain ⟨_, _, _, rfl, _⟩ := brevoProvider_eq_ok h
      rfl
    rw [if_pos hmode, hid, hbrevo]
    exact ⟨rfl, .inl ⟨h, rfl⟩⟩
  · rename_i hmode hid
    obtain ⟨_, rfl, _⟩ := smtpProvider_eq_ok h
    rw [if_pos hmode, hid]
    exact ⟨rfl, .inr ⟨h, rfl⟩⟩
  · rename_i hmode
    obtain ⟨_, rfl, _⟩ := smtpProvider_eq_ok h
    rw [hmode]
    exact ⟨rfl, .inr ⟨h, rfl⟩⟩
  · cases h
  · cases h

theorem SystemMailConfiguration.matches_of_provider (ha : Authentic cfg) {row : SystemMailConfiguration}
    (hkey : Sealed cfg row.brevoApiKeyEncrypted) (hpassword : Sealed cfg row.smtp.passwordEncrypted)
    (h : row.effectiveProvider cfg env = .ok provider) : row.Matches cfg (effectiveOf row provider) := by
  rcases (effectiveProvider_eq_ok h).2 with ⟨hbrevo, -⟩ | ⟨hsmtp, -⟩
  · obtain ⟨envelope, apiKey, henvelope, rfl, hdecrypt⟩ := brevoProvider_eq_ok hbrevo
    obtain ⟨plaintext, hs⟩ := hkey envelope henvelope
    rw [← eq_of_decrypt ha hdecrypt hs] at hs
    exact ⟨rfl, rfl, rfl, envelope, henvelope, hs⟩
  · obtain ⟨e, rfl, hmatches⟩ := SmtpSettings.matches_of_provider ha hpassword hsmtp
    exact ⟨rfl, hmatches⟩

/-- A row that matches an effective configuration of its own provider builds that one. -/
theorem SystemMailConfiguration.Matches.effectiveOf_eq (ha : Authentic cfg) {row : SystemMailConfiguration} {e : Effective}
    (hm : row.Matches cfg e) (h : row.effectiveProvider cfg env = .ok provider)
    (hid : provider.providerId = e.provider.providerId) : effectiveOf row provider = e := by
  obtain ⟨verified, proxy⟩ := e
  rcases (effectiveProvider_eq_ok h).2 with ⟨hbrevo, -⟩ | ⟨hsmtp, hp⟩
  · obtain ⟨envelope, apiKey, henvelope, rfl, hdecrypt⟩ := brevoProvider_eq_ok hbrevo
    cases verified with
    | smtp c => cases hid
    | brevo senderName senderEmail key =>
      obtain ⟨hname, hemail, hproxy, envelope', henvelope', hs⟩ := hm
      have hsame : envelope' = envelope := Option.some.inj (henvelope'.symm.trans henvelope)
      have hkey : apiKey = key := eq_of_decrypt ha hdecrypt (hsame ▸ hs)
      change (⟨.brevo row.brevoSenderName row.brevoSenderEmail apiKey, row.outboundMailHttpsProxy⟩ : Effective) = _
      rw [hname, hemail, hkey, hproxy]
  · cases verified with
    | brevo senderName senderEmail key =>
      rw [hp] at hid
      cases hid
    | smtp c =>
      obtain ⟨hproxy, hmatches⟩ := hm
      have hsame : provider = .smtp c := hmatches.provider_eq ha hsmtp
      change proxy = none at hproxy
      rw [hsame, hproxy]
      rfl

/-! ### What the services keep -/

variable {s : State} {v v' : Option Verified} {vd vd' : DepartmentId → Option Verified}

theorem sealed_none : Sealed cfg none := nofun

theorem sealed_of_encrypt (h : encryptApplicationSecret cfg env plaintext context = .ok envelope) :
    Sealed cfg (some envelope) := by
  intro e he
  cases he
  exact ⟨plaintext, seals_of_encrypt h⟩

theorem SystemMailConfiguration.Sound.invalidated {row : SystemMailConfiguration}
    (hkey : Sealed cfg row.brevoApiKeyEncrypted) (hpassword : Sealed cfg row.smtp.passwordEncrypted) :
    (invalidateVerification row).Sound cfg v :=
  ⟨hkey, hpassword, nofun⟩

theorem DepartmentMailConfiguration.Sound.invalidated {row : DepartmentMailConfiguration}
    (hpassword : Sealed cfg row.smtp.passwordEncrypted) : (invalidateDepartmentSmtpVerification row).Sound cfg v :=
  ⟨hpassword, nofun⟩

theorem Sound.withSystem {row : SystemMailConfiguration} (h : Sound cfg s v vd) (hrow : row.Sound cfg v') :
    Sound cfg { s with system := some row } v' vd where
  system row' hrow' := by
    cases hrow'
    exact hrow
  department := h.department
  unique := h.unique

theorem Sound.withDepartment {id : ℕ} {old row : DepartmentMailConfiguration} (h : Sound cfg s v vd)
    (hfind : s.departments.find id = some old) (hsame : row.department = old.department)
    (hrow : row.Sound cfg (vd' row.department)) (hother : ∀ d, d ≠ row.department → vd' d = vd d) :
    Sound cfg { s with departments := s.departments.modify id fun _ => row } v vd' := by
  -- another row keeps its own department, which is not that of the row written
  have hcases : ∀ {k r}, (s.departments.modify id fun _ => row).find k = some r →
      k = id ∧ r = row ∨ k ≠ id ∧ s.departments.find k = some r ∧ r.department ≠ row.department := by
    intro k r hk
    rcases Table.find_modify_cases hfind hk with ⟨rfl, rfl⟩ | ⟨hne, hk⟩
    · exact .inl ⟨rfl, rfl⟩
    · exact .inr ⟨hne, hk, fun hd => hne (h.unique k id r old hk hfind (hd.trans hsame))⟩
  constructor
  · exact h.system
  · intro k r hk
    rcases hcases hk with ⟨-, rfl⟩ | ⟨-, hk, hd⟩
    · exact hrow
    · rw [hother r.department hd]
      exact h.department k r hk
  · intro k k' r r' hk hk' hd
    rcases hcases hk with ⟨rfl, rfl⟩ | ⟨-, hk, hne⟩ <;> rcases hcases hk' with ⟨rfl, rfl⟩ | ⟨-, hk', hne'⟩
    · rfl
    · exact absurd hd.symm hne'
    · exact absurd hd hne
    · exact h.unique k k' r r' hk hk' hd

theorem wp_lockedConfiguration {Q : SystemMailConfiguration → State → Prop} {E : Error → State → Prop}
    (h : Q (s.system.getD {}) { s with system := some (s.system.getD {}) }) : wp lockedConfiguration Q E s := by
  simp only [lockedConfiguration, wp_bind, wp_get]
  obtain ⟨system, departments, eligible⟩ := s
  cases system with
  | some row => exact h
  | none => exact h

theorem Sound.getD (h : Sound cfg s v vd) : (s.system.getD {}).Sound cfg v := by
  cases hrow : s.system with
  | some row => exact h.system row hrow
  | none => exact ⟨sealed_none, sealed_none, nofun⟩

theorem Sound.saveSystem {row : SystemMailConfiguration} (h : Sound cfg s v vd) (hrow : row.Sound cfg v') :
    wp (saveSystem row) (fun _ t => Sound cfg t v' vd) (fun _ _ => True) s := by
  simp only [Configuration.saveSystem, wp_bind, wp_ensure, wp_modify]
  exact ⟨fun _ => h.withSystem hrow, fun _ => trivial⟩

theorem Sound.saveDepartment {id : ℕ} {old row : DepartmentMailConfiguration} (h : Sound cfg s v vd)
    (hfind : s.departments.find id = some old) (hsame : row.department = old.department)
    (hrow : row.Sound cfg (vd' row.department)) (hother : ∀ d, d ≠ row.department → vd' d = vd d) :
    wp (saveDepartment id row) (fun _ t => Sound cfg t v vd') (fun _ _ => True) s := by
  simp only [Configuration.saveDepartment, wp_bind, wp_ensure, wp_modify]
  exact ⟨fun _ => h.withDepartment hfind hsame hrow hother, fun _ => trivial⟩

/-- The row of a department under the lock is sound, whether it was there or not. -/
theorem Sound.lockedDepartmentConfiguration (h : Sound cfg s v vd) (department : DepartmentId) :
    wp (lockedDepartmentConfiguration department) (fun found t => Sound cfg t v vd ∧
      t.departments.find found.1 = some found.2 ∧ found.2.department = department) (fun _ _ => True) s := by
  simp only [Configuration.lockedDepartmentConfiguration, wp_bind, wp_get]
  cases hfound : s.departmentConfiguration department with
  | some found =>
    obtain ⟨hfind, hdept⟩ := Table.first_eq_some hfound
    simp only [decide_eq_true_eq] at hdept
    exact ⟨h, hfind, hdept⟩
  | none =>
    have hnone := Table.first_eq_none.mp hfound
    simp only [decide_eq_false_iff_not] at hnone
    simp only [wp_bind, wp_modify, wp_pure]
    refine ⟨⟨h.system, fun id row hrow => ?_, fun id id' row row' hrow hrow' hd => ?_⟩, by simp, trivial⟩
    · rcases Table.find_insert_cases hrow with ⟨-, rfl⟩ | hrow
      · refine ⟨sealed_none, ?_⟩
        intro hverified
        cases hverified
      · exact h.department id row hrow
    · rcases Table.find_insert_cases hrow with ⟨rfl, rfl⟩ | hrow <;>
        rcases Table.find_insert_cases hrow' with ⟨rfl, rfl⟩ | hrow'
      · rfl
      · exact absurd hd.symm (hnone id' row' hrow')
      · exact absurd hd (hnone id row hrow)
      · exact h.unique id id' row row' hrow hrow' hd

/-- The verdicts in force stay those of the last verifications, whichever way the call ends. -/
def Keeps (cfg : Config) (v : Option Verified) (vd : DepartmentId → Option Verified) (x : Service Unit) : Prop :=
  ∀ s, Sound cfg s v vd → wp x (fun _ t => Sound cfg t v vd) (fun _ t => Sound cfg t v vd) s

theorem keeps_atomic {x : Service Unit}
    (h : ∀ s, Sound cfg s v vd → wp x (fun _ t => Sound cfg t v vd) (fun _ _ => True) s) : Keeps cfg v vd (Tx.atomic x) :=
  fun s hs => wp_atomic.mpr (wp_mono (h s hs) (fun _ _ ht => ht) fun _ _ _ => hs)

/-- The locked row after a change of it, under the checks before the save. -/
theorem Sound.locked (h : Sound cfg s v vd) {f : SystemMailConfiguration → Service Unit}
    (hf : ∀ row, row.Sound cfg v → ∀ t, Sound cfg t v vd → wp (f row) (fun _ t => Sound cfg t v vd) (fun _ _ => True) t) :
    wp (lockedConfiguration >>= f) (fun _ t => Sound cfg t v vd) (fun _ _ => True) s :=
  wp_bind.mpr (wp_lockedConfiguration (hf _ h.getD _ (h.withSystem h.getD)))

/-! ### The system services -/

theorem keeps_configureOutboundMailHttpsProxy (actor : Actor) (proxyUrl : Text) :
    Keeps cfg v vd (configureOutboundMailHttpsProxy cfg env actor proxyUrl) := by
  refine keeps_atomic fun s hs => ?_
  simp only [requireSystemAdmin]
  rw [wp_bind, wp_ensure]
  refine ⟨fun _ => ?_, fun _ => trivial⟩
  rw [wp_bind, wp_ensure]
  refine ⟨fun _ => hs.locked fun row hrow t ht => ?_, fun _ => trivial⟩
  rw [wp_whenever]
  exact ⟨fun _ => ht.saveSystem (.invalidated hrow.apiKey hrow.password), fun _ => ht⟩

theorem keeps_configureBrevo (actor : Actor) (senderName senderEmail : Text) :
    Keeps cfg v vd (configureBrevo cfg env actor senderName senderEmail) := by
  refine keeps_atomic fun s hs => ?_
  rw [wp_bind, requireSystemAdmin, wp_ensure]
  refine ⟨fun _ => hs.locked fun row hrow t ht => ?_, fun _ => trivial⟩
  simp only [wp_bind, wp_ensure]
  exact ⟨fun _ => ⟨fun _ => ht.saveSystem (.invalidated hrow.apiKey hrow.password), fun _ => trivial⟩,
    fun _ => trivial⟩

theorem keeps_replaceBrevoApiKey (actor : Actor) (apiKey : Text) :
    Keeps cfg v vd (replaceBrevoApiKey cfg env actor apiKey) := by
  refine keeps_atomic fun s hs => ?_
  rw [wp_bind, requireSystemAdmin, wp_ensure]
  refine ⟨fun _ => ?_, fun _ => trivial⟩
  rw [wp_bind, wp_ensure]
  refine ⟨fun _ => hs.locked fun row hrow t ht => ?_, fun _ => trivial⟩
  rw [wp_bind, wp_ofExcept]
  refine ⟨fun envelope henvelope => ?_, fun _ _ => trivial⟩
  exact ht.saveSystem (.invalidated (sealed_of_encrypt henvelope) hrow.password)

theorem keeps_clearBrevoApiKey (actor : Actor) : Keeps cfg v vd (clearBrevoApiKey env actor) := by
  refine keeps_atomic fun s hs => ?_
  rw [wp_bind, requireSystemAdmin, wp_ensure]
  refine ⟨fun _ => hs.locked fun row hrow t ht => ?_, fun _ => trivial⟩
  exact ht.saveSystem (.invalidated sealed_none hrow.password)

theorem keeps_configureSmtp (actor : Actor) (endpoint : SmtpEndpoint) :
    Keeps cfg v vd (configureSmtp cfg env actor endpoint) := by
  refine keeps_atomic fun s hs => ?_
  rw [wp_bind, requireSystemAdmin, wp_ensure]
  refine ⟨fun _ => hs.locked fun row hrow t ht => ?_, fun _ => trivial⟩
  simp only [wp_bind, wp_ensure, wp_ofExcept, implies_true, and_true]
  intro _ _ _
  exact ht.saveSystem (.invalidated hrow.apiKey hrow.password)

theorem keeps_replaceSmtpCredentials (actor : Actor) (username password : Text) :
    Keeps cfg v vd (replaceSmtpCredentials cfg env actor username password) := by
  refine keeps_atomic fun s hs => ?_
  rw [wp_bind, requireSystemAdmin, wp_ensure]
  refine ⟨fun _ => ?_, fun _ => trivial⟩
  rw [wp_bind, wp_ensure]
  refine ⟨fun _ => hs.locked fun row hrow t ht => ?_, fun _ => trivial⟩
  rw [wp_bind, wp_ofExcept]
  refine ⟨fun envelope henvelope => ?_, fun _ _ => trivial⟩
  exact ht.saveSystem (.invalidated hrow.apiKey (sealed_of_encrypt henvelope))

theorem keeps_clearSmtpCredentials (actor : Actor) : Keeps cfg v vd (clearSmtpCredentials env actor) := by
  refine keeps_atomic fun s hs => ?_
  rw [wp_bind, requireSystemAdmin, wp_ensure]
  refine ⟨fun _ => hs.locked fun row hrow t ht => ?_, fun _ => trivial⟩
  exact ht.saveSystem (.invalidated hrow.apiKey sealed_none)

/-- The mode and the API provider are no part of what a verification passed. -/
theorem keeps_setDeliveryMode (actor : Actor) (deliveryMode : DeliveryMode) (apiProvider : Option ProviderId) :
    Keeps cfg v vd (setDeliveryMode cfg env actor deliveryMode apiProvider) := by
  refine keeps_atomic fun s hs => ?_
  rw [wp_bind, requireSystemAdmin, wp_ensure]
  refine ⟨fun _ => hs.locked fun row hrow t ht => ?_, fun _ => trivial⟩
  simp only [wp_bind, wp_ensure, wp_ofExcept, implies_true, and_true]
  intro _ _ _
  exact ht.saveSystem ⟨hrow.apiKey, hrow.password, hrow.current⟩

/-! ### The department services -/

/-- A department service saves a sound row under the lock. -/
theorem Sound.lockedDepartment (h : Sound cfg s v vd) {department : DepartmentId}
    {f : ℕ × DepartmentMailConfiguration → Service Unit}
    (hf : ∀ id row t, Sound cfg t v vd → t.departments.find id = some row → row.department = department →
      row.Sound cfg (vd row.department) → wp (f (id, row)) (fun _ t => Sound cfg t v vd) (fun _ _ => True) t) :
    wp (Configuration.lockedDepartmentConfiguration department >>= f) (fun _ t => Sound cfg t v vd)
      (fun _ _ => True) s := by
  refine wp_bind.mpr (wp_mono (h.lockedDepartmentConfiguration department) ?_ fun _ _ h => h)
  rintro ⟨id, row⟩ t ⟨ht, hfind, hdept⟩
  exact hf id row t ht hfind hdept (ht.department id row hfind)

theorem Sound.saved {id : ℕ} {old row : DepartmentMailConfiguration} (h : Sound cfg s v vd)
    (hfind : s.departments.find id = some old) (hsame : row.department = old.department)
    (hrow : row.Sound cfg (vd row.department)) :
    wp (Configuration.saveDepartment id row) (fun _ t => Sound cfg t v vd) (fun _ _ => True) s :=
  h.saveDepartment hfind hsame hrow fun _ _ => rfl

theorem keeps_configureDepartmentSmtp (actor : Actor) (department : DepartmentId) (endpoint : SmtpEndpoint) :
    Keeps cfg v vd (configureDepartmentSmtp cfg env actor department endpoint) := by
  refine keeps_atomic fun s hs => ?_
  rw [wp_bind, requireDepartmentMailManager, wp_ensure]
  refine ⟨fun _ => hs.lockedDepartment fun id row t ht hfind _ hrow => ?_, fun _ => trivial⟩
  simp only [wp_bind, wp_ensure, wp_ofExcept, wp_whenever]
  refine ⟨fun _ => ⟨fun _ _ => ⟨fun _ => ?_, fun _ => ht⟩, fun _ _ => trivial⟩, fun _ => trivial⟩
  exact ht.saved hfind rfl (.invalidated hrow.password)

theorem keeps_replaceDepartmentSmtpCredentials (actor : Actor) (department : DepartmentId) (username password : Text) :
    Keeps cfg v vd (replaceDepartmentSmtpCredentials cfg env actor department username password) := by
  refine keeps_atomic fun s hs => ?_
  rw [wp_bind, requireDepartmentMailManager, wp_ensure]
  refine ⟨fun _ => ?_, fun _ => trivial⟩
  rw [wp_bind, wp_ensure]
  refine ⟨fun _ => hs.lockedDepartment fun id row t ht hfind _ _ => ?_, fun _ => trivial⟩
  rw [wp_bind, wp_ofExcept]
  refine ⟨fun envelope henvelope => ?_, fun _ _ => trivial⟩
  exact ht.saved hfind rfl (.invalidated (sealed_of_encrypt henvelope))

theorem keeps_clearDepartmentSmtpCredentials (actor : Actor) (department : DepartmentId) :
    Keeps cfg v vd (clearDepartmentSmtpCredentials env actor department) := by
  refine keeps_atomic fun s hs => ?_
  rw [wp_bind, requireDepartmentMailManager, wp_ensure]
  refine ⟨fun _ => hs.lockedDepartment fun id row t ht hfind _ _ => ?_, fun _ => trivial⟩
  rw [wp_whenever]
  exact ⟨fun _ => ht.saved hfind rfl (.invalidated sealed_none), fun _ => ht⟩

theorem keeps_setDepartmentDeliveryMode (actor : Actor) (department : DepartmentId)
    (deliveryMode : Option DepartmentDeliveryMode) :
    Keeps cfg v vd (setDepartmentDeliveryMode env actor department deliveryMode) := by
  refine keeps_atomic fun s hs => ?_
  rw [wp_bind, requireDepartmentMailManager, wp_ensure]
  refine ⟨fun _ => hs.lockedDepartment fun id row t ht hfind _ hrow => ?_, fun _ => trivial⟩
  have hsave : ∀ mode, wp (Tx.whenever (row.deliveryMode ≠ mode)
      (Configuration.saveDepartment id { row with deliveryMode := mode, updatedBy := some actor }))
      (fun _ t => Sound cfg t v vd) (fun _ _ => True) t := by
    intro mode
    rw [wp_whenever]
    exact ⟨fun _ => ht.saved hfind rfl ⟨hrow.password, hrow.current⟩, fun _ => ht⟩
  simp only [wp_bind, wp_get, wp_require, wp_ensure, wp_whenever, wp_ofExcept] at hsave ⊢
  refine ⟨fun mode _ => ⟨fun _ => ⟨fun _ => ⟨fun _ _ => ⟨fun _ => hsave mode, fun _ => trivial⟩, fun _ _ => trivial⟩,
    fun _ => hsave mode⟩, fun _ => trivial⟩, fun _ => trivial⟩

/-! ### Rotation -/

theorem sealed_of_rotated (ha : Authentic cfg) {replacement : Envelope}
    (h : rotated cfg env envelope context = .ok replacement) (hs : Sealed cfg (some envelope)) :
    Sealed cfg (some replacement) := by
  intro e he
  cases he
  obtain ⟨plaintext, hplain⟩ := hs envelope rfl
  exact ⟨plaintext, seals_of_rotated ha h hplain⟩

/-- A rotated password is the password that was verified. -/
theorem SmtpSettings.Matches.rotated (ha : Authentic cfg) {c : SmtpSettings} {e : SmtpEffectiveConfiguration}
    {replacement : Envelope} (hm : c.Matches cfg e) (hsome : c.passwordEncrypted = some envelope)
    (h : rotated cfg env envelope context = .ok replacement) :
    ({ c with passwordEncrypted := some replacement } : SmtpSettings).Matches cfg e where
  host := hm.host
  port := hm.port
  tlsMode := hm.tlsMode
  senderName := hm.senderName
  senderEmail := hm.senderEmail
  username := hm.username
  none := hm.none
  password huser := by
    obtain ⟨envelope', henvelope', hs⟩ := hm.password huser
    rw [hsome] at henvelope'
    cases henvelope'
    exact ⟨replacement, rfl, seals_of_rotated ha h hs⟩

theorem SystemMailConfiguration.Sound.rotatedKey (ha : Authentic cfg) {row : SystemMailConfiguration}
    {replacement : Envelope} (h : row.Sound cfg v) (hsome : row.brevoApiKeyEncrypted = some envelope)
    (hr : rotated cfg env envelope context = .ok replacement) :
    ({ row with brevoApiKeyEncrypted := some replacement } : SystemMailConfiguration).Sound cfg v := by
  refine ⟨sealed_of_rotated ha hr (hsome ▸ h.apiKey), h.password, fun hcurrent => ?_⟩
  obtain ⟨⟨verified, proxy⟩, hv, hid, hm⟩ := h.current hcurrent
  refine ⟨⟨verified, proxy⟩, hv, hid, ?_⟩
  cases verified with
  | smtp c => exact hm
  | brevo senderName senderEmail apiKey =>
    obtain ⟨hname, hemail, hproxy, envelope', henvelope', hs⟩ := hm
    rw [hsome] at henvelope'
    cases henvelope'
    exact ⟨hname, hemail, hproxy, replacement, rfl, seals_of_rotated ha hr hs⟩

theorem SystemMailConfiguration.Sound.rotatedPassword (ha : Authentic cfg) {row : SystemMailConfiguration}
    {replacement : Envelope} (h : row.Sound cfg v) (hsome : row.smtp.passwordEncrypted = some envelope)
    (hr : rotated cfg env envelope context = .ok replacement) :
    ({ row with smtp := { row.smtp with passwordEncrypted := some replacement } } : SystemMailConfiguration).Sound
      cfg v := by
  refine ⟨h.apiKey, sealed_of_rotated ha hr (hsome ▸ h.password), fun hcurrent => ?_⟩
  obtain ⟨⟨verified, proxy⟩, hv, hid, hm⟩ := h.current hcurrent
  refine ⟨⟨verified, proxy⟩, hv, hid, ?_⟩
  cases verified with
  | brevo senderName senderEmail apiKey => exact hm
  | smtp c => exact ⟨hm.1, hm.2.rotated ha hsome hr⟩

theorem DepartmentMailConfiguration.Sound.rotatedPassword (ha : Authentic cfg) {row : DepartmentMailConfiguration}
    {replacement : Envelope} (h : row.Sound cfg v) (hsome : row.smtp.passwordEncrypted = some envelope)
    (hr : rotated cfg env envelope context = .ok replacement) :
    ({ row with smtp := { row.smtp with passwordEncrypted := some replacement } } : DepartmentMailConfiguration).Sound
      cfg v := by
  refine ⟨sealed_of_rotated ha hr (hsome ▸ h.password), fun hcurrent => ?_⟩
  obtain ⟨c, hv, hm⟩ := h.current hcurrent
  exact ⟨c, hv, hm.rotated ha hsome hr⟩

theorem keeps_rotateSecret (ha : Authentic cfg) (reference : SecretReference) :
    Keeps cfg v vd (rotateSecret cfg env reference) := by
  intro s hs
  rw [rotateSecret, wp_mapError]
  refine keeps_atomic (fun s hs => ?_) s hs
  rw [wp_bind, wp_get]
  cases reference with
  | systemApiKey =>
    cases hrow : s.system with
    | none => exact hs
    | some row =>
      cases hsome : row.brevoApiKeyEncrypted with
      | none =>
        simp only [hsome]
        exact hs
      | some envelope =>
        simp only [hsome, wp_bind, wp_ofExcept]
        exact ⟨fun _ hr => hs.saveSystem ((hs.system row hrow).rotatedKey ha hsome hr), fun _ _ => trivial⟩
  | systemSmtpPassword =>
    cases hrow : s.system with
    | none => exact hs
    | some row =>
      cases hsome : row.smtp.passwordEncrypted with
      | none =>
        simp only [hsome]
        exact hs
      | some envelope =>
        simp only [hsome, wp_bind, wp_ofExcept]
        exact ⟨fun _ hr => hs.saveSystem ((hs.system row hrow).rotatedPassword ha hsome hr), fun _ _ => trivial⟩
  | departmentSmtpPassword id =>
    cases hrow : s.departments.find id with
    | none =>
      simp only [hrow]
      exact hs
    | some row =>
      cases hsome : row.smtp.passwordEncrypted with
      | none =>
        simp only [hrow, hsome]
        exact hs
      | some envelope =>
        simp only [hrow, hsome, wp_bind, wp_ofExcept]
        exact ⟨fun _ hr => hs.saved hrow rfl ((hs.department id row hrow).rotatedPassword ha hsome hr), fun _ _ => trivial⟩

theorem keeps_rotateOutboundMailSecrets (ha : Authentic cfg) : Keeps cfg v vd (rotateOutboundMailSecrets cfg env) := by
  intro s hs
  rw [rotateOutboundMailSecrets, wp_bind, wp_ofExcept]
  refine ⟨fun _ _ => ?_, fun _ _ => hs⟩
  rw [wp_bind, wp_get]
  exact wp_forEach (fun _ t => Sound cfg t v vd) _ hs fun reference _ t ht => keeps_rotateSecret ha reference t ht

/-! ### Verification -/

/-- What was observed of a provider: it passed, or the verdict is not a success. -/
theorem observe_eq_ok {built : Except Error Provider} {answer : Answer} {passed : Option Provider} {verdict : Verdict}
    (h : observe env built answer = .ok (passed, verdict)) :
    (∃ p, built = .ok p ∧ passed = some p ∧ verdict.outcome = some .success) ∨ verdict.isCurrent = false := by
  unfold observe at h
  split at h
  · cases h
    exact .inl ⟨_, rfl, rfl, rfl⟩
  · cases h
    exact .inr rfl
  · cases h
    exact .inr rfl
  · cases h
  · cases h

/-- A returned verification leaves a row that is sound for what it used. -/
theorem wp_verifySystemMailConfiguration (ha : Authentic cfg) (hs : Sound cfg s v vd) (actor : Actor) (answer : Answer) :
    wp (verifySystemMailConfiguration cfg env actor answer)
      (fun result t => Sound cfg t (some ⟨((s.system.getD {}).effectiveProvider cfg env).toOption.map
        (effectiveOf (s.system.getD {})), result.verdict.outcome⟩) vd) (fun _ t => t = s) s := by
  rw [verifySystemMailConfiguration, wp_atomic, wp_bind, requireSystemAdmin, wp_ensure]
  refine ⟨fun _ => wp_bind.mpr (wp_lockedConfiguration ?_), fun _ => rfl⟩
  rw [wp_bind, wp_ofExcept]
  refine ⟨fun found hfound => ?_, fun _ _ => rfl⟩
  obtain ⟨passed, verdict⟩ := found
  have hlocked := hs.withSystem hs.getD
  rw [wp_bind]
  refine wp_mono (hlocked.saveSystem ⟨hs.getD.apiKey, hs.getD.password, ?_⟩)
    (fun _ _ ht => ht) fun _ _ _ => rfl
  intro hcurrent
  rcases observe_eq_ok hfound with ⟨p, hp, rfl, hsuccess⟩ | hfailed
  · rw [hp, hsuccess]
    exact ⟨_, rfl, rfl, SystemMailConfiguration.matches_of_provider ha hs.getD.apiKey hs.getD.password hp⟩
  · rw [hfailed] at hcurrent
    cases hcurrent

theorem wp_verifyDepartmentSmtpConfiguration (ha : Authentic cfg) (hs : Sound cfg s v vd) (actor : Actor)
    (department : DepartmentId) (answer : Answer) :
    wp (verifyDepartmentSmtpConfiguration cfg env actor department answer)
      (fun verdict t => Sound cfg t v (Function.update vd department (some
        ⟨((s.departmentConfiguration department).bind fun found =>
          (found.2.smtp.provider cfg env (departmentSmtpPasswordContext department)).toOption).map fun p => ⟨p, none⟩,
          verdict.outcome⟩))) (fun _ t => t = s) s := by
  rw [verifyDepartmentSmtpConfiguration, wp_atomic, wp_bind, requireDepartmentMailManager, wp_ensure]
  refine ⟨fun _ => ?_, fun _ => rfl⟩
  rw [wp_bind, wp_get, wp_bind, wp_require]
  refine ⟨fun found hfound => ?_, fun _ => rfl⟩
  obtain ⟨id, row⟩ := found
  obtain ⟨hfind, hdept⟩ := Table.first_eq_some hfound
  simp only [decide_eq_true_eq] at hdept
  rw [hfound, Option.bind_some, wp_bind, wp_ofExcept]
  refine ⟨fun found' hobserved => ?_, fun _ _ => rfl⟩
  obtain ⟨passed, verdict⟩ := found'
  rw [wp_bind]
  have hpassword := (hs.department id row hfind).password
  refine wp_mono (hs.saveDepartment hfind rfl ⟨hpassword, ?_⟩ fun d hd => ?_) (fun _ _ ht => ht) fun _ _ _ => rfl
  · intro hcurrent
    rcases observe_eq_ok hobserved with ⟨p, hp, rfl, hsuccess⟩ | hfailed
    · obtain ⟨c, rfl, hmatches⟩ := SmtpSettings.matches_of_provider ha hpassword hp
      refine ⟨c, ?_, hmatches⟩
      rw [hp, hsuccess, hdept, Function.update_self]
      rfl
    · rw [hfailed] at hcurrent
      cases hcurrent
  · rw [hdept] at hd
    exact Function.update_of_ne hd _ _

/-! ### Runs -/

theorem Keeps.exec {x : Service Unit} (h : Keeps cfg v vd x) (hs : Sound cfg s v vd) : Sound cfg (exec x s) v vd :=
  exec_of_wp (P := fun t => Sound cfg t v vd) (h s hs)

theorem after_sound (ha : Authentic cfg) {w : World} (hw : Sound cfg w.state w.system w.department) (a : Env × Call) :
    Sound cfg (after cfg w a).state (after cfg w a).system (after cfg w a).department := by
  obtain ⟨env, call⟩ := a
  cases call with
  | configureOutboundMailHttpsProxy actor proxyUrl => exact (keeps_configureOutboundMailHttpsProxy actor proxyUrl).exec hw
  | verifySystemMailConfiguration actor answer =>
    have hverify := @wp_verifySystemMailConfiguration cfg env w.state w.system w.department ha hw actor answer
    simp only [after, Call.run, exec_drop, recordSystem, recordDepartment]
    unfold wp at hverify
    unfold exec
    cases hrun : verifySystemMailConfiguration cfg env actor answer w.state with
    | mk r t =>
      rw [hrun] at hverify
      cases r with
      | ok result => exact hverify
      | error e =>
        have ht : t = w.state := hverify
        rw [ht]
        exact hw
  | configureBrevo actor senderName senderEmail => exact (keeps_configureBrevo actor senderName senderEmail).exec hw
  | replaceBrevoApiKey actor apiKey => exact (keeps_replaceBrevoApiKey actor apiKey).exec hw
  | clearBrevoApiKey actor => exact (keeps_clearBrevoApiKey actor).exec hw
  | configureSmtp actor endpoint => exact (keeps_configureSmtp actor endpoint).exec hw
  | replaceSmtpCredentials actor username password => exact (keeps_replaceSmtpCredentials actor username password).exec hw
  | clearSmtpCredentials actor => exact (keeps_clearSmtpCredentials actor).exec hw
  | setDeliveryMode actor deliveryMode apiProvider => exact (keeps_setDeliveryMode actor deliveryMode apiProvider).exec hw
  | configureDepartmentSmtp actor department endpoint =>
    exact (keeps_configureDepartmentSmtp actor department endpoint).exec hw
  | replaceDepartmentSmtpCredentials actor department username password =>
    exact (keeps_replaceDepartmentSmtpCredentials actor department username password).exec hw
  | clearDepartmentSmtpCredentials actor department => exact (keeps_clearDepartmentSmtpCredentials actor department).exec hw
  | verifyDepartmentSmtpConfiguration actor department answer =>
    have hverify :=
      @wp_verifyDepartmentSmtpConfiguration cfg env w.state w.system w.department ha hw actor department answer
    simp only [after, Call.run, exec_drop, recordSystem, recordDepartment]
    unfold wp at hverify
    unfold exec
    cases hrun : verifyDepartmentSmtpConfiguration cfg env actor department answer w.state with
    | mk r t =>
      rw [hrun] at hverify
      cases r with
      | ok verdict => exact hverify
      | error e =>
        have ht : t = w.state := hverify
        rw [ht]
        exact hw
  | setDepartmentDeliveryMode actor department mode => exact (keeps_setDepartmentDeliveryMode actor department mode).exec hw
  | rotateOutboundMailSecrets => exact (keeps_rotateOutboundMailSecrets ha).exec hw
  | setEligible eligible => exact ⟨hw.system, hw.department, hw.unique⟩

theorem sound_of_reachable (ha : Authentic cfg) {w : World} (h : (system cfg).Reachable w) :
    Sound cfg w.state w.system w.department := by
  refine h.invariant (I := fun w => Sound cfg w.state w.system w.department) ?_ ?_
  · rintro w ⟨hsystem, hdepartments⟩
    refine ⟨fun row hrow => ?_, fun id row hrow => ?_, fun id id' row row' hrow => ?_⟩
    · rw [hsystem] at hrow
      cases hrow
    · rw [hdepartments] at hrow
      cases hrow
    · rw [hdepartments] at hrow
      cases hrow
  · intro w a w' hw hstep
    rw [show w' = after cfg w a from hstep]
    exact after_sound ha hw a

/-! ### The provider of a department -/

/-- What a usable system provider is built from is what the last verification passed. -/
theorem resolveSystemProvider_verified (ha : Authentic cfg) {s : State} (hs : Sound cfg s v vd)
    (h : resolveSystemProvider cfg env s = .ok provider) :
    ∃ row, s.system = some row ∧ v = some ⟨some (effectiveOf row provider), some .success⟩ := by
  unfold resolveSystemProvider at h
  split at h
  · cases h
  · rename_i row hrow
    refine ⟨row, hrow, ?_⟩
    split at h
    · cases h
    · cases hactive : row.validateActivation with
      | error e =>
        simp only [hactive] at h
        cases h
      | ok found =>
        simp only [hactive] at h
        by_cases hverified : row.verificationProvider = (if row.deliveryMode = .api then row.apiProvider else some .smtp) ∧
            row.verdict.isCurrent = true
        · rw [if_pos hverified] at h
          obtain ⟨hid, hcurrent⟩ := hverified
          cases hp : row.effectiveProvider cfg env with
          | error e =>
            rw [hp] at h
            cases h
          | ok p =>
            rw [hp] at h
            cases h
            obtain ⟨e, hv, heffective, hm⟩ := (hs.system row hrow).current hcurrent
            have hsame : provider.providerId = e.provider.providerId := by
              rw [(effectiveProvider_eq_ok hp).1, heffective] at hid
              exact (Option.some.inj hid).symm
            rw [hm.effectiveOf_eq ha hp hsame, hv]
        · rw [if_neg hverified] at h
          cases h

theorem resolveDepartmentSmtpProvider_verified (ha : Authentic cfg) {row : DepartmentMailConfiguration}
    (hrow : row.Sound cfg v) (h : resolveDepartmentSmtpProvider cfg env row = .ok provider) :
    v = some ⟨some ⟨provider, none⟩, some .success⟩ := by
  unfold resolveDepartmentSmtpProvider at h
  split at h
  · cases h
  · split at h
    · cases h
    · split at h
      · cases h
      · rename_i hcurrent
        rw [Bool.not_eq_false] at hcurrent
        split at h
        · rename_i p hp
          cases h
          obtain ⟨c, hv, hm⟩ := hrow.current hcurrent
          rw [hm.provider_eq ha hp, hv]
        · cases h

/-- In every run, a usable provider is the one that the last verification of its configuration
passed, and the department's mode and eligibility select it. -/
theorem usable_provider_verified (ha : Authentic cfg) {w : World} (hreach : (system cfg).Reachable w)
    {department : DepartmentId} (h : resolveDepartmentMailProvider cfg env w.state department = .ok provider) :
    ∃ id configuration, w.state.departmentConfiguration department = some (id, configuration) ∧
      ((configuration.deliveryMode = .system ∧ department ∈ w.state.eligible ∧ ∃ row, w.state.system = some row ∧
          row.deliveryMode ≠ .disabled ∧ w.system = some ⟨some (effectiveOf row provider), some .success⟩) ∨
        (configuration.deliveryMode = .customSmtp ∧
          w.department department = some ⟨some ⟨provider, none⟩, some .success⟩)) := by
  have hs := sound_of_reachable ha hreach
  unfold resolveDepartmentMailProvider at h
  split at h
  · cases h
  · rename_i id row hfound
    obtain ⟨hfind, hdept⟩ := Table.first_eq_some hfound
    simp only [decide_eq_true_eq] at hdept
    refine ⟨id, row, hfound, ?_⟩
    split at h
    · cases h
    · rename_i hmode
      split at h
      · rename_i heligible
        obtain ⟨srow, hsrow, hv⟩ := resolveSystemProvider_verified ha hs h
        refine .inl ⟨hmode, heligible, srow, hsrow, fun hdisabled => ?_, hv⟩
        simp only [resolveSystemProvider, hsrow, hdisabled, if_true] at h
        cases h
      · cases h
    · rename_i hmode
      refine .inr ⟨hmode, ?_⟩
      rw [← hdept]
      exact resolveDepartmentSmtpProvider_verified ha (hs.department id row hfind) h

end

/-! ### A run -/

def unary (plaintext : Text) : Bytes := plaintext.flatMap fun c => List.replicate c 1 ++ [0]

def readUnary : ℕ → Bytes → Text
  | _, [] => []
  | n, b :: rest => if b = 1 then readUnary (n + 1) rest else n :: readUnary 0 rest

theorem readUnary_replicate (n c : ℕ) (rest : Bytes) :
    readUnary n (List.replicate c 1 ++ 0 :: rest) = (n + c) :: readUnary 0 rest := by
  induction c generalizing n with
  | zero => rfl
  | succ c ih =>
    rw [List.replicate_succ, List.cons_append, readUnary, if_pos rfl, ih]
    congr 1
    omega

theorem readUnary_unary (plaintext : Text) : readUnary 0 (unary plaintext) = plaintext := by
  unfold unary
  induction plaintext with
  | nil => rfl
  | cons c rest ih =>
    rw [List.flatMap_cons, List.append_assoc, List.singleton_append, readUnary_replicate, ih, Nat.zero_add]

def sampleTag (key nonce : Bytes) (context : Text) : UInt8 := key.sum + nonce.sum + UInt8.ofNat context.sum

/-- A ciphertext is a tag of the key, the nonce and the context, and the plaintext. -/
def sampleConfig : Config where
  encrypt key nonce context plaintext := sampleTag key nonce context :: unary plaintext
  decrypt key nonce context ciphertext :=
    if ciphertext.head? = some (sampleTag key nonce context) then some (readUnary 0 ciphertext.tail) else none
  validSystem _ := true
  validDepartment _ := true
  validProxy proxyUrl := decide (proxyUrl ≠ [])

theorem authentic_sampleConfig : Authentic sampleConfig := by
  intro key key' nonce context context' plaintext found h
  simp only [sampleConfig] at h
  split at h
  · cases h
    exact readUnary_unary plaintext
  · cases h

def sampleEnv (now : Time) (active : Text) : Env where
  now := now
  ring := ⟨[(text "v1", [1]), (text "v2", [2])], active⟩
  nonce := [7]
  isSystemAdmin actor := actor == 1
  isDepartmentAdmin _ _ := false

def sampleEndpoint : SmtpEndpoint := ⟨text "mx", some 587, some .starttls, text "Wache", text "a@b"⟩

/-- The SMTP server is set up, switched on and verified, its password rotated, and a department
sends through it. -/
def sampleCalls : List (Env × Call) :=
  [(sampleEnv 1 (text "v1"), .configureSmtp 1 sampleEndpoint),
    (sampleEnv 2 (text "v1"), .replaceSmtpCredentials 1 (text "u") (text "pw")),
    (sampleEnv 3 (text "v1"), .setDeliveryMode 1 .smtp none),
    (sampleEnv 4 (text "v1"), .verifySystemMailConfiguration 1 .verified),
    (sampleEnv 5 (text "v2"), .rotateOutboundMailSecrets),
    (sampleEnv 6 (text "v2"), .setEligible [5]),
    (sampleEnv 7 (text "v2"), .setDepartmentDeliveryMode 1 5 (some .system))]

def sampleProvider : Provider := .smtp ⟨text "mx", 587, .starttls, text "Wache", text "a@b", text "u", text "pw"⟩

theorem reachable_calls (cfg : Config) (calls : List (Env × Call)) {w : World} (h : (system cfg).Reachable w) :
    (system cfg).Reachable (calls.foldl (after cfg) w) := by
  induction calls generalizing w with
  | nil => exact h
  | cons a rest ih => exact ih (h.next rfl)

theorem usable_provider_verified_sample :
    resolveDepartmentMailProvider sampleConfig (sampleEnv 8 (text "v2")) (sampleCalls.foldl (after sampleConfig) {}).state 5 =
        .ok sampleProvider ∧
      ∃ id configuration,
        (sampleCalls.foldl (after sampleConfig) {}).state.departmentConfiguration 5 = some (id, configuration) ∧
        ((configuration.deliveryMode = .system ∧ 5 ∈ (sampleCalls.foldl (after sampleConfig) {}).state.eligible ∧
            ∃ row, (sampleCalls.foldl (after sampleConfig) {}).state.system = some row ∧ row.deliveryMode ≠ .disabled ∧
              (sampleCalls.foldl (after sampleConfig) {}).system =
                some ⟨some (effectiveOf row sampleProvider), some .success⟩) ∨
          (configuration.deliveryMode = .customSmtp ∧
            (sampleCalls.foldl (after sampleConfig) {}).department 5 = some ⟨some ⟨sampleProvider, none⟩, some .success⟩)) := by
  have hresolve : resolveDepartmentMailProvider sampleConfig (sampleEnv 8 (text "v2"))
      (sampleCalls.foldl (after sampleConfig) {}).state 5 = .ok sampleProvider := by decide +kernel
  exact ⟨hresolve, usable_provider_verified authentic_sampleConfig
    (reachable_calls sampleConfig sampleCalls (Machine.Reachable.init ⟨rfl, rfl⟩)) hresolve⟩

end FireDash.OutboundMail.Configuration
