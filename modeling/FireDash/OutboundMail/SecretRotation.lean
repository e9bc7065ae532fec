import FireDash.ApplicationSecrets.Crypto
import FireDash.OutboundMail.Configuration
import Mathlib.Data.List.Dedup
import Mathlib.Data.List.Lex

/-! The rotation of the stored secrets of outbound mail: the count of the key versions in use, the rows
re-encrypted one at a time, and what the counts say about retiring a key. -/
namespace FireDash.OutboundMail.SecretRotation

open ApplicationSecrets (AesGcm ApplicationSecretCipher Nonce SecretError applicationSecretKeyVersion parseEnvelope)
open OutboundMail.Configuration (Bytes DepartmentId SecretReference brevoApiKeyContext departmentSmtpPasswordContext smtpPasswordContext)
open Json (Text text)

/-! ### Rows -/

/-- The encrypted columns of the system row, beside all others. -/
structure SystemMailConfiguration (σ : Type) where
  brevoApiKeyEncrypted : Text
  smtpPasswordEncrypted : Text
  columns : σ

structure DepartmentMailConfiguration (τ : Type) where
  department : DepartmentId
  smtpPasswordEncrypted : Text
  columns : τ

structure State (σ τ : Type) where
  system : Option (SystemMailConfiguration σ) := none
  departments : Table (DepartmentMailConfiguration τ) := ⟨[]⟩

/-- A stored secret and the context it is encrypted under. -/
structure Reference where
  secret : SecretReference
  context : Bytes
  deriving DecidableEq

inductive Error where
  | rotationError (reference : SecretReference) (code : String)
  /-- The database refuses a text that is longer than its column. -/
  | dataError
  deriving DecidableEq

namespace State

variable {σ τ : Type}

/-- Everything but the encrypted columns. -/
def columns (s : State σ τ) : Option σ × List (DepartmentId × τ) :=
  (s.system.map (·.columns), s.departments.rows.map fun row => (row.department, row.columns))

/-- `_secret_value` -/
def secretValue (s : State σ τ) : SecretReference → Text
  | .systemApiKey => (s.system.map (·.brevoApiKeyEncrypted)).getD []
  | .systemSmtpPassword => (s.system.map (·.smtpPasswordEncrypted)).getD []
  | .departmentSmtpPassword id => ((s.departments.find id).map (·.smtpPasswordEncrypted)).getD []

/-- `setattr` and `save` of the one field. -/
def store (s : State σ τ) (value : Text) : SecretReference → State σ τ
  | .systemApiKey => { s with system := s.system.map fun row => { row with brevoApiKeyEncrypted := value } }
  | .systemSmtpPassword => { s with system := s.system.map fun row => { row with smtpPasswordEncrypted := value } }
  | .departmentSmtpPassword id =>
    { s with departments := s.departments.modify id fun row => { row with smtpPasswordEncrypted := value } }

end State

/-- The context as the bytes of its text. -/
def contextBytes (context : Text) : Bytes := context.map UInt8.ofNat

/-- `_live_secret_references` -/
def liveSecretReferences {σ τ : Type} (s : State σ τ) : List Reference :=
  (if s.system.isSome then
    [⟨.systemApiKey, contextBytes brevoApiKeyContext⟩, ⟨.systemSmtpPassword, contextBytes smtpPasswordContext⟩]
  else []) ++
    s.departments.entries.map fun e =>
      ⟨.departmentSmtpPassword e.1, contextBytes (departmentSmtpPasswordContext e.2.department)⟩

/-! ### Status -/

/-- `_MALFORMED_VERSION` -/
def malformedVersion : Text := text "malformed"

/-- The version a secret is counted under. -/
def countedVersion (value : Text) : Text :=
  match applicationSecretKeyVersion value with
  | .ok version => version
  | .error _ => malformedVersion

structure OutboundMailSecretRotationStatus where
  activeVersion : Text
  versionCounts : List (Text × ℕ)
  deriving DecidableEq

namespace OutboundMailSecretRotationStatus

def allLiveCredentialsActive (status : OutboundMailSecretRotationStatus) : Bool :=
  !status.versionCounts.any fun e => e.1 ≠ status.activeVersion ∧ e.2 ≠ 0

/-- Malformed envelopes make usage indeterminate. -/
def canRetire (status : OutboundMailSecretRotationStatus) (version : Text) : Bool :=
  (status.versionCounts.lookup version).getD 0 = 0 ∧ (status.versionCounts.lookup malformedVersion).getD 0 = 0

end OutboundMailSecretRotationStatus

section

variable {σ τ : Type}

/-- The versions of the secrets that are not empty. -/
def countedVersions (s : State σ τ) : List Text :=
  ((liveSecretReferences s).filter fun ref => s.secretValue ref.secret ≠ []).map fun ref => countedVersion (s.secretValue ref.secret)

/-- `outbound_mail_secret_rotation_status`, with the counts in the order of their versions. -/
def outboundMailSecretRotationStatus (cipher : ApplicationSecretCipher) (s : State σ τ) : OutboundMailSecretRotationStatus :=
  let versions := countedVersions s
  ⟨cipher.activeVersion, (versions.dedup.insertionSort (· ≤ ·)).map fun version => (version, versions.count version)⟩

/-! ### Rotation -/

inductive Outcome where
  | rotated
  | skippedActive
  | skippedEmpty
  deriving DecidableEq

structure OutboundMailSecretRotationResult where
  activeVersion : Text
  rotatedCount : ℕ := 0
  skippedActiveCount : ℕ := 0
  skippedEmptyCount : ℕ := 0
  deriving DecidableEq

def OutboundMailSecretRotationResult.count (result : OutboundMailSecretRotationResult) : Outcome → OutboundMailSecretRotationResult
  | .rotated => { result with rotatedCount := result.rotatedCount + 1 }
  | .skippedActive => { result with skippedActiveCount := result.skippedActiveCount + 1 }
  | .skippedEmpty => { result with skippedEmptyCount := result.skippedEmptyCount + 1 }

/-- The size of the encrypted columns. -/
def maxSecretLength : ℕ := 4096

variable (aes : AesGcm) (cipher : ApplicationSecretCipher) (nonces : SecretReference → Nonce)

/-- The new text of a secret, `none` where it is under the active version already. -/
def replacement (ref : Reference) (value : Text) : Except SecretError (Option Text) := do
  let version ← applicationSecretKeyVersion value
  if version = cipher.activeVersion then return none
  else do
    let plaintext ← cipher.decrypt aes value ref.context
    return some (cipher.encrypt aes (nonces ref.secret) plaintext ref.context)

/-- One row in a transaction of its own. -/
def rotateSecret (ref : Reference) : Tx (State σ τ) Error Outcome :=
  Tx.atomic do
    let s ← Tx.get
    let value := s.secretValue ref.secret
    if value = [] then return .skippedEmpty
    else
      match replacement aes cipher nonces ref value with
      | .error e => Tx.raise (.rotationError ref.secret e.code)
      | .ok none => return .skippedActive
      | .ok (some text) => do
        Tx.ensure (text.length ≤ maxSecretLength) .dataError
        Tx.modify fun s => s.store text ref.secret
        return .rotated

def rotateEach : List Reference → OutboundMailSecretRotationResult → Tx (State σ τ) Error OutboundMailSecretRotationResult
  | [], result => pure result
  | ref :: refs, result => do
    let outcome ← rotateSecret aes cipher nonces ref
    rotateEach refs (result.count outcome)

/-- `rotate_outbound_mail_secrets` -/
def rotateOutboundMailSecrets : Tx (State σ τ) Error OutboundMailSecretRotationResult := do
  let s ← Tx.get
  rotateEach aes cipher nonces (liveSecretReferences s) { activeVersion := cipher.activeVersion }

/-- The state once the run ended after some of its rows. -/
def rotatedPrefix (n : ℕ) (s : State σ τ) : State σ τ :=
  (rotateEach aes cipher nonces ((liveSecretReferences s).take n) { activeVersion := cipher.activeVersion }).exec s

end

/-! ### Secrets and the other columns -/

section

variable {σ τ : Type} {s t : State σ τ} {r r' : SecretReference} {value : Text} {ref ref' : Reference}

@[simp] theorem columns_store : (s.store value r).columns = s.columns := by
  cases r with
  | systemApiKey => cases h : s.system <;> simp [State.columns, State.store, h]
  | systemSmtpPassword => cases h : s.system <;> simp [State.columns, State.store, h]
  | departmentSmtpPassword id =>
    refine Prod.ext rfl (List.ext_getElem? fun i => ?_)
    simp only [State.columns, State.store, Table.modify, List.getElem?_map, List.getElem?_modify]
    split
    · cases s.departments.rows[i]? <;> rfl
    · simp

theorem secretValue_store (h : s.secretValue r ≠ []) : (s.store value r).secretValue r' = if r' = r then value else s.secretValue r' := by
  cases r with
  | systemApiKey =>
    cases hsystem : s.system with
    | none => simp [State.secretValue, hsystem] at h
    | some row => cases r' <;> simp [State.secretValue, State.store, hsystem]
  | systemSmtpPassword =>
    cases hsystem : s.system with
    | none => simp [State.secretValue, hsystem] at h
    | some row => cases r' <;> simp [State.secretValue, State.store, hsystem]
  | departmentSmtpPassword id =>
    cases hrow : s.departments.find id with
    | none => simp [State.secretValue, hrow] at h
    | some row =>
      cases r' with
      | systemApiKey => simp [State.secretValue, State.store]
      | systemSmtpPassword => simp [State.secretValue, State.store]
      | departmentSmtpPassword other =>
        simp only [State.secretValue, State.store, Table.find_modify, SecretReference.departmentSmtpPassword.injEq]
        by_cases hother : id = other
        · rw [if_pos hother, if_pos hother.symm, ← hother, hrow]
          rfl
        · rw [if_neg hother, if_neg (Ne.symm hother)]

/-- The references read no encrypted column. -/
theorem liveSecretReferences_congr (h : t.columns = s.columns) : liveSecretReferences t = liveSecretReferences s := by
  have hlisted : ∀ s : State σ τ, liveSecretReferences s =
      (if s.columns.1.isSome then
        [⟨.systemApiKey, contextBytes brevoApiKeyContext⟩, ⟨.systemSmtpPassword, contextBytes smtpPasswordContext⟩]
      else []) ++
        s.columns.2.zipIdx.map fun e =>
          ⟨.departmentSmtpPassword e.2, contextBytes (departmentSmtpPasswordContext e.1.1)⟩ := by
    intro s
    unfold liveSecretReferences State.columns Table.entries
    rw [Option.isSome_map, List.zipIdx_map, List.map_map, List.map_map]
    rfl
  rw [hlisted, hlisted, h]

/-- A secret has one reference, with its own context. -/
theorem reference_unique (h : ref ∈ liveSecretReferences s) (h' : ref' ∈ liveSecretReferences s) (heq : ref.secret = ref'.secret) :
    ref = ref' := by
  have hcontext : ∀ ref ∈ liveSecretReferences s, ref.context =
      match ref.secret with
      | .systemApiKey => contextBytes brevoApiKeyContext
      | .systemSmtpPassword => contextBytes smtpPasswordContext
      | .departmentSmtpPassword id =>
        contextBytes (departmentSmtpPasswordContext (((s.departments.find id).map (·.department)).getD 0)) := by
    intro ref hmem
    rcases List.mem_append.mp hmem with hmem | hmem
    · split at hmem
      · rcases List.mem_cons.mp hmem with rfl | hmem
        · rfl
        · rw [List.mem_singleton.mp hmem]
      · cases hmem
    · obtain ⟨e, he, rfl⟩ := List.mem_map.mp hmem
      have hfind : s.departments.find e.1 = some e.2 := Table.mem_entries.mp he
      simp only [hfind]
      rfl
  obtain ⟨secret, context⟩ := ref
  obtain ⟨secret', context'⟩ := ref'
  obtain rfl : secret = secret' := heq
  have hsame : context = context' := (hcontext _ h).trans (hcontext _ h').symm
  rw [hsame]

end

/-! ### One row -/

section

variable {σ τ : Type} {s t : State σ τ} {aes : AesGcm} {cipher : ApplicationSecretCipher} {nonces : SecretReference → Nonce}
  {ref ref' : Reference} {value : Text}

/-- The secret is empty or an envelope of the active version. -/
def Done (cipher : ApplicationSecretCipher) (value : Text) : Prop :=
  value = [] ∨ ∃ e, parseEnvelope value = .ok e ∧ e.version = cipher.activeVersion

/-- The secret is empty, under the active version, or it opens and its new text fits into the column. -/
def Rotatable (aes : AesGcm) (cipher : ApplicationSecretCipher) (nonces : SecretReference → Nonce) (ref : Reference) (value : Text) :
    Prop :=
  Done cipher value ∨ ∃ plaintext, cipher.decrypt aes value ref.context = .ok plaintext ∧
    (cipher.encrypt aes (nonces ref.secret) plaintext ref.context).length ≤ maxSecretLength

/-- What the transaction of one row comes to. -/
inductive Rotates (aes : AesGcm) (cipher : ApplicationSecretCipher) (nonces : SecretReference → Nonce) (ref : Reference) (s : State σ τ) :
    Except Error Outcome → State σ τ → Prop where
  | skipped (outcome : Outcome) (done : Done cipher (s.secretValue ref.secret)) : Rotates aes cipher nonces ref s (.ok outcome) s
  | rotated {plaintext : Bytes} (filled : s.secretValue ref.secret ≠ [])
      (opened : cipher.decrypt aes (s.secretValue ref.secret) ref.context = .ok plaintext)
      (fits : (cipher.encrypt aes (nonces ref.secret) plaintext ref.context).length ≤ maxSecretLength) :
      Rotates aes cipher nonces ref s (.ok .rotated)
        (s.store (cipher.encrypt aes (nonces ref.secret) plaintext ref.context) ref.secret)
  | refused (error : Error) (fails : ¬Rotatable aes cipher nonces ref (s.secretValue ref.secret)) :
      Rotates aes cipher nonces ref s (.error error) s

theorem applicationSecretKeyVersion_eq_ok {version : Text} :
    applicationSecretKeyVersion value = .ok version ↔ ∃ e, parseEnvelope value = .ok e ∧ e.version = version := by
  unfold applicationSecretKeyVersion
  simp only [bind_eq_ok, pure_eq_ok]

theorem replacement_eq_ok {text : Option Text} (h : replacement aes cipher nonces ref value = .ok text) :
    (text = none ∧ ∃ e, parseEnvelope value = .ok e ∧ e.version = cipher.activeVersion) ∨
    ∃ plaintext, cipher.decrypt aes value ref.context = .ok plaintext ∧
      (∀ e, parseEnvelope value = .ok e → e.version ≠ cipher.activeVersion) ∧
      text = some (cipher.encrypt aes (nonces ref.secret) plaintext ref.context) := by
  unfold replacement at h
  obtain ⟨version, hversion, h⟩ := bind_eq_ok.mp h
  obtain ⟨e, he, hev⟩ := applicationSecretKeyVersion_eq_ok.mp hversion
  split at h
  · rename_i hactive
    exact .inl ⟨(pure_eq_ok.mp h).symm, e, he, hev.trans hactive⟩
  · rename_i hactive
    obtain ⟨plaintext, hopen, h⟩ := bind_eq_ok.mp h
    refine .inr ⟨plaintext, hopen, fun e' he' => ?_, (pure_eq_ok.mp h).symm⟩
    obtain rfl := Except.ok.inj (he.symm.trans he')
    rw [hev]
    exact hactive

theorem replacement_of_done (h : Done cipher value) (hvalue : value ≠ []) : replacement aes cipher nonces ref value = .ok none := by
  obtain ⟨e, he, hactive⟩ := h.resolve_left hvalue
  unfold replacement
  rw [applicationSecretKeyVersion_eq_ok.mpr ⟨e, he, hactive⟩, ok_bind, if_pos rfl]
  rfl

theorem replacement_of_decrypt {plaintext : Bytes} (h : cipher.decrypt aes value ref.context = .ok plaintext) :
    ∃ text, replacement aes cipher nonces ref value = .ok text := by
  obtain ⟨e, he⟩ := ApplicationSecretCipher.decrypt_eq_ok h
  unfold replacement
  rw [applicationSecretKeyVersion_eq_ok.mpr ⟨e, he, rfl⟩, ok_bind, h, ok_bind]
  split
  · exact ⟨_, rfl⟩
  · exact ⟨_, rfl⟩

theorem rotateSecret_rotates (aes : AesGcm) (cipher : ApplicationSecretCipher) (nonces : SecretReference → Nonce) (ref : Reference)
    (s : State σ τ) :
    Rotates aes cipher nonces ref s (rotateSecret aes cipher nonces ref s).1 (rotateSecret aes cipher nonces ref s).2 := by
  by_cases hvalue : s.secretValue ref.secret = []
  · have hrun : rotateSecret aes cipher nonces ref s = (.ok .skippedEmpty, s) := by
      simp only [rotateSecret, Tx.atomic, Tx.get, Bind.bind, if_pos hvalue]
      rfl
    rw [hrun]
    exact .skipped _ (.inl hvalue)
  · cases hnew : replacement aes cipher nonces ref (s.secretValue ref.secret) with
    | error e =>
      have hrun : rotateSecret aes cipher nonces ref s = (.error (.rotationError ref.secret e.code), s) := by
        simp only [rotateSecret, Tx.atomic, Tx.get, Bind.bind, if_neg hvalue, hnew]
        rfl
      rw [hrun]
      refine .refused _ fun hrotatable => ?_
      rcases hrotatable with hdone | ⟨plaintext, hopen, -⟩
      · rw [replacement_of_done hdone hvalue] at hnew
        cases hnew
      · obtain ⟨text, htext⟩ : ∃ text, replacement aes cipher nonces ref (s.secretValue ref.secret) = .ok text :=
          replacement_of_decrypt hopen
        rw [hnew] at htext
        cases htext
    | ok text =>
      rcases replacement_eq_ok hnew with ⟨rfl, hactive⟩ | ⟨plaintext, hopen, hother, rfl⟩
      · have hrun : rotateSecret aes cipher nonces ref s = (.ok .skippedActive, s) := by
          simp only [rotateSecret, Tx.atomic, Tx.get, Bind.bind, if_neg hvalue, hnew]
          rfl
        rw [hrun]
        exact .skipped _ (.inr hactive)
      · by_cases hfits : (cipher.encrypt aes (nonces ref.secret) plaintext ref.context).length ≤ maxSecretLength
        · have hrun : rotateSecret aes cipher nonces ref s =
              (.ok .rotated, s.store (cipher.encrypt aes (nonces ref.secret) plaintext ref.context) ref.secret) := by
            simp [rotateSecret, Tx.atomic, Tx.get, Tx.ensure, Tx.modify, Bind.bind, Pure.pure, hvalue, hnew, hfits]
          rw [hrun]
          exact .rotated hvalue hopen hfits
        · have hrun : rotateSecret aes cipher nonces ref s = (.error .dataError, s) := by
            simp [rotateSecret, Tx.atomic, Tx.get, Tx.ensure, Tx.raise, Bind.bind, hvalue, hnew, hfits]
          rw [hrun]
          refine .refused _ fun hrotatable => ?_
          rcases hrotatable with hdone | ⟨plaintext', hopen', hfits'⟩
          · obtain ⟨e, he, hactive⟩ := hdone.resolve_left hvalue
            exact hother e he hactive
          · obtain rfl := Except.ok.inj (hopen.symm.trans hopen')
            exact hfits hfits'

/-! ### Runs over rows -/

/-- The other columns stay, and every secret opens to what it did. -/
structure Kept (aes : AesGcm) (cipher : ApplicationSecretCipher) (s t : State σ τ) : Prop where
  columns : t.columns = s.columns
  opens : ∀ ref ∈ liveSecretReferences s, cipher.decrypt aes (t.secretValue ref.secret) ref.context =
    cipher.decrypt aes (s.secretValue ref.secret) ref.context

theorem Kept.refl : Kept aes cipher s s := ⟨rfl, fun _ _ => rfl⟩

theorem Kept.trans {u : State σ τ} (h : Kept aes cipher s t) (h' : Kept aes cipher t u) : Kept aes cipher s u := by
  refine ⟨h'.columns.trans h.columns, fun ref href => ?_⟩
  have hlive : ref ∈ liveSecretReferences t := by
    rw [liveSecretReferences_congr h.columns]
    exact href
  exact (h'.opens ref hlive).trans (h.opens ref href)

variable {out : Except Error Outcome}

theorem Rotates.kept (haes : aes.Correct) (h : Rotates aes cipher nonces ref s out t) (href : ref ∈ liveSecretReferences s) :
    Kept aes cipher s t := by
  cases h with
  | skipped => exact Kept.refl
  | refused => exact Kept.refl
  | rotated filled opened fits =>
    refine ⟨columns_store, fun ref' href' => ?_⟩
    rw [secretValue_store filled]
    split
    · rename_i heq
      rw [reference_unique href' href heq, opened, ApplicationSecretCipher.decrypt_encrypt haes]
    · rfl

/-- A secret under the active version stays under it. -/
theorem Rotates.done (haes : aes.Correct) (h : Rotates aes cipher nonces ref s out t)
    (hdone : Done cipher (s.secretValue ref'.secret)) : Done cipher (t.secretValue ref'.secret) := by
  cases h with
  | skipped => exact hdone
  | refused => exact hdone
  | rotated filled opened fits =>
    rw [secretValue_store filled]
    split
    · exact .inr ⟨_, ApplicationSecretCipher.parseEnvelope_encrypt haes, rfl⟩
    · exact hdone

/-- A row that does not stop the run leaves its own secret under the active version. -/
theorem Rotates.done_self (haes : aes.Correct) {outcome : Outcome} (h : Rotates aes cipher nonces ref s (.ok outcome) t) :
    Done cipher (t.secretValue ref.secret) := by
  cases h with
  | skipped _ done => exact done
  | rotated filled opened fits =>
    rw [secretValue_store filled, if_pos rfl]
    exact .inr ⟨_, ApplicationSecretCipher.parseEnvelope_encrypt haes, rfl⟩

/-- Such a row decides nothing about the others. -/
theorem Rotates.rotatable_iff (haes : aes.Correct) {outcome : Outcome} (h : Rotates aes cipher nonces ref s (.ok outcome) t)
    (href : ref ∈ liveSecretReferences s) (href' : ref' ∈ liveSecretReferences s) :
    Rotatable aes cipher nonces ref' (t.secretValue ref'.secret) ↔ Rotatable aes cipher nonces ref' (s.secretValue ref'.secret) := by
  cases h with
  | skipped => exact Iff.rfl
  | @rotated plaintext filled opened fits =>
    rw [secretValue_store filled]
    split
    · rename_i heq
      obtain rfl := reference_unique href' href heq
      constructor
      · exact fun _ => .inr ⟨plaintext, opened, fits⟩
      · exact fun _ => .inl (.inr ⟨_, ApplicationSecretCipher.parseEnvelope_encrypt haes, rfl⟩)
    · exact Iff.rfl

theorem Rotates.rotatable {outcome : Outcome} (h : Rotates aes cipher nonces ref s (.ok outcome) t) :
    Rotatable aes cipher nonces ref (s.secretValue ref.secret) := by
  cases h with
  | skipped _ done => exact .inl done
  | rotated filled opened fits => exact .inr ⟨_, opened, fits⟩

variable {refs : List Reference} {result result' : OutboundMailSecretRotationResult}

theorem rotateEach_cons : rotateEach aes cipher nonces (ref :: refs) result s =
    match rotateSecret aes cipher nonces ref s with
    | (.ok outcome, t) => rotateEach aes cipher nonces refs (result.count outcome) t
    | (.error e, t) => (.error e, t) := by
  simp only [rotateEach, Bind.bind]
  cases rotateSecret aes cipher nonces ref s with
  | mk out t => cases out <;> rfl

/-- Wherever a run stops, it kept the secrets and the other columns. -/
theorem kept_rotateEach (haes : aes.Correct) (hrefs : ∀ ref ∈ refs, ref ∈ liveSecretReferences s) :
    Kept aes cipher s (rotateEach aes cipher nonces refs result s).2 := by
  induction refs generalizing s result with
  | nil => exact Kept.refl
  | cons ref refs ih =>
    have hrow := (rotateSecret_rotates aes cipher nonces ref s).kept haes (hrefs ref List.mem_cons_self)
    rw [rotateEach_cons]
    rcases hrun : rotateSecret aes cipher nonces ref s with ⟨out, t⟩
    rw [hrun] at hrow
    cases out with
    | error e => exact hrow
    | ok outcome =>
      refine hrow.trans (ih fun ref' href' => ?_)
      rw [liveSecretReferences_congr hrow.columns]
      exact hrefs ref' (List.mem_cons_of_mem _ href')

theorem done_rotateEach_of_done (haes : aes.Correct) (hdone : Done cipher (s.secretValue ref'.secret)) :
    Done cipher ((rotateEach aes cipher nonces refs result s).2.secretValue ref'.secret) := by
  induction refs generalizing s result with
  | nil => exact hdone
  | cons ref refs ih =>
    have hrow := (rotateSecret_rotates aes cipher nonces ref s).done haes hdone
    rw [rotateEach_cons]
    rcases hrun : rotateSecret aes cipher nonces ref s with ⟨out, t⟩
    rw [hrun] at hrow
    cases out with
    | error e => exact hrow
    | ok outcome => exact ih hrow

/-- A completed run leaves every secret under the active version. -/
theorem done_rotateEach (haes : aes.Correct) (h : rotateEach aes cipher nonces refs result s = (.ok result', t))
    (href : ref' ∈ refs) : Done cipher (t.secretValue ref'.secret) := by
  induction refs generalizing s result with
  | nil => cases href
  | cons ref refs ih =>
    have hrow := rotateSecret_rotates aes cipher nonces ref s
    rw [rotateEach_cons] at h
    rcases hrun : rotateSecret aes cipher nonces ref s with ⟨out, u⟩
    rw [hrun] at hrow h
    cases out with
    | error e => cases h
    | ok outcome =>
      rcases List.mem_cons.mp href with rfl | href
      · have hdone : Done cipher ((rotateEach aes cipher nonces refs (result.count outcome) u).2.secretValue ref'.secret) :=
          done_rotateEach_of_done haes (hrow.done_self haes)
        change rotateEach aes cipher nonces refs (result.count outcome) u = (.ok result', t) at h
        rw [h] at hdone
        exact hdone
      · exact ih h href

/-- A run completes exactly when every secret can be rotated. -/
theorem rotateEach_ok_iff (haes : aes.Correct) (hrefs : ∀ ref ∈ refs, ref ∈ liveSecretReferences s) :
    (∃ result' t, rotateEach aes cipher nonces refs result s = (.ok result', t)) ↔
      ∀ ref ∈ refs, Rotatable aes cipher nonces ref (s.secretValue ref.secret) := by
  induction refs generalizing s result with
  | nil => exact ⟨fun _ => nofun, fun _ => ⟨result, s, rfl⟩⟩
  | cons ref refs ih =>
    have href := hrefs ref List.mem_cons_self
    have hrow := rotateSecret_rotates aes cipher nonces ref s
    rw [rotateEach_cons, List.forall_mem_cons]
    rcases hrun : rotateSecret aes cipher nonces ref s with ⟨out, u⟩
    rw [hrun] at hrow
    cases out with
    | error e =>
      cases hrow with
      | refused _ fails =>
        constructor
        · rintro ⟨result', t, h⟩
          cases h
        · exact fun h => absurd h.1 fails
    | ok outcome =>
      have hcolumns := (hrow.kept haes href).columns
      rw [ih fun ref' href' => by
        rw [liveSecretReferences_congr hcolumns]
        exact hrefs ref' (List.mem_cons_of_mem _ href')]
      constructor
      · intro h
        refine ⟨hrow.rotatable, fun ref' href' => ?_⟩
        exact (hrow.rotatable_iff haes href (hrefs ref' (List.mem_cons_of_mem _ href'))).mp (h ref' href')
      · intro h ref' href'
        exact (hrow.rotatable_iff haes href (hrefs ref' (List.mem_cons_of_mem _ href'))).mpr (h.2 ref' href')

/-! ### What the counts say -/

theorem lookup_map_self {n : Text → ℕ} {l : List Text} {version : Text} :
    ((l.map fun v => (v, n v)).lookup version).getD 0 = if version ∈ l then n version else 0 := by
  induction l with
  | nil => rfl
  | cons v l ih =>
    rw [List.map_cons, List.lookup_cons]
    by_cases hv : version = v
    · simp [hv]
    · have hne : (version == v) = false := beq_eq_false_iff_ne.mpr hv
      simp only [hne, ih, List.mem_cons, hv, false_or]

theorem mem_countedVersions {version : Text} : version ∈ countedVersions s ↔
    ∃ ref ∈ liveSecretReferences s, s.secretValue ref.secret ≠ [] ∧ countedVersion (s.secretValue ref.secret) = version := by
  unfold countedVersions
  simp only [List.mem_map, List.mem_filter, decide_eq_true_eq, and_assoc]

theorem count_eq_zero_iff {version : Text} :
    ((outboundMailSecretRotationStatus cipher s).versionCounts.lookup version).getD 0 = 0 ↔ version ∉ countedVersions s := by
  unfold outboundMailSecretRotationStatus
  simp only [lookup_map_self, List.mem_insertionSort, List.mem_dedup]
  by_cases h : version ∈ countedVersions s
  · simp only [h, if_true, not_true_eq_false, iff_false]
    exact (List.count_pos_iff.mpr h).ne'
  · simp only [h, if_false, not_false_eq_true]

theorem canRetire_iff {version : Text} : (outboundMailSecretRotationStatus cipher s).canRetire version = true ↔
    version ∉ countedVersions s ∧ malformedVersion ∉ countedVersions s := by
  unfold OutboundMailSecretRotationStatus.canRetire
  rw [decide_eq_true_eq, count_eq_zero_iff, count_eq_zero_iff]

theorem allLiveCredentialsActive_iff : (outboundMailSecretRotationStatus cipher s).allLiveCredentialsActive = true ↔
    ∀ version ∈ countedVersions s, version = cipher.activeVersion := by
  unfold OutboundMailSecretRotationStatus.allLiveCredentialsActive outboundMailSecretRotationStatus
  simp only [Bool.not_eq_true', List.any_eq_false, decide_eq_true_eq, List.mem_map, List.mem_insertionSort, List.mem_dedup]
  constructor
  · intro h version hversion
    by_contra hne
    exact h _ ⟨version, hversion, rfl⟩ ⟨hne, (List.count_pos_iff.mpr hversion).ne'⟩
  · rintro h e ⟨version, hversion, rfl⟩ ⟨hne, -⟩
    exact hne (h version hversion)

theorem countedVersion_of_parse {e : ApplicationSecrets.Envelope} (h : parseEnvelope value = .ok e) : countedVersion value = e.version := by
  unfold countedVersion
  rw [applicationSecretKeyVersion_eq_ok.mpr ⟨e, h, rfl⟩]

theorem countedVersion_of_malformed (h : ∀ e, parseEnvelope value ≠ .ok e) : countedVersion value = malformedVersion := by
  unfold countedVersion
  split
  · rename_i version hversion
    obtain ⟨e, he, -⟩ := applicationSecretKeyVersion_eq_ok.mp hversion
    exact absurd he (h e)
  · rfl

/-! ### Safety of a rotation -/

/-- What a rotation is to guarantee for the stored secrets, the key ring and the nonces. -/
structure SafeRotation (aes : AesGcm) (cipher : ApplicationSecretCipher) (nonces : SecretReference → Nonce) (s : State σ τ) : Prop where
  /-- Whichever rows were done, every secret opens as before and no other column changed. -/
  interrupted : ∀ n, Kept aes cipher s (rotatedPrefix aes cipher nonces n s)
  completed : ∀ result t, rotateOutboundMailSecrets aes cipher nonces s = (.ok result, t) → Kept aes cipher s t ∧
    ∀ ref ∈ liveSecretReferences t, t.secretValue ref.secret ≠ [] →
      ∃ e, parseEnvelope (t.secretValue ref.secret) = .ok e ∧ e.version = cipher.activeVersion
  reported : ∀ result t, rotateOutboundMailSecrets aes cipher nonces s = (.ok result, t) →
    (outboundMailSecretRotationStatus cipher t).allLiveCredentialsActive = true ∧
      ∀ version ≠ cipher.activeVersion, (outboundMailSecretRotationStatus cipher t).canRetire version = true
  retirement : ∀ version, (outboundMailSecretRotationStatus cipher s).canRetire version = true →
    ∀ ref ∈ liveSecretReferences s, ∀ e, parseEnvelope (s.secretValue ref.secret) = .ok e → e.version ≠ version
  active : (outboundMailSecretRotationStatus cipher s).allLiveCredentialsActive = true →
    ∀ ref ∈ liveSecretReferences s, s.secretValue ref.secret ≠ [] →
      ∃ e, parseEnvelope (s.secretValue ref.secret) = .ok e ∧ e.version = cipher.activeVersion
  envelopes : ∀ (nonce : Nonce) (plaintext context : Bytes),
    ∃ e, parseEnvelope (cipher.encrypt aes nonce plaintext context) = .ok e ∧ e.version = cipher.activeVersion ∧
      e.nonce = nonce.1 ∧ e.ciphertext = aes.encrypt cipher.activeKey nonce.1 plaintext context

theorem not_nil_of_parse {e : ApplicationSecrets.Envelope} (h : parseEnvelope value = .ok e) : value ≠ [] := by
  rintro rfl
  cases h

theorem completed_of_ok (haes : aes.Correct) {result : OutboundMailSecretRotationResult}
    (h : rotateOutboundMailSecrets aes cipher nonces s = (.ok result, t)) : Kept aes cipher s t ∧
    ∀ ref ∈ liveSecretReferences t, t.secretValue ref.secret ≠ [] →
      ∃ e, parseEnvelope (t.secretValue ref.secret) = .ok e ∧ e.version = cipher.activeVersion := by
  have hkept : Kept aes cipher s
      (rotateEach aes cipher nonces (liveSecretReferences s) { activeVersion := cipher.activeVersion } s).2 :=
    kept_rotateEach haes fun _ href => href
  change rotateEach aes cipher nonces (liveSecretReferences s) { activeVersion := cipher.activeVersion } s = (.ok result, t) at h
  rw [h] at hkept
  refine ⟨hkept, fun ref href hvalue => ?_⟩
  rw [liveSecretReferences_congr hkept.columns] at href
  exact (done_rotateEach haes h href).resolve_left hvalue

/-- A completed run that left a secret: the status is as promised unless the marker names the active version. -/
theorem reported_iff (haes : aes.Correct) {result : OutboundMailSecretRotationResult}
    (h : rotateOutboundMailSecrets aes cipher nonces s = (.ok result, t)) :
    ((outboundMailSecretRotationStatus cipher t).allLiveCredentialsActive = true ∧
      ∀ version ≠ cipher.activeVersion, (outboundMailSecretRotationStatus cipher t).canRetire version = true) ↔
    (cipher.activeVersion ≠ malformedVersion ∨ ∀ ref ∈ liveSecretReferences t, t.secretValue ref.secret = []) := by
  obtain ⟨-, hactive⟩ := completed_of_ok haes h
  have hcounted : ∀ version ∈ countedVersions t, version = cipher.activeVersion := by
    intro version hversion
    obtain ⟨ref, href, hvalue, rfl⟩ := mem_countedVersions.mp hversion
    obtain ⟨e, he, heactive⟩ := hactive ref href hvalue
    rw [countedVersion_of_parse he, heactive]
  rw [and_iff_right (allLiveCredentialsActive_iff.mpr hcounted)]
  simp only [canRetire_iff]
  constructor
  · intro hretire
    by_contra hnot
    push Not at hnot
    obtain ⟨hmarker, ref, href, hvalue⟩ := hnot
    obtain ⟨e, he, heactive⟩ := hactive ref href hvalue
    -- Some other version exists, and the secrets left are counted as malformed.
    have hother : (text "1" : Text) ≠ cipher.activeVersion := by
      rw [hmarker]
      decide
    refine (hretire _ hother).2 (mem_countedVersions.mpr ⟨ref, href, hvalue, ?_⟩)
    rw [countedVersion_of_parse he, heactive, hmarker]
  · rintro (hmarker | hempty) version hversion
    · exact ⟨fun h => hversion (hcounted _ h), fun h => hmarker (hcounted _ h).symm⟩
    · have hnone : ∀ v, v ∉ countedVersions t := by
        intro v hv
        obtain ⟨ref, href, hvalue, -⟩ := mem_countedVersions.mp hv
        exact hvalue (hempty ref href)
      exact ⟨hnone _, hnone _⟩

/-- A row fills no secret that is empty, and empties none. -/
theorem Rotates.nil_iff (h : Rotates aes cipher nonces ref s out t) (r : SecretReference) :
    t.secretValue r = [] ↔ s.secretValue r = [] := by
  cases h with
  | skipped => exact Iff.rfl
  | refused => exact Iff.rfl
  | rotated filled opened fits =>
    rw [secretValue_store filled]
    split
    · rename_i heq
      rw [heq]
      exact ⟨fun h => absurd h ApplicationSecretCipher.encrypt_ne_nil, fun h => absurd h filled⟩
    · exact Iff.rfl

theorem rotateEach_nil_iff (r : SecretReference) :
    (rotateEach aes cipher nonces refs result s).2.secretValue r = [] ↔ s.secretValue r = [] := by
  induction refs generalizing s result with
  | nil => exact Iff.rfl
  | cons ref refs ih =>
    have hrow := (rotateSecret_rotates aes cipher nonces ref s).nil_iff r
    rw [rotateEach_cons]
    rcases hrun : rotateSecret aes cipher nonces ref s with ⟨out, t⟩
    rw [hrun] at hrow
    cases out with
    | error e => exact hrow
    | ok outcome => exact ih.trans hrow

/-- A completed run leaves no secret exactly when there was none. -/
theorem empty_iff (haes : aes.Correct) (h : rotateOutboundMailSecrets aes cipher nonces s = (.ok result, t)) :
    (∀ ref ∈ liveSecretReferences t, t.secretValue ref.secret = []) ↔ ∀ ref ∈ liveSecretReferences s, s.secretValue ref.secret = [] := by
  rw [liveSecretReferences_congr (completed_of_ok haes h).1.columns]
  have hnil : ∀ r, (rotateOutboundMailSecrets aes cipher nonces s).2.secretValue r = [] ↔ s.secretValue r = [] :=
    fun r => rotateEach_nil_iff r
  rw [h] at hnil
  exact forall₂_congr fun ref _ => hnil ref.secret

/-- All counted under the active version, though one is malformed: only where the marker names that version. -/
theorem active_iff :
    ((outboundMailSecretRotationStatus cipher s).allLiveCredentialsActive = true →
      ∀ ref ∈ liveSecretReferences s, s.secretValue ref.secret ≠ [] →
        ∃ e, parseEnvelope (s.secretValue ref.secret) = .ok e ∧ e.version = cipher.activeVersion) ↔
    (cipher.activeVersion ≠ malformedVersion ∨
      (∃ ref ∈ liveSecretReferences s, ∃ e, parseEnvelope (s.secretValue ref.secret) = .ok e ∧ e.version ≠ cipher.activeVersion) ∨
      ∀ ref ∈ liveSecretReferences s, s.secretValue ref.secret ≠ [] → ∃ e, parseEnvelope (s.secretValue ref.secret) = .ok e) := by
  rw [allLiveCredentialsActive_iff]
  constructor
  · intro h
    by_contra hnot
    push Not at hnot
    obtain ⟨hmarker, hsame, ref, href, hvalue, hmalformed⟩ := hnot
    have hcounted : ∀ version ∈ countedVersions s, version = cipher.activeVersion := by
      intro version hversion
      obtain ⟨ref, href, hvalue, rfl⟩ := mem_countedVersions.mp hversion
      by_cases hparse : ∃ e, parseEnvelope (s.secretValue ref.secret) = .ok e
      · obtain ⟨e, he⟩ := hparse
        rw [countedVersion_of_parse he]
        exact hsame ref href e he
      · push Not at hparse
        rw [countedVersion_of_malformed hparse, hmarker]
    obtain ⟨e, he, -⟩ := h hcounted ref href hvalue
    exact hmalformed e he
  · intro h hcounted ref href hvalue
    have hversion := hcounted _ (mem_countedVersions.mpr ⟨ref, href, hvalue, rfl⟩)
    by_cases hparse : ∃ e, parseEnvelope (s.secretValue ref.secret) = .ok e
    · obtain ⟨e, he⟩ := hparse
      rw [countedVersion_of_parse he] at hversion
      exact ⟨e, he, hversion⟩
    · push Not at hparse
      rw [countedVersion_of_malformed hparse] at hversion
      rcases h with hmarker | ⟨other, hother, e, he, hne⟩ | hwell
      · exact absurd hversion.symm hmarker
      · have hcount := hcounted _ (mem_countedVersions.mpr ⟨other, hother, not_nil_of_parse he, rfl⟩)
        rw [countedVersion_of_parse he] at hcount
        exact absurd hcount hne
      · obtain ⟨e, he⟩ := hwell ref href hvalue
        exact absurd he (hparse e)

/-- A rotation is safe unless the active version is named like the marker and either every one of some secrets can be
rotated, or every well-formed one is active. -/
theorem safeRotation_iff (haes : aes.Correct) : SafeRotation aes cipher nonces s ↔
    cipher.activeVersion ≠ malformedVersion ∨
    (∀ ref ∈ liveSecretReferences s, s.secretValue ref.secret = []) ∨
    (∃ ref ∈ liveSecretReferences s, ∃ e, parseEnvelope (s.secretValue ref.secret) = .ok e ∧ e.version ≠ cipher.activeVersion) ∧
      ∃ ref ∈ liveSecretReferences s, ¬Rotatable aes cipher nonces ref (s.secretValue ref.secret) := by
  have hruns : (∃ result t, rotateOutboundMailSecrets aes cipher nonces s = (.ok result, t)) ↔
      ∀ ref ∈ liveSecretReferences s, Rotatable aes cipher nonces ref (s.secretValue ref.secret) :=
    rotateEach_ok_iff haes fun _ href => href
  constructor
  · intro hsafe
    by_contra hnot
    rw [not_or, not_or, not_ne_iff, not_and_or] at hnot
    obtain ⟨hmarker, hfilled, hother⟩ := hnot
    have hempty : ∀ {result t}, rotateOutboundMailSecrets aes cipher nonces s = (.ok result, t) →
        ∀ ref ∈ liveSecretReferences s, s.secretValue ref.secret = [] := by
      intro result t hrun
      rcases (reported_iff haes hrun).mp (hsafe.reported result t hrun) with hne | hempty
      · exact absurd hmarker hne
      · exact (empty_iff haes hrun).mp hempty
    rcases hother with hstuck | hrotatable
    · -- The secrets that are well-formed are active, so the counts show nothing else.
      have hwell : ∀ ref ∈ liveSecretReferences s, s.secretValue ref.secret ≠ [] → ∃ e, parseEnvelope (s.secretValue ref.secret) = .ok e := by
        rcases active_iff.mp hsafe.active with hne | hother | hwell
        · exact absurd hmarker hne
        · exact absurd hother hstuck
        · exact hwell
      have hrotatable : ∀ ref ∈ liveSecretReferences s, Rotatable aes cipher nonces ref (s.secretValue ref.secret) := by
        intro ref href
        by_cases hvalue : s.secretValue ref.secret = []
        · exact .inl (.inl hvalue)
        · obtain ⟨e, he⟩ := hwell ref href hvalue
          by_contra hrot
          exact hstuck ⟨ref, href, e, he, fun hactive => hrot (.inl (.inr ⟨e, he, hactive⟩))⟩
      obtain ⟨result, t, hrun⟩ := hruns.mpr hrotatable
      exact hfilled (hempty hrun)
    · push Not at hrotatable
      obtain ⟨result, t, hrun⟩ := hruns.mpr hrotatable
      exact hfilled (hempty hrun)
  · intro hcondition
    constructor
    case interrupted => exact fun n => kept_rotateEach haes fun ref href => List.mem_of_mem_take href
    case completed => exact fun result t hrun => completed_of_ok haes hrun
    case reported =>
      intro result t hrun
      apply (reported_iff haes hrun).mpr
      rcases hcondition with hmarker | hempty | ⟨-, hstuck⟩
      · exact .inl hmarker
      · exact .inr ((empty_iff haes hrun).mpr hempty)
      · obtain ⟨ref, href, hnot⟩ := hstuck
        exact absurd (hruns.mp ⟨result, t, hrun⟩ ref href) hnot
    case retirement =>
      intro version hretire ref href e he hversion
      refine (canRetire_iff.mp hretire).1 (mem_countedVersions.mpr ⟨ref, href, not_nil_of_parse he, ?_⟩)
      rw [countedVersion_of_parse he, hversion]
    case active =>
      apply active_iff.mpr
      rcases hcondition with hmarker | hempty | ⟨hother, -⟩
      · exact .inl hmarker
      · exact .inr (.inr fun ref href hvalue => absurd (hempty ref href) hvalue)
      · exact .inr (.inl hother)
    case envelopes =>
      exact fun nonce plaintext context => ⟨_, ApplicationSecretCipher.parseEnvelope_encrypt haes, rfl, rfl, rfl⟩

end

/-! ### A key ring whose version is named like the marker -/

/-- A tag of 16 bytes of the key. -/
def sampleTag (key : Bytes) : Bytes := (key ++ List.replicate 16 0).take 16

/-- A cipher that only authenticates the key. -/
def sampleAes : AesGcm where
  encrypt key _ plaintext _ := plaintext ++ sampleTag key
  decrypt key _ ciphertext _ :=
    if ciphertext.drop (ciphertext.length - 16) = sampleTag key then some (ciphertext.take (ciphertext.length - 16)) else none

theorem length_sampleTag (key : Bytes) : (sampleTag key).length = 16 := by
  unfold sampleTag
  rw [List.length_take, List.length_append, List.length_replicate]
  omega

theorem sampleAes_correct : sampleAes.Correct := by
  constructor
  · intro key nonce plaintext context hkey hnonce
    have hlength : (plaintext ++ sampleTag key).length - 16 = plaintext.length := by
      rw [List.length_append, length_sampleTag, Nat.add_sub_cancel]
    simp only [sampleAes, hlength, List.drop_left, List.take_left, if_true]
  · intro key nonce plaintext context
    simp only [sampleAes, List.length_append, length_sampleTag]

/-- A ring of two keys that writes under the new one. -/
def sampleCipher : ApplicationSecretCipher where
  keys := [(text "1", List.replicate 32 1), (text "2", List.replicate 32 2)]
  activeVersion := text "2"
  activeKey := List.replicate 32 2
  lookup_active := by decide
  keys_valid := by decide

/-- A ring whose one key is named like the marker. -/
def markedCipher : ApplicationSecretCipher where
  keys := [(malformedVersion, List.replicate 32 1)]
  activeVersion := malformedVersion
  activeKey := List.replicate 32 1
  lookup_active := by decide
  keys_valid := by decide

def sampleNonces : SecretReference → Nonce := fun _ => ⟨List.replicate 12 7, by decide⟩

/-- A system row with an API key. -/
def stored (apiKey : Text) : State Unit Unit where
  system := some ⟨apiKey, [], ()⟩

/-- The envelope of a short key under a version. -/
def sampleEnvelope (version : Text) : Text := ApplicationSecrets.serialize version (List.replicate 12 3) (5 :: List.replicate 16 1)

theorem safeRotation_second_key : SafeRotation sampleAes sampleCipher sampleNonces (stored (sampleEnvelope (text "1"))) ∧
    (rotateOutboundMailSecrets sampleAes sampleCipher sampleNonces (stored (sampleEnvelope (text "1")))).1 =
      .ok ⟨text "2", 1, 0, 1⟩ := by
  refine ⟨(safeRotation_iff sampleAes_correct).mpr (.inl (by decide)), ?_⟩
  decide +kernel

/-- A malformed secret is taken for one of the active version, and after a completed run no key can be retired. -/
theorem marker_named_version :
    ((outboundMailSecretRotationStatus markedCipher (stored (text "not-an-envelope"))).allLiveCredentialsActive = true ∧
      ¬SafeRotation sampleAes markedCipher sampleNonces (stored (text "not-an-envelope"))) ∧
    (rotateOutboundMailSecrets sampleAes markedCipher sampleNonces (stored (sampleEnvelope malformedVersion))).1 =
      .ok ⟨malformedVersion, 0, 1, 1⟩ ∧
    (outboundMailSecretRotationStatus markedCipher (stored (sampleEnvelope malformedVersion))).canRetire (text "1") = false ∧
    ¬SafeRotation sampleAes markedCipher sampleNonces (stored (sampleEnvelope malformedVersion)) := by
  have hactive : (outboundMailSecretRotationStatus markedCipher (stored (text "not-an-envelope"))).allLiveCredentialsActive = true := by
    decide +kernel
  have hkept : (outboundMailSecretRotationStatus markedCipher (stored (sampleEnvelope malformedVersion))).canRetire (text "1") = false := by
    decide +kernel
  have hrun : rotateOutboundMailSecrets sampleAes markedCipher sampleNonces (stored (sampleEnvelope malformedVersion)) =
      (.ok ⟨malformedVersion, 0, 1, 1⟩, stored (sampleEnvelope malformedVersion)) := by
    rfl
  refine ⟨⟨hactive, fun hsafe => ?_⟩, ?_, hkept, fun hsafe => ?_⟩
  · obtain ⟨e, he, -⟩ := hsafe.active hactive ⟨.systemApiKey, contextBytes brevoApiKeyContext⟩ List.mem_cons_self (by decide)
    cases he
  · rw [hrun]
  · have hretire := (hsafe.reported _ _ hrun).2 (text "1") (by decide)
    rw [hkept] at hretire
    cases hretire

end FireDash.OutboundMail.SecretRotation
