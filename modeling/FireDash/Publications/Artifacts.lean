import FireDash.Publications.Models

/-! Worker-only encrypted artifact creation: publication ciphertexts and the shared
ciphertexts of canonical PDF documents. -/
namespace FireDash.Publications

/-- The canonical JSON texts the worker signs. -/
inductive SignedText where
  | publication (wrappedCek nonce : Bytes) (ciphertextSha256 : Digest) (ciphertextSize : ℕ)
      (schemaVersion versionNumber : ℕ) (key : ScopeKey) (kekVersion : String)
  | document (artifact : ℕ) (code : DatasetTypeCode) (canonicalDocument : ℕ) (sanitizedPdfSha256 : Digest)
      (wrappedCek nonce : Bytes) (ciphertextSha256 : Digest) (ciphertextSize : ℕ) (kekVersion : String)
  | manifest (payload : ManifestPayload)

/-- The cryptographic primitives. -/
structure Crypto where
  sha256 : Bytes → Digest
  aesGcmEncrypt : Bytes → Bytes → Bytes → Bytes
  aesKeyWrap : Bytes → Bytes → Bytes
  aesKeyUnwrap : Bytes → Bytes → Option Bytes
  ed25519Sign : Bytes → SignedText → Bytes

/-- What a worker reads from credentials, entropy and storage while it builds. -/
structure WorkerEnv where
  kek : Option Bytes
  signingKey : Option Bytes
  signingKeyActive : Bool
  cek : Bytes
  nonce : Bytes
  generationKey : Bytes
  documentKeys : ℕ → Bytes × Bytes
  acceptedPdf : String → Option Bytes
  storedCiphertext : ArtifactPath → Option Bytes
  promoted : Bool

def credential (value : Option Bytes) (label : String) : Except Error Bytes :=
  match value with
  | some key => .ok key
  | none => .error (.artifactError s!"Publication {label} credential is unavailable.")

/-- The canonical relative path of a publication's ciphertext. -/
def publicationArtifactRelativePath (key : ScopeKey) (id : PublicationId) : Except Error ArtifactPath :=
  match key.scopeType, key.target.department with
  | .system, some _ => .error (.valueError "SYSTEM publication artifacts cannot have a department owner.")
  | .system, none => .ok (.system id)
  | _, some department => .ok (.tenant department id)
  | _, none => .error (.valueError "Tenant publication artifacts require a valid owner scope.")

def documentArtifactRelativePath (artifact : ℕ) : ArtifactPath := .document artifact

/-- Encrypt, sign, and promote a publication's plaintext. -/
def buildEncryptedArtifact (cfg : Config) (crypto : Crypto) (worker : WorkerEnv) (id : PublicationId)
    (publication : Publication) (plaintext : Bytes) : Except Error ArtifactMetadata := do
  if plaintext.length > cfg.artifactMaxBytes then
    throw (.artifactError "Artifact exceeds the configured size limit.")
  let kek ← credential worker.kek "KEK"
  if kek.length ≠ 32 then
    throw (.artifactError "Publication KEK must be exactly 32 bytes.")
  let signingKey ← credential worker.signingKey "signing"
  if signingKey.length ≠ 32 then
    throw (.artifactError "Publication Ed25519 private key must be exactly 32 bytes.")
  let ciphertext := crypto.aesGcmEncrypt worker.cek worker.nonce plaintext
  let wrappedCek := crypto.aesKeyWrap kek worker.cek
  let path ← publicationArtifactRelativePath publication.key id
  if ¬worker.promoted then
    throw (.artifactError "Could not promote publication artifact.")
  return {
    path := some path
    size := some ciphertext.length
    sha256 := some (crypto.sha256 ciphertext)
    nonce := worker.nonce
    wrappedCek := wrappedCek
    encryptionAlgorithm := "AES-256-GCM"
    wrappingAlgorithm := "AES-KW-RFC3394"
    kekVersion := cfg.kekVersion
    signature := crypto.ed25519Sign signingKey
      (.publication wrappedCek worker.nonce (crypto.sha256 ciphertext) ciphertext.length
        publication.schemaVersion publication.versionNumber publication.key cfg.kekVersion)
    signatureAlgorithm := "Ed25519"
    signingKeyVersion := cfg.signingKeyVersion }

/-- Encrypt an adapter-owned canonical PDF without publication coupling. -/
def buildEncryptedGenericDocumentArtifact (cfg : Config) (crypto : Crypto) (worker : WorkerEnv)
    (artifact : ℕ) (code : DatasetTypeCode) (canonicalDocument : ℕ) (sanitizedPdf : Bytes) :
    Except Error DocumentArtifact := do
  if sanitizedPdf.length > cfg.artifactMaxBytes then
    throw (.artifactError "Artifact exceeds the configured size limit.")
  let kek ← credential worker.kek "KEK"
  let signingKey ← credential worker.signingKey "signing"
  if kek.length ≠ 32 ∨ signingKey.length ≠ 32 then
    throw (.artifactError "Publication cryptographic credentials are invalid.")
  let (cek, nonce) := worker.documentKeys artifact
  let ciphertext := crypto.aesGcmEncrypt cek nonce sanitizedPdf
  let wrappedCek := crypto.aesKeyWrap kek cek
  let digest := crypto.sha256 sanitizedPdf
  if ¬worker.promoted then
    throw (.artifactError "Could not promote document artifact.")
  return {
    id := artifact
    datasetTypeCode := code
    canonicalDocumentId := canonicalDocument
    sanitizedPdfSha256 := digest
    artifactPath := some (documentArtifactRelativePath artifact)
    ciphertextSize := ciphertext.length
    ciphertextSha256 := some (crypto.sha256 ciphertext)
    nonce := nonce
    wrappedCek := wrappedCek
    encryptionAlgorithm := "AES-256-GCM"
    wrappingAlgorithm := "AES-KW-RFC3394"
    kekVersion := cfg.kekVersion
    signature := crypto.ed25519Sign signingKey
      (.document artifact code canonicalDocument digest wrappedCek nonce (crypto.sha256 ciphertext)
        ciphertext.length cfg.kekVersion)
    signatureAlgorithm := "Ed25519"
    signingKeyVersion := cfg.signingKeyVersion }

/-- The columns the model check calls complete cryptographic metadata. -/
def ArtifactMetadata.complete (a : ArtifactMetadata) : Bool :=
  a.path.isSome ∧ a.size.isSome ∧ a.sha256.isSome ∧ a.nonce ≠ [] ∧ a.wrappedCek ≠ [] ∧
    a.encryptionAlgorithm = "AES-256-GCM" ∧ a.wrappingAlgorithm = "AES-KW-RFC3394" ∧ a.kekVersion ≠ "" ∧
    a.signature ≠ [] ∧ a.signatureAlgorithm = "Ed25519" ∧ a.signingKeyVersion ≠ ""

end FireDash.Publications
