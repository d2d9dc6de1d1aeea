/-
  Release manifests (`pkg/update`).

  A manifest names an artifact by its digest and size, and is signed.  `Verify` is
  the check at import, `VerifyInstalled` the one at every later start, which leaves
  out the validity window, and `VerifyArtifact` compares a stream with the manifest.

  SHA-256 and the Ed25519 check are functions given from outside.
-/
import TosAi.Foundation.Checks
import TosAi.Foundation.FileSystem
import TosAi.Foundation.GoStd
import TosAi.Foundation.Json.Codec

set_option autoImplicit false

namespace TosAi.SoftwareUpdate

open Foundation
open Foundation.Json (Bytes Codec)

/-! ## Errors and cryptography -/

inductive Err where
  | text (message : String)
  /-- an error of the operating system -/
  | io
  /-- the error of a context that was cancelled -/
  | context
  /-- an error of the caller's reader -/
  | reader
  /-- `fmt.Errorf` with a wrapped error -/
  | wrapped (message : String) (err : Err)
  /-- `errors.Join` -/
  | joined (errs : List Err)

/-- `errors.New`. -/
instance : Coe String Err := ⟨.text⟩

structure Crypto where
  sha256 : Bytes → Bytes
  /-- `ed25519.Verify(publicKey, message, signature)` -/
  verify : Bytes → Bytes → Bytes → Bool

/-- `ed25519.PublicKeySize`. -/
def publicKeySize : Nat := 32

/-! ## The manifest -/

structure Manifest where
  version : UInt8
  artifact : String
  digest : String
  sizeBytes : UInt64
  target : String
  securityRevision : UInt64
  issuedAt : Int64
  expiresAt : Int64
  keyID : String
  signature : String
  deriving DecidableEq, Repr

def manifestVersion : UInt8 := 1

def maxArtifactBytes : UInt64 := 64 * 2 ^ 30

namespace Manifest

def validateStructure (m : Manifest) : Except Err Unit := do
  require (m.version == manifestVersion)
    ("unsupported manifest version " ++ toString m.version.toNat)
  require (m.artifact.utf8ByteSize != 0 && m.artifact.utf8ByteSize ≤ 512 &&
      m.target.utf8ByteSize != 0 && m.target.utf8ByteSize ≤ 256 &&
      m.keyID.utf8ByteSize != 0 && m.keyID.utf8ByteSize ≤ 512)
    "invalid manifest identity fields"
  require (startsWith "sha256:" m.digest && m.digest.utf8ByteSize == 71) "invalid artifact digest"
  require ((trimStart "sha256:" m.digest).toList.all isHexDigit) "invalid artifact digest"
  require (m.sizeBytes != 0 && m.sizeBytes ≤ maxArtifactBytes &&
      decide (m.issuedAt.toInt < m.expiresAt.toInt))
    "invalid artifact size or validity interval"

/-- A text with its length before it. -/
def writeString (value : String) : Bytes :=
  bigEndian 4 (stringBytes value).length ++ stringBytes value

def signingMessage (m : Manifest) : Bytes :=
  stringBytes "TOS-AI-UPDATE-MANIFEST" ++ [0] ++ [m.version] ++ writeString m.artifact ++
    writeString m.digest ++ bigEndian 8 m.sizeBytes.toNat ++ writeString m.target ++
    bigEndian 8 m.securityRevision.toNat ++ bigEndian 8 (toUInt64 m.issuedAt.toInt).toNat ++
    bigEndian 8 (toUInt64 m.expiresAt.toInt).toNat ++ writeString m.keyID

section Checks

variable (K : Crypto)

/-- `len(publicKey)` is 0 for a key that is not there. -/
def verifyInstalled (m : Manifest) (publicKey : Option Bytes) (target : String)
    (currentSecurityRevision : UInt64) : Except Err Unit := do
  require ((publicKey.getD []).length == publicKeySize) "invalid Ed25519 public key"
  m.validateStructure
  require (m.target == target) "artifact target mismatch"
  require (decide (currentSecurityRevision ≤ m.securityRevision))
    "security revision rollback rejected"
  match base64RawURLDecode m.signature with
  | none => .error (.text "manifest signature verification failed")
  | some signature =>
    require (K.verify (publicKey.getD []) m.signingMessage signature)
      "manifest signature verification failed"

/-- `time.UnixMilli`. -/
def unixMilli (ms : Int64) : Time := ms.toInt * 1000000

def verify (m : Manifest) (publicKey : Option Bytes) (target : String)
    (currentSecurityRevision : UInt64) (now : Time) : Except Err Unit := do
  m.verifyInstalled K publicKey target currentSecurityRevision
  require (decide (unixMilli m.issuedAt ≤ now + 2 * 60 * 1000000000) &&
      decide (now < unixMilli m.expiresAt))
    "manifest is outside its validity window"

/-- How many bytes `VerifyArtifact` takes from its reader at most. -/
def copyLimit (m : Manifest) : Nat := m.sizeBytes.toNat + 1

/-- The end of `VerifyArtifact`: what was copied has the size and the digest. -/
def verifyCopied (m : Manifest) (copied : Bytes) : Except Err Unit := do
  require (decide (copied.length = m.sizeBytes.toNat)) "artifact size mismatch"
  require ("sha256:" ++ hexEncode (K.sha256 copied) == m.digest) "artifact digest mismatch"

/-- The beginning of `VerifyArtifact`. -/
def verifyArtifactStart (m : Manifest) : Except Err Unit := do
  m.validateStructure
  require (decide (m.sizeBytes ≤ maxArtifactBytes)) "artifact exceeds hard size limit"

/-- `VerifyArtifact` of a file. -/
def verifyArtifact (m : Manifest) (content : Bytes) : Except Err Unit := do
  m.verifyArtifactStart
  m.verifyCopied K (content.take m.copyLimit)

end Checks

/-! ## JSON -/

def codec : Codec Manifest :=
  .struct (.field "version" .uint8 <| .field "artifact" .string <| .field "digest" .string <|
      .field "sizeBytes" .uint64 <| .field "target" .string <| .field "securityRevision" .uint64 <|
      .field "issuedAt" .int64 <| .field "expiresAt" .int64 <| .field "keyId" .string <|
      .field "signature" .string .nil)
    (fun m => (m.version, m.artifact, m.digest, m.sizeBytes, m.target, m.securityRevision,
      m.issuedAt, m.expiresAt, m.keyID, m.signature, ()))
    (fun (a, b, c, d, e, f, g, h, i, j, ()) => ⟨a, b, c, d, e, f, g, h, i, j⟩)
    (fun _ => rfl) (fun _ => rfl)

/-- `json.Marshal`. -/
def marshal (m : Manifest) : Bytes := codec.marshal m

/-- The strict decoder of `readManifest`. -/
def decode (raw : Bytes) : Option Manifest := codec.unmarshal true raw

theorem decode_marshal (m : Manifest) : decode m.marshal = some m :=
  codec.unmarshal_marshal true m

end Manifest

/-! ## What a passed check says -/

namespace Manifest

variable {K : Crypto} {m : Manifest} {key : Option Bytes} {target : String} {revision : UInt64}

/-- An installed manifest passes again under any revision up to its own. -/
theorem verifyInstalled_of_le {revision' : UInt64}
    (h : m.verifyInstalled K key target revision = .ok ()) (hle : revision' ≤ m.securityRevision) :
    m.verifyInstalled K key target revision' = .ok () := by
  unfold verifyInstalled at h ⊢
  simp only [seq_eq_ok_iff, require_eq_ok_iff, decide_eq_true_eq] at h ⊢
  exact ⟨h.1, h.2.1, h.2.2.1, hle, h.2.2.2.2⟩

theorem le_of_verifyInstalled (h : m.verifyInstalled K key target revision = .ok ()) :
    revision ≤ m.securityRevision := by
  unfold verifyInstalled at h
  simp only [seq_eq_ok_iff, require_eq_ok_iff, decide_eq_true_eq] at h
  exact h.2.2.2.1

theorem verifyInstalled_of_verify {now : Time} (h : m.verify K key target revision now = .ok ()) :
    m.verifyInstalled K key target revision = .ok () := by
  unfold verify at h
  exact (seq_eq_ok_iff.mp h).1

/-- What was compared with the manifest while it was copied passes as a file. -/
theorem verifyArtifact_of_copied {copied : Bytes} (hstart : m.verifyArtifactStart = .ok ())
    (hcopied : m.verifyCopied K copied = .ok ()) : m.verifyArtifact K copied = .ok () := by
  have hlength : copied.length = m.sizeBytes.toNat := by
    unfold verifyCopied at hcopied
    simp only [seq_eq_ok_iff, require_eq_ok_iff, decide_eq_true_eq] at hcopied
    exact hcopied.1
  have htake : copied.take m.copyLimit = copied := by
    rw [List.take_of_length_le]
    unfold copyLimit
    omega
  unfold verifyArtifact
  rw [htake]
  exact seq_eq_ok_iff.mpr ⟨hstart, hcopied⟩

end Manifest

end TosAi.SoftwareUpdate
