/-
  The records of the private ingress, and what it takes from the commerce protocol.

  The store keeps one JSON file for each handoff and one object file for each content.
  Signatures, digests and the opening of a ciphertext are those of the protocol library,
  which is a parameter (`Protocol`); `Protocol.Lawful` is what its documentation says
  about them.  Of the library's data a structure here has the fields the store reads,
  and the rest in one.
-/
import TosAi.Foundation.FileSystem
import TosAi.Foundation.GoStd
import TosAi.Foundation.Json.Codec

set_option autoImplicit false

namespace TosAi.PrivateIngress

open Foundation
open Foundation.Json (Bytes Codec Fields)

inductive Err where
  | text (message : String)
  | exist
  | notExist
  | io
  /-- an error of the protocol library -/
  | protocol (message : String)
  deriving DecidableEq, Repr

/-! ## Data of the protocol -/

/-- `PrivateHandoffChallengeBody`. -/
structure ChallengeBody where
  handoffID : String
  agreementBodyDigest : String
  obligationID : String
  senderAgentID : String
  receiverAgentID : String
  ingressInstanceID : String
  receiverEncryptionPublicKey : String
  retentionPolicyDigest : String
  deleteNotAfterUnix : UInt64
  /-- The terms the store does not look at. -/
  terms : String
  deriving DecidableEq, Repr

/-- `SignedPrivateHandoffChallenge`. -/
structure Challenge where
  body : ChallengeBody
  proof : String
  deriving DecidableEq, Repr

structure ContentManifest where
  contentDigest : String
  terms : String
  deriving DecidableEq, Repr

structure AuthorizationBody where
  challengeDigest : String
  ciphertextDigest : String
  ciphertextBytes : UInt64
  senderDisclosureActionID : String
  manifest : ContentManifest
  terms : String
  deriving DecidableEq, Repr

/-- `SignedPrivateHandoffAuthorization`. -/
structure Authorization where
  body : AuthorizationBody
  proof : String
  deriving DecidableEq, Repr

/-- `AcceptedPrivateContentRecord`. -/
structure Accepted where
  schemaVersion : UInt64
  handoffID : String
  challengeDigest : String
  authorizationDigest : String
  uploadActionID : String
  senderDisclosureActionID : String
  contentDigest : String
  contentManifestDigest : String
  plaintextBytes : UInt64
  immutableObjectDigest : String
  retentionPolicyDigest : String
  acceptedAtUnix : UInt64
  deleteNotAfterUnix : UInt64
  deriving DecidableEq, Repr

structure AuthorizedAction where
  actionKind : String
  ownerID : String
  agentID : String
  stableActionID : String
  proof : String
  deriving DecidableEq, Repr

structure WriterFence where
  proof : String
  deriving DecidableEq, Repr

inductive SemanticValue where
  | id (value : String)
  | digest32 (value : String)
  deriving DecidableEq, Repr

inductive ActionState where
  | terminal
  deriving DecidableEq, Repr

structure ActionResolution where
  stableActionID : String
  exactRequestDigest : String
  state : ActionState
  sinkReference : String
  evidenceRefs : List String
  stateRevision : UInt64
  deriving DecidableEq, Repr

structure UploadRequest where
  challengeDigest : String
  authorization : Authorization
  ciphertextDigest : String
  ciphertextBytes : UInt64

structure DeleteRequest where
  handoffID : String
  agreementBodyDigest : String
  obligationID : String
  contentManifestDigest : String
  retentionPolicyDigest : String

/-! ## Its functions -/

/-- The protocol library, the hash, and how the library's own structs are written. -/
structure Protocol where
  /-- What the writer authority answers during one call. -/
  Authority : Type
  /-- What the handoff authority answers during one call. -/
  Resolver : Type
  Acknowledgement : Type
  sha256 : Bytes → Bytes
  challengeCodec : Codec Challenge
  acceptedCodec : Codec Accepted
  accepted_ne_null : ∀ a, acceptedCodec.enc a ≠ .null
  signPrivateHandoffChallenge : ChallengeBody → Bytes → Except Err Challenge
  privateHandoffChallengeDigest : ChallengeBody → Except Err String
  privateHandoffAuthorizationDigest : AuthorizationBody → Except Err String
  verifyWriterFence : WriterFence → Authority → Time → String → Except Err Unit
  confirmCurrentWriterFence : WriterFence → Authority → Time → Except Err Unit
  verifyAuthorizedAction : AuthorizedAction → List (String × SemanticValue) → Bytes →
    WriterFence → Authority → Time → Except Err Unit
  /-- `codec.Digest` -/
  digest : String → ContentManifest → Except Err String
  /-- `codec.Marshal` of an upload -/
  marshalUpload : UploadRequest → Except Err Bytes
  /-- `codec.Marshal` of a deletion -/
  marshalDelete : DeleteRequest → Except Err Bytes
  exactRequestDigest : Bytes → Except Err String
  openPrivateContent : Challenge → Authorization → Bytes → Bytes → Resolver → Time →
    Except Err Bytes
  signPrivateHandoffAcknowledgement : Accepted → String → Bytes → Except Err Acknowledgement

/-- The digest of some contents as the protocol writes it. -/
def Protocol.contentDigest (P : Protocol) (content : Bytes) : String :=
  "sha256:" ++ hexEncode (P.sha256 content)

/-- What the library promises.  The length of a content and its successor are `int64`s. -/
structure Protocol.Lawful (P : Protocol) : Prop where
  sha256_length (content : Bytes) : (P.sha256 content).length = 32
  sign_body {body : ChallengeBody} {key : Bytes} {challenge : Challenge}
    (h : P.signPrivateHandoffChallenge body key = .ok challenge) : challenge.body = body
  action_named {action : AuthorizedAction} {fields : List (String × SemanticValue)}
    {canonical : Bytes} {fence : WriterFence} {authority : P.Authority} {now : Time}
    (h : P.verifyAuthorizedAction action fields canonical fence authority now = .ok ()) :
    action.stableActionID ≠ ""
  request_digest (canonical : Bytes) :
    ∃ digest, P.exactRequestDigest canonical = .ok digest ∧ digest ≠ ""
  content_digest {challenge : Challenge} {authorization : Authorization} {ciphertext key : Bytes}
    {resolver : P.Resolver} {now : Time} {content : Bytes}
    (h : P.openPrivateContent challenge authorization ciphertext key resolver now = .ok content) :
    authorization.body.manifest.contentDigest = P.contentDigest content
  content_length {challenge : Challenge} {authorization : Authorization} {ciphertext key : Bytes}
    {resolver : P.Resolver} {now : Time} {content : Bytes}
    (h : P.openPrivateContent challenge authorization ciphertext key resolver now = .ok content) :
    content.length + 1 < 2 ^ 63

/-- `digest, _ := …`: the text that stands there on an error is the empty one. -/
def orEmpty (value : Except Err String) : String :=
  match value with
  | .ok text => text
  | .error _ => ""

def canonicalDigest (value : String) : Bool :=
  value.toList.length == 7 + 64 && startsWith "sha256:" value &&
    (value.toList.drop 7).all isLowerHexDigit

theorem canonicalDigest_contentDigest {P : Protocol} (hP : P.Lawful) (content : Bytes) :
    canonicalDigest (P.contentDigest content) = true := by
  have hlength := length_hexEncode (P.sha256 content)
  rw [hP.sha256_length] at hlength
  have htext : (P.contentDigest content).toList =
      "sha256:".toList ++ (hexEncode (P.sha256 content)).toList := String.toList_append
  have hlower := hexEncode_lower (P.sha256 content)
  rw [canonicalDigest, startsWith, htext]
  simp only [Bool.and_eq_true, beq_iff_eq, List.length_append, hlength]
  refine ⟨⟨rfl, ?_⟩, ?_⟩
  · rw [List.isPrefixOf_iff_prefix]
    exact List.prefix_append _ _
  · exact hlower

section Materials

variable (P : Protocol)

/-- `UploadAuthorizationMaterial`. -/
def uploadAuthorizationMaterial (ownerID agentID : String) (challenge : Challenge)
    (authorization : Authorization) : Except Err (Bytes × List (String × SemanticValue)) := do
  let challengeDigest ← P.privateHandoffChallengeDigest challenge.body
  let manifestDigest ← P.digest "tos.private-content-manifest.v1" authorization.body.manifest
  let canonical ← P.marshalUpload
    { challengeDigest, authorization
      ciphertextDigest := authorization.body.ciphertextDigest
      ciphertextBytes := authorization.body.ciphertextBytes }
  pure (canonical,
    [("owner_id", .id ownerID), ("agent_id", .id agentID),
      ("agreement_body_digest", .digest32 challenge.body.agreementBodyDigest),
      ("obligation_id", .id challenge.body.obligationID),
      ("handoff_id", .id challenge.body.handoffID),
      ("sender_id", .id challenge.body.senderAgentID),
      ("receiver_id", .id challenge.body.receiverAgentID),
      ("content_manifest_digest", .digest32 manifestDigest)])

/-- `DeleteAuthorizationMaterial`. -/
def deleteAuthorizationMaterial (ownerID agentID : String) (challenge : Challenge)
    (accepted : Accepted) : Except Err (Bytes × List (String × SemanticValue)) := do
  let canonical ← P.marshalDelete
    { handoffID := challenge.body.handoffID
      agreementBodyDigest := challenge.body.agreementBodyDigest
      obligationID := challenge.body.obligationID
      contentManifestDigest := accepted.contentManifestDigest
      retentionPolicyDigest := accepted.retentionPolicyDigest }
  pure (canonical,
    [("owner_id", .id ownerID), ("agent_id", .id agentID),
      ("agreement_body_digest", .digest32 challenge.body.agreementBodyDigest),
      ("obligation_id", .id challenge.body.obligationID),
      ("handoff_id", .id challenge.body.handoffID),
      ("content_manifest_digest", .digest32 accepted.contentManifestDigest),
      ("retention_policy_digest", .digest32 accepted.retentionPolicyDigest)])

end Materials

/-! ## Challenge records -/

/-- `challengeRecord`. -/
structure Record where
  schema : String
  challenge : Challenge
  encryptionPrivateKey : String
  accepted : Option Accepted
  authorizationDigest : String
  deletionActionID : String
  deletionRequestDigest : String
  deletionState : String
  deletedAtUnix : UInt64
  deriving DecidableEq, Repr

def recordSchema : String := "tos.ai.private-ingress-challenge.v1"

namespace Record

/-- The record `IssueChallenge` writes. -/
def issued (challenge : Challenge) (encryptionPrivateKey : String) : Record :=
  ⟨recordSchema, challenge, encryptionPrivateKey, none, "", "", "", "", 0⟩

/-- The record once `Accept` has stored the content. -/
def accepting (r : Record) (accepted : Accepted) (authorizationDigest : String) : Record :=
  { r with accepted := some accepted, authorizationDigest, encryptionPrivateKey := "" }

/-- The deletion is journalled. -/
def deleting (r : Record) (actionID requestDigest : String) : Record :=
  { r with
    deletionActionID := actionID
    deletionRequestDigest := requestDigest
    deletionState := "deleting" }

/-- The object is gone. -/
def deleted (r : Record) (unix : UInt64) : Record :=
  { r with deletionState := "deleted", deletedAtUnix := unix }

end Record

section Json

variable (P : Protocol)

/-- The fields after `accepted`. -/
def trailingFields : Fields (String × String × String × String × UInt64 × Unit) :=
  .optional "authorization_digest" .string <| .optional "deletion_action_id" .string <|
    .optional "deletion_request_digest" .string <| .optional "deletion_state" .string <|
    .optional "deleted_at_unix" .uint64 .nil

def recordCodec : Codec Record :=
  .struct (.field "schema" .string
      (.field "challenge" P.challengeCodec
        (.field "encryption_private_key" .string
          (.optional "accepted" (.pointer P.acceptedCodec P.accepted_ne_null) trailingFields)
          (show _ ∉ "accepted" :: trailingFields.names by decide))
        (show _ ∉ "encryption_private_key" :: "accepted" :: trailingFields.names by decide))
      (show _ ∉ "challenge" :: "encryption_private_key" :: "accepted" :: trailingFields.names
        by decide))
    (fun r => (r.schema, r.challenge, r.encryptionPrivateKey, r.accepted, r.authorizationDigest,
      r.deletionActionID, r.deletionRequestDigest, r.deletionState, r.deletedAtUnix, ()))
    (fun (a, b, c, d, e, f, g, h, i, ()) => ⟨a, b, c, d, e, f, g, h, i⟩) (fun _ => rfl)
    (fun _ => rfl)

/-- `json.Marshal`. -/
def Record.marshal (r : Record) : Bytes := (recordCodec P).marshal r

/-- The file that holds a record. -/
def Record.file (r : Record) : File := ⟨0o600, r.marshal P⟩

/-- The strict decoder of `readChallenge`. -/
def decodeRecord (raw : Bytes) : Option Record :=
  ((recordCodec P).unmarshal true raw).bind fun r =>
    if r.schema = recordSchema then some r else none

/-- `readChallenge`, with the file it found. -/
def readRecord (file : File) : Except Err Record :=
  if file.perm = 0o600 ∧ 0 < file.data.length ∧ file.data.length ≤ 2 ^ 20 then
    match decodeRecord P file.data with
    | some r => .ok r
    | none => .error (.text "private ingress challenge record is malformed")
  else .error (.text "private ingress challenge record is invalid")

/-- The file has lost some of its end. -/
def Torn (file : File) : Prop :=
  ∃ (r : Record) (k : Nat), k < (r.marshal P).length ∧ file = ⟨0o600, (r.marshal P).take k⟩

end Json

variable {P : Protocol} {r r' : Record} {file : File}

theorem decodeRecord_marshal (h : r.schema = recordSchema) :
    decodeRecord P (r.marshal P) = some r := by
  rw [decodeRecord, Record.marshal, Codec.unmarshal_marshal, Option.bind_some, if_pos h]

theorem Record.marshal_injective (h : r.marshal P = r'.marshal P) : r = r' :=
  Codec.marshal_injective _ h

theorem Record.file_injective (h : r.file P = r'.file P) : r = r' :=
  Record.marshal_injective (congrArg File.data h)

theorem readRecord_of_decode (h : readRecord P file = .ok r) :
    file.perm = 0o600 ∧ file.data.length ≤ 2 ^ 20 ∧ decodeRecord P file.data = some r := by
  unfold readRecord at h
  split at h
  · rename_i hcheck
    split at h
    · rename_i r' hdecode
      cases h
      exact ⟨hcheck.1, hcheck.2.2, hdecode⟩
    · cases h
  · cases h

theorem eq_of_readRecord_file (h : r.schema = recordSchema)
    (hread : readRecord P (r.file P) = .ok r') : r' = r := by
  have hdecode := (readRecord_of_decode hread).2.2
  rw [Record.file, decodeRecord_marshal h] at hdecode
  exact (Option.some.inj hdecode).symm

theorem decodeRecord_torn (h : Torn P file) : decodeRecord P file.data = none := by
  obtain ⟨r, k, hk, rfl⟩ := h
  have hnone : (recordCodec P).unmarshal true ((r.marshal P).take k) = none :=
    Codec.unmarshal_truncated _ _ _ _ _ true (List.take_append_drop k (r.marshal P)).symm
      (by simpa using hk)
  simp [decodeRecord, hnone]

theorem not_readRecord_torn (h : Torn P file) :
    readRecord P file ≠ .ok r := by
  intro hread
  have hdecode := (readRecord_of_decode hread).2.2
  rw [decodeRecord_torn h] at hdecode
  cases hdecode

/-- Any beginning of a record is torn or all of it. -/
theorem torn_or_file (r : Record) (k : Nat) :
    Torn P ⟨0o600, (r.marshal P).take k⟩ ∨ (⟨0o600, (r.marshal P).take k⟩ : File) = r.file P := by
  rcases Nat.lt_or_ge k (r.marshal P).length with hk | hk
  · exact .inl ⟨r, k, hk, rfl⟩
  · exact .inr (by rw [List.take_of_length_le hk, Record.file])

/-! ## Names of files -/

/-- A file of the directory: `challenge-….json`, the same followed by some random text and
`.tmp`, `object-….bin`, or the lock. -/
inductive FileName where
  | challenge (hex : String)
  | temporary (hex random : String)
  | object (hex : String)
  | lock
  deriving DecidableEq, Repr

section Names

variable (P : Protocol)

/-- The name behind `challengePath`. -/
def challengeName (handoffID : String) : String := hexEncode (P.sha256 (stringBytes handoffID))

def challengePath (handoffID : String) : FileName := .challenge (challengeName P handoffID)

/-- `digest[len("sha256:"):]`. -/
def objectName (digest : String) : String := String.ofList (digest.toList.drop 7)

def objectPath (digest : String) : FileName := .object (objectName digest)

end Names

theorem objectName_contentDigest (content : Bytes) :
    objectName (P.contentDigest content) = hexEncode (P.sha256 content) := by
  have htext : (P.contentDigest content).toList =
      "sha256:".toList ++ (hexEncode (P.sha256 content)).toList := String.toList_append
  rw [objectName, htext]
  exact String.ofList_toList

/-- Contents of different digests have different objects. -/
theorem contentDigest_eq_of_objectPath {content content' : Bytes}
    (h : objectPath (P.contentDigest content) = objectPath (P.contentDigest content')) :
    P.contentDigest content = P.contentDigest content' := by
  rw [objectPath, objectPath, FileName.object.injEq, objectName_contentDigest,
    objectName_contentDigest] at h
  rw [Protocol.contentDigest, Protocol.contentDigest, h]

end TosAi.PrivateIngress
