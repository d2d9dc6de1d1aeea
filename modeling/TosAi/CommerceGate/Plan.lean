/-
  The data of the local execution Gate: plans and their bindings, tickets,
  launches, requests, and the durable states of an execution.

  WHAT IS EXTERNAL.  Fences, authorized actions, canonical encoding, digests and
  the outcome artifacts come from the service protocol library.  `Commerce` is
  that library as the Gate sees it: functions about which nothing is assumed
  here; what is documented of them, and needed by some results, is named with the
  results.  What the writer authority knows is not a function: it may change
  between any two checks, so every check is given the `Authority` of its moment.
-/
import TosAi.Foundation.Checks
import TosAi.Foundation.GoStd

set_option autoImplicit false

namespace TosAi.CommerceGate

open Foundation
open Foundation.Json (Bytes)

/-! ## Errors -/

/-- An error value.  Only its identity with `os.ErrNotExist` is ever looked at. -/
inductive Err where
  | text (message : String)
  | notExist
  | io
  | external (code : Nat)
  deriving DecidableEq, Repr

/-- `errors.New`. -/
instance : Coe String Err := ⟨.text⟩

/-! ## Plans -/

structure FileBinding where
  path : String
  digest : String
  size : UInt64
  deriving DecidableEq, Repr

structure NetworkBinding where
  bindingID : String
  scheme : String
  host : String
  port : UInt16
  resolvedIPs : List String
  tlsServerName : String
  allowRedirects : Bool
  maxRequestBytes : UInt64
  maxResponseBytes : UInt64
  deriving DecidableEq, Repr

/-- The zero value of the Go type. -/
def NetworkBinding.zero : NetworkBinding := ⟨"", "", "", 0, [], "", false, 0, 0⟩

structure CredentialBinding where
  handleID : String
  scopeDigest : String
  expiresAtUnix : UInt64
  deriving DecidableEq, Repr

/-- One externally visible operation frozen into the approved plan. -/
structure EffectBinding where
  planEffectID : String
  effectProfileDigest : String
  targetDigest : String
  operationKind : String
  effectSemanticKeyDigest : String
  networkBindingID : String
  credentialHandleID : String
  maximumUses : UInt32
  deriving DecidableEq, Repr

def leaseLossContinue : String := "continue"
def leaseLossDrain : String := "drain"
def leaseLossKill : String := "kill"

structure Plan where
  ownerID : String
  agentID : String
  agreementBodyDigest : String
  executionObligationID : String
  canonicalPlanDigest : String
  acceptedInputManifestDigest : String
  attemptIndex : UInt64
  predecessorTerminalResolutionDigest : String
  executionID : String
  reservationID : String
  policyRevision : UInt64
  writerGeneration : UInt64
  leaseLossPolicy : String
  files : List FileBinding
  networkBindings : List NetworkBinding
  credentialBindings : List CredentialBinding
  effectBindings : List EffectBinding
  deriving DecidableEq, Repr

structure Ticket where
  executionID : String
  secret : String
  startNotAfterUnix : UInt64
  planDigest : String
  deriving DecidableEq, Repr

/-- The durable states of an execution. -/
inductive State where
  | prepared | starting | running | ambiguousStart | ambiguousRun
  | succeeded | failed | cancelled | killed
  deriving DecidableEq, Repr

def State.text : State → String
  | .prepared => "PREPARED"
  | .starting => "STARTING"
  | .running => "RUNNING"
  | .ambiguousStart => "AMBIGUOUS_START"
  | .ambiguousRun => "AMBIGUOUS_RUN"
  | .succeeded => "SUCCEEDED"
  | .failed => "FAILED"
  | .cancelled => "CANCELLED"
  | .killed => "KILLED"

/-- The state a text names; `knownState` is that there is one. -/
def State.ofText (s : String) : Option State :=
  [State.prepared, .starting, .running, .ambiguousStart, .ambiguousRun, .succeeded, .failed,
    .cancelled, .killed].find? fun state => state.text == s

theorem State.ofText_text (state : State) : State.ofText state.text = some state := by
  cases state <;> decide

/-- What `Start` hands to the runner.  The open files are those of `plan.Files`. -/
structure Launch where
  executionID : String
  planDigest : String
  ticketSecret : String
  leaseLossPolicy : String
  files : List FileBinding
  networkBindings : List NetworkBinding
  credentialBindings : List CredentialBinding
  effectBindings : List EffectBinding
  deriving DecidableEq, Repr

structure HTTPHeader where
  name : String
  value : String
  deriving DecidableEq, Repr

structure HTTPSRequest where
  planEffectID : String
  method : String
  pathAndQuery : String
  headers : List HTTPHeader
  body : Bytes
  deriving DecidableEq, Repr

structure HTTPSResponse where
  statusCode : Nat
  body : Bytes
  digest : String
  deriving DecidableEq, Repr

structure Resolution where
  state : State
  stateRevision : UInt64
  planDigest : String
  outcomeDigest : String
  deriving DecidableEq, Repr

/-! ## Outcome evidence -/

structure ExecutionOutcomeEvidenceV1 where
  schemaVersion : UInt16
  executionID : String
  agreementBodyDigest : String
  obligationID : String
  planDigest : String
  state : State
  stateRevision : UInt64
  outcomeDigest : String
  prepareActionID : String
  prepareRequestDigest : String
  startActionID : String
  startRequestDigest : String
  observedAtUnix : UInt64
  deriving DecidableEq, Repr

structure OutcomeEvidenceItemV1 where
  evidenceRole : String
  evidenceProfileURI : String
  sourceObjectProfileURI : String
  sourceObjectDigest : String
  objectDigest : String
  canonicalSize : UInt64
  mediaType : String
  issuerDescriptor : String
  subjectDescriptor : String
  claimedObservationTimeUnix : UInt64
  authorityTimeProofDigest : String
  issuerQualificationProofDigest : String
  visibility : String
  audienceDigest : String
  retentionPolicyDigest : String
  retrievalPolicyDigest : String
  deriving DecidableEq, Repr

structure OutcomeEvidenceDescriptorV1 where
  canonicalEvidence : Bytes
  evidenceItem : OutcomeEvidenceItemV1
  deriving DecidableEq, Repr

structure OutcomeAuthorityProofMaterialV1 where
  proofProfileURI : String
  canonicalObject : Bytes
  deriving DecidableEq, Repr

structure OutcomeAuthorityProofRefV1 where
  proofProfileURI : String
  objectDigest : String
  canonicalSize : UInt64
  deriving DecidableEq, Repr

structure OutcomeEvidenceManifestV1 where
  schemaVersion : UInt16
  manifestPurpose : String
  authorityProofRefs : List OutcomeAuthorityProofRefV1
  evidenceItems : List OutcomeEvidenceItemV1
  deriving DecidableEq, Repr

structure GateExecutionObservationV1 where
  executionID : String
  agreementBodyDigest : String
  obligationID : String
  planDigest : String
  gatePolicyDigest : String
  inputSetDigest : String
  resourceSetDigest : String
  credentialSetDigest : String
  effectSetDigest : String
  state : String
  stateRevision : UInt64
  startActionID : String
  startRequestDigest : String
  authoritativeRecord : String
  observedAtUnix : UInt64
  deriving DecidableEq, Repr

structure OperationOutcomeArtifactBundleV1 where
  assertionPayload : Bytes
  evidenceManifest : OutcomeEvidenceManifestV1
  authorityProofs : List OutcomeAuthorityProofMaterialV1
  deriving DecidableEq, Repr

/-! ## The service protocol library -/

structure WriterFenceBody where
  ownerID : String
  agentID : String
  writerGeneration : UInt64
  expiresAtUnix : UInt64
  deriving DecidableEq, Repr

/-- A fence; `proof` stands for everything only its verification looks at. -/
structure WriterFence where
  body : WriterFenceBody
  proof : Bytes
  deriving DecidableEq, Repr

/-- An authorized action; `proof` as above. -/
structure AuthorizedAction where
  actionKind : String
  stableActionID : String
  exactRequestDigest : String
  expiresAtUnix : UInt64
  proof : Bytes
  deriving DecidableEq, Repr

inductive SemanticValue where
  | id (value : String)
  | digest32 (value : String)
  | kind (value : String)
  | u64 (value : UInt64)
  deriving DecidableEq, Repr

/-- The values the Gate encodes or digests. -/
inductive Payload where
  | network (binding : NetworkBinding)
  | plan (plan : Plan)
  | ticket (ticket : Ticket)
  | request (request : HTTPSRequest)
  | response (status : Nat) (body : Bytes)
  | evidence (evidence : ExecutionOutcomeEvidenceV1)
  | resources (files : List FileBinding) (network : List NetworkBinding)
  | credentials (bindings : List CredentialBinding)
  | effects (bindings : List EffectBinding)
  | observation (assertion : GateExecutionObservationV1)

/-- The functions of the service protocol library that the Gate calls; `none` is
a nil error. -/
structure Commerce where
  /-- What the writer authority answers while one check runs. -/
  Authority : Type
  /-- The event type `BuildOperationOutcomeEventV1` returns. -/
  Event : Type
  verifyWriterFence : WriterFence → Authority → Time → String → Option Err
  confirmCurrentWriterFence : WriterFence → Authority → Time → Option Err
  verifyAuthorizedAction : AuthorizedAction → List (String × SemanticValue) → Bytes →
    WriterFence → Authority → Time → Option Err
  marshal : Payload → Except Err Bytes
  digest : String → Payload → Except Err String
  deriveStableActionID : String → List (String × SemanticValue) → Except Err String
  outcomeAuthorityTimeProofProfileV1 : String
  outcomeIssuerQualificationProofProfileV1 : String
  sortOutcomeAuthorityProofMaterialsV1 : List OutcomeAuthorityProofMaterialV1 →
    Except Err (List OutcomeAuthorityProofMaterialV1)
  outcomeAuthorityProofObjectDigestV1 : OutcomeAuthorityProofMaterialV1 → Except Err String
  sortOutcomeAuthorityProofRefsV1 : List OutcomeAuthorityProofRefV1 →
    Except Err (List OutcomeAuthorityProofRefV1)
  validateOutcomeEvidenceManifestV1 : OutcomeEvidenceManifestV1 → Option Err
  validateGateExecutionObservationV1 : GateExecutionObservationV1 → Option Err
  /-- The subject, the assertion payload and the manifest; the other arguments are
  constants of the library. -/
  buildOperationOutcomeEventV1 : String → Bytes → OutcomeEvidenceManifestV1 → Except Err Event
  verifyOperationOutcomeArtifactBundleV1 : Event → OperationOutcomeArtifactBundleV1 → Option Err

end TosAi.CommerceGate
