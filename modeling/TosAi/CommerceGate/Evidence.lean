/-
  Outcome evidence: `ExportOutcomeEvidence` and `BuildOperationOutcomeArtifacts`.

  The second calls the first, which reads the record under the mutex, and then
  reads the record again in a section of its own.  What a call returns keeps, for
  the sake of what is proved about it, the evidence object, the assertion, and
  the version of the record at each of the two reads.
-/
import TosAi.CommerceGate.Program

set_option autoImplicit false

namespace TosAi.CommerceGate

open Foundation

variable {C : Commerce}

/-! ## Outcome evidence -/

def executionOutcomeEvidenceProfileV1 : String := "tos.ai.execution-gate-evidence.v1"

def canonicalOutcomeDigest (value : String) : String :=
  if value.utf8ByteSize == 71 && value.toList.take 7 == "sha256:".toList then value else ""

/-- The arguments of `ExportOutcomeEvidence`; `observedAt` is none for the zero
time. -/
structure EvidenceRequest where
  executionID : String
  issuerDescriptor : String
  subjectDescriptor : String
  visibility : String
  audienceDigest : String
  retentionPolicyDigest : String
  retrievalPolicyDigest : String
  authorityTimeProofDigest : String
  issuerQualificationProofDigest : String
  authorityTimeProofSize : UInt64
  issuerQualificationProofSize : UInt64
  observedAt : Option Time
  deriving DecidableEq, Repr

/-- The evidence object for a record. -/
def outcomeEvidence (executionID : String) (observedAt : Time) (entry : Record) :
    ExecutionOutcomeEvidenceV1 where
  schemaVersion := 1
  executionID := executionID
  agreementBodyDigest := entry.plan.agreementBodyDigest
  obligationID := entry.plan.executionObligationID
  planDigest := entry.planDigest
  state := entry.state
  stateRevision := entry.stateRevision
  outcomeDigest := canonicalOutcomeDigest entry.outcomeDigest
  prepareActionID := entry.prepareActionID
  prepareRequestDigest := entry.prepareRequestDigest
  startActionID := canonicalOutcomeDigest entry.startActionID
  startRequestDigest := canonicalOutcomeDigest entry.startRequestDigest
  observedAtUnix := toUInt64 (Time.unix observedAt)

def evidenceItem (request : EvidenceRequest) (digest : String) (size : UInt64)
    (observedAt : Time) : OutcomeEvidenceItemV1 where
  evidenceRole := "authoritative_resolution"
  evidenceProfileURI := executionOutcomeEvidenceProfileV1
  sourceObjectProfileURI := "tos.ai.local-execution-gate.v1"
  sourceObjectDigest := digest
  objectDigest := digest
  canonicalSize := size
  mediaType := "application/cbor"
  issuerDescriptor := request.issuerDescriptor
  subjectDescriptor := request.subjectDescriptor
  claimedObservationTimeUnix := toUInt64 (Time.unix observedAt)
  authorityTimeProofDigest := request.authorityTimeProofDigest
  issuerQualificationProofDigest := request.issuerQualificationProofDigest
  visibility := request.visibility
  audienceDigest := request.audienceDigest
  retentionPolicyDigest := request.retentionPolicyDigest
  retrievalPolicyDigest := request.retrievalPolicyDigest

/-- The manifest `ExportOutcomeEvidence` validates; a failed sort leaves the
references as they are. -/
def exportManifest (C : Commerce) (request : EvidenceRequest) (item : OutcomeEvidenceItemV1) :
    OutcomeEvidenceManifestV1 :=
  let refs : List OutcomeAuthorityProofRefV1 :=
    [⟨C.outcomeAuthorityTimeProofProfileV1, request.authorityTimeProofDigest,
        request.authorityTimeProofSize⟩,
      ⟨C.outcomeIssuerQualificationProofProfileV1, request.issuerQualificationProofDigest,
        request.issuerQualificationProofSize⟩]
  ⟨1, "gate_export_validation", (C.sortOutcomeAuthorityProofRefsV1 refs).toOption.getD refs, [item]⟩

/-- The evidence a call exported: the object itself, its descriptor, and the
version of the record it was read at. -/
structure Exported where
  evidence : ExecutionOutcomeEvidenceV1
  descriptor : OutcomeEvidenceDescriptorV1
  version : Nat

def exportOutcomeEvidence (request : EvidenceRequest) : Gated C Exported := do
  let held ← perform .lockHeld
  match request.observedAt with
  | none => throw (.text "execution outcome evidence request is invalid")
  | some observedAt =>
    ensure (held && request.executionID != "") "execution outcome evidence request is invalid"
    locked do
      let (entry, version) ← readRecord (path request.executionID)
      ensure (entry.stateRevision != 0 && entry.plan.executionID == request.executionID)
        "execution Gate record is inconsistent"
      let evidence := outcomeEvidence request.executionID observedAt entry
      let canonical ← ofExcept (C.marshal (.evidence evidence))
      let digest ← ofExcept (C.digest "tos.ai.execution-gate-evidence.v1" (.evidence evidence))
      let item := evidenceItem request digest (UInt64.ofNat canonical.length) observedAt
      nilError (C.validateOutcomeEvidenceManifestV1 (exportManifest C request item))
      pure ⟨evidence, ⟨canonical, item⟩, version⟩

/-- The arguments of `BuildOperationOutcomeArtifacts`. -/
structure ArtifactRequest where
  executionID : String
  issuerDescriptor : String
  visibility : String
  audienceDigest : String
  retentionPolicyDigest : String
  retrievalPolicyDigest : String
  gatePolicyDigest : String
  authorityProofs : List OutcomeAuthorityProofMaterialV1
  observedAt : Option Time
  deriving DecidableEq, Repr

/-- The references to the proofs, and the digests of the one of each profile (the
last one, if there are several). -/
def proofRefs (C : Commerce) : List OutcomeAuthorityProofMaterialV1 → String × String →
    Except Err (List OutcomeAuthorityProofRefV1 × String × String)
  | [], digests => .ok ([], digests)
  | material :: rest, (authorityTime, qualification) => do
    let digest ← C.outcomeAuthorityProofObjectDigestV1 material
    let digests ←
      if material.proofProfileURI == C.outcomeAuthorityTimeProofProfileV1 then
        .ok (digest, qualification)
      else if material.proofProfileURI == C.outcomeIssuerQualificationProofProfileV1 then
        .ok (authorityTime, digest)
      else .error (.text "Gate outcome authority proof profile is unsupported")
    let (refs, digests) ← proofRefs C rest digests
    .ok (⟨material.proofProfileURI, digest, UInt64.ofNat material.canonicalObject.length⟩ :: refs,
      digests)

def proofSize (refs : List OutcomeAuthorityProofRefV1) (digest : String) : UInt64 :=
  ((refs.find? fun ref => ref.objectDigest == digest).map fun ref => ref.canonicalSize).getD 0

/-- The assertion about a record, pointing at the evidence by its digest. -/
def gateObservation (request : ArtifactRequest) (entry : Record) (resourceDigest credentialDigest
    effectDigest evidenceDigest : String) (observedAt : Time) : GateExecutionObservationV1 where
  executionID := request.executionID
  agreementBodyDigest := entry.plan.agreementBodyDigest
  obligationID := entry.plan.executionObligationID
  planDigest := entry.planDigest
  gatePolicyDigest := request.gatePolicyDigest
  inputSetDigest := entry.plan.acceptedInputManifestDigest
  resourceSetDigest := resourceDigest
  credentialSetDigest := credentialDigest
  effectSetDigest := effectDigest
  state := entry.state.text.toLower
  stateRevision := entry.stateRevision
  startActionID := entry.startActionID
  startRequestDigest := entry.startRequestDigest
  authoritativeRecord := evidenceDigest
  observedAtUnix := toUInt64 (Time.unix observedAt)

/-- What `BuildOperationOutcomeArtifacts` returned: the event and the bundle, and
of their making the evidence object, the assertion, and the versions of the
record at the two reads. -/
structure Artifacts (C : Commerce) where
  event : C.Event
  bundle : OperationOutcomeArtifactBundleV1
  evidence : ExecutionOutcomeEvidenceV1
  assertion : GateExecutionObservationV1
  exportVersion : Nat
  assertionVersion : Nat

def buildOperationOutcomeArtifacts (request : ArtifactRequest) : Gated C (Artifacts C) := do
  ensure (validDigest request.gatePolicyDigest && decide (request.authorityProofs.length = 2))
    "Gate outcome artifact request is incomplete"
  let proofs ← ofExcept (C.sortOutcomeAuthorityProofMaterialsV1 request.authorityProofs)
  let (refs, authorityTime, qualification) ← ofExcept (proofRefs C proofs ("", ""))
  let incomplete : Err := .text "Gate outcome requires one proof of each authority profile"
  match C.sortOutcomeAuthorityProofRefsV1 refs with
  | .error _ => throw incomplete
  | .ok refs =>
    ensure (authorityTime != "" && qualification != "")
      "Gate outcome requires one proof of each authority profile"
    let exported ← exportOutcomeEvidence ⟨request.executionID, request.issuerDescriptor,
      request.executionID, request.visibility, request.audienceDigest,
      request.retentionPolicyDigest, request.retrievalPolicyDigest, authorityTime, qualification,
      proofSize refs authorityTime, proofSize refs qualification, request.observedAt⟩
    let (entry, version) ← locked (readRecord (path request.executionID))
    let resourceDigest ← ofExcept (C.digest "tos.ai.execution-resource-set.v1"
      (.resources entry.plan.files entry.plan.networkBindings))
    let credentialDigest ← ofExcept (C.digest "tos.ai.execution-credential-set.v1"
      (.credentials entry.plan.credentialBindings))
    let effectDigest ← ofExcept (C.digest "tos.ai.execution-effect-set.v1"
      (.effects entry.plan.effectBindings))
    let item := exported.descriptor.evidenceItem
    let assertion := gateObservation request entry resourceDigest credentialDigest effectDigest
      item.objectDigest (request.observedAt.getD 0)
    match C.marshal (.observation assertion) with
    | .error _ => throw (.text "Gate outcome assertion is invalid")
    | .ok payload =>
      ensure (C.validateGateExecutionObservationV1 assertion).isNone
        "Gate outcome assertion is invalid"
      let manifest : OutcomeEvidenceManifestV1 := ⟨1, "gate_execution_assertion", refs, [item]⟩
      let event ← ofExcept (C.buildOperationOutcomeEventV1 request.executionID payload manifest)
      let bundle : OperationOutcomeArtifactBundleV1 := ⟨payload, manifest, proofs⟩
      nilError (C.verifyOperationOutcomeArtifactBundleV1 event bundle)
      pure ⟨event, bundle, exported.evidence, assertion, exported.version, version⟩

end TosAi.CommerceGate
