/-
  `Execute` of the A2A and Agent Packet adapters and `Call` of the MCP adapter.

  Each is a program over what the adapter is given: the execution gate, the runner, the
  locator, the settler and the clock.  A purchase is claimed once its request has been
  taken apart, and what goes to the runner afterwards is the work of that request.
-/
import TosAi.Transport.Requests

set_option autoImplicit false

namespace TosAi.Transport

open Foundation
open Foundation.Body (result ensure)
open Foundation.Json (Bytes)
open SoftwareWork (Outcome Descriptor)

/-! ## Operations -/

inductive Op where
  | claimExecution (request : GateRequest)
  | execute (work : SoftwareWork.Request)
  | url (descriptor : Descriptor)
  | settle (evidence : Evidence) (outcome : Outcome)
  /-- `time.Now().UTC()` -/
  | now

@[reducible] def Op.Res : Op → Type
  | .claimExecution _ => Option Evidence
  | .execute _ => Option Outcome
  | .url _ => Option Bytes
  | .settle _ _ => Bool
  | .now => Time

abbrev Adapting (α : Type) := ExceptT Err (Prog Op Op.Res) α

abbrev perform (o : Op) : Adapting o.Res := Body.perform o

/-- The value, or an error with this text. -/
def orFail {α : Type} (value : Option α) (message : String) : Adapting α :=
  match value with
  | none => throw (.text message)
  | some a => pure a

/-- What is read of a `url.URL`. -/
structure URL where
  scheme : Bytes
  host : Bytes
  /-- `User` is not nil -/
  user : Bool
  fragment : Bytes
  deriving DecidableEq, Repr

/-- What an adapter is made of besides what it is connected to. -/
structure Setup where
  unicode : Unicode
  hash : Hash
  /-- `url.Parse` -/
  parseURL : Bytes → Option URL
  /-- there is a settler -/
  settles : Bool

/-- `artifactURLValid` of `a2aadapter` and `httpsURL` of `mcpadapter`. -/
def Setup.urlValid (S : Setup) (value : Bytes) : Bool :=
  match S.parseURL value with
  | none => false
  | some parsed => parsed.scheme == stringBytes "https" && parsed.host != [] && !parsed.user &&
      parsed.fragment == [] && decide (value.length ≤ 2048)

/-! ## The end of an execution -/

structure ObjectBinding where
  digest : String
  mediaType : String
  sizeBytes : UInt64
  url : Bytes
  deriving DecidableEq, Repr

def Descriptor.binding (d : Descriptor) (url : Bytes) : ObjectBinding :=
  ⟨d.digest, d.mediaType, d.sizeBytes, url⟩

/-- `validateOutcome` of `a2aadapter` and `validOutcome` of `mcpadapter`. -/
def outcomeValid (U : Unicode) (value : Outcome) (work : SoftwareWork.Request) : Bool :=
  let sha (digest : String) := hexDigestValid U (stringBytes digest) shaStart
  value.quoteCommitment == work.quoteCommitment && value.executionID == work.executionID &&
    value.inputDigest == work.inputDigest && value.sourceDigest == work.sourceDigest &&
    sha value.resultDigest && sha value.toolchainDigest && sha value.sandboxDigest &&
    value.exitCode == 0 && value.completedAtUnix != 0 && sha value.artifact.digest &&
    value.artifact.mediaType == SoftwareWork.artifactMediaType && value.artifact.sizeBytes != 0 &&
    sha value.report.digest && value.report.mediaType == SoftwareWork.reportMediaType &&
    value.report.sizeBytes != 0

/-- The URL of an object, if the locator has a valid one. -/
def locate (S : Setup) (d : Descriptor) (message : String) : Adapting Bytes := do
  let url ← orFail (← perform (.url d)) message
  ensure (S.urlValid url) (.text message)
  return url

/-- Settle, if there is a settler. -/
def settleWith (S : Setup) (evidence : Evidence) (outcome : Outcome) : Adapting Unit :=
  if S.settles then do
    let settled ← perform (.settle evidence outcome)
    ensure settled (.text "escrow settlement failed for a completed execution")
  else pure ()

/-! ## A2A -/

namespace A2A

inductive TaskState where
  | working
  | failed
  | completed
  deriving DecidableEq, Repr

structure TaskStatus where
  state : TaskState
  timestamp : Time
  deriving DecidableEq, Repr

structure ResultBinding where
  protocol : String
  evidence : Evidence
  quoteCommitment : String
  executionID : String
  inputDigest : String
  resultDigest : String
  artifact : ObjectBinding
  report : ObjectBinding
  sourceDigest : String
  toolchainDigest : String
  sandboxDigest : String
  exitCode : Int64
  completedAtUnix : UInt64
  deriving DecidableEq, Repr

/-- The artifact of a completed task; its name, extension and media type are fixed. -/
structure Artifact where
  id : String
  result : ResultBinding
  deriving DecidableEq, Repr

/-- A task; its metadata is fixed. -/
structure Task where
  id : String
  contextID : Bytes
  history : List Message
  status : TaskStatus
  artifacts : List Artifact

/-- The texts of a commitment with zero bytes between them. -/
def separated (texts : List String) : Bytes := List.intercalate [0] (texts.map stringBytes)

def taskID (H : Hash) (work : SoftwareWork.Request) : String :=
  "tos-service-" ++ hexEncode (H.sum (separated ["tos.service.a2a.task.v1", work.quoteCommitment,
    work.executionID]))

def submittedTask (H : Hash) (message : Message) (work : SoftwareWork.Request) (now : Time) :
    Task where
  id := taskID H work
  contextID := if message.contextID = [] then stringBytes (taskID H work) else message.contextID
  history := [message]
  status := ⟨.working, now⟩
  artifacts := []

/-- The result of a completed execution. -/
def resultBinding (evidence : Evidence) (outcome : Outcome) (artifactURL reportURL : Bytes) :
    ResultBinding where
  protocol := protocolName
  evidence := evidence
  quoteCommitment := outcome.quoteCommitment
  executionID := outcome.executionID
  inputDigest := outcome.inputDigest
  resultDigest := outcome.resultDigest
  artifact := Descriptor.binding outcome.artifact artifactURL
  report := Descriptor.binding outcome.report reportURL
  sourceDigest := outcome.sourceDigest
  toolchainDigest := outcome.toolchainDigest
  sandboxDigest := outcome.sandboxDigest
  exitCode := outcome.exitCode
  completedAtUnix := outcome.completedAtUnix

def artifactID (H : Hash) (work : SoftwareWork.Request) (outcome : Outcome) : String :=
  "tos-service-" ++ hexEncode (H.sum (separated [work.executionID, outcome.resultDigest]))

variable (S : Setup)

/-- `Execute` from the outcome on. -/
def complete (work : SoftwareWork.Request) (evidence : Evidence) (task : Task) (completed : Time)
    (outcome : Outcome) : Adapting Task := do
  ensure (outcomeValid S.unicode outcome work)
    (.text "software-work runner returned a conflicting outcome")
  let artifactURL ← locate S outcome.artifact "invalid A2A artifact retrieval URL"
  let reportURL ← locate S outcome.report "invalid A2A report retrieval URL"
  settleWith S evidence outcome
  return { task with
    artifacts :=
      [⟨artifactID S.hash work outcome, resultBinding evidence outcome artifactURL reportURL⟩]
    status := ⟨.completed, completed⟩ }

/-- `Execute` from the claim on. -/
def executeClaimed (work : SoftwareWork.Request) (claim : GateRequest) (message : Message) :
    Adapting Task := do
  let evidence ← orFail (← perform (.claimExecution claim))
    "A2A execution lacks finalized TOS Service Protocol authorization"
  result (validateEvidence S.unicode evidence claim)
  let now ← perform .now
  let task := submittedTask S.hash message work now
  let outcome ← perform (.execute work)
  let completed ← perform .now
  match outcome with
  | none => return { task with status := ⟨.failed, completed⟩ }
  | some outcome => complete S work evidence task completed outcome

def execute (request : Option SendMessageRequest) : Adapting Task := do
  let (work, claim, message) ← result (decodeRequest S.unicode S.hash request)
  executeClaimed S work claim message

end A2A

/-! ## MCP -/

namespace MCP

structure Output where
  protocol : String
  evidence : Evidence
  quoteCommitment : String
  executionID : String
  inputDigest : String
  resultDigest : String
  artifact : ObjectBinding
  report : ObjectBinding
  sourceDigest : String
  toolchainDigest : String
  sandboxDigest : String
  completedAtUnix : UInt64
  deriving DecidableEq, Repr

def newOutput (evidence : Evidence) (outcome : Outcome) (artifactURL reportURL : Bytes) :
    Output where
  protocol := protocolName
  evidence := evidence
  quoteCommitment := outcome.quoteCommitment
  executionID := outcome.executionID
  inputDigest := outcome.inputDigest
  resultDigest := outcome.resultDigest
  artifact := Descriptor.binding outcome.artifact artifactURL
  report := Descriptor.binding outcome.report reportURL
  sourceDigest := outcome.sourceDigest
  toolchainDigest := outcome.toolchainDigest
  sandboxDigest := outcome.sandboxDigest
  completedAtUnix := outcome.completedAtUnix

variable (S : Setup)

/-- `Call` from the claim on. -/
def callClaimed (work : SoftwareWork.Request) (claim : GateRequest) : Adapting Output := do
  let message := "MCP execution lacks a unique finalized TOS Service Protocol authorization"
  let evidence ← orFail (← perform (.claimExecution claim)) message
  ensure (validEvidence S.unicode evidence claim) (.text message)
  let outcome ← orFail (← perform (.execute work)) "bounded software-work execution failed"
  ensure (outcomeValid S.unicode outcome work)
    (.text "software-work runner returned a conflicting outcome")
  let artifactURL ← locate S outcome.artifact "invalid artifact retrieval URL"
  let reportURL ← locate S outcome.report "invalid report retrieval URL"
  settleWith S evidence outcome
  return newOutput evidence outcome artifactURL reportURL

def call (input : Input) : Adapting Output := do
  let (work, claim) ← result (decodeInput S.unicode S.hash input)
  callClaimed S work claim

end MCP

/-! ## Agent packets -/

namespace AgentPacket

variable (S : Setup)

/-- Publish the objects, if there is a locator. -/
def publish (publishes : Bool) (outcome : Outcome) : Adapting Unit :=
  if publishes then do
    let _ ← orFail (← perform (.url outcome.artifact)) "invalid Agent Packet artifact publication"
    let _ ← orFail (← perform (.url outcome.report)) "invalid Agent Packet report publication"
    pure ()
  else pure ()

/-- `Execute` from the claim on; of the errors of the runner and the settler, which are passed
on, nothing is known. -/
def executeClaimed (publishes : Bool) (packet : Packet) (work : SoftwareWork.Request)
    (claim : GateRequest) : Adapting (Outcome × Evidence) := do
  let evidence ← orFail (← perform (.claimExecution claim))
    "Agent Packet lacks finalized TOS Service Protocol authorization"
  ensure (evidence.quoteCommitment == claim.quoteCommitment &&
      evidence.escrowAddress == claim.escrowAddress && evidence.capabilityID == packet.capabilityID)
    (.text "execution evidence does not match Agent Packet")
  let outcome ← orFail (← perform (.execute work)) "software-work execution failed"
  ensure
    (outcome.quoteCommitment == work.quoteCommitment && outcome.executionID == work.executionID &&
      outcome.inputDigest == work.inputDigest && outcome.sourceDigest == work.sourceDigest)
    (.text "software-work runner returned a conflicting outcome")
  publish publishes outcome
  settleWith S evidence outcome
  return (outcome, evidence)

def execute (publishes : Bool) (packet : Packet) : Adapting (Outcome × Evidence) := do
  let (work, claim) ← result (decode S.unicode S.hash packet)
  executeClaimed S publishes packet work claim

end AgentPacket

end TosAi.Transport
