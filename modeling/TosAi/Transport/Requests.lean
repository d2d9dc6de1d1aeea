/-
  How a purchase reaches the runner: requests of the three transports, the functions that
  build them and those that take them apart.

  A data part of an A2A message stands for what `json.Marshal` makes of it.  The texts that
  come out of a JSON decoder are UTF-8, so they are texts here; the arguments of the
  builders and the arguments of an MCP call are Go strings, that is any bytes.
-/
import TosAi.Transport.Checks
import TosAi.SoftwareWork.Program

set_option autoImplicit false

namespace TosAi.Transport

open Foundation
open Foundation.Json (Bytes Codec Value token)

/-! ## Commitments -/

/-- What an input digest is the digest of. -/
structure Commitment where
  protocol : String
  escrowAddress : String
  quoteCommitment : String
  executionID : String
  sourceDigest : String
  deriving DecidableEq, Repr

def commitmentCodec : Codec Commitment :=
  .struct (.field "Protocol" .string <| .field "EscrowAddress" .string <|
      .field "QuoteCommitment" .string <| .field "ExecutionID" .string <|
      .field "SourceDigest" .string .nil)
    (fun c => (c.protocol, c.escrowAddress, c.quoteCommitment, c.executionID, c.sourceDigest, ()))
    (fun (a, b, c, d, e, ()) => ⟨a, b, c, d, e⟩) (fun _ => rfl) (fun _ => rfl)

/-- The bytes that are hashed for a commitment. -/
def Commitment.encoded (domain : String) (c : Commitment) : Bytes :=
  stringBytes domain ++ 0 :: commitmentCodec.marshal c

/-- `digest`. -/
def digest (H : Hash) (value : Bytes) : String := "sha256:" ++ hexEncode (H.sum value)

def protocolName : String := "tos_service_v1"

/-! ## A2A -/

namespace A2A

def extensionURI : Bytes := stringBytes "urn:tos:service:extension:native-software-work:v1"
def taskMediaType : Bytes :=
  stringBytes "application/vnd.tos.service.a2a.software-work-task.v1+json"
def sourceMediaType : Bytes := stringBytes "application/vnd.tos.service.software-source.v1+tar"
def sourceFilename : Bytes := stringBytes "source.tar"

inductive Role where
  | user
  | agent
  | other
  deriving DecidableEq, Repr

/-- The content of a part. -/
inductive Content where
  /-- data that is not nil, by the JSON value it is encoded as, if it can be encoded -/
  | data (value : Option Value)
  | raw (bytes : Bytes)
  | other

structure Part where
  content : Content
  mediaType : Bytes
  filename : Bytes
  metadata : List (String × Value)

/-- `part.Data()`. -/
def Part.data (part : Part) : Option (Option Value) :=
  match part.content with
  | .data value => some value
  | _ => none

/-- `part.Raw()`. -/
def Part.raw (part : Part) : Bytes :=
  match part.content with
  | .raw bytes => bytes
  | _ => []

structure Message where
  id : Bytes
  contextID : Bytes
  role : Role
  parts : List (Option Part)
  extensions : List Bytes

structure SendMessageRequest where
  message : Option Message

structure TaskBinding where
  protocol : String
  escrowAddress : String
  quoteCommitment : String
  executionID : String
  inputDigest : String
  sourceDigest : String
  deriving DecidableEq, Repr

def taskBindingCodec : Codec TaskBinding :=
  .struct (.field "protocol" .string <| .field "escrow_address" .string <|
      .field "quote_commitment" .string <| .field "execution_id" .string <|
      .field "input_digest" .string <| .field "source_digest" .string .nil)
    (fun b => (b.protocol, b.escrowAddress, b.quoteCommitment, b.executionID, b.inputDigest,
      b.sourceDigest, ()))
    (fun (a, b, c, d, e, f, ()) => ⟨a, b, c, d, e, f⟩) (fun _ => rfl) (fun _ => rfl)

/-- What `inputDigest` commits to. -/
def TaskBinding.commitment (b : TaskBinding) : Commitment :=
  ⟨b.protocol, b.escrowAddress, b.quoteCommitment, b.executionID, b.sourceDigest⟩

def inputDomain : String := "tos.service.a2a.software-work-input.v1"

section Requests

variable (U : Unicode) (H : Hash)

def inputDigest (binding : TaskBinding) : String :=
  digest H (binding.commitment.encoded inputDomain)

/-- The binding that `NewTaskRequest` makes. -/
def newBinding (escrowAddress quoteCommitment executionID source : Bytes) : TaskBinding :=
  let binding : TaskBinding := ⟨protocolName, goText escrowAddress, goText quoteCommitment,
    goText executionID, "", digest H source⟩
  { binding with inputDigest := inputDigest H binding }

/-- The message that `NewTaskRequest` makes. -/
def newMessage (messageID contextID : Bytes) (binding : TaskBinding) (source : Bytes) :
    Message where
  id := messageID
  contextID := contextID
  role := .user
  parts := [some ⟨.data (some (taskBindingCodec.enc binding)), taskMediaType, [], []⟩,
    some ⟨.raw source, sourceMediaType, sourceFilename, []⟩]
  extensions := [extensionURI]

def newTaskRequest (messageID contextID escrowAddress quoteCommitment executionID source : Bytes) :
    Except Err SendMessageRequest := do
  require (messageID != [] && decide (messageID.length ≤ 256) && rawAddressValid U escrowAddress &&
      cellDigestValid U quoteCommitment && shaDigestValid U executionID && source != [])
    "invalid A2A software-work task input"
  return ⟨some (newMessage messageID contextID
    (newBinding H escrowAddress quoteCommitment executionID source) source)⟩

/-- The loop of `decodeRequest` over the parts, with the binding and the source found so far. -/
def findParts : List (Option Part) → Option (Option Value) → Option Bytes →
    Except Err (Option (Option Value) × Option Bytes)
  | [], binding, source => .ok (binding, source)
  | none :: _, _, _ => .error (.text "invalid A2A software-work part")
  | some part :: rest, binding, source =>
    if !part.metadata.isEmpty then .error (.text "invalid A2A software-work part")
    else if part.mediaType = taskMediaType then
      if binding.isSome || part.data.isNone then .error (.text "invalid A2A task binding part")
      else findParts rest part.data source
    else if part.mediaType = sourceMediaType then
      if source.isSome || part.raw.isEmpty || part.filename != sourceFilename then
        .error (.text "invalid A2A source part")
      else findParts rest binding (some part.raw)
    else .error (.text "unsupported A2A software-work media type")

/-- The binding in a data part. -/
def decodeBinding (data : Option Value) : Except Err TaskBinding :=
  match data with
  | none => .error (.text "invalid A2A task binding data")
  | some value =>
    if value.print.length ≤ 4096 then
      match taskBindingCodec.decodeFirst true value.print with
      | none => .error (.text "invalid A2A task binding data")
      | some (binding, rest) =>
        if (token rest).isNone && binding.protocol == protocolName then .ok binding
        else .error (.text "invalid A2A task binding protocol")
    else .error (.text "invalid A2A task binding data")

/-- The claim of a binding. -/
def TaskBinding.claim (b : TaskBinding) : GateRequest :=
  ⟨stringBytes b.escrowAddress, stringBytes b.quoteCommitment, stringBytes b.executionID,
    stringBytes b.inputDigest, stringBytes b.sourceDigest⟩

/-- The work of a binding. -/
def TaskBinding.work (b : TaskBinding) (source : Bytes) : SoftwareWork.Request :=
  ⟨b.quoteCommitment, b.executionID, b.inputDigest, b.sourceDigest, source⟩

/-- The last check of `decodeRequest`. -/
def TaskBinding.matches (b : TaskBinding) (source : Bytes) : Bool :=
  rawAddressValid U (stringBytes b.escrowAddress) &&
    cellDigestValid U (stringBytes b.quoteCommitment) &&
    shaDigestValid U (stringBytes b.executionID) && shaDigestValid U (stringBytes b.inputDigest) &&
    shaDigestValid U (stringBytes b.sourceDigest) && digest H source == b.sourceDigest &&
    A2A.inputDigest H b == b.inputDigest

/-- The checks of `decodeRequest` on the envelope. -/
def Message.enveloped (message : Message) : Bool :=
  message.role == .user && message.id != [] && decide (message.id.length ≤ 256) &&
    message.parts.length == 2 && message.extensions == [extensionURI]

def decodeMessage (message : Message) :
    Except Err (SoftwareWork.Request × GateRequest × Message) := do
  require message.enveloped "invalid A2A software-work message envelope"
  match ← findParts message.parts none none with
  | (some data, some source) => do
    let binding ← decodeBinding data
    require (binding.matches U H source) "A2A task bytes do not match their commitments"
    return (binding.work source, binding.claim, message)
  | _ => .error (.text "incomplete A2A software-work message")

def decodeRequest (request : Option SendMessageRequest) :
    Except Err (SoftwareWork.Request × GateRequest × Message) :=
  match request.bind SendMessageRequest.message with
  | none => .error (.text "invalid A2A software-work message envelope")
  | some message => decodeMessage U H message

end Requests

end A2A

/-! ## MCP -/

namespace MCP

structure Input where
  escrowAddress : Bytes
  quoteCommitment : Bytes
  executionID : Bytes
  inputDigest : Bytes
  sourceDigest : Bytes
  sourceArchiveBase64 : Bytes
  deriving DecidableEq, Repr

/-- What `inputDigest` commits to. -/
def Input.commitment (v : Input) : Commitment :=
  ⟨protocolName, goText v.escrowAddress, goText v.quoteCommitment, goText v.executionID,
    goText v.sourceDigest⟩

def inputDomain : String := "tos.service.mcp.software-work-input.v1"

/-- `base64.StdEncoding.EncodeToString`. -/
def base64Text (source : Bytes) : Bytes := stringBytes (String.ofList (base64StdEncode source))

section Requests

variable (U : Unicode) (H : Hash)

def inputDigest (v : Input) : String := digest H (v.commitment.encoded inputDomain)

/-- The input that `PrepareInput` makes. -/
def newInput (escrow quote execution source : Bytes) : Input :=
  let value : Input :=
    ⟨escrow, quote, execution, [], stringBytes (digest H source), base64Text source⟩
  { value with inputDigest := stringBytes (inputDigest H value) }

def prepareInput (escrow quote execution source : Bytes) : Except Err Input := do
  require (rawAddress U escrow && cellDigest U quote && shaDigest U execution && source != [])
    "invalid MCP software-work input"
  return newInput H escrow quote execution source

/-- The claim of an input. -/
def Input.claim (input : Input) : GateRequest :=
  ⟨input.escrowAddress, input.quoteCommitment, input.executionID, input.inputDigest,
    input.sourceDigest⟩

/-- The work of an input. -/
def Input.work (input : Input) (source : Bytes) : SoftwareWork.Request :=
  ⟨goText input.quoteCommitment, goText input.executionID, goText input.inputDigest,
    goText input.sourceDigest, source⟩

/-- The checks of `Call` on its arguments, with the decoded source. -/
def Input.matches (input : Input) (source : Bytes) : Bool :=
  base64Text source == input.sourceArchiveBase64 && source != [] &&
    rawAddress U input.escrowAddress &&
    cellDigest U input.quoteCommitment && shaDigest U input.executionID &&
    shaDigest U input.inputDigest && shaDigest U input.sourceDigest &&
    stringBytes (digest H source) == input.sourceDigest &&
    stringBytes (MCP.inputDigest H input) == input.inputDigest

/-- The part of `Call` before the claim. -/
def decodeInput (input : Input) : Except Err (SoftwareWork.Request × GateRequest) :=
  match base64StdDecode (goText input.sourceArchiveBase64).toList with
  | none => .error (.text "MCP tool arguments do not match their commitments")
  | some source => do
    require (input.matches U H source) "MCP tool arguments do not match their commitments"
    return (input.work source, input.claim)

end Requests

end MCP

/-! ## Agent packets -/

namespace AgentPacket

/-- The fields of `agentpacket.Packet` that are read here. -/
structure Packet where
  quoteCommitment : Bytes
  capabilityID : Bytes
  payload : Bytes

structure Payload where
  schema : String
  escrowAddress : String
  quoteCommitment : String
  executionID : String
  inputDigest : String
  sourceDigest : String
  sourceArchiveBase64 : String
  deriving DecidableEq, Repr

def payloadCodec : Codec Payload :=
  .struct (.field "schema" .string <| .field "escrow_address" .string <|
      .field "quote_commitment" .string <| .field "execution_id" .string <|
      .field "input_digest" .string <| .field "source_digest" .string <|
      .field "source_archive_base64" .string .nil)
    (fun p => (p.schema, p.escrowAddress, p.quoteCommitment, p.executionID, p.inputDigest,
      p.sourceDigest, p.sourceArchiveBase64, ()))
    (fun (a, b, c, d, e, f, g, ()) => ⟨a, b, c, d, e, f, g⟩) (fun _ => rfl) (fun _ => rfl)

def payloadSchema : String := "tos.service.agent-packet-work.v1"

/-- `base64.StdEncoding.Strict().DecodeString`: no bits are left over in the last group, so the
bytes are encoded by the same characters. -/
def base64StrictDecode (chars : List Char) : Option Bytes :=
  (base64StdDecode chars).bind fun bytes =>
    if base64StdEncode bytes = chars.filter fun c => c != '\r' && c != '\n' then some bytes
    else none

section Requests

variable (U : Unicode) (H : Hash)

/-- The end of `decode`, with the payload and the source. -/
def decodeSource (p : Payload) (source : Bytes) :
    Except Err (SoftwareWork.Request × GateRequest) := do
  require (digest H source == p.sourceDigest) "Agent Packet source digest mismatch"
  require (validDigest U (stringBytes p.executionID) shaStart &&
      validDigest U (stringBytes p.inputDigest) shaStart &&
      validDigest U (stringBytes p.sourceDigest) shaStart) "invalid Agent Packet work digest"
  return (⟨p.quoteCommitment, p.executionID, p.inputDigest, p.sourceDigest, source⟩,
    ⟨stringBytes p.escrowAddress, stringBytes p.quoteCommitment, stringBytes p.executionID,
      stringBytes p.inputDigest, stringBytes p.sourceDigest⟩)

/-- `decode` from the payload on. -/
def decodePayload (packet : Packet) (p : Payload) (rest : Bytes) :
    Except Err (SoftwareWork.Request × GateRequest) := do
  require (p.schema == payloadSchema) "invalid Agent Packet work payload"
  require (token rest).isNone "Agent Packet work payload has trailing JSON"
  require (stringBytes p.quoteCommitment == packet.quoteCommitment && p.sourceArchiveBase64 != "")
    "Agent Packet Quote binding mismatch"
  match base64StrictDecode p.sourceArchiveBase64.toList with
  | none => .error (.text "invalid Agent Packet source archive")
  | some source => do
    require (source != []) "invalid Agent Packet source archive"
    decodeSource U H p source

def decode (packet : Packet) : Except Err (SoftwareWork.Request × GateRequest) := do
  require (packet.quoteCommitment != []) "Agent Packet is not purchase-bound"
  match payloadCodec.decodeFirst true packet.payload with
  | none => .error (.text "invalid Agent Packet work payload")
  | some (p, rest) => decodePayload U H packet p rest

end Requests

end AgentPacket

end TosAi.Transport
