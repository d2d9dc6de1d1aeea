/-
  `PerformHTTPS`: the task-scoped outbound broker.

  The method has three sections.  Under the mutex the effect is admitted: the
  record gets an entry `submitted` and is replaced on disk.  Without the mutex
  come credentials, revalidation and the exchange itself.  Under the mutex again
  the record is read anew and its entry becomes `terminal`.
-/
import TosAi.CommerceGate.Program

set_option autoImplicit false

namespace TosAi.CommerceGate

open Foundation

variable {C : Commerce}

/-! ## PerformHTTPS -/

/-- The header list is sorted, canonical and names nothing the broker sets. -/
def validHeaders : String → List HTTPHeader → Bool
  | _, [] => true
  | last, header :: rest =>
    let name := canonicalHeaderKey header.name
    name != "" && name == header.name && decide (last < name) && header.value != "" &&
      !hasLineBreak header.value &&
      !(["Authorization", "Proxy-Authorization", "Host", "Connection", "Transfer-Encoding",
        "Idempotency-Key"].contains name) &&
      validHeaders name rest

def validHTTPSRequest (request : HTTPSRequest) (effect : EffectBinding)
    (binding : NetworkBinding) : Bool :=
  let wantMethod := (trimStart "https." effect.operationKind).toUpper
  request.method == wantMethod && request.pathAndQuery.toList.head? == some '/' &&
    !hasLineBreak request.pathAndQuery &&
    decide (request.body.length ≤ binding.maxRequestBytes.toNat) &&
    validHeaders "" request.headers

/-- A header `performPinnedHTTPS` refuses to send. -/
def unsafeHeader (header : HTTPHeader) : Bool :=
  let name := canonicalHeaderKey header.name
  name == "" || hasLineBreak header.value ||
    ["Host", "Connection", "Transfer-Encoding", "Idempotency-Key"].contains name

def performPinnedHTTPS (entry : Entry) (binding : NetworkBinding) (request : HTTPSRequest)
    (headers : List HTTPHeader) (stableID : String) : Gated C HTTPSResponse := do
  let _ ← perform (.enter entry)
  ensure (!headers.any unsafeHeader) "credential supplied an unsafe HTTP header"
  let (status, body) ← ofExcept (← perform (.exchange binding request headers stableID))
  ensure (decide (body.length ≤ binding.maxResponseBytes.toNat))
    "HTTPS effect response exceeded its exact bound"
  pure ⟨status, body, ""⟩

def effectFields (plan : Plan) (effect : EffectBinding) : List (String × SemanticValue) :=
  [("owner_id", .id plan.ownerID), ("agent_id", .id plan.agentID),
    ("agreement_body_digest", .digest32 plan.agreementBodyDigest),
    ("obligation_id", .id plan.executionObligationID),
    ("execution_id", .digest32 plan.executionID), ("plan_effect_id", .id effect.planEffectID),
    ("effect_profile_digest", .digest32 effect.effectProfileDigest),
    ("target_digest", .digest32 effect.targetDigest),
    ("operation_kind", .kind effect.operationKind),
    ("effect_semantic_key_digest", .digest32 effect.effectSemanticKeyDigest)]

/-- The arguments of one `PerformHTTPS`; the two flags say whether the credential
resolver and the revalidation callback are there. -/
structure EffectCall where
  launch : Launch
  request : HTTPSRequest
  action : AuthorizedAction
  fence : WriterFence
  hasCredentials : Bool
  hasRevalidate : Bool
  deriving DecidableEq, Repr

/-- What the first section of `PerformHTTPS` decided. -/
inductive Admission where
  | fresh (entry : Record) (network : NetworkBinding) (credential : Option CredentialBinding)
  | known (prior : EffectRecord)

/-- The network and credential a planned effect is bound to. -/
def boundNetwork (plan : Plan) (effect : EffectBinding) : Option NetworkBinding :=
  plan.networkBindings.find? fun n => n.bindingID == effect.networkBindingID

def boundCredential (plan : Plan) (effect : EffectBinding) : Option CredentialBinding :=
  if effect.credentialHandleID == "" then none
  else plan.credentialBindings.find? fun b => b.handleID == effect.credentialHandleID

def notAuthorized : Err := .text "HTTPS effect is not an exact current authorized action"

/-- First section: admit the effect, durably. -/
def admitEffect (call : EffectCall) (now : Time) : Gated C Admission := locked do
  let n := path call.launch.executionID
  let id := call.request.planEffectID
  match ← attempt (readRecord n) with
  | .error _ => throw (.text "effect does not belong to the running one-shot launch")
  | .ok (entry, _) =>
    ensure (entry.state == .running && entry.planDigest == call.launch.planDigest &&
        entry.ticketSecret == call.launch.ticketSecret)
      "effect does not belong to the running one-shot launch"
    match entry.plan.effectBindings.find? fun b => b.planEffectID == id with
    | none => throw notAuthorized
    | some effect =>
      match boundNetwork entry.plan effect with
      | none => throw notAuthorized
      | some network =>
        let verified := authorized C call.action "executor.effect"
          (effectFields entry.plan effect) (.request call.request) call.fence
          (← perform .authority) now
        let current := (C.confirmCurrentWriterFence call.fence
          (← perform .authority) now).isNone
        ensure (verified && current && validHTTPSRequest call.request effect network)
          "HTTPS effect is not an exact current authorized action"
        match entry.effects[id]? with
        | some prior => pure (.known prior)
        | none =>
          replaceRecord n (entry.submit id call.action)
          let _ ← perform (.claim n (.effect id))
          pure (.fresh entry network (boundCredential entry.plan effect))

/-- An effect that was submitted before: its response, if it is terminal. -/
def knownEffect (call : EffectCall) (prior : EffectRecord) : Gated C HTTPSResponse := do
  ensure (prior.stableActionID == call.action.stableActionID &&
      prior.exactRequestDigest == call.action.exactRequestDigest)
    "effect identity conflicts"
  ensure (prior.state == "terminal")
    "effect submission is ambiguous; resolve externally without retry"
  match ← perform (.file (.read (effectResponsePath call.action.stableActionID))) with
  | .error _ => throw (.text "terminal effect response is unavailable")
  | .ok seen => pure ⟨prior.httpStatus.toNat, seen.file.data, prior.responseDigest⟩

/-- The headers to send: the request's, and those of the credential. -/
def effectHeaders (call : EffectCall) (credential : Option CredentialBinding) (now : Time) :
    Gated C (List HTTPHeader) :=
  match credential with
  | none => pure call.request.headers
  | some binding => do
    ensure (call.hasCredentials && decide (now < timeUnix (toInt64 binding.expiresAtUnix)))
      "effect credential is unavailable or expired"
    let secret ← ofExcept (← perform (.resolveCredential binding.handleID binding.scopeDigest
      call.action.stableActionID now))
    pure (call.request.headers ++ secret)

/-- Second section, without the mutex: credentials, revalidation, the exchange,
and the response body on disk. -/
def submitEffect (call : EffectCall) (entry : Record) (network : NetworkBinding)
    (credential : Option CredentialBinding) (now : Time) : Gated C HTTPSResponse := do
  let headers ← effectHeaders call credential now
  let valid ← perform .revalidate
  ensure (call.hasRevalidate && valid) "trusted capability was revoked at HTTPS submission"
  let response ← performPinnedHTTPS
    ⟨path call.launch.executionID, call.request.planEffectID, call.action, entry⟩ network
    call.request headers call.action.stableActionID
  let digest ← ofExcept (C.digest "tos.executor-effect-response.v1"
    (.response response.statusCode response.body))
  writeEffectResponse call.action.stableActionID response.body
  pure { response with digest }

/-- Third section: the effect is terminal. -/
def terminalizeEffect (call : EffectCall) (response : HTTPSResponse) : Gated C Written :=
  locked do
    let n := path call.launch.executionID
    let id := call.request.planEffectID
    let lost : Err := .text "effect terminalization lost its submitted predecessor"
    match ← attempt (readRecord n) with
    | .error _ => throw lost
    | .ok (entry, _) =>
      match entry.effects[id]? with
      | none => throw lost
      | some prior =>
        ensure (prior.state == "submitted" &&
            prior.stableActionID == call.action.stableActionID)
          "effect terminalization lost its submitted predecessor"
        replaceRecord n (entry.terminalize id prior response)
        pure ⟨n, entry.terminalize id prior response⟩

def performHTTPS (call : EffectCall) : Gated C (HTTPSResponse × Option Written) := do
  ensure (← perform .lockHeld) "execution effect broker is unavailable"
  let now ← perform .now
  match ← admitEffect call now with
  | .known prior =>
    let response ← knownEffect call prior
    pure (response, none)
  | .fresh entry network credential =>
    let response ← submitEffect call entry network credential now
    let written ← terminalizeEffect call response
    pure (response, some written)

end TosAi.CommerceGate
