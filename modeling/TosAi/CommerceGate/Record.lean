/-
  The durable record of an execution: its fields, its JSON text, the check every
  reader makes, and the six ways a record is rewritten.

  The writer marshals whatever it has.  The reader bounds the size of the file
  and checks the fields, so a record that is written need not be one that can be
  read: `readFile_file_eq_ok_iff` says exactly when it is.  A file that lost its end is
  never read as a record (`readFile_truncated`).
-/
import TosAi.Foundation.FileSystem
import TosAi.Foundation.Json.Codec
import TosAi.CommerceGate.Prepare

set_option autoImplicit false

namespace TosAi.CommerceGate

open Foundation
open Foundation.Json (Bytes Codec)

/-! ## The record -/

/-- The state of one effect is the text `submitted` or `terminal`. -/
structure EffectRecord where
  stableActionID : String
  exactRequestDigest : String
  state : String
  responseDigest : String
  httpStatus : UInt16
  stateRevision : UInt64
  deriving DecidableEq, Repr

structure Record where
  schema : String
  plan : Plan
  planDigest : String
  ticketSecret : String
  startNotAfterUnix : UInt64
  state : State
  stateRevision : UInt64
  outcomeDigest : String
  prepareActionID : String
  prepareRequestDigest : String
  startActionID : String
  startRequestDigest : String
  effects : Std.ExtTreeMap String EffectRecord

def recordSchema : String := "tos.ai.local-execution-gate.v1"

/-! ## JSON -/

def fileBindingCodec : Codec FileBinding :=
  .struct (.field "path" .string <| .field "digest" .string <| .field "size" .uint64 .nil)
    (fun b => (b.path, b.digest, b.size, ()))
    (fun t => ⟨t.1, t.2.1, t.2.2.1⟩) (fun _ => rfl) (fun _ => rfl)

def networkBindingCodec : Codec NetworkBinding :=
  .struct (.field "binding_id" .string <| .field "scheme" .string <| .field "host" .string <|
      .field "port" .uint16 <| .field "resolved_ips" (.list .string) <|
      .field "tls_server_name" .string <| .field "allow_redirects" .bool <|
      .field "max_request_bytes" .uint64 <| .field "max_response_bytes" .uint64 .nil)
    (fun b => (b.bindingID, b.scheme, b.host, b.port, b.resolvedIPs, b.tlsServerName,
      b.allowRedirects, b.maxRequestBytes, b.maxResponseBytes, ()))
    (fun t => ⟨t.1, t.2.1, t.2.2.1, t.2.2.2.1, t.2.2.2.2.1, t.2.2.2.2.2.1, t.2.2.2.2.2.2.1,
      t.2.2.2.2.2.2.2.1, t.2.2.2.2.2.2.2.2.1⟩) (fun _ => rfl) (fun _ => rfl)

def credentialBindingCodec : Codec CredentialBinding :=
  .struct (.field "handle_id" .string <| .field "scope_digest" .string <|
      .field "expires_at_unix" .uint64 .nil)
    (fun b => (b.handleID, b.scopeDigest, b.expiresAtUnix, ()))
    (fun t => ⟨t.1, t.2.1, t.2.2.1⟩) (fun _ => rfl) (fun _ => rfl)

def effectBindingCodec : Codec EffectBinding :=
  .struct (.field "plan_effect_id" .string <| .field "effect_profile_digest" .string <|
      .field "target_digest" .string <| .field "operation_kind" .string <|
      .field "effect_semantic_key_digest" .string <| .optional "network_binding_id" .string <|
      .optional "credential_handle_id" .string <| .field "maximum_uses" .uint32 .nil)
    (fun b => (b.planEffectID, b.effectProfileDigest, b.targetDigest, b.operationKind,
      b.effectSemanticKeyDigest, b.networkBindingID, b.credentialHandleID, b.maximumUses, ()))
    (fun t => ⟨t.1, t.2.1, t.2.2.1, t.2.2.2.1, t.2.2.2.2.1, t.2.2.2.2.2.1, t.2.2.2.2.2.2.1,
      t.2.2.2.2.2.2.2.1⟩) (fun _ => rfl) (fun _ => rfl)

def planCodec : Codec Plan :=
  .struct (.field "owner_id" .string <| .field "agent_id" .string <|
      .field "agreement_body_digest" .string <| .field "execution_obligation_id" .string <|
      .field "canonical_plan_digest" .string <| .field "accepted_input_manifest_digest" .string <|
      .field "attempt_index" .uint64 <| .field "predecessor_terminal_resolution_digest" .string <|
      .field "execution_id" .string <| .field "reservation_id" .string <|
      .field "policy_revision" .uint64 <| .field "writer_generation" .uint64 <|
      .field "lease_loss_policy" .string <| .optional "files" (.list fileBindingCodec) <|
      .optional "network_bindings" (.list networkBindingCodec) <|
      .optional "credential_bindings" (.list credentialBindingCodec) <|
      .optional "effect_bindings" (.list effectBindingCodec) .nil)
    (fun p => (p.ownerID, p.agentID, p.agreementBodyDigest, p.executionObligationID,
      p.canonicalPlanDigest, p.acceptedInputManifestDigest, p.attemptIndex,
      p.predecessorTerminalResolutionDigest, p.executionID, p.reservationID, p.policyRevision,
      p.writerGeneration, p.leaseLossPolicy, p.files, p.networkBindings, p.credentialBindings,
      p.effectBindings, ()))
    (fun (a, b, c, d, e, f, g, h, i, j, k, l, m, n, o, p, q, ()) =>
      ⟨a, b, c, d, e, f, g, h, i, j, k, l, m, n, o, p, q⟩) (fun _ => rfl) (fun _ => rfl)

def effectRecordCodec : Codec EffectRecord :=
  .struct (.field "stable_action_id" .string <| .field "exact_request_digest" .string <|
      .field "state" .string <| .optional "response_digest" .string <|
      .optional "http_status" .uint16 <| .field "state_revision" .uint64 .nil)
    (fun r => (r.stableActionID, r.exactRequestDigest, r.state, r.responseDigest, r.httpStatus,
      r.stateRevision, ()))
    (fun t => ⟨t.1, t.2.1, t.2.2.1, t.2.2.2.1, t.2.2.2.2.1, t.2.2.2.2.2.1⟩)
    (fun _ => rfl) (fun _ => rfl)

def stateCodec : Codec (Option State) :=
  .text State.text State.ofText State.ofText_text (by decide)

/-- A record as it is decoded, before its state is known to be one. -/
structure RawRecord where
  schema : String
  plan : Plan
  planDigest : String
  ticketSecret : String
  startNotAfterUnix : UInt64
  state : Option State
  stateRevision : UInt64
  outcomeDigest : String
  prepareActionID : String
  prepareRequestDigest : String
  startActionID : String
  startRequestDigest : String
  effects : Std.ExtTreeMap String EffectRecord

def rawRecordCodec : Codec RawRecord :=
  .struct (.field "schema" .string <| .field "plan" planCodec <| .field "plan_digest" .string <|
      .field "ticket_secret" .string <| .field "start_not_after_unix" .uint64 <|
      .field "state" stateCodec <| .field "state_revision" .uint64 <|
      .optional "outcome_digest" .string <| .field "prepare_action_id" .string <|
      .field "prepare_request_digest" .string <| .optional "start_action_id" .string <|
      .optional "start_request_digest" .string <|
      .cons "effects" (.map effectRecordCodec) (fun m => m.isEmpty)
        (fun _ h => Std.ExtTreeMap.isEmpty_iff.mp h) .nil)
    (fun r => (r.schema, r.plan, r.planDigest, r.ticketSecret, r.startNotAfterUnix, r.state,
      r.stateRevision, r.outcomeDigest, r.prepareActionID, r.prepareRequestDigest,
      r.startActionID, r.startRequestDigest, r.effects, ()))
    (fun (a, b, c, d, e, f, g, h, i, j, k, l, m, ()) => ⟨a, b, c, d, e, f, g, h, i, j, k, l, m⟩)
    (fun _ => rfl) (fun _ => rfl)

def Record.raw (e : Record) : RawRecord :=
  ⟨e.schema, e.plan, e.planDigest, e.ticketSecret, e.startNotAfterUnix, some e.state,
    e.stateRevision, e.outcomeDigest, e.prepareActionID, e.prepareRequestDigest,
    e.startActionID, e.startRequestDigest, e.effects⟩

/-- The record, if its state is a known one. -/
def RawRecord.known (r : RawRecord) : Option Record :=
  r.state.map fun state =>
    ⟨r.schema, r.plan, r.planDigest, r.ticketSecret, r.startNotAfterUnix, state,
      r.stateRevision, r.outcomeDigest, r.prepareActionID, r.prepareRequestDigest,
      r.startActionID, r.startRequestDigest, r.effects⟩

/-- `json.Marshal` of a record. -/
def Record.marshal (e : Record) : Bytes := rawRecordCodec.marshal e.raw

/-- The record a text decodes to, unknown fields refused. -/
def decodeRecord (raw : Bytes) : Option Record :=
  (rawRecordCodec.unmarshal true raw).bind RawRecord.known

theorem decodeRecord_marshal (e : Record) : decodeRecord e.marshal = some e := by
  rw [decodeRecord, Record.marshal, rawRecordCodec.unmarshal_marshal]
  rfl

theorem Record.marshal_injective {e e' : Record} (h : e.marshal = e'.marshal) : e = e' := by
  have he := decodeRecord_marshal e
  rw [h, decodeRecord_marshal] at he
  exact (Option.some.inj he).symm

theorem decodeRecord_truncated {e : Record} {kept lost : Bytes}
    (htext : e.marshal = kept ++ lost) (hlost : lost ≠ []) : decodeRecord kept = none := by
  have hraw : rawRecordCodec.unmarshal true kept = none :=
    Codec.unmarshal_truncated _ _ _ _ _ true htext hlost
  rw [decodeRecord, hraw]
  rfl

theorem Record.marshal_ne_nil (e : Record) : e.marshal ≠ [] := by
  intro hnil
  have h := decodeRecord_marshal e
  rw [hnil] at h
  cases h

/-! ## What a reader accepts -/

def maxRecordBytes : Nat := 2 * 2 ^ 20

/-- The conditions on the fields of the record itself. -/
def recordFieldsOk (e : Record) : Bool :=
  e.schema == recordSchema && e.stateRevision != 0 && validDigest e.prepareActionID &&
    validDigest e.prepareRequestDigest &&
    (e.startActionID == "") == (e.startRequestDigest == "") &&
    (e.startActionID == "" || (validDigest e.startActionID && validDigest e.startRequestDigest))

/-- The conditions on one effect. -/
def effectFieldsOk (effectID : String) (r : EffectRecord) : Bool :=
  effectID != "" && validDigest r.stableActionID && validDigest r.exactRequestDigest &&
    r.stateRevision != 0 && (r.state == "submitted" || r.state == "terminal") &&
    (r.state != "terminal" || (validDigest r.responseDigest && r.httpStatus != 0))

/-- `readRecord` on the file it found. -/
def readFile (file : File) : Except Err Record :=
  if file.perm ≠ 0o600 ∨ file.data = [] ∨ maxRecordBytes < file.data.length then
    .error (.text "invalid local execution Gate record")
  else
    match decodeRecord file.data with
    | none => .error (.text "invalid local execution Gate record")
    | some entry =>
      if !recordFieldsOk entry then .error (.text "invalid local execution Gate record")
      else if entry.effects.toList.all fun p => effectFieldsOk p.1 p.2 then .ok entry
      else .error (.text "invalid execution effect record")

/-- The file that holds a record. -/
def Record.file (e : Record) : File := ⟨0o600, e.marshal⟩

/-- The record passes the reader's checks. -/
structure Readable (e : Record) : Prop where
  size : e.marshal.length ≤ maxRecordBytes
  fields : recordFieldsOk e = true
  effects : ∀ id r, e.effects[id]? = some r → effectFieldsOk id r = true

theorem effects_all_iff (e : Record) :
    (e.effects.toList.all fun p => effectFieldsOk p.1 p.2) = true ↔
      ∀ id r, e.effects[id]? = some r → effectFieldsOk id r = true := by
  simp only [List.all_eq_true, Prod.forall, Std.ExtTreeMap.mem_toList_iff_getElem?_eq_some]

/-- **A written record is read back exactly when it is readable**, and then as
itself. -/
theorem readFile_file_eq_ok_iff {e e' : Record} :
    readFile e.file = .ok e' ↔ Readable e ∧ e' = e := by
  unfold readFile
  simp only [Record.file, decodeRecord_marshal, e.marshal_ne_nil, false_or, ne_eq,
    not_true_eq_false]
  constructor
  · intro h
    split at h
    · cases h
    split at h
    · cases h
    split at h
    · rename_i hsize hfields heffects
      exact ⟨⟨Nat.le_of_not_lt hsize, by simpa using hfields, (effects_all_iff e).mp heffects⟩,
        (Except.ok.inj h).symm⟩
    · cases h
  · rintro ⟨hreadable, rfl⟩
    rw [if_neg (Nat.not_lt.mpr hreadable.size), if_neg (by simp [hreadable.fields]),
      if_pos ((effects_all_iff e').mpr hreadable.effects)]

theorem readFile_file {e : Record} (h : Readable e) : readFile e.file = .ok e :=
  readFile_file_eq_ok_iff.mpr ⟨h, rfl⟩

/-- What a reader refuses, it refuses with a text, never as a missing file. -/
theorem readFile_error {file : File} {err : Err} (h : readFile file = .error err) :
    ∃ message, err = .text message := by
  unfold readFile at h
  split at h
  · exact ⟨_, (Except.error.inj h).symm⟩
  split at h
  · exact ⟨_, (Except.error.inj h).symm⟩
  split at h
  · exact ⟨_, (Except.error.inj h).symm⟩
  split at h
  · cases h
  · exact ⟨_, (Except.error.inj h).symm⟩

/-- A record file that lost some of its end is refused. -/
theorem readFile_truncated {e : Record} {perm : Nat} {kept lost : Bytes}
    (htext : e.marshal = kept ++ lost) (hlost : lost ≠ []) :
    readFile ⟨perm, kept⟩ = .error (.text "invalid local execution Gate record") := by
  unfold readFile
  split
  · rfl
  · simp only [decodeRecord_truncated htext hlost]

/-! ## Names in the directory -/

/-- The files of a Gate directory.  The number of a temporary file is the random
part of its name. -/
inductive FileName where
  | record (hex : String)
  | invalid
  | effect (id : String)
  | gateTemp (number : Nat)
  | effectTemp (number : Nat)
  deriving DecidableEq, Repr

/-- `Gate.path`. -/
def path (id : String) : FileName :=
  if validDigest id then .record (String.ofList (id.toList.drop 7)) else .invalid

/-- `Gate.effectResponsePath`. -/
def effectResponsePath (stableID : String) : FileName := .effect (trimStart "sha256:" stableID)

/-- The names `gate.path` can give. -/
def FileName.isRecord : FileName → Bool
  | .record _ | .invalid => true
  | _ => false

theorem isRecord_path (id : String) : (path id).isRecord = true := by
  unfold path
  split <;> rfl

/-! ## How a record is rewritten -/

/-- The record `Prepare` creates. -/
def initialRecord (plan : Plan) (planDigest secret : String) (deadline : UInt64)
    (action : AuthorizedAction) : Record where
  schema := recordSchema
  plan := plan
  planDigest := planDigest
  ticketSecret := secret
  startNotAfterUnix := deadline
  state := .prepared
  stateRevision := 1
  outcomeDigest := ""
  prepareActionID := action.stableActionID
  prepareRequestDigest := action.exactRequestDigest
  startActionID := ""
  startRequestDigest := ""
  effects := ∅

namespace Record

/-- `Start`. -/
def start (action : AuthorizedAction) (e : Record) : Record :=
  { e with
    state := .starting
    stateRevision := e.stateRevision + 1
    startActionID := action.stableActionID
    startRequestDigest := action.exactRequestDigest }

/-- `transition`. -/
def transition (next : State) (outcome : String) (e : Record) : Record :=
  { e with state := next, stateRevision := e.stateRevision + 1, outcomeDigest := outcome }

/-- `PerformHTTPS`, admission of an effect. -/
def submit (effectID : String) (action : AuthorizedAction) (e : Record) : Record :=
  { e with
    effects := e.effects.insert effectID
      { stableActionID := action.stableActionID
        exactRequestDigest := action.exactRequestDigest
        state := "submitted"
        responseDigest := ""
        httpStatus := 0
        stateRevision := 1 }
    stateRevision := e.stateRevision + 1 }

/-- `PerformHTTPS`, terminalization of an effect. -/
def terminalize (effectID : String) (prior : EffectRecord) (response : HTTPSResponse)
    (e : Record) : Record :=
  { e with
    effects := e.effects.insert effectID
      { prior with
        state := "terminal"
        responseDigest := response.digest
        httpStatus := UInt16.ofNat response.statusCode
        stateRevision := prior.stateRevision + 1 }
    stateRevision := e.stateRevision + 1 }

/-- The state `recoverInterruptedStates` gives a record, if it rewrites it. -/
def recovered : State → Option State
  | .starting => some .ambiguousStart
  | .running => some .ambiguousRun
  | _ => none

/-- `recoverInterruptedStates`. -/
def recover (next : State) (e : Record) : Record :=
  { e with state := next, stateRevision := e.stateRevision + 1 }

end Record

end TosAi.CommerceGate
