/-
  What the adapters claim, against what the runner accepts.

  Once a purchase is claimed it cannot be claimed again, so the work of a claimed request has
  to be one that `validateRequest` of the runner lets through.
-/
import TosAi.Transport.Guarantees

set_option autoImplicit false

namespace TosAi.Transport

open Foundation
open Foundation.Json (Bytes Codec)
open SoftwareWork (Runner digestPattern quoteCommitmentPattern)

/-! ## What an adapter commits to -/

/-- An operation that claims nothing but this and hands nothing but that to the runner. -/
def Commits (work : SoftwareWork.Request) (claim : GateRequest) : Op → Prop
  | .claimExecution request => request = claim
  | .execute request => request = work
  | _ => True

def Unclaimed : Op → Prop
  | .claimExecution _ => False
  | _ => True

/-- Nothing is claimed, or one purchase is, whose work the runner accepts if it is not too large. -/
def Runnable {α : Type} (r : Runner) (body : Adapting α) : Prop :=
  Body.Uses Unclaimed body ∨ ∃ work claim, Body.Uses (Commits work claim) body ∧
    (work.sourceArchive.length ≤ r.contract.limits.diskBytes.toNat → r.Accepts work)

section Commits

variable {A : Op → Prop}

theorem orFail_uses {α : Type} (value : Option α) (message : String) :
    Body.Uses A (orFail value message) := by
  cases value with
  | none => exact .throw _
  | some a => exact .pure a

theorem locate_uses {S : Setup} {d : SoftwareWork.Descriptor} {message : String} (h : A (.url d)) :
    Body.Uses A (locate S d message) := by
  refine .bind (.perform h) fun answer => ?_
  refine .bind (orFail_uses answer message) fun url => ?_
  refine .bind (.ensure _ _) fun _ => ?_
  exact .pure url

theorem settleWith_uses {S : Setup} {evidence : Evidence} {outcome : SoftwareWork.Outcome}
    (h : A (.settle evidence outcome)) : Body.Uses A (settleWith S evidence outcome) := by
  unfold settleWith
  split
  · exact .bind (.perform h) fun _ => .ensure _ _
  · exact .pure ()

variable {S : Setup} {work : SoftwareWork.Request} {claim : GateRequest}

theorem A2A.complete_uses (evidence : Evidence) (task : A2A.Task) (completed : Time)
    (outcome : SoftwareWork.Outcome) :
    Body.Uses (Commits work claim) (A2A.complete S work evidence task completed outcome) := by
  refine .bind (.ensure _ _) fun _ => ?_
  refine .bind (locate_uses trivial) fun artifactURL => ?_
  refine .bind (locate_uses trivial) fun reportURL => ?_
  refine .bind (settleWith_uses trivial) fun _ => ?_
  exact .pure _

theorem A2A.executeClaimed_uses (message : A2A.Message) :
    Body.Uses (Commits work claim) (A2A.executeClaimed S work claim message) := by
  refine .bind (.perform (show Commits work claim (.claimExecution claim) from rfl))
    fun answer => ?_
  refine .bind (orFail_uses answer _) fun evidence => ?_
  refine .bind (.result _) fun _ => ?_
  refine .bind (.perform (o := Op.now) trivial) fun now => ?_
  refine .bind (.perform (show Commits work claim (.execute work) from rfl)) fun outcome => ?_
  refine .bind (.perform (o := Op.now) trivial) fun completed => ?_
  cases outcome with
  | none => exact .pure _
  | some outcome => exact A2A.complete_uses evidence _ completed outcome

theorem MCP.callClaimed_uses : Body.Uses (Commits work claim) (MCP.callClaimed S work claim) := by
  refine .bind (.perform (show Commits work claim (.claimExecution claim) from rfl))
    fun answer => ?_
  refine .bind (orFail_uses answer _) fun evidence => ?_
  refine .bind (.ensure _ _) fun _ => ?_
  refine .bind (.perform (show Commits work claim (.execute work) from rfl)) fun executed => ?_
  refine .bind (orFail_uses executed _) fun outcome => ?_
  refine .bind (.ensure _ _) fun _ => ?_
  refine .bind (locate_uses trivial) fun artifactURL => ?_
  refine .bind (locate_uses trivial) fun reportURL => ?_
  refine .bind (settleWith_uses trivial) fun _ => ?_
  exact .pure _

theorem AgentPacket.publish_uses (publishes : Bool) (outcome : SoftwareWork.Outcome) :
    Body.Uses (Commits work claim) (AgentPacket.publish publishes outcome) := by
  unfold AgentPacket.publish
  split
  · refine .bind (.perform (o := Op.url outcome.artifact) trivial) fun artifact => ?_
    refine .bind (orFail_uses artifact _) fun _ => ?_
    refine .bind (.perform (o := Op.url outcome.report) trivial) fun report => ?_
    exact .bind (orFail_uses report _) fun _ => .pure ()
  · exact .pure ()

theorem AgentPacket.executeClaimed_uses (publishes : Bool) (packet : AgentPacket.Packet) :
    Body.Uses (Commits work claim) (AgentPacket.executeClaimed S publishes packet work claim) := by
  refine .bind (.perform (show Commits work claim (.claimExecution claim) from rfl))
    fun answer => ?_
  refine .bind (orFail_uses answer _) fun evidence => ?_
  refine .bind (.ensure _ _) fun _ => ?_
  refine .bind (.perform (show Commits work claim (.execute work) from rfl)) fun executed => ?_
  refine .bind (orFail_uses executed _) fun outcome => ?_
  refine .bind (.ensure _ _) fun _ => ?_
  refine .bind (AgentPacket.publish_uses publishes outcome) fun _ => ?_
  refine .bind (settleWith_uses trivial) fun _ => ?_
  exact .pure _

end Commits

/-! ## What the runner accepts -/

section Accepts

variable {S : Setup} {r : Runner}

theorem matchesHex64_of_isDigest {start text : String}
    (h : IsDigest (stringBytes start) (stringBytes text)) : matchesHex64 start text = true := by
  obtain ⟨raw, hlength, -, heq⟩ := h
  have htext : stringBytes text = stringBytes (start ++ hexEncode raw) := by
    rw [heq, ← stringBytes_hexEncode, stringBytes, stringBytes, stringBytes, String.toList_append,
      List.flatMap_append]
  rw [stringBytes_injective htext]
  exact matchesHex64_append hlength

theorem digestPattern_digest (H : Hash) (bytes : Bytes) : digestPattern (digest H bytes) = true :=
  matchesHex64_append (H.length_sum bytes)

theorem digestOf_eq_digest (hhash : r.library.sha256 = S.hash.sum) (bytes : Bytes) :
    r.digestOf bytes = digest S.hash bytes := by
  rw [Runner.digestOf, hhash]
  rfl

/-- A body that starts with a check of its input claims nothing if the check fails. -/
theorem runnable_of_result {α β : Type} {checked : Except Err α} {next : α → Adapting β}
    (h : ∀ a, checked = .ok a → Runnable r (next a)) :
    Runnable r (Body.result checked >>= next) := by
  cases checked with
  | error e => exact .inl trivial
  | ok a => exact h a rfl

theorem A2A.runnable_execute (hhash : r.library.sha256 = S.hash.sum)
    (request : Option A2A.SendMessageRequest) : Runnable r (A2A.execute S request) := by
  apply runnable_of_result
  rintro ⟨work, claim, message⟩ hdecode
  refine .inr ⟨work, claim, A2A.executeClaimed_uses message, fun hlength => ?_⟩
  obtain ⟨binding, source, -, hmatches, rfl, -⟩ := decodeRequest_eq_ok hdecode
  simp only [A2A.TaskBinding.matches, A2A.shaDigestValid, A2A.cellDigestValid,
    A2A.digestSuffixValid, Bool.and_eq_true, beq_iff_eq, hexDigestValid_iff lower_shaStart,
    hexDigestValid_iff lower_cellStart] at hmatches
  obtain ⟨⟨⟨⟨⟨⟨-, hquote⟩, hexecution⟩, hinput⟩, hsource⟩, hdigest⟩, -⟩ := hmatches
  refine ⟨?_, (digestOf_eq_digest hhash source).trans hdigest, hlength⟩
  simp only [SoftwareWork.Request.wellFormed, Bool.and_eq_true]
  exact ⟨⟨⟨matchesHex64_of_isDigest hquote, matchesHex64_of_isDigest hexecution⟩,
    matchesHex64_of_isDigest hinput⟩, matchesHex64_of_isDigest hsource⟩

theorem MCP.runnable_call (hhash : r.library.sha256 = S.hash.sum) (input : MCP.Input) :
    Runnable r (MCP.call S input) := by
  apply runnable_of_result
  rintro ⟨work, claim⟩ hdecode
  refine .inr ⟨work, claim, MCP.callClaimed_uses, fun hlength => ?_⟩
  obtain ⟨source, hmatches, rfl, -⟩ := decodeInput_eq_ok hdecode
  simp only [MCP.Input.matches, MCP.shaDigest, MCP.cellDigest, MCP.validDigest, Bool.and_eq_true,
    beq_iff_eq, bne_iff_ne, hexDigestValid_iff lower_shaStart,
    hexDigestValid_iff lower_cellStart] at hmatches
  obtain ⟨⟨⟨⟨⟨⟨-, hquote⟩, hexecution⟩, hinput⟩, hsource⟩, hdigest⟩, -⟩ := hmatches
  -- the texts are ASCII, so the runner sees the bytes that were checked
  have hpattern {start : String} {value : Bytes} (hstart : ∀ b ∈ stringBytes start, Unescaped b)
      (h : IsDigest (stringBytes start) value) : matchesHex64 start (goText value) = true := by
    apply matchesHex64_of_isDigest
    rwa [isUTF8_of_unescaped (h.unescaped hstart)]
  refine ⟨?_, ?_, hlength⟩
  · simp only [SoftwareWork.Request.wellFormed, Bool.and_eq_true]
    exact ⟨⟨⟨hpattern unescaped_cellStart hquote, hpattern unescaped_shaStart hexecution⟩,
      hpattern unescaped_shaStart hinput⟩, hpattern unescaped_shaStart hsource⟩
  · show r.digestOf source = goText input.sourceDigest
    rw [digestOf_eq_digest hhash, ← hdigest, goText_stringBytes]

/-- The payload and the source that a packet is taken apart into. -/
structure AgentPacket.Decoded (U : Unicode) (H : Hash) (packet : AgentPacket.Packet)
    (p : AgentPacket.Payload) (rest source : Bytes) : Prop where
  bound : packet.quoteCommitment ≠ []
  payload : AgentPacket.payloadCodec.decodeFirst true packet.payload = some (p, rest)
  schema : p.schema = AgentPacket.payloadSchema
  ended : (Json.token rest).isNone = true
  quote : stringBytes p.quoteCommitment = packet.quoteCommitment
  encoded : p.sourceArchiveBase64 ≠ ""
  archive : AgentPacket.base64StrictDecode p.sourceArchiveBase64.toList = some source
  nonempty : source ≠ []
  sourceDigest : digest H source = p.sourceDigest
  digests : (AgentPacket.validDigest U (stringBytes p.executionID) shaStart &&
    AgentPacket.validDigest U (stringBytes p.inputDigest) shaStart &&
    AgentPacket.validDigest U (stringBytes p.sourceDigest) shaStart) = true

def AgentPacket.Payload.work (p : AgentPacket.Payload) (source : Bytes) : SoftwareWork.Request :=
  ⟨p.quoteCommitment, p.executionID, p.inputDigest, p.sourceDigest, source⟩

variable {packet : AgentPacket.Packet}

theorem AgentPacket.decoded_of_decode {U : Unicode} {H : Hash} {work : SoftwareWork.Request}
    {claim : GateRequest} (h : AgentPacket.decode U H packet = .ok (work, claim)) :
    ∃ p rest source, AgentPacket.Decoded U H packet p rest source ∧ work = p.work source := by
  obtain ⟨hbound, h⟩ := require_bind_eq_ok.mp h
  split at h
  · cases h
  · next p rest hpayload =>
      obtain ⟨hschema, h⟩ := require_bind_eq_ok.mp h
      obtain ⟨hended, h⟩ := require_bind_eq_ok.mp h
      obtain ⟨hquote, h⟩ := require_bind_eq_ok.mp h
      rw [Bool.and_eq_true, beq_iff_eq, bne_iff_ne] at hquote
      split at h
      · cases h
      · next source harchive =>
          obtain ⟨hsource, h⟩ := require_bind_eq_ok.mp h
          obtain ⟨hdigest, h⟩ := require_bind_eq_ok.mp h
          obtain ⟨hdigests, h⟩ := require_bind_eq_ok.mp h
          exact ⟨p, rest, source, ⟨bne_iff_ne.mp hbound, hpayload, beq_iff_eq.mp hschema, hended,
            hquote.1, hquote.2, harchive, bne_iff_ne.mp hsource, beq_iff_eq.mp hdigest, hdigests⟩,
            (Prod.mk.inj (Except.ok.inj h)).1.symm⟩

theorem AgentPacket.Decoded.decode {U : Unicode} {H : Hash} {p : AgentPacket.Payload}
    {rest source : Bytes} (h : AgentPacket.Decoded U H packet p rest source) :
    ∃ claim, AgentPacket.decode U H packet = .ok (p.work source, claim) := by
  have hdecoded : ∃ claim, AgentPacket.decodeSource U H p source = .ok (p.work source, claim) :=
    ⟨_, require_bind_eq_ok.mpr ⟨beq_iff_eq.mpr h.sourceDigest,
      require_bind_eq_ok.mpr ⟨h.digests, rfl⟩⟩⟩
  obtain ⟨claim, hdecoded⟩ := hdecoded
  refine ⟨claim, require_bind_eq_ok.mpr ⟨bne_iff_ne.mpr h.bound, ?_⟩⟩
  simp only [h.payload]
  refine require_bind_eq_ok.mpr ⟨beq_iff_eq.mpr h.schema, require_bind_eq_ok.mpr ⟨h.ended,
    require_bind_eq_ok.mpr ⟨?_, ?_⟩⟩⟩
  · rw [Bool.and_eq_true, beq_iff_eq, bne_iff_ne]
    exact ⟨h.quote, h.encoded⟩
  · simp only [h.archive]
    exact require_bind_eq_ok.mpr ⟨bne_iff_ne.mpr h.nonempty, hdecoded⟩

/-- Evidence that passes the checks of the Agent Packet adapter. -/
def AgentPacket.matching (packet : AgentPacket.Packet) (claim : GateRequest) : Evidence :=
  { sampleEvidence [] claim with capabilityID := packet.capabilityID }

/-- The work that the Agent Packet adapter commits to is that of its packet. -/
theorem AgentPacket.eq_of_uses {publishes : Bool} {work work' : SoftwareWork.Request}
    {claim claim' : GateRequest}
    (h : Body.Uses (Commits work' claim')
      (AgentPacket.executeClaimed S publishes packet work claim)) :
    work = work' := by
  -- the gate may answer with evidence that matches, and the runner is called next
  have hnext := h.2 (some (AgentPacket.matching packet claim))
  have hchecks : ((AgentPacket.matching packet claim).quoteCommitment == claim.quoteCommitment &&
      (AgentPacket.matching packet claim).escrowAddress == claim.escrowAddress &&
      (AgentPacket.matching packet claim).capabilityID == packet.capabilityID) = true := by
    simp only [AgentPacket.matching, sampleEvidence, BEq.rfl, Bool.and_self]
  change Body.Uses _ (Body.ensure _ _ >>= _) at hnext
  rw [hchecks] at hnext
  exact hnext.1

/-- A claimed Agent Packet has work for the runner if and only if two of its digests are. -/
theorem AgentPacket.runnable_execute_iff (hhash : r.library.sha256 = S.hash.sum) (publishes : Bool)
    {p : AgentPacket.Payload} {rest : Bytes} {work : SoftwareWork.Request} {claim : GateRequest}
    (hpayload : AgentPacket.payloadCodec.decodeFirst true packet.payload = some (p, rest))
    (hdecode : AgentPacket.decode S.unicode S.hash packet = .ok (work, claim))
    (hquote : quoteCommitmentPattern (goText packet.quoteCommitment) = true)
    (hlength : work.sourceArchive.length ≤ r.contract.limits.diskBytes.toNat) :
    Runnable r (AgentPacket.execute S publishes packet) ↔
      digestPattern p.executionID = true ∧ digestPattern p.inputDigest = true := by
  have hbody : AgentPacket.execute S publishes packet =
      (Body.result (.ok (work, claim)) >>= fun decoded =>
        AgentPacket.executeClaimed S publishes packet decoded.1 decoded.2) := by
    rw [AgentPacket.execute, hdecode]
  obtain ⟨p', rest', source, hdecoded, rfl⟩ := AgentPacket.decoded_of_decode hdecode
  obtain ⟨rfl, rfl⟩ := Prod.mk.inj (Option.some.inj (hpayload.symm.trans hdecoded.payload))
  constructor
  · intro h
    have haccepts : r.Accepts (p.work source) := by
      rw [hbody] at h
      rcases h with hunclaimed | ⟨work, claim', huses, haccepts⟩
      · exact hunclaimed.1.elim
      · obtain rfl := AgentPacket.eq_of_uses huses
        exact haccepts hlength
    have hpatterns := haccepts.wellFormed
    simp only [SoftwareWork.Request.wellFormed, Bool.and_eq_true] at hpatterns
    exact ⟨hpatterns.1.1.2, hpatterns.1.2⟩
  · rintro ⟨hexecution, hinput⟩
    rw [hbody]
    refine .inr
      ⟨_, claim, AgentPacket.executeClaimed_uses publishes packet, fun hlength => ⟨?_, ?_, hlength⟩⟩
    · rw [← hdecoded.quote, goText_stringBytes] at hquote
      have hsource := digestPattern_digest S.hash source
      rw [hdecoded.sourceDigest] at hsource
      simp only [SoftwareWork.Request.wellFormed, Bool.and_eq_true]
      exact ⟨⟨⟨hquote, hexecution⟩, hinput⟩, hsource⟩
    · exact (digestOf_eq_digest hhash source).trans hdecoded.sourceDigest

/-- **What is claimed, and what the runner accepts.**  A2A and MCP claim a purchase only for work
that the runner accepts.  An Agent Packet is claimed only for such work if and only if its
execution ID and its input digest are hexadecimal. -/
theorem claimed_work_is_runnable_iff (S : Setup) (r : Runner)
    (hhash : r.library.sha256 = S.hash.sum) :
    (∀ request, Runnable r (A2A.execute S request)) ∧
    (∀ input, Runnable r (MCP.call S input)) ∧
    (∀ publishes packet e, AgentPacket.decode S.unicode S.hash packet = .error e →
      Runnable r (AgentPacket.execute S publishes packet)) ∧
    ∀ publishes packet p rest work claim,
      AgentPacket.payloadCodec.decodeFirst true packet.payload = some (p, rest) →
      AgentPacket.decode S.unicode S.hash packet = .ok (work, claim) →
      quoteCommitmentPattern (goText packet.quoteCommitment) = true →
      work.sourceArchive.length ≤ r.contract.limits.diskBytes.toNat →
      (Runnable r (AgentPacket.execute S publishes packet) ↔
        digestPattern p.executionID = true ∧ digestPattern p.inputDigest = true) := by
  refine ⟨A2A.runnable_execute hhash, MCP.runnable_call hhash, ?_, ?_⟩
  · intro publishes packet e hdecode
    rw [AgentPacket.execute, hdecode]
    exact .inl trivial
  · intro publishes packet p rest work claim hpayload hdecode hquote hlength
    exact AgentPacket.runnable_execute_iff hhash publishes hpayload hdecode hquote hlength

end Accepts

/-! ## Samples -/

def sampleSetup : Setup := ⟨.plain, sampleHash, fun _ => none, false⟩

def sampleRunner : Runner :=
  { library := ⟨sampleHash.sum, fun _ => none, fun _ => none⟩
    executor := SoftwareWork.boundExecutor
    contract := SoftwareWork.frozenV1Contract
    maximum := 2 ^ 20 }

def sampleQuote : String := "tvm-cell-sha256:" ++ hexEncode sampleRaw

def sampleDigest : String := "sha256:" ++ hexEncode sampleRaw

/-- A payload with this execution ID. -/
def samplePayload (executionID : String) : AgentPacket.Payload where
  schema := AgentPacket.payloadSchema
  escrowAddress := "0:" ++ hexEncode sampleRaw
  quoteCommitment := sampleQuote
  executionID := executionID
  inputDigest := sampleDigest
  sourceDigest := sampleDigest
  sourceArchiveBase64 := "AQ=="

def samplePacket (executionID : String) : AgentPacket.Packet where
  quoteCommitment := stringBytes sampleQuote
  capabilityID := []
  payload := AgentPacket.payloadCodec.marshal (samplePayload executionID)

theorem decoded_samplePacket {executionID : String}
    (h : AgentPacket.validDigest .plain (stringBytes executionID) shaStart = true) :
    ∃ rest, AgentPacket.Decoded .plain sampleHash (samplePacket executionID)
      (samplePayload executionID) rest [1] := by
  obtain ⟨rest, hpayload, hrest⟩ := Codec.decodeFirst_of_unmarshal
    (AgentPacket.payloadCodec.unmarshal_marshal true (samplePayload executionID))
  have hquote : stringBytes sampleQuote ≠ [] := by decide +kernel
  have hdigest : AgentPacket.validDigest .plain (stringBytes sampleDigest) shaStart = true := by
    decide +kernel
  have hencoded : "AQ==" ≠ "" := by decide
  have harchive : AgentPacket.base64StrictDecode "AQ==".toList = some [1] := by decide +kernel
  refine ⟨rest, hquote, hpayload, rfl, hrest, rfl, hencoded, harchive, by decide, rfl, ?_⟩
  rw [Bool.and_eq_true, Bool.and_eq_true]
  exact ⟨⟨h, hdigest⟩, hdigest⟩

theorem claimed_work_is_runnable_sample :
    Runnable sampleRunner
      (MCP.call sampleSetup (MCP.newInput sampleHash sampleBasic sampleCell sampleSha [1])) :=
  (claimed_work_is_runnable_iff sampleSetup sampleRunner rfl).2.1 _

def sampleExecutionID : String := "sha256:" ++ String.ofList (List.replicate 64 'z')

/-- A packet whose execution ID is not hexadecimal is claimed, and the runner cannot accept it. -/
theorem packet_claimed_for_refused_work :
    ∃ (packet : AgentPacket.Packet) (work : SoftwareWork.Request) (claim : GateRequest),
      AgentPacket.decode .plain sampleHash packet = .ok (work, claim) ∧
      quoteCommitmentPattern (goText packet.quoteCommitment) = true ∧
      work.sourceArchive.length ≤ sampleRunner.contract.limits.diskBytes.toNat ∧
      ¬Runnable sampleRunner (AgentPacket.execute sampleSetup false packet) := by
  have hvalid : AgentPacket.validDigest .plain (stringBytes sampleExecutionID) shaStart = true := by
    decide +kernel
  obtain ⟨rest, hdecoded⟩ := decoded_samplePacket hvalid
  obtain ⟨claim, hdecode⟩ := hdecoded.decode
  have hquote :
      quoteCommitmentPattern (goText (samplePacket sampleExecutionID).quoteCommitment) = true := by
    rw [samplePacket, goText_stringBytes]
    decide +kernel
  have hlength : ((samplePayload sampleExecutionID).work [1]).sourceArchive.length ≤
      sampleRunner.contract.limits.diskBytes.toNat := by
    show 1 ≤ SoftwareWork.frozenV1Contract.limits.diskBytes.toNat
    decide
  refine ⟨samplePacket sampleExecutionID, _, claim, hdecode, hquote, hlength, ?_⟩
  intro hrunnable
  have hpattern :=
    ((AgentPacket.runnable_execute_iff (S := sampleSetup) rfl false hdecoded.payload hdecode
    hquote hlength).mp hrunnable).1
  have hnot : digestPattern sampleExecutionID = false := by decide +kernel
  exact absurd (hnot.symm.trans hpattern) Bool.false_ne_true

end TosAi.Transport
