/-
  What the transports promise a buyer.

  AGREEMENT: `mcpadapter` and `a2aadapter` accept the same purchases and the same evidence,
  except where an address writes its workchain another way than `0` and where an identifier
  of the evidence is long or has spaces around it.

  BUILDERS: what a builder makes is taken apart into what it was built from, unless the
  address is too long for the binding; the input digest commits to the whole purchase.

  CLAIMS: a purchase is claimed only for work that the runner accepts, except that
  `agentpacketadapter` does not look at the digits of two digests.
-/
import TosAi.Transport.Program
import TosAi.SoftwareWork.Lone

set_option autoImplicit false

namespace TosAi.Transport

open Foundation
open Foundation.Json (Bytes Codec Fields Value)

variable {U : Unicode} {H : Hash}

/-! ## Which purchases are built -/

variable {value s : Bytes}

theorem plain_not_other (hplain : PlainAddress value) : ¬OtherAddress value := by
  rintro ⟨workchain, hparse, hne, raw', -, -, hvalue'⟩
  obtain ⟨raw, -, -, hvalue⟩ := hplain
  have hcut := cutByte_colon (hparse.elim colon_notMem_of_parseInt32 colon_notMem_of_parseInt32)
    (hexBytes raw')
  rw [← hvalue', hvalue, cutByte_colon (by decide)] at hcut
  exact hne (Prod.mk.inj (Option.some.inj hcut)).1.symm

theorem prepareInput_eq_ok {escrow quote execution source : Bytes} {input : MCP.Input} :
    MCP.prepareInput U H escrow quote execution source = .ok input ↔
      (PlainAddress escrow ∧ IsDigest cellStart quote ∧ IsDigest shaStart execution ∧ source ≠ []) ∧
        MCP.newInput H escrow quote execution source = input := by
  rw [MCP.prepareInput, require_bind_eq_ok]
  simp only [MCP.cellDigest, MCP.shaDigest, MCP.validDigest, Bool.and_eq_true, rawAddress_iff,
    hexDigestValid_iff lower_cellStart, hexDigestValid_iff lower_shaStart, bne_iff_ne, and_assoc,
    pure, Except.pure, Except.ok.injEq]

theorem newTaskRequest_eq_ok {messageID contextID escrow quote execution source : Bytes}
    {request : A2A.SendMessageRequest} :
    A2A.newTaskRequest U H messageID contextID escrow quote execution source = .ok request ↔
      (messageID ≠ [] ∧ messageID.length ≤ 256 ∧ (PlainAddress escrow ∨ OtherAddress escrow) ∧
        IsDigest cellStart quote ∧ IsDigest shaStart execution ∧ source ≠ []) ∧
        ⟨some (A2A.newMessage messageID contextID (A2A.newBinding H escrow quote execution source)
          source)⟩ = request := by
  rw [A2A.newTaskRequest, require_bind_eq_ok]
  simp only [A2A.cellDigestValid, A2A.shaDigestValid, A2A.digestSuffixValid, Bool.and_eq_true,
    rawAddressValid_iff, hexDigestValid_iff lower_cellStart, hexDigestValid_iff lower_shaStart,
    bne_iff_ne, decide_eq_true_eq, and_assoc, pure, Except.pure, Except.ok.injEq]

/-! ## Which evidence is accepted -/

/-- What both transports ask of evidence, the address of the provider apart. -/
@[mk_iff]
structure Evidence.Common (v : Evidence) (r : GateRequest) : Prop where
  networkID : v.networkID ≠ []
  providerAgentID : IsDigest (stringBytes "agent_") v.providerAgentID
  capabilityID : IsDigest (stringBytes "cap_") v.capabilityID
  capabilityVersion : v.capabilityVersion ≠ []
  manifestDigest : IsDigest shaStart v.manifestDigest
  quoteCommitment : v.quoteCommitment = r.quoteCommitment
  escrowAddress : v.escrowAddress = r.escrowAddress
  escrowCodeHash : IsDigest cellStart v.escrowCodeHash
  registryCodeHash : IsDigest cellStart v.registryCodeHash
  escrowTransactionHash : IsDigest shaStart v.escrowTransactionHash
  agentTransactionHash : IsDigest shaStart v.agentTransactionHash
  capabilityTransactionHash : IsDigest shaStart v.capabilityTransactionHash
  escrowFinalizedCheckpoint : v.escrowFinalizedCheckpoint ≠ 0
  agentFinalizedCheckpoint : v.agentFinalizedCheckpoint ≠ 0
  capabilityFinalizedCheckpoint : v.capabilityFinalizedCheckpoint ≠ 0

/-- What `a2aadapter` alone asks of evidence. -/
@[mk_iff]
structure Evidence.Brief (v : Evidence) : Prop where
  networkID : v.networkID.length ≤ 64
  trimmed : isTrimmed v.networkID = true
  capabilityVersion : v.capabilityVersion.length ≤ 64

/-- An identity is a text of its own and the digits of a digest. -/
theorem identity_iff :
    (value.length == s.length + 64 && s.isPrefixOf value &&
        hexDigestValid U (shaStart ++ value.drop s.length) shaStart) = true ↔ IsDigest s value := by
  simp only [Bool.and_eq_true, beq_iff_eq, List.isPrefixOf_iff_prefix,
    hexDigestValid_iff lower_shaStart]
  constructor
  · rintro ⟨⟨-, digits, rfl⟩, raw, hraw, hne, hdigits⟩
    rw [List.drop_left] at hdigits
    exact ⟨raw, hraw, hne, congrArg _ (List.append_cancel_left hdigits)⟩
  · rintro ⟨raw, hraw, hne, rfl⟩
    refine ⟨⟨by rw [List.length_append, length_hexBytes, hraw], hexBytes raw, rfl⟩, raw,
      hraw, hne, ?_⟩
    rw [List.drop_left]

theorem agentIDValid_iff :
    A2A.agentIDValid U value = true ↔ IsDigest (stringBytes "agent_") value :=
  identity_iff (s := stringBytes "agent_")

theorem capabilityIDValid_iff :
    A2A.capabilityIDValid U value = true ↔ IsDigest (stringBytes "cap_") value :=
  identity_iff (s := stringBytes "cap_")

theorem agentID_iff :
    MCP.agentID U value = true ↔ IsDigest (stringBytes "agent_") value :=
  agentIDValid_iff (U := U)

theorem capabilityID_iff :
    MCP.capabilityID U value = true ↔ IsDigest (stringBytes "cap_") value :=
  capabilityIDValid_iff (U := U)

theorem validEvidence_iff {v : Evidence} {r : GateRequest} :
    MCP.validEvidence U v r = true ↔ v.Common r ∧ PlainAddress v.providerAddress := by
  have hpos {n : UInt64} : 0 < n ↔ n ≠ 0 := UInt64.pos_iff_ne_zero
  simp only [MCP.validEvidence, MCP.shaDigest, MCP.cellDigest, MCP.validDigest, Bool.and_eq_true,
    bne_iff_ne, beq_iff_eq, decide_eq_true_eq, rawAddress_iff, agentID_iff, capabilityID_iff, hpos,
    hexDigestValid_iff lower_shaStart, hexDigestValid_iff lower_cellStart, Evidence.common_iff]
  -- the same conditions in another order
  grind

theorem validateEvidence_iff {v : Evidence} {r : GateRequest} :
    A2A.validateEvidence U v r = .ok () ↔
      v.Common r ∧ v.Brief ∧ (PlainAddress v.providerAddress ∨ OtherAddress v.providerAddress) := by
  rw [A2A.validateEvidence, require_eq_ok_iff]
  simp only [A2A.shaDigestValid, A2A.cellDigestValid, A2A.digestSuffixValid, Bool.and_eq_true,
    bne_iff_ne, beq_iff_eq, decide_eq_true_eq, rawAddressValid_iff, agentIDValid_iff,
    capabilityIDValid_iff, hexDigestValid_iff lower_shaStart, hexDigestValid_iff lower_cellStart,
    Evidence.common_iff, Evidence.brief_iff]
  grind

/-! ## Agreement of the transports -/

/-- **Where the two transports admit the same purchases.** -/
theorem transports_admit_alike_iff (U : Unicode) (H : Hash) :
    (∀ escrow quote execution source messageID contextID : Bytes,
      source ≠ [] → messageID ≠ [] → messageID.length ≤ 256 →
      (((∃ input, MCP.prepareInput U H escrow quote execution source = .ok input) ↔
          ∃ request, A2A.newTaskRequest U H messageID contextID escrow quote execution source =
            .ok request) ↔
        ¬(OtherAddress escrow ∧ IsDigest cellStart quote ∧ IsDigest shaStart execution))) ∧
    ∀ (claim : GateRequest) (evidence : Evidence),
      ((MCP.validEvidence U evidence claim = true ↔
          A2A.validateEvidence U evidence claim = .ok ()) ↔
        (evidence.Common claim →
          (PlainAddress evidence.providerAddress → evidence.Brief) ∧
          (OtherAddress evidence.providerAddress → ¬evidence.Brief))) := by
  constructor
  · intro escrow quote execution source messageID contextID hsource hid hlength
    simp only [prepareInput_eq_ok, newTaskRequest_eq_ok, exists_and_left, exists_eq', and_true]
    constructor
    · rintro hsame ⟨hother, hquote, hexecution⟩
      have hplain := hsame.mpr ⟨hid, hlength, .inr hother, hquote, hexecution, hsource⟩
      exact plain_not_other hplain.1 hother
    · intro hnot
      constructor
      · rintro ⟨hplain, hquote, hexecution, -⟩
        exact ⟨hid, hlength, .inl hplain, hquote, hexecution, hsource⟩
      · rintro ⟨-, -, hplain | hother, hquote, hexecution, -⟩
        · exact ⟨hplain, hquote, hexecution, hsource⟩
        · exact absurd ⟨hother, hquote, hexecution⟩ hnot
  · intro claim evidence
    rw [validEvidence_iff, validateEvidence_iff]
    constructor
    · intro hsame hcommon
      constructor
      · intro hplain
        exact (hsame.mp ⟨hcommon, hplain⟩).2.1
      · intro hother hbrief
        exact plain_not_other (hsame.mpr ⟨hcommon, hbrief, .inr hother⟩).2 hother
    · intro hagree
      constructor
      · rintro ⟨hcommon, hplain⟩
        exact ⟨hcommon, (hagree hcommon).1 hplain, .inl hplain⟩
      · rintro ⟨hcommon, hbrief, hplain | hother⟩
        · exact ⟨hcommon, hplain⟩
        · exact absurd hbrief ((hagree hcommon).2 hother)

/-- 32 bytes that are not all zero. -/
def sampleRaw : Bytes := List.replicate 32 1

theorem isDigest_sample (start : Bytes) : IsDigest start (start ++ hexBytes sampleRaw) :=
  ⟨sampleRaw, by decide, by decide, rfl⟩

def sampleCell : Bytes := cellStart ++ hexBytes sampleRaw

def sampleSha : Bytes := shaStart ++ hexBytes sampleRaw

theorem isDigest_sampleCell : IsDigest cellStart sampleCell := isDigest_sample _

theorem isDigest_sampleSha : IsDigest shaStart sampleSha := isDigest_sample _

/-- An escrow in the basic workchain. -/
def sampleBasic : Bytes := stringBytes "0" ++ 0x3a :: hexBytes sampleRaw

theorem plainAddress_sampleBasic : PlainAddress sampleBasic :=
  ⟨sampleRaw, by decide, by decide, rfl⟩

theorem prepareInput_sample (H : Hash) :
    MCP.prepareInput .plain H sampleBasic sampleCell sampleSha [1] =
      .ok (MCP.newInput H sampleBasic sampleCell sampleSha [1]) :=
  prepareInput_eq_ok.mpr ⟨⟨plainAddress_sampleBasic, isDigest_sampleCell, isDigest_sampleSha,
    by decide⟩, rfl⟩

theorem newTaskRequest_sample (H : Hash) {escrow : Bytes}
    (h : PlainAddress escrow ∨ OtherAddress escrow) :
    ∃ request, A2A.newTaskRequest .plain H [1] [] escrow sampleCell sampleSha [1] = .ok request :=
  ⟨_, newTaskRequest_eq_ok.mpr ⟨⟨by decide, by decide, h, isDigest_sampleCell, isDigest_sampleSha,
    by decide⟩, rfl⟩⟩

def sampleHash : Hash := ⟨fun _ => sampleRaw, fun _ => by decide⟩

/-- Evidence for a claim, for a provider in the basic workchain. -/
def sampleEvidence (networkID : Bytes) (claim : GateRequest) : Evidence where
  networkID := networkID
  providerAgentID := stringBytes "agent_" ++ hexBytes sampleRaw
  capabilityID := stringBytes "cap_" ++ hexBytes sampleRaw
  capabilityVersion := stringBytes "1"
  manifestDigest := sampleSha
  quoteCommitment := claim.quoteCommitment
  escrowAddress := claim.escrowAddress
  providerAddress := sampleBasic
  escrowCodeHash := sampleCell
  registryCodeHash := sampleCell
  escrowTransactionHash := sampleSha
  agentTransactionHash := sampleSha
  capabilityTransactionHash := sampleSha
  escrowFinalizedCheckpoint := 1
  agentFinalizedCheckpoint := 1
  capabilityFinalizedCheckpoint := 1

theorem common_sampleEvidence {networkID : Bytes} (h : networkID ≠ []) (claim : GateRequest) :
    (sampleEvidence networkID claim).Common claim where
  networkID := h
  providerAgentID := isDigest_sample _
  capabilityID := isDigest_sample _
  capabilityVersion := (by decide : stringBytes "1" ≠ [])
  manifestDigest := isDigest_sample _
  quoteCommitment := rfl
  escrowAddress := rfl
  escrowCodeHash := isDigest_sample _
  registryCodeHash := isDigest_sample _
  escrowTransactionHash := isDigest_sample _
  agentTransactionHash := isDigest_sample _
  capabilityTransactionHash := isDigest_sample _
  escrowFinalizedCheckpoint := (by decide : (1 : UInt64) ≠ 0)
  agentFinalizedCheckpoint := (by decide : (1 : UInt64) ≠ 0)
  capabilityFinalizedCheckpoint := (by decide : (1 : UInt64) ≠ 0)

def sampleClaim : GateRequest := ⟨[], [], [], [], []⟩

/-- Both transports take a purchase in the basic workchain, and evidence for a short network. -/
theorem transports_admit_alike_sample :
    (∃ input, MCP.prepareInput .plain sampleHash sampleBasic sampleCell sampleSha [1] = .ok input) ∧
    (∃ request, A2A.newTaskRequest .plain sampleHash [1] [] sampleBasic sampleCell sampleSha [1] =
      .ok request) ∧
    MCP.validEvidence .plain (sampleEvidence [110] sampleClaim) sampleClaim = true ∧
    A2A.validateEvidence .plain (sampleEvidence [110] sampleClaim) sampleClaim = .ok () := by
  obtain ⟨hrequests, hevidence⟩ := transports_admit_alike_iff .plain sampleHash
  have hnot := plain_not_other plainAddress_sampleBasic
  have hsame := hrequests sampleBasic sampleCell sampleSha [1] [1] [] (by decide) (by decide)
    (by decide)
  have hvalid : MCP.validEvidence .plain (sampleEvidence [110] sampleClaim) sampleClaim = true :=
    validEvidence_iff.mpr ⟨common_sampleEvidence (by decide) _, plainAddress_sampleBasic⟩
  have hbrief : (sampleEvidence [110] sampleClaim).Brief := ⟨by decide, by decide, by decide⟩
  refine ⟨⟨_, prepareInput_sample _⟩, ?_, hvalid, ?_⟩
  · exact (hsame.mpr fun h => hnot h.1).mp ⟨_, prepareInput_sample _⟩
  · exact ((hevidence _ _).mpr fun _ => ⟨fun _ => hbrief, fun h => absurd h hnot⟩).mp hvalid

/-- An escrow in the masterchain. -/
def sampleEscrow : Bytes := stringBytes "-1" ++ 0x3a :: hexBytes sampleRaw

theorem otherAddress_sampleEscrow : OtherAddress sampleEscrow :=
  ⟨stringBytes "-1", .inr (by decide), by decide, sampleRaw, by decide, by decide, rfl⟩

/-- An escrow in the masterchain is taken by the one transport alone, and evidence with a long
network by the other alone. -/
theorem transports_disagree :
    (∃ escrow quote execution source messageID contextID : Bytes,
      (∃ request, A2A.newTaskRequest .plain sampleHash messageID contextID escrow quote execution
        source = .ok request) ∧
      ¬∃ input, MCP.prepareInput .plain sampleHash escrow quote execution source = .ok input) ∧
    ∃ (claim : GateRequest) (evidence : Evidence),
      MCP.validEvidence .plain evidence claim = true ∧
      A2A.validateEvidence .plain evidence claim ≠ .ok () := by
  constructor
  · refine ⟨sampleEscrow, sampleCell, sampleSha, [1], [1], [],
      newTaskRequest_sample sampleHash (.inr otherAddress_sampleEscrow), ?_⟩
    rintro ⟨input, hinput⟩
    exact plain_not_other (prepareInput_eq_ok.mp hinput).1.1 otherAddress_sampleEscrow
  · refine ⟨sampleClaim, sampleEvidence (List.replicate 65 110) sampleClaim,
      validEvidence_iff.mpr ⟨common_sampleEvidence (by decide) _, plainAddress_sampleBasic⟩, ?_⟩
    intro haccepted
    have hlength : (List.replicate 65 (110 : UInt8)).length ≤ 64 :=
      (validateEvidence_iff.mp haccepted).2.1.networkID
    simp at hlength

/-! ## Texts without escapes -/

/-- The byte stands for itself in a JSON string. -/
def Unescaped (b : UInt8) : Prop :=
  0x20 ≤ b.toNat ∧ b.toNat < 0x80 ∧ b ≠ 0x22 ∧ b ≠ 0x5c ∧ b ≠ 0x3c ∧ b ≠ 0x3e ∧ b ≠ 0x26

instance (b : UInt8) : Decidable (Unescaped b) := inferInstanceAs (Decidable (_ ∧ _))

theorem length_escapeChar_of_unescaped :
    ∀ b : UInt8, Unescaped b → (Json.escapeChar (Char.ofNat b.toNat)).length = 1 := by
  decide +kernel

theorem length_quote_of_unescaped (h : ∀ b ∈ s, Unescaped b) :
    (Json.quote (goText s)).length = s.length + 2 := by
  have hbody : (Json.escape (s.map fun b => Char.ofNat b.toNat)).length = s.length := by
    induction s with
    | nil => rfl
    | cons b s ih =>
      have hb := length_escapeChar_of_unescaped b (h b List.mem_cons_self)
      have hs := ih fun c hc => h c (List.mem_cons_of_mem _ hc)
      simp only [Json.escape, List.map_cons, List.flatMap_cons, List.length_append,
        List.length_cons] at hs ⊢
      omega
  rw [goText_of_isASCII fun b hb => (h b hb).2.1, Json.quote, asciiText, String.toList_ofList,
    List.length_cons, List.length_append, hbody]
  rfl

theorem unescaped_hexDigit : ∀ k < 16, Unescaped (Json.hexDigit k) := by decide

theorem unescaped_hexBytes (raw : Bytes) : ∀ b ∈ hexBytes raw, Unescaped b := by
  intro b hb
  obtain ⟨c, -, hc⟩ := List.mem_flatMap.mp hb
  have hlt := c.toNat_lt
  simp only [List.mem_cons, List.not_mem_nil, or_false] at hc
  rcases hc with rfl | rfl
  · exact unescaped_hexDigit _ (by omega)
  · exact unescaped_hexDigit _ (by omega)

theorem unescaped_of_parseInt32 {i : Int} (h : parseInt32 s = some i) :
    ∀ b ∈ s, Unescaped b := by
  have hdigit : ∀ b : UInt8, 48 ≤ b.toNat ∧ b.toNat ≤ 57 → Unescaped b := by decide +kernel
  intro b hb
  rcases bytes_of_parseInt32 h b hb with rfl | rfl | hb
  · decide
  · decide
  · exact hdigit b hb

theorem IsDigest.unescaped {start : Bytes} (h : IsDigest start value)
    (hstart : ∀ b ∈ start, Unescaped b) : ∀ b ∈ value, Unescaped b := by
  obtain ⟨raw, -, -, rfl⟩ := h
  intro b hb
  exact (List.mem_append.mp hb).elim (hstart b) (unescaped_hexBytes raw b)

theorem IsDigest.length {start : Bytes} (h : IsDigest start value) :
    value.length = start.length + 64 := by
  obtain ⟨raw, hraw, -, rfl⟩ := h
  rw [List.length_append, length_hexBytes, hraw]

theorem unescaped_shaStart : ∀ b ∈ shaStart, Unescaped b := by decide +kernel

theorem unescaped_cellStart : ∀ b ∈ cellStart, Unescaped b := by decide +kernel

theorem unescaped_address (h : PlainAddress value ∨ OtherAddress value) :
    ∀ b ∈ value, Unescaped b := by
  have hat {workchain : Bytes} (hworkchain : ∀ b ∈ workchain, Unescaped b)
      (haddress : AddressAt workchain value) : ∀ b ∈ value, Unescaped b := by
    obtain ⟨raw, -, -, rfl⟩ := haddress
    intro b hb
    rcases List.mem_append.mp hb with hb | hb
    · exact hworkchain b hb
    · rcases List.mem_cons.mp hb with rfl | hb
      · decide
      · exact unescaped_hexBytes raw b hb
  rcases h with hplain | ⟨workchain, hparse, -, haddress⟩
  · exact hat (by decide +kernel) hplain
  · exact hat (hparse.elim unescaped_of_parseInt32 unescaped_of_parseInt32) haddress

theorem isUTF8_of_unescaped (h : ∀ b ∈ s, Unescaped b) : stringBytes (goText s) = s :=
  IsASCII.isUTF8 fun b hb => (h b hb).2.1

/-! ## Digests that are made -/

theorem stringBytes_digest (H : Hash) (value : Bytes) :
    stringBytes (digest H value) = shaStart ++ hexBytes (H.sum value) := by
  rw [digest, stringBytes, String.toList_append, List.flatMap_append, ← stringBytes, ← stringBytes,
    stringBytes_hexEncode]
  rfl

theorem isDigest_digest (hnonzero : H.sum value ≠ List.replicate 32 0) :
    IsDigest shaStart (stringBytes (digest H value)) :=
  ⟨H.sum value, H.length_sum value, hnonzero, stringBytes_digest H value⟩

theorem digest_injective {a b : Bytes} (h : digest H a = digest H b) : H.sum a = H.sum b := by
  have hbytes := congrArg stringBytes h
  rw [stringBytes_digest, stringBytes_digest] at hbytes
  exact hexBytes_injective (List.append_cancel_left hbytes)

theorem length_quote_digest (H : Hash) (value : Bytes) :
    (Json.quote (digest H value)).length = 73 := by
  have hbytes := stringBytes_digest H value
  have hunescaped : ∀ b ∈ stringBytes (digest H value), Unescaped b := by
    rw [hbytes]
    intro b hb
    exact (List.mem_append.mp hb).elim (unescaped_shaStart b) (unescaped_hexBytes _ b)
  have hlength := length_quote_of_unescaped hunescaped
  have hstart : shaStart.length = 7 := by decide +kernel
  rw [goText_stringBytes, hbytes, List.length_append, length_hexBytes, H.length_sum,
    hstart] at hlength
  exact hlength

/-! ## What the builders make is taken apart -/

variable {binding : A2A.TaskBinding}

section Builders

variable {escrow quote execution source : Bytes}

/-- The text of a new binding, which is as long as its address and 419 bytes. -/
theorem length_newBinding (haddress : PlainAddress escrow ∨ OtherAddress escrow)
    (hquote : IsDigest cellStart quote) (hexecution : IsDigest shaStart execution) :
    (A2A.taskBindingCodec.enc (A2A.newBinding H escrow quote execution source)).print.length =
      escrow.length + 419 := by
  have hescrowText := length_quote_of_unescaped (unescaped_address haddress)
  have hquoteText := length_quote_of_unescaped (hquote.unescaped unescaped_cellStart)
  have hexecutionText := length_quote_of_unescaped (hexecution.unescaped unescaped_shaStart)
  have hprotocol : (Json.quote protocolName).length = 16 := by decide +kernel
  have hcell : cellStart.length = 16 := by decide +kernel
  have hsha : shaStart.length = 7 := by decide +kernel
  have hkeys : (Json.quote "protocol").length = 10 ∧ (Json.quote "escrow_address").length = 16 ∧
      (Json.quote "quote_commitment").length = 18 ∧ (Json.quote "execution_id").length = 14 ∧
      (Json.quote "input_digest").length = 14 ∧ (Json.quote "source_digest").length = 15 := by
    decide +kernel
  obtain ⟨hkey₁, hkey₂, hkey₃, hkey₄, hkey₅, hkey₆⟩ := hkeys
  simp only [A2A.taskBindingCodec, A2A.newBinding, A2A.inputDigest, Codec.struct, Codec.string,
    Fields.field, Fields.cons, Fields.nil, Value.print, Value.printMembers, Bool.false_eq_true,
    if_false, List.length_cons, List.length_append, List.length_nil, hkey₁, hkey₂, hkey₃,
    hkey₄, hkey₅, hkey₆, hprotocol, hescrowText, hquoteText, hexecutionText, length_quote_digest,
    hquote.length, hexecution.length, hcell, hsha]
  omega

theorem findParts_newMessage {messageID contextID : Bytes} (hsource : source ≠ []) :
    A2A.findParts (A2A.newMessage messageID contextID binding source).parts none none =
      .ok (some (some (A2A.taskBindingCodec.enc binding)), some source) := by
  have hmedia : A2A.sourceMediaType ≠ A2A.taskMediaType := by decide +kernel
  have hempty : source.isEmpty = false := by simpa using hsource
  simp [A2A.newMessage, A2A.findParts, A2A.Part.data, A2A.Part.raw, hmedia, hempty]

theorem decodeBinding_enc (hprotocol : binding.protocol = protocolName) :
    A2A.decodeBinding (some (A2A.taskBindingCodec.enc binding)) =
      if (A2A.taskBindingCodec.enc binding).print.length ≤ 4096 then .ok binding
      else .error (.text "invalid A2A task binding data") := by
  obtain ⟨rest, hfirst, hrest⟩ :=
    Codec.decodeFirst_of_unmarshal (A2A.taskBindingCodec.unmarshal_marshal true binding)
  simp only [A2A.decodeBinding]
  rw [← Codec.marshal, hfirst]
  simp only [hrest, hprotocol, BEq.rfl, Bool.and_self, if_true]

theorem matches_newBinding (hnonzero : ∀ data, H.sum data ≠ List.replicate 32 0)
    (haddress : PlainAddress escrow ∨ OtherAddress escrow) (hquote : IsDigest cellStart quote)
    (hexecution : IsDigest shaStart execution) :
    (A2A.newBinding H escrow quote execution source).matches U H source = true := by
  have hescrowBytes := isUTF8_of_unescaped (unescaped_address haddress)
  have hquoteBytes := isUTF8_of_unescaped (hquote.unescaped unescaped_cellStart)
  have hexecutionBytes := isUTF8_of_unescaped (hexecution.unescaped unescaped_shaStart)
  simp only [A2A.TaskBinding.matches, A2A.newBinding, A2A.shaDigestValid, A2A.cellDigestValid,
    A2A.digestSuffixValid, Bool.and_eq_true, beq_iff_eq, rawAddressValid_iff,
    hexDigestValid_iff lower_shaStart, hexDigestValid_iff lower_cellStart, hescrowBytes,
    hquoteBytes, hexecutionBytes]
  exact ⟨⟨⟨⟨⟨⟨haddress, hquote⟩, hexecution⟩, isDigest_digest (hnonzero _)⟩,
    isDigest_digest (hnonzero _)⟩, trivial⟩, rfl⟩

theorem decodeRequest_new {messageID : Bytes} (contextID : Bytes) (hid : messageID ≠ [])
    (hidLength : messageID.length ≤ 256) (hsource : source ≠ [])
    (hnonzero : ∀ data, H.sum data ≠ List.replicate 32 0)
    (haddress : PlainAddress escrow ∨ OtherAddress escrow) (hquote : IsDigest cellStart quote)
    (hexecution : IsDigest shaStart execution) :
    let binding := A2A.newBinding H escrow quote execution source
    let message := A2A.newMessage messageID contextID binding source
    A2A.decodeRequest U H (some ⟨some message⟩) =
      if escrow.length ≤ 3677 then .ok (binding.work source, binding.claim, message)
      else .error (.text "invalid A2A task binding data") := by
  intro binding message
  have henveloped : message.enveloped = true := by
    simp [A2A.Message.enveloped, message, A2A.newMessage, hid, hidLength]
  have hlength : (A2A.taskBindingCodec.enc binding).print.length ≤ 4096 ↔ escrow.length ≤ 3677 := by
    rw [length_newBinding haddress hquote hexecution]
    omega
  have hmatches : binding.matches U H source = true :=
    matches_newBinding hnonzero haddress hquote hexecution
  simp only [A2A.decodeRequest, Option.bind_some, A2A.decodeMessage, henveloped]
  rw [findParts_newMessage hsource]
  show (do
    let b ← A2A.decodeBinding (some (A2A.taskBindingCodec.enc binding))
    require (b.matches U H source) "A2A task bytes do not match their commitments"
    return (b.work source, b.claim, message)) = _
  rw [decodeBinding_enc rfl]
  by_cases hshort : escrow.length ≤ 3677
  · rw [if_pos (hlength.mpr hshort), if_pos hshort]
    show (do
      require (binding.matches U H source)
        (Err.text "A2A task bytes do not match their commitments")
      return (binding.work source, binding.claim, message)) = _
    rw [hmatches]
    rfl
  · rw [if_neg (fun h => hshort (hlength.mp h)), if_neg hshort]
    rfl

theorem decodeInput_new (hnonzero : ∀ data, H.sum data ≠ List.replicate 32 0)
    (haddress : PlainAddress escrow) (hquote : IsDigest cellStart quote)
    (hexecution : IsDigest shaStart execution) (hsource : source ≠ []) :
    let input := MCP.newInput H escrow quote execution source
    MCP.decodeInput U H input = .ok (input.work source, input.claim) := by
  intro input
  have hdecode : base64StdDecode (goText input.sourceArchiveBase64).toList = some source := by
    show base64StdDecode (goText (MCP.base64Text source)).toList = some source
    rw [MCP.base64Text, goText_stringBytes, String.toList_ofList, base64StdDecode_encode]
  have hmatches : input.matches U H source = true := by
    simp only [MCP.Input.matches, input, MCP.newInput, MCP.shaDigest, MCP.cellDigest,
      MCP.validDigest, Bool.and_eq_true, beq_iff_eq, bne_iff_ne, rawAddress_iff,
      hexDigestValid_iff lower_shaStart, hexDigestValid_iff lower_cellStart]
    exact ⟨⟨⟨⟨⟨⟨⟨⟨trivial, hsource⟩, haddress⟩, hquote⟩, hexecution⟩, isDigest_digest (hnonzero _)⟩,
      isDigest_digest (hnonzero _)⟩, trivial⟩, rfl⟩
  simp only [MCP.decodeInput, hdecode, hmatches]
  rfl

end Builders

/-! ## What an input digest commits to -/

/-- The bytes that the input digest of a claim is the digest of. -/
def GateRequest.encoded (domain : String) (c : GateRequest) : Bytes :=
  Commitment.encoded domain ⟨protocolName, goText c.escrowAddress, goText c.quoteCommitment,
    goText c.executionID, goText c.sourceDigest⟩

/-- A claim whose input digest is that of its own fields, which are texts. -/
structure Committed (H : Hash) (domain : String) (c : GateRequest) : Prop where
  inputDigest : c.inputDigest = stringBytes (digest H (c.encoded domain))
  escrowAddress : IsUTF8 c.escrowAddress
  quoteCommitment : IsUTF8 c.quoteCommitment
  executionID : IsUTF8 c.executionID
  sourceDigest : IsUTF8 c.sourceDigest

/-- The part of a claim that the buyer chose. -/
def GateRequest.purchase (c : GateRequest) : Bytes × Bytes × Bytes × Bytes :=
  (c.escrowAddress, c.quoteCommitment, c.executionID, c.sourceDigest)

variable {work : SoftwareWork.Request} {c c' : GateRequest}

theorem encoded_eq_of_inputDigest {domain domain' : String} (hc : Committed H domain c)
    (hc' : Committed H domain' c') (hsame : c.inputDigest = c'.inputDigest)
    (hseparates : H.Separates (c.encoded domain) (c'.encoded domain')) :
    c.encoded domain = c'.encoded domain' := by
  rw [hc.inputDigest, hc'.inputDigest] at hsame
  exact hseparates (digest_injective (stringBytes_injective hsame))

/-- **The input digest determines the purchase.** -/
theorem purchase_eq_of_inputDigest {domain : String} (hc : Committed H domain c)
    (hc' : Committed H domain c') (hsame : c.inputDigest = c'.inputDigest)
    (hseparates : H.Separates (c.encoded domain) (c'.encoded domain)) :
    c.purchase = c'.purchase := by
  have hencoded := encoded_eq_of_inputDigest hc hc' hsame hseparates
  have hmarshal := (List.cons.inj (List.append_cancel_left hencoded)).2
  have hcommitment := commitmentCodec.marshal_injective hmarshal
  simp only [Commitment.mk.injEq, true_and] at hcommitment
  have hbytes {a b : Bytes} (ha : IsUTF8 a) (hb : IsUTF8 b) (h : goText a = goText b) : a = b := by
    rw [← ha, h, hb]
  simp only [GateRequest.purchase, Prod.mk.injEq]
  exact ⟨hbytes hc.escrowAddress hc'.escrowAddress hcommitment.1,
    hbytes hc.quoteCommitment hc'.quoteCommitment hcommitment.2.1,
    hbytes hc.executionID hc'.executionID hcommitment.2.2.1,
    hbytes hc.sourceDigest hc'.sourceDigest hcommitment.2.2.2⟩

theorem inputDigest_ne_of_domain (hc : Committed H A2A.inputDomain c)
    (hc' : Committed H MCP.inputDomain c')
    (hseparates : H.Separates (c.encoded A2A.inputDomain) (c'.encoded MCP.inputDomain)) :
    c.inputDigest ≠ c'.inputDigest := by
  intro hsame
  have hencoded := encoded_eq_of_inputDigest hc hc' hsame hseparates
  have hlength : (stringBytes A2A.inputDomain).length = (stringBytes MCP.inputDomain).length := by
    decide +kernel
  have hdomain : stringBytes A2A.inputDomain = stringBytes MCP.inputDomain :=
    (List.append_inj hencoded hlength).1
  exact absurd hdomain (by decide +kernel)

/-! ## What the decoders accept -/

theorem decodeBinding_eq_ok {data : Option Value}
    (h : A2A.decodeBinding data = .ok binding) : binding.protocol = protocolName := by
  unfold A2A.decodeBinding at h
  split at h
  · cases h
  · split at h
    · split at h
      · cases h
      · split at h
        · next hchecks =>
            obtain rfl := Except.ok.inj h
            simp only [Bool.and_eq_true, beq_iff_eq] at hchecks
            exact hchecks.2
        · cases h
    · cases h

variable {claim : GateRequest}

/-- **What `decodeRequest` returns is the work and the claim of a binding that matches its
source.** -/
theorem decodeRequest_eq_ok {request : Option A2A.SendMessageRequest}
    {message : A2A.Message} (h : A2A.decodeRequest U H request = .ok (work, claim, message)) :
    ∃ (binding : A2A.TaskBinding) (source : Bytes), binding.protocol = protocolName ∧
      binding.matches U H source = true ∧ work = binding.work source ∧ claim = binding.claim := by
  unfold A2A.decodeRequest at h
  split at h
  · cases h
  obtain ⟨-, h⟩ := require_bind_eq_ok.mp h
  obtain ⟨parts, -, h⟩ := bind_eq_ok h
  split at h
  · next data source =>
      obtain ⟨binding, hbinding, h⟩ := bind_eq_ok h
      obtain ⟨hmatches, h⟩ := require_bind_eq_ok.mp h
      obtain ⟨rfl, rfl, -⟩ : binding.work source = work ∧ binding.claim = claim ∧ _ := by
        simpa using Except.ok.inj h
      exact ⟨binding, source, decodeBinding_eq_ok hbinding, hmatches, rfl, rfl⟩
  · cases h

theorem decodeInput_eq_ok {input : MCP.Input} (h : MCP.decodeInput U H input = .ok (work, claim)) :
    ∃ source : Bytes, input.matches U H source = true ∧ work = input.work source ∧
      claim = input.claim := by
  unfold MCP.decodeInput at h
  split at h
  · cases h
  · next source _ =>
      obtain ⟨hmatches, h⟩ := require_bind_eq_ok.mp h
      obtain ⟨rfl, rfl⟩ := Prod.mk.inj (Except.ok.inj h)
      exact ⟨source, hmatches, rfl, rfl⟩

theorem committed_of_decodeRequest {request : Option A2A.SendMessageRequest}
    {message : A2A.Message} (h : A2A.decodeRequest U H request = .ok (work, claim, message)) :
    Committed H A2A.inputDomain claim := by
  obtain ⟨binding, source, hprotocol, hmatches, -, rfl⟩ := decodeRequest_eq_ok h
  simp only [A2A.TaskBinding.matches, Bool.and_eq_true, beq_iff_eq] at hmatches
  refine ⟨?_, isUTF8_stringBytes _, isUTF8_stringBytes _, isUTF8_stringBytes _,
    isUTF8_stringBytes _⟩
  simp only [A2A.TaskBinding.claim, GateRequest.encoded, goText_stringBytes]
  rw [← hmatches.2, A2A.inputDigest, A2A.TaskBinding.commitment, hprotocol]

theorem committed_of_decodeInput {input : MCP.Input}
    (h : MCP.decodeInput U H input = .ok (work, claim)) :
    Committed H MCP.inputDomain claim := by
  obtain ⟨source, hmatches, -, rfl⟩ := decodeInput_eq_ok h
  simp only [MCP.Input.matches, MCP.shaDigest, MCP.cellDigest, MCP.validDigest, Bool.and_eq_true,
    beq_iff_eq, bne_iff_ne, rawAddress_iff, hexDigestValid_iff lower_shaStart,
    hexDigestValid_iff lower_cellStart] at hmatches
  obtain ⟨⟨⟨⟨⟨⟨⟨⟨-, -⟩, haddress⟩, hquote⟩, hexecution⟩, -⟩, hsource⟩, -⟩, hinput⟩ := hmatches
  exact ⟨hinput.symm, isUTF8_of_unescaped (unescaped_address (.inl haddress)),
    isUTF8_of_unescaped (hquote.unescaped unescaped_cellStart),
    isUTF8_of_unescaped (hexecution.unescaped unescaped_shaStart),
    isUTF8_of_unescaped (hsource.unescaped unescaped_shaStart)⟩

/-- The work and the claim are those of these arguments. -/
structure Faithful (escrow quote execution source : Bytes) (work : SoftwareWork.Request)
    (claim : GateRequest) : Prop where
  escrowAddress : claim.escrowAddress = escrow
  quoteCommitment : claim.quoteCommitment = quote
  executionID : claim.executionID = execution
  workQuote : stringBytes work.quoteCommitment = quote
  workExecution : stringBytes work.executionID = execution
  sourceArchive : work.sourceArchive = source

/-- **Builders and decoders.**  What `PrepareInput` makes is taken apart into what it was made of,
and so is what `NewTaskRequest` makes, if and only if the address is not too long for the binding.
An input digest determines the purchase and the transport. -/
theorem builders_agree_with_decoders_iff (U : Unicode) (H : Hash)
    (hnonzero : ∀ data, H.sum data ≠ List.replicate 32 0) :
    (∀ (messageID contextID escrow quote execution source : Bytes)
        (request : A2A.SendMessageRequest),
      A2A.newTaskRequest U H messageID contextID escrow quote execution source = .ok request →
      ((∃ work claim message, A2A.decodeRequest U H (some request) = .ok (work, claim, message) ∧
          Faithful escrow quote execution source work claim) ↔ escrow.length ≤ 3677)) ∧
    (∀ (escrow quote execution source : Bytes) (input : MCP.Input),
      MCP.prepareInput U H escrow quote execution source = .ok input →
      ∃ work claim, MCP.decodeInput U H input = .ok (work, claim) ∧
        Faithful escrow quote execution source work claim) ∧
    (∀ request work claim message request' work' claim' message',
      A2A.decodeRequest U H request = .ok (work, claim, message) →
      A2A.decodeRequest U H request' = .ok (work', claim', message') →
      H.Separates (claim.encoded A2A.inputDomain) (claim'.encoded A2A.inputDomain) →
      claim.inputDigest = claim'.inputDigest → claim.purchase = claim'.purchase) ∧
    (∀ input work claim input' work' claim', MCP.decodeInput U H input = .ok (work, claim) →
      MCP.decodeInput U H input' = .ok (work', claim') →
      H.Separates (claim.encoded MCP.inputDomain) (claim'.encoded MCP.inputDomain) →
      claim.inputDigest = claim'.inputDigest → claim.purchase = claim'.purchase) ∧
    ∀ request work claim message input work' claim',
      A2A.decodeRequest U H request = .ok (work, claim, message) →
      MCP.decodeInput U H input = .ok (work', claim') →
      H.Separates (claim.encoded A2A.inputDomain) (claim'.encoded MCP.inputDomain) →
      claim.inputDigest ≠ claim'.inputDigest := by
  refine ⟨?_, ?_, ?_, ?_, ?_⟩
  · intro messageID contextID escrow quote execution source request hrequest
    obtain ⟨⟨hid, hidLength, haddress, hquote, hexecution, hsource⟩, rfl⟩ :=
      newTaskRequest_eq_ok.mp hrequest
    have hdecode := decodeRequest_new (U := U) contextID hid hidLength hsource hnonzero
      haddress hquote hexecution
    have hquoteBytes := isUTF8_of_unescaped (hquote.unescaped unescaped_cellStart)
    have hexecutionBytes := isUTF8_of_unescaped (hexecution.unescaped unescaped_shaStart)
    constructor
    · rintro ⟨work, claim, message, hok, -⟩
      by_contra hlong
      simp only [hdecode, if_neg hlong] at hok
      cases hok
    · intro hshort
      refine ⟨_, _, _, hdecode.trans (if_pos hshort), ?_⟩
      exact ⟨isUTF8_of_unescaped (unescaped_address haddress), hquoteBytes, hexecutionBytes,
        hquoteBytes, hexecutionBytes, rfl⟩
  · intro escrow quote execution source input hinput
    obtain ⟨⟨haddress, hquote, hexecution, hsource⟩, rfl⟩ := prepareInput_eq_ok.mp hinput
    refine ⟨_, _, decodeInput_new hnonzero haddress hquote hexecution hsource, rfl, rfl, rfl,
      ?_, ?_, rfl⟩
    · exact isUTF8_of_unescaped (hquote.unescaped unescaped_cellStart)
    · exact isUTF8_of_unescaped (hexecution.unescaped unescaped_shaStart)
  · intro request work claim message request' work' claim' message' h h' hseparates hsame
    exact purchase_eq_of_inputDigest (committed_of_decodeRequest h) (committed_of_decodeRequest h')
      hsame hseparates
  · intro input work claim input' work' claim' h h' hseparates hsame
    exact purchase_eq_of_inputDigest (committed_of_decodeInput h)
      (committed_of_decodeInput h') hsame hseparates
  · intro request work claim message input work' claim' h h' hseparates
    exact inputDigest_ne_of_domain (committed_of_decodeRequest h) (committed_of_decodeInput h')
      hseparates

theorem sampleHash_nonzero (data : Bytes) : sampleHash.sum data ≠ List.replicate 32 0 := by
  show sampleRaw ≠ List.replicate 32 0
  decide

/-- A hash that tells the two domains apart, by the byte in which they differ first. -/
def splittingHash : Hash := ⟨fun data => List.replicate 31 1 ++ [data.getD 12 0], fun _ => rfl⟩

theorem splittingHash_nonzero (data : Bytes) :
    splittingHash.sum data ≠ List.replicate 32 0 := by
  intro h
  exact absurd (List.cons.inj h).1 (by decide)

theorem splittingHash_separates (c c' : GateRequest) :
    splittingHash.Separates (c.encoded A2A.inputDomain) (c'.encoded MCP.inputDomain) := by
  intro hsame
  have hbyte := (List.cons.inj (List.append_cancel_left hsame)).1
  simp only [GateRequest.encoded, Commitment.encoded] at hbyte
  rw [List.getD_append _ _ _ _ (by decide +kernel), List.getD_append _ _ _ _ (by decide +kernel)]
    at hbyte
  exact absurd hbyte (by decide +kernel)

/-- One purchase is built and taken apart by each transport, and the input digests differ. -/
theorem builders_agree_with_decoders_sample :
    ∃ request work claim message input work' claim',
      A2A.newTaskRequest .plain splittingHash [1] [] sampleBasic sampleCell sampleSha [1] =
        .ok request ∧
      A2A.decodeRequest .plain splittingHash (some request) = .ok (work, claim, message) ∧
      Faithful sampleBasic sampleCell sampleSha [1] work claim ∧
      MCP.prepareInput .plain splittingHash sampleBasic sampleCell sampleSha [1] = .ok input ∧
      MCP.decodeInput .plain splittingHash input = .ok (work', claim') ∧
      Faithful sampleBasic sampleCell sampleSha [1] work' claim' ∧
      claim.inputDigest ≠ claim'.inputDigest := by
  obtain ⟨ha2a, hmcp, -, -, hdiffer⟩ :=
    builders_agree_with_decoders_iff .plain splittingHash splittingHash_nonzero
  have hinput := prepareInput_sample splittingHash
  obtain ⟨request, hrequest⟩ := newTaskRequest_sample splittingHash (.inl plainAddress_sampleBasic)
  obtain ⟨work, claim, message, hdecoded, hfaithful⟩ :=
    (ha2a _ _ _ _ _ _ _ hrequest).mpr (by decide +kernel)
  obtain ⟨work', claim', hdecoded', hfaithful'⟩ := hmcp _ _ _ _ _ hinput
  exact ⟨request, work, claim, message, _, work', claim', hrequest, hdecoded, hfaithful, hinput,
    hdecoded', hfaithful', hdiffer _ _ _ _ _ _ _ hdecoded hdecoded' (splittingHash_separates _ _)⟩

/-- An address with 4000 zeros before the colon. -/
def sampleLongEscrow : Bytes := List.replicate 4000 48 ++ 0x3a :: hexBytes sampleRaw

theorem decimalValue_zeros (k : Nat) : decimalValue (List.replicate k 48) = some 0 := by
  unfold decimalValue
  induction k with
  | zero => rfl
  | succ k ih =>
    rw [List.replicate_succ, List.foldlM_cons]
    exact ih

theorem parseInt32_zeros (k : Nat) : parseInt32 (List.replicate (k + 1) 48) = some 0 := by
  have hsigned :
      parseInt32 (List.replicate (k + 1) 48) = signedValue false (List.replicate (k + 1) 48) := by
    rw [List.replicate_succ]
    rfl
  rw [hsigned, signedValue, decimalValue_zeros,
    if_neg (by rw [List.replicate_succ]; exact List.cons_ne_nil _ _)]
  rfl

theorem otherAddress_sampleLongEscrow : OtherAddress sampleLongEscrow := by
  refine ⟨List.replicate 4000 48, .inl (parseInt32_zeros 3999), ?_,
    sampleRaw, by decide, by decide, rfl⟩
  intro h
  have hlength := congrArg List.length h
  rw [List.length_replicate] at hlength
  exact absurd hlength (by decide)

/-- A request with such an address is built and not accepted. -/
theorem long_address_not_decoded :
    ∃ (messageID contextID escrow quote execution source : Bytes)
      (request : A2A.SendMessageRequest),
      A2A.newTaskRequest .plain sampleHash messageID contextID escrow quote execution source =
        .ok request ∧
      ∀ decoded, A2A.decodeRequest .plain sampleHash (some request) ≠ .ok decoded := by
  have hlong : ¬sampleLongEscrow.length ≤ 3677 := by
    rw [sampleLongEscrow, List.length_append, List.length_replicate]
    omega
  obtain ⟨request, hrequest⟩ :=
    newTaskRequest_sample sampleHash (.inr otherAddress_sampleLongEscrow)
  refine ⟨[1], [], sampleLongEscrow, sampleCell, sampleSha, [1], request, hrequest, ?_⟩
  intro decoded hok
  rw [← (newTaskRequest_eq_ok.mp hrequest).2] at hok
  rw [decodeRequest_new [] (by decide) (by decide) (by decide) sampleHash_nonzero
    (.inr otherAddress_sampleLongEscrow) isDigest_sampleCell isDigest_sampleSha,
    if_neg hlong] at hok
  cases hok

end TosAi.Transport
