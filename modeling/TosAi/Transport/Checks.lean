/-
  What the adapters check of digests, addresses and evidence.

  `a2aadapter` and `mcpadapter` have the same check of a digest, which accepts a text and
  the 64 digits of 32 bytes that are not all zero (`hexDigestValid_iff`).  They differ in
  the addresses they accept: `mcpadapter` wants the workchain written `0`, `a2aadapter`
  any way to write 0 or -1.  `agentpacketadapter` does not look at the digits.
-/
import TosAi.Foundation.Checks
import TosAi.Foundation.GoStrings

set_option autoImplicit false

namespace TosAi.Transport

open Foundation
open Foundation.Json (Bytes)

/-- An error and its text. -/
inductive Err where
  | text (message : String)
  deriving DecidableEq, Repr

/-- `errors.New`. -/
instance : Coe String Err := ⟨.text⟩

/-- `executiongate.Request`. -/
structure GateRequest where
  escrowAddress : Bytes
  quoteCommitment : Bytes
  executionID : Bytes
  inputDigest : Bytes
  sourceDigest : Bytes
  deriving DecidableEq, Repr

/-- `executiongate.Evidence`. -/
structure Evidence where
  networkID : Bytes
  providerAgentID : Bytes
  capabilityID : Bytes
  capabilityVersion : Bytes
  manifestDigest : Bytes
  quoteCommitment : Bytes
  escrowAddress : Bytes
  providerAddress : Bytes
  escrowCodeHash : Bytes
  registryCodeHash : Bytes
  escrowTransactionHash : Bytes
  agentTransactionHash : Bytes
  capabilityTransactionHash : Bytes
  escrowFinalizedCheckpoint : UInt64
  agentFinalizedCheckpoint : UInt64
  capabilityFinalizedCheckpoint : UInt64
  deriving DecidableEq, Repr

/-! ## Digests -/

/-- The bytes `sha256:`. -/
def shaStart : Bytes := stringBytes "sha256:"

/-- The bytes `tvm-cell-sha256:`. -/
def cellStart : Bytes := stringBytes "tvm-cell-sha256:"

/-- The hexadecimal digits of 32 bytes that are not all zero. -/
def nonzeroHex (digits : Bytes) : Bool :=
  match hexDecode digits with
  | none => false
  | some raw => raw != List.replicate 32 0

section Digests

variable (U : Unicode)

/-- `validDigest` of `mcpadapter` and `digestSuffixValid` of `a2aadapter`. -/
def hexDigestValid (value start : Bytes) : Bool :=
  value.length == start.length + 64 && start.isPrefixOf value && value == U.toLower value &&
    nonzeroHex (value.drop start.length)

namespace A2A

def digestSuffixValid (value start : Bytes) : Bool := hexDigestValid U value start

def shaDigestValid (value : Bytes) : Bool := digestSuffixValid U value shaStart

def cellDigestValid (value : Bytes) : Bool := digestSuffixValid U value cellStart

def agentIDValid (value : Bytes) : Bool :=
  value.length == 70 && (stringBytes "agent_").isPrefixOf value &&
    digestSuffixValid U (shaStart ++ value.drop 6) shaStart

def capabilityIDValid (value : Bytes) : Bool :=
  value.length == 68 && (stringBytes "cap_").isPrefixOf value &&
    digestSuffixValid U (shaStart ++ value.drop 4) shaStart

def rawAddressValid (value : Bytes) : Bool :=
  match cutByte 0x3a value with
  | none => false
  | some (workchain, account) =>
    (parseInt32 workchain == some 0 || parseInt32 workchain == some (-1)) &&
      account.length == 64 && account == U.toLower account && nonzeroHex account

/-- `validateEvidence`. -/
def validateEvidence (value : Evidence) (request : GateRequest) : Except Err Unit :=
  require (value.networkID != [] && decide (value.networkID.length ≤ 64) &&
      isTrimmed value.networkID && agentIDValid U value.providerAgentID &&
      capabilityIDValid U value.capabilityID && value.capabilityVersion != [] &&
      decide (value.capabilityVersion.length ≤ 64) && shaDigestValid U value.manifestDigest &&
      value.quoteCommitment == request.quoteCommitment &&
      value.escrowAddress == request.escrowAddress && rawAddressValid U value.providerAddress &&
      cellDigestValid U value.escrowCodeHash && cellDigestValid U value.registryCodeHash &&
      shaDigestValid U value.escrowTransactionHash && shaDigestValid U value.agentTransactionHash &&
      shaDigestValid U value.capabilityTransactionHash && value.escrowFinalizedCheckpoint != 0 &&
      value.agentFinalizedCheckpoint != 0 && value.capabilityFinalizedCheckpoint != 0)
    "invalid finalized TOS Service Protocol execution evidence"

end A2A

namespace MCP

def validDigest (v p : Bytes) : Bool := hexDigestValid U v p

def shaDigest (v : Bytes) : Bool := validDigest U v shaStart

def cellDigest (v : Bytes) : Bool := validDigest U v cellStart

def rawAddress (v : Bytes) : Bool :=
  match cutByte 0x3a v with
  | none => false
  | some (wc, id) =>
    wc == stringBytes "0" && id.length == 64 && validDigest U (shaStart ++ id) shaStart

def agentID (v : Bytes) : Bool :=
  v.length == 70 && (stringBytes "agent_").isPrefixOf v && shaDigest U (shaStart ++ v.drop 6)

def capabilityID (v : Bytes) : Bool :=
  v.length == 68 && (stringBytes "cap_").isPrefixOf v && shaDigest U (shaStart ++ v.drop 4)

def validEvidence (v : Evidence) (r : GateRequest) : Bool :=
  v.networkID != [] && agentID U v.providerAgentID && capabilityID U v.capabilityID &&
    v.capabilityVersion != [] && shaDigest U v.manifestDigest &&
    v.quoteCommitment == r.quoteCommitment && v.escrowAddress == r.escrowAddress &&
    rawAddress U v.providerAddress && decide (0 < v.escrowFinalizedCheckpoint) &&
    cellDigest U v.escrowCodeHash && cellDigest U v.registryCodeHash &&
    shaDigest U v.escrowTransactionHash && shaDigest U v.agentTransactionHash &&
    shaDigest U v.capabilityTransactionHash && decide (0 < v.agentFinalizedCheckpoint) &&
    decide (0 < v.capabilityFinalizedCheckpoint)

end MCP

namespace AgentPacket

def validDigest (v start : Bytes) : Bool :=
  v.length == start.length + 64 && start.isPrefixOf v && v == U.toLower v

end AgentPacket

end Digests

/-! ## What is accepted -/

/-- A text and the digits of 32 bytes that are not all zero. -/
def IsDigest (start value : Bytes) : Prop :=
  ∃ raw : Bytes, raw.length = 32 ∧ raw ≠ List.replicate 32 0 ∧ value = start ++ hexBytes raw

/-- A text of small ASCII letters. -/
def Lower (start : Bytes) : Prop := IsASCII start ∧ start.map lowerByte = start

instance (start : Bytes) : Decidable (Lower start) := inferInstanceAs (Decidable (_ ∧ _))

theorem lower_shaStart : Lower shaStart := by decide +kernel

theorem lower_cellStart : Lower cellStart := by decide +kernel

variable {U : Unicode} {value start : Bytes}

theorem nonzeroHex_eq_true {digits : Bytes} (hlower : digits.map lowerByte = digits)
    (hlength : digits.length = 64) :
    nonzeroHex digits = true ↔
      ∃ raw : Bytes, raw.length = 32 ∧ raw ≠ List.replicate 32 0 ∧ digits = hexBytes raw := by
  unfold nonzeroHex
  cases hdecode : hexDecode digits with
  | none =>
    simp only [Bool.false_eq_true, false_iff, not_exists, not_and]
    rintro raw - - rfl
    rw [hexDecode_hexBytes] at hdecode
    cases hdecode
  | some raw =>
    have hdigits : digits = hexBytes raw := hexDecode_eq_some.mp ⟨hlower, hdecode⟩
    have hraw : raw.length = 32 := by
      rw [hdigits, length_hexBytes] at hlength
      omega
    simp only [bne_iff_ne]
    constructor
    · exact fun hne => ⟨raw, hraw, hne, hdigits⟩
    · rintro ⟨raw', -, hne, hdigits'⟩
      rw [hdigits] at hdigits'
      rwa [hexBytes_injective hdigits']

theorem isASCII_of_nonzeroHex {digits : Bytes} (h : nonzeroHex digits = true) : IsASCII digits := by
  unfold nonzeroHex at h
  cases hdecode : hexDecode digits with
  | none => simp [hdecode] at h
  | some raw => exact isASCII_of_hexDecode hdecode

/-- **What `digestSuffixValid` and `validDigest` accept.** -/
theorem hexDigestValid_iff (hstart : Lower start) :
    hexDigestValid U value start = true ↔ IsDigest start value := by
  simp only [hexDigestValid, Bool.and_eq_true, beq_iff_eq, List.isPrefixOf_iff_prefix]
  constructor
  · rintro ⟨⟨⟨hlength, digits, rfl⟩, hlower⟩, hhex⟩
    rw [List.drop_left] at hhex
    have hascii : IsASCII (start ++ digits) :=
      isASCII_append.mpr ⟨hstart.1, isASCII_of_nonzeroHex hhex⟩
    rw [U.toLower_of_isASCII hascii, List.map_append, hstart.2] at hlower
    rw [List.length_append] at hlength
    obtain ⟨raw, hraw, hne, rfl⟩ :=
      (nonzeroHex_eq_true (List.append_cancel_left hlower).symm (by omega)).mp hhex
    exact ⟨raw, hraw, hne, rfl⟩
  · rintro ⟨raw, hraw, hne, rfl⟩
    have hascii : IsASCII (start ++ hexBytes raw) :=
      isASCII_append.mpr ⟨hstart.1, isASCII_hexBytes raw⟩
    have hdigits : (hexBytes raw).length = 64 := by rw [length_hexBytes, hraw]
    refine ⟨⟨⟨by rw [List.length_append, hdigits], hexBytes raw, rfl⟩, ?_⟩, ?_⟩
    · rw [U.toLower_of_isASCII hascii, List.map_append, hstart.2, map_lowerByte_hexBytes]
    · rw [List.drop_left, nonzeroHex_eq_true (map_lowerByte_hexBytes raw) hdigits]
      exact ⟨raw, hraw, hne, rfl⟩

/-! ## Addresses -/

/-- An address whose workchain is written `workchain`. -/
def AddressAt (workchain value : Bytes) : Prop :=
  ∃ raw : Bytes, raw.length = 32 ∧ raw ≠ List.replicate 32 0 ∧
    value = workchain ++ 0x3a :: hexBytes raw

/-- The workchain is written `0`. -/
def PlainAddress (value : Bytes) : Prop := AddressAt (stringBytes "0") value

/-- The workchain is 0 or -1, and not written `0`. -/
def OtherAddress (value : Bytes) : Prop :=
  ∃ workchain, (parseInt32 workchain = some 0 ∨ parseInt32 workchain = some (-1)) ∧
    workchain ≠ stringBytes "0" ∧ AddressAt workchain value

theorem digits_of_decimalValue {digits : Bytes} {n : Nat} (h : decimalValue digits = some n) :
    ∀ b ∈ digits, 48 ≤ b.toNat ∧ b.toNat ≤ 57 := by
  have hfold : ∀ (digits : Bytes) (m n : Nat), digits.foldlM (fun n b =>
      if 48 ≤ b.toNat ∧ b.toNat ≤ 57 then some (10 * n + (b.toNat - 48)) else none) m = some n →
      ∀ b ∈ digits, 48 ≤ b.toNat ∧ b.toNat ≤ 57 := by
    intro digits
    induction digits with
    | nil => exact fun _ _ _ b hb => nomatch hb
    | cons d digits ih =>
      intro m n h b hb
      simp only [List.foldlM_cons, Option.bind_eq_bind, Option.bind_eq_some_iff,
        Option.ite_none_right_eq_some] at h
      obtain ⟨_, ⟨hd, -⟩, hrest⟩ := h
      rcases List.mem_cons.mp hb with rfl | hb
      · exact hd
      · exact ih _ _ hrest b hb
  exact hfold digits 0 n h

/-- What is parsed as a number is a sign and digits. -/
theorem bytes_of_parseInt32 {s : Bytes} {i : Int} (h : parseInt32 s = some i) :
    ∀ b ∈ s, b = 0x2b ∨ b = 0x2d ∨ 48 ≤ b.toNat ∧ b.toNat ≤ 57 := by
  have hsigned {negative : Bool} {digits : Bytes} (h : signedValue negative digits = some i) :
      ∀ b ∈ digits, 48 ≤ b.toNat ∧ b.toNat ≤ 57 := by
    unfold signedValue at h
    split at h
    · cases h
    · obtain ⟨n, hn, -⟩ := Option.bind_eq_some_iff.mp h
      exact digits_of_decimalValue hn
  intro b hb
  unfold parseInt32 at h
  split at h
  · rcases List.mem_cons.mp hb with rfl | hb
    · exact .inl rfl
    · exact .inr (.inr (hsigned h b hb))
  · rcases List.mem_cons.mp hb with rfl | hb
    · exact .inr (.inl rfl)
    · exact .inr (.inr (hsigned h b hb))
  · exact .inr (.inr (hsigned h b hb))

theorem colon_notMem_of_parseInt32 {s : Bytes} {i : Int} (h : parseInt32 s = some i) :
    (0x3a : UInt8) ∉ s := by
  intro hmem
  rcases bytes_of_parseInt32 h _ hmem with h | h | h
  · exact absurd h (by decide)
  · exact absurd h (by decide)
  · exact absurd h (by decide)

theorem cutByte_colon {workchain : Bytes} (h : (0x3a : UInt8) ∉ workchain) (account : Bytes) :
    cutByte 0x3a (workchain ++ 0x3a :: account) = some (workchain, account) :=
  cutByte_eq_some.mpr ⟨rfl, h⟩

theorem account_iff {account : Bytes} :
    account.length = 64 ∧ account = U.toLower account ∧ nonzeroHex account = true ↔
      ∃ raw : Bytes, raw.length = 32 ∧ raw ≠ List.replicate 32 0 ∧ account = hexBytes raw := by
  constructor
  · rintro ⟨hlength, hlower, hhex⟩
    rw [U.toLower_of_isASCII (isASCII_of_nonzeroHex hhex)] at hlower
    exact (nonzeroHex_eq_true hlower.symm hlength).mp hhex
  · rintro ⟨raw, hraw, hne, rfl⟩
    have hdigits : (hexBytes raw).length = 64 := by rw [length_hexBytes, hraw]
    refine ⟨hdigits, ?_, (nonzeroHex_eq_true (map_lowerByte_hexBytes raw) hdigits).mpr
      ⟨raw, hraw, hne, rfl⟩⟩
    rw [U.toLower_of_isASCII (isASCII_hexBytes raw), map_lowerByte_hexBytes]

/-- **What `a2aadapter` accepts as an address.** -/
theorem rawAddressValid_iff :
    A2A.rawAddressValid U value = true ↔ PlainAddress value ∨ OtherAddress value := by
  have hparsed : A2A.rawAddressValid U value = true ↔ ∃ workchain,
      (parseInt32 workchain = some 0 ∨ parseInt32 workchain = some (-1)) ∧
        AddressAt workchain value := by
    unfold A2A.rawAddressValid
    cases hcut : cutByte 0x3a value with
    | none =>
      simp only [Bool.false_eq_true, false_iff, not_exists, not_and]
      rintro workchain hparse ⟨raw, -, -, rfl⟩
      rw [cutByte_colon (hparse.elim colon_notMem_of_parseInt32 colon_notMem_of_parseInt32)] at hcut
      cases hcut
    | some parts =>
      obtain ⟨workchain, account⟩ := parts
      simp only [Bool.and_eq_true, Bool.or_eq_true, beq_iff_eq]
      constructor
      · rintro ⟨⟨⟨hparse, hlength⟩, hlower⟩, hhex⟩
        obtain ⟨raw, hraw, hne, rfl⟩ := account_iff.mp ⟨hlength, hlower, hhex⟩
        exact ⟨workchain, hparse, raw, hraw, hne, (cutByte_eq_some.mp hcut).1⟩
      · rintro ⟨workchain', hparse, raw, hraw, hne, rfl⟩
        rw [cutByte_colon
          (hparse.elim colon_notMem_of_parseInt32 colon_notMem_of_parseInt32)] at hcut
        obtain ⟨rfl, rfl⟩ := Prod.mk.inj (Option.some.inj hcut)
        obtain ⟨hlength, hlower, hhex⟩ := (account_iff (U := U)).mpr ⟨raw, hraw, hne, rfl⟩
        exact ⟨⟨⟨hparse, hlength⟩, hlower⟩, hhex⟩
  rw [hparsed]
  constructor
  · rintro ⟨workchain, hparse, haddress⟩
    by_cases hzero : workchain = stringBytes "0"
    · subst hzero
      exact .inl haddress
    · exact .inr ⟨workchain, hparse, hzero, haddress⟩
  · rintro (haddress | ⟨workchain, hparse, -, haddress⟩)
    · exact ⟨_, .inl (by decide), haddress⟩
    · exact ⟨workchain, hparse, haddress⟩

/-- **What `mcpadapter` accepts as an address.** -/
theorem rawAddress_iff : MCP.rawAddress U value = true ↔ PlainAddress value := by
  have hcolon : (0x3a : UInt8) ∉ stringBytes "0" := by decide
  unfold MCP.rawAddress
  cases hcut : cutByte 0x3a value with
  | none =>
    simp only [Bool.false_eq_true, false_iff]
    rintro ⟨raw, -, -, rfl⟩
    rw [cutByte_colon hcolon] at hcut
    cases hcut
  | some parts =>
    obtain ⟨wc, id⟩ := parts
    simp only [Bool.and_eq_true, beq_iff_eq, MCP.validDigest, hexDigestValid_iff lower_shaStart]
    constructor
    · rintro ⟨⟨rfl, -⟩, raw, hraw, hne, hid⟩
      obtain rfl := List.append_cancel_left hid
      exact ⟨raw, hraw, hne, (cutByte_eq_some.mp hcut).1⟩
    · rintro ⟨raw, hraw, hne, rfl⟩
      rw [cutByte_colon hcolon] at hcut
      obtain ⟨rfl, rfl⟩ := Prod.mk.inj (Option.some.inj hcut)
      exact ⟨⟨rfl, by rw [length_hexBytes, hraw]⟩, raw, hraw, hne, rfl⟩

end TosAi.Transport
