/-
  The files of the journal.

  A record's file is a claim, perhaps only a beginning of one, or a completed record.
  The two cannot be mistaken for each other: a claim that lost some of its end is not read
  at all (`decodeRecord_take`), so whatever is read as complete was written as complete.
-/
import TosAi.SoftwareWork.Program

set_option autoImplicit false

namespace TosAi.SoftwareWork

open Foundation
open Foundation.Json (Codec Fields)

/-! ## Reading back -/

variable {r : JournalRecord} {fp : String} {f : File}

theorem known_raw (h : digestPattern r.fingerprint = true) :
    r.raw.known = some r := by
  simp [RawRecord.known, JournalRecord.raw, h, readState_text]

theorem decodeRecord_line (h : digestPattern r.fingerprint = true) :
    decodeRecord r.line = some r := by
  rw [decodeRecord, JournalRecord.line, rawRecordCodec.unmarshal_marshal_line, Option.bind_some,
    known_raw h]

/-- **A beginning of a record is read as that record or not at all.** -/
theorem decodeRecord_take {r' : JournalRecord} {k : Nat} (h : digestPattern r.fingerprint = true)
    (hdecode : decodeRecord (r.line.take k) = some r') : r' = r := by
  have hcases : k < (rawRecordCodec.marshal r.raw).length ∨
      r.line.take k = rawRecordCodec.marshal r.raw ∨ r.line.take k = r.line := by
    rcases Nat.lt_trichotomy k (rawRecordCodec.marshal r.raw).length with hlt | heq | hgt
    · exact .inl hlt
    · exact .inr (.inl (by rw [JournalRecord.line, heq, List.take_left]))
    · exact .inr (.inr (List.take_of_length_le (by simp [JournalRecord.line]; omega)))
  rcases hcases with hshort | hwhole | hline
  · have htext : rawRecordCodec.marshal r.raw =
        r.line.take k ++ (rawRecordCodec.marshal r.raw).drop k := by
      rw [JournalRecord.line, List.take_append_of_le_length (Nat.le_of_lt hshort),
        List.take_append_drop]
    have hlost : (rawRecordCodec.marshal r.raw).drop k ≠ [] := by
      simpa using hshort
    have hnone := Codec.unmarshal_truncated _ _ _ _ _ false htext hlost
    rw [decodeRecord, rawRecordCodec, hnone] at hdecode
    cases hdecode
  · rw [decodeRecord, hwhole, rawRecordCodec.unmarshal_marshal, Option.bind_some,
      known_raw h] at hdecode
    exact (Option.some.inj hdecode).symm
  · rw [hline, decodeRecord_line h] at hdecode
    exact (Option.some.inj hdecode).symm

/-! ## The two kinds of files -/

/-- The file of a record. -/
def JournalRecord.file (r : JournalRecord) : File := ⟨0o600, r.line⟩

/-- A beginning of a claim. -/
def Claimed (f : File) : Prop :=
  ∃ fp k, digestPattern fp = true ∧ f = ⟨0o600, (JournalRecord.claimed fp).line.take k⟩

/-- A completed record. -/
def Finished (f : File) : Prop :=
  ∃ fp o, digestPattern fp = true ∧ f = (JournalRecord.completed fp o).file

theorem claimed_file (h : digestPattern fp = true) :
    Claimed (JournalRecord.claimed fp).file :=
  ⟨fp, (JournalRecord.claimed fp).line.length, h, by rw [List.take_length]; rfl⟩

theorem Claimed.running (h : Claimed f) (hdecode : decodeRecord f.data = some r) :
    r.state = .running := by
  obtain ⟨fp, k, hfp, rfl⟩ := h
  obtain rfl := decodeRecord_take hfp hdecode
  rfl

theorem decodeRecord_completed (h : digestPattern fp = true) (o : Outcome) :
    decodeRecord (JournalRecord.completed fp o).file.data = some (.completed fp o) :=
  decodeRecord_line h

theorem Claimed.not_finished (h : Claimed f) : ¬Finished f := by
  rintro ⟨fp, o, hfp, rfl⟩
  have hrunning : RecordState.complete = .running := h.running (decodeRecord_completed hfp o)
  cases hrunning

/-- What is read as complete is the file of what was read. -/
theorem eq_of_decode_complete (hkind : Claimed f ∨ Finished f)
    (hdecode : decodeRecord f.data = some r) (hstate : r.state = .complete) :
    digestPattern r.fingerprint = true ∧
    f = (JournalRecord.completed r.fingerprint r.outcome).file := by
  rcases hkind with hclaimed | ⟨fp, o, hfp, rfl⟩
  · rw [hclaimed.running hdecode] at hstate
    cases hstate
  · rw [decodeRecord_completed hfp o] at hdecode
    obtain rfl := Option.some.inj hdecode
    exact ⟨hfp, rfl⟩

theorem JournalRecord.file_injective {r' : JournalRecord} (h : r.file = r'.file) :
    r'.fingerprint = r.fingerprint ∧ r'.outcome = r.outcome := by
  have hline : r.line = r'.line := congrArg File.data h
  have hraw := rawRecordCodec.marshal_injective (List.append_cancel_right hline)
  simp only [JournalRecord.raw, RawRecord.mk.injEq] at hraw
  exact ⟨hraw.2.1.symm, hraw.2.2.2.symm⟩

theorem completed_injective {fp' : String} {o o' : Outcome}
    (h : (JournalRecord.completed fp o).file = (JournalRecord.completed fp' o').file) :
    fp' = fp ∧ o' = o :=
  JournalRecord.file_injective h

/-! ## Sizes -/

/-- All the texts of an outcome are short. -/
structure Outcome.Short (o : Outcome) : Prop where
  quoteCommitment : o.quoteCommitment.utf8ByteSize ≤ 80
  executionID : o.executionID.utf8ByteSize ≤ 80
  inputDigest : o.inputDigest.utf8ByteSize ≤ 80
  resultDigest : o.resultDigest.utf8ByteSize ≤ 80
  artifactDigest : o.artifact.digest.utf8ByteSize ≤ 80
  artifactMediaType : o.artifact.mediaType.utf8ByteSize ≤ 80
  reportDigest : o.report.digest.utf8ByteSize ≤ 80
  reportMediaType : o.report.mediaType.utf8ByteSize ≤ 80
  sourceDigest : o.sourceDigest.utf8ByteSize ≤ 80
  toolchainDigest : o.toolchainDigest.utf8ByteSize ≤ 80
  sandboxDigest : o.sandboxDigest.utf8ByteSize ≤ 80

theorem short_zero : Outcome.zero.Short := by
  constructor <;> decide

theorem size_text_le {s : String} (h : s.utf8ByteSize ≤ 80) : (Codec.string.enc s).size ≤ 482 := by
  show 2 + 6 * s.utf8ByteSize ≤ 482
  omega

theorem size_uint64_le (n : UInt64) : (Codec.uint64.enc n).size ≤ 20 :=
  Json.length_decimal_le (by decide) (by
    have := n.toNat_lt
    omega)

theorem size_int64_le (n : Int64) : (Codec.int64.enc n).size ≤ 21 :=
  Json.length_integer_le (k := 20) (by decide) (by
    have := n.le_toInt
    have := n.toInt_lt
    omega)

theorem size_descriptor_le {d : Descriptor} (hdigest : d.digest.utf8ByteSize ≤ 80)
    (hmedia : d.mediaType.utf8ByteSize ≤ 80) : (descriptorCodec.enc d).size ≤ 1300 := by
  have hlast {t : Unit} : Json.Value.sizeMembers (Fields.nil.enc t) ≤ 0 := Nat.le_refl 0
  refine Nat.le_trans (Nat.add_le_add_left (Fields.size_cons_le (size_text_le hdigest) <|
    Fields.size_cons_le (size_text_le hmedia) <|
    Fields.size_cons_le (size_uint64_le d.sizeBytes) hlast) 2) ?_
  decide

theorem size_outcome_le {o : Outcome} (h : o.Short) : (outcomeCodec.enc o).size ≤ 9000 := by
  have hlast {t : Unit} : Json.Value.sizeMembers (Fields.nil.enc t) ≤ 0 := Nat.le_refl 0
  refine Nat.le_trans (Nat.add_le_add_left (Fields.size_cons_le (size_text_le h.quoteCommitment) <|
    Fields.size_cons_le (size_text_le h.executionID) <|
    Fields.size_cons_le (size_text_le h.inputDigest) <|
    Fields.size_cons_le (size_text_le h.resultDigest) <|
    Fields.size_cons_le (size_descriptor_le h.artifactDigest h.artifactMediaType) <|
    Fields.size_cons_le (size_descriptor_le h.reportDigest h.reportMediaType) <|
    Fields.size_cons_le (size_text_le h.sourceDigest) <|
    Fields.size_cons_le (size_text_le h.toolchainDigest) <|
    Fields.size_cons_le (size_text_le h.sandboxDigest) <|
    Fields.size_cons_le (size_int64_le o.exitCode) <|
    Fields.size_cons_le (size_uint64_le o.completedAtUnix) hlast) 2) ?_
  decide

/-- **Such a record is not too long to be read.** -/
theorem length_line_le (hfp : digestPattern r.fingerprint = true) (ho : r.outcome.Short) :
    r.line.length ≤ maxRecordBytes := by
  have hfingerprint : r.fingerprint.utf8ByteSize ≤ 80 := by
    rw [utf8ByteSize_of_matchesHex64 hfp]
    decide
  have hstate : r.state.text.utf8ByteSize ≤ 80 := by
    cases r.state <;> decide
  have hlast {t : Unit} : Json.Value.sizeMembers (Fields.nil.enc t) ≤ 0 := Nat.le_refl 0
  have hmarshal : (rawRecordCodec.marshal r.raw).length ≤ 12000 := by
    refine (Json.Value.length_print_le _).trans ?_
    refine Nat.le_trans (Nat.add_le_add_left
      (Fields.size_cons_le (size_text_le (s := recordSchema) (by decide)) <|
      Fields.size_cons_le (size_text_le hfingerprint) <|
      Fields.size_cons_le (size_text_le hstate) <|
      Fields.size_cons_le (size_outcome_le ho) hlast) 2) ?_
    decide
  rw [JournalRecord.line, List.length_append, maxRecordBytes]
  simp only [List.length_cons, List.length_nil]
  omega

theorem line_ne_nil (r : JournalRecord) : 0 < r.line.length := by
  simp [JournalRecord.line]

end TosAi.SoftwareWork
