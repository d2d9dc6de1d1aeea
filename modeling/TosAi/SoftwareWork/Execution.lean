/-
  What `Execute` does among other calls, and the discipline as a whole.

  An `Execute` that is given the lease has the claim to itself: it invokes the executor
  while nothing but the claim is on disk, and completes the record once the store has what
  the outcome names.  An `Execute` that is not given it reads the record.  `sound` puts
  together what the three methods do; everything said of runs is read off it.
-/
import TosAi.SoftwareWork.Journal

set_option autoImplicit false

namespace TosAi.SoftwareWork

open Foundation Foundation.Discipline
open Foundation.Json (Bytes)

variable {r : Runner} {c : Nat} {s s' : System}

/-! ## What a runner is built with -/

/-- `NewRunner` has accepted the contract and `Open` the store's maximum, the executor is
any executor, and a digest has 32 bytes. -/
structure Runner.Lawful (r : Runner) : Prop where
  executor : r.executor = boundExecutor
  contract : validateContract r.contract = .ok ()
  store : r.maximum ≤ maxObjectBytesHard
  hash : ∀ bytes, (r.library.sha256 bytes).length = 32

theorem digestPattern_of_contract {contract : Contract} (h : validateContract contract = .ok ()) :
    digestPattern contract.toolchainDigest = true ∧
    digestPattern contract.sandboxDigest = true := by
  obtain ⟨hchecks, -⟩ := require_bind_eq_ok.mp h
  simp only [Bool.and_eq_true, beq_iff_eq] at hchecks
  have hsame : contract.sandboxDigest = contract.manifestDigest := by tauto
  have hmanifest : digestPattern contract.manifestDigest = true := by tauto
  rw [hsame]
  exact ⟨by tauto, hmanifest⟩

namespace Runner.Lawful

variable (h : r.Lawful)

include h

theorem digestPattern_digestOf (bytes : Bytes) : digestPattern (r.digestOf bytes) = true :=
  matchesHex64_append (h.hash bytes)

theorem digestPattern_fingerprint (request : Request) :
    digestPattern (r.fingerprint request) = true :=
  h.digestPattern_digestOf _

end Runner.Lawful

theorem Runner.Accepts.digestPattern {request : Request} (h : r.Accepts request) :
    digestPattern request.executionID = true := by
  have hformed := h.wellFormed
  simp only [Request.wellFormed, Bool.and_eq_true] at hformed
  exact hformed.1.1.2

theorem utf8ByteSize_of_digestPattern {text : String} (h : digestPattern text = true) :
    text.utf8ByteSize ≤ 80 := by
  rw [utf8ByteSize_of_matchesHex64 h]
  decide

/-- **The texts of an outcome are short.** -/
theorem short_outcome (hlawful : r.Lawful) {request : Request}
    (hrequest : request.wellFormed = true)
    {artifact report : Descriptor} {output archived reported : Bytes} (exitCode : Int64)
    (completedAtUnix : UInt64) (hartifact : artifact.digest = r.digestOf archived)
    (hreport : report.digest = r.digestOf reported)
    (hartifactType : artifact.mediaType = artifactMediaType)
    (hreportType : report.mediaType = reportMediaType) :
    (request.outcome r.contract (r.digestOf output) artifact report exitCode
      completedAtUnix).Short := by
  simp only [Request.wellFormed, Bool.and_eq_true] at hrequest
  obtain ⟨⟨⟨hquote, hexecution⟩, hinput⟩, hsource⟩ := hrequest
  obtain ⟨htoolchain, hsandbox⟩ := digestPattern_of_contract hlawful.contract
  have hdigest (bytes : Bytes) :=
    utf8ByteSize_of_digestPattern (hlawful.digestPattern_digestOf bytes)
  exact {
    quoteCommitment := by
      show request.quoteCommitment.utf8ByteSize ≤ 80
      rw [utf8ByteSize_of_matchesHex64 hquote]
      decide
    executionID := utf8ByteSize_of_digestPattern hexecution
    inputDigest := utf8ByteSize_of_digestPattern hinput
    resultDigest := hdigest output
    artifactDigest := by
      show artifact.digest.utf8ByteSize ≤ 80
      rw [hartifact]
      exact hdigest archived
    artifactMediaType := by
      show artifact.mediaType.utf8ByteSize ≤ 80
      rw [hartifactType]
      decide
    reportDigest := by
      show report.digest.utf8ByteSize ≤ 80
      rw [hreport]
      exact hdigest reported
    reportMediaType := by
      show report.mediaType.utf8ByteSize ≤ 80
      rw [hreportType]
      decide
    sourceDigest := utf8ByteSize_of_digestPattern hsource
    toolchainDigest := utf8ByteSize_of_digestPattern htoolchain
    sandboxDigest := utf8ByteSize_of_digestPattern hsandbox }

/-! ## With the lease -/

/-- What a store has been given stays while a claim is held. -/
theorem putHeld_does (hc : c ≠ 0) (mediaType : String) (bytes : Bytes) {R : System → Prop}
    (hR : ∀ s s', Lasts s s' → R s → R s') (hex : String) (f : File) :
    Does r c (fun s => Held c hex f s ∧ R s) (put r.maximum mediaType (bytesReader bytes))
      (fun d s => (d.mediaType = mediaType ∧ r.Stored s d bytes) ∧ Held c hex f s ∧ R s)
      (fun _ _ => True) := by
  have hput := put_does (r := r) hc mediaType (bytesReader bytes)
  rw [content_bytesReader] at hput
  have hstays : Stays r c fun s => Held c hex f s ∧ R s :=
    (stays_held hex f).and (stays_of_lasts hR)
  have hframed := Meets.frame (put_uses r.maximum mediaType (bytesReader bytes)) hstays
    (fun o ho s answer s' happly hact hs => by
      refine ⟨?_, hR s s' (Act.lasts hact) hs.2⟩
      rw [Held, journal_of_stores ho happly]
      exact hs.1) hput
  exact hframed.conseq (fun _ _ hs => ⟨trivial, hs⟩) (fun _ _ hs => hs) (fun _ _ _ => trivial)

theorem deliver_does (hc : c ≠ 0) (hlawful : r.Lawful) {request : Request}
    (hrequest : request.wellFormed = true) {hex : String}
    (hname : recordName request.executionID = .record hex) (result : RunResult) :
    Does r c (Held c hex (JournalRecord.claimed (r.fingerprint request)).file)
      (r.deliver request (r.fingerprint request) result)
      (fun o => Complete hex (r.fingerprint request) o) (fun _ _ => True) := by
  have hheld :=
    stays_held (r := r) (c := c) hex (JournalRecord.claimed (r.fingerprint request)).file
  apply Meets.bind (Does.ensure
    (Q := fun _ => Held c hex (JournalRecord.claimed (r.fingerprint request)).file)
    (fun s _ hs => hs) (fun _ _ _ => trivial))
  intro _
  apply Meets.bind (Does.glance (o := .now) hc trivial hheld (steady_held hex _))
  intro now
  apply Meets.bind (digest_does hc result.output hheld (steady_held hex _))
  intro resultDigest
  apply Meets.assume (resultDigest = r.digestOf result.output) (fun _ _ hs => hs.1)
  rintro rfl
  generalize reportBytes request.executionID (r.digestOf result.output) result
    (toUInt64 (Time.unix now)) = reported
  have hreport := putHeld_does (r := r) hc reportMediaType reported (R := fun _ => True)
    (fun _ _ _ _ => trivial) hex (JournalRecord.claimed (r.fingerprint request)).file
  apply Meets.bind (hreport.pre fun _ _ hs => ⟨hs.2.2, trivial⟩)
  intro report
  apply Meets.bind (S := fun archived s =>
    r.library.tar [("output.log", result.output), ("report.json", reported)] = some archived ∧
    (report.mediaType = reportMediaType ∧ r.Stored s report reported) ∧
    Held c hex (JournalRecord.claimed (r.fingerprint request)).file s)
  · apply Meets.result
    · intro archived s harchived hs
      refine ⟨?_, hs.1, hs.2.1⟩
      unfold buildArtifact at harchived
      split at harchived
      · rename_i bytes htar
        rw [htar, Except.ok.inj harchived]
      · cases harchived
    · exact fun _ _ _ _ => trivial
  intro archived
  have hartifact := putHeld_does (r := r) hc artifactMediaType archived
    (R := fun s => r.library.tar [("output.log", result.output), ("report.json", reported)] =
      some archived ∧ report.mediaType = reportMediaType ∧ r.Stored s report reported)
    (fun _ _ hlasts hs => ⟨hs.1, hs.2.1, hs.2.2.mono hlasts⟩) hex
    (JournalRecord.claimed (r.fingerprint request)).file
  apply Meets.bind (hartifact.pre fun _ _ hs => ⟨hs.2.2, hs.1, hs.2.1⟩)
  intro artifact
  have hcomplete := complete_does (r := r) hc (request.outcome r.contract
    (r.digestOf result.output) artifact report result.exitCode (toUInt64 (Time.unix now))) hname
    (hlawful.digestPattern_fingerprint request)
  apply Meets.bind (hcomplete.pre ?_)
  · intro _
    exact .pure fun s _ hs => hs
  · rintro s _ ⟨⟨hartifactType, hstored⟩, hclaim, htar, hreportType, hreported⟩
    exact ⟨hclaim, short_outcome hlawful hrequest _ _ hstored.digest hreported.digest hartifactType
      hreportType, result.output, reported, archived, rfl, htar, hreported, hstored⟩

/-- The executor is invoked with the claim on disk. -/
theorem boundExecutor_does (hc : c ≠ 0) {b : Start} {request : Request}
    (hmethod : b.method = .execute request) {hex : String}
    (hname : recordName request.executionID = .record hex) (spec : Spec) (input : Bytes) :
    Does r c (fun s => (s.began c = some b ∧ request.encoded r.contract ∈ s.hashed) ∧ Idle c s ∧
        Held c hex (JournalRecord.claimed (r.fingerprint request)).file s)
      (boundExecutor request.executionID spec input)
      (fun _ => Held c hex (JournalRecord.claimed (r.fingerprint request)).file)
      (fun _ _ => True) := by
  have hheld :=
    stays_held (r := r) (c := c) hex (JournalRecord.claimed (r.fingerprint request)).file
  have hbegan : Stays r c fun s => s.began c = some b :=
    stays_of_lasts fun _ _ hlasts hs => hlasts.began c b hs
  apply Meets.bind (S := fun _ => Held c hex (JournalRecord.claimed (r.fingerprint request)).file)
  · apply Does.step hc ((hbegan.and (stays_hashed _)).and (stays_idle.and hheld))
    · rintro s _ ⟨⟨hb, hhashed⟩, hidle, hclaim⟩
      refine ⟨hidle, b, request, hb, hmethod, rfl, ?_⟩
      rw [hname]
      exact ⟨hclaim.2, hclaim.1, hhashed⟩
    · rintro s answer s' _ ⟨-, -, hclaim⟩ happly _
      obtain rfl := happly
      exact hclaim
  · intro answer
    exact .result (fun _ _ _ hs => hs) (fun _ _ _ _ => trivial)

/-! ## Execute -/

theorem validateRequest_does (hc : c ≠ 0) (request : Request) {P : System → Prop}
    (hP : Stays r c P) (hsteady : Steady P) :
    Does r c P (validateRequest r.contract request) (fun _ s => r.Accepts request ∧ P s)
      (fun _ s => ¬r.Accepts request ∧ P s) := by
  apply Meets.bind (Does.ensure (Q := fun _ s => request.wellFormed = true ∧ P s)
    (fun s hformed hs => ⟨hformed, hs⟩) ?_)
  swap
  · intro s hfails hs
    refine ⟨fun haccepts => ?_, hs⟩
    rw [haccepts.wellFormed] at hfails
    cases hfails
  intro _
  have hformed : Steady fun s => request.wellFormed = true ∧ P s :=
    fun s s' h hs => ⟨hs.1, hsteady s s' h hs.2⟩
  apply Meets.bind (digest_does hc request.sourceArchive ((Stable.const _).and hP) hformed)
  intro source
  apply Meets.assume (source = r.digestOf request.sourceArchive) (fun _ _ hs => hs.1)
  rintro rfl
  apply Does.ensure
  · rintro s hchecks ⟨-, -, hwell, hs⟩
    simp only [Bool.and_eq_true, beq_iff_eq, decide_eq_true_eq] at hchecks
    exact ⟨⟨hwell, hchecks.1, hchecks.2⟩, hs⟩
  · rintro s hfails ⟨-, -, -, hs⟩
    refine ⟨fun haccepts => ?_, hs⟩
    simp [haccepts.source, haccepts.length] at hfails

/-- An outcome is returned: it is that of the record, and of the record that was there
before, if there was one. -/
structure Gives (r : Runner) (c : Nat) (known : Option File) (hex : String) (request : Request)
    (o : Outcome) (s : System) : Prop where
  complete : Complete hex (r.fingerprint request) o s
  hashed : request.encoded r.contract ∈ s.hashed
  known : ∀ f ∈ known, f = (JournalRecord.completed (r.fingerprint request) o).file ∧ Idle c s

/-- An error is returned: nothing was invoked if there was a record before, and if that
was one to return, some file operation has failed. -/
structure Fails (r : Runner) (c : Nat) (known : Option File) (request : Request) (s : System) :
    Prop where
  hashed : r.Accepts request → request.encoded r.contract ∈ s.hashed
  known : ∀ f ∈ known, Idle c s ∧ ∀ o,
    f = (JournalRecord.completed (r.fingerprint request) o).file → o.Short → r.Accepts request →
      s.troubled c = true

section Answers

variable {known : Option File} {hex : String} {request : Request}

theorem fails_none (hhashed : request.encoded r.contract ∈ s.hashed) : Fails r c none request s :=
  ⟨fun _ => hhashed, fun _ hf => nomatch hf⟩

/-- Without the lease the record is returned, or is not complete. -/
theorem readBack_does {record : JournalRecord} (hfp : record.fingerprint = r.fingerprint request) :
    Does r c (fun s => (ReadFrom known hex record s ∧ Idle c s) ∧ KnownRecord known hex s ∧
        request.encoded r.contract ∈ s.hashed)
      (if record.state = .complete then pure record.outcome
        else throw (.text "software-work execution outcome is ambiguous"))
      (fun o => Gives r c known hex request o) (fun _ => Fails r c known request) := by
  split
  · rename_i hcomplete
    apply Meets.pure
    rintro s _ ⟨⟨⟨f, hdecode, hfound⟩, hidle⟩, -, hhashed⟩
    obtain ⟨hpattern, hfile⟩ := eq_of_decode_complete hfound.kind hdecode hcomplete
    rw [hfp] at hpattern hfile
    have hnow := hfound.stays ⟨_, _, hpattern, hfile⟩
    rw [hfile] at hnow
    exact ⟨⟨hpattern, hnow⟩, hhashed, fun g hg => ⟨(hfound.known g hg).symm.trans hfile, hidle⟩⟩
  · rename_i hrunning
    apply Meets.throw
    rintro s _ ⟨⟨⟨f, hdecode, hfound⟩, hidle⟩, hknown, hhashed⟩
    refine ⟨fun _ => hhashed, fun g hg => ⟨hidle, ?_⟩⟩
    obtain rfl := hfound.known g hg
    obtain ⟨fp, o, hpattern, rfl⟩ := (hknown f hg).1
    rw [decodeRecord_completed hpattern o] at hdecode
    obtain rfl := Option.some.inj hdecode
    exact absurd rfl hrunning

/-- **`Execute` among others.** -/
theorem execute_does (hc : c ≠ 0) (hlawful : r.Lawful) {b : Start}
    (hmethod : b.method = .execute request)
    (hname : recordName request.executionID = .record hex) :
    Does r c (fun s => s.began c = some b ∧ KnownRecord known hex s ∧ Idle c s) (r.execute request)
      (fun o => Gives r c known hex request o) (fun _ => Fails r c known request) := by
  have hbegan : ∀ s s', Lasts s s' → s.began c = some b → s'.began c = some b :=
    fun _ _ hlasts hs => hlasts.began c b hs
  have hstart : Stays r c fun s => s.began c = some b ∧ KnownRecord known hex s ∧ Idle c s :=
    (stays_of_lasts hbegan).and ((stays_of_lasts KnownRecord.lasts).and stays_idle)
  have hsteady : Steady fun s => s.began c = some b ∧ KnownRecord known hex s ∧ Idle c s :=
    (steady_of_lasts hbegan).and ((steady_of_lasts KnownRecord.lasts).and steady_idle)
  have hpattern := hlawful.digestPattern_fingerprint request
  apply Meets.bind ((validateRequest_does hc request hstart hsteady).conseq (fun _ _ hs => hs)
    (fun _ _ hs => hs) ?_)
  swap
  · intro _ s hs
    exact ⟨fun haccepts => absurd haccepts hs.1,
      fun f _ => ⟨hs.2.2.2, fun _ _ _ haccepts => absurd haccepts hs.1⟩⟩
  intro _
  apply Meets.assume (r.Accepts request) (fun _ _ hs => hs.1)
  intro haccepts
  apply Meets.conseq (P := fun s => s.began c = some b ∧ KnownRecord known hex s ∧ Idle c s) _
    (fun _ _ hs => hs.2) (fun _ _ hs => hs) (fun _ _ hs => hs)
  apply Meets.bind (digest_does hc (request.encoded r.contract) hstart hsteady)
  intro fingerprint
  apply Meets.assume (fingerprint = r.fingerprint request) (fun _ _ hs => hs.1)
  rintro rfl
  -- the claim, with what lasts around it
  have hkeep : ∀ s s', Lasts s s' →
      (s.began c = some b ∧ KnownRecord known hex s ∧ request.encoded r.contract ∈ s.hashed) →
      s'.began c = some b ∧ KnownRecord known hex s' ∧ request.encoded r.contract ∈ s'.hashed :=
    fun s s' hlasts hs => ⟨hbegan s s' hlasts hs.1, hs.2.1.lasts s s' hlasts,
      hlasts.hashed _ hs.2.2⟩
  have hclaim := Does.keep hkeep
    (claim_does (r := r) hc known (r.fingerprint request) hname)
  apply Meets.bind (hclaim.conseq (fun _ _ hs => ⟨hs.2.2.2, hs.2.2.1, hs.2.2.2.1, hs.2.1⟩)
    (fun _ _ hs => hs) ?_)
  swap
  · rintro _ s ⟨⟨hrefused, hidle⟩, -, -, hhashed⟩
    refine ⟨fun _ => hhashed, fun f hf => ⟨hidle, ?_⟩⟩
    rintro o rfl hshort -
    exact hrefused haccepts.digestPattern hpattern _ hf
      (length_line_le (r := .completed _ o) hpattern hshort) ⟨o, rfl⟩
  rintro ⟨lease, record⟩
  cases lease with
  | false =>
    apply Meets.assume (record.fingerprint = r.fingerprint request)
      (fun _ _ hs => hs.1.2.1.2)
    intro hfp
    exact (readBack_does hfp).pre fun _ _ hs => ⟨⟨hs.1.2.1.1, hs.1.2.2⟩, hs.2.2⟩
  | true =>
    apply Meets.assume (known = none) (fun _ _ hs => hs.1.2.1.2)
    rintro rfl
    have hhashed : ∀ s s' : System, Lasts s s' → request.encoded r.contract ∈ s.hashed →
        request.encoded r.contract ∈ s'.hashed := fun _ _ hlasts hs => hlasts.hashed _ hs
    have hrun := Does.keep hhashed (boundExecutor_does (r := r) hc hmethod hname r.contract.spec
      request.sourceArchive)
    have hdeliver (result : RunResult) := Does.keep hhashed
      (deliver_does hc hlawful haccepts.wellFormed hname result)
    show Does r c _ (r.executor request.executionID r.contract.spec request.sourceArchive >>=
      fun result => r.deliver request (r.fingerprint request) result) _ _
    rw [hlawful.executor]
    apply Meets.bind (hrun.conseq
      (fun _ _ hs => ⟨⟨⟨hs.2.1, hs.2.2.2⟩, hs.1.2.2, hs.1.2.1.1⟩, hs.2.2.2⟩)
      (fun _ _ hs => hs) (fun _ _ hs => fails_none hs.2))
    intro result
    exact (hdeliver result).conseq (fun _ _ hs => hs)
      (fun _ _ hs => ⟨hs.1, hs.2, fun _ hf => nomatch hf⟩) (fun _ _ hs => fails_none hs.2)

end Answers

end TosAi.SoftwareWork
