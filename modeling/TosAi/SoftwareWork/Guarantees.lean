/-
  What the runner and the store guarantee in every run.

  `executor_invoked_at_most_once` holds with deaths of processes and losses of power at any
  point.  The other two are about deaths alone: what a `Put` or an `Execute` has returned is
  what every later call finds.  "No collision" is asked for only of the byte strings that
  were hashed in the run.
-/
import TosAi.SoftwareWork.Reach

set_option autoImplicit false

namespace TosAi.SoftwareWork

open Foundation Foundation.Discipline
open Foundation.Json (Bytes)

variable {r : Runner}

/-! ## At most one invocation -/

/-- **The executor is invoked at most once for an execution identity, and only with the
claim of the request as all that can be found on disk.** -/
theorem executor_invoked_at_most_once (hlawful : r.Lawful) {cfg : Config Op Res System Answer}
    (hrun : Runs r workInit cfg) :
    (cfg.shared.invoked.map Invocation.executionID).Nodup ∧
    ∀ i ∈ cfg.shared.invoked, ∃ b request, cfg.shared.began i.call = some b ∧
      b.method = .execute request ∧ request.executionID = i.executionID ∧
      i.disk = [some (JournalRecord.claimed (r.fingerprint request)).file] := by
  have hinv := (good_of_runs hlawful hrun).ok.2
  refine ⟨hinv.once, fun i hi => ?_⟩
  obtain ⟨⟨b, request, hb, hmethod, hid, hdisk, -⟩, -⟩ := hinv.recorded i hi
  exact ⟨b, request, hb, hmethod, hid, hdisk⟩

section Sample

/-- A hash that tells lengths apart. -/
def sampleHash (bytes : Bytes) : Bytes := List.replicate 31 0 ++ [UInt8.ofNat bytes.length]

/-- The first of two files has its length in front, in ones. -/
def sampleTar : List (String × Bytes) → Option Bytes
  | [("output.log", output), ("report.json", report)] =>
    some (List.replicate output.length 1 ++ 0 :: (output ++ report))
  | _ => none

def sampleUntar (bytes : Bytes) : Option (List (String × Bytes)) :=
  let ones := (bytes.takeWhile (· == 1)).length
  let files := bytes.drop (ones + 1)
  some [("output.log", files.take ones), ("report.json", files.drop ones)]

def sampleRunner : Runner where
  library := ⟨sampleHash, sampleTar, sampleUntar⟩
  executor := boundExecutor
  contract := frozenV1Contract
  maximum := 2 ^ 20

def sampleRequest : Request where
  quoteCommitment := "tvm-cell-sha256:" ++ String.ofList (List.replicate 64 '0')
  executionID := "sha256:" ++ String.ofList (List.replicate 64 '0')
  inputDigest := "sha256:" ++ String.ofList (List.replicate 64 '0')
  sourceDigest := digestText (sampleHash [1])
  sourceArchive := [1]

def sampleResult : RunResult := ⟨0, [7, 7], ⟨0, 0, 0, 0⟩⟩

def sampleReport : Bytes :=
  reportBytes sampleRequest.executionID (sampleRunner.digestOf sampleResult.output) sampleResult 0

def sampleArtifact : Bytes := [1, 1, 0, 7, 7] ++ sampleReport

/-- What the sample run hashes. -/
def sampleHashed : List Bytes :=
  [sampleArtifact, sampleReport, sampleResult.output, sampleRequest.encoded frozenV1Contract,
    sampleRequest.sourceArchive]

theorem lawful_sampleRunner : sampleRunner.Lawful where
  executor := rfl
  contract := validateContract_frozenV1
  store := by decide
  hash := fun b => by simp [sampleRunner, sampleHash]

theorem accepts_sampleRequest : sampleRunner.Accepts sampleRequest where
  wellFormed := by decide +kernel
  source := rfl
  length := by decide +kernel

/-- The sample request is executed. -/
theorem sample_executed : ∃ (o : Outcome) (t : System), t.hashed = sampleHashed ∧
    t.invoked.map Invocation.executionID = [sampleRequest.executionID] ∧
    t.began 1 = some ⟨0, .execute sampleRequest, fun _ => none, fun _ => none⟩ ∧ t.losses = 0 ∧
    Runs sampleRunner workInit ⟨t.finish 1 (.ok (.executed o)), fun _ => none⟩ := by
  have htar : sampleRunner.library.tar [("output.log", sampleResult.output),
      ("report.json", sampleReport)] = some sampleArtifact := rfl
  have hcan := execute_can (r := sampleRunner) (c := 1)
    (s := System.init.begin 0 (.execute sampleRequest)) lawful_sampleRunner accepts_sampleRequest
    rfl 0 rfl htar (by decide +kernel) (by decide +kernel) (by decide +kernel) rfl rfl rfl
    (fun _ => rfl)
  have hbody : Can sampleRunner 1 (body sampleRunner (.execute sampleRequest))
      (System.init.begin 0 (.execute sampleRequest))
      (fun result t => ∃ o, result = .executed o ∧ t.hashed = sampleHashed ∧
        t.invoked.map Invocation.executionID = [sampleRequest.executionID]) := by
    apply Reaches.bind hcan
    rintro o t ⟨hhashed, hinvoked⟩
    exact .pure ⟨o, rfl, hhashed, hinvoked⟩
  obtain ⟨_, t, ⟨o, rfl, hhashed, hinvoked⟩, hbegan, -, hlosses, hruns⟩ :=
    runs_of_can (s := System.init) hbody
  refine ⟨o, t, hhashed, hinvoked, ?_, hlosses, hruns⟩
  rw [hbegan]
  rfl

/-- There is a run with an invocation. -/
theorem executor_invoked_at_most_once_sample : ∃ cfg, Runs sampleRunner workInit cfg ∧
    cfg.shared.invoked.map Invocation.executionID = [sampleRequest.executionID] ∧
    ∀ i ∈ cfg.shared.invoked, ∃ b request, cfg.shared.began i.call = some b ∧
      b.method = .execute request ∧ request.executionID = i.executionID ∧
      i.disk = [some (JournalRecord.claimed (sampleRunner.fingerprint request)).file] := by
  obtain ⟨o, t, -, hinvoked, -, -, hruns⟩ := sample_executed
  exact ⟨_, hruns, hinvoked, (executor_invoked_at_most_once lawful_sampleRunner hruns).2⟩

/-- **What a power loss may leave** at any point: objects under their hashes, beginnings of claims
and whole completed records, and for every invocation a whole record of its request. -/
theorem power_loss_leaves (hlawful : r.Lawful) {cfg : Config Op Res System Answer}
    (hrun : Runs r workInit cfg) :
    (∀ hex f, some f ∈ cfg.shared.objects.outcomes (.object hex) →
      hex = hexEncode (r.library.sha256 f.data) ∧ f.data.length ≤ r.maximum) ∧
    (∀ hex f, some f ∈ cfg.shared.journal.outcomes (.record hex) → Claimed f ∨ Finished f) ∧
    ∀ i ∈ cfg.shared.invoked, ∃ b request, cfg.shared.began i.call = some b ∧
      b.method = .execute request ∧ request.executionID = i.executionID ∧
      ∀ o ∈ cfg.shared.journal.outcomes (recordName i.executionID),
        Marked (r.fingerprint request) o := by
  have hinv : Inv r cfg.shared := (good_of_runs hlawful hrun).ok.2
  refine ⟨fun hex f hf => ?_, hinv.records, fun i hi => ?_⟩
  · exact ⟨(hinv.objects hex f hf).name, (hinv.objects hex f hf).length⟩
  · obtain ⟨b, request, hbegan, hmethod, hid, -, -, hmarked⟩ := (hinv.recorded i hi).claim
    exact ⟨b, request, hbegan, hmethod, hid, hmarked⟩

theorem power_loss_leaves_sample : ∃ cfg, Runs sampleRunner workInit cfg ∧
    ∃ i ∈ cfg.shared.invoked, ∃ fp, ∀ o ∈ cfg.shared.journal.outcomes (recordName i.executionID),
      Marked fp o := by
  obtain ⟨o, t, -, hinvoked, -, -, hruns⟩ := sample_executed
  obtain ⟨i, hi, -⟩ := List.mem_map.mp (hinvoked ▸ List.mem_singleton_self _)
  obtain ⟨b, request, -, -, -, hmarked⟩ := (power_loss_leaves lawful_sampleRunner hruns).2.2 i hi
  exact ⟨_, hruns, i, hi, _, hmarked⟩

end Sample

/-- What a call has answered, where no power was lost. -/
theorem Inv.kept_of {s : System} (hinv : Inv r s) (hzero : s.losses = 0) {e : Return}
    (he : e ∈ s.returned) {process : Nat} {m : Method} {records : JournalName → Option File}
    {objects : ObjectName → Option File}
    (hb : s.began e.call = some ⟨process, m, records, objects⟩) :
    r.Kept s e.call ⟨process, m, records, objects⟩ e.invoked e.answer := by
  obtain ⟨b, hb', hkept⟩ := hinv.kept hzero e he
  obtain rfl := Option.some.inj (hb.symm.trans hb')
  exact hkept

/-! ## The store -/

/-- No two of the byte strings that were hashed have the same hash. -/
def CollisionFree (r : Runner) (s : System) : Prop :=
  ∀ a ∈ s.hashed, ∀ b ∈ s.hashed, r.library.sha256 a = r.library.sha256 b → a = b

theorem CollisionFree.eq {s : System} (h : CollisionFree r s) {a b : Bytes} (ha : a ∈ s.hashed)
    (hb : b ∈ s.hashed) (hdigest : r.digestOf a = r.digestOf b) : a = b := by
  apply h a ha b hb
  apply hexEncode_injective
  have hlist := congrArg String.toList hdigest
  simp only [Runner.digestOf, digestText, String.toList_append, List.append_cancel_left_eq] at hlist
  exact String.toList_inj.mp hlist

/-- From the first state on a digest stands for these bytes: every `Get` of it that begins
and returns by the second state has returned them, unless its context was cancelled or one
of its file operations failed; and a `Get` of its own returns them. -/
structure Available (r : Runner) (s s' : System) (digest : String) (content : Bytes) : Prop where
  returned : ∀ e ∈ s'.returned, ∀ b, s'.began e.call = some b → b.method = .get digest →
    s.began e.call = none → s'.cancelled e.call = false → s'.troubled e.call = false →
    e.answer = .ok (.fetched content)
  alone : ∀ c, s'.cancelled c = false → Ends (calm r c) (get r.maximum digest) s'
    (fun bytes _ => bytes = content) (fun _ _ => False)

variable {d : Descriptor} {content : Bytes}

/-- The bytes of an object are those that were hashed for its digest. -/
theorem Runner.Stored.object_eq {s : System} {f : File} (h : r.Stored s d content)
    (hlawful : r.Lawful) (hinv : Inv r s) (hfree : CollisionFree r s)
    (hf : s.objects.now (objectName d.digest) = some f) :
    digestPattern d.digest = true ∧ f = ⟨0o400, content⟩ := by
  have hpattern : digestPattern d.digest = true := by
    rw [h.digest]
    exact hlawful.digestPattern_digestOf content
  obtain ⟨hperm, -, hdigest⟩ := hinv.addressed hpattern hf
  have hmem : some f ∈ s.objects.outcomes (objectName d.digest) := by
    rw [← hf]
    exact Slot.now_mem_outcomes _
  have hhashed := (hinv.objects _ f hmem).hashed
  have hdata := hfree.eq hhashed h.hashed (hdigest.trans h.digest)
  refine ⟨hpattern, ?_⟩
  cases f
  cases hperm
  cases hdata
  rfl

theorem Runner.Stored.available {s s' : System} (h : r.Stored s d content) (hlawful : r.Lawful)
    (hinv : Inv r s') (hlater : Later s s') (hlosses : s'.losses = 0) (hfree : CollisionFree r s') :
    Available r s s' d.digest content := by
  have hsame : s'.losses = s.losses := by
    have hle := hlater.losses
    omega
  have hlasts := hlater.lasts hsame
  have hstored := h.mono hlasts
  obtain ⟨f, hf⟩ := Option.isSome_iff_exists.mp h.object
  obtain ⟨hpattern, rfl⟩ := hstored.object_eq hlawful hinv hfree (hlasts.objects _ f hf)
  constructor
  · rintro e he ⟨process, method, records, objects⟩ hb hmethod hnew hactive huntroubled
    obtain rfl : method = .get d.digest := hmethod
    have hfound := hlater.objects hsame e.call _ hnew hb _ _ hf
    match hanswer : e.answer, hinv.kept_of hlosses he hb with
    | .ok (.fetched bytes), hkept =>
      rw [hkept.2.2 _ hfound]
    | .error err, hkept =>
      rcases hkept _ hfound hpattern with hcancelled | htroubled
      · rw [hactive] at hcancelled
        cases hcancelled
      · rw [huntroubled] at htroubled
        cases htroubled
  · intro c hactive
    exact get_ends hpattern (hlasts.objects _ _ hf) rfl h.length h.digest.symm hactive

theorem Runner.Stored.sizeBytes {s : System} (h : r.Stored s d content) (hlawful : r.Lawful) :
    d.sizeBytes.toNat = content.length := by
  have hlength := h.length
  have hstore := hlawful.store
  have hhard : maxObjectBytesHard = 67108864 := by decide
  rw [h.size, UInt64.toNat_ofNat']
  omega

/-- **The store is addressed by content.** -/
theorem store_addressed_by_content (hlawful : r.Lawful) {cfg cfg' : Config Op Res System Answer}
    (hrun : Runs r workInit cfg) (hrun' : Runs r cfg cfg') (hlosses : cfg'.shared.losses = 0)
    (hfree : CollisionFree r cfg'.shared) :
    (∀ hex f, cfg.shared.objects.now (.object hex) = some f →
      hex = hexEncode (r.library.sha256 f.data) ∧ f.data.length ≤ r.maximum) ∧
    (∀ hex f, cfg.shared.objects.now (.object hex) = some f →
      cfg'.shared.objects.now (.object hex) = some f) ∧
    (∀ e ∈ cfg.shared.returned, ∀ b digest bytes, cfg.shared.began e.call = some b →
      b.method = .get digest → e.answer = .ok (.fetched bytes) → r.digestOf bytes = digest) ∧
    ∀ e ∈ cfg.shared.returned, ∀ b mediaType reader d, cfg.shared.began e.call = some b →
      b.method = .put mediaType reader → e.answer = .ok (.stored d) →
      reader.content.length = d.sizeBytes.toNat ∧
      Available r cfg.shared cfg'.shared d.digest reader.content := by
  have hgood := good_of_runs hlawful hrun
  have hinv := hgood.ok.2
  have hinv' := (hgood.of_run (sound hlawful) hrun').ok.2
  have hlater := later_of_runs hlawful hgood hrun'
  have hzero : cfg.shared.losses = 0 := by
    have hle := hlater.losses
    omega
  refine ⟨?_, ?_, ?_, ?_⟩
  · intro hex f hf
    have hmem : some f ∈ cfg.shared.objects.outcomes (.object hex) := by
      rw [← hf]
      exact Slot.now_mem_outcomes _
    have haddressed := hinv.objects hex f hmem
    exact ⟨haddressed.name, haddressed.length⟩
  · exact (hlater.lasts (hlosses.trans hzero.symm)).objects
  · rintro e he ⟨process, method, records, objects⟩ digest bytes hb hmethod hanswer
    obtain rfl : method = .get digest := hmethod
    have hkept := hinv.kept_of hzero he hb
    rw [hanswer] at hkept
    exact hkept.1
  · rintro e he ⟨process, method, records, objects⟩ mediaType reader d hb hmethod hanswer
    obtain rfl : method = .put mediaType reader := hmethod
    have hstored := hinv.kept_of hzero he hb
    rw [hanswer] at hstored
    replace hstored : r.Stored cfg.shared d reader.content := hstored
    exact ⟨(hstored.sizeBytes hlawful).symm, hstored.available hlawful hinv' hlater hlosses hfree⟩

def sampleReader : Reader := ⟨[[1, 2]], [3], false⟩

/-- The sample object is put and can be got. -/
theorem store_addressed_by_content_sample : ∃ cfg d, Runs sampleRunner workInit cfg ∧
    (∃ e ∈ cfg.shared.returned, e.answer = .ok (.stored d)) ∧ d.sizeBytes.toNat = 3 ∧
    Available sampleRunner cfg.shared cfg.shared d.digest [1, 2, 3] := by
  have hbody : Can sampleRunner 1 (body sampleRunner (.put reportMediaType sampleReader))
      (System.init.begin 0 (.put reportMediaType sampleReader))
      (fun result t => ∃ d, result = .stored d ∧ t.hashed = [[1, 2, 3]]) := by
    apply Reaches.bind (put_can reportMediaType sampleReader (by decide +kernel) rfl rfl
      (by decide) rfl)
    rintro d _ ⟨-, ⟨_, _, rfl⟩, -, -⟩
    exact .pure ⟨d, rfl, rfl⟩
  obtain ⟨_, t, ⟨d, rfl, hhashed⟩, hbegan, -, hlosses, hruns⟩ :=
    runs_of_can (s := System.init) hbody
  have hfree : CollisionFree sampleRunner (t.finish 1 (.ok (.stored d))) := by
    have hone : ∀ a ∈ t.hashed, a = [1, 2, 3] := by
      rw [hhashed]
      simp
    intro a ha b hb _
    rw [hone a ha, hone b hb]
  have hcall : t.began 1 =
      some ⟨0, .put reportMediaType sampleReader, fun _ => none, fun _ => none⟩ := by
    rw [hbegan]
    rfl
  obtain ⟨hsize, havailable⟩ :=
    (store_addressed_by_content lawful_sampleRunner hruns .refl hlosses hfree).2.2.2
      _ List.mem_cons_self _ reportMediaType sampleReader d hcall rfl rfl
  exact ⟨_, d, hruns, ⟨_, List.mem_cons_self, rfl⟩, hsize.symm, havailable⟩

/-! ## Outcomes -/

namespace Runner

instance (request : Request) : Decidable (r.Accepts request) :=
  decidable_of_iff (request.wellFormed = true ∧
      r.digestOf request.sourceArchive = request.sourceDigest ∧
      request.sourceArchive.length ≤ r.contract.limits.diskBytes.toNat)
    ⟨fun h => ⟨h.1, h.2.1, h.2.2⟩, fun h => ⟨h.wellFormed, h.source, h.length⟩⟩

/-- The fingerprint `Execute` takes of a request.  One that does not match its commitments
is refused before. -/
def fingerprintOf (r : Runner) (request : Request) : Option String :=
  if r.Accepts request then some (r.fingerprint request) else none

theorem fingerprintOf_eq_some {request : Request} {fp : String} :
    r.fingerprintOf request = some fp ↔ r.Accepts request ∧ r.fingerprint request = fp := by
  rw [fingerprintOf]
  split
  next haccepts => simp [haccepts]
  next hrefused => simp [hrefused]

end Runner

/-- The requests name one execution, and different work. -/
def Request.Conflicts (q q' : Request) : Prop :=
  q'.executionID = q.executionID ∧ (q'.quoteCommitment ≠ q.quoteCommitment ∨
    q'.inputDigest ≠ q.inputDigest ∨ q'.sourceDigest ≠ q.sourceDigest)

theorem CollisionFree.identity {s : System} (h : CollisionFree r s) {q q' : Request}
    (hq : q.encoded r.contract ∈ s.hashed) (hq' : q'.encoded r.contract ∈ s.hashed)
    (heq : r.fingerprint q' = r.fingerprint q) :
    q'.identity r.contract = q.identity r.contract :=
  identityCodec.marshal_injective (h.eq hq' hq heq)

theorem Request.Conflicts.identity_ne {q q' : Request} (h : q.Conflicts q') (contract : Contract) :
    q'.identity contract ≠ q.identity contract := by
  intro heq
  simp only [Request.identity, Identity.mk.injEq] at heq
  obtain ⟨-, hquote, -, hinput, hsource⟩ := heq
  rcases h.2 with hne | hne | hne
  · exact hne hquote
  · exact hne hinput
  · exact hne hsource

/-- The record of a request's execution is complete. -/
structure Concluded (r : Runner) (s : System) (q : Request) (o : Outcome) : Prop where
  pattern : digestPattern (r.fingerprint q) = true
  record : s.journal.now (recordName q.executionID) =
    some (JournalRecord.completed (r.fingerprint q) o).file
  hashed : q.encoded r.contract ∈ s.hashed

namespace Concluded

variable {s s' : System} {q q' : Request} {o : Outcome}

theorem finished (h : Concluded r s q o) :
    Finished (JournalRecord.completed (r.fingerprint q) o).file :=
  ⟨_, o, h.pattern, rfl⟩

theorem mono (h : Concluded r s q o) (hlasts : Lasts s s') : Concluded r s' q o where
  pattern := h.pattern
  record := hlasts.finished _ _ h.record h.finished
  hashed := hlasts.hashed _ h.hashed

theorem short (h : Concluded r s q o) (hinv : Inv r s) (hzero : s.losses = 0) : o.Short :=
  (hinv.backed hzero _ _ o h.pattern h.record).1

theorem of_returned (hinv : Inv r s) (hzero : s.losses = 0) {e : Return} (he : e ∈ s.returned)
    {process : Nat} {records : JournalName → Option File} {objects : ObjectName → Option File}
    (hb : s.began e.call = some ⟨process, .execute q, records, objects⟩)
    (hanswer : e.answer = .ok (.executed o)) : Concluded r s q o := by
  have hkept := hinv.kept_of hzero he hb
  rw [hanswer] at hkept
  obtain ⟨hpattern, hrecord, hhashed, -⟩ := hkept
  exact ⟨hpattern, hrecord, hhashed⟩

/-- Two requests with one execution identity and a complete record are one request. -/
theorem identity (h : Concluded r s q o) (hfree : CollisionFree r s) {o' : Outcome}
    (h' : Concluded r s q' o') (hid : q'.executionID = q.executionID) :
    q'.identity r.contract = q.identity r.contract := by
  have hrecord := h'.record
  rw [hid, h.record] at hrecord
  exact hfree.identity h.hashed h'.hashed (completed_injective (Option.some.inj hrecord)).1

/-- The executor has not been invoked for other work. -/
theorem not_invoked (h : Concluded r s q o) (hinv : Inv r s) (hfree : CollisionFree r s)
    (hconflict : q.Conflicts q') {d : Nat} {b : Start} (hb : s.began d = some b)
    (hmethod : b.method = .execute q') : ∀ i ∈ s.invoked, i.call ≠ d := by
  rintro i hi rfl
  obtain ⟨⟨b', request, hb', hmethod', hid, -, hhashed, hmarked⟩, -⟩ := hinv.recorded i hi
  obtain rfl := Option.some.inj (hb.symm.trans hb')
  obtain rfl : q' = request := by
    rw [hmethod] at hmethod'
    exact Method.execute.inj hmethod'
  have hmem : some (JournalRecord.completed (r.fingerprint q) o).file ∈
      s.journal.outcomes (recordName i.executionID) := by
    rw [← h.record, ← hconflict.1, hid]
    exact Slot.now_mem_outcomes _
  obtain ⟨record, hfile, hfp⟩ := hmarked _ hmem
  have hsame := (JournalRecord.file_injective (Option.some.inj hfile)).1
  exact hconflict.identity_ne _ (hfree.identity h.hashed hhashed (hfp.symm.trans hsame))

end Concluded

/-- From the first state on the outcome stands for the request: by the second state every
`Execute` that began since and took the same fingerprint has returned it without invoking
the executor, and an `Execute` of its own returns it so; and no `Execute` of other work
under this identity has ever invoked the executor or returned anything but an error. -/
structure Decided (r : Runner) (s s' : System) (q : Request) (o : Outcome) : Prop where
  returned : ∀ e ∈ s'.returned, ∀ b q', s'.began e.call = some b → b.method = .execute q' →
    r.fingerprintOf q' = some (r.fingerprint q) → s.began e.call = none →
    s'.troubled e.call = false → e.answer = .ok (.executed o) ∧ e.invoked = false
  alone : ∀ c q', r.fingerprintOf q' = some (r.fingerprint q) →
    CollisionFree r (s'.hash (q'.encoded r.contract)) → s'.mu (s'.processOf c) = none →
    Ends (calm r c) (r.execute q') s' (fun o' t => o' = o ∧ t.invoked = s'.invoked)
      (fun _ _ => False)
  conflicting : ∀ d b q', s'.began d = some b → b.method = .execute q' → q.Conflicts q' →
    (∀ i ∈ s'.invoked, i.call ≠ d) ∧
    ∀ e ∈ s'.returned, e.call = d → ∃ err, e.answer = .error err
  refused : ∀ c q', q.Conflicts q' → CollisionFree r (s'.hash (q'.encoded r.contract)) →
    s'.mu (s'.processOf c) = none →
    Ends (calm r c) (r.execute q') s' (fun _ _ => False) (fun _ t => t.invoked = s'.invoked)

theorem Concluded.decided {s s' : System} {q : Request} {o : Outcome} (h : Concluded r s q o)
    (hlawful : r.Lawful) (hinv : Inv r s') (hlater : Later s s') (hlosses : s'.losses = 0)
    (hfree : CollisionFree r s') : Decided r s s' q o := by
  have hsame : s'.losses = s.losses := by
    have hle := hlater.losses
    omega
  have h' := h.mono (hlater.lasts hsame)
  have hshort := h'.short hinv hlosses
  constructor
  · rintro e he ⟨process, method, records, objects⟩ q' hb hmethod htaken hnew huntroubled
    obtain rfl : method = .execute q' := hmethod
    obtain ⟨haccepts, hfp⟩ := Runner.fingerprintOf_eq_some.mp htaken
    have hkept := hinv.kept_of hlosses he hb
    have hhashed : q'.encoded r.contract ∈ s'.hashed := by
      match hanswer : e.answer, hkept with
      | .ok (.executed o'), hkept => exact hkept.2.2.1
      | .error err, hkept => exact hkept.1 haccepts
    have hid : q'.executionID = q.executionID :=
      congrArg Identity.execution (hfree.identity h'.hashed hhashed hfp)
    -- The record was complete when the call began.
    have hfound : records (recordName q'.executionID) =
        some (JournalRecord.completed (r.fingerprint q) o).file := by
      rw [hid]
      exact hlater.records hsame e.call _ hnew hb _ _ h.record h.finished
    match hanswer : e.answer, hkept with
    | .ok (.executed o'), hkept =>
      obtain ⟨hfile, hinvoked⟩ := hkept.2.2.2 _ hfound h.finished
      rw [(completed_injective hfile).2]
      exact ⟨rfl, hinvoked⟩
    | .error err, hkept =>
      have htroubled := (hkept.2 _ hfound h.finished).2 o (by rw [hfp]) hshort haccepts
      rw [huntroubled] at htroubled
      cases htroubled
  · intro c q' htaken hknown hmutex
    obtain ⟨haccepts, hfp⟩ := Runner.fingerprintOf_eq_some.mp htaken
    have hidentity : q'.identity r.contract = q.identity r.contract :=
      hknown.identity (List.mem_cons_of_mem _ h'.hashed) List.mem_cons_self hfp
    have hid : q'.executionID = q.executionID := congrArg Identity.execution hidentity
    have hrecord := h'.record
    rw [← hid] at hrecord
    apply (execute_ends hlawful hrecord h.pattern hshort hmutex).conseq
    · rintro o' t ⟨-, ho, hinvoked⟩
      exact ⟨ho, hinvoked⟩
    · rintro _ t ⟨hrefused, -⟩
      exact hrefused ⟨haccepts, hfp⟩
  · rintro d ⟨process, method, records, objects⟩ q' hb hmethod hconflict
    refine ⟨h'.not_invoked hinv hfree hconflict hb hmethod, ?_⟩
    rintro e he rfl
    obtain rfl : method = .execute q' := hmethod
    match hanswer : e.answer, hinv.kept_of hlosses he hb with
    | .ok (.executed o'), _ =>
      have hother := Concluded.of_returned hinv hlosses he hb hanswer
      exact absurd (h'.identity hfree hother hconflict.1) (hconflict.identity_ne _)
    | .error err, _ => exact ⟨err, rfl⟩
  · intro c q' hconflict hknown hmutex
    have hrecord := h'.record
    rw [← hconflict.1] at hrecord
    apply (execute_ends hlawful hrecord h.pattern hshort hmutex).conseq
    · rintro o' t ⟨⟨-, hfp⟩, -⟩
      exact hconflict.identity_ne _ (hknown.identity (List.mem_cons_of_mem _ h'.hashed)
        List.mem_cons_self hfp)
    · rintro _ t ⟨-, hinvoked⟩
      exact hinvoked

/-- The report and the artifact of an outcome can be had from the store. -/
def Delivered (r : Runner) (s s' : System) (o : Outcome) : Prop :=
  ∃ output report artifact,
    Available r s s' o.report.digest report ∧ report.length = o.report.sizeBytes.toNat ∧
    Available r s s' o.artifact.digest artifact ∧
    r.library.untar artifact = some [("output.log", output), ("report.json", report)] ∧
    r.digestOf output = o.resultDigest

/-- **What an `Execute` has returned stands, and what a complete record names is there.** -/
theorem outcome_durable (hlawful : r.Lawful)
    (htar : ∀ files bytes, r.library.tar files = some bytes → r.library.untar bytes = some files)
    {cfg cfg' : Config Op Res System Answer} (hrun : Runs r workInit cfg) (hrun' : Runs r cfg cfg')
    (hlosses : cfg'.shared.losses = 0) (hfree : CollisionFree r cfg'.shared) :
    (∀ e ∈ cfg.shared.returned, ∀ b q o, cfg.shared.began e.call = some b →
      b.method = .execute q → e.answer = .ok (.executed o) →
      Decided r cfg.shared cfg'.shared q o) ∧
    ∀ executionID f record, cfg.shared.journal.now (recordName executionID) = some f →
      decodeRecord f.data = some record → record.state = .complete →
      Delivered r cfg.shared cfg'.shared record.outcome := by
  have hgood := good_of_runs hlawful hrun
  have hinv := hgood.ok.2
  have hinv' := (hgood.of_run (sound hlawful) hrun').ok.2
  have hlater := later_of_runs hlawful hgood hrun'
  have hzero : cfg.shared.losses = 0 := by
    have hle := hlater.losses
    omega
  constructor
  · rintro e he ⟨process, method, records, objects⟩ q o hb hmethod hanswer
    obtain rfl : method = .execute q := hmethod
    exact (Concluded.of_returned hinv hzero he hb hanswer).decided hlawful hinv' hlater
      hlosses hfree
  · intro executionID f record hf hdecode hstate
    have hmem : some f ∈ cfg.shared.journal.outcomes (recordName executionID) := by
      rw [← hf]
      exact Slot.now_mem_outcomes _
    obtain ⟨hpattern, rfl⟩ := eq_of_decode_complete (hinv.records _ f hmem) hdecode hstate
    obtain ⟨-, output, report, artifact, hresult, harchive, hreport, hartifact⟩ :=
      hinv.backed hzero _ _ _ hpattern hf
    exact ⟨output, report, artifact, hreport.available hlawful hinv' hlater hlosses hfree,
      (hreport.sizeBytes hlawful).symm, hartifact.available hlawful hinv' hlater hlosses hfree,
      htar _ _ harchive, hresult.symm⟩

theorem untar_sampleTar (files : List (String × Bytes)) (bytes : Bytes)
    (h : sampleTar files = some bytes) : sampleUntar bytes = some files := by
  unfold sampleTar at h
  split at h
  next output report =>
    obtain rfl := Option.some.inj h
    have hones : ((List.replicate output.length (1 : UInt8) ++ 0 :: (output ++ report)).takeWhile
        (· == 1)) = List.replicate output.length 1 := by
      rw [List.takeWhile_append_of_pos (by simp), List.takeWhile_cons_of_neg (by decide),
        List.append_nil]
    have hdrop : (List.replicate output.length (1 : UInt8) ++ 0 :: (output ++ report)).drop
        (output.length + 1) = output ++ report := by
      rw [List.drop_append]
      simp
    simp only [sampleUntar, hones, List.length_replicate, hdrop, List.take_left, List.drop_left]
  next => cases h

/-- The sample outcome stands, and its report and artifact are there. -/
theorem outcome_durable_sample : ∃ cfg o, Runs sampleRunner workInit cfg ∧
    (∃ e ∈ cfg.shared.returned, e.answer = .ok (.executed o)) ∧
    Decided sampleRunner cfg.shared cfg.shared sampleRequest o ∧
    Delivered sampleRunner cfg.shared cfg.shared o := by
  obtain ⟨o, t, hhashed, -, hbegan, hlosses, hruns⟩ := sample_executed
  have hfree : CollisionFree sampleRunner (t.finish 1 (.ok (.executed o))) := by
    have hnodup : (sampleHashed.map sampleHash).Nodup := by decide +kernel
    intro a ha b hb heq
    rw [show (System.finish 1 _ t).hashed = _ from hhashed] at ha hb
    exact List.inj_on_of_nodup_map hnodup ha hb heq
  obtain ⟨hdecided, hdelivered⟩ := outcome_durable lawful_sampleRunner untar_sampleTar hruns .refl
    hlosses hfree
  have hconcluded : Concluded sampleRunner (t.finish 1 (.ok (.executed o))) sampleRequest o :=
    .of_returned (good_of_runs lawful_sampleRunner hruns).ok.2 hlosses List.mem_cons_self hbegan rfl
  exact ⟨_, o, hruns, ⟨_, List.mem_cons_self, rfl⟩,
    hdecided _ List.mem_cons_self _ sampleRequest o hbegan rfl rfl,
    hdelivered _ _ _ hconcluded.record (decodeRecord_completed hconcluded.pattern o) rfl⟩

end TosAi.SoftwareWork
