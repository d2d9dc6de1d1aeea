/-
  The two halves of an outcome assertion.

  `BuildOperationOutcomeArtifacts` reads the record twice, each time under the
  mutex: once in `ExportOutcomeEvidence`, for the evidence object, and once for the
  assertion that points at that object by its digest.  The two halves speak of one
  state of the execution exactly if the record was not written between the reads
  (`observation_matches_iff`), and nothing keeps a transition from writing it there
  (`observation_torn`).
-/
import TosAi.CommerceGate.Soundness
import TosAi.CommerceGate.Calls

set_option autoImplicit false

namespace TosAi.CommerceGate

open Foundation

variable {C : Commerce}

/-! ## Digests in the evidence -/

theorem le_of_isHexDigit {c : Char} (h : isHexDigit c = true) : c ≤ 'z' := by
  simp only [isHexDigit, Bool.or_eq_true, Bool.and_eq_true, decide_eq_true_eq] at h
  rcases h with (h | h) | h
  · exact h.2.trans (by decide)
  · exact h.2.trans (by decide)
  · exact h.2.trans (by decide)

theorem canonicalOutcomeDigest_of_valid {s : String} (h : validDigest s = true) :
    canonicalOutcomeDigest s = s := by
  simp only [validDigest, Bool.and_eq_true, beq_iff_eq, List.all_eq_true] at h
  obtain ⟨⟨hlength, hhead⟩, hdigits⟩ := h
  have hsmall : ∀ c ∈ s.toList, c.utf8Size = 1 := by
    rw [← List.take_append_drop 7 s.toList, hhead]
    intro c hc
    rcases List.mem_append.mp hc with hc | hc
    · have hletters : c ∈ ['s', 'h', 'a', '2', '5', '6', ':'] := hc
      simp only [List.mem_cons, List.not_mem_nil, or_false] at hletters
      rcases hletters with rfl | rfl | rfl | rfl | rfl | rfl | rfl <;>
        exact utf8Size_of_le (by decide)
    · exact utf8Size_of_le (le_of_isHexDigit (hdigits c hc))
  have hsize : s.utf8ByteSize = 71 := by
    rw [← String.ofList_toList (s := s), String.utf8ByteSize_ofList,
      utf8Len_of_small hsmall, hlength]
  simp [canonicalOutcomeDigest, hsize, hhead]

/-- The evidence carries the identifiers of the start as the record has them. -/
theorem Readable.start_canonical {e : Record} (h : Readable e) :
    canonicalOutcomeDigest e.startActionID = e.startActionID ∧
    canonicalOutcomeDigest e.startRequestDigest = e.startRequestDigest := by
  have hfields := h.fields
  simp only [recordFieldsOk, Bool.and_eq_true, Bool.or_eq_true, beq_iff_eq] at hfields
  obtain ⟨⟨-, hboth⟩, hnone | ⟨haction, hrequest⟩⟩ := hfields
  · have hnone' : e.startRequestDigest = "" := by
      simpa [hnone] using hboth
    rw [hnone, hnone']
    exact ⟨rfl, rfl⟩
  · exact ⟨canonicalOutcomeDigest_of_valid haction, canonicalOutcomeDigest_of_valid hrequest⟩

/-! ## The assertion and the evidence -/

/-- The assertion says of the execution what the evidence says that it points at;
the state is in lower case there. -/
structure Matches (a : Artifacts C) : Prop where
  state : a.assertion.state = a.evidence.state.text.toLower
  stateRevision : a.assertion.stateRevision = a.evidence.stateRevision
  startActionID : a.assertion.startActionID = a.evidence.startActionID
  startRequestDigest : a.assertion.startRequestDigest = a.evidence.startRequestDigest
  record : C.digest "tos.ai.execution-gate-evidence.v1" (.evidence a.evidence) =
    .ok a.assertion.authoritativeRecord

theorem Snapshots.matches_iff {a : Artifacts C} (h : Snapshots a) :
    Matches a ↔ a.exportVersion = a.assertionVersion := by
  obtain ⟨e, e', id, observedAt, request, d₁, d₂, d₃, d₄, observedAt', hreadable, -, hevidence,
    hassertion, hdigest, hversions⟩ := h
  constructor
  · intro hmatches
    rcases hversions with ⟨hsame, -⟩ | ⟨-, hlater⟩
    · exact hsame
    · have hrevision := hmatches.stateRevision
      rw [hassertion, hevidence] at hrevision
      have heq : e'.stateRevision = e.stateRevision := hrevision
      rw [heq] at hlater
      exact absurd hlater (Nat.lt_irrefl _)
  · intro hsame
    rcases hversions with ⟨-, rfl⟩ | ⟨hlater, -⟩
    · obtain ⟨haction, hrequest⟩ := hreadable.start_canonical
      refine ⟨?_, ?_, ?_, ?_, ?_⟩
      · rw [hassertion, hevidence]
        rfl
      · rw [hassertion, hevidence]
        rfl
      · rw [hassertion, hevidence]
        exact haction.symm
      · rw [hassertion, hevidence]
        exact hrequest.symm
      · rw [hdigest, hassertion]
        rfl
    · exact absurd hsame hlater.ne

/-- **When an outcome assertion and its evidence are one snapshot.**  In every quiet
run, whatever other calls did in between, the artifacts a call returned agree
exactly if the record had the same version at both of its reads. -/
theorem observation_matches_iff {cfg : Config (Op C) Res (System C) (Outcome C)}
    (hrun : (gateMachine C).Run Quiet (gateInit C) cfg) {c : Nat} {a : Artifacts C}
    (hreturned : (c, .ok (.artifacts a)) ∈ cfg.shared.returned) :
    Matches a ↔ a.exportVersion = a.assertionVersion :=
  ((inv_of_run hrun).fine c (.ok (.artifacts a)) hreturned : Snapshots a).matches_iff

/-! ## A torn observation -/

/-- A request for the artifacts of the sample execution. -/
def sampleRequest : ArtifactRequest where
  executionID := zeroDigest
  issuerDescriptor := "i"
  visibility := "public"
  audienceDigest := zeroDigest
  retentionPolicyDigest := zeroDigest
  retrievalPolicyDigest := zeroDigest
  gatePolicyDigest := zeroDigest
  authorityProofs := [⟨"time", []⟩, ⟨"issuer", []⟩]
  observedAt := some 0

theorem complete_sampleRequest : Complete tolerant sampleRequest 0 where
  policy := validDigest_zeroDigest
  two := rfl
  proofs := ⟨_, _, zeroDigest, zeroDigest, _, rfl, rfl, rfl,
    validDigest_ne_empty validDigest_zeroDigest, validDigest_ne_empty validDigest_zeroDigest⟩
  observed := rfl
  named := validDigest_ne_empty validDigest_zeroDigest

theorem tolerant_acceptsOutcomes : tolerant.AcceptsOutcomes where
  marshal := fun _ => ⟨_, rfl⟩
  digest := fun _ _ => ⟨_, rfl⟩
  manifest := fun _ => rfl
  observation := fun _ => rfl
  event := fun _ _ _ => ⟨_, rfl⟩
  bundle := fun _ _ => rfl

/-- The call stops between its reads; it is resumed with the record `e'` in place,
and its assertion is about `e'`. -/
theorem Stage.halfBuilt {g : Nat} {A : System tolerant → Prop}
    {cfg : Config (Op tolerant) Res (System tolerant) (Outcome tolerant)} (hA : Lax A)
    (hs : A cfg.shared) {e : Record} (hstage : Stage g sampleName (some e.file) cfg)
    (hreadable : Readable e) (hplan : e.plan.executionID = zeroDigest) {e' : Record}
    (hreadable' : Readable e') :
    ∃ q cfg', (gateMachine tolerant).Run A cfg cfg' ∧ A cfg'.shared ∧
      Stage g sampleName (some e.file) cfg' ∧ cfg'.pool cfg.shared.next = some q ∧
      cfg'.shared.calls cfg.shared.next = some (g, .buildOperationOutcomeArtifacts sampleRequest) ∧
      ∀ u : System tolerant,
        u.calls cfg.shared.next = some (g, .buildOperationOutcomeArtifacts sampleRequest) →
        u.mu g = none → u.fs.now sampleName = some e'.file →
        Prog.Always ((calm 200 (by decide)).works cfg.shared.next)
          (fun out _ => ∃ (a : Artifacts tolerant) (d₁ d₂ d₃ d₄ : String),
            out = .ok (.artifacts a) ∧ a.evidence = outcomeEvidence zeroDigest 0 e ∧
            a.assertion = gateObservation sampleRequest e' d₁ d₂ d₃ d₄ 0) q u := by
  have hpath : path sampleRequest.executionID = sampleName := path_zeroDigest
  have hnow := hstage.disk.now
  rw [← hpath] at hnow
  let m : Method := .buildOperationOutcomeArtifacts sampleRequest
  have hbegin := hA.begin g m cfg.shared (fun h => nomatch h) hs
  obtain ⟨q, t, rfl, hrun, hrest⟩ := run_halt (W := calm 200 (by decide)) hA.toCoarse
    (hstage.vacant cfg.shared.next (Nat.le_refl _)).2.2 (g := g) (m := m) hstage.published hbegin
    (R := fun t => t = cfg.shared.begin g m)
    (Q := fun r _ => ∃ (a : Artifacts tolerant) (d₁ d₂ d₃ d₄ : String), r = .artifacts a ∧
      a.evidence = outcomeEvidence zeroDigest 0 e ∧
      a.assertion = gateObservation sampleRequest e' d₁ d₂ d₃ d₄ 0)
    (Halts.within (halts_buildOperationOutcomeArtifacts tolerant_acceptsOutcomes
      complete_sampleRequest ⟨begin_calls _ _ _, hstage.lock, hstage.free⟩ hnow hreadable hplan
      hreadable' fun a _ d₁ d₂ d₃ d₄ hevidence hassertion =>
        ⟨a, d₁, d₂, d₃, d₄, rfl, hevidence, hassertion⟩))
  refine ⟨q, _, hrun, hbegin, ⟨hstage.published, hstage.lock, hstage.owner, hstage.free,
    hstage.disk, Nat.lt_succ_of_lt hstage.opened, fun c hc => ?_⟩, Function.update_self ..,
    begin_calls _ _ _, fun u hcall hfree hu => ?_⟩
  · have hlt : cfg.shared.next < c := hc
    obtain ⟨hcall, hmu, hpool⟩ := hstage.vacant c (Nat.le_of_lt hlt)
    simp [System.begin, hcall, hmu, hpool, hlt.ne']
  · refine Prog.Always.mono (fun out v hout => ?_) (hrest u ⟨hcall, hfree, by rw [hpath]; exact hu⟩)
    cases out with
    | error err => exact hout.elim
    | ok r =>
      obtain ⟨a, d₁, d₂, d₃, d₄, rfl, hevidence, hassertion⟩ := hout
      exact ⟨a, d₁, d₂, d₃, d₄, rfl, hevidence, hassertion⟩

/-- The artifacts of the started execution, made with no other call in between. -/
theorem observation_matches_iff_started : ∃ cfg : Config (Op tolerant) Res (System tolerant)
      (Outcome tolerant), ∃ (c : Nat) (a : Artifacts tolerant),
    (gateMachine tolerant).Run Quiet (gateInit tolerant) cfg ∧
    (c, .ok (.artifacts a)) ∈ cfg.shared.returned ∧ a.evidence.state = .starting ∧
    (Matches a ↔ a.exportVersion = a.assertionVersion) := by
  obtain ⟨cfg₀, hrun₀, hs₀, hstage₀, -⟩ := rehearse_prepared lax_noClose (fun _ _ h => nomatch h)
  obtain ⟨cfg₁, hrun₁, hs₁, hstage₁, -⟩ := hstage₀.started lax_noClose hs₀
  obtain ⟨q, cfg₂, hrun₂, hs₂, hstage₂, hpool₂, hcall₂, hrest⟩ := hstage₁.halfBuilt lax_noClose hs₁
    readable_startedRecord rfl readable_startedRecord
  obtain ⟨out, t, ⟨a, d₁, d₂, d₃, d₄, rfl, hevidence, -⟩, -, hrun₃⟩ :=
    run_resume lax_noClose.toCoarse hpool₂ hs₂
      (hrest cfg₂.shared hcall₂ hstage₂.free hstage₂.disk.now)
  have hreach := (((hrun₀.trans hrun₁).trans hrun₂).trans hrun₃).mono fun _ h => h.quiet
  have hmem : (cfg₁.shared.next, .ok (.artifacts a)) ∈
      (System.finish cfg₁.shared.next (.ok (.artifacts a)) t).returned :=
    List.mem_append_right _ (List.mem_singleton_self _)
  refine ⟨_, cfg₁.shared.next, a, hreach, hmem, ?_, observation_matches_iff hreach hmem⟩
  rw [hevidence]
  rfl

/-- **An assertion that contradicts its evidence.**  The evidence is exported from
the started execution; it is marked as running; the assertion is made from the
running execution, and all the checks accept it. -/
theorem observation_torn : ∃ cfg : Config (Op tolerant) Res (System tolerant) (Outcome tolerant),
    ∃ (c : Nat) (a : Artifacts tolerant),
    (gateMachine tolerant).Run Quiet (gateInit tolerant) cfg ∧
    (c, .ok (.artifacts a)) ∈ cfg.shared.returned ∧
    a.evidence.state = .starting ∧ a.assertion.state = State.running.text.toLower ∧
    ¬ Matches a := by
  obtain ⟨cfg₀, hrun₀, hs₀, hstage₀, -⟩ := rehearse_prepared lax_noClose (fun _ _ h => nomatch h)
  obtain ⟨cfg₁, hrun₁, hs₁, hstage₁, -⟩ := hstage₀.started lax_noClose hs₀
  obtain ⟨q, cfg₂, hrun₂, hs₂, hstage₂, hpool₂, hcall₂, hrest⟩ := hstage₁.halfBuilt lax_noClose hs₁
    readable_startedRecord rfl readable_runningRecord
  obtain ⟨cfg₃, r, hrun₃, hs₃, hstage₃, hmade₃⟩ := hstage₂.running lax_noClose hs₂
  have hpool₃ : cfg₃.pool cfg₁.shared.next = some q := by
    rw [hmade₃.pool, hpool₂]
  have hcall₃ : cfg₃.shared.calls cfg₁.shared.next =
      some (0, .buildOperationOutcomeArtifacts sampleRequest) := by
    rw [hmade₃.calls, hcall₂]
  obtain ⟨out, t, ⟨a, d₁, d₂, d₃, d₄, rfl, hevidence, hassertion⟩, -, hrun₄⟩ :=
    run_resume lax_noClose.toCoarse hpool₃ hs₃
      (hrest cfg₃.shared hcall₃ hstage₃.free hstage₃.disk.now)
  refine ⟨_, cfg₁.shared.next, a, ((((hrun₀.trans hrun₁).trans hrun₂).trans hrun₃).trans hrun₄).mono
    fun _ h => h.quiet, List.mem_append_right _ (List.mem_singleton_self _), ?_, ?_, fun h => ?_⟩
  · rw [hevidence]
    rfl
  · rw [hassertion]
    rfl
  · have hrevision := h.stateRevision
    rw [hevidence, hassertion] at hrevision
    have heq : runningRecord.stateRevision = startedRecord.stateRevision := hrevision
    exact absurd heq (by decide)

end TosAi.CommerceGate
