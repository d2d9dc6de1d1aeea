/-
  The two methods of several sections, and the soundness of the discipline.

  Between two sections of one call everything may happen to the record.  What the
  call still knows is stated once for each method: `SeenAt` for the evidence, that
  a rewritten record has a higher revision; `Admitted` for an effect, that nobody
  but the call that submitted it makes it terminal.

  `gate_sound` collects the specifications of all methods.
-/
import TosAi.CommerceGate.Methods

set_option autoImplicit false

namespace TosAi.CommerceGate

open Foundation Foundation.Discipline

variable {C : Commerce} {c g : Nat} {m : Method}

theorem Carried.exists {ι : Type} {P : ι → System C → Prop} (h : ∀ i, Carried c g m (P i)) :
    Carried c g m fun s => ∃ i, P i s where
  stays := by
    rintro s s' hinterferes ⟨hcall, i, hs⟩
    obtain ⟨hcall', hs'⟩ := (h i).stays s s' hinterferes ⟨hcall, hs⟩
    exact ⟨hcall', i, hs'⟩
  mutex := fun s mu' ⟨i, hs⟩ => ⟨i, (h i).mutex s mu' hs⟩

variable {n : FileName} {s : System C} {e : Record}

/-- A file name's present contents being a whole record, the record is well
formed. -/
theorem Inv.wf_now (hinv : Inv s) (hn : n.isRecord = true) (hnow : s.fs.now n = some e.file) :
    WF C n e := by
  have hmem : some e.file ∈ s.fs.outcomes n := hnow ▸ (s.fs.slot n).now_mem_outcomes
  rcases hinv.sane n hn _ hmem with hunborn | ⟨e', hwf, hfile⟩
  · exact hunborn.ne_file.elim
  · obtain rfl := Record.file_injective (Option.some.inj hfile)
    exact hwf

/-! ## Outcome evidence -/

/-- The record was `e` at the given version, and if it has been rewritten since, by
one of a higher revision. -/
def SeenAt (n : FileName) (e : Record) (version : Nat) (s : System C) : Prop :=
  ((s.fs.slot n).version = version ∧ s.fs.now n = some e.file) ∨
  (version < (s.fs.slot n).version ∧ ∃ e' : Record, s.fs.now n = some e'.file ∧
    e.stateRevision.toNat < e'.stateRevision.toNat)

theorem SeenAt.moves {s' : System C} (hinv : Inv s) (hn : n.isRecord = true) {mine : String → Prop}
    (hmoves : SlotMoves C n mine (s.fs.slot n) (s'.fs.slot n)) {version : Nat}
    (hs : SeenAt n e version s) : SeenAt n e version s' := by
  have hrewrite : ∀ {e₁ : Record}, s.fs.now n = some e₁.file →
      Evo C n mine (s.fs.now n) (s'.fs.now n) → ∃ e₂ : Record, s'.fs.now n = some e₂.file ∧
        e₂.stateRevision.toNat = e₁.stateRevision.toNat + 1 := by
    intro e₁ hnow hevo
    rw [hnow] at hevo
    obtain ⟨e₂, hevolves, hnow'⟩ := hevo.of_file
    exact ⟨e₂, hnow', hevolves.revision (hinv.wf_now hn hnow)⟩
  rcases hmoves.now with ⟨hversion, hnow⟩ | ⟨hversion, hevo⟩
  · unfold SeenAt
    rw [hversion, show s'.fs.now n = s.fs.now n from hnow]
    exact hs
  · rcases hs with ⟨hsame, hnow⟩ | ⟨hlater, e₁, hnow, hrevision⟩
    · obtain ⟨e₂, hnow', hnext⟩ := hrewrite hnow hevo
      exact .inr ⟨by omega, e₂, hnow', by omega⟩
    · obtain ⟨e₂, hnow', hnext⟩ := hrewrite hnow hevo
      exact .inr ⟨by omega, e₂, hnow', by omega⟩

theorem Carried.seenAt (hn : n.isRecord = true) (e : Record) (version : Nat) :
    Carried (C := C) c g m (SeenAt n e version) where
  stays := stable_of_frame fun _ _ hinv _ hframe hs =>
    ⟨hframe.calls.trans hs.1, hs.2.moves hinv hn (hframe.records n hn)⟩
  mutex := fun _ _ h => h

/-- What `ExportOutcomeEvidence` returned was made from the record `e`. -/
structure ExportedFrom (C : Commerce) (executionID : String) (x : Exported) (e : Record) :
    Prop where
  readable : Readable e
  evidence : ∃ observedAt, x.evidence = outcomeEvidence executionID observedAt e
  digest : C.digest "tos.ai.execution-gate-evidence.v1" (.evidence x.evidence) =
    .ok x.descriptor.evidenceItem.objectDigest

/-- The record the evidence was made from, and what became of it. -/
def ExportSeen (executionID : String) (x : Exported) (s : System C) : Prop :=
  ∃ e, ExportedFrom C executionID x e ∧ SeenAt (path executionID) e x.version s

theorem Carried.exportSeen (executionID : String) (x : Exported) :
    Carried (C := C) c g m (ExportSeen executionID x) :=
  .exists fun e => (Carried.const _).and (.seenAt (isRecord_path executionID) e _)

/-- **`ExportOutcomeEvidence`** reads the record once. -/
theorem spec_exportOutcomeEvidence (hgc : g ≠ c) (hm : m ≠ .close) (request : EvidenceRequest) :
    Spec (C := C) c (Idle c g m) (exportOutcomeEvidence request)
      (fun x s => Idle c g m s ∧ s.owner = some g ∧ ExportSeen request.executionID x s)
      (fun _ => Idle c g m) := by
  have hH := holdLike_held (C := C) (c := c) (g := g) hm
  have hn := isRecord_path request.executionID
  refine .bind (spec_lockHeld hgc hm) fun held => ?_
  dsimp only
  cases request.observedAt with
  | none => exact .throw fun _ _ hs => hs.1
  | some observedAt =>
    refine .bind (.ensure fun _ _ hs => hs.1) fun _ => ?_
    refine (spec_section hgc hm (fun x => (Carried.exportSeen request.executionID x).sheltered hm)
      ?_).pre fun s _ hs => ?_
    · refine .bind ((hH.spec_readRecord hn).conseq (fun _ _ h => h) (fun _ _ h => h)
        fun _ _ hs => hs.1) fun r => ?_
      obtain ⟨e, version⟩ := r
      refine .bind (.ensure fun _ _ hs => hs.1) fun _ => ?_
      refine .bind (.ofExcept (Q := fun _ s => Held c g m s ∧
        Guards.Reads (path request.executionID) e version s)
        (fun _ _ _ hs => hs.1) fun _ _ hs => hs.1.1) fun canonical => ?_
      refine .bind (.ofExcept (Q := fun digest s => (Held c g m s ∧
          Guards.Reads (path request.executionID) e version s) ∧
        C.digest "tos.ai.execution-gate-evidence.v1"
          (.evidence (outcomeEvidence request.executionID observedAt e)) = .ok digest)
        (fun _ _ hdigest hs => ⟨hs, hdigest⟩) fun _ _ hs => hs.1) fun digest => ?_
      refine .bind (.nilError fun _ _ hs => hs.1.1) fun _ => ?_
      exact .pure fun s _ hs =>
        ⟨hs.1.1, e, ⟨hs.1.2.readable, ⟨observedAt, rfl⟩, hs.2⟩,
          .inl ⟨hs.1.2.version, hs.1.2.now⟩⟩
    · obtain ⟨⟨hidle, hlock⟩, hcondition⟩ := hs
      rw [Bool.and_eq_true] at hcondition
      exact ⟨hidle, hlock hcondition.1⟩

/-- Two reads of a record, the first one as it was seen then. -/
theorem SeenAt.then_reads {e' : Record} {version version' : Nat} (hseen : SeenAt n e version s)
    (hreads : Guards.Reads n e' version' s) :
    (version = version' ∧ e' = e) ∨
      (version < version' ∧ e.stateRevision.toNat < e'.stateRevision.toNat) := by
  have hnow : s.fs.now n = some e'.file := hreads.now
  rcases hseen with ⟨hsame, hold⟩ | ⟨hlater, e₁, hold, hrevision⟩
  · obtain rfl := Record.file_injective (Option.some.inj (hnow.symm.trans hold))
    exact .inl ⟨hsame.symm.trans hreads.version, rfl⟩
  · obtain rfl := Record.file_injective (Option.some.inj (hnow.symm.trans hold))
    exact .inr ⟨hreads.version ▸ hlater, hrevision⟩

/-- What the two reads of `BuildOperationOutcomeArtifacts` have to do with each
other. -/
def BothReads (C : Commerce) (executionID : String) (x : Exported) (r : Record × Nat) : Prop :=
  Readable r.1 ∧ ∃ e, ExportedFrom C executionID x e ∧ ((x.version = r.2 ∧ r.1 = e) ∨
    (x.version < r.2 ∧ e.stateRevision.toNat < r.1.stateRevision.toNat))

/-- The second read, with what was seen in the first section framed around it. -/
theorem spec_readAgain (hgc : g ≠ c) (hm : m ≠ .close) (executionID : String) (x : Exported) :
    Spec (C := C) c (fun s => Idle c g m s ∧ s.owner = some g ∧ ExportSeen executionID x s)
      (locked (readRecord (path executionID)))
      (fun r s => Idle c g m s ∧ s.owner = some g ∧ BothReads C executionID x r)
      (fun _ => Idle c g m) := by
  have hseen := Carried.exportSeen (C := C) (c := c) (g := g) (m := m) executionID x
  have hguards : Guards c fun s : System C => Held c g m s ∧ ExportSeen executionID x s :=
    ⟨fun s s' h hs => ⟨(Carried.owner hm).mutexed s s' h hs.1,
      (hseen.stays s s' h ⟨hs.1.1.1, hs.2⟩).2⟩, fun s hs => (holdLike_held hm).holds s hs.1⟩
  refine spec_held hgc hm hseen
    (fun r => (Carried.const (BothReads C executionID x r)).sheltered hm) ?_
  refine (hguards.spec_readRecord (isRecord_path executionID)).conseq (fun _ _ h => h)
    (fun r s hs => ?_) fun _ _ hs => hs.1.1
  obtain ⟨⟨hheld, e, hexported, hseen⟩, hreads⟩ := hs
  exact ⟨hheld, hreads.readable, e, hexported, hseen.then_reads hreads⟩

/-- **`BuildOperationOutcomeArtifacts`** reads the record twice. -/
theorem spec_buildOperationOutcomeArtifacts (hgc : g ≠ c) (hm : m ≠ .close)
    (request : ArtifactRequest) :
    Spec (C := C) c (Idle c g m) (buildOperationOutcomeArtifacts request)
      (fun a s => Idle c g m s ∧ Snapshots a) (fun _ => Idle c g m) := by
  have hcompute : ∀ {β : Type} (r : Except Err β),
      Spec (C := C) c (Idle c g m) (ofExcept r) (fun _ => Idle c g m) (fun _ => Idle c g m) :=
    fun r => .ofExcept (fun _ _ _ h => h) fun _ _ h => h
  have hcheck : ∀ condition message, Spec (C := C) c (Idle c g m) (ensure condition message)
      (fun _ => Idle c g m) (fun _ => Idle c g m) :=
    fun _ _ => (Spec.ensure fun _ _ h => h).post fun _ _ hs => hs.1
  refine .bind (hcheck _ _) fun _ => ?_
  refine .bind (hcompute _) fun proofs => ?_
  refine .bind (hcompute _) fun refs => ?_
  obtain ⟨refs, authorityTime, qualification⟩ := refs
  dsimp only
  cases C.sortOutcomeAuthorityProofRefsV1 refs with
  | error err => exact .throw fun _ _ h => h
  | ok refs =>
    refine .bind (hcheck _ _) fun _ => ?_
    refine .bind (spec_exportOutcomeEvidence hgc hm _) fun x => ?_
    refine .bind (spec_readAgain hgc hm request.executionID x) fun r => ?_
    obtain ⟨e', version'⟩ := r
    refine .assume (BothReads C request.executionID x (e', version')) (fun _ _ hs => hs.2.2)
      fun ⟨hreadable', e, hexported, hversions⟩ => ?_
    refine .pre (P := Idle c g m) ?_ fun _ _ hs => hs.1
    refine .bind (hcompute _) fun resourceDigest => ?_
    refine .bind (hcompute _) fun credentialDigest => ?_
    refine .bind (hcompute _) fun effectDigest => ?_
    dsimp only
    split
    · exact .throw fun _ _ h => h
    · refine .bind (hcheck _ _) fun _ => ?_
      refine .bind (hcompute _) fun event => ?_
      refine .bind (.nilError fun _ _ h => h) fun _ => ?_
      obtain ⟨observedAt, hevidence⟩ := hexported.evidence
      exact .pure fun s _ hs => ⟨hs, e, e', request.executionID, observedAt,
        request, resourceDigest, credentialDigest, effectDigest, _, _, hexported.readable,
        hreadable', hevidence, rfl, hexported.digest, hversions⟩

/-! ## Files outside the records -/

section Unguarded

variable {P : System C → Prop} {E : Err → System C → Prop}

/-- A file operation that leaves the guarded names alone. -/
theorem spec_unguarded (hP : Stays c P) (hfiles : ∀ s fs', P s → P { s with fs := fs' })
    {o : FsOp FileName}
    (hunguarded : ∀ fs answer fs', o.apply c fs answer fs' → ∀ n, n.isGuarded = true →
      fs'.slot n = fs.slot n ∨ fs'.slot n = (fs.slot n).settle) :
    Spec c P (perform (.file o)) (fun _ => P) E := by
  refine .perform hP fun s answer s' _ hinv hs happly => ?_
  obtain ⟨fs', happly, rfl⟩ := happly
  obtain ⟨hinv', hact⟩ := file_step_unguarded hinv (hunguarded s.fs answer fs' happly)
  exact ⟨hinv', hact, hfiles s fs' hs⟩

theorem modify_unguarded {x : FileName} (hx : x.isGuarded = false) (fs : Fs FileName)
    (f : Slot → Slot) (n : FileName) (hn : n.isGuarded = true) :
    (fs.modify x f).slot n = fs.slot n ∨ (fs.modify x f).slot n = (fs.slot n).settle := by
  refine .inl (Fs.modify_slot_of_ne _ _ ?_)
  rintro rfl
  rw [hn] at hx
  cases hx

theorem spec_fillAndRename_unguarded (hP : Stays c P)
    (hfiles : ∀ s fs', P s → P { s with fs := fs' }) (hE : ∀ e s, P s → E e s) {t n : FileName}
    (ht : t.isGuarded = false) (hn : n.isGuarded = false) (raw : Json.Bytes) :
    Spec c P (fillAndRename t n raw) (fun _ => P) E := by
  have hmodify := modify_unguarded ht
  refine .bind (spec_unguarded hP hfiles fun fs answer fs' h => ?_) fun modeSet => ?_
  · rcases h with ⟨-, rfl⟩ | ⟨-, rfl⟩
    · exact hmodify fs _
    · exact fun _ _ => .inl rfl
  refine .bind (.andThen (fun _ => spec_unguarded hP hfiles fun fs answer fs' h => ?_)
    fun _ h => h) fun written => ?_
  · rcases h with ⟨-, rfl⟩ | ⟨-, k, -, rfl⟩
    · exact hmodify fs _
    · exact hmodify fs _
  refine .bind (.andThen (fun _ => spec_unguarded hP hfiles fun fs answer fs' h => ?_)
    fun _ h => h) fun synced => ?_
  · rcases h with ⟨-, rfl⟩ | ⟨-, rfl⟩
    · exact hmodify fs _
    · exact fun _ _ => .inl rfl
  refine .bind (HoldLike.spec_close hP t) fun closed => ?_
  refine .bind (.succeed hE) fun _ => ?_
  refine .bind (.succeed fun e s hs => hE e s hs.1) fun _ => ?_
  refine .pre (P := P) ?_ fun _ _ hs => hs.1.1
  refine .bind (spec_unguarded hP hfiles fun fs answer fs' h => ?_) fun moved => ?_
  · rcases h with ⟨-, -, rfl⟩ | ⟨-, rfl⟩
    · intro x hx
      refine .inl (Fs.rename_slot_of_ne _ ?_ ?_)
      · rintro rfl
        rw [hx] at ht
        cases ht
      · rintro rfl
        rw [hx] at hn
        cases hn
    · exact fun _ _ => .inl rfl
  refine .bind (.succeed hE) fun _ => ?_
  refine .pre (P := P) ?_ fun _ _ hs => hs.1
  refine .bind (spec_unguarded hP hfiles fun fs answer fs' h => ?_) fun synced => ?_
  · rcases h with ⟨-, rfl⟩ | ⟨-, rfl⟩
    · exact fun _ _ => .inr rfl
    · exact fun _ _ => .inl rfl
  · exact (Spec.succeed hE).post fun _ _ hs => hs.1

/-- `writeEffectResponse` has nothing to do with the records. -/
theorem spec_writeEffectResponse (hP : Stays c P)
    (hfiles : ∀ s fs', P s → P { s with fs := fs' }) (stableID : String) (body : Json.Bytes) :
    Spec c P (writeEffectResponse stableID body) (fun _ => P) (fun _ => P) := by
  refine .bind (.perform (R := fun answer s => P s ∧ ∀ t, answer = some t → t.IsEffectTemp)
    hP fun s answer s' _ hinv hs happly => ?_) fun answer => ?_
  · obtain ⟨fs', happly, rfl⟩ := happly
    rcases happly with ⟨t, ⟨k, rfl⟩, -, rfl, rfl⟩ | ⟨rfl, rfl⟩
    · obtain ⟨hinv', hact⟩ := file_step_unguarded (c := c) hinv
        (modify_unguarded (x := .effectTemp k) rfl s.fs (Slot.create c 0o600))
      refine ⟨hinv', hact, hfiles s _ hs, fun t ht => ⟨k, (Option.some.inj ht).symm⟩⟩
    · exact ⟨hinv, Act.refl c s, hs, fun t ht => nomatch ht⟩
  · cases answer with
    | none => exact .throw fun s _ hs => hs.1
    | some t =>
      refine .assume t.IsEffectTemp (fun _ _ hs => hs.2 t rfl) fun ⟨k, hk⟩ => ?_
      subst hk
      refine .pre (P := P) ?_ fun _ _ hs => hs.1
      have hremove : Spec c P (perform (.file (.remove (.effectTemp k)))) (fun _ => P)
          (fun _ => P) := spec_unguarded hP hfiles fun fs answer fs' h => by
        rcases h with ⟨-, -, rfl⟩ | ⟨-, rfl⟩
        · exact modify_unguarded rfl fs _
        · exact fun _ _ => .inl rfl
      refine .deferred (Q := fun _ => P) (E := fun _ => P)
        (spec_fillAndRename_unguarded hP hfiles (fun _ _ h => h) rfl rfl _) fun r => ?_
      cases r with
      | ok u | error e => exact hremove

end Unguarded

/-! ## PerformHTTPS -/

/-- The call has not entered `performPinnedHTTPS` for the effect. -/
def Unentered (c : Nat) (n : FileName) (id : String) (s : System C) : Prop :=
  ∀ x ∈ s.entered, x.call = c → ¬ (x.entry.name = n ∧ x.entry.effectID = id)

/-- The effect is this call's, stands as submitted in everything a power loss may
leave, and has not been carried out. -/
def Admitted (c : Nat) (n : FileName) (id : String) (action : AuthorizedAction) (s : System C) :
    Prop :=
  s.tokens n (.effect id) = some c ∧ (∀ o ∈ s.fs.outcomes n, Holding (SubmittedBy id action) o) ∧
    Unentered c n id s

variable {s : System C} {n : FileName} {id : String}

theorem Unentered.frame {s' : System C} (hframe : Frame c s s') (hs : Unentered c n id s) :
    Unentered c n id s' :=
  fun x hx hcall => hs x (hframe.entered x hx hcall) hcall

/-- **Nobody else makes the effect terminal.** -/
theorem Carried.admitted (hn : n.isRecord = true) (id : String) (action : AuthorizedAction) :
    Carried (C := C) c g m (Admitted c n id action) where
  stays := by
    refine stable_of_frame fun s s' _ _ hframe hs => ?_
    obtain ⟨hcall, htoken, hall, hentered⟩ := hs
    refine ⟨hframe.calls.trans hcall, hframe.tokens htoken, ?_, hentered.frame hframe⟩
    refine (hframe.records n hn).all_outcomes (fun hevo hsubmitted => ?_) hall
    exact Holding.evo (fun hevolves => hevolves.submittedBy fun hother => hother htoken) hsubmitted
      hevo
  mutex := fun _ _ h => h

/-- The token of an effect that is not in the record is free. -/
theorem effect_free (hinv : Inv s) {e : Record} (hnow : s.fs.now n = some e.file)
    (habsent : e.effects[id]? = none) :
    s.tokens n (.effect id) = none := by
  cases htoken : s.tokens n (.effect id) with
  | none => rfl
  | some d =>
    obtain ⟨-, -, hall⟩ := hinv.effectToken n id d htoken
    have hmem : some e.file ∈ s.fs.outcomes n := hnow ▸ (s.fs.slot n).now_mem_outcomes
    obtain ⟨e', hfile, r, hr⟩ := hall _ hmem
    obtain rfl := Record.file_injective (Option.some.inj hfile)
    rw [habsent] at hr
    cases hr

/-- No call has entered for an effect whose token is free. -/
theorem unentered_of_free (hinv : Inv s) (hfree : s.tokens n (.effect id) = none) :
    Unentered c n id s := by
  rintro x hx - ⟨rfl, rfl⟩
  rw [(hinv.entered x hx).1.token] at hfree
  cases hfree

/-- What the first section of `PerformHTTPS` hands over. -/
def AdmissionFacts (c : Nat) (call : EffectCall) : Admission → System C → Prop
  | .known _, _ => True
  | .fresh entry _ _, s =>
    (entry.state = .running ∧ path entry.plan.executionID = path call.launch.executionID) ∧
      Admitted c (path call.launch.executionID) call.request.planEffectID call.action s

theorem Carried.admissionFacts (call : EffectCall) (a : Admission) :
    Carried (C := C) c g m (AdmissionFacts c call a) := by
  cases a with
  | known prior => exact .const True
  | fresh entry network credential =>
    exact (Carried.const _).and (.admitted (isRecord_path _) _ _)

theorem HoldLike.with_unentered {H : System C → Prop} (hH : HoldLike c H) (n : FileName)
    (id : String) : HoldLike c fun s => H s ∧ Unentered c n id s where
  stays := fun s s' h hs => ⟨hH.stays s s' h hs.1, hs.2.frame (frame_of_interferes h)⟩
  holds := fun s hs => hH.holds s hs.1
  files := fun s fs' hs => ⟨hH.files s fs' hs.1, hs.2⟩

theorem submittedBy_submit (e : Record) (id : String) (action : AuthorizedAction) :
    SubmittedBy id action (e.submit id action) :=
  ⟨_, by rw [Record.submit, getElem?_insert_effect, if_pos rfl], rfl, rfl, rfl⟩

/-- An effect that is not in the record is written there and claimed. -/
theorem spec_submit (hm : m ≠ .close) (call : EffectCall) {e : Record}
    (hrunning : e.state = .running) (hwf : WF C (path call.launch.executionID) e)
    (habsent : e.effects[call.request.planEffectID]? = none)
    (hplanned : ∃ b ∈ e.plan.effectBindings, b.planEffectID = call.request.planEffectID)
    (haction : WellFormedAction C call.action) (network : NetworkBinding)
    (credential : Option CredentialBinding) :
    Spec (C := C) c (fun s => Held c g m s ∧ s.fs.now (path call.launch.executionID) = some e.file)
      (do
        replaceRecord (path call.launch.executionID)
          (e.submit call.request.planEffectID call.action)
        let _ ← perform (.claim (path call.launch.executionID)
          (.effect call.request.planEffectID))
        pure (.fresh e network credential))
      (fun a s => Held c g m s ∧ AdmissionFacts c call a s) (fun _ => Held c g m) := by
  have hH := holdLike_held (C := C) (c := c) (g := g) hm
  have hn := isRecord_path call.launch.executionID
  have hfree := hH.with_tokens fun tokens =>
    tokens (path call.launch.executionID) (.effect call.request.planEffectID) = none
  have hunentered := hH.with_unentered (path call.launch.executionID) call.request.planEffectID
  have hshows : Shows (.effect call.request.planEffectID)
      (e.submit call.request.planEffectID call.action) := by
    obtain ⟨r, hr, -⟩ := submittedBy_submit e call.request.planEffectID call.action
    exact ⟨r, hr⟩
  refine .bind ((hfree.spec_replaceRecord hn e _).conseq (fun s hok hs => ?_) (fun _ _ h => h)
    fun _ _ hs => hs.1) fun _ => ?_
  · exact ⟨⟨hs.1, effect_free hok.2 hs.2 habsent⟩, hs.2,
      .submit _ call.action hrunning habsent hplanned haction⟩
  refine .bind ((spec_claim hunentered (fun _ _ h => h) hn hshows).pre fun s hok hs => ?_)
    fun _ => ?_
  · exact ⟨⟨⟨hs.1.1, unentered_of_free hok.2 hs.1.2⟩, hs.1.2⟩, hs.2⟩
  · refine .pure fun s _ hs => ?_
    obtain ⟨⟨⟨hheld, hentered⟩, htoken⟩, hdurable⟩ := hs
    refine ⟨hheld, ⟨hrunning, hwf.path⟩, htoken, fun o ho => ?_, hentered⟩
    rw [hdurable, List.mem_singleton] at ho
    exact ⟨_, ho, submittedBy_submit _ _ _⟩

/-- **First section**: the effect is submitted, once, and on disk. -/
theorem spec_admitEffect (hgc : g ≠ c) (hm : m ≠ .close) (call : EffectCall) (now : Time) :
    Spec (C := C) c (fun s => Idle c g m s ∧ s.owner = some g) (admitEffect call now)
      (fun a s => Idle c g m s ∧ s.owner = some g ∧ AdmissionFacts c call a s)
      (fun _ => Idle c g m) := by
  have hH := holdLike_held (C := C) (c := c) (g := g) hm
  have hn := isRecord_path call.launch.executionID
  refine spec_section hgc hm (fun a => (Carried.admissionFacts call a).sheltered hm) ?_
  refine .bind (.attempt (hH.spec_readRecord hn)) fun r => ?_
  cases r with
  | error err => exact .throw fun _ _ hs => hs.1
  | ok read =>
    obtain ⟨e, version⟩ := read
    have hreads := hH.stays_reads hn e version
    refine .bind (.ensure fun _ _ hs => hs.1) fun _ => ?_
    refine .assume (e.state = .running ∧ WF C (path call.launch.executionID) e)
      (fun s _ hs => ?_) fun ⟨hrunning, hwf⟩ => ?_
    · obtain ⟨⟨-, hread⟩, hcondition⟩ := hs
      simp only [Bool.and_eq_true, beq_iff_eq] at hcondition
      exact ⟨hcondition.1.1, hread.wf⟩
    refine .pre (P := fun s => Held c g m s ∧
      Guards.Reads (path call.launch.executionID) e version s) ?_ fun _ _ hs => hs.1
    dsimp only
    cases heffect : e.plan.effectBindings.find? fun b =>
        b.planEffectID == call.request.planEffectID with
    | none => exact .throw fun _ _ hs => hs.1
    | some effect =>
      have hplanned : ∃ b ∈ e.plan.effectBindings, b.planEffectID = call.request.planEffectID :=
        ⟨effect, List.mem_of_find?_eq_some heffect, by simpa using List.find?_some heffect⟩
      dsimp only
      cases boundNetwork e.plan effect with
      | none => exact .throw fun _ _ hs => hs.1
      | some network =>
        refine .bind (.query (fun _ _ _ h => h) hreads) fun authority => ?_
        refine .bind (.query (fun _ _ _ h => h) hreads) fun authority' => ?_
        refine .bind (.ensure fun _ _ hs => hs.1) fun _ => ?_
        refine .assume (WellFormedAction C call.action) (fun s _ hs => ?_)
          fun haction => ?_
        · simp only [Bool.and_eq_true] at hs
          exact wellFormedAction_of_authorized hs.2.1.1
        cases hprior : e.effects[call.request.planEffectID]? with
        | some prior =>
          exact .pure fun _ _ hs => ⟨hs.1.1, trivial⟩
        | none =>
          exact (spec_submit hm call hrunning hwf hprior hplanned haction network
            (boundCredential e.plan effect)).pre
            fun _ _ hs => ⟨hs.1.1, hs.1.2.now⟩

theorem Inv.enter (hinv : Inv s) {entry : Entry}
    (hadmitted : Admitted c entry.name entry.effectID entry.action s) (hlive : s.calls c ≠ none)
    (hrunning : entry.admitted.state = .running)
    (hpath : CommerceGate.path entry.admitted.plan.executionID = entry.name) :
    Inv { s with entered := s.entered ++ [⟨c, entry, s.fs.outcomes entry.name⟩] } where
  fresh := hinv.fresh
  spent := hinv.spent
  opening := hinv.opening
  published := hinv.published
  mutex := hinv.mutex
  lock := hinv.lock
  sane := hinv.sane
  startToken := hinv.startToken
  effectToken := hinv.effectToken
  launched := hinv.launched
  once := hinv.once
  fine := hinv.fine
  entered := by
    intro x hx
    rcases List.mem_append.mp hx with hx | hx
    · exact hinv.entered x hx
    · obtain rfl := List.mem_singleton.mp hx
      exact ⟨⟨hadmitted.1, hrunning, hpath, hadmitted.2.1⟩, hinv.fresh c hlive⟩
  enteredOnce := by
    rw [List.map_append, List.nodup_append]
    refine ⟨hinv.enteredOnce, List.nodup_singleton _, ?_⟩
    rintro pair hmem pair' hmem' rfl
    obtain rfl := List.mem_singleton.mp hmem'
    obtain ⟨x, hx, hpair⟩ := List.mem_map.mp hmem
    obtain ⟨hname, hid⟩ := Prod.mk.inj hpair
    -- the earlier entry has the token, so it is this call's
    have htoken := (hinv.entered x hx).1.token
    rw [hname, hid, hadmitted.1] at htoken
    exact hadmitted.2.2 x hx (Option.some.inj htoken).symm ⟨hname, hid⟩

/-- The call may go on to make its effect terminal. -/
def Submitted (c g : Nat) (m : Method) (call : EffectCall) (s : System C) : Prop :=
  Idle c g m s ∧ s.owner = some g ∧
    s.tokens (path call.launch.executionID) (.effect call.request.planEffectID) = some c

theorem stays_submitted (hm : m ≠ .close) (call : EffectCall) :
    Stays c (Submitted (C := C) c g m call) :=
  ((Carried.owner hm).and (.token _ _ _)).idle

/-- **Second section**: `performPinnedHTTPS` is entered on an admitted effect. -/
theorem spec_performPinnedHTTPS (hm : m ≠ .close) (call : EffectCall) (entry : Record)
    (hentry : entry.state = .running ∧
      path entry.plan.executionID = path call.launch.executionID)
    (binding : NetworkBinding) (request : HTTPSRequest) (headers : List HTTPHeader)
    (stableID : String) :
    Spec (C := C) c (fun s => Idle c g m s ∧ s.owner = some g ∧
        Admitted c (path call.launch.executionID) call.request.planEffectID call.action s)
      (performPinnedHTTPS ⟨path call.launch.executionID, call.request.planEffectID, call.action,
        entry⟩ binding request headers stableID)
      (fun response s => Submitted c g m call s ∧ response.statusCode < 1000)
      (fun _ => Idle c g m) := by
  have hsubmitted := stays_submitted (C := C) (c := c) (g := g) hm call
  have hadmitted := (Carried.owner (C := C) (c := c) (g := g) hm).and
    (.admitted (isRecord_path call.launch.executionID) call.request.planEffectID call.action)
  refine .bind (R := fun _ => Submitted c g m call) (.perform hadmitted.idle
    fun s _ s' _ hinv hs happly => ?_) fun _ => ?_
  · obtain ⟨hidle, howner, hadmitted⟩ := hs
    obtain rfl := happly
    refine ⟨hinv.enter hadmitted ?_ hentry.1 hentry.2,
      { Act.refl c s with entered := .inr ⟨_, rfl, rfl⟩ }, hidle, howner, hadmitted.1⟩
    rw [hidle.1]
    exact Option.some_ne_none _
  refine .bind (.ensure fun _ _ hs => hs.1) fun _ => ?_
  refine .bind (R := fun answer s => Submitted c g m call s ∧
      ∀ status body, answer = .ok (status, body) → status < 1000)
    (.perform (Stays.and_const hsubmitted) fun s answer s' _ hinv hs happly => ?_)
    fun answer => ?_
  · obtain ⟨rfl, hstatus⟩ := happly
    exact ⟨hinv, Act.refl c s', hs.1, hstatus⟩
  refine .bind (.ofExcept (Q := fun r s => Submitted c g m call s ∧ r.1 < 1000)
    (fun r s hr hs => ⟨hs.1, hs.2 r.1 r.2 hr⟩) fun _ _ hs => hs.1.1) fun r => ?_
  obtain ⟨status, body⟩ := r
  refine .bind (.ensure fun _ _ hs => hs.1.1) fun _ => ?_
  exact .pure fun _ _ hs => hs.1

theorem spec_effectHeaders {P : System C → Prop} {E : Err → System C → Prop} (hP : Stays c P)
    (hE : ∀ e s, P s → E e s) (call : EffectCall) (credential : Option CredentialBinding)
    (now : Time) : Spec c P (effectHeaders call credential now) (fun _ => P) E := by
  cases credential with
  | none => exact .pure fun _ _ h => h
  | some binding =>
    refine .bind (.ensure hE) fun _ => ?_
    refine .bind (.query (fun _ _ _ h => h) (Stays.and_const hP)) fun secret => ?_
    refine .bind (.ofExcept (Q := fun _ => P) (fun _ _ _ hs => hs.1)
      fun e s hs => hE e s hs.1) fun secret => ?_
    exact .pure fun _ _ h => h

theorem spec_submitEffect (hm : m ≠ .close) (call : EffectCall) (entry : Record)
    (hentry : entry.state = .running ∧
      path entry.plan.executionID = path call.launch.executionID)
    (network : NetworkBinding) (credential : Option CredentialBinding) (now : Time) :
    Spec (C := C) c (fun s => Idle c g m s ∧ s.owner = some g ∧
        Admitted c (path call.launch.executionID) call.request.planEffectID call.action s)
      (submitEffect call entry network credential now)
      (fun response s => Submitted c g m call s ∧ response.statusCode < 1000 ∧
        (C.Lawful → validDigest response.digest = true)) (fun _ => Idle c g m) := by
  have hsubmitted := stays_submitted (C := C) (c := c) (g := g) hm call
  have hadmitted := ((Carried.owner (C := C) (c := c) (g := g) hm).and
    (.admitted (isRecord_path call.launch.executionID) call.request.planEffectID
      call.action)).idle
  refine .bind (spec_effectHeaders hadmitted (fun _ _ hs => hs.1) _ _ _) fun headers => ?_
  refine .bind (.query (fun _ _ _ h => h) hadmitted) fun valid => ?_
  refine .bind (.ensure fun _ _ hs => hs.1) fun _ => ?_
  refine .bind ((spec_performPinnedHTTPS hm call entry hentry _ _ _ _).pre
    fun _ _ hs => hs.1) fun response => ?_
  refine .bind (.ofExcept (Q := fun digest s => Submitted c g m call s ∧
      response.statusCode < 1000 ∧ (C.Lawful → validDigest digest = true))
    (fun digest s hdigest hs => ⟨hs.1, hs.2, fun hlawful => hlawful.digest hdigest⟩)
    fun _ _ hs => hs.1.1) fun digest => ?_
  have hstays := Stays.and_const (p := response.statusCode < 1000 ∧
    (C.Lawful → validDigest digest = true)) hsubmitted
  refine .bind ((spec_writeEffectResponse hstays (fun _ _ hs => hs) _ _).conseq
    (fun _ _ h => h) (fun _ _ h => h) fun _ _ hs => hs.1.1) fun _ => ?_
  exact .pure fun _ _ h => h

/-- **Third section**: the effect is terminal. -/
theorem spec_terminalizeEffect (hgc : g ≠ c) (hm : m ≠ .close) (call : EffectCall)
    (response : HTTPSResponse) (hstatus : response.statusCode < 1000)
    (hdigest : C.Lawful → validDigest response.digest = true) :
    Spec (C := C) c (Submitted c g m call) (terminalizeEffect call response)
      (fun w s => Idle c g m s ∧ Terminalized C response w ∧ w.OnDisk s)
      (fun _ => Idle c g m) := by
  have hn := isRecord_path call.launch.executionID
  have hH := (holdLike_held (C := C) (c := c) (g := g) hm).with_tokens fun tokens =>
    tokens (path call.launch.executionID) (.effect call.request.planEffectID) = some c
  refine (spec_held hgc hm (Carried.token (path call.launch.executionID)
    (.effect call.request.planEffectID) c) (fun w => sheltered_onDisk hm fun h => h.1) ?_).post
    fun _ _ hs => ⟨hs.1, hs.2.2⟩
  refine .bind (.attempt (hH.spec_readRecord hn)) fun r => ?_
  cases r with
  | error err => exact .throw fun _ _ hs => hs.1.1
  | ok read =>
    obtain ⟨e, version⟩ := read
    dsimp only
    cases hprior : e.effects[call.request.planEffectID]? with
    | none => exact .throw fun _ _ hs => hs.1.1
    | some prior =>
      refine .bind (.ensure fun _ _ hs => hs.1.1) fun _ => ?_
      refine .assume (prior.state = "submitted" ∧ Readable e ∧
        WF C (path call.launch.executionID) e) (fun s _ hs => ?_)
        fun ⟨hsubmitted, hreadable, hwf⟩ => ?_
      · obtain ⟨⟨-, hread⟩, hcondition⟩ := hs
        simp only [Bool.and_eq_true, beq_iff_eq] at hcondition
        exact ⟨hcondition.1, hread.readable, hread.wf⟩
      have hevolves : ∀ {mine : String → Prop}, mine call.request.planEffectID →
          Evolves C mine e (e.terminalize call.request.planEffectID prior response) :=
        fun hmine => .terminalize _ prior response hmine hprior hsubmitted hdigest
      refine .bind ((hH.spec_replaceRecord hn e _).conseq (fun s _ hs =>
        ⟨hs.1.1, hs.1.2.now, hevolves hs.1.1.2⟩) (fun _ _ h => h) fun _ _ hs => hs.1)
        fun _ => ?_
      have hany : Evolves C (fun _ => True) e _ := hevolves trivial
      exact .pure fun s _ hs => ⟨hs.1.1, ⟨hany.wf hwf, hstatus, e, call.request.planEffectID,
        prior, hreadable, hprior, rfl⟩, hs.2⟩

theorem spec_knownEffect {P : System C → Prop} {E : Err → System C → Prop} (hP : Stays c P)
    (hE : ∀ e s, P s → E e s) (call : EffectCall) (prior : EffectRecord) :
    Spec c P (knownEffect call prior) (fun _ => P) E := by
  refine .bind (.ensure hE) fun _ => ?_
  refine .bind (.ensure fun e s hs => hE e s hs.1) fun _ => ?_
  refine .bind (.query (fun s answer s' h => ?_) (Stays.and_const (Stays.and_const hP)))
    fun answer => ?_
  · obtain ⟨fs', ⟨rfl, -⟩, rfl⟩ := h
    rfl
  · cases answer with
    | error err => exact .throw fun s _ hs => hE _ s hs.1.1
    | ok seen => exact .pure fun s _ hs => hs.1.1

/-- **`PerformHTTPS`.** -/
theorem spec_performHTTPS (hgc : g ≠ c) (hm : m ≠ .close) (call : EffectCall) :
    Spec (C := C) c (Idle c g m) (performHTTPS call)
      (fun r s => Idle c g m s ∧ ∀ w, r.2 = some w → Terminalized C r.1 w ∧ w.OnDisk s)
      (fun _ => Idle c g m) := by
  have howner := (Carried.owner (C := C) (c := c) (g := g) hm).idle
  refine spec_owned hgc hm (fun _ h => h) (fun _ _ h => h) ?_
  refine .bind (.query (fun _ _ _ h => h) howner) fun now => ?_
  refine .bind (spec_admitEffect hgc hm call now) fun a => ?_
  cases a with
  | known prior =>
    refine .bind ((spec_knownEffect howner (fun _ _ hs => hs.1) call prior).pre
      fun _ _ hs => ⟨hs.1, hs.2.1⟩) fun response => ?_
    exact .pure fun _ _ hs => ⟨hs.1, fun _ h => nomatch h⟩
  | fresh entry network credential =>
    refine .assume (entry.state = .running ∧
      path entry.plan.executionID = path call.launch.executionID) (fun _ _ hs => hs.2.2.1)
      fun hentry => ?_
    refine .bind ((spec_submitEffect hm call entry hentry network credential now).pre
      fun _ _ hs => ⟨hs.1, hs.2.1, hs.2.2.2⟩)
      fun response => ?_
    refine .assume _ (fun _ _ hs => hs.2) fun hresponse => ?_
    refine .bind ((spec_terminalizeEffect hgc hm call response hresponse.1
      hresponse.2).pre fun _ _ hs => hs.1) fun w => ?_
    refine .pure fun s _ hs => ⟨hs.1, fun w' hw' => ?_⟩
    exact Option.some.inj hw' ▸ hs.2

/-! ## Soundness -/

/-- What a method other than `Open` and `Close` has established where it comes to its value. -/
structure Told (c g : Nat) (m : Method) (r : Result C) (s : System C) : Prop where
  idle : Idle c g m s
  fine : Fine C (.ok r)
  opened : r ≠ .opened := by exact fun h => nomatch h
  launch : ∀ l w, r = .launch l w → s.tokens (path l.executionID) .start = some c := by
    exact fun _ _ h => nomatch h
  written : ∀ w, Outcome.written? (.ok r) = some w → w.OnDisk s := by exact fun _ h => nomatch h

theorem post_error {e : Err} (hm : m ≠ .close) (hs : Idle c g m s) :
    (gateDiscipline C).post c (.error e) s where
  left :=
    { live := by
        rw [hs.1]
        exact Option.some_ne_none _
      released := hs.2
      launch := fun _ _ h => nomatch h
      opened := fun h => nomatch h
      closed := fun g' hcall =>
        absurd (Prod.mk.inj (Option.some.inj (hs.1.symm.trans hcall))).2 hm
      fine := trivial }
  right := fun _ h => nomatch h

theorem Told.post {r : Result C} (hm : m ≠ .close) (hs : Told c g m r s) :
    (gateDiscipline C).post c (.ok r) s where
  left :=
    { (post_error (e := .io) hm hs.idle).1 with
      launch := fun l w h => hs.launch l w (Except.ok.inj h)
      opened := fun h => absurd (Except.ok.inj h) hs.opened
      fine := hs.fine }
  right := hs.written

/-- **Every method but `Open` and `Close` tells what it has to.** -/
theorem spec_body (hgc : g ≠ c) (hclose : m ≠ .close)
    (hopen : ∀ directory hasResolver, m ≠ .openGate directory hasResolver) :
    Spec (C := C) c (Idle c g m) (body C m) (Told c g m) (fun _ => Idle c g m) := by
  cases m with
  | openGate directory hasResolver => exact absurd rfl (hopen directory hasResolver)
  | close => exact absurd rfl hclose
  | prepare plan fence lifetime action =>
    refine .bind (spec_prepare hgc hclose plan fence lifetime action) fun ⟨ticket, written⟩ => ?_
    refine .pure fun s _ hs => { idle := hs.1, fine := ?_, written := fun w hw => (hs.2 w hw).2 }
    cases written with
    | none => trivial
    | some w => exact (hs.2 w rfl).1
  | start ticket fence action =>
    refine .bind (spec_start hgc hclose ticket fence action) fun ⟨launch, w⟩ => ?_
    refine .pure fun s _ hs => ⟨hs.1, hs.2.2.1, (fun h => nomatch h), fun l w' h => ?_,
      fun w' hw => Option.some.inj hw ▸ hs.2.2.2⟩
    obtain ⟨rfl, rfl⟩ := Result.launch.inj h
    exact hs.2.1
  | markRunning launch =>
    refine .bind (spec_markRunning hgc hclose launch) fun w => .pure fun s _ hs =>
      { idle := hs.1, fine := hs.2.1, written := fun w' hw => Option.some.inj hw ▸ hs.2.2 }
  | complete launch terminal outcomeDigest =>
    refine .bind (spec_complete hgc hclose launch terminal outcomeDigest) fun w =>
      .pure fun s _ hs =>
        { idle := hs.1, fine := hs.2.1, written := fun w' hw => Option.some.inj hw ▸ hs.2.2 }
  | performHTTPS call =>
    refine .bind (spec_performHTTPS hgc hclose call) fun ⟨response, written⟩ => ?_
    refine .pure fun s _ hs => { idle := hs.1, fine := ?_, written := fun w hw => (hs.2 w hw).2 }
    cases written with
    | none => trivial
    | some w => exact (hs.2 w rfl).1
  | inspect executionID =>
    exact .bind (spec_inspect hgc executionID) fun _ =>
      .pure fun s _ hs => { idle := hs, fine := trivial }
  | exportOutcomeEvidence request =>
    exact .bind (spec_exportOutcomeEvidence hgc hclose request) fun _ =>
      .pure fun s _ hs => { idle := hs.1, fine := trivial }
  | buildOperationOutcomeArtifacts request =>
    exact .bind (spec_buildOperationOutcomeArtifacts hgc hclose request) fun _ =>
      .pure fun s _ hs => { idle := hs.1, fine := hs.2 }

theorem safe_of_spec {body : Gated C (Result C)} {P : System C → Prop}
    {Q : Result C → System C → Prop} {E : Err → System C → Prop} (hspec : Spec c P body Q E)
    (hQ : ∀ r s, Q r s → (gateDiscipline C).post c (.ok r) s)
    (hE : ∀ e s, E e s → (gateDiscipline C).post c (.error e) s)
    (hok : (gateDiscipline C).Ok s) (hs : P s) :
    (gateDiscipline C).Safe c ((gateDiscipline C).post c) body.run s := by
  refine Safe.mono (fun r s hr => ?_) (hspec s hok hs)
  cases r with
  | ok r => exact hQ r s hr
  | error e => exact hE e s hr

theorem Opening.post (hm : m ≠ .close) (hs : Opening c m s) :
    (gateDiscipline C).post c (.ok .opened) s where
  left :=
    { (post_error (e := .io) hm hs.1).1 with
      launch := fun _ _ h => nomatch h
      opened := fun _ => ⟨⟨m, hs.1.1, hm⟩, hs.2⟩
      fine := trivial }
  right := fun _ h => nomatch h

theorem Closed.post {out : Outcome C} (hs : Closed c g .close s)
    (hout : out = .ok .closed ∨ ∃ err, out = .error err) : (gateDiscipline C).post c out s := by
  refine ⟨⟨?_, hs.1.2, ?_, ?_, fun g' hcall => ?_, ?_⟩, ?_⟩
  · rw [hs.1.1]
    exact Option.some_ne_none _
  · rintro l w rfl
    simp at hout
  · rintro rfl
    simp at hout
  · obtain ⟨rfl, -⟩ := Prod.mk.inj (Option.some.inj (hs.1.1.symm.trans hcall))
    exact hs.2
  · rcases hout with rfl | ⟨err, rfl⟩ <;> trivial
  · rcases hout with rfl | ⟨err, rfl⟩ <;> exact fun _ h => nomatch h

theorem safe_body (hok : (gateDiscipline C).Ok s) (hidle : Idle c g m s) (hgc : g ≠ c)
    (hclose : m ≠ .close) (hopen : ∀ directory hasResolver, m ≠ .openGate directory hasResolver) :
    (gateDiscipline C).Safe c ((gateDiscipline C).post c) (program C m) s :=
  safe_of_spec (spec_body hgc hclose hopen) (fun _ _ hr => hr.post hclose)
    (fun _ _ he => post_error hclose he) hok hidle

/-- Every call is safe from where it begins. -/
theorem safe_program (hok : (gateDiscipline C).Ok s) (hidle : Idle c g m s)
    (hgate : match m with | .openGate _ _ => g = c | _ => g ≠ c) :
    (gateDiscipline C).Safe c ((gateDiscipline C).post c) (program C m) s := by
  cases m with
  | openGate directory hasResolver =>
    have hgc : g = c := hgate
    have hm : Method.openGate directory hasResolver ≠ .close := fun h => nomatch h
    exact safe_of_spec (.bind (spec_openGate hm directory hasResolver) fun _ =>
      .pure (Q := fun r s => (gateDiscipline C).post c (.ok r) s) fun s _ hs => hs.post hm)
      (fun _ _ hr => hr) (fun e s he => post_error hm he) hok (hgc ▸ hidle)
  | close =>
    exact safe_of_spec (.bind spec_closeGate fun _ =>
      .pure (Q := fun r s => (gateDiscipline C).post c (.ok r) s) fun s _ hs =>
        hs.post (.inl rfl)) (fun _ _ hr => hr) (fun e s he => he.post (.inr ⟨e, rfl⟩)) hok hidle
  | _ => exact safe_body hok hidle hgate (fun h => nomatch h) fun _ _ h => nomatch h

/-- **The discipline of the Gate is sound.** -/
theorem gate_sound (C : Commerce) : (gateDiscipline C).Sound where
  env := fun henv hok _ => inv_env henv hok.2
  start := by
    rintro c p s s' ⟨rfl, g, m, rfl, hgate, rfl⟩ hok hassume
    obtain ⟨hinv, hact⟩ := inv_start hok.2 hgate
    refine ⟨hinv, hact, safe_program (g := g) (m := m) ⟨hassume, hinv⟩
      ⟨Function.update_self _ _ _, fun g' hmu => ?_⟩ ?_⟩
    · -- the number is new, so no mutex is held under it
      obtain ⟨-, m', hcall⟩ := hok.2.mutex g' s.next hmu
      exact Nat.lt_irrefl _ (hok.2.fresh s.next (by rw [hcall]; exact Option.some_ne_none _))
    · cases m with
      | openGate => exact hgate
      | _ => exact Nat.ne_of_lt (hok.2.published g hgate).2
  finish := fun hpost hrely hok _ => inv_finish hok.2 (stays_post.rely hrely hpost.1)

theorem good_init (C : Commerce) : (gateDiscipline C).Good (gateInit C) where
  ok := ⟨(fun _ _ h => nomatch h), inv_init⟩
  safe := fun _ _ h => nomatch h

/-- **The invariant holds in every quiet run.** -/
theorem inv_of_run {cfg : Config (Op C) Res (System C) (Outcome C)}
    (hrun : (gateMachine C).Run Quiet (gateInit C) cfg) : Inv cfg.shared :=
  ((good_init C).of_run (gate_sound C) hrun).ok.2

end TosAi.CommerceGate
