/-
  How the records of a Gate change over a run.

  `Follows e e'` says in terms of the record alone what lies between two versions
  of it.  One rewrite (`Evolves`) gives it, it composes, and so it holds between
  any two points of a quiet run over which no power is lost: whoever wrote the
  record, and whatever the writers had read before.  A power loss may bring back
  an older version, one that was current when the directory was last synced.
-/
import TosAi.CommerceGate.Soundness
import TosAi.CommerceGate.Calls

set_option autoImplicit false

namespace TosAi.CommerceGate

open Foundation Relation

variable {C : Commerce}

/-! ## The life of a record -/

/-- The moves of the state of an execution. -/
inductive StateStep : State → State → Prop where
  | start : StateStep .prepared .starting
  | running : StateStep .starting .running
  | complete (terminal : State) (h : terminal ∈ [State.succeeded, .failed, .cancelled, .killed]) :
      StateStep .running terminal
  | loseStart : StateStep .starting .ambiguousStart
  | loseRun : StateStep .running .ambiguousRun

/-- The moves of the entry of an effect: it is submitted, then terminal, for one
action throughout. -/
inductive EffectStep : Option EffectRecord → Option EffectRecord → Prop where
  | submit {r : EffectRecord} (h : r.state = "submitted") : EffectStep none (some r)
  | terminalize {r r' : EffectRecord} (h : r.state = "submitted") (h' : r'.state = "terminal")
      (hstable : r'.stableActionID = r.stableActionID)
      (hrequest : r'.exactRequestDigest = r.exactRequestDigest) : EffectStep (some r) (some r')

/-- The state does not change any more. -/
def State.final : State → Bool
  | .prepared | .starting | .running => false
  | _ => true

variable {e e' : Record} {state state' : State} {mine : String → Prop} {s s' : System C}
  {n : FileName}

theorem StateStep.not_final (h : StateStep state state') :
    state.final = false := by
  cases h <;> rfl

theorem final_absorbing (h : ReflTransGen StateStep state state') (hfinal : state.final = true) :
    state' = state := by
  induction h with
  | refl => rfl
  | tail _ hstep ih =>
    have hopen := hstep.not_final
    rw [ih, hfinal] at hopen
    cases hopen

/-- `PREPARED` is never entered again. -/
theorem StateStep.ne_prepared (h : StateStep state state') :
    state' ≠ .prepared := by
  cases h with
  | complete terminal hterminal =>
    rintro rfl
    exact absurd hterminal (by decide)
  | _ => exact fun h => nomatch h

/-- The record `e'` is a later version of `e`. -/
structure Follows (e e' : Record) : Prop where
  state : ReflTransGen StateStep e.state e'.state
  revision : e.stateRevision.toNat < e'.stateRevision.toNat
  plan : e'.plan = e.plan
  planDigest : e'.planDigest = e.planDigest
  ticketSecret : e'.ticketSecret = e.ticketSecret
  startNotAfterUnix : e'.startNotAfterUnix = e.startNotAfterUnix
  prepareActionID : e'.prepareActionID = e.prepareActionID
  prepareRequestDigest : e'.prepareRequestDigest = e.prepareRequestDigest
  /-- The start fields change at most when the execution leaves `PREPARED`. -/
  startFields : (e'.startActionID = e.startActionID ∧
      e'.startRequestDigest = e.startRequestDigest) ∨
    (e.state = .prepared ∧ e'.state ≠ .prepared)
  effects : ∀ id : String, ReflTransGen EffectStep (e.effects[id]?) (e'.effects[id]?)

theorem ne_prepared_of_steps (h : ReflTransGen StateStep state state')
    (hstate : state ≠ .prepared) : state' ≠ .prepared := by
  induction h with
  | refl => exact hstate
  | tail _ hstep _ => exact hstep.ne_prepared

theorem Follows.trans {e'' : Record} (h : Follows e e') (h' : Follows e' e'') :
    Follows e e'' where
  state := h.state.trans h'.state
  revision := h.revision.trans h'.revision
  plan := h'.plan.trans h.plan
  planDigest := h'.planDigest.trans h.planDigest
  ticketSecret := h'.ticketSecret.trans h.ticketSecret
  startNotAfterUnix := h'.startNotAfterUnix.trans h.startNotAfterUnix
  prepareActionID := h'.prepareActionID.trans h.prepareActionID
  prepareRequestDigest := h'.prepareRequestDigest.trans h.prepareRequestDigest
  startFields := by
    rcases h.startFields with ⟨hid, hrequest⟩ | ⟨hprepared, hleft⟩
    · rcases h'.startFields with ⟨hid', hrequest'⟩ | ⟨hprepared', hleft'⟩
      · exact .inl ⟨hid'.trans hid, hrequest'.trans hrequest⟩
      · refine .inr ⟨?_, hleft'⟩
        by_contra hstate
        exact ne_prepared_of_steps h.state hstate hprepared'
    · exact .inr ⟨hprepared, ne_prepared_of_steps h'.state hleft⟩
  effects := fun id => (h.effects id).trans (h'.effects id)

/-- One rewrite moves the state by at most one step. -/
theorem Evolves.stateStep (h : Evolves C mine e e') :
    e'.state = e.state ∨ StateStep e.state e'.state := by
  cases h with
  | start action hstate _ =>
    right
    rw [hstate]
    exact .start
  | running hstate =>
    right
    rw [hstate]
    exact .running
  | complete terminal outcome hstate hterminal =>
    right
    rw [hstate]
    exact .complete terminal hterminal
  | submit | terminalize => exact .inl rfl
  | recover next hstate =>
    right
    show StateStep e.state next
    cases hs : e.state <;> simp only [hs, Record.recovered, Option.some.injEq,
      reduceCtorEq] at hstate
    · rw [← hstate]
      exact .loseStart
    · rw [← hstate]
      exact .loseRun

/-- One rewrite moves one effect by at most one step. -/
theorem Evolves.effectStep (h : Evolves C mine e e') (id : String) :
    e'.effects[id]? = e.effects[id]? ∨
      EffectStep (e.effects[id]?) (e'.effects[id]?) := by
  cases h with
  | submit id₀ action _ habsent _ _ =>
    rw [Record.submit, getElem?_insert_effect]
    split
    · rename_i hid
      subst hid
      right
      rw [habsent]
      exact .submit rfl
    · exact .inl rfl
  | terminalize id₀ prior response _ hprior hsubmitted _ =>
    rw [Record.terminalize, getElem?_insert_effect]
    split
    · rename_i hid
      subst hid
      right
      rw [hprior]
      exact .terminalize hsubmitted rfl rfl rfl
    · exact .inl rfl
  | _ => exact .inl rfl

/-- **A rewritten record is a later version.** -/
theorem Evolves.follows (hwf : WF C n e) (h : Evolves C mine e e') : Follows e e' := by
  obtain ⟨-, hplan, hdigest, hsecret, hdeadline, hprepare, hrequest⟩ := h.immutable
  refine ⟨?_, ?_, hplan, hdigest, hsecret, hdeadline, hprepare, hrequest, ?_, fun id => ?_⟩
  · rcases h.stateStep with hsame | hstep
    · rw [hsame]
    · exact .single hstep
  · have hrevision := h.revision hwf
    omega
  · cases h with
    | start action hstate _ => exact .inr ⟨hstate, fun h => nomatch h⟩
    | _ => exact .inl ⟨rfl, rfl⟩
  · rcases h.effectStep id with hsame | hstep
    · rw [hsame]
    · exact .single hstep

/-! ## Over a run -/

/-- Of the record `e`, seen at the given version of the name, the name now holds
the same or a later version. -/
def Kept (n : FileName) (e : Record) (version : Nat) (s : System C) : Prop :=
  ∃ e' : Record, s.fs.now n = some e'.file ∧
    (((s.fs.slot n).version = version ∧ e' = e) ∨
      (version < (s.fs.slot n).version ∧ Follows e e'))

theorem Kept.trans {version : Nat} (h : Kept n e version s)
    (hnext : ∀ e' : Record, s.fs.now n = some e'.file → Kept n e' (s.fs.slot n).version s') :
    Kept n e version s' := by
  obtain ⟨e₁, hnow, hcase⟩ := h
  obtain ⟨e₂, hnow', hcase'⟩ := hnext e₁ hnow
  refine ⟨e₂, hnow', ?_⟩
  rcases hcase with ⟨hversion, rfl⟩ | ⟨hversion, hfollows⟩
  · rwa [hversion] at hcase'
  · rcases hcase' with ⟨hversion', rfl⟩ | ⟨hversion', hfollows'⟩
    · exact .inr ⟨by omega, hfollows⟩
    · exact .inr ⟨by omega, hfollows.trans hfollows'⟩

theorem kept_of_moves (hwf : WF C n e) (hnow : s.fs.now n = some e.file)
    (hmoves : SlotMoves C n mine (s.fs.slot n) (s'.fs.slot n)) :
    Kept n e (s.fs.slot n).version s' := by
  rcases hmoves.now with ⟨hversion, hsame⟩ | ⟨hversion, hevo⟩
  · exact ⟨e, hsame.trans hnow, .inl ⟨hversion, rfl⟩⟩
  · rw [show (s.fs.slot n).now = some e.file from hnow] at hevo
    obtain ⟨e', hevolves, hnow'⟩ := hevo.of_file
    exact ⟨e', hnow', .inr ⟨hversion, hevolves.follows hwf⟩⟩

/-- Unless power was lost, every record has been kept. -/
def AllKept (s s' : System C) : Prop :=
  s.losses ≤ s'.losses ∧ (s'.losses = s.losses → ∀ n (e : Record), n.isRecord = true →
    s.fs.now n = some e.file → Kept n e (s.fs.slot n).version s')

theorem AllKept.refl (s : System C) : AllKept s s :=
  ⟨Nat.le_refl _, fun _ _ e _ hnow => ⟨e, hnow, .inl ⟨rfl, rfl⟩⟩⟩

theorem AllKept.trans {t u : System C} (h : AllKept s t) (h' : AllKept t u) : AllKept s u := by
  refine ⟨h.1.trans h'.1, fun hlosses n e hn hnow => ?_⟩
  have hfirst := h.1
  have hsecond := h'.1
  exact (h.2 (by omega) n e hn hnow).trans fun e' hnow' => h'.2 (by omega) n e' hn hnow'

/-- The step lemma: calls keep records, process death leaves them, and a power
loss is counted. -/
theorem allKept_of_move (hok : (gateDiscipline C).Ok s) (hmove : (gateDiscipline C).Move s s') :
    AllKept s s' := by
  cases hmove with
  | act c hact =>
    refine ⟨Nat.le_of_eq (Act.losses hact).symm, fun _ n e hn hnow => ?_⟩
    exact kept_of_moves (hok.2.wf_now hn hnow) hnow (Act.records hact n hn)
  | env dead henv =>
    cases henv with
    | kill g => exact .refl s
    | powerLoss found hfound =>
      refine ⟨Nat.le_succ _, fun hlosses => ?_⟩
      have hnext : (s.powerLoss found hfound).losses = s.losses + 1 := rfl
      omega

theorem allKept_of_run {cfg cfg' : Config (Op C) Res (System C) (Outcome C)}
    (hreach : (gateMachine C).Run Quiet (gateInit C) cfg)
    (hrun : (gateMachine C).Run Quiet cfg cfg') : AllKept cfg.shared cfg'.shared := by
  have hgood := (good_init C).of_run (gate_sound C) hreach
  exact hgood.relates (gate_sound C) hrun AllKept AllKept.refl (fun _ _ _ => AllKept.trans)
    fun _ _ hok _ hmove => allKept_of_move hok hmove

/-- **Records evolve.**  Between any two points of a quiet run over which no power
is lost, a record either has not been written or has become a later version. -/
theorem record_evolution {cfg cfg' : Config (Op C) Res (System C) (Outcome C)}
    (hreach : (gateMachine C).Run Quiet (gateInit C) cfg)
    (hrun : (gateMachine C).Run Quiet cfg cfg')
    (hlosses : cfg'.shared.losses = cfg.shared.losses) {n : FileName} {e : Record}
    (hn : n.isRecord = true) (hnow : cfg.shared.fs.now n = some e.file) :
    ∃ e' : Record, cfg'.shared.fs.now n = some e'.file ∧
      (((cfg'.shared.fs.slot n).version = (cfg.shared.fs.slot n).version ∧ e' = e) ∨
        ((cfg.shared.fs.slot n).version < (cfg'.shared.fs.slot n).version ∧ Follows e e')) :=
  (allKept_of_run hreach hrun).2 hlosses n e hn hnow

/-- The record of a prepared execution and what `Start` has made of it. -/
theorem record_evolution_started : ∃ cfg cfg' : Config (Op tolerant) Res (System tolerant)
      (Outcome tolerant),
    (gateMachine tolerant).Run Quiet (gateInit tolerant) cfg ∧
    (gateMachine tolerant).Run Quiet cfg cfg' ∧
    cfg.shared.fs.now sampleName = some preparedRecord.file ∧
    cfg'.shared.fs.now sampleName = some startedRecord.file ∧
    ∃ e' : Record, cfg'.shared.fs.now sampleName = some e'.file ∧
      (((cfg'.shared.fs.slot sampleName).version = (cfg.shared.fs.slot sampleName).version ∧
          e' = preparedRecord) ∨
        ((cfg.shared.fs.slot sampleName).version < (cfg'.shared.fs.slot sampleName).version ∧
          Follows preparedRecord e')) := by
  obtain ⟨cfg, hreach, hcalm, hstage, -⟩ := rehearse_prepared lax_calm calm_init
  obtain ⟨cfg', hrun, hcalm', hstage', -⟩ := hstage.started lax_calm hcalm
  have hquiet : ∀ s : System tolerant, Calm s → Quiet s := fun _ h => h.1.quiet
  exact ⟨cfg, cfg', hreach.mono hquiet, hrun.mono hquiet, hstage.disk.now, hstage'.disk.now,
    record_evolution (hreach.mono hquiet) (hrun.mono hquiet) (hcalm'.2.trans hcalm.2.symm)
      rfl hstage.disk.now⟩

end TosAi.CommerceGate
