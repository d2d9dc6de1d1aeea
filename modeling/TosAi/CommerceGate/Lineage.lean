/-
  What a record may become.

  `Evolves` is the one place that says what a rewrite of a record does; every
  fact about how records change over a run is read off it.  `Evo` lifts it to
  what a file name holds, where a record first has to come into being: the name
  is unbound, then holds a beginning of the new record's text, then the whole.

  `SlotMoves` is that relation for a name of a directory with a write cache: each
  thing a power loss may leave afterwards comes from something it might have left
  before, and what a read sees either stays or moves one `Evo` step to a higher
  version.
-/
import TosAi.CommerceGate.Record

set_option autoImplicit false

namespace TosAi.CommerceGate

open Foundation

/-- What is documented of the library: an accepted action carries well-formed
digests, and digests and derived identifiers are well formed. -/
structure Commerce.Lawful (C : Commerce) : Prop where
  action : ∀ {action fields request fence authority now},
    C.verifyAuthorizedAction action fields request fence authority now = none →
      validDigest action.stableActionID = true ∧ validDigest action.exactRequestDigest = true
  digest : ∀ {domain payload d}, C.digest domain payload = .ok d → validDigest d = true
  slot : ∀ {kind fields id}, C.deriveStableActionID kind fields = .ok id → validDigest id = true

variable (C : Commerce)

/-- The action's digests are well formed, as far as the library is lawful. -/
def WellFormedAction (action : AuthorizedAction) : Prop :=
  C.Lawful → validDigest action.stableActionID = true ∧ validDigest action.exactRequestDigest = true

/-! ## Well-formed records -/

/-- How far a state is from `PREPARED`. -/
def State.rank : State → Nat
  | .prepared => 0
  | .starting => 1
  | .running | .ambiguousStart => 2
  | _ => 3

/-- How often the effect of a binding has been written. -/
def effectWeight (e : Record) (b : EffectBinding) : Nat :=
  match e.effects[b.planEffectID]? with
  | none => 0
  | some r => if r.state = "terminal" then 2 else 1

/-- An upper bound of the state revision. -/
def budget (e : Record) : Nat :=
  1 + e.state.rank + (e.plan.effectBindings.map (effectWeight e)).sum

/-- What every record under the name `n` satisfies. -/
structure WF (n : FileName) (e : Record) : Prop where
  path : path e.plan.executionID = n
  bindings : e.plan.effectBindings.length ≤ maxPlanEffects
  named : ∀ b ∈ e.plan.effectBindings, b.planEffectID ≠ ""
  revision_pos : 1 ≤ e.stateRevision.toNat
  revision_le : e.stateRevision.toNat ≤ budget e
  planned : ∀ (id : String) (r : EffectRecord), e.effects[id]? = some r →
    ∃ b ∈ e.plan.effectBindings, b.planEffectID = id
  phase : ∀ (id : String) (r : EffectRecord), e.effects[id]? = some r →
    (r.state = "submitted" ∧ r.stateRevision = 1) ∨ (r.state = "terminal" ∧ r.stateRevision = 2)
  slot : C.Lawful → validDigest e.plan.executionID = true
  fields : C.Lawful → recordFieldsOk e = true
  /-- The effects pass the reader's check, were it not for their status. -/
  effects : C.Lawful → ∀ (id : String) (r : EffectRecord), e.effects[id]? = some r →
    effectFieldsOk id { r with httpStatus := 1 } = true

/-- One change of a record.  An effect is terminalized only by the call that
submitted it: `mine` are the effects of the writing call. -/
inductive Evolves (mine : String → Prop) : Record → Record → Prop where
  | start {e : Record} (action : AuthorizedAction) (hstate : e.state = .prepared)
      (haction : WellFormedAction C action) : Evolves mine e (e.start action)
  | running {e : Record} (hstate : e.state = .starting) :
      Evolves mine e (e.transition .running "")
  | complete {e : Record} (terminal : State) (outcome : String) (hstate : e.state = .running)
      (hterminal : terminal ∈ [State.succeeded, .failed, .cancelled, .killed]) :
      Evolves mine e (e.transition terminal outcome)
  | submit {e : Record} (id : String) (action : AuthorizedAction) (hstate : e.state = .running)
      (habsent : e.effects[id]? = none)
      (hplanned : ∃ b ∈ e.plan.effectBindings, b.planEffectID = id)
      (haction : WellFormedAction C action) : Evolves mine e (e.submit id action)
  | terminalize {e : Record} (id : String) (prior : EffectRecord) (response : HTTPSResponse)
      (hmine : mine id) (hprior : e.effects[id]? = some prior)
      (hsubmitted : prior.state = "submitted")
      (hdigest : C.Lawful → validDigest response.digest = true) :
      Evolves mine e (e.terminalize id prior response)
  | recover {e : Record} (next : State) (hstate : Record.recovered e.state = some next) :
      Evolves mine e (e.recover next)

variable {C} {e e' : Record} {id : String} {o' o : Option File}
  {mine : String → Prop} {n : FileName}

theorem Evolves.mono {mine' : String → Prop} (h : ∀ id, mine id → mine' id)
    (hevolves : Evolves C mine e e') : Evolves C mine' e e' := by
  cases hevolves with
  | start action hstate haction => exact .start action hstate haction
  | running hstate => exact .running hstate
  | complete terminal outcome hstate hterminal => exact .complete terminal outcome hstate hterminal
  | submit id action hstate habsent hplanned haction =>
    exact .submit id action hstate habsent hplanned haction
  | terminalize id prior response hmine hprior hsubmitted hdigest =>
    exact .terminalize id prior response (h id hmine) hprior hsubmitted hdigest
  | recover next hstate => exact .recover next hstate

/-! ### The revision -/

theorem sum_effectWeight_le (e : Record) :
    (e.plan.effectBindings.map (effectWeight e)).sum ≤ 2 * e.plan.effectBindings.length := by
  induction e.plan.effectBindings with
  | nil => exact Nat.le_refl _
  | cons b rest ih =>
    have hb : effectWeight e b ≤ 2 := by
      unfold effectWeight
      split
      · omega
      · split <;> omega
    simp only [List.map_cons, List.sum_cons, List.length_cons]
    omega

theorem State.rank_le (state : State) : state.rank ≤ 3 := by
  cases state <;> decide

/-- The revision of a well-formed record is far from overflowing. -/
theorem WF.revision_lt (h : WF C n e) :
    e.stateRevision.toNat < 1000 := by
  have hsum := sum_effectWeight_le e
  have hrank := e.state.rank_le
  have hle := h.revision_le
  have hcount := h.bindings
  unfold budget at hle
  unfold maxPlanEffects at hcount
  omega

theorem toNat_succ {r : UInt64} (h : r.toNat < 1000) : (r + 1).toNat = r.toNat + 1 := by
  rw [UInt64.toNat_add, show (1 : UInt64).toNat = 1 from rfl, Nat.mod_eq_of_lt (by omega)]

/-- Every rewrite counts the revision up by one. -/
theorem Evolves.stateRevision_eq (h : Evolves C mine e e') :
    e'.stateRevision = e.stateRevision + 1 := by
  cases h <;> rfl

theorem Evolves.revision (hwf : WF C n e) (h : Evolves C mine e e') :
    e'.stateRevision.toNat = e.stateRevision.toNat + 1 := by
  rw [h.stateRevision_eq, toNat_succ hwf.revision_lt]

/-- What no rewrite changes. -/
theorem Evolves.immutable (h : Evolves C mine e e') :
    e'.schema = e.schema ∧ e'.plan = e.plan ∧ e'.planDigest = e.planDigest ∧
      e'.ticketSecret = e.ticketSecret ∧ e'.startNotAfterUnix = e.startNotAfterUnix ∧
      e'.prepareActionID = e.prepareActionID ∧
      e'.prepareRequestDigest = e.prepareRequestDigest := by
  cases h <;> exact ⟨rfl, rfl, rfl, rfl, rfl, rfl, rfl⟩

/-! ### The effects -/

theorem getElem?_insert_effect (m : Std.ExtTreeMap String EffectRecord) (id id' : String)
    (r : EffectRecord) : (m.insert id r)[id']? = if id = id' then some r else m[id']? := by
  rw [Std.ExtTreeMap.getElem?_insert]
  simp

theorem validDigest_ne_empty {s : String} (h : validDigest s = true) : s ≠ "" := by
  rintro rfl
  exact absurd h (by decide)

/-- Writing an effect that is planned makes room for the next revision. -/
theorem budget_insert {r : EffectRecord} (hplan : e'.plan = e.plan) (hstate : e'.state = e.state)
    (heffects : e'.effects = e.effects.insert id r)
    (hplanned : ∃ b ∈ e.plan.effectBindings, b.planEffectID = id)
    (hgrows : ∀ b : EffectBinding, b.planEffectID = id → effectWeight e b < effectWeight e' b) :
    budget e + 1 ≤ budget e' := by
  have hsum : (e.plan.effectBindings.map (effectWeight e)).sum <
      (e.plan.effectBindings.map (effectWeight e')).sum := by
    apply List.sum_lt_sum
    · intro b _
      by_cases hb : b.planEffectID = id
      · exact Nat.le_of_lt (hgrows b hb)
      · simp only [effectWeight, heffects, getElem?_insert_effect, if_neg (Ne.symm hb),
          Nat.le_refl]
    · obtain ⟨b, hmem, hb⟩ := hplanned
      exact ⟨b, hmem, hgrows b hb⟩
  unfold budget
  rw [hplan, hstate]
  omega

theorem budget_state (hplan : e'.plan = e.plan) (heffects : e'.effects = e.effects)
    (hrank : e.state.rank + 1 ≤ e'.state.rank) : budget e + 1 ≤ budget e' := by
  have hweight : effectWeight e' = effectWeight e := by
    funext b
    simp only [effectWeight, heffects]
  unfold budget
  rw [hplan, hweight]
  omega

/-- A rewrite spends at most what it adds. -/
theorem Evolves.budget (hwf : WF C n e)
    (h : Evolves C mine e e') : budget e + 1 ≤ CommerceGate.budget e' := by
  cases h with
  | start action hstate _ =>
    exact budget_state rfl rfl (by simp [hstate, Record.start, State.rank])
  | running hstate =>
    exact budget_state rfl rfl (by simp [hstate, Record.transition, State.rank])
  | complete terminal outcome hstate hterminal =>
    refine budget_state rfl rfl ?_
    simp only [List.mem_cons, List.not_mem_nil, or_false] at hterminal
    rcases hterminal with rfl | rfl | rfl | rfl <;>
      simp [hstate, Record.transition, State.rank]
  | submit id action _ habsent hplanned _ =>
    refine budget_insert rfl rfl rfl hplanned fun b hb => ?_
    simp [effectWeight, hb, habsent, Record.submit]
  | terminalize id prior response _ hprior hsubmitted _ =>
    refine budget_insert rfl rfl rfl (hwf.planned id prior hprior) fun b hb => ?_
    simp [effectWeight, hb, hprior, hsubmitted, Record.terminalize]
  | recover next hstate =>
    refine budget_state rfl rfl ?_
    cases hs : e.state <;> simp only [hs, Record.recovered, Option.some.injEq,
      reduceCtorEq] at hstate <;> subst hstate <;> simp [Record.recover, State.rank]

/-- The effects of the next record: those of the last one, or the one just
written. -/
theorem Evolves.effect_cases (h : Evolves C mine e e') {r' : EffectRecord}
    (hr' : e'.effects[id]? = some r') :
    e.effects[id]? = some r' ∨
    (e.effects[id]? = none ∧ e.state = .running ∧
      (∃ b ∈ e.plan.effectBindings, b.planEffectID = id) ∧ ∃ action, WellFormedAction C action ∧
        r' = ⟨action.stableActionID, action.exactRequestDigest, "submitted", "", 0, 1⟩) ∨
    (∃ (prior : EffectRecord) (response : HTTPSResponse), mine id ∧
      e.effects[id]? = some prior ∧ prior.state = "submitted" ∧
      (C.Lawful → validDigest response.digest = true) ∧
      r' = { prior with
        state := "terminal"
        responseDigest := response.digest
        httpStatus := UInt16.ofNat response.statusCode
        stateRevision := prior.stateRevision + 1 }) := by
  cases h with
  | start action hstate haction | running hstate | complete terminal outcome hstate hterminal
  | recover next hstate => exact .inl hr'
  | submit id₀ action hstate habsent hplanned haction =>
    rw [Record.submit, getElem?_insert_effect] at hr'
    split at hr'
    · rename_i hid
      subst hid
      exact .inr (.inl ⟨habsent, hstate, hplanned, action, haction, (Option.some.inj hr').symm⟩)
    · exact .inl hr'
  | terminalize id₀ prior response hmine hprior hsubmitted hdigest =>
    rw [Record.terminalize, getElem?_insert_effect] at hr'
    split at hr'
    · rename_i hid
      subst hid
      exact .inr (.inr ⟨prior, response, hmine, hprior, hsubmitted, hdigest,
        (Option.some.inj hr').symm⟩)
    · exact .inl hr'

theorem Evolves.fields (hwf : WF C n e)
    (h : Evolves C mine e e') (hlawful : C.Lawful) : recordFieldsOk e' = true := by
  have hold := hwf.fields hlawful
  have hrevision : e'.stateRevision ≠ 0 := by
    intro hzero
    have := h.revision hwf
    rw [hzero] at this
    exact absurd this (by simp)
  cases h with
  | start action hstate haction =>
    obtain ⟨haction₁, haction₂⟩ := haction hlawful
    simp only [recordFieldsOk, Record.start, Bool.and_eq_true] at hold ⊢
    have h₁ := validDigest_ne_empty haction₁
    have h₂ := validDigest_ne_empty haction₂
    simp only [Record.start] at hrevision
    simp [hold.1.1.1.1.1, hold.1.1.1.2, hold.1.1.2, haction₁, haction₂, h₁, h₂, hrevision]
  | _ =>
    simp only [recordFieldsOk, Record.transition, Record.submit, Record.terminalize,
      Record.recover, Bool.and_eq_true, bne_iff_ne] at hold hrevision ⊢
    exact ⟨⟨⟨⟨⟨hold.1.1.1.1.1, hrevision⟩, hold.1.1.1.2⟩, hold.1.1.2⟩, hold.1.2⟩, hold.2⟩

/-- **A rewrite of a well-formed record is well formed.** -/
theorem Evolves.wf (hwf : WF C n e) (h : Evolves C mine e e') :
    WF C n e' := by
  obtain ⟨-, hplan, -⟩ := h.immutable
  have hrevision := h.revision hwf
  refine ⟨?_, ?_, ?_, ?_, ?_, ?_, ?_, ?_, h.fields hwf, ?_⟩
  · rw [hplan]; exact hwf.path
  · rw [hplan]; exact hwf.bindings
  · rw [hplan]; exact hwf.named
  · omega
  · have hbudget := h.budget hwf
    have hle := hwf.revision_le
    omega
  · intro id r' hr'
    rw [hplan]
    rcases h.effect_cases hr' with hold | ⟨_, _, hplanned, _⟩ | ⟨prior, _, _, hprior, _⟩
    · exact hwf.planned id r' hold
    · exact hplanned
    · exact hwf.planned id prior hprior
  · intro id r' hr'
    rcases h.effect_cases hr' with hold | ⟨_, _, _, action, _, rfl⟩ |
      ⟨prior, response, _, hprior, hsubmitted, _, rfl⟩
    · exact hwf.phase id r' hold
    · exact .inl ⟨rfl, rfl⟩
    · rcases hwf.phase id prior hprior with ⟨_, hone⟩ | ⟨hterminal, _⟩
      · exact .inr ⟨rfl, by rw [hone]; rfl⟩
      · rw [hsubmitted] at hterminal
        exact absurd hterminal (by decide)
  · rw [hplan]; exact hwf.slot
  · intro hlawful id r' hr'
    rcases h.effect_cases hr' with hold | ⟨_, _, ⟨b, hb, rfl⟩, action, haction, rfl⟩ |
      ⟨prior, response, _, hprior, hsubmitted, hdigest, rfl⟩
    · exact hwf.effects hlawful id r' hold
    · obtain ⟨haction₁, haction₂⟩ := haction hlawful
      simp [effectFieldsOk, hwf.named b hb, haction₁, haction₂]
    · have hold := hwf.effects hlawful id prior hprior
      rcases hwf.phase id prior hprior with ⟨_, hone⟩ | ⟨hterminal, _⟩
      · simp only [effectFieldsOk, Bool.and_eq_true] at hold ⊢
        simp [hold.1.1.1.1.1, hold.1.1.1.1.2, hold.1.1.1.2, hone, hdigest hlawful]
      · rw [hsubmitted] at hterminal
        exact absurd hterminal (by decide)

/-! ### The first record -/

theorem checkEach_mem {α : Type} {check : Option α → α → Except Err Unit} {a : α} :
    ∀ {before : Option α} {l : List α} {u : Unit}, checkEach check before l = .ok u → a ∈ l →
      ∃ before' u', check before' a = .ok u'
  | _, [], _, _, hmem => absurd hmem List.not_mem_nil
  | _, b :: rest, _, h, hmem => by
    obtain ⟨_, hb, hrest⟩ := bind_eq_ok h
    rcases List.mem_cons.mp hmem with rfl | hmem
    · exact ⟨_, _, hb⟩
    · exact checkEach_mem hrest hmem

theorem checkEffect_named {networks : List NetworkBinding} {credentials : List CredentialBinding}
    {before : Option EffectBinding} {effect : EffectBinding} {u : Unit}
    (h : checkEffect C networks credentials before effect = .ok u) :
    effect.planEffectID ≠ "" := by
  have hall := require_eq_ok_iff.mp h
  simp only [Bool.and_eq_true, bne_iff_ne] at hall
  exact hall.1.1.1.1.1.1.1.1.1

/-- The record is one `Prepare` may create under the name `n`. -/
structure Initial (C : Commerce) (n : FileName) (e : Record) : Prop where
  wf : WF C n e
  prepared : e.state = .prepared

/-- What `Prepare` creates is well formed. -/
theorem initial_initialRecord {plan prepared : Plan} {fence : WriterFence} {digest secret : String}
    {deadline : UInt64} {action : AuthorizedAction}
    (hplan : preparePlan C plan fence = .ok (prepared, digest))
    (haction : WellFormedAction C action) :
    Initial C (path prepared.executionID)
      (initialRecord prepared digest secret deadline action) := by
  have hprepared := preparePlan_eq_ok hplan
  obtain ⟨canonical, executionID, -, hslot, hrecord⟩ := hprepared.identity
  have hbindings : prepared.effectBindings = (normalize plan).effectBindings := by rw [hrecord]
  refine ⟨⟨rfl, ?_, ?_, Nat.le_refl _, ?_, ?_, ?_, ?_, ?_, ?_⟩, rfl⟩
  · show prepared.effectBindings.length ≤ _
    rw [hbindings]
    exact (sortBy_perm plan.effectBindings).length_eq ▸ hprepared.effectCount
  · intro b hb
    change b ∈ prepared.effectBindings at hb
    rw [hbindings] at hb
    obtain ⟨_, _, hcheck⟩ := checkEach_mem hprepared.effects hb
    exact checkEffect_named hcheck
  · show 1 ≤ 1 + _ + _
    omega
  · intro id r hr
    simp [initialRecord] at hr
  · intro id r hr
    simp [initialRecord] at hr
  · intro hlawful
    show validDigest prepared.executionID = true
    rw [hrecord]
    exact hlawful.slot hslot
  · intro hlawful
    obtain ⟨h₁, h₂⟩ := haction hlawful
    simp [recordFieldsOk, initialRecord, h₁, h₂]
  · intro _ id r hr
    simp [initialRecord] at hr

/-! ## What a name may hold -/

/-- No record is there yet: nothing at all, or only the beginning of the text of a
first record. -/
def Unborn (C : Commerce) (n : FileName) (o : Option File) : Prop :=
  o = none ∨ ∃ e kept lost, Initial C n e ∧ e.marshal = kept ++ lost ∧ lost ≠ [] ∧
    o = some ⟨0o600, kept⟩

/-- What may be found under a record's name. -/
def Sane (C : Commerce) (n : FileName) (o : Option File) : Prop :=
  Unborn C n o ∨ ∃ e, WF C n e ∧ o = some e.file

/-- One change of what a record's name holds. -/
inductive Evo (C : Commerce) (n : FileName) (mine : String → Prop) :
    Option File → Option File → Prop where
  | write {o o' : Option File} (ho : Unborn C n o) (ho' : Unborn C n o') : Evo C n mine o o'
  | born {o : Option File} {e : Record} (ho : Unborn C n o) (he : Initial C n e) :
      Evo C n mine o (some e.file)
  | rewrite {e e' : Record} (hevolves : Evolves C mine e e') :
      Evo C n mine (some e.file) (some e'.file)

theorem Record.file_injective (h : e.file = e'.file) : e = e' :=
  Record.marshal_injective (congrArg File.data h)

/-- A whole record is not a beginning of another one. -/
theorem Unborn.ne_file (h : Unborn C n (some e.file)) : False := by
  rcases h with h | ⟨e', kept, lost, _, htext, hlost, hfile⟩
  · cases h
  · have hkept : e.marshal = kept := congrArg File.data (Option.some.inj hfile)
    have htruncated := decodeRecord_truncated htext hlost
    rw [← hkept, decodeRecord_marshal] at htruncated
    cases htruncated

theorem Evo.mono {mine' : String → Prop} (h : ∀ id, mine id → mine' id)
    (hevo : Evo C n mine o o') : Evo C n mine' o o' := by
  cases hevo with
  | write ho ho' => exact .write ho ho'
  | born ho he => exact .born ho he
  | rewrite hevolves => exact .rewrite (hevolves.mono h)

theorem Evo.sane (hsane : Sane C n o) (hevo : Evo C n mine o o') : Sane C n o' := by
  cases hevo with
  | write _ ho' => exact .inl ho'
  | born _ he => exact .inr ⟨_, he.wf, rfl⟩
  | rewrite hevolves =>
    rcases hsane with hunborn | ⟨e, hwf, hfile⟩
    · exact hunborn.ne_file.elim
    · obtain rfl := Record.file_injective (Option.some.inj hfile)
      exact .inr ⟨_, hevolves.wf hwf, rfl⟩

/-- A whole record only ever becomes a whole record, by a rewrite. -/
theorem Evo.of_file (hevo : Evo C n mine (some e.file) o') :
    ∃ e', Evolves C mine e e' ∧ o' = some e'.file := by
  generalize ho : some e.file = o at hevo
  cases hevo with
  | write hunborn _ | born hunborn _ => exact (Unborn.ne_file (ho ▸ hunborn)).elim
  | rewrite hevolves =>
    obtain rfl := Record.file_injective (Option.some.inj ho)
    exact ⟨_, hevolves, rfl⟩

/-- The name holds a whole record that satisfies `P`. -/
def Holding (P : Record → Prop) (o : Option File) : Prop := ∃ e, o = some e.file ∧ P e

/-- What every rewrite keeps, every change of the name keeps. -/
theorem Holding.evo {P : Record → Prop}
    (hkeeps : ∀ {e e' : Record}, Evolves C mine e e' → P e → P e') (hholding : Holding P o)
    (hevo : Evo C n mine o o') : Holding P o' := by
  obtain ⟨e, rfl, hP⟩ := hholding
  obtain ⟨e', hevolves, rfl⟩ := hevo.of_file
  exact ⟨e', rfl, hkeeps hevolves hP⟩

/-- The execution has been started. -/
def Started (e : Record) : Prop := e.state ≠ .prepared

theorem Evolves.started (h : Evolves C mine e e') (hstarted : Started e) :
    Started e' := by
  cases h with
  | start action hstate _ => exact absurd hstate hstarted
  | running hstate => exact fun h => nomatch h
  | complete terminal outcome _ hterminal =>
    rintro rfl
    exact absurd hterminal (by decide)
  | submit id action hstate | terminalize id prior response => exact hstarted
  | recover next hstate =>
    rintro rfl
    cases hs : e.state <;> simp [hs, Record.recovered] at hstate

/-- The effect has been submitted. -/
def HasEffect (id : String) (e : Record) : Prop := ∃ r, e.effects[id]? = some r

theorem Evolves.hasEffect (h : Evolves C mine e e') (hhas : HasEffect id e) :
    HasEffect id e' := by
  obtain ⟨r, hr⟩ := hhas
  cases h with
  | submit id₀ action =>
    by_cases hid : id₀ = id
    · exact ⟨_, by rw [Record.submit, getElem?_insert_effect, if_pos hid]⟩
    · exact ⟨r, by rw [Record.submit, getElem?_insert_effect, if_neg hid, hr]⟩
  | terminalize id₀ prior response =>
    by_cases hid : id₀ = id
    · exact ⟨_, by rw [Record.terminalize, getElem?_insert_effect, if_pos hid]⟩
    · exact ⟨r, by rw [Record.terminalize, getElem?_insert_effect, if_neg hid, hr]⟩
  | _ => exact ⟨r, hr⟩

/-- The effect stands as submitted by the given action. -/
def SubmittedBy (id : String) (action : AuthorizedAction) (e : Record) : Prop :=
  ∃ r, e.effects[id]? = some r ∧ r.state = "submitted" ∧
    r.stableActionID = action.stableActionID ∧ r.exactRequestDigest = action.exactRequestDigest

/-- It stays so under every call whose effect it is not. -/
theorem Evolves.submittedBy {action : AuthorizedAction} (hmine : ¬ mine id)
    (h : Evolves C mine e e') (hsubmitted : SubmittedBy id action e) :
    SubmittedBy id action e' := by
  obtain ⟨r, hr, hrest⟩ := hsubmitted
  cases h with
  | submit id₀ action₀ _ habsent =>
    have hid : id₀ ≠ id := by
      rintro rfl
      rw [habsent] at hr
      cases hr
    exact ⟨r, by rw [Record.submit, getElem?_insert_effect, if_neg hid, hr], hrest⟩
  | terminalize id₀ prior response hmine₀ =>
    have hid : id₀ ≠ id := by
      rintro rfl
      exact hmine hmine₀
    exact ⟨r, by rw [Record.terminalize, getElem?_insert_effect, if_neg hid, hr], hrest⟩
  | _ => exact ⟨r, hr, hrest⟩

/-! ## Slots -/

/-- One change of a record's name, cache and all. -/
structure SlotMoves (C : Commerce) (n : FileName) (mine : String → Prop) (s s' : Slot) :
    Prop where
  outcomes : ∀ o' ∈ s'.outcomes, ∃ o ∈ s.outcomes, o' = o ∨ Evo C n mine o o'
  now : (s'.version = s.version ∧ s'.now = s.now) ∨
    (s.version < s'.version ∧ Evo C n mine s.now s'.now)

namespace SlotMoves

variable {s : Slot}

theorem refl (s : Slot) : SlotMoves C n mine s s :=
  ⟨fun o ho => ⟨o, ho, .inl rfl⟩, .inl ⟨rfl, rfl⟩⟩

variable {e : Record} {s' : Slot}

/-- A change that only drops what a power loss might have left. -/
theorem of_subset (hsubset : ∀ o ∈ s'.outcomes, o ∈ s.outcomes) (hversion : s'.version = s.version)
    (hnow : s'.now = s.now) : SlotMoves C n mine s s' :=
  ⟨fun o ho => ⟨o, hsubset o ho, .inl rfl⟩, .inl ⟨hversion, hnow⟩⟩

theorem flush (c : Nat) : SlotMoves C n mine s (s.flush c) := by
  refine of_subset (fun _ ho => Slot.mem_outcomes_flush ho) ?_ ?_
  · unfold Slot.flush; split <;> rfl
  · unfold Slot.flush; split <;> rfl

theorem settle : SlotMoves C n mine s s.settle :=
  of_subset (fun _ ho => Slot.mem_outcomes_settle ho) rfl rfl

theorem create (he : Initial C n e) (hnow : s.now = none) (c : Nat) :
    SlotMoves C n mine s (s.create c 0o600) := by
  have hempty : Unborn C n (some ⟨0o600, []⟩) :=
    .inr ⟨e, [], e.marshal, he, rfl, e.marshal_ne_nil, rfl⟩
  have hevo : Evo C n mine s.now (some ⟨0o600, []⟩) := .write (.inl hnow) hempty
  refine ⟨fun o' ho' => ?_, .inr ⟨Nat.lt_succ_self _, hevo⟩⟩
  rcases Slot.mem_outcomes_create ho' with rfl | ho
  · exact ⟨s.now, s.now_mem_outcomes, .inr hevo⟩
  · exact ⟨o', ho, .inl rfl⟩

/-- A beginning of a first record's text, or the whole of it. -/
theorem evo_take (he : Initial C n e) {o : Option File} (ho : Unborn C n o) (k : Nat) :
    Evo C n mine o (some ⟨0o600, e.marshal.take k⟩) := by
  by_cases hk : k < e.marshal.length
  · refine .write ho (.inr ⟨e, e.marshal.take k, e.marshal.drop k, he,
      (List.take_append_drop k _).symm, ?_, rfl⟩)
    rw [ne_eq, List.drop_eq_nil_iff]
    omega
  · rw [List.take_of_length_le (Nat.le_of_not_lt hk)]
    exact .born ho he

/-- Writing a first record, or some of it. -/
theorem append (he : Initial C n e) (hnow : s.now = some ⟨0o600, []⟩) (c k : Nat) :
    SlotMoves C n mine s (s.append c (e.marshal.take k)) := by
  have hunborn : Unborn C n s.now :=
    .inr ⟨e, [], e.marshal, he, rfl, e.marshal_ne_nil, hnow⟩
  by_cases hc : s.opener = c
  · refine ⟨fun o' ho' => ?_, .inr ?_⟩
    · rcases Slot.mem_outcomes_append ho' with ho | ⟨_, f, j, hf, _, rfl⟩
      · exact ⟨o', ho, .inl rfl⟩
      · rw [hnow, Option.some.injEq] at hf
        subst hf
        refine ⟨s.now, s.now_mem_outcomes, .inr ?_⟩
        rw [List.nil_append, List.take_take]
        exact evo_take he hunborn _
    · simp only [Slot.append, hnow, hc, if_true, List.nil_append]
      exact ⟨Nat.lt_succ_self _, evo_take he (hnow ▸ hunborn) k⟩
  · have hsame : s.append c (e.marshal.take k) = s := by
      simp only [Slot.append, hnow, hc, if_false]
    rw [hsame]
    exact refl s

/-- A flushed file with the rewritten record takes the place of the old one. -/
theorem replace {source : Slot} {e' : Record} (hevolves : Evolves C mine e e')
    (hsource : source.now = some e'.file) (hloose : source.loose = [])
    (hnow : s.now = some e.file) :
    SlotMoves C n mine s (source.replace s) := by
  have hevo : Evo C n mine s.now source.now := by
    rw [hnow, hsource]
    exact .rewrite hevolves
  refine ⟨fun o' ho' => ?_, .inr ⟨Nat.lt_succ_self _, hevo⟩⟩
  rcases Slot.mem_outcomes_replace ho' with ho | ho
  · refine ⟨s.now, s.now_mem_outcomes, .inr ?_⟩
    simp only [Slot.present, hsource, hloose, List.map_nil, List.mem_singleton] at ho
    rw [ho, ← hsource]
    exact hevo
  · exact ⟨o', ho, .inl rfl⟩

theorem mono {mine' : String → Prop} (h : ∀ id, mine id → mine' id)
    (hmoves : SlotMoves C n mine s s') : SlotMoves C n mine' s s' := by
  refine ⟨fun o' ho' => ?_, ?_⟩
  · obtain ⟨o, ho, heq | hevo⟩ := hmoves.outcomes o' ho'
    · exact ⟨o, ho, .inl heq⟩
    · exact ⟨o, ho, .inr (hevo.mono h)⟩
  · exact hmoves.now.imp id fun h' => ⟨h'.1, h'.2.mono h⟩

/-- A property that every change of the name keeps holds of everything a power
loss may leave, if it did before. -/
theorem all_outcomes {P : Option File → Prop}
    (hkeeps : ∀ {o o' : Option File}, Evo C n mine o o' → P o → P o')
    (hmoves : SlotMoves C n mine s s') (hall : ∀ o ∈ s.outcomes, P o) :
    ∀ o ∈ s'.outcomes, P o := by
  intro o' ho'
  obtain ⟨o, ho, rfl | hevo⟩ := hmoves.outcomes o' ho'
  · exact hall o' ho
  · exact hkeeps hevo (hall o ho)

end SlotMoves

end TosAi.CommerceGate
