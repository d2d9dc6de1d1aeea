/-
  `preparePlan` as a canonicaliser.

  `normalize` is the canonical form: sorted lists, the fields the caller does not
  choose cleared.  Everything `preparePlan` returns is a function of that form and
  of the fence, and an accepted plan SHARES ITS FORM WITH EVERY REORDERING OF
  ITSELF, because a list is only accepted without repeated keys and such a list
  has one sorted order.  The rest is read off: reordering changes nothing, a
  prepared plan is its own preparation, a takeover changes the bound digest alone,
  and one execution ID stands for one piece of work.

  Digests are hashes, so no two plans are assumed to have different ones.  Where a
  result needs it, `Commerce.Apart` says of the two plans at hand that the library
  does not confuse them.
-/
import TosAi.CommerceGate.Calls

set_option autoImplicit false

namespace TosAi.CommerceGate

open Foundation

/-! ## The canonical form -/

theorem SamePlan.symm {p q : Plan} (h : SamePlan p q) : SamePlan q p where
  ownerID := h.ownerID.symm
  agentID := h.agentID.symm
  agreementBodyDigest := h.agreementBodyDigest.symm
  executionObligationID := h.executionObligationID.symm
  acceptedInputManifestDigest := h.acceptedInputManifestDigest.symm
  attemptIndex := h.attemptIndex.symm
  predecessorTerminalResolutionDigest := h.predecessorTerminalResolutionDigest.symm
  reservationID := h.reservationID.symm
  policyRevision := h.policyRevision.symm
  leaseLossPolicy := h.leaseLossPolicy.symm
  files := h.files.symm
  networkBindings := h.networkBindings.symm
  credentialBindings := h.credentialBindings.symm
  effectBindings := h.effectBindings.symm

/-- Plans with one canonical form describe the same work. -/
theorem SamePlan.of_normalize_eq {p q : Plan} (h : normalize p = normalize q) : SamePlan p q := by
  have hsorted {α : Type} {key : α → String} {l l' : List α} (h : sortBy key l = sortBy key l') :
      l.Perm l' := (sortBy_perm l).symm.trans (h ▸ sortBy_perm l')
  have hfields := h
  simp only [normalize, Plan.mk.injEq] at hfields
  obtain ⟨howner, hagent, hagreement, hobligation, -, hmanifest, hattempt, hpredecessor, -,
    hreservation, hpolicy, -, hlease, hfiles, hnetworks, hcredentials, heffects⟩ := hfields
  exact ⟨howner, hagent, hagreement, hobligation, hmanifest, hattempt, hpredecessor, hreservation,
    hpolicy, hlease, hsorted hfiles, hsorted hnetworks, hsorted hcredentials, hsorted heffects⟩

section

variable {C : Commerce} {p q p' q' : Plan} {f g : WriterFence} {d e : String}

/-- What `preparePlan` returns depends on the canonical form alone. -/
theorem preparePlan_congr (hnormal : normalize p = normalize q) :
    preparePlan C p f = preparePlan C q f := by
  have hsame := SamePlan.of_normalize_eq hnormal
  simp only [preparePlan, hnormal, hsame.ownerID, hsame.agentID, hsame.agreementBodyDigest,
    hsame.executionObligationID, hsame.acceptedInputManifestDigest, hsame.reservationID,
    hsame.policyRevision, hsame.leaseLossPolicy, hsame.files.length_eq,
    hsame.networkBindings.length_eq, hsame.credentialBindings.length_eq,
    hsame.effectBindings.length_eq]

theorem preparePlan_of_same (hp : preparePlan C p f = .ok (p', d)) (hsame : SamePlan p q) :
    preparePlan C q f = .ok (p', d) :=
  (preparePlan_congr ((preparePlan_eq_ok hp).normalize_eq hsame)).symm.trans hp

/-- Reordering the lists of a plan changes nothing of what is returned for it. -/
theorem toOption_preparePlan_of_same (hsame : SamePlan p q) :
    (preparePlan C p f).toOption = (preparePlan C q f).toOption := by
  cases hp : preparePlan C p f with
  | ok result => rw [preparePlan_of_same hp hsame]
  | error err =>
    cases hq : preparePlan C q f with
    | ok result =>
      have hback := preparePlan_of_same hq hsame.symm
      rw [hp] at hback
      cases hback
    | error err' => rfl

/-! ## The prepared plan -/

/-- The canonical form of a prepared plan is that of the plan it was made of. -/
theorem Prepared.normalize_prepared (hp : Prepared C p f p' d) : normalize p' = normalize p := by
  obtain ⟨canonical, executionID, -, -, rfl⟩ := hp.identity
  symm
  apply hp.normalize_eq
  refine ⟨rfl, rfl, rfl, rfl, rfl, rfl, rfl, rfl, rfl, rfl, ?_, ?_, ?_, ?_⟩
  · exact (sortBy_perm p.files).symm
  · exact (sortBy_perm p.networkBindings).symm
  · exact (sortBy_perm p.credentialBindings).symm
  · exact (sortBy_perm p.effectBindings).symm

/-- A prepared plan is its own preparation. -/
theorem preparePlan_prepared (hp : preparePlan C p f = .ok (p', d)) :
    preparePlan C p' f = .ok (p', d) :=
  (preparePlan_congr (preparePlan_eq_ok hp).normalize_prepared).trans hp

/-! ## Takeover -/

/-- Under another fence of the owner and agent the plan is prepared with the
generation of that fence and nothing else changed. -/
theorem preparePlan_takeover (howner : f.body.ownerID = g.body.ownerID)
    (hagent : f.body.agentID = g.body.agentID) (hp : preparePlan C p f = .ok (p', d)) :
    preparePlan C p g =
      (C.digest "tos.local-execution-plan-bound.v1"
        (.plan { p' with writerGeneration := g.body.writerGeneration })).map fun digest =>
          ({ p' with writerGeneration := g.body.writerGeneration }, digest) := by
  unfold preparePlan at hp
  obtain ⟨_, hhead, hp⟩ := bind_eq_ok hp
  obtain ⟨_, hfiles, hp⟩ := bind_eq_ok hp
  obtain ⟨_, hnetworks, hp⟩ := bind_eq_ok hp
  obtain ⟨_, hcredentials, hp⟩ := bind_eq_ok hp
  obtain ⟨_, heffects, hp⟩ := bind_eq_ok hp
  obtain ⟨canonical, hcanonical, hp⟩ := bind_eq_ok hp
  obtain ⟨executionID, hslot, hp⟩ := bind_eq_ok hp
  obtain ⟨bound, -, hp⟩ := bind_eq_ok hp
  have hpair := Except.ok.inj hp
  rw [Prod.mk.injEq] at hpair
  obtain ⟨rfl, -⟩ := hpair
  rw [howner, hagent] at hhead
  unfold preparePlan
  simp only [hhead, hfiles, hnetworks, hcredentials, heffects, hcanonical, hslot, bind, Except.bind]
  cases C.digest "tos.local-execution-plan-bound.v1" _ <;> rfl

/-- Whether a plan can be digested does not depend on its writer generation. -/
def Commerce.Oblivious (C : Commerce) : Prop :=
  ∀ domain (plan : Plan) generation,
    (C.digest domain (.plan { plan with writerGeneration := generation })).isOk =
      (C.digest domain (.plan plan)).isOk

/-- An accepted plan is accepted after a takeover. -/
theorem isOk_preparePlan_takeover (hoblivious : C.Oblivious)
    (howner : f.body.ownerID = g.body.ownerID) (hagent : f.body.agentID = g.body.agentID)
    (hp : (preparePlan C p f).isOk = true) : (preparePlan C p g).isOk = true := by
  cases hresult : preparePlan C p f with
  | error err =>
    rw [hresult] at hp
    cases hp
  | ok result =>
    obtain ⟨p', d⟩ := result
    have hdigest := hoblivious "tos.local-execution-plan-bound.v1" p' g.body.writerGeneration
    rw [(preparePlan_eq_ok hresult).digest] at hdigest
    rw [preparePlan_takeover howner hagent hresult]
    cases hnew : C.digest "tos.local-execution-plan-bound.v1"
        (.plan { p' with writerGeneration := g.body.writerGeneration }) with
    | ok digest => rfl
    | error err =>
      rw [hnew] at hdigest
      cases hdigest

/-- The library does not confuse the two plans: their digests differ in every
domain unless the plans are the same, and so do their execution slots. -/
structure Commerce.Apart (C : Commerce) (p q : Plan) : Prop where
  digest : ∀ domain d, C.digest domain (.plan p) = .ok d → C.digest domain (.plan q) = .ok d → p = q
  slot : ∀ d e id, C.deriveStableActionID "execution.slot" (slotFields p d) = .ok id →
    C.deriveStableActionID "execution.slot" (slotFields q e) = .ok id →
    slotFields p d = slotFields q e

/-- A takeover keeps the identity of the work and gives it a bound digest of its own. -/
theorem preparePlan_generations (howner : f.body.ownerID = g.body.ownerID)
    (hagent : f.body.agentID = g.body.agentID) (hp : preparePlan C p f = .ok (p', d))
    (hq : preparePlan C p g = .ok (q', e)) :
    p'.executionID = q'.executionID ∧ p'.canonicalPlanDigest = q'.canonicalPlanDigest ∧
      (C.Apart p' q' → (d = e ↔ f.body.writerGeneration = g.body.writerGeneration)) := by
  have hbound := (preparePlan_eq_ok hp).digest
  have hgeneration : p'.writerGeneration = f.body.writerGeneration := by
    obtain ⟨_, _, -, -, rfl⟩ := (preparePlan_eq_ok hp).identity
    rfl
  have htakeover := preparePlan_takeover howner hagent hp
  rw [hq] at htakeover
  cases hnew : C.digest "tos.local-execution-plan-bound.v1"
      (.plan { p' with writerGeneration := g.body.writerGeneration }) with
  | error err =>
    rw [hnew] at htakeover
    cases htakeover
  | ok digest =>
    rw [hnew] at htakeover
    have hpair := Except.ok.inj htakeover
    rw [Prod.mk.injEq] at hpair
    obtain ⟨rfl, rfl⟩ := hpair
    refine ⟨rfl, rfl, fun hapart => ⟨?_, ?_⟩⟩
    · rintro rfl
      have hsame := congrArg Plan.writerGeneration (hapart.digest _ _ hbound hnew)
      exact hgeneration.symm.trans hsame
    · intro hequal
      have hself : { p' with writerGeneration := g.body.writerGeneration } = p' := by
        rw [← hequal, ← hgeneration]
      rw [hself, hbound] at hnew
      exact Except.ok.inj hnew

/-! ## One execution ID, one piece of work -/

theorem samePlan_of_executionID (hapart : C.Apart (normalize p) (normalize q))
    (hp : preparePlan C p f = .ok (p', d)) (hq : preparePlan C q g = .ok (q', e))
    (hid : p'.executionID = q'.executionID) : SamePlan p q := by
  obtain ⟨canonical, executionID, hcanonical, hslot, rfl⟩ := (preparePlan_eq_ok hp).identity
  obtain ⟨canonical', executionID', hcanonical', hslot', rfl⟩ := (preparePlan_eq_ok hq).identity
  obtain rfl : executionID = executionID' := hid
  -- the slot holds the canonical digest, the digest holds the whole form
  have hfields := hapart.slot _ _ _ hslot hslot'
  obtain rfl : canonical = canonical' := by
    simp only [slotFields, List.cons.injEq, Prod.mk.injEq, SemanticValue.digest32.injEq] at hfields
    exact hfields.2.2.2.2.1.2
  exact .of_normalize_eq (hapart.digest _ _ hcanonical hcanonical')

end

/-- **`preparePlan` is a canonicaliser.** -/
theorem preparePlan_canonicalises (C : Commerce) :
    -- the order of the lists and the fields it sets itself do not matter
    (∀ p q fence, SamePlan p q →
      (preparePlan C p fence).toOption = (preparePlan C q fence).toOption) ∧
    -- a prepared plan is its own preparation
    (∀ p fence p' d, preparePlan C p fence = .ok (p', d) →
      preparePlan C p' fence = .ok (p', d)) ∧
    -- fences of one owner and agent differ in the bound digest alone
    (∀ p (f g : WriterFence), f.body.ownerID = g.body.ownerID → f.body.agentID = g.body.agentID →
      (C.Oblivious → (preparePlan C p f).isOk = (preparePlan C p g).isOk) ∧
      ∀ p' d q' e, preparePlan C p f = .ok (p', d) → preparePlan C p g = .ok (q', e) →
        p'.executionID = q'.executionID ∧ p'.canonicalPlanDigest = q'.canonicalPlanDigest ∧
        (C.Apart p' q' → (d = e ↔ f.body.writerGeneration = g.body.writerGeneration))) ∧
    -- an execution ID stands for one piece of work
    (∀ p q f g p' d q' e, preparePlan C p f = .ok (p', d) → preparePlan C q g = .ok (q', e) →
      C.Apart (normalize p) (normalize q) → p'.executionID = q'.executionID → SamePlan p q) := by
  refine ⟨fun p q fence => toOption_preparePlan_of_same, fun p fence p' d => preparePlan_prepared,
    fun p f g howner hagent => ⟨fun hoblivious => ?_, fun p' d q' e => ?_⟩,
    fun p q f g p' d q' e hp hq hapart => samePlan_of_executionID hapart hp hq⟩
  · rw [Bool.eq_iff_iff]
    exact ⟨isOk_preparePlan_takeover hoblivious howner hagent,
      isOk_preparePlan_takeover hoblivious howner.symm hagent.symm⟩
  · exact preparePlan_generations howner hagent

/-! A plan with two files, in either order, under two generations. -/

/-- A library whose digest of a plan is its writer generation. -/
def numbering : Commerce :=
  { tolerant with
    digest := fun _ payload =>
      match payload with
      | .plan plan => .ok (toString plan.writerGeneration)
      | _ => .ok zeroDigest
    deriveStableActionID := fun _ fields =>
      match fields.lookup "canonical_plan_digest" with
      | some (.digest32 digest) => .ok digest
      | _ => .error .io }

def twoFiles : Plan :=
  { samplePlan with files := [⟨"/a", zeroDigest, 1⟩, ⟨"/b", zeroDigest, 2⟩] }

def swappedFiles : Plan :=
  { twoFiles with files := [⟨"/b", zeroDigest, 2⟩, ⟨"/a", zeroDigest, 1⟩] }

def laterFence : WriterFence := { sampleFence with body := { sampleFence.body with
  writerGeneration := 2 } }

def twoFilesPrepared (generation : UInt64) : Plan :=
  { twoFiles with writerGeneration := generation, canonicalPlanDigest := "0", executionID := "0" }

theorem preparePlan_twoFiles (generation : UInt64) :
    preparePlan numbering twoFiles ⟨⟨"o", "a", generation, 100⟩, []⟩ =
      .ok (twoFilesPrepared generation, toString generation) := by
  have hsorted : sortBy FileBinding.path twoFiles.files = twoFiles.files := by
    apply List.mergeSort_of_pairwise
    decide +kernel
  have hnormal : normalize twoFiles = twoFiles := by
    simp only [normalize, hsorted]
    simp [sortBy, twoFiles, samplePlan]
  unfold preparePlan
  rw [hnormal]
  rfl

theorem numbering_slot {p q : Plan} {d e id : String} (hsame : ∀ d, slotFields p d = slotFields q d)
    (hd : numbering.deriveStableActionID "execution.slot" (slotFields p d) = .ok id)
    (he : numbering.deriveStableActionID "execution.slot" (slotFields q e) = .ok id) :
    slotFields p d = slotFields q e := by
  obtain rfl : d = id := Except.ok.inj hd
  obtain rfl : e = d := Except.ok.inj he
  exact hsame e

theorem preparePlan_canonicalises_twoFiles :
    (preparePlan numbering swappedFiles sampleFence).toOption = some (twoFilesPrepared 1, "1") ∧
      preparePlan numbering (twoFilesPrepared 1) sampleFence = .ok (twoFilesPrepared 1, "1") ∧
      (preparePlan numbering twoFiles laterFence).isOk = true ∧
      ("1" = "2" ↔ sampleFence.body.writerGeneration = laterFence.body.writerGeneration) ∧
      SamePlan twoFiles swappedFiles := by
  have hfirst := preparePlan_twoFiles 1
  have hlater := preparePlan_twoFiles 2
  have hswap : SamePlan twoFiles swappedFiles :=
    ⟨rfl, rfl, rfl, rfl, rfl, rfl, rfl, rfl, rfl, rfl, .swap _ _ _, .refl _, .refl _, .refl _⟩
  have hswapped := preparePlan_of_same hfirst hswap
  obtain ⟨hsame, hagain, htakeover, hone⟩ := preparePlan_canonicalises numbering
  obtain ⟨hok, hdiffer⟩ := htakeover twoFiles sampleFence laterFence rfl rfl
  refine ⟨?_, hagain _ _ _ _ hfirst, ?_, ?_, ?_⟩
  · rw [← hsame _ _ _ hswap]
    exact congrArg Except.toOption hfirst
  · rw [← hok fun _ _ _ => rfl]
    exact congrArg Except.isOk hfirst
  · refine (hdiffer _ _ _ _ hfirst hlater).2.2 ⟨?_, fun _ _ _ => numbering_slot fun _ => rfl⟩
    intro domain d h₁ h₂
    have habsurd : "1" = "2" := (Except.ok.inj h₁).trans (Except.ok.inj h₂).symm
    exact absurd habsurd (by decide)
  · refine hone _ _ _ _ _ _ _ _ hfirst hswapped ?_ rfl
    rw [← (preparePlan_eq_ok hfirst).normalize_eq hswap]
    exact ⟨fun _ _ _ _ => rfl, fun _ _ _ => numbering_slot fun _ => rfl⟩

end TosAi.CommerceGate
