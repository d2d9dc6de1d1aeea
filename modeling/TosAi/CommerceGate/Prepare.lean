/-
  `preparePlan`: the checks a plan has to pass and the identity it is given.

  The identity of the work is a digest of the plan with its four binding lists
  sorted and with the caller's ExecutionID, CanonicalPlanDigest and the writer
  generation cleared.  `preparePlan_executionID` is the consequence the rest
  depends on: PLANS THAT MEAN THE SAME GET THE SAME EXECUTION ID.  Sorting is not
  stable in Go, but a list with two equal keys is refused, and a sorted list
  without equal keys is determined by its elements.
-/
import TosAi.CommerceGate.Plan

set_option autoImplicit false

namespace TosAi.CommerceGate

open Foundation

def maxPlanFiles : Nat := 256
def maxInputFileBytes : Nat := 2 ^ 30
def maxStartTicketLifetime : Int := 5 * 60 * 1000000000
def maxPlanNetworkTargets : Nat := 64
def maxPlanCredentials : Nat := 64
def maxPlanEffects : Nat := 256

/-- `sha256:` and 64 hexadecimal digits. -/
def validDigest (value : String) : Bool :=
  value.toList.length == 71 && value.toList.take 7 == "sha256:".toList &&
    (value.toList.drop 7).all isHexDigit

def publicIP (ip : Option IP) : Bool :=
  match ip with
  | none => false
  | some ip => ip.isGlobalUnicast && !ip.isPrivate && !ip.isLoopback && !ip.isLinkLocalUnicast &&
      !ip.isLinkLocalMulticast

/-! ## The checks -/

/-- Check every element, given the one before it. -/
def checkEach {α : Type} (check : Option α → α → Except Err Unit) :
    Option α → List α → Except Err Unit
  | _, [] => .ok ()
  | before, a :: rest => do
    check before a
    checkEach check (some a) rest

/-- `index > 0` and the element before has the same key. -/
def repeats {α : Type} (key : α → String) (before : Option α) (a : α) : Bool :=
  before.any fun b => key b == key a

def checkFile (before : Option FileBinding) (file : FileBinding) : Except Err Unit :=
  require (pathIsAbs file.path && pathClean file.path == file.path && validDigest file.digest &&
      decide (file.size.toNat ≤ maxInputFileBytes) && !repeats FileBinding.path before file)
    "execution file binding is invalid or duplicated"

def checkAddress (before : Option String) (text : String) : Except Err Unit :=
  require (publicIP (parseIP text) && !repeats id before text)
    "execution network binding contains a non-public or duplicate address"

def checkNetwork (before : Option NetworkBinding) (binding : NetworkBinding) :
    Except Err Unit := do
  require (binding.bindingID != "" && binding.scheme == "https" && binding.host != "" &&
      binding.port != 0 && binding.tlsServerName == binding.host && !binding.allowRedirects &&
      binding.maxRequestBytes != 0 && decide (binding.maxRequestBytes.toNat ≤ 16 * 2 ^ 20) &&
      binding.maxResponseBytes != 0 && decide (binding.maxResponseBytes.toNat ≤ 64 * 2 ^ 20) &&
      decide (binding.resolvedIPs.length ≠ 0) && decide (binding.resolvedIPs.length ≤ 16) &&
      stringsAreSorted binding.resolvedIPs && !repeats NetworkBinding.bindingID before binding)
    "execution network binding is invalid or duplicated"
  checkEach checkAddress none binding.resolvedIPs

def checkCredential (before : Option CredentialBinding) (binding : CredentialBinding) :
    Except Err Unit :=
  require (binding.handleID != "" && validDigest binding.scopeDigest &&
      binding.expiresAtUnix != 0 && !repeats CredentialBinding.handleID before binding)
    "execution credential binding is invalid or duplicated"

def checkEffect (C : Commerce) (networks : List NetworkBinding)
    (credentials : List CredentialBinding) (before : Option EffectBinding)
    (effect : EffectBinding) : Except Err Unit :=
  let network := networks.find? fun n => n.bindingID == effect.networkBindingID
  let targetDigest := C.digest "tos.executor-network-target.v1"
    (.network (network.getD NetworkBinding.zero))
  require (effect.planEffectID != "" && validDigest effect.effectProfileDigest &&
      validDigest effect.targetDigest && validDigest effect.effectSemanticKeyDigest &&
      ["https.get", "https.post", "https.put", "https.delete"].contains effect.operationKind &&
      network.isSome &&
      (match targetDigest with
        | .ok digest => effect.targetDigest == digest
        | .error _ => false) &&
      effect.maximumUses == 1 &&
      (effect.credentialHandleID == "" ||
        credentials.any fun c => c.handleID == effect.credentialHandleID) &&
      !repeats EffectBinding.planEffectID before effect)
    "execution effect binding is invalid or duplicated"

/-- The fields of the execution slot. -/
def slotFields (plan : Plan) (canonicalPlanDigest : String) : List (String × SemanticValue) :=
  [("owner_id", .id plan.ownerID), ("agent_id", .id plan.agentID),
    ("agreement_body_digest", .digest32 plan.agreementBodyDigest),
    ("execution_obligation_id", .id plan.executionObligationID),
    ("canonical_plan_digest", .digest32 canonicalPlanDigest),
    ("accepted_input_manifest_digest", .digest32 plan.acceptedInputManifestDigest),
    ("attempt_index", .u64 plan.attemptIndex),
    ("predecessor_terminal_resolution_digest",
      .digest32 plan.predecessorTerminalResolutionDigest)]

/-- The plan with its lists sorted and the fields it does not get to choose
cleared. -/
def normalize (plan : Plan) : Plan :=
  { plan with
    writerGeneration := 0
    executionID := ""
    canonicalPlanDigest := ""
    files := sortBy FileBinding.path plan.files
    networkBindings := sortBy NetworkBinding.bindingID plan.networkBindings
    credentialBindings := sortBy CredentialBinding.handleID plan.credentialBindings
    effectBindings := sortBy EffectBinding.planEffectID plan.effectBindings }

def preparePlan (C : Commerce) (plan : Plan) (fence : WriterFence) :
    Except Err (Plan × String) := do
  require (plan.ownerID == fence.body.ownerID && plan.agentID == fence.body.agentID &&
      plan.agreementBodyDigest != "" && plan.executionObligationID != "" &&
      plan.acceptedInputManifestDigest != "" && plan.reservationID != "" &&
      plan.policyRevision != 0 && decide (plan.files.length ≤ maxPlanFiles) &&
      decide (plan.networkBindings.length ≤ maxPlanNetworkTargets) &&
      decide (plan.credentialBindings.length ≤ maxPlanCredentials) &&
      decide (plan.effectBindings.length ≤ maxPlanEffects) &&
      [leaseLossContinue, leaseLossDrain, leaseLossKill].contains plan.leaseLossPolicy)
    "execution plan is incomplete"
  let work := normalize plan
  checkEach checkFile none work.files
  checkEach checkNetwork none work.networkBindings
  checkEach checkCredential none work.credentialBindings
  checkEach (checkEffect C work.networkBindings work.credentialBindings) none work.effectBindings
  let canonicalPlanDigest ← C.digest "tos.local-execution-plan.v1" (.plan work)
  let executionID ← C.deriveStableActionID "execution.slot" (slotFields work canonicalPlanDigest)
  let prepared := { work with
    writerGeneration := fence.body.writerGeneration
    canonicalPlanDigest
    executionID }
  let digest ← C.digest "tos.local-execution-plan-bound.v1" (.plan prepared)
  return (prepared, digest)

/-! ## What an accepted plan satisfies -/

/-- What `preparePlan` returns, step by step. -/
structure Prepared (C : Commerce) (plan : Plan) (fence : WriterFence) (prepared : Plan)
    (digest : String) : Prop where
  files : checkEach checkFile none (normalize plan).files = .ok ()
  networks : checkEach checkNetwork none (normalize plan).networkBindings = .ok ()
  credentials : checkEach checkCredential none (normalize plan).credentialBindings = .ok ()
  effects : checkEach (checkEffect C (normalize plan).networkBindings
    (normalize plan).credentialBindings) none (normalize plan).effectBindings = .ok ()
  effectCount : plan.effectBindings.length ≤ maxPlanEffects
  identity : ∃ canonicalPlanDigest executionID,
    C.digest "tos.local-execution-plan.v1" (.plan (normalize plan)) = .ok canonicalPlanDigest ∧
    C.deriveStableActionID "execution.slot" (slotFields (normalize plan) canonicalPlanDigest) =
      .ok executionID ∧
    prepared = { normalize plan with
      writerGeneration := fence.body.writerGeneration
      canonicalPlanDigest
      executionID }
  digest : C.digest "tos.local-execution-plan-bound.v1" (.plan prepared) = .ok digest

theorem preparePlan_eq_ok {C : Commerce} {plan : Plan} {fence : WriterFence} {prepared : Plan}
    {digest : String} (h : preparePlan C plan fence = .ok (prepared, digest)) :
    Prepared C plan fence prepared digest := by
  unfold preparePlan at h
  obtain ⟨_, hhead, h⟩ := bind_eq_ok h
  obtain ⟨_, hfiles, h⟩ := bind_eq_ok h
  obtain ⟨_, hnetworks, h⟩ := bind_eq_ok h
  obtain ⟨_, hcredentials, h⟩ := bind_eq_ok h
  obtain ⟨_, heffects, h⟩ := bind_eq_ok h
  obtain ⟨canonical, hcanonical, h⟩ := bind_eq_ok h
  obtain ⟨executionID, hslot, h⟩ := bind_eq_ok h
  obtain ⟨bound, hbound, h⟩ := bind_eq_ok h
  have hpair := Except.ok.inj h
  rw [Prod.mk.injEq] at hpair
  obtain ⟨rfl, rfl⟩ := hpair
  have hcount := require_eq_ok_iff.mp hhead
  simp only [Bool.and_eq_true, decide_eq_true_eq] at hcount
  exact ⟨hfiles, hnetworks, hcredentials, heffects, hcount.1.2,
    ⟨canonical, executionID, hcanonical, hslot, rfl⟩, hbound⟩

/-! ## The identity of a plan -/

/-- A list whose every element passes a check that refuses a repeated key has no
two neighbours with one key. -/
theorem isChain_of_checkEach {α : Type} {key : α → String} {check : Option α → α → Except Err Unit}
    (hcheck : ∀ b a u, check (some b) a = .ok u → key b ≠ key a) :
    ∀ {before : Option α} {l : List α} {u : Unit}, checkEach check before l = .ok u →
      l.IsChain fun a b => key a ≠ key b
  | _, [], _, _ => .nil
  | _, [a], _, _ => .singleton a
  | _, a :: b :: rest, _, h => by
    obtain ⟨_, _, hrest⟩ := bind_eq_ok h
    obtain ⟨_, hb, _⟩ := bind_eq_ok hrest
    exact .cons_cons (hcheck _ _ _ hb) (isChain_of_checkEach hcheck hrest)

theorem repeats_false {α : Type} {key : α → String} {b a : α}
    (h : (!repeats key (some b) a) = true) : key b ≠ key a := by
  simpa [repeats] using h

variable {u : Unit} {C : Commerce}

theorem checkFile_ne {b a : FileBinding} (h : checkFile (some b) a = .ok u) :
    b.path ≠ a.path := by
  have hall := require_eq_ok_iff.mp h
  rw [Bool.and_eq_true] at hall
  exact repeats_false hall.2

theorem checkNetwork_ne {b a : NetworkBinding} (h : checkNetwork (some b) a = .ok u) :
    b.bindingID ≠ a.bindingID := by
  obtain ⟨_, hrequire, _⟩ := bind_eq_ok h
  have hall := require_eq_ok_iff.mp hrequire
  rw [Bool.and_eq_true] at hall
  exact repeats_false hall.2

theorem checkCredential_ne {b a : CredentialBinding} (h : checkCredential (some b) a = .ok u) :
    b.handleID ≠ a.handleID := by
  have hall := require_eq_ok_iff.mp h
  rw [Bool.and_eq_true] at hall
  exact repeats_false hall.2

theorem checkEffect_ne {networks : List NetworkBinding} {credentials : List CredentialBinding}
    {b a : EffectBinding} (h : checkEffect C networks credentials (some b) a = .ok u) :
    b.planEffectID ≠ a.planEffectID := by
  have hall := require_eq_ok_iff.mp h
  rw [Bool.and_eq_true] at hall
  exact repeats_false hall.2

/-- The two plans describe the same work: they differ at most in the order of
their binding lists and in the fields `preparePlan` sets itself. -/
structure SamePlan (p q : Plan) : Prop where
  ownerID : p.ownerID = q.ownerID
  agentID : p.agentID = q.agentID
  agreementBodyDigest : p.agreementBodyDigest = q.agreementBodyDigest
  executionObligationID : p.executionObligationID = q.executionObligationID
  acceptedInputManifestDigest : p.acceptedInputManifestDigest = q.acceptedInputManifestDigest
  attemptIndex : p.attemptIndex = q.attemptIndex
  predecessorTerminalResolutionDigest :
    p.predecessorTerminalResolutionDigest = q.predecessorTerminalResolutionDigest
  reservationID : p.reservationID = q.reservationID
  policyRevision : p.policyRevision = q.policyRevision
  leaseLossPolicy : p.leaseLossPolicy = q.leaseLossPolicy
  files : p.files.Perm q.files
  networkBindings : p.networkBindings.Perm q.networkBindings
  credentialBindings : p.credentialBindings.Perm q.credentialBindings
  effectBindings : p.effectBindings.Perm q.effectBindings

/-- An accepted plan shares its canonical form with every plan for the same work. -/
theorem Prepared.normalize_eq {p q p' : Plan} {f : WriterFence} {d : String}
    (hp : Prepared C p f p' d) (hsame : SamePlan p q) :
    normalize p = normalize q := by
  have hfiles := sortBy_eq_of_perm hsame.files
    (isChain_of_checkEach (fun _ _ _ => checkFile_ne) hp.files)
  have hnetworks := sortBy_eq_of_perm hsame.networkBindings
    (isChain_of_checkEach (fun _ _ _ => checkNetwork_ne) hp.networks)
  have hcredentials := sortBy_eq_of_perm hsame.credentialBindings
    (isChain_of_checkEach (fun _ _ _ => checkCredential_ne) hp.credentials)
  have heffects := sortBy_eq_of_perm hsame.effectBindings
    (isChain_of_checkEach (fun _ _ _ => checkEffect_ne) hp.effects)
  simp only [normalize, hsame.ownerID, hsame.agentID, hsame.agreementBodyDigest,
    hsame.executionObligationID, hsame.acceptedInputManifestDigest, hsame.attemptIndex,
    hsame.predecessorTerminalResolutionDigest, hsame.reservationID, hsame.policyRevision,
    hsame.leaseLossPolicy, hfiles, hnetworks, hcredentials, heffects]

/-- **Plans that mean the same get the same execution ID**, whatever the order of
their lists, the identifiers the caller wrote into them, or the writer
generation of the fence. -/
theorem preparePlan_executionID {p q p' q' : Plan} {f g : WriterFence} {d e : String}
    (hp : preparePlan C p f = .ok (p', d)) (hq : preparePlan C q g = .ok (q', e))
    (hsame : SamePlan p q) : p'.executionID = q'.executionID := by
  have hp := preparePlan_eq_ok hp
  have hq := preparePlan_eq_ok hq
  have hnormal := hp.normalize_eq hsame
  obtain ⟨canonical, executionID, hcanonical, hslot, rfl⟩ := hp.identity
  obtain ⟨canonical', executionID', hcanonical', hslot', rfl⟩ := hq.identity
  rw [hnormal] at hcanonical hslot
  rw [hcanonical] at hcanonical'
  obtain rfl := Except.ok.inj hcanonical'
  rw [hslot] at hslot'
  exact Except.ok.inj hslot'

end TosAi.CommerceGate
