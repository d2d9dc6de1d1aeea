/-
  When the methods of a Gate succeed, and what they leave.

  In a world where nothing fails every method has a condition on its arguments and
  on the record it finds under which it returns its value.  `Start` is also given
  with a stop behind its read of the record, and `Prepare` with a stop behind the
  creation of its file.
-/
import TosAi.CommerceGate.Faultless

set_option autoImplicit false

namespace TosAi.CommerceGate

open Foundation
open Foundation.Json (Bytes)

variable {C : Commerce} {W : World C} {α : Type} {c g : Nat} {m : Method} {s : System C}

/-- Call `c` has the mutex of Gate `g`. -/
def System.enterMutex (s : System C) (c g : Nat) : System C :=
  { s with mu := Function.update s.mu g (some c) }

/-- The directory and the tokens are as given, all else as in `s`. -/
def System.wrote (s : System C) (fs : Fs FileName) (tokens : FileName → Token → Option Nat) :
    System C :=
  { s with fs, tokens }

theorem leave_mutex {fs : Fs FileName} {tokens : FileName → Token → Option Nat}
    (hcall : s.calls c = some (g, m)) (hfree : s.mu g = none) :
    { (s.enterMutex c g).wrote fs tokens with
      mu := Function.update ((s.enterMutex c g).wrote fs tokens).mu
        (((s.enterMutex c g).wrote fs tokens).gateOf c) none } = s.wrote fs tokens := by
  have hgate : ((s.enterMutex c g).wrote fs tokens).gateOf c = g := by
    simp [System.gateOf, System.enterMutex, System.wrote, hcall]
  rw [hgate]
  simp only [System.enterMutex, System.wrote, Function.update_idem]
  rw [← hfree, Function.update_eq_self]

/-- A call of an open Gate whose mutex is free. -/
structure System.Serves (s : System C) (c g : Nat) (m : Method) : Prop where
  call : s.calls c = some (g, m)
  lock : s.lock g = true
  free : s.mu g = none

theorem System.Serves.held (h : s.Serves c g m) : s.lock (s.gateOf c) = true := by
  simp [System.gateOf, h.call, h.lock]

section Sections

variable {Q : α → System C → Prop} {E : Err → System C → Prop}

/-- A section that changes files and tokens. -/
theorem ends_section {body : Gated C α} (hcall : s.calls c = some (g, m)) (hfree : s.mu g = none)
    (hbody : Ends (W.works c) body (s.enterMutex c g)
      (fun a t => ∃ fs tokens, t = (s.enterMutex c g).wrote fs tokens ∧ Q a (s.wrote fs tokens))
      fun _ _ => False) :
    Ends (W.works c) (locked body) s Q E := by
  refine ends_locked hcall hfree (hbody.conseq (fun a t h => ?_) fun _ _ h => h.elim)
  obtain ⟨fs, tokens, rfl, hQ⟩ := h
  rw [leave_mutex hcall hfree]
  exact hQ

end Sections

/-! ## Prepare -/

/-- The fence is verified and current. -/
structure World.Accepts (W : World C) (fence : WriterFence) (kind : String) : Prop where
  verified : C.verifyWriterFence fence W.authority W.now kind = none
  current : C.confirmCurrentWriterFence fence W.authority W.now = none

section Methods

variable {E : Err → System C → Prop} {fence : WriterFence} {action : AuthorizedAction}

theorem ends_checkFence {kind : String} {Q : Unit → System C → Prop}
    (hfence : W.Accepts fence kind) (hQ : Q () s) :
    Ends (W.works c) (checkFence fence W.now kind) s Q E :=
  .chain (ends_authority (.chain (ends_nilError hfence.verified
    (.chain (ends_authority (ends_nilError hfence.current hQ))))))

theorem ends_random {Q : Option String → System C → Prop} (hQ : Q (some W.secret) s) :
    Ends (W.works c) (perform .random) s Q E :=
  ends_perform (some W.secret) ⟨rfl, rfl⟩ (fun _ _ h => ⟨h.2, h.1⟩) hQ

/-- `Prepare` has nothing to object to. -/
structure World.Prepares (W : World C) (plan : Plan) (fence : WriterFence) (lifetime : Int)
    (action : AuthorizedAction) (prepared : Plan) (digest : String) : Prop where
  inBounds : 1000000000 ≤ lifetime ∧ lifetime ≤ maxStartTicketLifetime
  accepts : W.Accepts fence "execution.prepare"
  prepares : preparePlan C plan fence = .ok (prepared, digest)
  allows : authorized C action "execution.prepare" (prepareFields prepared) (.plan prepared) fence
    W.authority W.now = true

/-- The record `Prepare` creates. -/
def World.initial (W : World C) (prepared : Plan) (digest : String) (lifetime : Int)
    (fence : WriterFence) (action : AuthorizedAction) : Record :=
  initialRecord prepared digest W.secret (ticketDeadline W.now lifetime fence action) action

section Prepare

variable {plan prepared : Plan} {lifetime : Int} {digest : String}
  {Q : Ticket × Option Written → System C → Prop}

theorem ends_prepare (h : W.Prepares plan fence lifetime action prepared digest)
    (hgate : s.Serves c g m)
    (habsent : s.fs.now (path prepared.executionID) = none)
    (hQ : ∀ fs, Rewrote (path prepared.executionID)
        (W.initial prepared digest lifetime fence action) s.fs fs →
      Q (ticketFrom (W.initial prepared digest lifetime fence action),
        some ⟨path prepared.executionID, W.initial prepared digest lifetime fence action⟩)
        (s.wrote fs s.tokens)) :
    Ends (W.works c) (prepare plan fence lifetime action) s Q E := by
  refine .chain (ends_lockHeld (.chain (ends_ensure ?_ ?_)))
  · simp [hgate.held, h.inBounds]
  refine ends_section hgate.call hgate.free (.chain (ends_now (.chain (ends_checkFence h.accepts
    (.chain (ends_ofExcept h.prepares (.chain (ends_authority (.chain
      (ends_ensure h.allows (.chain ?_)))))))))))
  refine ends_attempt (Q := fun _ _ => False) (E := fun e t => e = .notExist ∧ t = s.enterMutex c g)
    (ends_readRecord_absent habsent ⟨rfl, rfl⟩) (fun _ _ h => h.elim) fun e t he => ?_
  obtain ⟨rfl, rfl⟩ := he
  exact .chain (ends_random (.chain (ends_createRecord habsent
    fun fs hfs => ⟨fs, s.tokens, rfl, hQ fs hfs⟩)))

/-- The creation of the file, as far as the disk is concerned: the name is there
and empty. -/
theorem halts_prepare (h : W.Prepares plan fence lifetime action prepared digest)
    (hgate : s.Serves c g m)
    (habsent : s.fs.now (path prepared.executionID) = none) :
    Halts (W.works c) (prepare plan fence lifetime action) s
      (fun t => t = (s.enterMutex c g).wrote
        (s.fs.modify (path prepared.executionID) (Slot.create c 0o600)) s.tokens)
      (fun _ => False) Q E := by
  refine .chain (ends_lockHeld (.chain (ends_ensure ?_ ?_)))
  · simp [hgate.held, h.inBounds]
  refine halts_locked hgate.call hgate.free (.chain (ends_now (.chain (ends_checkFence h.accepts
    (.chain (ends_ofExcept h.prepares (.chain (ends_authority (.chain
      (ends_ensure h.allows (.chain ?_)))))))))))
  refine ends_attempt (Q := fun _ _ => False) (E := fun e t => e = .notExist ∧ t = s.enterMutex c g)
    (ends_readRecord_absent habsent ⟨rfl, rfl⟩) (fun _ _ h => h.elim) fun e t he => ?_
  obtain ⟨rfl, rfl⟩ := he
  exact .chain (ends_random (.within (.chain (ends_create habsent
    (.here rfl fun _ h => h.elim)))))

end Prepare

/-! ## Start -/

theorem ends_claim {n : FileName} {t : Token} {Q : Unit → System C → Prop}
    (hQ : Q () (s.claim c n t)) : Ends (W.works c) (perform (.claim n t)) s Q E :=
  ends_perform () ⟨rfl, trivial⟩ (fun _ _ h => ⟨rfl, h.1⟩) hQ

/-- The input files are there and as the plan says. -/
def World.Supplies (W : World C) (files : List FileBinding) : Prop :=
  ∀ binding ∈ files, W.input binding = ⟨some binding.size, some binding.digest, true⟩

theorem ends_openBoundFiles {files : List FileBinding} {Q : Unit → System C → Prop}
    (hfiles : W.Supplies files) (hQ : Q () s) :
    Ends (W.works c) (openBoundFiles files) s Q E := by
  induction files with
  | nil => exact hQ
  | cons binding rest ih =>
    have hview := hfiles binding (List.mem_cons_self ..)
    refine .chain (.chain (ends_perform (some (W.input binding)) ⟨rfl, rfl⟩
      (fun _ _ h => ⟨h.2, h.1⟩) ?_))
    rw [hview]
    exact .chain (ends_ensure (beq_self_eq_true _) (.chain (ends_ensure
      (beq_self_eq_true _) (ends_succeed (ih fun b hb => hfiles b (List.mem_cons_of_mem _ hb))))))

/-- `Start` has nothing to object to. -/
structure World.Starts (W : World C) (e : Record) (ticket : Ticket) (fence : WriterFence)
    (action : AuthorizedAction) : Prop where
  issued : ticketFrom e = ticket
  generation : e.plan.writerGeneration = fence.body.writerGeneration
  accepts : W.Accepts fence "execution.start"
  allows : authorized C action "execution.start" (prepareFields e.plan) (.ticket ticket) fence
    W.authority W.now = true
  prepared : e.state = .prepared
  inTime : W.now < timeUnix (toInt64 e.startNotAfterUnix)
  supplied : W.Supplies e.plan.files

section Start

variable {e : Record} {ticket : Ticket}

theorem ends_startable {Q : Unit → System C → Prop} (h : W.Starts e ticket fence action)
    (hQ : Q () s) : Ends (W.works c) (startable e ticket fence action W.now) s Q E := by
  have hstate := h.prepared
  obtain rfl := h.issued
  refine .chain (ends_ensure ?_ (.chain (ends_authority (.chain (ends_ensure h.allows
    (.chain (ends_ensure ?_ (ends_ensure ?_ hQ))))))))
  · simp [ticketFrom, h.generation]
  · rw [hstate]
    rfl
  · simp [hstate, h.inTime]

/-- `Start` stops behind its read.  It goes on wherever it is resumed: it does not
look at the record again. -/
theorem halts_start {Q : Launch × Written → System C → Prop}
    (h : W.Starts e ticket fence action) (hgate : s.Serves c g m) (hid : ticket.executionID ≠ "")
    (hsecret : ticket.secret ≠ "")
    (hnow : s.fs.now (path ticket.executionID) = some e.file) (hreadable : Readable e)
    {K : System C → Prop}
    (hQ : ∀ u fs, K u → Rewrote (path ticket.executionID) (e.start action) u.fs fs →
      Q (launchFrom e, ⟨path ticket.executionID, e.start action⟩)
        { System.claim { u with fs } c (path ticket.executionID) .start with
          mu := Function.update u.mu (u.gateOf c) none }) :
    Halts (W.works c) (start ticket fence action) s (fun t => t = s.enterMutex c g) K Q E := by
  refine .chain (ends_lockHeld (.chain (ends_ensure ?_ ?_)))
  · simp [hgate.held, hid, hsecret]
  refine halts_locked hgate.call hgate.free (.chain (ends_now (.chain (ends_checkFence h.accepts
    (.chain (ends_readRecord hnow hreadable (.here rfl fun u hu => ?_)))))))
  exact .chain (ends_startable h (.chain (ends_openBoundFiles h.supplied
    (.chain (ends_replaceRecord (isRecord_path _) fun fs hfs => .chain (ends_claim
      (hQ u fs hu hfs)))))))

/-- `Start` from its beginning to its end. -/
theorem ends_start {Q : Launch × Written → System C → Prop}
    (h : W.Starts e ticket fence action) (hgate : s.Serves c g m) (hid : ticket.executionID ≠ "")
    (hsecret : ticket.secret ≠ "")
    (hnow : s.fs.now (path ticket.executionID) = some e.file) (hreadable : Readable e)
    (hQ : ∀ fs, Rewrote (path ticket.executionID) (e.start action) s.fs fs →
      Q (launchFrom e, ⟨path ticket.executionID, e.start action⟩)
        (s.wrote fs (s.claim c (path ticket.executionID) .start).tokens)) :
    Ends (W.works c) (start ticket fence action) s Q E := by
  refine .chain (ends_lockHeld (.chain (ends_ensure ?_ ?_)))
  · simp [hgate.held, hid, hsecret]
  exact ends_section hgate.call hgate.free (.chain (ends_now (.chain (ends_checkFence h.accepts
    (.chain (ends_readRecord hnow hreadable (.chain (ends_startable h
      (.chain (ends_openBoundFiles h.supplied (.chain (ends_replaceRecord (isRecord_path _)
        fun fs hfs => .chain (ends_claim ⟨fs, _, rfl, hQ fs hfs⟩)))))))))))))

end Start

/-! ## MarkRunning and Complete -/

theorem ends_transition {e : Record} {launch : Launch} {expected next : State} {outcome : String}
    {Q : Written → System C → Prop} (hgate : s.Serves c g m)
    (hnow : s.fs.now (path launch.executionID) = some e.file) (hreadable : Readable e)
    (hdigest : e.planDigest = launch.planDigest) (hsecret : e.ticketSecret = launch.ticketSecret)
    (hstate : e.state = expected)
    (hQ : ∀ fs, Rewrote (path launch.executionID) (e.transition next outcome) s.fs fs →
      Q ⟨path launch.executionID, e.transition next outcome⟩ (s.wrote fs s.tokens)) :
    Ends (W.works c) (transition launch expected next outcome) s Q E := by
  refine .chain (ends_lockHeld (.chain (ends_ensure ?_ ?_)))
  · simp [hgate.held]
  refine ends_section hgate.call hgate.free (.chain (ends_attempt_readRecord hnow hreadable ?_))
  refine .chain (ends_ensure ?_ (.chain (ends_replaceRecord (isRecord_path _)
    fun fs hfs => ⟨fs, s.tokens, rfl, hQ fs hfs⟩)))
  simp [hdigest, hsecret, hstate]

/-! ## PerformHTTPS -/

theorem ends_writeEffectResponse {stableID : String} {raw : Bytes} {Q : Unit → System C → Prop}
    (hQ : ∀ fs, (∀ m, m.isRecord = true → fs.now m = s.fs.now m) → Q () { s with fs }) :
    Ends (W.works c) (writeEffectResponse stableID raw) s Q E := by
  refine ends_replaceThrough (fun fs => ?_) ?_ fun fs' h => hQ fs' fun m hm => h.others m ?_ ?_
  · obtain ⟨k, hk⟩ :=
      fs.exists_free (f := FileName.effectTemp) fun _ _ h => FileName.effectTemp.inj h
    exact ⟨.effectTemp k, ⟨k, rfl⟩, hk⟩
  · rintro ⟨k, hk⟩
    cases hk
  · rintro rfl
    cases hm
  · rintro ⟨k, rfl⟩
    cases hm

/-- `PerformHTTPS` has nothing to object to, and needs no credential. -/
structure World.Performs (W : World C) (e : Record) (call : EffectCall) (effect : EffectBinding)
    (network : NetworkBinding) (digest : String) : Prop where
  running : e.state = .running
  launched : e.planDigest = call.launch.planDigest ∧ e.ticketSecret = call.launch.ticketSecret
  planned : (e.plan.effectBindings.find? fun b => b.planEffectID == call.request.planEffectID) =
    some effect
  bound : boundNetwork e.plan effect = some network
  bare : boundCredential e.plan effect = none
  allows : authorized C call.action "executor.effect" (effectFields e.plan effect)
    (.request call.request) call.fence W.authority W.now = true
  current : C.confirmCurrentWriterFence call.fence W.authority W.now = none
  valid : validHTTPSRequest call.request effect network = true
  absent : e.effects[call.request.planEffectID]? = none
  revalidates : call.hasRevalidate = true
  safe : call.request.headers.any unsafeHeader = false
  fits : W.body.length ≤ network.maxResponseBytes.toNat
  digested : C.digest "tos.executor-effect-response.v1" (.response W.status W.body) = .ok digest

/-- The answer the world gives. -/
def World.answer (W : World C) (digest : String) : HTTPSResponse := ⟨W.status, W.body, digest⟩

/-- The entry of an effect that was just submitted. -/
def submittedEffect (action : AuthorizedAction) : EffectRecord :=
  ⟨action.stableActionID, action.exactRequestDigest, "submitted", "", 0, 1⟩

section Effects

variable {e : Record} {call : EffectCall} {effect : EffectBinding} {network : NetworkBinding}
  {digest : String}

theorem ends_admitEffect {Q : Admission → System C → Prop}
    (h : W.Performs e call effect network digest) (hcall : s.calls c = some (g, m))
    (hfree : s.mu g = none) (hnow : s.fs.now (path call.launch.executionID) = some e.file)
    (hreadable : Readable e)
    (hQ : ∀ fs, Rewrote (path call.launch.executionID)
        (e.submit call.request.planEffectID call.action) s.fs fs →
      Q (.fresh e network none) (s.wrote fs (s.claim c (path call.launch.executionID)
        (.effect call.request.planEffectID)).tokens)) :
    Ends (W.works c) (admitEffect call W.now) s Q E := by
  refine ends_section hcall hfree (.chain (ends_attempt_readRecord hnow hreadable ?_))
  refine .chain (ends_ensure ?_ ?_)
  · simp [h.running, h.launched]
  simp only [h.planned, h.bound]
  refine .chain (ends_authority (.chain (ends_authority (.chain (ends_ensure ?_ ?_)))))
  · simp [h.allows, h.current, h.valid]
  simp only [h.absent, h.bare]
  exact .chain (ends_replaceRecord (isRecord_path _) fun fs hfs => .chain (ends_claim
    ⟨fs, _, rfl, hQ fs hfs⟩))

theorem ends_submitEffect {Q : HTTPSResponse → System C → Prop}
    (h : W.Performs e call effect network digest)
    (hQ : ∀ fs, (∀ m, m.isRecord = true → fs.now m = s.fs.now m) → Q (W.answer digest)
      { s with
        fs
        entered := s.entered ++ [⟨c, ⟨path call.launch.executionID, call.request.planEffectID,
          call.action, e⟩, s.fs.outcomes (path call.launch.executionID)⟩] }) :
    Ends (W.works c) (submitEffect call e network none W.now) s Q E := by
  refine .chain (.pure (.chain (ends_perform true ⟨rfl, rfl⟩
    (fun _ _ h => ⟨h.2, h.1⟩) (.chain (ends_ensure ?_ (.chain ?_))))))
  · simp [h.revalidates]
  refine .chain (ends_perform () ⟨rfl, trivial⟩ (fun _ _ h => ⟨rfl, h.1⟩)
    (.chain (ends_ensure ?_ (.chain ?_))))
  · simp [h.safe]
  refine ends_perform (.ok (W.status, W.body)) ⟨⟨rfl, ?_⟩, rfl⟩ (fun _ _ h => ⟨h.2, h.1.1⟩) ?_
  · rintro status body hanswer
    obtain ⟨rfl, rfl⟩ := Prod.mk.inj (Except.ok.inj hanswer)
    exact W.status_lt
  refine .chain (ends_ofExcept rfl (.chain (ends_ensure ?_ (.pure ?_))))
  · simp [h.fits]
  exact .chain (ends_ofExcept h.digested (.chain (ends_writeEffectResponse
    fun fs hfs => hQ fs hfs)))

theorem ends_terminalizeEffect {prior : EffectRecord} {response : HTTPSResponse}
    {Q : Written → System C → Prop} (hcall : s.calls c = some (g, m)) (hfree : s.mu g = none)
    (hnow : s.fs.now (path call.launch.executionID) = some e.file) (hreadable : Readable e)
    (hprior : e.effects[call.request.planEffectID]? = some prior)
    (hsubmitted : prior.state = "submitted")
    (hstable : prior.stableActionID = call.action.stableActionID)
    (hQ : ∀ fs, Rewrote (path call.launch.executionID)
        (e.terminalize call.request.planEffectID prior response) s.fs fs →
      Q ⟨path call.launch.executionID,
        e.terminalize call.request.planEffectID prior response⟩ (s.wrote fs s.tokens)) :
    Ends (W.works c) (terminalizeEffect call response) s Q E := by
  refine ends_section hcall hfree (.chain (ends_attempt_readRecord hnow hreadable ?_))
  simp only [hprior]
  refine .chain (ends_ensure ?_ (.chain (ends_replaceRecord (isRecord_path _)
    fun fs hfs => ⟨fs, s.tokens, rfl, hQ fs hfs⟩)))
  simp [hsubmitted, hstable]

/-- The record a successful effect leaves. -/
def Record.performed (e : Record) (call : EffectCall) (response : HTTPSResponse) : Record :=
  (e.submit call.request.planEffectID call.action).terminalize call.request.planEffectID
    (submittedEffect call.action) response

theorem ends_performHTTPS {Q : HTTPSResponse × Option Written → System C → Prop}
    (h : W.Performs e call effect network digest) (hgate : s.Serves c g m)
    (hnow : s.fs.now (path call.launch.executionID) = some e.file) (hreadable : Readable e)
    (hsubmitted : Readable (e.submit call.request.planEffectID call.action))
    (hQ : ∀ fs durable, Rewrote (path call.launch.executionID)
        (e.performed call (W.answer digest)) s.fs fs →
      Q (W.answer digest,
          some ⟨path call.launch.executionID, e.performed call (W.answer digest)⟩)
        { s with
          fs
          tokens := (s.claim c (path call.launch.executionID)
            (.effect call.request.planEffectID)).tokens
          entered := s.entered ++ [⟨c, ⟨path call.launch.executionID, call.request.planEffectID,
            call.action, e⟩, durable⟩] }) :
    Ends (W.works c) (performHTTPS call) s Q E := by
  refine .chain (ends_lockHeld (.chain (ends_ensure ?_ (.chain (ends_now
    (.chain (ends_admitEffect h hgate.call hgate.free hnow hreadable fun fs hfs => ?_)))))))
  · simp [hgate.held]
  refine .chain (ends_submitEffect h fun fs' hfs' => .chain ?_)
  have hthere := (hfs' _ (isRecord_path _)).trans hfs.now
  have hprior : (e.submit call.request.planEffectID call.action).effects[
      call.request.planEffectID]? = some (submittedEffect call.action) := by
    rw [Record.submit, getElem?_insert_effect, if_pos rfl]
    rfl
  exact ends_terminalizeEffect hgate.call hgate.free hthere hsubmitted hprior rfl rfl
    fun fs'' hfs'' => hQ fs'' _ ⟨hfs''.now, fun m hm hmn =>
      ((hfs''.others m hm hmn).trans (hfs' m hm)).trans (hfs.others m hm hmn)⟩

end Effects

/-! ## Close -/

theorem ends_closeGate {Q : Unit → System C → Prop} (hcall : s.calls c = some (g, m))
    (hlock : s.lock g = true) (howner : s.owner = some g)
    (hQ : Q () { s with owner := none, lock := Function.update s.lock g false }) :
    Ends (W.works c) closeGate s Q E := by
  have hgate : s.gateOf c = g := by simp [System.gateOf, hcall]
  refine .chain (ends_lockHeld ?_)
  rw [hgate, hlock, if_pos rfl]
  refine .chain (ends_perform true ⟨rfl, rfl⟩ (fun _ _ h => ⟨h.2, h.1⟩)
    (.chain (ends_perform () ⟨rfl, trivial⟩ (fun _ _ h => ⟨rfl, h.1⟩) (ends_succeed ?_))))
  rw [hgate, if_pos howner]
  simp only [System.gateOf, hcall, Option.elim_some]
  exact hQ

/-! ## Outcome evidence -/

/-- The library takes whatever evidence it is given. -/
structure Commerce.AcceptsOutcomes (C : Commerce) : Prop where
  marshal : ∀ payload, ∃ raw, C.marshal payload = .ok raw
  digest : ∀ domain payload, ∃ digest, C.digest domain payload = .ok digest
  manifest : ∀ manifest, C.validateOutcomeEvidenceManifestV1 manifest = none
  observation : ∀ assertion, C.validateGateExecutionObservationV1 assertion = none
  event : ∀ id payload manifest, ∃ event, C.buildOperationOutcomeEventV1 id payload manifest =
    .ok event
  bundle : ∀ event bundle, C.verifyOperationOutcomeArtifactBundleV1 event bundle = none

theorem ends_exportOutcomeEvidence (hC : C.AcceptsOutcomes) {request : EvidenceRequest}
    {observedAt : Time} {e : Record} {Q : Exported → System C → Prop}
    (hobserved : request.observedAt = some observedAt) (hnamed : request.executionID ≠ "")
    (hgate : s.Serves c g m)
    (hnow : s.fs.now (path request.executionID) = some e.file) (hreadable : Readable e)
    (hplan : e.plan.executionID = request.executionID)
    (hQ : ∀ exported : Exported,
      exported.evidence = outcomeEvidence request.executionID observedAt e → Q exported s) :
    Ends (W.works c) (exportOutcomeEvidence request) s Q E := by
  have hrevision : e.stateRevision ≠ 0 := by
    have hfields := hreadable.fields
    simp only [recordFieldsOk, Bool.and_eq_true, bne_iff_ne] at hfields
    exact hfields.1.1.1.1.2
  obtain ⟨raw, hraw⟩ := hC.marshal (.evidence (outcomeEvidence request.executionID observedAt e))
  obtain ⟨digest, hdigest⟩ := hC.digest "tos.ai.execution-gate-evidence.v1"
    (.evidence (outcomeEvidence request.executionID observedAt e))
  refine .chain (ends_lockHeld ?_)
  simp only [hobserved]
  refine .chain (ends_ensure ?_ (ends_section hgate.call hgate.free (.chain (ends_readRecord hnow
    hreadable (.chain (ends_ensure ?_ (.chain (ends_ofExcept hraw (.chain
      (ends_ofExcept hdigest (.chain (ends_nilError (hC.manifest _) ?_))))))))))))
  · simp [hgate.held, hnamed]
  · simp [hrevision, hplan]
  · exact ⟨s.fs, s.tokens, rfl, hQ _ rfl⟩

/-- The request of `BuildOperationOutcomeArtifacts` is complete. -/
structure Complete (C : Commerce) (request : ArtifactRequest) (observedAt : Time) : Prop where
  policy : validDigest request.gatePolicyDigest = true
  two : request.authorityProofs.length = 2
  proofs : ∃ proofs refs authorityTime qualification refs',
    C.sortOutcomeAuthorityProofMaterialsV1 request.authorityProofs = .ok proofs ∧
    proofRefs C proofs ("", "") = .ok (refs, authorityTime, qualification) ∧
    C.sortOutcomeAuthorityProofRefsV1 refs = .ok refs' ∧ authorityTime ≠ "" ∧ qualification ≠ ""
  observed : request.observedAt = some observedAt
  named : request.executionID ≠ ""

/-- `BuildOperationOutcomeArtifacts` stops between its two sections.  It is resumed
with another record in place. -/
theorem halts_buildOperationOutcomeArtifacts (hC : C.AcceptsOutcomes) {request : ArtifactRequest}
    {observedAt : Time} {e e' : Record} {Q : Artifacts C → System C → Prop}
    (hrequest : Complete C request observedAt)
    (hgate : s.Serves c g m)
    (hnow : s.fs.now (path request.executionID) = some e.file) (hreadable : Readable e)
    (hplan : e.plan.executionID = request.executionID) (hreadable' : Readable e')
    (hQ : ∀ (a : Artifacts C) u d₁ d₂ d₃ d₄,
      a.evidence = outcomeEvidence request.executionID observedAt e →
      a.assertion = gateObservation request e' d₁ d₂ d₃ d₄ observedAt → Q a u) :
    Halts (W.works c) (buildOperationOutcomeArtifacts request) s (fun t => t = s)
      (fun u => u.calls c = some (g, m) ∧ u.mu g = none ∧
        u.fs.now (path request.executionID) = some e'.file) Q E := by
  obtain ⟨proofs, refs, authorityTime, qualification, refs', hproofs, hrefs, hsorted, htime,
    hqualified⟩ := hrequest.proofs
  refine .chain (ends_ensure ?_ (.chain (ends_ofExcept hproofs (.chain
    (ends_ofExcept hrefs ?_)))))
  · simp [hrequest.policy, hrequest.two]
  simp only [hsorted]
  refine .chain (ends_ensure ?_ (.chain (ends_exportOutcomeEvidence hC hrequest.observed
    hrequest.named hgate hnow hreadable hplan fun exported hevidence =>
      .here rfl fun u hu => ?_)))
  · simp [htime, hqualified]
  obtain ⟨d₁, hd₁⟩ := hC.digest "tos.ai.execution-resource-set.v1"
    (.resources e'.plan.files e'.plan.networkBindings)
  obtain ⟨d₂, hd₂⟩ := hC.digest "tos.ai.execution-credential-set.v1"
    (.credentials e'.plan.credentialBindings)
  obtain ⟨d₃, hd₃⟩ := hC.digest "tos.ai.execution-effect-set.v1" (.effects e'.plan.effectBindings)
  obtain ⟨payload, hpayload⟩ := hC.marshal (.observation (gateObservation request e' d₁ d₂ d₃
    exported.descriptor.evidenceItem.objectDigest (request.observedAt.getD 0)))
  obtain ⟨event, hevent⟩ := hC.event request.executionID payload
    ⟨1, "gate_execution_assertion", refs', [exported.descriptor.evidenceItem]⟩
  obtain ⟨hcall', hfree', hnow'⟩ := hu
  refine .chain (ends_section hcall' hfree' (ends_readRecord hnow' hreadable'
    ⟨u.fs, u.tokens, rfl, .chain (ends_ofExcept hd₁ (.chain (ends_ofExcept hd₂
      (.chain (ends_ofExcept hd₃ ?_)))))⟩))
  simp only [hpayload]
  refine .chain (ends_ensure ?_ (.chain (ends_ofExcept hevent (.chain (ends_nilError
    (hC.bundle _ _) (.pure (hQ _ _ d₁ d₂ d₃
      exported.descriptor.evidenceItem.objectDigest hevidence ?_)))))))
  · rw [hC.observation]
    rfl
  · rw [hrequest.observed]
    rfl

end Methods

end TosAi.CommerceGate
