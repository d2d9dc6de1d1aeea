/-
  Start deadlines.

  A ticket's deadline is computed in whole seconds of 64 bits from the clock its `Prepare`
  read.  From 1970 on it is at most five minutes past that reading; before, the conversion
  to an unsigned integer wraps and only the expiries of fence and action bound it.
-/
import TosAi.CommerceGate.Authorisation

set_option autoImplicit false

namespace TosAi.CommerceGate

open Foundation

variable {C : Commerce} {W : World C} {c g : Nat} {m : Method} {s : System C}

/-! ## Seconds and nanoseconds -/

/-- The moment a deadline stands for is never later than its seconds say. -/
theorem timeUnix_toInt64_le (d : UInt64) : timeUnix (toInt64 d) ≤ d.toNat * 1000000000 := by
  have hd := d.toNat_lt
  show (((((d.toNat : Int) + 2 ^ 63) % 2 ^ 64 - 2 ^ 63 + 62135596800 + 2 ^ 63) % 2 ^ 64 - 2 ^ 63 -
    62135596800) * 1000000000 : Int) ≤ d.toNat * 1000000000
  omega

theorem toNat_toUInt64_le {i : Int} (h : 0 ≤ i) : ((toUInt64 i).toNat : Int) ≤ i := by
  simp only [toUInt64, UInt64.toNat_ofNat']
  omega

theorem unix_mul_le (t : Time) : Time.unix t * 1000000000 ≤ t := by
  unfold Time.unix
  omega

section Deadline

variable (now : Time) (lifetime : Int) (fence : WriterFence) (action : AuthorizedAction)

theorem ticketDeadline_le_fence :
    ticketDeadline now lifetime fence action ≤ fence.body.expiresAtUnix := by
  simp only [ticketDeadline, UInt64.le_iff_toNat_le, UInt64.lt_iff_toNat_lt]
  split <;> split <;> omega

theorem ticketDeadline_le_action :
    ticketDeadline now lifetime fence action ≤ action.expiresAtUnix := by
  simp only [ticketDeadline, UInt64.le_iff_toNat_le, UInt64.lt_iff_toNat_lt]
  split <;> split <;> omega

theorem ticketDeadline_le_unix :
    ticketDeadline now lifetime fence action ≤ toUInt64 (Time.unix (now + lifetime)) := by
  simp only [ticketDeadline, UInt64.le_iff_toNat_le, UInt64.lt_iff_toNat_lt]
  split <;> split <;> omega

variable {now lifetime}

/-- From 1970 on the lifetime bounds the deadline. -/
theorem ticketDeadline_le_lifetime (hnow : 0 ≤ now) (hlifetime : 0 ≤ lifetime) :
    ((ticketDeadline now lifetime fence action).toNat : Int) * 1000000000 ≤ now + lifetime := by
  have hunix : 0 ≤ Time.unix (now + lifetime) :=
    Int.ediv_nonneg (Int.add_nonneg hnow hlifetime) (by decide)
  have hdeadline := UInt64.le_iff_toNat_le.mp (ticketDeadline_le_unix now lifetime fence action)
  have hseconds := toNat_toUInt64_le hunix
  have hmoment := unix_mul_le (now + lifetime)
  omega

end Deadline

/-! ## What a launch rests on -/

/-- The authorisation of `launch`, returned by a `Start` that read the clock at `t`: the
`Prepare` that had issued the record of its execution by then, with the deadline of the
ticket, and the fence `fence`, confirmed current at `t`. -/
structure Authorised (h : History C) (c : Nat) (launch : Launch) (t : Time) (fence : WriterFence)
    (deadline : UInt64) (x : Preparation) : Prop where
  started : ∃ ticket action, ReadClock h c (.start ticket fence action) t ∧
    ticket.planDigest = launch.planDigest ∧ ticket.startNotAfterUnix = deadline
  confirmed : ∃ authority, Did h c .authority authority ∧
    C.confirmCurrentWriterFence fence authority t = none
  prepared : ∃ past event later e, h = past ++ event :: later ∧ event.call = c ∧
    x.Issued past e ∧ launch = launchFrom e ∧ deadline = e.startNotAfterUnix
  generation : x.fence.body.writerGeneration = fence.body.writerGeneration
  inTime : t < deadline.toNat * 1000000000
  lifetime : (deadline.toNat : Int) * 1000000000 ≤ x.time + maxStartTicketLifetime
  fenceExpiry : deadline ≤ x.fence.body.expiresAtUnix
  actionExpiry : deadline ≤ x.action.expiresAtUnix
  files : ∃ events, List.Forall₂ (OpenedInput c) launch.files events ∧ events.Sublist h

/-- The generation of a prepared plan is that of its fence. -/
theorem Prepared.writerGeneration {plan prepared : Plan} {fence : WriterFence} {digest : String}
    (h : Prepared C plan fence prepared digest) :
    prepared.writerGeneration = fence.body.writerGeneration := by
  obtain ⟨canonical, executionID, -, -, rfl⟩ := h.identity
  rfl

variable {h : History C}

theorem Launched.authorised {ticket : Ticket} {fence : WriterFence} {action : AuthorizedAction}
    {t : Time} {e : Record} {l : Launch} (hl : Launched h c ticket fence action t e l)
    (hclock : ∀ d plan fence lifetime action p,
      ReadClock h d (.prepare plan fence lifetime action) p → 0 ≤ p) :
    ∃ x, Authorised h c l t fence e.startNotAfterUnix x := by
  obtain ⟨past, event, later, hsplit, hby, x, hx⟩ := hl.found
  obtain rfl := hl.launch
  have hpast : past <+: h := hsplit ▸ List.prefix_append _ _
  have hp : 0 ≤ x.time := hclock _ _ _ _ _ _ (hx.clock.mono hpast)
  have hdeadline := ticketDeadline_le_lifetime x.fence x.action hp
    (show 0 ≤ x.lifetime by have := hx.lifetime.1; omega)
  have hmoment := timeUnix_toInt64_le e.startNotAfterUnix
  refine ⟨x,
    { started := ⟨ticket, action, hl.clock, hl.digest.symm, hl.deadline.symm⟩
      confirmed := hl.current
      prepared := ⟨past, event, later, e, hsplit, hby, hx, rfl, rfl⟩
      generation := (preparePlan_eq_ok hx.plan).writerGeneration.symm.trans hl.generation
      inTime := Int.lt_of_lt_of_le hl.inTime hmoment
      lifetime := ?_
      fenceExpiry := hx.deadline ▸ ticketDeadline_le_fence ..
      actionExpiry := hx.deadline ▸ ticketDeadline_le_action ..
      files := hl.files }⟩
  have hbound := hx.lifetime.2
  rw [hx.deadline]
  omega

/-- A ticket is that of the record as it was issued; a `Prepare` that did not issue the
record has changed nothing. -/
theorem Ticketed.issuer {plan : Plan} {fence : WriterFence} {lifetime : Int}
    {action : AuthorizedAction} {ticket : Ticket}
    (hticket : Ticketed h c plan fence lifetime action ticket) :
    ∃ (x : Preparation) (e : Record), x.Issued h e ∧ ticket = ticketFrom e ∧
      (x.call = c ∨ Passive c h) := by
  obtain ⟨e, rfl, ⟨hfound, hpassive, -⟩ | ⟨p, hissued⟩⟩ := hticket
  · obtain ⟨x, hx⟩ := hfound.issued
    exact ⟨x, e, hx, rfl, .inr hpassive⟩
  · exact ⟨_, e, hissued, rfl, .inl rfl⟩

/-- **Start is authorised.**  In every run in which no `Prepare` read a clock before 1970:
every launch goes back to an earlier `Prepare`, the one that made the record of its
execution, for the same bound plan and the same writer generation, within the deadline
that `Prepare` set, with the inputs opened in the order of the plan; a ticket, from
whichever `Prepare`, has the deadline set by the one that made the record, and the others
have changed nothing; between two losses of power no two calls make the record of one
execution; and a `Start` that fails has changed nothing, unless it had come to replace the
record. -/
theorem start_authorised {cfg : Config (Op C) Res (Ran C) (Outcome C)}
    (hrun : (gateMachine C).recorded.Run (fun _ => True) ((gateInit C).recorded []) cfg)
    (hclock : ∀ d plan fence lifetime action p,
      ReadClock cfg.shared.history d (.prepare plan fence lifetime action) p → 0 ≤ p) :
    (∀ c l w, (c, .ok (.launch l w)) ∈ cfg.shared.state.returned →
      ∃ t fence deadline x, Authorised cfg.shared.history c l t fence deadline x) ∧
    (∀ c ticket w, (c, .ok (.ticket ticket w)) ∈ cfg.shared.state.returned →
      ∃ (x : Preparation) (e : Record), x.Issued cfg.shared.history e ∧ ticket = ticketFrom e ∧
        (x.call = c ∨ Passive c cfg.shared.history)) ∧
    (∀ c d executionID epoch, Creates cfg.shared.history c (path executionID) epoch →
      Creates cfg.shared.history d (path executionID) epoch → c = d) ∧
    ∀ c err event g ticket fence action, (c, .error err) ∈ cfg.shared.state.returned →
      event ∈ cfg.shared.history → event.call = c →
      event.before.calls c = some (g, .start ticket fence action) →
      Passive c cfg.shared.history ∨ CameTo FileName.IsGateTemp c cfg.shared.history := by
  have hgrounded := grounded_of_run hrun
  refine ⟨fun c l w hmem => ?_, fun c ticket w hmem => ?_,
    fun c d executionID epoch => hgrounded.made.once c d _ epoch (isRecord_path executionID),
    fun c err event g ticket fence action hmem hevent hby hcall => ?_⟩
  · obtain ⟨-, -, _, _, -, hjust⟩ := hgrounded.returned c _ hmem
    obtain ⟨ticket, fence, action, t, e, -, hl, -⟩ := hjust.launch l w rfl
    obtain ⟨x, hx⟩ := hl.authorised hclock
    exact ⟨t, fence, e.startNotAfterUnix, x, hx⟩
  · obtain ⟨-, -, _, _, -, hjust⟩ := hgrounded.returned c _ hmem
    obtain ⟨plan, fence, lifetime, action, -, hticket⟩ := hjust.ticket ticket w rfl
    exact hticket.issuer
  · obtain ⟨-, -, g', m, hmethod, hjust⟩ := hgrounded.returned c _ hmem
    have hsame := (hmethod event hevent hby).symm.trans hcall
    obtain ⟨-, rfl⟩ := Prod.mk.inj (Option.some.inj hsame)
    exact hjust.error ticket fence action err rfl rfl

/-! ## Runs whose clock is known -/

/-- Every answer of the history is one of the world. -/
def World.Answered (W : World C) (h : History C) : Prop :=
  ∀ event ∈ h, W.allows event.op event.before event.answer

theorem World.Answered.readClock {t : Time} (hanswered : W.Answered h) (hread : ReadClock h c m t) :
    t = W.now := by
  obtain ⟨before, after, g, hmem, -⟩ := hread
  exact hanswered _ hmem

theorem World.Answered.append {h' : History C} (hh : W.Answered h) (hh' : W.Answered h') :
    W.Answered (h ++ h') := by
  intro event hevent
  rcases List.mem_append.mp hevent with hold | hnew
  · exact hh event hold
  · exact hh' event hnew

/-- A call from its beginning to its end, recorded. -/
theorem recorded_call (pool : Nat → Option (Prog (Op C) Res (Outcome C))) (hanswered : W.Answered h)
    (hpool : pool s.next = none) (hgate : MayBegin s g m) {Q : Result C → System C → Prop}
    (hcall : Ends (W.works s.next) (body C m) (s.begin g m) Q fun _ _ => False) :
    ∃ r t h', Q r t ∧ W.Answered h' ∧ (gateMachine C).recorded.Run (fun _ => True) ⟨⟨s, h⟩, pool⟩
      ⟨⟨System.finish s.next (.ok r) t, h'⟩, pool⟩ := by
  obtain ⟨out, t, hsteps, hout⟩ := Prog.Always.steps hcall
  obtain ⟨new, hsteps, hnew⟩ := hsteps.recorded s.next h
  cases out with
  | error err => exact hout.elim
  | ok r =>
    have hstart : (gateMachine C).recorded.Step ⟨⟨s, h⟩, pool⟩
        ⟨⟨s.begin g m, h⟩, Function.update pool s.next (some (program C m))⟩ :=
      .start hpool ⟨⟨rfl, g, m, rfl, hgate, rfl⟩, rfl⟩
    have hrest := Machine.Run.steps (M := (gateMachine C).recorded) (A := fun _ => True)
      (c := s.next) (fun _ _ _ _ h => ⟨h.1.1, h.2⟩) (fun _ _ _ _ _ _ => trivial) hsteps
      (Function.update_self s.next (some (program C m)) pool) trivial
    have hfinish : (gateMachine C).recorded.Step
        ⟨⟨t, h ++ new⟩, Function.update pool s.next (some (.ret (.ok r)))⟩
        ⟨⟨System.finish s.next (.ok r) t, h ++ new⟩,
          Function.update (Function.update pool s.next (some (.ret (.ok r)))) s.next none⟩ :=
      .finish (M := (gateMachine C).recorded) (Function.update_self _ _ _)
    rw [Function.update_idem] at hrest
    rw [Function.update_idem, ← hpool, Function.update_eq_self] at hfinish
    exact ⟨r, t, h ++ new, hout, hanswered.append fun event hevent => (hnew event hevent).2,
      .head ⟨hstart, trivial⟩ (hrest.tail ⟨hfinish, trivial⟩)⟩

/-- The Gate with number 0 is open and idle, and the outside has been the world. -/
structure World.Rests (W : World C) (r : Ran C) : Prop where
  run : (gateMachine C).recorded.Run (fun _ => True) ((gateInit C).recorded []) ⟨r, fun _ => none⟩
  answered : W.Answered r.history
  published : r.state.published 0 = true
  lock : r.state.lock 0 = true
  free : r.state.mu 0 = none

/-- A new directory, opened. -/
theorem rests_opened (W : World C) :
    ∃ r, W.Rests r ∧ ∀ n, n.isRecord = true → r.state.fs.now n = none := by
  let begun : System C := System.init.begin 0 (.openGate "/" true)
  obtain ⟨_, _, h, ⟨rfl, fs, rfl, hreopened⟩, hanswered, hrun⟩ :=
    recorded_call (W := W) (s := System.init) (g := 0) (m := .openGate "/" true) (h := [])
      (fun _ => none) (fun _ h => nomatch h) rfl rfl
      (Q := fun r t => r = .opened ∧ ∃ fs, t = begun.acquired 0 fs ∧ Reopened begun.fs fs)
      (.chain (ends_openGate rfl rfl (by decide) (fun _ _ h => nomatch h)
        fun fs hfs => ⟨rfl, fs, rfl, hfs⟩))
  have hmarked : Function.update (fun _ : Nat => false) 0 true 0 = true := Function.update_self ..
  exact ⟨_, ⟨hrun, hanswered, hmarked, hmarked, rfl⟩,
    fun n hn => hreopened.others n hn fun _ _ => rfl⟩

section Calls

variable {r : Ran C} {plan prepared : Plan} {fence : WriterFence} {lifetime : Int}
  {action : AuthorizedAction} {digest : String} {e : Record}

theorem World.Rests.prepare (hr : W.Rests r)
    (hprepares : W.Prepares plan fence lifetime action prepared digest)
    (habsent : r.state.fs.now (path prepared.executionID) = none) :
    ∃ r', W.Rests r' ∧ r'.state.fs.now (path prepared.executionID) =
      some (W.initial prepared digest lifetime fence action).file := by
  obtain ⟨s, h⟩ := r
  let begun := s.begin 0 (.prepare plan fence lifetime action)
  obtain ⟨_, _, h', ⟨rfl, fs, rfl, hrewrote⟩, hanswered, hrun⟩ :=
    recorded_call (g := 0) (m := .prepare plan fence lifetime action)
      (fun _ => none) hr.answered rfl hr.published
      (Q := fun r t => r = .ticket (ticketFrom (W.initial prepared digest lifetime fence action))
          (some ⟨path prepared.executionID, W.initial prepared digest lifetime fence action⟩) ∧
        ∃ fs, t = begun.wrote fs s.tokens ∧ Rewrote (path prepared.executionID)
          (W.initial prepared digest lifetime fence action) s.fs fs)
      (.chain (ends_prepare hprepares ⟨begin_calls _ _ _, hr.lock, hr.free⟩ habsent
        fun fs hfs => ⟨rfl, fs, rfl, hfs⟩))
  exact ⟨_, ⟨hr.run.trans hrun, hanswered, hr.published, hr.lock, hr.free⟩, hrewrote.now⟩

theorem World.Rests.start (hr : W.Rests r) (hstarts : W.Starts e (ticketFrom e) fence action)
    (hid : e.plan.executionID ≠ "") (hsecret : e.ticketSecret ≠ "") (hreadable : Readable e)
    (hnow : r.state.fs.now (path e.plan.executionID) = some e.file) :
    ∃ cfg : Config (Op C) Res (Ran C) (Outcome C),
      (gateMachine C).recorded.Run (fun _ => True) ((gateInit C).recorded []) cfg ∧
      W.Answered cfg.shared.history ∧
      (r.state.next, .ok (.launch (launchFrom e) ⟨path e.plan.executionID, e.start action⟩)) ∈
        cfg.shared.state.returned := by
  obtain ⟨s, h⟩ := r
  obtain ⟨_, _, h', rfl, hanswered, hrun⟩ :=
    recorded_call (g := 0) (m := .start (ticketFrom e) fence action) (fun _ => none) hr.answered rfl
      hr.published
      (Q := fun r _ => r = .launch (launchFrom e) ⟨path e.plan.executionID, e.start action⟩)
      (.chain (ends_start hstarts ⟨begin_calls _ _ _, hr.lock, hr.free⟩ hid hsecret hnow hreadable
        fun _ _ => rfl))
  exact ⟨_, hr.run.trans hrun, hanswered, List.mem_append_right _ (List.mem_singleton_self _)⟩

end Calls

/-- The library of the rehearsal, which also rejects what has expired. -/
def punctual : Commerce :=
  { tolerant with
    verifyWriterFence := fun fence _ now _ =>
      if now < fence.body.expiresAtUnix.toNat * 1000000000 then none else some .io
    verifyAuthorizedAction := fun action fields request fence authority now =>
      if now < action.expiresAtUnix.toNat * 1000000000 then
        tolerant.verifyAuthorizedAction action fields request fence authority now
      else some .io }

theorem statusOK_lt : 200 < 1000 := by decide

/-- A clock that stands still at the given time. -/
def standing (now : Time) : World punctual where
  now
  authority := ()
  secret := "s"
  input := fun binding => ⟨some binding.size, some binding.digest, true⟩
  credential := []
  status := 200
  body := []
  status_lt := statusOK_lt

theorem preparePlan_punctual :
    preparePlan punctual samplePlan sampleFence = .ok (samplePrepared, zeroDigest) :=
  preparePlan_samplePlan

theorem authorized_punctual {now : Time} (hnow : now < 100 * 1000000000) (kind : String)
    (fields : List (String × SemanticValue)) (payload : Payload) (fence : WriterFence) :
    authorized punctual (sampleAction kind) kind fields payload fence () now = true := by
  have hexpiry : now < (sampleAction kind).expiresAtUnix.toNat * 1000000000 := hnow
  have htolerant := authorized_tolerant kind fields payload fence () now
  simp only [authorized, punctual, hexpiry, if_pos] at htolerant ⊢
  exact htolerant

/-- The record of the sample plan with the given deadline. -/
def dueRecord (deadline : UInt64) : Record :=
  initialRecord samplePrepared zeroDigest "s" deadline (sampleAction "execution.prepare")

/-- The sample execution is prepared and started under a clock that stands still, at any
time before fence and action expire. -/
theorem exists_sample_start (now : Time) (deadline : UInt64)
    (hdeadline : ticketDeadline now 60000000000 sampleFence (sampleAction "execution.prepare") =
      deadline)
    (hnow : now < 100 * 1000000000) (htime : now < timeUnix (toInt64 deadline))
    (hreadable : Readable (dueRecord deadline)) :
    ∃ cfg : Config (Op punctual) Res (Ran punctual) (Outcome punctual), ∃ c,
      (gateMachine punctual).recorded.Run (fun _ => True) ((gateInit punctual).recorded []) cfg ∧
      (standing now).Answered cfg.shared.history ∧
      (c, .ok (.launch (launchFrom (dueRecord deadline)) ⟨sampleName,
        (dueRecord deadline).start (sampleAction "execution.start")⟩)) ∈
        cfg.shared.state.returned := by
  have haccepts : ∀ kind, (standing now).Accepts sampleFence kind :=
    fun _ => ⟨if_pos hnow, rfl⟩
  have hprepares : (standing now).Prepares samplePlan sampleFence 60000000000
      (sampleAction "execution.prepare") samplePrepared zeroDigest :=
    ⟨by decide, haccepts _, preparePlan_punctual, authorized_punctual hnow ..⟩
  have hinitial : (standing now).initial samplePrepared zeroDigest 60000000000 sampleFence
      (sampleAction "execution.prepare") = dueRecord deadline := by
    simp only [World.initial, standing, hdeadline]
    rfl
  have hstarts : (standing now).Starts (dueRecord deadline) (ticketFrom (dueRecord deadline))
      sampleFence (sampleAction "execution.start") :=
    ⟨rfl, rfl, haccepts _, authorized_punctual hnow .., rfl, htime, fun _ _ => rfl⟩
  have hsecret : (dueRecord deadline).ticketSecret ≠ "" := (by decide : "s" ≠ "")
  have hpath : path samplePrepared.executionID = sampleName := path_zeroDigest
  obtain ⟨r₁, hr₁, habsent⟩ := rests_opened (standing now)
  obtain ⟨r₂, hr₂, hfile⟩ := hr₁.prepare hprepares (habsent _ (isRecord_path _))
  rw [hinitial] at hfile
  obtain ⟨cfg, hrun, hanswered, hmem⟩ := hr₂.start hstarts
    (validDigest_ne_empty validDigest_zeroDigest) hsecret hreadable hfile
  rw [← hpath]
  exact ⟨cfg, r₂.state.next, hrun, hanswered, hmem⟩

theorem readable_dueRecord {deadline : UInt64} (hdeadline : deadline = 60 ∨ deadline = 100) :
    Readable (dueRecord deadline) := by
  rcases hdeadline with rfl | rfl
  · exact readable_preparedRecord
  · exact ⟨Record.marshal_length_le (by decide +kernel), by decide +kernel,
      readable_preparedRecord.effects⟩

/-- In 1970 the sample execution is started within five minutes of its preparation. -/
theorem start_authorised_sample :
    ∃ cfg : Config (Op punctual) Res (Ran punctual) (Outcome punctual), ∃ c l w,
      (gateMachine punctual).recorded.Run (fun _ => True) ((gateInit punctual).recorded []) cfg ∧
      (c, .ok (.launch l w)) ∈ cfg.shared.state.returned ∧
      ∃ t fence deadline x, Authorised cfg.shared.history c l t fence deadline x := by
  obtain ⟨cfg, c, hrun, hanswered, hmem⟩ := exists_sample_start 0 60
    (by decide +kernel) (by decide) (by decide +kernel) (readable_dueRecord (.inl rfl))
  have hclock : ∀ d plan fence lifetime action p,
      ReadClock cfg.shared.history d (.prepare plan fence lifetime action) p → 0 ≤ p := by
    intro d plan fence lifetime action p hread
    rw [hanswered.readClock hread]
    exact Int.le_refl 0
  exact ⟨cfg, c, _, _, hrun, hmem, (start_authorised hrun hclock).1 c _ _ hmem⟩

/-- **A deadline far beyond the lifetime.**  The clock stands at 400 seconds before 1970, the
ticket is asked for 60 seconds, and the launch is returned under a deadline 500 seconds away,
though fence and action are rejected once expired. -/
theorem start_deadline_wraps :
    ∃ cfg : Config (Op punctual) Res (Ran punctual) (Outcome punctual), ∃ c l w,
      (gateMachine punctual).recorded.Run (fun _ => True) ((gateInit punctual).recorded []) cfg ∧
      (c, .ok (.launch l w)) ∈ cfg.shared.state.returned ∧
      ∀ d m p, ReadClock cfg.shared.history d m p →
        p + maxStartTicketLifetime < w.entry.startNotAfterUnix.toNat * 1000000000 := by
  obtain ⟨cfg, c, hrun, hanswered, hmem⟩ := exists_sample_start (-400000000000) 100
    (by decide +kernel) (by decide) (by decide +kernel)
    (readable_dueRecord (.inr rfl))
  refine ⟨cfg, c, _, _, hrun, hmem, fun d m p hread => ?_⟩
  rw [hanswered.readClock hread]
  show (-400000000000 : Int) + maxStartTicketLifetime < (100 : UInt64).toNat * 1000000000
  decide

end TosAi.CommerceGate
