/-
  What tickets and launches rest on.

  `Prepare` and `Start` are followed through with everything they learn on the way, and
  the discipline of the recorded Gate is shown to be sound: so in every run whatsoever a
  `Launch` goes back, through the record its `Start` found on disk, to a `Prepare` of the
  history, and a `Start` that fails before it replaces the record has changed nothing.

  THE DEADLINE IS THE WEAK SPOT.  It is computed as an unsigned number of seconds.  A
  clock before 1970 makes that number huge, and what is left of the deadline is the expiry
  of fence and action.
-/
import TosAi.CommerceGate.Grounds

set_option autoImplicit false

namespace TosAi.CommerceGate

open Foundation Foundation.Discipline

variable {C : Commerce} {α : Type} {c g : Nat} {m : Method}

section Rules

variable {P : Ran C → Prop} {Q : α → Ran C → Prop} {E : Err → Ran C → Prop}

/-- A fact that does not depend on the state. -/
theorem Does.fact {p : Prop} {body : Gated C α} (h : p → Does c g m P body Q E) :
    Does c g m (fun r => p ∧ P r) body Q E :=
  fun r hok hr => h hr.2.1 r hok ⟨hr.1, hr.2.2⟩

/-- The clock. -/
theorem does_now (hP : Lasting c P) :
    Does c g m P (perform .now) (fun t r => P r ∧ ReadClock r.history c m t) E := by
  refine .quiet rfl hP ?_
  intro r t r' _ hat hundisturbed happly
  refine ⟨hP r r' hundisturbed hat.2, r.state, r'.state, g, ?_, hat.1⟩
  rw [happly.2]
  exact List.mem_append_right _ (List.mem_singleton_self _)

/-- The fence was found valid and current. -/
def FenceChecked (h : History C) (c : Nat) (fence : WriterFence) (t : Time) (kind : String) :
    Prop :=
  (∃ authority, Did h c .authority authority ∧ C.verifyWriterFence fence authority t kind = none) ∧
    ∃ authority, Did h c .authority authority ∧ C.confirmCurrentWriterFence fence authority t = none

theorem rising_fenceChecked (c : Nat) (fence : WriterFence) (t : Time) (kind : String) :
    Rising (C := C) fun h => FenceChecked h c fence t kind :=
  fun _ _ hsub ⟨⟨av, hav, hv⟩, ac, hac, hc⟩ => ⟨⟨av, hav.mono hsub, hv⟩, ac, hac.mono hsub, hc⟩

theorem rising_did (c : Nat) (o : Op C) (answer : Res o) :
    Rising (C := C) fun h => Did h c o answer := fun _ _ => Did.mono

theorem does_checkFence {fence : WriterFence} {now : Time} {kind : String} (hP : Lasting c P)
    (hE : ∀ e r, P r → E e r) :
    Does c g m P (checkFence fence now kind)
      (fun _ r => P r ∧ FenceChecked r.history c fence now kind) E := by
  have hfirst (a : C.Authority) := hP.and (rising_did c (.authority : Op C) a).lasting
  refine .bind (.ask rfl hP) fun av => ?_
  refine .bind (.nilError fun e r hr => hE e r hr.1) fun _ => .fact fun hverify => ?_
  refine .bind (.ask rfl (hfirst av)) fun ac => ?_
  refine (Does.nilError fun e r hr => hE e r hr.1.1).conseq (fun _ h => h) ?_
    fun _ _ h => h
  rintro u r ⟨hconfirm, ⟨hr, hav⟩, hac⟩
  exact ⟨hr, ⟨av, hav, hverify⟩, ac, hac, hconfirm⟩

/-- Fail unless a file operation succeeded, and remember that it did. -/
theorem Does.succeeded {ok : Bool} (hE : ∀ r, P r → E .io r) :
    Does c g m P (CommerceGate.succeed ok) (fun _ r => ok = true ∧ P r) E := by
  unfold CommerceGate.succeed
  split
  · exact .pure fun r hr => ⟨‹_›, hr⟩
  · exact .throw hE

end Rules

/-! ## Prepare -/

/-- The checks of a `Prepare` up to the look at the directory. -/
structure Preparation.Checked (x : Preparation) (prepared : Plan) (h : History C) : Prop where
  clock : ReadClock h x.call (.prepare x.plan x.fence x.lifetime x.action) x.time
  fence : FenceChecked h x.call x.fence x.time "execution.prepare"
  authorized : ∃ authority, Did h x.call .authority authority ∧
    authorized C x.action "execution.prepare" (prepareFields prepared) (.plan prepared) x.fence
      authority x.time = true

theorem rising_checked (x : Preparation) (prepared : Plan) :
    Rising (C := C) (x.Checked prepared) := by
  rintro h h' hsub ⟨hclock, hfence, authority, hdid, hauthorized⟩
  exact ⟨hclock.mono hsub, rising_fenceChecked _ _ _ _ h h' hsub hfence, authority,
    hdid.mono hsub, hauthorized⟩

/-- What a checked `Prepare` writes is issued by it. -/
theorem Preparation.Checked.issued {x : Preparation} {prepared : Plan} {digest secret : String}
    {h : History C} (hx : x.Checked prepared h)
    (hlifetime : 1000000000 ≤ x.lifetime ∧ x.lifetime ≤ maxStartTicketLifetime)
    (hplan : preparePlan C x.plan x.fence = .ok (prepared, digest))
    (hmade : MadeFile x.call (path prepared.executionID) h) :
    x.Issued h (initialRecord prepared digest secret
      (ticketDeadline x.time x.lifetime x.fence x.action) x.action) where
  clock := hx.clock
  lifetime := hlifetime
  verified := hx.fence.1
  current := hx.fence.2
  plan := hplan
  authorized := hx.authorized
  deadline := rfl
  action := ⟨rfl, rfl⟩
  created := hmade

/-- Nothing has been written yet. -/
def Untouched (c : Nat) (r : Ran C) : Prop :=
  Passive c r.history ∧ ∀ n, r.state.fs.Blank c n

theorem lasting_untouched : Lasting (C := C) c (Untouched c) :=
  lasting_passive.and lasting_blank

theorem does_prepareExisting {e : Record} {digest : String} {action : AuthorizedAction}
    {now : Time} {P : Ran C → Prop} :
    Does c g m P (prepareExisting e digest action now)
      (fun ticket r => P r ∧ ticket = ticketFrom e ∧ e.planDigest = digest ∧
        e.prepareActionID = action.stableActionID) fun _ => P := by
  refine .bind (.ensure fun _ h => h) fun _ => .fact fun hsame => ?_
  simp only [Bool.and_eq_true, beq_iff_eq] at hsame
  refine .bind (.check fun _ h => h) fun _ => .bind (.check fun _ h => h) fun _ => ?_
  exact .pure fun r hr => ⟨hr, rfl, hsame.1.1, hsame.1.2⟩

theorem lasting_ticketed (plan : Plan) (fence : WriterFence) (lifetime : Int)
    (action : AuthorizedAction) (ticket : Ticket) :
    Lasting (C := C) c fun r => Ticketed r.history c plan fence lifetime action ticket := by
  rintro r r' h ⟨e, hticket, ⟨hfound, hpassive, hrest⟩ | ⟨p, hissued⟩⟩
  · exact ⟨e, hticket, .inl ⟨hfound.mono h.history, h.passive hpassive, hrest⟩⟩
  · exact ⟨e, hticket, .inr ⟨p, hissued.mono h.history⟩⟩

/-- The part of `Prepare` after its checks. -/
theorem does_prepare_checked {x : Preparation} {prepared : Plan} {digest : String}
    (hcall : x.call = c)
    (hlifetime : 1000000000 ≤ x.lifetime ∧ x.lifetime ≤ maxStartTicketLifetime)
    (hplan : preparePlan C x.plan x.fence = .ok (prepared, digest)) :
    Does (C := C) c g m (fun r => Untouched c r ∧ x.Checked prepared r.history)
      (do
        match ← attempt (readRecord (path prepared.executionID)) with
        | .ok (existing, _) =>
          let ticket ← prepareExisting existing digest x.action x.time
          pure (ticket, none)
        | .error .notExist =>
          match ← perform .random with
          | none => throw .io
          | some secret =>
            let entry := initialRecord prepared digest secret
              (ticketDeadline x.time x.lifetime x.fence x.action) x.action
            createRecord (path prepared.executionID) entry
            pure (ticketFrom entry, some (⟨path prepared.executionID, entry⟩ : Written))
        | .error err => throw err)
      (fun result r => Ticketed r.history c x.plan x.fence x.lifetime x.action result.1)
      fun _ _ => True := by
  have hchecked := rising_checked (C := C) x prepared
  have hP : Lasting c fun r : Ran C => Untouched c r ∧ x.Checked prepared r.history :=
    lasting_untouched.and hchecked.lasting
  refine .bind (.attempt (does_readRecord (isGuarded_path _) hP)) fun result => ?_
  cases result with
  | ok found =>
    obtain ⟨existing, version⟩ := found
    refine .bind (does_prepareExisting.conseq (fun _ h => h) (fun _ _ h => h)
      fun _ _ _ => trivial) fun ticket => ?_
    refine .pure ?_
    rintro r ⟨⟨⟨⟨hpassive, -⟩, -⟩, hfound⟩, hticket, hdigest, haction⟩
    exact ⟨existing, hticket, .inl ⟨hfound, hpassive, haction, prepared, hdigest ▸ hplan⟩⟩
  | error err =>
    cases err with
    | notExist =>
      refine .bind (.pass rfl hP) fun secret => ?_
      cases secret with
      | none => exact .throw fun _ _ => trivial
      | some secret =>
        subst hcall
        refine .bind ((does_createRecord hchecked fun h hh hmade =>
          ⟨x, hh.issued hlifetime hplan hmade⟩).conseq (fun _ h => ⟨h.2, h.1.2⟩)
          (fun _ _ h => h) fun _ _ h => h) fun _ => ?_
        exact .pure fun r hr => ⟨_, rfl, .inr ⟨x.time, hr.1.issued hlifetime hplan hr.2⟩⟩
    | text message | io | external code => exact .throw fun _ _ => trivial

theorem does_prepare (plan : Plan) (fence : WriterFence) (lifetime : Int)
    (action : AuthorizedAction) :
    Does (C := C) c g (.prepare plan fence lifetime action) (Untouched c)
      (prepare plan fence lifetime action)
      (fun result r => Ticketed r.history c plan fence lifetime action result.1)
      fun _ _ => True := by
  refine .bind (.pass rfl lasting_untouched) fun held => ?_
  refine .bind (.ensure fun _ _ => trivial) fun _ => .fact fun hbounds => ?_
  simp only [Bool.and_eq_true, decide_eq_true_eq] at hbounds
  refine .locked lasting_untouched ?_ (fun _ => lasting_ticketed plan fence lifetime action _)
    fun _ => lasting_true
  refine .bind (does_now lasting_untouched) fun p => ?_
  have hclock : Lasting c fun r : Ran C => Untouched c r ∧
      ReadClock r.history c (.prepare plan fence lifetime action) p :=
    lasting_untouched.and (Rising.lasting fun _ _ => ReadClock.mono)
  refine .bind (does_checkFence hclock fun _ _ _ => trivial) fun _ => ?_
  have hfence := hclock.and (rising_fenceChecked (C := C) c fence p "execution.prepare").lasting
  refine .bind (.ofExcept fun _ _ _ => trivial) fun ⟨prepared, digest⟩ => .fact fun hplan => ?_
  refine .bind (.ask rfl hfence) fun authority => ?_
  refine .bind (.ensure fun _ _ => trivial) fun _ => .fact fun hauthorized => ?_
  refine (does_prepare_checked (x := ⟨c, plan, fence, lifetime, action, p⟩) rfl
    ⟨hbounds.1.2, hbounds.2⟩ hplan).conseq ?_ (fun _ _ h => h) fun _ _ h => h
  rintro r ⟨⟨⟨huntouched, hread⟩, hchecked⟩, hdid⟩
  exact ⟨huntouched, hread, hchecked, authority, hdid, hauthorized⟩

/-! ## Start -/

/-- The inputs were opened one after another, each as the plan says. -/
def OpenedInputs (h : History C) (c : Nat) (bindings : List FileBinding) : Prop :=
  ∃ events, List.Forall₂ (OpenedInput c) bindings events ∧ events.Sublist h

theorem rising_openedInputs (c : Nat) (bindings : List FileBinding) :
    Rising (C := C) fun h => OpenedInputs h c bindings :=
  fun _ _ hsub ⟨events, hevents, hsublist⟩ => ⟨events, hevents, hsublist.trans hsub.sublist⟩

/-- The next input was opened and showed the view. -/
def Tried (h : History C) (c : Nat) (done : List FileBinding) (binding : FileBinding)
    (view : Option InputView) : Prop :=
  ∃ events event, List.Forall₂ (OpenedInput c) done events ∧ (events ++ [event]).Sublist h ∧
    ∃ before after, event = ⟨c, .openInput binding, view, before, after⟩

section Inputs

variable {P : Ran C → Prop} {E : Err → Ran C → Prop}

theorem does_openBoundFile {done : List FileBinding} {binding : FileBinding} (hP : Lasting c P)
    (hE : ∀ e r, P r → E e r) :
    Does c g m (fun r => P r ∧ OpenedInputs r.history c done) (openBoundFile binding)
      (fun _ r => P r ∧ OpenedInputs r.history c (done ++ [binding])) E := by
  have hopened := hP.and (rising_openedInputs (C := C) c done).lasting
  refine .bind
    (.quiet (Q := fun view r => P r ∧ Tried r.history c done binding view) rfl hopened ?_)
    fun answer => ?_
  · intro r view r' _ hat hundisturbed happly
    obtain ⟨events, hevents, hsublist⟩ := hat.2.2
    refine ⟨hP r r' hundisturbed hat.2.1, events, _, hevents, ?_, r.state, r'.state, rfl⟩
    rw [happly.2]
    exact hsublist.append (List.Sublist.refl _)
  · cases answer with
    | none => exact .throw fun r hr => hE _ r hr.1
    | some view =>
      obtain ⟨size, digest, rewound⟩ := view
      refine .bind (.ensure fun r hr => hE _ r hr.1) fun _ => .fact fun hsize => ?_
      refine .bind (.ensure fun r hr => hE _ r hr.1) fun _ => .fact fun hdigest => ?_
      refine (Does.succeeded fun r hr => hE _ r hr.1).conseq (fun _ h => h) ?_
        fun _ _ h => h
      rintro u r ⟨hrewound, hr, events, event, hevents, hsublist, hevent⟩
      obtain rfl : size = some binding.size := beq_iff_eq.mp hsize
      obtain rfl : digest = some binding.digest := beq_iff_eq.mp hdigest
      obtain rfl : rewound = true := hrewound
      exact ⟨hr, events ++ [event], List.rel_append hevents (.cons hevent .nil), hsublist⟩

theorem does_openBoundFiles (hP : Lasting c P) (hE : ∀ e r, P r → E e r)
    (bindings : List FileBinding) : ∀ done : List FileBinding,
    Does c g m (fun r => P r ∧ OpenedInputs r.history c done) (openBoundFiles bindings)
      (fun _ r => P r ∧ OpenedInputs r.history c (done ++ bindings)) E := by
  induction bindings with
  | nil =>
    intro done
    rw [List.append_nil]
    exact .pure fun _ h => h
  | cons binding rest ih =>
    intro done
    have hrest := ih (done ++ [binding])
    rw [List.append_assoc, List.singleton_append] at hrest
    exact .bind (does_openBoundFile hP hE) fun _ => hrest

end Inputs

/-- The record is the ticket's, for the writer's generation, and may be started now. -/
structure Startable (e : Record) (ticket : Ticket) (fence : WriterFence) (now : Time) : Prop where
  digest : e.planDigest = ticket.planDigest
  deadline : e.startNotAfterUnix = ticket.startNotAfterUnix
  generation : e.plan.writerGeneration = fence.body.writerGeneration
  prepared : e.state = .prepared
  inTime : now < timeUnix (toInt64 e.startNotAfterUnix)

theorem does_startable {e : Record} {ticket : Ticket} {fence : WriterFence}
    {action : AuthorizedAction} {now : Time} {P : Ran C → Prop} {E : Err → Ran C → Prop}
    (hP : Lasting c P) (hE : ∀ e r, P r → E e r) :
    Does c g m P (startable e ticket fence action now)
      (fun _ r => Startable e ticket fence now ∧ P r) E := by
  refine .bind (.ensure (hE _)) fun _ => .fact fun hsame => ?_
  refine .bind (.pass rfl hP) fun authority => .bind (.check (hE _)) fun _ => ?_
  refine .bind (.check (hE _)) fun _ => ?_
  refine (Does.ensure (hE _)).conseq (fun _ h => h) ?_ fun _ _ h => h
  rintro u r ⟨hstate, hr⟩
  simp only [Bool.and_eq_true, beq_iff_eq, decide_eq_true_eq] at hsame hstate
  exact ⟨⟨hsame.1.1.1, hsame.1.2, hsame.2, hstate.1, hstate.2⟩, hr⟩

/-- The clock was read and the fence checked. -/
def StartChecked (c : Nat) (ticket : Ticket) (fence : WriterFence) (action : AuthorizedAction)
    (t : Time) (h : History C) : Prop :=
  ReadClock h c (.start ticket fence action) t ∧ FenceChecked h c fence t "execution.start"

theorem rising_startChecked (c : Nat) (ticket : Ticket) (fence : WriterFence)
    (action : AuthorizedAction) (t : Time) :
    Rising (C := C) (StartChecked c ticket fence action t) :=
  fun h h' hsub hh => ⟨hh.1.mono hsub, rising_fenceChecked c fence t _ h h' hsub hh.2⟩

/-- Why a `Start` that fails has changed nothing, or how far it has come. -/
def Undone (c : Nat) (r : Ran C) : Prop :=
  Passive c r.history ∨ CameTo FileName.IsGateTemp c r.history

theorem lasting_undone : Lasting (C := C) c (Undone c) :=
  fun _ _ h hr => hr.imp h.passive (rising_cameTo _ c _ _ h.history)

section Start

variable {ticket : Ticket} {fence : WriterFence} {action : AuthorizedAction} {t : Time}

theorem rising_launched (c : Nat) (result : Launch × Written) :
    Rising (C := C) fun h => ∃ t e, Launched h c ticket fence action t e result.1 ∧
      result.2.entry = e.start action :=
  fun _ _ hsub ⟨t, e, hl, hw⟩ => ⟨t, e, hl.mono hsub, hw⟩

/-- `Start` from the record it found on. -/
theorem does_start_found {n : FileName} {e : Record} (hn : n.isRecord = true) :
    Does (C := C) c g m
      (fun r => (Passive c r.history ∧ StartChecked c ticket fence action t r.history) ∧
        Found r.history c e)
      (do
        startable e ticket fence action t
        openBoundFiles e.plan.files
        replaceRecord n (e.start action)
        let _ ← perform (.claim n .start)
        pure (launchFrom e, (⟨n, e.start action⟩ : Written)))
      (fun result r => ∃ t e, Launched r.history c ticket fence action t e result.1 ∧
        result.2.entry = e.start action)
      fun _ => Undone c := by
  have hfound : Lasting c fun r : Ran C => (Passive c r.history ∧
      StartChecked c ticket fence action t r.history) ∧ Found r.history c e :=
    (lasting_passive.and (rising_startChecked c ticket fence action t).lasting).and
      (rising_found c e).lasting
  have hundone : ∀ (err : Err) (r : Ran C), (Passive c r.history ∧
      StartChecked c ticket fence action t r.history) ∧ Found r.history c e → Undone c r :=
    fun _ _ hr => .inl hr.1.1
  refine .bind (does_startable hfound hundone) fun _ => .fact fun hstartable => ?_
  have hinputs := does_openBoundFiles (g := g) (m := m) hfound hundone e.plan.files []
  rw [List.nil_append] at hinputs
  refine .bind (hinputs.conseq (fun r hr => ⟨hr, [], .nil, List.nil_sublist _⟩) (fun _ _ h => h)
    fun _ _ h => h) fun _ => ?_
  -- from here on the directory is written to; what was learnt is all about the history
  have hlearnt : Rising (C := C) fun h => StartChecked c ticket fence action t h ∧ Found h c e ∧
      OpenedInputs h c e.plan.files :=
    fun h h' hsub hh => ⟨rising_startChecked c ticket fence action t h h' hsub hh.1,
      hh.2.1.mono hsub, rising_openedInputs c _ h h' hsub hh.2.2⟩
  have hissued : ∀ h : History C, StartChecked c ticket fence action t h ∧ Found h c e ∧
      OpenedInputs h c e.plan.files → Issued h (e.start action) :=
    fun _ hh => hh.2.1.issued.rewritten rfl rfl rfl rfl rfl
  refine .bind ((does_replaceRecord hn hlearnt hissued).conseq
    (fun r hr => ⟨hr.1.1.2, hr.1.2, hr.2⟩) (fun _ _ h => h) fun _ _ hr => .inr hr.2) fun _ => ?_
  refine .bind (.pass rfl hlearnt.lasting) fun _ => .pure ?_
  rintro r ⟨⟨hread, hchecked⟩, hfound, hinputs⟩
  exact ⟨t, e, ⟨hread, hchecked.1, hchecked.2, hfound, rfl, hstartable.digest, hstartable.deadline,
    hstartable.generation, hstartable.prepared, hstartable.inTime, hinputs⟩, rfl⟩

theorem does_start (ticket : Ticket) (fence : WriterFence) (action : AuthorizedAction) :
    Does (C := C) c g (.start ticket fence action) (fun r => Passive c r.history)
      (start ticket fence action)
      (fun result r => ∃ t e, Launched r.history c ticket fence action t e result.1 ∧
        result.2.entry = e.start action)
      fun _ => Undone c := by
  refine .bind (.pass rfl lasting_passive) fun held => ?_
  refine .bind (.check fun _ => .inl) fun _ => ?_
  refine .locked lasting_passive ?_ (fun result => (rising_launched c result).lasting)
    fun _ => lasting_undone
  refine .bind (does_now lasting_passive) fun t => ?_
  have hclock : Lasting c fun r : Ran C => Passive c r.history ∧
      ReadClock r.history c (.start ticket fence action) t :=
    lasting_passive.and (Rising.lasting fun _ _ => ReadClock.mono)
  have hfence : Does c g (.start ticket fence action) (fun r => Passive c r.history ∧
      ReadClock r.history c (.start ticket fence action) t) (checkFence fence t "execution.start")
      (fun _ r => Passive c r.history ∧ StartChecked c ticket fence action t r.history)
      fun _ => Undone (C := C) c :=
    (does_checkFence hclock fun _ _ hr => .inl hr.1).conseq (fun _ h => h)
      (fun _ _ hr => ⟨hr.1.1, hr.1.2, hr.2⟩) fun _ _ h => h
  refine .bind hfence fun _ => ?_
  have hchecked := (lasting_passive (C := C) (c := c)).and
    (rising_startChecked c ticket fence action t).lasting
  refine .bind ((does_readRecord (isGuarded_path _) hchecked).conseq (fun _ h => h)
    (fun _ _ h => h) fun _ _ hr => .inl hr.1) fun ⟨e, version⟩ => ?_
  exact does_start_found (isRecord_path _)

end Start

end TosAi.CommerceGate
