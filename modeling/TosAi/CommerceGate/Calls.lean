/-
  Calls that succeed, as parts of a run.

  What a call does alone becomes a piece of a run of the Gate system, whatever
  other calls are in flight.  A `Stage` is a point of such a run at which a Gate is
  open and idle over a directory with at most one record; every ordinary call leads
  from one stage to the next.
-/
import TosAi.CommerceGate.Succeed
import TosAi.CommerceGate.Invariant

set_option autoImplicit false

namespace TosAi.CommerceGate

open Foundation

variable {C : Commerce} {W : World C} {c g : Nat} {m : Method} {s : System C}

/-! ## Runs of several calls -/

/-- A call is in flight. -/
def System.begin (s : System C) (g : Nat) (m : Method) : System C :=
  { s with calls := Function.update s.calls s.next (some (g, m)), next := s.next + 1 }

theorem begin_calls (s : System C) (g : Nat) (m : Method) :
    (s.begin g m).calls s.next = some (g, m) := by
  simp [System.begin]

/-- The operation leaves the directory as it is. -/
def Op.leavesFiles : Op C → Bool
  | .file (.read _) | .file .readDir => true
  | .file _ => false
  | _ => true

/-- What operations leave alone. -/
structure Op.Spares (o : Op C) (s s' : System C) : Prop where
  calls : s'.calls = s.calls
  losses : s'.losses = s.losses
  returned : s'.returned = s.returned
  next : s'.next = s.next
  files : o.leavesFiles = true → s'.fs = s.fs

/-- Operations leave the calls in flight and what was returned, and no power is
lost. -/
theorem apply_keeps {o : Op C} {answer : Res o} {s' : System C}
    (h : System.apply c o s answer s') : o.Spares s s' := by
  cases o with
  | file o =>
    obtain ⟨fs', happly, rfl⟩ := h
    refine ⟨rfl, rfl, rfl, rfl, fun ho => ?_⟩
    cases o with
    | read n | readDir => exact happly.1
    | _ => cases ho
  | lockHeld =>
    obtain ⟨rfl, -⟩ := h
    exact ⟨rfl, rfl, rfl, rfl, fun _ => rfl⟩
  | lockMutex =>
    obtain ⟨-, rfl⟩ := h
    exact ⟨rfl, rfl, rfl, rfl, fun _ => rfl⟩
  | acquireDirectory =>
    rcases h with ⟨-, -, rfl⟩ | ⟨-, rfl⟩
    · exact ⟨rfl, rfl, rfl, rfl, fun _ => rfl⟩
    · exact ⟨rfl, rfl, rfl, rfl, fun _ => rfl⟩
  | exchange =>
    obtain ⟨rfl, -⟩ := h
    exact ⟨rfl, rfl, rfl, rfl, fun _ => rfl⟩
  | _ =>
    obtain rfl := h
    exact ⟨rfl, rfl, rfl, rfl, fun _ => rfl⟩

/-- The method is neither `Open` nor `Close`. -/
def Method.ordinary : Method → Bool
  | .openGate _ _ | .close => false
  | _ => true

/-- The call may begin on Gate `g`. -/
def MayBegin (s : System C) (g : Nat) (m : Method) : Prop :=
  match m with
  | .openGate _ _ => g = s.next
  | _ => s.published g = true

theorem mayBegin_of_ordinary (hm : m.ordinary = true) (hgate : s.published g = true) :
    MayBegin s g m := by
  cases m with
  | openGate => cases hm
  | _ => exact hgate

/-- The assumption looks at calls and power losses only, and does not mind a call
that returns. -/
structure Coarse (A : System C → Prop) : Prop where
  same : ∀ s s' : System C, s'.calls = s.calls → s'.losses = s.losses → A s → A s'
  finish : ∀ c out (s : System C), A s → A (System.finish c out s)

/-- Nor does it mind a call other than `Close` that begins. -/
structure Lax (A : System C → Prop) : Prop extends Coarse A where
  begin : ∀ g m (s : System C), m ≠ .close → A s → A (s.begin g m)

theorem finish_calls {d : Nat} {out : Outcome C} {call : Nat × Method}
    (h : (System.finish c out s).calls d = some call) : s.calls d = some call := by
  simp only [System.finish, Function.update_apply] at h
  split at h
  · cases h
  · exact h

theorem coarse_quiet : Coarse (C := C) Quiet where
  same := by
    intro s s' hcalls _ hs
    unfold Quiet
    rw [hcalls]
    exact hs
  finish := fun _ _ _ hs d g hclose d' m hcall =>
    hs d g (finish_calls hclose) d' m (finish_calls hcall)

/-- A call that is alone may be a `Close`. -/
theorem quiet_begin (hidle : ∀ c, s.calls c = none) (g : Nat) (m : Method) :
    Quiet (s.begin g m) := by
  intro d g' hclose d' m' hcall
  simp only [System.begin, Function.update_apply, hidle] at hclose hcall
  split at hclose
  · split at hcall
    · rename_i hd hd'
      rw [hd, hd']
    · cases hcall
  · cases hclose

theorem lax_noClose : Lax (C := C) NoClose where
  same := by
    intro s s' hcalls _ hs
    unfold NoClose
    rw [hcalls]
    exact hs
  finish := fun _ _ _ hs d g hclose => hs d g (finish_calls hclose)
  begin := by
    intro g m s hm hs d g' hclose
    simp only [System.begin, Function.update_apply] at hclose
    split at hclose
    · cases hclose
      exact hm rfl
    · exact hs d g' hclose

/-- No `Close` is in flight, and power was never lost. -/
def Calm (s : System C) : Prop := NoClose s ∧ s.losses = 0

theorem lax_calm : Lax (C := C) Calm where
  same := fun s s' hcalls hlosses hs =>
    ⟨lax_noClose.same s s' hcalls hlosses hs.1, hlosses.trans hs.2⟩
  finish := fun c out s hs => ⟨lax_noClose.finish c out s hs.1, hs.2⟩
  begin := fun g m s hm hs => ⟨lax_noClose.begin g m s hm hs.1, hs.2⟩

theorem calm_init : Calm (System.init : System C) := ⟨(fun _ _ h => nomatch h), rfl⟩

/-- Power was never lost. -/
def Powered (s : System C) : Prop := s.losses = 0

theorem lax_powered : Lax (C := C) Powered where
  same := fun _ _ _ hlosses h => hlosses.trans h
  finish := fun _ _ _ h => h
  begin := fun _ _ _ _ h => h

theorem Coarse.works {A : System C → Prop} (hA : Coarse A) {o : Op C} {answer : Res o}
    {s' : System C} (h : W.works c o s answer s') (hs : A s) : A s' :=
  hA.same s s' (apply_keeps h.1).calls (apply_keeps h.1).losses hs

variable {Q : Result C → System C → Prop}

section Runs

variable {A : System C → Prop} {pool : Nat → Option (Prog (Op C) Res (Outcome C))}

/-- A call begins and goes some way. -/
theorem run_pause (hA : Coarse A) (hpool : pool s.next = none) (hgate : MayBegin s g m)
    (hbegin : A (s.begin g m)) {q : Prog (Op C) Res (Outcome C)} {t : System C}
    (hsteps : Prog.Steps (W.works s.next) (program C m) (s.begin g m) q t) :
    (gateMachine C).Run A ⟨s, pool⟩ ⟨t, Function.update pool s.next (some q)⟩ := by
  have hstart : (gateMachine C).Step ⟨s, pool⟩
      ⟨s.begin g m, Function.update pool s.next (some (program C m))⟩ :=
    .start hpool ⟨rfl, g, m, rfl, hgate, rfl⟩
  have hrest := Machine.Run.steps (M := gateMachine C) (A := A) (fun _ _ _ _ h => h.1)
    (fun _ _ _ _ h hs => hA.works h hs) hsteps
    (Function.update_self s.next (some (program C m)) pool) hbegin
  rw [Function.update_idem] at hrest
  exact .head ⟨hstart, hbegin⟩ hrest

/-- A call in flight goes on to its end. -/
theorem run_resume (hA : Coarse A) {q : Prog (Op C) Res (Outcome C)} (hpool : pool c = some q)
    (hs : A s) {Q : Outcome C → System C → Prop} (hq : Prog.Always (W.works c) Q q s) :
    ∃ out t, Q out t ∧ t.returned = s.returned ∧ (gateMachine C).Run A ⟨s, pool⟩
      ⟨System.finish c out t, Function.update pool c none⟩ := by
  obtain ⟨out, t, hsteps, hQ⟩ := hq.steps
  have hrun := Machine.Run.steps (M := gateMachine C) (A := A) (fun _ _ _ _ h => h.1)
    (fun _ _ _ _ h hs => hA.works h hs) hsteps hpool hs
  have ht : A t := hsteps.keeps (fun _ _ _ _ h hs => hA.works h hs) hs
  have hfinish : (gateMachine C).Step ⟨t, Function.update pool c (some (.ret out))⟩
      ⟨System.finish c out t, Function.update (Function.update pool c (some (.ret out))) c none⟩ :=
    .finish (Function.update_self _ _ _)
  rw [Function.update_idem] at hfinish
  have hreturned : t.returned = s.returned := hsteps.keeps (A := fun u => u.returned = s.returned)
    (fun _ _ _ _ h hs => (apply_keeps h.1).returned.trans hs) rfl
  exact ⟨out, t, hQ, hreturned, hrun.tail ⟨hfinish, hA.finish c out t ht⟩⟩

variable (hA : Coarse A) (hpool : pool s.next = none) (hgate : MayBegin s g m)
  (hbegin : A (s.begin g m))
include hA hpool hgate hbegin

/-- A call begins and stops where it halts. -/
theorem run_halt {R K : System C → Prop}
    (hcall : Halts (W.works s.next) (body C m) (s.begin g m) R K Q fun _ _ => False) :
    ∃ q t, R t ∧ (gateMachine C).Run A ⟨s, pool⟩ ⟨t, Function.update pool s.next (some q)⟩ ∧
      ∀ u, K u → Prog.Always (W.works s.next) (Discipline.Returns Q fun _ _ => False) q u := by
  obtain ⟨q, t, hsteps, hR, hrest⟩ := hcall
  exact ⟨q, t, hR, run_pause hA hpool hgate hbegin hsteps, hrest⟩

/-- A call from its beginning to the operation with which it comes to its value. -/
theorem run_land (hcall : Ends (W.works s.next) (body C m) (s.begin g m) Q fun _ _ => False)
    (hop : ∀ out, program C m ≠ .ret out) :
    ∃ r t cfg o next, Q r t ∧ A t ∧ (gateMachine C).Run A ⟨s, pool⟩ cfg ∧
      cfg.pool s.next = some (.op o next) ∧
      (gateMachine C).Step cfg ⟨t, Function.update pool s.next (some (.ret (.ok r)))⟩ := by
  obtain ⟨out, t, hsteps, hout⟩ := Prog.Always.steps hcall
  cases out with
  | error e => exact hout.elim
  | ok r =>
    have ht : A t := hsteps.keeps (fun _ _ _ _ h hs => hA.works h hs) hbegin
    obtain ⟨o, next, answer, u, hsteps, hlast, hnext⟩ := hsteps.last hop
    have hstep : (gateMachine C).Step ⟨u, Function.update pool s.next (some (.op o next))⟩ _ :=
      .act (Function.update_self _ _ _) hlast.1
    rw [hnext, Function.update_idem] at hstep
    exact ⟨r, t, _, o, next, hout, ht, run_pause hA hpool hgate hbegin hsteps,
      Function.update_self _ _ _, hstep⟩

/-- A call from its beginning to its end. -/
theorem run_call (hcall : Ends (W.works s.next) (body C m) (s.begin g m) Q fun _ _ => False) :
    ∃ r t, Q r t ∧ (gateMachine C).Run A ⟨s, pool⟩ ⟨System.finish s.next (.ok r) t, pool⟩ := by
  have hbegun := run_pause (W := W) hA hpool hgate hbegin (.refl (program C m) (s.begin g m))
  obtain ⟨out, t, hout, -, hrun⟩ := run_resume hA (Function.update_self s.next _ pool) hbegin hcall
  cases out with
  | error e => exact hout.elim
  | ok r =>
    rw [Function.update_idem, ← hpool, Function.update_eq_self] at hrun
    exact ⟨r, t, hout, hbegun.trans hrun⟩

end Runs

/-! ## Stages -/

/-- The directory has at most the record of the name `n`, and holds `o` there. -/
structure Disk (n : FileName) (o : Option File) (fs : Fs FileName) : Prop where
  now : fs.now n = o
  others : ∀ m, m.isRecord = true → m ≠ n → fs.now m = none

theorem Disk.rewrote {n : FileName} {o : Option File} {fs fs' : Fs FileName} {e : Record}
    (h : Disk n o fs) (hrewrote : Rewrote n e fs fs') : Disk n (some e.file) fs' :=
  ⟨hrewrote.now, fun m hm hmn => (hrewrote.others m hm hmn).trans (h.others m hm hmn)⟩

/-- The numbers from `next` on are unused. -/
def Vacant (cfg : Config (Op C) Res (System C) (Outcome C)) : Prop :=
  ∀ c, cfg.shared.next ≤ c →
    cfg.shared.calls c = none ∧ cfg.shared.mu c = none ∧ cfg.pool c = none

/-- Gate `g` is open and idle. -/
structure Stage (g : Nat) (n : FileName) (o : Option File)
    (cfg : Config (Op C) Res (System C) (Outcome C)) : Prop where
  published : cfg.shared.published g = true
  lock : cfg.shared.lock g = true
  owner : cfg.shared.owner = some g
  free : cfg.shared.mu g = none
  disk : Disk n o cfg.shared.fs
  opened : g < cfg.shared.next
  vacant : Vacant cfg

/-- One call was made, and returned. -/
structure Made (r : Result C) (cfg cfg' : Config (Op C) Res (System C) (Outcome C)) : Prop where
  pool : cfg'.pool = cfg.pool
  calls : cfg'.shared.calls = cfg.shared.calls
  next : cfg'.shared.next = cfg.shared.next + 1
  returned : cfg'.shared.returned = cfg.shared.returned ++ [(cfg.shared.next, .ok r)]

theorem Made.mem {r : Result C} {cfg cfg' : Config (Op C) Res (System C) (Outcome C)}
    (h : Made r cfg cfg') : (cfg.shared.next, .ok r) ∈ cfg'.shared.returned := by
  rw [h.returned]
  exact List.mem_append_right _ (List.mem_singleton_self _)

section Stages

variable {A : System C → Prop} {n : FileName} {o o' : Option File}
  {cfg : Config (Op C) Res (System C) (Outcome C)}

/-- The state in which an ordinary call ends. -/
def System.ended (s : System C) (fs : Fs FileName) (tokens : FileName → Token → Option Nat)
    (entered : List Entered) : System C :=
  { s with fs, tokens, entered }

/-- **An ordinary call leads from stage to stage.** -/
theorem Stage.call (hA : Lax A) (hs : A cfg.shared) (hstage : Stage g n o cfg)
    (hm : m.ordinary = true) {r : Result C} (hr : r ≠ .opened) {P : List Entered → Prop}
    (hcall : Ends (W.works cfg.shared.next) (body C m) (cfg.shared.begin g m)
      (fun r' t => r' = r ∧ ∃ fs tokens entered,
        t = (cfg.shared.begin g m).ended fs tokens entered ∧ Disk n o' fs ∧ P entered)
      fun _ _ => False) :
    ∃ cfg', (gateMachine C).Run A cfg cfg' ∧ A cfg'.shared ∧ Stage g n o' cfg' ∧
      Made r cfg cfg' ∧ P cfg'.shared.entered := by
  obtain ⟨s, pool⟩ := cfg
  have hclose : m ≠ .close := by
    rintro rfl
    cases hm
  have hbegin := hA.begin g m s hclose hs
  obtain ⟨r', t, ⟨rfl, fs, tokens, entered, rfl, hdisk, hentered⟩, hrun⟩ :=
    run_call hA.toCoarse (hstage.vacant s.next (Nat.le_refl _)).2.2
      (mayBegin_of_ordinary hm hstage.published) hbegin hcall
  have hpublished : (System.finish s.next (.ok r')
      ((s.begin g m).ended fs tokens entered)).published = s.published := by
    cases r' with
    | opened => exact (hr rfl).elim
    | _ => rfl
  have hcalls : (System.finish s.next (.ok r')
      ((s.begin g m).ended fs tokens entered)).calls = s.calls := by
    simp only [System.finish, System.ended, System.begin, Function.update_idem]
    rw [← (hstage.vacant s.next (Nat.le_refl _)).1, Function.update_eq_self]
  refine ⟨_, hrun, hA.finish s.next (.ok r') ((s.begin g m).ended fs tokens entered)
    (hA.same (s.begin g m) _ rfl rfl hbegin), ?_, ⟨rfl, hcalls, rfl, rfl⟩, hentered⟩
  refine ⟨by rw [hpublished]; exact hstage.published, hstage.lock, hstage.owner, hstage.free, hdisk,
    Nat.lt_succ_of_lt hstage.opened, fun c hc => ⟨?_, (hstage.vacant c (Nat.le_of_succ_le hc)).2⟩⟩
  rw [hcalls]
  exact (hstage.vacant c (Nat.le_of_succ_le hc)).1

/-- What recovery makes of the record, if there is one and it can be read. -/
inductive Recovers : Option File → Option File → Prop where
  | none : Recovers none none
  | record {e : Record} (h : Readable e) : Recovers (some e.file) (some e.reopened.file)

theorem Disk.reopened {fs fs' : Fs FileName} {hex : String} (h : Disk (.record hex) o fs)
    (hrecovers : Recovers o o') (hreopened : Reopened fs fs') : Disk (.record hex) o' fs' where
  now := by
    cases hrecovers with
    | none => exact (hreopened.others _ rfl fun _ _ => h.now).trans h.now
    | record _ => exact hreopened.records hex _ h.now
  others := fun m hm hmn => by
    have hnone := h.others m hm hmn
    rw [hreopened.others m hm fun _ _ => hnone, hnone]

/-- The state in which `Open` ends. -/
def System.acquired (s : System C) (g : Nat) (fs : Fs FileName) : System C :=
  { s with fs, owner := some g, lock := Function.update s.lock g true }

/-- `Open` on a directory nobody owns. -/
theorem run_open {hex : String} (hA : Lax A) (hs : A cfg.shared)
    (howner : cfg.shared.owner = none) (hvacant : Vacant cfg)
    (hdisk : Disk (.record hex) o cfg.shared.fs) (hrecovers : Recovers o o')
    (W : World C) (directory : String)
    (hconfig : (pathIsAbs directory && pathClean directory == directory) = true) :
    ∃ cfg', (gateMachine C).Run A cfg cfg' ∧ A cfg'.shared ∧
    Stage cfg.shared.next (.record hex) o' cfg' ∧
      Made .opened cfg cfg' ∧ cfg'.shared.entered = cfg.shared.entered := by
  obtain ⟨s, pool⟩ := cfg
  obtain ⟨hcallNone, hmuNone, hpoolNone⟩ := hvacant s.next (Nat.le_refl _)
  have hbegin := hA.begin s.next (.openGate directory true) s (fun h => nomatch h) hs
  have hread : ∀ hex f, s.fs.now (.record hex) = some f → ∃ e, f = Record.file e ∧ Readable e := by
    intro hex' f hnow
    by_cases hname : FileName.record hex' = .record hex
    · rw [hname, hdisk.now] at hnow
      cases hrecovers with
      | none => cases hnow
      | record h => exact ⟨_, (Option.some.inj hnow).symm, h⟩
    · rw [hdisk.others _ rfl hname] at hnow
      cases hnow
  obtain ⟨r, t, ⟨rfl, fs', rfl, hreopened⟩, hrun⟩ := run_call (W := W) hA.toCoarse hpoolNone
    (g := s.next) (m := .openGate directory true) rfl hbegin
    (Q := fun r t => r = .opened ∧ ∃ fs',
      t = (s.begin s.next (.openGate directory true)).acquired s.next fs' ∧ Reopened s.fs fs')
    (.chain (ends_openGate (by simp [System.gateOf, begin_calls]) howner hconfig hread
      fun fs' hfs' => ⟨rfl, fs', rfl, hfs'⟩))
  have hcalls : (System.finish s.next (.ok (Result.opened (C := C)))
      ((s.begin s.next (.openGate directory true)).acquired s.next fs')).calls = s.calls := by
    simp only [System.finish, System.acquired, System.begin, Function.update_idem]
    rw [← hcallNone, Function.update_eq_self]
  refine ⟨_, hrun, hA.finish s.next (.ok .opened) ((s.begin _ _).acquired s.next fs')
    (hA.same (s.begin _ _) _ rfl rfl hbegin),
    ⟨Function.update_self _ _ _, Function.update_self _ _ _, rfl, hmuNone, ?_, Nat.lt_succ_self _,
      fun c hc => ?_⟩,
    ⟨rfl, hcalls, rfl, rfl⟩, rfl⟩
  · exact hdisk.reopened hrecovers hreopened
  · obtain ⟨hcall, hrest⟩ := hvacant c (Nat.le_of_succ_le hc)
    rw [hcalls]
    exact ⟨hcall, hrest⟩

/-- `Close`, whether or not the Gate's mutex is free. -/
theorem run_close (hA : Coarse A) (hgate : cfg.shared.published g = true)
    (hlock : cfg.shared.lock g = true) (howner : cfg.shared.owner = some g) (hvacant : Vacant cfg)
    (hbegin : A (cfg.shared.begin g .close)) (W : World C) :
    ∃ cfg', (gateMachine C).Run A cfg cfg' ∧ A cfg'.shared ∧ cfg'.shared.owner = none ∧
      cfg'.shared.fs = cfg.shared.fs ∧ Vacant cfg' ∧ Made .closed cfg cfg' := by
  obtain ⟨s, pool⟩ := cfg
  obtain ⟨hcallNone, -, hpoolNone⟩ := hvacant s.next (Nat.le_refl _)
  obtain ⟨r, t, ⟨rfl, rfl⟩, hrun⟩ := run_call (W := W) hA hpoolNone (g := g) (m := .close)
    hgate hbegin (Q := fun r t => r = .closed ∧ t = { s.begin g .close with
      owner := none, lock := Function.update s.lock g false })
    (.chain (ends_closeGate (begin_calls _ _ _) hlock howner ⟨rfl, rfl⟩))
  have hcalls : Function.update (Function.update s.calls s.next (some (g, .close))) s.next none =
      s.calls := by
    rw [Function.update_idem, ← hcallNone, Function.update_eq_self]
  refine ⟨_, hrun, hA.finish s.next (.ok .closed) _ (hA.same (s.begin g .close) _ rfl rfl hbegin),
    rfl, rfl, fun c hc => ?_, ⟨rfl, hcalls, rfl, rfl⟩⟩
  obtain ⟨hcall, hrest⟩ := hvacant c (Nat.le_of_succ_le hc)
  exact ⟨(congrFun hcalls c).trans hcall, hrest⟩

/-- `Prepare` of a new execution. -/
theorem Stage.prepare {plan prepared : Plan} {fence : WriterFence} {lifetime : Int}
    {action : AuthorizedAction} {digest : String} (hA : Lax A) (hs : A cfg.shared)
    (h : W.Prepares plan fence lifetime action prepared digest)
    (hstage : Stage g (path prepared.executionID) none cfg) :
    ∃ cfg' r, (gateMachine C).Run A cfg cfg' ∧ A cfg'.shared ∧
      Stage g (path prepared.executionID)
        (some (W.initial prepared digest lifetime fence action).file) cfg' ∧ Made r cfg cfg' := by
  obtain ⟨cfg', hrun, hs', hstage', hmade, -⟩ := hstage.call (W := W) (P := fun _ => True) hA hs
    (m := .prepare plan fence lifetime action) rfl
    (r := .ticket (ticketFrom (W.initial prepared digest lifetime fence action))
      (some ⟨path prepared.executionID, W.initial prepared digest lifetime fence action⟩))
    (fun h => nomatch h)
    (.chain (ends_prepare h ⟨begin_calls _ _ _, hstage.lock, hstage.free⟩ hstage.disk.now
      fun fs hfs => ⟨rfl, fs, cfg.shared.tokens, cfg.shared.entered, rfl, hstage.disk.rewrote hfs,
        trivial⟩))
  exact ⟨cfg', _, hrun, hs', hstage', hmade⟩

/-- `Start` of a prepared execution. -/
theorem Stage.start {e : Record} {ticket : Ticket} {fence : WriterFence}
    {action : AuthorizedAction} (hA : Lax A) (hs : A cfg.shared)
    (h : W.Starts e ticket fence action)
    (hstage : Stage g (path ticket.executionID) (some e.file) cfg) (hid : ticket.executionID ≠ "")
    (hsecret : ticket.secret ≠ "") (hreadable : Readable e) :
    ∃ cfg', (gateMachine C).Run A cfg cfg' ∧ A cfg'.shared ∧
      Stage g (path ticket.executionID) (some (e.start action).file) cfg' ∧
      Made (.launch (launchFrom e) ⟨path ticket.executionID, e.start action⟩) cfg cfg' := by
  obtain ⟨cfg', hrun, hs', hstage', hmade, -⟩ := hstage.call (W := W) (P := fun _ => True) hA hs
    (m := .start ticket fence action) rfl
    (r := .launch (launchFrom e) ⟨path ticket.executionID, e.start action⟩) (fun h => nomatch h)
    (.chain (ends_start h ⟨begin_calls _ _ _, hstage.lock, hstage.free⟩ hid hsecret
      hstage.disk.now hreadable fun fs hfs => ⟨rfl, fs, _, cfg.shared.entered, rfl,
        hstage.disk.rewrote hfs, trivial⟩))
  exact ⟨cfg', hrun, hs', hstage', hmade⟩

/-- `MarkRunning` of a started execution. -/
theorem Stage.markRunning {e : Record} (launch : Launch) (hA : Lax A) (hs : A cfg.shared)
    (hstage : Stage g (path launch.executionID) (some e.file) cfg) (hreadable : Readable e)
    (hdigest : e.planDigest = launch.planDigest) (hsecret : e.ticketSecret = launch.ticketSecret)
    (hstate : e.state = .starting) (W : World C) :
    ∃ cfg' r, (gateMachine C).Run A cfg cfg' ∧ A cfg'.shared ∧
      Stage g (path launch.executionID) (some (e.transition .running "").file) cfg' ∧
      Made r cfg cfg' := by
  obtain ⟨cfg', hrun, hs', hstage', hmade, -⟩ := hstage.call (W := W) (P := fun _ => True) hA hs
    (m := .markRunning launch) rfl
    (r := .done ⟨path launch.executionID, e.transition .running ""⟩) (fun h => nomatch h)
    (.chain (ends_transition ⟨begin_calls _ _ _, hstage.lock, hstage.free⟩ hstage.disk.now
      hreadable hdigest hsecret hstate fun fs hfs => ⟨rfl, fs, _, cfg.shared.entered, rfl,
        hstage.disk.rewrote hfs, trivial⟩))
  exact ⟨cfg', _, hrun, hs', hstage', hmade⟩

/-- `PerformHTTPS` of a running execution. -/
theorem Stage.performHTTPS {e : Record} {call : EffectCall} {effect : EffectBinding}
    {network : NetworkBinding} {digest : String} (hA : Lax A) (hs : A cfg.shared)
    (h : W.Performs e call effect network digest)
    (hstage : Stage g (path call.launch.executionID) (some e.file) cfg) (hreadable : Readable e)
    (hsubmitted : Readable (e.submit call.request.planEffectID call.action)) :
    ∃ cfg', (gateMachine C).Run A cfg cfg' ∧ A cfg'.shared ∧
      Stage g (path call.launch.executionID) (some (e.performed call (W.answer digest)).file) cfg' ∧
      Made (.response (W.answer digest) (some ⟨path call.launch.executionID,
        e.performed call (W.answer digest)⟩)) cfg cfg' ∧
      ∃ x ∈ cfg'.shared.entered, x.entry = ⟨path call.launch.executionID,
        call.request.planEffectID, call.action, e⟩ :=
  hstage.call (W := W) hA hs (m := .performHTTPS call) rfl
    (r := .response (W.answer digest) (some ⟨path call.launch.executionID,
      e.performed call (W.answer digest)⟩)) (fun h => nomatch h)
    (P := fun entered => ∃ x ∈ entered, x.entry = ⟨path call.launch.executionID,
      call.request.planEffectID, call.action, e⟩)
    (.chain (ends_performHTTPS h ⟨begin_calls _ _ _, hstage.lock, hstage.free⟩ hstage.disk.now
      hreadable hsubmitted fun fs _ hfs => ⟨rfl, fs, _, _, rfl, hstage.disk.rewrote hfs,
        _, List.mem_append_right _ (List.mem_singleton_self _), rfl⟩))

end Stages

/-! ## A rehearsal

A library that accepts what is well formed, a plan with one effect, and the run
in which the plan is prepared, started and marked as running. -/

def zeroDigest : String :=
  "sha256:0000000000000000000000000000000000000000000000000000000000000000"

theorem validDigest_zeroDigest : validDigest zeroDigest = true := by decide

/-- Every digest and every identifier is the same. -/
def tolerant : Commerce where
  Authority := Unit
  Event := Unit
  verifyWriterFence := fun _ _ _ _ => none
  confirmCurrentWriterFence := fun _ _ _ => none
  verifyAuthorizedAction := fun action _ _ _ _ _ =>
    if validDigest action.stableActionID && validDigest action.exactRequestDigest then none
    else some .io
  marshal := fun _ => .ok []
  digest := fun _ _ => .ok zeroDigest
  deriveStableActionID := fun _ _ => .ok zeroDigest
  outcomeAuthorityTimeProofProfileV1 := "time"
  outcomeIssuerQualificationProofProfileV1 := "issuer"
  sortOutcomeAuthorityProofMaterialsV1 := .ok
  outcomeAuthorityProofObjectDigestV1 := fun _ => .ok zeroDigest
  sortOutcomeAuthorityProofRefsV1 := .ok
  validateOutcomeEvidenceManifestV1 := fun _ => none
  validateGateExecutionObservationV1 := fun _ => none
  buildOperationOutcomeEventV1 := fun _ _ _ => .ok ()
  verifyOperationOutcomeArtifactBundleV1 := fun _ _ => none

theorem tolerant_lawful : tolerant.Lawful where
  action := by
    intro action fields request fence authority now h
    simp only [tolerant] at h
    split at h
    · rename_i hvalid
      simpa using hvalid
    · cases h
  digest := by
    intro domain payload d h
    obtain rfl := Except.ok.inj h
    exact validDigest_zeroDigest
  slot := by
    intro kind fields id h
    obtain rfl := Except.ok.inj h
    exact validDigest_zeroDigest

/-- The clock stands still, and every exchange is answered with the given status. -/
def calm (status : Nat) (h : status < 1000) : World tolerant where
  now := 0
  authority := ()
  secret := "s"
  input := fun binding => ⟨some binding.size, some binding.digest, true⟩
  credential := []
  status := status
  body := []
  status_lt := h

def samplePlan : Plan where
  ownerID := "o"
  agentID := "a"
  agreementBodyDigest := "b"
  executionObligationID := "x"
  canonicalPlanDigest := ""
  acceptedInputManifestDigest := "m"
  attemptIndex := 0
  predecessorTerminalResolutionDigest := ""
  executionID := ""
  reservationID := "r"
  policyRevision := 1
  writerGeneration := 0
  leaseLossPolicy := leaseLossKill
  files := []
  networkBindings := [⟨"n", "https", "h", 443, ["8.8.8.8"], "h", false, 1, 1⟩]
  credentialBindings := []
  effectBindings := [⟨"e", zeroDigest, zeroDigest, "https.get", zeroDigest, "n", "", 1⟩]

def sampleFence : WriterFence := ⟨⟨"o", "a", 1, 100⟩, []⟩

def sampleAction (kind : String) : AuthorizedAction := ⟨kind, zeroDigest, zeroDigest, 100, []⟩

def samplePrepared : Plan :=
  { samplePlan with
    writerGeneration := 1
    canonicalPlanDigest := zeroDigest
    executionID := zeroDigest }

theorem preparePlan_samplePlan :
    preparePlan tolerant samplePlan sampleFence = .ok (samplePrepared, zeroDigest) := by
  have hnormal : normalize samplePlan = samplePlan := by
    simp [normalize, sortBy, samplePlan]
  unfold preparePlan
  rw [hnormal]
  decide

def preparedRecord : Record :=
  initialRecord samplePrepared zeroDigest "s" 60 (sampleAction "execution.prepare")

def startedRecord : Record := preparedRecord.start (sampleAction "execution.start")

def runningRecord : Record := startedRecord.transition .running ""

theorem authorized_tolerant (kind : String) (fields : List (String × SemanticValue))
    (payload : Payload) (fence : WriterFence) (authority : tolerant.Authority) (now : Time) :
    authorized tolerant (sampleAction kind) kind fields payload fence authority now = true := by
  simp [authorized, tolerant, sampleAction, validDigest_zeroDigest]

section Rehearsal

variable {status : Nat} {h : status < 1000}

theorem calm_prepares : (calm status h).Prepares samplePlan sampleFence 60000000000
    (sampleAction "execution.prepare") samplePrepared zeroDigest where
  inBounds := by decide
  accepts := ⟨rfl, rfl⟩
  prepares := preparePlan_samplePlan
  allows := authorized_tolerant ..

theorem calm_initial : (calm status h).initial samplePrepared zeroDigest 60000000000 sampleFence
    (sampleAction "execution.prepare") = preparedRecord := by
  have hdeadline : ticketDeadline 0 60000000000 sampleFence (sampleAction "execution.prepare") =
      60 := by decide
  simp only [World.initial, calm, hdeadline]
  rfl

theorem calm_starts : (calm status h).Starts preparedRecord (ticketFrom preparedRecord) sampleFence
    (sampleAction "execution.start") where
  issued := rfl
  generation := rfl
  accepts := ⟨rfl, rfl⟩
  allows := authorized_tolerant ..
  prepared := rfl
  inTime := by
    show (0 : Int) < timeUnix (toInt64 60)
    decide
  supplied := fun _ _ => rfl

end Rehearsal

theorem Record.marshal_length_le {e : Record} {k : Nat} (h : (rawRecordCodec.enc e.raw).size ≤ k) :
    e.marshal.length ≤ k :=
  (Json.Value.length_print_le _).trans h

theorem readable_preparedRecord : Readable preparedRecord where
  size := Record.marshal_length_le (by decide)
  fields := by decide
  effects := by
    intro id r hr
    simp [preparedRecord, initialRecord] at hr

theorem readable_startedRecord : Readable startedRecord where
  size := Record.marshal_length_le (by decide)
  fields := by decide
  effects := readable_preparedRecord.effects

theorem readable_runningRecord : Readable runningRecord where
  size := Record.marshal_length_le (by decide)
  fields := by decide
  effects := readable_preparedRecord.effects

/-- The name of the sample execution. -/
def sampleHex : String := "0000000000000000000000000000000000000000000000000000000000000000"

def sampleName : FileName := .record sampleHex

theorem path_zeroDigest : path zeroDigest = sampleName := by decide

section Runs

variable {A : System tolerant → Prop} {cfg : Config (Op tolerant) Res (System tolerant)
  (Outcome tolerant)}

/-- The sample execution is started. -/
theorem Stage.started (hA : Lax A) (hs : A cfg.shared)
    (hstage : Stage g sampleName (some preparedRecord.file) cfg) :
    ∃ cfg', (gateMachine tolerant).Run A cfg cfg' ∧ A cfg'.shared ∧
      Stage g sampleName (some startedRecord.file) cfg' ∧
      Made (.launch (launchFrom preparedRecord) ⟨sampleName, startedRecord⟩) cfg cfg' := by
  have hid : (ticketFrom preparedRecord).executionID ≠ "" :=
    validDigest_ne_empty validDigest_zeroDigest
  have hsecret : (ticketFrom preparedRecord).secret ≠ "" := by decide
  have hpath : path (ticketFrom preparedRecord).executionID = sampleName := path_zeroDigest
  rw [← hpath] at hstage ⊢
  exact Stage.start (W := calm 200 (by decide)) hA hs calm_starts hstage hid hsecret
    readable_preparedRecord

theorem rehearse_opened (hA : Lax A) (hinit : A System.init) :
    ∃ cfg, (gateMachine tolerant).Run A (gateInit tolerant) cfg ∧ A cfg.shared ∧
      Stage 0 sampleName none cfg ∧ ∀ c, cfg.shared.calls c = none := by
  have hfirst : A (gateInit tolerant).shared := hinit
  obtain ⟨cfg, hrun, hs, hstage, hmade, -⟩ := run_open hA hfirst rfl
    (fun _ _ => ⟨rfl, rfl, rfl⟩) (⟨rfl, fun _ _ _ => rfl⟩ : Disk sampleName none _) .none
    (calm 200 (by decide)) "/" (by decide)
  refine ⟨cfg, hrun, hs, hstage, fun c => ?_⟩
  rw [hmade.calls]
  rfl

/-- The preparation of the sample execution. -/
def samplePrepare : Method :=
  .prepare samplePlan sampleFence 60000000000 (sampleAction "execution.prepare")

theorem rehearse_prepared (hA : Lax A) (hinit : A System.init) :
    ∃ cfg, (gateMachine tolerant).Run A (gateInit tolerant) cfg ∧ A cfg.shared ∧
      Stage 0 sampleName (some preparedRecord.file) cfg ∧ ∀ c, cfg.shared.calls c = none := by
  obtain ⟨cfg, hrun, hs, hstage, hidle⟩ := rehearse_opened hA hinit
  have hpath : path samplePrepared.executionID = sampleName := path_zeroDigest
  rw [← hpath] at hstage
  obtain ⟨cfg', _, hrun', hs', hstage', hmade⟩ := Stage.prepare (W := calm 200 (by decide)) hA hs
    calm_prepares hstage
  rw [calm_initial, hpath] at hstage'
  refine ⟨cfg', hrun.trans hrun', hs', hstage', fun c => ?_⟩
  rw [hmade.calls]
  exact hidle c

/-- The sample execution is marked as running. -/
theorem Stage.running (hA : Lax A) (hs : A cfg.shared)
    (hstage : Stage g sampleName (some startedRecord.file) cfg) :
    ∃ cfg' r, (gateMachine tolerant).Run A cfg cfg' ∧ A cfg'.shared ∧
      Stage g sampleName (some runningRecord.file) cfg' ∧ Made r cfg cfg' := by
  have hpath : path (launchFrom preparedRecord).executionID = sampleName := path_zeroDigest
  rw [← hpath] at hstage ⊢
  exact Stage.markRunning (launchFrom preparedRecord) hA hs hstage readable_startedRecord rfl rfl
    rfl (calm 200 (by decide))

end Runs

end TosAi.CommerceGate
