/-
  The discipline of the Gate: what one call may change, what is invariant, and
  what a call can count on while others run.

  THE CENTRAL NOTION IS `Holds`: a call holds the records if its Gate owns the
  directory and it holds the Gate's mutex (or is the `Open` that just acquired the
  directory).  In a quiet run at most one call holds them, and only a call that
  holds them changes a record.  `Quiet` is the one assumption on runs: while a
  `Close` of a Gate is in flight no other call on that Gate is.

  Tokens record who started an execution and who submitted an effect.  A token is
  set once, by a call that holds the records, and everything a power loss may
  leave under the record's name then shows what the token stands for.
-/
import TosAi.Foundation.Rely
import TosAi.CommerceGate.Lineage
import TosAi.CommerceGate.System

set_option autoImplicit false

namespace TosAi.CommerceGate

open Foundation

variable {C : Commerce}

/-! ## Quiet runs -/

/-- A `Close` in flight is the only call on its Gate. -/
def Quiet (s : System C) : Prop :=
  ∀ c g, s.calls c = some (g, .close) → ∀ d m, s.calls d = some (g, m) → d = c

/-- No `Close` is in flight. -/
def NoClose (s : System C) : Prop := ∀ c g, s.calls c ≠ some (g, .close)

variable {s s' : System C} {c d g : Nat} {m : Method} {fs' : Fs FileName}

theorem NoClose.quiet (h : NoClose s) : Quiet s :=
  fun c g hc => absurd hc (h c g)

/-- The call is the one that may change records. -/
def Holds (c : Nat) (s : System C) : Prop :=
  ∃ g m, s.calls c = some (g, m) ∧ s.owner = some g ∧ (s.mu g = some c ∨ g = c)

/-- The names only a call that holds the records may touch. -/
def FileName.isGuarded : FileName → Bool
  | .record _ | .invalid | .gateTemp _ => true
  | _ => false

theorem isGuarded_of_isRecord {n : FileName} (h : n.isRecord = true) : n.isGuarded = true := by
  cases n <;> simp_all [FileName.isRecord, FileName.isGuarded]

/-! ## What one call may do -/

/-- The effects whose tokens a call has. -/
def Mine (c : Nat) (n : FileName) (s : System C) (id : String) : Prop :=
  s.tokens n (.effect id) = some c

/-- The changes call `c` may make. -/
structure Act (c : Nat) (s s' : System C) : Prop where
  calls : ∀ d, d ≠ c → s'.calls d = s.calls d
  owner : s'.owner = s.owner ∨ s.owner = none ∨
    ∃ g m, s.calls c = some (g, m) ∧ (m = .close ∨ g = c) ∧ s.owner = some g
  mutex : ∀ g, s'.mu g = s.mu g ∨ (s.mu g = none ∧ s'.mu g = some c) ∨
    (s.mu g = some c ∧ s'.mu g = none)
  lock : ∀ g, s'.lock g = s.lock g ∨ ∃ m, s.calls c = some (g, m) ∧ (s'.lock g = true → g = c)
  guarded : ∀ n, n.isGuarded = true → s'.fs.slot n = s.fs.slot n ∨
    s'.fs.slot n = (s.fs.slot n).settle ∨ Holds c s
  records : ∀ n, n.isRecord = true → SlotMoves C n (Mine c n s) (s.fs.slot n) (s'.fs.slot n)
  tokens : ∀ n t, s'.tokens n t = s.tokens n t ∨
    (Holds c s ∧ s.tokens n t = none ∧ s'.tokens n t = some c)
  entered : s'.entered = s.entered ∨ ∃ x : Entered, x.call = c ∧ s'.entered = s.entered ++ [x]
  losses : s'.losses = s.losses

theorem Act.refl (c : Nat) (s : System C) : Act c s s where
  calls := fun _ _ => rfl
  owner := .inl rfl
  mutex := fun _ => .inl rfl
  lock := fun _ => .inl rfl
  guarded := fun _ _ => .inl rfl
  records := fun _ _ => .refl _
  tokens := fun _ _ => .inl rfl
  entered := .inl rfl
  losses := rfl

/-! ## What returned values are like -/

/-- The record was written over a readable one with the same effects. -/
def Rewritten (C : Commerce) (w : Written) : Prop :=
  WF C w.name w.entry ∧ ∃ e, Readable e ∧ w.entry.effects = e.effects

/-- The record was written over a readable one by making one effect terminal. -/
def Terminalized (C : Commerce) (response : HTTPSResponse) (w : Written) : Prop :=
  WF C w.name w.entry ∧ response.statusCode < 1000 ∧ ∃ e id prior, Readable e ∧
    e.effects[id]? = some prior ∧ w.entry = e.terminalize id prior response

/-- The evidence and the assertion were made from readable records, the second
one a later one if the file was rewritten in between. -/
def Snapshots (a : Artifacts C) : Prop :=
  ∃ e e' executionID observedAt request d₁ d₂ d₃ d₄ observedAt', Readable e ∧ Readable e' ∧
    a.evidence = outcomeEvidence executionID observedAt e ∧
    a.assertion = gateObservation request e' d₁ d₂ d₃ d₄ observedAt' ∧
    C.digest "tos.ai.execution-gate-evidence.v1" (.evidence a.evidence) = .ok d₄ ∧
    ((a.exportVersion = a.assertionVersion ∧ e' = e) ∨
      (a.exportVersion < a.assertionVersion ∧ e.stateRevision.toNat < e'.stateRevision.toNat))

/-- What is known of a returned value by itself. -/
def Fine (C : Commerce) : Outcome C → Prop
  | .ok (.ticket _ (some w)) => WF C w.name w.entry ∧ w.entry.effects = ∅
  | .ok (.launch _ w) => Rewritten C w
  | .ok (.done w) => Rewritten C w
  | .ok (.response response (some w)) => Terminalized C response w
  | .ok (.artifacts a) => Snapshots a
  | _ => True

/-! ## The invariant -/

/-- What an entry into `performPinnedHTTPS` was based on. -/
structure FairEntry (tokens : FileName → Token → Option Nat) (x : Entered) : Prop where
  token : tokens x.entry.name (.effect x.entry.effectID) = some x.call
  running : x.entry.admitted.state = .running
  path : CommerceGate.path x.entry.admitted.plan.executionID = x.entry.name
  durable : ∀ o ∈ x.durable, Holding (SubmittedBy x.entry.effectID x.entry.action) o

structure Inv (s : System C) : Prop where
  fresh : ∀ c, s.calls c ≠ none → c < s.next
  spent : ∀ c out, (c, out) ∈ s.returned → c < s.next ∧ s.calls c = none
  opening : ∀ c g m, s.calls c = some (g, m) →
    (match m with
      | .openGate _ _ => g = c
      | _ => s.published g = true)
  published : ∀ g, s.published g = true → s.calls g = none ∧ g < s.next
  mutex : ∀ g c, s.mu g = some c → g ≠ c ∧ ∃ m, s.calls c = some (g, m)
  lock : ∀ g, s.published g = true → s.lock g = true →
    (∀ c, s.calls c ≠ some (g, .close)) → s.owner = some g
  sane : ∀ n, n.isRecord = true → ∀ o ∈ s.fs.outcomes n, Sane C n o
  startToken : ∀ n c, s.tokens n .start = some c → n.isRecord = true ∧ c < s.next ∧
    ∀ o ∈ s.fs.outcomes n, Holding Started o
  effectToken : ∀ n id c, s.tokens n (.effect id) = some c → n.isRecord = true ∧ c < s.next ∧
    ∀ o ∈ s.fs.outcomes n, Holding (HasEffect id) o
  launched : ∀ c l w, (c, .ok (.launch l w)) ∈ s.returned →
    s.tokens (CommerceGate.path l.executionID) .start = some c
  once : (s.returned.map Prod.fst).Nodup
  fine : ∀ c out, (c, out) ∈ s.returned → Fine C out
  entered : ∀ x ∈ s.entered, FairEntry s.tokens x ∧ x.call < s.next
  enteredOnce : (s.entered.map fun x => (x.entry.name, x.entry.effectID)).Nodup

/-- The record a call wrote last, if it wrote one. -/
def Outcome.written? : Outcome C → Option Written
  | .ok (.ticket _ written) | .ok (.response _ written) => written
  | .ok (.launch _ written) | .ok (.done written) => some written
  | _ => none

/-- The record is all a power loss can leave under its name. -/
def Written.OnDisk (w : Written) (s : System C) : Prop :=
  s.fs.outcomes w.name = [some w.entry.file]

/-- What holds when a call returns. -/
structure Post (c : Nat) (out : Outcome C) (s : System C) : Prop where
  live : s.calls c ≠ none
  released : ∀ g, s.mu g ≠ some c
  launch : ∀ l w, out = .ok (.launch l w) →
    s.tokens (path l.executionID) .start = some c
  opened : out = .ok .opened →
    (∃ m, s.calls c = some (c, m) ∧ m ≠ .close) ∧ s.owner = some c ∧ s.lock c = true
  closed : ∀ g, s.calls c = some (g, .close) → s.lock g = false
  fine : Fine C out

/-- The discipline of the Gate.  Where a call comes to its value, what it wrote is still there;
when it returns another call may have gone on from that. -/
def gateDiscipline (C : Commerce) : Discipline (gateMachine C) where
  assumes := Quiet
  inv := Inv
  act := Act
  post := fun c out s => Post c out s ∧ ∀ w, out.written? = some w → w.OnDisk s

theorem inv_init : Inv (System.init : System C) where
  fresh := fun _ h => absurd rfl h
  spent := fun _ _ h => nomatch h
  opening := fun _ _ _ h => nomatch h
  published := fun _ h => nomatch h
  mutex := fun _ _ h => nomatch h
  lock := fun _ h => nomatch h
  sane := by
    intro n _ o ho
    have hnone : o = none := List.mem_singleton.mp ho
    exact .inl (.inl hnone)
  startToken := fun _ _ h => nomatch h
  effectToken := fun _ _ _ h => nomatch h
  launched := fun _ _ _ h => nomatch h
  once := List.nodup_nil
  fine := fun _ _ h => nomatch h
  entered := fun _ h => nomatch h
  enteredOnce := List.nodup_nil

/-! ## One call holds the records -/

/-- A call on a Gate whose `Open` is in flight is that `Open`. -/
theorem Inv.open_alone (hinv : Inv s) {m' : Method} (hd : s.calls d = some (d, m'))
    (hc : s.calls c = some (d, m)) : c = d := by
  have hopening := hinv.opening c d m hc
  cases m with
  | openGate => exact hopening.symm
  | _ =>
    rw [(hinv.published d hopening).1] at hd
    cases hd

theorem Inv.holds_unique (hinv : Inv s) (hc : Holds c s) (hd : Holds d s) : c = d := by
  obtain ⟨g, m, hcallc, hownc, hmuc⟩ := hc
  obtain ⟨g', m', hcalld, hownd, hmud⟩ := hd
  obtain rfl : g = g' := Option.some.inj (hownc.symm.trans hownd)
  rcases hmuc with hmuc | rfl
  · rcases hmud with hmud | rfl
    · exact Option.some.inj (hmuc.symm.trans hmud)
    · exact hinv.open_alone hcalld hcallc
  · exact (hinv.open_alone hcallc hcalld).symm

/-! ## What a call can count on -/

/-- What the others leave to call `c`. -/
structure Frame (c : Nat) (s s' : System C) : Prop where
  calls : s'.calls c = s.calls c
  owner : ∀ {g m}, s.calls c = some (g, m) → m ≠ .close → s.owner = some g → s'.owner = some g
  mutex : ∀ {g}, s.mu g = some c → s'.mu g = some c
  unlocked : (∀ g, s.mu g ≠ some c) → ∀ g, s'.mu g ≠ some c
  lockKept : ∀ {m}, s.calls c = some (c, m) → s'.lock c = s.lock c
  lockClear : ∀ {g m}, s.calls c = some (g, m) → s.lock g = false → s'.lock g = false
  guarded : Holds c s → ∀ n, n.isGuarded = true →
    s'.fs.slot n = s.fs.slot n ∨ s'.fs.slot n = (s.fs.slot n).settle
  records : ∀ n, n.isRecord = true →
    SlotMoves C n (fun id => s.tokens n (.effect id) ≠ some c) (s.fs.slot n) (s'.fs.slot n)
  tokens : ∀ {n t d}, s.tokens n t = some d → s'.tokens n t = some d
  held : Holds c s → s'.tokens = s.tokens
  entered : ∀ x ∈ s'.entered, x.call = c → x ∈ s.entered

theorem frame_of_act (hquiet : Quiet s) (hinv : Inv s) (hne : d ≠ c) (hact : Act d s s') :
    Frame c s s' where
  calls := hact.calls c (Ne.symm hne)
  owner := by
    intro g m hcall hclose howner
    rcases hact.owner with hsame | hnone | ⟨g', m', hcalld, hwhy, howner'⟩
    · rw [hsame, howner]
    · rw [hnone] at howner
      cases howner
    · obtain rfl : g = g' := Option.some.inj (howner.symm.trans howner')
      rcases hwhy with rfl | rfl
      · exact absurd (hquiet d g hcalld c m hcall).symm hne
      · exact absurd (hinv.open_alone hcalld hcall).symm hne
  mutex := by
    intro g hmu
    rcases hact.mutex g with hsame | ⟨hnone, _⟩ | ⟨hmine, _⟩
    · rw [hsame, hmu]
    · rw [hnone] at hmu
      cases hmu
    · rw [hmine] at hmu
      exact absurd (Option.some.inj hmu) hne
  unlocked := by
    intro hfree g hmu
    rcases hact.mutex g with hsame | ⟨_, htaken⟩ | ⟨_, hnone⟩
    · exact hfree g (hsame ▸ hmu)
    · exact hne (Option.some.inj (htaken.symm.trans hmu))
    · rw [hnone] at hmu
      cases hmu
  lockKept := by
    intro m hcall
    rcases hact.lock c with hsame | ⟨m', hcalld, _⟩
    · exact hsame
    · exact absurd (hinv.open_alone hcall hcalld) hne
  lockClear := by
    intro g m hcall hlock
    rcases hact.lock g with hsame | ⟨m', hcalld, hopen⟩
    · rw [hsame, hlock]
    · cases hlock' : s'.lock g with
      | false => rfl
      | true =>
        obtain rfl := hopen hlock'
        exact absurd (hinv.open_alone hcalld hcall).symm hne
  guarded := by
    intro hholds n hn
    rcases hact.guarded n hn with hsame | hsettle | hd
    · exact .inl hsame
    · exact .inr hsettle
    · exact absurd (hinv.holds_unique hd hholds) hne
  records := by
    intro n hn
    have hothers : ∀ id, Mine d n s id → s.tokens n (.effect id) ≠ some c :=
      fun id hmine hc => hne (Option.some.inj (hmine.symm.trans hc))
    exact (hact.records n hn).mono hothers
  tokens := by
    intro n t e htoken
    rcases hact.tokens n t with hsame | ⟨_, hnone, _⟩
    · rw [hsame, htoken]
    · rw [hnone] at htoken
      cases htoken
  held := by
    intro hholds
    funext n t
    rcases hact.tokens n t with hsame | ⟨hd, _⟩
    · exact hsame
    · exact absurd (hinv.holds_unique hd hholds) hne
  entered := by
    intro x hx hcall
    rcases hact.entered with hsame | ⟨y, hy, happend⟩
    · rwa [hsame] at hx
    · rw [happend, List.mem_append, List.mem_singleton] at hx
      rcases hx with hx | rfl
      · exact hx
      · exact absurd (hy.symm.trans hcall) hne

theorem gateOf_eq (h : s.calls c = some (g, m)) :
    s.gateOf c = g := by
  simp [System.gateOf, h]

theorem frame_of_kill (hinv : Inv s) (hlives : ¬ ((s.calls c).isSome ∧ s.gateOf c = g)) :
    Frame c s (s.kill g) := by
  have hother : ∀ {g' m}, s.calls c = some (g', m) → g' ≠ g := by
    rintro g' m hcall rfl
    exact hlives ⟨by simp [hcall], gateOf_eq hcall⟩
  refine
    { calls := ?_
      owner := ?_
      mutex := ?_
      unlocked := ?_
      lockKept := ?_
      lockClear := ?_
      guarded := fun _ _ _ => .inl rfl
      records := fun _ _ => .refl _
      tokens := fun h => h
      held := fun _ => rfl
      entered := fun _ hx _ => hx }
  · cases hcall : s.calls c with
    | none => simp [System.kill, hcall]
    | some call => simp [System.kill, gateOf_eq hcall, hother hcall, hcall]
  · intro g' m hcall _ howner
    simp [System.kill, howner, hother hcall]
  · intro g' hmu
    obtain ⟨_, m, hcall⟩ := hinv.mutex g' c hmu
    simp [System.kill, hother hcall, hmu]
  · intro hfree g' hmu
    by_cases hg : g' = g
    · simp [System.kill, hg] at hmu
    · simp only [System.kill, Function.update_of_ne hg] at hmu
      exact hfree g' hmu
  · intro m hcall
    simp [System.kill, hother hcall]
  · intro g' m _ hlock
    by_cases hg : g' = g
    · simp [System.kill, hg]
    · simp [System.kill, hg, hlock]

/-- **What a call can count on.**  Whatever the others do between two of its
operations, they leave it its frame. -/
theorem frame_of_interferes (h : (gateDiscipline C).Interferes c s s') : Frame c s s' := by
  obtain ⟨⟨hquiet, hinv⟩, -, ⟨d, hne, hact⟩ | ⟨dead, hlives, henv⟩⟩ := h
  · exact frame_of_act hquiet hinv hne hact
  · cases henv with
    | kill g => exact frame_of_kill hinv hlives
    | powerLoss found hfound => exact absurd trivial hlives

theorem stable_of_frame {P : System C → Prop}
    (h : ∀ s s', Inv s → Inv s' → Frame c s s' → P s → P s') : (gateDiscipline C).Stable c P :=
  fun s s' hinterferes hP =>
    h s s' hinterferes.1.2 hinterferes.2.1.2 (frame_of_interferes hinterferes) hP

theorem stays_post {out : Outcome C} : (gateDiscipline C).Stable c (Post c out) :=
  stable_of_frame fun s s' _ _ hframe hs =>
    { live := hframe.calls ▸ hs.live
      released := hframe.unlocked hs.released
      launch := fun l w h => hframe.tokens (hs.launch l w h)
      opened := fun h => by
        obtain ⟨⟨m, hcall, hm⟩, howner, hlock⟩ := hs.opened h
        exact ⟨⟨m, hframe.calls.trans hcall, hm⟩, hframe.owner hcall hm howner,
          (hframe.lockKept hcall).trans hlock⟩
      closed := fun g hcall =>
        have hcall := hframe.calls ▸ hcall
        hframe.lockClear hcall (hs.closed g hcall)
      fine := hs.fine }

/-! ## Steps that keep the invariant -/

/-- The invariant does not look at the file system but for what a power loss may
leave under the records' names. -/
theorem Inv.with_fs (hinv : Inv s) (houtcomes : ∀ n, n.isRecord = true → ∀ (P : Option File → Prop),
      (∀ {mine : String → Prop} {o o' : Option File}, Evo C n mine o o' → P o → P o') →
      (∀ o ∈ s.fs.outcomes n, P o) → ∀ o ∈ fs'.outcomes n, P o) :
    Inv { s with fs := fs' } where
  fresh := hinv.fresh
  spent := hinv.spent
  opening := hinv.opening
  published := hinv.published
  mutex := hinv.mutex
  lock := hinv.lock
  sane := fun n hn =>
    houtcomes n hn (Sane C n) (fun hevo hsane => hevo.sane hsane) (hinv.sane n hn)
  startToken := by
    intro n c htoken
    obtain ⟨hn, hlt, hall⟩ := hinv.startToken n c htoken
    exact ⟨hn, hlt, houtcomes n hn _
      (fun hevo hstarted => Holding.evo (fun h => h.started) hstarted hevo) hall⟩
  effectToken := by
    intro n id c htoken
    obtain ⟨hn, hlt, hall⟩ := hinv.effectToken n id c htoken
    exact ⟨hn, hlt, houtcomes n hn _
      (fun hevo hhas => Holding.evo (fun h => h.hasEffect) hhas hevo) hall⟩
  launched := hinv.launched
  once := hinv.once
  fine := hinv.fine
  entered := hinv.entered
  enteredOnce := hinv.enteredOnce

/-- A file operation of call `c` that moves records only as records move, and
touches guarded names only if the call holds the records. -/
theorem file_step (hinv : Inv s) (hguarded : ∀ n, n.isGuarded = true → fs'.slot n = s.fs.slot n ∨
      fs'.slot n = (s.fs.slot n).settle ∨ Holds c s)
    (hrecords : ∀ n, n.isRecord = true → SlotMoves C n (Mine c n s) (s.fs.slot n) (fs'.slot n)) :
    Inv { s with fs := fs' } ∧ Act c s { s with fs := fs' } := by
  refine ⟨hinv.with_fs fun n hn P hkeeps hall => ?_, ?_⟩
  · exact (hrecords n hn).all_outcomes (fun hevo => hkeeps hevo) hall
  · exact
      { Act.refl c s with
        guarded := hguarded
        records := hrecords }

/-- A file operation that does not touch guarded names at all, or only settles
them. -/
theorem file_step_unguarded (hinv : Inv s)
    (hguarded : ∀ n, n.isGuarded = true → fs'.slot n = s.fs.slot n ∨
      fs'.slot n = (s.fs.slot n).settle) :
    Inv { s with fs := fs' } ∧ Act c s { s with fs := fs' } := by
  refine file_step hinv (fun n hn => (hguarded n hn).imp id .inl) fun n hn => ?_
  rcases hguarded n (isGuarded_of_isRecord hn) with hsame | hsettle
  · rw [hsame]
    exact .refl _
  · rw [hsettle]
    exact .settle

theorem inv_kill (hinv : Inv s) (g : Nat) : Inv (s.kill g) := by
  have hcalls : ∀ {c call}, (s.kill g).calls c = some call → s.calls c = some call ∧
      call.1 ≠ g := by
    intro c call hcall
    simp only [System.kill] at hcall
    split at hcall
    · cases hcall
    · rename_i hg
      exact ⟨hcall, fun h => hg (by rw [gateOf_eq hcall, h])⟩
  have hpublished : ∀ {g'}, (s.kill g).published g' = true → g' ≠ g ∧ s.published g' = true := by
    intro g' hpub
    by_cases hg : g' = g
    · simp [System.kill, hg] at hpub
    · simp only [System.kill, Function.update_of_ne hg] at hpub
      exact ⟨hg, hpub⟩
  have hnone : ∀ {c}, s.calls c = none → (s.kill g).calls c = none := by
    intro c hcall
    simp [System.kill, hcall]
  refine
    { fresh := ?_
      spent := fun c out h => ⟨(hinv.spent c out h).1, hnone (hinv.spent c out h).2⟩
      opening := ?_
      published := fun g' h => ⟨hnone (hinv.published g' (hpublished h).2).1,
        (hinv.published g' (hpublished h).2).2⟩
      mutex := ?_
      lock := ?_
      sane := hinv.sane
      startToken := hinv.startToken
      effectToken := hinv.effectToken
      launched := hinv.launched
      once := hinv.once
      fine := hinv.fine
      entered := hinv.entered
      enteredOnce := hinv.enteredOnce }
  · intro c hcall
    obtain ⟨call, hcall⟩ := Option.ne_none_iff_exists'.mp hcall
    exact hinv.fresh c (by rw [(hcalls hcall).1]; simp)
  · intro c g' m hcall
    obtain ⟨hcall, hg⟩ := hcalls hcall
    have hopening := hinv.opening c g' m hcall
    cases m with
    | openGate => exact hopening
    | _ => simpa only [System.kill, Function.update_of_ne hg] using hopening
  · intro g' c hmu
    by_cases hg : g' = g
    · simp [System.kill, hg] at hmu
    · simp only [System.kill, Function.update_of_ne hg] at hmu
      obtain ⟨hne, m, hcall⟩ := hinv.mutex g' c hmu
      exact ⟨hne, m, by simp [System.kill, gateOf_eq hcall, hg, hcall]⟩
  · intro g' hpub hlock hclose
    obtain ⟨hg, hpub⟩ := hpublished hpub
    simp only [System.kill, Function.update_of_ne hg] at hlock
    have howner := hinv.lock g' hpub hlock fun c hcall => hclose c (by
      simp [System.kill, gateOf_eq hcall, hg, hcall])
    simp [System.kill, howner, hg]

theorem inv_powerLoss (hinv : Inv s) (found : FileName → Option File)
    (hfound : ∀ n, found n ∈ s.fs.outcomes n) : Inv (s.powerLoss found hfound) := by
  have hreboot : Inv { s with fs := s.fs.reboot found hfound } :=
    hinv.with_fs fun n hn P hkeeps hall o ho => by
      simp only [Fs.outcomes, Fs.reboot_slot, Slot.outcomes_reboot, List.mem_singleton] at ho
      exact ho ▸ hall _ (hfound n)
  exact
    { fresh := fun _ h => absurd rfl h
      spent := fun c out h => ⟨(hinv.spent c out h).1, rfl⟩
      opening := fun _ _ _ h => by cases h
      published := fun _ h => by cases h
      mutex := fun _ _ h => by cases h
      lock := fun _ h => by cases h
      sane := hreboot.sane
      startToken := hreboot.startToken
      effectToken := hreboot.effectToken
      launched := hinv.launched
      once := hinv.once
      fine := hinv.fine
      entered := hinv.entered
      enteredOnce := hinv.enteredOnce }

theorem inv_env {dead : Nat → Prop} (henv : System.Env dead s s') (hinv : Inv s) : Inv s' := by
  cases henv with
  | kill g => exact inv_kill hinv g
  | powerLoss found hfound => exact inv_powerLoss hinv found hfound

/-- A call begins under a number that was never used. -/
theorem inv_start (hinv : Inv s)
    (hgate : match m with | .openGate _ _ => g = s.next | _ => s.published g = true) :
    Inv { s with calls := Function.update s.calls s.next (some (g, m)), next := s.next + 1 } ∧
      Act s.next s
        { s with calls := Function.update s.calls s.next (some (g, m)), next := s.next + 1 } := by
  have hold : ∀ {d}, d ≠ s.next → Function.update s.calls s.next (some (g, m)) d = s.calls d :=
    fun hd => Function.update_of_ne hd _ _
  have hlive : ∀ {d call}, s.calls d = some call → d ≠ s.next := by
    rintro d call hcall rfl
    exact Nat.lt_irrefl _ (hinv.fresh _ (by rw [hcall]; simp))
  refine ⟨?_, { Act.refl s.next s with calls := fun d hd => hold hd }⟩
  refine
    { fresh := ?_
      spent := ?_
      opening := ?_
      published := ?_
      mutex := ?_
      lock := ?_
      sane := hinv.sane
      startToken := fun n c h => ⟨(hinv.startToken n c h).1,
        Nat.lt_succ_of_lt (hinv.startToken n c h).2.1, (hinv.startToken n c h).2.2⟩
      effectToken := fun n id c h => ⟨(hinv.effectToken n id c h).1,
        Nat.lt_succ_of_lt (hinv.effectToken n id c h).2.1, (hinv.effectToken n id c h).2.2⟩
      launched := hinv.launched
      once := hinv.once
      fine := hinv.fine
      entered := fun x hx => ⟨(hinv.entered x hx).1, Nat.lt_succ_of_lt (hinv.entered x hx).2⟩
      enteredOnce := hinv.enteredOnce }
  · intro d hd
    by_cases hnew : d = s.next
    · exact hnew ▸ Nat.lt_succ_self _
    · exact Nat.lt_succ_of_lt (hinv.fresh d (by rwa [← hold hnew]))
  · intro d out hmem
    obtain ⟨hlt, hnone⟩ := hinv.spent d out hmem
    exact ⟨Nat.lt_succ_of_lt hlt, (hold (Nat.ne_of_lt hlt)).trans hnone⟩
  · intro d g' m' hcall
    by_cases hnew : d = s.next
    · subst hnew
      simp only [Function.update_self, Option.some.injEq, Prod.mk.injEq] at hcall
      obtain ⟨rfl, rfl⟩ := hcall
      exact hgate
    · exact hinv.opening d g' m' ((hold hnew).symm.trans hcall)
  · intro g' hpub
    obtain ⟨hnone, hlt⟩ := hinv.published g' hpub
    exact ⟨(hold (Nat.ne_of_lt hlt)).trans hnone, Nat.lt_succ_of_lt hlt⟩
  · intro g' d hmu
    obtain ⟨hne, m', hcall⟩ := hinv.mutex g' d hmu
    exact ⟨hne, m', (hold (hlive hcall)).trans hcall⟩
  · intro g' hpub hlock hclose
    exact hinv.lock g' hpub hlock fun d hcall =>
      hclose d ((hold (hlive hcall)).trans hcall)

/-- A call returns. -/
theorem inv_finish (hinv : Inv s) {out : Outcome C} (hpost : Post c out s) :
    Inv (System.finish c out s) ∧ Act c s (System.finish c out s) := by
  have hold : ∀ {d}, d ≠ c → (System.finish c out s).calls d = s.calls d :=
    fun hd => Function.update_of_ne hd _ _
  have hself : (System.finish c out s).calls c = none := by simp [System.finish]
  have hnone : ∀ {d}, s.calls d = none → (System.finish c out s).calls d = none := by
    intro d hd
    by_cases hdc : d = c
    · rw [hdc, hself]
    · rw [hold hdc, hd]
  have hsome : ∀ {d call}, (System.finish c out s).calls d = some call →
      d ≠ c ∧ s.calls d = some call := by
    intro d call hd
    have hdc : d ≠ c := by
      rintro rfl
      rw [hself] at hd
      cases hd
    exact ⟨hdc, (hold hdc) ▸ hd⟩
  have hpublished : ∀ {g}, (System.finish c out s).published g = true →
      (g = c ∧ out = .ok .opened) ∨ s.published g = true := by
    intro g hg
    by_cases hopened : out = .ok .opened
    · subst hopened
      by_cases hgc : g = c
      · exact .inl ⟨hgc, rfl⟩
      · exact .inr (by simpa [System.finish, hgc] using hg)
    · exact .inr (by simpa only [System.finish, hopened] using hg)
  have hmono : ∀ {g}, s.published g = true → (System.finish c out s).published g = true := by
    intro g hg
    simp only [System.finish]
    split
    · by_cases hgc : g = c
      · simp [hgc]
      · simp [hgc, hg]
    · exact hg
  have hlive := hinv.fresh c hpost.live
  refine ⟨?_, { Act.refl c s with calls := fun d hd => hold hd }⟩
  refine
    { fresh := ?_
      spent := ?_
      opening := ?_
      published := ?_
      mutex := ?_
      lock := ?_
      sane := hinv.sane
      startToken := hinv.startToken
      effectToken := hinv.effectToken
      launched := ?_
      once := ?_
      fine := ?_
      entered := hinv.entered
      enteredOnce := hinv.enteredOnce }
  · intro d hd
    obtain ⟨call, hd⟩ := Option.ne_none_iff_exists'.mp hd
    exact hinv.fresh d (by rw [(hsome hd).2]; simp)
  · intro d out' hmem
    rcases List.mem_append.mp hmem with hmem | hmem
    · exact ⟨(hinv.spent d out' hmem).1, hnone (hinv.spent d out' hmem).2⟩
    · obtain ⟨rfl, rfl⟩ := Prod.mk.inj (List.mem_singleton.mp hmem)
      exact ⟨hlive, hself⟩
  · intro d g m hd
    have hopening := hinv.opening d g m (hsome hd).2
    cases m with
    | openGate => exact hopening
    | _ => exact hmono hopening
  · intro g hg
    rcases hpublished hg with ⟨rfl, _⟩ | hg
    · exact ⟨hself, hlive⟩
    · exact ⟨hnone (hinv.published g hg).1, (hinv.published g hg).2⟩
  · intro g d hmu
    obtain ⟨hne, m, hcall⟩ := hinv.mutex g d hmu
    have hdc : d ≠ c := by
      rintro rfl
      exact hpost.released g hmu
    exact ⟨hne, m, (hold hdc).trans hcall⟩
  · intro g hg hlock hclose
    rcases hpublished hg with ⟨rfl, hopened⟩ | hg
    · exact (hpost.opened hopened).2.1
    · refine hinv.lock g hg hlock fun d hcall => ?_
      by_cases hdc : d = c
      · subst hdc
        exact absurd (hlock.symm.trans (hpost.closed g hcall)) (by simp)
      · exact hclose d ((hold hdc).trans hcall)
  · intro d l w hmem
    rcases List.mem_append.mp hmem with hmem | hmem
    · exact hinv.launched d l w hmem
    · obtain ⟨rfl, rfl⟩ := Prod.mk.inj (List.mem_singleton.mp hmem)
      exact hpost.launch l w rfl
  · show ((s.returned ++ [(c, out)]).map Prod.fst).Nodup
    rw [List.map_append, List.nodup_append]
    refine ⟨hinv.once, List.nodup_singleton _, ?_⟩
    rintro d hd d' hd' rfl
    obtain rfl : d = c := List.mem_singleton.mp hd'
    obtain ⟨⟨d', out'⟩, hmem, rfl⟩ := List.mem_map.mp hd
    exact hpost.live (hinv.spent _ out' hmem).2
  · intro d out' hmem
    rcases List.mem_append.mp hmem with hmem | hmem
    · exact hinv.fine d out' hmem
    · obtain ⟨rfl, rfl⟩ := Prod.mk.inj (List.mem_singleton.mp hmem)
      exact hpost.fine

end TosAi.CommerceGate
