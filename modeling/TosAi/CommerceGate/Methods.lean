/-
  Every method of the Gate keeps the discipline.

  Each method has one specification, proved from the rules for its parts and
  without a look at any other method.  `gate_sound` collects them; from there on
  everything about runs follows from the invariant and from what a call may do.
-/
import TosAi.CommerceGate.Rules

set_option autoImplicit false

namespace TosAi.CommerceGate

open Foundation Foundation.Discipline

variable {C : Commerce} {α : Type} {c g : Nat} {m : Method}
  {P : System C → Prop} {E : Err → System C → Prop}

/-! ## Sections under the mutex -/

/-- The call is in flight and holds no mutex. -/
def Idle (c g : Nat) (m : Method) (s : System C) : Prop :=
  s.calls c = some (g, m) ∧ ∀ g', s.mu g' ≠ some c

/-- The call is in flight and holds the mutex. -/
def Mutexed (c g : Nat) (m : Method) (s : System C) : Prop :=
  s.calls c = some (g, m) ∧ s.mu g = some c

/-- An assertion that survives the others while the call is in flight, and does
not look at mutexes. -/
structure Carried (c g : Nat) (m : Method) (P : System C → Prop) : Prop where
  stays : Stays c fun s => s.calls c = some (g, m) ∧ P s
  mutex : ∀ s mu', P s → P { s with mu := mu' }

theorem stays_calls : Stays c fun s : System C => s.calls c = some (g, m) :=
  stable_of_frame fun _ _ _ _ hframe hs => hframe.calls.trans hs

theorem stays_idle : Stays c (Idle (C := C) c g m) :=
  stable_of_frame fun _ _ _ _ hframe hs => ⟨hframe.calls.trans hs.1, hframe.unlocked hs.2⟩

theorem stays_mutexed : Stays c (Mutexed (C := C) c g m) :=
  stable_of_frame fun _ _ _ _ hframe hs => ⟨hframe.calls.trans hs.1, hframe.mutex hs.2⟩

namespace Carried

variable {Q : System C → Prop}

theorem idle (hP : Carried c g m P) : Stays c fun s => Idle c g m s ∧ P s :=
  fun s s' h hs => ⟨stays_idle s s' h hs.1, (hP.stays s s' h ⟨hs.1.1, hs.2⟩).2⟩

theorem mutexed (hP : Carried c g m P) : Stays c fun s => Mutexed c g m s ∧ P s :=
  fun s s' h hs => ⟨stays_mutexed s s' h hs.1, (hP.stays s s' h ⟨hs.1.1, hs.2⟩).2⟩

theorem and (hP : Carried c g m P) (hQ : Carried c g m Q) :
    Carried c g m fun s => P s ∧ Q s where
  stays := fun s s' h hs =>
    ⟨(hP.stays s s' h ⟨hs.1, hs.2.1⟩).1, (hP.stays s s' h ⟨hs.1, hs.2.1⟩).2,
      (hQ.stays s s' h ⟨hs.1, hs.2.2⟩).2⟩
  mutex := fun s mu' hs => ⟨hP.mutex s mu' hs.1, hQ.mutex s mu' hs.2⟩

theorem const (p : Prop) : Carried (C := C) c g m fun _ => p where
  stays := Stays.and_const stays_calls
  mutex := fun _ _ h => h

theorem owner (hm : m ≠ .close) : Carried (C := C) c g m fun s => s.owner = some g where
  stays := stable_of_frame fun _ _ _ _ hframe hs =>
    ⟨hframe.calls.trans hs.1, hframe.owner hs.1 hm hs.2⟩
  mutex := fun _ _ h => h

theorem token (n : FileName) (t : Token) (d : Nat) :
    Carried (C := C) c g m fun s => s.tokens n t = some d where
  stays := stable_of_frame fun _ _ _ _ hframe hs => ⟨hframe.calls.trans hs.1, hframe.tokens hs.2⟩
  mutex := fun _ _ h => h

end Carried

/-- Taking or releasing a mutex touches nothing else. -/
theorem Inv.with_mutex {s : System C} (hinv : Inv s) {mu' : Nat → Option Nat}
    (h : ∀ g c, mu' g = some c → g ≠ c ∧ ∃ m, s.calls c = some (g, m)) :
    Inv { s with mu := mu' } where
  fresh := hinv.fresh
  spent := hinv.spent
  opening := hinv.opening
  published := hinv.published
  mutex := h
  lock := hinv.lock
  sane := hinv.sane
  startToken := hinv.startToken
  effectToken := hinv.effectToken
  launched := hinv.launched
  once := hinv.once
  fine := hinv.fine
  entered := hinv.entered
  enteredOnce := hinv.enteredOnce

theorem spec_lockMutex (hgc : g ≠ c) (hP : Carried c g m P) :
    Spec c (fun s => Idle c g m s ∧ P s) (perform .lockMutex)
      (fun _ s => Mutexed c g m s ∧ P s) E := by
  refine .perform hP.idle fun s _ s' _ hinv hs happly => ?_
  obtain ⟨⟨hcall, -⟩, hs⟩ := hs
  obtain ⟨hfree, rfl⟩ := happly
  rw [gateOf_eq hcall] at hfree ⊢
  refine ⟨hinv.with_mutex fun g' d hmu => ?_, ?_, ⟨hcall, by simp⟩, hP.mutex s _ hs⟩
  · by_cases hg : g' = g
    · subst hg
      obtain rfl : c = d := by simpa using hmu
      exact ⟨hgc, m, hcall⟩
    · exact hinv.mutex g' d (by simpa [hg] using hmu)
  · refine { Act.refl c s with mutex := fun g' => ?_ }
    by_cases hg : g' = g
    · subst hg
      exact .inr (.inl ⟨hfree, by simp⟩)
    · exact .inl (by simp [hg])

theorem spec_unlockMutex (hstays : Stays c fun s => Mutexed c g m s ∧ P s)
    (hmutex : ∀ s mu', P s → P { s with mu := mu' }) :
    Spec c (fun s => Mutexed c g m s ∧ P s) (perform .unlockMutex)
      (fun _ s => Idle c g m s ∧ P s) E := by
  refine .perform hstays fun s _ s' _ hinv hs happly => ?_
  obtain ⟨⟨hcall, hmu⟩, hs⟩ := hs
  obtain rfl := happly
  rw [gateOf_eq hcall]
  have hothers : ∀ {g' d}, Function.update s.mu g none g' = some d → g' ≠ g ∧ s.mu g' = some d := by
    intro g' d hmu'
    by_cases hg : g' = g
    · simp [hg] at hmu'
    · exact ⟨hg, by simpa [hg] using hmu'⟩
  refine ⟨hinv.with_mutex fun g' d hmu' => hinv.mutex g' d (hothers hmu').2, ?_,
    ⟨hcall, fun g' hmu' => ?_⟩, hmutex s _ hs⟩
  · refine { Act.refl c s with mutex := fun g' => ?_ }
    by_cases hg : g' = g
    · subst hg
      exact .inr (.inr ⟨hmu, by simp⟩)
    · exact .inl (by simp [hg])
  · obtain ⟨hg, hmu'⟩ := hothers hmu'
    obtain ⟨-, m', hcall'⟩ := hinv.mutex g' c hmu'
    exact hg (Prod.mk.inj (Option.some.inj (hcall'.symm.trans hcall))).1

/-- **A section under the mutex.**  What it establishes has to last until the mutex is
released. -/
theorem spec_locked (hgc : g ≠ c) {body : Gated C α} {P F : System C → Prop}
    {Q : α → System C → Prop} (hP : Carried c g m P)
    (hQ : ∀ a, Stays c fun s => Mutexed c g m s ∧ Q a s)
    (hmutex : ∀ a s mu', Q a s → Q a { s with mu := mu' }) (hF : Carried c g m F)
    (hbody : Spec c (fun s => Mutexed c g m s ∧ P s) body (fun a s => Mutexed c g m s ∧ Q a s)
      (fun _ s => Mutexed c g m s ∧ F s)) :
    Spec c (fun s => Idle c g m s ∧ P s) (locked body) (fun a s => Idle c g m s ∧ Q a s)
      (fun _ s => Idle c g m s ∧ F s) := by
  refine .bind (spec_lockMutex hgc hP) fun _ => .deferred hbody fun r => ?_
  cases r with
  | ok a => exact spec_unlockMutex (hQ a) (hmutex a)
  | error e => exact spec_unlockMutex hF.mutexed hF.mutex

/-! ## The lock of the directory -/

/-- A call that sees `gate.lock != nil` belongs to the Gate that owns the directory,
and keeps it. -/
theorem spec_lockHeld (hgc : g ≠ c) (hm : m ≠ .close) :
    Spec (C := C) c (Idle c g m) (perform .lockHeld)
      (fun held s => Idle c g m s ∧ (held = true → s.owner = some g)) E := by
  refine .perform stays_idle fun s held s' hquiet hinv hs happly => ?_
  obtain ⟨rfl, hheld⟩ := happly
  refine ⟨hinv, Act.refl c s', hs, fun htrue => ?_⟩
  have hlock : s'.lock g = true := by
    rw [← gateOf_eq hs.1, ← hheld]
    exact htrue
  have hpublished : s'.published g = true := by
    have hopening := hinv.opening c g m hs.1
    cases m with
    | openGate => exact absurd hopening hgc
    | _ => exact hopening
  refine hinv.lock g hpublished hlock fun d hclose => ?_
  obtain rfl := hquiet d g hclose c m hs.1
  exact hm (Prod.mk.inj (Option.some.inj (hs.1.symm.trans hclose))).2

/-- With the mutex, on the Gate that owns the directory. -/
def Held (c g : Nat) (m : Method) (s : System C) : Prop := Mutexed c g m s ∧ s.owner = some g

theorem holdLike_held (hm : m ≠ .close) : HoldLike (C := C) c (Held c g m) where
  stays := (Carried.owner hm).mutexed
  holds := fun _ hs => ⟨g, m, hs.1.1, hs.2, .inl hs.1.2⟩
  files := fun _ _ hs => hs

/-- An assertion that survives the others while the mutex of the owning Gate is held, and does
not look at mutexes. -/
structure Sheltered (c g : Nat) (m : Method) (P : System C → Prop) : Prop where
  stays : Stays c fun s => Held c g m s ∧ P s
  mutex : ∀ s mu', P s → P { s with mu := mu' }

theorem Sheltered.and {P Q : System C → Prop} (hP : Sheltered c g m P) (hQ : Sheltered c g m Q) :
    Sheltered c g m fun s => P s ∧ Q s where
  stays := fun s s' h hs =>
    have hP' := hP.stays s s' h ⟨hs.1, hs.2.1⟩
    ⟨hP'.1, hP'.2, (hQ.stays s s' h ⟨hs.1, hs.2.2⟩).2⟩
  mutex := fun s mu' hs => ⟨hP.mutex s mu' hs.1, hQ.mutex s mu' hs.2⟩

theorem Carried.sheltered (hm : m ≠ .close) (hP : Carried c g m P) :
    Sheltered c g m P where
  stays := fun s s' h hs =>
    ⟨(holdLike_held hm).stays s s' h hs.1, (hP.stays s s' h ⟨hs.1.1.1, hs.2⟩).2⟩
  mutex := hP.mutex

/-- Nobody writes a record over that of the call. -/
theorem sheltered_onDisk (hm : m ≠ .close) {w : Written} {p : Prop}
    (hp : p → WF C w.name w.entry) : Sheltered (C := C) c g m fun s => p ∧ w.OnDisk s where
  stays := fun s s' h ⟨hheld, hs, hdisk⟩ =>
    have hn : w.name.isRecord = true := (hp hs).path ▸ isRecord_path _
    have hs' := (holdLike_held hm).stays_durable hn w.entry s s' h ⟨hheld, hdisk⟩
    ⟨hs'.1, hs, hs'.2⟩
  mutex := fun _ _ hs => hs

/-- Tokens do not change under a call that holds the records. -/
theorem HoldLike.with_tokens {H : System C → Prop} (hH : HoldLike c H)
    (K : (FileName → Token → Option Nat) → Prop) : HoldLike c fun s => H s ∧ K s.tokens where
  stays := fun s s' h hs => by
    refine ⟨hH.stays s s' h hs.1, ?_⟩
    rw [(frame_of_interferes h).held (hH.holds s hs.1)]
    exact hs.2
  holds := fun s hs => hH.holds s hs.1
  files := fun s fs' hs => ⟨hH.files s fs' hs.1, hs.2⟩

/-- A method that checks `gate.lock` goes on as a call of the owning Gate. -/
theorem spec_owned (hgc : g ≠ c) (hm : m ≠ .close) {condition : Bool → Bool} {message : String}
    {next : Gated C α} {Q : α → System C → Prop}
    (hcondition : ∀ held, condition held = true → held = true)
    (hE : ∀ e s, Idle c g m s → E e s)
    (hnext : Spec c (fun s => Idle c g m s ∧ s.owner = some g) next Q E) :
    Spec c (Idle c g m)
      (do
        let held ← perform .lockHeld
        ensure (condition held) message
        next) Q E := by
  refine .bind (spec_lockHeld hgc hm) fun held => ?_
  refine .bind (.ensure fun e s hs => hE e s hs.1) fun _ => ?_
  exact hnext.pre fun s _ hs => ⟨hs.1.1, hs.1.2 (hcondition held hs.2)⟩

/-- A section under the mutex of the owning Gate. -/
theorem spec_held (hgc : g ≠ c) (hm : m ≠ .close) {body : Gated C α}
    {Q : α → System C → Prop} (hP : Carried c g m P) (hQ : ∀ a, Sheltered c g m (Q a))
    (hbody : Spec c (fun s => Held c g m s ∧ P s) body (fun a s => Held c g m s ∧ Q a s)
      (fun _ => Held c g m)) :
    Spec c (fun s => Idle c g m s ∧ s.owner = some g ∧ P s) (locked body)
      (fun a s => Idle c g m s ∧ s.owner = some g ∧ Q a s) (fun _ => Idle c g m) := by
  have howner := Carried.owner (C := C) (c := c) (g := g) hm
  refine (spec_locked hgc (howner.and hP) (fun a s s' h hs => ?_)
    (fun a s mu' hs => ⟨hs.1, (hQ a).mutex s mu' hs.2⟩) howner
    (hbody.conseq (fun s _ hs => ⟨⟨hs.1, hs.2.1⟩, hs.2.2⟩)
      (fun a s hs => ⟨hs.1.1, hs.1.2, hs.2⟩) fun _ _ hs => hs)).conseq (fun _ _ hs => hs)
      (fun _ _ hs => hs) fun _ _ hs => hs.1
  have hs' := (hQ a).stays s s' h ⟨⟨hs.1, hs.2.1⟩, hs.2.2⟩
  exact ⟨hs'.1.1, hs'.1.2, hs'.2⟩

/-- The same, where nothing more is known. -/
theorem spec_section (hgc : g ≠ c) (hm : m ≠ .close) {body : Gated C α}
    {Q : α → System C → Prop} (hQ : ∀ a, Sheltered c g m (Q a))
    (hbody : Spec c (Held c g m) body (fun a s => Held c g m s ∧ Q a s) (fun _ => Held c g m)) :
    Spec c (fun s => Idle c g m s ∧ s.owner = some g) (locked body)
      (fun a s => Idle c g m s ∧ s.owner = some g ∧ Q a s) (fun _ => Idle c g m) :=
  (spec_held hgc hm (.const True) hQ (hbody.pre fun _ _ hs => hs.1)).pre
    fun _ _ hs => ⟨hs.1, hs.2, trivial⟩

/-! ## MarkRunning and Complete -/

/-- **`transition`**, for a pair of states a record may take. -/
theorem spec_transition (hgc : g ≠ c) (hm : m ≠ .close) (launch : Launch) (expected next : State)
    (outcome : String)
    (hevolves : ∀ {e : Record} (mine : String → Prop), e.state = expected →
      Evolves C mine e (e.transition next outcome)) :
    Spec (C := C) c (Idle c g m) (transition launch expected next outcome)
      (fun w s => Idle c g m s ∧ Rewritten C w ∧ w.OnDisk s) (fun _ => Idle c g m) := by
  have hH := holdLike_held (C := C) (c := c) (g := g) hm
  have hn := isRecord_path launch.executionID
  refine spec_owned hgc hm (fun _ h => h) (fun _ _ h => h) ?_
  refine (spec_section hgc hm (Q := fun w s => Rewritten C w ∧ w.OnDisk s)
    (fun _ => sheltered_onDisk hm fun h => h.1) ?_).post fun _ _ hs => ⟨hs.1, hs.2.2⟩
  refine .bind (.attempt (hH.spec_readRecord hn)) fun r => ?_
  cases r with
  | error err => exact .throw fun s _ hs => hs.1
  | ok read =>
    obtain ⟨e, version⟩ := read
    refine .bind (.ensure fun _ _ hs => hs.1) fun _ => ?_
    refine .assume (e.state = expected ∧ Readable e ∧ WF C (path launch.executionID) e)
      (fun s _ hs => ?_) fun ⟨hstate, hreadable, hwf⟩ => ?_
    · obtain ⟨⟨-, hread⟩, hcondition⟩ := hs
      simp only [Bool.and_eq_true, beq_iff_eq] at hcondition
      exact ⟨hcondition.2, hread.readable, hread.wf⟩
    · refine .bind ((hH.spec_replaceRecord hn e _).pre
        fun s _ hs => ⟨hs.1.1, hs.1.2.now, hevolves _ hstate⟩)
        fun _ => ?_
      exact .pure fun s _ hs =>
        ⟨hs.1, ⟨(hevolves (fun _ => True) hstate).wf hwf, e, hreadable, rfl⟩, hs.2⟩

theorem spec_markRunning (hgc : g ≠ c) (hm : m ≠ .close) (launch : Launch) :
    Spec (C := C) c (Idle c g m) (markRunning launch)
      (fun w s => Idle c g m s ∧ Rewritten C w ∧ w.OnDisk s) (fun _ => Idle c g m) :=
  spec_transition hgc hm launch _ _ _ fun _ hstate => .running hstate

theorem spec_complete (hgc : g ≠ c) (hm : m ≠ .close) (launch : Launch) (terminal : State)
    (outcomeDigest : String) :
    Spec (C := C) c (Idle c g m) (complete launch terminal outcomeDigest)
      (fun w s => Idle c g m s ∧ Rewritten C w ∧ w.OnDisk s) (fun _ => Idle c g m) := by
  refine .bind (.ensure fun _ _ h => h) fun _ => ?_
  refine .assume (terminal ∈ [State.succeeded, .failed, .cancelled, .killed])
    (fun _ _ hs => of_decide_eq_true hs.2) fun hterminal => ?_
  refine .bind (.ensure fun _ _ hs => hs.1) fun _ => ?_
  exact (spec_transition hgc hm launch _ _ _ fun _ hstate =>
    .complete terminal outcomeDigest hstate hterminal).pre fun _ _ hs => hs.1.1

/-! ## Tokens -/

/-- What a token stands for. -/
def Shows : Token → Record → Prop
  | .start => Started
  | .effect id => HasEffect id

variable {n : FileName} {t : Token} {s : System C}

theorem claim_tokens {n' : FileName} {t' : Token} {d : Nat} (hfree : s.tokens n t = none)
    (h : (s.claim c n t).tokens n' t' = some d) :
    (n' = n ∧ t' = t ∧ d = c) ∨ s.tokens n' t' = some d := by
  simp only [System.claim, hfree, and_true] at h
  split at h
  · rename_i hsame
    exact .inl ⟨hsame.1, hsame.2, (Option.some.inj h).symm⟩
  · exact .inr h

theorem claim_tokens_old {n' : FileName} {t' : Token} {d : Nat} (h : s.tokens n' t' = some d) :
    (s.claim c n t).tokens n' t' = some d := by
  simp only [System.claim]
  split
  · rename_i hsame
    obtain ⟨rfl, rfl, hfree⟩ := hsame
    rw [hfree] at h
    cases h
  · exact h

theorem Inv.claim (hinv : Inv s) (hn : n.isRecord = true) (hlive : s.calls c ≠ none)
    (hfree : s.tokens n t = none) (hshows : ∀ o ∈ s.fs.outcomes n, Holding (Shows t) o) :
    Inv (s.claim c n t) where
  fresh := hinv.fresh
  spent := hinv.spent
  opening := hinv.opening
  published := hinv.published
  mutex := hinv.mutex
  lock := hinv.lock
  sane := hinv.sane
  startToken := by
    intro n' d htoken
    rcases claim_tokens hfree htoken with ⟨rfl, rfl, rfl⟩ | hold
    · exact ⟨hn, hinv.fresh d hlive, hshows⟩
    · exact hinv.startToken n' d hold
  effectToken := by
    intro n' id d htoken
    rcases claim_tokens hfree htoken with ⟨rfl, rfl, rfl⟩ | hold
    · exact ⟨hn, hinv.fresh d hlive, hshows⟩
    · exact hinv.effectToken n' id d hold
  launched := fun d l w hmem => claim_tokens_old (hinv.launched d l w hmem)
  once := hinv.once
  fine := hinv.fine
  entered := fun x hx =>
    ⟨{ (hinv.entered x hx).1 with token := claim_tokens_old (hinv.entered x hx).1.token },
      (hinv.entered x hx).2⟩
  enteredOnce := hinv.enteredOnce

/-- **Claiming a token** that is free, right after the record that shows it has
reached the disk. -/
theorem spec_claim {H : System C → Prop} (hH : HoldLike c H)
    (htokens : ∀ s tokens', H s → H { s with tokens := tokens' }) (hn : n.isRecord = true)
    {e : Record} (hshows : Shows t e) :
    Spec c (fun s => (H s ∧ s.tokens n t = none) ∧ s.fs.outcomes n = [some e.file])
      (perform (.claim n t))
      (fun _ s => (H s ∧ s.tokens n t = some c) ∧ s.fs.outcomes n = [some e.file]) E := by
  have hfree := hH.with_tokens fun tokens => tokens n t = none
  refine .perform (hfree.stays_durable hn e) fun s _ s' _ hinv hs happly => ?_
  obtain ⟨⟨hheld, hnone⟩, hdurable⟩ := hs
  obtain rfl := happly
  have hholds := hH.holds s hheld
  refine ⟨hinv.claim hn ?_ hnone ?_, ?_, ⟨htokens s _ hheld, ?_⟩, hdurable⟩
  · obtain ⟨g', m', hcall, -⟩ := hholds
    rw [hcall]
    exact Option.some_ne_none _
  · intro o ho
    rw [hdurable, List.mem_singleton] at ho
    exact ⟨e, ho, hshows⟩
  · refine { Act.refl c s with tokens := fun n' t' => ?_ }
    cases htoken : (s.claim c n t).tokens n' t' with
    | none =>
      cases hold : s.tokens n' t' with
      | none => exact .inl rfl
      | some d => exact absurd (htoken.symm.trans (claim_tokens_old hold)) (by simp)
    | some d =>
      rcases claim_tokens hnone htoken with ⟨rfl, rfl, rfl⟩ | hold
      · exact .inr ⟨hholds, hnone, rfl⟩
      · exact .inl hold.symm
  · simp [System.claim, hnone]

/-! ## Prepare and Start -/

/-- A checked action has well-formed digests. -/
theorem wellFormedAction_of_authorized {action : AuthorizedAction} {kind : String}
    {fields : List (String × SemanticValue)} {payload : Payload} {fence : WriterFence}
    {authority : C.Authority} {now : Time}
    (h : authorized C action kind fields payload fence authority now = true) :
    WellFormedAction C action := by
  unfold authorized at h
  split at h
  · cases h
  · rw [Bool.and_eq_true, Option.isNone_iff_eq_none] at h
    exact fun hlawful => hlawful.action h.2

theorem spec_checkFence (hP : Stays c P) (hE : ∀ e s, P s → E e s) (fence : WriterFence)
    (now : Time) (kind : String) : Spec c P (checkFence fence now kind) (fun _ => P) E := by
  refine .bind (.query (fun _ _ _ h => h) hP) fun _ => ?_
  refine .bind (.nilError hE) fun _ => ?_
  refine .bind (.query (fun _ _ _ h => h) hP) fun _ => ?_
  exact .nilError hE

theorem spec_openBoundFiles (hP : Stays c P) (hE : ∀ e s, P s → E e s) :
    ∀ files : List FileBinding, Spec c P (openBoundFiles files) (fun _ => P) E
  | [] => .pure fun _ _ h => h
  | binding :: rest => by
    refine .bind (R := fun _ => P) ?_ fun _ => spec_openBoundFiles hP hE rest
    refine .bind (.query (fun _ _ _ h => h) hP) fun view => ?_
    cases view with
    | none => exact .throw fun s _ hs => hE _ s hs
    | some view =>
      refine .bind (.ensure hE) fun _ => ?_
      refine .bind (.ensure fun e s hs => hE e s hs.1) fun _ => ?_
      exact (Spec.succeed fun e s hs => hE e s hs.1.1).post fun _ _ hs => hs.1.1.1

/-- What `Start` has checked of the record. -/
theorem spec_startable (hP : Stays c P) (hE : ∀ e s, P s → E e s) (entry : Record)
    (ticket : Ticket) (fence : WriterFence) (action : AuthorizedAction) (now : Time) :
    Spec c P (startable entry ticket fence action now)
      (fun _ s => P s ∧ entry.state = .prepared ∧ WellFormedAction C action) E := by
  refine .bind (.ensure hE) fun _ => ?_
  refine .bind (.query (fun _ _ _ h => h) (Stays.and_const hP)) fun authority => ?_
  refine .bind (.ensure fun e s hs => hE e s hs.1) fun _ => ?_
  refine .bind (.ensure fun e s hs => hE e s hs.1.1) fun _ => ?_
  refine (Spec.ensure fun e s hs => hE e s hs.1.1.1).post fun _ s hs => ?_
  obtain ⟨⟨⟨⟨hs, -⟩, hauthorized⟩, -⟩, hprepared⟩ := hs
  simp only [Bool.and_eq_true, beq_iff_eq] at hprepared
  exact ⟨hs, hprepared.1, wellFormedAction_of_authorized hauthorized⟩

variable {s : System C} {H : System C → Prop}

/-- The token of a startable record is free. -/
theorem start_free (hinv : Inv s) {n : FileName} {e : Record} (hnow : s.fs.now n = some e.file)
    (hprepared : e.state = .prepared) :
    s.tokens n .start = none := by
  cases htoken : s.tokens n .start with
  | none => rfl
  | some d =>
    obtain ⟨-, -, hall⟩ := hinv.startToken n d htoken
    have hmem : some e.file ∈ s.fs.outcomes n := hnow ▸ (s.fs.slot n).now_mem_outcomes
    obtain ⟨e', hfile, hstarted⟩ := hall _ hmem
    obtain rfl := Record.file_injective (Option.some.inj hfile)
    exact absurd hprepared hstarted

/-- **`Start`** returns only with the token of the execution. -/
theorem spec_start (hgc : g ≠ c) (hm : m ≠ .close) (ticket : Ticket) (fence : WriterFence)
    (action : AuthorizedAction) :
    Spec (C := C) c (Idle c g m) (start ticket fence action)
      (fun r s => Idle c g m s ∧ s.tokens (path r.1.executionID) .start = some c ∧
        Rewritten C r.2 ∧ r.2.OnDisk s) (fun _ => Idle c g m) := by
  have hH := holdLike_held (C := C) (c := c) (g := g) hm
  have hn := isRecord_path ticket.executionID
  refine spec_owned hgc hm (fun held h => ?_) (fun _ _ h => h) ?_
  · simp only [Bool.and_eq_true] at h
    exact h.1.1
  refine (spec_section hgc hm (α := Launch × Written)
    (Q := fun r s => s.tokens (path r.1.executionID) .start = some c ∧
      Rewritten C r.2 ∧ r.2.OnDisk s)
    (fun r => ((Carried.token _ _ _).sheltered hm).and (sheltered_onDisk hm fun h => h.1))
    ?_).post fun _ _ hs => ⟨hs.1, hs.2.2⟩
  refine .bind (.query (fun _ _ _ h => h) hH.stays) fun now => ?_
  refine .bind (spec_checkFence hH.stays (fun _ _ h => h) _ _ _) fun _ => ?_
  refine .bind ((hH.spec_readRecord hn).conseq (fun _ _ h => h) (fun _ _ h => h)
    fun _ _ hs => hs.1) fun r => ?_
  obtain ⟨e, version⟩ := r
  have hreads := hH.stays_reads hn e version
  refine .bind (spec_startable hreads (fun _ _ hs => hs.1) _ _ _ _ _) fun _ => ?_
  refine .assume ((e.state = .prepared ∧ WellFormedAction C action) ∧ Readable e ∧
    WF C (path ticket.executionID) e) (fun s _ hs => ⟨hs.2, hs.1.2.readable, hs.1.2.wf⟩)
    fun ⟨⟨hprepared, haction⟩, hreadable, hwf⟩ => ?_
  have hevolves : ∀ mine, Evolves C mine e (e.start action) :=
    fun mine => .start action hprepared haction
  refine .bind (spec_openBoundFiles (Stays.and_const hreads) (fun _ _ hs => hs.1.1) _)
    fun _ => ?_
  -- from here on the token is known to be free, and nobody else can take it
  have hfree := hH.with_tokens fun tokens => tokens (path ticket.executionID) .start = none
  refine .bind ((hfree.spec_replaceRecord hn e (e.start action)).conseq (fun s hok hs => ?_)
    (fun _ _ h => h) fun _ _ hs => hs.1) fun _ => ?_
  · obtain ⟨⟨hheld, hread⟩, -⟩ := hs
    exact ⟨⟨hheld, start_free hok.2 hread.now hprepared⟩, hread.now, hevolves _⟩
  refine .bind (spec_claim hH (fun _ _ h => h) hn (t := .start) (e := e.start action)
    (fun h => nomatch h)) fun _ => ?_
  refine .pure fun s _ hs => ⟨hs.1.1, ?_, ?_, hs.2⟩
  · show s.tokens (path e.plan.executionID) .start = some c
    rw [hwf.path]
    exact hs.1.2
  · exact ⟨(hevolves fun _ => True).wf hwf, e, hreadable, rfl⟩

/-- **`Prepare`** creates a first record where there is none. -/
theorem spec_prepare (hgc : g ≠ c) (hm : m ≠ .close) (plan : Plan) (fence : WriterFence)
    (lifetime : Int) (action : AuthorizedAction) :
    Spec (C := C) c (Idle c g m) (prepare plan fence lifetime action)
      (fun r s => Idle c g m s ∧ ∀ w, r.2 = some w →
        (WF C w.name w.entry ∧ w.entry.effects = ∅) ∧ w.OnDisk s) (fun _ => Idle c g m) := by
  have hH := holdLike_held (C := C) (c := c) (g := g) hm
  refine spec_owned hgc hm (fun held h => ?_) (fun _ _ h => h) ?_
  · simp only [Bool.and_eq_true] at h
    exact h.1.1
  refine (spec_section hgc hm (α := Ticket × Option Written)
    (Q := fun r s => ∀ w, r.2 = some w →
      (WF C w.name w.entry ∧ w.entry.effects = ∅) ∧ w.OnDisk s)
    (fun r => ⟨fun s s' h hs => ⟨hH.stays s s' h hs.1, fun w hw => ?_⟩, fun _ _ hs => hs⟩)
    ?_).post fun _ _ hs => ⟨hs.1, hs.2.2⟩
  · exact ((sheltered_onDisk hm fun h => h.1).stays s s' h ⟨hs.1, hs.2 w hw⟩).2
  refine .bind (.query (fun _ _ _ h => h) hH.stays) fun now => ?_
  refine .bind (spec_checkFence hH.stays (fun _ _ h => h) _ _ _) fun _ => ?_
  refine .bind (.ofExcept (Q := fun r s => Held c g m s ∧ preparePlan C plan fence = .ok r)
    (fun _ _ hr hs => ⟨hs, hr⟩) fun _ _ hs => hs) fun r => ?_
  obtain ⟨prepared, digest⟩ := r
  refine .bind (.query (fun _ _ _ h => h) (Stays.and_const hH.stays)) fun authority => ?_
  refine .bind (.ensure fun _ _ hs => hs.1) fun _ => ?_
  refine .assume (preparePlan C plan fence = .ok (prepared, digest) ∧ WellFormedAction C action)
    (fun s _ hs => ⟨hs.1.2, wellFormedAction_of_authorized hs.2⟩) fun ⟨hplan, haction⟩ => ?_
  have hn := isRecord_path prepared.executionID
  refine .bind ((Meets.attempt (hH.spec_readRecord hn)).pre fun _ _ hs => hs.1.1) fun r => ?_
  cases r with
  | ok read =>
    obtain ⟨existing, version⟩ := read
    refine .bind (R := fun _ => Held c g m) ?_ fun _ =>
      .pure fun s _ hs => ⟨hs, fun _ h => nomatch h⟩
    refine .bind (.ensure fun _ _ hs => hs.1) fun _ => ?_
    refine .bind (.ensure fun _ _ hs => hs.1.1) fun _ => ?_
    refine .bind (.ensure fun _ _ hs => hs.1.1.1) fun _ => ?_
    exact .pure fun _ _ hs => hs.1.1.1.1
  | error err =>
    cases err with
    | notExist =>
      refine .bind (.query (fun _ _ _ h => h)
        (hH.stays_if (A := fun slot => slot.now = none) (isGuarded_of_isRecord hn)
          (fun _ h => h) _))
        fun secret => ?_
      cases secret with
      | none => exact .throw fun _ _ hs => hs.1
      | some secret =>
        have hinitial : Initial C (path prepared.executionID) (initialRecord prepared digest
            secret (ticketDeadline now lifetime fence action) action) :=
          initial_initialRecord hplan haction
        refine .bind ((hH.spec_createRecord hn hinitial fun _ _ h => h).pre
          fun _ _ hs => ⟨hs.1, hs.2 rfl⟩) fun _ => ?_
        refine .pure fun s _ hs => ⟨hs.1, fun w hw => ?_⟩
        obtain rfl := Option.some.inj hw
        exact ⟨⟨hinitial.wf, rfl⟩, hs.2⟩
    | _ => exact .throw fun _ _ hs => hs.1

/-! ## Inspect -/

/-- Reading a record changes nothing, whoever reads. -/
theorem spec_readRecord_query (hP : Stays c P)
    (hE : ∀ e s, P s → E e s) (n : FileName) : Spec c P (readRecord n) (fun _ => P) E := by
  refine .bind (.query (fun s answer s' h => ?_) hP) fun answer => ?_
  · obtain ⟨fs', ⟨rfl, -⟩, rfl⟩ := h
    rfl
  · cases answer with
    | error err =>
      cases err with
      | _ => exact .throw fun s _ hs => hE _ s hs
    | ok seen =>
      dsimp only
      cases readFile seen.file with
      | ok e => exact .pure fun _ _ h => h
      | error err => exact .throw fun s _ hs => hE _ s hs

theorem spec_inspect (hgc : g ≠ c) (executionID : String) :
    Spec (C := C) c (Idle c g m) (inspect executionID) (fun _ => Idle c g m)
      (fun _ => Idle c g m) := by
  refine .bind (.ensure fun _ _ h => h) fun _ => ?_
  have hmutexed := Stays.and_const (p := True) (stays_mutexed (C := C) (c := c) (g := g) (m := m))
  refine (spec_locked hgc (P := fun _ => True) (.const _) (fun _ => hmutexed) (fun _ _ _ h => h)
    (.const True) ?_).conseq (fun _ _ hs => ⟨hs.1, trivial⟩) (fun _ _ hs => hs.1)
    fun _ _ hs => hs.1
  refine .bind (spec_readRecord_query hmutexed (fun _ _ h => h) _) fun r => ?_
  exact .pure fun _ _ h => h

/-! ## Open and Close -/

/-- `Open` with the directory acquired. -/
def Opening (c : Nat) (m : Method) (s : System C) : Prop :=
  Idle c c m s ∧ s.owner = some c ∧ s.lock c = true

theorem holdLike_opening (hm : m ≠ .close) : HoldLike (C := C) c (Opening c m) where
  stays := stable_of_frame fun _ _ _ _ hframe hs =>
    ⟨⟨hframe.calls.trans hs.1.1, hframe.unlocked hs.1.2⟩, hframe.owner hs.1.1 hm hs.2.1,
      (hframe.lockKept hs.1.1).trans hs.2.2⟩
  holds := fun _ hs => ⟨c, m, hs.1.1, hs.2.1, .inr rfl⟩
  files := fun _ _ hs => hs

/-- The invariant does not look at the owner or at `gate.lock` but for the two
being in agreement. -/
theorem Inv.with_owner (hinv : Inv s) {owner' : Option Nat} {lock' : Nat → Bool}
    (h : ∀ g, s.published g = true → lock' g = true → (∀ c, s.calls c ≠ some (g, .close)) →
      owner' = some g) :
    Inv { s with owner := owner', lock := lock' } where
  fresh := hinv.fresh
  spent := hinv.spent
  opening := hinv.opening
  published := hinv.published
  mutex := hinv.mutex
  lock := h
  sane := hinv.sane
  startToken := hinv.startToken
  effectToken := hinv.effectToken
  launched := hinv.launched
  once := hinv.once
  fine := hinv.fine
  entered := hinv.entered
  enteredOnce := hinv.enteredOnce

/-- A Gate whose `Open` is in flight has not been returned. -/
theorem Inv.not_published (hinv : Inv s) (hcall : s.calls c = some (c, m))
    (hpublished : s.published g = true) : g ≠ c := by
  rintro rfl
  rw [(hinv.published g hpublished).1] at hcall
  cases hcall

theorem spec_acquireDirectory :
    Spec (C := C) c (Idle c c m) (perform .acquireDirectory)
      (fun acquired s => Idle c c m s ∧ (acquired = true → Opening c m s)) E := by
  refine .perform stays_idle fun s acquired s' _ hinv hs happly => ?_
  rcases happly with ⟨rfl, hnone, rfl⟩ | ⟨rfl, rfl⟩
  · rw [gateOf_eq hs.1]
    refine ⟨hinv.with_owner fun g' hpublished hlock hclose => ?_, ?_, hs, fun _ =>
      ⟨hs, rfl, by simp⟩⟩
    · rw [Function.update_of_ne (hinv.not_published hs.1 hpublished)] at hlock
      rw [hinv.lock g' hpublished hlock hclose] at hnone
      cases hnone
    · refine { Act.refl c s with owner := .inr (.inl hnone), lock := fun g' => ?_ }
      by_cases hg : g' = c
      · subst hg
        exact .inr ⟨m, hs.1, fun _ => rfl⟩
      · exact .inl (by simp [hg])
  · exact ⟨hinv, Act.refl c s', hs, fun h => nomatch h⟩

/-- The directory is released by the `Open` that acquired it, or by a `Close`. -/
theorem spec_releaseDirectory (hwhy : m = .close ∨ g = c) :
    Spec (C := C) c (Idle c g m) (perform .releaseDirectory) (fun _ => Idle c g m) E := by
  refine .perform stays_idle fun s _ s' _ hinv hs happly => ?_
  obtain rfl := happly
  rw [gateOf_eq hs.1]
  refine ⟨hinv.with_owner fun g' hpublished hlock hclose => ?_, ?_, hs⟩
  · have hne : g' ≠ g := by
      rintro rfl
      rcases hwhy with rfl | rfl
      · exact hclose c hs.1
      · exact hinv.not_published hs.1 hpublished rfl
    rw [hinv.lock g' hpublished hlock hclose, if_neg fun h => hne (Option.some.inj h)]
  · refine { Act.refl c s with owner := ?_ }
    by_cases howner : s.owner = some g
    · exact .inr (.inr ⟨g, m, hs.1, hwhy, howner⟩)
    · exact .inl (if_neg howner)

/-- Recovery of one item rewrites a record as recovery does. -/
theorem spec_recoverItem (hH : HoldLike c H) (item : FileName) :
    Spec c H (recoverItem item) (fun _ => H) (fun _ => H) := by
  cases item with
  | record hex =>
    have hn : (FileName.record hex).isRecord = true := rfl
    refine .bind ((hH.spec_readRecord hn).conseq (fun _ _ h => h) (fun _ _ h => h)
      fun _ _ hs => hs.1) fun r => ?_
    obtain ⟨e, version⟩ := r
    dsimp only
    cases hnext : Record.recovered e.state with
    | none => exact .pure fun _ _ hs => hs.1
    | some next =>
      exact (hH.spec_replaceRecord hn e (e.recover next)).conseq
        (fun _ _ hs => ⟨hs.1, hs.2.now, .recover next hnext⟩) (fun _ _ hs => hs.1)
        fun _ _ h => h
  | _ => exact .pure fun _ _ h => h

theorem spec_recoverItems (hH : HoldLike c H) :
    ∀ items : List FileName, Spec c H (recoverItems items) (fun _ => H) (fun _ => H)
  | [] => .pure fun _ _ h => h
  | item :: rest => .bind (spec_recoverItem hH item) fun _ => spec_recoverItems hH rest

theorem spec_recoverInterruptedStates (hH : HoldLike c H) :
    Spec c H recoverInterruptedStates (fun _ => H) (fun _ => H) := by
  refine .bind (.query (fun s answer s' h => ?_) hH.stays) fun entries => ?_
  · obtain ⟨fs', ⟨rfl, -⟩, rfl⟩ := h
    rfl
  · cases entries with
    | none => exact .throw fun _ _ h => h
    | some entries => exact spec_recoverItems hH entries

/-- **`Open`** returns with the directory acquired, or without it. -/
theorem spec_openGate (hm : m ≠ .close) (directory : String) (hasResolver : Bool) :
    Spec (C := C) c (Idle c c m) (openGate directory hasResolver) (fun _ => Opening c m)
      (fun _ => Idle c c m) := by
  have hidle : ∀ p : Prop, Stays c fun s => Idle (C := C) c c m s ∧ p :=
    fun p => Stays.and_const stays_idle
  refine .bind (.ensure fun _ _ h => h) fun _ => ?_
  refine .bind (.query (fun _ _ _ h => h) (hidle _)) fun err => ?_
  refine .bind (.nilError fun _ _ hs => hs.1) fun _ => ?_
  refine .bind (.query (fun _ _ _ h => h) (hidle _)) fun isPrivate => ?_
  refine .bind (.ensure fun _ _ hs => hs.1) fun _ => ?_
  refine .bind (spec_acquireDirectory.pre fun _ _ hs => hs.1.1) fun acquired => ?_
  refine .bind (.ensure fun _ _ hs => hs.1) fun _ => ?_
  refine .bind ((Meets.attempt (spec_recoverInterruptedStates (holdLike_opening hm))).pre
    fun _ _ hs => hs.1.2 hs.2) fun r => ?_
  cases r with
  | ok u => exact .pure fun _ _ h => h
  | error err =>
    refine .bind ((spec_releaseDirectory (.inr rfl)).pre fun _ _ hs => hs.1) fun _ => ?_
    exact .throw fun _ _ h => h

/-- The call is in flight, and `gate.lock` is nil. -/
def Closed (c g : Nat) (m : Method) (s : System C) : Prop := Idle c g m s ∧ s.lock g = false

theorem spec_clearLock :
    Spec (C := C) c (Idle c g m) (perform .clearLock) (fun _ => Closed c g m) E := by
  refine .perform stays_idle fun s _ s' _ hinv hs happly => ?_
  obtain rfl := happly
  rw [gateOf_eq hs.1]
  refine ⟨hinv.with_owner fun g' hpublished hlock hclose => ?_, ?_, hs, by simp⟩
  · have hne : g' ≠ g := by
      rintro rfl
      simp at hlock
    rw [Function.update_of_ne hne] at hlock
    exact hinv.lock g' hpublished hlock hclose
  · refine { Act.refl c s with lock := fun g' => ?_ }
    by_cases hg : g' = g
    · subst hg
      exact .inr ⟨m, hs.1, fun h => absurd h (by simp)⟩
    · exact .inl (by simp [hg])

/-- **`Close`** leaves `gate.lock` nil, whatever else it returns. -/
theorem spec_closeGate :
    Spec (C := C) c (Idle c g .close) closeGate (fun _ => Closed c g .close)
      (fun _ => Closed c g .close) := by
  refine .bind (R := fun held s => Idle c g .close s ∧ (held = false → s.lock g = false))
    (.perform stays_idle fun s held s' _ hinv hs happly => ?_) fun held => ?_
  · obtain ⟨rfl, rfl⟩ := happly
    refine ⟨hinv, Act.refl c s', hs, fun hheld => ?_⟩
    rwa [gateOf_eq hs.1] at hheld
  · cases held with
    | true =>
      refine .bind ((spec_releaseDirectory (.inl rfl)).pre fun _ _ hs => hs.1) fun released => ?_
      refine .bind spec_clearLock fun _ => ?_
      exact (Spec.succeed fun _ _ h => h).post fun _ _ hs => hs.1
    | false => exact .pure fun _ _ hs => ⟨hs.1, hs.2 rfl⟩

end TosAi.CommerceGate
