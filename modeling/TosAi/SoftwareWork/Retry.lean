/-
  Which failures leave a request retryable.

  The runner with the frozen contract over the policy executor with the frozen policy:
  `Execute` claims the identity first, and only then does the executor look at the context
  and at the size of its input.  Where one of these stops it the container runtime is never
  asked, and the claim stays.

  The calls are taken one after another here, each to its end.  The operations may fail,
  and the context of a call may be cancelled between any two of them.
-/
import TosAi.SoftwareWork.Guarantees

set_option autoImplicit false

namespace TosAi.SoftwareWork

open Foundation
open Foundation.Json (Bytes)

/-- The runner with the frozen contract over the frozen policy, and any client. -/
def frozenRunner (library : Library) (maximum : Nat) : Runner where
  library := library
  executor := policyExecutor library.sha256 frozenV1Policy
  contract := frozenV1Contract
  maximum := maximum

/-- `RunIsolated` was invoked during an `Execute` for the identity. -/
def Reached (s : System) (executionID : String) : Prop :=
  ∃ x ∈ s.isolated, ∃ b request, s.began x.1 = some b ∧ b.method = .execute request ∧
    request.executionID = executionID

/-- The journal holds a record for the identity. -/
def Holds (s : System) (executionID : String) : Prop :=
  digestPattern executionID = true ∧ (s.journal.now (recordName executionID)).isSome = true

/-! ## Histories -/

/-- An operation of call `c`, whose context may have been cancelled before it. -/
def ordinary (r : Runner) (c : Nat) (o : Op) (s : System) (answer : Res o) (s' : System) : Prop :=
  ∃ u, (u = s ∨ u = s.cancel c) ∧ System.apply r.library.sha256 c o u answer s'

/-- The context is not found cancelled before the container runtime was asked, and the
removal of a claim does not fail. -/
def Favours (c : Nat) : (o : Op) → System → Res o → Prop
  | .contextErr, s, answer => answer = true → ∃ x ∈ s.isolated, x.1 = c
  | .journal (.remove (.record hex)), s, answer => answer = (s.journal.now (.record hex)).isSome
  | _, _, _ => True

def favourable (r : Runner) (c : Nat) (o : Op) (s : System) (answer : Res o) (s' : System) : Prop :=
  ordinary r c o s answer s' ∧ Favours c o s answer

/-- The policy allows the input. -/
def Modest (request : Request) : Prop :=
  request.sourceArchive.length ≤ frozenV1Policy.maxInputBytes.toNat

/-- Calls of `Execute` with requests of some kind and operations of some kind, one call
after the other. -/
inductive History (r : Runner) (B : Nat → (o : Op) → System → Res o → System → Prop)
    (P : Request → Prop) : System → Prop where
  | init : History r B P .init
  /-- A context is cancelled, perhaps one that is yet to be used. -/
  | cancel {s : System} (hbefore : History r B P s) (c : Nat) : History r B P (s.cancel c)
  | call {s t : System} {process : Nat} {request : Request} {answer : Answer}
      (hbefore : History r B P s) (hrequest : P request)
      (hsteps : Prog.Steps (B s.next) (program r (.execute request))
        (s.begin process (.execute request)) (.ret answer) t) :
      History r B P (t.finish s.next answer)

variable {r : Runner} {c : Nat} {s t : System} {n : JournalName}

/-! ## One record at a time -/

/-- The operation changes no record but this one. -/
def Minds (n : JournalName) : Op → Prop
  | .journal o => ∀ hex, .record hex ≠ n → ¬o.touches (.record hex)
  | _ => True

/-- No record but this one has changed, and nothing that was done is forgotten. -/
structure Tame (n : JournalName) (s t : System) : Prop where
  others : ∀ hex, .record hex ≠ n → t.journal.now (.record hex) = s.journal.now (.record hex)
  began : t.began = s.began
  next : t.next = s.next
  isolated : ∀ x ∈ s.isolated, x ∈ t.isolated

theorem Tame.refl (n : JournalName) (s : System) : Tame n s s :=
  ⟨fun _ _ => rfl, rfl, rfl, fun _ hx => hx⟩

theorem Tame.trans {u : System} (h : Tame n s t) (h' : Tame n t u) : Tame n s u where
  others := fun hex hne => (h'.others hex hne).trans (h.others hex hne)
  began := h'.began.trans h.began
  next := h'.next.trans h.next
  isolated := fun x hx => h'.isolated x (h.isolated x hx)

variable {α : Type} {o : Op} {E : Err → System → Prop} {executionID : String} {library : Library}
  {request : Request} {maximum : Nat} {A : Op → Prop} {hex : String} {answer : Res o}

theorem tame_of_apply (hminds : Minds n o)
    (h : System.apply r.library.sha256 c o s answer t) : Tame n s t := by
  cases o with
  | journal o =>
    obtain ⟨fs', failed, happly, -, -, rfl⟩ := h
    exact ⟨fun hex hne => FsOp.agree happly _ (hminds hex hne), rfl, rfl, fun _ hx => hx⟩
  | objects o =>
    obtain ⟨fs', failed, -, -, rfl⟩ := h
    exact ⟨fun _ _ => rfl, rfl, rfl, fun _ hx => hx⟩
  | link a b =>
    obtain ⟨-, -, -, rfl⟩ | ⟨-, -, rfl⟩ | ⟨-, rfl⟩ := h
    · exact ⟨fun _ _ => rfl, rfl, rfl, fun _ hx => hx⟩
    · exact .refl n _
    · exact ⟨fun _ _ => rfl, rfl, rfl, fun _ hx => hx⟩
  | contextErr | executionContextErr =>
    obtain ⟨rfl, -⟩ := h
    exact .refl n _
  | lockMutex | hash =>
    obtain ⟨-, rfl⟩ := h
    exact ⟨fun _ _ => rfl, rfl, rfl, fun _ hx => hx⟩
  | runIsolated =>
    obtain rfl := h
    exact ⟨fun _ _ => rfl, rfl, rfl, fun _ hx => List.mem_cons_of_mem _ hx⟩
  | openJournal | openObjects | unlockMutex | now | execute =>
    obtain rfl := h
    exact ⟨fun _ _ => rfl, rfl, rfl, fun _ hx => hx⟩

theorem tame_of_favourable (hminds : Minds n o) (h : favourable r c o s answer t) :
    Tame n s t := by
  obtain ⟨⟨u, rfl | rfl, happly⟩, -⟩ := h
  · exact tame_of_apply hminds happly
  · have htame := tame_of_apply hminds happly
    exact ⟨htame.others, htame.began, htame.next, htame.isolated⟩

theorem minds_of_looks (o : Op) (ho : Looks o) : Minds n o := by
  cases o with
  | journal o => cases o <;> first | exact fun _ _ h => h | exact ho.elim
  | _ => exact trivial

theorem minds_of_stores (o : Op) (ho : Stores o) : Minds n o := by
  cases o with
  | journal o => exact ho.elim
  | _ => exact trivial

theorem digest_uses (value : Bytes) (hA : A (.hash value)) :
    Body.Uses A (digest value) := by
  refine .bind (.perform hA) fun sum => ?_
  exact .pure _

theorem locked_uses {body : Work α} (hbody : Body.Uses A body) (hlock : A .lockMutex)
    (hunlock : A .unlockMutex) : Body.Uses A (locked body) := by
  refine .bind (.perform hlock) fun _ => ?_
  exact deferred_uses hbody hunlock

theorem syncJournal_uses : Body.Uses (Minds n) syncJournal := by
  refine .bind (.perform trivial) fun opened => ?_
  refine .bind (.ensure _ _) fun _ => ?_
  refine .bind (.perform fun _ _ h => h) fun synced => ?_
  exact .ensure _ _

theorem unlessDone_uses {done : Bool} {recover : Work Unit} {message : String}
    (hrecover : Body.Uses A recover) : Body.Uses A (unlessDone done recover message) := by
  unfold unlessDone
  split
  · exact .pure _
  · refine .bind hrecover fun _ => ?_
    exact .throw _

theorem removeClaim_uses : Body.Uses (Minds n) (removeClaim n) := by
  refine .bind (.perform fun _ hne h => hne h) fun _ => ?_
  exact .pure _

theorem dropClaim_uses : Body.Uses (Minds n) (dropClaim n) := by
  refine .bind (.perform fun _ _ h => h) fun _ => ?_
  exact removeClaim_uses

theorem claimRecord_uses (executionID fp : String) :
    Body.Uses (Minds (recordName executionID)) (claimRecord executionID fp) := by
  refine .bind (.perform fun _ hne h => hne h) fun created => ?_
  match created with
  | .ok () =>
    apply Body.Uses.bind
    · refine .bind (.perform fun _ hne h => hne h) fun written => ?_
      refine .bind (unlessDone_uses dropClaim_uses) fun _ => ?_
      refine .bind (.perform fun _ _ h => h) fun synced => ?_
      refine .bind (unlessDone_uses dropClaim_uses) fun _ => ?_
      refine .bind (.perform fun _ _ h => h) fun closed => ?_
      refine .bind (unlessDone_uses removeClaim_uses) fun _ => ?_
      refine .bind (.attempt syncJournal_uses) fun committed => ?_
      cases committed with
      | ok _ => exact .pure _
      | error err =>
        refine .bind removeClaim_uses fun _ => ?_
        exact .throw _
    intro _
    exact .pure _
  | .error .exist =>
    refine .bind ((readJournalRecord_uses _).mono minds_of_looks) fun existing => ?_
    refine .bind (.ensure _ _) fun _ => ?_
    exact .pure _
  | .error .notExist => exact .throw _
  | .error .io => exact .throw _

theorem commitRecord_uses (k : Nat) (record : JournalRecord) :
    Body.Uses (Minds n) (commitRecord n (.temporary k) record) := by
  have hother : ∀ hex, JournalName.record hex ≠ n → ¬JournalName.record hex = .temporary k :=
    fun _ _ h => nomatch h
  have hclose : Body.Uses (Minds n) (closeCompletion (.temporary k)) := by
    refine .bind (.perform fun _ _ h => h) fun _ => ?_
    exact .pure _
  refine .bind (.perform hother) fun guarded => ?_
  refine .bind (unlessDone_uses hclose) fun _ => ?_
  refine .bind (.perform hother) fun written => ?_
  refine .bind (unlessDone_uses hclose) fun _ => ?_
  refine .bind (.perform fun _ _ h => h) fun synced => ?_
  refine .bind (unlessDone_uses hclose) fun _ => ?_
  refine .bind (.perform fun _ _ h => h) fun closed => ?_
  refine .bind (.ensure _ _) fun _ => ?_
  refine .bind (.perform fun hex hne h => h.elim (hother hex hne) hne) fun renamed => ?_
  refine .bind (.ensure _ _) fun _ => ?_
  exact syncJournal_uses

/-- A body keeps to the record. -/
abbrev Mindful {α : Type} (r : Runner) (c : Nat) (n : JournalName) (s : System) (body : Work α) :
    Prop :=
  ∀ t, Tame n s t → Survives (favourable r c) (Tame n s) body t (fun _ _ => True) (fun _ _ => True)

theorem mindful_of_uses {body : Work α} (h : Body.Uses (Minds n) body) :
    Mindful r c n s body := by
  intro t ht
  have hguards := Prog.Uses.guards (B := favourable r c) (I := Tame n s)
    (fun o u answer v hminds hop hu => hu.trans (tame_of_favourable hminds hop)) h ht
  apply Prog.Guards.mono (fun _ hI => hI) _ hguards
  intro value u _
  cases value with
  | ok a | error e => exact trivial

theorem Mindful.bind {β : Type} {body : Work α} {next : α → Work β} (h : Mindful r c n s body)
    (hnext : ∀ a, Mindful r c n s (next a)) :
    Mindful r c n s (body >>= next) :=
  fun t ht => .bind (h t ht) fun a u hu _ => hnext a u hu

theorem Mindful.deferred {body : Work α} {last : Op} (hbody : Mindful r c n s body)
    (hlast : Minds n last) : Mindful r c n s (SoftwareWork.deferred body last) := by
  apply Mindful.bind
  · intro t ht
    exact .attempt (hbody t ht) (fun _ _ _ => trivial) (fun _ _ _ => trivial)
  intro value
  apply mindful_of_uses
  refine .bind (.perform hlast) fun _ => ?_
  exact .result _

/-- The temporary file of a completion is no record. -/
theorem completeRecord_mindful (executionID fp : String) (o : Outcome) :
    Mindful r c (recordName executionID) s (completeRecord executionID fp o) := by
  apply Mindful.bind (mindful_of_uses
    (.attempt ((readJournalRecord_uses _).mono minds_of_looks)))
  intro existing
  apply Mindful.bind (mindful_of_uses (Body.Uses.ensure _ _))
  intro _ t ht
  apply Survives.bind (R := fun temporary _ => ∀ m, temporary = some m → ∃ k, m = .temporary k)
  · apply Survives.perform ht
    intro answer u hop
    have hminds : Minds (recordName executionID) (.journal (.createTemp JournalName.isTemporary)) :=
      fun _ _ h => h
    refine ⟨ht.trans (tame_of_favourable hminds hop), ?_⟩
    rintro m rfl
    obtain ⟨⟨v, -, fs', failed, ⟨m', hkind, -, hsome, -⟩ | ⟨hnone, -⟩, -⟩, -⟩ := hop
    · obtain rfl := Option.some.inj hsome
      cases m with
      | record hex => exact hkind.elim
      | temporary k => exact ⟨k, rfl⟩
    · cases hnone
  intro temporary u hu htemporary
  cases temporary with
  | none => exact mindful_of_uses (.throw _) u hu
  | some m =>
    obtain ⟨k, rfl⟩ := htemporary m rfl
    exact Mindful.deferred (mindful_of_uses (commitRecord_uses k _)) (fun _ _ h => nomatch h) u hu

theorem claim_uses (executionID fp : String) :
    Body.Uses (Minds (recordName executionID)) (claim executionID fp) := by
  refine .bind (.ensure _ _) fun _ => ?_
  exact locked_uses (claimRecord_uses executionID fp) trivial trivial

theorem validateRequest_uses (contract : Contract) (request : Request) :
    Body.Uses (Minds n) (validateRequest contract request) := by
  refine .bind (.ensure _ _) fun _ => ?_
  refine .bind (digest_uses _ trivial) fun source => ?_
  exact .ensure _ _

theorem policyExecutor_uses (sha256 : Bytes → Bytes) (policy : Policy) (executionID : String)
    (spec : Spec) (input : Bytes) :
    Body.Uses (Minds n) (policyExecutor sha256 policy executionID spec input) := by
  refine .bind (.perform trivial) fun cancelled => ?_
  cases cancelled with
  | true => exact .throw _
  | false =>
    refine .bind (.result _) fun identity => ?_
    refine .bind (.result _) fun _ => ?_
    refine .bind (.result _) fun _ => ?_
    refine .bind (.perform trivial) fun answer => ?_
    refine .bind (.perform trivial) fun late => ?_
    cases late with
    | true => exact .throw _
    | false =>
      cases answer with
      | none => exact .throw _
      | some result =>
        refine .bind (.result _) fun _ => ?_
        exact .pure _

theorem deliver_mindful (request : Request) (fp : String) (result : RunResult) :
    Mindful r c (recordName request.executionID) s (r.deliver request fp result) := by
  apply Mindful.bind (mindful_of_uses (Body.Uses.ensure _ _))
  intro _
  apply Mindful.bind (mindful_of_uses (Body.Uses.perform (o := Op.now) trivial))
  intro now
  apply Mindful.bind (mindful_of_uses (digest_uses _ trivial))
  intro resultDigest
  apply Mindful.bind (mindful_of_uses ((put_uses _ _ _).mono minds_of_stores))
  intro report
  apply Mindful.bind (mindful_of_uses (Body.Uses.result _))
  intro archived
  apply Mindful.bind (mindful_of_uses ((put_uses _ _ _).mono minds_of_stores))
  intro artifact
  apply Mindful.bind
  · apply Mindful.bind (mindful_of_uses (Body.Uses.perform (o := Op.lockMutex) trivial))
    intro _
    exact .deferred (completeRecord_mindful _ _ _) trivial
  intro _
  exact mindful_of_uses (.pure _)

theorem execute_mindful (library : Library) (maximum : Nat) (request : Request) :
    Mindful (frozenRunner library maximum) c (recordName request.executionID) s
      ((frozenRunner library maximum).execute request) := by
  apply Mindful.bind (mindful_of_uses (validateRequest_uses _ _))
  intro _
  apply Mindful.bind (mindful_of_uses (digest_uses _ trivial))
  intro fp
  apply Mindful.bind (mindful_of_uses (claim_uses _ _))
  rintro ⟨lease, record⟩
  show Mindful _ _ _ _ ((frozenRunner library maximum).proceed request fp lease record)
  unfold Runner.proceed
  split
  · apply Mindful.bind (mindful_of_uses (policyExecutor_uses _ _ _ _ _))
    intro result
    exact deliver_mindful request fp result
  · split
    · exact mindful_of_uses (.pure _)
    · exact mindful_of_uses (.throw _)

/-! ## A call that finds no record -/

/-- There is no record. -/
def Absent (n : JournalName) (s : System) : Prop := s.journal.now n = none

/-- The call has asked the container runtime. -/
def Asked (c : Nat) (s : System) : Prop := ∃ x ∈ s.isolated, x.1 = c

/-- What is said of the ends of a call. -/
abbrev Finishes {α : Type} (r : Runner) (c : Nat) (body : Work α) (s : System)
    (Q : α → System → Prop) (E : Err → System → Prop) : Prop :=
  Survives (favourable r c) (fun _ => True) body s Q E

/-- What an operation that is not one of the journal leaves alone. -/
theorem journal_of_favourable (ho : ∀ o', o ≠ .journal o')
    (h : favourable r c o s answer t) : t.journal = s.journal := by
  obtain ⟨⟨u, hu, happly⟩, -⟩ := h
  have hsame : u.journal = s.journal := by
    obtain rfl | rfl := hu <;> rfl
  rw [← hsame]
  cases o with
  | journal o' => exact absurd rfl (ho o')
  | objects o =>
    obtain ⟨fs', failed, -, -, rfl⟩ := happly
    rfl
  | link a b => obtain ⟨-, -, -, rfl⟩ | ⟨-, -, rfl⟩ | ⟨-, rfl⟩ := happly <;> rfl
  | contextErr | executionContextErr =>
    obtain ⟨rfl, -⟩ := happly
    rfl
  | lockMutex | hash =>
    obtain ⟨-, rfl⟩ := happly
    rfl
  | openJournal | openObjects | unlockMutex | now | execute | runIsolated =>
    obtain rfl := happly
    rfl

/-- Such an operation, where there is no record. -/
theorem Absent.aside (ho : ∀ o', o ≠ .journal o') (hs : Absent n s) :
    Finishes r c (perform o) s (fun _ => Absent n) E := by
  apply Survives.perform trivial
  intro answer t hop
  refine ⟨trivial, ?_⟩
  rw [Absent, journal_of_favourable ho hop]
  exact hs

theorem digest_absent (value : Bytes) (hs : Absent n s) :
    Finishes r c (digest value) s (fun text t => text = r.digestOf value ∧ Absent n t) E := by
  apply Survives.bind (R := fun sum t => sum = r.library.sha256 value ∧ Absent n t)
  · apply Survives.perform trivial
    intro answer t hop
    refine ⟨trivial, ?_, ?_⟩
    · obtain ⟨⟨u, -, hanswer, -⟩, -⟩ := hop
      exact hanswer
    · rw [Absent, journal_of_favourable (o := .hash value) (fun _ h => nomatch h) hop]
      exact hs
  rintro sum t - ⟨rfl, ht⟩
  exact .pure trivial ⟨rfl, ht⟩

theorem validateRequest_absent (hs : Absent n s) :
    Finishes r c (validateRequest r.contract request) s
      (fun _ t => r.Accepts request ∧ Absent n t) (fun _ => Absent n) := by
  apply Survives.bind (R := fun _ t => request.wellFormed = true ∧ t = s)
  · exact .ensure trivial (fun h => ⟨h, rfl⟩) (fun _ => hs)
  rintro _ t - ⟨hformed, rfl⟩
  apply Survives.bind (digest_absent _ hs)
  rintro source u - ⟨rfl, hu⟩
  apply Survives.ensure trivial
  · intro hchecks
    simp only [Bool.and_eq_true, beq_iff_eq, decide_eq_true_eq] at hchecks
    exact ⟨⟨hformed, hchecks.1, hchecks.2⟩, hu⟩
  · exact fun _ => hu

/-- Once the file is removed there is no record. -/
theorem removeClaim_absent :
    Finishes r c (removeClaim (.record hex)) s (fun _ => Absent (.record hex)) E := by
  apply Survives.bind (R := fun _ => Absent (.record hex))
  · apply Survives.perform trivial
    rintro answer t ⟨⟨u, hu, fs', failed, happly, -, -, rfl⟩, hremoved⟩
    refine ⟨trivial, ?_⟩
    have hsame : u.journal = s.journal := by
      obtain rfl | rfl := hu <;> rfl
    have hremoved' : answer = (s.journal.now (.record hex)).isSome := hremoved
    obtain ⟨-, -, rfl⟩ | ⟨rfl, rfl⟩ := happly
    · exact Fs.modify_unlink_now _ _
    · show u.journal.now (.record hex) = none
      rw [hsame]
      exact Option.isNone_iff_eq_none.mp (by rw [← Option.not_isSome, ← hremoved']; rfl)
  intro _ t _ ht
  exact .pure trivial ht

theorem dropClaim_absent :
    Finishes r c (dropClaim (.record hex)) s (fun _ => Absent (.record hex)) E := by
  apply Survives.bind (R := fun _ _ => True)
  · exact .perform trivial fun _ _ _ => ⟨trivial, trivial⟩
  intro _ t _ _
  exact removeClaim_absent

/-- A step of the claim was done, or the file is removed. -/
theorem unlessDone_absent {done : Bool} {recover : Work Unit} {message : String}
    (hrecover : Finishes r c recover s (fun _ => Absent n) (fun _ => Absent n)) :
    Finishes r c (unlessDone done recover message) s (fun _ _ => True) (fun _ => Absent n) := by
  unfold unlessDone
  split
  · exact .pure trivial trivial
  · apply Survives.bind hrecover
    intro _ t _ ht
    exact .throw trivial ht

theorem writeClaim_absent (record : JournalRecord) :
    Finishes r c (writeClaim (.record hex) record) s (fun _ _ => True)
      (fun _ => Absent (.record hex)) := by
  have hany (o : Op) (t : System) :
      Finishes r c (perform o) t (fun _ _ => True) (fun _ => Absent (.record hex)) :=
    .perform trivial fun _ _ _ => ⟨trivial, trivial⟩
  apply Survives.bind (hany _ _)
  intro written t₁ _ _
  apply Survives.bind (unlessDone_absent dropClaim_absent)
  intro _ t₂ _ _
  apply Survives.bind (hany _ _)
  intro synced t₃ _ _
  apply Survives.bind (unlessDone_absent dropClaim_absent)
  intro _ t₄ _ _
  apply Survives.bind (hany _ _)
  intro closed t₅ _ _
  apply Survives.bind (unlessDone_absent removeClaim_absent)
  intro _ t₆ _ _
  apply Survives.bind (R := fun _ _ => True)
  · exact .lift (Prog.Guards.mono (fun _ h => h) (fun _ _ h => h) (Prog.guards_true _ _))
  intro committed t₇ _ _
  cases committed with
  | ok _ => exact .pure trivial trivial
  | error err =>
    apply Survives.bind removeClaim_absent
    intro _ t₈ _ ht
    exact .throw trivial ht

/-- The claim is made, or there is no record. -/
theorem claimRecord_absent {fp : String} (hs : Absent (recordName executionID) s) :
    Finishes r c (claimRecord executionID fp) s (fun answer _ => answer.1 = true)
      (fun _ => Absent (recordName executionID)) := by
  apply Survives.bind (R := fun created t => created = .ok () ∨
    created ≠ .error .exist ∧ Absent (recordName executionID) t)
  · apply Survives.perform trivial
    rintro answer t ⟨⟨u, hu, fs', failed, happly, -, -, rfl⟩, -⟩
    have hsame : u.journal = s.journal := by
      obtain rfl | rfl := hu <;> rfl
    refine ⟨trivial, ?_⟩
    obtain ⟨-, rfl, -⟩ | ⟨hsome, -, -⟩ | ⟨rfl, rfl⟩ := happly
    · exact .inl rfl
    · rw [hsame, hs] at hsome
      cases hsome
    · refine .inr ⟨(fun h => nomatch h), ?_⟩
      show u.journal.now _ = none
      rw [hsame]
      exact hs
  intro created t _ hcreated
  match created, hcreated with
  | .ok (), _ =>
    apply Survives.bind (writeClaim_absent _)
    intro _ u _ _
    exact .pure trivial rfl
  | .error .exist, hcreated =>
    rcases hcreated with h | h
    · cases h
    · exact absurd rfl h.1
  | .error .notExist, hcreated =>
    exact .throw trivial (hcreated.resolve_left fun h => nomatch h).2
  | .error .io, hcreated =>
    exact .throw trivial (hcreated.resolve_left fun h => nomatch h).2

theorem claim_absent {fp : String} (hs : Absent (recordName executionID) s) :
    Finishes r c (claim executionID fp) s (fun answer _ => answer.1 = true)
      (fun _ => Absent (recordName executionID)) := by
  apply Survives.bind (R := fun _ t => t = s)
  · exact .ensure trivial (fun _ => rfl) (fun _ => hs)
  rintro _ t - rfl
  apply Survives.bind (Absent.aside (o := .lockMutex) (fun _ h => nomatch h) hs)
  intro _ u _ hu
  apply Survives.bind (R := fun value v => Discipline.Returns (fun answer _ => answer.1 = true)
    (fun _ => Absent (recordName executionID)) value v)
  · exact .attempt (claimRecord_absent hu) (fun _ _ h => h) (fun _ _ h => h)
  intro value v _ hvalue
  apply Survives.bind (R := fun _ w => Discipline.Returns (fun answer _ => answer.1 = true)
    (fun _ => Absent (recordName executionID)) value w)
  · apply Survives.perform trivial
    intro _ w hop
    refine ⟨trivial, ?_⟩
    cases value with
    | ok answer => exact hvalue
    | error err =>
      show Absent _ w
      rw [Absent, journal_of_favourable (o := .unlockMutex) (fun _ h => nomatch h) hop]
      exact hvalue
  intro _ w _ hvalue
  apply Survives.result trivial
  · rintro answer rfl
    exact hvalue
  · rintro err rfl
    exact hvalue

theorem isolated_of_apply (h : System.apply r.library.sha256 c o s answer t) :
    ∀ x ∈ s.isolated, x ∈ t.isolated := by
  cases o with
  | journal o =>
    obtain ⟨fs', failed, -, -, -, rfl⟩ := h
    exact fun _ hx => hx
  | _ =>
    refine (tame_of_apply (n := .temporary 0) ?_ h).isolated
    exact trivial

/-- What was asked stays asked. -/
theorem asked_survives (body : Work α) (hs : Asked c s) :
    Finishes r c body s (fun _ => Asked c) (fun _ => Asked c) := by
  have hguards := Prog.Uses.guards (B := favourable r c) (I := Asked c)
    (fun o u answer v _ hop hu => by
      obtain ⟨x, hx, hc⟩ := hu
      obtain ⟨⟨w, hw, happly⟩, -⟩ := hop
      have hsame : w.isolated = u.isolated := by
        obtain rfl | rfl := hw <;> rfl
      exact ⟨x, isolated_of_apply happly x (hsame ▸ hx), hc⟩)
    (Prog.uses_true body.run) hs
  apply Prog.Guards.mono (fun _ _ => trivial) _ hguards
  intro value u hu
  cases value with
  | ok a => exact hu
  | error e => exact hu

/-- A computed value that is no error. -/
theorem Finishes.past {β : Type} {value : Except Err α} {a : α} {next : α → Work β}
    {Q : β → System → Prop} (hvalue : value = .ok a) (h : Finishes r c (next a) s Q E) :
    Finishes r c (Body.result value >>= next) s Q E := by
  subst hvalue
  exact h

/-- An identity of the runner is one of the executor. -/
theorem executionDigest_eq {sha256 : Bytes → Bytes} (hid : digestPattern executionID = true) :
    executionDigest sha256 executionID = .ok ("sha256:" ++ hexEncode
      (sha256 (stringBytes "TOS-AI-EXECUTION-ID-V1" ++ [0] ++ stringBytes executionID))) := by
  have hsize := utf8ByteSize_of_matchesHex64 hid
  rw [executionDigest, if_neg]
  rintro (rfl | hlong)
  · cases hsize
  · rw [hsize] at hlong
    exact absurd hlong (by decide)

/-- The executor is stopped by nothing before it asks the container runtime. -/
theorem policyExecutor_asks {input : Bytes} (hid : digestPattern executionID = true)
    (hinput : input.length ≤ frozenV1Policy.maxInputBytes.toNat) :
    Finishes r c
      (policyExecutor library.sha256 frozenV1Policy executionID frozenV1Contract.spec input)
      s (fun _ => Asked c) (fun _ => Asked c) := by
  apply Survives.bind (R := fun cancelled t => cancelled = true → Asked c t)
  · apply Survives.perform trivial
    rintro cancelled t ⟨⟨u, hu, rfl, rfl⟩, hfavours⟩
    refine ⟨trivial, fun hcancelled => ?_⟩
    obtain ⟨x, hx, hc⟩ := hfavours hcancelled
    refine ⟨x, ?_, hc⟩
    obtain rfl | rfl := hu <;> exact hx
  intro cancelled t _ hcancelled
  cases cancelled with
  | true => exact .throw trivial (hcancelled rfl)
  | false =>
    show Finishes r c (runWithin library.sha256 frozenV1Policy executionID frozenV1Contract.spec
      input) t _ _
    apply Finishes.past (executionDigest_eq hid)
    apply Finishes.past check_frozenV1
    apply Finishes.past (if_pos (decide_eq_true hinput))
    apply Survives.bind (R := fun _ => Asked c)
    · apply Survives.perform trivial
      rintro answer u ⟨⟨v, -, rfl⟩, -⟩
      exact ⟨trivial, _, List.mem_cons_self, rfl⟩
    intro answer u _ hu
    exact asked_survives _ hu

/-- **A call that finds no record leaves none, or has asked the container runtime.** -/
theorem execute_absent (hmodest : Modest request) (hs : Absent (recordName request.executionID) s) :
    Finishes (frozenRunner library maximum) c ((frozenRunner library maximum).execute request) s
      (fun _ t => Absent (recordName request.executionID) t ∨
        digestPattern request.executionID = true ∧ Asked c t)
      (fun _ t => Absent (recordName request.executionID) t ∨
        digestPattern request.executionID = true ∧ Asked c t) := by
  apply Survives.bind ((validateRequest_absent hs).conseq (fun _ _ h => h) (fun _ _ h => .inl h))
  rintro _ t - ⟨haccepts, ht⟩
  apply Survives.bind (digest_absent _ ht)
  rintro fp u - ⟨-, hu⟩
  apply Survives.bind ((claim_absent hu).conseq (fun _ _ h => h) (fun _ _ h => .inl h))
  rintro ⟨lease, record⟩ v - hlease
  obtain rfl : lease = true := hlease
  have hid := haccepts.digestPattern
  apply Survives.bind ((policyExecutor_asks hid hmodest).conseq (fun _ _ h => h)
    (fun _ _ h => .inr ⟨hid, h⟩))
  intro result w _ hw
  exact (asked_survives _ hw).conseq (fun _ _ h => .inr ⟨hid, h⟩) (fun _ _ h => .inr ⟨hid, h⟩)

/-! ## Histories leave requests retryable -/

/-- Every record is one the container runtime was asked about. -/
structure Clean (s : System) : Prop where
  fresh : ∀ c, s.next ≤ c → s.began c = none
  held : ∀ executionID, Holds s executionID → Reached s executionID

theorem recordName_injective {a b : String} (ha : digestPattern a = true)
    (hb : digestPattern b = true) (h : recordName a = recordName b) : a = b := by
  have hdrop : a.toList.drop 7 = b.toList.drop 7 :=
    String.ofList_injective (JournalName.record.inj h)
  exact eq_of_matchesHex64 ha hb hdrop

theorem Clean.begin (process : Nat) (m : Method) (h : Clean s) : Clean (s.begin process m) where
  fresh := by
    intro c hc
    have hne : c ≠ s.next := by
      have hle : s.next + 1 ≤ c := hc
      omega
    show Function.update s.began s.next _ c = none
    rw [Function.update_of_ne hne]
    exact h.fresh c (Nat.le_of_succ_le hc)
  held := by
    intro executionID hheld
    obtain ⟨x, hx, b, request, hb, hmethod⟩ := h.held executionID hheld
    have hne : x.1 ≠ s.next := by
      intro heq
      rw [heq, h.fresh s.next (Nat.le_refl _)] at hb
      cases hb
    refine ⟨x, hx, b, request, ?_, hmethod⟩
    show Function.update s.began s.next _ x.1 = some b
    rw [Function.update_of_ne hne]
    exact hb

theorem Reached.tame (h : Reached s executionID) (htame : Tame n s t) :
    Reached t executionID := by
  obtain ⟨x, hx, b, request, hb, hmethod⟩ := h
  exact ⟨x, htame.isolated x hx, b, request, by rw [htame.began]; exact hb, hmethod⟩

/-- **A call keeps every record one the container runtime was asked about.** -/
theorem Clean.call {process : Nat} {answer : Answer} (h : Clean s) (hmodest : Modest request)
    (hsteps : Prog.Steps (favourable (frozenRunner library maximum) s.next)
      (program (frozenRunner library maximum) (.execute request))
      (s.begin process (.execute request)) (.ret answer) t) :
    Clean t := by
  have hbegun := h.begin process (.execute request)
  have htame : Tame (recordName request.executionID) (s.begin process (.execute request)) t := by
    have hmindful : Mindful (frozenRunner library maximum) s.next (recordName request.executionID)
        (s.begin process (.execute request))
        (body (frozenRunner library maximum) (.execute request)) :=
      .bind (execute_mindful library maximum request)
        fun outcome => mindful_of_uses (.pure (Result.executed outcome))
    exact (hmindful _ (.refl _ _)).cut hsteps
  constructor
  · intro c hc
    rw [htame.began]
    exact hbegun.fresh c (by rw [← htame.next]; exact hc)
  rintro executionID ⟨hid, hsome⟩
  by_cases hbefore : Holds (s.begin process (.execute request)) executionID
  · exact (hbegun.held executionID hbefore).tame htame
  -- The record is new, so it is that of the request, and there was none.
  have hnone : Absent (recordName executionID) (s.begin process (.execute request)) := by
    rw [Absent, ← Option.not_isSome_iff_eq_none]
    exact fun hsome => hbefore ⟨hid, hsome⟩
  have hname : recordName executionID = recordName request.executionID := by
    by_contra hne
    have hsame := htame.others _ hne
    rw [show t.journal.now (recordName executionID) = _ from hsame] at hsome
    exact hbefore ⟨hid, hsome⟩
  rw [hname] at hnone hsome
  have hdone : Absent (recordName request.executionID) t ∨
      digestPattern request.executionID = true ∧ Asked s.next t := by
    have hends : Finishes (frozenRunner library maximum) s.next
        (body (frozenRunner library maximum) (.execute request))
        (s.begin process (.execute request))
        (fun _ t => Absent (recordName request.executionID) t ∨
          digestPattern request.executionID = true ∧ Asked s.next t)
        (fun _ t => Absent (recordName request.executionID) t ∨
          digestPattern request.executionID = true ∧ Asked s.next t) :=
      .bind (execute_absent hmodest hnone) fun _ _ _ hu => .pure trivial hu
    have hvalue := hends.ends hsteps
    cases answer with
    | ok result | error err => exact hvalue
  rcases hdone with habsent | ⟨hpattern, x, hx, hcall⟩
  · rw [habsent] at hsome
    cases hsome
  · refine ⟨x, hx, ⟨process, .execute request, s.journal.now, s.objects.now⟩, request, ?_, rfl,
      (recordName_injective hid hpattern hname).symm⟩
    rw [htame.began, hcall]
    exact Function.update_self _ _ _

theorem clean_of_history (h : History (frozenRunner library maximum)
      (favourable (frozenRunner library maximum)) Modest s) :
    Clean s := by
  induction h with
  | init =>
    refine ⟨fun _ _ => rfl, ?_⟩
    rintro executionID ⟨-, hsome⟩
    cases hsome
  | cancel _ c ih => exact ⟨ih.fresh, ih.held⟩
  | call _ hmodest hsteps ih =>
    have hclean := ih.call hmodest hsteps
    exact ⟨hclean.fresh, hclean.held⟩

/-! ## Calls that burn a claim -/

/-- **A claim is burned** where the context is cancelled or the source too large for the
policy: the call fails, leaves a record, and has not asked the container runtime. -/
theorem execute_burns (hhash : ∀ bytes, (library.sha256 bytes).length = 32)
    (haccepts : (frozenRunner library maximum).Accepts request)
    (hfree : s.mu (s.processOf c) = none) (hnone : Absent (recordName request.executionID) s)
    (hstopped : s.cancelled c = true ∨ ¬Modest request) :
    Ends (calm (frozenRunner library maximum) c) ((frozenRunner library maximum).execute request) s
      (fun _ _ => False)
      (fun _ t => Holds t request.executionID ∧ t.isolated = s.isolated ∧ t.began = s.began) := by
  apply executeClaim_ends lenient_healthy haccepts (matchesHex64_append (hhash _)) hfree
  refine (claimFree_ends (by exact hnone)).conseq ?_ (fun _ _ h => h.elim)
  rintro ⟨lease, record⟩ v ⟨hanswer, hnow, _, _, hv⟩
  obtain ⟨rfl, rfl⟩ := Prod.mk.inj hanswer
  have hburned : Holds (v.give c) request.executionID ∧ (v.give c).isolated = s.isolated ∧
      (v.give c).began = s.began := by
    refine ⟨⟨haccepts.digestPattern, ?_⟩, by rw [hv]; rfl, by rw [hv]; rfl⟩
    rw [show (v.give c).journal.now _ = _ from hnow]
    rfl
  -- The executor looks at the context, and then at the input.
  apply Ends.bind (R := fun _ _ => False) _ (fun _ _ h => h.elim)
  apply Ends.chain
  apply asks_ends (o := .contextErr) trivial
  rintro cancelled w - ⟨⟨rfl, rfl⟩, -⟩
  have hcontext : (v.give c).cancelled = s.cancelled := by
    rw [hv]
    rfl
  rw [hcontext]
  cases hcancelled : s.cancelled c with
  | true => exact .throw hburned
  | false =>
    have hlarge : ¬Modest request := by
      rw [hcancelled] at hstopped
      exact hstopped.resolve_left Bool.false_ne_true
    have hinput : frozenV1Policy.validateInput request.sourceArchive =
        .error (.text "executor input exceeds policy") :=
      if_neg (by simpa [Modest] using hlarge)
    show Ends _ (runWithin library.sha256 frozenV1Policy request.executionID
      frozenV1Contract.spec request.sourceArchive) _ _ _
    rw [runWithin, executionDigest_eq haccepts.digestPattern, check_frozenV1, hinput]
    exact hburned

/-- **A request that has not reached the backend stays retryable** in every history in which
no source is too large for the policy, no context is found cancelled before the container
runtime was asked, and what was claimed can be removed.  A call without the first or the
second burns its claim. -/
theorem unreached_request_stays_retryable (library : Library) (maximum : Nat)
    (hhash : ∀ bytes, (library.sha256 bytes).length = 32) :
    (∀ s, History (frozenRunner library maximum) (favourable (frozenRunner library maximum))
        Modest s →
      ∀ e ∈ s.returned, ∀ b request err, s.began e.call = some b → b.method = .execute request →
        e.answer = .error err → ¬Reached s request.executionID → ¬Holds s request.executionID) ∧
    ∀ s c request, (frozenRunner library maximum).Accepts request →
      s.mu (s.processOf c) = none → ¬Holds s request.executionID →
      ¬Reached s request.executionID → s.cancelled c = true ∨ ¬Modest request →
      Ends (calm (frozenRunner library maximum) c)
        ((frozenRunner library maximum).execute request) s (fun _ _ => False)
        (fun _ t => Holds t request.executionID ∧ ¬Reached t request.executionID) := by
  constructor
  · intro s hhistory e _ b request err _ _ _ hunreached hholds
    exact hunreached ((clean_of_history hhistory).held _ hholds)
  · intro s c request haccepts hfree hnone hunreached hstopped
    have habsent : Absent (recordName request.executionID) s := by
      rw [Absent, ← Option.not_isSome_iff_eq_none]
      exact fun hsome => hnone ⟨haccepts.digestPattern, hsome⟩
    apply (execute_burns hhash haccepts hfree habsent hstopped).conseq (fun _ _ h => h)
    rintro _ t ⟨hholds, hisolated, hbegan⟩
    refine ⟨hholds, ?_⟩
    rwa [Reached, hisolated, hbegan]

section Sample

def sampleFrozen : Runner := frozenRunner sampleRunner.library (2 ^ 20)

theorem accepts_sampleFrozen : sampleFrozen.Accepts sampleRequest :=
  ⟨accepts_sampleRequest.wellFormed, accepts_sampleRequest.source, accepts_sampleRequest.length⟩

/-- Every write to the journal fails, nothing else does, and no context is cancelled. -/
def torn : (o : Op) → System → Res o → Prop
  | .journal (.write _ _), _, answer | .contextErr, _, answer => answer = false
  | o, s, answer => healthy o s answer

theorem lenient_torn : Lenient torn :=
  ⟨fun _ _ _ => trivial, fun _ => trivial, fun _ => trivial⟩

theorem favourable_of_torn (h : behave r torn c o s answer t) :
    favourable r c o s answer t := by
  refine ⟨⟨s, .inl rfl, h.1⟩, ?_⟩
  cases o with
  | contextErr => exact fun htrue => absurd (h.2.symm.trans htrue) Bool.false_ne_true
  | journal o =>
    cases o with
    | remove n =>
      cases n with
      | record hex => exact h.2
      | _ => exact trivial
    | _ => exact trivial
  | _ => exact trivial

/-- A claim that cannot be written, where there is no record. -/
theorem tornClaim_ends {fp : String} (hnone : Absent (recordName executionID) s) :
    Ends (behave r torn c) (claimRecord executionID fp) s (fun _ _ => False)
      (fun err t => err = .text "write software-work claim" ∧ Beside s t) := by
  apply Ends.chain
  refine journalStep_ends (.inl ⟨hnone, rfl, rfl⟩) trivial (fun h => nomatch h) ?_
  rintro _ fs failed (⟨-, rfl, rfl⟩ | ⟨hsome, rfl, -⟩ | ⟨rfl, -⟩) hhealthy
  · apply Ends.bind (R := fun _ _ => False) _ (fun _ _ h => h.elim)
    apply Ends.chain
    refine journalStep_ends (.inr ⟨rfl, 0, Nat.zero_le _, rfl⟩) trivial rfl ?_
    rintro _ fs failed' - rfl
    -- the file is closed and removed
    apply Ends.bind (R := fun _ _ => False) _ (fun _ _ h => h.elim)
    apply Ends.bind (R := fun _ t => Beside s t)
    · apply Ends.chain
      refine journalStep_ends (FsOp.apply_run _ _) trivial rfl ?_
      intro closed fs _ _ _
      apply Ends.chain
      refine journalStep_ends (FsOp.apply_run _ _) trivial
        (FsOp.healthy_run (o := .remove _) rfl _) ?_
      intro removed fs _ _ _
      exact ⟨_, _, rfl⟩
    · intro _ t hbeside
      exact .throw ⟨rfl, hbeside⟩
  · rw [hnone] at hsome
    cases hsome
  · exact absurd rfl hhealthy

theorem execute_torn (hhash : ∀ bytes, (library.sha256 bytes).length = 32)
    (haccepts : (frozenRunner library maximum).Accepts request)
    (hfree : s.mu (s.processOf c) = none) (hnone : Absent (recordName request.executionID) s) :
    Ends (behave (frozenRunner library maximum) torn c)
      ((frozenRunner library maximum).execute request) s (fun _ _ => False) (fun err t =>
        err = .text "write software-work claim" ∧ t.isolated = s.isolated ∧ t.began = s.began) := by
  apply executeClaim_ends lenient_torn haccepts (matchesHex64_append (hhash _)) hfree
  refine (tornClaim_ends (by exact hnone)).conseq (fun _ _ h => h.elim) ?_
  rintro err t ⟨rfl, _, _, rfl⟩
  exact ⟨rfl, rfl, rfl⟩

/-- A history that ends with a call that fails. -/
theorem history_fails {B : Nat → (o : Op) → System → Res o → System → Prop} {P : Request → Prop}
    {G : (o : Op) → System → Res o → Prop} {D : Err → System → Prop} (hrequest : P request)
    (hB : ∀ o u answer v, behave sampleFrozen G s.next o u answer v → B s.next o u answer v)
    (hbefore : History sampleFrozen B P s) (hisolated : s.isolated = [])
    (hends : Ends (behave sampleFrozen G s.next) (sampleFrozen.execute request)
      (s.begin 0 (.execute request)) (fun _ _ => False) (fun err t => D err t ∧
        t.isolated = s.isolated ∧ t.began = (s.begin 0 (.execute request)).began)) :
    ∃ t err, History sampleFrozen B P (t.finish s.next (.error err)) ∧
      t.began s.next = some ⟨0, .execute request, s.journal.now, s.objects.now⟩ ∧
      ¬Reached t request.executionID ∧ D err t := by
  have hbody : Ends (behave sampleFrozen G s.next) (body sampleFrozen (.execute request))
      (s.begin 0 (.execute request)) (fun _ _ => False) _ :=
    .bind hends fun _ _ h => h.elim
  obtain ⟨answer, t, hsteps, hanswer⟩ := hbody.steps
  cases answer with
  | ok result => exact hanswer.elim
  | error err =>
    obtain ⟨hD, hsame, hbegan⟩ := hanswer
    refine ⟨t, err, .call hbefore hrequest (hsteps.mono hB), ?_, ?_, hD⟩
    · rw [hbegan]
      exact Function.update_self _ _ _
    · rintro ⟨x, hx, -⟩
      rw [hsame, hisolated] at hx
      cases hx

theorem history_torn (haccepts : sampleFrozen.Accepts request) (hmodest : Modest request) :
    ∃ t err, History sampleFrozen (favourable sampleFrozen) Modest (t.finish 1 (.error err)) ∧
      t.began 1 = some ⟨0, .execute request, fun _ => none, fun _ => none⟩ ∧
      ¬Reached t request.executionID ∧ err = .text "write software-work claim" :=
  history_fails (s := System.init) (D := fun err _ => err = .text "write software-work claim")
    hmodest (fun _ _ _ _ => favourable_of_torn) .init rfl
    (execute_torn lawful_sampleRunner.hash haccepts rfl rfl)

/-- A claim whose text cannot be written is removed. -/
theorem unreached_request_stays_retryable_sample : ∃ s e b,
    History sampleFrozen (favourable sampleFrozen) Modest s ∧ e ∈ s.returned ∧
    s.began e.call = some b ∧ b.method = .execute sampleRequest ∧
    e.answer = .error (.text "write software-work claim") ∧
    ¬Reached s sampleRequest.executionID ∧ ¬Holds s sampleRequest.executionID := by
  have hmodest : Modest sampleRequest := by
    show sampleRequest.sourceArchive.length ≤ frozenV1Policy.maxInputBytes.toNat
    decide +kernel
  obtain ⟨t, err, hhistory, hbegan, hunreached, rfl⟩ := history_torn accepts_sampleFrozen hmodest
  have hsafe := (unreached_request_stays_retryable sampleRunner.library (2 ^ 20)
    lawful_sampleRunner.hash).1 _ hhistory _ List.mem_cons_self _ _ _ hbegan rfl rfl hunreached
  exact ⟨_, _, _, hhistory, List.mem_cons_self, hbegan, rfl, rfl, hunreached, hsafe⟩

/-- A source that is one byte too large. -/
def sampleLarge : Request :=
  { sampleRequest with
    sourceArchive := List.replicate (16 * 2 ^ 20 + 1) 1
    sourceDigest := digestText (sampleHash (List.replicate (16 * 2 ^ 20 + 1) 1)) }

theorem accepts_sampleLarge : sampleFrozen.Accepts sampleLarge where
  wellFormed := by
    have hsource : digestPattern sampleLarge.sourceDigest = true :=
      matchesHex64_append (lawful_sampleRunner.hash _)
    have hrest : (quoteCommitmentPattern sampleRequest.quoteCommitment &&
      digestPattern sampleRequest.executionID && digestPattern sampleRequest.inputDigest) =
        true := by
      decide +kernel
    rw [Request.wellFormed, hsource, Bool.and_true]
    exact hrest
  source := rfl
  length := by
    show (List.replicate (16 * 2 ^ 20 + 1) (1 : UInt8)).length ≤ _
    rw [List.length_replicate]
    decide +kernel

/-- A history that ends with a call that burns its claim. -/
theorem history_burns {request : Request} (haccepts : sampleFrozen.Accepts request)
    (hbefore : History sampleFrozen (ordinary sampleFrozen) (fun _ => True) s)
    (hs : s.journal = .empty ∧ s.mu = (fun _ => none) ∧ s.isolated = [])
    (hstopped : s.cancelled s.next = true ∨ ¬Modest request) :
    ∃ t err, History sampleFrozen (ordinary sampleFrozen) (fun _ => True)
        (t.finish s.next (.error err)) ∧
      t.began s.next = some ⟨0, .execute request, s.journal.now, s.objects.now⟩ ∧
      ¬Reached t request.executionID ∧ Holds t request.executionID := by
  obtain ⟨hjournal, hmu, hisolated⟩ := hs
  have hfree : (s.begin 0 (.execute request)).mu
      ((s.begin 0 (.execute request)).processOf s.next) = none := by
    show s.mu _ = none
    rw [hmu]
  have hnone : Absent (recordName request.executionID) (s.begin 0 (.execute request)) := by
    show s.journal.now _ = none
    rw [hjournal]
    rfl
  exact history_fails trivial (fun o u answer v hop => ⟨u, .inl rfl, hop.1⟩) hbefore hisolated
    (execute_burns lawful_sampleRunner.hash haccepts hfree hnone hstopped)

/-- **Claims that are burned**: one by a source of one byte more than 16 MiB, one by a
context that was cancelled before the call. -/
theorem unreached_request_not_retryable :
    (∃ s e b err, History sampleFrozen (ordinary sampleFrozen) (fun _ => True) s ∧
      e ∈ s.returned ∧ s.began e.call = some b ∧ b.method = .execute sampleLarge ∧
      e.answer = .error err ∧ ¬Reached s sampleLarge.executionID ∧
      Holds s sampleLarge.executionID) ∧
    ∃ s e b err, History sampleFrozen (ordinary sampleFrozen) (fun _ => True) s ∧
      e ∈ s.returned ∧ s.began e.call = some b ∧ b.method = .execute sampleRequest ∧
      e.answer = .error err ∧ ¬Reached s sampleRequest.executionID ∧
      Holds s sampleRequest.executionID := by
  constructor
  · have hlarge : ¬Modest sampleLarge := by
      show ¬(List.replicate (16 * 2 ^ 20 + 1) (1 : UInt8)).length ≤ _
      rw [List.length_replicate]
      decide +kernel
    obtain ⟨t, err, hhistory, hbegan, hunreached, hholds⟩ :=
      history_burns accepts_sampleLarge .init ⟨rfl, rfl, rfl⟩ (.inr hlarge)
    exact ⟨_, _, _, err, hhistory, List.mem_cons_self, hbegan, rfl, rfl, hunreached, hholds⟩
  · obtain ⟨t, err, hhistory, hbegan, hunreached, hholds⟩ :=
      history_burns accepts_sampleFrozen (.cancel .init 1) ⟨rfl, rfl, rfl⟩ (.inl rfl)
    exact ⟨_, _, _, err, hhistory, List.mem_cons_self, hbegan, rfl, rfl, hunreached, hholds⟩

end Sample

end TosAi.SoftwareWork
