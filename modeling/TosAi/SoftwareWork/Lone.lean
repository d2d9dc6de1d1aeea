/-
  Calls that run on their own and come to their end.

  `behave` restricts the answers of a call's operations, and `calm` to those of operations
  that do not fail.  What is shown here with `Ends` is total: the call is never stuck, and
  it returns what is said.  The calls that matter are those that find something: a `Get` of an
  object that is there, and an `Execute` whose record is complete.
-/
import TosAi.SoftwareWork.Runs

set_option autoImplicit false

namespace TosAi.SoftwareWork

open Foundation
open Foundation.Json (Bytes)

/-! ## Operations that do not fail -/

/-- The operation does not fail for a reason of its own. -/
def healthy : (o : Op) → System → Res o → Prop
  | .journal o, s, answer => o.healthy s.journal answer
  | .objects o, s, answer => o.healthy s.objects answer
  | .link _ _, _, answer => answer ≠ .error .io
  | .openJournal, _, answer | .openObjects, _, answer => answer = true
  | _, _, _ => True

/-- What an operation of call `c` does when its answer is as `G` says. -/
def behave (r : Runner) (G : (o : Op) → System → Res o → Prop) (c : Nat) (o : Op) (s : System)
    (answer : Res o) (s' : System) : Prop :=
  System.apply r.library.sha256 c o s answer s' ∧ G o s answer

/-- Nothing fails. -/
abbrev calm (r : Runner) (c : Nat) : (o : Op) → System → Res o → System → Prop :=
  behave r healthy c

/-- Nothing is asked of the hash and of the mutex. -/
structure Lenient (G : (o : Op) → System → Res o → Prop) : Prop where
  hash : ∀ bytes s answer, G (.hash bytes) s answer
  lock : ∀ s, G .lockMutex s ()
  unlock : ∀ s, G .unlockMutex s ()

theorem lenient_healthy : Lenient healthy :=
  ⟨fun _ _ _ => trivial, fun _ => trivial, fun _ => trivial⟩

variable {r : Runner} {c : Nat} {s t : System} {G : (o : Op) → System → Res o → Prop}
  {E : Err → System → Prop}

/-- Nothing has changed but what was noted. -/
def Same (s t : System) : Prop :=
  ∃ troubled, t = { s with troubled }

/-- The operation only asks for something. -/
def Asks : Op → Prop
  | .objects (.read _) | .journal (.read _) | .contextErr | .now | .openJournal | .openObjects =>
    True
  | _ => False

variable {fp message executionID : String} {o : Op} {f : File} {α : Type} {request : Request}

theorem same_of_asks {answer : Res o} (ho : Asks o)
    (h : System.apply r.library.sha256 c o s answer t) : Same s t := by
  cases o with
  | journal o =>
    obtain ⟨fs', failed, happly, -, -, rfl⟩ := h
    cases o <;> first | exact ho.elim | skip
    obtain ⟨rfl, -⟩ := happly
    exact ⟨_, rfl⟩
  | objects o =>
    obtain ⟨fs', failed, happly, -, rfl⟩ := h
    cases o <;> first | exact ho.elim | skip
    obtain ⟨rfl, -⟩ := happly
    exact ⟨_, rfl⟩
  | contextErr =>
    obtain ⟨rfl, -⟩ := h
    exact ⟨_, rfl⟩
  | now | openJournal | openObjects =>
    obtain rfl := h
    exact ⟨_, rfl⟩
  | _ => exact ho.elim

/-- Such an operation has an answer. -/
theorem exists_of_asks (ho : Asks o) (s : System) : ∃ answer t, calm r c o s answer t := by
  cases o with
  | journal o =>
    cases o <;> first | exact ho.elim | skip
    rename_i n
    have hhealthy := FsOp.healthy_run (c := c) (o := .read n) rfl s.journal
    exact ⟨_, _, ⟨_, false, FsOp.apply_run (.read n) s.journal, trivial, .inl hhealthy, rfl⟩,
      hhealthy⟩
  | objects o =>
    cases o <;> first | exact ho.elim | skip
    rename_i n
    have hhealthy := FsOp.healthy_run (c := c) (o := .read n) rfl s.objects
    exact ⟨_, _, ⟨_, false, FsOp.apply_run (.read n) s.objects, .inl hhealthy, rfl⟩, hhealthy⟩
  | contextErr => exact ⟨_, s, ⟨rfl, rfl⟩, trivial⟩
  | now => exact ⟨(0 : Int), s, rfl, trivial⟩
  | openJournal | openObjects => exact ⟨true, _, rfl, rfl⟩
  | _ => exact ho.elim

theorem step_ends {Q : Res o → System → Prop} (hsome : ∃ answer t, behave r G c o s answer t)
    (h : ∀ answer t, behave r G c o s answer t → Q answer t) :
    Ends (behave r G c) (perform o) s Q E :=
  .call hsome h

/-- One operation that only asks, with what its answer says. -/
theorem asks_ends (ho : Asks o) {Q : Res o → System → Prop}
    (h : ∀ answer t, Same s t → calm r c o s answer t → Q answer t) :
    Ends (calm r c) (perform o) s Q E := by
  apply step_ends (exists_of_asks ho s)
  intro answer t hcalm
  exact h answer t (same_of_asks ho hcalm.1) hcalm

theorem ensure_ends {condition : Bool} {Q : Unit → System → Prop} (hok : condition = true → Q () s)
    (herror : condition = false → E (.text message) s) :
    Ends (behave r G c) (ensure condition message) s Q E := by
  unfold SoftwareWork.ensure Body.ensure
  cases condition with
  | true => exact hok rfl
  | false => exact herror rfl

variable {Q : α → System → Prop}

theorem attempt_ends {body : Work α} {R : Except Err α → System → Prop}
    {E' : Err → System → Prop} (h : Ends (behave r G c) body s Q E)
    (hok : ∀ a t, Q a t → R (.ok a) t) (herror : ∀ e t, E e t → R (.error e) t) :
    Ends (behave r G c) (Body.attempt body) s R E' := by
  apply Ends.lift
  apply Prog.Always.mono _ h
  intro value t hvalue
  cases value with
  | ok a => exact hok a t hvalue
  | error e => exact herror e t hvalue

theorem result_ends {value : Except Err α}
    (hok : ∀ a, value = .ok a → Q a s) (herror : ∀ e, value = .error e → E e s) :
    Ends (behave r G c) (Body.result value) s Q E := by
  cases value with
  | ok a => exact hok a rfl
  | error e => exact herror e rfl

/-- The state once some bytes have been hashed. -/
def System.hash (s : System) (bytes : Bytes) : System := { s with hashed := bytes :: s.hashed }

theorem hash_ends (hG : Lenient G) (bytes : Bytes) {Q : Bytes → System → Prop}
    (h : Q (r.library.sha256 bytes) (s.hash bytes)) :
    Ends (behave r G c) (perform (.hash bytes)) s Q E := by
  apply step_ends (o := .hash bytes) ⟨_, _, ⟨rfl, rfl⟩, hG.hash _ _ _⟩
  rintro answer t ⟨⟨rfl, rfl⟩, -⟩
  exact h

theorem digest_ends (hG : Lenient G) (bytes : Bytes) {Q : String → System → Prop}
    (h : Q (r.digestOf bytes) (s.hash bytes)) :
    Ends (behave r G c) (digest bytes) s Q E := by
  apply Ends.chain
  apply hash_ends hG
  exact h

/-! ## Get -/

theorem lookAt_ends {n : ObjectName} (hnow : s.objects.now n = some f) {Q : Seen → System → Prop}
    (h : ∀ t, Same s t → Q ⟨f, (s.objects.slot n).version⟩ t) :
    Ends (calm r c) (lookAt n message) s Q E := by
  apply Ends.chain
  apply asks_ends (o := .objects (.read n)) trivial
  intro answer t hsame hbehave
  obtain ⟨⟨fs', failed, ⟨-, ⟨g, hg, rfl⟩ | ⟨hnone, -⟩ | rfl⟩, -, rfl⟩, hhealthy⟩ := hbehave
  · obtain rfl := Option.some.inj (hg.symm.trans hnow)
    exact h _ hsame
  · rw [hnow] at hnone
    cases hnone
  · exact absurd rfl hhealthy

theorem contextErr_ends (hactive : s.cancelled c = false) {Q : Bool → System → Prop}
    (h : Q false s) : Ends (calm r c) (perform .contextErr) s Q E := by
  apply asks_ends (o := .contextErr) trivial
  rintro answer t - ⟨⟨rfl, rfl⟩, -⟩
  rw [hactive]
  exact h

/-- **A `Get` of an object that is there returns it.** -/
theorem get_ends {digest : String} (hpattern : digestPattern digest = true)
    (hnow : s.objects.now (objectName digest) = some f) (hperm : f.perm = 0o400)
    (hlength : f.data.length ≤ r.maximum) (hdigest : r.digestOf f.data = digest)
    (hactive : s.cancelled c = false) :
    Ends (calm r c) (get r.maximum digest) s (fun bytes _ => bytes = f.data)
      (fun _ _ => False) := by
  apply Ends.chain
  apply ensure_ends _ (fun hfails => by rw [hpattern] at hfails; cases hfails)
  intro _
  apply Ends.chain
  apply contextErr_ends hactive
  apply Ends.chain
  apply lookAt_ends hnow
  rintro _ ⟨_, rfl⟩
  apply Ends.chain
  apply ensure_ends _ (fun hfails => by simp [hperm, hlength] at hfails)
  intro _
  apply Ends.chain
  apply lookAt_ends (by exact hnow)
  rintro _ ⟨_, rfl⟩
  apply Ends.chain
  apply ensure_ends _ (fun hfails => by simp [hperm] at hfails)
  intro _
  apply Ends.chain
  apply contextErr_ends (by exact hactive)
  apply Ends.chain
  apply ensure_ends _ (fun hfails => by simp [hlength] at hfails)
  intro _
  apply Ends.chain
  apply hash_ends lenient_healthy
  apply Ends.chain
  apply ensure_ends
  · intro _
    rfl
  · intro hfails
    rw [beq_eq_false_iff_ne] at hfails
    exact hfails hdigest

/-! ## Execute with a complete record -/

/-- The mutex is taken. -/
def System.take (s : System) (c : Nat) : System :=
  { s with mu := Function.update s.mu (s.processOf c) (some c) }

/-- The mutex is given back. -/
def System.give (s : System) (c : Nat) : System :=
  { s with mu := Function.update s.mu (s.processOf c) none }

/-- A section under the mutex: it is free, the body ends, and it is given back. -/
theorem locked_ends (hG : Lenient G) {body : Work α} (hfree : s.mu (s.processOf c) = none)
    (hbody : Ends (behave r G c) body (s.take c) (fun a t => Q a (t.give c))
      (fun e t => E e (t.give c))) :
    Ends (behave r G c) (locked body) s Q E := by
  apply Ends.chain
  apply step_ends (o := .lockMutex) ⟨(), _, ⟨hfree, rfl⟩, hG.lock _⟩
  rintro _ t ⟨⟨-, rfl⟩, -⟩
  apply Ends.bind (R := fun value t => Discipline.Returns Q E value (t.give c))
  · apply attempt_ends hbody (fun _ _ h => h) (fun _ _ h => h)
  intro value t hvalue
  apply Ends.chain
  apply step_ends (o := .unlockMutex) ⟨(), _, rfl, hG.unlock _⟩
  rintro _ u ⟨rfl, -⟩
  apply result_ends
  · rintro a rfl
    exact hvalue
  · rintro e rfl
    exact hvalue

theorem lookAtRecord_ends {n : JournalName} (hnow : s.journal.now n = some f)
    {Q : Seen → System → Prop} (h : ∀ t, Same s t → Q ⟨f, (s.journal.slot n).version⟩ t) :
    Ends (calm r c) (lookAtRecord n message) s Q E := by
  apply Ends.chain
  apply asks_ends (o := .journal (.read n)) trivial
  intro answer t hsame hbehave
  obtain ⟨⟨fs', failed, ⟨-, ⟨g, hg, rfl⟩ | ⟨hnone, -⟩ | rfl⟩, -, -, rfl⟩, hhealthy⟩ := hbehave
  · obtain rfl := Option.some.inj (hg.symm.trans hnow)
    exact h _ hsame
  · rw [hnow] at hnone
    cases hnone
  · exact absurd rfl hhealthy

/-- A complete record is read. -/
theorem readJournalRecord_ends {n : JournalName} {o : Outcome}
    (hnow : s.journal.now n = some (JournalRecord.completed fp o).file)
    (hfp : digestPattern fp = true) (hshort : o.Short) {Q : JournalRecord → System → Prop}
    (h : ∀ t, Same s t → Q (.completed fp o) t) :
    Ends (calm r c) (readJournalRecord n) s Q E := by
  have hlength := length_line_le (r := .completed fp o) hfp hshort
  have hpos := line_ne_nil (JournalRecord.completed fp o)
  apply Ends.chain
  apply lookAtRecord_ends hnow
  rintro _ ⟨_, rfl⟩
  apply Ends.chain
  apply ensure_ends _ (fun hfails => by simp [JournalRecord.file, hlength, hpos] at hfails)
  intro _
  apply Ends.chain
  apply lookAtRecord_ends (by exact hnow)
  rintro _ ⟨_, rfl⟩
  unfold decoded
  rw [decodeRecord_completed hfp o]
  exact h _ ⟨_, rfl⟩

/-- Nothing has changed outside of the journal's directory. -/
def Beside (s t : System) : Prop :=
  ∃ journal troubled, t = { s with journal, troubled }

/-- One operation on the journal, which has an answer `G` allows. -/
theorem journalStep_ends {o : FsOp JournalName} {answer : o.Res} {fs : Fs JournalName}
    {Q : o.Res → System → Prop} (happly : o.apply c s.journal answer fs)
    (hnovel : novel o s.journal answer) (hG : G (.journal o) s answer)
    (h : ∀ answer fs' failed, o.apply c s.journal answer fs' → G (.journal o) s answer →
      Q answer (System.note c failed { s with journal := fs' })) :
    Ends (behave r G c) (perform (.journal o)) s Q E := by
  apply step_ends (o := .journal o) ⟨_, _, ⟨fs, true, happly, hnovel, .inr rfl, rfl⟩, hG⟩
  rintro answer t ⟨⟨fs', failed, happly, -, -, rfl⟩, hG⟩
  exact h answer fs' failed happly hG

theorem novel_run {o : FsOp JournalName} (ho : o.isCreateTemp = false) (fs : Fs JournalName) :
    novel o fs (o.run c fs).1 := by
  cases o <;> first | exact trivial | cases ho

theorem journal_ends {o : FsOp JournalName} (ho : o.isCreateTemp = false)
    {Q : o.Res → System → Prop}
    (h : ∀ answer fs' failed, o.apply c s.journal answer fs' → o.healthy s.journal answer →
      Q answer (System.note c failed { s with journal := fs' })) :
    Ends (calm r c) (perform (.journal o)) s Q E :=
  journalStep_ends (FsOp.apply_run o s.journal) (novel_run ho _) (FsOp.healthy_run ho _) h

/-- What a claim makes of a complete record: a conflict, or the record. -/
theorem claimRecord_ends (asked : String) {o : Outcome}
    (hnow : s.journal.now (recordName executionID) = some (JournalRecord.completed fp o).file)
    (hfp : digestPattern fp = true) (hshort : o.Short) :
    Ends (calm r c) (claimRecord executionID asked) s
      (fun answer t => asked = fp ∧ answer = (false, .completed fp o) ∧ t.invoked = s.invoked)
      (fun _ t => asked ≠ fp ∧ t.invoked = s.invoked) := by
  apply Ends.chain
  apply journal_ends rfl
  rintro _ fs' failed (⟨hnone, -, -⟩ | ⟨-, rfl, rfl⟩ | ⟨rfl, -⟩) hhealthy
  · rw [hnow] at hnone
    cases hnone
  · apply Ends.chain
    apply readJournalRecord_ends (s := s.note c failed) hnow hfp hshort
    rintro _ ⟨_, rfl⟩
    apply Ends.chain
    apply ensure_ends
    · intro hsame
      exact ⟨(beq_iff_eq.mp hsame).symm, rfl, rfl⟩
    · intro hfails
      exact ⟨fun hsame => beq_eq_false_iff_ne.mp hfails hsame.symm, rfl⟩
  · exact absurd rfl hhealthy

/-- A claim that may be made, where the mutex is free. -/
theorem claim_ends (hG : Lenient G) (hid : digestPattern executionID = true)
    (hfp : digestPattern fp = true) (hfree : s.mu (s.processOf c) = none)
    {Q : Bool × JournalRecord → System → Prop}
    (h : Ends (behave r G c) (claimRecord executionID fp) (s.take c) (fun a t => Q a (t.give c))
      (fun e t => E e (t.give c))) :
    Ends (behave r G c) (claim executionID fp) s Q E := by
  apply Ends.chain
  apply ensure_ends
  · intro _
    exact locked_ends hG hfree h
  · intro hfails
    rw [hid, hfp] at hfails
    cases hfails

theorem validateRequest_ends (hG : Lenient G) (haccepts : r.Accepts request) :
    Ends (behave r G c) (validateRequest r.contract request) s
      (fun _ t => t = s.hash request.sourceArchive) (fun _ _ => False) := by
  apply Ends.chain
  apply ensure_ends
  swap
  · intro hfails
    rw [haccepts.wellFormed] at hfails
    cases hfails
  intro _
  apply Ends.chain
  apply digest_ends hG
  apply ensure_ends (fun _ => rfl)
  intro hfails
  simp [haccepts.source, haccepts.length] at hfails

theorem refuseRequest_ends (hrefuses : ¬r.Accepts request) :
    Ends (calm r c) (validateRequest r.contract request) s (fun _ _ => False)
      (fun _ t => t.invoked = s.invoked) := by
  apply Ends.chain
  apply ensure_ends _ (fun _ => rfl)
  intro hformed
  apply Ends.chain
  apply digest_ends lenient_healthy
  apply ensure_ends _ (fun _ => rfl)
  intro hchecks
  simp only [Bool.and_eq_true, beq_iff_eq, decide_eq_true_eq] at hchecks
  exact hrefuses ⟨hformed, hchecks.1, hchecks.2⟩

/-- An `Execute` of a request that is accepted comes to its claim. -/
theorem executeClaim_ends (hG : Lenient G) (haccepts : r.Accepts request)
    (hfp : digestPattern (r.fingerprint request) = true) (hfree : s.mu (s.processOf c) = none)
    {Q : Outcome → System → Prop}
    (h : Ends (behave r G c) (claimRecord request.executionID (r.fingerprint request))
      (((s.hash request.sourceArchive).hash (request.encoded r.contract)).take c)
      (fun a t => Ends (behave r G c) (r.proceed request (r.fingerprint request) a.1 a.2)
        (t.give c) Q E)
      (fun e t => E e (t.give c))) :
    Ends (behave r G c) (r.execute request) s Q E := by
  apply Ends.bind ((validateRequest_ends hG haccepts).conseq (fun _ _ h => h) (fun _ _ h => h.elim))
  rintro _ t rfl
  apply Ends.chain
  apply digest_ends hG
  apply Ends.chain
  exact claim_ends hG haccepts.digestPattern hfp (by exact hfree) h

/-- **An `Execute` whose record is complete returns it, if it is that of the request.** -/
theorem execute_ends (hlawful : r.Lawful) {o : Outcome}
    (hnow : s.journal.now (recordName request.executionID) =
      some (JournalRecord.completed fp o).file)
    (hfp : digestPattern fp = true) (hshort : o.Short) (hfree : s.mu (s.processOf c) = none) :
    Ends (calm r c) (r.execute request) s
      (fun o' t => (r.Accepts request ∧ r.fingerprint request = fp) ∧ o' = o ∧
        t.invoked = s.invoked)
      (fun _ t => ¬(r.Accepts request ∧ r.fingerprint request = fp) ∧ t.invoked = s.invoked) := by
  by_cases haccepts : r.Accepts request
  swap
  · apply Ends.bind ((refuseRequest_ends haccepts).conseq (fun _ _ h => h.elim)
      (fun _ _ h => ⟨fun hboth => haccepts hboth.1, h⟩))
    intro _ _ h
    exact h
  apply executeClaim_ends lenient_healthy haccepts (hlawful.digestPattern_fingerprint request) hfree
  have hclaim := claimRecord_ends (r := r) (c := c) (r.fingerprint request)
    (s := ((s.hash request.sourceArchive).hash (request.encoded r.contract)).take c) hnow hfp hshort
  apply hclaim.conseq
  · rintro ⟨lease, record⟩ v ⟨hsame, hanswer, hinvoked⟩
    obtain ⟨rfl, rfl⟩ := Prod.mk.inj hanswer
    exact ⟨⟨haccepts, hsame⟩, rfl, hinvoked⟩
  · rintro err v ⟨hdiffers, hinvoked⟩
    exact ⟨fun h => hdiffers h.2, hinvoked⟩

/-! ## Execute without a record -/

theorem unlessDone_ends {recover : Work Unit} {Q : Unit → System → Prop} (h : Q () s) :
    Ends (behave r G c) (unlessDone true recover message) s Q E := h

/-- A claim is written to its file. -/
theorem writeClaim_ends {hex : String} {record : JournalRecord}
    (hopen : Fs.Open c s.journal (.record hex) f) :
    Ends (calm r c) (writeClaim (.record hex) record) s
      (fun _ t => t.journal.now (.record hex) = some { f with data := f.data ++ record.line } ∧
        Beside s t) (fun _ _ => False) := by
  apply Ends.chain
  apply journal_ends rfl
  rintro _ fs' failed (⟨rfl, rfl⟩ | ⟨rfl, -⟩) hhealthy
  swap
  · cases hhealthy
  apply Ends.chain
  apply unlessDone_ends
  have hopen₁ := hopen.append record.line
  apply Ends.chain
  apply journal_ends rfl
  rintro _ fs' failed' (⟨rfl, rfl⟩ | ⟨rfl, -⟩) hhealthy
  swap
  · cases hhealthy
  apply Ends.chain
  apply unlessDone_ends
  have hopen₂ := Fs.Open.flush hopen₁
  apply Ends.chain
  apply journal_ends rfl
  rintro closed fs' failed'' rfl hhealthy
  obtain rfl : closed = true := hhealthy
  apply Ends.chain
  apply unlessDone_ends
  apply Ends.bind (R := fun value t => value = .ok () ∧
    t.journal.now (.record hex) = some { f with data := f.data ++ record.line } ∧ Beside s t)
  · apply attempt_ends (Q := fun _ t =>
      t.journal.now (.record hex) = some { f with data := f.data ++ record.line } ∧ Beside s t)
      (E := fun _ _ => False) _ (fun _ _ h => ⟨rfl, h⟩) (fun _ _ h => h.elim)
    apply Ends.chain
    apply asks_ends (o := .openJournal) trivial
    rintro opened _ ⟨_, rfl⟩ ⟨-, hhealthy⟩
    obtain rfl : opened = true := hhealthy
    apply Ends.chain
    apply ensure_ends _ (fun h => nomatch h)
    intro _
    apply Ends.chain
    apply journal_ends rfl
    rintro _ fs' failed₃ (⟨rfl, rfl⟩ | ⟨rfl, -⟩) hhealthy
    swap
    · cases hhealthy
    apply ensure_ends _ (fun h => nomatch h)
    intro _
    exact ⟨hopen₂.now, _, _, rfl⟩
  · rintro value t ⟨rfl, hpresent, hsame⟩
    exact ⟨hpresent, hsame⟩

/-- A claim where there is no record. -/
theorem claimFree_ends (hnone : s.journal.now (recordName executionID) = none) :
    Ends (calm r c) (claimRecord executionID fp) s
      (fun answer t => answer = (true, .claimed fp) ∧
        t.journal.now (recordName executionID) = some (JournalRecord.claimed fp).file ∧ Beside s t)
      (fun _ _ => False) := by
  apply Ends.chain
  apply journal_ends rfl
  rintro _ fs' failed (⟨-, rfl, rfl⟩ | ⟨hsome, rfl, -⟩ | ⟨rfl, -⟩) hhealthy
  · apply Ends.bind
    · exact (writeClaim_ends (Fs.open_create 0o600)).conseq (fun _ _ h => h) (fun _ _ h => h)
    · rintro _ _ ⟨hpresent, _, _, rfl⟩
      exact ⟨rfl, hpresent, _, _, rfl⟩
  · rw [hnone] at hsome
    cases hsome
  · exact absurd rfl hhealthy

end TosAi.SoftwareWork
