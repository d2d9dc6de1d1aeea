/-
  Every call keeps the directory grounded.

  The rules below are those of the bodies again, for the discipline of the recorded Gate.
  An assertion is about what the call has learnt, which is never lost (`Rising`), and
  about its own writing so far.  Two things are used of the code: a text that goes to a
  record's name or to a temporary file is that of a record the call issued or found, and
  it goes to a file the call has just created.
-/
import TosAi.CommerceGate.Origin

set_option autoImplicit false

namespace TosAi.CommerceGate

open Foundation Foundation.Discipline

variable {C : Commerce} {α β : Type} {c g : Nat} {m : Method}

/-! ## Steps -/

section Steps

variable {r r' : Ran C} {o : Op C} {answer : Res o}

/-- A file is made where there is none. -/
theorem Creates.of_apply {d k : Nat} {n : FileName}
    (happly : (gateMachine C).recorded.apply c o r answer r') (hmade : Creates r'.history d n k) :
    Creates r.history d n k ∨
      (d = c ∧ k = r.state.losses ∧ r.state.fs.now n = none ∧ (r'.state.fs.now n).isSome) := by
  obtain ⟨before, after, hmem, rfl⟩ := hmade
  rw [happly.2] at hmem
  rcases List.mem_append.mp hmem with hold | hnew
  · exact .inl ⟨before, after, hold, rfl⟩
  · cases List.mem_singleton.mp hnew
    obtain ⟨fs', ⟨hnone, -, rfl⟩ | ⟨-, herr, -⟩ | ⟨herr, -⟩, hstate⟩ := happly.1
    · refine .inr ⟨rfl, rfl, hnone, ?_⟩
      rw [hstate, Fs.now, Fs.modify_slot_self]
      rfl
    · cases herr
    · cases herr

theorem MadeOnce.step (hr : MadeOnce r) (happly : (gateMachine C).recorded.apply c o r answer r')
    (hkept : ∀ n, n.isRecord = true → (r.state.fs.now n).isSome → (r'.state.fs.now n).isSome) :
    MadeOnce r' := by
  have hlosses := (apply_keeps happly.1).losses
  refine ⟨fun d n k hmade => ?_, fun d n hn hmade => ?_, fun d d' n k hn hmade hmade' => ?_⟩
  · rw [hlosses]
    rcases hmade.of_apply happly with hold | ⟨-, rfl, -⟩
    · exact hr.epoch d n k hold
    · exact Nat.le_refl _
  · rw [hlosses] at hmade
    rcases hmade.of_apply happly with hold | ⟨-, -, -, hnew⟩
    · exact hkept n hn (hr.present d n hn hold)
    · exact hnew
  · -- whoever makes the file finds none, while a file made since the power loss is there
    have hclash : ∀ d, Creates r.history d n r.state.losses → r.state.fs.now n = none → False := by
      intro d hold hnone
      simpa [hnone] using hr.present d n hn hold
    rcases hmade.of_apply happly with hold | ⟨rfl, rfl, hnone, -⟩
    · rcases hmade'.of_apply happly with hold' | ⟨-, rfl, hnone, -⟩
      · exact hr.once d d' n k hn hold hold'
      · exact (hclash d hold hnone).elim
    · rcases hmade'.of_apply happly with hold' | ⟨hd', -⟩
      · exact (hclash d' hold' hnone).elim
      · exact hd'.symm

/-- A step keeps the ground if it keeps the contents of the directory. -/
theorem Grounded.step (hr : Grounded r) (hcall : r.state.calls c = some (g, m))
    (happly : (gateMachine C).recorded.apply c o r answer r')
    (hcontents : r'.state.fs.Contents (fun n => n.isGuarded = true) (IssuedText r.history))
    (hopened : r'.state.fs.Opened r.state.next)
    (hkept : ∀ n, n.isRecord = true → (r.state.fs.now n).isSome → (r'.state.fs.now n).isSome) :
    Grounded r' := by
  have hmade := hr.made.step happly hkept
  obtain ⟨hstep, hhistory⟩ := happly
  obtain ⟨hcalls, -, hreturned, hnext, -⟩ := apply_keeps hstep
  have hlt : c < r.state.next := hr.fresh c (by rw [hcall]; exact Option.some_ne_none _)
  have hsub : r.history <+: r'.history := hhistory ▸ List.prefix_append _ _
  refine ⟨hcontents.mono fun _ => IssuedText.mono hsub, hnext ▸ hopened, fun n f _ => ?_,
    fun d hd => ?_, fun event hevent => ?_, fun d out hout => ?_, hmade⟩
  · rw [hnext]
    exact Nat.zero_lt_of_lt hlt
  · rw [hnext]
    exact hr.fresh d (hcalls ▸ hd)
  · rw [hnext, hcalls]
    rw [hhistory] at hevent
    rcases List.mem_append.mp hevent with hold | hnew
    · exact hr.past event hold
    · obtain rfl := List.mem_singleton.mp hnew
      exact ⟨hlt, fun _ h => h⟩
  · rw [hreturned] at hout
    obtain ⟨hd, hnone, g', m', hconsistent, hjust⟩ := hr.returned d out hout
    have hother : d ≠ c := by
      rintro rfl
      rw [hnone] at hcall
      cases hcall
    refine ⟨hnext ▸ hd, hcalls ▸ hnone, g', m', ?_, ?_⟩
    · intro event hevent hby
      rw [hhistory] at hevent
      rcases List.mem_append.mp hevent with hold | hnew
      · exact hconsistent event hold hby
      · obtain rfl := List.mem_singleton.mp hnew
        exact absurd hby.symm hother
    · refine hjust.mono hsub fun hp => ?_
      rw [hhistory]
      refine hp.append fun event hevent hby => ?_
      obtain rfl := List.mem_singleton.mp hevent
      exact absurd hby.symm hother

theorem Moves.of_apply (happly : (gateMachine C).recorded.apply c o r answer r')
    (hblank : ∀ d, d ≠ c → ∀ n, r.state.fs.Blank d n →
      ((∀ n', r.state.fs.Blank d n') ∨ n.IsGateTemp) → r'.state.fs.Blank d n) : Moves c r r' where
  history := ⟨_, happly.2, fun event hevent => by rw [List.mem_singleton.mp hevent]⟩
  calls := fun d _ => congrFun (apply_keeps happly.1).calls d
  blank := fun d hd hall n => hblank d hd n (hall n) (.inl hall)
  temps := fun d hd n hn h => hblank d hd n h (.inr hn)

/-- An operation that leaves the directory alone. -/
theorem quiet_step (ho : o.leavesFiles = true) (hr : Grounded r)
    (hcall : r.state.calls c = some (g, m))
    (happly : (gateMachine C).recorded.apply c o r answer r') :
    Grounded r' ∧ Moves c r r' ∧ Undisturbed c r r' := by
  have hfs : r'.state.fs = r.state.fs := (apply_keeps happly.1).files ho
  refine ⟨hr.step hcall happly (hfs ▸ hr.contents) (hfs ▸ hr.opened)
      fun n _ hsome => hfs ▸ hsome,
    .of_apply happly fun d _ n hn _ => hfs ▸ hn, ?_⟩
  refine ⟨happly.2 ▸ List.prefix_append _ _, congrFun (apply_keeps happly.1).calls c, fun hp => ?_,
    fun h => hfs ▸ h, fun _ _ h => hfs ▸ h⟩
  rw [happly.2]
  refine hp.append fun event hevent _ => ?_
  obtain rfl := List.mem_singleton.mp hevent
  exact hfs

end Steps

/-- What a file operation has to respect. -/
abbrev Fitting (c : Nat) (r : Ran C) (o : FsOp FileName) : Prop :=
  o.Fits c (fun n => n.isGuarded = true) FileName.IsGateTemp (IssuedText r.history) r.state.fs

/-- A file operation that fits. -/
theorem file_step_fits {r r' : Ran C} {o : FsOp FileName} {answer : o.Res} (hfits : Fitting c r o)
    (hr : Grounded r) (hcall : r.state.calls c = some (g, m))
    (happly : (gateMachine C).recorded.apply c (.file o) r answer r') :
    Grounded r' ∧ Moves c r r' := by
  have hlt : c < r.state.next := hr.fresh c (by rw [hcall]; exact Option.some_ne_none _)
  obtain ⟨fs', hfile, hstate⟩ := happly.1
  have hfs : r'.state.fs = fs' := by rw [hstate]
  have hcontents := FsOp.contents (.inl rfl) hfits hfile hr.contents
  have hopened := FsOp.opened hlt hfile hfits.rename_ne hr.opened
  refine ⟨hr.step hcall happly (hfs ▸ hcontents) (hfs ▸ hopened) fun n hn hsome => ?_,
    .of_apply happly ?_⟩
  · rw [hfs]
    exact FsOp.kept hfits hfile (isGuarded_of_isRecord hn) (not_isGateTemp hn) hsome
  intro d hd n hn hwhy
  rw [hfs]
  refine FsOp.blank hd hfile hfits.rename_ne hn fun a ho => ?_
  subst ho
  rcases hwhy with hall | htemp
  · exact hall a
  · exact absurd htemp hfits.2.2.1

/-! ## Rules -/

/-- The call is in flight, and `P`. -/
def At (c g : Nat) (m : Method) (P : Ran C → Prop) (r : Ran C) : Prop :=
  r.state.calls c = some (g, m) ∧ P r

theorem Lasting.at {P : Ran C → Prop} (hP : Lasting c P) : Lasting c (At c g m P) :=
  fun r r' h hr => ⟨h.calls.trans hr.1, hP r r' h hr.2⟩

/-- A specification of a body of call `c`. -/
abbrev Does (c g : Nat) (m : Method) (P : Ran C → Prop) (body : Gated C α)
    (Q : α → Ran C → Prop) (E : Err → Ran C → Prop) : Prop :=
  (originDiscipline C).Meets c (At c g m P) body (fun a => At c g m (Q a)) fun e => At c g m (E e)

variable {body : Gated C α}

section Rules

variable {P : Ran C → Prop} {Q : α → Ran C → Prop} {E : Err → Ran C → Prop}

theorem Does.bind {next : α → Gated C β} {Q : β → Ran C → Prop}
    {S : α → Ran C → Prop} (hbody : Does c g m P body S E)
    (hnext : ∀ a, Does c g m (S a) (next a) Q E) : Does c g m P (body >>= next) Q E :=
  Meets.bind hbody hnext

theorem Does.pure {a : α} (h : ∀ r, P r → Q a r) : Does c g m P (pure a) Q E :=
  Meets.pure fun r _ hr => ⟨hr.1, h r hr.2⟩

theorem Does.throw {e : Err} (h : ∀ r, P r → E e r) : Does c g m P (throw e : Gated C α) Q E :=
  Meets.throw fun r _ hr => ⟨hr.1, h r hr.2⟩

theorem Does.conseq {P' : Ran C → Prop} {Q' : α → Ran C → Prop}
    {E' : Err → Ran C → Prop} (hbody : Does c g m P body Q E) (hP : ∀ r, P' r → P r)
    (hQ : ∀ a r, Q a r → Q' a r) (hE : ∀ e r, E e r → E' e r) : Does c g m P' body Q' E' :=
  Meets.conseq hbody (fun r _ hr => ⟨hr.1, hP r hr.2⟩) (fun a r hr => ⟨hr.1, hQ a r hr.2⟩)
    fun e r hr => ⟨hr.1, hE e r hr.2⟩

/-- An operation that leaves the directory alone. -/
theorem Does.quiet {o : Op C} {Q : Res o → Ran C → Prop} (ho : o.leavesFiles = true)
    (hP : Lasting c P)
    (hstep : ∀ r a r', Grounded r → At c g m P r → Undisturbed c r r' →
      (gateMachine C).recorded.apply c o r a r' → Q a r') :
    Does c g m P (perform o) Q E := by
  refine .perform hP.at.stable fun r a r' hok hr happly _ => ?_
  obtain ⟨hgrounded, hmoves, hundisturbed⟩ := quiet_step ho hok.2 hr.1 happly
  exact ⟨hgrounded, hmoves, hundisturbed.calls.trans hr.1,
    hstep r a r' hok.2 hr hundisturbed happly⟩

/-- It is noted, and nothing is lost. -/
theorem Does.ask {o : Op C} (ho : o.leavesFiles = true) (hP : Lasting c P) :
    Does c g m P (perform o) (fun a r => P r ∧ Did r.history c o a) E := by
  refine .quiet ho hP ?_
  intro r a r' _ hr hundisturbed happly
  refine ⟨hP r r' hundisturbed hr.2, r.state, r'.state, ?_⟩
  rw [happly.2]
  exact List.mem_append_right _ (List.mem_singleton_self _)

/-- The same where the answer does not matter. -/
theorem Does.pass {o : Op C} (ho : o.leavesFiles = true) (hP : Lasting c P) :
    Does c g m P (perform o) (fun _ => P) E :=
  (Does.ask ho hP).conseq (fun _ h => h) (fun _ _ h => h.1) fun _ _ h => h

/-- A file operation that fits; what was learnt is kept. -/
theorem Does.file {o : FsOp FileName} {Q : o.Res → Ran C → Prop} (hP : Lasting c P)
    (hfits : ∀ r, P r → Fitting c r o)
    (hstep : ∀ r a r', P r → (gateMachine C).recorded.apply c (.file o) r a r' → Q a r') :
    Does c g m P (perform (.file o)) Q E := by
  refine .perform hP.at.stable fun r a r' hok hr happly _ => ?_
  obtain ⟨hgrounded, hmoves⟩ := file_step_fits (hfits r hr.2) hok.2 hr.1 happly
  have hstate : System.apply c (.file o) r.state a r'.state := happly.1
  exact ⟨hgrounded, hmoves, (congrFun (apply_keeps hstate).calls c).trans hr.1,
    hstep r a r' hr.2 happly⟩

theorem Does.ensure {condition : Bool} {message : String} (hE : ∀ r, P r → E (.text message) r) :
    Does c g m P (ensure condition message) (fun _ r => condition = true ∧ P r) E := by
  unfold CommerceGate.ensure
  split
  · exact .pure fun r hr => ⟨‹_›, hr⟩
  · exact .throw hE

/-- A test whose outcome does not matter later. -/
theorem Does.check {condition : Bool} {message : String} (hE : ∀ r, P r → E (.text message) r) :
    Does c g m P (CommerceGate.ensure condition message) (fun _ => P) E :=
  (Does.ensure hE).conseq (fun _ h => h) (fun _ _ h => h.2) fun _ _ h => h

theorem Does.nilError {err : Option Err} (hE : ∀ e r, P r → E e r) :
    Does c g m P (nilError err) (fun _ r => err = none ∧ P r) E := by
  unfold CommerceGate.nilError
  split
  · exact .pure fun r hr => ⟨rfl, hr⟩
  · exact .throw (hE _)

theorem Does.succeed {ok : Bool} (hE : ∀ r, P r → E .io r) :
    Does c g m P (succeed ok) (fun _ => P) E := by
  unfold CommerceGate.succeed
  split
  · exact .pure fun _ hr => hr
  · exact .throw hE

theorem Does.ofExcept {value : Except Err α} (hE : ∀ e r, P r → E e r) :
    Does c g m P (ofExcept value) (fun a r => value = .ok a ∧ P r) E := by
  cases value with
  | ok a => exact .pure (Q := fun a' r => Except.ok a = .ok a' ∧ P r) fun r hr => ⟨rfl, hr⟩
  | error e => exact .throw (α := α) (hE e)

theorem Does.attempt {E' : Err → Ran C → Prop} (hbody : Does c g m P body Q E) :
    Does c g m P (attempt body) (Returns Q E) E' := by
  refine Meets.conseq (Meets.attempt hbody) (fun _ _ h => h) ?_
    fun _ _ (h : False) => h.elim
  intro result r hr
  cases result with
  | ok a => exact hr
  | error e => exact hr

/-- Something after the body, whatever its result. -/
theorem Does.deferred {last : Op C} (hbody : Does c g m P body Q E)
    (hok : ∀ a, Does c g m (Q a) (perform last) (fun _ => Q a) E)
    (herror : ∀ e, Does c g m (E e) (perform last) (fun _ => E e) E) :
    Does c g m P (deferred body last) Q E := by
  refine .bind (.attempt hbody) fun result => ?_
  cases result with
  | ok a => exact .bind (hok a) fun _ => .pure fun _ h => h
  | error e => exact .bind (herror e) fun _ => .throw (α := α) fun _ h => h

/-- A section under the mutex. -/
theorem Does.locked (hP : Lasting c P) (hbody : Does c g m P body Q E)
    (hQ : ∀ a, Lasting c (Q a)) (hE : ∀ e, Lasting c (E e)) :
    Does c g m P (locked body) Q E :=
  .bind (.pass rfl hP) fun _ =>
    .deferred hbody (fun a => .pass rfl (hQ a)) fun e => .pass rfl (hE e)

end Rules

/-! ## Files -/

theorem isGuarded_path (id : String) : (path id).isGuarded = true :=
  isGuarded_of_isRecord (isRecord_path id)

section Files

variable {P : Ran C → Prop} {K : History C → Prop}

/-- The answer of a read, if it is a record, goes back to a `Prepare`. -/
def Traced (c : Nat) (answer : Except FsErr Seen) (h : History C) : Prop :=
  ∀ seen e, answer = .ok seen → readFile seen.file = .ok e → Found h c e

variable {n : FileName} {raw : Json.Bytes}

/-- Nothing is written, and what is read goes back to a `Prepare`. -/
theorem does_readRecord (hn : n.isGuarded = true) (hP : Lasting c P) :
    Does c g m P (readRecord n) (fun found r => P r ∧ Found r.history c found.1) fun _ => P := by
  refine .bind (S := fun answer r => P r ∧ Traced c answer r.history)
    (.quiet rfl hP ?_) fun answer => ?_
  · intro r answer r' hr hat hundisturbed happly
    refine ⟨hP r r' hundisturbed hat.2, ?_⟩
    rintro seen e rfl he
    obtain ⟨fs', ⟨-, hread⟩, -⟩ := happly.1
    rcases hread with ⟨f, hf, hseen⟩ | ⟨-, hmissing⟩ | hfailed
    · obtain rfl := Except.ok.inj hseen
      have htext := hr.contents n hn f (hf ▸ Slot.now_mem_outcomes _)
      exact ⟨r.history, _, [], happly.2, rfl, htext.readFile he⟩
    · cases hmissing
    · cases hfailed
  · cases answer with
    | error err =>
      cases err with
      | notExist | exist | io => exact .throw fun _ hr => hr.1
    | ok seen =>
      dsimp only
      cases hread : readFile seen.file with
      | ok entry => exact .pure fun r hr => ⟨hr.1, hr.2 seen entry rfl hread⟩
      | error err => exact .throw fun _ hr => hr.1

/-- Write into a file that is blank, flush it and close it: what `createRecord` and
`replaceThrough` have in common. -/
theorem does_fileOp {o : FsOp FileName} (hK : Rising K) (hP : Lasting c P)
    (hPK : ∀ r, P r → K r.history) (hfits : ∀ r, P r → Fitting c r o) :
    Does c g m P (perform (.file o)) (fun _ r => K r.history) fun _ r => K r.history :=
  .file hP hfits fun r _ _ hr happly =>
    hK _ _ (happly.2 ▸ List.prefix_append _ _) (hPK r hr)

/-- A file operation with nothing to respect. -/
theorem does_plainOp {o : FsOp FileName} (hK : Rising K) (hplain : ∀ r : Ran C, Fitting c r o) :
    Does c g m (fun r => K r.history) (perform (.file o)) (fun _ r => K r.history)
      fun _ r => K r.history :=
  does_fileOp hK hK.lasting (fun _ h => h) fun r _ => hplain r

theorem does_andThen {ok : Bool} {next : Gated C Bool}
    (hnext : Does c g m P next (fun _ => P) fun _ => P) :
    Does c g m P (andThen ok next) (fun _ => P) fun _ => P := by
  unfold andThen
  split
  · exact hnext
  · exact .pure fun _ h => h

theorem does_syncParentDirectory (hK : Rising K) :
    Does c g m (fun r => K r.history) syncParentDirectory (fun _ r => K r.history)
      fun _ r => K r.history :=
  .bind (does_plainOp hK fun _ => trivial) fun _ => .succeed fun _ h => h

/-- What is known once the call has made the file. -/
def MadeFile (c : Nat) (n : FileName) (h : History C) : Prop := ∃ epoch, Creates h c n epoch

theorem rising_madeFile (c : Nat) (n : FileName) : Rising (C := C) (MadeFile c n) :=
  fun _ _ hsub hmade => hmade.imp fun _ => Creates.mono hsub

/-- The new record goes into a file of its own. -/
theorem does_createRecord {entry : Record} (hK : Rising K)
    (hissued : ∀ h, K h → MadeFile c n h → Issued h entry) :
    Does c g m (fun r => K r.history ∧ ∀ n', r.state.fs.Blank c n') (createRecord n entry)
      (fun _ r => K r.history ∧ MadeFile c n r.history) fun _ _ => True := by
  have hP : Lasting c fun r : Ran C => K r.history ∧ ∀ n', r.state.fs.Blank c n' :=
    hK.lasting.and lasting_blank
  refine .bind (S := fun answer r => (K r.history ∧ ∀ n', r.state.fs.Blank c n') ∧
    (answer = Except.ok () → MadeFile c n r.history)) (.file hP (fun _ _ => trivial) ?_) ?_
  · intro r answer r' hr happly
    refine ⟨⟨hK _ _ (happly.2 ▸ List.prefix_append _ _) hr.1, fun n' => ?_⟩, ?_⟩
    · obtain ⟨fs', hcreate, hstate⟩ := happly.1
      rw [hstate]
      rcases hcreate with ⟨-, -, rfl⟩ | ⟨-, -, rfl⟩ | ⟨-, rfl⟩
      · by_cases hn' : n' = n
        · subst hn'
          intro _ f hf
          have hnew : some (File.mk 0o600 []) = some f := by
            simpa [Fs.now, Slot.create] using hf
          obtain rfl := Option.some.inj hnew
          rfl
        · intro hopener f hf
          rw [Fs.modify_slot_of_ne _ _ hn'] at hopener
          rw [Fs.now, Fs.modify_slot_of_ne _ _ hn'] at hf
          exact hr.2 n' hopener f hf
      · exact hr.2 n'
      · exact hr.2 n'
    · rintro rfl
      refine ⟨_, r.state, r'.state, ?_, rfl⟩
      rw [happly.2]
      exact List.mem_append_right _ (List.mem_singleton_self _)
  · intro answer
    cases answer with
    | error err => exact .throw fun _ _ => trivial
    | ok u =>
      have hboth : Rising fun h : History C => K h ∧ MadeFile c n h :=
        fun h h' hsub hh => ⟨hK h h' hsub hh.1, rising_madeFile c n h h' hsub hh.2⟩
      refine .conseq (P := fun r => (K r.history ∧ MadeFile c n r.history) ∧
          ∀ n', r.state.fs.Blank c n') (Q := fun _ r => K r.history ∧ MadeFile c n r.history)
        (E := fun _ r => K r.history ∧ MadeFile c n r.history) ?_
        (fun _ hr => ⟨⟨hr.1.1, hr.2 rfl⟩, hr.1.2⟩) (fun _ _ h => h) fun _ _ _ => trivial
      refine .bind (does_fileOp hboth (hboth.lasting.and lasting_blank) (fun _ hr => hr.1)
        fun r hr _ => ?_) fun written => ?_
      · exact ⟨hr.2 n, fun k => .take (hissued _ hr.1.1 hr.1.2) k⟩
      refine .bind (does_andThen (does_plainOp hboth fun _ => trivial)) fun synced => ?_
      refine .bind (does_plainOp hboth fun _ => trivial) fun closed => ?_
      refine .bind (.succeed fun _ h => h) fun _ => ?_
      refine .bind (.succeed fun _ h => h) fun _ => ?_
      exact does_syncParentDirectory hboth

/-- A text goes to a temporary file and from there to its name. -/
theorem does_fillAndRename {t : FileName} (hK : Rising K)
    (ht : t.isGuarded = true → t.IsGateTemp ∧ ∀ h, K h → ∀ k, IssuedText h (raw.take k))
    (hn : ¬ n.IsGateTemp) (hne : t ≠ n) (hmove : n.isGuarded = true → t.isGuarded = true) :
    Does c g m (fun r => K r.history ∧ (t.IsGateTemp → r.state.fs.Blank c t))
      (fillAndRename t n raw) (fun _ r => K r.history) fun _ r => K r.history := by
  have hP : Lasting c fun r : Ran C => K r.history ∧ (t.IsGateTemp → r.state.fs.Blank c t) :=
    hK.lasting.and fun r r' h hr htemp => h.temps t htemp (hr htemp)
  refine .bind (S := fun _ r => K r.history ∧ (t.IsGateTemp → r.state.fs.Blank c t))
    (.file hP (fun _ _ => trivial) ?_) fun modeSet => ?_
  · intro r answer r' hr happly
    refine ⟨hK _ _ (happly.2 ▸ List.prefix_append _ _) hr.1, fun htemp => ?_⟩
    obtain ⟨fs', hchmod, hstate⟩ := happly.1
    rw [hstate]
    rcases hchmod with ⟨-, rfl⟩ | ⟨-, rfl⟩
    · intro hopener f hf
      rw [Fs.modify_slot_self, Slot.chmod_opener] at hopener
      rw [Fs.now, Fs.modify_slot_self] at hf
      obtain ⟨f', hf', hdata⟩ := Slot.exists_now_of_chmod hf
      exact hdata ▸ hr.2 htemp hopener f' hf'
    · exact hr.2 htemp
  refine .bind (S := fun _ r => K r.history) ?_ fun written => ?_
  · unfold andThen
    split
    · refine does_fileOp hK hP (fun _ hr => hr.1) fun r hr hguarded => ?_
      exact ⟨hr.2 (ht hguarded).1, (ht hguarded).2 _ hr.1⟩
    · exact .pure fun _ hr => hr.1
  refine .bind (does_andThen (does_plainOp hK fun _ => trivial)) fun synced => ?_
  refine .bind (does_plainOp hK fun _ => trivial) fun closed => ?_
  refine .bind (.succeed fun _ h => h) fun _ => ?_
  refine .bind (.succeed fun _ h => h) fun _ => ?_
  refine .bind (does_plainOp hK fun _ => ⟨hne, hmove, hn, fun hguarded => (ht hguarded).1⟩)
    fun renamed => ?_
  refine .bind (.succeed fun _ h => h) fun _ => ?_
  exact does_syncParentDirectory hK

theorem does_replaceThrough {kind : FileName → Prop} (hK : Rising K)
    (hkind : ∀ t, kind t → t.isGuarded = true → t.IsGateTemp ∧ ∀ h, K h →
      ∀ k, IssuedText h (raw.take k))
    (hn : ¬ n.IsGateTemp) (hne : ∀ t, kind t → t ≠ n)
    (hmove : ∀ t, kind t → n.isGuarded = true → t.isGuarded = true) :
    Does c g m (fun r => K r.history) (replaceThrough kind n raw) (fun _ r => K r.history)
      fun _ r => K r.history ∧ CameTo kind c r.history := by
  have hcame := rising_cameTo (C := C) kind c
  have hboth : Rising fun h : History C => K h ∧ CameTo kind c h :=
    fun h h' hsub hh => ⟨hK h h' hsub hh.1, hcame h h' hsub hh.2⟩
  refine .bind (S := fun answer r => (K r.history ∧ CameTo kind c r.history) ∧
    ∀ t, answer = some t → kind t ∧ (t.IsGateTemp → r.state.fs.Blank c t))
    (.file hK.lasting (fun _ _ => trivial) ?_) fun answer => ?_
  · intro r answer r' hr happly
    have hsub : r.history <+: r'.history := happly.2 ▸ List.prefix_append _ _
    refine ⟨⟨hK _ _ hsub hr, answer, r.state, r'.state, ?_⟩, ?_⟩
    · rw [happly.2]
      exact List.mem_append_right _ (List.mem_singleton_self _)
    · rintro t rfl
      obtain ⟨fs', hcreate, hstate⟩ := happly.1
      rw [hstate]
      rcases hcreate with ⟨t', hkind', -, ht', rfl⟩ | ⟨hnone, -⟩
      · obtain rfl := Option.some.inj ht'
        refine ⟨hkind', fun _ _ f hf => ?_⟩
        have hnew : some (File.mk 0o600 []) = some f := by
          simpa [Fs.now, Slot.create] using hf
        obtain rfl := Option.some.inj hnew
        rfl
      · cases hnone
  · cases answer with
    | none => exact .throw fun _ hr => hr.1
    | some t =>
      by_cases hkindt : kind t
      · refine .conseq (P := fun r => (K r.history ∧ CameTo kind c r.history) ∧
            (t.IsGateTemp → r.state.fs.Blank c t)) (Q := fun _ r => K r.history ∧
            CameTo kind c r.history) (E := fun _ r => K r.history ∧ CameTo kind c r.history)
          (.deferred ?_ (fun _ => does_plainOp hboth fun _ hguarded => (hkind t hkindt hguarded).1)
            fun _ => does_plainOp hboth fun _ hguarded => (hkind t hkindt hguarded).1)
          (fun r hr => ⟨hr.1, (hr.2 t rfl).2⟩) (fun _ _ h => h.1) fun _ _ h => h
        refine does_fillAndRename hboth ?_ hn (hne t hkindt) (hmove t hkindt)
        intro hguarded
        obtain ⟨htemp, htext⟩ := hkind t hkindt hguarded
        exact ⟨htemp, fun h hh => htext h hh.1⟩
      · exact fun r hok hr => absurd (hr.2.2 t rfl).1 hkindt

theorem isGuarded_of_isGateTemp {t : FileName} (h : t.IsGateTemp) : t.isGuarded = true := by
  obtain ⟨k, rfl⟩ := h
  rfl

/-- A record that goes back to a `Prepare` replaces another. -/
theorem does_replaceRecord {entry : Record} (hn : n.isRecord = true) (hK : Rising K)
    (hissued : ∀ h, K h → Issued h entry) :
    Does c g m (fun r => K r.history) (replaceRecord n entry) (fun _ r => K r.history)
      fun _ r => K r.history ∧ CameTo FileName.IsGateTemp c r.history :=
  does_replaceThrough hK (fun _ ht _ => ⟨ht, fun _ hh k => .take (hissued _ hh) k⟩)
    (not_isGateTemp hn) (fun _ ht htn => not_isGateTemp hn (htn ▸ ht))
    fun _ ht _ => isGuarded_of_isGateTemp ht

/-- The response of an effect is no record. -/
theorem does_writeEffectResponse {stableID : String} (hK : Rising K) :
    Does c g m (fun r => K r.history) (writeEffectResponse stableID raw) (fun _ r => K r.history)
      fun _ r => K r.history := by
  refine (does_replaceThrough hK ?_ ?_ ?_ ?_).conseq (fun _ h => h) (fun _ _ h => h)
    fun _ _ h => h.1
  · rintro t ⟨k, rfl⟩ hguarded
    cases hguarded
  · rintro ⟨k, hk⟩
    cases hk
  · rintro t ⟨k, rfl⟩ htn
    cases htn
  · intro t _ hguarded
    cases hguarded

end Files

/-! ## Methods -/

/-- The body keeps the directory grounded. -/
abbrev Tame (c g : Nat) (m : Method) (body : Gated C α) : Prop :=
  Does c g m (fun _ => True) body (fun _ _ => True) fun _ _ => True

section Methods

theorem lasting_true : Lasting (C := C) c fun _ => True := fun _ _ _ _ => trivial

theorem Tame.bind {next : α → Gated C β} (hbody : Tame c g m body)
    (hnext : ∀ a, Tame c g m (next a)) : Tame c g m (body >>= next) :=
  Does.bind hbody hnext

theorem Tame.pure (a : α) : Tame c g m (pure a : Gated C α) := Does.pure fun _ h => h

theorem Tame.throw (e : Err) : Tame c g m (throw e : Gated C α) :=
  Does.throw fun _ h => h

theorem Tame.perform {o : Op C} (ho : o.leavesFiles = true) : Tame c g m (perform o) :=
  Does.pass ho lasting_true

theorem Tame.of {Q : α → Ran C → Prop} {E : Err → Ran C → Prop}
    (h : Does c g m (fun _ => True) body Q E) : Tame c g m body :=
  h.conseq (fun _ h => h) (fun _ _ _ => trivial) fun _ _ _ => trivial

theorem Tame.ensure (condition : Bool) (message : String) :
    Tame (C := C) c g m (ensure condition message) :=
  .of (.ensure (E := fun _ _ => True) fun _ h => h)

theorem Tame.nilError (err : Option Err) : Tame (C := C) c g m (nilError err) :=
  .of (.nilError (E := fun _ _ => True) fun _ _ h => h)

theorem Tame.succeed (ok : Bool) : Tame (C := C) c g m (succeed ok) :=
  Does.succeed fun _ h => h

theorem Tame.ofExcept (value : Except Err α) : Tame (C := C) c g m (ofExcept value) :=
  .of (.ofExcept (E := fun _ _ => True) fun _ _ h => h)

theorem Tame.attempt (hbody : Tame c g m body) : Tame c g m (attempt body) :=
  have hattempt : Does c g m (fun _ => True) (CommerceGate.attempt body)
      (Returns (fun _ _ => True) fun _ _ => True) (fun _ _ => True) := .attempt hbody
  .of hattempt

theorem Tame.locked (hbody : Tame c g m body) : Tame c g m (locked body) :=
  Does.locked lasting_true hbody (fun _ => lasting_true) fun _ => lasting_true

/-- A record is read; the rest may count on where it comes from. -/
theorem Tame.read {n : FileName} {next : Record × Nat → Gated C α} (hn : n.isGuarded = true)
    (hnext : ∀ found, Does c g m (fun r => Found r.history c found.1) (next found)
      (fun _ _ => True) fun _ _ => True) : Tame c g m (readRecord n >>= next) :=
  Does.bind (does_readRecord hn lasting_true) fun found =>
    (hnext found).conseq (fun _ h => h.2) (fun _ _ h => h) fun _ _ h => h

/-- The same where the error of the read is looked at. -/
theorem Tame.tryRead {n : FileName} {next : Except Err (Record × Nat) → Gated C α}
    (hn : n.isGuarded = true)
    (hok : ∀ found, Does c g m (fun r => Found r.history c found.1) (next (.ok found))
      (fun _ _ => True) fun _ _ => True)
    (herror : ∀ e, Tame c g m (next (.error e))) :
    Tame c g m (CommerceGate.attempt (readRecord n) >>= next) := by
  refine Does.bind (Does.attempt (does_readRecord hn lasting_true)) fun result => ?_
  cases result with
  | ok found => exact (hok found).conseq (fun _ h => h.2) (fun _ _ h => h) fun _ _ h => h
  | error e => exact herror e

/-- A body that needs nothing of what is known. -/
theorem Tame.from {P : Ran C → Prop} (h : Tame c g m body) :
    Does c g m P body (fun _ _ => True) fun _ _ => True :=
  h.conseq (fun _ _ => trivial) (fun _ _ h => h) fun _ _ h => h

/-- The record that was found is rewritten. -/
theorem does_rewrite {n : FileName} (e : Record) {e' : Record} (hn : n.isRecord = true)
    (hplan : e'.plan = e.plan) (hdigest : e'.planDigest = e.planDigest)
    (hdeadline : e'.startNotAfterUnix = e.startNotAfterUnix)
    (haction : e'.prepareActionID = e.prepareActionID)
    (hrequest : e'.prepareRequestDigest = e.prepareRequestDigest) :
    Does (C := C) c g m (fun r => Found r.history c e) (replaceRecord n e') (fun _ _ => True)
      fun _ _ => True :=
  (does_replaceRecord hn (rising_found c e) fun _ h =>
    h.issued.rewritten hplan hdigest hdeadline haction hrequest).conseq (fun _ h => h)
    (fun _ _ _ => trivial) fun _ _ _ => trivial

theorem tame_recoverItem (item : FileName) : Tame (C := C) c g m (recoverItem item) := by
  cases item with
  | record hex =>
    refine Tame.read rfl fun found => ?_
    obtain ⟨e, version⟩ := found
    dsimp only
    cases Record.recovered e.state with
    | some next => exact does_rewrite e rfl rfl rfl rfl rfl rfl
    | none => exact Tame.from (Tame.pure ())
  | _ => exact Tame.pure ()

theorem tame_recoverItems (items : List FileName) : Tame (C := C) c g m (recoverItems items) := by
  induction items with
  | nil => exact Tame.pure ()
  | cons item rest ih => exact Tame.bind (tame_recoverItem item) fun _ => ih

theorem tame_openGate (directory : String) (hasResolver : Bool) :
    Tame (C := C) c g m (openGate directory hasResolver) := by
  refine Tame.bind (.ensure _ _) fun _ => ?_
  refine Tame.bind (.perform rfl) fun err => ?_
  refine Tame.bind (.nilError err) fun _ => ?_
  refine Tame.bind (.perform rfl) fun isPrivate => ?_
  refine Tame.bind (.ensure _ _) fun _ => ?_
  refine Tame.bind (.perform rfl) fun acquired => ?_
  refine Tame.bind (.ensure _ _) fun _ => ?_
  refine Tame.bind (.attempt (Tame.bind (.perform rfl) fun entries => ?_)) fun result => ?_
  · cases entries with
    | none => exact .throw _
    | some entries => exact tame_recoverItems entries
  · cases result with
    | ok u => exact .pure ()
    | error err => exact Tame.bind (.perform rfl) fun _ => .throw err

theorem tame_closeGate : Tame (C := C) c g m closeGate := by
  refine Tame.bind (.perform rfl) fun held => ?_
  cases held with
  | false => exact .pure ()
  | true =>
    exact Tame.bind (.perform rfl) fun released => Tame.bind (.perform rfl) fun _ => .succeed _

theorem tame_transition (launch : Launch) (expected next : State) (outcome : String) :
    Tame (C := C) c g m (transition launch expected next outcome) := by
  refine Tame.bind (.perform rfl) fun held => Tame.bind (.ensure _ _) fun _ => .locked ?_
  refine Tame.tryRead (isGuarded_path _) (fun ⟨e, _⟩ => ?_) fun e => .throw _
  refine .bind (.check fun _ _ => trivial) fun _ => ?_
  exact .bind (does_rewrite e (isRecord_path _) rfl rfl rfl rfl rfl) fun _ => Tame.pure _

theorem tame_complete (launch : Launch) (terminal : State) (outcome : String) :
    Tame (C := C) c g m (complete launch terminal outcome) :=
  Tame.bind (.ensure _ _) fun _ =>
    Tame.bind (.ensure _ _) fun _ => tame_transition launch .running terminal outcome

theorem tame_inspect (executionID : String) : Tame (C := C) c g m (inspect executionID) := by
  refine Tame.bind (.ensure _ _) fun _ => .locked ?_
  exact Tame.read (isGuarded_path _) fun _ => Tame.from (.pure _)

theorem tame_admitEffect (call : EffectCall) (now : Time) :
    Tame (C := C) c g m (admitEffect call now) := by
  refine .locked (Tame.tryRead (isGuarded_path _) (fun ⟨e, _⟩ => ?_) fun e => .throw _)
  have hfound : Lasting (C := C) c fun r => Found r.history c e := (rising_found c e).lasting
  refine .bind (.check fun _ _ => trivial) fun _ => ?_
  split
  · exact Tame.from (.throw _)
  · split
    · exact Tame.from (.throw _)
    · refine .bind (.pass rfl hfound) fun verified => .bind (.pass rfl hfound) fun current => ?_
      refine .bind (.check fun _ _ => trivial) fun _ => ?_
      split
      · exact Tame.from (.pure _)
      · refine .bind (does_rewrite e (isRecord_path _) rfl rfl rfl rfl rfl) fun _ => ?_
        exact Tame.bind (.perform rfl) fun _ => .pure _

theorem tame_submitEffect (call : EffectCall) (e : Record) (network : NetworkBinding)
    (credential : Option CredentialBinding) (now : Time) :
    Tame (C := C) c g m (submitEffect call e network credential now) := by
  have hheaders : Tame (C := C) c g m (effectHeaders call credential now) := by
    cases credential with
    | none => exact .pure _
    | some binding =>
      exact Tame.bind (.ensure _ _) fun _ => Tame.bind (.perform rfl) fun answer =>
        Tame.bind (.ofExcept _) fun _ => .pure _
  refine Tame.bind hheaders fun headers => Tame.bind (.perform rfl) fun valid => ?_
  refine Tame.bind (.ensure _ _) fun _ => ?_
  refine Tame.bind (Tame.bind (.perform rfl) fun _ => Tame.bind (.ensure _ _) fun _ =>
    Tame.bind (.perform rfl) fun _ => Tame.bind (.ofExcept _) fun _ =>
      Tame.bind (.ensure _ _) fun _ => .pure _) fun response => ?_
  refine Tame.bind (.ofExcept _) fun digest => ?_
  exact Tame.bind (does_writeEffectResponse rising_true) fun _ => .pure _

theorem tame_terminalizeEffect (call : EffectCall) (response : HTTPSResponse) :
    Tame (C := C) c g m (terminalizeEffect call response) := by
  refine .locked (Tame.tryRead (isGuarded_path _) (fun found => ?_) fun e => .throw _)
  obtain ⟨e, version⟩ := found
  dsimp only
  split
  · exact Tame.from (.throw _)
  · refine .bind (.check fun _ _ => trivial) fun _ => ?_
    exact .bind (does_rewrite e (isRecord_path _) rfl rfl rfl rfl rfl) fun _ => Tame.pure _

theorem tame_performHTTPS (call : EffectCall) : Tame (C := C) c g m (performHTTPS call) := by
  refine Tame.bind (.perform rfl) fun held => Tame.bind (.ensure _ _) fun _ => ?_
  refine Tame.bind (.perform rfl) fun now =>
    Tame.bind (tame_admitEffect call now) fun admission => ?_
  cases admission with
  | known prior =>
    refine Tame.bind (Tame.bind (.ensure _ _) fun _ => Tame.bind (.ensure _ _) fun _ =>
      Tame.bind (.perform rfl) fun answer => ?_) fun _ => .pure _
    cases answer with
    | error err => exact .throw _
    | ok seen => exact .pure _
  | fresh entry network credential =>
    exact Tame.bind (tame_submitEffect call entry network credential now) fun response =>
      Tame.bind (tame_terminalizeEffect call response) fun _ => .pure _

theorem tame_exportOutcomeEvidence (request : EvidenceRequest) :
    Tame (C := C) c g m (exportOutcomeEvidence request) := by
  refine Tame.bind (.perform rfl) fun held => ?_
  cases request.observedAt with
  | none => exact .throw _
  | some observedAt =>
    refine Tame.bind (.ensure _ _) fun _ => .locked ?_
    refine Tame.read (isGuarded_path _) fun found => Tame.from ?_
    exact Tame.bind (.ensure _ _) fun _ => Tame.bind (.ofExcept _) fun _ =>
      Tame.bind (.ofExcept _) fun _ => Tame.bind (.nilError _) fun _ => .pure _

theorem tame_buildOperationOutcomeArtifacts (request : ArtifactRequest) :
    Tame (C := C) c g m (buildOperationOutcomeArtifacts request) := by
  refine Tame.bind (.ensure _ _) fun _ => Tame.bind (.ofExcept _) fun proofs => ?_
  refine Tame.bind (.ofExcept _) fun found => ?_
  obtain ⟨refs, authorityTime, qualification⟩ := found
  dsimp only
  split
  · exact .throw _
  · refine Tame.bind (.ensure _ _) fun _ => ?_
    refine Tame.bind (tame_exportOutcomeEvidence _) fun exported => ?_
    refine Tame.bind (.locked (.of (does_readRecord (isGuarded_path _) lasting_true)))
      fun found => ?_
    refine Tame.bind (.ofExcept _) fun _ => Tame.bind (.ofExcept _) fun _ =>
      Tame.bind (.ofExcept _) fun _ => ?_
    split
    · exact .throw _
    · exact Tame.bind (.ensure _ _) fun _ => Tame.bind (.ofExcept _) fun _ =>
        Tame.bind (.nilError _) fun _ => .pure _

end Methods

end TosAi.CommerceGate
