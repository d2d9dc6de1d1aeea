/-
  Proof rules for Gate programs: single operations, sections under the mutex, and
  the three file programs every method is made of.

  A specification `Spec c P body Q E` says that call `c`, started where `P` holds,
  stays within the discipline whatever the others do, and ends with `Q` of its
  value or `E` of its error.
-/
import TosAi.Foundation.Shared
import TosAi.CommerceGate.Invariant

set_option autoImplicit false

namespace TosAi.CommerceGate

open Foundation Foundation.Discipline

variable {C : Commerce} {α β : Type} {c : Nat}

/-- A specification of a body. -/
abbrev Spec (c : Nat) (P : System C → Prop) (body : Gated C α) (Q : α → System C → Prop)
    (E : Err → System C → Prop) : Prop :=
  (gateDiscipline C).Meets c P body Q E

/-- `P` survives whatever the others do. -/
abbrev Stays (c : Nat) (P : System C → Prop) : Prop := (gateDiscipline C).Stable c P

variable {body : Gated C α}

section Basics

variable {P : System C → Prop} {Q : α → System C → Prop} {E : Err → System C → Prop}

theorem Spec.bind {next : α → Gated C β} {R : α → System C → Prop}
    {Q : β → System C → Prop} (hbody : Spec c P body R E) (hnext : ∀ a, Spec c (R a) (next a) Q E) :
    Spec c P (body >>= next) Q E :=
  Meets.bind hbody hnext

theorem Spec.pre {P' : System C → Prop} (hbody : Spec c P body Q E)
    (hP : ∀ s, (gateDiscipline C).Ok s → P' s → P s) : Spec c P' body Q E :=
  Meets.pre hbody hP

theorem Spec.assume (p : Prop) (hp : ∀ s, (gateDiscipline C).Ok s → P s → p)
    (h : p → Spec c P body Q E) : Spec c P body Q E :=
  Meets.assume p hp h

variable {E' : Err → System C → Prop}

/-- One operation. -/
theorem Spec.perform {o : Op C} {R : Res o → System C → Prop} (hP : Stays c P)
    (hstep : ∀ s answer s', Quiet s → Inv s → P s → System.apply c o s answer s' →
      Inv s' ∧ Act c s s' ∧ R answer s') :
    Spec c P (CommerceGate.perform o) R E :=
  Meets.perform hP fun s answer s' hok hs happly _ => hstep s answer s' hok.1 hok.2 hs happly

/-- An operation that changes nothing. -/
theorem Spec.query {o : Op C}
    (hquery : ∀ s answer s', System.apply c o s answer s' → s' = s) (hP : Stays c P) :
    Spec c P (CommerceGate.perform o) (fun _ => P) E :=
  .perform hP fun s answer s' _ hinv hs happly => by
    obtain rfl := hquery s answer s' happly
    exact ⟨hinv, Act.refl c s', hs⟩

theorem Spec.ofExcept {r : Except Err α} (hok : ∀ a s, r = .ok a → P s → Q a s)
    (herror : ∀ e s, P s → E e s) : Spec c P (CommerceGate.ofExcept r) Q E :=
  Meets.result hok fun e s _ => herror e s

theorem Spec.ensure {condition : Bool} {message : String} (hE : ∀ e s, P s → E e s) :
    Spec c P (CommerceGate.ensure condition message)
      (fun _ s => P s ∧ condition = true) E := by
  unfold CommerceGate.ensure
  split
  · exact .pure fun s _ hs => ⟨hs, ‹_›⟩
  · exact .throw fun s _ hs => hE _ s hs

theorem Spec.succeed {ok : Bool} (hE : ∀ e s, P s → E e s) :
    Spec c P (CommerceGate.succeed ok) (fun _ s => P s ∧ ok = true) E := by
  unfold CommerceGate.succeed
  split
  · exact .pure fun s _ hs => ⟨hs, ‹_›⟩
  · exact .throw fun s _ hs => hE _ s hs

theorem Spec.andThen {ok : Bool} {next : Gated C Bool} {Q : Bool → System C → Prop}
    (hnext : ok = true → Spec c P next Q E) (hfalse : ∀ s, P s → Q false s) :
    Spec c P (CommerceGate.andThen ok next) Q E := by
  unfold CommerceGate.andThen
  split
  · exact hnext ‹_›
  · exact .pure fun s _ hs => hfalse s hs

theorem Spec.nilError {err : Option Err} (hE : ∀ e s, P s → E e s) :
    Spec c P (CommerceGate.nilError err) (fun _ => P) E := by
  unfold CommerceGate.nilError
  cases err with
  | none => exact .pure fun s _ hs => hs
  | some e => exact .throw fun s _ hs => hE e s hs

/-- A deferred operation comes after the body, whatever the body returned. -/
theorem Spec.deferred {last : Op C} {Q' : α → System C → Prop} (hbody : Spec c P body Q E)
    (hlast : ∀ r, Spec c (Returns Q E r) (CommerceGate.perform last)
      (fun _ => Returns Q' E' r) E') :
    Spec c P (CommerceGate.deferred body last) Q' E' := by
  refine .bind (.attempt hbody) fun r => .bind (hlast r) fun _ => ?_
  cases r with
  | ok a => exact .pure fun s _ hs => hs
  | error e => exact .throw fun s _ hs => hs

end Basics

theorem Stays.and_const {P : System C → Prop} {p : Prop} (hP : Stays c P) :
    Stays c fun s => P s ∧ p := Stable.and hP (Stable.const p)

/-! ## File operations -/

/-- A file operation: what it may do to guarded names and records, and what it
establishes. -/
theorem Spec.file {o : FsOp FileName} {P : System C → Prop} {R : o.Res → System C → Prop}
    {E : Err → System C → Prop} (hP : Stays c P)
    (hstep : ∀ s answer fs', Inv s → P s → o.apply c s.fs answer fs' →
      (∀ n, n.isGuarded = true → fs'.slot n = s.fs.slot n ∨
        fs'.slot n = (s.fs.slot n).settle ∨ Holds c s) ∧
      (∀ n, n.isRecord = true → SlotMoves C n (Mine c n s) (s.fs.slot n) (fs'.slot n)) ∧
      R answer { s with fs := fs' }) :
    Spec c P (CommerceGate.perform (.file o)) R E := by
  refine .perform hP fun s answer s' _ hinv hs happly => ?_
  obtain ⟨fs', happly, rfl⟩ := happly
  obtain ⟨hguarded, hrecords, hrest⟩ := hstep s answer fs' hinv hs happly
  obtain ⟨hinv', hact⟩ := file_step hinv hguarded hrecords
  exact ⟨hinv', hact, hrest⟩

/-- The records when one name is changed. -/
theorem records_modify {s : System C} {x : FileName} {f : Slot → Slot}
    (h : x.isRecord = true → SlotMoves C x (Mine c x s) (s.fs.slot x) (f (s.fs.slot x))) :
    ∀ n, n.isRecord = true →
      SlotMoves C n (Mine c n s) (s.fs.slot n) ((s.fs.modify x f).slot n) := by
  intro n hn
  by_cases hnx : n = x
  · subst hnx
    rw [Fs.modify_slot_self]
    exact h hn
  · rw [Fs.modify_slot_of_ne _ _ hnx]
    exact .refl _

theorem records_settle {s : System C} :
    ∀ n, n.isRecord = true → SlotMoves C n (Mine c n s) (s.fs.slot n) (s.fs.syncDir.slot n) :=
  fun _ _ => .settle

/-! ## With the records held -/

/-- An assertion under which the call holds the records. -/
structure Guards (c : Nat) (H : System C → Prop) : Prop where
  stays : Stays c H
  holds : ∀ s, H s → Holds c s

namespace Guards

variable {H : System C → Prop} {n : FileName}

/-- A fact about a guarded name stays while the records are held, if syncing the
directory does not disturb it. -/
theorem slot (hH : Guards c H) {A : Slot → Prop} (hn : n.isGuarded = true)
    (hsettle : ∀ slot, A slot → A slot.settle) : Stays c fun s => H s ∧ A (s.fs.slot n) := by
  rintro s s' hinterferes ⟨hs, hA⟩
  refine ⟨hH.stays s s' hinterferes hs, ?_⟩
  rcases (frame_of_interferes hinterferes).guarded (hH.holds s hs) n hn with hsame | hsync
  · rw [hsame]
    exact hA
  · rw [hsync]
    exact hsettle _ hA

/-- What is known of a record that has just been read. -/
structure Reads (n : FileName) (e : Record) (version : Nat) (s : System C) : Prop where
  now : (s.fs.slot n).now = some e.file
  version : (s.fs.slot n).version = version
  readable : Readable e
  wf : WF C n e

theorem stays_reads (hH : Guards c H) (hn : n.isRecord = true) (e : Record) (version : Nat) :
    Stays c fun s => H s ∧ Reads n e version s := by
  have hslot := hH.slot (A := fun slot => slot.now = some e.file ∧ slot.version = version)
    (isGuarded_of_isRecord hn) fun _ h => h
  rintro s s' hinterferes ⟨hs, hreads⟩
  obtain ⟨hs', hnow, hversion⟩ := hslot s s' hinterferes ⟨hs, hreads.now, hreads.version⟩
  exact ⟨hs', hnow, hversion, hreads.readable, hreads.wf⟩

/-- What a read answers. -/
def ReadAnswer (n : FileName) (s : System C) : Except FsErr Seen → Prop
  | .ok seen => s.fs.now n = some seen.file ∧ (s.fs.slot n).version = seen.version
  | .error err => err = .notExist → s.fs.now n = none

/-- **Reading a record** while holding the records: the whole record is there as
it was written, or there is none that can be read. -/
theorem spec_readRecord (hH : Guards c H) (hn : n.isRecord = true) :
    Spec c H (readRecord n) (fun r s => H s ∧ Reads n r.1 r.2 s)
      (fun err s => H s ∧ (err = .notExist → s.fs.now n = none)) := by
  refine .bind (R := fun answer s => H s ∧ ReadAnswer n s answer)
    (.file hH.stays fun s answer fs' _ hs happly => ?_) fun answer => ?_
  · obtain ⟨rfl, hread⟩ := happly
    refine ⟨fun _ _ => .inl rfl, fun _ _ => .refl _, hs, ?_⟩
    rcases hread with ⟨f, hnow, rfl⟩ | ⟨hnow, rfl⟩ | rfl
    · exact ⟨hnow, rfl⟩
    · exact fun _ => hnow
    · exact fun h => nomatch h
  · cases answer with
    | error err =>
      cases err with
      | notExist => exact .throw fun s _ hs => ⟨hs.1, fun _ => hs.2 rfl⟩
      | exist | io => exact .throw fun s _ hs => ⟨hs.1, fun h => nomatch h⟩
    | ok seen =>
      dsimp only
      cases hread : readFile seen.file with
      | error err =>
        obtain ⟨message, rfl⟩ := readFile_error hread
        exact .throw fun s _ hs => ⟨hs.1, fun h => nomatch h⟩
      | ok e =>
        refine .pure fun s hok hs => ⟨hs.1, ?_⟩
        obtain ⟨-, hnow, hversion⟩ := hs
        -- a beginning of a record is never read, so the file is a whole one
        have hmem : some seen.file ∈ s.fs.outcomes n := hnow ▸ (s.fs.slot n).now_mem_outcomes
        rcases hok.2.sane n hn _ hmem with hunborn | ⟨e', hwf, hfile⟩
        · rcases hunborn with h | ⟨e', kept, lost, _, htext, hlost, hfile⟩
          · cases h
          · rw [Option.some.inj hfile, readFile_truncated htext hlost] at hread
            cases hread
        · rw [Option.some.inj hfile] at hread
          obtain ⟨hreadable, rfl⟩ := readFile_file_eq_ok_iff.mp hread
          exact ⟨hnow.trans hfile, hversion, hreadable, hwf⟩

end Guards

/-- An assertion under which the call holds the records, and which does not look
at files. -/
structure HoldLike (c : Nat) (H : System C → Prop) : Prop extends Guards c H where
  files : ∀ s fs', H s → H { s with fs := fs' }

namespace HoldLike

variable {H : System C → Prop} {E : Err → System C → Prop} {n t : FileName}

/-- An operation on one name while the records are held. -/
theorem spec_modify (hH : HoldLike c H) {o : FsOp FileName} {P : System C → Prop}
    {R : o.Res → System C → Prop} (hP : Stays c P) (hheld : ∀ s, P s → H s)
    (hstep : ∀ s answer fs', Inv s → P s → o.apply c s.fs answer fs' →
      (fs' = s.fs ∧ R answer s) ∨
      ∃ x f, fs' = s.fs.modify x f ∧
        (x.isRecord = true → SlotMoves C x (Mine c x s) (s.fs.slot x) (f (s.fs.slot x))) ∧
        R answer { s with fs := s.fs.modify x f }) :
    Spec c P (CommerceGate.perform (.file o)) R E := by
  refine .file hP fun s answer fs' hinv hs happly => ?_
  rcases hstep s answer fs' hinv hs happly with ⟨rfl, hrest⟩ | ⟨x, f, rfl, hmoves, hrest⟩
  · exact ⟨fun _ _ => .inl rfl, fun _ _ => .refl _, hrest⟩
  · exact ⟨fun _ _ => .inr (.inr (hH.holds s (hheld s hs))), records_modify hmoves, hrest⟩

theorem spec_close {P : System C → Prop} (hP : Stays c P) (x : FileName) :
    Spec c P (CommerceGate.perform (.file (.close x))) (fun _ => P) E :=
  .query (fun _ _ _ h => by obtain ⟨_, rfl, rfl⟩ := h; rfl) hP

/-- The directory is synced. -/
theorem spec_syncDir (hH : HoldLike c H) {P Q : System C → Prop} (hP : Stays c P)
    (hheld : ∀ s, P s → H s) (hE : ∀ e s, H s → E e s)
    (hsync : ∀ s, P s → Q { s with fs := s.fs.syncDir }) :
    Spec c P syncParentDirectory (fun _ => Q) E := by
  refine .bind (R := fun answer s => H s ∧ (answer = true → Q s))
    (.file hP fun s answer fs' _ hs happly => ?_) fun answer => ?_
  · rcases happly with ⟨rfl, rfl⟩ | ⟨rfl, rfl⟩
    · exact ⟨fun _ _ => .inr (.inl rfl), records_settle, hH.files s _ (hheld s hs),
        fun _ => hsync s hs⟩
    · exact ⟨fun _ _ => .inl rfl, fun _ _ => .refl _, hheld s hs, fun h => Bool.noConfusion h⟩
  · exact (Spec.succeed fun e s hs => hE e s hs.1).post fun _ s hs => hs.1.2 hs.2

/-! ### A file on its way to the disk -/

/-- The file is empty and this call's. -/
def Empty (c : Nat) (slot : Slot) : Prop := slot.now = some ⟨0o600, []⟩ ∧ slot.opener = c

/-- The file holds the new record. -/
def Filled (c : Nat) (e' : Record) (slot : Slot) : Prop :=
  slot.now = some e'.file ∧ slot.opener = c

/-- The file holds the new record, on disk. -/
def Flushed (e' : Record) (slot : Slot) : Prop := slot.now = some e'.file ∧ slot.loose = []

theorem Empty.filled {e' : Record} {slot : Slot} (h : Empty c slot) :
    Filled c e' (slot.append c e'.marshal) := by
  simp [Filled, Slot.append, h.1, h.2, Record.file]

theorem Filled.flushed {e' : Record} {slot : Slot} (h : Filled c e' slot) :
    Flushed e' (slot.flush c) := by
  simp [Flushed, Slot.flush, h.1, h.2]

theorem flushed_settle {e' : Record} {slot : Slot} (h : Flushed e' slot) :
    slot.settle.outcomes = [some e'.file] := by
  simp [Slot.outcomes, Slot.present, Slot.settle, h.1, h.2]

theorem stays_durable (hH : HoldLike c H) (hn : n.isRecord = true) (e : Record) :
    Stays c fun s => H s ∧ s.fs.outcomes n = [some e.file] :=
  hH.slot (A := fun slot => slot.outcomes = [some e.file]) (isGuarded_of_isRecord hn)
    fun slot h => by
      simp only [Slot.outcomes, Slot.settle, Slot.present, List.cons_append, List.cons.injEq,
        List.append_eq_nil_iff] at h ⊢
      exact ⟨h.1, h.2.1, trivial⟩

/-- What an operation has made of the file, if it succeeded. -/
theorem stays_if (hH : HoldLike c H) (hn : n.isGuarded = true) {A : Slot → Prop}
    (hA : ∀ slot, A slot → A slot.settle) (p : Prop) :
    Stays c fun s => H s ∧ (p → A (s.fs.slot n)) :=
  hH.slot (A := fun slot => p → A slot) hn fun slot h hp => hA slot (h hp)

/-- **Creating a record** where there is none.  After success the record is all a power loss
can leave. -/
theorem spec_createRecord (hH : HoldLike c H) (hn : n.isRecord = true) {e : Record}
    (he : Initial C n e) (hE : ∀ err s, H s → E err s) :
    Spec c (fun s => H s ∧ s.fs.now n = none) (createRecord n e)
      (fun _ s => H s ∧ s.fs.outcomes n = [some e.file]) E := by
  have hguarded := isGuarded_of_isRecord hn
  have hstays : ∀ {A : Slot → Prop}, (∀ slot, A slot → A slot.settle) → ∀ p : Prop,
      Stays c fun s => H s ∧ (p → A (s.fs.slot n)) := hH.stays_if hguarded
  refine .bind (R := fun answer s => H s ∧ (answer = .ok () → Empty c (s.fs.slot n)))
    (hH.spec_modify (hH.slot (A := fun slot => slot.now = none) hguarded fun _ h => h)
      (fun s hs => hs.1) fun s answer fs' _ hs happly => ?_) fun answer => ?_
  · rcases happly with ⟨_, rfl, rfl⟩ | ⟨_, rfl, rfl⟩ | ⟨rfl, rfl⟩
    · refine .inr ⟨n, Slot.create c 0o600, rfl, fun _ => .create he hs.2 c, hH.files s _ hs.1,
        fun _ => ?_⟩
      rw [Fs.modify_slot_self]
      exact ⟨rfl, rfl⟩
    · exact .inl ⟨rfl, hs.1, fun h => by cases h⟩
    · exact .inl ⟨rfl, hs.1, fun h => by cases h⟩
  cases answer with
  | error err => exact .throw fun s _ hs => hE _ s hs.1
  | ok u =>
    refine .bind (R := fun ok s => H s ∧ (ok = true → Filled c e (s.fs.slot n)))
      (hH.spec_modify (hstays (fun _ h => h) _) (fun s hs => hs.1)
        fun s answer fs' _ hs happly => .inr ?_) fun written => ?_
    · -- all of the text is written, or some of it
      rcases happly with ⟨rfl, rfl⟩ | ⟨rfl, k, _, rfl⟩
      · refine ⟨n, Slot.append c e.marshal, rfl, fun _ => ?_, hH.files s _ hs.1, fun _ => ?_⟩
        · have happend : SlotMoves C n (Mine c n s) (s.fs.slot n)
              ((s.fs.slot n).append c (e.marshal.take e.marshal.length)) :=
            .append he (hs.2 rfl).1 c e.marshal.length
          rwa [List.take_length] at happend
        · rw [Fs.modify_slot_self]
          exact (hs.2 rfl).filled
      · exact ⟨n, Slot.append c (e.marshal.take k), rfl,
          fun _ => .append he (hs.2 rfl).1 c k, hH.files s _ hs.1, fun h => by cases h⟩
    refine .bind (R := fun ok s => H s ∧ (ok = true → Flushed e (s.fs.slot n)))
      (.andThen (fun hwritten => hH.spec_modify (hstays (fun _ h => h) _) (fun s hs => hs.1)
        fun s answer fs' _ hs happly => ?_) fun s hs => ⟨hs.1, fun h => by cases h⟩)
      fun synced => ?_
    · rcases happly with ⟨rfl, rfl⟩ | ⟨rfl, rfl⟩
      · refine .inr ⟨n, Slot.flush c, rfl, fun _ => .flush c, hH.files s _ hs.1, fun _ => ?_⟩
        rw [Fs.modify_slot_self]
        exact (hs.2 hwritten).flushed
      · exact .inl ⟨rfl, hs.1, fun h => by cases h⟩
    refine .bind (spec_close (hstays (fun _ h => h) _) n) fun closed => ?_
    refine .bind (.succeed fun err s hs => hE err s hs.1) fun _ => ?_
    refine .bind (.succeed fun err s hs => hE err s hs.1.1) fun _ => ?_
    exact hH.spec_syncDir (Stays.and_const (Stays.and_const (hstays (fun _ h => h) _)))
      (fun s hs => hs.1.1.1) hE fun s hs =>
        ⟨hH.files s _ hs.1.1.1, flushed_settle (hs.1.1.2 hs.1.2)⟩

/-! ### Replacing a record -/

/-- The record under `n` is `e`, and `e'` is what this call may make of it. -/
def Ready (c : Nat) (n : FileName) (e e' : Record) (s : System C) : Prop :=
  s.fs.now n = some e.file ∧ Evolves C (Mine c n s) e e'

theorem stays_ready (hH : HoldLike c H) (hn : n.isRecord = true) (e e' : Record) :
    Stays c fun s => H s ∧ Ready c n e e' s := by
  have hslot := hH.slot (A := fun slot => slot.now = some e.file) (isGuarded_of_isRecord hn)
    fun _ h => h
  rintro s s' hinterferes ⟨hs, hnow, hevolves⟩
  obtain ⟨hs', hnow'⟩ := hslot s s' hinterferes ⟨hs, hnow⟩
  exact ⟨hs', hnow', hevolves.mono fun id hmine => (frame_of_interferes hinterferes).tokens hmine⟩

/-- The temporary file `t` is as `A` says while the record is ready. -/
def Filling (H : System C → Prop) (c : Nat) (t n : FileName) (e e' : Record) (A : Slot → Prop)
    (s : System C) : Prop :=
  (H s ∧ Ready c n e e' s) ∧ A (s.fs.slot t)

section Filling

variable {e e' : Record} {A B : Slot → Prop}

theorem stays_filling (hH : HoldLike c H) (hn : n.isRecord = true) (ht : t.isGuarded = true)
    (hA : ∀ slot, A slot → A slot.settle) : Stays c (Filling H c t n e e' A) := by
  have hready := hH.stays_ready hn e e'
  have hslot := hH.slot (A := A) ht hA
  exact fun s s' h hs => ⟨hready s s' h hs.1, (hslot s s' h ⟨hs.1.1, hs.2⟩).2⟩

/-- Changing the temporary file leaves the record ready. -/
theorem filling_modify (hH : HoldLike c H) (htn : n ≠ t) {s : System C} {f : Slot → Slot}
    (hs : Filling H c t n e e' A s) (hB : B (f (s.fs.slot t))) :
    Filling H c t n e e' B { s with fs := s.fs.modify t f } := by
  obtain ⟨⟨hheld, hnow, hevolves⟩, -⟩ := hs
  refine ⟨⟨hH.files s _ hheld, ?_, hevolves⟩, ?_⟩
  · rw [Fs.now, Fs.modify_slot_of_ne _ _ htn]
    exact hnow
  · rw [Fs.modify_slot_self]
    exact hB

/-- One step of filling: on success the temporary file goes from `A` to `B`. -/
theorem spec_fillStep (hH : HoldLike c H) (hn : n.isRecord = true) (ht : t.isGuarded = true)
    (htr : t.isRecord = false) (hA : ∀ slot, A slot → A slot.settle) {o : FsOp FileName}
    (ok : o.Res → Bool)
    (hstep : ∀ (fs : Fs FileName) answer fs', A (fs.slot t) → o.apply c fs answer fs' →
      fs' = fs ∧ ok answer = false ∨
      ∃ f, fs' = fs.modify t f ∧ (ok answer = true → B (f (fs.slot t)))) :
    Spec c (Filling H c t n e e' A) (CommerceGate.perform (.file o))
      (fun answer s => H s ∧ (ok answer = true → Filling H c t n e e' B s)) E := by
  have hne : n ≠ t := by
    rintro rfl
    rw [hn] at htr
    cases htr
  refine hH.spec_modify (hH.stays_filling hn ht hA) (fun s hs => hs.1.1)
    fun s answer fs' _ hs happly => ?_
  rcases hstep s.fs answer fs' hs.2 happly with ⟨rfl, hfalse⟩ | ⟨f, rfl, hB⟩
  · exact .inl ⟨rfl, hs.1.1, fun htrue => absurd (htrue.symm.trans hfalse) (by decide)⟩
  · exact .inr ⟨t, f, rfl, fun h => absurd (h.symm.trans htr) (by decide),
      hH.files s _ hs.1.1, fun htrue => hH.filling_modify hne hs (hB htrue)⟩

end Filling

/-- The new record takes the place of the old one, and reaches the disk. -/
theorem spec_rename (hH : HoldLike c H) (hn : n.isRecord = true) (ht : t.isGuarded = true)
    (htr : t.isRecord = false) {e e' : Record} :
    Spec c (Filling H c t n e e' (Flushed e')) (CommerceGate.perform (.file (.rename t n)))
      (fun answer s => H s ∧ (answer = true → Flushed e' (s.fs.slot n))) E := by
  have hne : n ≠ t := by
    rintro rfl
    rw [hn] at htr
    cases htr
  refine .file (hH.stays_filling hn ht fun _ h => h) fun s answer fs' _ hs happly => ?_
  obtain ⟨⟨hheld, hnow, hevolves⟩, hfull, hloose⟩ := hs
  rcases happly with ⟨rfl, -, rfl⟩ | ⟨rfl, rfl⟩
  · have htarget := s.fs.rename_slot_target hne
    refine ⟨fun _ _ => .inr (.inr (hH.holds s hheld)), fun m hm => ?_, hH.files s _ hheld,
      fun _ => ?_⟩
    · by_cases hmn : m = n
      · subst hmn
        rw [htarget]
        exact .replace hevolves hfull hloose hnow
      · have hmt : m ≠ t := by
          rintro rfl
          rw [hm] at htr
          cases htr
        rw [s.fs.rename_slot_of_ne hmt hmn]
        exact .refl _
    · rw [htarget]
      exact ⟨hfull, hloose⟩
  · exact ⟨fun _ _ => .inl rfl, fun _ _ => .refl _, hheld, fun h => nomatch h⟩

/-- Filling the temporary file and moving it over the record. -/
theorem spec_fillAndRename (hH : HoldLike c H) (hn : n.isRecord = true) (ht : t.isGuarded = true)
    (htr : t.isRecord = false) {e e' : Record} (hE : ∀ err s, H s → E err s) :
    Spec c (Filling H c t n e e' (Empty c)) (fillAndRename t n e'.marshal)
      (fun _ s => H s ∧ s.fs.outcomes n = [some e'.file]) E := by
  -- the mode
  refine .bind (R := fun ok s => H s ∧ (ok = true → Filling H c t n e e' (Empty c) s))
    (hH.spec_fillStep hn ht htr (fun _ h => h) (o := .chmod t 0o600) (fun b => b)
      fun fs answer fs' hA happly => ?_) fun modeSet => ?_
  · rcases happly with ⟨rfl, rfl⟩ | ⟨rfl, rfl⟩
    · exact .inr ⟨Slot.chmod c 0o600, rfl, fun _ => by simp [Empty, Slot.chmod, hA.1, hA.2]⟩
    · exact .inl ⟨rfl, rfl⟩
  -- the contents
  refine .bind (R := fun ok s => H s ∧ (ok = true → Filling H c t n e e' (Filled c e') s))
    (.andThen (fun hset => ?_) fun s hs => ⟨hs.1, fun h => by cases h⟩) fun written => ?_
  · refine .pre (hH.spec_fillStep hn ht htr (A := Empty c) (fun _ h => h)
      (o := .write t e'.marshal) (fun b => b) fun fs answer fs' hA happly => ?_)
      fun s _ hs => hs.2 hset
    rcases happly with ⟨rfl, rfl⟩ | ⟨rfl, k, _, rfl⟩
    · exact .inr ⟨Slot.append c e'.marshal, rfl, fun _ => hA.filled⟩
    · exact .inr ⟨Slot.append c (e'.marshal.take k), rfl, fun h => by cases h⟩
  -- the disk
  refine .bind (R := fun ok s => H s ∧ (ok = true → Filling H c t n e e' (Flushed e') s))
    (.andThen (fun hwritten => ?_) fun s hs => ⟨hs.1, fun h => by cases h⟩) fun synced => ?_
  · refine .pre (hH.spec_fillStep hn ht htr (A := Filled c e') (fun _ h => h) (o := .sync t)
      (fun b => b) fun fs answer fs' hA happly => ?_) fun s _ hs => hs.2 hwritten
    rcases happly with ⟨rfl, rfl⟩ | ⟨rfl, rfl⟩
    · exact .inr ⟨Slot.flush c, rfl, fun _ => hA.flushed⟩
    · exact .inl ⟨rfl, rfl⟩
  have hflushed : Stays c fun s => H s ∧ (synced = true → Filling H c t n e e' (Flushed e') s) :=
    fun s s' h hs => ⟨hH.stays s s' h hs.1, fun ha =>
      hH.stays_filling hn ht (fun _ h => h) s s' h (hs.2 ha)⟩
  refine .bind (spec_close hflushed t) fun closed => ?_
  refine .bind (.succeed fun err s hs => hE err s hs.1) fun _ => ?_
  refine .bind (.succeed fun err s hs => hE err s hs.1.1) fun _ => ?_
  refine .bind ((hH.spec_rename hn ht htr).pre fun s _ (hs : (_ ∧ _) ∧ _) => hs.1.1.2 hs.1.2)
    fun moved => ?_
  refine .bind (.succeed fun err s hs => hE err s hs.1) fun _ => ?_
  exact hH.spec_syncDir
    (Stays.and_const (hH.stays_if (isGuarded_of_isRecord hn) (fun _ h => h) _))
    (fun s hs => hs.1.1) hE fun s hs => ⟨hH.files s _ hs.1.1, flushed_settle (hs.1.2 hs.2)⟩

/-- Removing a temporary file. -/
theorem spec_remove (hH : HoldLike c H) (htr : t.isRecord = false) {P : System C → Prop}
    (hP : Stays c P) (hheld : ∀ s, P s → H s)
    (hfiles : ∀ s, P s → P { s with fs := s.fs.modify t Slot.unlink }) :
    Spec c P (CommerceGate.perform (.file (.remove t))) (fun _ => P) E := by
  refine hH.spec_modify hP hheld fun s answer fs' _ hs happly => ?_
  rcases happly with ⟨rfl, -, rfl⟩ | ⟨rfl, rfl⟩
  · exact .inr ⟨t, Slot.unlink, rfl, fun h => absurd (h.symm.trans htr) (by decide), hfiles s hs⟩
  · exact .inl ⟨rfl, hs⟩

/-- **Replacing a record.**  After success the new record is all a power loss can
leave; after a failure the records are still held. -/
theorem spec_replaceRecord (hH : HoldLike c H) (hn : n.isRecord = true) (e e' : Record) :
    Spec c (fun s => H s ∧ Ready c n e e' s) (replaceRecord n e')
      (fun _ s => H s ∧ s.fs.outcomes n = [some e'.file]) (fun _ => H) := by
  have hready := hH.stays_ready hn e e'
  refine .bind (R := fun answer s => (H s ∧ Ready c n e e' s) ∧
      ∀ t, answer = some t → t.IsGateTemp ∧ Empty c (s.fs.slot t))
    (hH.spec_modify hready (fun s hs => hs.1) fun s answer fs' _ hs happly => ?_) fun answer => ?_
  · rcases happly with ⟨t, ⟨k, rfl⟩, -, rfl, rfl⟩ | ⟨rfl, rfl⟩
    · refine .inr ⟨.gateTemp k, Slot.create c 0o600, rfl, (fun h => nomatch h), ?_⟩
      have hne : n ≠ .gateTemp k := by
        rintro rfl
        cases hn
      have hfilling := hH.filling_modify (A := fun _ => True) (B := Empty c)
        (f := Slot.create c 0o600) hne ⟨hs, trivial⟩ ⟨rfl, rfl⟩
      refine ⟨hfilling.1, fun t ht => ?_⟩
      obtain rfl := Option.some.inj ht
      exact ⟨⟨k, rfl⟩, hfilling.2⟩
    · exact .inl ⟨rfl, hs, fun t ht => nomatch ht⟩
  · cases answer with
    | none => exact .throw fun s _ hs => hs.1.1
    | some t =>
      by_cases htemp : t.IsGateTemp
      · obtain ⟨k, rfl⟩ := htemp
        have hfill : Spec c (Filling H c (.gateTemp k) n e e' (Empty c))
            (fillAndRename (.gateTemp k) n e'.marshal)
            (fun _ s => H s ∧ s.fs.outcomes n = [some e'.file]) (fun _ => H) :=
          hH.spec_fillAndRename hn rfl rfl fun _ _ h => h
        have hne : n ≠ .gateTemp k := by
          rintro rfl
          cases hn
        refine .deferred (hfill.pre fun s _ hs => ⟨hs.1, (hs.2 _ rfl).2⟩) fun r => ?_
        cases r with
        | ok u =>
          refine hH.spec_remove rfl (hH.stays_durable hn e') (fun s hs => hs.1) fun s hs =>
            ⟨hH.files s _ hs.1, ?_⟩
          rw [Fs.outcomes, Fs.modify_slot_of_ne _ _ hne]
          exact hs.2
        | error err => exact hH.spec_remove rfl hH.stays (fun _ h => h) fun s hs => hH.files s _ hs
      · exact fun s _ hs => absurd (hs.2 t rfl).1 htemp

end HoldLike

end TosAi.CommerceGate
