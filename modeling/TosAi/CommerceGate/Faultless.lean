/-
  What the programs of the Gate do when nothing goes wrong.

  A `World` fixes the answers that come from outside: the clock, the authority,
  the random secret, the input files and the other end of an exchange.  In a world
  no file operation fails, so a call that runs alone has one outcome, up to the
  names of its temporary files and the order of a listing.  `Ends` states that
  outcome; it is what "the call succeeds" means in this development.
-/
import TosAi.Foundation.Alone
import TosAi.CommerceGate.Lineage
import TosAi.CommerceGate.System

set_option autoImplicit false

namespace TosAi.CommerceGate

open Foundation
open Foundation.Json (Bytes)

/-! ## Worlds -/

/-- The answers from outside. -/
structure World (C : Commerce) where
  now : Time
  authority : C.Authority
  secret : String
  input : FileBinding → InputView
  credential : List HTTPHeader
  status : Nat
  body : Bytes
  status_lt : status < 1000

/-- The answer is the one of the world. -/
def World.allows {C : Commerce} (W : World C) : (o : Op C) → System C → Res o → Prop
  | .file o, s, answer => o.healthy s.fs answer
  | .makeDirectory, _, answer => answer = none
  | .privateDirectory, _, answer | .releaseDirectory, _, answer | .revalidate, _, answer =>
    answer = true
  | .acquireDirectory, s, answer => answer = true ↔ s.owner = none
  | .now, _, answer => answer = W.now
  | .authority, _, answer => answer = W.authority
  | .random, _, answer => answer = some W.secret
  | .openInput binding, _, answer => answer = some (W.input binding)
  | .resolveCredential _ _ _ _, _, answer => answer = .ok W.credential
  | .exchange _ _ _ _, _, answer => answer = .ok (W.status, W.body)
  | .lockHeld, _, _ | .lockMutex, _, _ | .unlockMutex, _, _ | .clearLock, _, _ | .enter _, _, _
  | .claim _ _, _, _ => True

/-- What an operation of call `c` does in the world. -/
def World.works {C : Commerce} (W : World C) (c : Nat) (o : Op C) (s : System C) (answer : Res o)
    (s' : System C) : Prop :=
  System.apply c o s answer s' ∧ W.allows o s answer

variable {C : Commerce} {W : World C} {α : Type} {c : Nat} {s : System C} {body : Gated C α}
  {E : Err → System C → Prop}

section Basics

variable {Q : α → System C → Prop}

/-- An operation with one outcome. -/
theorem ends_perform {o : Op C} {Q : Res o → System C → Prop} (answer : Res o) {s' : System C}
    (hworks : W.works c o s answer s')
    (honly : ∀ answer' t, W.works c o s answer' t → answer' = answer ∧ t = s')
    (hQ : Q answer s') : Ends (W.works c) (perform o) s Q E :=
  .call ⟨answer, s', hworks⟩ fun answer' t h => by
    obtain ⟨rfl, rfl⟩ := honly answer' t h
    exact hQ

theorem ends_now {Q : Time → System C → Prop} (hQ : Q W.now s) :
    Ends (W.works c) (perform .now) s Q E :=
  ends_perform W.now ⟨rfl, rfl⟩ (fun _ _ h => ⟨h.2, h.1⟩) hQ

theorem ends_authority {Q : C.Authority → System C → Prop} (hQ : Q W.authority s) :
    Ends (W.works c) (perform .authority) s Q E :=
  ends_perform W.authority ⟨rfl, rfl⟩ (fun _ _ h => ⟨h.2, h.1⟩) hQ

theorem ends_lockHeld {Q : Bool → System C → Prop} (hQ : Q (s.lock (s.gateOf c)) s) :
    Ends (W.works c) (perform .lockHeld) s Q E :=
  ends_perform (s.lock (s.gateOf c)) ⟨⟨rfl, rfl⟩, trivial⟩
    (fun _ _ h => ⟨h.1.2, h.1.1⟩) hQ

theorem ends_attempt {R : Except Err α → System C → Prop}
    {E' : Err → System C → Prop} (h : Ends (W.works c) body s Q E)
    (hok : ∀ a t, Q a t → R (.ok a) t) (herror : ∀ e t, E e t → R (.error e) t) :
    Ends (W.works c) (attempt body) s R E' := by
  refine .lift (Prog.Always.mono (fun r t hr => ?_) h)
  cases r with
  | ok a => exact hok a t hr
  | error e => exact herror e t hr

theorem ends_ofExcept {r : Except Err α} {a : α} (hr : r = .ok a) (hQ : Q a s) :
    Ends (W.works c) (ofExcept r) s Q E := by
  subst hr
  exact hQ

theorem ends_ensure {condition : Bool} {message : String} {Q : Unit → System C → Prop}
    (hcondition : condition = true) (hQ : Q () s) :
    Ends (W.works c) (ensure condition message) s Q E := by
  unfold ensure
  rw [if_pos hcondition]
  exact hQ

theorem ends_nilError {err : Option Err} {Q : Unit → System C → Prop} (herr : err = none)
    (hQ : Q () s) : Ends (W.works c) (nilError err) s Q E := by
  subst herr
  exact hQ

theorem ends_succeed {Q : Unit → System C → Prop} (hQ : Q () s) :
    Ends (W.works c) (succeed true) s Q E := hQ

theorem ends_deferred {last : Op C} (hbody : Ends (W.works c) body s
      (fun a t => Ends (W.works c) (perform last) t (fun _ u => Q a u) E)
      fun e t => Ends (W.works c) (perform last) t (fun _ u => E e u) E) :
    Ends (W.works c) (deferred body last) s Q E :=
  .chain (ends_attempt hbody (fun _ _ h => .bind h fun _ _ hQ => ends_ofExcept rfl hQ)
    fun _ _ h => .bind h fun _ _ hE => .throw hE)

variable {g : Nat} {m : Method}

theorem ends_lockMutex {Q : Unit → System C → Prop} (hcall : s.calls c = some (g, m))
    (hfree : s.mu g = none) (hQ : Q () { s with mu := Function.update s.mu g (some c) }) :
    Ends (W.works c) (perform .lockMutex) s Q E := by
  have hgate : s.gateOf c = g := by simp [System.gateOf, hcall]
  refine ends_perform () ⟨⟨hgate ▸ hfree, rfl⟩, trivial⟩ (fun _ t h => ⟨rfl, h.1.2⟩) ?_
  rw [hgate]
  exact hQ

theorem ends_unlockMutex {Q : Unit → System C → Prop}
    (hQ : Q () { s with mu := Function.update s.mu (s.gateOf c) none }) :
    Ends (W.works c) (perform .unlockMutex) s Q E :=
  ends_perform () ⟨rfl, trivial⟩ (fun _ _ h => ⟨rfl, h.1⟩) hQ

/-- A section under the mutex, which is free before. -/
theorem ends_locked (hcall : s.calls c = some (g, m)) (hfree : s.mu g = none)
    (hbody : Ends (W.works c) body { s with mu := Function.update s.mu g (some c) }
      (fun a t => Q a { t with mu := Function.update t.mu (t.gateOf c) none })
      fun e t => E e { t with mu := Function.update t.mu (t.gateOf c) none }) :
    Ends (W.works c) (locked body) s Q E :=
  .chain (ends_lockMutex hcall hfree (ends_deferred
    (hbody.conseq (fun _ _ h => ends_unlockMutex h) fun _ _ h => ends_unlockMutex h)))

/-- A stop within such a section. -/
theorem halts_locked {R K : System C → Prop} (hcall : s.calls c = some (g, m))
    (hfree : s.mu g = none)
    (hbody : Halts (W.works c) body { s with mu := Function.update s.mu g (some c) } R K
      (fun a t => Q a { t with mu := Function.update t.mu (t.gateOf c) none }) fun _ _ => False) :
    Halts (W.works c) (locked body) s R K Q E := by
  refine .chain (ends_lockMutex hcall hfree (.within (.lift ?_)))
  obtain ⟨q, t, hsteps, hR, hrest⟩ := hbody
  refine ⟨q, t, hsteps, hR, fun u hu => Prog.Always.mono (fun r v hr => ?_) (hrest u hu)⟩
  cases r with
  | ok a => exact .bind (ends_unlockMutex (Q := fun _ w => Q a w) hr) fun _ _ hQ => hQ
  | error e => exact hr.elim

end Basics

/-! ## Files -/

section Files

variable {n t : FileName}

/-- A file operation with one outcome. -/
theorem ends_file {o : FsOp FileName} {Q : o.Res → System C → Prop} (answer : o.Res)
    {fs' : Fs FileName} (happly : o.apply c s.fs answer fs') (hhealthy : o.healthy s.fs answer)
    (honly : ∀ answer' fs'', o.apply c s.fs answer' fs'' → o.healthy s.fs answer' →
      answer' = answer ∧ fs'' = fs')
    (hQ : Q answer { s with fs := fs' }) : Ends (W.works c) (perform (.file o)) s Q E := by
  refine ends_perform answer ⟨⟨fs', happly, rfl⟩, hhealthy⟩ (fun answer' u h => ?_) hQ
  obtain ⟨⟨fs'', happly', rfl⟩, hhealthy'⟩ := h
  obtain ⟨rfl, rfl⟩ := honly answer' fs'' happly' hhealthy'
  exact ⟨rfl, rfl⟩

theorem ends_read {Q : Except FsErr Seen → System C → Prop}
    (hsome : ∀ f, s.fs.now n = some f → Q (.ok ⟨f, (s.fs.slot n).version⟩) s)
    (hnone : s.fs.now n = none → Q (.error .notExist) s) :
    Ends (W.works c) (perform (.file (.read n))) s Q E := by
  cases hnow : s.fs.now n with
  | none =>
    refine ends_file (.error .notExist) ⟨rfl, .inr (.inl ⟨hnow, rfl⟩)⟩ (fun h => nomatch h)
      (fun answer fs h hhealthy => ?_) (hnone hnow)
    obtain ⟨rfl, ⟨f, hf, -⟩ | ⟨-, rfl⟩ | rfl⟩ := h
    · rw [hnow] at hf
      cases hf
    · exact ⟨rfl, rfl⟩
    · exact absurd rfl hhealthy
  | some f =>
    refine ends_file (.ok ⟨f, (s.fs.slot n).version⟩) ⟨rfl, .inl ⟨f, hnow, rfl⟩⟩
      (fun h => nomatch h) (fun answer fs h hhealthy => ?_) (hsome f hnow)
    obtain ⟨rfl, ⟨f', hf, rfl⟩ | ⟨hf, -⟩ | rfl⟩ := h
    · rw [hnow] at hf
      obtain rfl := Option.some.inj hf
      exact ⟨rfl, rfl⟩
    · rw [hnow] at hf
      cases hf
    · exact absurd rfl hhealthy

/-- A file is read as far as the reader takes it. -/
theorem ends_readRecord_file {f : File} {Q : Record × Nat → System C → Prop}
    (hnow : s.fs.now n = some f)
    (hread : Discipline.Returns (fun e => Q (e, (s.fs.slot n).version)) E (readFile f) s) :
    Ends (W.works c) (readRecord n) s Q E := by
  refine .bind (R := fun answer u => answer = .ok ⟨f, (s.fs.slot n).version⟩ ∧ u = s)
    (ends_read (fun f' hf => ?_) fun hnone => ?_) fun answer u h => ?_
  · rw [hnow] at hf
    obtain rfl := Option.some.inj hf
    exact ⟨rfl, rfl⟩
  · rw [hnow] at hnone
    cases hnone
  · obtain ⟨rfl, rfl⟩ := h
    dsimp only
    cases hfile : readFile f with
    | ok e | error err =>
      rw [hfile] at hread
      exact hread

/-- A record is read as it was written, if it passes the reader's checks. -/
theorem ends_readRecord {e : Record} {Q : Record × Nat → System C → Prop}
    (hnow : s.fs.now n = some e.file) (hreadable : Readable e)
    (hQ : Q (e, (s.fs.slot n).version) s) : Ends (W.works c) (readRecord n) s Q E :=
  ends_readRecord_file hnow (readFile_file hreadable ▸ hQ)

/-- The same with the error kept as a value. -/
theorem ends_attempt_readRecord {e : Record} {Q : Except Err (Record × Nat) → System C → Prop}
    (hnow : s.fs.now n = some e.file) (hreadable : Readable e)
    (hQ : Q (.ok (e, (s.fs.slot n).version)) s) :
    Ends (W.works c) (attempt (readRecord n)) s Q E :=
  ends_attempt (Q := fun r t => Q (.ok r) t) (E := fun _ _ => False)
    (ends_readRecord hnow hreadable hQ) (fun _ _ h => h) fun _ _ h => h.elim

theorem ends_readRecord_absent {Q : Record × Nat → System C → Prop} (hnow : s.fs.now n = none)
    (hE : E .notExist s) : Ends (W.works c) (readRecord n) s Q E := by
  refine .bind (R := fun answer u => answer = .error .notExist ∧ u = s)
    (ends_read (fun f hf => ?_) fun _ => ⟨rfl, rfl⟩) fun answer u h => ?_
  · rw [hnow] at hf
    cases hf
  · obtain ⟨rfl, rfl⟩ := h
    exact hE

/-- A file the reader refuses ends the read. -/
theorem ends_readRecord_refused {f : File} {err : Err} {Q : Record × Nat → System C → Prop}
    (hnow : s.fs.now n = some f) (hread : readFile f = .error err) (hE : E err s) :
    Ends (W.works c) (readRecord n) s Q E :=
  ends_readRecord_file hnow (hread ▸ hE)

/-- The file is one call `c` made, and holds the given bytes. -/
structure Wrote (c : Nat) (bytes : Bytes) (slot : Slot) : Prop where
  now : slot.now = some ⟨0o600, bytes⟩
  opener : slot.opener = c

variable {bytes : Bytes} {Q : Bool → System C → Prop}

theorem Wrote.chmod {slot : Slot} (h : Wrote c bytes slot) :
    Wrote c bytes (slot.chmod c 0o600) := by
  constructor <;> simp [Slot.chmod, h.now, h.opener]

theorem Wrote.append {slot : Slot} (h : Wrote c bytes slot) (more : Bytes) :
    Wrote c (bytes ++ more) (slot.append c more) := by
  constructor <;> simp [Slot.append, h.now, h.opener]

theorem Wrote.flush {slot : Slot} (h : Wrote c bytes slot) :
    Wrote c bytes (slot.flush c) := by
  constructor <;> simp [Slot.flush, h.now, h.opener]

/-- The file `t` is this call's and holds the given bytes; the other names are as
they were. -/
structure Filled (c : Nat) (t : FileName) (bytes : Bytes) (fs₀ fs : Fs FileName) : Prop where
  slot : Wrote c bytes (fs.slot t)
  others : ∀ m, m ≠ t → fs.slot m = fs₀.slot m

theorem Filled.modify {bytes' : Bytes} {fs₀ fs : Fs FileName} {f : Slot → Slot}
    (h : Filled c t bytes fs₀ fs) (hf : ∀ slot, Wrote c bytes slot → Wrote c bytes' (f slot)) :
    Filled c t bytes' fs₀ (fs.modify t f) where
  slot := by
    rw [Fs.modify_slot_self]
    exact hf _ h.slot
  others := fun m hm => (Fs.modify_slot_of_ne _ _ hm).trans (h.others m hm)

/-- A new file is empty and this call's. -/
theorem filled_create (fs : Fs FileName) :
    Filled c t [] fs (fs.modify t (Slot.create c 0o600)) where
  slot := by
    rw [Fs.modify_slot_self]
    exact ⟨rfl, rfl⟩
  others := fun _ hm => Fs.modify_slot_of_ne _ _ hm

/-- A file has taken the place of another. -/
structure Replaced (kind : FileName → Prop) (n : FileName) (bytes : Bytes)
    (fs₀ fs : Fs FileName) : Prop where
  now : fs.now n = some ⟨0o600, bytes⟩
  others : ∀ m, m ≠ n → ¬ kind m → fs.now m = fs₀.now m

theorem ends_create {Q : Except FsErr Unit → System C → Prop} {perm : Nat}
    (habsent : s.fs.now n = none)
    (hQ : Q (.ok ()) { s with fs := s.fs.modify n (Slot.create c perm) }) :
    Ends (W.works c) (perform (.file (.create n perm))) s Q E := by
  refine ends_file (.ok ()) (.inl ⟨habsent, rfl, rfl⟩) (fun h => nomatch h)
    (fun answer fs h hhealthy => ?_) hQ
  rcases h with ⟨-, h⟩ | ⟨hpresent, -⟩ | ⟨rfl, -⟩
  · exact h
  · rw [habsent] at hpresent
    cases hpresent
  · exact absurd rfl hhealthy

theorem ends_chmod {perm : Nat} (hQ : Q true { s with fs := s.fs.modify t (Slot.chmod c perm) }) :
    Ends (W.works c) (perform (.file (.chmod t perm))) s Q E := by
  refine ends_file true (.inl ⟨rfl, rfl⟩) rfl (fun answer fs h hhealthy => ?_) hQ
  rcases h with h | ⟨rfl, -⟩
  · exact h
  · cases hhealthy

theorem ends_write (hQ : Q true { s with fs := s.fs.modify t (Slot.append c bytes) }) :
    Ends (W.works c) (perform (.file (.write t bytes))) s Q E := by
  refine ends_file true (.inl ⟨rfl, rfl⟩) rfl (fun answer fs h hhealthy => ?_) hQ
  rcases h with h | ⟨rfl, -⟩
  · exact h
  · cases hhealthy

theorem ends_sync (hQ : Q true { s with fs := s.fs.modify t (Slot.flush c) }) :
    Ends (W.works c) (perform (.file (.sync t))) s Q E := by
  refine ends_file true (.inl ⟨rfl, rfl⟩) rfl (fun answer fs h hhealthy => ?_) hQ
  rcases h with h | ⟨rfl, -⟩
  · exact h
  · cases hhealthy

theorem ends_close (hQ : Q true s) :
    Ends (W.works c) (perform (.file (.close t))) s Q E :=
  ends_file true rfl rfl (fun _ _ h hhealthy => ⟨hhealthy, h⟩) hQ

theorem ends_syncParentDirectory {Q : Unit → System C → Prop}
    (hQ : Q () { s with fs := s.fs.syncDir }) :
    Ends (W.works c) syncParentDirectory s Q E := by
  refine .chain (ends_file true (.inl ⟨rfl, rfl⟩) rfl (fun answer fs h hhealthy => ?_) hQ)
  rcases h with h | ⟨rfl, -⟩
  · exact h
  · cases hhealthy

theorem ends_rename (hpresent : (s.fs.now t).isSome = true)
    (hQ : Q true { s with fs := s.fs.rename t n }) :
    Ends (W.works c) (perform (.file (.rename t n))) s Q E := by
  refine ends_file true (.inl ⟨rfl, hpresent, rfl⟩) hpresent.symm (fun answer fs h hhealthy => ?_)
    hQ
  rcases h with ⟨rfl, -, rfl⟩ | ⟨rfl, -⟩
  · exact ⟨rfl, rfl⟩
  · exact absurd (hhealthy.trans hpresent) Bool.false_ne_true

theorem ends_remove_absent (habsent : s.fs.now t = none)
    (hQ : Q false s) : Ends (W.works c) (perform (.file (.remove t))) s Q E := by
  refine ends_file false (.inr ⟨rfl, rfl⟩) (by rw [FsOp.healthy, habsent]; rfl)
    (fun answer fs h hhealthy => ?_) hQ
  rcases h with ⟨rfl, hpresent, -⟩ | h
  · rw [habsent] at hpresent
    cases hpresent
  · exact h

theorem ends_fillAndRename {kind : FileName → Prop} {fs₀ : Fs FileName} {raw : Bytes}
    {Q : Unit → System C → Prop} (ht : kind t) (htn : t ≠ n) (hfilled : Filled c t [] fs₀ s.fs)
    (hQ : ∀ fs', Replaced kind n raw fs₀ fs' → fs'.now t = none → Q () { s with fs := fs' }) :
    Ends (W.works c) (fillAndRename t n raw) s Q E := by
  have hflushed := ((hfilled.modify fun _ h => h.chmod).modify fun _ h =>
    h.append raw).modify fun _ h => h.flush
  refine .chain (ends_chmod (.chain (ends_write (.chain (ends_sync
    (.chain (ends_close (.chain (ends_succeed (.chain (ends_succeed ?_)))))))))))
  have hpresent : ((((s.fs.modify t (Slot.chmod c 0o600)).modify t (Slot.append c raw)).modify t
      (Slot.flush c)).now t).isSome = true := by
    rw [Fs.now, hflushed.slot.now]
    rfl
  refine .chain (ends_rename hpresent (.chain (ends_succeed
    (ends_syncParentDirectory (hQ _ ⟨?_, fun m hm hkind => ?_⟩ ?_)))))
  · rw [Fs.now, Fs.syncDir_slot, Fs.rename_slot_target _ htn.symm]
    exact hflushed.slot.now
  · have hmt : m ≠ t := by
      rintro rfl
      exact hkind ht
    rw [Fs.now, Fs.syncDir_slot, Fs.rename_slot_of_ne _ hmt hm, hflushed.others m hmt]
    rfl
  · rw [Fs.now, Fs.syncDir_slot, Fs.rename_slot_source _ htn]
    rfl

/-- **A file is replaced** through a temporary one, for which there is always a
name. -/
theorem ends_replaceThrough {kind : FileName → Prop} {raw : Bytes} {Q : Unit → System C → Prop}
    (hroom : ∀ fs : Fs FileName, ∃ t, kind t ∧ fs.now t = none) (hn : ¬ kind n)
    (hQ : ∀ fs', Replaced kind n raw s.fs fs' → Q () { s with fs := fs' }) :
    Ends (W.works c) (replaceThrough kind n raw) s Q E := by
  refine .chain (.call ?_ fun answer u h => ?_)
  · obtain ⟨t, hkind, hnow⟩ := hroom s.fs
    exact ⟨some t, _, ⟨_, .inl ⟨t, hkind, hnow, rfl, rfl⟩, rfl⟩, rfl⟩
  · obtain ⟨⟨fs', ⟨t, hkind, -, rfl, rfl⟩ | ⟨rfl, -⟩, rfl⟩, hhealthy⟩ := h
    · have htn : t ≠ n := by
        rintro rfl
        exact hn hkind
      -- the temporary name is gone with the rename
      exact ends_deferred (ends_fillAndRename hkind htn (filled_create s.fs)
        fun fs' hreplaced habsent => ends_remove_absent habsent (hQ fs' hreplaced))
    · cases hhealthy

end Files

/-! ## Records -/

/-- The record is written under its name, and the other records are as they were. -/
structure Rewrote (n : FileName) (e : Record) (fs₀ fs : Fs FileName) : Prop where
  now : fs.now n = some e.file
  others : ∀ m, m.isRecord = true → m ≠ n → fs.now m = fs₀.now m

section Records

variable {n : FileName} {Q : Unit → System C → Prop}

theorem not_isGateTemp (hn : n.isRecord = true) : ¬ n.IsGateTemp := by
  rintro ⟨k, rfl⟩
  cases hn

theorem ends_replaceRecord {e : Record} (hn : n.isRecord = true)
    (hQ : ∀ fs', Rewrote n e s.fs fs' → Q () { s with fs := fs' }) :
    Ends (W.works c) (replaceRecord n e) s Q E := by
  refine ends_replaceThrough (fun fs => ?_) (not_isGateTemp hn) fun fs' h => hQ fs' ⟨h.now, ?_⟩
  · obtain ⟨k, hk⟩ := fs.exists_free (f := FileName.gateTemp) fun _ _ h => FileName.gateTemp.inj h
    exact ⟨.gateTemp k, ⟨k, rfl⟩, hk⟩
  · exact fun m hm hmn => h.others m hmn (not_isGateTemp hm)

theorem ends_createRecord {e : Record} (hnow : s.fs.now n = none)
    (hQ : ∀ fs', Rewrote n e s.fs fs' → Q () { s with fs := fs' }) :
    Ends (W.works c) (createRecord n e) s Q E := by
  have hflushed := ((filled_create (c := c) (t := n) s.fs).modify fun _ h =>
    h.append e.marshal).modify fun _ h => h.flush
  refine .chain (ends_create hnow (.chain (ends_write (.chain (ends_sync
    (.chain (ends_close (.chain (ends_succeed (.chain (ends_succeed
      (ends_syncParentDirectory (hQ _ ⟨hflushed.slot.now, fun m _ hmn => ?_⟩)))))))))))))
  rw [Fs.now, Fs.syncDir_slot, hflushed.others m hmn]
  rfl

end Records

/-! ## Open -/

/-- The record after recovery. -/
def Record.reopened (e : Record) : Record :=
  match Record.recovered e.state with
  | some next => e.recover next
  | none => e

/-- The records of the given names are recovered, the others as they were. -/
structure Recovered (items : List FileName) (fs₀ fs : Fs FileName) : Prop where
  listed : ∀ hex e, .record hex ∈ items → fs₀.now (.record hex) = some (Record.file e) →
    fs.now (.record hex) = some e.reopened.file
  others : ∀ m, m.isRecord = true → (∀ hex, m = .record hex → m ∉ items) → fs.now m = fs₀.now m

section Recovery

variable {Q : Unit → System C → Prop}

theorem ends_recoverItem {hex : String} {e : Record}
    (hnow : s.fs.now (.record hex) = some e.file) (hreadable : Readable e)
    (hQ : ∀ fs', Rewrote (.record hex) e.reopened s.fs fs' → Q () { s with fs := fs' }) :
    Ends (W.works c) (recoverItem (.record hex)) s Q E := by
  refine .bind (R := fun r u => r.1 = e ∧ u = s)
    (ends_readRecord hnow hreadable ⟨rfl, rfl⟩) fun r u h => ?_
  obtain ⟨e', version⟩ := r
  obtain ⟨rfl, rfl⟩ := h
  dsimp only
  unfold Record.reopened at hQ
  cases hnext : Record.recovered e'.state with
  | none =>
    simp only [hnext] at hQ
    exact hQ u.fs ⟨hnow, fun _ _ _ => rfl⟩
  | some next =>
    simp only [hnext] at hQ
    exact ends_replaceRecord rfl hQ

/-- Whatever is under the name, recovery of the item touches no other record. -/
theorem ends_recoverItem_other (item : FileName) :
    Ends (W.works c) (recoverItem item) s
      (fun _ u => ∃ fs', u = { s with fs := fs' } ∧
        ∀ m, m.isRecord = true → m ≠ item → fs'.now m = s.fs.now m) (fun _ _ => True) := by
  cases item with
  | record hex =>
    cases hnow : s.fs.now (.record hex) with
    | none =>
      exact .bind (R := fun _ _ => False) (ends_readRecord_absent hnow trivial)
        fun _ _ h => h.elim
    | some f =>
      refine .bind (R := fun _ u => u = s) (.bind
        (R := fun answer u => answer = .ok ⟨f, (s.fs.slot (.record hex)).version⟩ ∧ u = s)
        (ends_read (fun f' hf => ?_) fun hnone => ?_) fun answer u h => ?_) fun r u h => ?_
      · rw [hnow] at hf
        obtain rfl := Option.some.inj hf
        exact ⟨rfl, rfl⟩
      · rw [hnow] at hnone
        cases hnone
      · obtain ⟨rfl, rfl⟩ := h
        dsimp only
        cases readFile f with
        | ok e => exact .pure rfl
        | error err => exact .throw trivial
      · subst h
        obtain ⟨e, version⟩ := r
        dsimp only
        cases Record.recovered e.state with
        | none => exact .pure ⟨u.fs, rfl, fun _ _ _ => rfl⟩
        | some next => exact ends_replaceRecord rfl fun fs' h => ⟨fs', rfl, h.others⟩
  | _ => exact .pure ⟨s.fs, rfl, fun _ _ _ => rfl⟩

theorem ends_recoverItems (items : List FileName) :
    ∀ {s : System C}, items.Nodup →
      (∀ hex, .record hex ∈ items → ∃ e, s.fs.now (.record hex) = some (Record.file e) ∧
        Readable e) →
      (∀ fs', Recovered items s.fs fs' → Q () { s with fs := fs' }) →
      Ends (W.works c) (recoverItems items) s Q E := by
  induction items with
  | nil =>
    intro s _ _ hQ
    exact hQ s.fs ⟨(fun _ _ h => nomatch h), fun _ _ _ => rfl⟩
  | cons item rest ih =>
    intro s hnodup hread hQ
    obtain ⟨hfresh, hnodup⟩ := List.nodup_cons.mp hnodup
    -- the rest of the list, once this item has become what it becomes
    have hrest : ∀ fs₁ : Fs FileName,
        (∀ m, m.isRecord = true → m ≠ item → fs₁.now m = s.fs.now m) →
        (∀ hex e, item = .record hex → s.fs.now item = some (Record.file e) →
          fs₁.now item = some e.reopened.file) →
        (item.isRecord = true → (∀ hex, item ≠ .record hex) → fs₁.now item = s.fs.now item) →
        Ends (W.works c) (recoverItems rest) { s with fs := fs₁ } Q E := by
      intro fs₁ hothers hitem hplain
      refine ih hnodup (fun hex hmem => ?_) fun fs' h => hQ fs' ⟨fun hex e hmem hnow => ?_,
        fun m hm hout => ?_⟩
      · obtain ⟨e, hnow, hreadable⟩ := hread hex (List.mem_cons_of_mem _ hmem)
        exact ⟨e, (hothers _ rfl fun h => hfresh (h ▸ hmem)).trans hnow, hreadable⟩
      · rcases List.mem_cons.mp hmem with heq | hmem
        · refine (h.others _ rfl fun hex' heq' => ?_).trans (heq ▸ hitem hex e heq.symm
            (heq ▸ hnow))
          rw [heq]
          exact hfresh
        · exact h.listed hex e hmem ((hothers _ rfl fun heq => hfresh (heq ▸ hmem)).trans hnow)
      · have hout' : ∀ hex, m = .record hex → m ∉ rest :=
          fun hex heq hmem => hout hex heq (List.mem_cons_of_mem _ hmem)
        rw [h.others m hm hout']
        by_cases hmi : m = item
        · subst hmi
          exact hplain hm fun hex heq => hout hex heq List.mem_cons_self
        · exact hothers m hm hmi
    cases item with
    | record hex =>
      obtain ⟨e, hnow, hreadable⟩ := hread hex List.mem_cons_self
      refine .bind (R := fun _ u => ∃ fs₁, u = { s with fs := fs₁ } ∧
        Rewrote (.record hex) e.reopened s.fs fs₁)
        (ends_recoverItem hnow hreadable fun fs₁ h => ⟨fs₁, rfl, h⟩) fun _ u h => ?_
      obtain ⟨fs₁, rfl, hrewrote⟩ := h
      refine hrest fs₁ hrewrote.others (fun hex' e' heq hnow' => ?_) fun _ h =>
        absurd rfl (h hex)
      rw [hnow] at hnow'
      obtain rfl := Record.file_injective (Option.some.inj hnow')
      exact hrewrote.now
    | _ =>
      exact .bind (R := fun _ u => u = s) (.pure rfl) fun _ u h => h ▸
        hrest s.fs (fun _ _ _ => rfl) (fun _ _ h => nomatch h) fun _ _ => rfl

/-- One record the reader refuses ends the recovery. -/
theorem ends_recoverItems_refused {hex : String} {f : File} {err : Err}
    (hread : readFile f = .error err) (items : List FileName) :
    ∀ {s : System C}, items.Nodup → .record hex ∈ items → s.fs.now (.record hex) = some f →
      Ends (W.works c) (recoverItems items) s (fun _ _ => False) (fun _ _ => True) := by
  induction items with
  | nil => exact fun _ h => nomatch h
  | cons item rest ih =>
    intro s hnodup hmem hnow
    obtain ⟨hfresh, hnodup⟩ := List.nodup_cons.mp hnodup
    rcases List.mem_cons.mp hmem with rfl | hmem
    · refine .bind (R := fun _ _ => False) ?_ fun _ _ h => h.elim
      exact .bind (R := fun _ _ => False) (ends_readRecord_refused hnow hread trivial)
        fun _ _ h => h.elim
    · refine .bind (ends_recoverItem_other item) fun _ u h => ?_
      obtain ⟨fs', rfl, hothers⟩ := h
      exact ih hnodup hmem ((hothers _ rfl fun heq => hfresh (heq ▸ hmem)).trans hnow)

end Recovery

section Open

variable {Q : Unit → System C → Prop} {directory : String}

/-- The directory as `Open` leaves it. -/
structure Reopened (fs₀ fs : Fs FileName) : Prop where
  records : ∀ hex e, fs₀.now (.record hex) = some (Record.file e) →
    fs.now (.record hex) = some e.reopened.file
  others : ∀ m, m.isRecord = true → (∀ hex, m = .record hex → fs₀.now m = none) →
    fs.now m = fs₀.now m

theorem Recovered.reopened {items : List FileName} {fs₀ fs : Fs FileName}
    (hitems : items.Perm fs₀.listing) (h : Recovered items fs₀ fs) : Reopened fs₀ fs where
  records := fun hex e hnow => h.listed hex e
    (hitems.mem_iff.mpr (Fs.mem_listing.mpr (by rw [hnow]; rfl))) hnow
  others := fun m hm hout => h.others m hm fun hex heq hmem => by
    have hsome := Fs.mem_listing.mp (hitems.mem_iff.mp hmem)
    rw [hout hex heq] at hsome
    cases hsome

theorem ends_readDir {Q : Option (List FileName) → System C → Prop}
    (hQ : ∀ items : List FileName, items.Perm s.fs.listing → Q (some items) s) :
    Ends (W.works c) (perform (.file .readDir)) s Q E := by
  refine .call ⟨some s.fs.listing, s, ⟨s.fs, ⟨rfl, .inl ⟨_, .refl _, rfl⟩⟩, rfl⟩, rfl⟩
    fun answer u h => ?_
  obtain ⟨⟨fs', ⟨rfl, ⟨items, hitems, rfl⟩ | rfl⟩, rfl⟩, hhealthy⟩ := h
  · exact hQ items hitems
  · cases hhealthy

theorem nodup_of_listing {items : List FileName} {fs : Fs FileName}
    (hitems : items.Perm fs.listing) : items.Nodup :=
  hitems.nodup_iff.mpr (fs.nodup.filter _)

/-- `Open` up to the recovery, on a directory nobody owns. -/
theorem ends_acquire (hgate : s.gateOf c = c) (howner : s.owner = none) {body : Gated C Unit}
    (hconfig : (pathIsAbs directory && pathClean directory == directory) = true)
    (hbody : Ends (W.works c) body
      { s with owner := some c, lock := Function.update s.lock c true } Q E) :
    Ends (W.works c) (do
      ensure (pathIsAbs directory && pathClean directory == directory && true)
        "local execution Gate configuration is invalid"
      nilError (← perform .makeDirectory)
      ensure (← perform .privateDirectory) "local execution Gate directory must be private"
      ensure (← perform .acquireDirectory) "local execution Gate is already owned"
      body) s Q E := by
  refine .bind (R := fun _ u => u = s) (ends_ensure (by rw [hconfig]; rfl) rfl) fun _ u h => ?_
  subst h
  refine .bind (R := fun err t => err = none ∧ t = u)
    (ends_perform none ⟨rfl, rfl⟩ (fun _ _ h => ⟨h.2, h.1⟩) ⟨rfl, rfl⟩) fun err t h => ?_
  obtain ⟨rfl, rfl⟩ := h
  refine .bind (R := fun _ u => u = t) (ends_nilError rfl rfl) fun _ u h => ?_
  subst h
  refine .bind (R := fun ok t => ok = true ∧ t = u)
    (ends_perform true ⟨rfl, rfl⟩ (fun _ _ h => ⟨h.2, h.1⟩) ⟨rfl, rfl⟩) fun ok t h => ?_
  obtain ⟨rfl, rfl⟩ := h
  refine .bind (R := fun _ u => u = t) (ends_ensure rfl rfl) fun _ u h => ?_
  subst h
  refine .bind (R := fun ok t => ok = true ∧
      t = { u with owner := some c, lock := Function.update u.lock c true })
    (ends_perform true ⟨.inl ⟨rfl, howner, by rw [hgate]⟩, by simp [World.allows, howner]⟩
      (fun ok t h => ?_) ⟨rfl, rfl⟩) fun ok t h => ?_
  · obtain ⟨⟨rfl, -, rfl⟩ | ⟨rfl, -⟩, hallows⟩ := h
    · rw [hgate]
      exact ⟨rfl, rfl⟩
    · exact absurd (hallows.mpr howner) Bool.false_ne_true
  · obtain ⟨rfl, rfl⟩ := h
    exact .bind (R := fun _ t => t = _) (ends_ensure rfl rfl) fun _ t h => h ▸ hbody

/-- **`Open` succeeds** on a directory nobody owns whose records can all be read. -/
theorem ends_openGate (hgate : s.gateOf c = c) (howner : s.owner = none)
    (hconfig : (pathIsAbs directory && pathClean directory == directory) = true)
    (hread : ∀ hex f, s.fs.now (.record hex) = some f → ∃ e, f = Record.file e ∧ Readable e)
    (hQ : ∀ fs', Reopened s.fs fs' →
      Q () { s with fs := fs', owner := some c, lock := Function.update s.lock c true }) :
    Ends (W.works c) (openGate directory true) s Q E := by
  refine ends_acquire hgate howner hconfig ?_
  refine .bind (ends_attempt (Q := fun _ u => ∃ fs', Reopened s.fs fs' ∧
      u = { s with fs := fs', owner := some c, lock := Function.update s.lock c true })
    (E := fun _ _ => False) (R := fun r u => r = .ok () ∧ ∃ fs', Reopened s.fs fs' ∧
      u = { s with fs := fs', owner := some c, lock := Function.update s.lock c true })
    ?_ (fun _ _ h => ⟨rfl, h⟩) fun _ _ h => h.elim) fun r u h => ?_
  · refine .bind (R := fun answer u => ∃ items : List FileName, items.Perm s.fs.listing ∧
      answer = some items ∧
      u = { s with owner := some c, lock := Function.update s.lock c true })
      (ends_readDir fun items hitems => ⟨items, hitems, rfl, rfl⟩) fun answer u h => ?_
    obtain ⟨items, hitems, rfl, rfl⟩ := h
    refine ends_recoverItems items (nodup_of_listing hitems) (fun hex hmem => ?_) fun fs' h =>
      ⟨fs', h.reopened hitems, rfl⟩
    obtain ⟨f, hnow⟩ := Option.isSome_iff_exists.mp
      (Fs.mem_listing.mp (hitems.mem_iff.mp hmem))
    obtain ⟨e, rfl, hreadable⟩ := hread hex f hnow
    exact ⟨e, hnow, hreadable⟩
  · obtain ⟨rfl, fs', hreopened, rfl⟩ := h
    exact hQ fs' hreopened

/-- **`Open` fails** on a directory with a record the reader refuses. -/
theorem ends_openGate_refused (hgate : s.gateOf c = c) (howner : s.owner = none)
    (hconfig : (pathIsAbs directory && pathClean directory == directory) = true) {hex : String}
    {f : File} {err : Err} (hnow : s.fs.now (.record hex) = some f)
    (hread : readFile f = .error err) :
    Ends (W.works c) (openGate directory true) s (fun _ _ => False) (fun _ _ => True) := by
  refine ends_acquire hgate howner hconfig ?_
  refine .bind (ends_attempt (Q := fun _ _ => False) (E := fun _ _ => True)
    (R := fun r _ => ∃ err, r = .error err) ?_ (fun _ _ h => h.elim) fun e _ _ => ⟨e, rfl⟩)
    fun r u h => ?_
  · refine .bind (R := fun answer u => ∃ items : List FileName, items.Perm s.fs.listing ∧
      answer = some items ∧
      u = { s with owner := some c, lock := Function.update s.lock c true })
      (ends_readDir fun items hitems => ⟨items, hitems, rfl, rfl⟩) fun answer u h => ?_
    obtain ⟨items, hitems, rfl, rfl⟩ := h
    refine ends_recoverItems_refused hread items (nodup_of_listing hitems) ?_ hnow
    exact hitems.mem_iff.mpr (Fs.mem_listing.mpr (by rw [hnow]; rfl))
  · obtain ⟨err, rfl⟩ := h
    refine .bind (R := fun _ _ => True) (.call ⟨true, _, rfl, rfl⟩ fun _ _ _ => trivial)
      fun _ _ _ => ?_
    exact .throw trivial

end Open

end TosAi.CommerceGate
