/-
  What operations do to what a read sees.

  A program that is only cut off by the death of its process is about the present
  contents of the names.  `FsOp.agree` is the frame rule: an operation changes the
  names it touches and no other.  `Fs.Open` is a file that a call has created and can
  write to, with one lemma for each operation on it.

  `FsOp.run` is an operation that does not fail, as a function; it is one of the
  outcomes the relation allows.
-/
import TosAi.Foundation.FileSystem

set_option autoImplicit false

namespace TosAi.Foundation

variable {ν : Type}

/-! ## Several directories in one -/

namespace Slot

theorem outcomes_settle_of_absent {s : Slot} (h : s.outcomes = [none]) :
    s.settle.outcomes = [none] := by
  have hold : s.old = [] := by
    simp only [outcomes, present, List.cons_append, List.cons.injEq,
      List.append_eq_nil_iff] at h
    exact h.2.2
  simpa [settle, outcomes, present, hold] using h

end Slot

namespace Fs

/-- Some of the names are those of a directory that is synced. -/
def syncNames (fs : Fs ν) (inside : ν → Bool) : Fs ν where
  slot := fun n => if inside n then (fs.slot n).settle else fs.slot n
  names := fs.names
  nodup := fs.nodup
  absent := by
    intro n hn
    split
    · exact Slot.outcomes_settle_of_absent (fs.absent n hn)
    · exact fs.absent n hn

@[simp] theorem syncNames_now (fs : Fs ν) (inside : ν → Bool) (n : ν) :
    (fs.syncNames inside).now n = fs.now n := by
  simp only [now, syncNames]
  split <;> rfl

/-! ## Agreement outside of some names -/

/-- A read sees the same under every name, some excepted. -/
def Agree (except : ν → Prop) (fs fs' : Fs ν) : Prop :=
  ∀ n, ¬except n → fs'.now n = fs.now n

theorem Agree.refl {except : ν → Prop} (fs : Fs ν) : Agree except fs fs := fun _ _ => rfl

theorem Agree.trans {except : ν → Prop} {fs fs' fs'' : Fs ν} (h : Agree except fs fs')
    (h' : Agree except fs' fs'') : Agree except fs fs'' :=
  fun n hn => (h' n hn).trans (h n hn)

theorem Agree.mono {except except' : ν → Prop} {fs fs' : Fs ν} (h : Agree except fs fs')
    (hsub : ∀ n, except n → except' n) : Agree except' fs fs' :=
  fun n hn => h n fun hmem => hn (hsub n hmem)

variable [DecidableEq ν]

theorem agree_modify (fs : Fs ν) (n : ν) (f : Slot → Slot) : Agree (· = n) fs (fs.modify n f) :=
  fun _ hm => congrArg Slot.now (fs.modify_slot_of_ne f hm)

theorem agree_rename (fs : Fs ν) (a b : ν) :
    Agree (fun n => n = a ∨ n = b) fs (fs.rename a b) := by
  intro n hn
  rw [not_or] at hn
  exact congrArg Slot.now (fs.rename_slot_of_ne hn.1 hn.2)

/-! ## Names left alone -/

/-- A read sees the same under the name, and the disk has no more of it than before. -/
structure Still (n : ν) (fs fs' : Fs ν) : Prop where
  now : fs'.now n = fs.now n
  loose : (fs'.slot n).loose = (fs.slot n).loose
  outcomes : ∀ o ∈ fs'.outcomes n, o ∈ fs.outcomes n

omit [DecidableEq ν] in
theorem Still.of_slot {n : ν} {fs fs' : Fs ν} (h : fs'.slot n = fs.slot n) : Still n fs fs' where
  now := congrArg Slot.now h
  loose := congrArg Slot.loose h
  outcomes := by
    intro o ho
    rw [Fs.outcomes, h] at ho
    exact ho

omit [DecidableEq ν] in
theorem Still.refl (n : ν) (fs : Fs ν) : Still n fs fs := .of_slot rfl

omit [DecidableEq ν] in
theorem Still.trans {n : ν} {fs fs' fs'' : Fs ν} (h : Still n fs fs') (h' : Still n fs' fs'') :
    Still n fs fs'' where
  now := h'.now.trans h.now
  loose := h'.loose.trans h.loose
  outcomes := fun o ho => h.outcomes o (h'.outcomes o ho)

omit [DecidableEq ν] in
theorem Still.syncDir (n : ν) (fs : Fs ν) : Still n fs fs.syncDir where
  now := rfl
  loose := rfl
  outcomes := fun _ ho => Slot.mem_outcomes_settle ho

theorem Still.modify_of_ne {m n : ν} {fs : Fs ν} {f : Slot → Slot} (h : n ≠ m) :
    Still n fs (fs.modify m f) := .of_slot (fs.modify_slot_of_ne f h)

theorem Still.rename_of_ne {a b n : ν} {fs : Fs ν} (ha : n ≠ a) (hb : n ≠ b) :
    Still n fs (fs.rename a b) := .of_slot (fs.rename_slot_of_ne ha hb)

/-! ## Files a call has open -/

/-- The file under the name is one that call `c` has created. -/
structure Open (c : Nat) (fs : Fs ν) (n : ν) (f : File) : Prop where
  now : fs.now n = some f
  opener : (fs.slot n).opener = c

variable {c : Nat} {fs : Fs ν} {n : ν} {f : File}

theorem open_create (perm : Nat) : Open c (fs.modify n (Slot.create c perm)) n ⟨perm, []⟩ := by
  constructor <;> simp [Fs.now, Slot.create]

theorem Open.append (h : Open c fs n f) (bytes : List UInt8) :
    Open c (fs.modify n (Slot.append c bytes)) n { f with data := f.data ++ bytes } := by
  have hnow : (fs.slot n).now = some f := h.now
  constructor <;> simp [Fs.now, Slot.append, hnow, h.opener]

theorem Open.chmod (h : Open c fs n f) (perm : Nat) :
    Open c (fs.modify n (Slot.chmod c perm)) n { f with perm } := by
  have hnow : (fs.slot n).now = some f := h.now
  constructor <;> simp [Fs.now, Slot.chmod, hnow, h.opener]

theorem Open.flush (h : Open c fs n f) : Open c (fs.modify n (Slot.flush c)) n f := by
  have hnow : (fs.slot n).now = some f := h.now
  constructor <;> simp [Fs.now, Slot.flush, hnow, h.opener]

theorem Open.rename (h : Open c fs n f) {b : ν} (hne : b ≠ n) : Open c (fs.rename n b) b f := by
  have hslot := fs.rename_slot_target hne
  have hnow : (fs.slot n).now = some f := h.now
  constructor <;> simp [Fs.now, hslot, Slot.replace, hnow, h.opener]

theorem modify_unlink_now (fs : Fs ν) (n : ν) : (fs.modify n Slot.unlink).now n = none := by
  simp [Fs.now, Slot.unlink]

end Fs

/-! ## The frame of an operation -/

namespace FsOp

/-- The names whose contents an operation may change. -/
def touches : FsOp ν → ν → Prop
  | .create n _ | .write n _ | .chmod n _ | .remove n => (· = n)
  | .createTemp kind => kind
  | .rename a b => fun n => n = a ∨ n = b
  | .sync _ | .close _ | .syncDir | .read _ | .readDir => fun _ => False

variable [DecidableEq ν] {c : Nat} {fs fs' : Fs ν}

/-- **Nothing else changes.** -/
theorem agree {o : FsOp ν} {answer : o.Res} (h : o.apply c fs answer fs') :
    Fs.Agree o.touches fs fs' := by
  cases makes h with
  | nothing => exact .refl _
  | created | written | permitted | removed => exact fs.agree_modify _ _
  | temporary hkind => exact (fs.agree_modify _ _).mono fun m hm => hm ▸ hkind
  | @flushed n =>
    intro m _
    by_cases hm : m = n
    · subst hm
      simp only [Fs.now, Fs.modify_slot_self, Slot.flush]
      split <;> rfl
    · exact fs.agree_modify n _ m hm
  | renamed => exact fs.agree_rename _ _
  | settled => exact fun _ _ => rfl

/-- The names whose contents, or what the disk has of them, an operation may change. -/
def alters : FsOp ν → ν → Prop
  | .sync n => (· = n)
  | o => o.touches

/-- Neither what a read sees nor what the disk has of it changes elsewhere. -/
theorem still {o : FsOp ν} {answer : o.Res} (h : o.apply c fs answer fs') {n : ν}
    (hn : ¬o.alters n) : Fs.Still n fs fs' := by
  cases makes h with
  | nothing => exact .refl _ _
  | created | written | permitted | flushed | removed => exact .modify_of_ne hn
  | temporary hkind => exact .modify_of_ne fun hnm => hn (hnm ▸ hkind)
  | renamed => exact .rename_of_ne (fun hna => hn (.inl hna)) (fun hnb => hn (.inr hnb))
  | settled => exact .syncDir _ _

/-! ## An operation that does not fail -/

/-- The operation as a function.  No fresh name is chosen here, so `createTemp` fails. -/
def run (c : Nat) : (o : FsOp ν) → Fs ν → o.Res × Fs ν
  | .create n perm, fs =>
    if fs.now n = none then (.ok (), fs.modify n (Slot.create c perm)) else (.error .exist, fs)
  | .createTemp _, fs => (none, fs)
  | .write n bytes, fs => (true, fs.modify n (Slot.append c bytes))
  | .chmod n perm, fs => (true, fs.modify n (Slot.chmod c perm))
  | .sync n, fs => (true, fs.modify n (Slot.flush c))
  | .close _, fs => (true, fs)
  | .rename a b, fs => if (fs.now a).isSome then (true, fs.rename a b) else (false, fs)
  | .remove n, fs => if (fs.now n).isSome then (true, fs.modify n Slot.unlink) else (false, fs)
  | .syncDir, fs => (true, fs.syncDir)
  | .read n, fs =>
    match fs.now n with
    | some f => (.ok ⟨f, (fs.slot n).version⟩, fs)
    | none => (.error .notExist, fs)
  | .readDir, fs => (some fs.listing, fs)

theorem apply_run (o : FsOp ν) (fs : Fs ν) : o.apply c fs (o.run c fs).1 (o.run c fs).2 := by
  cases o with
  | create n perm =>
    simp only [run]
    split
    · exact .inl ⟨‹_›, rfl, rfl⟩
    · exact .inr (.inl ⟨Option.isSome_iff_ne_none.mpr ‹_›, rfl, rfl⟩)
  | createTemp kind => exact .inr ⟨rfl, rfl⟩
  | write n bytes | chmod n perm | sync n => exact .inl ⟨rfl, rfl⟩
  | close n => exact rfl
  | rename a b | remove n =>
    simp only [run]
    split
    · exact .inl ⟨rfl, ‹_›, rfl⟩
    · exact .inr ⟨rfl, rfl⟩
  | syncDir => exact .inl ⟨rfl, rfl⟩
  | read n =>
    simp only [run]
    split
    · exact ⟨rfl, .inl ⟨_, ‹_›, rfl⟩⟩
    · exact ⟨rfl, .inr (.inl ⟨‹_›, rfl⟩)⟩
  | readDir => exact ⟨rfl, .inl ⟨_, .refl _, rfl⟩⟩

/-- Whether the operation chooses a name. -/
def isCreateTemp : FsOp ν → Bool
  | .createTemp _ => true
  | _ => false

theorem healthy_run {o : FsOp ν} (h : o.isCreateTemp = false) (fs : Fs ν) :
    o.healthy fs (o.run c fs).1 := by
  cases o with
  | create n perm =>
    simp only [run]
    split <;> exact (fun h => nomatch h)
  | createTemp kind => cases h
  | rename a b | remove n =>
    simp only [run]
    split <;> simp_all [healthy]
  | read n =>
    simp only [run]
    split <;> exact (fun h => nomatch h)
  | readDir => rfl
  | write n bytes => rfl
  | chmod n perm => rfl
  | sync n => rfl
  | close n => rfl
  | syncDir => rfl

end FsOp

end TosAi.Foundation
