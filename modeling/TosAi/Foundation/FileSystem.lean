/-
  One directory of a file system with a write cache.

  A name has what a read sees now, and what a power loss may leave there
  instead: unflushed contents of the present file (`loose`), and bindings of the
  name from before the last directory sync (`old`).  `Slot.outcomes` collects
  them all; `Fs.reboot` picks one for every name.  A process that merely dies
  changes nothing here.

  Handles are not modelled apart from names.  A call writes through the handle
  of the file it created, so a write reaches the name only while the file there
  is still the one this call opened (`Slot.opener`); otherwise it goes to an
  unlinked file that nobody can read.  No program of this development renames a
  file it still has open.

  Every operation of `FsOp` may fail.  A failed write may have left any prefix
  of its bytes, and a failed sync or rename leaves everything as it was.
-/
import Mathlib.Data.List.Nodup
import Mathlib.Data.Set.Finite.List
import Mathlib.Logic.Function.Basic

set_option autoImplicit false

namespace TosAi.Foundation

/-! ## Files and slots -/

/-- Permission bits and contents of a regular file. -/
structure File where
  perm : Nat
  data : List UInt8
  deriving DecidableEq, Repr

/-- What one name of the directory holds. -/
structure Slot where
  /-- The file a read sees. -/
  now : Option File := none
  /-- The call that created the file. -/
  opener : Nat := 0
  /-- Contents a power loss may leave in the present file. -/
  loose : List (List UInt8) := []
  /-- Bindings of the name a power loss may bring back. -/
  old : List (Option File) := []
  /-- Counts the changes of what a read sees. -/
  version : Nat := 0
  deriving DecidableEq, Repr

namespace Slot

/-- What the present file may turn into by a power loss. -/
def present (s : Slot) : List (Option File) :=
  s.now :: match s.now with
    | none => []
    | some f => s.loose.map fun data => some { f with data }

/-- Everything a reader may find under the name after a power loss. -/
def outcomes (s : Slot) : List (Option File) := s.present ++ s.old

theorem now_mem_outcomes (s : Slot) : s.now ∈ s.outcomes := by
  simp [outcomes, present]

/-- The file is created empty. -/
def create (c perm : Nat) (s : Slot) : Slot :=
  { now := some ⟨perm, []⟩, opener := c, loose := [], old := s.outcomes,
    version := s.version + 1 }

/-- Bytes are appended through the handle of call `c`. -/
def append (c : Nat) (bytes : List UInt8) (s : Slot) : Slot :=
  match s.now with
  | some f =>
    if s.opener = c then
      { s with
        now := some { f with data := f.data ++ bytes }
        loose := s.loose ++
          (List.range bytes.length).map fun k => f.data ++ bytes.take k
        version := s.version + 1 }
    else s
  | none => s

/-- The permission bits are set through the handle of call `c`. -/
def chmod (c perm : Nat) (s : Slot) : Slot :=
  match s.now with
  | some f =>
    if s.opener = c then
      { s with now := some { f with perm }, version := s.version + 1 }
    else s
  | none => s

/-- The contents written through the handle of call `c` reach the disk. -/
def flush (c : Nat) (s : Slot) : Slot := if s.opener = c then { s with loose := [] } else s

/-- The name is unbound. -/
def unlink (s : Slot) : Slot :=
  { now := none, opener := 0, loose := [], old := s.outcomes, version := s.version + 1 }

/-- The name is bound to the file of `source`. -/
def replace (source s : Slot) : Slot :=
  { now := source.now, opener := source.opener, loose := source.loose, old := s.outcomes,
    version := s.version + 1 }

/-- The bindings reach the disk. -/
def settle (s : Slot) : Slot := { s with old := [] }

/-- The name after a power loss that left `found`. -/
def reboot (found : Option File) (s : Slot) : Slot :=
  { now := found, opener := 0, loose := [], old := [], version := s.version + 1 }

/-! ### What each change may leave behind -/

variable {s : Slot} {o : Option File} {c : Nat}

theorem mem_outcomes_create {perm : Nat} (ho : o ∈ (s.create c perm).outcomes) :
    o = some ⟨perm, []⟩ ∨ o ∈ s.outcomes := by
  simpa [outcomes, present, create] using ho

theorem mem_outcomes_append {bytes : List UInt8} (ho : o ∈ (s.append c bytes).outcomes) :
    o ∈ s.outcomes ∨ s.opener = c ∧ ∃ f k, s.now = some f ∧ k ≤ bytes.length ∧
      o = some { f with data := f.data ++ bytes.take k } := by
  cases hnow : s.now with
  | none => left; simpa [append, hnow] using ho
  | some f =>
    by_cases hc : s.opener = c
    · simp only [append, hnow, hc, if_true, outcomes, present, List.map_append,
        List.map_map, List.cons_append, List.append_assoc, List.mem_cons, List.mem_append,
        List.mem_map, List.mem_range, Function.comp_apply] at ho ⊢
      rcases ho with rfl | ho | ⟨k, hk, rfl⟩ | ho
      · exact .inr ⟨trivial, f, bytes.length, rfl, Nat.le_refl _, by simp⟩
      · exact .inl (.inr (.inl ho))
      · exact .inr ⟨trivial, f, k, rfl, Nat.le_of_lt hk, rfl⟩
      · exact .inl (.inr (.inr ho))
    · left; simpa [append, hnow, hc] using ho

theorem mem_outcomes_flush (ho : o ∈ (s.flush c).outcomes) : o ∈ s.outcomes := by
  by_cases hc : s.opener = c
  · cases hnow : s.now with
    | none => simpa [flush, hc, outcomes, present, hnow] using ho
    | some f =>
      simp only [flush, hc, if_true, outcomes, present, hnow, List.map_nil, List.cons_append,
        List.nil_append, List.mem_cons, List.mem_append, List.mem_map] at ho ⊢
      rcases ho with ho | ho
      · exact .inl ho
      · exact .inr (.inr ho)
  · simpa [flush, hc] using ho

theorem mem_outcomes_unlink (ho : o ∈ s.unlink.outcomes) : o = none ∨ o ∈ s.outcomes := by
  simpa [outcomes, present, unlink] using ho

theorem mem_outcomes_replace {source : Slot} (ho : o ∈ (source.replace s).outcomes) :
    o ∈ source.present ∨ o ∈ s.outcomes := by
  simpa only [outcomes, replace, present, List.mem_append] using ho

theorem mem_outcomes_settle (ho : o ∈ s.settle.outcomes) : o ∈ s.outcomes := by
  simp only [outcomes, settle, present, List.append_nil] at ho
  exact List.mem_append_left _ ho

@[simp] theorem outcomes_reboot (found : Option File) (s : Slot) :
    (s.reboot found).outcomes = [found] := by
  cases found <;> rfl

end Slot

/-! ## The directory -/

/-- A directory: a slot for every name, and the finitely many names ever used. -/
structure Fs (ν : Type) where
  slot : ν → Slot
  names : List ν
  nodup : names.Nodup
  absent : ∀ n, n ∉ names → (slot n).outcomes = [none]

namespace Fs

variable {ν : Type}

/-- The empty directory. -/
def empty : Fs ν where
  slot := fun _ => {}
  names := []
  nodup := List.nodup_nil
  absent := fun _ _ => rfl

/-- What a read of the name sees. -/
def now (fs : Fs ν) (n : ν) : Option File := (fs.slot n).now

/-- Everything a power loss may leave under the name. -/
def outcomes (fs : Fs ν) (n : ν) : List (Option File) := (fs.slot n).outcomes

/-- The directory itself is synced. -/
def syncDir (fs : Fs ν) : Fs ν where
  slot := fun n => (fs.slot n).settle
  names := fs.names
  nodup := fs.nodup
  absent := by
    intro n hn
    have habsent := fs.absent n hn
    have hold : (fs.slot n).old = [] := by
      simp only [Slot.outcomes, Slot.present, List.cons_append, List.cons.injEq,
        List.append_eq_nil_iff] at habsent
      exact habsent.2.2
    simpa [Slot.settle, Slot.outcomes, Slot.present, hold] using habsent

@[simp] theorem syncDir_slot (fs : Fs ν) (n : ν) : fs.syncDir.slot n = (fs.slot n).settle := rfl

/-- The directory after a power loss, `found` being what is left under each name. -/
def reboot (fs : Fs ν) (found : ν → Option File) (h : ∀ n, found n ∈ fs.outcomes n) :
    Fs ν where
  slot := fun n => (fs.slot n).reboot (found n)
  names := fs.names
  nodup := fs.nodup
  absent := by
    intro n hn
    have hfound := h n
    simp only [outcomes, fs.absent n hn, List.mem_singleton] at hfound
    simp [hfound]

@[simp] theorem reboot_slot (fs : Fs ν) (found : ν → Option File)
    (h : ∀ n, found n ∈ fs.outcomes n) (n : ν) :
    (fs.reboot found h).slot n = (fs.slot n).reboot (found n) := rfl

/-- The names a listing shows. -/
def listing (fs : Fs ν) : List ν := fs.names.filter fun n => (fs.now n).isSome

variable {n m a b : ν}

theorem mem_listing {fs : Fs ν} : n ∈ fs.listing ↔ (fs.now n).isSome := by
  simp only [listing, List.mem_filter, and_iff_right_iff_imp]
  intro hsome
  by_contra hn
  have habsent := fs.absent n hn
  simp only [Slot.outcomes, Slot.present, List.cons_append, List.cons.injEq] at habsent
  simp [now, habsent.1] at hsome

/-- Of infinitely many names one has never been used. -/
theorem exists_unused (fs : Fs ν) {f : Nat → ν} (hf : Function.Injective f) :
    ∃ k, f k ∉ fs.names ∧ fs.now (f k) = none := by
  obtain ⟨n, ⟨k, rfl⟩, hn⟩ :=
    (Set.infinite_range_of_injective hf).exists_notMem_finite fs.names.finite_toSet
  have habsent := fs.absent (f k) hn
  simp only [Slot.outcomes, Slot.present, List.cons_append, List.cons.injEq] at habsent
  exact ⟨k, hn, habsent.1⟩

/-- Of infinitely many names one is free. -/
theorem exists_free (fs : Fs ν) {f : Nat → ν} (hf : Function.Injective f) :
    ∃ k, fs.now (f k) = none := by
  obtain ⟨k, -, hfree⟩ := fs.exists_unused hf
  exact ⟨k, hfree⟩

variable [DecidableEq ν]

/-- Put a slot under a name. -/
def set (fs : Fs ν) (n : ν) (s : Slot) : Fs ν where
  slot := Function.update fs.slot n s
  names := if n ∈ fs.names then fs.names else n :: fs.names
  nodup := by
    split
    · exact fs.nodup
    · exact List.nodup_cons.mpr ⟨‹_›, fs.nodup⟩
  absent := by
    intro m hm
    have hne : m ≠ n := by
      rintro rfl
      split at hm
      · exact hm ‹_›
      · exact hm List.mem_cons_self
    rw [Function.update_of_ne hne]
    apply fs.absent
    intro hmem
    split at hm
    · exact hm hmem
    · exact hm (List.mem_cons_of_mem _ hmem)

@[simp] theorem set_slot_self (fs : Fs ν) (n : ν) (s : Slot) : (fs.set n s).slot n = s := by
  simp [set]

theorem set_slot_of_ne (fs : Fs ν) (s : Slot) (h : m ≠ n) :
    (fs.set n s).slot m = fs.slot m := by
  simp [set, h]

/-- Change the slot of one name. -/
def modify (fs : Fs ν) (n : ν) (f : Slot → Slot) : Fs ν := fs.set n (f (fs.slot n))

@[simp] theorem modify_slot_self (fs : Fs ν) (n : ν) (f : Slot → Slot) :
    (fs.modify n f).slot n = f (fs.slot n) := by
  simp [modify]

theorem modify_slot_of_ne (fs : Fs ν) (f : Slot → Slot) (h : m ≠ n) :
    (fs.modify n f).slot m = fs.slot m := set_slot_of_ne fs _ h

/-- Move the file of `a` to `b`. -/
def rename (fs : Fs ν) (a b : ν) : Fs ν :=
  (fs.modify b (Slot.replace (fs.slot a))).modify a Slot.unlink

theorem rename_slot_target (fs : Fs ν) (h : b ≠ a) :
    (fs.rename a b).slot b = (fs.slot a).replace (fs.slot b) := by
  rw [rename, modify_slot_of_ne _ _ h, modify_slot_self]

theorem rename_slot_source (fs : Fs ν) (h : a ≠ b) :
    (fs.rename a b).slot a = (fs.slot a).unlink := by
  rw [rename, modify_slot_self, modify_slot_of_ne _ _ h]

theorem rename_slot_of_ne (fs : Fs ν) (ha : m ≠ a) (hb : m ≠ b) :
    (fs.rename a b).slot m = fs.slot m := by
  rw [rename, modify_slot_of_ne _ _ ha, modify_slot_of_ne _ _ hb]

/-- Bind `b` to the file of `a` as well. -/
def link (fs : Fs ν) (a b : ν) : Fs ν := fs.modify b (Slot.replace (fs.slot a))

end Fs

/-! ## Operations -/

/-- Why an operation failed. -/
inductive FsErr where
  | exist
  | notExist
  | io
  deriving DecidableEq, Repr

/-- A file as one read returns it, with the version of the name it was read at. -/
structure Seen where
  file : File
  version : Nat
  deriving DecidableEq, Repr

/-- The operations on a directory. -/
inductive FsOp (ν : Type) where
  /-- open for writing, create, exclusive -/
  | create (n : ν) (perm : Nat)
  /-- create under a fresh name of the given kind -/
  | createTemp (kind : ν → Prop)
  | write (n : ν) (bytes : List UInt8)
  | chmod (n : ν) (perm : Nat)
  | sync (n : ν)
  | close (n : ν)
  | rename (a b : ν)
  | remove (n : ν)
  | syncDir
  | read (n : ν)
  | readDir

/-- What an operation answers. -/
@[reducible] def FsOp.Res {ν : Type} : FsOp ν → Type
  | .create _ _ => Except FsErr Unit
  | .createTemp _ => Option ν
  | .read _ => Except FsErr Seen
  | .readDir => Option (List ν)
  | _ => Bool

/-- `apply c o fs answer fs'`: call `c` performs `o`. -/
def FsOp.apply {ν : Type} [DecidableEq ν] (c : Nat) :
    (o : FsOp ν) → Fs ν → o.Res → Fs ν → Prop
  | .create n perm, fs, answer, fs' =>
    (fs.now n = none ∧ answer = .ok () ∧ fs' = fs.modify n (Slot.create c perm)) ∨
    ((fs.now n).isSome ∧ answer = .error .exist ∧ fs' = fs) ∨
    (answer = .error .io ∧ fs' = fs)
  | .createTemp kind, fs, answer, fs' =>
    (∃ n, kind n ∧ fs.now n = none ∧ answer = some n ∧
      fs' = fs.modify n (Slot.create c 0o600)) ∨
    (answer = none ∧ fs' = fs)
  | .write n bytes, fs, answer, fs' =>
    (answer = true ∧ fs' = fs.modify n (Slot.append c bytes)) ∨
    (answer = false ∧ ∃ k ≤ bytes.length, fs' = fs.modify n (Slot.append c (bytes.take k)))
  | .chmod n perm, fs, answer, fs' =>
    (answer = true ∧ fs' = fs.modify n (Slot.chmod c perm)) ∨ (answer = false ∧ fs' = fs)
  | .sync n, fs, answer, fs' =>
    (answer = true ∧ fs' = fs.modify n (Slot.flush c)) ∨ (answer = false ∧ fs' = fs)
  | .close _, fs, _, fs' => fs' = fs
  | .rename a b, fs, answer, fs' =>
    (answer = true ∧ (fs.now a).isSome ∧ fs' = fs.rename a b) ∨ (answer = false ∧ fs' = fs)
  | .remove n, fs, answer, fs' =>
    (answer = true ∧ (fs.now n).isSome ∧ fs' = fs.modify n Slot.unlink) ∨
    (answer = false ∧ fs' = fs)
  | .syncDir, fs, answer, fs' =>
    (answer = true ∧ fs' = fs.syncDir) ∨ (answer = false ∧ fs' = fs)
  | .read n, fs, answer, fs' =>
    fs' = fs ∧
    ((∃ f, fs.now n = some f ∧ answer = .ok ⟨f, (fs.slot n).version⟩) ∨
      (fs.now n = none ∧ answer = .error .notExist) ∨ answer = .error .io)
  | .readDir, fs, answer, fs' =>
    fs' = fs ∧ ((∃ l, l.Perm fs.listing ∧ answer = some l) ∨ answer = none)

/-- Everything that operation `o` of call `c` can make of a directory, if it answers `answer`. -/
inductive FsOp.Makes {ν : Type} [DecidableEq ν] (c : Nat) (fs : Fs ν) :
    (o : FsOp ν) → o.Res → Fs ν → Prop where
  | nothing {o : FsOp ν} {answer} : Makes c fs o answer fs
  | created {n : ν} {perm : Nat} {answer} (hnow : fs.now n = none) :
      Makes c fs (.create n perm) answer (fs.modify n (Slot.create c perm))
  | temporary {kind : ν → Prop} {n : ν} (hkind : kind n) (hnow : fs.now n = none) :
      Makes c fs (.createTemp kind) (some n) (fs.modify n (Slot.create c 0o600))
  | written {n : ν} {bytes : List UInt8} {answer} (k : Nat) :
      Makes c fs (.write n bytes) answer (fs.modify n (Slot.append c (bytes.take k)))
  | permitted {n : ν} {perm : Nat} {answer} :
      Makes c fs (.chmod n perm) answer (fs.modify n (Slot.chmod c perm))
  | flushed {n : ν} {answer} : Makes c fs (.sync n) answer (fs.modify n (Slot.flush c))
  | renamed {a b : ν} {answer} (hsome : (fs.now a).isSome) :
      Makes c fs (.rename a b) answer (fs.rename a b)
  | removed {n : ν} {answer} (hsome : (fs.now n).isSome) :
      Makes c fs (.remove n) answer (fs.modify n Slot.unlink)
  | settled {answer} : Makes c fs .syncDir answer fs.syncDir

/-- **The inversion of an operation.** -/
theorem FsOp.makes {ν : Type} [DecidableEq ν] {c : Nat} {fs fs' : Fs ν} {o : FsOp ν}
    {answer : o.Res} (h : o.apply c fs answer fs') : o.Makes c fs answer fs' := by
  cases o with
  | create n perm =>
    obtain ⟨hnow, -, rfl⟩ | ⟨-, -, rfl⟩ | ⟨-, rfl⟩ := h
    · exact .created hnow
    · exact .nothing
    · exact .nothing
  | createTemp kind =>
    obtain ⟨n, hkind, hnow, rfl, rfl⟩ | ⟨-, rfl⟩ := h
    · exact .temporary hkind hnow
    · exact .nothing
  | write n bytes =>
    obtain ⟨-, rfl⟩ | ⟨-, k, -, rfl⟩ := h
    · have hall : Makes c fs (.write n bytes) answer
          (fs.modify n (Slot.append c (bytes.take bytes.length))) := .written _
      rw [List.take_length] at hall
      exact hall
    · exact .written k
  | chmod n perm =>
    obtain ⟨-, rfl⟩ | ⟨-, rfl⟩ := h
    · exact .permitted
    · exact .nothing
  | sync n =>
    obtain ⟨-, rfl⟩ | ⟨-, rfl⟩ := h
    · exact .flushed
    · exact .nothing
  | rename a b =>
    obtain ⟨-, hsome, rfl⟩ | ⟨-, rfl⟩ := h
    · exact .renamed hsome
    · exact .nothing
  | remove n =>
    obtain ⟨-, hsome, rfl⟩ | ⟨-, rfl⟩ := h
    · exact .removed hsome
    · exact .nothing
  | syncDir =>
    obtain ⟨-, rfl⟩ | ⟨-, rfl⟩ := h
    · exact .settled
    · exact .nothing
  | close n =>
    obtain rfl := h
    exact .nothing
  | read n | readDir =>
    obtain ⟨rfl, -⟩ := h
    exact .nothing

/-- The answer is that of an operation that does not fail for a reason of its
own: full disk, lost device, missing permission. -/
def FsOp.healthy {ν : Type} : (o : FsOp ν) → Fs ν → o.Res → Prop
  | .create _ _, _, answer => answer ≠ .error .io
  | .createTemp _, _, answer => answer.isSome
  | .rename a _, fs, answer => answer = (fs.now a).isSome
  | .remove n, fs, answer => answer = (fs.now n).isSome
  | .read _, _, answer => answer ≠ .error .io
  | .readDir, _, answer => answer.isSome
  | .write _ _, _, answer | .chmod _ _, _, answer | .sync _, _, answer | .close _, _, answer
  | .syncDir, _, answer => answer = true

end TosAi.Foundation
