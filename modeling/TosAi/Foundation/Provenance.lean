/-
  Where the contents of files come from.

  Some names of a directory are only ever to hold texts of a certain kind, or what is
  left of one that was being written.  `FsOp.Fits` is what each operation has to
  respect for that; nothing is assumed of the order in which calls take turns, and
  nothing is locked.  What makes it work is that a call writes through the handle of a
  file it created: a file the call has created and not yet written to is empty
  (`Fs.Blank`), whatever the others do.

  `FsOp.changes` says once what an operation can do to one name.
-/
import TosAi.Foundation.FileSystem

set_option autoImplicit false

namespace TosAi.Foundation

variable {ν : Type}

namespace Fs

/-- Whatever may be found under one of the names is good. -/
def Contents (names : ν → Prop) (good : List UInt8 → Prop) (fs : Fs ν) : Prop :=
  ∀ n, names n → ∀ f, some f ∈ fs.outcomes n → good f.data

theorem Contents.mono {names : ν → Prop} {good good' : List UInt8 → Prop} {fs : Fs ν}
    (hsub : ∀ data, good data → good' data) (h : fs.Contents names good) :
    fs.Contents names good' :=
  fun n hn f hf => hsub _ (h n hn f hf)

/-- If the file under the name is one that call `c` created, it is empty. -/
def Blank (c : Nat) (fs : Fs ν) (n : ν) : Prop :=
  (fs.slot n).opener = c → ∀ f, fs.now n = some f → f.data = []

/-- Every file has been created by one of the calls below the number. -/
def Opened (next : Nat) (fs : Fs ν) : Prop :=
  ∀ n f, fs.now n = some f → (fs.slot n).opener < next

theorem Opened.blank {next : Nat} {fs : Fs ν} (h : fs.Opened next) (n : ν) : fs.Blank next n := by
  intro hopener f hf
  have hlt := h n f hf
  rw [hopener] at hlt
  exact absurd hlt (Nat.lt_irrefl _)

end Fs

/-! ## The handle of a file -/

namespace Slot

variable {c perm : Nat} {bytes : List UInt8} {s : Slot}

@[simp] theorem append_opener : (s.append c bytes).opener = s.opener := by
  unfold append
  split
  · split <;> rfl
  · rfl

@[simp] theorem chmod_opener : (s.chmod c perm).opener = s.opener := by
  unfold chmod
  split
  · split <;> rfl
  · rfl

@[simp] theorem flush_opener : (s.flush c).opener = s.opener := by
  unfold flush
  split <;> rfl

/-- A write through another handle does not reach the name. -/
theorem append_of_ne (h : s.opener ≠ c) : s.append c bytes = s := by
  unfold append
  split
  · rw [if_neg h]
  · rfl

theorem chmod_of_ne (h : s.opener ≠ c) : s.chmod c perm = s := by
  unfold chmod
  split
  · rw [if_neg h]
  · rfl

theorem isSome_append : (s.append c bytes).now.isSome = s.now.isSome := by
  unfold append
  split
  · rename_i hnow
    split <;> simp [hnow]
  · rfl

theorem isSome_chmod : (s.chmod c perm).now.isSome = s.now.isSome := by
  unfold chmod
  split
  · rename_i hnow
    split <;> simp [hnow]
  · rfl

/-- Setting the permission bits leaves the contents. -/
theorem exists_now_of_chmod {f : File} (h : (s.chmod c perm).now = some f) :
    ∃ f', s.now = some f' ∧ f'.data = f.data := by
  unfold chmod at h
  split at h
  · rename_i f' hnow
    split at h
    · obtain rfl := Option.some.inj h
      exact ⟨f', hnow, rfl⟩
    · exact ⟨f, h, rfl⟩
  · exact ⟨f, h, rfl⟩

@[simp] theorem flush_now : (s.flush c).now = s.now := by
  unfold flush
  split <;> rfl

end Slot

theorem Slot.mem_outcomes_chmod {c perm : Nat} {s : Slot} {f : File}
    (hf : some f ∈ (s.chmod c perm).outcomes) : ∃ f', some f' ∈ s.outcomes ∧ f'.data = f.data := by
  cases hnow : s.now with
  | none =>
    simp only [chmod, hnow] at hf
    exact ⟨f, hf, rfl⟩
  | some g =>
    by_cases hc : s.opener = c
    · simp only [chmod, hnow, hc, if_true, outcomes, present, List.cons_append, List.mem_cons,
        List.mem_append, List.mem_map, Option.some.injEq] at hf ⊢
      rcases hf with rfl | ⟨data, hdata, rfl⟩ | hold
      · exact ⟨g, .inl rfl, rfl⟩
      · exact ⟨{ g with data }, .inr (.inl ⟨data, hdata, rfl⟩), rfl⟩
      · exact ⟨f, .inr (.inr hold), rfl⟩
    · simp only [chmod, hnow, hc, if_false] at hf
      exact ⟨f, hf, rfl⟩

namespace FsOp

/-! ## What an operation can do to a name -/

/-- The slot of `n` after operation `o` of call `c`. -/
inductive Changes (c : Nat) (fs : Fs ν) (o : FsOp ν) (n : ν) : Slot → Prop where
  | same : Changes c fs o n (fs.slot n)
  | create (perm : Nat) : Changes c fs o n ((fs.slot n).create c perm)
  | append (bytes : List UInt8) (k : Nat) (ho : o = .write n bytes) :
      Changes c fs o n ((fs.slot n).append c (bytes.take k))
  | chmod (perm : Nat) : Changes c fs o n ((fs.slot n).chmod c perm)
  | flush : Changes c fs o n ((fs.slot n).flush c)
  | settle : Changes c fs o n (fs.slot n).settle
  | unlink (ho : o = .remove n ∨ ∃ b, o = .rename n b) : Changes c fs o n (fs.slot n).unlink
  | replace (a : ν) (ho : o = .rename a n) (hsome : (fs.now a).isSome) :
      Changes c fs o n ((fs.slot a).replace (fs.slot n))

variable [DecidableEq ν] {c : Nat} {fs fs' : Fs ν} {o : FsOp ν}

theorem changes_modify {m n : ν} {f : Slot → Slot} (hf : Changes c fs o m (f (fs.slot m))) :
    Changes c fs o n ((fs.modify m f).slot n) := by
  by_cases hn : n = m
  · subst hn
    rw [Fs.modify_slot_self]
    exact hf
  · rw [fs.modify_slot_of_ne f hn]
    exact .same

variable {answer : o.Res}

/-- What an operation can do, one name at a time. -/
theorem changes (h : o.apply c fs answer fs') (hne : ∀ a b, o = .rename a b → a ≠ b) (n : ν) :
    Changes c fs o n (fs'.slot n) := by
  cases makes h with
  | nothing => exact .same
  | created | temporary => exact changes_modify (.create _)
  | written k => exact changes_modify (.append _ k rfl)
  | permitted => exact changes_modify (.chmod _)
  | flushed => exact changes_modify .flush
  | @renamed a b _ hsome =>
    by_cases hna : n = a
    · subst hna
      rw [fs.rename_slot_source (hne n b rfl)]
      exact .unlink (.inr ⟨b, rfl⟩)
    · by_cases hnb : n = b
      · subst hnb
        rw [fs.rename_slot_target hna]
        exact .replace a rfl hsome
      · rw [fs.rename_slot_of_ne hna hnb]
        exact .same
  | removed => exact changes_modify (.unlink (.inl rfl))
  | settled => exact .settle

/-! ## Operations that respect the names -/

/-- Under the names `names` only good texts are written, each into a file the call has
not written to before; nothing is moved there from elsewhere, and nothing is moved to
the names `temps`.  Of the names only those in `temps` are ever given up. -/
def Fits (c : Nat) (names temps : ν → Prop) (good : List UInt8 → Prop) (fs : Fs ν) :
    FsOp ν → Prop
  | .write n bytes => names n → fs.Blank c n ∧ ∀ k, good (bytes.take k)
  | .rename a b => a ≠ b ∧ (names b → names a) ∧ ¬ temps b ∧ (names a → temps a)
  | .remove n => names n → temps n
  | _ => True

variable {names temps : ν → Prop} {good : List UInt8 → Prop}

omit [DecidableEq ν] in
theorem Fits.rename_ne (h : Fits c names temps good fs o) : ∀ a b, o = .rename a b → a ≠ b := by
  rintro a b rfl
  exact h.1

/-- The names keep their kind. -/
theorem contents (hnil : good []) (hfits : Fits c names temps good fs o)
    (h : o.apply c fs answer fs') (hgood : fs.Contents names good) : fs'.Contents names good := by
  intro n hn f hf
  have hchange := changes h hfits.rename_ne n
  unfold Fs.outcomes at hf
  generalize fs'.slot n = s' at hchange hf
  cases hchange with
  | same => exact hgood n hn f hf
  | create perm =>
    rcases Slot.mem_outcomes_create hf with hnew | hold
    · obtain rfl := Option.some.inj hnew
      exact hnil
    · exact hgood n hn f hold
  | append bytes k ho =>
    subst ho
    obtain ⟨hblank, htext⟩ := hfits hn
    rcases Slot.mem_outcomes_append hf with hold | ⟨hopener, g, j, hg, -, hnew⟩
    · exact hgood n hn f hold
    · obtain rfl := Option.some.inj hnew
      rw [hblank hopener g hg, List.nil_append, List.take_take]
      exact htext _
  | chmod perm =>
    obtain ⟨g, hg, hdata⟩ := Slot.mem_outcomes_chmod hf
    exact hdata ▸ hgood n hn g hg
  | flush => exact hgood n hn f (Slot.mem_outcomes_flush hf)
  | settle => exact hgood n hn f (Slot.mem_outcomes_settle hf)
  | unlink =>
    rcases Slot.mem_outcomes_unlink hf with hnone | hold
    · cases hnone
    · exact hgood n hn f hold
  | replace a ho =>
    subst ho
    rcases Slot.mem_outcomes_replace hf with hsource | hold
    · exact hgood a (hfits.2.1 hn) f (List.mem_append_left _ hsource)
    · exact hgood n hn f hold

/-- A file stays under its name, unless it is a temporary one. -/
theorem kept (hfits : Fits c names temps good fs o) (h : o.apply c fs answer fs') {n : ν}
    (hn : names n) (htemp : ¬ temps n) (hsome : (fs.now n).isSome) : (fs'.now n).isSome := by
  have hchange := changes h hfits.rename_ne n
  unfold Fs.now at hsome ⊢
  generalize fs'.slot n = s' at hchange ⊢
  cases hchange with
  | same | settle => exact hsome
  | create perm => rfl
  | append bytes k ho => rwa [Slot.isSome_append]
  | chmod perm => rwa [Slot.isSome_chmod]
  | flush => rwa [Slot.flush_now]
  | unlink ho =>
    obtain rfl | ⟨b, rfl⟩ := ho
    · exact absurd (hfits hn) htemp
    · exact absurd (hfits.2.2.2 hn) htemp
  | replace a ho hsome => exact hsome

/-- A file that call `d` has created is filled by no other call.  Only a move brings
one under another name. -/
theorem blank {d : Nat} (hd : d ≠ c) (h : o.apply c fs answer fs')
    (hne : ∀ a b, o = .rename a b → a ≠ b) {n : ν} (hn : fs.Blank d n)
    (hmoved : ∀ a, o = .rename a n → fs.Blank d a) : fs'.Blank d n := by
  intro hopener f hf
  have hchange := changes h hne n
  unfold Fs.now at hf
  generalize fs'.slot n = s' at hchange hf hopener
  cases hchange with
  | same => exact hn hopener f hf
  | create perm => exact absurd hopener (Ne.symm hd)
  | append bytes k ho =>
    rw [Slot.append_opener] at hopener
    rw [Slot.append_of_ne (hopener ▸ hd)] at hf
    exact hn hopener f hf
  | chmod perm =>
    rw [Slot.chmod_opener] at hopener
    rw [Slot.chmod_of_ne (hopener ▸ hd)] at hf
    exact hn hopener f hf
  | flush =>
    rw [Slot.flush_opener] at hopener
    rw [Slot.flush_now] at hf
    exact hn hopener f hf
  | settle => exact hn hopener f hf
  | unlink => cases hf
  | replace a ho => exact hmoved a ho hopener f hf

/-- Every file is opened by a call that was there. -/
theorem opened {next : Nat} (hc : c < next) (h : o.apply c fs answer fs')
    (hne : ∀ a b, o = .rename a b → a ≠ b) (hopened : fs.Opened next) : fs'.Opened next := by
  have hold : ∀ {n : ν}, (fs.slot n).now.isSome → (fs.slot n).opener < next := by
    intro n hsome
    obtain ⟨f, hf⟩ := Option.isSome_iff_exists.mp hsome
    exact hopened n f hf
  intro n f hf
  have hsome : (fs'.slot n).now.isSome := Option.isSome_iff_exists.mpr ⟨f, hf⟩
  have hchange := changes h hne n
  clear hf
  generalize fs'.slot n = s' at hchange hsome
  cases hchange with
  | same => exact hold hsome
  | create perm => exact hc
  | append bytes k ho =>
    rw [Slot.append_opener]
    exact hold (Slot.isSome_append ▸ hsome)
  | chmod perm =>
    rw [Slot.chmod_opener]
    exact hold (Slot.isSome_chmod ▸ hsome)
  | flush =>
    rw [Slot.flush_opener]
    exact hold (Slot.flush_now ▸ hsome)
  | settle => exact hold hsome
  | unlink => cases hsome
  | replace a ho => exact hold hsome

end FsOp

end TosAi.Foundation
