/-
  Proof rules for the programs of the runner and the store.

  `Frame c s s'` is what call `c` can rely on while the others move: its own files and what
  lasts.  `Does` is a specification within the discipline, and `Does.step` the rule for one
  operation: that it is allowed, and what its answer says.
-/
import TosAi.SoftwareWork.Steps

set_option autoImplicit false

namespace TosAi.SoftwareWork

open Foundation Foundation.Discipline

variable {r : Runner} {c : Nat} {s s' : System} {α : Type}

/-! ## What the others leave alone -/

structure Frame (c : Nat) (s s' : System) : Prop where
  lasts : Lasts s s'
  record : ∀ hex, (s.journal.now (.record hex)).isSome = true →
    (s.journal.slot (.record hex)).opener = c →
    Settles (s.journal.slot (.record hex)) (s'.journal.slot (.record hex))
  temporary : ∀ k, .temporary k ∈ s.journal.names →
    (s.journal.slot (.temporary k)).opener = c ∨ (s.journal.slot (.temporary k)).opener = 0 →
    Settles (s.journal.slot (.temporary k)) (s'.journal.slot (.temporary k))
  names : ∀ n ∈ s.journal.names, n ∈ s'.journal.names
  object : ∀ hex, (s.objects.now (.object hex)).isSome = true →
    Settles (s.objects.slot (.object hex)) (s'.objects.slot (.object hex))
  copy : ∀ k, (s.objects.now (.temporary k)).isSome = true →
    (s.objects.slot (.temporary k)).opener = c →
    Settles (s.objects.slot (.temporary k)) (s'.objects.slot (.temporary k))
  idle : s.hasInvoked c = false → s'.hasInvoked c = false
  losses : s'.losses = s.losses

theorem not_isSome_of_none {γ : Type} {o : Option γ} (hnone : o = none) (hsome : o.isSome = true) :
    False := by
  rw [hnone] at hsome
  cases hsome

theorem Act.frame {d : Nat} (h : Act d s s') (hd : d ≠ c) : Frame c s s' where
  lasts := h.lasts
  record := by
    intro hex hsome hopener
    rcases h.records hex with hslot | hnone | hother
    · exact hslot
    · exact (not_isSome_of_none hnone hsome).elim
    · exact absurd (hother.symm.trans hopener) hd
  temporary := by
    intro k hmem hopener
    rcases h.temporaries k with hslot | hnew | hother
    · exact hslot
    · exact absurd hmem hnew
    · rw [hother] at hopener
      rcases hopener with hsame | hzero
      · exact absurd hsame hd
      · exact absurd hzero h.call
  names := h.names
  object := by
    intro hex hsome
    rcases h.objects hex with hslot | hnone
    · exact hslot
    · exact (not_isSome_of_none hnone hsome).elim
  copy := by
    intro k hsome hopener
    rcases h.copies k with hslot | hnone | hother
    · exact hslot
    · exact (not_isSome_of_none hnone hsome).elim
    · exact absurd (hother.symm.trans hopener) hd
  idle := by
    intro hidle
    simp only [System.hasInvoked, List.any_eq_false, beq_iff_eq] at hidle ⊢
    intro i hi hcall
    rcases h.invoked i hi with hold | hnew
    · exact hidle i hold hcall
    · exact hd (hnew.symm.trans hcall)
  losses := h.losses

/-- Moves of the environment that leave the files alone. -/
theorem frame_of_files (hjournal : s'.journal = s.journal) (hobjects : s'.objects = s.objects)
    (hlasts : Lasts s s') (hinvoked : s'.invoked = s.invoked) (hlosses : s'.losses = s.losses) :
    Frame c s s' where
  lasts := hlasts
  record := fun _ _ _ => .inl (by rw [hjournal])
  temporary := fun _ _ _ => .inl (by rw [hjournal])
  names := fun _ hn => by rw [hjournal]; exact hn
  object := fun _ _ => .inl (by rw [hobjects])
  copy := fun _ _ _ => .inl (by rw [hobjects])
  idle := fun hidle => by
    rw [System.hasInvoked, hinvoked]
    exact hidle
  losses := hlosses

theorem lasts_kill (process : Nat) (s : System) : Lasts s (s.kill process) := { Lasts.refl s with }

theorem lasts_cancel (d : Nat) (s : System) : Lasts s (s.cancel d) where
  finished := fun _ _ h _ => h
  objects := fun _ _ h => h
  hashed := fun _ h => h
  began := fun _ _ h => h
  cancelled := by
    intro e he
    by_cases hed : e = d
    · subst hed
      exact Function.update_self _ _ _
    · exact (Function.update_of_ne hed _ _).trans he
  troubled := fun _ h => h

theorem frame_of_interferes (h : (discipline r).Interferes c s s') : Frame c s s' := by
  obtain ⟨-, -, ⟨d, hd, hact⟩ | ⟨dead, halive, henv⟩⟩ := h
  · exact Act.frame hact hd
  · cases henv with
    | kill process => exact frame_of_files rfl rfl (lasts_kill process s) rfl rfl
    | cancel d => exact frame_of_files rfl rfl (lasts_cancel d s) rfl rfl
    | powerLoss records hrecords objects hobjects => exact absurd trivial halive

/-! ## Specifications -/

/-- A specification of a body. -/
abbrev Does (r : Runner) (c : Nat) (P : System → Prop) (body : Work α) (Q : α → System → Prop)
    (E : Err → System → Prop) : Prop :=
  (discipline r).Meets c P body Q E

/-- `P` survives whatever the others do. -/
abbrev Stays (r : Runner) (c : Nat) (P : System → Prop) : Prop := (discipline r).Stable c P

theorem stays_of_frame {P : System → Prop} (h : ∀ s s', Frame c s s' → P s → P s') :
    Stays r c P :=
  fun s s' hinterferes hs => h s s' (frame_of_interferes hinterferes) hs

theorem stays_of_lasts {P : System → Prop} (h : ∀ s s', Lasts s s' → P s → P s') :
    Stays r c P :=
  stays_of_frame fun s s' hframe => h s s' hframe.lasts

theorem stays_true : Stays r c fun _ => True := fun _ _ _ _ => trivial

section Rules

variable {P : System → Prop} {Q : α → System → Prop} {E : Err → System → Prop}

/-- One operation. -/
theorem Does.step {o : Op} {Q : Res o → System → Prop} (hc : c ≠ 0) (hP : Stays r c P)
    (hallowed : ∀ s, Inv r s → P s → Allowed r c s o)
    (hpost : ∀ s answer s', Inv r s → P s → System.apply r.library.sha256 c o s answer s' →
      Lasts s s' → Q answer s') :
    Does r c P (perform o) Q E := by
  refine .perform hP fun s answer s' hok hs happly _ => ?_
  have hlocal := local_of_apply (hallowed s hok.2 hs) happly
  have hact := hlocal.act hc
  exact ⟨hlocal.inv hok.2 hc, hact, hpost s answer s' hok.2 hs happly hact.lasts⟩

theorem Does.ensure {condition : Bool} {message : String} {Q : Unit → System → Prop}
    (hok : ∀ s, condition = true → P s → Q () s)
    (herror : ∀ s, condition = false → P s → E (.text message) s) :
    Does r c P (SoftwareWork.ensure condition message) Q E :=
  Meets.ensure hok herror

/-- A deferred operation comes after the body, whatever the body returned. -/
theorem Does.deferred {body : Work α} {last : Op} {Q' : α → System → Prop}
    {E' : Err → System → Prop} (hbody : Does r c P body Q E)
    (hlast : ∀ answer, Does r c (Returns Q E answer) (perform last)
      (fun _ => Returns Q' E' answer) E') :
    Does r c P (SoftwareWork.deferred body last) Q' E' := by
  refine .bind (.attempt hbody) fun answer => .bind (hlast answer) fun _ => ?_
  refine .result ?_ ?_
  · rintro a s rfl hs
    exact hs
  · rintro e s rfl hs
    exact hs

/-- What lasts is kept by any body. -/
theorem Does.keep {R : System → Prop} {body : Work α} (hR : ∀ s s', Lasts s s' → R s → R s')
    (hbody : Does r c P body Q E) :
    Does r c (fun s => P s ∧ R s) body (fun a s => Q a s ∧ R s) (fun e s => E e s ∧ R s) :=
  Meets.keep (stays_of_lasts hR) (fun s s' hact => hR s s' (Act.lasts hact)) hbody

end Rules

/-! ## Operations that look -/

/-- The operation changes no file and invokes nothing. -/
def Looks : Op → Prop
  | .objects (.read _) | .journal (.read _) | .contextErr | .hash _ | .now | .lockMutex
  | .unlockMutex | .openJournal | .openObjects => True
  | _ => False

/-- Nothing but what is known has changed. -/
structure Unmoved (s s' : System) : Prop where
  journal : s'.journal = s.journal
  objects : s'.objects = s.objects
  invoked : s'.invoked = s.invoked
  began : s'.began = s.began
  lasts : Lasts s s'

theorem allowed_of_looks {o : Op} (ho : Looks o) : Allowed r c s o := by
  cases o with
  | journal o | objects o => cases o <;> first | exact trivial | exact ho.elim
  | _ => first | exact trivial | exact ho.elim

theorem unmoved_of_looks {o : Op} {answer : Res o} (hc : c ≠ 0) (ho : Looks o)
    (h : System.apply r.library.sha256 c o s answer s') : Unmoved s s' := by
  have hlasts := ((local_of_apply (allowed_of_looks ho) h).act hc).lasts
  cases o with
  | journal o =>
    obtain ⟨fs', failed, happly, -, -, rfl⟩ := h
    cases o <;> first | exact ho.elim | skip
    obtain ⟨rfl, -⟩ := happly
    exact ⟨rfl, rfl, rfl, rfl, hlasts⟩
  | objects o =>
    obtain ⟨fs', failed, happly, -, rfl⟩ := h
    cases o <;> first | exact ho.elim | skip
    obtain ⟨rfl, -⟩ := happly
    exact ⟨rfl, rfl, rfl, rfl, hlasts⟩
  | contextErr =>
    obtain ⟨rfl, -⟩ := h
    exact ⟨rfl, rfl, rfl, rfl, hlasts⟩
  | hash bytes | lockMutex =>
    obtain ⟨-, rfl⟩ := h
    exact ⟨rfl, rfl, rfl, rfl, hlasts⟩
  | now | unlockMutex | openJournal | openObjects =>
    obtain rfl := h
    exact ⟨rfl, rfl, rfl, rfl, hlasts⟩
  | link a b | executionContextErr | execute executionID spec input | runIsolated request input =>
    exact ho.elim

/-- A property that is kept where no file changes and nothing is invoked. -/
def Steady (P : System → Prop) : Prop := ∀ s s', Unmoved s s' → P s → P s'

theorem steady_of_lasts {P : System → Prop} (h : ∀ s s', Lasts s s' → P s → P s') : Steady P :=
  fun s s' hunmoved => h s s' hunmoved.lasts

theorem Steady.and {P Q : System → Prop} (hP : Steady P) (hQ : Steady Q) :
    Steady fun s => P s ∧ Q s :=
  fun s s' h hs => ⟨hP s s' h hs.1, hQ s s' h hs.2⟩

/-- An operation that looks, with what its answer says. -/
theorem Does.look {o : Op} {P : System → Prop} {Q : Res o → Prop} {E : Err → System → Prop}
    (hc : c ≠ 0) (ho : Looks o) (hP : Stays r c P) (hsteady : Steady P)
    (hpost : ∀ s answer s', P s → System.apply r.library.sha256 c o s answer s' → Q answer) :
    Does r c P (perform o) (fun answer s => P s ∧ Q answer) E :=
  Does.step hc hP (fun _ _ _ => allowed_of_looks ho)
    fun s answer s' _ hs happly _ =>
      ⟨hsteady s s' (unmoved_of_looks hc ho happly) hs, hpost s answer s' hs happly⟩

/-- The same, where the answer does not matter. -/
theorem Does.glance {o : Op} {P : System → Prop} {E : Err → System → Prop}
    (hc : c ≠ 0) (ho : Looks o) (hP : Stays r c P) (hsteady : Steady P) :
    Does r c P (perform o) (fun _ => P) E :=
  (Does.look (Q := fun _ => True) hc ho hP hsteady fun _ _ _ _ _ => trivial).conseq
    (fun _ _ hs => hs) (fun _ _ hs => hs.1) (fun _ _ hs => hs)

end TosAi.SoftwareWork
