/-
  Rely-guarantee reasoning for interleaved programs.

  A `Discipline` fixes, for one machine, what is assumed of the states of a run,
  what is invariant, and which changes one call may make (`act`).  What call `c`
  has to live with is then everything the others may do: `Rely c`.

  `Safe` says of a program at a state that, whatever the others do in between,
  each of its operations keeps the invariant, stays within `act`, and leads to a
  safe rest, and that the postcondition holds where the program comes to its value.
  The others come between this moment and the return: what is left of the
  postcondition then is what is stable.

  THE ONE INDUCTION OVER RUNS is `Good.of_run`: if every call that may begin is
  safe, then in every run every state satisfies the invariant and every call in
  flight is still safe.  Nothing else in the development inducts over
  interleavings to get an invariant.
-/
import TosAi.Foundation.Prog

set_option autoImplicit false

namespace TosAi.Foundation

open Relation

variable {Op : Type} {Res : Op → Type} {σ Out α β : Type}

/-- What a run is assumed to satisfy, what it keeps, and what one call may do. -/
structure Discipline (M : Machine Op Res σ Out) where
  /-- Assumed of every state of the run; never a proof obligation. -/
  assumes : σ → Prop
  /-- Kept by every step. -/
  inv : σ → Prop
  /-- The changes call `c` may make. -/
  act : Nat → σ → σ → Prop
  /-- What the value of call `c` has to satisfy where the call comes to it. -/
  post : Nat → Out → σ → Prop

namespace Discipline

variable {M : Machine Op Res σ Out} (D : Discipline M)

/-- The state is within the assumption and the invariant. -/
def Ok (s : σ) : Prop := D.assumes s ∧ D.inv s

/-- One move of the others, as call `c` sees it. -/
def Interferes (c : Nat) (s s' : σ) : Prop :=
  D.Ok s ∧ D.Ok s' ∧
    ((∃ d, d ≠ c ∧ D.act d s s') ∨ ∃ dead, ¬ dead c ∧ M.env dead s s')

/-- Any number of moves of the others. -/
def Rely (c : Nat) : σ → σ → Prop := ReflTransGen (D.Interferes c)

/-- `P` survives whatever the others do. -/
def Stable (c : Nat) (P : σ → Prop) : Prop := ∀ s s', D.Interferes c s s' → P s → P s'

variable {D} {c : Nat} {P : σ → Prop} {Q : α → σ → Prop} {s s' : σ} {p : Prog Op Res α}

theorem Stable.rely (hP : D.Stable c P) (hrely : D.Rely c s s') (hs : P s) : P s' := by
  induction hrely with
  | refl => exact hs
  | tail _ hstep ih => exact hP _ _ hstep ih

theorem Stable.and {Q : σ → Prop} (hP : D.Stable c P) (hQ : D.Stable c Q) :
    D.Stable c fun s => P s ∧ Q s :=
  fun s s' h hs => ⟨hP s s' h hs.1, hQ s s' h hs.2⟩

theorem Stable.const (p : Prop) : D.Stable c fun _ => p := fun _ _ _ hp => hp

theorem Stable.exists {ι : Type} {P : ι → σ → Prop} (hP : ∀ i, D.Stable c (P i)) :
    D.Stable c fun s => ∃ i, P i s :=
  fun s s' h hs => hs.imp fun i hi => hP i s s' h hi

theorem Rely.ok (hrely : D.Rely c s s') (hs : D.Ok s) : D.Ok s' := by
  induction hrely with
  | refl => exact hs
  | tail _ hstep _ => exact hstep.2.1

variable (D)

/-! ## Safety of a program -/

/-- Every operation of the program, after any interference, is within the
discipline, and `Q` holds of the value where the program comes to it. -/
def Safe (c : Nat) (Q : α → σ → Prop) : Prog Op Res α → σ → Prop
  | .ret value, s => Q value s
  | .op o next, s => ∀ s', D.Rely c s s' → ∀ answer s'',
      M.apply c o s' answer s'' → D.assumes s'' →
        D.inv s'' ∧ D.act c s' s'' ∧ Safe c Q (next answer) s''

variable {D}

theorem Safe.mono {R : α → σ → Prop} (hQR : ∀ a s, Q a s → R a s) (hsafe : D.Safe c Q p s) :
    D.Safe c R p s := by
  induction p generalizing s with
  | ret value => exact hQR _ _ hsafe
  | op o next ih =>
    intro s' hrely answer s'' happly hassume
    obtain ⟨hinv, hact, hrest⟩ := hsafe s' hrely answer s'' happly hassume
    exact ⟨hinv, hact, ih answer hrest⟩

/-- One program after another; nobody comes between them. -/
theorem Safe.bind {Q : β → σ → Prop} {R : α → σ → Prop} {k : α → Prog Op Res β} (hok : D.Ok s)
    (hsafe : D.Safe c R p s) (hnext : ∀ a t, D.Ok t → R a t → D.Safe c Q (k a) t) :
    D.Safe c Q (p >>= k) s := by
  induction p generalizing s with
  | ret value => exact hnext value s hok hsafe
  | op o rest ih =>
    intro s' hrely answer s'' happly hassume
    obtain ⟨hinv, hact, hrest⟩ := hsafe s' hrely answer s'' happly hassume
    exact ⟨hinv, hact, ih answer ⟨hassume, hinv⟩ hrest⟩

/-- The postcondition of a body that may fail: `Q` of its value, or `E` of its error. -/
def Returns {ε : Type} (Q : α → σ → Prop) (E : ε → σ → Prop) : Except ε α → σ → Prop
  | .ok a => Q a
  | .error e => E e

/-! ## Every run -/

variable (D)

/-- The proof obligations of a discipline: the environment keeps the invariant,
every call that may begin is safe, and returning is within the discipline. -/
structure Sound : Prop where
  env : ∀ {dead s s'}, M.env dead s s' → D.Ok s → D.assumes s' → D.inv s'
  start : ∀ {c p s s'}, M.start c p s s' → D.Ok s → D.assumes s' →
    D.inv s' ∧ D.act c s s' ∧ D.Safe c (D.post c) p s'
  finish : ∀ {c out s s'}, D.post c out s → D.Rely c s s' → D.Ok s' →
    D.assumes (M.finish c out s') → D.inv (M.finish c out s') ∧ D.act c s' (M.finish c out s')

/-- The program was safe when the call last moved. -/
def Flies (c : Nat) (p : Prog Op Res Out) (s : σ) : Prop :=
  ∃ s₀, D.Rely c s₀ s ∧ D.Safe c (D.post c) p s₀

/-- The invariant holds and every call in flight is safe. -/
structure Good (cfg : Config Op Res σ Out) : Prop where
  ok : D.Ok cfg.shared
  safe : ∀ c p, cfg.pool c = some p → D.Flies c p cfg.shared

/-- One change of the shared state, as the discipline classifies it. -/
inductive Move (s s' : σ) : Prop where
  | act (c : Nat) (hact : D.act c s s')
  | env (dead : Nat → Prop) (henv : M.env dead s s')

variable {D} {cfg cfg' : Config Op Res σ Out}

/-- A step of one call leaves the other calls safe. -/
private theorem safe_update {s' : σ} {c : Nat} (hgood : D.Good cfg) (hok : D.Ok s')
    (hact : D.act c cfg.shared s') (next : Option (Prog Op Res Out))
    (hnext : ∀ p, next = some p → D.Safe c (D.post c) p s') :
    ∀ d p, Function.update cfg.pool c next d = some p → D.Flies d p s' := by
  intro d p hp
  by_cases hd : d = c
  · subst hd
    rw [Function.update_self] at hp
    exact ⟨s', .refl, hnext p hp⟩
  · rw [Function.update_of_ne hd] at hp
    obtain ⟨s₀, hrely, hsafe⟩ := hgood.safe d p hp
    exact ⟨s₀, hrely.tail ⟨hgood.ok, hok, .inl ⟨c, Ne.symm hd, hact⟩⟩, hsafe⟩

/-- **The step lemma.**  Within the assumption a step keeps `Good`, and the
change it makes is one the discipline allows. -/
theorem Good.step (hsound : D.Sound) (hgood : D.Good cfg) (hstep : M.Step cfg cfg')
    (hassume : D.assumes cfg'.shared) :
    D.Good cfg' ∧ D.Move cfg.shared cfg'.shared := by
  cases hstep with
  | start hidle hstart =>
    obtain ⟨hinv, hact, hsafe⟩ := hsound.start hstart hgood.ok hassume
    refine ⟨⟨⟨hassume, hinv⟩, ?_⟩, .act _ hact⟩
    exact safe_update hgood ⟨hassume, hinv⟩ hact _ fun p hp => Option.some.inj hp ▸ hsafe
  | act hpool happly =>
    obtain ⟨s₀, hrely, hsafe⟩ := hgood.safe _ _ hpool
    obtain ⟨hinv, hact, hrest⟩ := hsafe _ hrely _ _ happly hassume
    refine ⟨⟨⟨hassume, hinv⟩, ?_⟩, .act _ hact⟩
    exact safe_update hgood ⟨hassume, hinv⟩ hact _ fun p hp => Option.some.inj hp ▸ hrest
  | finish hpool =>
    obtain ⟨s₀, hrely, hpost⟩ := hgood.safe _ _ hpool
    obtain ⟨hinv, hact⟩ := hsound.finish hpost hrely hgood.ok hassume
    refine ⟨⟨⟨hassume, hinv⟩, ?_⟩, .act _ hact⟩
    exact safe_update hgood ⟨hassume, hinv⟩ hact _ fun p hp => by simp at hp
  | @env s s' pool dead henv =>
    have hinv := hsound.env henv hgood.ok hassume
    refine ⟨⟨⟨hassume, hinv⟩, ?_⟩, .env _ henv⟩
    intro d p hp
    by_cases hd : dead d
    · simp [survivors, hd] at hp
    · simp only [survivors, hd, if_false] at hp
      obtain ⟨s₀, hrely, hsafe⟩ := hgood.safe d p hp
      exact ⟨s₀, hrely.tail ⟨hgood.ok, ⟨hassume, hinv⟩, .inr ⟨dead, hd, henv⟩⟩, hsafe⟩

/-- **Where a call comes to its value** the postcondition holds. -/
theorem Good.post (hgood : D.Good cfg) (hstep : M.Step cfg cfg') (hassume : D.assumes cfg'.shared)
    {c : Nat} {o : Op} {next : Res o → Prog Op Res Out} {out : Out}
    (hbefore : cfg.pool c = some (.op o next)) (hafter : cfg'.pool c = some (.ret out)) :
    D.post c out cfg'.shared := by
  cases hstep with
  | @start s s' pool d p hidle hstart =>
    by_cases hd : c = d
    · subst hd
      exact absurd (hidle.symm.trans hbefore) (by simp)
    · simp [Function.update_of_ne hd, show pool c = _ from hbefore] at hafter
  | @act s s' pool d o' next' answer hpool happly =>
    by_cases hd : c = d
    · subst hd
      obtain ⟨s₀, hrely, hsafe⟩ := hgood.safe _ _ hpool
      have hrest := (hsafe _ hrely _ _ happly hassume).2.2
      rw [show next' answer = .ret out by simpa using hafter] at hrest
      exact hrest
    · simp [Function.update_of_ne hd, show pool c = _ from hbefore] at hafter
  | @finish s pool d out' hpool =>
    by_cases hd : c = d
    · subst hd
      simp at hafter
    · simp [Function.update_of_ne hd, show pool c = _ from hbefore] at hafter
  | @env s s' pool dead henv =>
    simp [survivors, show pool c = _ from hbefore] at hafter

/-- **The run lemma.**  Every configuration of a run is good. -/
theorem Good.of_run (hsound : D.Sound) (hgood : D.Good cfg) (hrun : M.Run D.assumes cfg cfg') :
    D.Good cfg' := by
  induction hrun with
  | refl => exact hgood
  | tail _ hstep ih => exact (ih.step hsound hstep.1 hstep.2).1

/-- A relation that is reflexive, transitive and contains every allowed change
relates the two ends of every run. -/
theorem Good.relates (hsound : D.Sound) (hgood : D.Good cfg) (hrun : M.Run D.assumes cfg cfg')
    (T : σ → σ → Prop) (hrefl : ∀ s, T s s) (htrans : ∀ s t u, T s t → T t u → T s u)
    (hmove : ∀ s s', D.Ok s → D.Ok s' → D.Move s s' → T s s') :
    T cfg.shared cfg'.shared := by
  induction hrun with
  | refl => exact hrefl _
  | tail hrun hstep ih =>
    have hmid := hgood.of_run hsound hrun
    obtain ⟨hnext, hm⟩ := hmid.step hsound hstep.1 hstep.2
    exact htrans _ _ _ ih (hmove _ _ hmid.ok hnext.ok hm)

end Discipline

end TosAi.Foundation
