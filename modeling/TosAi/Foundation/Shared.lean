/-
  Specifications of bodies that run among others.

  `D.Meets c P body Q E` is the specification of a body that may fail: call `c`, started
  where `P` holds, keeps to the discipline `D` whatever the others do, and ends with `Q`
  of its value or `E` of its error.  The rules follow the construction of bodies.  Only an
  operation asks that what comes before it be stable: it is where the others come in.

  `Meets.frame` is the frame rule.  A specification says nothing of what the body does not
  concern itself with; a property that the others leave alone, and that none of the
  operations the body uses can break, may be added to both of its ends.
-/
import TosAi.Foundation.Crash

set_option autoImplicit false

namespace TosAi.Foundation

variable {Op : Type} {Res : Op → Type} {σ Out α β ε : Type} {M : Machine Op Res σ Out}

namespace Discipline

/-- A specification of a body. -/
def Meets (D : Discipline M) (c : Nat) (P : σ → Prop) (body : ExceptT ε (Prog Op Res) α)
    (Q : α → σ → Prop) (E : ε → σ → Prop) : Prop :=
  ∀ s, D.Ok s → P s → D.Safe c (Returns Q E) body.run s

variable {D : Discipline M} {c : Nat} {P R : σ → Prop}

theorem Safe.frame {A : Op → Prop} (hR : D.Stable c R)
    (hkeep : ∀ o, A o → ∀ s answer s', M.apply c o s answer s' → D.act c s s' → R s → R s')
    {Q : α → σ → Prop} {p : Prog Op Res α} {s : σ} (huses : Prog.Uses A p)
    (hsafe : D.Safe c Q p s) (hs : R s) : D.Safe c (fun a t => Q a t ∧ R t) p s := by
  induction p generalizing s with
  | ret value => exact ⟨hsafe, hs⟩
  | op o next ih =>
    intro s' hrely answer s'' happly hassume
    obtain ⟨hinv, hact, hrest⟩ := hsafe s' hrely answer s'' happly hassume
    have hs' := hkeep o huses.1 s' answer s'' happly hact (hR.rely hrely hs)
    exact ⟨hinv, hact, ih answer (huses.2 answer) hrest hs'⟩

namespace Meets

variable {Q : α → σ → Prop} {E : ε → σ → Prop} {body : ExceptT ε (Prog Op Res) α}

theorem bind {next : α → ExceptT ε (Prog Op Res) β} {S : α → σ → Prop} {Q : β → σ → Prop}
    (hbody : D.Meets c P body S E) (hnext : ∀ a, D.Meets c (S a) (next a) Q E) :
    D.Meets c P (body >>= next) Q E := by
  intro s hok hs
  refine Safe.bind (k := ExceptT.bindCont next) hok (hbody s hok hs) fun r t ht hr => ?_
  cases r with
  | ok a => exact hnext a t ht hr
  | error e => exact hr

theorem conseq {P' : σ → Prop} {Q' : α → σ → Prop} {E' : ε → σ → Prop}
    (hbody : D.Meets c P body Q E) (hP : ∀ s, D.Ok s → P' s → P s) (hQ : ∀ a s, Q a s → Q' a s)
    (hE : ∀ e s, E e s → E' e s) : D.Meets c P' body Q' E' := by
  intro s hok hs
  refine (hbody s hok (hP s hok hs)).mono fun r t hr => ?_
  cases r with
  | ok a => exact hQ a t hr
  | error e => exact hE e t hr

theorem pre {P' : σ → Prop} (hbody : D.Meets c P body Q E) (hP : ∀ s, D.Ok s → P' s → P s) :
    D.Meets c P' body Q E :=
  hbody.conseq hP (fun _ _ h => h) fun _ _ h => h

theorem post {Q' : α → σ → Prop} (hbody : D.Meets c P body Q E) (hQ : ∀ a s, Q a s → Q' a s) :
    D.Meets c P body Q' E :=
  hbody.conseq (fun _ _ h => h) hQ fun _ _ h => h

theorem pure {a : α} (h : ∀ s, D.Ok s → P s → Q a s) :
    D.Meets c P (pure a : ExceptT ε (Prog Op Res) α) Q E := h

theorem throw {e : ε} (h : ∀ s, D.Ok s → P s → E e s) :
    D.Meets c P (throw e : ExceptT ε (Prog Op Res) α) Q E := h

/-- One operation. -/
theorem perform {o : Op} {Q : Res o → σ → Prop} (hP : D.Stable c P)
    (hstep : ∀ s answer s', D.Ok s → P s → M.apply c o s answer s' → D.assumes s' →
      D.inv s' ∧ D.act c s s' ∧ Q answer s') :
    D.Meets c P (Body.perform o : ExceptT ε (Prog Op Res) (Res o)) Q E :=
  fun _ hok hs s' hrely answer s'' happly hassume =>
    hstep s' answer s'' (hrely.ok hok) (hP.rely hrely hs) happly hassume

theorem attempt {E' : ε → σ → Prop} (hbody : D.Meets c P body Q E) :
    D.Meets c P (Body.attempt body) (Returns Q E) E' :=
  fun s hok hs => Safe.bind (k := fun r => .ret (Except.ok r)) hok (hbody s hok hs)
    fun _ _ _ hr => hr

theorem result {value : Except ε α} (hok : ∀ a s, value = .ok a → P s → Q a s)
    (herror : ∀ e s, value = .error e → P s → E e s) :
    D.Meets c P (Body.result value : ExceptT ε (Prog Op Res) α) Q E := by
  intro s _ hs
  cases value with
  | ok a => exact hok a s rfl hs
  | error e => exact herror e s rfl hs

theorem ensure {condition : Bool} {err : ε} {Q : Unit → σ → Prop}
    (hok : ∀ s, condition = true → P s → Q () s) (herror : ∀ s, condition = false → P s → E err s) :
    D.Meets c P (Body.ensure condition err : ExceptT ε (Prog Op Res) Unit) Q E := by
  unfold Body.ensure
  cases condition with
  | true => exact .pure fun s _ hs => hok s rfl hs
  | false => exact .throw fun s _ hs => herror s rfl hs

/-- A fact that does not depend on the state, drawn from where the body begins. -/
theorem assume (p : Prop) (hp : ∀ s, D.Ok s → P s → p) (h : p → D.Meets c P body Q E) :
    D.Meets c P body Q E :=
  fun s hok hs => h (hp s hok hs) s hok hs

/-- Something that exists where the body begins. -/
theorem choose {ι : Type} {P : ι → σ → Prop} (h : ∀ i, D.Meets c (P i) body Q E) :
    D.Meets c (fun s => ∃ i, P i s) body Q E :=
  fun s hok ⟨i, hs⟩ => h i s hok hs

/-- **The frame rule.** -/
theorem frame {A : Op → Prop} (huses : Body.Uses A body) (hR : D.Stable c R)
    (hkeep : ∀ o, A o → ∀ s answer s', M.apply c o s answer s' → D.act c s s' → R s → R s')
    (hbody : D.Meets c P body Q E) :
    D.Meets c (fun s => P s ∧ R s) body (fun a s => Q a s ∧ R s) (fun e s => E e s ∧ R s) := by
  intro s hok hs
  refine (Safe.frame hR hkeep huses (hbody s hok hs.1) hs.2).mono fun r t hr => ?_
  cases r with
  | ok a => exact hr
  | error e => exact hr

/-- What no change within the discipline can break is kept by any body. -/
theorem keep (hR : D.Stable c R) (hkeep : ∀ s s', D.act c s s' → R s → R s')
    (hbody : D.Meets c P body Q E) :
    D.Meets c (fun s => P s ∧ R s) body (fun a s => Q a s ∧ R s) (fun e s => E e s ∧ R s) :=
  frame (Prog.uses_true body.run) hR (fun _ _ s _ s' _ hact => hkeep s s' hact) hbody

end Meets

end Discipline

end TosAi.Foundation
