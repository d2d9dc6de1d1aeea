/-
  Programs that may be cut off.

  A process can die between any two operations of a program.  `Guards B I Q p s`
  says that from `s`, however the operations turn out within the behaviour `B`, every
  state the program passes through satisfies `I`, so that this is what a death leaves,
  and that the program ends with `Q`.  The rules follow the program; there is nothing
  to prove between two operations.

  `Prog.exec` runs a program with chosen answers.  It is one of the executions the
  relation allows (`steps_exec`), so a run on a given input can be computed.
-/
import TosAi.Foundation.Alone

set_option autoImplicit false

namespace TosAi.Foundation

variable {Op : Type} {Res : Op → Type} {σ α β ε : Type}
  {B : (o : Op) → σ → Res o → σ → Prop} {I : σ → Prop}
  {Q : α → σ → Prop} {s : σ}

namespace Prog

/-- Every state on the way satisfies `I`, and the end `Q`. -/
def Guards (B : (o : Op) → σ → Res o → σ → Prop) (I : σ → Prop) (Q : α → σ → Prop) :
    Prog Op Res α → σ → Prop
  | .ret value, s => I s ∧ Q value s
  | .op o next, s => I s ∧ ∀ answer s', B o s answer s' → Guards B I Q (next answer) s'

variable {p q : Prog Op Res α} {R : α → σ → Prop} {t : σ}

theorem Guards.here (h : Guards B I Q p s) :
    I s := by
  cases p with
  | ret value => exact h.1
  | op o next => exact h.1

theorem Guards.mono {J : σ → Prop} (hIJ : ∀ s, I s → J s)
    (hQR : ∀ a s, Q a s → R a s) (h : Guards B I Q p s) :
    Guards B J R p s := by
  induction p generalizing s with
  | ret value => exact ⟨hIJ s h.1, hQR value s h.2⟩
  | op o next ih => exact ⟨hIJ s h.1, fun answer s' hop => ih answer (h.2 answer s' hop)⟩

theorem Guards.bind {Q : β → σ → Prop} {f : α → Prog Op Res β} (hp : Guards B I R p s)
    (hf : ∀ a t, I t → R a t → Guards B I Q (f a) t) : Guards B I Q (p >>= f) s := by
  induction p generalizing s with
  | ret value => exact hf value s hp.1 hp.2
  | op o next ih => exact ⟨hp.1, fun answer s' hop => ih answer (hp.2 answer s' hop)⟩

theorem Guards.map {Q : β → σ → Prop} {f : α → β} (h : Guards B I (fun a => Q (f a)) p s) :
    Guards B I Q (f <$> p) s :=
  Guards.bind (f := fun a => .ret (f a)) h fun _ _ hI hQ => ⟨hI, hQ⟩

/-- The end is one of the states on the way. -/
theorem Guards.and_here (h : Guards B I Q p s) :
    Guards B I (fun a t => I t ∧ Q a t) p s := by
  induction p generalizing s with
  | ret value => exact ⟨h.1, h⟩
  | op o next ih => exact ⟨h.1, fun answer s' hop => ih answer (h.2 answer s' hop)⟩

/-- What is left of a program is guarded as well. -/
theorem Guards.rest (h : Guards B I Q p s) (hsteps : Steps B p s q t) : Guards B I Q q t := by
  induction hsteps with
  | refl => exact h
  | op hop _ ih => exact ih (h.2 _ _ hop)

/-- **Where a program is cut off**, the invariant holds. -/
theorem Guards.cut (h : Guards B I Q p s) (hsteps : Steps B p s q t) : I t :=
  (h.rest hsteps).here

theorem Guards.ends {value : α} (h : Guards B I Q p s)
    (hsteps : Steps B p s (.ret value) t) : Q value t :=
  (h.rest hsteps).2

theorem guards_true (p : Prog Op Res α) (s : σ) :
    Guards B (fun _ => True) (fun _ _ => True) p s := by
  induction p generalizing s with
  | ret value => exact ⟨trivial, trivial⟩
  | op o next ih => exact ⟨trivial, fun answer s' _ => ih answer s'⟩

/-- All the operations of the program are of one kind. -/
def Uses (A : Op → Prop) : Prog Op Res α → Prop
  | .ret _ => True
  | .op o next => A o ∧ ∀ answer, Uses A (next answer)

theorem Uses.mono {A A' : Op → Prop} (hA : ∀ o, A o → A' o) (h : Uses A p) : Uses A' p := by
  induction p with
  | ret value => trivial
  | op o next ih => exact ⟨hA o h.1, fun answer => ih answer (h.2 answer)⟩

theorem Uses.bind {A : Op → Prop} {f : α → Prog Op Res β} (hp : Uses A p) (hf : ∀ a, Uses A (f a)) :
    Uses A (p >>= f) := by
  induction p with
  | ret value => exact hf value
  | op o next ih => exact ⟨hp.1, fun answer => ih answer (hp.2 answer)⟩

theorem uses_true (p : Prog Op Res α) : Uses (fun _ => True) p := by
  induction p with
  | ret value => trivial
  | op o next ih => exact ⟨trivial, ih⟩

/-- What every operation of the kind keeps is kept by the program. -/
theorem Uses.guards {A : Op → Prop} (hI : ∀ o s answer s', A o → B o s answer s' → I s → I s')
    (huses : Uses A p) (hs : I s) :
    Guards B I (fun _ => I) p s := by
  induction p generalizing s with
  | ret value => exact ⟨hs, hs⟩
  | op o next ih =>
    exact ⟨hs, fun answer s' hop => ih answer (huses.2 answer) (hI o s answer s' huses.1 hop hs)⟩

/-- If every operation it uses has some outcome, the program comes to its end. -/
theorem Guards.always_of_uses {A : Op → Prop} (htotal : ∀ o s, A o → ∃ answer s', B o s answer s')
    (huses : Uses A p) (h : Guards B I Q p s) :
    Always B Q p s := by
  induction p generalizing s with
  | ret value => exact h.2
  | op o next ih =>
    exact ⟨htotal o s huses.1,
      fun answer s' hop => ih answer (huses.2 answer) (h.2 answer s' hop)⟩

theorem Guards.always (htotal : ∀ o s, ∃ answer s', B o s answer s')
    (h : Guards B I Q p s) : Always B Q p s :=
  h.always_of_uses (fun o s _ => htotal o s) (uses_true p)

/-! ## Computing a run -/

/-- The execution in which the operations turn out as chosen. -/
def exec (choose : (o : Op) → σ → Res o × σ) : Prog Op Res α → σ → α × σ
  | .ret value, s => (value, s)
  | .op o next, s => exec choose (next (choose o s).1) (choose o s).2

theorem steps_exec {choose : (o : Op) → σ → Res o × σ}
    (hB : ∀ o s, B o s (choose o s).1 (choose o s).2) (p : Prog Op Res α) (s : σ) :
    Steps B p s (.ret (exec choose p s).1) (exec choose p s).2 := by
  induction p generalizing s with
  | ret value => exact .refl _ _
  | op o next ih => exact .op (hB o s) (ih _ _)

/-- At most so many operations, as far as the choice goes: what is left of the program and the
state there. -/
def rehearse (choose : (o : Op) → σ → Option (Res o × σ)) :
    Nat → Prog Op Res α → σ → Prog Op Res α × σ
  | 0, p, s => (p, s)
  | _ + 1, .ret value, s => (.ret value, s)
  | n + 1, .op o next, s =>
    match choose o s with
    | some r => rehearse choose n (next r.1) r.2
    | none => (.op o next, s)

theorem steps_rehearse {choose : (o : Op) → σ → Option (Res o × σ)}
    (hB : ∀ o s r, choose o s = some r → B o s r.1 r.2) (n : Nat) (p : Prog Op Res α) (s : σ) :
    Steps B p s (rehearse choose n p s).1 (rehearse choose n p s).2 := by
  induction n generalizing p s with
  | zero => exact .refl _ _
  | succ n ih =>
    cases p with
    | ret value => exact .refl _ _
    | op o next =>
      cases hchoose : choose o s with
      | none =>
        simp only [rehearse, hchoose]
        exact .refl _ _
      | some r =>
        simp only [rehearse, hchoose]
        exact .op (hB o s r hchoose) (ih _ _)

/-- The value of a program that has come to its end. -/
def value? : Prog Op Res α → Option α
  | .ret value => some value
  | .op _ _ => none

theorem eq_ret_of_value? {value : α} (h : p.value? = some value) :
    p = .ret value := by
  cases p with
  | ret a => exact congrArg Prog.ret (Option.some.inj h)
  | op o next => cases h

end Prog

/-! ## Bodies -/

namespace Body

/-- Perform one operation. -/
def perform (o : Op) : ExceptT ε (Prog Op Res) (Res o) := ExceptT.lift (Prog.call o)

/-- Run a body and keep its error as a value. -/
def attempt (body : ExceptT ε (Prog Op Res) α) : ExceptT ε (Prog Op Res) (Except ε α) :=
  ExceptT.lift body.run

/-- A computed value or error. -/
def result (value : Except ε α) : ExceptT ε (Prog Op Res) α := ExceptT.mk (pure value)

/-- Fail unless the condition holds. -/
def ensure (condition : Bool) (err : ε) : ExceptT ε (Prog Op Res) Unit :=
  if condition then pure () else throw err

end Body

/-- The body, if it is not cut off, ends with `Q` of its value or `E` of its error,
and every state on the way satisfies `I`. -/
abbrev Survives (B : (o : Op) → σ → Res o → σ → Prop) (I : σ → Prop)
    (body : ExceptT ε (Prog Op Res) α) (s : σ) (Q : α → σ → Prop) (E : ε → σ → Prop) : Prop :=
  Prog.Guards B I (Discipline.Returns Q E) body.run s

namespace Survives

variable {E : ε → σ → Prop}

theorem pure {a : α} (hI : I s) (h : Q a s) :
    Survives B I (pure a : ExceptT ε (Prog Op Res) α) s Q E := ⟨hI, h⟩

theorem throw {e : ε} (hI : I s) (h : E e s) :
    Survives B I (throw e : ExceptT ε (Prog Op Res) α) s Q E := ⟨hI, h⟩

variable {body : ExceptT ε (Prog Op Res) α} {E' : ε → σ → Prop}

theorem conseq {Q' : α → σ → Prop} (h : Survives B I body s Q E) (hQ : ∀ a t, Q a t → Q' a t)
    (hE : ∀ e t, E e t → E' e t) :
    Survives B I body s Q' E' := by
  refine Prog.Guards.mono (fun _ hI => hI) (fun r t hr => ?_) h
  cases r with
  | ok a => exact hQ a t hr
  | error e => exact hE e t hr

/-- The same with more states on the way. -/
theorem mono {J : σ → Prop} {Q' : α → σ → Prop} (h : Survives B I body s Q E) (hI : ∀ t, I t → J t)
    (hQ : ∀ a t, Q a t → Q' a t) (hE : ∀ e t, E e t → E' e t) : Survives B J body s Q' E' :=
  Prog.Guards.mono hI (fun _ _ hr => hr) (conseq h hQ hE)

theorem lift {p : Prog Op Res α} (h : Prog.Guards B I Q p s) :
    Survives B I (ExceptT.lift p : ExceptT ε (Prog Op Res) α) s Q E :=
  Prog.Guards.map (f := Except.ok) h

theorem bind {R : α → σ → Prop} {Q : β → σ → Prop} {next : α → ExceptT ε (Prog Op Res) β}
    (h : Survives B I body s R E) (hnext : ∀ a t, I t → R a t → Survives B I (next a) t Q E) :
    Survives B I (body >>= next) s Q E := by
  refine Prog.Guards.bind (f := ExceptT.bindCont next) h fun r t hI hr => ?_
  cases r with
  | ok a => exact hnext a t hI hr
  | error e => exact ⟨hI, hr⟩

theorem map {f : α → β} {Q : β → σ → Prop} (h : Survives B I body s (fun a => Q (f a)) E) :
    Survives B I (f <$> body) s Q E := by
  refine Prog.Guards.bind h fun r t hI hr => ?_
  cases r with
  | ok a | error e => exact ⟨hI, hr⟩

/-- One operation. -/
theorem perform {o : Op} {Q : Res o → σ → Prop} (hI : I s)
    (h : ∀ answer s', B o s answer s' → I s' ∧ Q answer s') :
    Survives B I (Body.perform o : ExceptT ε (Prog Op Res) (Res o)) s Q E :=
  lift ⟨hI, h⟩

theorem attempt {R : Except ε α → σ → Prop} (h : Survives B I body s Q E)
    (hok : ∀ a t, Q a t → R (.ok a) t) (herror : ∀ e t, E e t → R (.error e) t) :
    Survives B I (Body.attempt body) s R E' := by
  refine lift (Prog.Guards.mono (fun _ hI => hI) (fun r t hr => ?_) h)
  cases r with
  | ok a => exact hok a t hr
  | error e => exact herror e t hr

theorem ensure {condition : Bool} {err : ε} {Q : Unit → σ → Prop} (hI : I s)
    (hok : condition = true → Q () s) (herror : condition = false → E err s) :
    Survives B I (Body.ensure condition err : ExceptT ε (Prog Op Res) Unit) s Q E := by
  unfold Body.ensure
  cases condition with
  | true => exact ⟨hI, hok rfl⟩
  | false => exact ⟨hI, herror rfl⟩

theorem result {value : Except ε α} (hI : I s) (hok : ∀ a, value = .ok a → Q a s)
    (herror : ∀ e, value = .error e → E e s) :
    Survives B I (Body.result value : ExceptT ε (Prog Op Res) α) s Q E := by
  cases value with
  | ok a => exact ⟨hI, hok a rfl⟩
  | error e => exact ⟨hI, herror e rfl⟩

end Survives

/-! ## The operations of a body -/

/-- All the operations of the body are of one kind. -/
abbrev Body.Uses (A : Op → Prop) (body : ExceptT ε (Prog Op Res) α) : Prop :=
  Prog.Uses A body.run

namespace Body.Uses

variable {A : Op → Prop}

theorem pure (a : α) : Body.Uses A (pure a : ExceptT ε (Prog Op Res) α) := trivial

theorem throw (e : ε) : Body.Uses A (throw e : ExceptT ε (Prog Op Res) α) := trivial

theorem bind {body : ExceptT ε (Prog Op Res) α} {next : α → ExceptT ε (Prog Op Res) β}
    (h : Body.Uses A body) (hnext : ∀ a, Body.Uses A (next a)) : Body.Uses A (body >>= next) := by
  refine Prog.Uses.bind (f := ExceptT.bindCont next) h fun r => ?_
  cases r with
  | ok a => exact hnext a
  | error e => trivial

theorem perform {o : Op} (h : A o) :
    Body.Uses A (Body.perform o : ExceptT ε (Prog Op Res) (Res o)) := ⟨h, fun _ => trivial⟩

theorem attempt {body : ExceptT ε (Prog Op Res) α} (h : Body.Uses A body) :
    Body.Uses A (Body.attempt body) :=
  Prog.Uses.bind (f := fun r => .ret (Except.ok r)) h fun _ => trivial

theorem ensure (condition : Bool) (err : ε) :
    Body.Uses A (Body.ensure condition err : ExceptT ε (Prog Op Res) Unit) := by
  cases condition <;> trivial

theorem result (value : Except ε α) :
    Body.Uses A (Body.result value : ExceptT ε (Prog Op Res) α) := trivial

end Body.Uses

end TosAi.Foundation
