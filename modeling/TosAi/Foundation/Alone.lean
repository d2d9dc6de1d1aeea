/-
  A program that runs on its own.

  `Always B Q p s` is total correctness: from `s` the program is never stuck, and
  however the operations turn out within the behaviour `B`, it ends with `Q`.
  Programs are finite trees, so nothing needs to be said about termination.

  `Steps` is a piece of such an execution.  `Machine.Run.steps` lets the piece be
  part of a run in which other calls have stopped somewhere, so a run of several
  calls is put together from what each of them does alone.  `Pauses` is such a stop:
  a program that comes to some point and can be resumed there in another state.
-/
import TosAi.Foundation.Rely

set_option autoImplicit false

namespace TosAi.Foundation

open Relation

variable {Op : Type} {Res : Op → Type} {σ Out α β ε : Type} {B : (o : Op) → σ → Res o → σ → Prop}

namespace Prog

/-- From `s` the program is never stuck and ends with `Q`. -/
def Always (B : (o : Op) → σ → Res o → σ → Prop) (Q : α → σ → Prop) : Prog Op Res α → σ → Prop
  | .ret value, s => Q value s
  | .op o next, s => (∃ answer s', B o s answer s') ∧
      ∀ answer s', B o s answer s' → Always B Q (next answer) s'

/-- A piece of an execution. -/
inductive Steps (B : (o : Op) → σ → Res o → σ → Prop) :
    Prog Op Res α → σ → Prog Op Res α → σ → Prop where
  | refl (p : Prog Op Res α) (s : σ) : Steps B p s p s
  | op {o : Op} {next : Res o → Prog Op Res α} {answer : Res o} {s s' t : σ} {q : Prog Op Res α}
      (hop : B o s answer s') (hrest : Steps B (next answer) s' q t) : Steps B (.op o next) s q t

variable {p q : Prog Op Res α} {s t : σ} {Q R : α → σ → Prop} {f : α → Prog Op Res β}

theorem Always.mono (hQR : ∀ a s, Q a s → R a s) (h : Always B Q p s) :
    Always B R p s := by
  induction p generalizing s with
  | ret value => exact hQR _ _ h
  | op o next ih => exact ⟨h.1, fun answer s' hop => ih answer (h.2 answer s' hop)⟩

/-- Two things that always come out come out together. -/
theorem Always.and (hQ : Always B Q p s) (hR : Always B R p s) :
    Always B (fun a t => Q a t ∧ R a t) p s := by
  induction p generalizing s with
  | ret value => exact ⟨hQ, hR⟩
  | op o next ih =>
    exact ⟨hQ.1, fun answer s' hop => ih answer (hQ.2 answer s' hop) (hR.2 answer s' hop)⟩

theorem Always.bind {Q : β → σ → Prop} (hp : Always B R p s)
    (hf : ∀ a t, R a t → Always B Q (f a) t) : Always B Q (p >>= f) s := by
  induction p generalizing s with
  | ret value => exact hf value s hp
  | op o next ih => exact ⟨hp.1, fun answer s' hop => ih answer (hp.2 answer s' hop)⟩

theorem Always.map {Q : β → σ → Prop} {f : α → β} (h : Always B (fun a => Q (f a)) p s) :
    Always B Q (f <$> p) s :=
  Always.bind (f := fun a => .ret (f a)) h fun _ _ hQ => hQ

/-- What always comes out comes out of some execution. -/
theorem Always.steps (h : Always B Q p s) :
    ∃ value t, Steps B p s (.ret value) t ∧ Q value t := by
  induction p generalizing s with
  | ret value => exact ⟨value, s, .refl _ s, h⟩
  | op o next ih =>
    obtain ⟨⟨answer, s', hop⟩, hrest⟩ := h
    obtain ⟨value, t, hsteps, hQ⟩ := ih answer (hrest answer s' hop)
    exact ⟨value, t, .op hop hsteps, hQ⟩

theorem Steps.trans {r : Prog Op Res α} {s u : σ} (h : Steps B p s q t) (h' : Steps B q t r u) :
    Steps B p s r u := by
  induction h with
  | refl => exact h'
  | op hop _ ih => exact .op hop (ih h')

/-- A program that has something to do comes to its value with an operation. -/
theorem Steps.last {value : α} (h : Steps B p s (.ret value) t) (hp : ∀ a, p ≠ .ret a) :
    ∃ o next answer u, Steps B p s (.op o next) u ∧ B o u answer t ∧ next answer = .ret value := by
  generalize hq : Prog.ret value = q at h
  induction h with
  | refl => exact absurd hq.symm (hp value)
  | @op o next answer s s' t q hop hrest ih =>
    cases hnext : next answer with
    | ret a =>
      rw [hnext] at hrest
      subst hq
      cases hrest
      exact ⟨o, next, answer, s, .refl _ _, hop, hnext⟩
    | op o' next' =>
      obtain ⟨o₁, next₁, answer₁, u, hsteps, hlast⟩ := ih (fun a h => nomatch hnext.symm.trans h) hq
      exact ⟨o₁, next₁, answer₁, u, .op hop hsteps, hlast⟩

/-- More ways for the operations to turn out. -/
theorem Steps.mono {B' : (o : Op) → σ → Res o → σ → Prop}
    (hB : ∀ o s answer s', B o s answer s' → B' o s answer s') (h : Steps B p s q t) :
    Steps B' p s q t := by
  induction h with
  | refl => exact .refl _ _
  | op hop _ ih => exact .op (hB _ _ _ _ hop) ih

theorem Steps.bind (h : Steps B p s q t) (f : α → Prog Op Res β) :
    Steps B (p >>= f) s (q >>= f) t := by
  induction h with
  | refl => exact .refl _ _
  | op hop _ ih => exact .op hop ih

theorem Steps.keeps {A : σ → Prop} (hA : ∀ o s answer s', B o s answer s' → A s → A s')
    (h : Steps B p s q t) (hs : A s) : A t := by
  induction h with
  | refl => exact hs
  | op hop _ ih => exact ih (hA _ _ _ _ hop hs)

/-- The program comes to a point with `R`; resumed there in any state with `K` it
ends with `Q`. -/
def Pauses (B : (o : Op) → σ → Res o → σ → Prop) (Q : α → σ → Prop) (R K : σ → Prop)
    (p : Prog Op Res α) (s : σ) : Prop :=
  ∃ q t, Steps B p s q t ∧ R t ∧ ∀ u, K u → Always B Q q u

/-- The stop is in the first part. -/
theorem Pauses.within {Q' : α → σ → Prop} {Q : β → σ → Prop} {R K : σ → Prop}
    (hp : Pauses B Q' R K p s) (hf : ∀ a t, Q' a t → Always B Q (f a) t) :
    Pauses B Q R K (p >>= f) s := by
  obtain ⟨q, t, hsteps, hR, hrest⟩ := hp
  exact ⟨q >>= f, t, hsteps.bind f, hR, fun u hu => (hrest u hu).bind hf⟩

/-- The stop is in the second part. -/
theorem Pauses.after {Q' : α → σ → Prop} {Q : β → σ → Prop} {R K : σ → Prop}
    (hp : Always B Q' p s) (hf : ∀ a t, Q' a t → Pauses B Q R K (f a) t) :
    Pauses B Q R K (p >>= f) s := by
  obtain ⟨a, t, hsteps, ha⟩ := hp.steps
  obtain ⟨q, u, hsteps', hR, hrest⟩ := hf a t ha
  exact ⟨q, u, (hsteps.bind f).trans hsteps', hR, hrest⟩

end Prog

/-! ## As part of a run -/

section Runs

variable {M : Machine Op Res σ Out} {A : σ → Prop} {c : Nat}

/-- A call in flight goes on by itself. -/
theorem Machine.Run.steps (hB : ∀ o s answer s', B o s answer s' → M.apply c o s answer s')
    (hA : ∀ o s answer s', B o s answer s' → A s → A s') {p q : Prog Op Res Out} {s t : σ}
    (hsteps : Prog.Steps B p s q t) :
    ∀ {pool : Nat → Option (Prog Op Res Out)}, pool c = some p → A s →
      M.Run A ⟨s, pool⟩ ⟨t, Function.update pool c (some q)⟩ := by
  induction hsteps with
  | refl p s =>
    intro pool hpool _
    rw [← hpool, Function.update_eq_self]
    exact .refl
  | @op o next answer s s' t q hop _ ih =>
    intro pool hpool hs
    have hs' := hA o s answer s' hop hs
    have hrest := @ih (Function.update pool c (some (next answer)))
      (Function.update_self _ _ _) hs'
    rw [Function.update_idem] at hrest
    exact .head ⟨.act hpool (hB o s answer s' hop), hs'⟩ hrest

end Runs

/-! ## Programs that may fail -/

section Errors

variable {body : ExceptT ε (Prog Op Res) α} {next : α → ExceptT ε (Prog Op Res) β}
  {Q : α → σ → Prop} {E : ε → σ → Prop} {s : σ}

/-- The body, run on its own, ends with `Q` of its value or `E` of its error. -/
abbrev Ends (B : (o : Op) → σ → Res o → σ → Prop) (body : ExceptT ε (Prog Op Res) α) (s : σ)
    (Q : α → σ → Prop) (E : ε → σ → Prop) : Prop :=
  Prog.Always B (Discipline.Returns Q E) body.run s

namespace Ends

theorem pure {a : α} (h : Q a s) : Ends B (pure a : ExceptT ε (Prog Op Res) α) s Q E := h

theorem throw {e : ε} (h : E e s) : Ends B (throw e : ExceptT ε (Prog Op Res) α) s Q E := h

theorem conseq {Q' : α → σ → Prop} {E' : ε → σ → Prop} (h : Ends B body s Q E)
    (hQ : ∀ a t, Q a t → Q' a t) (hE : ∀ e t, E e t → E' e t) :
    Ends B body s Q' E' := by
  refine Prog.Always.mono (fun r t hr => ?_) h
  cases r with
  | ok a => exact hQ a t hr
  | error e => exact hE e t hr

theorem lift {p : Prog Op Res α} (h : Prog.Always B Q p s) :
    Ends B (ExceptT.lift p : ExceptT ε (Prog Op Res) α) s Q E :=
  Prog.Always.map (f := Except.ok) h

theorem bind {R : α → σ → Prop} {Q : β → σ → Prop}
    (h : Ends B body s R E) (hnext : ∀ a t, R a t → Ends B (next a) t Q E) :
    Ends B (body >>= next) s Q E := by
  refine Prog.Always.bind (f := ExceptT.bindCont next) h fun r t hr => ?_
  cases r with
  | ok a => exact hnext a t hr
  | error e => exact hr

theorem map {f : α → β} {Q : β → σ → Prop} (h : Ends B body s (fun a => Q (f a)) E) :
    Ends B (f <$> body) s Q E := by
  refine Prog.Always.bind h fun r t hr => ?_
  cases r with
  | ok a | error e => exact hr

/-- The same with the rest as what the first part has to establish. -/
theorem chain {Q : β → σ → Prop}
    (h : Ends B body s (fun a t => Ends B (next a) t Q E) E) : Ends B (body >>= next) s Q E :=
  bind h fun _ _ hnext => hnext

/-- One operation. -/
theorem call {o : Op} {Q : Res o → σ → Prop} (hsome : ∃ answer s', B o s answer s')
    (h : ∀ answer s', B o s answer s' → Q answer s') :
    Ends B (ExceptT.lift (Prog.call o) : ExceptT ε (Prog Op Res) (Res o)) s Q E :=
  lift ⟨hsome, h⟩

/-- A body does not both end well and fail. -/
theorem not_both (hok : Ends B body s Q fun _ _ => False)
    (herror : Ends B body s (fun _ _ => False) E) :
    False := by
  obtain ⟨r, t, -, hr, hr'⟩ := (Prog.Always.and hok herror).steps
  cases r with
  | ok a => exact hr'
  | error e => exact hr

end Ends

/-- The body comes to a point with `R`; resumed there in any state with `K` it ends
with `Q` or `E`. -/
abbrev Halts (B : (o : Op) → σ → Res o → σ → Prop) (body : ExceptT ε (Prog Op Res) α) (s : σ)
    (R K : σ → Prop) (Q : α → σ → Prop) (E : ε → σ → Prop) : Prop :=
  Prog.Pauses B (Discipline.Returns Q E) R K body.run s

namespace Halts

variable {R K : σ → Prop}

/-- Here. -/
theorem here (hR : R s) (hrest : ∀ u, K u → Ends B body u Q E) : Halts B body s R K Q E :=
  ⟨_, s, .refl _ s, hR, hrest⟩

theorem within {Q : β → σ → Prop} (h : Halts B body s R K (fun a t => Ends B (next a) t Q E) E) :
    Halts B (body >>= next) s R K Q E := by
  refine Prog.Pauses.within (f := ExceptT.bindCont next) h fun r t hr => ?_
  cases r with
  | ok a => exact hr
  | error e => exact hr

theorem chain {Q : β → σ → Prop}
    (h : Ends B body s (fun a t => Halts B (next a) t R K Q E) fun _ _ => False) :
    Halts B (body >>= next) s R K Q E := by
  refine Prog.Pauses.after (f := ExceptT.bindCont next) h fun r t hr => ?_
  cases r with
  | ok a => exact hr
  | error e => exact hr.elim

theorem lift {p : Prog Op Res α} (h : Prog.Pauses B Q R K p s) :
    Halts B (ExceptT.lift p : ExceptT ε (Prog Op Res) α) s R K Q E :=
  Prog.Pauses.within (f := fun a => .ret (Except.ok a)) h fun _ _ hQ => hQ

end Halts

/-! ## Some execution -/

/-- The body has an execution that ends with a value, and with `Q` of it. -/
def Reaches (B : (o : Op) → σ → Res o → σ → Prop) (body : ExceptT ε (Prog Op Res) α) (s : σ)
    (Q : α → σ → Prop) : Prop :=
  ∃ a t, Prog.Steps B body.run s (.ret (.ok a)) t ∧ Q a t

namespace Reaches

theorem pure {a : α} (h : Q a s) : Reaches B (pure a : ExceptT ε (Prog Op Res) α) s Q :=
  ⟨a, s, .refl _ s, h⟩

theorem bind {R : α → σ → Prop} {Q : β → σ → Prop} (h : Reaches B body s R)
    (hnext : ∀ a t, R a t → Reaches B (next a) t Q) : Reaches B (body >>= next) s Q := by
  obtain ⟨a, t, hsteps, ha⟩ := h
  obtain ⟨b, u, hsteps', hb⟩ := hnext a t ha
  exact ⟨b, u, (hsteps.bind (ExceptT.bindCont next)).trans hsteps', hb⟩

/-- One operation, with an answer of one's choice. -/
theorem call {o : Op} {Q : Res o → σ → Prop} {answer : Res o} {s' : σ} (hop : B o s answer s')
    (h : Q answer s') :
    Reaches B (ExceptT.lift (Prog.call o) : ExceptT ε (Prog Op Res) (Res o)) s Q :=
  ⟨answer, s', .op hop (.refl _ s'), h⟩

/-- An error may be kept as a value. -/
theorem attempt {R : Except ε α → σ → Prop} (h : Reaches B body s fun a t => R (.ok a) t) :
    Reaches B (ExceptT.lift body.run : ExceptT ε (Prog Op Res) (Except ε α)) s R := by
  obtain ⟨a, t, hsteps, ha⟩ := h
  exact ⟨.ok a, t, hsteps.bind fun value => .ret (Except.ok value), ha⟩

end Reaches

end Errors

end TosAi.Foundation
