/-
  What runs under the mutex.

  A body that only reads waits for nobody, so where nothing fails it comes to its end, and a
  method around it does once it gets the mutex.
-/
import TosAi.PrivateIngress.Methods

set_option autoImplicit false

namespace TosAi.PrivateIngress

open Foundation
open Foundation.Body (Uses)

variable {P : Protocol} {cfg : Config} {F : Faults P} {c : Nat} {s : Site}

/-- Reading is among the operations. -/
structure Reading (A : Op → Prop) : Prop where
  file : ∀ n, A (.file (.read n))
  directory : A (.file .readDir)

section Readers

variable {A : Op → Prop} (hA : Reading A)

include hA

theorem uses_readFile (n : FileName) : Uses A (readFile n : Ingress P File) := by
  refine .bind (.perform (hA.file n)) fun answer => ?_
  cases answer with
  | ok _ => exact .pure _
  | error _ => exact .throw _

theorem uses_openLocked (record : Accepted) : Uses A (openLocked P record) := by
  unfold openLocked
  refine .bind (.ensure _ _) fun _ => .bind (.attempt (uses_readFile hA _)) fun value => ?_
  cases value with
  | ok _ => exact .bind (.ensure _ _) fun _ => .bind (.ensure _ _) fun _ => .pure _
  | error _ => exact .throw _

theorem uses_acknowledgeLocked (hkey : A .signingKey) (record : Accepted) :
    Uses A (acknowledgeLocked P cfg record) :=
  .bind (uses_openLocked hA record) fun _ => .bind (.perform hkey) fun _ => .result _

end Readers

/-! ## Coming to the end -/

/-- An operation that waits for nobody and does not ask for the circumstances. -/
def Op.Plain (o : Op) : Prop := o ≠ .lockMutex ∧ o ≠ .circumstances

theorem reading_plain : Reading Op.Plain :=
  ⟨fun _ => ⟨(fun h => nomatch h), fun h => nomatch h⟩, (fun h => nomatch h), fun h => nomatch h⟩

/-- Such an operation has an outcome in which nothing fails. -/
theorem exists_healthy {o : Op} (s : Site) (hplain : o.Plain) :
    ∃ answer s', behave (Op.healthy P) c o s answer s' := by
  obtain ⟨hwait, hseen⟩ := hplain
  have hchoose : ∃ r, o.choose (⟨none, List.replicate 32 0, [], rfl⟩ : Given P) c s = some r := by
    cases o with
    | circumstances => exact absurd rfl hseen
    | lockMutex => exact absurd rfl hwait
    | _ => exact ⟨_, rfl⟩
  obtain ⟨r, hr⟩ := hchoose
  exact ⟨r.1, r.2, behave_choose _ hr⟩

/-- A call of its own: the mutex is free, the body ends, and the mutex is free again. -/
theorem ends_locked {α : Type} {body : Ingress P α} {Q : α → Site → Prop} {E : Err → Site → Prop}
    (hF : ∀ s, F .lockMutex s () ∧ F .unlockMutex s ()) (hfree : s.mu = none)
    (hbody : Ends (behave F c) body { s with mu := some c }
      (fun a t => Q a { t with mu := none }) fun e t => E e { t with mu := none }) :
    Ends (behave F c) (locked body) s Q E := by
  unfold locked
  refine .bind (R := fun _ t => t = { s with mu := some c }) (.call ?_ ?_) ?_
  · exact ⟨(), _, ⟨hfree, rfl⟩, (hF s).1⟩
  · intro _ t ⟨⟨_, hsame⟩, _⟩
    exact hsame
  intro _ t hsame
  subst hsame
  refine .bind (R := fun value t => Discipline.Returns Q E value { t with mu := none })
    (.lift (Prog.Always.mono ?_ hbody)) ?_
  · intro value t hvalue
    cases value with
    | ok a | error e => exact hvalue
  intro value t hvalue
  refine .bind (R := fun _ u => u = { t with mu := none }) (.call ?_ ?_) ?_
  · exact ⟨(), _, rfl, (hF t).2⟩
  · intro _ u ⟨hop, _⟩
    exact hop
  intro _ u hsame
  subst hsame
  cases value with
  | ok a | error e => exact hvalue

/-- A method of an open store: past the test, and then under the mutex. -/
theorem ends_guarded {α : Type} {condition : Bool} {err : Err} {body : Ingress P α}
    {Q : α → Site → Prop} {E : Err → Site → Prop}
    (hF : ∀ s, F .lockHeld s s.lock ∧ F .lockMutex s () ∧ F .unlockMutex s ())
    (hfree : s.mu = none) (hrefused : (s.lock && condition) = false → E err s)
    (hbody : (s.lock && condition) = true → Ends (behave F c) body { s with mu := some c }
      (fun a t => Q a { t with mu := none }) fun e t => E e { t with mu := none }) :
    Ends (behave F c) (guarded condition err body) s Q E := by
  unfold guarded
  refine .bind (R := fun held t => t = s ∧ held = s.lock) (.call ?_ ?_) ?_
  · exact ⟨s.lock, s, ⟨rfl, rfl⟩, (hF s).1⟩
  · intro held t ⟨⟨hheld, hsame⟩, _⟩
    exact ⟨hsame, hheld⟩
  intro held t ⟨hsame, hheld⟩
  subst hsame hheld
  cases hcondition : t.lock && condition with
  | false => exact hrefused hcondition
  | true => exact ends_locked (fun s => (hF s).2) hfree (hbody hcondition)

end TosAi.PrivateIngress
