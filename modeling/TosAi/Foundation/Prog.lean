/-
  Programs over abstract operations, and the interleaving of many of them.

  A program is a finite tree: it returns, or it performs one operation and goes
  on with the answer.  What an operation does is not part of the syntax; it is
  a relation of the `Machine`, so one program text can be run alone, run against
  failures, interleaved with others, or cut by a crash.

  A `Config` is a shared state together with the calls in flight, each at the
  program it still has to run.  One `Step` is one operation of one call, the
  start or the return of a call, or a move of the environment that may kill
  calls.
-/
import Mathlib.Logic.Relation
import Mathlib.Logic.Function.Basic

set_option autoImplicit false

namespace TosAi.Foundation

/-! ## Programs -/

/-- A program over the operations `Op`, where `o` answers a value of `Res o`. -/
inductive Prog (Op : Type) (Res : Op → Type) (α : Type) : Type where
  | ret (value : α)
  | op (o : Op) (next : Res o → Prog Op Res α)

namespace Prog

variable {Op : Type} {Res : Op → Type} {α β γ : Type}

/-- Run `p`, then the program its value selects. -/
def bind : Prog Op Res α → (α → Prog Op Res β) → Prog Op Res β
  | .ret value, next => next value
  | .op o rest, next => .op o fun answer => (rest answer).bind next

instance : Monad (Prog Op Res) where
  pure := .ret
  bind := bind

/-- The program that performs one operation and returns its answer. -/
def call (o : Op) : Prog Op Res (Res o) := .op o .ret

end Prog

/-! ## Machines, configurations and steps -/

/-- What the operations mean, how calls begin and end, and what the environment
may do.  Calls are numbered; `env dead` is a move after which no call of `dead`
is left. -/
structure Machine (Op : Type) (Res : Op → Type) (σ Out : Type) where
  /-- `apply c o s answer s'`: call `c` performs `o` in `s`. -/
  apply : Nat → (o : Op) → σ → Res o → σ → Prop
  /-- `start c p s s'`: a call running `p` may begin under the number `c`. -/
  start : Nat → Prog Op Res Out → σ → σ → Prop
  /-- What returning a value does to the shared state. -/
  finish : Nat → Out → σ → σ
  /-- A move of the environment that kills the calls of the given set. -/
  env : (Nat → Prop) → σ → σ → Prop

/-- A shared state and the calls in flight. -/
structure Config (Op : Type) (Res : Op → Type) (σ Out : Type) where
  shared : σ
  pool : Nat → Option (Prog Op Res Out)

section Steps

variable {Op : Type} {Res : Op → Type} {σ Out : Type}

open Classical in
/-- The calls left once the environment has killed those of `dead`. -/
noncomputable def survivors (dead : Nat → Prop) (pool : Nat → Option (Prog Op Res Out)) :
    Nat → Option (Prog Op Res Out) :=
  fun c => if dead c then none else pool c

/-- One step of the interleaving. -/
inductive Machine.Step (M : Machine Op Res σ Out) :
    Config Op Res σ Out → Config Op Res σ Out → Prop where
  | start {s s' : σ} {pool : Nat → Option (Prog Op Res Out)} {c : Nat}
      {p : Prog Op Res Out} (hidle : pool c = none) (hstart : M.start c p s s') :
      M.Step ⟨s, pool⟩ ⟨s', Function.update pool c (some p)⟩
  | act {s s' : σ} {pool : Nat → Option (Prog Op Res Out)} {c : Nat} {o : Op}
      {next : Res o → Prog Op Res Out} {answer : Res o}
      (hpool : pool c = some (.op o next)) (happly : M.apply c o s answer s') :
      M.Step ⟨s, pool⟩ ⟨s', Function.update pool c (some (next answer))⟩
  | finish {s : σ} {pool : Nat → Option (Prog Op Res Out)} {c : Nat} {out : Out}
      (hpool : pool c = some (.ret out)) :
      M.Step ⟨s, pool⟩ ⟨M.finish c out s, Function.update pool c none⟩
  | env {s s' : σ} {pool : Nat → Option (Prog Op Res Out)} {dead : Nat → Prop}
      (henv : M.env dead s s') :
      M.Step ⟨s, pool⟩ ⟨s', survivors dead pool⟩

/-- A run: steps one after another, every state reached satisfying `A`.  With
`A` constantly true these are all runs of the machine. -/
def Machine.Run (M : Machine Op Res σ Out) (A : σ → Prop) :
    Config Op Res σ Out → Config Op Res σ Out → Prop :=
  Relation.ReflTransGen fun c c' => M.Step c c' ∧ A c'.shared

theorem Machine.Run.trans {M : Machine Op Res σ Out} {A : σ → Prop}
    {c c' c'' : Config Op Res σ Out} (h : M.Run A c c') (h' : M.Run A c' c'') : M.Run A c c'' :=
  Relation.ReflTransGen.trans h h'

theorem Machine.Run.mono {M : Machine Op Res σ Out} {A B : σ → Prop}
    (hAB : ∀ s, A s → B s) {c c' : Config Op Res σ Out} (hrun : M.Run A c c') :
    M.Run B c c' := by
  induction hrun with
  | refl => exact .refl
  | tail _ hstep ih => exact ih.tail ⟨hstep.1, hAB _ hstep.2⟩

end Steps

end TosAi.Foundation
