/-
  The history of a run.

  What a run did is not in the state it ends in: the clock readings, the answers of
  the outside, the order of things.  `Machine.recorded` is the same machine with a
  ghost beside its state, the list of the operations performed so far, each with its
  call, its answer and the states around it.  The ghost is never looked at, so the
  runs are those of the machine (`Machine.Run.recorded`); a statement about what
  came before what is a statement about the list.
-/
import TosAi.Foundation.Alone

set_option autoImplicit false

namespace TosAi.Foundation

variable {Op : Type} {Res : Op → Type} {σ Out α : Type}

/-- One operation of a run. -/
structure Event (Op : Type) (Res : Op → Type) (σ : Type) where
  call : Nat
  op : Op
  answer : Res op
  before : σ
  after : σ

/-- A state and what led to it, the oldest first. -/
structure Recorded (Op : Type) (Res : Op → Type) (σ : Type) where
  state : σ
  history : List (Event Op Res σ)

/-- The operation was performed by the call and answered so. -/
def Did (history : List (Event Op Res σ)) (c : Nat) (o : Op) (answer : Res o) : Prop :=
  ∃ before after, ⟨c, o, answer, before, after⟩ ∈ history

theorem Did.mono {h h' : List (Event Op Res σ)} {c : Nat} {o : Op} {answer : Res o}
    (hsub : h <+: h') (hdid : Did h c o answer) : Did h' c o answer := by
  obtain ⟨before, after, hmem⟩ := hdid
  exact ⟨before, after, hsub.subset hmem⟩

/-- The machine with its history. -/
def Machine.recorded (M : Machine Op Res σ Out) : Machine Op Res (Recorded Op Res σ) Out where
  apply := fun c o r answer r' => M.apply c o r.state answer r'.state ∧
    r'.history = r.history ++ [⟨c, o, answer, r.state, r'.state⟩]
  start := fun c p r r' => M.start c p r.state r'.state ∧ r'.history = r.history
  finish := fun c out r => { r with state := M.finish c out r.state }
  env := fun dead r r' => M.env dead r.state r'.state ∧ r'.history = r.history

/-- A configuration with a history. -/
def Config.recorded (cfg : Config Op Res σ Out) (history : List (Event Op Res σ)) :
    Config Op Res (Recorded Op Res σ) Out :=
  ⟨⟨cfg.shared, history⟩, cfg.pool⟩

/-- The behaviour `B` of call `c`, recorded. -/
def Recorded.behaviour (c : Nat) (B : (o : Op) → σ → Res o → σ → Prop) (o : Op)
    (r : Recorded Op Res σ) (answer : Res o) (r' : Recorded Op Res σ) : Prop :=
  B o r.state answer r'.state ∧ r'.history = r.history ++ [⟨c, o, answer, r.state, r'.state⟩]

/-- What a call does by itself, recorded: the new part of the history is all within
the behaviour. -/
theorem Prog.Steps.recorded {B : (o : Op) → σ → Res o → σ → Prop} {p q : Prog Op Res α} {s t : σ}
    (c : Nat) (hsteps : Prog.Steps B p s q t) (history : List (Event Op Res σ)) :
    ∃ new, Prog.Steps (Recorded.behaviour c B) p ⟨s, history⟩ q ⟨t, history ++ new⟩ ∧
      ∀ event ∈ new, B event.op event.before event.answer event.after := by
  induction hsteps generalizing history with
  | refl p s =>
    refine ⟨[], ?_, fun _ h => nomatch h⟩
    rw [List.append_nil]
    exact .refl _ _
  | @op o next answer s s' t q hop _ ih =>
    obtain ⟨new, hsteps, hnew⟩ := ih (history ++ [⟨c, o, answer, s, s'⟩])
    refine ⟨⟨c, o, answer, s, s'⟩ :: new, ?_, ?_⟩
    · rw [List.append_assoc, List.singleton_append] at hsteps
      exact .op ⟨hop, rfl⟩ hsteps
    · intro event hevent
      rcases List.mem_cons.mp hevent with rfl | hevent
      · exact hop
      · exact hnew event hevent

end TosAi.Foundation
