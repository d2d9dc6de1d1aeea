/-
  Checks that fail with an error.

  A Go function of the modelled packages often begins with a row of tests, each with an
  error of its own.  `require` is one of them; the lemmas read off a value that was
  returned that the tests before it have passed.
-/
import Mathlib.Tactic.Basic

set_option autoImplicit false

namespace TosAi.Foundation

variable {ε α β : Type} {condition : Bool} {err : ε}

/-- Fail with the error unless the condition holds. -/
def require (condition : Bool) (err : ε) : Except ε Unit :=
  if condition then .ok () else .error err

@[simp] theorem require_eq_ok_iff {u : Unit} :
    require condition err = .ok u ↔ condition = true := by
  cases condition <;> simp [require]

/-- A value comes out if the condition holds and it comes out of the rest. -/
theorem require_bind_eq_ok {next : Unit → Except ε α} {a : α} :
    (require condition err >>= next) = .ok a ↔ condition = true ∧ next () = .ok a := by
  cases condition with
  | true => exact ⟨fun h => ⟨rfl, h⟩, fun h => h.2⟩
  | false => exact ⟨(fun h => by cases h), fun h => Bool.noConfusion h.1⟩

theorem bind_eq_ok {x : Except ε α} {f : α → Except ε β} {b : β} (h : (x >>= f) = .ok b) :
    ∃ a, x = .ok a ∧ f a = .ok b := by
  cases x with
  | error e => cases h
  | ok a => exact ⟨a, rfl, h⟩

theorem seq_eq_ok_iff {first : Except ε Unit} {rest : Except ε α} {value : α} :
    (first >>= fun _ => rest) = .ok value ↔ first = .ok () ∧ rest = .ok value := by
  cases first with
  | error e | ok u => simp [bind, Except.bind]

end TosAi.Foundation
