/-
  Calls that run side by side, by the places they have come to.

  A `Pool` is a shared state and the place of every call.  One step moves one call, as the
  relation `moves` of a component says, so what a component guarantees for every
  interleaving is what every move of every call keeps.  The counters of a component
  (a wait group, the slots of a channel) are compared with the calls that stand at
  certain places: `Counts`.
-/
import Mathlib.Logic.Relation
import Mathlib.Logic.Function.Basic
import Mathlib.Data.Finset.Card

set_option autoImplicit false

namespace TosAi.Foundation

/-- `sync.Once`: its function has not been called, is running, or has returned. -/
inductive Once where
  | idle
  | running
  | done
  deriving DecidableEq, Repr

/-! ## Counting calls -/

/-- There are `n` calls with the property. -/
def Counts (n : Nat) (P : Nat → Prop) : Prop :=
  ∃ calls : Finset Nat, calls.card = n ∧ ∀ c, c ∈ calls ↔ P c

namespace Counts

variable {n : Nat} {P Q : Nat → Prop}

theorem none (h : ∀ c, ¬P c) : Counts 0 P :=
  ⟨∅, rfl, fun c => iff_of_false (Finset.notMem_empty c) (h c)⟩

theorem congr (h : Counts n P) (hPQ : ∀ c, P c ↔ Q c) : Counts n Q := by
  obtain ⟨calls, hcard, hcalls⟩ := h
  exact ⟨calls, hcard, fun c => (hcalls c).trans (hPQ c)⟩

/-- One more call has the property. -/
theorem enter (h : Counts n P) {c : Nat} (hc : ¬P c) (hQc : Q c) (hPQ : ∀ d, d ≠ c → (P d ↔ Q d)) :
    Counts (n + 1) Q := by
  obtain ⟨calls, rfl, hcalls⟩ := h
  refine ⟨insert c calls, Finset.card_insert_of_notMem fun hmem => hc ((hcalls c).mp hmem), ?_⟩
  intro d
  rw [Finset.mem_insert, hcalls]
  by_cases hd : d = c
  · subst hd
    exact iff_of_true (.inl rfl) hQc
  · rw [← hPQ d hd]
    exact or_iff_right hd

/-- One call has the property no longer. -/
theorem leave (h : Counts n P) {c : Nat} (hc : P c) (hQc : ¬Q c) (hPQ : ∀ d, d ≠ c → (P d ↔ Q d)) :
    Counts (n - 1) Q := by
  obtain ⟨calls, rfl, hcalls⟩ := h
  refine ⟨calls.erase c, Finset.card_erase_of_mem ((hcalls c).mpr hc), ?_⟩
  intro d
  rw [Finset.mem_erase, hcalls]
  by_cases hd : d = c
  · subst hd
    exact iff_of_false (fun hmem => hmem.1 rfl) hQc
  · rw [← hPQ d hd]
    exact and_iff_right hd

theorem pos (h : Counts n P) {c : Nat} (hc : P c) : 0 < n := by
  obtain ⟨calls, rfl, hcalls⟩ := h
  exact Finset.card_pos.mpr ⟨c, (hcalls c).mpr hc⟩

theorem eq_zero (h : Counts n P) (hnone : ∀ c, ¬P c) : n = 0 := by
  obtain ⟨calls, rfl, hcalls⟩ := h
  rw [Finset.card_eq_zero, Finset.eq_empty_iff_forall_notMem]
  exact fun c hc => hnone c ((hcalls c).mp hc)

/-- Calls with the property are at most so many. -/
theorem card_le (h : Counts n P) {calls : Finset Nat} (hcalls : ∀ c ∈ calls, P c) :
    calls.card ≤ n := by
  obtain ⟨all, rfl, hall⟩ := h
  exact Finset.card_le_card fun c hc => (hall c).mpr (hcalls c hc)

/-- Things that calls with the property have, each one thing at most, are at most so many. -/
theorem card_le_of_owner {α : Type} [DecidableEq α] (h : Counts n P) {things : Finset α}
    (owns : Nat → Option α) (hthings : ∀ a ∈ things, ∃ c, P c ∧ owns c = some a) :
    things.card ≤ n := by
  obtain ⟨all, rfl, hall⟩ := h
  have hsubset : things.image some ⊆ all.image owns := by
    intro o ho
    obtain ⟨a, ha, rfl⟩ := Finset.mem_image.mp ho
    obtain ⟨c, hc, howns⟩ := hthings a ha
    exact Finset.mem_image.mpr ⟨c, (hall c).mpr hc, howns⟩
  calc things.card = (things.image some).card :=
        (Finset.card_image_of_injective things (Option.some_injective α)).symm
    _ ≤ (all.image owns).card := Finset.card_le_card hsubset
    _ ≤ all.card := Finset.card_image_le

end Counts

/-! ## Pools -/

structure Pool (σ Place : Type) where
  shared : σ
  place : Nat → Place

namespace Pool

variable {σ Place : Type} {moves : Nat → σ → Place → σ → Place → Prop}

/-- The pool after a move of one call. -/
def move (x : Pool σ Place) (c : Nat) (s : σ) (p : Place) : Pool σ Place :=
  ⟨s, Function.update x.place c p⟩

@[simp] theorem shared_move (x : Pool σ Place) (c : Nat) (s : σ) (p : Place) :
    (x.move c s p).shared = s := rfl

@[simp] theorem place_move_self (x : Pool σ Place) (c : Nat) (s : σ) (p : Place) :
    (x.move c s p).place c = p := by
  simp only [move, Function.update_self]

variable {c : Nat} {x y : Pool σ Place} {s : σ} {p : Place}

theorem place_move_of_ne (x : Pool σ Place) {d : Nat} (h : d ≠ c) (s : σ) (p : Place) :
    (x.move c s p).place d = x.place d := by
  simp only [move, Function.update_of_ne h]

/-- One call moves. -/
inductive Step (moves : Nat → σ → Place → σ → Place → Prop) :
    Pool σ Place → Pool σ Place → Prop where
  | move {x : Pool σ Place} {c : Nat} {s : σ} {p : Place} (h : moves c x.shared (x.place c) s p) :
      Step moves x (x.move c s p)

/-- The second pool is reached from the first by moves of the calls, in any order. -/
def Reaches (moves : Nat → σ → Place → σ → Place → Prop) : Pool σ Place → Pool σ Place → Prop :=
  Relation.ReflTransGen (Step moves)

theorem Reaches.move (h : Reaches moves x y) {q : Place} (hplace : y.place c = p)
    (hmoves : moves c y.shared p s q) : Reaches moves x (y.move c s q) := by
  subst hplace
  exact h.tail (.move hmoves)

/-- What every move keeps holds in every pool that is reached. -/
theorem Reaches.invariant {I : Pool σ Place → Prop}
    (hmove : ∀ x c s p, I x → moves c x.shared (x.place c) s p → I (x.move c s p))
    (h : Reaches moves x y) (hx : I x) : I y := by
  induction h with
  | refl => exact hx
  | tail _ hstep ih =>
    cases hstep with
    | move hmoves => exact hmove _ _ _ _ ih hmoves

/-- One call moves and the others do not. -/
def Alone (moves : Nat → σ → Place → σ → Place → Prop) (c : Nat) : σ × Place → σ × Place → Prop :=
  Relation.ReflTransGen fun a b => moves c a.1 a.2 b.1 b.2

/-- What a call does alone it may do in a pool. -/
theorem Reaches.alone (h : Reaches moves x y)
    (halone : Alone moves c (y.shared, y.place c) (s, p)) : Reaches moves x (y.move c s p) := by
  have hall : ∀ b, Alone moves c (y.shared, y.place c) b → Reaches moves x (y.move c b.1 b.2) := by
    intro b hb
    induction hb with
    | refl =>
      rw [Pool.move, Function.update_eq_self]
      exact h
    | tail _ hstep ih =>
      have hnext := ih.move (place_move_self ..) hstep
      rwa [Pool.move, Pool.move, Function.update_idem] at hnext
  exact hall _ halone

/-- Whatever the call does alone, it comes to `goal`, unless it takes a step that `leaves`. -/
inductive Inevitable (moves : Nat → σ → Place → σ → Place → Prop) (c : Nat) (leaves : Place → Prop)
    (goal : Place → Prop) : σ → Place → Prop where
  | here {s : σ} {p : Place} (h : goal p) : Inevitable moves c leaves goal s p
  | next {s : σ} {p : Place} (hgoes : ∃ s' p', moves c s p s' p' ∧ ¬leaves p')
      (hall : ∀ s' p', moves c s p s' p' → ¬leaves p' → Inevitable moves c leaves goal s' p') :
      Inevitable moves c leaves goal s p

/-- What every move of the call keeps holds wherever it comes to alone. -/
theorem Alone.invariant {I : σ → Place → Prop}
    (hmove : ∀ s p s' p', I s p → moves c s p s' p' → I s' p') {s' : σ} {p' : Place}
    (h : Alone moves c (s, p) (s', p')) (hs : I s p) : I s' p' := by
  have hall : ∀ b, Alone moves c (s, p) b → I b.1 b.2 := by
    intro b hb
    induction hb with
    | refl => exact hs
    | tail _ hstep ih => exact hmove _ _ _ _ ih hstep
  exact hall _ h

/-- A property of places that no move takes away is kept by every call. -/
theorem Reaches.stays {P : Place → Prop} (hstays : ∀ c s p s' p', P p → moves c s p s' p' → P p')
    (h : Reaches moves x y) (hc : P (x.place c)) : P (y.place c) := by
  refine h.invariant (I := fun z => P (z.place c)) ?_ hc
  intro z d s p hz hmoves
  by_cases hd : c = d
  · subst hd
    rw [place_move_self]
    exact hstays c _ _ _ _ hz hmoves
  · rwa [place_move_of_ne _ hd]

/-- A counter that goes with the places at which it counts a call. -/
theorem counts_move {n n' : Nat} {counted : Place → Bool}
    (h : Counts n fun d => counted (x.place d) = true)
    (hn : (counted (x.place c) = true → 0 < n) →
      n' + (counted (x.place c)).toNat = n + (counted p).toNat) :
    Counts n' fun d => counted ((x.move c s p).place d) = true := by
  have hothers (d : Nat) (hd : d ≠ c) :
      counted (x.place d) = true ↔ counted ((x.move c s p).place d) = true := by
    rw [place_move_of_ne _ hd]
  have hself : counted ((x.move c s p).place c) = counted p := by rw [place_move_self]
  have hn := hn h.pos
  cases hbefore : counted (x.place c) <;> cases hafter : counted p <;>
    rw [hbefore, hafter] at hn <;> simp only [Bool.toNat_true, Bool.toNat_false, Nat.add_zero] at hn
  · subst hn
    refine h.congr fun d => ?_
    by_cases hd : d = c
    · subst hd
      rw [hself, hbefore, hafter]
    · exact hothers d hd
  · subst hn
    exact h.enter (by rw [hbefore]; exact Bool.false_ne_true) (by rw [hself, hafter]) hothers
  · obtain rfl : n' = n - 1 := by omega
    exact h.leave hbefore (by rw [hself, hafter]; exact Bool.false_ne_true) hothers
  · obtain rfl : n' = n := by omega
    refine h.congr fun d => ?_
    by_cases hd : d = c
    · subst hd
      rw [hself, hbefore, hafter]
    · exact hothers d hd

/-- The set has what the calls own, and no two calls own one thing. -/
structure Owned {α : Type} (owns : Place → α → Prop) (things : α → Prop) (x : Pool σ Place) :
    Prop where
  iff : ∀ a, things a ↔ ∃ c, owns (x.place c) a
  unique : ∀ a c d, owns (x.place c) a → owns (x.place d) a → c = d

/-- A call takes only what is in no set and gives up only what it has. -/
theorem Owned.move {α : Type} {owns : Place → α → Prop} {things things' : α → Prop}
    (h : Owned owns things x) (hfree : ∀ a, owns p a → things a → owns (x.place c) a)
    (hthings : ∀ a, things' a ↔ owns p a ∨ things a ∧ ¬owns (x.place c) a) :
    Owned owns things' (x.move c s p) := by
  -- another call does not own what this one owns now
  have hother (a : α) (d : Nat) (hd : d ≠ c) (hp : owns p a) : ¬owns (x.place d) a := by
    intro hda
    exact hd (h.unique a d c hda (hfree a hp ((h.iff a).mpr ⟨d, hda⟩)))
  constructor
  · intro a
    rw [hthings]
    constructor
    · rintro (hp | ⟨hthing, hnot⟩)
      · exact ⟨c, by rwa [place_move_self]⟩
      · obtain ⟨d, hd⟩ := (h.iff a).mp hthing
        have hdc : d ≠ c := fun heq => hnot (heq ▸ hd)
        exact ⟨d, by rwa [place_move_of_ne _ hdc]⟩
    · rintro ⟨d, hd⟩
      by_cases hdc : d = c
      · subst hdc
        rw [place_move_self] at hd
        exact .inl hd
      · rw [place_move_of_ne _ hdc] at hd
        exact .inr ⟨(h.iff a).mpr ⟨d, hd⟩, fun hc => hdc (h.unique a d c hd hc)⟩
  · intro a d e hd he
    by_cases hdc : d = c <;> by_cases hec : e = c
    · rw [hdc, hec]
    · rw [hdc, place_move_self] at hd
      rw [place_move_of_ne _ hec] at he
      exact absurd he (hother a e hec hd)
    · rw [hec, place_move_self] at he
      rw [place_move_of_ne _ hdc] at hd
      exact absurd hd (hother a d hdc he)
    · rw [place_move_of_ne _ hdc] at hd
      rw [place_move_of_ne _ hec] at he
      exact h.unique a d e hd he

/-- A move that changes nothing of what is owned. -/
theorem Owned.stay {α : Type} {owns : Place → α → Prop} {things : α → Prop}
    (h : Owned owns things x) (hsame : ∀ a, owns p a ↔ owns (x.place c) a) :
    Owned owns things (x.move c s p) := by
  apply h.move
  · exact fun a hp _ => (hsame a).mp hp
  · intro a
    rw [hsame]
    constructor
    · intro hthing
      by_cases hc : owns (x.place c) a
      · exact .inl hc
      · exact .inr ⟨hthing, hc⟩
    · rintro (hc | ⟨hthing, -⟩)
      · exact (h.iff a).mpr ⟨c, hc⟩
      · exact hthing

/-- What holds of the place a call has come to and of the other calls holds of all. -/
theorem forall_move {P : Nat → Place → Prop} (hself : P c p)
    (hothers : ∀ d, d ≠ c → P d (x.place d)) (d : Nat) : P d ((x.move c s p).place d) := by
  by_cases hd : d = c
  · subst hd
    rwa [place_move_self]
  · rw [place_move_of_ne _ hd]
    exact hothers d hd

end Pool

end TosAi.Foundation
