/-
  One pass over a list that keeps the heaviest element so far and gives up when it meets an
  equally heavy one with another key.

  The order-free notion is `Ambiguous`: two of the heaviest elements of the list have different
  keys.  The pass is stricter: it gives up exactly when some beginning of the list is ambiguous
  (`pass_eq_none_iff`), although a heavier element may follow.
-/
import Mathlib

set_option autoImplicit false

namespace TosAi.Foundation.RunningBest

variable {α β γ : Type} [LinearOrder γ] (weight : α → γ) (key : α → β)

/-- No element is heavier. -/
def Heaviest (l : List α) (a : α) : Prop := a ∈ l ∧ ∀ b ∈ l, weight b ≤ weight a

/-- Two of the heaviest elements have different keys. -/
def Ambiguous (l : List α) : Prop :=
  ∃ a b, Heaviest weight l a ∧ Heaviest weight l b ∧ key a ≠ key b

/-- One element of the pass; nothing is left of it once two keys were in conflict. -/
def step [DecidableEq β] (best : Option α) (a : α) : Option (Option α) :=
  match best with
  | none => some (some a)
  | some b =>
    if weight b < weight a then some (some a)
    else if weight a = weight b ∧ key a ≠ key b then none
    else some (some b)

/-- The pass. -/
def pass [DecidableEq β] (l : List α) : Option (Option α) := l.foldlM (step weight key) none

/-- What the pass has found, as long as it has not given up: nothing in an empty list, and
otherwise one of the heaviest elements, with whose key the others agree. -/
def Found (l : List α) : Option α → Prop
  | none => l = []
  | some a => Heaviest weight l a ∧ ∀ b, Heaviest weight l b → key b = key a

variable {weight} {key} {l : List α} {a b : α}

/-! ## The heaviest elements -/

/-- The heaviest elements after one more is added at the end. -/
theorem heaviest_concat : Heaviest weight (l ++ [a]) b ↔
    (Heaviest weight l b ∧ weight a ≤ weight b) ∨ (b = a ∧ ∀ c ∈ l, weight c ≤ weight a) := by
  simp only [Heaviest, List.mem_append, List.mem_singleton]
  constructor
  · rintro ⟨hmem, hmax⟩
    rcases hmem with hb | rfl
    · exact .inl ⟨⟨hb, fun c hc => hmax c (.inl hc)⟩, hmax a (.inr rfl)⟩
    · exact .inr ⟨rfl, fun c hc => hmax c (.inl hc)⟩
  · rintro (⟨⟨hb, hmax⟩, hle⟩ | ⟨rfl, hmax⟩)
    · exact ⟨.inl hb, fun c hc => hc.elim (hmax c) fun h => h ▸ hle⟩
    · exact ⟨.inr rfl, fun c hc => hc.elim (hmax c) fun h => h ▸ le_rfl⟩

theorem Found.not_ambiguous {best : Option α} (h : Found weight key l best) :
    ¬Ambiguous weight key l := by
  rintro ⟨a, b, ha, hb, hne⟩
  cases best with
  | none =>
    rw [show l = [] from h] at ha
    exact List.not_mem_nil ha.1
  | some c => exact hne ((h.2 a ha).trans (h.2 b hb).symm)

/-! ## The pass -/

variable [DecidableEq β]

theorem pass_concat (l : List α) (a : α) :
    pass weight key (l ++ [a]) = (pass weight key l).bind fun best => step weight key best a := by
  rw [pass, List.foldlM_append, pass]
  rcases l.foldlM (step weight key) none with _ | best
  · rfl
  · exact bind_pure (step weight key best a)

/-- One step keeps what is found, and gives up only on an ambiguous list. -/
theorem found_step {best : Option α} (h : Found weight key l best) :
    match step weight key best a with
    | some best' => Found weight key (l ++ [a]) best'
    | none => Ambiguous weight key (l ++ [a]) := by
  cases best with
  | none =>
    rw [show l = [] from h]
    exact ⟨by simp [Heaviest], fun b hb => congrArg key (List.mem_singleton.mp hb.1)⟩
  | some b =>
    obtain ⟨hb, hagree⟩ := h
    simp only [step]
    split_ifs with hlt hconflict
    · have hmax : ∀ c ∈ l, weight c ≤ weight a := fun c hc => (hb.2 c hc).trans hlt.le
      refine ⟨heaviest_concat.mpr (.inr ⟨rfl, hmax⟩), fun c hc => ?_⟩
      rcases heaviest_concat.mp hc with ⟨hc, hle⟩ | ⟨rfl, -⟩
      · exact absurd (hle.trans (hb.2 c hc.1)) (not_le.mpr hlt)
      · rfl
    · refine ⟨a, b, heaviest_concat.mpr (.inr ⟨rfl, fun c hc => ?_⟩),
        heaviest_concat.mpr (.inl ⟨hb, hconflict.1.le⟩), hconflict.2⟩
      exact (hb.2 c hc).trans hconflict.1.ge
    · refine ⟨heaviest_concat.mpr (.inl ⟨hb, not_lt.mp hlt⟩), fun c hc => ?_⟩
      rcases heaviest_concat.mp hc with ⟨hc, -⟩ | ⟨rfl, hmax⟩
      · exact hagree c hc
      · by_contra hne
        exact hconflict ⟨le_antisymm (not_lt.mp hlt) (hmax b hb.1), hne⟩

variable (weight key) in
/-- **The pass.**  What it returns is found in the list; it gives up exactly when the heaviest
elements of some beginning of the list are in conflict. -/
theorem pass_spec (l : List α) :
    match pass weight key l with
    | some best => Found weight key l best ∧ ∀ l', l' <+: l → ¬Ambiguous weight key l'
    | none => ∃ l', l' <+: l ∧ Ambiguous weight key l' := by
  -- the pass goes from left to right, so the induction is on the last element
  induction l using List.reverseRecOn with
  | nil =>
    refine ⟨rfl, fun l' hl' => ?_⟩
    rw [List.prefix_nil.mp hl']
    rintro ⟨a, -, ha, -⟩
    exact List.not_mem_nil ha.1
  | append_singleton l a ih =>
    rw [pass_concat]
    cases hpass : pass weight key l with
    | none =>
      rw [hpass] at ih
      obtain ⟨l', hl', hambiguous⟩ := ih
      exact ⟨l', hl'.trans (List.prefix_append _ _), hambiguous⟩
    | some best =>
      rw [hpass] at ih
      have hnext := found_step (a := a) ih.1
      rw [Option.bind_some]
      cases hstep : step weight key best a with
      | none =>
        rw [hstep] at hnext
        exact ⟨_, List.prefix_rfl, hnext⟩
      | some best' =>
        rw [hstep] at hnext
        refine ⟨hnext, fun l' hl' => ?_⟩
        rcases List.prefix_concat_iff.mp hl' with rfl | hl'
        · exact hnext.not_ambiguous
        · exact ih.2 l' hl'

theorem pass_eq_none_iff : pass weight key l = none ↔ ∃ l', l' <+: l ∧ Ambiguous weight key l' := by
  have hspec := pass_spec weight key l
  cases hpass : pass weight key l with
  | none =>
    rw [hpass] at hspec
    exact ⟨fun _ => hspec, fun _ => rfl⟩
  | some best =>
    rw [hpass] at hspec
    exact ⟨(fun h => nomatch h), fun ⟨l', hl', h⟩ => absurd h (hspec.2 l' hl')⟩

theorem found_of_pass {best : Option α} (h : pass weight key l = some best) :
    Found weight key l best := by
  have hspec := pass_spec weight key l
  rw [h] at hspec
  exact hspec.1

end TosAi.Foundation.RunningBest
