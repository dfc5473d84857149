import Mathlib

namespace RdmaExps.Python

variable {α β σ ε : Type}

/-- A loop that carries a state: the invariant speaks of the items seen so far. -/
theorem foldlM_run (f : σ → α → Except ε σ) (inv : List α → σ → Prop)
    (step : ∀ seen x s, inv seen s → ∃ s', f s x = .ok s' ∧ inv (seen ++ [x]) s')
    (xs seen : List α) (s : σ) (start : inv seen s) :
    ∃ s', xs.foldlM f s = .ok s' ∧ inv (seen ++ xs) s' := by
  induction xs generalizing seen s with
  | nil => exact ⟨s, rfl, by simpa using start⟩
  | cons x xs ih =>
    obtain ⟨middle, first, held⟩ := step seen x s start
    obtain ⟨final, rest, holds⟩ := ih (seen ++ [x]) middle held
    refine ⟨final, ?_, by simpa using holds⟩
    simpa only [List.foldlM_cons, first, Bind.bind, Except.bind] using rest

theorem mapM_total {f : α → Except ε β} {R : α → β → Prop} {xs : List α}
    (total : ∀ x ∈ xs, ∃ y, f x = .ok y ∧ R x y) :
    ∃ ys, xs.mapM f = .ok ys ∧ List.Forall₂ R xs ys := by
  induction xs with
  | nil => exact ⟨[], rfl, .nil⟩
  | cons x xs ih =>
    obtain ⟨y, first, related⟩ := total x (by simp)
    obtain ⟨ys, rest, all⟩ := ih (fun z member => total z (List.mem_cons_of_mem _ member))
    refine ⟨y :: ys, ?_, .cons related all⟩
    simp only [List.mapM_cons, first, rest, Bind.bind, Except.bind, Pure.pure, Except.pure]

theorem mapM_eq_map (f : α → Except ε β) {g : α → β} (xs : List α)
    (total : ∀ x ∈ xs, f x = .ok (g x)) : xs.mapM f = .ok (xs.map g) := by
  induction xs with
  | nil => rfl
  | cons x xs ih =>
    have rest := ih (fun z member => total z (List.mem_cons_of_mem _ member))
    simp only [List.mapM_cons, total x (by simp), rest, Bind.bind, Except.bind, Pure.pure,
      Except.pure, List.map_cons]

theorem mapM_of_forall₂ {f : α → Except ε β} {xs : List α} {ys : List β}
    (all : List.Forall₂ (fun x y => f x = .ok y) xs ys) : xs.mapM f = .ok ys := by
  induction all with
  | nil => rfl
  | cons first _ rest =>
    simp only [List.mapM_cons, first, rest, Bind.bind, Except.bind, Pure.pure, Except.pure]

end RdmaExps.Python
