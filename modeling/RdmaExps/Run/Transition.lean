import Mathlib

namespace RdmaExps.Run

variable {S T : Type} {init : S → Prop} {step : S → S → Prop} {s : S}

/-- What a system can come to from one of its starts. -/
def Reachable (init : S → Prop) (step : S → S → Prop) (s : S) : Prop :=
  ∃ first, init first ∧ Relation.ReflTransGen step first s

theorem Reachable.start {s : S} (first : init s) : Reachable init step s := ⟨s, first, .refl⟩

theorem Reachable.next {s t : S} (reached : Reachable init step s) (moves : step s t) :
    Reachable init step t := by
  obtain ⟨first, starts, run⟩ := reached
  exact ⟨first, starts, run.tail moves⟩

theorem Reachable.invariant (reached : Reachable init step s) (inv : S → Prop) (starts : ∀ s, init s → inv s)
    (keeps : ∀ s t, inv s → step s t → inv t) : inv s := by
  obtain ⟨first, begins, run⟩ := reached
  induction run with
  | refl => exact starts first begins
  | tail _ last ih => exact keeps _ _ ih last

/-- Every step is matched by steps of another system, or by none. -/
structure Refines (init : S → Prop) (step : S → S → Prop) (init' : T → Prop) (step' : T → T → Prop)
    (rel : S → T → Prop) : Prop where
  start : ∀ s, init s → ∃ t, init' t ∧ rel s t
  step : ∀ s s' t, rel s t → step s s' → ∃ t', Relation.ReflTransGen step' t t' ∧ rel s' t'

theorem Refines.reachable {init' : T → Prop} {step' : T → T → Prop} {rel : S → T → Prop}
    (refines : Refines init step init' step' rel) (reached : Reachable init step s) :
    ∃ t, Reachable init' step' t ∧ rel s t := by
  apply reached.invariant (fun s => ∃ t, Reachable init' step' t ∧ rel s t)
  · intro s first
    obtain ⟨t, first', related⟩ := refines.start s first
    exact ⟨t, .start first', related⟩
  · rintro s s' ⟨t, ⟨first, begins, run⟩, related⟩ moves
    obtain ⟨t', more, related'⟩ := refines.step s s' t related moves
    exact ⟨t', ⟨first, begins, run.trans more⟩, related'⟩

/-- Whatever steps are taken, `goal` is reached, and no run stops before. -/
inductive Leads (step : S → S → Prop) (goal : S → Prop) : S → Prop where
  | here {s : S} : goal s → Leads step goal s
  | next {s : S} : (∃ t, step s t) → (∀ t, step s t → Leads step goal t) → Leads step goal s

theorem Leads.exists_reached {goal : S → Prop} (leads : Leads step goal s) : ∃ t, Relation.ReflTransGen step s t ∧ goal t := by
  induction leads with
  | here done => exact ⟨_, .refl, done⟩
  | next moves _ ih =>
    obtain ⟨t, moved⟩ := moves
    obtain ⟨u, run, done⟩ := ih t moved
    exact ⟨u, .head moved run, done⟩

theorem Leads.mono {goal goal' : S → Prop} (leads : Leads step goal s) (more : ∀ s, goal s → goal' s) : Leads step goal' s := by
  induction leads with
  | here done => exact .here (more _ done)
  | next moves _ ih => exact .next moves ih

/-- The induction over a rank that the invariant carries. -/
theorem leads_of_rank {goal : S → Prop} {n : Nat} (inv : Nat → S → Prop)
    (progress : ∀ n s, inv n s → goal s ∨ ∃ t, step s t)
    (decreases : ∀ n s t, inv n s → step s t → ∃ m < n, inv m t) (holds : inv n s) : Leads step goal s := by
  induction n using Nat.strongRecOn generalizing s with
  | ind n ih =>
    rcases progress n s holds with done | moves
    · exact .here done
    · apply Leads.next moves
      intro t moved
      obtain ⟨m, less, holds'⟩ := decreases n s t holds moved
      exact ih m less holds'

/-- Some run of `n` steps. -/
def Chain (step : S → S → Prop) : Nat → S → S → Prop
  | 0, s, t => s = t
  | n + 1, s, t => ∃ u, step s u ∧ Chain step n u t

theorem chain_le_rank (inv : Nat → S → Prop) (decreases : ∀ n s t, inv n s → step s t → ∃ m < n, inv m t)
    {rank n : Nat} {t : S} (holds : inv rank s) (chain : Chain step n s t) : n ≤ rank := by
  induction n generalizing s rank with
  | zero => exact Nat.zero_le _
  | succ n ih =>
    obtain ⟨u, moves, rest⟩ := chain
    obtain ⟨m, less, holds'⟩ := decreases rank s u holds moves
    have later := ih holds' rest
    omega

end RdmaExps.Run
