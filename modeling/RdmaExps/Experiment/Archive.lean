import Mathlib

namespace RdmaExps.Experiment

/-- A log of what happened, and a store for what was earned by it. -/
structure Archive (E K V : Type) where
  log : List E
  store : K → Option V

namespace Archive

variable {E K V : Type} {earned : List E → K → V → Prop} {a b c : Archive E K V}

def Sound (earned : List E → K → V → Prop) (a : Archive E K V) : Prop :=
  ∀ key value, a.store key = some value → earned a.log key value

/-- The log goes on, and the store gets earned values at keys that had none. -/
structure Grows (earned : List E → K → V → Prop) (a b : Archive E K V) : Prop where
  log : a.log <+: b.log
  store : ∀ key, b.store key = a.store key ∨
    a.store key = none ∧ ∃ value, b.store key = some value ∧ earned b.log key value

theorem Grows.refl (earned : List E → K → V → Prop) (a : Archive E K V) : a.Grows earned a :=
  ⟨List.prefix_rfl, fun _ => .inl rfl⟩

theorem Grows.keeps (grows : a.Grows earned b) {key : K} {value : V} (here : a.store key = some value) :
    b.store key = some value := by
  rcases grows.store key with same | ⟨none, -⟩
  · rw [same, here]
  · rw [none] at here
    cases here

def Lasting (earned : List E → K → V → Prop) : Prop :=
  ∀ short long key value, short <:+: long → earned short key value → earned long key value

theorem Grows.trans (lasting : Lasting earned) (first : a.Grows earned b) (second : b.Grows earned c) :
    a.Grows earned c := by
  refine ⟨first.log.trans second.log, fun key => ?_⟩
  rcases first.store key with same | ⟨none, value, filed, good⟩
  · rw [← same]
    exact second.store key
  · exact .inr ⟨none, value, second.keeps filed, lasting _ _ key value second.log.isInfix good⟩

theorem Grows.sound (lasting : Lasting earned) (grows : a.Grows earned b) (sound : a.Sound earned) :
    b.Sound earned := by
  intro key value here
  rcases grows.store key with same | ⟨-, filed, there, good⟩
  · rw [same] at here
    exact lasting _ _ key value grows.log.isInfix (sound key value here)
  · rw [there] at here
    cases here
    exact good

theorem grows_of_reaches (lasting : Lasting earned) {step : Archive E K V → Archive E K V → Prop}
    (each : ∀ a b, step a b → a.Grows earned b) (reaches : Relation.ReflTransGen step a b) : a.Grows earned b := by
  induction reaches with
  | refl => exact .refl earned a
  | tail _ last ih => exact ih.trans lasting (each _ _ last)

end Archive

end RdmaExps.Experiment
