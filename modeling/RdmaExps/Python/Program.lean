import Mathlib

namespace RdmaExps.Python

/-- Programs that make requests of their environment. The environment may answer a request, or
    raise. -/
inductive Prog (Req : Type) (Res : Req → Type) (ε α : Type) where
  | pure (value : α)
  | throw (error : ε)
  | request (req : Req) (next : Except ε (Res req) → Prog Req Res ε α)

structure Event (Req : Type) (Res : Req → Type) (ε : Type) where
  req : Req
  reply : Except ε (Res req)

variable {Req : Type} {Res : Req → Type} {ε α β : Type}

def Event.inl {Req' : Type} {Res' : Req' → Type} (event : Event Req Res ε) :
    Event (Req ⊕ Req') (Sum.elim Res Res') ε := ⟨.inl event.req, event.reply⟩

def Event.inr {Req' : Type} {Res' : Req' → Type} (event : Event Req Res ε) :
    Event (Req' ⊕ Req) (Sum.elim Res' Res) ε := ⟨.inr event.req, event.reply⟩

namespace Prog

def bind : Prog Req Res ε α → (α → Prog Req Res ε β) → Prog Req Res ε β
  | .pure value, f => f value
  | .throw error, _ => .throw error
  | .request req next, f => .request req fun reply => (next reply).bind f

def tryCatch : Prog Req Res ε α → (ε → Prog Req Res ε α) → Prog Req Res ε α
  | .pure value, _ => .pure value
  | .throw error, handle => handle error
  | .request req next, handle => .request req fun reply => (next reply).tryCatch handle

instance : Monad (Prog Req Res ε) where
  pure := .pure
  bind := .bind

instance : MonadExcept ε (Prog Req Res ε) where
  throw := .throw
  tryCatch := .tryCatch

def ofExcept : Except ε α → Prog Req Res ε α
  | .ok value => .pure value
  | .error error => .throw error

instance : MonadLift (Except ε) (Prog Req Res ε) where
  monadLift := ofExcept

/-- A request whose exception is not caught here. -/
def call (req : Req) : Prog Req Res ε (Res req) := .request req ofExcept

theorem bind_pure (p : Prog Req Res ε α) : p.bind .pure = p := by
  induction p with
  | pure value => rfl
  | throw error => rfl
  | request req next ih => exact congrArg (request req) (funext ih)

theorem bind_assoc {γ : Type} (p : Prog Req Res ε α) (f : α → Prog Req Res ε β) (g : β → Prog Req Res ε γ) :
    (p.bind f).bind g = p.bind fun value => (f value).bind g := by
  induction p with
  | pure value => rfl
  | throw error => rfl
  | request req next ih => exact congrArg (request req) (funext ih)

instance : LawfulMonad (Prog Req Res ε) := LawfulMonad.mk' _ bind_pure (fun _ _ => rfl) bind_assoc

/-- A run to its end: the events, and what the program returns or raises. -/
def Runs : Prog Req Res ε α → List (Event Req Res ε) → Except ε α → Prop
  | .pure value, trace, result => trace = [] ∧ result = .ok value
  | .throw error, trace, result => trace = [] ∧ result = .error error
  | .request req next, trace, result => ∃ reply rest, trace = ⟨req, reply⟩ :: rest ∧ (next reply).Runs rest result

/-- A run that is cut short, or not: what has happened so far. -/
def Reaches : Prog Req Res ε α → List (Event Req Res ε) → Prop
  | .pure _, trace => trace = []
  | .throw _, trace => trace = []
  | .request req next, trace => trace = [] ∨ ∃ reply rest, trace = ⟨req, reply⟩ :: rest ∧ (next reply).Reaches rest

def inl {Req' : Type} {Res' : Req' → Type} : Prog Req Res ε α → Prog (Req ⊕ Req') (Sum.elim Res Res') ε α
  | .pure value => .pure value
  | .throw error => .throw error
  | .request req next => .request (.inl req) fun reply => (next reply).inl

def inr {Req' : Type} {Res' : Req' → Type} : Prog Req Res ε α → Prog (Req' ⊕ Req) (Sum.elim Res' Res) ε α
  | .pure value => .pure value
  | .throw error => .throw error
  | .request req next => .request (.inr req) fun reply => (next reply).inr

/-- The run in an environment that answers the same request in the same way. -/
def run (answer : (req : Req) → Except ε (Res req)) : Prog Req Res ε α → List (Event Req Res ε) × Except ε α
  | .pure value => ([], .ok value)
  | .throw error => ([], .error error)
  | .request req next =>
    let later := (next (answer req)).run answer
    (⟨req, answer req⟩ :: later.1, later.2)

theorem runs_run (answer : (req : Req) → Except ε (Res req)) (p : Prog Req Res ε α) :
    p.Runs (p.run answer).1 (p.run answer).2 := by
  induction p with
  | pure value => exact ⟨rfl, rfl⟩
  | throw error => exact ⟨rfl, rfl⟩
  | request req next ih => exact ⟨answer req, _, rfl, ih (answer req)⟩

theorem exists_runs_run (answer : (req : Req) → Except ε (Res req)) (p : Prog Req Res ε α)
    (returns : (p.run answer).2.isOk = true) : ∃ value, (p.run answer).2 = .ok value ∧ p.Runs (p.run answer).1 (.ok value) := by
  have runs := runs_run answer p
  cases result : (p.run answer).2 with
  | error error => simp [result, Except.isOk, Except.toBool] at returns
  | ok value => exact ⟨value, rfl, result ▸ runs⟩

theorem runs_of_isOk (answer : (req : Req) → Except ε (Res req)) (p : Prog Req Res ε α)
    (returns : (p.run answer).2.isOk = true) : ∃ value, p.Runs (p.run answer).1 (.ok value) := by
  obtain ⟨value, -, runs⟩ := exists_runs_run answer p returns
  exact ⟨value, runs⟩

variable {trace : List (Event Req Res ε)}

@[simp] theorem runs_pure {value : α} {result : Except ε α} :
    (Pure.pure value : Prog Req Res ε α).Runs trace result ↔ trace = [] ∧ result = .ok value := Iff.rfl

theorem runs_ofExcept {value : Except ε α} {result : Except ε α} :
    (ofExcept value : Prog Req Res ε α).Runs trace result ↔ trace = [] ∧ result = value := by
  cases value <;> exact Iff.rfl

theorem runs_lift_bind {value : Except ε α} {f : α → Prog Req Res ε β} {result : β} :
    ((liftM value : Prog Req Res ε α) >>= f).Runs trace (.ok result) ↔
      ∃ middle, value = .ok middle ∧ (f middle).Runs trace (.ok result) := by
  cases value with
  | error error =>
    constructor
    · rintro ⟨-, same⟩
      cases same
    · rintro ⟨middle, same, -⟩
      cases same
  | ok middle =>
    constructor
    · exact fun runs => ⟨middle, rfl, runs⟩
    · rintro ⟨_, same, runs⟩
      cases same
      exact runs

theorem runs_throw_ok {error : ε} {value : α} :
    ¬ (MonadExcept.throw error : Prog Req Res ε α).Runs trace (.ok value) := by
  rintro ⟨-, same⟩
  cases same

theorem runs_call {req : Req} {result : Except ε (Res req)} :
    (call req).Runs trace result ↔ trace = [⟨req, result⟩] := by
  constructor
  · rintro ⟨reply, rest, rfl, ends⟩
    obtain ⟨rfl, rfl⟩ := runs_ofExcept.mp ends
    rfl
  · rintro rfl
    exact ⟨result, [], rfl, runs_ofExcept.mpr ⟨rfl, rfl⟩⟩

theorem runs_bind {p : Prog Req Res ε α} {f : α → Prog Req Res ε β} {value : β} :
    (p >>= f).Runs trace (.ok value) ↔ ∃ front back middle, trace = front ++ back ∧
      p.Runs front (.ok middle) ∧ (f middle).Runs back (.ok value) := by
  change (p.bind f).Runs trace (.ok value) ↔ _
  induction p generalizing trace with
  | pure first => simp [bind, Runs]
  | throw error => simp [bind, Runs]
  | request req next ih =>
    simp only [bind, Runs, ih]
    constructor
    · rintro ⟨reply, rest, rfl, front, back, middle, rfl, first, second⟩
      exact ⟨⟨req, reply⟩ :: front, back, middle, rfl, ⟨reply, front, rfl, first⟩, second⟩
    · rintro ⟨_, back, middle, rfl, ⟨reply, front, rfl, first⟩, second⟩
      exact ⟨reply, front ++ back, rfl, front, back, middle, rfl, first, second⟩

theorem Runs.unique {p : Prog Req Res ε α} {first second : Except ε α} (runs : p.Runs trace first)
    (again : p.Runs trace second) : first = second := by
  induction p generalizing trace with
  | pure value => rw [runs.2, again.2]
  | throw error => rw [runs.2, again.2]
  | request req next ih =>
    obtain ⟨reply, rest, rfl, later⟩ := runs
    obtain ⟨_, _, same, other⟩ := again
    cases same
    exact ih reply later other

theorem Runs.reaches {p : Prog Req Res ε α} {result : Except ε α} (runs : p.Runs trace result)
    {front : List (Event Req Res ε)} (cut : front <+: trace) : p.Reaches front := by
  induction p generalizing trace front with
  | pure value =>
    rw [runs.1] at cut
    exact List.prefix_nil.mp cut
  | throw error =>
    rw [runs.1] at cut
    exact List.prefix_nil.mp cut
  | request req next ih =>
    obtain ⟨reply, rest, rfl, later⟩ := runs
    rcases List.prefix_cons_iff.mp cut with none | ⟨tail, rfl, shorter⟩
    · exact .inl none
    · exact .inr ⟨reply, tail, rfl, ih reply later shorter⟩

theorem reaches_bind {p : Prog Req Res ε α} {f : α → Prog Req Res ε β} (reaches : (p >>= f).Reaches trace) :
    p.Reaches trace ∨ ∃ front back middle, trace = front ++ back ∧ p.Runs front (.ok middle) ∧
      (f middle).Reaches back := by
  change (p.bind f).Reaches trace at reaches
  induction p generalizing trace with
  | pure first => exact .inr ⟨[], trace, first, rfl, ⟨rfl, rfl⟩, reaches⟩
  | throw error => exact .inl reaches
  | request req next ih =>
    rcases reaches with none | ⟨reply, rest, rfl, later⟩
    · exact .inl (.inl none)
    · rcases ih reply later with cut | ⟨front, back, middle, rfl, first, second⟩
      · exact .inl (.inr ⟨reply, rest, rfl, cut⟩)
      · exact .inr ⟨⟨req, reply⟩ :: front, back, middle, rfl, ⟨reply, front, rfl, first⟩, second⟩

theorem runs_bind_error {p : Prog Req Res ε α} {f : α → Prog Req Res ε β} {error : ε} :
    (p >>= f).Runs trace (.error error) ↔ p.Runs trace (.error error) ∨ ∃ front back middle,
      trace = front ++ back ∧ p.Runs front (.ok middle) ∧ (f middle).Runs back (.error error) := by
  change (p.bind f).Runs trace (.error error) ↔ _
  induction p generalizing trace with
  | pure first => simp [bind, Runs]
  | throw error => simp [bind, Runs]
  | request req next ih =>
    simp only [bind, Runs, ih]
    constructor
    · rintro ⟨reply, rest, rfl, early | ⟨front, back, middle, rfl, first, second⟩⟩
      · exact .inl ⟨reply, rest, rfl, early⟩
      · exact .inr ⟨⟨req, reply⟩ :: front, back, middle, rfl, ⟨reply, front, rfl, first⟩, second⟩
    · rintro (⟨reply, rest, rfl, early⟩ | ⟨_, back, middle, rfl, ⟨reply, front, rfl, first⟩, second⟩)
      · exact ⟨reply, rest, rfl, .inl early⟩
      · exact ⟨reply, front ++ back, rfl, .inr ⟨front, back, middle, rfl, first, second⟩⟩

theorem runs_tryCatch {p : Prog Req Res ε α} {handle : ε → Prog Req Res ε α} {value : α} :
    (p.tryCatch handle).Runs trace (.ok value) ↔ p.Runs trace (.ok value) ∨ ∃ front back error,
      trace = front ++ back ∧ p.Runs front (.error error) ∧ (handle error).Runs back (.ok value) := by
  induction p generalizing trace with
  | pure first => simp [tryCatch, Runs]
  | throw error => simp [tryCatch, Runs]
  | request req next ih =>
    simp only [tryCatch, Runs, ih]
    constructor
    · rintro ⟨reply, rest, rfl, returns | ⟨front, back, error, rfl, first, second⟩⟩
      · exact .inl ⟨reply, rest, rfl, returns⟩
      · exact .inr ⟨⟨req, reply⟩ :: front, back, error, rfl, ⟨reply, front, rfl, first⟩, second⟩
    · rintro (⟨reply, rest, rfl, returns⟩ | ⟨_, back, error, rfl, ⟨reply, front, rfl, first⟩, second⟩)
      · exact ⟨reply, rest, rfl, .inl returns⟩
      · exact ⟨reply, front ++ back, rfl, .inr ⟨front, back, error, rfl, first, second⟩⟩

theorem reaches_tryCatch {p : Prog Req Res ε α} {handle : ε → Prog Req Res ε α}
    (reaches : (p.tryCatch handle).Reaches trace) :
    p.Reaches trace ∨ ∃ front back error, trace = front ++ back ∧ p.Runs front (.error error) ∧
      (handle error).Reaches back := by
  induction p generalizing trace with
  | pure first => exact .inl reaches
  | throw error => exact .inr ⟨[], trace, error, rfl, ⟨rfl, rfl⟩, reaches⟩
  | request req next ih =>
    rcases reaches with none | ⟨reply, rest, rfl, later⟩
    · exact .inl (.inl none)
    · rcases ih reply later with cut | ⟨front, back, error, rfl, first, second⟩
      · exact .inl (.inr ⟨reply, rest, rfl, cut⟩)
      · exact .inr ⟨⟨req, reply⟩ :: front, back, error, rfl, ⟨reply, front, rfl, first⟩, second⟩

theorem reaches_call {req : Req} (reaches : (call req : Prog Req Res ε (Res req)).Reaches trace) :
    trace = [] ∨ ∃ reply, trace = [⟨req, reply⟩] := by
  rcases reaches with none | ⟨reply, rest, rfl, later⟩
  · exact .inl none
  · cases reply with
    | ok value =>
      rw [show rest = [] from later]
      exact .inr ⟨_, rfl⟩
    | error error =>
      rw [show rest = [] from later]
      exact .inr ⟨_, rfl⟩

theorem runs_mapM_cons {f : α → Prog Req Res ε β} {x : α} {xs : List α} {values : List β} :
    ((x :: xs).mapM f).Runs trace (.ok values) ↔ ∃ front back value rest, trace = front ++ back ∧
      (f x).Runs front (.ok value) ∧ (xs.mapM f).Runs back (.ok rest) ∧ values = value :: rest := by
  rw [List.mapM_cons, runs_bind]
  constructor
  · rintro ⟨front, back, value, rfl, first, later⟩
    obtain ⟨middle, final, rest, rfl, second, last⟩ := runs_bind.mp later
    obtain ⟨rfl, same⟩ := runs_pure.mp last
    rw [List.append_nil]
    exact ⟨front, middle, value, rest, rfl, first, second, Except.ok.inj same⟩
  · rintro ⟨front, back, value, rest, rfl, first, second, rfl⟩
    exact ⟨front, back, value, rfl, first, runs_bind.mpr ⟨back, [], rest, by simp, second, rfl, rfl⟩⟩

theorem reaches_mapM_cons {f : α → Prog Req Res ε β} {x : α} {xs : List α}
    (reaches : ((x :: xs).mapM f).Reaches trace) :
    (f x).Reaches trace ∨ ∃ front back value, trace = front ++ back ∧ (f x).Runs front (.ok value) ∧
      (xs.mapM f).Reaches back := by
  rw [List.mapM_cons] at reaches
  rcases reaches_bind reaches with cut | ⟨front, back, value, rfl, first, later⟩
  · exact .inl cut
  · rcases reaches_bind later with cut | ⟨middle, final, rest, rfl, second, last⟩
    · exact .inr ⟨front, back, value, rfl, first, cut⟩
    · rw [show final = [] from last, List.append_nil]
      exact .inr ⟨front, middle, value, rfl, first, second.reaches List.prefix_rfl⟩

section Embedding

variable {Req' : Type} {Res' : Req' → Type}

theorem runs_inl {p : Prog Req Res ε α} {wide : List (Event (Req ⊕ Req') (Sum.elim Res Res') ε)}
    {result : Except ε α} :
    p.inl.Runs wide result ↔ ∃ trace, wide = trace.map Event.inl ∧ p.Runs trace result := by
  induction p generalizing wide with
  | pure value => simp [inl, Runs]
  | throw error => simp [inl, Runs]
  | request req next ih =>
    constructor
    · rintro ⟨reply, rest, rfl, later⟩
      obtain ⟨trace, rfl, runs⟩ := (ih reply).mp later
      exact ⟨⟨req, reply⟩ :: trace, rfl, reply, trace, rfl, runs⟩
    · rintro ⟨_, rfl, reply, trace, rfl, runs⟩
      exact ⟨reply, trace.map Event.inl, rfl, (ih reply).mpr ⟨trace, rfl, runs⟩⟩

theorem runs_inr {p : Prog Req Res ε α} {wide : List (Event (Req' ⊕ Req) (Sum.elim Res' Res) ε)}
    {result : Except ε α} :
    p.inr.Runs wide result ↔ ∃ trace, wide = trace.map Event.inr ∧ p.Runs trace result := by
  induction p generalizing wide with
  | pure value => simp [inr, Runs]
  | throw error => simp [inr, Runs]
  | request req next ih =>
    constructor
    · rintro ⟨reply, rest, rfl, later⟩
      obtain ⟨trace, rfl, runs⟩ := (ih reply).mp later
      exact ⟨⟨req, reply⟩ :: trace, rfl, reply, trace, rfl, runs⟩
    · rintro ⟨_, rfl, reply, trace, rfl, runs⟩
      exact ⟨reply, trace.map Event.inr, rfl, (ih reply).mpr ⟨trace, rfl, runs⟩⟩

theorem reaches_inl {p : Prog Req Res ε α} {wide : List (Event (Req ⊕ Req') (Sum.elim Res Res') ε)}
    (reaches : p.inl.Reaches wide) : ∃ trace, wide = trace.map Event.inl ∧ p.Reaches trace := by
  induction p generalizing wide with
  | pure value => exact ⟨[], reaches, rfl⟩
  | throw error => exact ⟨[], reaches, rfl⟩
  | request req next ih =>
    rcases reaches with rfl | ⟨reply, rest, rfl, later⟩
    · exact ⟨[], rfl, .inl rfl⟩
    · obtain ⟨trace, rfl, shorter⟩ := ih reply later
      exact ⟨⟨req, reply⟩ :: trace, rfl, .inr ⟨reply, trace, rfl, shorter⟩⟩

theorem reaches_inr {p : Prog Req Res ε α} {wide : List (Event (Req' ⊕ Req) (Sum.elim Res' Res) ε)}
    (reaches : p.inr.Reaches wide) : ∃ trace, wide = trace.map Event.inr ∧ p.Reaches trace := by
  induction p generalizing wide with
  | pure value => exact ⟨[], reaches, rfl⟩
  | throw error => exact ⟨[], reaches, rfl⟩
  | request req next ih =>
    rcases reaches with rfl | ⟨reply, rest, rfl, later⟩
    · exact ⟨[], rfl, .inl rfl⟩
    · obtain ⟨trace, rfl, shorter⟩ := ih reply later
      exact ⟨⟨req, reply⟩ :: trace, rfl, .inr ⟨reply, trace, rfl, shorter⟩⟩

end Embedding

/-- A loop shows, through any observation of events, the observations of its rounds. -/
theorem Runs.mapM {γ : Type} (observe : Event Req Res ε → Option γ) {f : α → Prog Req Res ε β} {g : α → List γ}
    {xs : List α} (each : ∀ x ∈ xs, ∀ trace value, (f x).Runs trace (.ok value) → trace.filterMap observe = g x)
    {values : List β} (runs : (xs.mapM f).Runs trace (.ok values)) : trace.filterMap observe = xs.flatMap g := by
  induction xs generalizing trace values with
  | nil =>
    rw [runs.1]
    rfl
  | cons x xs ih =>
    obtain ⟨front, back, value, rest, rfl, first, later, rfl⟩ := runs_mapM_cons.mp runs
    rw [List.filterMap_append, each x (by simp) _ _ first, ih (fun y member => each y (by simp [member])) later,
      List.flatMap_cons]

theorem Runs.mapM_values {f : α → Prog Req Res ε β} {g : α → β} {xs : List α}
    (each : ∀ x ∈ xs, ∀ trace value, (f x).Runs trace (.ok value) → value = g x)
    {values : List β} (runs : (xs.mapM f).Runs trace (.ok values)) : values = xs.map g := by
  induction xs generalizing trace values with
  | nil => exact Except.ok.inj runs.2
  | cons x xs ih =>
    obtain ⟨front, back, value, rest, rfl, first, later, rfl⟩ := runs_mapM_cons.mp runs
    rw [each x (by simp) _ _ first, ih (fun y member => each y (by simp [member])) later, List.map_cons]

end Prog

end RdmaExps.Python
