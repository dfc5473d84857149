import RdmaExps.Python.Program

namespace RdmaExps.Run

open RdmaExps.Python

variable {Req W : Type} {Res : Req → Type} {ε α : Type}

/-- A program makes its next request of the world, and goes on with the reply. -/
def Advances (does : (req : Req) → W → Res req → W → Prop) : Prog Req Res ε α → W → Prog Req Res ε α → W → Prop
  | .pure _, _, _, _ => False
  | .throw _, _, _, _ => False
  | .request req next, w, q, w' => ∃ reply, does req w reply w' ∧ q = next (.ok reply)

variable {does : (req : Req) → W → Res req → W → Prop} {w w' : W} {q : Prog Req Res ε α}

@[simp] theorem advances_pure {value : α} : ¬ Advances does (Pure.pure value : Prog Req Res ε α) w q w' := id

@[simp] theorem advances_throw {error : ε} : ¬ Advances does (throw error : Prog Req Res ε α) w q w' := id

@[simp] theorem advances_call {β : Type} {req : Req} {f : Res req → Prog Req Res ε β} {q : Prog Req Res ε β} :
    Advances does (Prog.call req >>= f) w q w' ↔ ∃ reply, does req w reply w' ∧ q = f reply := Iff.rfl

@[simp] theorem advances_last {req : Req} {q : Prog Req Res ε (Res req)} :
    Advances does (Prog.call req) w q w' ↔ ∃ reply, does req w reply w' ∧ q = Pure.pure reply := Iff.rfl

theorem Advances.exists_does {p : Prog Req Res ε α} (advances : Advances does p w q w') :
    ∃ req reply, does req w reply w' := by
  cases p with
  | pure value => exact advances.elim
  | throw error => exact advances.elim
  | request req next =>
    obtain ⟨reply, does, -⟩ := advances
    exact ⟨req, reply, does⟩

theorem Advances.mono {does' : (req : Req) → W → Res req → W → Prop} {p : Prog Req Res ε α}
    (more : ∀ req w reply w', does req w reply w' → does' req w reply w') (advances : Advances does p w q w') :
    Advances does' p w q w' := by
  cases p with
  | pure value => exact advances
  | throw error => exact advances
  | request req next =>
    obtain ⟨reply, does, same⟩ := advances
    exact ⟨reply, more _ _ _ _ does, same⟩

end RdmaExps.Run
