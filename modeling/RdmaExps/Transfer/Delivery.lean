import RdmaExps.Transfer.Invariant

namespace RdmaExps.Transfer

open RdmaExps.Python RdmaExps.Verbs RdmaExps.Wire RdmaExps.Run

/-- What a transfer is for: a new file that grows until it is the source's file. -/
structure Copy where
  target : Option (List Byte)
  finished : Bool

namespace Copy

inductive Step (file : List Byte) : Copy → Copy → Prop where
  | create (finished : Bool) : Step file ⟨none, finished⟩ ⟨some [], finished⟩
  | append (got chunk : List Byte) (finished : Bool) :
      got ++ chunk <+: file → Step file ⟨some got, finished⟩ ⟨some (got ++ chunk), finished⟩
  | finish : Step file ⟨some file, false⟩ ⟨some file, true⟩

def Starts (copy : Copy) : Prop := copy = ⟨none, false⟩

variable {file : List Byte} {copy : Copy}

theorem prefix_of_reachable (reached : Reachable Starts (Step file) copy) :
    (∀ got, copy.target = some got → got <+: file) ∧ (copy.finished = true → copy.target = some file) := by
  apply reached.invariant (fun copy => (∀ got, copy.target = some got → got <+: file) ∧
    (copy.finished = true → copy.target = some file))
  · rintro copy rfl
    exact ⟨nofun, nofun⟩
  · intro copy next inv step
    cases step with
    | create finished => exact ⟨by simp, fun done => absurd (inv.2 done) nofun⟩
    | append got chunk finished within =>
      refine ⟨fun _ same => Option.some.inj same ▸ within, fun done => ?_⟩
      have whole := Option.some.inj (inv.2 done)
      rw [whole] at within ⊢
      have none : chunk.length = 0 := by simpa using within.length_le
      rw [List.length_eq_zero_iff.mp none, List.append_nil]
    | finish => exact ⟨by simp, fun _ => rfl⟩

end Copy

/-- The file that the connection has opened, whatever others do to the directory. -/
def State.copy (s : State) : Copy := ⟨s.server.fd.bind s.server.files, s.client.disconnected⟩

variable {setup : Setup} {s t : State}

theorem MessageId.Due.ledger (id : MessageId) {b : Books} (due : id.Due setup b) :
    b.fd = none ∨ ∃ rest, Ledger setup rest b := by
  cases id with
  | invalid => exact due.elim
  | mr => exact .inl due.unopened
  | ready => exact .inr ⟨_, due.2⟩
  | done => exact .inr ⟨[], setup.file, due.1, List.append_nil _⟩

theorem Load.Due.ledger {load : Load} {b : Books} (due : load.Due setup b) : b.fd = none ∨ ∃ rest, Ledger setup rest b := by
  cases load with
  | name => exact .inl due.unopened
  | chunk got data => exact .inr ⟨data ++ b.unread, got, due.1, (List.append_assoc ..).symm.trans due.2.1⟩

theorem Inv.ledger (inv : Inv setup s) : s.server.fd = none ∨ ∃ rest, Ledger setup rest s.books := by
  obtain ⟨turn, late, holds⟩ := inv
  have data := holds.data
  cases turn with
  | accept | setId | storePeer => exact .inl data.unopened
  | setMr | greet | storeName => exact .inl data.1.unopened
  | message id | inbox id | look id | reply id => exact MessageId.Due.ledger id data.1
  | post load | flight load moved | arrived load | check load => exact Load.Due.ledger data.1.due
  | copyName => exact .inl data.1.due.unopened
  | write got bytes => exact Load.Due.ledger data.1.due
  | openNew => exact .inl data.2.1
  | read | rearm | setReady => exact MessageId.Due.ledger .ready data
  | setDone | disconnect | finished | hungUp | closed => exact MessageId.Due.ledger .done data
  | failed error => exact data

theorem Inv.disconnected (inv : Inv setup s) (gone : s.client.disconnected = true) :
    MessageId.done.Due setup s.books ∧ s.server.poller = pure () := by
  obtain ⟨turn, late, holds⟩ := inv
  have data := holds.data
  have poller := holds.serverPoller
  have client : true = ((turn.client setup).shape late).disconnected :=
    gone.symm.trans (congrArg ClientShape.disconnected holds.client)
  cases turn with
  | finished | hungUp | closed => exact ⟨data, poller⟩
  | _ => cases late <;> cases client

theorem Inv.within (inv : Inv setup s) {got : List Byte} (copied : s.server.fd.bind s.server.files = some got) :
    got <+: setup.file := by
  rcases inv.ledger with unopened | ⟨rest, held, holds, whole⟩
  · rw [show s.server.fd = none from unopened] at copied
    cases copied
  · rw [show s.server.fd = some setup.target from holds.opened] at copied
    cases holds.content.symm.trans copied
    exact ⟨rest, whole⟩

end RdmaExps.Transfer
