import RdmaExps.Run.Transition

namespace RdmaExps.Run.Session

/-- What one end of a connection does: it writes a message, reads one of a known length, waits for
    something to come, or does something of its own. -/
inductive Action (β : Type) where
  | write (message : List β)
  | read (size : Nat)
  | await (room : Nat)
  | own

/-- `buffer` holds what has been read of the message that is being read. -/
structure End (β : Type) where
  todo : List (Action β)
  buffer : List β
  got : List (List β)
  stopped : Bool

/-- The steps of one end with the streams to it and from it. A write blocks until there is room; a
    read takes what has come in, at least one symbol. -/
inductive Runs {β : Type} (fails : Prop) (capacity : Nat) : End β → List β → List β → End β → List β → List β → Prop where
  | write (e : End β) (inp out message : List β) (rest : List (Action β)) :
      e.stopped = false → e.todo = .write message :: rest → out.length + message.length ≤ capacity →
      Runs fails capacity e inp out { e with todo := rest } inp (out ++ message)
  | read (e : End β) (inp out : List β) (size k : Nat) (rest : List (Action β)) :
      e.stopped = false → e.todo = .read size :: rest → 0 < k → k ≤ inp.length → e.buffer.length + k ≤ size →
      Runs fails capacity e inp out { e with buffer := e.buffer ++ inp.take k } (inp.drop k) out
  | accept (e : End β) (inp out : List β) (rest : List (Action β)) :
      e.stopped = false → e.todo = .read e.buffer.length :: rest →
      Runs fails capacity e inp out { e with todo := rest, buffer := [], got := e.got ++ [e.buffer] } inp out
  | await (e : End β) (inp out : List β) (room k : Nat) (rest : List (Action β)) :
      e.stopped = false → e.todo = .await room :: rest → 0 < k → k ≤ inp.length → k ≤ room →
      Runs fails capacity e inp out { e with todo := rest } (inp.drop k) out
  | own (e : End β) (inp out : List β) (rest : List (Action β)) :
      e.stopped = false → e.todo = .own :: rest →
      Runs fails capacity e inp out { e with todo := rest } inp out
  | stop (e : End β) (inp out : List β) :
      fails → e.stopped = false → e.todo ≠ [] → Runs fails capacity e inp out { e with stopped := true } inp out

structure State (β : Type) where
  near : End β
  far : End β
  outward : List β
  inward : List β

inductive Step {β : Type} (fails : Prop) (capacity : Nat) : State β → State β → Prop where
  | near (s : State β) (e : End β) (inp out : List β) :
      Runs fails capacity s.near s.inward s.outward e inp out → Step fails capacity s ⟨e, s.far, out, inp⟩
  | far (s : State β) (e : End β) (inp out : List β) :
      Runs fails capacity s.far s.outward s.inward e inp out → Step fails capacity s ⟨s.near, e, inp, out⟩

variable {β : Type}

def End.start (script : List (Action β)) : End β := ⟨script, [], [], false⟩

def start (near far : List (Action β)) : State β := ⟨.start near, .start far, [], []⟩

/-- The messages that a script writes. -/
def writes : List (Action β) → List (List β)
  | [] => []
  | .write message :: rest => message :: writes rest
  | .read _ :: rest => writes rest
  | .await _ :: rest => writes rest
  | .own :: rest => writes rest

/-- The number of messages that a script waits for. -/
def listens : List (Action β) → Nat
  | [] => 0
  | .write _ :: rest => listens rest
  | .read _ :: rest => listens rest + 1
  | .await _ :: rest => listens rest + 1
  | .own :: rest => listens rest

def reads : List (Action β) → Nat
  | [] => 0
  | .write _ :: rest => reads rest
  | .read _ :: rest => reads rest + 1
  | .await _ :: rest => reads rest
  | .own :: rest => reads rest

/-- What one script writes the other reads, in the same order. Only the last message may be left
    unread in part. -/
inductive Dual : List (Action β) → List (Action β) → Prop where
  | nil : Dual [] []
  | write {message : List β} {a b : List (Action β)} :
      message ≠ [] → Dual a b → Dual (.write message :: a) (.read message.length :: b)
  | read {message : List β} {a b : List (Action β)} :
      message ≠ [] → Dual a b → Dual (.read message.length :: a) (.write message :: b)
  | writeLast {message : List β} {room : Nat} : message ≠ [] → 0 < room → Dual [.write message] [.await room]
  | awaitLast {message : List β} {room : Nat} : message ≠ [] → 0 < room → Dual [.await room] [.write message]
  | ownLeft {a b : List (Action β)} : Dual a b → Dual (.own :: a) b
  | ownRight {a b : List (Action β)} : Dual a b → Dual a (.own :: b)

theorem Dual.symm {a b : List (Action β)} (dual : Dual a b) : Dual b a := by
  induction dual with
  | nil => exact .nil
  | write nonempty _ ih => exact .read nonempty ih
  | read nonempty _ ih => exact .write nonempty ih
  | writeLast nonempty room => exact .awaitLast nonempty room
  | awaitLast nonempty room => exact .writeLast nonempty room
  | ownLeft _ ih => exact .ownRight ih
  | ownRight _ ih => exact .ownLeft ih

/-- One end writes messages of one length and the other reads as many. -/
theorem Dual.writes_reads {messages : List (List β)} {size : Nat} {a b : List (Action β)}
    (sized : ∀ message ∈ messages, message.length = size) (pos : 0 < size) (dual : Dual a b) :
    Dual (messages.map .write ++ a) (List.replicate messages.length (.read size) ++ b) := by
  induction messages with
  | nil => exact dual
  | cons message messages ih =>
    have first := sized message (by simp)
    have rest := ih fun m member => sized m (List.mem_cons_of_mem _ member)
    rw [List.map_cons, List.length_cons, List.replicate_succ, List.cons_append, List.cons_append, ← first]
    rw [← first] at rest pos
    exact .write (List.ne_nil_of_length_pos pos) rest

/-- One end has come to `a` and has written the messages that the other still has to read from `b` on. -/
inductive Behind : List (Action β) → List (List β) → List (Action β) → Prop where
  | level {a b : List (Action β)} : Dual a b → Behind a [] b
  | read {message : List β} {messages : List (List β)} {a b : List (Action β)} :
      message ≠ [] → Behind a messages b → Behind a (message :: messages) (.read message.length :: b)
  | await {message : List β} {room : Nat} : message ≠ [] → 0 < room → Behind [] [message] [.await room]
  | own {messages : List (List β)} {a b : List (Action β)} : Behind a messages b → Behind a messages (.own :: b)
  | closed {message : List β} : Behind [] [message] []

section Scripts

variable {a b : List (Action β)} {message : List β} {messages : List (List β)}

theorem Dual.written (dual : Dual (.write message :: a) b) : Behind a [message] b := by
  generalize script : Action.write message :: a = c at dual
  induction dual with
  | nil => cases script
  | write nonempty dual =>
    cases script
    exact .read nonempty (.level dual)
  | read => cases script
  | writeLast nonempty room =>
    cases script
    exact .await nonempty room
  | awaitLast => cases script
  | ownLeft => cases script
  | ownRight _ ih => exact .own (ih script)

theorem Dual.own_left (dual : Dual (.own :: a) b) : Dual a b := by
  generalize script : Action.own :: a = c at dual
  induction dual with
  | nil => cases script
  | write => cases script
  | read => cases script
  | writeLast => cases script
  | awaitLast => cases script
  | ownLeft dual =>
    cases script
    exact dual
  | ownRight _ ih => exact .ownRight (ih script)

theorem Dual.read_pos {size : Nat} (dual : Dual (.read size :: a) b) : 0 < size := by
  generalize script : Action.read size :: a = c at dual
  induction dual with
  | nil => cases script
  | write => cases script
  | read nonempty =>
    cases script
    exact List.length_pos_of_ne_nil nonempty
  | writeLast => cases script
  | awaitLast => cases script
  | ownLeft => cases script
  | ownRight _ ih => exact ih script

theorem Dual.listens_eq (dual : Dual a b) : listens a = (writes b).length ∧ listens b = (writes a).length := by
  induction dual with
  | nil => exact ⟨rfl, rfl⟩
  | write _ _ ih => simp [listens, writes, ih]
  | read _ _ ih => simp [listens, writes, ih]
  | writeLast => exact ⟨rfl, rfl⟩
  | awaitLast => exact ⟨rfl, rfl⟩
  | ownLeft _ ih => exact ih
  | ownRight _ ih => exact ih

theorem Behind.written (behind : Behind (.write message :: a) messages b) : Behind a (messages ++ [message]) b := by
  generalize script : Action.write message :: a = c at behind
  induction behind with
  | level dual =>
    subst script
    exact dual.written
  | read nonempty _ ih => exact .read nonempty (ih script)
  | await => cases script
  | own _ ih => exact .own (ih script)
  | closed => cases script

theorem Behind.own_left (behind : Behind (.own :: a) messages b) : Behind a messages b := by
  generalize script : Action.own :: a = c at behind
  induction behind with
  | level dual =>
    subst script
    exact .level dual.own_left
  | read nonempty _ ih => exact .read nonempty (ih script)
  | await => cases script
  | own _ ih => exact .own (ih script)
  | closed => cases script

theorem Behind.own_right (behind : Behind a messages (.own :: b)) : Behind a messages b := by
  cases behind with
  | level dual => exact .level dual.symm.own_left.symm
  | own behind => exact behind

theorem Behind.write_right (behind : Behind a messages (.write message :: b)) :
    messages = [] ∧ Dual (.write message :: b) a := by
  cases behind with
  | level dual => exact ⟨rfl, dual.symm⟩

theorem Behind.read_right {size : Nat} (behind : Behind a messages (.read size :: b)) :
    (messages = [] ∧ 0 < size) ∨
      ∃ message rest, messages = message :: rest ∧ message.length = size ∧ Behind a rest b := by
  cases behind with
  | level dual => exact .inl ⟨rfl, dual.symm.read_pos⟩
  | read _ behind => exact .inr ⟨_, _, rfl, rfl, behind⟩

theorem Behind.await_right {room : Nat} (behind : Behind a messages (.await room :: b)) :
    messages = [] ∨ ∃ message, messages = [message] ∧ a = [] ∧ b = [] := by
  cases behind with
  | level => exact .inl rfl
  | await => exact .inr ⟨_, rfl, rfl, rfl⟩

theorem Behind.read_pos {size : Nat} (behind : Behind (.read size :: a) messages b) : 0 < size := by
  generalize script : Action.read size :: a = c at behind
  induction behind with
  | level dual =>
    subst script
    exact dual.read_pos
  | read _ _ ih => exact ih script
  | await => cases script
  | own _ ih => exact ih script
  | closed => cases script

/-- The end that is ahead waits for everything that the other has still to write. -/
theorem Behind.listens_left (behind : Behind a messages b) : listens a = (writes b).length := by
  induction behind with
  | level dual => exact dual.listens_eq.1
  | read _ _ ih => exact ih
  | await => rfl
  | own _ ih => exact ih
  | closed => rfl

theorem Behind.le_listens_right (behind : Behind a messages b) : (writes a).length ≤ listens b := by
  induction behind with
  | level dual => exact dual.listens_eq.2.ge
  | read _ _ ih => exact Nat.le_succ_of_le ih
  | await => exact Nat.zero_le _
  | own _ ih => exact ih
  | closed => exact Nat.le_refl _

end Scripts

/-- Nothing is on the way to the end that is ahead. -/
structure Ahead (mine theirs : List (List β)) (e f : End β) (out inp : List β) (pending : List (List β)) : Prop where
  behind : Behind e.todo pending f.todo
  bytes : f.todo ≠ [] → f.buffer ++ out = pending.flatten
  partly : f.buffer ≠ [] → ∃ size rest, f.todo = .read size :: rest ∧ f.buffer.length ≤ size
  empty : inp = []
  idle : e.buffer = []
  wrote : f.got ++ (pending ++ writes e.todo) = mine
  answered : e.got ++ writes f.todo = theirs

section Steps

variable {fails : Prop} {capacity : Nat} {mine theirs pending : List (List β)} {e f e' f' : End β}
  {out inp out' inp' : List β}

theorem Ahead.first (ahead : Ahead mine theirs e f out inp pending)
    (runs : Runs fails capacity e inp out e' inp' out') : ∃ pending', Ahead mine theirs e' f out' inp' pending' := by
  obtain ⟨behind, bytes, partly, rfl, idle, wrote, answered⟩ := ahead
  cases runs with
  | write message rest _ todo _ =>
    rw [todo] at behind wrote
    refine ⟨pending ++ [message], behind.written, ?_, partly, rfl, idle, ?_, answered⟩
    · intro more
      rw [← List.append_assoc, bytes more, List.flatten_append, List.flatten_singleton]
    · rw [← wrote, writes, List.append_assoc, List.singleton_append]
  | read size k _ _ _ pos less _ => exact absurd less (by simpa using pos.ne')
  | accept rest _ todo =>
    rw [todo, idle] at behind
    exact absurd behind.read_pos (by simp)
  | await room k _ _ _ pos less _ => exact absurd less (by simpa using pos.ne')
  | own rest _ todo =>
    rw [todo] at behind wrote
    exact ⟨pending, behind.own_left, bytes, partly, rfl, idle, wrote, answered⟩
  | stop => exact ⟨pending, behind, bytes, partly, rfl, idle, wrote, answered⟩

theorem Ahead.second (ahead : Ahead mine theirs e f out inp pending)
    (runs : Runs fails capacity f out inp f' out' inp') :
    ∃ pending', Ahead mine theirs e f' out' inp' pending' ∨ Ahead theirs mine f' e inp' out' pending' := by
  obtain ⟨behind, bytes, partly, rfl, idle, wrote, answered⟩ := ahead
  cases runs with
  | write message rest _ todo _ =>
    rw [todo] at behind answered bytes
    obtain ⟨rfl, dual⟩ := behind.write_right
    have clear := List.append_eq_nil_iff.mp (bytes (by simp))
    refine ⟨[message], .inr ⟨dual.written, ?_, ?_, clear.2, clear.1, answered, wrote⟩⟩
    · intro _
      simp [idle]
    · exact fun some => absurd idle some
  | read size k rest _ todo pos less fits =>
    refine ⟨pending, .inl ⟨behind, ?_, ?_, rfl, idle, wrote, answered⟩⟩
    · intro more
      rw [← bytes more, List.append_assoc, List.take_append_drop]
    · intro _
      refine ⟨size, rest, todo, ?_⟩
      rw [List.length_append, List.length_take]
      omega
  | accept rest _ todo =>
    have sum := bytes (by simp [todo])
    rw [todo] at behind answered
    obtain ⟨rfl, pos⟩ | ⟨message, messages, rfl, length, behind⟩ := behind.read_right
    · have none := (List.append_eq_nil_iff.mp sum).1
      simp [none] at pos
    · obtain ⟨same, left⟩ := List.append_inj sum length.symm
      refine ⟨messages, .inl ⟨behind, fun _ => left, fun some => absurd rfl some, rfl, idle, ?_, answered⟩⟩
      rw [← wrote, same, List.append_assoc, List.singleton_append, List.cons_append]
  | await room k rest _ todo pos less _ =>
    have sum := bytes (by simp [todo])
    have unread : f.buffer = [] := by
      by_contra some
      obtain ⟨_, _, reading, _⟩ := partly some
      rw [todo] at reading
      cases reading
    rw [todo] at behind answered
    obtain rfl | ⟨message, rfl, finished, rfl⟩ := behind.await_right
    · have none := (List.append_eq_nil_iff.mp sum).2
      simp [none] at less
      omega
    · refine ⟨[message], .inl ⟨?_, fun more => absurd rfl more, fun some => absurd unread some, rfl, idle, wrote, answered⟩⟩
      rw [finished]
      exact .closed
  | own rest _ todo =>
    have more := bytes (by simp [todo])
    rw [todo] at behind answered
    refine ⟨pending, .inl ⟨behind.own_right, fun _ => more, ?_, rfl, idle, wrote, answered⟩⟩
    intro some
    obtain ⟨_, _, reading, _⟩ := partly some
    rw [todo] at reading
    cases reading
  | stop => exact ⟨pending, .inl ⟨behind, bytes, partly, rfl, idle, wrote, answered⟩⟩

/-- What one end does by itself: it goes on in its script and counts what it reads. -/
theorem Runs.local (runs : Runs fails capacity e inp out e' inp' out') :
    e'.todo <:+ e.todo ∧ e'.got.length + reads e'.todo = e.got.length + reads e.todo := by
  cases runs with
  | write message rest _ todo _ => simp [todo, reads]
  | read => simp
  | accept rest _ todo =>
    simp [todo, reads]
    omega
  | await room k rest _ todo _ _ _ => simp [todo, reads]
  | own rest _ todo => simp [todo, reads]
  | stop => simp

end Steps

structure Inv (a b : List (Action β)) (s : State β) : Prop where
  order : ∃ pending, Ahead (writes a) (writes b) s.near s.far s.outward s.inward pending ∨
    Ahead (writes b) (writes a) s.far s.near s.inward s.outward pending
  nearSuffix : s.near.todo <:+ a
  farSuffix : s.far.todo <:+ b
  nearReads : s.near.got.length + reads s.near.todo = reads a
  farReads : s.far.got.length + reads s.far.todo = reads b

section Reach

variable {fails : Prop} {capacity : Nat} {a b : List (Action β)} {s t : State β}

theorem Inv.start (dual : Dual a b) : Inv a b (start a b) where
  order := ⟨[], .inl ⟨.level dual, fun _ => rfl, fun some => absurd rfl some, rfl, rfl, rfl, rfl⟩⟩
  nearSuffix := List.suffix_rfl
  farSuffix := List.suffix_rfl
  nearReads := Nat.zero_add _
  farReads := Nat.zero_add _

theorem Inv.step (inv : Inv a b s) (step : Step fails capacity s t) : Inv a b t := by
  obtain ⟨⟨pending, order⟩, nearSuffix, farSuffix, nearReads, farReads⟩ := inv
  cases step with
  | near e inp out runs =>
    obtain ⟨suffix, count⟩ := runs.local
    refine ⟨?_, suffix.trans nearSuffix, farSuffix, count.trans nearReads, farReads⟩
    rcases order with ahead | ahead
    · obtain ⟨pending', ahead⟩ := ahead.first runs
      exact ⟨pending', .inl ahead⟩
    · obtain ⟨pending', ahead⟩ := ahead.second runs
      exact ⟨pending', ahead.symm⟩
  | far e inp out runs =>
    obtain ⟨suffix, count⟩ := runs.local
    refine ⟨?_, nearSuffix, suffix.trans farSuffix, nearReads, count.trans farReads⟩
    rcases order with ahead | ahead
    · obtain ⟨pending', ahead⟩ := ahead.second runs
      exact ⟨pending', ahead⟩
    · obtain ⟨pending', ahead⟩ := ahead.first runs
      exact ⟨pending', .inr ahead⟩

theorem Inv.reachable (dual : Dual a b) (reached : Reachable (· = Session.start a b) (Step fails capacity) s) : Inv a b s := by
  apply reached.invariant (Inv a b)
  · rintro _ rfl
    exact .start dual
  · intro _ _ inv step
    exact inv.step step

theorem Ahead.prefixes {mine theirs pending : List (List β)} {e f : End β} {out inp : List β}
    (ahead : Ahead mine theirs e f out inp pending) : e.got <+: theirs ∧ f.got <+: mine :=
  ⟨⟨_, ahead.answered⟩, ⟨_, ahead.wrote⟩⟩

/-- What an end has read is what the other end's script writes. -/
theorem Inv.got_eq (inv : Inv a b s) :
    s.near.got = (writes b).take (reads a - reads s.near.todo) ∧
      s.far.got = (writes a).take (reads b - reads s.far.todo) := by
  have both : s.near.got <+: writes b ∧ s.far.got <+: writes a := by
    obtain ⟨pending, ahead | ahead⟩ := inv.order
    · exact ahead.prefixes
    · exact ahead.prefixes.symm
  have nearReads := inv.nearReads
  have farReads := inv.farReads
  rw [show reads a - reads s.near.todo = s.near.got.length by omega,
    show reads b - reads s.far.todo = s.far.got.length by omega]
  exact ⟨List.prefix_iff_eq_take.mp both.1, List.prefix_iff_eq_take.mp both.2⟩

/-- An end has passed only messages that the other one has written. -/
theorem Inv.causal (inv : Inv a b s) :
    (writes s.far.todo).length ≤ listens s.near.todo ∧ (writes s.near.todo).length ≤ listens s.far.todo := by
  obtain ⟨pending, ahead | ahead⟩ := inv.order
  · exact ⟨ahead.behind.listens_left.ge, ahead.behind.le_listens_right⟩
  · exact ⟨ahead.behind.le_listens_right, ahead.behind.listens_left.ge⟩

end Reach

section Progress

variable {fails : Prop} {capacity : Nat}

/-- An end goes on, or the script is at its end, or it waits for the other one. -/
theorem Ahead.progress {mine theirs pending : List (List β)} {e f : End β} {out inp : List β}
    (ahead : Ahead mine theirs e f out inp pending) (near : e.stopped = false) (far : f.stopped = false)
    (room : ∀ message ∈ writes e.todo ++ writes f.todo, message.length ≤ capacity) :
    (e.todo = [] ∧ f.todo = []) ∨ (∃ e' inp' out', Runs fails capacity e inp out e' inp' out') ∨
      ∃ f' inp' out', Runs fails capacity f out inp f' out' inp' := by
  obtain ⟨behind, bytes, partly, rfl, idle, wrote, answered⟩ := ahead
  generalize todoE : e.todo = a at behind room
  generalize todoF : f.todo = b at behind room bytes partly
  cases behind with
  | level dual =>
    cases dual with
    | nil => exact .inl ⟨rfl, rfl⟩
    | write nonempty dual =>
      have clear := (List.append_eq_nil_iff.mp (bytes (by simp))).2
      subst clear
      exact .inr (.inl ⟨_, _, _, .write e [] [] _ _ near todoE (by simpa using room _ (by simp [writes]))⟩)
    | read nonempty dual =>
      exact .inr (.inr ⟨_, _, _, .write f out [] _ _ far todoF (by simpa using room _ (by simp [writes]))⟩)
    | writeLast nonempty _ =>
      have clear := (List.append_eq_nil_iff.mp (bytes (by simp))).2
      subst clear
      exact .inr (.inl ⟨_, _, _, .write e [] [] _ _ near todoE (by simpa using room _ (by simp [writes]))⟩)
    | awaitLast nonempty _ =>
      exact .inr (.inr ⟨_, _, _, .write f out [] _ _ far todoF (by simpa using room _ (by simp [writes]))⟩)
    | ownLeft dual => exact .inr (.inl ⟨_, _, _, .own e [] out _ near todoE⟩)
    | ownRight dual => exact .inr (.inr ⟨_, _, _, .own f out [] _ far todoF⟩)
  | read nonempty behind =>
    rename_i message messages rest
    have sum := congrArg List.length (bytes (by simp))
    rw [List.length_append, List.flatten_cons, List.length_append] at sum
    have fits : f.buffer.length ≤ message.length := by
      by_cases none : f.buffer = []
      · simp [none]
      · obtain ⟨size, _, same, le⟩ := partly none
        cases same
        exact le
    rcases fits.eq_or_lt with full | less
    · rw [← full] at todoF
      exact .inr (.inr ⟨_, _, _, .accept f out [] _ far todoF⟩)
    · exact .inr (.inr ⟨_, _, _, .read f out [] _ 1 _ far todoF (by decide) (by omega) less⟩)
  | await nonempty pos =>
    have sum := bytes (by simp)
    have unread : f.buffer = [] := by
      by_contra some
      obtain ⟨_, _, reading, _⟩ := partly some
      cases reading
    rw [unread, List.nil_append, List.flatten_singleton] at sum
    have some := List.length_pos_of_ne_nil (sum ▸ nonempty)
    exact .inr (.inr ⟨_, _, _, .await f out [] _ 1 _ far todoF (by decide) some pos⟩)
  | own behind => exact .inr (.inr ⟨_, _, _, .own f out [] _ far todoF⟩)
  | closed => exact .inl ⟨rfl, rfl⟩

/-- The steps that an end takes for its script, at most. -/
def cost : List (Action β) → Nat
  | [] => 0
  | .write message :: rest => message.length + 1 + cost rest
  | .read _ :: rest => cost rest + 1
  | .await _ :: rest => cost rest + 1
  | .own :: rest => cost rest + 1

theorem cost_append (a b : List (Action β)) : cost (a ++ b) = cost a + cost b := by
  induction a with
  | nil => exact (Nat.zero_add _).symm
  | cons action a ih =>
    cases action <;> simp only [List.cons_append, cost, ih] <;> omega

theorem cost_flatMap {γ : Type} {items : List γ} {f : γ → List (Action β)} {n : Nat}
    (each : ∀ item ∈ items, cost (f item) = n) :
    cost (items.flatMap f) = items.length * n := by
  induction items with
  | nil => exact (Nat.zero_mul n).symm
  | cons item items ih =>
    rw [List.flatMap_cons, cost_append, ih fun i member => each i (List.mem_cons_of_mem _ member),
      each item List.mem_cons_self, List.length_cons, Nat.succ_mul, Nat.add_comm]

def End.rank (e : End β) : Nat := cost e.todo + if e.stopped then 0 else 1

def State.rank (s : State β) : Nat := s.near.rank + s.far.rank + s.outward.length + s.inward.length

theorem Runs.rank_lt {e e' : End β} {inp out inp' out' : List β} (runs : Runs fails capacity e inp out e' inp' out') :
    e'.rank + inp'.length + out'.length < e.rank + inp.length + out.length := by
  cases runs with
  | write message rest _ todo _ =>
    simp only [End.rank, todo, cost, List.length_append]
    omega
  | read size k rest _ _ pos less _ =>
    simp only [End.rank, List.length_drop]
    omega
  | accept rest _ todo =>
    simp only [End.rank, todo, cost]
    omega
  | await room k rest _ todo pos less _ =>
    simp only [End.rank, todo, cost, List.length_drop]
    omega
  | own rest _ todo =>
    simp only [End.rank, todo, cost]
    omega
  | stop _ going _ =>
    simp only [End.rank, going]
    simp

theorem Step.rank_lt {s t : State β} (step : Step fails capacity s t) : t.rank < s.rank := by
  cases step with
  | near e inp out runs =>
    have less := runs.rank_lt
    simp only [State.rank]
    omega
  | far e inp out runs =>
    have less := runs.rank_lt
    simp only [State.rank]
    omega

/-- No run is longer than the two scripts and the messages in them. -/
theorem chain_le {s t : State β} {n : Nat} (chain : Chain (Step fails capacity) n s t) : n ≤ s.rank := by
  apply chain_le_rank (fun rank s => s.rank = rank) _ rfl chain
  intro rank s t same step
  exact ⟨t.rank, same ▸ step.rank_lt, rfl⟩

end Progress

theorem writes_append (a b : List (Action β)) : writes (a ++ b) = writes a ++ writes b := by
  induction a with
  | nil => rfl
  | cons action a ih => cases action <;> simp [writes, ih]

@[simp] theorem writes_map_write (messages : List (List β)) : writes (messages.map .write) = messages := by
  induction messages with
  | nil => rfl
  | cons message messages ih => simp [writes, ih]

@[simp] theorem writes_replicate_read (n size : Nat) : writes (List.replicate n (.read size : Action β)) = [] := by
  induction n with
  | zero => rfl
  | succ n ih => simpa [List.replicate_succ, writes] using ih

theorem reads_append (a b : List (Action β)) : reads (a ++ b) = reads a + reads b := by
  induction a with
  | nil => exact (Nat.zero_add _).symm
  | cons action a ih =>
    cases action <;> simp [reads, ih]
    omega

theorem writes_flatMap {γ : Type} (items : List γ) (f : γ → List (Action β)) :
    writes (items.flatMap f) = items.flatMap fun item => writes (f item) := by
  induction items with
  | nil => rfl
  | cons item items ih => rw [List.flatMap_cons, writes_append, ih, List.flatMap_cons]

theorem reads_flatMap {γ : Type} {items : List γ} {f : γ → List (Action β)} {n : Nat}
    (each : ∀ item ∈ items, reads (f item) = n) :
    reads (items.flatMap f) = items.length * n := by
  induction items with
  | nil => exact (Nat.zero_mul n).symm
  | cons item items ih =>
    rw [List.flatMap_cons, reads_append, ih fun i member => each i (List.mem_cons_of_mem _ member),
      each item List.mem_cons_self, List.length_cons, Nat.succ_mul, Nat.add_comm]

@[simp] theorem reads_map_write (messages : List (List β)) : reads (messages.map .write) = 0 := by
  induction messages with
  | nil => rfl
  | cons message messages ih => simp [reads, ih]

@[simp] theorem reads_replicate_read (n size : Nat) : reads (List.replicate n (.read size : Action β)) = n := by
  induction n with
  | zero => rfl
  | succ n ih => simp [List.replicate_succ, reads, ih]

theorem listens_eq_reads {a : List (Action β)} (none : ∀ room, .await room ∉ a) : listens a = reads a := by
  induction a with
  | nil => rfl
  | cons action a ih =>
    have rest := ih fun room member => none room (List.mem_cons_of_mem _ member)
    cases action with
    | write => simpa [listens, reads] using rest
    | read => simpa [listens, reads] using rest
    | await room => exact absurd List.mem_cons_self (none room)
    | own => simpa [listens, reads] using rest

/-- What is left of a script is from before an action of it, or from after it. -/
theorem suffix_of_action {a b todo : List (Action β)} {action : Action β} (suffix : todo <:+ a ++ action :: b) :
    action :: b <:+ todo ∨ todo <:+ b := by
  rcases List.suffix_or_suffix_of_suffix suffix (List.suffix_append a (action :: b)) with inside | before
  · rcases List.suffix_cons_iff.mp inside with rfl | after
    · exact .inl List.suffix_rfl
    · exact .inr after
  · exact .inl before

theorem mem_writes_of_suffix {a todo : List (Action β)} {message : List β} (suffix : todo <:+ a)
    (member : message ∈ writes todo) : message ∈ writes a := by
  obtain ⟨done, rfl⟩ := suffix
  rw [writes_append]
  exact List.mem_append_right _ member

theorem Runs.not_stopped {capacity : Nat} {e e' : End β} {inp out inp' out' : List β}
    (runs : Runs False capacity e inp out e' inp' out') : e'.stopped = false := by
  cases runs with
  | write _ _ going => exact going
  | read _ _ _ going => exact going
  | accept _ going => exact going
  | await _ _ _ going => exact going
  | own _ going => exact going
  | stop fails => exact fails.elim

theorem Inv.progress {capacity : Nat} {a b : List (Action β)} {s : State β} (inv : Inv a b s)
    (room : ∀ message ∈ writes a ++ writes b, message.length ≤ capacity) (near : s.near.stopped = false)
    (far : s.far.stopped = false) :
    (s.near.todo = [] ∧ s.far.todo = []) ∨ ∃ t, Step False capacity s t := by
  have left : ∀ message, message ∈ writes s.near.todo ∨ message ∈ writes s.far.todo → message.length ≤ capacity := by
    intro message member
    apply room
    rcases member with member | member
    · exact List.mem_append_left _ (mem_writes_of_suffix inv.nearSuffix member)
    · exact List.mem_append_right _ (mem_writes_of_suffix inv.farSuffix member)
  obtain ⟨pending, ahead | ahead⟩ := inv.order
  · rcases ahead.progress near far fun message member => left message (List.mem_append.mp member) with
      done | ⟨e, inp, out, runs⟩ | ⟨e, inp, out, runs⟩
    · exact .inl done
    · exact .inr ⟨_, .near s e inp out runs⟩
    · exact .inr ⟨_, .far s e out inp runs⟩
  · rcases ahead.progress far near fun message member => left message (List.mem_append.mp member).symm with
      done | ⟨e, inp, out, runs⟩ | ⟨e, inp, out, runs⟩
    · exact .inl done.symm
    · exact .inr ⟨_, .far s e inp out runs⟩
    · exact .inr ⟨_, .near s e out inp runs⟩

/-- Where nothing fails and the connection holds any one message, both ends come to the end of their scripts. -/
theorem leads {capacity : Nat} {a b : List (Action β)} (dual : Dual a b)
    (room : ∀ message ∈ writes a ++ writes b, message.length ≤ capacity) :
    Leads (Step False capacity) (fun s => s.near.todo = [] ∧ s.far.todo = [] ∧ Inv a b s) (start a b) := by
  apply leads_of_rank fun rank s => Inv a b s ∧ s.near.stopped = false ∧ s.far.stopped = false ∧ s.rank = rank
  · intro _ s holds
    obtain ⟨inv, near, far, _⟩ := holds
    rcases inv.progress room near far with done | moves
    · exact .inl ⟨done.1, done.2, inv⟩
    · exact .inr moves
  · intro _ s t holds step
    obtain ⟨inv, near, far, rfl⟩ := holds
    refine ⟨t.rank, step.rank_lt, inv.step step, ?_, ?_, rfl⟩
    · cases step with
      | near _ _ _ runs => exact runs.not_stopped
      | far => exact near
    · cases step with
      | near => exact far
      | far _ _ _ runs => exact runs.not_stopped
  · exact ⟨.start dual, rfl, rfl, rfl⟩

end RdmaExps.Run.Session
