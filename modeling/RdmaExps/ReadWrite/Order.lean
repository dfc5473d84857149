import RdmaExps.ReadWrite.Safety

namespace RdmaExps.ReadWrite

open RdmaExps.Run RdmaExps.Verbs
open RdmaExps.Transfer (Mr Buffer)

namespace Connection

variable {mode : Mode} {c d : Connection} {m : Mr}

/-- The requests of a process, in their order. -/
def plan (m : Mr) : List Request := [.message, .rdma m, .message]

/-- What is posted and not executed is the part of the plan between the two counts. -/
structure Queued (m : Mr) (c : Connection) : Prop where
  bound : c.posted ≤ 3
  sends : (plan m).drop c.executed = c.qp.sends ++ (plan m).drop c.posted

/-- How far a process is with its part of the exchange. -/
structure Control (c : Connection) : Prop where
  sendMr : c.phase = .sendMr → c.posted = 0 ∧ c.recvState = 1 ∧ c.active = false
  sendDone : c.phase = .sendDone → c.posted = 2
  idle : c.phase = .idle → c.posted ≠ 2
  one : c.posted = 1 → c.sendState = 0 ∨ c.recvState = 0
  more : 2 ≤ c.posted → 1 ≤ c.sendState ∧ 1 ≤ c.recvState
  last : c.recvState ≤ 2 ∧ (c.recvState = 2 → c.posted = 3)
  begun : c.active = true → (c.posted = 0 ↔ c.connected = false)
  awaits : c.active = false → c.posted = 0 → c.recvState = 0 ∨ c.phase = .sendMr
  answers : c.active = false → 1 ≤ c.posted → 1 ≤ c.recvState
  announces : c.posted = 1 → c.sendMsg.type = .mr
  closes : 2 ≤ c.posted → c.sendMsg.type = .done
  finished : c.disconnected = true ↔ c.sendState = 3 ∧ c.recvState = 2

/-- The completions that a message waits for. -/
def before (c : Connection) : Nat := (c.qp.completions.takeWhile fun wc => decide (wc = .sent)).length

/-- One receive is posted for each message, and the completion of the first send comes before its answer. -/
structure Inbox (c : Connection) : Prop where
  stock : c.recvState ≤ 1 → c.qp.receives + c.unread = 1
  spent : c.recvState = 2 → c.qp.receives + c.unread = 0
  early : 0 < c.unread → c.posted = 0 ∨ 1 ≤ c.sendState + c.before

/-- A process whose `on_completion` has counted a completion and comes to its check. -/
structure Counted (c : Connection) : Prop where
  posted : c.posted = 1 ∨ c.posted = 3
  one : c.posted = 1 → c.sendState = 0 ∨ c.recvState = 0 ∨ c.sendState = 1 ∧ c.recvState = 1
  three : c.posted = 3 → 1 ≤ c.sendState ∧ 1 ≤ c.recvState ∧ (c.sendState ≠ 1 ∨ c.recvState ≠ 1)
  last : c.recvState ≤ 2 ∧ (c.recvState = 2 → c.posted = 3)
  begun : c.active = true → c.connected = true
  answers : c.active = false → 1 ≤ c.recvState
  announces : c.posted = 1 → c.sendMsg.type = .mr
  closes : c.posted = 3 → c.sendMsg.type = .done
  stays : c.disconnected = false

theorem Queued.post (queued : c.Queued m) {w : Request} {rest : List Request}
    (next : (plan m).drop c.posted = w :: rest) : Queued m { c with qp := c.qp.postSend w } := by
  have more : c.posted < 3 := by
    by_contra full
    rw [List.drop_eq_nil_of_le (by simpa [plan] using full)] at next
    cases next
  have later : (plan m).drop (c.posted + 1) = rest := by
    rw [← List.tail_drop, next, List.tail_cons]
  have counted : posted { c with qp := c.qp.postSend w } = c.posted + 1 := by
    simp only [posted, executed, QueuePair.postSend_sends, List.length_append, List.length_singleton]
    rfl
  constructor
  · rw [counted]
    exact more
  · rw [counted, later]
    change (plan m).drop c.executed = c.qp.sends ++ [w] ++ rest
    rw [queued.sends, next, List.append_assoc]
    rfl

theorem Queued.congr (queued : c.Queued m) (executed : d.executed = c.executed) (sends : d.qp.sends = c.qp.sends) :
    d.Queued m := by
  have posted : d.posted = c.posted := by rw [Connection.posted, Connection.posted, executed, sends]
  constructor
  · rw [posted]
    exact queued.bound
  · rw [executed, sends, posted]
    exact queued.sends

theorem Queued.executed (queued : c.Queued m) {w : Request} (head : c.qp.sends.head? = some w) :
    Queued m { c with qp := c.qp.executed } := by
  obtain ⟨rest, sends⟩ : ∃ rest, c.qp.sends = w :: rest := List.head?_eq_some_iff.mp head
  have one := executed_executed head
  have same : posted { c with qp := c.qp.executed } = c.posted := by
    unfold posted
    rw [one, QueuePair.executed_sends, sends, List.tail_cons, List.length_cons]
    omega
  have later := queued.sends
  rw [sends] at later
  constructor
  · rw [same]
    exact queued.bound
  · rw [one, same, QueuePair.executed_sends, sends, List.tail_cons, ← List.tail_drop, later]
    rfl

theorem Queued.check (queued : c.Queued m) (peer : 0 < c.recvState → c.peerMr = m) (counted : c.Counted) :
    (c.check mode).Queued m := by
  rcases check_cases mode c with ⟨sent, received, same⟩ | ⟨-, -, same⟩ | ⟨-, -, same⟩
  · have one : c.posted = 1 := by
      rcases counted.posted with one | full
      · exact one
      · have away := counted.three full
        omega
    have next : (plan m).drop c.posted = .rdma c.peerMr :: [.message] := by
      rw [one, peer (by omega)]
      rfl
    rw [same]
    exact (queued.post next).congr rfl rfl
  · rw [same]
    exact queued.congr rfl rfl
  · rw [same]
    exact queued.congr rfl rfl

/-- Where in the plan the first request of the queue is. -/
theorem Queued.head (queued : c.Queued m) {w : Request} (head : c.qp.sends.head? = some w) :
    (plan m)[c.executed]? = some w := by
  rw [← List.head?_drop, queued.sends, List.head?_append, head]
  rfl

theorem Queued.head_message (queued : c.Queued m) (head : c.qp.sends.head? = some .message) :
    c.executed = 0 ∨ c.executed = 2 := by
  have next := queued.head head
  have below : c.executed < 3 := (List.getElem?_eq_some_iff.mp next).1
  have not_one : c.executed ≠ 1 := by
    intro one
    rw [one] at next
    cases next
  omega

theorem Queued.head_rdma (queued : c.Queued m) {remote : Mr} (head : c.qp.sends.head? = some (.rdma remote)) :
    c.executed = 1 := by
  have next := queued.head head
  have below : c.executed < 3 := (List.getElem?_eq_some_iff.mp next).1
  have not_zero : c.executed ≠ 0 := by
    intro zero
    rw [zero] at next
    cases next
  have not_two : c.executed ≠ 2 := by
    intro two
    rw [two] at next
    cases next
  omega

theorem Counted.control (counted : c.Counted) : (c.check mode).Control := by
  obtain ⟨posted, one, three, last, begun, answers, announces, closes, stays⟩ := counted
  rcases check_cases mode c with ⟨sent, received, same⟩ | ⟨sent, received, same⟩ | ⟨other, rest, same⟩
  · have here : c.posted = 1 := by
      rcases posted with one | full
      · exact one
      · have away := three full
        omega
    have next : Connection.posted (c.check mode) = 2 := by
      rw [same]
      change c.executed + (c.qp.sends ++ [_]).length = 2
      rw [List.length_append, List.length_singleton]
      unfold Connection.posted at here
      omega
    rw [same] at next ⊢
    constructor
    · exact fun other => Phase.noConfusion other
    · exact fun _ => next
    · exact fun other => Phase.noConfusion other
    · omega
    · exact fun _ => ⟨sent.ge, received.ge⟩
    · dsimp only
      omega
    · intro active
      have connected := begun active
      rw [next]
      simp [connected]
    · omega
    · exact fun passive _ => answers passive
    · omega
    · exact fun _ => rfl
    · simp [stays, sent]
  · have here : c.posted = 3 := last.2 received
    have next : Connection.posted (c.check mode) = 3 := by
      rw [same]
      exact here
    rw [same] at next ⊢
    constructor
    · exact fun other => Phase.noConfusion other
    · exact fun other => Phase.noConfusion other
    · omega
    · omega
    · have some : 1 ≤ c.sendState ∧ 1 ≤ c.recvState := by omega
      exact fun _ => some
    · exact ⟨received.le, fun _ => next⟩
    · intro active
      have connected := begun active
      rw [next]
      simp [connected]
    · omega
    · exact fun passive _ => answers passive
    · omega
    · exact fun _ => closes here
    · simp [sent, received]
  · have next : Connection.posted (c.check mode) = c.posted := by
      rw [same]
      rfl
    rw [same] at next ⊢
    constructor
    · exact fun other => Phase.noConfusion other
    · exact fun other => Phase.noConfusion other
    · omega
    · intro here
      have cases := one (next.symm.trans here)
      dsimp only
      omega
    · intro two
      have here := three (by omega)
      exact ⟨here.1, here.2.1⟩
    · refine ⟨last.1, fun received => ?_⟩
      rw [next]
      exact last.2 received
    · intro active
      have connected := begun active
      rw [next]
      simp only [connected, Bool.true_eq_false, iff_false]
      omega
    · omega
    · exact fun passive _ => answers passive
    · intro here
      exact announces (next.symm.trans here)
    · intro two
      exact closes (by omega)
    · simp [stays, rest]

end Connection

/-- The messages that `b` has from `a`. -/
structure Link (a b : Connection) : Prop where
  none : a.executed = 0 → b.recvState + b.unread = 0
  one : 1 ≤ a.executed → a.executed ≤ 2 → b.recvState + b.unread = 1
  two : 3 ≤ a.executed → b.recvState + b.unread = 2
  type : 0 < b.unread → (b.recvMsg.type = .mr ↔ b.recvState = 0)

/-- One side of an exchange in order. -/
structure Half (a b : Connection) : Prop where
  control : a.Control
  queued : a.Queued b.mr
  inbox : a.Inbox
  link : Link a b

variable {mode : Mode} {inOrder : Prop} {a b a' b' : Connection}

theorem executed_le_posted (c : Connection) : c.executed ≤ c.posted := Nat.le_add_right _ _

theorem sendState_le_executed (c : Connection) : c.sendState ≤ c.executed := by
  unfold Connection.executed
  omega

/-- Before anything of `a` has been executed, `b` can at most have announced its memory, and the server not even that. -/
theorem Half.quiet (forth : Half a b) (back : Half b a) (none : a.executed = 0) :
    a.recvState + a.unread ≤ 1 ∧ (b.active = false → a.recvState + a.unread = 0) := by
  have silent := forth.link.none none
  have few : b.posted ≤ 1 := by
    by_contra many
    have more := back.control.more (by omega)
    omega
  have executed := executed_le_posted b
  have noneBack := back.link.none
  have oneBack := back.link.one
  refine ⟨by omega, fun passive => ?_⟩
  have unposted : b.posted = 0 := by
    by_contra some
    have answers := back.control.answers passive (by omega)
    omega
  exact noneBack (by omega)

theorem Half.not_ended (forth : Half a b) {wc : Wc} {rest : List Wc} (queue : a.qp.completions = wc :: rest) :
    a.disconnected = false := by
  cases ended : a.disconnected with
  | false => rfl
  | true =>
    exfalso
    obtain ⟨sent, received⟩ := forth.control.finished.mp ended
    have bound := forth.queued.bound
    have executed := executed_le_posted a
    have spent := forth.inbox.spent received
    cases wc with
    | sent =>
      have counted := Connection.executed_polled_sent queue
      have more := sendState_le_executed { a with qp := a.qp.polled, sendState := a.sendState + 1 }
      dsimp only at more
      omega
    | recv =>
      have counted := Connection.unread_polled_recv queue
      omega

theorem Half.connected (forth : Half a b) (active : a.active = true) (some : a.posted ≠ 0) : a.connected = true := by
  by_contra fresh
  exact some ((forth.control.begun active).mpr (Bool.eq_false_iff.mpr fresh))

theorem before_recv {c : Connection} {rest : List Wc} (queue : c.qp.completions = .recv :: rest) : c.before = 0 := by
  rw [Connection.before, queue]
  rfl

/-- A send is counted. -/
theorem Half.counted_sent (forth : Half a b) (phase : a.phase = .idle) {rest : List Wc}
    (queue : a.qp.completions = .sent :: rest) :
    Connection.Counted { a with qp := a.qp.polled, sendState := a.sendState + 1 } := by
  have control := forth.control
  have bound := forth.queued.bound
  have same : Connection.posted { a with qp := a.qp.polled, sendState := a.sendState + 1 } = a.posted := by
    unfold Connection.posted
    rw [Connection.executed_polled_sent queue]
    rfl
  have some : a.sendState + 1 ≤ a.posted := by
    have executed := sendState_le_executed { a with qp := a.qp.polled, sendState := a.sendState + 1 }
    have posted := executed_le_posted { a with qp := a.qp.polled, sendState := a.sendState + 1 }
    rw [same] at posted
    exact executed.trans posted
  have idle := control.idle phase
  have last := control.last
  constructor
  · rw [same]
    omega
  · rw [same]
    dsimp only
    omega
  · rw [same]
    intro full
    have more := control.more (by omega)
    dsimp only
    omega
  · rw [same]
    exact last
  · exact fun active => forth.connected active (by omega)
  · exact fun passive => control.answers passive (by omega)
  · rw [same]
    exact control.announces
  · rw [same]
    exact fun full => control.closes (by omega)
  · exact forth.not_ended queue

/-- A message at the head of the completions: what it finds. -/
theorem Half.received (forth : Half a b) (back : Half b a) {rest : List Wc} (queue : a.qp.completions = .recv :: rest) :
    a.unread = 1 ∧ a.qp.receives = 0 ∧ a.recvState ≤ 1 ∧ (a.posted = 0 ∨ 1 ≤ a.sendState) ∧
      (a.recvMsg.type = .mr ↔ a.recvState = 0) := by
  have counted := Connection.unread_polled_recv queue
  have some : 0 < a.unread := by omega
  have early := forth.inbox.early some
  rw [before_recv queue] at early
  have last := forth.control.last
  have stock := forth.inbox.stock
  have spent := forth.inbox.spent
  refine ⟨by omega, by omega, by omega, early, back.link.type some⟩

theorem Half.later (forth : Half a b) (back : Half b a) {rest : List Wc} (queue : a.qp.completions = .recv :: rest)
    (type : a.recvMsg.type = .done) : a.recvState ≠ 0 := by
  obtain ⟨-, -, -, -, typed⟩ := forth.received back queue
  intro none
  rw [typed.mpr none] at type
  cases type

theorem Half.unposted (forth : Half a b) (back : Half b a) (roles : b.active = !a.active) (none : a.posted = 0)
    (some : 0 < a.unread) : a.active = false ∧ a.recvState = 0 := by
  have executed := executed_le_posted a
  have quiet := forth.quiet back (by omega)
  cases active : a.active with
  | false => exact ⟨rfl, by omega⟩
  | true =>
    have passive : b.active = false := by rw [roles, active]; rfl
    have nothing := quiet.2 passive
    omega

theorem Half.counted_mr (forth : Half a b) (back : Half b a) {rest : List Wc}
    (queue : a.qp.completions = .recv :: rest) (type : a.recvMsg.type = .mr) (sent : a.sendState ≠ 0) :
    Connection.Counted { a with
      qp := a.qp.polled.postRecv
      recvState := a.recvState + 1
      peerMr := a.recvMsg.mr } := by
  have control := forth.control
  obtain ⟨unread, receives, received, early, typed⟩ := forth.received back queue
  have first := typed.mp type
  have same : Connection.posted { a with
      qp := a.qp.polled.postRecv
      recvState := a.recvState + 1
      peerMr := a.recvMsg.mr } = a.posted := by
    unfold Connection.posted
    exact congrArg (· + a.qp.sends.length) (Connection.executed_polled_recv queue)
  have one : a.posted = 1 := by
    have few : a.posted < 2 := by
      by_contra many
      have more := control.more (by omega)
      omega
    have executed := executed_le_posted a
    have some := sendState_le_executed a
    omega
  constructor
  · exact .inl (same.trans one)
  · intro _
    have executed := executed_le_posted a
    have some := sendState_le_executed a
    dsimp only
    omega
  · rw [same]
    omega
  · rw [same]
    dsimp only
    omega
  · exact fun active => forth.connected active (by omega)
  · intro _
    dsimp only
    omega
  · rw [same]
    exact control.announces
  · rw [same]
    omega
  · exact forth.not_ended queue

theorem Half.counted_done (forth : Half a b) (back : Half b a) (roles : b.active = !a.active) (phase : a.phase = .idle)
    {rest : List Wc} (queue : a.qp.completions = .recv :: rest) (type : a.recvMsg.type = .done) :
    Connection.Counted { a with
      qp := a.qp.polled
      recvState := a.recvState + 1 } := by
  have control := forth.control
  obtain ⟨unread, receives, received, early, typed⟩ := forth.received back queue
  have later := forth.later back queue type
  have same : Connection.posted { a with
      qp := a.qp.polled
      recvState := a.recvState + 1 } = a.posted := by
    unfold Connection.posted
    exact congrArg (· + a.qp.sends.length) (Connection.executed_polled_recv queue)
  have full : a.posted = 3 := by
    have bound := forth.queued.bound
    have idle := control.idle phase
    have one := control.one
    have some : a.posted ≠ 0 := by
      intro none
      have unposted := forth.unposted back roles none (by omega)
      omega
    omega
  have more := control.more (by omega)
  constructor
  · exact .inr (same.trans full)
  · rw [same]
    omega
  · intro _
    dsimp only
    omega
  · rw [same]
    dsimp only
    omega
  · exact fun active => forth.connected active (by omega)
  · intro _
    dsimp only
    omega
  · rw [same]
    omega
  · exact fun _ => control.closes (by omega)
  · exact forth.not_ended queue

/-- The server's own announcement goes out. -/
theorem Half.counted_first (forth : Half a b) (poised : a.Poised) (phase : a.phase = .sendMr) :
    a.postMessage.Counted := by
  have control := forth.control
  obtain ⟨none, received, passive⟩ := control.sendMr phase
  have executed := executed_le_posted a
  have sent := sendState_le_executed a
  have unsent : a.sendState = 0 := by omega
  have one : a.postMessage.posted = 1 := by
    change a.executed + (a.qp.sends ++ [_]).length = 1
    rw [List.length_append, List.length_singleton]
    unfold Connection.posted at none
    omega
  constructor
  · exact .inl one
  · exact fun _ => .inl unsent
  · omega
  · have few : a.recvState ≤ 2 ∧ (a.recvState = 2 → a.postMessage.posted = 3) := by omega
    exact few
  · intro active
    rw [Connection.postMessage, passive] at active
    cases active
  · exact fun _ => received.ge
  · intro _
    have ready := poised.sendMr phase
    rw [Connection.postMessage, ready]
  · omega
  · cases ended : a.disconnected with
    | false => exact ended
    | true =>
      have finished := control.finished.mp ended
      omega

theorem posted_executed {c : Connection} {w : Request} (head : c.qp.sends.head? = some w) :
    Connection.posted { c with qp := c.qp.executed } = c.posted := by
  obtain ⟨rest, sends⟩ : ∃ rest, c.qp.sends = w :: rest := List.head?_eq_some_iff.mp head
  have one := Connection.executed_executed head
  unfold Connection.posted
  rw [one, QueuePair.executed_sends, sends, List.tail_cons, List.length_cons]
  omega

theorem queued_of_moves (moves : Moves mode inOrder a b a' b') (forth : Half a b) (back : Half b a)
    (roles : b.active = !a.active) (poised : a.Poised) (hears : a.Hears b.mr) : a'.Queued b.mr := by
  have queued := forth.queued
  cases moves with
  | establish stays fresh =>
    unfold Connection.onConnection
    split
    · have none := (forth.control.begun ‹_›).mpr fresh
      have next : (Connection.plan b.mr).drop a.posted = .message :: [.rdma b.mr, .message] := by
        rw [none]
        rfl
      exact (queued.post next).congr rfl rfl
    · exact queued.congr rfl rfl
  | poll wc rest stays phase queue =>
    rcases Connection.onCompletion_cases mode a queue with
      ⟨rfl, same⟩ | ⟨rfl, type, init, same⟩ | ⟨rfl, type, sent, same⟩ | ⟨rfl, type, same⟩
    · have polled := Connection.executed_polled_sent queue
      rw [same]
      exact (queued.congr polled rfl).check hears.peer (forth.counted_sent phase queue)
    · rw [same]
      exact queued.congr (Connection.executed_polled_recv queue) rfl
    · rw [same]
      apply Connection.Queued.check _ (hears.rearmed queue).peer (forth.counted_mr back queue type sent)
      exact queued.congr (Connection.executed_polled_recv queue) rfl
    · have later := forth.later back queue type
      rw [same]
      apply Connection.Queued.check _ _ (forth.counted_done back roles phase queue type)
      · exact queued.congr (Connection.executed_polled_recv queue) rfl
      · exact fun _ => hears.peer (Nat.pos_of_ne_zero later)
  | send stays phase connected =>
    unfold Connection.messageSent
    split
    · exact queued
    · have ready : a.phase = .sendMr := ‹_›
      have next : (Connection.plan b.mr).drop a.posted = .message :: [.rdma b.mr, .message] := by
        rw [(forth.control.sendMr ready).1]
        rfl
      exact (queued.post next).check hears.peer (forth.counted_first poised ready)
    · have ready : a.phase = .sendDone := ‹_›
      have next : (Connection.plan b.mr).drop a.posted = .message :: [] := by
        rw [forth.control.sendDone ready]
        rfl
      exact (queued.post next).congr rfl rfl
  | place k =>
    cases mode with
    | write => exact queued.congr rfl rfl
    | read => exact queued.congr rfl rfl
  | execute here there head whole => exact queued.executed head
  | deliver here there head room order => exact queued.executed head
  | ack stays some => exact queued.congr (Connection.executed_acked some) rfl
  | leave => exact queued.congr rfl rfl

theorem Connection.Control.congr {c d : Connection} (control : c.Control) (posted : d.posted = c.posted)
    (phase : d.phase = c.phase) (sent : d.sendState = c.sendState) (received : d.recvState = c.recvState)
    (active : d.active = c.active) (connected : d.connected = c.connected) (msg : d.sendMsg = c.sendMsg)
    (disconnected : d.disconnected = c.disconnected) : d.Control := by
  obtain ⟨sendMr, sendDone, idle, one, more, last, begun, awaits, answers, announces, closes, finished⟩ := control
  constructor <;> simp only [posted, phase, sent, received, active, connected, msg, disconnected] <;> assumption

theorem control_of_moves (moves : Moves mode inOrder a b a' b') (forth : Half a b) (back : Half b a)
    (roles : b.active = !a.active) (poised : a.Poised) : a'.Control := by
  have control := forth.control
  have executed := executed_le_posted a
  have some := sendState_le_executed a
  cases moves with
  | establish stays fresh =>
    unfold Connection.onConnection
    split
    · have active : a.active = true := ‹_›
      have none := (control.begun active).mpr fresh
      have one : Connection.posted (Connection.postMessage { a with connected := true, sendMsg := ⟨.mr, a.mr⟩ }) = 1 := by
        change a.executed + (a.qp.sends ++ [_]).length = 1
        rw [List.length_append, List.length_singleton]
        unfold Connection.posted at none
        omega
      have idle : a.phase = .idle := by
        cases phase : a.phase with
        | idle => rfl
        | sendMr =>
          have passive := (control.sendMr phase).2.2
          rw [active] at passive
          cases passive
        | sendDone =>
          have two := control.sendDone phase
          omega
      have last := control.last
      have finished := control.finished
      constructor
      · intro other
        rw [Connection.postMessage, idle] at other
        cases other
      · intro other
        rw [Connection.postMessage, idle] at other
        cases other
      · omega
      · exact fun _ => .inl (show a.sendState = 0 by omega)
      · omega
      · have few : a.recvState ≤ 2 ∧ (a.recvState = 2 → Connection.posted
            (Connection.postMessage { a with connected := true, sendMsg := ⟨.mr, a.mr⟩ }) = 3) := by omega
        exact few
      · intro _
        rw [one]
        simp [Connection.postMessage]
      · omega
      · intro passive
        rw [Connection.postMessage, active] at passive
        cases passive
      · exact fun _ => rfl
      · omega
      · exact finished
    · have passive : a.active = false := Bool.eq_false_iff.mpr ‹_›
      obtain ⟨sendMr, sendDone, idle, one, more, last, begun, awaits, answers, announces, closes, finished⟩ := control
      refine ⟨sendMr, sendDone, idle, one, more, last, fun active => ?_, awaits, answers, announces, closes, finished⟩
      rw [passive] at active
      cases active
  | poll wc rest stays phase queue =>
    rcases Connection.onCompletion_cases mode a queue with
      ⟨rfl, same⟩ | ⟨rfl, type, init, same⟩ | ⟨rfl, type, sent, same⟩ | ⟨rfl, type, same⟩
    · rw [same]
      exact (forth.counted_sent phase queue).control
    · obtain ⟨unread, receives, received, early, typed⟩ := forth.received back queue
      have none : a.posted = 0 := by omega
      obtain ⟨passive, first⟩ := forth.unposted back roles none (by omega)
      have zero : Connection.posted { a with
          qp := a.qp.polled.postRecv
          recvState := a.recvState + 1
          peerMr := a.recvMsg.mr
          sendMsg := ⟨.mr, a.mr⟩
          phase := .sendMr } = 0 := by
        rw [← none]
        unfold Connection.posted
        exact congrArg (· + a.qp.sends.length) (Connection.executed_polled_recv queue)
      have finished := control.finished
      rw [same]
      constructor
      · exact fun _ => ⟨zero, congrArg (· + 1) first, passive⟩
      · exact fun other => Phase.noConfusion other
      · exact fun other => Phase.noConfusion other
      · omega
      · omega
      · dsimp only
        omega
      · intro active
        rw [passive] at active
        cases active
      · exact fun _ _ => .inr rfl
      · omega
      · omega
      · omega
      · dsimp only
        rw [finished]
        omega
    · rw [same]
      exact (forth.counted_mr back queue type sent).control
    · rw [same]
      exact (forth.counted_done back roles phase queue type).control
  | send stays phase connected =>
    unfold Connection.messageSent
    split
    · exact control
    · exact (forth.counted_first poised ‹_›).control
    · have two := control.sendDone ‹_›
      have three : Connection.posted { a.postMessage with phase := .idle } = 3 := by
        change a.executed + (a.qp.sends ++ [_]).length = 3
        rw [List.length_append, List.length_singleton]
        unfold Connection.posted at two
        omega
      have more := control.more (by omega)
      have last := control.last
      constructor
      · exact fun other => Phase.noConfusion other
      · exact fun other => Phase.noConfusion other
      · omega
      · omega
      · exact fun _ => more
      · exact ⟨last.1, fun _ => three⟩
      · intro active
        rw [three]
        simp [connected, Connection.postMessage]
      · omega
      · exact fun _ _ => more.2
      · omega
      · exact fun _ => control.closes (by omega)
      · exact control.finished
  | place k =>
    cases mode with
    | write => exact control.congr rfl rfl rfl rfl rfl rfl rfl rfl
    | read => exact control.congr rfl rfl rfl rfl rfl rfl rfl rfl
  | execute here there head whole => exact control.congr (posted_executed head) rfl rfl rfl rfl rfl rfl rfl
  | deliver here there head room order => exact control.congr (posted_executed head) rfl rfl rfl rfl rfl rfl rfl
  | ack stays waits =>
    refine control.congr ?_ rfl rfl rfl rfl rfl rfl rfl
    exact congrArg (· + a.qp.sends.length) (Connection.executed_acked waits)
  | leave => exact control.congr rfl rfl rfl rfl rfl rfl rfl rfl

theorem length_takeWhile_append (p : Wc → Bool) (xs ys : List Wc) :
    (xs.takeWhile p).length ≤ ((xs ++ ys).takeWhile p).length := by
  rw [List.takeWhile_append]
  split
  · rw [List.length_append]
    omega
  · exact le_rfl

theorem count_le_before {c : Connection} (none : c.unread = 0) (ys : List Wc) :
    c.qp.completions.count .sent ≤ ((c.qp.completions ++ ys).takeWhile fun wc => decide (wc = .sent)).length := by
  have sent : ∀ wc ∈ c.qp.completions, decide (wc = Wc.sent) = true := by
    intro wc member
    cases wc with
    | sent => rfl
    | recv => exact absurd member (List.count_eq_zero.mp none)
  rw [List.takeWhile_append_of_pos sent, List.length_append]
  exact List.count_le_length.trans (Nat.le_add_right _ _)

theorem Connection.Inbox.keep {c d : Connection} (inbox : c.Inbox) (received : d.recvState = c.recvState)
    (receives : d.qp.receives = c.qp.receives) (unread : d.unread = c.unread)
    (early : 0 < c.unread → d.posted = 0 ∨ 1 ≤ d.sendState + d.before) : d.Inbox := by
  constructor
  · rw [received, receives, unread]
    exact inbox.stock
  · rw [received, receives, unread]
    exact inbox.spent
  · rw [unread]
    exact early

theorem Connection.Inbox.check {c : Connection} (inbox : c.Inbox) : (c.check mode).Inbox := by
  rcases check_cases mode c with ⟨sent, -, same⟩ | ⟨-, -, same⟩ | ⟨-, -, same⟩
  · rw [same]
    refine inbox.keep rfl rfl rfl ?_
    intro _
    right
    dsimp only
    omega
  · rw [same]
    exact ⟨inbox.stock, inbox.spent, inbox.early⟩
  · rw [same]
    exact ⟨inbox.stock, inbox.spent, inbox.early⟩

theorem inbox_of_moves (moves : Moves mode inOrder a b a' b') (forth : Half a b) (back : Half b a)
    (roles : b.active = !a.active) : a'.Inbox := by
  have inbox := forth.inbox
  have control := forth.control
  have executed := executed_le_posted a
  cases moves with
  | establish stays fresh =>
    unfold Connection.onConnection
    split
    · have active : a.active = true := ‹_›
      have none := (control.begun active).mpr fresh
      have passive : b.active = false := by rw [roles, active]; rfl
      have nothing := (forth.quiet back (by omega)).2 passive
      refine inbox.keep rfl rfl rfl ?_
      intro some
      omega
    · exact inbox.keep rfl rfl rfl inbox.early
  | poll wc rest stays phase queue =>
    rcases Connection.onCompletion_cases mode a queue with
      ⟨rfl, same⟩ | ⟨rfl, type, init, same⟩ | ⟨rfl, type, sent, same⟩ | ⟨rfl, type, same⟩
    · rw [same]
      apply Connection.Inbox.check
      refine inbox.keep rfl rfl (Connection.unread_polled_sent queue) ?_
      intro _
      right
      dsimp only
      omega
    · obtain ⟨unread, receives, received, early, typed⟩ := forth.received back queue
      have first := typed.mp type
      have counted := Connection.unread_polled_recv queue
      rw [same]
      constructor
      · intro _
        change a.qp.receives + 1 + Connection.unread { a with qp := a.qp.polled } = 1
        omega
      · dsimp only
        omega
      · intro some
        change 0 < Connection.unread { a with qp := a.qp.polled } at some
        omega
    · obtain ⟨unread, receives, received, early, typed⟩ := forth.received back queue
      have first := typed.mp type
      have counted := Connection.unread_polled_recv queue
      rw [same]
      apply Connection.Inbox.check
      constructor
      · intro _
        change a.qp.receives + 1 + Connection.unread { a with qp := a.qp.polled } = 1
        omega
      · dsimp only
        omega
      · intro some
        change 0 < Connection.unread { a with qp := a.qp.polled } at some
        omega
    · obtain ⟨unread, receives, received, early, typed⟩ := forth.received back queue
      have later := forth.later back queue type
      have counted := Connection.unread_polled_recv queue
      rw [same]
      apply Connection.Inbox.check
      constructor
      · dsimp only
        omega
      · intro _
        change a.qp.receives + Connection.unread { a with qp := a.qp.polled } = 0
        omega
      · intro some
        change 0 < Connection.unread { a with qp := a.qp.polled } at some
        omega
  | send stays phase connected =>
    unfold Connection.messageSent
    split
    · exact inbox
    · obtain ⟨none, received, passive⟩ := control.sendMr ‹_›
      have quiet := (forth.quiet back (by omega)).1
      apply Connection.Inbox.check
      refine inbox.keep rfl rfl rfl ?_
      intro some
      omega
    · have two := control.sendDone ‹_›
      have more := control.more (by omega)
      refine inbox.keep rfl rfl rfl ?_
      intro _
      right
      change 1 ≤ a.sendState + _
      omega
  | place k =>
    cases mode with
    | write => exact inbox.keep rfl rfl rfl inbox.early
    | read => exact inbox.keep rfl rfl rfl inbox.early
  | execute here there head whole =>
    refine inbox.keep rfl rfl rfl ?_
    rw [posted_executed head]
    exact inbox.early
  | deliver here there head room order =>
    refine inbox.keep rfl rfl rfl ?_
    rw [posted_executed head]
    exact inbox.early
  | ack stays waits =>
    refine inbox.keep rfl rfl (by simp [Connection.unread]) ?_
    intro some
    have posted : Connection.posted { a with qp := a.qp.acked .sent } = a.posted :=
      congrArg (· + a.qp.sends.length) (Connection.executed_acked waits)
    have longer : a.before ≤ Connection.before { a with qp := a.qp.acked .sent } := length_takeWhile_append _ _ _
    rw [posted]
    have early := inbox.early some
    dsimp only
    omega
  | leave => exact inbox.keep rfl rfl rfl inbox.early

theorem posted_of_peer (moves : Moves mode inOrder a b a' b') : b'.posted = b.posted := by
  have executed := executed_of_peer moves
  unfold Connection.posted
  rw [executed]
  rcases peer_cases moves with ⟨region, rfl⟩ | ⟨-, -, -, rfl⟩
  · rfl
  · rfl

/-- The peer takes a message only once its own first send is complete, or before it. -/
theorem Half.delivered (forth : Half a b) (back : Half b a) (roles : b.active = !a.active)
    (head : a.qp.sends.head? = some .message) : b.posted = 0 ∨ 1 ≤ b.executed := by
  have posted := Connection.head_posted head
  have none := back.link.none
  rcases forth.queued.head_message head with zero | two
  · have silent := forth.link.none zero
    cases active : a.active with
    | true =>
      have passive : b.active = false := by rw [roles, active]; rfl
      left
      by_contra some
      have answers := back.control.answers passive (by omega)
      omega
    | false =>
      have answers := forth.control.answers active (by omega)
      omega
  · have more := forth.control.more (by omega)
    omega

/-- What a receive that is posted says. -/
theorem Connection.Inbox.room {c : Connection} (inbox : c.Inbox) (few : c.recvState ≤ 2) (room : 0 < c.qp.receives) :
    c.recvState ≤ 1 ∧ c.qp.receives = 1 ∧ c.unread = 0 := by
  have stock := inbox.stock
  have spent := inbox.spent
  omega

theorem inbox_of_peer (moves : Moves mode True a b a' b') (forth : Half a b) (back : Half b a)
    (roles : b.active = !a.active) : b'.Inbox := by
  have inbox := back.inbox
  have posted := posted_of_peer moves
  rcases peer_cases moves with ⟨region, rfl⟩ | ⟨head, room, order, rfl⟩
  · exact inbox.keep rfl rfl rfl inbox.early
  · obtain ⟨received, one, none⟩ := inbox.room back.control.last.1 room
    have delivered := forth.delivered back roles head
    have unread : Connection.unread { b with qp := b.qp.received .recv, recvMsg := a.sendMsg } = b.unread + 1 := by
      simp [Connection.unread]
    constructor
    · intro _
      rw [unread, none, QueuePair.received_receives, one]
    · intro two
      change b.recvState = 2 at two
      omega
    · intro _
      rw [posted]
      rcases delivered with zero | some
      · exact .inl zero
      · right
        have counted := count_le_before none [.recv]
        have executed : b.executed = b.sendState + b.qp.completions.count .sent + 0 := by
          unfold Connection.executed
          rw [order trivial]
          rfl
        change 1 ≤ b.sendState + ((b.qp.completions ++ [Wc.recv]).takeWhile fun wc => decide (wc = .sent)).length
        omega

theorem control_of_peer (moves : Moves mode inOrder a b a' b') (control : b.Control) : b'.Control := by
  have posted := posted_of_peer moves
  rcases peer_cases moves with ⟨region, rfl⟩ | ⟨-, -, -, rfl⟩
  · exact control.congr posted rfl rfl rfl rfl rfl rfl rfl
  · exact control.congr posted rfl rfl rfl rfl rfl rfl rfl

theorem queued_of_peer (moves : Moves mode inOrder a b a' b') (queued : b.Queued m) : b'.Queued m := by
  have executed := executed_of_peer moves
  rcases peer_cases moves with ⟨region, rfl⟩ | ⟨-, -, -, rfl⟩
  · exact queued.congr executed rfl
  · exact queued.congr executed rfl

theorem Link.congr (link : Link a b) (executed : a'.executed = a.executed) (received : b'.recvState = b.recvState)
    (unread : b'.unread = b.unread) (msg : b'.recvMsg = b.recvMsg) : Link a' b' := by
  obtain ⟨none, one, two, type⟩ := link
  constructor <;> simp only [executed, received, unread, msg] <;> assumption

theorem link_of_moves (moves : Moves mode inOrder a b a' b') (forth : Half a b) (back : Half b a) : Link a' b' := by
  have link := forth.link
  have control := forth.control
  cases moves with
  | establish stays fresh =>
    unfold Connection.onConnection
    split <;> exact link.congr rfl rfl rfl rfl
  | poll wc rest stays phase queue =>
    rcases Connection.onCompletion_cases mode a queue with
      ⟨rfl, same⟩ | ⟨rfl, -, -, same⟩ | ⟨rfl, -, -, same⟩ | ⟨rfl, -, same⟩
    · refine link.congr ?_ rfl rfl rfl
      rw [same, (Connection.check_frame mode _).executed_eq]
      exact Connection.executed_polled_sent queue
    · refine link.congr ?_ rfl rfl rfl
      rw [same]
      exact Connection.executed_polled_recv queue
    · refine link.congr ?_ rfl rfl rfl
      rw [same, (Connection.check_frame mode _).executed_eq]
      exact Connection.executed_polled_recv queue
    · refine link.congr ?_ rfl rfl rfl
      rw [same, (Connection.check_frame mode _).executed_eq]
      exact Connection.executed_polled_recv queue
  | send stays phase connected =>
    refine link.congr ?_ rfl rfl rfl
    unfold Connection.messageSent
    split
    · rfl
    · exact (Connection.check_frame mode _).executed_eq
    · rfl
  | place k => cases mode <;> exact link.congr rfl rfl rfl rfl
  | execute here there head whole =>
    have one := forth.queued.head_rdma head
    have next := Connection.executed_executed head
    have sum := link.one one.ge (by omega)
    refine ⟨fun _ => ?_, fun _ _ => sum, fun _ => ?_, link.type⟩ <;> omega
  | deliver here there head room order =>
    obtain ⟨received, receives, none⟩ := back.inbox.room back.control.last.1 room
    have next := Connection.executed_executed head
    have posted := Connection.head_posted head
    have unread : Connection.unread { b with qp := b.qp.received .recv, recvMsg := a.sendMsg } = b.unread + 1 := by
      simp [Connection.unread]
    rcases forth.queued.head_message head with zero | two
    · have silent := link.none zero
      have one : a.posted = 1 := by
        by_contra other
        have more := control.more (by omega)
        have executed := sendState_le_executed a
        omega
      have type := control.announces one
      refine ⟨fun _ => ?_, fun _ _ => ?_, fun _ => ?_, fun _ => ⟨fun _ => ?_, fun _ => type⟩⟩
      · omega
      · change b.recvState + _ = 1
        omega
      · omega
      · change b.recvState = 0
        omega
    · have sum := link.one (by omega) two.le
      have type := control.closes (by omega)
      refine ⟨fun _ => ?_, fun _ _ => ?_, fun _ => ?_, fun _ => ⟨fun again => ?_, fun first => ?_⟩⟩
      · omega
      · omega
      · change b.recvState + _ = 2
        omega
      · change a.sendMsg.type = .mr at again
        rw [type] at again
        cases again
      · change b.recvState = 0 at first
        omega
  | ack stays waits => exact link.congr (Connection.executed_acked waits) rfl rfl rfl
  | leave => exact link.congr rfl rfl rfl rfl

theorem link_of_peer (moves : Moves mode inOrder a b a' b') (forth : Half a b) (back : Half b a) : Link b' a' := by
  have link := back.link
  have executed := executed_of_peer moves
  have taken := taken_of_moves moves
  have type : 0 < a'.unread → (a'.recvMsg.type = .mr ↔ a'.recvState = 0) := by
    cases moves with
    | establish stays fresh =>
      unfold Connection.onConnection
      split <;> exact link.type
    | poll wc rest stays phase queue =>
      have frame := Connection.check_frame mode
      rcases Connection.onCompletion_cases mode a queue with
        ⟨rfl, same⟩ | ⟨rfl, -, -, same⟩ | ⟨rfl, -, -, same⟩ | ⟨rfl, -, same⟩
      · rw [same, (frame _).unread_eq, (frame _).recvMsg, (frame _).recvState]
        have unread := Connection.unread_polled_sent queue
        intro some
        exact link.type (unread ▸ some)
      · obtain ⟨unread, -, -, -, -⟩ := forth.received back queue
        have counted := Connection.unread_polled_recv queue
        rw [same]
        intro some
        change 0 < Connection.unread { a with qp := a.qp.polled } at some
        omega
      · obtain ⟨unread, -, -, -, -⟩ := forth.received back queue
        have counted := Connection.unread_polled_recv queue
        rw [same, (frame _).unread_eq]
        intro some
        change 0 < Connection.unread { a with qp := a.qp.polled } at some
        omega
      · obtain ⟨unread, -, -, -, -⟩ := forth.received back queue
        have counted := Connection.unread_polled_recv queue
        rw [same, (frame _).unread_eq]
        intro some
        change 0 < Connection.unread { a with qp := a.qp.polled } at some
        omega
    | send stays phase connected =>
      unfold Connection.messageSent
      split
      · exact link.type
      · rw [(Connection.check_frame mode _).unread_eq, (Connection.check_frame mode _).recvMsg,
          (Connection.check_frame mode _).recvState]
        exact link.type
      · exact link.type
    | place k => cases mode <;> exact link.type
    | execute => exact link.type
    | deliver => exact link.type
    | ack =>
      intro some
      apply link.type
      simpa [Connection.unread] using some
    | leave => exact link.type
  constructor
  · rw [executed, taken]
    exact link.none
  · rw [executed, taken]
    exact link.one
  · rw [executed, taken]
    exact link.two
  · exact type

theorem active_of_moves (moves : Moves mode inOrder a b a' b') : a'.active = a.active ∧ b'.active = b.active := by
  cases moves with
  | establish => exact ⟨(Connection.keeps_onConnection a).active, rfl⟩
  | poll wc rest stays phase queue => exact ⟨(Connection.keeps_onCompletion mode queue).active, rfl⟩
  | send => exact ⟨(Connection.keeps_messageSent mode a).active, rfl⟩
  | place k => cases mode <;> exact ⟨rfl, rfl⟩
  | execute => exact ⟨rfl, rfl⟩
  | deliver => exact ⟨rfl, rfl⟩
  | ack => exact ⟨rfl, rfl⟩
  | leave => exact ⟨rfl, rfl⟩

/-- Both sides of an exchange in order. -/
structure Paired (a b : Connection) : Prop where
  sound : Sound a b ∧ Sound b a
  forth : Half a b
  back : Half b a
  roles : b.active = !a.active

theorem Paired.symm (paired : Paired a b) : Paired b a := by
  refine ⟨paired.sound.symm, paired.back, paired.forth, ?_⟩
  rw [paired.roles, Bool.not_not]

theorem paired_of_moves (moves : Moves mode True a b a' b') (paired : Paired a b) : Paired a' b' := by
  obtain ⟨⟨sound, sound'⟩, forth, back, roles⟩ := paired
  obtain ⟨mr, mr'⟩ := mr_of_moves moves
  obtain ⟨active, active'⟩ := active_of_moves moves
  refine ⟨sound_of_moves moves sound sound', ⟨?_, ?_, ?_, ?_⟩, ⟨?_, ?_, ?_, ?_⟩, ?_⟩
  · exact control_of_moves moves forth back roles sound.poised
  · rw [mr']
    exact queued_of_moves moves forth back roles sound.poised sound.hears
  · exact inbox_of_moves moves forth back roles
  · exact link_of_moves moves forth back
  · exact control_of_peer moves back.control
  · rw [mr]
    exact queued_of_peer moves back.queued
  · exact inbox_of_peer moves forth back roles
  · exact link_of_peer moves forth back
  · rw [active, active']
    exact roles

theorem Connection.Starts.half {active : Bool} (starts : a.Starts active) (starts' : b.Starts (!active)) :
    Half a b := by
  have executed := starts.executed
  have posted := starts.posted
  have unread := starts.unread
  have unread' := starts'.unread
  have receives := starts.receives
  have received := starts.recvState
  have received' := starts'.recvState
  have sent : a.sendState = 0 := starts.sendState
  refine ⟨⟨?_, ?_, ?_, ?_, ?_, ?_, ?_, ?_, ?_, ?_, ?_, ?_⟩, ⟨?_, ?_⟩, ⟨?_, ?_, ?_⟩, ⟨?_, ?_, ?_, ?_⟩⟩
  · simp [starts.phase]
  · simp [starts.phase]
  · omega
  · omega
  · omega
  · omega
  · simp [posted, starts.connected]
  · exact fun _ _ => .inl received
  · omega
  · omega
  · omega
  · simp [starts.stays, sent]
  · omega
  · rw [executed, posted, starts.qp]
    rfl
  · omega
  · omega
  · omega
  · omega
  · omega
  · omega
  · omega

theorem paired_of_reachable {s : State} (reached : Reachable Starts (Step mode True) s) : Paired s.client s.server := by
  apply reached.invariant (fun s => Paired s.client s.server)
  · intro s starts
    refine ⟨⟨starts.client.sound s.server, starts.server.sound s.client⟩, starts.client.half starts.server,
      starts.server.half starts.client, ?_⟩
    rw [starts.client.active, starts.server.active]
    rfl
  · intro s t paired step
    cases step with
    | client a b moves => exact paired_of_moves moves paired
    | server a b moves => exact (paired_of_moves moves paired.symm).symm

end RdmaExps.ReadWrite
