import RdmaExps.ReadWrite.Connection

namespace RdmaExps.ReadWrite

open RdmaExps.Run RdmaExps.Verbs
open RdmaExps.Transfer (Mr Buffer)

namespace Connection

variable {mode : Mode} {c : Connection} {m : Mr}

/-- The requests whose work is done at the peer. -/
def executed (c : Connection) : Nat := c.sendState + c.qp.completions.count .sent + c.qp.unacked.length

def posted (c : Connection) : Nat := c.executed + c.qp.sends.length

/-- The messages that have come in and are not handled. -/
def unread (c : Connection) : Nat := c.qp.completions.count .recv

theorem check_cases (mode : Mode) (c : Connection) :
    (c.sendState = 1 ∧ c.recvState = 1 ∧ c.check mode = { c with
      qp := c.qp.postSend (.rdma c.peerMr)
      sendMsg := { c.sendMsg with type := .done }
      phase := .sendDone }) ∨
    (c.sendState = 3 ∧ c.recvState = 2 ∧ c.check mode = { c with
      printed := some (c.inbox mode)
      disconnected := true
      phase := .idle }) ∨
    (¬ (c.sendState = 1 ∧ c.recvState = 1) ∧ ¬ (c.sendState = 3 ∧ c.recvState = 2) ∧
      c.check mode = { c with phase := .idle }) := by
  by_cases first : c.sendState = 1 ∧ c.recvState = 1
  · exact .inl ⟨first.1, first.2, if_pos first⟩
  · have skip : ¬ (c.sendState = SS_MR_SENT ∧ c.recvState = RS_MR_RECV) := first
    by_cases last : c.sendState = 3 ∧ c.recvState = 2
    · exact .inr (.inl ⟨last.1, last.2, (if_neg skip).trans (if_pos last)⟩)
    · exact .inr (.inr ⟨first, last, (if_neg skip).trans (if_neg last)⟩)

/-- What the check leaves as it is. -/
structure Frame (c d : Connection) : Prop where
  active : d.active = c.active
  mr : d.mr = c.mr
  localRegion : d.localRegion = c.localRegion
  remoteRegion : d.remoteRegion = c.remoteRegion
  recvMsg : d.recvMsg = c.recvMsg
  peerMr : d.peerMr = c.peerMr
  sendState : d.sendState = c.sendState
  recvState : d.recvState = c.recvState
  connected : d.connected = c.connected
  moved : d.qp.moved = c.qp.moved
  unacked : d.qp.unacked = c.qp.unacked
  receives : d.qp.receives = c.qp.receives
  completions : d.qp.completions = c.qp.completions
  gone : d.gone = c.gone

theorem check_frame (mode : Mode) (c : Connection) : c.Frame (c.check mode) := by
  rcases check_cases mode c with ⟨-, -, same⟩ | ⟨-, -, same⟩ | ⟨-, -, same⟩
  · rw [same]
    constructor <;> rfl
  · rw [same]
    constructor <;> rfl
  · rw [same]
    constructor <;> rfl

theorem Frame.executed_eq {d : Connection} (frame : c.Frame d) : d.executed = c.executed := by
  unfold executed
  rw [frame.sendState, frame.completions, frame.unacked]

theorem Frame.unread_eq {d : Connection} (frame : c.Frame d) : d.unread = c.unread := by
  unfold unread
  rw [frame.completions]

/-- What the program itself never changes. -/
structure Keeps (c d : Connection) : Prop where
  active : d.active = c.active
  mr : d.mr = c.mr
  localRegion : d.localRegion = c.localRegion
  remoteRegion : d.remoteRegion = c.remoteRegion
  moved : d.qp.moved = c.qp.moved
  gone : d.gone = c.gone

theorem Keeps.check {d : Connection} (keeps : c.Keeps d) : c.Keeps (d.check mode) := by
  have frame := check_frame mode d
  constructor
  · exact frame.active.trans keeps.active
  · exact frame.mr.trans keeps.mr
  · exact frame.localRegion.trans keeps.localRegion
  · exact frame.remoteRegion.trans keeps.remoteRegion
  · exact frame.moved.trans keeps.moved
  · exact frame.gone.trans keeps.gone

theorem keeps_onConnection (c : Connection) : c.Keeps c.onConnection := by
  unfold onConnection
  split
  · exact ⟨rfl, rfl, rfl, rfl, rfl, rfl⟩
  · exact ⟨rfl, rfl, rfl, rfl, rfl, rfl⟩

theorem keeps_messageSent (mode : Mode) (c : Connection) : c.Keeps (c.messageSent mode) := by
  unfold messageSent
  split
  · exact ⟨rfl, rfl, rfl, rfl, rfl, rfl⟩
  · apply Keeps.check
    exact ⟨rfl, rfl, rfl, rfl, rfl, rfl⟩
  · exact ⟨rfl, rfl, rfl, rfl, rfl, rfl⟩

/-- What is on the way from a process tells the peer where its memory is, and that first. -/
structure Tells (c : Connection) : Prop where
  own : 0 < c.posted → c.sendMsg.mr = c.mr
  first : c.executed = 0 → c.qp.sends ≠ [] → c.sendMsg.type = .mr
  plain : c.executed = 0 → ∀ remote, Request.rdma remote ∉ c.qp.sends

/-- The message that is about to be sent. -/
structure Poised (c : Connection) : Prop where
  sendMr : c.phase = .sendMr → c.sendMsg = ⟨.mr, c.mr⟩
  sendDone : c.phase = .sendDone → 0 < c.executed

/-- What a process has from its peer, whose memory is `m`. -/
structure Hears (m : Mr) (c : Connection) : Prop where
  arrived : 0 < c.unread → c.recvMsg.mr = m
  opening : 0 < c.unread → c.recvState = 0 → c.recvMsg.type = .mr
  peer : 0 < c.recvState → c.peerMr = m
  room : c.qp.receives + c.unread ≤ 1
  target : ∀ remote, Request.rdma remote ∈ c.qp.sends → remote = m

theorem executed_pos (sent : c.sendState = 1) : 0 < c.executed := by
  unfold executed
  omega

theorem Tells.own_of_executed (tells : c.Tells) (some : 0 < c.executed) : c.sendMsg.mr = c.mr := by
  apply tells.own
  unfold posted
  omega

theorem Tells.congr (tells : c.Tells) {d : Connection} (executed : d.executed = c.executed)
    (sends : d.qp.sends = c.qp.sends) (msg : d.sendMsg = c.sendMsg) (mr : d.mr = c.mr) : d.Tells := by
  have posted : d.posted = c.posted := by rw [Connection.posted, Connection.posted, executed, sends]
  constructor
  · rw [posted, msg, mr]
    exact tells.own
  · rw [executed, sends, msg]
    exact tells.first
  · rw [executed, sends]
    exact tells.plain

theorem Poised.congr (poised : c.Poised) {d : Connection} (phase : d.phase = c.phase)
    (executed : c.executed ≤ d.executed) (msg : d.sendMsg = c.sendMsg) (mr : d.mr = c.mr) : d.Poised := by
  constructor
  · rw [phase, msg, mr]
    exact poised.sendMr
  · rw [phase]
    intro done
    have some := poised.sendDone done
    omega

theorem poised_idle (idle : c.phase = .idle) : c.Poised := by
  constructor
  · intro other
    rw [idle] at other
    cases other
  · intro other
    rw [idle] at other
    cases other

theorem Tells.check (tells : c.Tells) : (c.check mode).Tells := by
  rcases check_cases mode c with ⟨sent, -, same⟩ | ⟨-, -, same⟩ | ⟨-, -, same⟩
  · have some := executed_pos sent
    rw [same]
    refine ⟨fun _ => tells.own_of_executed some, fun none => absurd none ?_, fun none => absurd none ?_⟩
    · exact Nat.pos_iff_ne_zero.mp some
    · exact Nat.pos_iff_ne_zero.mp some
  · rw [same]
    exact ⟨tells.own, tells.first, tells.plain⟩
  · rw [same]
    exact ⟨tells.own, tells.first, tells.plain⟩

theorem poised_check (mode : Mode) (c : Connection) : (c.check mode).Poised := by
  rcases check_cases mode c with ⟨sent, -, same⟩ | ⟨-, -, same⟩ | ⟨-, -, same⟩
  · rw [same]
    exact ⟨fun other => Phase.noConfusion other, fun _ => executed_pos sent⟩
  · rw [same]
    exact ⟨fun other => Phase.noConfusion other, fun other => Phase.noConfusion other⟩
  · rw [same]
    exact ⟨fun other => Phase.noConfusion other, fun other => Phase.noConfusion other⟩

theorem Hears.fewer (hears : c.Hears m) {d : Connection} (unread : d.unread = c.unread) (msg : d.recvMsg = c.recvMsg)
    (received : d.recvState = c.recvState) (peer : d.peerMr = c.peerMr) (receives : d.qp.receives = c.qp.receives)
    (sends : d.qp.sends ⊆ c.qp.sends) : d.Hears m := by
  constructor
  · rw [unread, msg]
    exact hears.arrived
  · rw [unread, msg, received]
    exact hears.opening
  · rw [received, peer]
    exact hears.peer
  · rw [receives, unread]
    exact hears.room
  · intro remote member
    exact hears.target remote (sends member)

theorem Hears.congr (hears : c.Hears m) {d : Connection} (unread : d.unread = c.unread) (msg : d.recvMsg = c.recvMsg)
    (received : d.recvState = c.recvState) (peer : d.peerMr = c.peerMr) (receives : d.qp.receives = c.qp.receives)
    (sends : d.qp.sends = c.qp.sends) : d.Hears m :=
  hears.fewer unread msg received peer receives (by rw [sends]; exact List.Subset.refl _)

theorem Hears.check (hears : c.Hears m) : (c.check mode).Hears m := by
  rcases check_cases mode c with ⟨-, received, same⟩ | ⟨-, -, same⟩ | ⟨-, -, same⟩
  · rw [same]
    refine ⟨hears.arrived, hears.opening, hears.peer, hears.room, ?_⟩
    intro remote member
    rw [QueuePair.postSend_sends, List.mem_append, List.mem_singleton] at member
    rcases member with before | now
    · exact hears.target remote before
    · cases now
      apply hears.peer
      omega
  · rw [same]
    exact ⟨hears.arrived, hears.opening, hears.peer, hears.room, hears.target⟩
  · rw [same]
    exact ⟨hears.arrived, hears.opening, hears.peer, hears.room, hears.target⟩

theorem Tells.postMessage (tells : c.Tells) (own : c.sendMsg.mr = c.mr)
    (first : c.executed = 0 → c.sendMsg.type = .mr) : Tells { c with qp := c.qp.postSend .message } := by
  refine ⟨fun _ => own, fun none _ => first none, ?_⟩
  intro none remote member
  rw [QueuePair.postSend_sends, List.mem_append, List.mem_singleton] at member
  rcases member with before | now
  · exact tells.plain none remote before
  · cases now

theorem Hears.postMessage (hears : c.Hears m) : Hears m { c with qp := c.qp.postSend .message } := by
  refine ⟨hears.arrived, hears.opening, hears.peer, hears.room, ?_⟩
  intro remote member
  rw [QueuePair.postSend_sends, List.mem_append, List.mem_singleton] at member
  rcases member with before | now
  · exact hears.target remote before
  · cases now

theorem executed_polled_sent {rest : List Wc} (queue : c.qp.completions = .sent :: rest) :
    executed { c with qp := c.qp.polled, sendState := c.sendState + 1 } = c.executed := by
  simp only [executed, QueuePair.polled_completions, QueuePair.polled_unacked, queue, List.tail_cons, List.count_cons_self]
  omega

theorem executed_polled_recv {rest : List Wc} (queue : c.qp.completions = .recv :: rest) :
    executed { c with qp := c.qp.polled } = c.executed := by
  simp [executed, queue]

theorem unread_polled_sent {rest : List Wc} (queue : c.qp.completions = .sent :: rest) :
    unread { c with qp := c.qp.polled } = c.unread := by
  simp [unread, queue]

theorem unread_polled_recv {rest : List Wc} (queue : c.qp.completions = .recv :: rest) :
    unread { c with qp := c.qp.polled } + 1 = c.unread := by
  simp [unread, queue]

/-- A message with the peer's memory is handled, and the next receive is posted. -/
theorem Hears.rearmed (hears : c.Hears m) {rest : List Wc} (queue : c.qp.completions = .recv :: rest) :
    Hears m { c with qp := c.qp.polled.postRecv, recvState := c.recvState + 1, peerMr := c.recvMsg.mr } := by
  have counted := unread_polled_recv queue
  have some : 0 < c.unread := by omega
  have room := hears.room
  have here := hears.arrived some
  refine ⟨fun _ => here, fun _ none => absurd none (Nat.succ_ne_zero _), fun _ => here, ?_, hears.target⟩
  change c.qp.receives + 1 + unread { c with qp := c.qp.polled } ≤ 1
  omega

/-- A completion of either kind has been taken, and the rest of `on_completion` is the check, or a `send_message`. -/
theorem onCompletion_cases (mode : Mode) (c : Connection) {wc : Wc} {rest : List Wc}
    (queue : c.qp.completions = wc :: rest) :
    (wc = .sent ∧ onCompletion mode wc { c with qp := c.qp.polled } =
      check mode { c with qp := c.qp.polled, sendState := c.sendState + 1 }) ∨
    (wc = .recv ∧ c.recvMsg.type = .mr ∧ c.sendState = 0 ∧
      onCompletion mode wc { c with qp := c.qp.polled } = { c with
        qp := c.qp.polled.postRecv
        recvState := c.recvState + 1
        peerMr := c.recvMsg.mr
        sendMsg := ⟨.mr, c.mr⟩
        phase := .sendMr }) ∨
    (wc = .recv ∧ c.recvMsg.type = .mr ∧ c.sendState ≠ 0 ∧
      onCompletion mode wc { c with qp := c.qp.polled } = check mode { c with
        qp := c.qp.polled.postRecv
        recvState := c.recvState + 1
        peerMr := c.recvMsg.mr }) ∨
    (wc = .recv ∧ c.recvMsg.type = .done ∧
      onCompletion mode wc { c with qp := c.qp.polled } =
        check mode { c with qp := c.qp.polled, recvState := c.recvState + 1 }) := by
  cases wc with
  | sent => exact .inl ⟨rfl, rfl⟩
  | recv =>
    unfold onCompletion
    dsimp only
    cases type : c.recvMsg.type with
    | done => exact .inr (.inr (.inr ⟨rfl, rfl, rfl⟩))
    | mr =>
      by_cases init : c.sendState = 0
      · exact .inr (.inl ⟨rfl, rfl, init, if_pos init⟩)
      · exact .inr (.inr (.inl ⟨rfl, rfl, init, if_neg init⟩))

theorem keeps_onCompletion (mode : Mode) {wc : Wc} {rest : List Wc} (queue : c.qp.completions = wc :: rest) :
    c.Keeps (onCompletion mode wc { c with qp := c.qp.polled }) := by
  rcases onCompletion_cases mode c queue with ⟨-, same⟩ | ⟨-, -, -, same⟩ | ⟨-, -, -, same⟩ | ⟨-, -, same⟩
  · rw [same]
    apply Keeps.check
    exact ⟨rfl, rfl, rfl, rfl, rfl, rfl⟩
  · rw [same]
    exact ⟨rfl, rfl, rfl, rfl, rfl, rfl⟩
  · rw [same]
    apply Keeps.check
    exact ⟨rfl, rfl, rfl, rfl, rfl, rfl⟩
  · rw [same]
    apply Keeps.check
    exact ⟨rfl, rfl, rfl, rfl, rfl, rfl⟩

theorem executed_executed {w : Request} (head : c.qp.sends.head? = some w) :
    executed { c with qp := c.qp.executed } = c.executed + 1 := by
  simp only [executed, QueuePair.executed_completions, QueuePair.executed_unacked, head, Option.toList_some,
    List.length_append, List.length_singleton]
  omega

theorem executed_acked (some : c.qp.unacked ≠ []) : executed { c with qp := c.qp.acked .sent } = c.executed := by
  have one := List.length_pos_iff.mpr some
  simp only [executed, QueuePair.acked_completions, QueuePair.acked_unacked, List.count_append, List.length_tail,
    List.count_singleton_self]
  omega

theorem head_posted {w : Request} (head : c.qp.sends.head? = some w) : c.executed < c.posted := by
  have some : c.qp.sends ≠ [] := by
    intro empty
    rw [empty] at head
    cases head
  have length := List.length_pos_iff.mpr some
  unfold posted
  omega

theorem Tells.executed_of_rdma (tells : c.Tells) {remote : Mr} (head : c.qp.sends.head? = some (.rdma remote)) :
    0 < c.executed := by
  by_contra none
  apply tells.plain (by omega) remote
  exact List.mem_of_mem_head? head

theorem Tells.of_executed (tells : c.Tells) {d : Connection} (some : 0 < c.executed) (ahead : c.executed ≤ d.executed)
    (msg : d.sendMsg = c.sendMsg) (mr : d.mr = c.mr) : d.Tells := by
  have none : d.executed ≠ 0 := by omega
  refine ⟨fun _ => ?_, fun zero => absurd zero none, fun zero => absurd zero none⟩
  rw [msg, mr]
  exact tells.own_of_executed some

end Connection

variable {mode : Mode} {inOrder : Prop} {a b a' b' : Connection} {m : Mr}

/-- What a step of `a` does at the peer. -/
theorem peer_cases (moves : Moves mode inOrder a b a' b') :
    (∃ region, b' = { b with remoteRegion := region }) ∨
      (a.qp.sends.head? = some .message ∧ 0 < b.qp.receives ∧ (inOrder → b.qp.unacked = []) ∧
        b' = { b with qp := b.qp.received .recv, recvMsg := a.sendMsg }) := by
  cases moves with
  | place k =>
    cases mode with
    | write => exact .inl ⟨_, rfl⟩
    | read => exact .inl ⟨b.remoteRegion, rfl⟩
  | deliver here there head room order => exact .inr ⟨head, room, order, rfl⟩
  | establish => exact .inl ⟨b.remoteRegion, rfl⟩
  | poll => exact .inl ⟨b.remoteRegion, rfl⟩
  | send => exact .inl ⟨b.remoteRegion, rfl⟩
  | execute => exact .inl ⟨b.remoteRegion, rfl⟩
  | ack => exact .inl ⟨b.remoteRegion, rfl⟩
  | leave => exact .inl ⟨b.remoteRegion, rfl⟩

/-- What a step of `a` leaves as it is on both sides. -/
theorem mr_of_moves (moves : Moves mode inOrder a b a' b') : a'.mr = a.mr ∧ b'.mr = b.mr := by
  cases moves with
  | establish => exact ⟨(Connection.keeps_onConnection a).mr, rfl⟩
  | poll wc rest stays phase queue => exact ⟨(Connection.keeps_onCompletion mode queue).mr, rfl⟩
  | send => exact ⟨(Connection.keeps_messageSent mode a).mr, rfl⟩
  | place k => cases mode <;> exact ⟨rfl, rfl⟩
  | execute => exact ⟨rfl, rfl⟩
  | deliver => exact ⟨rfl, rfl⟩
  | ack => exact ⟨rfl, rfl⟩
  | leave => exact ⟨rfl, rfl⟩

theorem tells_of_moves (moves : Moves mode inOrder a b a' b') (tells : a.Tells) (poised : a.Poised) :
    a'.Tells ∧ a'.Poised := by
  cases moves with
  | establish stays fresh =>
    unfold Connection.onConnection
    split
    · have told : ({ a with connected := true, sendMsg := ⟨.mr, a.mr⟩ } : Connection).Tells :=
        ⟨fun _ => rfl, fun _ _ => rfl, tells.plain⟩
      exact ⟨told.postMessage rfl fun _ => rfl, ⟨fun _ => rfl, poised.sendDone⟩⟩
    · exact ⟨tells.congr rfl rfl rfl rfl, poised.congr rfl le_rfl rfl rfl⟩
  | poll wc rest stays phase queue =>
    rcases Connection.onCompletion_cases mode a queue with
      ⟨rfl, same⟩ | ⟨rfl, -, -, same⟩ | ⟨rfl, -, -, same⟩ | ⟨rfl, -, same⟩
    · rw [same]
      exact ⟨(tells.congr (Connection.executed_polled_sent queue) rfl rfl rfl).check, Connection.poised_check mode _⟩
    · have counted := Connection.executed_polled_recv queue
      rw [same]
      refine ⟨⟨fun _ => rfl, fun _ _ => rfl, ?_⟩, ⟨fun _ => rfl, fun other => Phase.noConfusion other⟩⟩
      intro none
      exact tells.plain (counted.symm.trans none)
    · rw [same]
      refine ⟨Connection.Tells.check ?_, Connection.poised_check mode _⟩
      exact tells.congr (Connection.executed_polled_recv queue) rfl rfl rfl
    · rw [same]
      refine ⟨Connection.Tells.check ?_, Connection.poised_check mode _⟩
      exact tells.congr (Connection.executed_polled_recv queue) rfl rfl rfl
  | send stays phase connected =>
    unfold Connection.messageSent
    split
    · exact ⟨tells, poised⟩
    · have ready := poised.sendMr ‹_›
      have posts := tells.postMessage (by rw [ready]) fun _ => by rw [ready]
      exact ⟨posts.check, Connection.poised_check mode _⟩
    · have some := poised.sendDone ‹_›
      have posts := tells.postMessage (tells.own_of_executed some) fun none => absurd none (Nat.pos_iff_ne_zero.mp some)
      exact ⟨posts.congr rfl rfl rfl rfl, Connection.poised_idle rfl⟩
  | place k =>
    cases mode with
    | write => exact ⟨tells.congr rfl rfl rfl rfl, poised.congr rfl le_rfl rfl rfl⟩
    | read => exact ⟨tells.congr rfl rfl rfl rfl, poised.congr rfl le_rfl rfl rfl⟩
  | execute here there head whole =>
    have counted := Connection.executed_executed head
    have some := tells.executed_of_rdma head
    exact ⟨tells.of_executed some (by omega) rfl rfl, poised.congr rfl (by omega) rfl rfl⟩
  | deliver here there head room order =>
    have counted := Connection.executed_executed head
    have own := tells.own (Nat.zero_lt_of_lt (Connection.head_posted head))
    refine ⟨⟨fun _ => own, ?_, ?_⟩, poised.congr rfl (by omega) rfl rfl⟩
    · intro none
      omega
    · intro none
      omega
  | ack stays some => 
    have counted := Connection.executed_acked some
    exact ⟨tells.congr counted rfl rfl rfl, poised.congr rfl counted.ge rfl rfl⟩
  | leave => exact ⟨tells.congr rfl rfl rfl rfl, poised.congr rfl le_rfl rfl rfl⟩

theorem hears_of_moves (moves : Moves mode inOrder a b a' b') (hears : a.Hears m) : a'.Hears m := by
  cases moves with
  | establish stays fresh =>
    unfold Connection.onConnection
    split
    · have kept : ({ a with connected := true, sendMsg := ⟨.mr, a.mr⟩ } : Connection).Hears m :=
        hears.congr rfl rfl rfl rfl rfl rfl
      exact kept.postMessage
    · exact hears.congr rfl rfl rfl rfl rfl rfl
  | poll wc rest stays phase queue =>
    rcases Connection.onCompletion_cases mode a queue with
      ⟨rfl, same⟩ | ⟨rfl, -, -, same⟩ | ⟨rfl, -, -, same⟩ | ⟨rfl, done, same⟩
    · rw [same]
      apply Connection.Hears.check
      exact hears.congr (Connection.unread_polled_sent queue) rfl rfl rfl rfl rfl
    · rw [same]
      exact (hears.rearmed queue).congr rfl rfl rfl rfl rfl rfl
    · rw [same]
      exact (hears.rearmed queue).check
    · rw [same]
      apply Connection.Hears.check
      have counted := Connection.unread_polled_recv queue
      have some : 0 < a.unread := by omega
      have later : a.recvState ≠ 0 := by
        intro none
        have opening := hears.opening some none
        rw [done] at opening
        cases opening
      have room := hears.room
      refine ⟨?_, fun _ none => ?_, fun _ => hears.peer (by omega), ?_, hears.target⟩
      · intro more
        exact hears.arrived some
      · exact absurd none (Nat.succ_ne_zero _)
      · change a.qp.receives + Connection.unread { a with qp := a.qp.polled } ≤ 1
        omega
  | send stays phase connected =>
    unfold Connection.messageSent
    split
    · exact hears
    · exact hears.postMessage.check
    · exact hears.postMessage.congr rfl rfl rfl rfl rfl rfl
  | place k =>
    cases mode with
    | write => exact hears.congr rfl rfl rfl rfl rfl rfl
    | read => exact hears.congr rfl rfl rfl rfl rfl rfl
  | execute here there head whole => exact hears.fewer rfl rfl rfl rfl rfl (List.tail_subset _)
  | deliver here there head room order => exact hears.fewer rfl rfl rfl rfl rfl (List.tail_subset _)
  | ack stays some => exact hears.congr (by simp [Connection.unread]) rfl rfl rfl rfl rfl
  | leave => exact hears.congr rfl rfl rfl rfl rfl rfl

theorem taken_of_moves (moves : Moves mode inOrder a b a' b') :
    a'.recvState + a'.unread = a.recvState + a.unread := by
  cases moves with
  | establish stays fresh =>
    unfold Connection.onConnection
    split <;> rfl
  | poll wc rest stays phase queue =>
    rcases Connection.onCompletion_cases mode a queue with
      ⟨rfl, same⟩ | ⟨rfl, -, -, same⟩ | ⟨rfl, -, -, same⟩ | ⟨rfl, done, same⟩
    · have frame := Connection.check_frame mode { a with qp := a.qp.polled, sendState := a.sendState + 1 }
      have counted := Connection.unread_polled_sent queue
      rw [same, frame.recvState, frame.unread_eq]
      exact congrArg (a.recvState + ·) counted
    · have counted := Connection.unread_polled_recv queue
      rw [same]
      change a.recvState + 1 + Connection.unread { a with qp := a.qp.polled } = _
      omega
    · have frame := Connection.check_frame mode
        { a with qp := a.qp.polled.postRecv, recvState := a.recvState + 1, peerMr := a.recvMsg.mr }
      have counted := Connection.unread_polled_recv queue
      rw [same, frame.recvState, frame.unread_eq]
      change a.recvState + 1 + Connection.unread { a with qp := a.qp.polled } = _
      omega
    · have frame := Connection.check_frame mode { a with qp := a.qp.polled, recvState := a.recvState + 1 }
      have counted := Connection.unread_polled_recv queue
      rw [same, frame.recvState, frame.unread_eq]
      change a.recvState + 1 + Connection.unread { a with qp := a.qp.polled } = _
      omega
  | send stays phase connected =>
    unfold Connection.messageSent
    split
    · rfl
    · have frame := Connection.check_frame mode a.postMessage
      rw [frame.recvState, frame.unread_eq]
      rfl
    · rfl
  | place k => cases mode <;> rfl
  | execute => rfl
  | deliver => rfl
  | ack => simp [Connection.unread]
  | leave => rfl

theorem executed_of_peer (moves : Moves mode inOrder a b a' b') : b'.executed = b.executed := by
  rcases peer_cases moves with ⟨region, rfl⟩ | ⟨-, -, -, rfl⟩
  · rfl
  · simp [Connection.executed]

/-- A process that has had a request executed has been heard of. -/
def Came (a b : Connection) : Prop := 0 < a.executed → 0 < b.recvState + b.unread

/-- A request is executed only at the head of the queue. -/
theorem executed_of_moves (moves : Moves mode inOrder a b a' b') :
    a'.executed = a.executed ∨ (∃ remote, a.qp.sends.head? = some (.rdma remote)) ∨ 0 < b'.unread := by
  cases moves with
  | establish stays fresh =>
    unfold Connection.onConnection
    split <;> exact .inl rfl
  | poll wc rest stays phase queue =>
    left
    rcases Connection.onCompletion_cases mode a queue with
      ⟨rfl, same⟩ | ⟨rfl, -, -, same⟩ | ⟨rfl, -, -, same⟩ | ⟨rfl, -, same⟩
    · rw [same, (Connection.check_frame mode _).executed_eq]
      exact Connection.executed_polled_sent queue
    · rw [same]
      exact Connection.executed_polled_recv queue
    · rw [same, (Connection.check_frame mode _).executed_eq]
      exact Connection.executed_polled_recv queue
    · rw [same, (Connection.check_frame mode _).executed_eq]
      exact Connection.executed_polled_recv queue
  | send stays phase connected =>
    left
    unfold Connection.messageSent
    split
    · rfl
    · rw [(Connection.check_frame mode _).executed_eq]
      rfl
    · rfl
  | place k => cases mode <;> exact .inl rfl
  | execute here there head whole => exact .inr (.inl ⟨b.mr, head⟩)
  | deliver => exact .inr (.inr (by simp [Connection.unread]))
  | ack stays some => exact .inl (Connection.executed_acked some)
  | leave => exact .inl rfl

theorem heard_of_peer (moves : Moves mode inOrder a b a' b') :
    b.recvState + b.unread ≤ b'.recvState + b'.unread := by
  rcases peer_cases moves with ⟨region, rfl⟩ | ⟨-, -, -, rfl⟩
  · exact le_rfl
  · simp [Connection.unread]

theorem came_of_moves (moves : Moves mode inOrder a b a' b') (tells : a.Tells) (came : Came a b) : Came a' b' := by
  have more := heard_of_peer moves
  intro some
  rcases executed_of_moves moves with same | ⟨remote, head⟩ | unread
  · have before := came (by omega)
    omega
  · have before := came (tells.executed_of_rdma head)
    omega
  · omega

theorem Came.of_peer (moves : Moves mode inOrder a b a' b') (came : Came b a) : Came b' a' := by
  unfold Came
  rw [executed_of_peer moves, taken_of_moves moves]
  exact came

theorem tells_of_peer (moves : Moves mode inOrder a b a' b') (tells : b.Tells) (poised : b.Poised) :
    b'.Tells ∧ b'.Poised := by
  have counted := executed_of_peer moves
  rcases peer_cases moves with ⟨region, rfl⟩ | ⟨-, -, -, rfl⟩
  · exact ⟨tells.congr counted rfl rfl rfl, poised.congr rfl counted.ge rfl rfl⟩
  · exact ⟨tells.congr counted rfl rfl rfl, poised.congr rfl counted.ge rfl rfl⟩

theorem hears_of_peer (moves : Moves mode inOrder a b a' b') (tells : a.Tells) (came : Came a b)
    (hears : b.Hears a.mr) : b'.Hears a.mr := by
  rcases peer_cases moves with ⟨region, rfl⟩ | ⟨head, receives, order, rfl⟩
  · exact hears.congr rfl rfl rfl rfl rfl rfl
  · have room := hears.room
    have some : a.qp.sends ≠ [] := by
      intro empty
      rw [empty] at head
      cases head
    have own := tells.own (Nat.zero_lt_of_lt (Connection.head_posted head))
    refine ⟨fun _ => own, ?_, hears.peer, ?_, hears.target⟩
    · intro _ none
      apply tells.first ?_ some
      by_contra other
      have before := came (Nat.pos_of_ne_zero other)
      change b.recvState = 0 at none
      omega
    · simp only [Connection.unread, QueuePair.received_receives, QueuePair.received_completions, List.count_append,
        List.count_singleton_self]
      unfold Connection.unread at room
      omega

/-- What each side knows of the other, whatever the order. -/
structure Sound (a b : Connection) : Prop where
  tells : a.Tells
  poised : a.Poised
  hears : a.Hears b.mr
  came : Came a b

theorem sound_of_moves (moves : Moves mode inOrder a b a' b') (forth : Sound a b) (back : Sound b a) :
    Sound a' b' ∧ Sound b' a' := by
  obtain ⟨mr, mr'⟩ := mr_of_moves moves
  obtain ⟨tells, poised⟩ := tells_of_moves moves forth.tells forth.poised
  obtain ⟨tells', poised'⟩ := tells_of_peer moves back.tells back.poised
  refine ⟨⟨tells, poised, ?_, came_of_moves moves forth.tells forth.came⟩, ⟨tells', poised', ?_, back.came.of_peer moves⟩⟩
  · rw [mr']
    exact hears_of_moves moves forth.hears
  · rw [mr]
    exact hears_of_peer moves forth.tells forth.came back.hears

theorem Connection.Starts.executed {active : Bool} {c : Connection} (starts : c.Starts active) : c.executed = 0 := by
  unfold Connection.executed
  rw [starts.sendState, starts.qp]
  rfl

theorem Connection.Starts.posted {active : Bool} {c : Connection} (starts : c.Starts active) : c.posted = 0 := by
  unfold Connection.posted
  rw [starts.executed, starts.qp]
  rfl

theorem Connection.Starts.unread {active : Bool} {c : Connection} (starts : c.Starts active) : c.unread = 0 := by
  unfold Connection.unread
  rw [starts.qp]
  rfl

theorem Connection.Starts.receives {active : Bool} {c : Connection} (starts : c.Starts active) : c.qp.receives = 1 := by
  rw [starts.qp]
  rfl

theorem Connection.Starts.sound {active : Bool} {c : Connection} (starts : c.Starts active) (d : Connection) :
    Sound c d := by
  have executed := starts.executed
  have posted := starts.posted
  have unread := starts.unread
  have receives := starts.receives
  have received := starts.recvState
  have empty : c.qp.sends = [] := by
    rw [starts.qp]
    rfl
  refine ⟨⟨?_, fun _ some => absurd empty some, ?_⟩, Connection.poised_idle starts.phase, ⟨?_, ?_, ?_, ?_, ?_⟩, ?_⟩
  · omega
  · simp [empty]
  · omega
  · omega
  · omega
  · omega
  · simp [empty]
  · intro some
    omega

theorem sound_of_reachable {s : State} (reached : Reachable Starts (Step mode inOrder) s) :
    Sound s.client s.server ∧ Sound s.server s.client := by
  apply reached.invariant (fun s => Sound s.client s.server ∧ Sound s.server s.client)
  · intro s starts
    exact ⟨starts.client.sound s.server, starts.server.sound s.client⟩
  · intro s t holds step
    cases step with
    | client a b moves => exact sound_of_moves moves holds.1 holds.2
    | server a b moves => exact (sound_of_moves moves holds.2 holds.1).symm

/-- Whatever is on the way between the two processes, and whatever overtakes what: a request goes to the memory that
    the peer has registered, the peer's memory is known once a message is handled, and no message comes in before the
    last one is handled. -/
theorem requests_to_peer {s : State} (reached : Reachable Starts (Step mode inOrder) s) :
    s.client.Hears s.server.mr ∧ s.server.Hears s.client.mr := by
  have sound := sound_of_reachable reached
  exact ⟨sound.1.hears, sound.2.hears⟩

def sampleConnection (active : Bool) : Connection where
  active := active
  mr := if active then ⟨4096, 7⟩ else ⟨8192, 9⟩
  localRegion := fun _ => if active then 1 else 2
  remoteRegion := fun _ => 0
  sendMsg := ⟨.mr, ⟨0, 0⟩⟩
  recvMsg := ⟨.mr, ⟨0, 0⟩⟩
  peerMr := ⟨0, 0⟩
  sendState := 0
  recvState := 0
  connected := false
  qp := QueuePair.new.postRecv
  phase := .idle
  printed := none
  disconnected := false
  gone := false

theorem sampleConnection_starts (active : Bool) : (sampleConnection active).Starts active := by
  constructor <;> rfl

theorem sample_starts : Starts ⟨sampleConnection true, sampleConnection false⟩ :=
  ⟨sampleConnection_starts true, sampleConnection_starts false⟩

/-- The client has told the server where its memory is. -/
def sampleTold : State :=
  let told := (sampleConnection true).onConnection
  ⟨{ told with qp := told.qp.executed },
    { sampleConnection false with qp := (sampleConnection false).qp.received .recv, recvMsg := told.sendMsg }⟩

theorem sampleTold_reachable : Reachable Starts (Step .read True) sampleTold := by
  have establish : Step .read True ⟨sampleConnection true, sampleConnection false⟩
      ⟨(sampleConnection true).onConnection, sampleConnection false⟩ := .client _ _ _ (.establish _ _ rfl rfl)
  apply ((Reachable.start sample_starts).next establish).next
  exact .client _ _ _ (.deliver _ _ rfl rfl rfl Nat.one_pos fun _ => rfl)

theorem requests_to_peer_sample :
    0 < sampleTold.server.unread ∧ sampleTold.client.Hears sampleTold.server.mr ∧
      sampleTold.server.Hears sampleTold.client.mr :=
  ⟨by decide, requests_to_peer sampleTold_reachable⟩

end RdmaExps.ReadWrite
