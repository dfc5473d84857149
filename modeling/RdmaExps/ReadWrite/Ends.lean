import RdmaExps.ReadWrite.Data

namespace RdmaExps.ReadWrite

open RdmaExps.Run RdmaExps.Verbs
open RdmaExps.Transfer (Mr Buffer)

variable {mode : Mode} {inOrder : Prop} {a b a' b' : Connection}

def Phase.rank : Phase → Nat
  | .idle => 0
  | .sendMr => 1
  | .sendDone => 1

namespace Connection

variable {c : Connection}

/-- What a process and the network for it can still do. A request that is not posted yet weighs more than one that is
    posted, and this more than all its bytes. -/
def rank (c : Connection) : Nat :=
  (3 - c.posted) * 1100 + c.qp.sends.length * 1030 + (RDMA_BUFFER_SIZE - c.qp.moved) + c.qp.unacked.length * 3 +
    c.qp.completions.length * 2 + c.phase.rank + (!c.connected).toNat + (!c.gone).toNat

variable {d : Connection}

theorem rank_phase (qp : d.qp = c.qp) (executed : d.executed = c.executed) (connected : d.connected = c.connected)
    (gone : d.gone = c.gone) : d.rank + c.phase.rank = c.rank + d.phase.rank := by
  unfold rank posted
  rw [qp, executed, connected, gone]
  omega

theorem rank_postSend {w : Request} (qp : d.qp = c.qp.postSend w) (executed : d.executed = c.executed)
    (connected : d.connected = c.connected) (gone : d.gone = c.gone) (few : c.posted < 3) :
    d.rank + 70 + c.phase.rank = c.rank + d.phase.rank := by
  unfold rank
  unfold posted at few ⊢
  rw [qp, executed, connected, gone]
  simp only [QueuePair.postSend_sends, QueuePair.postSend_moved, QueuePair.postSend_unacked,
    QueuePair.postSend_completions, List.length_append, List.length_singleton]
  omega

theorem rank_message (few : c.posted < 3) : c.postMessage.rank + 70 = c.rank := by
  have less : c.postMessage.rank + 70 + c.phase.rank = c.rank + c.phase.rank :=
    rank_postSend (w := .message) rfl rfl rfl rfl few
  omega

theorem rank_check (mode : Mode) (few : c.sendState = 1 → c.recvState = 1 → c.posted < 3) :
    (c.check mode).rank ≤ c.rank := by
  have frame := check_frame mode c
  rcases check_cases mode c with ⟨sent, received, same⟩ | ⟨-, -, same⟩ | ⟨-, -, same⟩
  · have qp : (c.check mode).qp = c.qp.postSend (.rdma c.peerMr) := by rw [same]
    have less := rank_postSend qp frame.executed_eq frame.connected frame.gone (few sent received)
    have one : (c.check mode).phase.rank = 1 := by rw [same]; rfl
    omega
  · have qp : (c.check mode).qp = c.qp := by rw [same]
    have less := rank_phase qp frame.executed_eq frame.connected frame.gone
    have zero : (c.check mode).phase.rank = 0 := by rw [same]; rfl
    omega
  · have qp : (c.check mode).qp = c.qp := by rw [same]
    have less := rank_phase qp frame.executed_eq frame.connected frame.gone
    have zero : (c.check mode).phase.rank = 0 := by rw [same]; rfl
    omega

theorem Counted.few (counted : c.Counted) : c.sendState = 1 → c.recvState = 1 → c.posted < 3 := by
  intro sent received
  have posted := counted.posted
  have three := counted.three
  omega

theorem rank_polled {wc : Wc} {rest : List Wc} (queue : c.qp.completions = wc :: rest)
    (executed : d.executed = c.executed) (taken : d.qp.completions = c.qp.completions.tail) (sends : d.qp.sends = c.qp.sends)
    (moved : d.qp.moved = c.qp.moved) (unacked : d.qp.unacked = c.qp.unacked) (connected : d.connected = c.connected)
    (gone : d.gone = c.gone) : d.rank + 2 + c.phase.rank = c.rank + d.phase.rank := by
  unfold rank posted
  rw [taken, queue, executed, sends, moved, unacked, connected, gone, List.tail_cons, List.length_cons]
  omega

theorem rank_executed {w : Request} (head : c.qp.sends.head? = some w) :
    rank { c with qp := c.qp.executed } + 3 ≤ c.rank := by
  obtain ⟨rest, sends⟩ : ∃ rest, c.qp.sends = w :: rest := List.head?_eq_some_iff.mp head
  have same := posted_executed head
  have size : RDMA_BUFFER_SIZE = 1024 := rfl
  unfold rank
  rw [same]
  simp only [QueuePair.executed_sends, QueuePair.executed_moved, QueuePair.executed_unacked,
    QueuePair.executed_completions, sends, List.tail_cons, List.length_cons, List.head?_cons, Option.toList_some,
    List.length_append, List.length_nil]
  omega

theorem rank_received (msg : Message) (c : Connection) :
    rank { c with qp := c.qp.received .recv, recvMsg := msg } = c.rank + 2 := by
  have same : posted { c with qp := c.qp.received .recv, recvMsg := msg } = c.posted := by
    simp [posted, executed]
  unfold rank
  rw [same]
  simp only [QueuePair.received_sends, QueuePair.received_moved, QueuePair.received_unacked,
    QueuePair.received_completions, List.length_append, List.length_singleton]
  omega

theorem rank_acked (waits : c.qp.unacked ≠ []) : rank { c with qp := c.qp.acked .sent } + 1 = c.rank := by
  have same : posted { c with qp := c.qp.acked .sent } = c.posted :=
    congrArg (· + c.qp.sends.length) (executed_acked waits)
  have some := List.length_pos_iff.mpr waits
  unfold rank
  rw [same]
  simp only [QueuePair.acked_sends, QueuePair.acked_moved, QueuePair.acked_unacked, QueuePair.acked_completions,
    List.length_append, List.length_singleton, List.length_tail]
  omega

theorem rank_moved {k : Nat} (qp : d.qp = c.qp.move k) (executed : d.executed = c.executed)
    (phase : d.phase = c.phase) (connected : d.connected = c.connected) (gone : d.gone = c.gone)
    (more : c.qp.moved < k) (fits : k ≤ RDMA_BUFFER_SIZE) : d.rank < c.rank := by
  unfold rank posted
  rw [qp, executed, phase, connected, gone]
  simp only [QueuePair.move_sends, QueuePair.move_moved, QueuePair.move_unacked, QueuePair.move_completions]
  omega

theorem rank_connected (fresh : c.connected = false) (qp : d.qp = c.qp) (executed : d.executed = c.executed)
    (phase : d.phase = c.phase) (gone : d.gone = c.gone) (opened : d.connected = true) : d.rank + 1 = c.rank := by
  unfold rank posted
  rw [qp, executed, phase, gone, opened, fresh, Bool.not_true, Bool.not_false, Bool.toNat_false, Bool.toNat_true]
  omega

theorem rank_gone (here : c.gone = false) (qp : d.qp = c.qp) (executed : d.executed = c.executed)
    (phase : d.phase = c.phase) (connected : d.connected = c.connected) (left : d.gone = true) :
    d.rank + 1 = c.rank := by
  unfold rank posted
  rw [qp, executed, phase, connected, left, here, Bool.not_true, Bool.not_false, Bool.toNat_false, Bool.toNat_true]

end Connection

/-- Every step uses something up. -/
theorem rank_of_moves (moves : Moves mode inOrder a b a' b') (paired : Paired a b) :
    a'.rank + b'.rank < a.rank + b.rank := by
  obtain ⟨⟨sound, -⟩, forth, back, roles⟩ := paired
  have control := forth.control
  have idle : Phase.rank .idle = 0 := rfl
  cases moves with
  | establish stays fresh =>
    unfold Connection.onConnection
    split
    · have none := (control.begun ‹_›).mpr fresh
      have opened : Connection.rank { a with connected := true, sendMsg := ⟨.mr, a.mr⟩ } + 1 = a.rank :=
        Connection.rank_connected fresh rfl rfl rfl rfl rfl
      have few : Connection.posted { a with connected := true, sendMsg := ⟨.mr, a.mr⟩ } < 3 := by
        change a.posted < 3
        omega
      have posts := Connection.rank_message few
      omega
    · have opened : Connection.rank { a with connected := true } + 1 = a.rank :=
        Connection.rank_connected fresh rfl rfl rfl rfl rfl
      omega
  | poll wc rest stays phase queue =>
    rcases Connection.onCompletion_cases mode a queue with
      ⟨rfl, same⟩ | ⟨rfl, type, init, same⟩ | ⟨rfl, type, sent, same⟩ | ⟨rfl, type, same⟩
    · have checked := Connection.rank_check mode (forth.counted_sent phase queue).few
      have less : Connection.rank { a with qp := a.qp.polled, sendState := a.sendState + 1 } + 2 + a.phase.rank =
          a.rank + a.phase.rank :=
        Connection.rank_polled queue (Connection.executed_polled_sent queue) rfl rfl rfl rfl rfl rfl
      rw [same]
      omega
    · have less : Connection.rank { a with
          qp := a.qp.polled.postRecv
          recvState := a.recvState + 1
          peerMr := a.recvMsg.mr
          sendMsg := ⟨.mr, a.mr⟩
          phase := .sendMr } + 2 + a.phase.rank = a.rank + Phase.rank .sendMr :=
        Connection.rank_polled queue (Connection.executed_polled_recv queue) rfl rfl rfl rfl rfl rfl
      have one : Phase.rank .sendMr = 1 := rfl
      rw [same]
      omega
    · have checked := Connection.rank_check mode (forth.counted_mr back queue type sent).few
      have less : Connection.rank { a with
          qp := a.qp.polled.postRecv
          recvState := a.recvState + 1
          peerMr := a.recvMsg.mr } + 2 + a.phase.rank = a.rank + a.phase.rank :=
        Connection.rank_polled queue (Connection.executed_polled_recv queue) rfl rfl rfl rfl rfl rfl
      rw [same]
      omega
    · have checked := Connection.rank_check mode (forth.counted_done back roles phase queue type).few
      have less : Connection.rank { a with qp := a.qp.polled, recvState := a.recvState + 1 } + 2 + a.phase.rank =
          a.rank + a.phase.rank :=
        Connection.rank_polled queue (Connection.executed_polled_recv queue) rfl rfl rfl rfl rfl rfl
      rw [same]
      omega
  | send stays phase connected =>
    unfold Connection.messageSent
    split
    · exact absurd ‹_› phase
    · have ready : a.phase = .sendMr := ‹_›
      have few : a.posted < 3 := by
        have none := (control.sendMr ready).1
        omega
      have posts := Connection.rank_message few
      have checked := Connection.rank_check mode (forth.counted_first sound.poised ready).few
      omega
    · have ready : a.phase = .sendDone := ‹_›
      have few : a.posted < 3 := by
        have two := control.sendDone ready
        omega
      have posts : Connection.rank { a.postMessage with phase := .idle } + 70 + a.phase.rank =
          a.rank + Phase.rank .idle :=
        Connection.rank_postSend (w := .message) rfl rfl rfl rfl few
      omega
  | place k here there head more fits =>
    cases mode with
    | write =>
      have less : Connection.rank { a with qp := a.qp.move k } < a.rank :=
        Connection.rank_moved rfl rfl rfl rfl rfl more fits
      exact Nat.add_lt_add_right less b.rank
    | read =>
      have less : (Connection.moved .read k a b).rank < a.rank := Connection.rank_moved rfl rfl rfl rfl rfl more fits
      exact Nat.add_lt_add_right less b.rank
  | execute here there head whole =>
    have less := Connection.rank_executed head
    omega
  | deliver here there head room order =>
    have less := Connection.rank_executed head
    have more := Connection.rank_received a.sendMsg b
    omega
  | ack stays waits =>
    have less := Connection.rank_acked waits
    omega
  | leave stays =>
    have less : Connection.rank { a with gone := true } + 1 = a.rank := Connection.rank_gone stays rfl rfl rfl rfl rfl
    omega

/-- A process leaves only when one side has printed. -/
structure Present (a b : Connection) : Prop where
  bound : a.qp.moved ≤ RDMA_BUFFER_SIZE
  ended : a.disconnected = true → a.printed.isSome
  gone : a.gone = true → a.printed.isSome ∨ b.printed.isSome

theorem ended_check (mode : Mode) {c : Connection} (ended : c.disconnected = true → c.printed.isSome) :
    (c.check mode).disconnected = true → (c.check mode).printed.isSome := by
  rcases Connection.check_cases mode c with ⟨-, -, same⟩ | ⟨-, -, same⟩ | ⟨-, -, same⟩
  · rw [same]
    exact ended
  · rw [same]
    exact fun _ => rfl
  · rw [same]
    exact ended

theorem kept_of_moves (moves : Moves mode inOrder a b a' b') (some : a.printed.isSome) : a'.printed.isSome := by
  rcases printed_of_moves moves with before | ⟨now, -, -⟩
  · rw [before]
    exact some
  · rw [now]
    rfl

theorem ended_of_moves (moves : Moves mode inOrder a b a' b') (ended : a.disconnected = true → a.printed.isSome) :
    a'.disconnected = true → a'.printed.isSome := by
  cases moves with
  | establish stays fresh =>
    unfold Connection.onConnection
    split <;> exact ended
  | poll wc rest stays phase queue =>
    rcases Connection.onCompletion_cases mode a queue with ⟨-, same⟩ | ⟨-, -, -, same⟩ | ⟨-, -, -, same⟩ | ⟨-, -, same⟩
    · rw [same]
      exact ended_check mode ended
    · rw [same]
      exact ended
    · rw [same]
      exact ended_check mode ended
    · rw [same]
      exact ended_check mode ended
  | send stays phase connected =>
    unfold Connection.messageSent
    split
    · exact ended
    · exact ended_check mode ended
    · exact ended
  | place k => cases mode <;> exact ended
  | execute => exact ended
  | deliver => exact ended
  | ack => exact ended
  | leave => exact ended

theorem gone_of_moves (moves : Moves mode inOrder a b a' b') :
    a'.gone = a.gone ∨ a.disconnected = true ∨ b.disconnected = true := by
  cases moves with
  | establish => exact .inl (Connection.keeps_onConnection a).gone
  | poll wc rest stays phase queue => exact .inl (Connection.keeps_onCompletion mode queue).gone
  | send => exact .inl (Connection.keeps_messageSent mode a).gone
  | place k => cases mode <;> exact .inl rfl
  | execute => exact .inl rfl
  | deliver => exact .inl rfl
  | ack => exact .inl rfl
  | leave stays ended => exact .inr ended

theorem bound_of_moves (moves : Moves mode inOrder a b a' b') (bound : a.qp.moved ≤ RDMA_BUFFER_SIZE) :
    a'.qp.moved ≤ RDMA_BUFFER_SIZE := by
  cases moves with
  | establish => exact (Connection.keeps_onConnection a).moved.trans_le bound
  | poll wc rest stays phase queue => exact (Connection.keeps_onCompletion mode queue).moved.trans_le bound
  | send => exact (Connection.keeps_messageSent mode a).moved.trans_le bound
  | place k here there head more fits => cases mode <;> exact fits
  | execute => exact Nat.zero_le _
  | deliver => exact Nat.zero_le _
  | ack => exact bound
  | leave => exact bound

theorem present_of_moves (moves : Moves mode inOrder a b a' b') (forth : Present a b) (back : Present b a) :
    Present a' b' := by
  have kept := kept_of_moves moves
  refine ⟨bound_of_moves moves forth.bound, ended_of_moves moves forth.ended, fun left => ?_⟩
  rw [printed_of_peer moves]
  rcases gone_of_moves moves with same | near | far
  · rw [same] at left
    exact (forth.gone left).imp_left kept
  · exact .inl (kept (forth.ended near))
  · exact .inr (back.ended far)

theorem present_of_peer (moves : Moves mode inOrder a b a' b') (back : Present b a) : Present b' a' := by
  have kept := kept_of_moves moves
  rcases peer_cases moves with ⟨region, rfl⟩ | ⟨-, -, -, rfl⟩
  · exact ⟨back.bound, back.ended, fun left => (back.gone left).imp_right kept⟩
  · exact ⟨back.bound, back.ended, fun left => (back.gone left).imp_right kept⟩

/-- A process that can do nothing, with nothing on the way. -/
structure Silent (c : Connection) : Prop where
  connected : c.connected = true
  phase : c.phase = .idle
  completions : c.qp.completions = []
  unacked : c.qp.unacked = []

theorem silent_of_stuck (here : a.gone = false) (stuck : ∀ a' b', ¬ Moves mode inOrder a b a' b') : Silent a := by
  constructor
  · by_contra fresh
    exact stuck _ _ (.establish a b here (Bool.eq_false_iff.mpr fresh))
  · by_contra busy
    cases connected : a.connected with
    | true => exact stuck _ _ (.send a b here busy connected)
    | false => exact stuck _ _ (.establish a b here connected)
  · cases queue : a.qp.completions with
    | nil => rfl
    | cons wc rest =>
      by_cases phase : a.phase = .idle
      · exact absurd (.poll a b wc rest here phase queue) (stuck _ _)
      · cases connected : a.connected with
        | true => exact absurd (.send a b here phase connected) (stuck _ _)
        | false => exact absurd (.establish a b here connected) (stuck _ _)
  · by_contra waits
    exact stuck _ _ (.ack a b here waits)

theorem Silent.unread {c : Connection} (silent : Silent c) : c.unread = 0 := by
  unfold Connection.unread
  rw [silent.completions]
  rfl

theorem Silent.executed {c : Connection} (silent : Silent c) : c.executed = c.sendState := by
  unfold Connection.executed
  rw [silent.completions, silent.unacked]
  rfl

/-- A request at the head of a queue can go on. -/
theorem Paired.no_sends (paired : Paired a b) (bound : a.qp.moved ≤ RDMA_BUFFER_SIZE) (here : a.gone = false)
    (there : b.gone = false) (silent : Silent b) (stuck : ∀ a' b', ¬ Moves mode True a b a' b') : a.qp.sends = [] := by
  cases sends : a.qp.sends with
  | nil => rfl
  | cons w rest =>
    have head : a.qp.sends.head? = some w := by
      rw [sends]
      rfl
    cases w with
    | message =>
      have room : 0 < b.qp.receives := by
        have unread := silent.unread
        have last := paired.back.control.last
        have stock := paired.back.inbox.stock
        have posted := Connection.head_posted head
        have most := paired.forth.queued.bound
        have none := paired.forth.link.none
        have one := paired.forth.link.one
        omega
      exact absurd (.deliver a b here there head room fun _ => silent.unacked) (stuck _ _)
    | rdma remote =>
      have target : remote = b.mr := by
        apply paired.sound.1.hears.target
        rw [sends]
        exact List.mem_cons_self
      rw [target] at head
      rcases Nat.lt_or_eq_of_le bound with partly | whole
      · exact absurd (.place a b RDMA_BUFFER_SIZE here there head partly le_rfl) (stuck _ _)
      · exact absurd (.execute a b here there head whole) (stuck _ _)

/-- Where both can do nothing, the exchange is over. -/
theorem Paired.over (paired : Paired a b) (active : a.active = true) (silent : Silent a) (silent' : Silent b)
    (empty : a.qp.sends = []) (empty' : b.qp.sends = []) : a.disconnected = true := by
  have executed := silent.executed
  have executed' := silent'.executed
  have posted : a.posted = a.executed := by rw [Connection.posted, empty]; rfl
  have posted' : b.posted = b.executed := by rw [Connection.posted, empty']; rfl
  have unread := silent.unread
  have unread' := silent'.unread
  have passive : b.active = false := by rw [paired.roles, active]; rfl
  have begun : a.posted ≠ 0 := by
    intro none
    have fresh := (paired.forth.control.begun active).mp none
    rw [silent.connected] at fresh
    cases fresh
  have idle := paired.forth.control.idle silent.phase
  have idle' := paired.back.control.idle silent'.phase
  have awaits : b.posted = 0 → b.recvState = 0 := by
    intro none
    rcases paired.back.control.awaits passive none with unheard | busy
    · exact unheard
    · rw [silent'.phase] at busy
      cases busy
  have bound := paired.forth.queued.bound
  have bound' := paired.back.queued.bound
  have one := paired.forth.control.one
  have one' := paired.back.control.one
  obtain ⟨none, some, two, -⟩ := paired.forth.link
  obtain ⟨none', some', two', -⟩ := paired.back.link
  apply paired.forth.control.finished.mpr
  omega

theorem Paired.progress (paired : Paired a b) (forth : Present a b) (back : Present b a) :
    (a.printed.isSome ∨ b.printed.isSome) ∨ (∃ a' b', Moves mode True a b a' b') ∨
      ∃ b' a', Moves mode True b a b' a' := by
  by_contra stuck
  push Not at stuck
  obtain ⟨unprinted, stays, stays'⟩ := stuck
  have here : a.gone = false := by
    by_contra left
    exact absurd (forth.gone (Bool.eq_true_of_not_eq_false left)) (by simpa using unprinted)
  have there : b.gone = false := by
    by_contra left
    exact absurd (back.gone (Bool.eq_true_of_not_eq_false left)).symm (by simpa using unprinted)
  have silent := silent_of_stuck here stays
  have silent' := silent_of_stuck there stays'
  have empty := paired.no_sends forth.bound here there silent' stays
  have empty' := paired.symm.no_sends back.bound there here silent stays'
  cases active : a.active with
  | true =>
    have ended := forth.ended (paired.over active silent silent' empty empty')
    simp [ended] at unprinted
  | false =>
    have other : b.active = true := by rw [paired.roles, active]; rfl
    have ended := back.ended (paired.symm.over other silent' silent empty' empty)
    simp [ended] at unprinted

theorem Connection.Starts.present {active : Bool} (starts : a.Starts active) : Present a b := by
  refine ⟨?_, fun ended => ?_, fun left => ?_⟩
  · rw [starts.qp]
    exact Nat.zero_le _
  · rw [starts.stays] at ended
    cases ended
  · rw [starts.here] at left
    cases left

/-- What the induction over the rank carries. -/
structure Live (n : Nat) (s : State) : Prop where
  paired : Paired s.client s.server
  forth : Present s.client s.server
  back : Present s.server s.client
  rank : s.client.rank + s.server.rank = n

theorem live_of_reachable {s : State} (reached : Reachable Starts (Step mode True) s) :
    Live (s.client.rank + s.server.rank) s := by
  have present : Present s.client s.server ∧ Present s.server s.client := by
    apply reached.invariant (fun s => Present s.client s.server ∧ Present s.server s.client)
    · intro s starts
      exact ⟨starts.client.present, starts.server.present⟩
    · intro s t present step
      cases step with
      | client a b moves => exact ⟨present_of_moves moves present.1 present.2, present_of_peer moves present.2⟩
      | server a b moves => exact ⟨present_of_peer moves present.1, present_of_moves moves present.2 present.1⟩
  exact ⟨paired_of_reachable reached, present.1, present.2, rfl⟩

theorem Live.step {n : Nat} {s t : State} (live : Live n s) (step : Step mode True s t) : ∃ m < n, Live m t := by
  obtain ⟨paired, forth, back, rank⟩ := live
  cases step with
  | client a b moves =>
    have less := rank_of_moves moves paired
    exact ⟨a.rank + b.rank, by omega, paired_of_moves moves paired, present_of_moves moves forth back,
      present_of_peer moves back, rfl⟩
  | server a b moves =>
    have less := rank_of_moves moves paired.symm
    exact ⟨b.rank + a.rank, by omega, (paired_of_moves moves paired.symm).symm, present_of_peer moves forth,
      present_of_moves moves back forth, rfl⟩

/-- On a network in order, whatever is done first, the exchange goes on until one side prints the peer's message. -/
theorem exchange_leads_to_print {s : State} (reached : Reachable Starts (Step mode True) s) :
    Leads (Step mode True) (fun s => s.client.printed.isSome ∨ s.server.printed.isSome) s := by
  apply leads_of_rank Live ?_ (fun n s t live step => live.step step) (live_of_reachable reached)
  intro n s live
  rcases live.paired.progress live.forth live.back with done | ⟨a, b, moves⟩ | ⟨b, a, moves⟩
  · exact .inl done
  · exact .inr ⟨_, .client s a b moves⟩
  · exact .inr ⟨_, .server s b a moves⟩

theorem exchange_leads_to_print_sample : Leads (Step .read True)
    (fun s => s.client.printed.isSome ∨ s.server.printed.isSome) ⟨sampleConnection true, sampleConnection false⟩ :=
  exchange_leads_to_print (.start sample_starts)

end RdmaExps.ReadWrite
