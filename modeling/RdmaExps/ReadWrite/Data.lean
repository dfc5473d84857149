import RdmaExps.ReadWrite.Order

namespace RdmaExps.ReadWrite

open RdmaExps.Run RdmaExps.Verbs
open RdmaExps.Transfer (Mr Buffer)

variable {mode : Mode} {inOrder : Prop} {a b a' b' : Connection}

/-- What has come over of the request for `b`'s memory. -/
structure Carried (a b : Connection) : Prop where
  partly : ∀ i < a.qp.moved, a.localRegion i = b.remoteRegion i
  whole : 2 ≤ a.executed → ∀ i < RDMA_BUFFER_SIZE, a.localRegion i = b.remoteRegion i

theorem Carried.congr (carried : Carried a b) (moved : a'.qp.moved = a.qp.moved) (executed : a'.executed = a.executed)
    (near : a'.localRegion = a.localRegion) (far : b'.remoteRegion = b.remoteRegion) : Carried a' b' := by
  constructor
  · rw [moved, near, far]
    exact carried.partly
  · rw [executed, near, far]
    exact carried.whole

theorem Carried.check (carried : Carried a b) : Carried (a.check mode) b := by
  have frame := Connection.check_frame mode a
  exact carried.congr frame.moved frame.executed_eq frame.localRegion rfl

theorem copied_agree (m n : Nat) (source target : Buffer) (agree : ∀ i < m, source i = target i) :
    ∀ i < n, source i = Buffer.copy m n source target i := by
  intro i below
  unfold Buffer.copy
  split
  · rfl
  · exact agree i (by omega)

theorem carried_of_moves (moves : Moves mode inOrder a b a' b') (queued : a.Queued b.mr) (carried : Carried a b) :
    Carried a' b' := by
  cases moves with
  | establish stays fresh =>
    unfold Connection.onConnection
    split <;> exact carried.congr rfl rfl rfl rfl
  | poll wc rest stays phase queue =>
    rcases Connection.onCompletion_cases mode a queue with
      ⟨rfl, same⟩ | ⟨rfl, -, -, same⟩ | ⟨rfl, -, -, same⟩ | ⟨rfl, -, same⟩
    · rw [same]
      apply Carried.check
      exact carried.congr rfl (Connection.executed_polled_sent queue) rfl rfl
    · rw [same]
      exact carried.congr rfl (Connection.executed_polled_recv queue) rfl rfl
    · rw [same]
      apply Carried.check
      exact carried.congr rfl (Connection.executed_polled_recv queue) rfl rfl
    · rw [same]
      apply Carried.check
      exact carried.congr rfl (Connection.executed_polled_recv queue) rfl rfl
  | send stays phase connected =>
    have posts : Carried a.postMessage b := carried.congr rfl rfl rfl rfl
    unfold Connection.messageSent
    split
    · exact carried
    · exact posts.check
    · exact posts.congr rfl rfl rfl rfl
  | place k here there head more fits =>
    have one := queued.head_rdma head
    cases mode with
    | write =>
      refine ⟨copied_agree a.qp.moved k a.localRegion b.remoteRegion carried.partly, fun two => ?_⟩
      change 2 ≤ a.executed at two
      omega
    | read =>
      refine ⟨fun i below => ?_, fun two => ?_⟩
      · have agree := copied_agree a.qp.moved k b.remoteRegion a.localRegion
          fun i below => (carried.partly i below).symm
        exact (agree i below).symm
      · change 2 ≤ a.executed at two
        omega
  | execute here there head whole =>
    refine ⟨fun i below => absurd below (Nat.not_lt_zero i), fun _ i below => carried.partly i ?_⟩
    rw [whole]
    exact below
  | deliver here there head room order =>
    have next := Connection.executed_executed head
    refine ⟨fun i below => absurd below (Nat.not_lt_zero i), fun two => carried.whole ?_⟩
    have place := queued.head_message head
    omega
  | ack stays waits => exact carried.congr rfl (Connection.executed_acked waits) rfl rfl
  | leave => exact carried.congr rfl rfl rfl rfl

theorem message_of_keeps (keeps : a.Keeps b) : b.message mode = a.message mode := by
  unfold Connection.message
  rw [keeps.localRegion, keeps.remoteRegion]

/-- The regions that `a` does not write: it reads into its local one, and writes to the peer's remote one. -/
theorem regions_of_moves (moves : Moves mode inOrder a b a' b') :
    a'.remoteRegion = a.remoteRegion ∧ b'.localRegion = b.localRegion ∧ a'.message mode = a.message mode ∧
      b'.message mode = b.message mode := by
  cases moves with
  | establish =>
    have keeps := Connection.keeps_onConnection a
    exact ⟨keeps.remoteRegion, rfl, message_of_keeps keeps, rfl⟩
  | poll wc rest stays phase queue =>
    have keeps := Connection.keeps_onCompletion mode queue
    exact ⟨keeps.remoteRegion, rfl, message_of_keeps keeps, rfl⟩
  | send =>
    have keeps := Connection.keeps_messageSent mode a
    exact ⟨keeps.remoteRegion, rfl, message_of_keeps keeps, rfl⟩
  | place k => cases mode <;> exact ⟨rfl, rfl, rfl, rfl⟩
  | execute => exact ⟨rfl, rfl, rfl, rfl⟩
  | deliver => exact ⟨rfl, rfl, rfl, rfl⟩
  | ack => exact ⟨rfl, rfl, rfl, rfl⟩
  | leave => exact ⟨rfl, rfl, rfl, rfl⟩

theorem carried_of_peer (moves : Moves mode inOrder a b a' b') (carried : Carried b a) : Carried b' a' := by
  obtain ⟨far, near, -, -⟩ := regions_of_moves moves
  refine carried.congr ?_ (executed_of_peer moves) near far
  rcases peer_cases moves with ⟨region, rfl⟩ | ⟨-, -, -, rfl⟩
  · rfl
  · rfl

theorem printed_check (mode : Mode) (c : Connection) :
    (c.check mode).printed = c.printed ∨ ((c.check mode).printed = some ((c.check mode).inbox mode) ∧
      (c.check mode).sendState = 3 ∧ (c.check mode).recvState = 2) := by
  rcases Connection.check_cases mode c with ⟨-, -, same⟩ | ⟨sent, received, same⟩ | ⟨-, -, same⟩
  · rw [same]
    exact .inl rfl
  · rw [same]
    exact .inr ⟨rfl, sent, received⟩
  · rw [same]
    exact .inl rfl

theorem printed_of_moves (moves : Moves mode inOrder a b a' b') :
    a'.printed = a.printed ∨ (a'.printed = some (a'.inbox mode) ∧ a'.sendState = 3 ∧ a'.recvState = 2) := by
  cases moves with
  | establish stays fresh =>
    unfold Connection.onConnection
    split <;> exact .inl rfl
  | poll wc rest stays phase queue =>
    rcases Connection.onCompletion_cases mode a queue with ⟨-, same⟩ | ⟨-, -, -, same⟩ | ⟨-, -, -, same⟩ | ⟨-, -, same⟩
    · rw [same]
      exact printed_check mode { a with qp := a.qp.polled, sendState := a.sendState + 1 }
    · rw [same]
      exact .inl rfl
    · rw [same]
      exact printed_check mode
        { a with qp := a.qp.polled.postRecv, recvState := a.recvState + 1, peerMr := a.recvMsg.mr }
    · rw [same]
      exact printed_check mode { a with qp := a.qp.polled, recvState := a.recvState + 1 }
  | send stays phase connected =>
    unfold Connection.messageSent
    split
    · exact .inl rfl
    · exact printed_check mode a.postMessage
    · exact .inl rfl
  | place k => cases mode <;> exact .inl rfl
  | execute => exact .inl rfl
  | deliver => exact .inl rfl
  | ack => exact .inl rfl
  | leave => exact .inl rfl

theorem printed_of_peer (moves : Moves mode inOrder a b a' b') : b'.printed = b.printed := by
  rcases peer_cases moves with ⟨region, rfl⟩ | ⟨-, -, -, rfl⟩
  · rfl
  · rfl

/-- What a process has printed is what the peer had to say. -/
def Shown (said : Buffer) (c : Connection) : Prop :=
  ∀ text, c.printed = some text → ∀ i < RDMA_BUFFER_SIZE, text i = said i

/-- Once a process has done all of its part, the peer's message is in its buffer. -/
theorem inbox_filled (paired : Paired a b) (forth : Carried a b) (back : Carried b a) (sent : a.sendState = 3)
    (received : a.recvState = 2) : ∀ i < RDMA_BUFFER_SIZE, a.inbox mode i = b.message mode i := by
  have executed := sendState_le_executed a
  have none := paired.back.link.none
  have one := paired.back.link.one
  cases mode with
  | write =>
    intro i below
    exact (back.whole (by omega) i below).symm
  | read =>
    intro i below
    exact forth.whole (by omega) i below

/-- The exchange so far, between processes that had these messages when it began. -/
structure Faithful (mode : Mode) (said said' : Buffer) (a b : Connection) : Prop where
  paired : Paired a b
  forth : Carried a b
  back : Carried b a
  message : a.message mode = said
  message' : b.message mode = said'
  shown : Shown said' a
  shown' : Shown said b

variable {said said' : Buffer}

theorem Faithful.symm (faithful : Faithful mode said said' a b) : Faithful mode said' said b a := by
  obtain ⟨paired, forth, back, message, message', shown, shown'⟩ := faithful
  exact ⟨paired.symm, back, forth, message', message, shown', shown⟩

theorem faithful_of_moves (moves : Moves mode True a b a' b') (faithful : Faithful mode said said' a b) :
    Faithful mode said said' a' b' := by
  have paired := paired_of_moves moves faithful.paired
  have forth := carried_of_moves moves faithful.paired.forth.queued faithful.forth
  have back := carried_of_peer moves faithful.back
  obtain ⟨-, -, same, same'⟩ := regions_of_moves moves
  have message := same.trans faithful.message
  have message' := same'.trans faithful.message'
  refine ⟨paired, forth, back, message, message', ?_, ?_⟩
  · intro text printed
    rcases printed_of_moves moves with before | ⟨now, sent, received⟩
    · exact faithful.shown text (before.symm.trans printed)
    · rw [now] at printed
      cases printed
      rw [← message']
      exact inbox_filled paired forth back sent received
  · intro text printed
    exact faithful.shown' text ((printed_of_peer moves).symm.trans printed)

theorem Connection.Starts.carried {active : Bool} (starts : a.Starts active) : Carried a b := by
  have executed := starts.executed
  constructor
  · rw [starts.qp]
    exact fun i below => absurd below (Nat.not_lt_zero i)
  · omega

theorem Connection.Starts.shown {active : Bool} (starts : a.Starts active) : Shown said a := by
  intro text printed
  rw [starts.printed] at printed
  cases printed

/-- A process has nothing left to do for its peer, and the peer nothing left to wait for. -/
structure Ended (a b : Connection) : Prop where
  sends : a.qp.sends = []
  unacked : a.qp.unacked = []
  completions : a.qp.completions = []
  told : b.recvState + b.unread = 2

theorem Paired.ended (paired : Paired a b) (done : a.disconnected = true) : Ended a b := by
  obtain ⟨sent, received⟩ := paired.forth.control.finished.mp done
  have bound := paired.forth.queued.bound
  have spent := paired.forth.inbox.spent received
  have two := paired.forth.link.two
  unfold Connection.posted Connection.executed at bound
  have unsent : a.qp.completions.count .sent = 0 := by omega
  have unread : a.qp.completions.count .recv = 0 := by
    unfold Connection.unread at spent
    omega
  constructor
  · exact List.length_eq_zero_iff.mp (by omega)
  · exact List.length_eq_zero_iff.mp (by omega)
  · apply List.eq_nil_iff_forall_not_mem.mpr
    intro wc member
    cases wc with
    | sent => exact List.count_eq_zero.mp unsent member
    | recv => exact List.count_eq_zero.mp unread member
  · have executed := sendState_le_executed a
    exact two (by omega)

/-- On a network in order, each process posts its announcement, one request for the peer's memory and its last message,
    in this order and once each; and it disconnects with nothing of its own on the way. -/
theorem requests_in_plan {s : State} (reached : Reachable Starts (Step mode True) s) :
    (s.client.Queued s.server.mr ∧ (s.client.disconnected = true → Ended s.client s.server)) ∧
      (s.server.Queued s.client.mr ∧ (s.server.disconnected = true → Ended s.server s.client)) := by
  have paired := paired_of_reachable reached
  exact ⟨⟨paired.forth.queued, paired.ended⟩, ⟨paired.back.queued, paired.symm.ended⟩⟩

/-- Each side has told the other where its memory is, and then both have written and said so. -/
theorem sample_run : ∃ t, Relation.ReflTransGen (Step .write True) ⟨sampleConnection true, sampleConnection false⟩ t ∧
    t.client.disconnected = true ∧ t.client.printed.isSome := by
  have run : Relation.ReflTransGen (Step .write True) ⟨sampleConnection true, sampleConnection false⟩
      ⟨sampleConnection true, sampleConnection false⟩ := .refl
  replace run := run.tail (.client _ _ _ (.establish _ _ rfl rfl))
  replace run := run.tail (.server _ _ _ (.establish _ _ rfl rfl))
  replace run := run.tail (.client _ _ _ (.deliver _ _ rfl rfl rfl Nat.one_pos fun _ => rfl))
  replace run := run.tail (.client _ _ _ (.ack _ _ rfl (List.cons_ne_nil _ _)))
  replace run := run.tail (.server _ _ _ (.poll _ _ .recv [] rfl rfl rfl))
  replace run := run.tail (.server _ _ _ (.send _ _ rfl Phase.noConfusion rfl))
  replace run := run.tail (.client _ _ _ (.poll _ _ .sent [] rfl rfl rfl))
  replace run := run.tail (.server _ _ _ (.deliver _ _ rfl rfl rfl Nat.one_pos fun _ => rfl))
  replace run := run.tail (.server _ _ _ (.ack _ _ rfl (List.cons_ne_nil _ _)))
  replace run := run.tail (.client _ _ _ (.poll _ _ .recv [] rfl rfl rfl))
  replace run := run.tail (.client _ _ _ (.send _ _ rfl Phase.noConfusion rfl))
  replace run := run.tail (.client _ _ _ (.place _ _ RDMA_BUFFER_SIZE rfl rfl rfl (by decide) le_rfl))
  replace run := run.tail (.client _ _ _ (.execute _ _ rfl rfl rfl rfl))
  replace run := run.tail (.client _ _ _ (.ack _ _ rfl (List.cons_ne_nil _ _)))
  replace run := run.tail (.client _ _ _ (.deliver _ _ rfl rfl rfl Nat.one_pos fun _ => rfl))
  replace run := run.tail (.client _ _ _ (.ack _ _ rfl (List.cons_ne_nil _ _)))
  replace run := run.tail (.client _ _ _ (.poll _ _ .sent [.sent] rfl rfl rfl))
  replace run := run.tail (.client _ _ _ (.poll _ _ .sent [] rfl rfl rfl))
  replace run := run.tail (.server _ _ _ (.poll _ _ .sent [.recv] rfl rfl rfl))
  replace run := run.tail (.server _ _ _ (.send _ _ rfl Phase.noConfusion rfl))
  replace run := run.tail (.server _ _ _ (.place _ _ RDMA_BUFFER_SIZE rfl rfl rfl (by decide) le_rfl))
  replace run := run.tail (.server _ _ _ (.execute _ _ rfl rfl rfl rfl))
  replace run := run.tail (.server _ _ _ (.ack _ _ rfl (List.cons_ne_nil _ _)))
  replace run := run.tail (.server _ _ _ (.poll _ _ .recv [.sent] rfl rfl rfl))
  replace run := run.tail (.server _ _ _ (.deliver _ _ rfl rfl rfl Nat.one_pos fun _ => rfl))
  exact ⟨_, run.tail (.client _ _ _ (.poll _ _ .recv [] rfl rfl rfl)), rfl, rfl⟩

theorem requests_in_plan_sample : ∃ s : State, s.client.disconnected = true ∧
    (s.client.Queued s.server.mr ∧ (s.client.disconnected = true → Ended s.client s.server)) ∧
      (s.server.Queued s.client.mr ∧ (s.server.disconnected = true → Ended s.server s.client)) := by
  obtain ⟨s, run, done, -⟩ := sample_run
  exact ⟨s, done, requests_in_plan ⟨_, sample_starts, run⟩⟩

/-- On a network in order, a process that prints has the peer's message as it was when the exchange began, whichever
    side comes to its end first. -/
theorem printed_in_order {s t : State} (starts : Starts s) (run : Relation.ReflTransGen (Step mode True) s t) :
    Shown (s.server.message mode) t.client ∧ Shown (s.client.message mode) t.server := by
  have faithful : Faithful mode (s.client.message mode) (s.server.message mode) t.client t.server := by
    induction run with
    | refl =>
      have reached : Reachable Starts (Step mode True) s := .start starts
      exact ⟨paired_of_reachable reached, starts.client.carried, starts.server.carried, rfl, rfl, starts.client.shown,
        starts.server.shown⟩
    | tail _ step ih =>
      cases step with
      | client a b moves => exact faithful_of_moves moves ih
      | server a b moves => exact (faithful_of_moves moves ih.symm).symm
  exact ⟨faithful.shown, faithful.shown'⟩

/-- A side of the example that has announced its memory, and has had no acknowledgement. -/
def sampleAgain (active : Bool) (received : Nat) (qp : QueuePair Request Wc) : Connection :=
  { sampleConnection active with
    sendMsg := ⟨.mr, (sampleConnection active).mr⟩
    recvMsg := ⟨.mr, (sampleConnection !active).mr⟩
    peerMr := (sampleConnection !active).mr
    recvState := received
    connected := true
    qp := qp }

theorem overtaken (mode : Mode) (overtakes : ¬ inOrder) :
    Relation.ReflTransGen (Step mode inOrder) ⟨sampleConnection true, sampleConnection false⟩
      ⟨sampleAgain true 1 ⟨[.message], 0, [.message], 1, []⟩, sampleAgain false 1 ⟨[], 0, [.message], 1, []⟩⟩ := by
  have run : Relation.ReflTransGen (Step mode inOrder) ⟨sampleConnection true, sampleConnection false⟩
      ⟨sampleConnection true, sampleConnection false⟩ := .refl
  replace run := run.tail (.client _ _ _ (.establish _ _ rfl rfl))
  replace run := run.tail (.server _ _ _ (.establish _ _ rfl rfl))
  replace run := run.tail (.client _ _ _ (.deliver _ _ rfl rfl rfl Nat.one_pos fun order => absurd order overtakes))
  replace run := run.tail (.server _ _ _ (.poll _ _ .recv [] rfl rfl rfl))
  replace run := run.tail (.server _ _ _ (.send _ _ rfl Phase.noConfusion rfl))
  replace run := run.tail (.server _ _ _ (.deliver _ _ rfl rfl rfl Nat.one_pos fun order => absurd order overtakes))
  replace run := run.tail (.client _ _ _ (.poll _ _ .recv [] rfl rfl rfl))
  exact run.tail (.client _ _ _ (.send _ _ rfl Phase.noConfusion rfl))

theorem overtaken_again (mode : Mode) (overtakes : ¬ inOrder) :
    Relation.ReflTransGen (Step mode inOrder)
      ⟨sampleAgain true 1 ⟨[.message], 0, [.message], 1, []⟩, sampleAgain false 1 ⟨[], 0, [.message], 1, []⟩⟩
      ⟨sampleAgain true 2 ⟨[], 0, [.message, .message, .message], 1, []⟩,
        sampleAgain false 2 ⟨[], 0, [.message, .message], 0, [.recv]⟩⟩ := by
  have run : Relation.ReflTransGen (Step mode inOrder)
      ⟨sampleAgain true 1 ⟨[.message], 0, [.message], 1, []⟩, sampleAgain false 1 ⟨[], 0, [.message], 1, []⟩⟩
      ⟨sampleAgain true 1 ⟨[.message], 0, [.message], 1, []⟩, sampleAgain false 1 ⟨[], 0, [.message], 1, []⟩⟩ := .refl
  replace run := run.tail (.client _ _ _ (.deliver _ _ rfl rfl rfl Nat.one_pos fun order => absurd order overtakes))
  replace run := run.tail (.server _ _ _ (.poll _ _ .recv [] rfl rfl rfl))
  replace run := run.tail (.server _ _ _ (.send _ _ rfl Phase.noConfusion rfl))
  replace run := run.tail (.server _ _ _ (.deliver _ _ rfl rfl rfl Nat.one_pos fun order => absurd order overtakes))
  replace run := run.tail (.client _ _ _ (.poll _ _ .recv [] rfl rfl rfl))
  replace run := run.tail (.client _ _ _ (.send _ _ rfl Phase.noConfusion rfl))
  exact run.tail (.client _ _ _ (.deliver _ _ rfl rfl rfl Nat.one_pos fun order => absurd order overtakes))

/-- A message that overtakes an acknowledgement is answered as if nothing had been sent: each side announces its memory
    again, and three announcements and two of the peer's look like the end of the exchange. -/
theorem misprint (mode : Mode) (overtakes : ¬ inOrder) :
    ∃ t, Relation.ReflTransGen (Step mode inOrder) ⟨sampleConnection true, sampleConnection false⟩ t ∧
      t.client.printed = some ((sampleConnection true).inbox mode) := by
  have run := (overtaken mode overtakes).trans (overtaken_again mode overtakes)
  replace run := run.tail (.client _ _ _ (.ack _ _ rfl (List.cons_ne_nil _ _)))
  replace run := run.tail (.client _ _ _ (.ack _ _ rfl (List.cons_ne_nil _ _)))
  replace run := run.tail (.client _ _ _ (.ack _ _ rfl (List.cons_ne_nil _ _)))
  replace run := run.tail (.client _ _ _ (.poll _ _ .sent [.sent, .sent] rfl rfl rfl))
  replace run := run.tail (.client _ _ _ (.poll _ _ .sent [.sent] rfl rfl rfl))
  exact ⟨_, run.tail (.client _ _ _ (.poll _ _ .sent [] rfl rfl rfl)), rfl⟩

/-- What a process prints is always the peer's message exactly when no message overtakes an acknowledgement. -/
theorem printed_is_message_iff (mode : Mode) (inOrder : Prop) :
    (∀ s t, Starts s → Relation.ReflTransGen (Step mode inOrder) s t →
      Shown (s.server.message mode) t.client ∧ Shown (s.client.message mode) t.server) ↔ inOrder := by
  constructor
  · intro shown
    by_contra overtakes
    obtain ⟨t, run, printed⟩ := misprint mode overtakes
    have wrong := (shown _ t sample_starts run).1 _ printed 0 (by decide)
    cases mode <;> exact absurd wrong (by decide)
  · intro order s t starts run
    rw [eq_true order] at run
    exact printed_in_order starts run

end RdmaExps.ReadWrite
