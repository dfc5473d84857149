import RdmaExps.Transfer.Steps

namespace RdmaExps.Transfer

open RdmaExps.Python RdmaExps.Verbs RdmaExps.Wire RdmaExps.Run

theorem news_polled {Wr : Type} {qp : QueuePair Wr Wc} {wc : Wc} {rest : List Wc} (first : qp.completions = wc :: rest) :
    news qp = if wc.isRecv then wc :: news qp.polled else news qp.polled := by
  simp only [news, first, List.filter_cons, QueuePair.polled_completions, List.tail_cons]

theorem pending_polled {Wr : Type} {qp : QueuePair Wr Wc} {wc : Wc} {rest : List Wc} (first : qp.completions = wc :: rest) :
    QueuePair.pending qp = QueuePair.pending qp.polled + 1 := by
  simp only [QueuePair.pending, first, QueuePair.polled_completions, QueuePair.polled_unacked, List.tail_cons,
    List.length_cons]
  omega

theorem pending_acked {Wr : Type} {qp : QueuePair Wr Wc} (wc : Wc) (some : qp.unacked ≠ []) :
    QueuePair.pending (qp.acked wc) < QueuePair.pending qp := by
  have pos := List.length_pos_iff.mpr some
  simp only [QueuePair.pending, QueuePair.acked_unacked, QueuePair.acked_completions, List.length_tail,
    List.length_append, List.length_singleton]
  omega

theorem news_acked {Wr : Type} (qp : QueuePair Wr Wc) (wc : Wc) (silent : wc.isRecv = false) :
    news (qp.acked wc) = news qp := by
  simp [news, silent]

theorem news_received {Wr : Type} (qp : QueuePair Wr Wc) (wc : Wc) (loud : wc.isRecv = true) :
    news (qp.received wc) = news qp ++ [wc] := by
  simp [news, loud]

variable {setup : Setup} {turn : Turn} {late : Bool} {s : State} {wc : Wc} {rest : List Wc}

theorem client_poll (holds : At setup turn late s) (idle : s.client.poller = pure ())
    (first : s.client.qp.completions = wc :: rest) :
    Lower setup (rank setup turn late s) { s with client := { s.client with
      qp := s.client.qp.polled
      poller := Client.onCompletion setup.fileName wc } } := by
  have pending := pending_polled first
  have news := news_polled first
  cases loud : wc.isRecv with
  | false =>
    have poller : Client.onCompletion setup.fileName wc = pure () := if_neg (by simp [loud])
    rw [loud, if_neg Bool.false_ne_true] at news
    refine ⟨turn, late, ⟨?_, holds.server, holds.bufferMr, holds.data⟩, ?_⟩
    · rw [← holds.client]
      simp only [ClientState.shape, poller, idle, news, QueuePair.polled_receives, QueuePair.polled_sends,
        QueuePair.polled_moved]
    · simp only [rank, State.pending]
      omega
  | true =>
    rw [loud, if_pos rfl] at news
    have shape : _ = ((turn.client setup).shape late).news := congrArg ClientShape.news holds.client
    rw [show s.client.shape.news = _ from news] at shape
    cases turn with
    | inbox id =>
      obtain ⟨rfl, none⟩ := List.cons_eq_cons.mp shape
      refine ⟨.look id, false, ⟨?_, holds.server, holds.bufferMr, holds.data⟩, ?_⟩
      · exact (congrArg (fun shape : ClientShape => { shape with
          poller := Client.onCompletion setup.fileName .received
          news := Transfer.news s.client.qp.polled }) holds.client).trans (by rw [none])
      · simp only [rank, State.pending, Turn.rank, Bool.toNat_false]
        omega
    | _ => cases late <;> cases shape

theorem server_poll (holds : At setup turn late s) (idle : s.server.poller = pure ())
    (first : s.server.qp.completions = wc :: rest) :
    Lower setup (rank setup turn late s) { s with server := { s.server with
      qp := s.server.qp.polled
      poller := Server.onCompletion setup.order wc } } := by
  have pending := pending_polled first
  have news := news_polled first
  cases loud : wc.isRecv with
  | false =>
    have poller : Server.onCompletion setup.order wc = pure () := by
      cases wc with
      | receivedImm imm => cases loud
      | _ => rfl
    rw [loud, if_neg Bool.false_ne_true] at news
    refine ⟨turn, late, ⟨holds.client, ?_, holds.bufferMr, holds.data⟩, ?_⟩
    · rw [← holds.server]
      simp only [ServerState.shape, poller, idle, news, QueuePair.polled_receives, QueuePair.polled_sends]
    · simp only [rank, State.pending]
      omega
  | true =>
    rw [loud, if_pos rfl] at news
    have shape : _ = (turn.server setup).news := congrArg ServerShape.news holds.server
    rw [show s.server.shape.news = _ from news] at shape
    cases turn with
    | arrived load =>
      obtain ⟨rfl, none⟩ := List.cons_eq_cons.mp shape
      obtain ⟨carried, within⟩ := holds.data
      have imm : ntohl setup.order (setup.order.load (load.imm setup)) = load.size setup :=
        setup.order.ntohl_load_htonl setup.order _
      have size := Load.size_toNat carried
      have server (p : Server Unit) (same : Server.onCompletion setup.order (.receivedImm (load.imm setup)) = p) :
          ServerState.shape { s.server with
            qp := s.server.qp.polled
            poller := Server.onCompletion setup.order (.receivedImm (load.imm setup)) } =
            { Turn.idle 0 with poller := p } := by
        rw [same]
        exact (congrArg (fun shape : ServerShape => { shape with
          poller := p
          news := Transfer.news s.server.qp.polled }) holds.server).trans (by rw [none])
      rw [Server.onCompletion_receivedImm, imm] at server
      by_cases empty : load.bytes setup = []
      · have zero : load.size setup = 0 := by simp [Load.size, empty]
        refine ⟨.setDone, late, ⟨?_, ?_, holds.bufferMr, ?_⟩, ?_⟩
        · exact holds.client
        · rw [Server.onCompletion_receivedImm, imm]
          exact server _ (if_pos zero)
        · cases load with
          | name => exact absurd empty (by simp [Load.bytes])
          | chunk got data =>
            cases empty
            obtain ⟨held, ledger, unread⟩ := carried.due
            rw [unread rfl, List.append_nil, List.append_nil] at ledger
            exact ⟨ledger ▸ held, unread rfl⟩
        · simp only [rank, State.pending, Turn.rank]
          omega
      · have pos : load.size setup ≠ 0 := by
          intro zero
          rw [zero] at size
          exact empty (List.length_eq_zero_iff.mp size.symm)
        refine ⟨.check load, late, ⟨holds.client, ?_, holds.bufferMr, carried, within, empty⟩, ?_⟩
        · rw [Server.onCompletion_receivedImm, imm]
          exact server _ (if_neg pos)
        · have rank : load.rank s.client.unread.length = 21 + 100 * s.client.unread.length := by
            unfold Load.rank
            split
            · exact absurd rfl empty
            · rfl
          simp only [Transfer.rank, State.pending, Turn.rank, rank]
          omega
    | _ => cases shape

theorem hang_up (holds : At setup turn late s) (gone : s.client.disconnected = true) (listening : s.server.hungUp = false) :
    Lower setup (rank setup turn late s) { s with server := { s.server with
      events := Server.onDisconnect
      hungUp := true } } := by
  have client : true = ((turn.client setup).shape late).disconnected :=
    gone.symm.trans (congrArg ClientShape.disconnected holds.client)
  have server : false = (turn.server setup).hungUp := listening.symm.trans (congrArg ServerShape.hungUp holds.server)
  cases turn with
  | finished =>
    exact holds.server_turn .hungUp rfl
      (congrArg (fun shape : ServerShape => { shape with events := Server.onDisconnect, hungUp := true }) holds.server)
      rfl rfl holds.data (by simp [Turn.rank])
  | hungUp => cases server
  | closed => cases server
  | _ => cases late <;> cases client

/-- A pending RDMA write is the one of the turn. -/
theorem At.in_flight {w : Write} (holds : At setup turn late s) (first : s.client.qp.sends.head? = some w) :
    ∃ load moved, turn = .flight load moved ∧ s.client.qp.sends = [w] ∧ s.client.qp.moved = moved ∧
      w = ⟨load.size setup, load.imm setup, setup.bufferMr⟩ := by
  have sends : s.client.qp.sends = ((turn.client setup).shape late).sends := congrArg ClientShape.sends holds.client
  have moved : s.client.qp.moved = ((turn.client setup).shape late).moved := congrArg ClientShape.moved holds.client
  cases turn with
  | flight load bytes =>
    have single : s.client.qp.sends = [⟨load.size setup, load.imm setup, setup.bufferMr⟩] := by
      rw [sends]
      cases late <;> rfl
    rw [single] at first
    cases first
    refine ⟨load, bytes, rfl, single, ?_, rfl⟩
    rw [moved]
    cases late <;> rfl
  | _ =>
    rw [sends] at first
    cases late <;> cases first

theorem place {w : Write} {k : Nat} (holds : At setup turn late s) (first : s.client.qp.sends.head? = some w)
    (further : s.client.qp.moved < k) (bound : k ≤ w.length.toNat) :
    Lower setup (rank setup turn late s)
      { client := { s.client with qp := s.client.qp.move k }
        server := { s.server with
          buffer := Buffer.copy s.client.qp.moved k s.client.buffer s.server.buffer } } := by
  obtain ⟨load, moved, rfl, single, same, rfl⟩ := holds.in_flight first
  obtain ⟨carried, within, agrees, -⟩ := holds.data
  rw [Load.size_toNat carried] at bound
  rw [same] at further ⊢
  refine ⟨.flight load k, late, ⟨?_, holds.server, holds.bufferMr, carried, within, Buffer.copy_agrees agrees, bound⟩, ?_⟩
  · refine (congrArg (fun shape : ClientShape => { shape with moved := k }) holds.client).trans ?_
    cases late <;> rfl
  · have pending : QueuePair.pending (s.client.qp.move k) = QueuePair.pending s.client.qp := rfl
    simp only [rank, State.pending, pending, Turn.rank]
    omega

theorem deliver_write {w : Write} (holds : At setup turn late s) (first : s.client.qp.sends.head? = some w)
    (whole : s.client.qp.moved = w.length.toNat) :
    Lower setup (rank setup turn late s)
      { client := { s.client with qp := s.client.qp.executed }
        server := { s.server with qp := s.server.qp.received (.receivedImm w.imm) } } := by
  obtain ⟨load, moved, rfl, single, same, rfl⟩ := holds.in_flight first
  obtain ⟨carried, within, agrees, -⟩ := holds.data
  have length : moved = (load.bytes setup).length := by rw [← Load.size_toNat carried, ← whole, same]
  refine ⟨.arrived load, late, ⟨?_, ?_, holds.bufferMr, carried, ?_⟩, ?_⟩
  · refine (congrArg (fun shape : ClientShape => { shape with sends := shape.sends.tail, moved := 0 }) holds.client).trans ?_
    cases late <;> rfl
  · have server := holds.server
    have news := news_received s.server.qp (.receivedImm (load.imm setup)) rfl
    refine Eq.trans ?_ (congrArg (fun shape : ServerShape => { shape with
      receives := shape.receives - 1
      news := shape.news ++ [Wc.receivedImm (load.imm setup)] }) server)
    simp only [ServerState.shape, news, QueuePair.received_receives, QueuePair.received_sends]
  · exact (Buffer.bytes_congr (length ▸ agrees)).trans within
  · simp only [rank, State.pending, QueuePair.pending, Turn.rank, QueuePair.executed_unacked, QueuePair.executed_completions,
      QueuePair.received_unacked, QueuePair.received_completions, single, List.head?_cons, Option.toList_some,
      List.length_append, List.length_singleton]
    omega

theorem deliver_send (holds : At setup turn late s) (some : s.server.qp.sends ≠ []) (posted : 0 < s.client.qp.receives) :
    Lower setup (rank setup turn late s)
      { client := { s.client with
          qp := s.client.qp.received .received
          msg := s.server.msg }
        server := { s.server with qp := s.server.qp.executed } } := by
  have sends : s.server.qp.sends = (turn.server setup).sends := congrArg ServerShape.sends holds.server
  have receives : s.client.qp.receives = ((turn.client setup).shape late).receives :=
    congrArg ClientShape.receives holds.client
  cases turn with
  | message id =>
    cases late with
    | true =>
      rw [receives] at posted
      exact absurd posted (Nat.lt_irrefl 0)
    | false =>
      have single : s.server.qp.sends = [()] := sends
      have news := news_received s.client.qp .received rfl
      refine ⟨.inbox id, false, ⟨?_, ?_, holds.bufferMr, holds.data⟩, ?_⟩
      · refine Eq.trans ?_ (congrArg (fun shape : ClientShape => { shape with
          receives := shape.receives - 1
          news := shape.news ++ [Wc.received] }) holds.client)
        simp only [ClientState.shape, news, QueuePair.received_receives, QueuePair.received_sends,
          QueuePair.received_moved]
      · exact congrArg (fun shape : ServerShape => { shape with sends := shape.sends.tail }) holds.server
      · simp only [rank, State.pending, QueuePair.pending, Turn.rank, QueuePair.executed_unacked,
          QueuePair.executed_completions, QueuePair.received_unacked, QueuePair.received_completions, single,
          List.head?_cons, Option.toList_some, List.length_append, List.length_singleton]
        omega
  | _ => exact absurd sends some

theorem ack_client (holds : At setup turn late s) (some : s.client.qp.unacked ≠ []) :
    Lower setup (rank setup turn late s) { s with client := { s.client with qp := s.client.qp.acked .written } } := by
  have pending := pending_acked .written some
  refine ⟨turn, late, ⟨?_, holds.server, holds.bufferMr, holds.data⟩, ?_⟩
  · rw [← holds.client]
    simp only [ClientState.shape, news_acked s.client.qp .written rfl, QueuePair.acked_receives,
      QueuePair.acked_sends, QueuePair.acked_moved]
  · simp only [rank, State.pending]
    omega

theorem ack_server (holds : At setup turn late s) (some : s.server.qp.unacked ≠ []) :
    Lower setup (rank setup turn late s) { s with server := { s.server with qp := s.server.qp.acked .sent } } := by
  have pending := pending_acked .sent some
  refine ⟨turn, late, ⟨holds.client, ?_, holds.bufferMr, holds.data⟩, ?_⟩
  · rw [← holds.server]
    simp only [ServerState.shape, news_acked s.server.qp .sent rfl, QueuePair.acked_receives, QueuePair.acked_sends]
  · simp only [rank, State.pending]
    omega

theorem step_lower {does : ServerBehaviour} {t : State} (sound : Sound does) (holds : At setup turn late s)
    (step : Step setup does s t) : Lower setup (rank setup turn late s) t := by
  cases step with
  | clientCall q c advances => exact client_call holds advances
  | clientPoll wc rest idle first => exact client_poll holds idle first
  | serverEvents q v advances => exact server_events sound holds advances
  | serverCall q v advances => exact server_call sound holds advances
  | serverPoll wc rest idle first => exact server_poll holds idle first
  | hangUp gone idle listening => exact hang_up holds gone listening
  | place w k first right room further bound => exact place holds first further bound
  | deliverWrite w first whole posted => exact deliver_write holds first whole
  | deliverSend some posted => exact deliver_send holds some posted
  | ackClient some => exact ack_client holds some
  | ackServer some => exact ack_server holds some

theorem Starts.at (starts : Starts setup s) : At setup .accept false s := by
  refine ⟨?_, ?_, starts.bufferMr, starts.unnamed, starts.unopened, starts.unread⟩
  · simp only [ClientState.shape, starts.clientPoller, starts.clientQp, starts.connected]
    rfl
  · simp only [ServerState.shape, starts.events, starts.serverPoller, starts.serverQp, starts.listening, starts.unclosed]
    rfl

namespace Books

variable {b : Books} {files : List Byte → Option (List Byte)} {got : List Byte}

end Books

def Inv (setup : Setup) (s : State) : Prop := ∃ turn late, At setup turn late s

end RdmaExps.Transfer
