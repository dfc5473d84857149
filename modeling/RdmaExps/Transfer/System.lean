import RdmaExps.Run.Transition
import RdmaExps.Transfer.Server

namespace RdmaExps.Transfer

open RdmaExps.Python RdmaExps.Verbs RdmaExps.Wire RdmaExps.Run

/-- What a transfer starts from. The messages are raw structures, so the hosts have one byte order. -/
structure Setup where
  order : ByteOrder
  fileName : List Byte
  file : List Byte
  bufferMr : Mr
  named : fileName ≠ []
  string : (0 : Byte) ∉ fileName
  fits : fileName.length < BUFFER_SIZE

structure State where
  client : ClientState
  server : ServerState

abbrev ServerBehaviour := (call : ServerCall) → ServerState → call.Reply → ServerState → Prop

variable (setup : Setup) (does : ServerBehaviour)

/-- The steps of the two processes and of the network between them. A process that crashes takes no
    more steps. The network retries until the peer has posted a receive. -/
inductive Step : State → State → Prop where
  | clientCall (s : State) (q : Client Unit) (c : ClientState) :
      Advances (ClientCall.Does setup.order) s.client.poller s.client q c →
      Step s { s with client := { c with poller := q } }
  | clientPoll (s : State) (wc : Wc) (rest : List Wc) :
      s.client.poller = pure () → s.client.qp.completions = wc :: rest →
      Step s { s with client := { s.client with
        qp := s.client.qp.polled
        poller := Client.onCompletion setup.fileName wc } }
  | serverEvents (s : State) (q : Server Unit) (v : ServerState) :
      Advances does s.server.events s.server q v →
      Step s { s with server := { v with events := q } }
  | serverCall (s : State) (q : Server Unit) (v : ServerState) :
      Advances does s.server.poller s.server q v →
      Step s { s with server := { v with poller := q } }
  | serverPoll (s : State) (wc : Wc) (rest : List Wc) :
      s.server.poller = pure () → s.server.qp.completions = wc :: rest →
      Step s { s with server := { s.server with
        qp := s.server.qp.polled
        poller := Server.onCompletion setup.order wc } }
  | hangUp (s : State) :
      s.client.disconnected = true → s.server.events = pure () → s.server.hungUp = false →
      Step s { s with server := { s.server with
        events := Server.onDisconnect
        hungUp := true } }
  | place (s : State) (w : Write) (k : Nat) :
      s.client.qp.sends.head? = some w → w.remote = s.server.bufferMr → w.length.toNat ≤ BUFFER_SIZE →
      s.client.qp.moved < k → k ≤ w.length.toNat →
      Step s
        { client := { s.client with qp := s.client.qp.move k }
          server := { s.server with
            buffer := Buffer.copy s.client.qp.moved k s.client.buffer s.server.buffer } }
  | deliverWrite (s : State) (w : Write) :
      s.client.qp.sends.head? = some w → s.client.qp.moved = w.length.toNat → 0 < s.server.qp.receives →
      Step s
        { client := { s.client with qp := s.client.qp.executed }
          server := { s.server with qp := s.server.qp.received (.receivedImm w.imm) } }
  | deliverSend (s : State) :
      s.server.qp.sends ≠ [] → 0 < s.client.qp.receives →
      Step s
        { client := { s.client with
            qp := s.client.qp.received .received
            msg := s.server.msg }
          server := { s.server with qp := s.server.qp.executed } }
  | ackClient (s : State) :
      s.client.qp.unacked ≠ [] →
      Step s { s with client := { s.client with qp := s.client.qp.acked .written } }
  | ackServer (s : State) :
      s.server.qp.unacked ≠ [] →
      Step s { s with server := { s.server with qp := s.server.qp.acked .sent } }

/-- The client has asked for the connection and has posted its first receive. -/
structure Starts (s : State) : Prop where
  clientQp : s.client.qp = QueuePair.new.postRecv
  clientPoller : s.client.poller = pure ()
  unread : s.client.unread = setup.file
  connected : s.client.disconnected = false
  serverQp : s.server.qp = QueuePair.new
  events : s.server.events = do Server.onPreConn; Server.onConnection
  serverPoller : s.server.poller = pure ()
  bufferMr : s.server.bufferMr = setup.bufferMr
  unnamed : s.server.fileName 0 = 0
  unopened : s.server.fd = none
  unclosed : s.server.closed = false
  listening : s.server.hungUp = false

/-- A transfer of three bytes, from its start. -/
def sample : Setup where
  order := .little
  fileName := [102]
  file := [1, 2, 3]
  bufferMr := ⟨4096, 7⟩
  named := by decide
  string := by decide
  fits := by decide

def sampleStart (files : List Byte → Option (List Byte)) : State where
  client :=
    { buffer := fun _ => 0
      msg := ⟨.invalid, ⟨0, 0⟩⟩
      peer := ⟨0, 0⟩
      unread := sample.file
      qp := QueuePair.new.postRecv
      poller := pure ()
      disconnected := false }
  server :=
    { buffer := fun _ => 0
      bufferMr := sample.bufferMr
      msg := ⟨.invalid, ⟨0, 0⟩⟩
      fileName := fun _ => 0
      fd := none
      closed := false
      files
      qp := QueuePair.new
      events := do Server.onPreConn; Server.onConnection
      poller := pure ()
      hungUp := false }

theorem sampleStart_starts (files : List Byte → Option (List Byte)) : Starts sample (sampleStart files) := by
  constructor <;> rfl

end RdmaExps.Transfer
