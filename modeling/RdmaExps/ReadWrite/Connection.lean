import RdmaExps.Run.Transition
import RdmaExps.Transfer.Client

namespace RdmaExps.ReadWrite

open RdmaExps.Run RdmaExps.Verbs
open RdmaExps.Transfer (Mr Buffer)

inductive Mode where
  | write
  | read
  deriving DecidableEq, Repr

def RDMA_BUFFER_SIZE : Nat := 1024

inductive MessageType where
  | mr
  | done
  deriving DecidableEq, Repr

structure Message where
  type : MessageType
  mr : Mr
  deriving DecidableEq, Repr

inductive Request where
  | message
  | rdma (remote : Mr)
  deriving DecidableEq, Repr

inductive Wc where
  | recv
  | sent
  deriving DecidableEq, Repr

def SS_INIT : Nat := 0
def SS_MR_SENT : Nat := 1
def SS_DONE_SENT : Nat := 3
def RS_MR_RECV : Nat := 1
def RS_DONE_RECV : Nat := 2

/-- Where the thread that polls completions is: before the next one, or in the `send_message` of one that
    `on_completion` handles. -/
inductive Phase where
  | idle
  | sendMr
  | sendDone
  deriving DecidableEq, Repr

/-- A process with its connection; the active one is the client. -/
structure Connection where
  active : Bool
  mr : Mr
  localRegion : Buffer
  remoteRegion : Buffer
  sendMsg : Message
  recvMsg : Message
  peerMr : Mr
  sendState : Nat
  recvState : Nat
  connected : Bool
  qp : QueuePair Request Wc
  phase : Phase
  printed : Option Buffer
  disconnected : Bool
  gone : Bool

namespace Connection

/-- `get_local_message_region` -/
def message (mode : Mode) (c : Connection) : Buffer :=
  match mode with
  | .write => c.localRegion
  | .read => c.remoteRegion

/-- `get_peer_message_region` -/
def inbox (mode : Mode) (c : Connection) : Buffer :=
  match mode with
  | .write => c.remoteRegion
  | .read => c.localRegion

def postMessage (c : Connection) : Connection := { c with qp := c.qp.postSend .message }

/-- The end of `on_completion`. -/
def check (mode : Mode) (c : Connection) : Connection :=
  if c.sendState = SS_MR_SENT ∧ c.recvState = RS_MR_RECV then
    { c with
      qp := c.qp.postSend (.rdma c.peerMr)
      sendMsg := { c.sendMsg with type := .done }
      phase := .sendDone }
  else if c.sendState = SS_DONE_SENT ∧ c.recvState = RS_DONE_RECV then
    { c with
      printed := some (c.inbox mode)
      disconnected := true
      phase := .idle }
  else { c with phase := .idle }

/-- `on_completion`, up to a `send_message` if there is one. -/
def onCompletion (mode : Mode) (wc : Wc) (c : Connection) : Connection :=
  match wc with
  | .sent => check mode { c with sendState := c.sendState + 1 }
  | .recv =>
    match c.recvMsg.type with
    | .mr =>
      if c.sendState = SS_INIT then
        { c with
          recvState := c.recvState + 1
          peerMr := c.recvMsg.mr
          qp := c.qp.postRecv
          sendMsg := ⟨.mr, c.mr⟩
          phase := .sendMr }
      else check mode { c with recvState := c.recvState + 1, peerMr := c.recvMsg.mr, qp := c.qp.postRecv }
    | .done => check mode { c with recvState := c.recvState + 1 }

/-- `send_message` finds the connection established, and `on_completion` goes on. -/
def messageSent (mode : Mode) (c : Connection) : Connection :=
  match c.phase with
  | .idle => c
  | .sendMr => check mode c.postMessage
  | .sendDone => { c.postMessage with phase := .idle }

/-- `on_connection` of the client, and of the server. -/
def onConnection (c : Connection) : Connection :=
  if c.active then { c with connected := true, sendMsg := ⟨.mr, c.mr⟩ }.postMessage
  else { c with connected := true }

/-- The requesting side, once the bytes before `k` have come over. -/
def moved (mode : Mode) (k : Nat) (a b : Connection) : Connection :=
  match mode with
  | .write => { a with qp := a.qp.move k }
  | .read => { a with
      qp := a.qp.move k
      localRegion := Buffer.copy a.qp.moved k b.remoteRegion a.localRegion }

def movedAt (mode : Mode) (k : Nat) (a b : Connection) : Connection :=
  match mode with
  | .write => { b with remoteRegion := Buffer.copy a.qp.moved k a.localRegion b.remoteRegion }
  | .read => b

end Connection

variable (mode : Mode) (inOrder : Prop)

/-- The steps that a process takes, or the network for it, with what they change at the peer. The network tries again
    until the peer has posted a receive. Where it works in order, no message overtakes an acknowledgement. -/
inductive Moves : Connection → Connection → Connection → Connection → Prop where
  | establish (a b : Connection) : a.gone = false → a.connected = false → Moves a b a.onConnection b
  | poll (a b : Connection) (wc : Wc) (rest : List Wc) :
      a.gone = false → a.phase = .idle → a.qp.completions = wc :: rest →
      Moves a b (Connection.onCompletion mode wc { a with qp := a.qp.polled }) b
  | send (a b : Connection) :
      a.gone = false → a.phase ≠ .idle → a.connected = true → Moves a b (a.messageSent mode) b
  | place (a b : Connection) (k : Nat) :
      a.gone = false → b.gone = false → a.qp.sends.head? = some (.rdma b.mr) → a.qp.moved < k → k ≤ RDMA_BUFFER_SIZE →
      Moves a b (Connection.moved mode k a b) (Connection.movedAt mode k a b)
  | execute (a b : Connection) :
      a.gone = false → b.gone = false → a.qp.sends.head? = some (.rdma b.mr) → a.qp.moved = RDMA_BUFFER_SIZE →
      Moves a b { a with qp := a.qp.executed } b
  | deliver (a b : Connection) :
      a.gone = false → b.gone = false → a.qp.sends.head? = some .message → 0 < b.qp.receives →
      (inOrder → b.qp.unacked = []) →
      Moves a b { a with qp := a.qp.executed } { b with qp := b.qp.received .recv, recvMsg := a.sendMsg }
  | ack (a b : Connection) : a.gone = false → a.qp.unacked ≠ [] → Moves a b { a with qp := a.qp.acked .sent } b
  | leave (a b : Connection) :
      a.gone = false → a.disconnected = true ∨ b.disconnected = true → Moves a b { a with gone := true } b

structure State where
  client : Connection
  server : Connection

inductive Step : State → State → Prop where
  | client (s : State) (a b : Connection) : Moves mode inOrder s.client s.server a b → Step s ⟨a, b⟩
  | server (s : State) (a b : Connection) : Moves mode inOrder s.server s.client a b → Step s ⟨b, a⟩

/-- `build_connection` has been called, and nothing has come in. -/
structure Connection.Starts (active : Bool) (c : Connection) : Prop where
  active : c.active = active
  qp : c.qp = QueuePair.new.postRecv
  sendState : c.sendState = SS_INIT
  recvState : c.recvState = 0
  connected : c.connected = false
  phase : c.phase = .idle
  printed : c.printed = none
  stays : c.disconnected = false
  here : c.gone = false

structure Starts (s : State) : Prop where
  client : s.client.Starts true
  server : s.server.Starts false

end RdmaExps.ReadWrite
