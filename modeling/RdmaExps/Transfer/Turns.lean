import RdmaExps.Transfer.System

namespace RdmaExps.Transfer

open RdmaExps.Python RdmaExps.Verbs RdmaExps.Wire RdmaExps.Run

/-- The completions that the callbacks do something for. -/
def news {Wr : Type} (qp : QueuePair Wr Wc) : List Wc := qp.completions.filter Wc.isRecv

structure ClientShape where
  poller : Client Unit
  receives : Nat
  news : List Wc
  sends : List Write
  moved : Nat
  disconnected : Bool

def ClientState.shape (c : ClientState) : ClientShape :=
  ⟨c.poller, c.qp.receives, news c.qp, c.qp.sends, c.qp.moved, c.disconnected⟩

structure ServerShape where
  events : Server Unit
  poller : Server Unit
  receives : Nat
  news : List Wc
  sends : List Unit
  hungUp : Bool
  closed : Bool

def ServerState.shape (v : ServerState) : ServerShape :=
  ⟨v.events, v.poller, v.qp.receives, news v.qp, v.qp.sends, v.hungUp, v.closed⟩

/-- What the two sides have learnt from each other so far. -/
structure Books where
  peer : Mr
  unread : List Byte
  fileName : Buffer
  fd : Option (List Byte)
  files : List Byte → Option (List Byte)

def State.books (s : State) : Books :=
  ⟨s.client.peer, s.client.unread, s.server.fileName, s.server.fd, s.server.files⟩

/-- The books, and the memory that the network reads and writes. -/
structure View where
  books : Books
  buffer : Buffer
  msg : Message
  remote : Buffer
  reply : Message

def State.view (s : State) : View := ⟨s.books, s.client.buffer, s.client.msg, s.server.buffer, s.server.msg⟩

/-- What an RDMA write carries. `got` has reached the file before. -/
inductive Load where
  | name
  | chunk (got data : List Byte)

/-- Who has to act next. -/
inductive Turn where
  | accept
  | setId
  | setMr
  | greet
  | message (id : MessageId)
  | inbox (id : MessageId)
  | look (id : MessageId)
  | storePeer
  | storeName
  | read
  | post (load : Load)
  | flight (load : Load) (moved : Nat)
  | arrived (load : Load)
  | check (load : Load)
  | copyName
  | openNew
  | write (got data : List Byte)
  | rearm
  | setReady
  | setDone
  | reply (id : MessageId)
  | failed (error : String)
  | disconnect
  | finished
  | hungUp
  | closed

inductive ClientMode where
  | rest (sends : List Write) (moved : Nat)
  | inbox
  | runs (p : Client Unit)
  | gone

/-- A client at rest may be `late`: it has not posted its receive yet. -/
def ClientMode.shape (late : Bool) : ClientMode → ClientShape
  | .rest sends moved =>
    if late then ⟨Client.postReceive, 0, [], sends, moved, false⟩ else ⟨pure (), 1, [], sends, moved, false⟩
  | .inbox => ⟨pure (), 0, [.received], [], 0, false⟩
  | .runs p => ⟨p, 0, [], [], 0, false⟩
  | .gone => ⟨pure (), 0, [], [], 0, true⟩

namespace Server

/-- The rests of `on_completion`, from the last to the first. -/
def answer (id : MessageId) : Server Unit := do
  Prog.call (ServerCall.setMsg id)
  sendMessage

def rearm : Server Unit := do
  postReceive
  Prog.call (ServerCall.setMsg .ready)
  sendMessage

def openNew : Server Unit := do
  if !(← Prog.call ServerCall.openNew) then throw "open() failed"
  postReceive
  Prog.call (ServerCall.setMsg .ready)
  sendMessage

def copyName (size : UInt32) : Server Unit := do
  Prog.call (ServerCall.copyName (if size.toNat > MAX_FILE_NAME then MAX_FILE_NAME else size.toNat))
  if !(← Prog.call ServerCall.openNew) then throw "open() failed"
  postReceive
  Prog.call (ServerCall.setMsg .ready)
  sendMessage

def writeChunk (size : UInt32) : Server Unit := do
  let ret ← Prog.call (ServerCall.write size)
  if ret ≠ size.toNat then throw "write() failed"
  postReceive
  Prog.call (ServerCall.setMsg .ready)
  sendMessage

def check (size : UInt32) : Server Unit := do
  if ← Prog.call ServerCall.hasName then writeChunk size else copyName size

theorem onCompletion_receivedImm (order : ByteOrder) (imm : List Byte) :
    onCompletion order (.receivedImm imm) =
      if ntohl order (order.load imm) = 0 then answer .done else check (ntohl order (order.load imm)) := rfl

end Server

variable (setup : Setup)

def Load.bytes : Load → List Byte
  | .name => setup.fileName ++ [0]
  | .chunk _ data => data

def Load.size (load : Load) : UInt32 := (load.bytes setup).length.toUInt32

def Load.imm (load : Load) : List Byte := setup.order.store (htonl setup.order (load.size setup))

namespace Turn

def client : Turn → ClientMode
  | .inbox _ => .inbox
  | .look _ => .runs (Client.onCompletion setup.fileName .received)
  | .storePeer => .runs do
    Prog.call (ClientCall.storePeer setup.bufferMr)
    Client.sendFileName setup.fileName
    Client.postReceive
  | .storeName => .runs do
    Client.sendFileName setup.fileName
    Client.postReceive
  | .read => .runs do
    Client.sendNextChunk
    Client.postReceive
  | .post load => .runs do
    Client.writeRemote (load.size setup)
    Client.postReceive
  | .flight load moved => .rest [⟨load.size setup, load.imm setup, setup.bufferMr⟩] moved
  | .disconnect => .runs (Prog.call ClientCall.disconnect)
  | .finished => .gone
  | .hungUp => .gone
  | .closed => .gone
  | _ => .rest [] 0

/-- The server while it waits. -/
def idle (receives : Nat) : ServerShape := ⟨pure (), pure (), receives, [], [], false, false⟩

/-- The number of receives that the server leaves posted with a message. -/
def armed : MessageId → Nat
  | .done => 0
  | _ => 1

def server : Turn → ServerShape
  | .accept => { idle 0 with events := do Server.onPreConn; Server.onConnection }
  | .setId => { idle 1 with events := Server.onConnection }
  | .setMr => { idle 1 with events := do Prog.call ServerCall.setMr; Server.sendMessage }
  | .greet => { idle 1 with events := Server.sendMessage }
  | .message id => { idle (armed id) with sends := [()] }
  | .inbox id => idle (armed id)
  | .look id => idle (armed id)
  | .arrived load => { idle 0 with news := [.receivedImm (load.imm setup)] }
  | .check load => { idle 0 with poller := Server.check (load.size setup) }
  | .copyName => { idle 0 with poller := Server.copyName (Load.name.size setup) }
  | .openNew => { idle 0 with poller := Server.openNew }
  | .write got data => { idle 0 with poller := Server.writeChunk ((Load.chunk got data).size setup) }
  | .rearm => { idle 0 with poller := Server.rearm }
  | .setReady => { idle 1 with poller := Server.answer .ready }
  | .setDone => { idle 0 with poller := Server.answer .done }
  | .reply id => { idle (armed id) with poller := Server.sendMessage }
  | .failed error => { idle 0 with poller := throw error }
  | .disconnect => idle 0
  | .finished => idle 0
  | .hungUp => { idle 0 with events := Server.onDisconnect, hungUp := true }
  | .closed => { idle 0 with hungUp := true, closed := true }
  | _ => idle 1

end Turn

/-- `file_name` is an array of MAX_FILE_NAME characters with the NUL. -/
def Setup.target : List Byte := setup.fileName.take (MAX_FILE_NAME - 1)

/-- The server has nothing of the file yet, not even the name. -/
structure Fresh (b : Books) : Prop where
  unnamed : b.fileName 0 = 0
  unopened : b.fd = none
  unread : b.unread = setup.file

structure Named (fileName : Buffer) : Prop where
  nonempty : fileName 0 ≠ 0
  name : cString (fileName.bytes MAX_FILE_NAME) = setup.target

structure Holds (got : List Byte) (b : Books) : Prop where
  named : Named setup b.fileName
  opened : b.fd = some setup.target
  content : b.files setup.target = some got

/-- What has been got, and `rest`, are the file. -/
def Ledger (rest : List Byte) (b : Books) : Prop := ∃ got, Holds setup got b ∧ got ++ rest = setup.file

def Load.Due (load : Load) (b : Books) : Prop :=
  match load with
  | .name => Fresh setup b
  | .chunk got data => Holds setup got b ∧ got ++ data ++ b.unread = setup.file ∧ (data = [] → b.unread = [])

def MessageId.Due (id : MessageId) (b : Books) : Prop :=
  match id with
  | .invalid => False
  | .mr => Fresh setup b
  | .ready => b.peer = setup.bufferMr ∧ Ledger setup b.unread b
  | .done => Holds setup setup.file b ∧ b.unread = []

def Message.Is (id : MessageId) (msg : Message) : Prop := msg.id = id ∧ (id = .mr → msg.mr = setup.bufferMr)

/-- A load that is due, from the read on until it is dealt with. -/
structure Load.Carried (load : Load) (b : Books) : Prop where
  due : load.Due setup b
  peer : b.peer = setup.bufferMr
  small : (load.bytes setup).length ≤ BUFFER_SIZE

def Load.In (load : Load) (buffer : Buffer) : Prop := buffer.bytes (load.bytes setup).length = load.bytes setup

def Turn.Data (turn : Turn) (m : View) : Prop :=
  match turn with
  | .accept => Fresh setup m.books
  | .setId => Fresh setup m.books
  | .setMr => Fresh setup m.books ∧ m.reply.id = .mr
  | .greet => Fresh setup m.books ∧ m.reply.Is setup .mr
  | .message id => id.Due setup m.books ∧ m.reply.Is setup id
  | .inbox id => id.Due setup m.books ∧ m.msg.Is setup id
  | .look id => id.Due setup m.books ∧ m.msg.Is setup id
  | .storePeer => Fresh setup m.books
  | .storeName => Fresh setup m.books ∧ m.books.peer = setup.bufferMr
  | .read => MessageId.ready.Due setup m.books
  | .post load => load.Carried setup m.books ∧ load.In setup m.buffer
  | .flight load moved => load.Carried setup m.books ∧ load.In setup m.buffer ∧
      (∀ i < moved, m.remote i = m.buffer i) ∧ moved ≤ (load.bytes setup).length
  | .arrived load => load.Carried setup m.books ∧ load.In setup m.remote
  | .check load => load.Carried setup m.books ∧ load.In setup m.remote ∧ load.bytes setup ≠ []
  | .copyName => Load.name.Carried setup m.books ∧ Load.name.In setup m.remote
  | .openNew => Named setup m.books.fileName ∧ m.books.fd = none ∧ m.books.unread = setup.file ∧ m.books.peer = setup.bufferMr
  | .write got data => (Load.chunk got data).Carried setup m.books ∧ (Load.chunk got data).In setup m.remote
  | .rearm => MessageId.ready.Due setup m.books
  | .setReady => MessageId.ready.Due setup m.books
  | .setDone => MessageId.done.Due setup m.books
  | .reply id => id.Due setup m.books ∧ m.reply.Is setup id
  | .failed _ => m.books.fd = none ∨ ∃ rest, Ledger setup rest m.books
  | _ => MessageId.done.Due setup m.books

/-- The invariant, with the turn and whether the client is late as ghosts. -/
structure At (turn : Turn) (late : Bool) (s : State) : Prop where
  client : s.client.shape = (turn.client setup).shape late
  server : s.server.shape = turn.server setup
  bufferMr : s.server.bufferMr = setup.bufferMr
  data : turn.Data setup s.view

end RdmaExps.Transfer
