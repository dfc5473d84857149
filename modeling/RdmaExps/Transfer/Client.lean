import RdmaExps.Run.Thread
import RdmaExps.Verbs.QueuePair
import RdmaExps.Wire.ByteOrder

namespace RdmaExps.Transfer

open RdmaExps.Python RdmaExps.Verbs RdmaExps.Wire

def BUFFER_SIZE : Nat := 10 * 1024 * 1024

inductive MessageId where
  | invalid
  | mr
  | ready
  | done
  deriving DecidableEq, Repr

structure Mr where
  addr : UInt64
  rkey : UInt32
  deriving DecidableEq, Repr

structure Message where
  id : MessageId
  mr : Mr
  deriving DecidableEq, Repr

/-- The bytes of a registered buffer. -/
abbrev Buffer := Nat → Byte

namespace Buffer

def bytes (buffer : Buffer) (n : Nat) : List Byte := (List.range n).map buffer

def store (data : List Byte) (buffer : Buffer) : Buffer := fun i => data.getD i (buffer i)

/-- The bytes from `m` on and before `n` are those of the source. -/
def copy (m n : Nat) (source target : Buffer) : Buffer := fun i => if m ≤ i ∧ i < n then source i else target i

@[simp] theorem bytes_zero (buffer : Buffer) : buffer.bytes 0 = [] := rfl

@[simp] theorem length_bytes (buffer : Buffer) (n : Nat) : (buffer.bytes n).length = n := by
  simp [bytes]

theorem bytes_store (data : List Byte) (buffer : Buffer) : (store data buffer).bytes data.length = data := by
  apply List.ext_getElem (length_bytes _ _)
  intro i _ inside
  simp [bytes, store, inside]

theorem bytes_congr {a b : Buffer} {n : Nat} (same : ∀ i < n, a i = b i) : a.bytes n = b.bytes n :=
  List.map_congr_left fun i member => same i (List.mem_range.mp member)

theorem copy_agrees {source target : Buffer} {m n : Nat} (same : ∀ i < m, target i = source i) :
    ∀ i < n, copy m n source target i = source i := by
  intro i below
  unfold copy
  split
  · rfl
  · exact same i (by omega)

theorem take_bytes (buffer : Buffer) {m n : Nat} (le : m ≤ n) : (buffer.bytes n).take m = buffer.bytes m := by
  rw [bytes, ← List.map_take, List.take_range, Nat.min_eq_left le, bytes]

end Buffer

/-- Completions: `received` stands for IBV_WC_RECV, `receivedImm` for IBV_WC_RECV_RDMA_WITH_IMM with
    the four bytes of `imm_data`. -/
inductive Wc where
  | sent
  | written
  | received
  | receivedImm (imm : List Byte)
  deriving DecidableEq, Repr

/-- `wc->opcode & IBV_WC_RECV` -/
def Wc.isRecv : Wc → Bool
  | .received => true
  | .receivedImm _ => true
  | _ => false

/-- IBV_WR_RDMA_WRITE_WITH_IMM of the first bytes of the client's buffer. -/
structure Write where
  length : UInt32
  imm : List Byte
  remote : Mr
  deriving DecidableEq, Repr

inductive ClientCall where
  | loadMsg
  | storePeer (mr : Mr)
  | strcpy (data : List Byte)
  | read (size : Nat)
  | postWrite (len : UInt32)
  | postRecv
  | disconnect

abbrev ClientCall.Reply : ClientCall → Type
  | .loadMsg => Message
  | .read _ => Nat
  | _ => Unit

/-- A callback of the client, down to the calls and the memory that others see. -/
abbrev Client (α : Type) := Prog ClientCall ClientCall.Reply String α

namespace Client

def writeRemote (len : UInt32) : Client Unit := Prog.call (ClientCall.postWrite len)

def postReceive : Client Unit := Prog.call ClientCall.postRecv

def sendNextChunk : Client Unit := do
  let size ← Prog.call (ClientCall.read BUFFER_SIZE)
  writeRemote size.toUInt32

def sendFileName (fileName : List Byte) : Client Unit := do
  Prog.call (ClientCall.strcpy (fileName ++ [0]))
  writeRemote (fileName.length + 1).toUInt32

def onCompletion (fileName : List Byte) (wc : Wc) : Client Unit :=
  if wc.isRecv then do
    let msg ← Prog.call ClientCall.loadMsg
    match msg.id with
    | .mr => do
      Prog.call (ClientCall.storePeer msg.mr)
      sendFileName fileName
      postReceive
    | .ready => do
      sendNextChunk
      postReceive
    | .done => Prog.call ClientCall.disconnect
    | .invalid => postReceive
  else pure ()

end Client

/-- The client's process. `unread` is what `read` still gives of the file. -/
structure ClientState where
  buffer : Buffer
  msg : Message
  peer : Mr
  unread : List Byte
  qp : QueuePair Write Wc
  poller : Client Unit
  disconnected : Bool

/-- A short read is possible; nothing is read only at the end of the file. -/
def ClientCall.Does (order : ByteOrder) : (call : ClientCall) → ClientState → call.Reply → ClientState → Prop
  | .loadMsg, c, reply, c' => reply = c.msg ∧ c' = c
  | .storePeer mr, c, _, c' => c' = { c with peer := mr }
  | .strcpy data, c, _, c' => c' = { c with buffer := c.buffer.store data }
  | .read size, c, n, c' => n ≤ size ∧ n ≤ c.unread.length ∧ (n = 0 → c.unread = []) ∧
      c' = { c with buffer := c.buffer.store (c.unread.take n), unread := c.unread.drop n }
  | .postWrite len, c, _, c' => c' = { c with
      qp := c.qp.postSend ⟨len, order.store (htonl order len), c.peer⟩ }
  | .postRecv, c, _, c' => c' = { c with qp := c.qp.postRecv }
  | .disconnect, c, _, c' => c' = { c with disconnected := true }

end RdmaExps.Transfer
