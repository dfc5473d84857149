import RdmaExps.Transfer.Client

namespace RdmaExps.Transfer

open RdmaExps.Python RdmaExps.Verbs RdmaExps.Wire

def MAX_FILE_NAME : Nat := 256

/-- The characters before the first NUL. -/
def cString (chars : List Byte) : List Byte := chars.takeWhile (· ≠ 0)

theorem cString_append {front : List Byte} (rest : List Byte) (string : (0 : Byte) ∉ front) :
    cString (front ++ 0 :: rest) = front := by
  unfold cString
  rw [List.takeWhile_append_of_pos fun byte member => by simpa using ne_of_mem_of_not_mem member string]
  simp

theorem cString_bytes (buffer : Buffer) {m n : Nat} (inside : m < n) (stop : buffer m = 0)
    (string : (0 : Byte) ∉ buffer.bytes m) : cString (buffer.bytes n) = buffer.bytes m := by
  rw [← List.take_append_drop m (buffer.bytes n), Buffer.take_bytes buffer (Nat.le_of_lt inside),
    List.drop_eq_getElem_cons (by simpa using inside)]
  have first : (buffer.bytes n).get ⟨m, by simpa using inside⟩ = 0 := by simp [Buffer.bytes, stop]
  change cString (buffer.bytes m ++ (buffer.bytes n).get ⟨m, _⟩ :: _) = _
  rw [first]
  exact cString_append _ string

inductive ServerCall where
  | setMsg (id : MessageId)
  | setMr
  | hasName
  | copyName (size : Nat)
  | openNew
  | write (size : UInt32)
  | postRecv
  | postSend
  | close

abbrev ServerCall.Reply : ServerCall → Type
  | .hasName => Bool
  | .openNew => Bool
  | .write _ => Nat
  | _ => Unit

/-- A callback of the server, down to the calls and the memory that others see. -/
abbrev Server (α : Type) := Prog ServerCall ServerCall.Reply String α

namespace Server

def sendMessage : Server Unit := Prog.call ServerCall.postSend

def postReceive : Server Unit := Prog.call ServerCall.postRecv

def onPreConn : Server Unit := postReceive

def onConnection : Server Unit := do
  Prog.call (ServerCall.setMsg .mr)
  Prog.call ServerCall.setMr
  sendMessage

def onCompletion (order : ByteOrder) : Wc → Server Unit
  | .receivedImm imm => do
    let size := ntohl order (order.load imm)
    if size = 0 then do
      Prog.call (ServerCall.setMsg .done)
      sendMessage
    else do
      if ← Prog.call ServerCall.hasName then do
        let ret ← Prog.call (ServerCall.write size)
        if ret ≠ size.toNat then throw "write() failed"
        postReceive
        Prog.call (ServerCall.setMsg .ready)
        sendMessage
      else do
        Prog.call (ServerCall.copyName (if size.toNat > MAX_FILE_NAME then MAX_FILE_NAME else size.toNat))
        if !(← Prog.call ServerCall.openNew) then throw "open() failed"
        postReceive
        Prog.call (ServerCall.setMsg .ready)
        sendMessage
  | _ => pure ()

def onDisconnect : Server Unit := Prog.call ServerCall.close

end Server

/-- The connection's side of the server, and the files of the host. The event loop and the thread that
    polls the completions take their steps in any order. -/
structure ServerState where
  buffer : Buffer
  bufferMr : Mr
  msg : Message
  fileName : Buffer
  fd : Option (List Byte)
  closed : Bool
  files : List Byte → Option (List Byte)
  qp : QueuePair Unit Wc
  events : Server Unit
  poller : Server Unit
  hungUp : Bool

namespace ServerState

/-- `ctx->file_name` as a string. -/
def name (v : ServerState) : List Byte := cString (v.fileName.bytes MAX_FILE_NAME)

end ServerState

/-- `open` creates the file or fails. `write` may write less than it was given. -/
def ServerCall.Does : (call : ServerCall) → ServerState → call.Reply → ServerState → Prop
  | .setMsg id, v, _, v' => v' = { v with msg := { v.msg with id } }
  | .setMr, v, _, v' => v' = { v with msg := { v.msg with mr := v.bufferMr } }
  | .hasName, v, reply, v' => reply = decide (v.fileName 0 ≠ 0) ∧ v' = v
  | .copyName size, v, _, v' => v' = { v with
      fileName := fun i => if i = size - 1 then 0 else Buffer.copy 0 size v.buffer v.fileName i }
  | .openNew, v, true, v' => v.files v.name = none ∧
      v' = { v with fd := some v.name, files := Function.update v.files v.name (some []) }
  | .openNew, v, false, v' => v' = v
  | .write size, v, n, v' => n ≤ size.toNat ∧ v.closed = false ∧ ∃ target old, v.fd = some target ∧
      v.files target = some old ∧ v' = { v with
      files := Function.update v.files target (some (old ++ v.buffer.bytes n)) }
  | .postRecv, v, _, v' => v' = { v with qp := v.qp.postRecv }
  | .postSend, v, _, v' => v' = { v with qp := v.qp.postSend () }
  | .close, v, _, v' => v' = { v with closed := true }

/-- Files can be created where there is none, and the disk is not full. -/
def ServerCall.Works (call : ServerCall) (v : ServerState) (reply : call.Reply) (v' : ServerState) : Prop :=
  call.Does v reply v' ∧
    match call, reply with
    | .openNew, ok => ok = true ∨ v.files v.name ≠ none
    | .write size, n => n = size.toNat
    | _, _ => True

end RdmaExps.Transfer
