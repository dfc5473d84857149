import RdmaExps.Run.Transition

namespace RdmaExps.Pingpong

/-- PINGPONG_RECV_WRID and PINGPONG_SEND_WRID. -/
inductive WrId where
  | recv
  | send
  deriving DecidableEq, Repr

structure Options where
  rxDepth : Nat
  iters : Nat
  useEvent : Bool
  deriving DecidableEq, Repr

/-- Where a process is in its loop. `batch` holds the completions of one poll. -/
inductive Phase where
  | top
  | woken
  | poll
  | batch (wcs : List WrId)
  | done
  | failed
  deriving DecidableEq, Repr

/-- One process with its queue pair and its completion queue. `armed` and `events` are the completion
    channel's. -/
structure Side where
  options : Options
  pendingRecv : Bool
  pendingSend : Bool
  routs : Int
  rcnt : Nat
  scnt : Nat
  posted : Nat
  unacked : Nat
  cq : List WrId
  armed : Bool
  events : Nat
  phase : Phase
  deriving DecidableEq, Repr

namespace Side

def recvSlots (s : Side) : Nat := s.options.rxDepth - (s.posted + s.cq.count .recv)

/-- `pp_post_recv`: stops at the first receive that the queue has no room for. -/
def postRecv (n : Int) (s : Side) : Nat × Side :=
  let posted := min n.toNat s.recvSlots
  (posted, { s with posted := s.posted + posted })

/-- `pp_post_send`: the queue has room for one request that is not completed. -/
def postSend (s : Side) : Option Side :=
  if s.unacked + s.cq.count .send < 1 then some { s with unacked := s.unacked + 1 } else none

/-- The loop's case of a completed receive. -/
def recvCompleted (s : Side) : Option Side :=
  let routs := s.routs - 1
  if routs ≤ 1 then
    let posts := s.postRecv (s.options.rxDepth - routs)
    if routs + posts.1 < s.options.rxDepth then none
    else some { posts.2 with routs := routs + posts.1, rcnt := s.rcnt + 1 }
  else some { s with routs, rcnt := s.rcnt + 1 }

def count (wc : WrId) (s : Side) : Option Side :=
  match wc with
  | .send => some { s with scnt := s.scnt + 1 }
  | .recv => s.recvCompleted

/-- `pending &= ~wr_id` -/
def clear (wc : WrId) (s : Side) : Side :=
  match wc with
  | .send => { s with pendingSend := false }
  | .recv => { s with pendingRecv := false }

def mayPost (s : Side) : Bool := s.scnt < s.options.iters && !s.pendingRecv && !s.pendingSend

/-- The end of the loop's body, with the number of messages it posts. -/
def refill (s : Side) : Option (Side × Nat) :=
  if s.mayPost then s.postSend.map fun s => ({ s with pendingRecv := true, pendingSend := true }, 1)
  else some (s, 0)

/-- What the loop does for one completion. -/
def handle (wc : WrId) (s : Side) : Option (Side × Nat) := do
  let s ← s.count wc
  (s.clear wc).refill

def more (s : Side) : Bool := s.rcnt < s.options.iters || s.scnt < s.options.iters

/-- A completion comes in. -/
def complete (wc : WrId) (s : Side) : Side :=
  { s with
    cq := s.cq ++ [wc]
    events := if s.armed then s.events + 1 else s.events
    armed := false }

end Side

/-- The steps of one process, with the number of messages it sends. -/
inductive Runs : Side → Side → Nat → Prop where
  | enter (s : Side) : s.phase = .top → s.more = true → s.options.useEvent = false → Runs s { s with phase := .poll } 0
  | wake (s : Side) : s.phase = .top → s.more = true → s.options.useEvent = true → 0 < s.events →
      Runs s { s with events := s.events - 1, phase := .woken } 0
  | notify (s : Side) : s.phase = .woken → Runs s { s with armed := true, phase := .poll } 0
  | poll (s : Side) : s.phase = .poll → s.options.useEvent = true ∨ s.cq ≠ [] →
      Runs s { s with cq := s.cq.drop 2, phase := .batch (s.cq.take 2) } 0
  | handle (s t : Side) (wc : WrId) (wcs : List WrId) (sent : Nat) :
      s.phase = .batch (wc :: wcs) → ({ s with phase := .batch wcs } : Side).handle wc = some (t, sent) → Runs s t sent
  | fail (s : Side) (wc : WrId) (wcs : List WrId) :
      s.phase = .batch (wc :: wcs) → ({ s with phase := .batch wcs } : Side).handle wc = none →
      Runs s { s with phase := .failed } 0
  | next (s : Side) : s.phase = .batch [] → Runs s { s with phase := .top } 0
  | leave (s : Side) : s.phase = .top → s.more = false → Runs s { s with phase := .done } 0

/-- The two processes, and the messages on the way to each of them. -/
structure State where
  client : Side
  server : Side
  toServer : Nat
  toClient : Nat

/-- A message needs a posted receive; the completion of a send comes at any time after it. -/
inductive Step : State → State → Prop where
  | client (s : State) (t : Side) (sent : Nat) :
      Runs s.client t sent → Step s { s with client := t, toServer := s.toServer + sent }
  | server (s : State) (t : Side) (sent : Nat) :
      Runs s.server t sent → Step s { s with server := t, toClient := s.toClient + sent }
  | arriveServer (s : State) : 0 < s.toServer → 0 < s.server.posted →
      Step s { s with
        toServer := s.toServer - 1
        server := { s.server with posted := s.server.posted - 1 }.complete .recv }
  | arriveClient (s : State) : 0 < s.toClient → 0 < s.client.posted →
      Step s { s with
        toClient := s.toClient - 1
        client := { s.client with posted := s.client.posted - 1 }.complete .recv }
  | ackClient (s : State) : 0 < s.client.unacked →
      Step s { s with client := { s.client with unacked := s.client.unacked - 1 }.complete .send }
  | ackServer (s : State) : 0 < s.server.unacked →
      Step s { s with server := { s.server with unacked := s.server.unacked - 1 }.complete .send }

/-- A process that has exchanged addresses, before the loop: its receives are posted. -/
def Side.start (options : Options) : Side where
  options
  pendingRecv := true
  pendingSend := false
  routs := options.rxDepth
  rcnt := 0
  scnt := 0
  posted := options.rxDepth
  unacked := 0
  cq := []
  armed := options.useEvent
  events := 0
  phase := .top

/-- The client has posted its first message. -/
def start (client server : Options) : State where
  client := { Side.start client with pendingSend := true, unacked := 1 }
  server := Side.start server
  toServer := 1
  toClient := 0

end RdmaExps.Pingpong
