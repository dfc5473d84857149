import Mathlib

namespace RdmaExps.Verbs

/-- One end of a reliable connection. Requests are executed in order; `moved` counts the bytes of
    the first one that are at the peer already. An executed request is acknowledged later. -/
structure QueuePair (Wr Wc : Type) where
  sends : List Wr
  moved : Nat
  unacked : List Wr
  receives : Nat
  completions : List Wc

namespace QueuePair

variable {Wr Wc : Type}

def new : QueuePair Wr Wc := ⟨[], 0, [], 0, []⟩

@[simps] def postSend (wr : Wr) (qp : QueuePair Wr Wc) : QueuePair Wr Wc := { qp with sends := qp.sends ++ [wr] }

@[simps] def postRecv (qp : QueuePair Wr Wc) : QueuePair Wr Wc := { qp with receives := qp.receives + 1 }

@[simps] def move (k : Nat) (qp : QueuePair Wr Wc) : QueuePair Wr Wc := { qp with moved := k }

/-- The first request has been executed at the peer. -/
@[simps] def executed (qp : QueuePair Wr Wc) : QueuePair Wr Wc :=
  { qp with
    sends := qp.sends.tail
    moved := 0
    unacked := qp.unacked ++ qp.sends.head?.toList }

/-- A request of the peer has used a posted receive. -/
@[simps] def received (wc : Wc) (qp : QueuePair Wr Wc) : QueuePair Wr Wc :=
  { qp with
    receives := qp.receives - 1
    completions := qp.completions ++ [wc] }

@[simps] def acked (wc : Wc) (qp : QueuePair Wr Wc) : QueuePair Wr Wc :=
  { qp with
    unacked := qp.unacked.tail
    completions := qp.completions ++ [wc] }

@[simps] def polled (qp : QueuePair Wr Wc) : QueuePair Wr Wc :=
  { qp with completions := qp.completions.tail }

end QueuePair

end RdmaExps.Verbs
