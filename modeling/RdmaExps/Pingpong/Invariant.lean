import RdmaExps.Pingpong.Loop

namespace RdmaExps.Pingpong

namespace Side

def batch (s : Side) : List WrId :=
  match s.phase with
  | .batch wcs => wcs
  | .top => []
  | .woken => []
  | .poll => []
  | .done => []
  | .failed => []

/-- The completions that have come in and are not handled. -/
def held (wc : WrId) (s : Side) : Nat := s.cq.count wc + s.batch.count wc

/-- The messages posted so far. -/
def made (s : Side) : Nat := s.scnt + s.pendingSend.toNat

/-- The counters of one process agree with its queues. -/
structure Balanced (s : Side) : Prop where
  sends : s.unacked + s.held .send = s.pendingSend.toNat
  recvs : s.held .recv ≤ s.pendingRecv.toNat
  routs : s.routs = s.posted + s.held .recv
  stocked : 1 ≤ s.routs
  depth : s.routs ≤ s.options.rxDepth
  bound : s.made ≤ s.options.iters

/-- A process that waits for nothing has sent all its messages. -/
def Quiet (s : Side) : Prop := s.pendingSend = false → s.pendingRecv = false → s.scnt = s.options.iters

/-- What handling one completion changes for the other side, where `got` more completed receives are counted. -/
structure Handled (s t : Side) (got sent : Nat) : Prop where
  options : t.options = s.options
  made : t.made = s.made + sent
  turn : t.rcnt + t.pendingRecv.toNat = s.rcnt + s.pendingRecv.toNat + sent
  received : t.rcnt + t.held .recv = s.rcnt + s.held .recv + got

structure Kept (s t : Side) (sent : Nat) : Prop where
  unacked : t.unacked = s.unacked + sent
  cq : t.cq = s.cq
  armed : t.armed = s.armed
  events : t.events = s.events
  phase : t.phase = s.phase

variable {s t : Side} {wc : WrId} {wcs : List WrId}

theorem refill_balanced (balanced : s.Balanced) :
    ∃ t sent, s.refill = some (t, sent) ∧ t.Balanced ∧ t.Quiet ∧ Handled s t 0 sent ∧ Kept s t sent := by
  have sends := balanced.sends
  have recvs := balanced.recvs
  have bound := balanced.bound
  simp only [made] at bound
  cases may : s.mayPost with
  | true =>
    simp only [mayPost, Bool.and_eq_true, decide_eq_true_eq, Bool.not_eq_true'] at may
    obtain ⟨⟨further, noRecv⟩, noSend⟩ := may
    rw [noSend] at sends bound
    rw [noRecv] at recvs
    simp only [Bool.toNat_false] at sends recvs bound
    simp only [held] at sends recvs
    have free : s.unacked + s.cq.count .send < 1 := by omega
    refine ⟨{ s with unacked := s.unacked + 1, pendingRecv := true, pendingSend := true }, 1, ?_, ?_, nofun, ?_,
      ⟨rfl, rfl, rfl, rfl, rfl⟩⟩
    · simp [refill, mayPost, further, noRecv, noSend, postSend, free]
    · constructor
      · simp only [held, Bool.toNat_true]
        change s.unacked + 1 + (s.cq.count .send + s.batch.count .send) = 1
        omega
      · simp only [held, Bool.toNat_true]
        change s.cq.count .recv + s.batch.count .recv ≤ 1
        omega
      · exact balanced.routs
      · exact balanced.stocked
      · exact balanced.depth
      · simp only [made, Bool.toNat_true]
        omega
    · constructor <;> first | rfl | simp [made, noRecv, noSend]
  | false =>
    refine ⟨s, 0, by simp [refill, may], balanced, fun noSend noRecv => ?_, by constructor <;> rfl, ⟨rfl, rfl, rfl, rfl, rfl⟩⟩
    simp only [mayPost, noSend, noRecv, Bool.not_false, Bool.and_true, decide_eq_false_iff_not] at may
    rw [noSend, Bool.toNat_false] at bound
    omega

/-- One completion of the batch is in hand, and the rest of the batch in the phase. -/
structure InHand (wc : WrId) (s : Side) : Prop where
  sends : s.unacked + s.held .send + (if wc = .send then 1 else 0) = s.pendingSend.toNat
  recvs : s.held .recv + (if wc = .recv then 1 else 0) ≤ s.pendingRecv.toNat
  routs : s.routs = s.posted + (s.held .recv + if wc = .recv then 1 else 0 : Nat)
  stocked : 1 ≤ s.routs
  depth : s.routs ≤ s.options.rxDepth
  bound : s.made ≤ s.options.iters

theorem held_batch (phase : s.phase = .batch (wc :: wcs)) (other : WrId) :
    s.held other = held other { s with phase := .batch wcs } + if wc = other then 1 else 0 := by
  simp only [held, batch, phase, List.count_cons, beq_iff_eq]
  omega

theorem Balanced.inHand (balanced : s.Balanced) (phase : s.phase = .batch (wc :: wcs)) :
    InHand wc { s with phase := .batch wcs } := by
  obtain ⟨sends, recvs, routs, stocked, depth, bound⟩ := balanced
  rw [held_batch phase] at sends recvs routs
  refine ⟨?_, recvs, routs, stocked, depth, bound⟩
  rw [← sends, Nat.add_assoc]

/-- After a completed receive the queue is filled up again when it runs low. -/
theorem recvCompleted_balanced (hand : InHand .recv s) :
    ∃ t, s.recvCompleted = some t ∧ (t.clear .recv).Balanced ∧ Handled s (t.clear .recv) 1 0 ∧
      Kept s (t.clear .recv) 0 := by
  have sends := hand.sends
  have recvs := hand.recvs
  have routs := hand.routs
  have stocked := hand.stocked
  have depth := hand.depth
  have bound := hand.bound
  have pending : s.pendingRecv = true := by
    cases pending : s.pendingRecv with
    | true => rfl
    | false =>
      rw [pending] at recvs
      exact absurd recvs (by simp)
  simp only [pending, if_true, Bool.toNat_true] at recvs
  have none : s.held .recv = 0 := by omega
  have none' : s.cq.count .recv = 0 := by
    simp only [held] at none
    omega
  simp only [none, if_true] at routs
  by_cases low : s.routs - 1 ≤ 1
  · have posts : (s.postRecv (s.options.rxDepth - (s.routs - 1))).1 = s.options.rxDepth - s.posted := by
      simp only [postRecv, recvSlots, none']
      omega
    refine ⟨{ s with
      posted := s.posted + (s.options.rxDepth - s.posted)
      routs := s.routs - 1 + (s.options.rxDepth - s.posted : Nat)
      rcnt := s.rcnt + 1 }, ?_, ?_, ?_, ⟨rfl, rfl, rfl, rfl, rfl⟩⟩
    · have enough : ¬ s.routs - 1 + (s.options.rxDepth - s.posted : Nat) < s.options.rxDepth := by omega
      simp only [recvCompleted, low, if_true, posts, enough, if_false]
      simp only [postRecv] at posts ⊢
      rw [posts]
    · refine ⟨hand.sends, Nat.le_of_eq none, ?_, ?_, ?_, bound⟩
      · change s.routs - 1 + (s.options.rxDepth - s.posted : Nat) =
          (s.posted + (s.options.rxDepth - s.posted) : Nat) + s.held .recv
        omega
      · change 1 ≤ s.routs - 1 + (s.options.rxDepth - s.posted : Nat)
        omega
      · change s.routs - 1 + (s.options.rxDepth - s.posted : Nat) ≤ s.options.rxDepth
        omega
    · constructor <;> first | rfl | exact Nat.add_right_comm .. | simp [clear, pending]
  · refine ⟨{ s with routs := s.routs - 1, rcnt := s.rcnt + 1 }, by simp [recvCompleted, low], ?_, ?_,
      ⟨rfl, rfl, rfl, rfl, rfl⟩⟩
    · refine ⟨hand.sends, Nat.le_of_eq none, ?_, ?_, ?_, bound⟩
      · change s.routs - 1 = s.posted + (s.held .recv : Int)
        omega
      · change 1 ≤ s.routs - 1
        omega
      · change s.routs - 1 ≤ s.options.rxDepth
        omega
    · constructor <;> first | rfl | exact Nat.add_right_comm .. | simp [clear, pending]

theorem count_balanced (hand : InHand wc s) :
    ∃ t, s.count wc = some t ∧ (t.clear wc).Balanced ∧
      Handled s (t.clear wc) (if wc = .recv then 1 else 0) 0 ∧ Kept s (t.clear wc) 0 := by
  cases wc with
  | recv => exact recvCompleted_balanced hand
  | send =>
    have sends := hand.sends
    have bound := hand.bound
    cases pending : s.pendingSend with
    | false =>
      rw [pending] at sends
      exact absurd sends (by simp)
    | true =>
      simp only [pending, if_true, Bool.toNat_true] at sends
      refine ⟨{ s with scnt := s.scnt + 1 }, rfl, ⟨?_, ?_, ?_, hand.stocked, hand.depth, ?_⟩, ?_, ⟨rfl, rfl, rfl, rfl, rfl⟩⟩
      · exact Nat.succ.inj sends
      · exact hand.recvs
      · exact hand.routs
      · simpa [made, clear, pending] using bound
      · constructor <;> first | rfl | simp [made, clear, pending]

/-- Handling a completion never fails. -/
theorem handle_balanced (balanced : s.Balanced) (phase : s.phase = .batch (wc :: wcs)) :
    ∃ t sent, ({ s with phase := .batch wcs } : Side).handle wc = some (t, sent) ∧ t.Balanced ∧ t.Quiet ∧
      Handled s t 0 sent ∧ Kept { s with phase := .batch wcs } t sent := by
  obtain ⟨u, counted, after, handled, kept⟩ := count_balanced (balanced.inHand phase)
  obtain ⟨t, sent, refilled, balanced', quiet, handled', kept'⟩ := refill_balanced after
  refine ⟨t, sent, ?_, balanced', quiet, ⟨?_, ?_, ?_, ?_⟩, ⟨?_, ?_, ?_, ?_, ?_⟩⟩
  · simp [handle, counted, refilled]
  · exact handled'.options.trans handled.options
  · exact handled'.made.trans (congrArg (· + sent) handled.made)
  · exact handled'.turn.trans (congrArg (· + sent) handled.turn)
  · rw [held_batch phase]
    exact handled'.received.trans (handled.received.trans (Nat.add_assoc ..))
  · exact kept'.unacked.trans (congrArg (· + sent) kept.unacked)
  · exact kept'.cq.trans kept.cq
  · exact kept'.armed.trans kept.armed
  · exact kept'.events.trans kept.events
  · exact kept'.phase.trans kept.phase

theorem length_eq_count (wcs : List WrId) : wcs.length = wcs.count .send + wcs.count .recv := by
  induction wcs with
  | nil => rfl
  | cons wc rest ih =>
    cases wc with
    | send =>
      simp only [List.length_cons, List.count_cons_self, ih]
      rw [List.count_cons_of_ne (by decide)]
      omega
    | recv =>
      simp only [List.length_cons, List.count_cons_self, ih]
      rw [List.count_cons_of_ne (by decide)]
      omega

theorem Balanced.length_cq (balanced : s.Balanced) : s.cq.length ≤ 2 := by
  have sends := balanced.sends
  have recvs := balanced.recvs
  have sendBit := Bool.toNat_le s.pendingSend
  have recvBit := Bool.toNat_le s.pendingRecv
  simp only [held] at sends recvs
  rw [length_eq_count]
  omega

/-- A process that waits for an event has one coming for whatever is in its queue. -/
def Wakes (s : Side) : Prop :=
  match s.phase with
  | .top => (s.cq ≠ [] → 0 < s.events) ∧ (s.armed = true ∨ 0 < s.events)
  | .poll => s.armed = true ∨ 0 < s.events
  | .batch _ => (s.cq ≠ [] → 0 < s.events) ∧ (s.armed = true ∨ 0 < s.events)
  | _ => True

/-- The loop is left when everything is counted. -/
def Loops (s : Side) : Prop :=
  match s.phase with
  | .woken => s.more = true
  | .poll => s.more = true
  | .done => s.more = false
  | _ => True

structure Ok (s : Side) : Prop where
  balanced : s.Balanced
  quiet : s.Quiet
  loops : s.Loops
  wakes : s.options.useEvent = true → s.Wakes
  running : s.phase ≠ .failed

theorem recount (cq : List WrId) (armed : Bool) (events : Nat) (phase : Phase) (balanced : s.Balanced)
    (same : ∀ wc, held wc { s with cq, armed, events, phase } = s.held wc) :
    Balanced { s with cq, armed, events, phase } ∧ Handled s { s with cq, armed, events, phase } 0 0 := by
  obtain ⟨sends, recvs, routs, stocked, depth, bound⟩ := balanced
  rw [← same] at sends recvs routs
  exact ⟨⟨sends, recvs, routs, stocked, depth, bound⟩, rfl, rfl, rfl, congrArg (s.rcnt + ·) (same .recv)⟩

theorem runs_ok {sent : Nat} (ok : s.Ok) (runs : Runs s t sent) : t.Ok ∧ Handled s t 0 sent := by
  obtain ⟨balanced, quiet, loops, wakes, running⟩ := ok
  cases runs with
  | enter top more mode =>
    obtain ⟨balanced', handled⟩ := recount s.cq s.armed s.events .poll balanced
      fun wc => by simp [held, batch, top]
    exact ⟨⟨balanced', quiet, more, fun event => absurd (mode.symm.trans event) Bool.false_ne_true, nofun⟩, handled⟩
  | wake top more mode event =>
    obtain ⟨balanced', handled⟩ := recount s.cq s.armed (s.events - 1) .woken
      balanced fun wc => by simp [held, batch, top]
    exact ⟨⟨balanced', quiet, more, fun _ => trivial, nofun⟩, handled⟩
  | notify woken =>
    obtain ⟨balanced', handled⟩ := recount s.cq true s.events .poll balanced
      fun wc => by simp [held, batch, woken]
    rw [Loops, woken] at loops
    exact ⟨⟨balanced', quiet, loops, fun _ => .inl rfl, nofun⟩, handled⟩
  | poll polls some =>
    have short := balanced.length_cq
    have rest : s.cq.drop 2 = [] := List.drop_eq_nil_of_le short
    obtain ⟨balanced', handled⟩ := recount (s.cq.drop 2) s.armed s.events
      (.batch (s.cq.take 2)) balanced fun wc => by
        simp [held, batch, polls, rest, List.take_of_length_le short]
    refine ⟨⟨balanced', quiet, trivial, fun event => ⟨fun more => absurd rest more, ?_⟩, nofun⟩, handled⟩
    have armed := wakes event
    rw [Wakes, polls] at armed
    exact armed
  | handle _ wc wcs _ batch handled =>
    obtain ⟨u, n, handles, balanced', quiet', handled', kept⟩ := handle_balanced balanced batch
    obtain ⟨rfl, rfl⟩ := Prod.mk.inj (Option.some.inj (handled.symm.trans handles))
    refine ⟨⟨balanced', quiet', ?_, fun event => ?_, ?_⟩, handled'⟩
    · rw [Loops, kept.phase]
      trivial
    · rw [handled'.options] at event
      have waits := wakes event
      rw [Wakes, batch] at waits
      rw [Wakes, kept.phase, kept.cq, kept.armed, kept.events]
      exact waits
    · rw [kept.phase]
      nofun
  | fail wc wcs batch handled =>
    obtain ⟨u, n, handles, -⟩ := handle_balanced balanced batch
    exact nomatch handled.symm.trans handles
  | next batch =>
    obtain ⟨balanced', handled⟩ := recount s.cq s.armed s.events .top balanced
      fun wc => by simp [held, Side.batch, batch]
    refine ⟨⟨balanced', quiet, trivial, fun event => ?_, nofun⟩, handled⟩
    have waits := wakes event
    rw [Wakes, batch] at waits
    exact waits
  | leave top more =>
    obtain ⟨balanced', handled⟩ := recount s.cq s.armed s.events .done balanced
      fun wc => by simp [held, batch, top]
    exact ⟨⟨balanced', quiet, more, fun _ => trivial, nofun⟩, handled⟩

/-- A completion that its counters allow for. -/
theorem complete_ok (quiet : s.Quiet) (loops : s.Loops) (wakes : s.options.useEvent = true → s.Wakes)
    (running : s.phase ≠ .failed)
    (balanced : (s.complete wc).Balanced) : (s.complete wc).Ok := by
  refine ⟨balanced, quiet, loops, fun event => ?_, running⟩
  have waits := wakes event
  have woken (armed : s.armed = true ∨ 0 < s.events) : 0 < (s.complete wc).events := by
    cases on : s.armed with
    | true => simp [complete, on]
    | false => simpa [complete, on] using armed
  have same : (s.complete wc).phase = s.phase := rfl
  unfold Wakes at waits ⊢
  rw [same]
  cases phase : s.phase with
  | top =>
    rw [phase] at waits
    exact ⟨fun _ => woken waits.2, .inr (woken waits.2)⟩
  | poll =>
    rw [phase] at waits
    exact .inr (woken waits)
  | batch wcs =>
    rw [phase] at waits
    exact ⟨fun _ => woken waits.2, .inr (woken waits.2)⟩
  | _ => trivial

theorem held_complete (wc other : WrId) : (s.complete wc).held other = s.held other + if wc = other then 1 else 0 := by
  change (s.cq ++ [wc]).count other + s.batch.count other = s.cq.count other + s.batch.count other + _
  simp only [List.count_append, List.count_singleton, beq_iff_eq]
  omega

/-- The peer has taken the message, or will. -/
theorem ack_ok (ok : s.Ok) (some : 0 < s.unacked) : (complete .send { s with unacked := s.unacked - 1 }).Ok ∧
    Handled s (complete .send { s with unacked := s.unacked - 1 }) 0 0 := by
  obtain ⟨⟨sends, recvs, routs, stocked, depth, bound⟩, quiet, loops, wakes, running⟩ := ok
  have held (other : WrId) : Side.held other (complete .send { s with unacked := s.unacked - 1 }) =
      s.held other + if .send = other then 1 else 0 := held_complete ..
  have recv : Side.held .recv (complete .send { s with unacked := s.unacked - 1 }) = s.held .recv := held .recv
  have send : Side.held .send (complete .send { s with unacked := s.unacked - 1 }) = s.held .send + 1 := held .send
  rw [← recv] at recvs routs
  refine ⟨complete_ok quiet loops wakes running ⟨?_, recvs, routs, stocked, depth, bound⟩, rfl, rfl, rfl,
    congrArg (s.rcnt + ·) recv⟩
  rw [send]
  change s.unacked - 1 + (s.held .send + 1) = s.pendingSend.toNat
  omega

theorem arrive_ok (ok : s.Ok) (posted : 0 < s.posted) (due : s.held .recv + 1 ≤ s.pendingRecv.toNat) :
    (complete .recv { s with posted := s.posted - 1 }).Ok ∧ Handled s (complete .recv { s with posted := s.posted - 1 }) 1 0 := by
  obtain ⟨⟨sends, recvs, routs, stocked, depth, bound⟩, quiet, loops, wakes, running⟩ := ok
  have held (other : WrId) : Side.held other (complete .recv { s with posted := s.posted - 1 }) =
      s.held other + if .recv = other then 1 else 0 := held_complete ..
  have recv : Side.held .recv (complete .recv { s with posted := s.posted - 1 }) = s.held .recv + 1 := held .recv
  have send : Side.held .send (complete .recv { s with posted := s.posted - 1 }) = s.held .send := held .send
  rw [← send] at sends
  refine ⟨complete_ok quiet loops wakes running ⟨sends, ?_, ?_, stocked, depth, bound⟩, rfl, rfl, rfl,
    congrArg (s.rcnt + ·) recv⟩
  · rw [recv]
    exact due
  · rw [recv]
    change s.routs = (s.posted - 1 : Nat) + (s.held .recv + 1 : Nat)
    omega

end Side

/-- The invariant of both processes: what is posted is received in turn. -/
structure Ok (iters : Nat) (s : State) : Prop where
  client : s.client.Ok
  server : s.server.Ok
  clientIters : s.client.options.iters = iters
  serverIters : s.server.options.iters = iters
  toServer : s.server.rcnt + s.server.held .recv + s.toServer = s.client.made
  toClient : s.client.rcnt + s.client.held .recv + s.toClient = s.server.made
  clientTurn : s.client.rcnt + s.client.pendingRecv.toNat = s.client.made
  serverTurn : s.server.rcnt + s.server.pendingRecv.toNat = s.server.made + 1

variable {iters : Nat} {s t : State}

/-- A message on the way is the only one, and there is a receive for it. -/
theorem Ok.arrives (ok : Ok iters s) :
    (0 < s.toServer → s.server.held .recv + 1 ≤ s.server.pendingRecv.toNat ∧ 0 < s.server.posted) ∧
      (0 < s.toClient → s.client.held .recv + 1 ≤ s.client.pendingRecv.toNat ∧ 0 < s.client.posted) := by
  have toServer := ok.toServer
  have toClient := ok.toClient
  have clientTurn := ok.clientTurn
  have serverTurn := ok.serverTurn
  have clientBit := Bool.toNat_le s.client.pendingRecv
  have serverBit := Bool.toNat_le s.server.pendingRecv
  have clientRouts := ok.client.balanced.routs
  have serverRouts := ok.server.balanced.routs
  have clientStock := ok.client.balanced.stocked
  have serverStock := ok.server.balanced.stocked
  constructor
  · intro coming
    constructor
    · omega
    · omega
  · intro coming
    constructor
    · omega
    · omega

theorem Ok.step (ok : Ok iters s) (step : Step s t) : Ok iters t := by
  obtain ⟨arriveServer, arriveClient⟩ := ok.arrives
  obtain ⟨client, server, clientIters, serverIters, toServer, toClient, clientTurn, serverTurn⟩ := ok
  cases step with
  | client u sent runs =>
    obtain ⟨ok', ⟨options, made, turn, received⟩⟩ := Side.runs_ok client runs
    refine ⟨ok', server, options ▸ clientIters, serverIters, ?_, ?_, ?_, serverTurn⟩
    · change s.server.rcnt + s.server.held .recv + (s.toServer + sent) = u.made
      omega
    · change u.rcnt + u.held .recv + s.toClient = s.server.made
      omega
    · change u.rcnt + u.pendingRecv.toNat = u.made
      omega
  | server u sent runs =>
    obtain ⟨ok', ⟨options, made, turn, received⟩⟩ := Side.runs_ok server runs
    refine ⟨client, ok', clientIters, options ▸ serverIters, ?_, ?_, clientTurn, ?_⟩
    · change u.rcnt + u.held .recv + s.toServer = s.client.made
      omega
    · change s.client.rcnt + s.client.held .recv + (s.toClient + sent) = u.made
      omega
    · change u.rcnt + u.pendingRecv.toNat = u.made + 1
      omega
  | arriveServer coming posted =>
    obtain ⟨ok', ⟨options, made, turn, received⟩⟩ := Side.arrive_ok server posted (arriveServer coming).1
    refine ⟨client, ok', clientIters, serverIters, ?_, ?_, clientTurn, serverTurn⟩
    · refine (congrArg (· + (s.toServer - 1)) received).trans ?_
      change s.server.rcnt + s.server.held .recv + 1 + (s.toServer - 1) = s.client.made
      omega
    · exact toClient
  | arriveClient coming posted =>
    obtain ⟨ok', ⟨options, made, turn, received⟩⟩ := Side.arrive_ok client posted (arriveClient coming).1
    refine ⟨ok', server, clientIters, serverIters, ?_, ?_, clientTurn, serverTurn⟩
    · exact toServer
    · refine (congrArg (· + (s.toClient - 1)) received).trans ?_
      change s.client.rcnt + s.client.held .recv + 1 + (s.toClient - 1) = s.server.made
      omega
  | ackClient some =>
    obtain ⟨ok', ⟨options, made, turn, received⟩⟩ := Side.ack_ok client some
    exact ⟨ok', server, clientIters, serverIters, toServer, (congrArg (· + s.toClient) received).trans toClient, clientTurn,
      serverTurn⟩
  | ackServer some =>
    obtain ⟨ok', ⟨options, made, turn, received⟩⟩ := Side.ack_ok server some
    exact ⟨client, ok', clientIters, serverIters, (congrArg (· + s.toServer) received).trans toServer, toClient, clientTurn,
      serverTurn⟩

end RdmaExps.Pingpong
