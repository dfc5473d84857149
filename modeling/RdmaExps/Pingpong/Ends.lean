import RdmaExps.Pingpong.Invariant

namespace RdmaExps.Pingpong

open RdmaExps.Run

namespace Side

variable {s t : Side}

/-- The way through the loop from here, without completions. With events a round may find the queue empty. -/
def round (useEvent : Bool) (phase : Phase) : Nat :=
  match phase with
  | .top => bif useEvent then 1 else 2
  | .woken => bif useEvent then 4 else 0
  | .poll => bif useEvent then 3 else 1
  | .batch _ => bif useEvent then 2 else 3
  | .done => 0
  | .failed => 0

/-- What one process still has to do for the messages it knows of. -/
def potential (s : Side) : Nat :=
  10 * s.unacked + 5 * s.cq.length + s.batch.length + 4 * s.events + round s.options.useEvent s.phase

theorem potential_complete (wc : WrId) : (s.complete wc).potential ≤ s.potential + 9 := by
  have events : (s.complete wc).events ≤ s.events + 1 := by
    cases on : s.armed <;> simp [complete, on]
  have batch : (s.complete wc).batch = s.batch := rfl
  have cq : (s.complete wc).cq.length = s.cq.length + 1 := by simp [complete]
  change 10 * s.unacked + 5 * (s.complete wc).cq.length + (s.complete wc).batch.length + 4 * (s.complete wc).events +
    round s.options.useEvent s.phase ≤ _
  rw [batch, cq, potential]
  omega

theorem potential_arrive (s : Side) : (complete .recv { s with posted := s.posted - 1 }).potential ≤ s.potential + 9 :=
  potential_complete (s := { s with posted := s.posted - 1 }) .recv

theorem potential_ack (some : 0 < s.unacked) :
    (complete .send { s with unacked := s.unacked - 1 }).potential < s.potential := by
  have le := potential_complete (s := { s with unacked := s.unacked - 1 }) .send
  have less : potential { s with unacked := s.unacked - 1 } + 10 = s.potential := by
    change 10 * (s.unacked - 1) + 5 * s.cq.length + s.batch.length + 4 * s.events + round s.options.useEvent s.phase + 10 =
      10 * s.unacked + 5 * s.cq.length + s.batch.length + 4 * s.events + round s.options.useEvent s.phase
    omega
  omega

/-- A woken process is one that uses events. -/
def Events (s : Side) : Prop := s.phase = .woken → s.options.useEvent = true

theorem runs_potential {sent : Nat} (ok : s.Ok) (events : s.Events) (runs : Runs s t sent) :
    t.potential < s.potential + 10 * sent ∧ t.Events := by
  cases runs with
  | enter top more mode =>
    refine ⟨?_, fun woken => Phase.noConfusion woken⟩
    simp only [potential, batch, top, mode, round, cond_false]
    omega
  | wake top more mode event =>
    refine ⟨?_, fun _ => mode⟩
    simp only [potential, batch, top, mode, round, cond_true]
    omega
  | notify woken =>
    refine ⟨?_, fun woken => Phase.noConfusion woken⟩
    simp only [potential, batch, woken, events woken, round, cond_true]
    omega
  | poll polls some =>
    refine ⟨?_, fun woken => Phase.noConfusion woken⟩
    have split : (s.cq.take 2).length + (s.cq.drop 2).length = s.cq.length := by
      rw [← List.length_append, List.take_append_drop]
    simp only [potential, batch, polls]
    cases mode : s.options.useEvent with
    | true =>
      simp only [round, cond_true, List.length_nil]
      omega
    | false =>
      have taken : 0 < (s.cq.take 2).length := by
        have more := List.length_pos_iff.mpr (some.resolve_left (by simp [mode]))
        rw [List.length_take]
        omega
      simp only [round, cond_false, List.length_nil]
      omega
  | handle _ wc wcs _ batch handled =>
    obtain ⟨u, n, handles, -, -, handled', kept⟩ := handle_balanced ok.balanced batch
    obtain ⟨rfl, rfl⟩ := Prod.mk.inj (Option.some.inj (handled.symm.trans handles))
    have phase : t.phase = .batch wcs := kept.phase
    have unacked : t.unacked = s.unacked + sent := kept.unacked
    have cq : t.cq = s.cq := kept.cq
    have event : t.events = s.events := kept.events
    refine ⟨?_, fun woken => Phase.noConfusion (phase.symm.trans woken)⟩
    simp only [potential, Side.batch, phase, batch, unacked, cq, event, handled'.options, List.length_cons]
    have same : round s.options.useEvent (.batch wcs) = round s.options.useEvent (.batch (wc :: wcs)) := by
      cases s.options.useEvent <;> rfl
    omega
  | fail wc wcs batch handled =>
    obtain ⟨u, n, handles, -⟩ := handle_balanced ok.balanced batch
    cases handled.symm.trans handles
  | next batch =>
    refine ⟨?_, fun woken => Phase.noConfusion woken⟩
    simp only [potential, Side.batch, batch]
    cases s.options.useEvent <;> simp only [round, cond_true, cond_false] <;> omega
  | leave top more =>
    refine ⟨?_, fun woken => Phase.noConfusion woken⟩
    simp only [potential, batch, top]
    cases s.options.useEvent <;> simp only [round, cond_true, cond_false] <;> omega

/-- A process that cannot go on has nothing left in its queue, and is in its loop. -/
structure Blocked (s : Side) : Prop where
  more : s.more = true
  cq : s.cq = []
  batch : s.batch = []

theorem runs_or_blocked (ok : s.Ok) : s.phase = .done ∨ (∃ t sent, Runs s t sent) ∨ s.Blocked := by
  cases phase : s.phase with
  | top =>
    right
    cases more : s.more with
    | false => exact .inl ⟨_, _, .leave s phase more⟩
    | true =>
      cases mode : s.options.useEvent with
      | false => exact .inl ⟨_, _, .enter s phase more mode⟩
      | true =>
        have wakes := ok.wakes mode
        rw [Wakes, phase] at wakes
        rcases Nat.eq_zero_or_pos s.events with none | some
        · right
          refine ⟨more, ?_, by rw [batch, phase]⟩
          by_contra waiting
          exact absurd (wakes.1 waiting) (by omega)
        · exact .inl ⟨_, _, .wake s phase more mode some⟩
  | woken => exact .inr (.inl ⟨_, _, .notify s phase⟩)
  | poll =>
    right
    by_cases may : s.options.useEvent = true ∨ s.cq ≠ []
    · exact .inl ⟨_, _, .poll s phase may⟩
    · right
      have loops := ok.loops
      rw [Loops, phase] at loops
      exact ⟨loops, not_not.mp fun waiting => may (.inr waiting), by rw [batch, phase]⟩
  | batch wcs =>
    right
    left
    cases wcs with
    | nil => exact ⟨_, _, .next s phase⟩
    | cons wc rest =>
      obtain ⟨t, sent, handles, -⟩ := handle_balanced ok.balanced phase
      exact ⟨t, sent, .handle s t wc rest sent phase handles⟩
  | done => exact .inl rfl
  | failed => exact absurd phase ok.running

theorem done_or_blocked (ok : s.Ok) (stuck : ¬ ∃ t sent, Runs s t sent) : s.phase = .done ∨ s.Blocked :=
  (runs_or_blocked ok).imp_right fun either => either.resolve_left stuck

end Side

variable {iters : Nat} {s t : State}

theorem Ok.start {client server : Options} (same : client.iters = server.iters) (some : 1 ≤ client.iters)
    (clientDepth : 1 ≤ client.rxDepth) (serverDepth : 1 ≤ server.rxDepth) :
    Ok client.iters (start client server) := by
  constructor
  · refine ⟨⟨rfl, Nat.zero_le 1, rfl, ?_, Int.le_refl _, some⟩, nofun, trivial, fun mode => ⟨fun none => absurd rfl none, .inl mode⟩,
      nofun⟩
    change (1 : Int) ≤ client.rxDepth
    omega
  · refine ⟨⟨rfl, Nat.zero_le 1, rfl, ?_, Int.le_refl _, Nat.zero_le _⟩, nofun, trivial,
      fun mode => ⟨fun none => absurd rfl none, .inl mode⟩, nofun⟩
    change (1 : Int) ≤ server.rxDepth
    omega
  · rfl
  · exact same.symm
  · rfl
  · rfl
  · rfl
  · rfl

/-- Both have left the loop with all exchanges counted. -/
def Finished (iters : Nat) (s : State) : Prop :=
  s.client.phase = .done ∧ s.server.phase = .done ∧ s.client.scnt = iters ∧ s.client.rcnt = iters ∧
    s.server.scnt = iters ∧ s.server.rcnt = iters

theorem Ok.counts_le (ok : Ok iters s) : s.client.rcnt ≤ s.server.made ∧ s.server.rcnt ≤ s.client.made ∧
    s.client.made ≤ iters ∧ s.server.made ≤ iters := by
  have toServer := ok.toServer
  have toClient := ok.toClient
  have client := ok.client.balanced.bound
  have server := ok.server.balanced.bound
  rw [ok.clientIters] at client
  rw [ok.serverIters] at server
  omega

theorem Side.counts_of_done {s : Side} (ok : s.Ok) (done : s.phase = .done) :
    s.options.iters ≤ s.rcnt ∧ s.options.iters ≤ s.scnt := by
  have loops := ok.loops
  rw [Side.Loops, done] at loops
  simpa [Side.more] using loops

theorem Ok.finished (ok : Ok iters s) (client : s.client.phase = .done) (server : s.server.phase = .done) :
    Finished iters s := by
  obtain ⟨clientRcnt, clientScnt⟩ := Side.counts_of_done ok.client client
  obtain ⟨serverRcnt, serverScnt⟩ := Side.counts_of_done ok.server server
  rw [ok.clientIters] at clientRcnt clientScnt
  rw [ok.serverIters] at serverRcnt serverScnt
  have le := ok.counts_le
  simp only [Side.made] at le
  refine ⟨client, server, ?_, ?_, ?_, ?_⟩ <;> omega

/-- The counters of a process that is done or blocked, where nothing is on its way to it. -/
structure Side.Settled (iters : Nat) (s : Side) : Prop where
  send : s.held .send = 0
  recv : s.held .recv = 0
  quiet : s.pendingSend.toNat = 0 → s.pendingRecv.toNat = 0 → s.scnt = iters
  left : s.phase = .done ∨ s.rcnt < iters ∨ s.scnt < iters

theorem Side.settled {s : Side} (ok : s.Ok) (same : s.options.iters = iters) (either : s.phase = .done ∨ s.Blocked)
    (received : s.rcnt + s.held .recv ≤ iters) : s.Settled iters := by
  have quiet : s.pendingSend.toNat = 0 → s.pendingRecv.toNat = 0 → s.scnt = iters := by
    intro noSend noRecv
    rw [← same]
    exact ok.quiet (Bool.toNat_eq_zero.mp noSend) (Bool.toNat_eq_zero.mp noRecv)
  rcases either with done | ⟨more, cq, batch⟩
  · obtain ⟨rcnt, scnt⟩ := Side.counts_of_done ok done
    have bound := ok.balanced.bound
    have sends := ok.balanced.sends
    rw [same] at rcnt scnt bound
    simp only [Side.made] at bound
    exact ⟨by omega, by omega, quiet, .inl done⟩
  · have none (wc : WrId) : s.held wc = 0 := by simp [Side.held, cq, batch]
    refine ⟨none .send, none .recv, quiet, .inr ?_⟩
    rw [← same]
    simpa [Side.more] using more

/-- Whoever waits, waits for something that is on its way. -/
theorem Ok.progress (ok : Ok iters s) : Finished iters s ∨ ∃ t, Step s t := by
  by_contra stuck
  simp only [not_or] at stuck
  obtain ⟨unfinished, stuck⟩ := stuck
  have client := Side.done_or_blocked ok.client fun ⟨t, sent, runs⟩ => stuck ⟨_, .client s t sent runs⟩
  have server := Side.done_or_blocked ok.server fun ⟨t, sent, runs⟩ => stuck ⟨_, .server s t sent runs⟩
  have clientAcked : ¬ 0 < s.client.unacked := fun some => stuck ⟨_, .ackClient s some⟩
  have serverAcked : ¬ 0 < s.server.unacked := fun some => stuck ⟨_, .ackServer s some⟩
  have noneToServer : ¬ 0 < s.toServer := fun coming => stuck ⟨_, .arriveServer s coming (ok.arrives.1 coming).2⟩
  have noneToClient : ¬ 0 < s.toClient := fun coming => stuck ⟨_, .arriveClient s coming (ok.arrives.2 coming).2⟩
  have toServer := ok.toServer
  have toClient := ok.toClient
  have le := ok.counts_le
  obtain ⟨clientSend, clientRecv, clientQuiet, clientLeft⟩ :=
    Side.settled ok.client ok.clientIters client (by omega)
  obtain ⟨serverSend, serverRecv, serverQuiet, serverLeft⟩ :=
    Side.settled ok.server ok.serverIters server (by omega)
  have clientSends := ok.client.balanced.sends
  have serverSends := ok.server.balanced.sends
  have clientTurn := ok.clientTurn
  have serverTurn := ok.serverTurn
  simp only [Side.made] at toServer toClient le clientTurn serverTurn
  have counts : s.client.scnt = iters ∧ s.client.rcnt = iters ∧ s.server.scnt = iters ∧ s.server.rcnt = iters := by
    omega
  obtain ⟨clientScnt, clientRcnt, serverScnt, serverRcnt⟩ := counts
  exact unfinished (ok.finished (clientLeft.resolve_right (by omega)) (serverLeft.resolve_right (by omega)))

/-- Every exchange that is still to come costs more than what is under way. -/
def rank (iters : Nat) (s : State) : Nat :=
  21 * (2 * iters - s.client.made - s.server.made) + 10 * (s.toServer + s.toClient) + s.client.potential + s.server.potential

theorem Ok.rank_step (ok : Ok iters s) (client : s.client.Events) (server : s.server.Events) (step : Step s t) :
    rank iters t < rank iters s ∧ t.client.Events ∧ t.server.Events := by
  have ok' := ok.step step
  have le := ok'.counts_le
  cases step with
  | client u sent runs =>
    obtain ⟨less, events⟩ := Side.runs_potential ok.client client runs
    obtain ⟨-, -, made, -⟩ := Side.runs_ok ok.client runs
    refine ⟨?_, events, server⟩
    simp only [rank] at le ⊢
    omega
  | server u sent runs =>
    obtain ⟨less, events⟩ := Side.runs_potential ok.server server runs
    obtain ⟨-, -, made, -⟩ := Side.runs_ok ok.server runs
    refine ⟨?_, client, events⟩
    simp only [rank] at le ⊢
    omega
  | arriveServer coming posted =>
    refine ⟨?_, client, server⟩
    have less := Side.potential_arrive s.server
    change 21 * (2 * iters - s.client.made - s.server.made) + 10 * (s.toServer - 1 + s.toClient) + s.client.potential + _ <
      rank iters s
    simp only [rank]
    omega
  | arriveClient coming posted =>
    refine ⟨?_, client, server⟩
    have less := Side.potential_arrive s.client
    change 21 * (2 * iters - s.client.made - s.server.made) + 10 * (s.toServer + (s.toClient - 1)) + _ + s.server.potential <
      rank iters s
    simp only [rank]
    omega
  | ackClient some =>
    refine ⟨?_, client, server⟩
    have less := Side.potential_ack some
    change 21 * (2 * iters - s.client.made - s.server.made) + 10 * (s.toServer + s.toClient) + _ + s.server.potential <
      rank iters s
    simp only [rank]
    omega
  | ackServer some =>
    refine ⟨?_, client, server⟩
    have less := Side.potential_ack some
    change 21 * (2 * iters - s.client.made - s.server.made) + 10 * (s.toServer + s.toClient) + s.client.potential + _ <
      rank iters s
    simp only [rank]
    omega

theorem Ok.reachable {client server : Options} (same : client.iters = server.iters) (some : 1 ≤ client.iters)
    (clientDepth : 1 ≤ client.rxDepth) (serverDepth : 1 ≤ server.rxDepth)
    (run : Relation.ReflTransGen Step (Pingpong.start client server) t) : Ok client.iters t := by
  induction run with
  | refl => exact .start same some clientDepth serverDepth
  | tail _ step ih => exact ih.step step

/-- In every run, whatever the depths of the queues and the use of events, no process gives up, no message finds
    the receives used up, no queue overflows, and the processes send and receive in turn. -/
theorem pingpong_safe {client server : Options} (same : client.iters = server.iters) (some : 1 ≤ client.iters)
    (clientDepth : 1 ≤ client.rxDepth) (serverDepth : 1 ≤ server.rxDepth)
    (run : Relation.ReflTransGen Step (start client server) t) :
    t.client.phase ≠ .failed ∧ t.server.phase ≠ .failed ∧
      (0 < t.toServer → 0 < t.server.posted) ∧ (0 < t.toClient → 0 < t.client.posted) ∧
      t.client.cq.length ≤ 2 ∧ t.server.cq.length ≤ 2 ∧ t.toServer + t.toClient ≤ 1 ∧
      t.server.rcnt ≤ t.client.rcnt + 1 ∧ t.client.rcnt ≤ t.server.rcnt ∧ t.server.rcnt ≤ client.iters := by
  have ok := Ok.reachable same some clientDepth serverDepth run
  have toServer := ok.toServer
  have toClient := ok.toClient
  have clientTurn := ok.clientTurn
  have serverTurn := ok.serverTurn
  have clientBit := Bool.toNat_le t.client.pendingRecv
  have serverBit := Bool.toNat_le t.server.pendingRecv
  have le := ok.counts_le
  refine ⟨ok.client.running, ok.server.running, fun coming => (ok.arrives.1 coming).2, fun coming => (ok.arrives.2 coming).2,
    Side.Balanced.length_cq ok.client.balanced, Side.Balanced.length_cq ok.server.balanced, ?_, ?_, ?_, ?_⟩ <;> omega

theorem pingpong_safe_start : 0 < (start ⟨1, 1, false⟩ ⟨1, 1, true⟩).server.posted :=
  (pingpong_safe rfl (Nat.le_refl 1) (Nat.le_refl 1) (Nat.le_refl 1) .refl).2.2.1 Nat.one_pos

/-- Every run ends, and then both have sent and received `iters` messages. -/
theorem pingpong_completes (client server : Options) (same : client.iters = server.iters) (some : 1 ≤ client.iters)
    (clientDepth : 1 ≤ client.rxDepth) (serverDepth : 1 ≤ server.rxDepth) :
    Leads Step (Finished client.iters) (start client server) := by
  apply leads_of_rank (fun n s => Ok client.iters s ∧ s.client.Events ∧ s.server.Events ∧ n = rank client.iters s)
  · rintro n s ⟨ok, -⟩
    exact ok.progress
  · rintro n s t ⟨ok, clientEvents, serverEvents, rfl⟩ step
    obtain ⟨less, clientEvents', serverEvents'⟩ := ok.rank_step clientEvents serverEvents step
    exact ⟨_, less, ok.step step, clientEvents', serverEvents', rfl⟩
  · exact ⟨.start same some clientDepth serverDepth, nofun, nofun, rfl⟩

theorem pingpong_completes_start : Leads Step (Finished 1000) (start ⟨500, 1000, true⟩ ⟨500, 1000, false⟩) :=
  pingpong_completes ⟨500, 1000, true⟩ ⟨500, 1000, false⟩ rfl (by decide) (by decide) (by decide)

end RdmaExps.Pingpong
