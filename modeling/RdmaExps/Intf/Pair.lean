import RdmaExps.Intf.Burst

namespace RdmaExps.Intf

open RdmaExps.Run

theorem Side.Runs.not_returned {s t : Side} (runs : s.Runs t) (code : Nat) : s.phase ≠ .returned code := by
  intro returned
  cases runs with
  | post fill => exact absurd (fill.symm.trans returned) nofun
  | full fill => exact absurd (fill.symm.trans returned) nofun
  | filled fill => exact absurd (fill.symm.trans returned) nofun
  | poll _ _ poll => exact absurd (poll.symm.trans returned) nofun

/-- What every slot is filled with. -/
def Settings.message (settings : Settings) (slot : Nat) : List UInt8 :=
  List.replicate settings.receiver.msgSize (calcMsgData slot settings.receiver.idx)

structure Pair.Inv (settings : Settings) (s : Pair) : Prop where
  sender : s.sender.Inv settings.sender
  receiver : s.receiver.Inv settings.receiver
  acked : s.sender.completed ≤ s.receiver.completed
  arrived : s.receiver.completed ≤ s.sender.msg
  sent : ∀ slot, s.sender.buf slot = settings.message slot
  received : ∀ k < s.receiver.completed,
    s.receiver.buf (k % settings.receiver.maxWrs) = settings.message (k % settings.receiver.maxWrs)
  senderGone : s.senderGone = true → ∃ code, s.sender.phase = .returned code
  receiverGone : s.receiverGone = true → ∃ code, s.receiver.phase = .returned code

namespace Pair.Inv

variable {settings : Settings} {s t : Pair}

theorem start (settings : Settings) (buf : Nat → List UInt8) : (settings.start buf).Inv settings where
  sender := .start _ _
  receiver := .start _ _
  acked := Nat.le_refl _
  arrived := Nat.zero_le _
  sent := by
    intro slot
    simp only [Settings.start, Side.start, Settings.message, settings.msgSize, settings.idx]
  received := fun _ less => absurd less (Nat.not_lt_zero _)
  senderGone := nofun
  receiverGone := nofun

/-- Every byte that is checked is from a message that has come, and is as it was sent. -/
theorem valid (inv : s.Inv settings) (check : settings.receiver.checkData = true) (some : 0 < s.receiver.consumed)
    (r₁ r₂ : Nat) : s.receiver.isDataValid r₁ r₂ = true := by
  have curr := inv.receiver.curr check
  have ready := inv.receiver.consumed_le.2
  have picked := Nat.mod_lt r₁ some
  have place := Nat.mod_lt r₂ settings.receiver.sizePos
  have come := inv.received (s.receiver.polled + r₁ % s.receiver.consumed) (by omega)
  unfold Side.isDataValid
  simp only [inv.receiver.same, curr, come, Settings.message, List.getElem?_replicate, if_pos place, decide_true]

theorem step (inv : s.Inv settings) (step : s.Step t) : t.Inv settings := by
  obtain ⟨sender, receiver, acked, arrived, sent, received, senderGone, receiverGone⟩ := inv
  cases step with
  | sender t runs =>
    have unchecked : settings.sender.checkData = true → 0 < s.sender.consumed → ∀ r₁ r₂, s.sender.isDataValid r₁ r₂ = true := by
      intro check
      rw [settings.unchecked] at check
      cases check
    obtain ⟨next, buf, completed, wrs⟩ := sender.step unchecked runs
    have more := wrs.length_le
    rw [sender.length_wrs, next.length_wrs] at more
    refine ⟨next, receiver, completed.le.trans acked, arrived.trans more, ?_, received, ?_, receiverGone⟩
    · intro slot
      rw [buf, sent]
    · intro gone
      obtain ⟨code, returned⟩ := senderGone gone
      exact absurd returned (runs.not_returned code)
  | receiver t runs =>
    have valid := Pair.Inv.valid ⟨sender, receiver, acked, arrived, sent, received, senderGone, receiverGone⟩
    obtain ⟨next, buf, completed, _⟩ := receiver.step valid runs
    refine ⟨sender, next, acked.trans completed.ge, completed.le.trans arrived, sent, ?_, senderGone, ?_⟩
    · intro k less
      rw [buf]
      rw [completed] at less
      exact received k less
    · intro gone
      obtain ⟨code, returned⟩ := receiverGone gone
      exact absurd returned (runs.not_returned code)
  | deliver slot place _ _ message posted =>
    obtain ⟨inside, rfl⟩ := sender.slot_eq message
    obtain ⟨room, rfl⟩ := receiver.slot_eq posted
    refine ⟨sender, receiver.completeNext room _, Nat.le_succ_of_le acked, inside, sent, ?_, senderGone, receiverGone⟩
    intro k less
    rw [sent, settings.maxWrs]
    by_cases same : k % settings.receiver.maxWrs = s.receiver.completed % settings.receiver.maxWrs
    · rw [same]
      exact Function.update_self _ _ _
    · have older : k ≠ s.receiver.completed := fun last => same (congrArg (· % settings.receiver.maxWrs) last)
      have le := Nat.le_of_lt_succ less
      exact (Function.update_of_ne same _ _).trans (received k (by omega))
  | complete less =>
    exact ⟨sender.completeNext (by omega) s.sender.buf, receiver, less, arrived, sent, received, senderGone, receiverGone⟩
  | leaveSender code returned _ =>
    exact ⟨sender, receiver, acked, arrived, sent, received, fun _ => ⟨code, returned⟩, receiverGone⟩
  | leaveReceiver code returned _ =>
    exact ⟨sender, receiver, acked, arrived, sent, received, senderGone, fun _ => ⟨code, returned⟩⟩

theorem reachable {buf : Nat → List UInt8} (reached : Reachable (· = settings.start buf) Pair.Step s) : s.Inv settings := by
  apply reached.invariant (Pair.Inv settings)
  · rintro _ rfl
    exact .start settings buf
  · intro _ _ inv moved
    exact inv.step moved

end Pair.Inv

section Progress

variable {options : Options} {s t : Side}

/-- A side goes on, or it has returned, or it waits for a completion of what it has posted. -/
theorem Side.Inv.progress (inv : s.Inv options) :
    (∃ t, s.Runs t) ∨ (∃ code, s.phase = .returned code) ∨
      (s.completed = s.polled ∧ s.msg < options.numMsgs ∧ s.freeWrs < options.wrBurst) := by
  cases phase : s.phase with
  | fill =>
    left
    by_cases free : s.options.wrBurst ≤ s.freeWrs
    · rw [inv.same] at free
      have room := inv.hasRoom free
      rw [← inv.same] at free
      exact ⟨_, .post s phase free room⟩
    · exact ⟨_, .filled s phase (Nat.lt_of_not_le free)⟩
  | poll =>
    by_cases ready : 0 < s.available ∨ s.options.numMsgs ≤ s.msg
    · exact .inl ⟨_, .poll s 0 0 phase ready⟩
    · have stage := inv.stage
      have polled := inv.polled
      rw [Side.Stage, phase, inv.same] at stage
      rw [Side.available, inv.same] at ready
      exact .inr (.inr (by omega))
  | returned code => exact .inr (.inl ⟨code, rfl⟩)

def Phase.rank : Phase → Nat
  | .fill => 2
  | .poll => 1
  | .returned _ => 0

/-- What a side has still to do. -/
def Side.rank (s : Side) : Nat :=
  2 * (s.options.total - s.msg) + 2 * (s.options.total - s.polled) + (s.options.total - s.completed) + s.phase.rank

theorem Side.Inv.msg_le_total (inv : s.Inv options) : s.msg ≤ options.total := by
  have pos := options.burstPos
  have less : s.msg < options.numMsgs + options.wrBurst := by
    have stage := inv.stage
    cases phase : s.phase with
    | fill =>
      rw [Side.Stage, phase, inv.same] at stage
      omega
    | poll =>
      rw [Side.Stage, phase, inv.same] at stage
      exact stage.2
    | returned code =>
      rw [Side.Stage, phase, inv.same] at stage
      exact stage.2.2
  obtain ⟨bursts, posted⟩ := inv.multiple
  rw [posted] at less ⊢
  rw [Options.total, Nat.mul_comm]
  apply Nat.mul_le_mul_right
  rw [Nat.le_div_iff_mul_le pos, Nat.mul_comm]
  omega

theorem Side.Inv.rank_lt (inv : s.Inv options) (runs : s.Runs t) : t.rank < s.rank := by
  have bound := inv.msg_le_total
  have polled := inv.polled
  have completed := inv.completed
  have pos := options.burstPos
  cases runs with
  | post fill free _ =>
    rw [inv.same] at free
    have next := (inv.post fill free).msg_le_total
    simp only [Side.post_msg, inv.same] at next
    simp only [Side.rank, Side.post_options, Side.post_msg, Side.post_polled, Side.post_completed, Side.post_phase, inv.same]
    omega
  | full fill =>
    simp only [Side.rank, fill, Phase.rank]
    omega
  | filled fill =>
    simp only [Side.rank, fill, Phase.rank]
    omega
  | poll r₁ r₂ poll ready =>
    unfold Side.pollOnce
    split
    · simp only [Side.rank, poll, Phase.rank]
      omega
    · have consumed := inv.consumed_le
      have most := options.pollPos
      rw [Side.available, inv.same] at ready
      have some : s.options.numMsgs ≤ s.msg ∨ 0 < s.consumed := by
        simp only [Side.consumed, Side.available, inv.same]
        omega
      rw [inv.same] at some
      by_cases more : s.msg < options.numMsgs
      · have low : s.consume.loop.phase.rank ≤ 2 := by
          simp only [Side.loop_phase, Side.consume_msg, Side.consume_options, inv.same, if_pos more]
          split
          · exact Nat.le_succ 1
          · exact Nat.le_refl 2
        simp only [Side.rank, Side.loop_options, Side.loop_msg, Side.loop_polled, Side.loop_completed, Side.consume_options,
          Side.consume_msg, Side.consume_polled, Side.consume_completed, inv.same, poll, show Phase.poll.rank = 1 from rfl]
        omega
      · simp only [Side.rank, Side.loop_options, Side.loop_msg, Side.loop_polled, Side.loop_completed, Side.loop_phase,
          Side.consume_options, Side.consume_msg, Side.consume_polled, Side.consume_completed, inv.same, poll, if_neg more,
          Phase.rank]
        omega

def Pair.rank (s : Pair) : Nat :=
  s.sender.rank + s.receiver.rank + (if s.senderGone then 0 else 1) + if s.receiverGone then 0 else 1

theorem Pair.Inv.rank_lt {settings : Settings} {s t : Pair} (inv : s.Inv settings) (step : s.Step t) : t.rank < s.rank := by
  cases step with
  | sender t runs =>
    have less := inv.sender.rank_lt runs
    simp only [Pair.rank]
    omega
  | receiver t runs =>
    have less := inv.receiver.rank_lt runs
    simp only [Pair.rank]
    omega
  | deliver sent place _ _ message posted =>
    have inside := (inv.receiver.slot_eq posted).1
    have bound := inv.receiver.msg_le_total
    simp only [Pair.rank, Side.rank, inv.receiver.same]
    omega
  | complete less =>
    have inside := inv.arrived
    have bound := inv.sender.msg_le_total
    simp only [Pair.rank, Side.rank, inv.sender.same]
    omega
  | leaveSender code _ here =>
    simp [Pair.rank, here]
  | leaveReceiver code _ here =>
    simp [Pair.rank, here]

theorem Side.Inv.burst_le_total (inv : s.Inv options) (more : s.msg < options.numMsgs) :
    s.msg + options.wrBurst ≤ options.total := by
  obtain ⟨bursts, posted⟩ := inv.multiple
  rw [posted] at more ⊢
  rw [Options.total, ← Nat.mul_succ, Nat.mul_comm]
  apply Nat.mul_le_mul_right
  rw [Nat.le_div_iff_mul_le options.burstPos, Nat.succ_mul, Nat.mul_comm]
  omega

theorem Pair.Inv.deliver {settings : Settings} {s : Pair} (inv : s.Inv settings) (sent : s.receiver.completed < s.sender.msg)
    (room : s.receiver.completed < s.receiver.msg) (here : s.senderGone = false) (there : s.receiverGone = false) :
    ∃ t, s.Step t := by
  rw [← inv.sender.length_wrs] at sent
  rw [← inv.receiver.length_wrs] at room
  exact ⟨_, .deliver s _ _ here there (List.getElem?_eq_getElem sent) (List.getElem?_eq_getElem room)⟩

/-- A side that has not returned is not gone. -/
theorem Side.Inv.running (inv : s.Inv options) (more : s.msg < options.numMsgs) (code : Nat) : s.phase ≠ .returned code := by
  intro returned
  have stage := inv.stage
  rw [Side.Stage, returned, inv.same] at stage
  omega

/-- Neither side waits for the other in vain, not even when the other is gone. -/
theorem Pair.Inv.progress {settings : Settings} {s : Pair} (inv : s.Inv settings)
    (enough : settings.receiver.numMsgs = 0 ∨ settings.receiver.wrBurst ≤ settings.receiver.numMsgs) :
    (s.sender.phase = .returned 0 ∧ s.receiver.phase = .returned 0) ∨ ∃ t, s.Step t := by
  have sameTotal : settings.sender.total = settings.receiver.total := by
    rw [Options.total, settings.numMsgs, settings.wrBurst, Options.total]
  have sBalance := inv.sender.balance
  have rBalance := inv.receiver.balance
  have sPolled := inv.sender.polled
  have rPolled := inv.receiver.polled
  have acked := inv.acked
  have twice := settings.receiver.twice
  rw [settings.maxWrs, settings.numMsgs] at sBalance
  rcases inv.sender.progress with ⟨t, runs⟩ | ⟨sCode, sReturned⟩ | ⟨sWaits, sMore, sFree⟩
  · exact .inr ⟨_, .sender s t runs⟩
  · obtain ⟨rfl, sAll⟩ := inv.sender.total sReturned
    rcases inv.receiver.progress with ⟨t, runs⟩ | ⟨rCode, rReturned⟩ | ⟨rWaits, rMore, rFree⟩
    · exact .inr ⟨_, .receiver s t runs⟩
    · obtain ⟨rfl, _⟩ := inv.receiver.total rReturned
      exact .inl ⟨sReturned, rReturned⟩
    · have rest := inv.receiver.burst_le_total rMore
      omega
  · have rest := inv.sender.burst_le_total sMore
    rw [settings.wrBurst] at rest sFree
    rw [settings.numMsgs] at sMore
    rcases Nat.lt_or_ge s.sender.completed s.receiver.completed with late | level
    · exact .inr ⟨_, .complete s late⟩
    have here : s.senderGone = false := by
      by_contra gone
      obtain ⟨code, returned⟩ := inv.senderGone (Bool.eq_true_of_not_eq_false gone)
      exact inv.sender.running (settings.numMsgs ▸ sMore) code returned
    rcases inv.receiver.progress with ⟨t, runs⟩ | ⟨rCode, rReturned⟩ | ⟨rWaits, rMore, rFree⟩
    · exact .inr ⟨_, .receiver s t runs⟩
    · obtain ⟨rfl, rAll⟩ := inv.receiver.total rReturned
      omega
    · have there : s.receiverGone = false := by
        by_contra gone
        obtain ⟨code, returned⟩ := inv.receiverGone (Bool.eq_true_of_not_eq_false gone)
        exact inv.receiver.running rMore code returned
      exact .inr (inv.deliver (by omega) (by omega) here there)

/-- Fewer messages than a burst are never posted. -/
theorem Pair.Inv.unposted {settings : Settings} {s t : Pair} (inv : s.Inv settings) (none : s.sender.msg = 0)
    (few : settings.receiver.numMsgs < settings.receiver.wrBurst) (step : s.Step t) : t.sender.msg = 0 := by
  have balance := inv.sender.balance
  have polled := inv.sender.polled
  have completed := inv.sender.completed
  rw [settings.numMsgs] at balance
  cases step with
  | sender t runs =>
    cases runs with
    | post _ free _ =>
      rw [inv.sender.same, settings.wrBurst] at free
      omega
    | full => exact none
    | filled => exact none
    | poll r₁ r₂ =>
      unfold Side.pollOnce
      split
      · exact none
      · exact none
  | receiver => exact none
  | deliver => exact none
  | complete => exact none
  | leaveSender => exact none
  | leaveReceiver => exact none

end Progress

end RdmaExps.Intf
