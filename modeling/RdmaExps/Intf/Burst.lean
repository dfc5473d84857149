import RdmaExps.Run.Transition

namespace RdmaExps.Intf

open RdmaExps.Run

/-- One side's options as `parse_input` accepts them. `pollMax` is what one poll may consume: a burst,
    or a single message with P_LEN. -/
structure Options where
  maxWrs : Nat
  wrBurst : Nat
  pollMax : Nat
  numMsgs : Nat
  msgSize : Nat
  idx : Nat
  checkData : Bool
  burstPos : 0 < wrBurst
  twice : wrBurst * 2 < maxWrs
  divides : wrBurst ∣ maxWrs
  pollPos : 0 < pollMax
  pollLe : pollMax ≤ wrBurst
  sizePos : 0 < msgSize

/-- A nibble of the index of the work request and one of the index of the queue pair. -/
def calcMsgData (wrIdx qpIdx : Nat) : UInt8 := UInt8.ofNat ((wrIdx &&& 0xF) ||| (qpIdx <<< 4))

inductive Phase where
  | fill
  | poll
  | returned (code : Nat)
  deriving DecidableEq, Repr

/-- One side in `send_recv`. `wrs` are the slots of all work requests that it has posted, in their order;
    the first `completed` of them are completed, and the completions of the first `polled` are consumed. -/
structure Side where
  options : Options
  msg : Nat
  freeWrs : Nat
  currPollWr : Nat
  buf : Nat → List UInt8
  wrs : List Nat
  completed : Nat
  polled : Nat
  phase : Phase

namespace Side

/-- The slots from `sg_list + msg % num_wrs` on. -/
def burst (s : Side) : List Nat := (List.range s.options.wrBurst).map (s.msg % s.options.maxWrs + ·)

/-- A completed work request leaves the queue when its completion is consumed. -/
def hasRoom (s : Side) : Prop := s.wrs.length - s.polled + s.options.wrBurst ≤ s.options.maxWrs

@[simps] def post (s : Side) : Side :=
  { s with
    wrs := s.wrs ++ s.burst
    msg := s.msg + s.options.wrBurst
    freeWrs := s.freeWrs - s.options.wrBurst }

def available (s : Side) : Nat := s.completed - s.polled

/-- What `qp_poll` returns. -/
def consumed (s : Side) : Nat := min s.options.pollMax s.available

/-- `is_data_valid`, with the numbers that its two calls of `lrand48` return. -/
def isDataValid (r₁ r₂ : Nat) (s : Side) : Bool :=
  let randWr := (s.currPollWr + r₁ % s.consumed) % s.options.maxWrs
  (s.buf randWr)[r₂ % s.options.msgSize]? = some (calcMsgData randWr s.options.idx)

/-- The conditions of the two outer loops. -/
@[simps] def loop (s : Side) : Side :=
  { s with phase :=
      if s.msg < s.options.numMsgs then if s.freeWrs < s.options.wrBurst then .poll else .fill
      else .returned 0 }

@[simps] def consume (s : Side) : Side :=
  { s with
    freeWrs := s.freeWrs + s.consumed
    polled := s.polled + s.consumed
    currPollWr := if s.options.checkData then s.currPollWr + s.consumed else s.currPollWr }

/-- One pass of the polling loop. -/
def pollOnce (r₁ r₂ : Nat) (s : Side) : Side :=
  if 0 < s.consumed ∧ s.options.checkData = true ∧ s.isDataValid r₁ r₂ = false then { s with phase := .returned 1 }
  else s.consume.loop

end Side

/-- The steps of `send_recv`. A poll that finds nothing is tried again, unless everything is posted. -/
inductive Side.Runs : Side → Side → Prop where
  | post (s : Side) : s.phase = .fill → s.options.wrBurst ≤ s.freeWrs → s.hasRoom → Runs s s.post
  | full (s : Side) : s.phase = .fill → s.options.wrBurst ≤ s.freeWrs → ¬ s.hasRoom → Runs s { s with phase := .returned 1 }
  | filled (s : Side) : s.phase = .fill → s.freeWrs < s.options.wrBurst → Runs s { s with phase := .poll }
  | poll (s : Side) (r₁ r₂ : Nat) :
      s.phase = .poll → 0 < s.available ∨ s.options.numMsgs ≤ s.msg → Runs s (s.pollOnce r₁ r₂)

/-- The two sides of one queue pair. A side that is gone has destroyed its end. -/
structure Pair where
  sender : Side
  receiver : Side
  senderGone : Bool
  receiverGone : Bool

/-- The messages arrive in their order, each in the next slot that is posted; a send is completed at some
    time after. What is on the way when an end is destroyed does not arrive. -/
inductive Pair.Step : Pair → Pair → Prop where
  | sender (s : Pair) (t : Side) : s.sender.Runs t → Step s { s with sender := t }
  | receiver (s : Pair) (t : Side) : s.receiver.Runs t → Step s { s with receiver := t }
  | deliver (s : Pair) (sent place : Nat) :
      s.senderGone = false → s.receiverGone = false →
      s.sender.wrs[s.receiver.completed]? = some sent → s.receiver.wrs[s.receiver.completed]? = some place →
      Step s { s with receiver := { s.receiver with
        buf := Function.update s.receiver.buf place (s.sender.buf sent)
        completed := s.receiver.completed + 1 } }
  | complete (s : Pair) : s.sender.completed < s.receiver.completed →
      Step s { s with sender := { s.sender with completed := s.sender.completed + 1 } }
  | leaveSender (s : Pair) (code : Nat) : s.sender.phase = .returned code → s.senderGone = false →
      Step s { s with senderGone := true }
  | leaveReceiver (s : Pair) (code : Nat) : s.receiver.phase = .returned code → s.receiverGone = false →
      Step s { s with receiverGone := true }

/-- Both programs are started with the same sizes. -/
structure Settings where
  sender : Options
  receiver : Options
  maxWrs : sender.maxWrs = receiver.maxWrs
  wrBurst : sender.wrBurst = receiver.wrBurst
  numMsgs : sender.numMsgs = receiver.numMsgs
  msgSize : sender.msgSize = receiver.msgSize
  idx : sender.idx = receiver.idx
  unchecked : sender.checkData = false

def Side.start (options : Options) (buf : Nat → List UInt8) : Side where
  options
  msg := 0
  freeWrs := min options.maxWrs options.numMsgs
  currPollWr := 0
  buf
  wrs := []
  completed := 0
  polled := 0
  phase := if 0 < options.numMsgs then .fill else .returned 0

/-- `create_qp` fills the sender's messages. -/
def Settings.start (settings : Settings) (buf : Nat → List UInt8) : Pair where
  sender := .start settings.sender fun slot =>
    List.replicate settings.sender.msgSize (calcMsgData slot settings.sender.idx)
  receiver := .start settings.receiver buf
  senderGone := false
  receiverGone := false

/-- The first multiple of the burst that is enough. -/
def Options.total (options : Options) : Nat := (options.numMsgs + options.wrBurst - 1) / options.wrBurst * options.wrBurst

/-- Where a side is in its loops. -/
def Side.Stage (s : Side) : Prop :=
  match s.phase with
  | .fill =>
    s.msg + s.freeWrs ≤ s.options.numMsgs ∨ (s.msg < s.options.numMsgs ∧ s.freeWrs < 2 * s.options.wrBurst) ∨
      (s.msg < s.options.numMsgs + s.options.wrBurst ∧ s.freeWrs < s.options.wrBurst)
  | .poll => s.freeWrs < s.options.wrBurst ∧ s.msg < s.options.numMsgs + s.options.wrBurst
  | .returned code => code = 0 ∧ s.options.numMsgs ≤ s.msg ∧ s.msg < s.options.numMsgs + s.options.wrBurst

structure Side.Inv (options : Options) (s : Side) : Prop where
  same : s.options = options
  wrs : s.wrs = (List.range s.msg).map (· % options.maxWrs)
  multiple : options.wrBurst ∣ s.msg
  balance : s.freeWrs + s.msg = min options.maxWrs options.numMsgs + s.polled
  polled : s.polled ≤ s.completed
  completed : s.completed ≤ s.msg
  curr : options.checkData = true → s.currPollWr = s.polled
  stage : s.Stage

namespace Side.Inv

variable {options : Options} {s t : Side}

theorem start (options : Options) (buf : Nat → List UInt8) : (Side.start options buf).Inv options where
  same := rfl
  wrs := rfl
  multiple := Nat.dvd_zero _
  balance := rfl
  polled := Nat.le_refl _
  completed := Nat.le_refl _
  curr := fun _ => rfl
  stage := by
    have pos := options.burstPos
    unfold Side.Stage Side.start
    by_cases some : 0 < options.numMsgs
    · simp only [if_pos some]
      omega
    · simp only [if_neg some, true_and]
      omega

theorem length_wrs (inv : s.Inv options) : s.wrs.length = s.msg := by
  rw [inv.wrs, List.length_map, List.length_range]

/-- A burst does not pass the end of the lists, since both its size and what is posted are multiples of it. -/
theorem burst_eq (inv : s.Inv options) : s.burst = (List.range' s.msg options.wrBurst).map (· % options.maxWrs) := by
  rw [Side.burst, inv.same, List.range'_eq_map_range, List.map_map]
  apply List.map_congr_left
  intro i member
  obtain ⟨posted, multiple⟩ := inv.multiple
  obtain ⟨bursts, divides⟩ := options.divides
  have small := List.mem_range.mp member
  have pos : 0 < bursts := by
    rcases Nat.eq_zero_or_pos bursts with rfl | pos
    · have twice := options.twice
      omega
    · exact pos
  have place := Nat.mod_lt posted pos
  have fits : options.wrBurst * (posted % bursts) + i < options.wrBurst * bursts := by
    have next := Nat.mul_le_mul_left options.wrBurst (Nat.succ_le_of_lt place)
    rw [Nat.mul_succ] at next
    omega
  rw [Function.comp_apply, multiple, divides, Nat.mul_mod_mul_left, Nat.add_mod, Nat.mul_mod_mul_left, Nat.add_mod_mod,
    Nat.mod_eq_of_lt fits]

theorem post (inv : s.Inv options) (fill : s.phase = .fill) (free : options.wrBurst ≤ s.freeWrs) : s.post.Inv options := by
  obtain ⟨same, wrs, multiple, balance, polled, completed, curr, stage⟩ := inv
  have burst := Side.Inv.burst_eq ⟨same, wrs, multiple, balance, polled, completed, curr, stage⟩
  have pos := options.burstPos
  rw [Side.Stage, fill, same] at stage
  refine ⟨same, ?_, ?_, ?_, polled, ?_, curr, ?_⟩
  · have joined : List.range' 0 s.msg ++ List.range' s.msg options.wrBurst = List.range' 0 (s.msg + options.wrBurst) := by
      rw [← List.range'_append_1, Nat.zero_add]
    simp only [Side.post_wrs, Side.post_msg, burst, wrs, same, ← List.map_append, List.range_eq_range', joined]
  · rw [Side.post_msg, same]
    exact Nat.dvd_add multiple (Nat.dvd_refl _)
  · simp only [Side.post_msg, Side.post_freeWrs, Side.post_polled, same]
    omega
  · simp only [Side.post_msg, Side.post_completed, same]
    omega
  · simp only [Side.Stage, Side.post_phase, fill, Side.post_msg, Side.post_freeWrs, Side.post_options, same]
    omega

theorem hasRoom (inv : s.Inv options) (free : options.wrBurst ≤ s.freeWrs) : s.hasRoom := by
  have balance := inv.balance
  have polled := inv.polled
  have completed := inv.completed
  rw [Side.hasRoom, inv.length_wrs, inv.same]
  omega

theorem filled (inv : s.Inv options) (fill : s.phase = .fill) (short : s.freeWrs < options.wrBurst) :
    ({ s with phase := .poll } : Side).Inv options := by
  have stage := inv.stage
  have pos := options.burstPos
  rw [Side.Stage, fill, inv.same] at stage
  refine { inv with stage := ?_ }
  simp only [Side.Stage, inv.same]
  omega

theorem consumed_le (inv : s.Inv options) : s.consumed ≤ options.wrBurst ∧ s.polled + s.consumed ≤ s.completed := by
  have polled := inv.polled
  have le := options.pollLe
  simp only [Side.consumed, Side.available, inv.same]
  omega

theorem consume_loop (inv : s.Inv options) (poll : s.phase = .poll) : s.consume.loop.Inv options := by
  have stage := inv.stage
  have balance := inv.balance
  obtain ⟨burst, ready⟩ := inv.consumed_le
  rw [Side.Stage, poll, inv.same] at stage
  refine ⟨inv.same, inv.wrs, inv.multiple, ?_, ready, inv.completed, ?_, ?_⟩
  · simp only [Side.loop_freeWrs, Side.consume_freeWrs, Side.loop_msg, Side.consume_msg, Side.loop_polled, Side.consume_polled]
    omega
  · intro check
    simp only [Side.loop_currPollWr, Side.consume_currPollWr, Side.loop_polled, Side.consume_polled, inv.same, check,
      if_true, inv.curr check]
  · simp only [Side.Stage, Side.loop_phase, Side.loop_msg, Side.loop_freeWrs, Side.loop_options, Side.consume_msg,
      Side.consume_freeWrs, Side.consume_options, inv.same]
    by_cases more : s.msg < options.numMsgs
    · by_cases short : s.freeWrs + s.consumed < options.wrBurst
      · simp only [if_pos more, if_pos short]
        omega
      · simp only [if_pos more, if_neg short]
        omega
    · simp only [if_neg more, true_and]
      omega

/-- A step keeps the invariant, except that a check of the data may fail. -/
theorem step (inv : s.Inv options) (valid : options.checkData = true → 0 < s.consumed → ∀ r₁ r₂, s.isDataValid r₁ r₂ = true)
    (runs : s.Runs t) : t.Inv options ∧ t.buf = s.buf ∧ t.completed = s.completed ∧ s.wrs <+: t.wrs := by
  cases runs with
  | post fill free _ =>
    rw [inv.same] at free
    exact ⟨inv.post fill free, rfl, rfl, List.prefix_append _ _⟩
  | full fill free room =>
    rw [inv.same] at free
    exact absurd (inv.hasRoom free) room
  | filled fill short =>
    rw [inv.same] at short
    exact ⟨inv.filled fill short, rfl, rfl, List.prefix_rfl⟩
  | poll r₁ r₂ poll _ =>
    have passed : ¬ (0 < s.consumed ∧ s.options.checkData = true ∧ s.isDataValid r₁ r₂ = false) := by
      intro failed
      obtain ⟨some, check, invalid⟩ := failed
      rw [inv.same] at check
      rw [valid check some r₁ r₂] at invalid
      cases invalid
    rw [Side.pollOnce, if_neg passed]
    exact ⟨inv.consume_loop poll, rfl, rfl, List.prefix_rfl⟩

theorem completeNext (inv : s.Inv options) (less : s.completed < s.msg) (buf : Nat → List UInt8) :
    ({ s with buf, completed := s.completed + 1 } : Side).Inv options :=
  { inv with
    polled := Nat.le_succ_of_le inv.polled
    completed := less }

/-- The messages go round the slots. -/
theorem slot_eq (inv : s.Inv options) {k slot : Nat} (posted : s.wrs[k]? = some slot) :
    k < s.msg ∧ slot = k % options.maxWrs := by
  obtain ⟨inside, same⟩ := List.getElem?_eq_some_iff.mp posted
  have less := inside
  rw [inv.length_wrs] at less
  refine ⟨less, ?_⟩
  rw [← same]
  simp only [inv.wrs, List.getElem_map, List.getElem_range]

/-- Work requests whose completions are still to be consumed are in different slots. -/
theorem nodup (inv : s.Inv options) : (s.wrs.drop s.polled).Nodup := by
  have balance := inv.balance
  rw [inv.wrs, ← List.map_drop, List.range_eq_range', List.drop_range']
  apply List.Nodup.map_on _ List.nodup_range'
  intro i first j second same
  have first := List.mem_range'_1.mp first
  have second := List.mem_range'_1.mp second
  by_contra distinct
  have apart : ∀ {i j : Nat}, i % options.maxWrs = j % options.maxWrs → i < j → i + options.maxWrs ≤ j := by
    intro i j same less
    have divides := (Nat.modEq_iff_dvd' less.le).mp same
    have le := Nat.le_of_dvd (by omega) divides
    omega
  rcases Nat.lt_or_gt_of_ne distinct with less | less
  · have far := apart same less
    omega
  · have far := apart same.symm less
    omega

theorem length_le (inv : s.Inv options) : (s.wrs.drop s.polled).length ≤ options.maxWrs := by
  have balance := inv.balance
  rw [List.length_drop, inv.length_wrs]
  omega

/-- A side that returns has posted the first multiple of the burst that is enough. -/
theorem total (inv : s.Inv options) {code : Nat} (returned : s.phase = .returned code) : code = 0 ∧ s.msg = options.total := by
  have stage := inv.stage
  rw [Side.Stage, returned, inv.same] at stage
  obtain ⟨zero, enough, less⟩ := stage
  obtain ⟨bursts, posted⟩ := inv.multiple
  refine ⟨zero, ?_⟩
  rw [posted] at enough less
  have quotient : (options.numMsgs + options.wrBurst - 1) / options.wrBurst = bursts := by
    apply Nat.div_eq_of_lt_le
    · rw [Nat.mul_comm]
      have pos := options.burstPos
      omega
    · rw [Nat.succ_mul, Nat.mul_comm]
      omega
  rw [Options.total, quotient, posted, Nat.mul_comm]

end Side.Inv

end RdmaExps.Intf
