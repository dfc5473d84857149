import RdmaExps.Pingpong.Exchange

namespace RdmaExps.Intf

open RdmaExps.Wire RdmaExps.Run RdmaExps.Run.Session
open RdmaExps.Pingpong (Gid gidToWireGid wireGidToGid stringBytes cString)

/-- The numbers of one queue pair. -/
structure QpDest where
  qpn : UInt32
  psn : UInt32
  qpnFits : qpn.toNat < 16 ^ 6
  psnFits : psn.toNat < 16 ^ 6

structure IbDest where
  lid : UInt32
  gid : Gid
  qps : List QpDest
  lidFits : lid.toNat < 16 ^ 4

/-- The two sides have the same number of queue pairs. -/
structure Setup where
  clientOrder : ByteOrder
  serverOrder : ByteOrder
  client : IbDest
  server : IbDest
  same : client.qps.length = server.qps.length

/-- `sprintf(msg, "%04x:%s", ..)` -/
def lidMsg (order : ByteOrder) (dest : IbDest) : List Char := printHex 4 dest.lid.toNat ++ ':' :: gidToWireGid order dest.gid

/-- `sprintf(qp_msg, "%06x:%06x", ..)` -/
def qpMsg (qp : QpDest) : List Char := printHex 6 qp.qpn.toNat ++ ':' :: printHex 6 qp.psn.toNat

/-- `sizeof("0000:00000000000000000000000000000000")` -/
def MSG_SIZE : Nat := 38

/-- `sizeof("000000:000000")` -/
def QP_MSG_SIZE : Nat := 14

/-- `sscanf(msg, "%x:%s", ..)` and `wire_gid_to_gid` -/
def scanLid (order : ByteOrder) (msg : List Char) : Option (UInt32 × List Byte) := do
  let (lid, s) ← scanHex msg
  let s ← scanChar ':' s
  let (wgid, _) ← scanWord s
  let gid ← wireGidToGid order wgid
  return (lid, gid)

/-- `sscanf(qp_msg, "%x:%x", ..)` -/
def scanQp (msg : List Char) : Option (UInt32 × UInt32) := do
  let (qpn, s) ← scanHex msg
  let s ← scanChar ':' s
  let (psn, _) ← scanHex s
  return (qpn, psn)

/-- `client_exch_dest` once it is connected. -/
def clientExchDest (order : ByteOrder) (dest : IbDest) : List (Action Char) :=
  .write (stringBytes (lidMsg order dest)) :: .read MSG_SIZE ::
    (dest.qps.flatMap (fun qp => [.write (stringBytes (qpMsg qp)), .read QP_MSG_SIZE]) ++
      [.write (stringBytes "done".toList)])

/-- `server_exch_dest` once it has accepted. -/
def serverExchDest (order : ByteOrder) (dest : IbDest) : List (Action Char) :=
  .read MSG_SIZE :: .write (stringBytes (lidMsg order dest)) ::
    (dest.qps.flatMap (fun qp => [.read QP_MSG_SIZE, .write (stringBytes (qpMsg qp))]) ++ [.await MSG_SIZE])

/-- `rem_dest` as far as it has been filled: nothing where a message is refused. -/
def remDest (order : ByteOrder) (e : End Char) : Option (UInt32 × List Byte) × List (Option (UInt32 × UInt32)) :=
  (e.got.head?.bind fun msg => scanLid order (cString msg), e.got.tail.map fun msg => scanQp (cString msg))

/-- What a peer should know of `dest`. -/
def IbDest.known (dest : IbDest) : Option (UInt32 × List Byte) × List (Option (UInt32 × UInt32)) :=
  (some (dest.lid, dest.gid.raw), dest.qps.map fun qp => some (qp.qpn, qp.psn))

def Setup.start (setup : Setup) : State Char :=
  Session.start (clientExchDest setup.clientOrder setup.client) (serverExchDest setup.serverOrder setup.server)

section Messages

variable (order : ByteOrder) (dest : IbDest) (qp : QpDest)

theorem length_lidMsg : (stringBytes (lidMsg order dest)).length = MSG_SIZE := by
  simp only [stringBytes, lidMsg, List.length_append, List.length_cons, List.length_nil,
    length_printHex dest.lidFits (by decide), Pingpong.length_gidToWireGid, MSG_SIZE]

theorem length_qpMsg : (stringBytes (qpMsg qp)).length = QP_MSG_SIZE := by
  simp only [stringBytes, qpMsg, List.length_append, List.length_cons, List.length_nil,
    length_printHex qp.qpnFits (by decide), length_printHex qp.psnFits (by decide), QP_MSG_SIZE]

theorem scanLid_lidMsg (theirs : ByteOrder) :
    scanLid theirs (cString (stringBytes (lidMsg order dest))) = some (dest.lid, dest.gid.raw) := by
  have plain : '\x00' ∉ lidMsg order dest := by
    simp [lidMsg, Pingpong.zero_not_mem_printHex, Pingpong.zero_not_mem_gidToWireGid]
  rw [Pingpong.cString_stringBytes plain]
  simp only [scanLid, lidMsg, Pingpong.scanHex_field, Pingpong.scanChar_cons, Pingpong.scanWord_gidToWireGid,
    Pingpong.wireGidToGid_gidToWireGid, Option.bind_eq_bind, Option.bind_some, pure]

theorem scanQp_qpMsg : scanQp (cString (stringBytes (qpMsg qp))) = some (qp.qpn, qp.psn) := by
  have plain : '\x00' ∉ qpMsg qp := by
    simp [qpMsg, Pingpong.zero_not_mem_printHex]
  have last : scanHex (printHex 6 qp.psn.toNat) = some (qp.psn, []) := Pingpong.scanHex_last qp.psn
  rw [Pingpong.cString_stringBytes plain]
  simp only [scanQp, qpMsg, Pingpong.scanHex_field, Pingpong.scanChar_cons, last, Option.bind_eq_bind, Option.bind_some, pure]

/-- What one side writes. -/
def messages : List (List Char) := stringBytes (lidMsg order dest) :: dest.qps.map fun qp => stringBytes (qpMsg qp)

end Messages

section Scripts

variable (order : ByteOrder) (dest : IbDest)

theorem writes_client : writes (clientExchDest order dest) = messages order dest ++ [stringBytes "done".toList] := by
  simp [clientExchDest, writes, writes_append, writes_flatMap, messages, List.map_eq_flatMap]

theorem writes_server : writes (serverExchDest order dest) = messages order dest := by
  simp [serverExchDest, writes, writes_append, writes_flatMap, messages, List.map_eq_flatMap]

theorem reads_client : reads (clientExchDest order dest) = dest.qps.length + 1 := by
  have each : ∀ qp ∈ dest.qps, reads [.write (stringBytes (qpMsg qp)), .read QP_MSG_SIZE] = 1 := fun _ _ => rfl
  rw [clientExchDest, reads, reads, reads_append, reads_flatMap each]
  simp [reads]

theorem reads_server : reads (serverExchDest order dest) = dest.qps.length + 1 := by
  have each : ∀ qp ∈ dest.qps, reads [.read QP_MSG_SIZE, .write (stringBytes (qpMsg qp))] = 1 := fun _ _ => rfl
  rw [serverExchDest, reads, reads, reads_append, reads_flatMap each]
  simp [reads]

theorem cost_client : cost (clientExchDest order dest) = 16 * dest.qps.length + 46 := by
  have each : ∀ qp ∈ dest.qps, cost [.write (stringBytes (qpMsg qp)), .read QP_MSG_SIZE] = 16 := by
    intro qp _
    simp only [cost, length_qpMsg, QP_MSG_SIZE]
  have done : (stringBytes "done".toList).length = 5 := by decide
  rw [clientExchDest, cost, cost, cost_append, cost_flatMap each, length_lidMsg, cost, done, MSG_SIZE, cost]
  omega

theorem cost_server : cost (serverExchDest order dest) = 16 * dest.qps.length + 41 := by
  have each : ∀ qp ∈ dest.qps, cost [.read QP_MSG_SIZE, .write (stringBytes (qpMsg qp))] = 16 := by
    intro qp _
    simp only [cost, length_qpMsg, QP_MSG_SIZE]
  rw [serverExchDest, cost, cost, cost_append, cost_flatMap each, length_lidMsg]
  simp only [cost, MSG_SIZE]
  omega

/-- A queue pair after the other, each side has its turn. -/
theorem dual_qps {mine theirs : List QpDest} {a b : List (Action Char)} (same : mine.length = theirs.length) (dual : Dual a b) :
    Dual (mine.flatMap (fun qp => [.write (stringBytes (qpMsg qp)), .read QP_MSG_SIZE]) ++ a)
      (theirs.flatMap (fun qp => [.read QP_MSG_SIZE, .write (stringBytes (qpMsg qp))]) ++ b) := by
  have some (qp : QpDest) : stringBytes (qpMsg qp) ≠ [] := List.append_ne_nil_of_right_ne_nil _ (by decide)
  induction mine generalizing theirs with
  | nil =>
    obtain rfl := List.length_eq_zero_iff.mp same.symm
    exact dual
  | cons qp mine ih =>
    cases theirs with
    | nil => cases same
    | cons other theirs =>
      have rest := Dual.read (some other) (ih (Nat.succ.inj same))
      have both := Dual.write (some qp) rest
      rw [length_qpMsg, length_qpMsg] at both
      exact both

end Scripts

section Results

variable {setup : Setup} {capacity : Nat} {s : State Char}

theorem Setup.dual (setup : Setup) :
    Dual (clientExchDest setup.clientOrder setup.client) (serverExchDest setup.serverOrder setup.server) := by
  have last : Dual (.write (stringBytes "done".toList) :: []) (.await MSG_SIZE :: []) :=
    .writeLast (by decide) (by decide)
  have some (order : ByteOrder) (dest : IbDest) : stringBytes (lidMsg order dest) ≠ [] :=
    List.append_ne_nil_of_right_ne_nil _ (by decide)
  have answer := Dual.read (some setup.serverOrder setup.server) (dual_qps setup.same last)
  have asked := Dual.write (some setup.clientOrder setup.client) answer
  rw [length_lidMsg, length_lidMsg] at asked
  exact asked

/-- What every step keeps. -/
abbrev Setup.Holds (setup : Setup) : State Char → Prop :=
  Inv (clientExchDest setup.clientOrder setup.client) (serverExchDest setup.serverOrder setup.server)

/-- What a side has read is accepted, and is the beginning of what the peer has to say. -/
theorem remDest_eq {order theirs : ByteOrder} {dest : IbDest} {e : End Char} {k : Nat}
    (got : e.got = (messages theirs dest).take (k + 1)) :
    remDest order e = (dest.known.1, dest.known.2.take k) := by
  have qps : dest.qps.map (fun qp => scanQp (cString (stringBytes (qpMsg qp)))) = dest.known.2 :=
    List.map_congr_left fun qp _ => scanQp_qpMsg qp
  rw [remDest, got, messages, List.take_succ_cons, List.head?_cons, Option.bind_some, scanLid_lidMsg, List.tail_cons,
    List.map_take, List.map_map]
  exact congrArg (Prod.mk _) (congrArg (List.take k) qps)

theorem length_messages (order : ByteOrder) (dest : IbDest) : (messages order dest).length = dest.qps.length + 1 := by
  rw [messages, List.length_cons, List.length_map]

theorem Setup.finished (inv : setup.Holds s) :
    (s.near.todo = [] → remDest setup.clientOrder s.near = setup.server.known) ∧
      (s.far.todo = [] → remDest setup.serverOrder s.far = setup.client.known ∧ s.near.todo = []) := by
  have whole (order theirs : ByteOrder) {dest : IbDest} {e : End Char} (got : e.got = messages theirs dest) :
      remDest order e = dest.known := by
    have cut : e.got = (messages theirs dest).take (dest.qps.length + 1) := by
      rw [got, List.take_of_length_le (length_messages theirs dest).le]
    rw [remDest_eq cut, List.take_of_length_le (by simp [IbDest.known])]
  obtain ⟨near, far⟩ := inv.got_eq
  rw [writes_server, reads_client] at near
  rw [writes_client, reads_server] at far
  constructor
  · intro done
    rw [done, reads, Nat.sub_zero, setup.same, ← length_messages setup.serverOrder, List.take_length] at near
    exact whole _ _ near
  · intro done
    rw [done, reads, Nat.sub_zero, ← setup.same, ← length_messages setup.clientOrder, List.take_left] at far
    have causal := inv.causal.2
    have suffix := inv.nearSuffix
    have script : clientExchDest setup.clientOrder setup.client =
        (.write (stringBytes (lidMsg setup.clientOrder setup.client)) :: .read MSG_SIZE ::
          setup.client.qps.flatMap fun qp => [.write (stringBytes (qpMsg qp)), .read QP_MSG_SIZE]) ++
            .write (stringBytes "done".toList) :: [] := rfl
    rw [script] at suffix
    rw [done] at causal
    refine ⟨whole _ _ far, ?_⟩
    rcases suffix_of_action suffix with ⟨before, same⟩ | after
    · rw [← same, writes_append] at causal
      simp [writes, listens] at causal
    · exact List.suffix_nil.mp after

theorem Setup.small (setup : Setup) (room : MSG_SIZE ≤ capacity) :
    ∀ message ∈ writes (clientExchDest setup.clientOrder setup.client) ++
      writes (serverExchDest setup.serverOrder setup.server), message.length ≤ capacity := by
  have each (order : ByteOrder) (dest : IbDest) : ∀ message ∈ messages order dest, message.length ≤ MSG_SIZE := by
    intro message member
    rcases List.mem_cons.mp member with rfl | member
    · exact (length_lidMsg order dest).le
    · obtain ⟨qp, _, rfl⟩ := List.mem_map.mp member
      rw [length_qpMsg]
      decide
  intro message member
  rw [writes_client, writes_server, List.append_assoc] at member
  have length : message.length ≤ MSG_SIZE := by
    rcases List.mem_append.mp member with own | other
    · exact each _ _ message own
    · rcases List.mem_append.mp other with done | own
      · rw [List.mem_singleton.mp done]
        decide
      · exact each _ _ message own
  exact length.trans room

/-- Two hosts of different byte orders with one queue pair each. -/
def sampleSetup : Setup where
  clientOrder := .little
  serverOrder := .big
  client := ⟨11, ⟨List.replicate 16 0, rfl⟩, [⟨17, 3, by decide, by decide⟩], by decide⟩
  server := ⟨9, ⟨List.replicate 16 1, rfl⟩, [⟨18, 5, by decide, by decide⟩], by decide⟩
  same := rfl

/-- Where nothing fails both sides return 0, each with the other's addresses, and no run is longer than its messages. -/
theorem exchange_ends (setup : Setup) (fails : Prop) (room : MSG_SIZE ≤ capacity) :
    Leads (Step False capacity) (fun s => s.near.todo = [] ∧ s.far.todo = [] ∧
      remDest setup.clientOrder s.near = setup.server.known ∧ remDest setup.serverOrder s.far = setup.client.known)
      setup.start ∧
      ∀ n t, Chain (Step fails capacity) n setup.start t → n ≤ 32 * setup.client.qps.length + 89 := by
  constructor
  · apply (Session.leads setup.dual (setup.small room)).mono
    intro s ended
    obtain ⟨near, far, inv⟩ := ended
    obtain ⟨client, server⟩ := Setup.finished inv
    exact ⟨near, far, client near, (server far).1⟩
  · intro n t chain
    have bound := Session.chain_le chain
    simp only [Setup.start, Session.start, State.rank, End.rank, End.start, cost_client, cost_server, ← setup.same] at bound
    simp at bound
    omega

theorem exchange_ends_sample : ∃ s, Relation.ReflTransGen (Step False MSG_SIZE) sampleSetup.start s ∧
    s.near.todo = [] ∧ s.far.todo = [] ∧ remDest .little s.near = sampleSetup.server.known ∧
      remDest .big s.far = sampleSetup.client.known :=
  (exchange_ends sampleSetup True (Nat.le_refl MSG_SIZE)).1.exists_reached

end Results

end RdmaExps.Intf
