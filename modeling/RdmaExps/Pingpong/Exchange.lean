import RdmaExps.Pingpong.Address
import RdmaExps.Run.Session

namespace RdmaExps.Pingpong

open RdmaExps.Wire RdmaExps.Run RdmaExps.Run.Session

structure Host where
  order : ByteOrder
  dests : List PingpongDest

/-- Both sides have the same number of queue pairs, and at least one. -/
structure Setup where
  client : Host
  server : Host
  same : client.dests.length = server.dests.length
  some : client.dests ≠ []

/-- What is written of a string is its characters and the zero at its end. -/
def stringBytes (msg : List Char) : List Char := msg ++ ['\x00']

def cString (bytes : List Char) : List Char := bytes.takeWhile (· ≠ '\x00')

def Host.messages (host : Host) : List (List Char) := host.dests.map fun dest => stringBytes (message host.order dest)

/-- `pp_client_exch_dest` once it is connected. -/
def ppClientExchDest (host : Host) (numQp : Nat) : List (Action Char) :=
  host.messages.map .write ++ (List.replicate numQp (.read MSG_SIZE) ++ [.write (stringBytes "done".toList)])

/-- `pp_server_exch_dest` once it has accepted. Its own step is `pp_connect_ctx`. -/
def ppServerExchDest (host : Host) (numQp : Nat) : List (Action Char) :=
  List.replicate numQp (.read MSG_SIZE) ++ (.own :: (host.messages.map .write ++ [.await MSG_SIZE]))

abbrev Row := Option (UInt32 × UInt32 × UInt32 × List Byte)

/-- The rows of `rem_dest` that have been filled. -/
def remDest (order : ByteOrder) (e : End Char) : List Row := e.got.map fun msg => scanMessage order (cString msg)

/-- What the function returns, once it does. Where a read fails that is the table as it is. -/
def returned (order : ByteOrder) (e : End Char) : Option (Option (List Row)) :=
  match e.todo with
  | [] => some (some (remDest order e))
  | .read _ :: _ => if e.stopped then some (some (remDest order e)) else none
  | _ => if e.stopped then some none else none

def Host.rows (host : Host) : List Row := host.dests.map fun dest => some (dest.lid, dest.qpn, dest.psn, dest.gid.raw)

def Setup.start (setup : Setup) : Session.State Char :=
  Session.start (ppClientExchDest setup.client setup.client.dests.length)
    (ppServerExchDest setup.server setup.client.dests.length)

/-- What every step keeps. -/
abbrev Setup.Holds (setup : Setup) : Session.State Char → Prop :=
  Inv (ppClientExchDest setup.client setup.client.dests.length) (ppServerExchDest setup.server setup.client.dests.length)

theorem cString_stringBytes {msg : List Char} (plain : '\x00' ∉ msg) : cString (stringBytes msg) = msg := by
  have taken : msg.takeWhile (· ≠ '\x00') = msg := by
    apply List.takeWhile_eq_self_iff.mpr
    intro c member
    exact decide_eq_true fun zero => plain (zero ▸ member)
  rw [cString, stringBytes, List.takeWhile_append_of_pos, List.takeWhile_cons_of_neg (by simp), List.append_nil]
  intro c member
  exact decide_eq_true fun zero => plain (zero ▸ member)

theorem zero_not_mem_printHex (width n : Nat) : '\x00' ∉ printHex width n := by
  intro member
  exact absurd (isHex_of_mem_printHex member) (by decide)

theorem zero_not_mem_gidToWireGid (order : ByteOrder) (gid : Gid) : '\x00' ∉ gidToWireGid order gid := by
  intro member
  obtain ⟨i, -, digit⟩ := List.mem_flatMap.mp member
  exact zero_not_mem_printHex _ _ digit

theorem zero_not_mem_message (order : ByteOrder) (dest : PingpongDest) : '\x00' ∉ message order dest := by
  simp [message, zero_not_mem_printHex, zero_not_mem_gidToWireGid]

theorem Host.length_messages (host : Host) : host.messages.length = host.dests.length := List.length_map _

theorem Host.sized (host : Host) : ∀ msg ∈ host.messages, msg.length = MSG_SIZE := by
  intro msg member
  obtain ⟨dest, _, rfl⟩ := List.mem_map.mp member
  exact (List.length_append).trans (length_message host.order dest)

/-- What is read of the messages, on a host of any byte order, is the sender's table. -/
theorem Host.scanned (host : Host) (order : ByteOrder) :
    host.messages.map (fun msg => scanMessage order (cString msg)) = host.rows := by
  rw [messages, rows, List.map_map]
  apply List.map_congr_left
  intro dest _
  rw [Function.comp_apply, cString_stringBytes (zero_not_mem_message _ _), (message_round_trip _ _ _).2]

namespace Setup

variable (setup : Setup)

theorem dual : Dual (ppClientExchDest setup.client setup.client.dests.length)
    (ppServerExchDest setup.server setup.client.dests.length) := by
  have last : Dual (.await MSG_SIZE :: []) (.write (stringBytes "done".toList) :: []) :=
    .awaitLast (by decide) (by decide)
  have answers := (Dual.writes_reads setup.server.sized (by decide) last).symm
  have asked := Dual.writes_reads setup.client.sized (by decide) (.ownRight answers)
  rw [setup.client.length_messages, setup.server.length_messages, ← setup.same] at asked
  exact asked

theorem writes_client : writes (ppClientExchDest setup.client setup.client.dests.length) =
    setup.client.messages ++ [stringBytes "done".toList] := by
  simp [ppClientExchDest, writes_append, writes]

theorem writes_server : writes (ppServerExchDest setup.server setup.client.dests.length) = setup.server.messages := by
  simp [ppServerExchDest, writes_append, writes]

theorem reads_client : reads (ppClientExchDest setup.client setup.client.dests.length) = setup.client.dests.length := by
  simp [ppClientExchDest, reads_append, reads]

theorem reads_server : reads (ppServerExchDest setup.server setup.client.dests.length) = setup.client.dests.length := by
  simp [ppServerExchDest, reads_append, reads]

end Setup

section Results

variable {setup : Setup} {s : Session.State Char}

theorem Setup.connected (inv : setup.Holds s)
    (past : Action.own ∉ s.far.todo) : reads s.far.todo = 0 := by
  rcases suffix_of_action inv.farSuffix with before | ⟨done, same⟩
  · exact absurd (before.subset (by simp)) past
  · have none := congrArg reads same
    rw [reads_append, reads_append] at none
    simp [reads] at none
    omega

theorem Setup.answered (inv : setup.Holds s)
    (read : reads s.near.todo = 0) : Action.own ∉ s.far.todo := by
  have heard : listens s.near.todo = 0 := by
    rw [listens_eq_reads, read]
    intro room member
    have inside := inv.nearSuffix.subset member
    simp [ppClientExchDest] at inside
  have wrote : writes s.far.todo = [] := by
    have causal := inv.causal.1
    exact List.length_eq_zero_iff.mp (by omega)
  rcases suffix_of_action inv.farSuffix with ⟨done, same⟩ | after
  · rw [← same, writes_append] at wrote
    have none := (List.append_eq_nil_iff.mp wrote).2
    simp only [writes, writes_append, writes_map_write, List.append_nil] at none
    have some := congrArg List.length none
    rw [setup.server.length_messages, ← setup.same] at some
    exact absurd (List.length_eq_zero_iff.mp some) setup.some
  · intro own
    have inside := after.subset own
    simp at inside

theorem Setup.finished (inv : setup.Holds s)
    (done : s.far.todo = []) : s.near.todo = [] := by
  have causal := inv.causal.2
  rw [done] at causal
  have script : ppClientExchDest setup.client setup.client.dests.length =
      (setup.client.messages.map .write ++ List.replicate setup.client.dests.length (.read MSG_SIZE)) ++
        .write (stringBytes "done".toList) :: [] := by
    rw [ppClientExchDest, List.append_assoc]
  have suffix := inv.nearSuffix
  rw [script] at suffix
  rcases suffix_of_action suffix with ⟨before, same⟩ | after
  · rw [← same, writes_append] at causal
    simp [writes, listens] at causal
  · exact List.suffix_nil.mp after

variable {capacity : Nat}

theorem Setup.small (setup : Setup) (room : MSG_SIZE ≤ capacity) :
    ∀ message ∈ writes (ppClientExchDest setup.client setup.client.dests.length) ++
      writes (ppServerExchDest setup.server setup.client.dests.length), message.length ≤ capacity := by
  intro message member
  rw [setup.writes_client, setup.writes_server, List.append_assoc] at member
  have length : message.length ≤ MSG_SIZE := by
    rcases List.mem_append.mp member with own | other
    · exact (setup.client.sized message own).le
    · rcases List.mem_append.mp other with done | own
      · rw [List.mem_singleton.mp done]
        decide
      · exact (setup.server.sized message own).le
  exact length.trans room

end Results

end RdmaExps.Pingpong
