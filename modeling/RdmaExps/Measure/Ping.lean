import RdmaExps.Python.Regex
import RdmaExps.Python.Split
import RdmaExps.Python.Value
import RdmaExps.Python.Loops

namespace RdmaExps.Measure

open RdmaExps.Python

/-- `.*icmp_seq=(\d+) .*` -/
def icmpSeqRe : Re :=
  .seq .any (.seq (.text "icmp_seq=".toList) (.seq (.group .digits) (.seq (.text [' ']) .any)))

/-- `.*time=(FLOAT) ms` -/
def timeRe : Re :=
  .seq .any (.seq (.text "time=".toList) (.seq (.group .float) (.text " ms".toList)))

/-- `int(match.groups()[0])`, where the line matches. -/
def icmpSeqOf (line : List Char) : Except PyErr (Option Int) :=
  match icmpSeqRe.groups line with
  | none => .ok none
  | some groups =>
    match parseInt (groups.headD []) with
    | some n => .ok (some n)
    | none => .error (.valueError "invalid literal for int() with base 10")

def timeOf (line : List Char) : Except PyErr (Option Rat) :=
  match timeRe.groups line with
  | none => .ok none
  | some groups =>
    match parseFloat (groups.headD []) with
    | some q => .ok (some q)
    | none => .error (.valueError "could not convert string to float")

def lossMarker : Rat := 10 ^ 10

structure PingState where
  prevIcmpSeq : Int
  latencies : List Rat

/-- The markers for the sequence numbers between two replies, as the loop counts them. -/
def missed (prevIcmpSeq icmpSeq : Int) : List Rat :=
  if prevIcmpSeq < icmpSeq - 1 then List.replicate (icmpSeq - prevIcmpSeq + 1).toNat lossMarker else []

/-- The body of the loop over the lines of one client. -/
def pingLine (st : PingState) (line : List Char) : Except PyErr PingState := do
  let icmpSeq ← icmpSeqOf line
  let st := match icmpSeq with
    | some icmpSeq => ⟨icmpSeq, st.latencies ++ missed st.prevIcmpSeq icmpSeq⟩
    | none => st
  let time ← timeOf line
  match time with
  | some l => return { st with latencies := st.latencies ++ [l * 1000] }
  | none => return st

def pingClient (latencies : List Rat) (out : List Char) : Except PyErr (List Rat) := do
  let st ← (splitLines out).foldlM pingLine ⟨0, latencies⟩
  return st.latencies

/-- The clients are given by what `get_proc_output(client).read()` returns for them. -/
def processPingOutput (clients : List (List Char)) : Except PyErr (List Rat) :=
  clients.foldlM pingClient []

structure Reply where
  icmpSeq : Int
  time : Rat
deriving DecidableEq

/-- A line is a reply, or matches neither of the two patterns. -/
def Reads (line : List Char) : Option Reply → Prop
  | some reply => icmpSeqOf line = .ok (some reply.icmpSeq) ∧ timeOf line = .ok (some reply.time)
  | none => icmpSeqOf line = .ok none ∧ timeOf line = .ok none

instance (line : List Char) : ∀ reply, Decidable (Reads line reply)
  | some _ => inferInstanceAs (Decidable (_ ∧ _))
  | none => inferInstanceAs (Decidable (_ ∧ _))

def readOf (line : List Char) : Option Reply :=
  match icmpSeqOf line, timeOf line with
  | .ok (some icmpSeq), .ok (some time) => some ⟨icmpSeq, time⟩
  | _, _ => none

def repliesOf (out : List Char) : List Reply := (splitLines out).filterMap readOf

def Reply.sample (reply : Reply) : Rat := reply.time * 1000

def entries : Int → List Reply → List Rat
  | _, [] => []
  | prev, reply :: rest => missed prev reply.icmpSeq ++ [reply.sample] ++ entries reply.icmpSeq rest

def markers : Int → List Int → Nat
  | _, [] => 0
  | prev, icmpSeq :: rest => (missed prev icmpSeq).length + markers icmpSeq rest

def lastSeq (prev : Int) (seqs : List Int) : Int := seqs.getLastD prev

theorem lastSeq_cons (prev icmpSeq : Int) (rest : List Int) :
    lastSeq prev (icmpSeq :: rest) = lastSeq icmpSeq rest := List.getLastD_cons ..

theorem length_missed (prev icmpSeq : Int) :
    (missed prev icmpSeq).length = if prev < icmpSeq - 1 then (icmpSeq - prev + 1).toNat else 0 := by
  unfold missed
  split <;> simp

theorem eq_replicate_missed (prev icmpSeq : Int) :
    missed prev icmpSeq = List.replicate (missed prev icmpSeq).length lossMarker := by
  unfold missed
  split <;> simp

theorem readOf_of_reads {line : List Char} {reply : Option Reply} (reads : Reads line reply) :
    readOf line = reply := by
  cases reply with
  | none => simp [readOf, reads.1]
  | some reply => simp [readOf, reads.1, reads.2]

theorem pingLine_reads {line : List Char} {reply : Option Reply} (reads : Reads line reply)
    (st : PingState) :
    pingLine st line = .ok (match reply with
      | some reply => ⟨reply.icmpSeq,
          st.latencies ++ missed st.prevIcmpSeq reply.icmpSeq ++ [reply.sample]⟩
      | none => st) := by
  cases reply with
  | none =>
    obtain ⟨icmp, time⟩ := reads
    simp only [pingLine, icmp, time, Bind.bind, Except.bind, Pure.pure, Except.pure]
  | some reply =>
    obtain ⟨icmp, time⟩ := reads
    simp only [pingLine, Reply.sample, icmp, time, Bind.bind, Except.bind, Pure.pure, Except.pure]

theorem pingLines_run {lines : List (List Char)} (all : ∀ line ∈ lines, ∃ reply, Reads line reply)
    (st : PingState) :
    ∃ last, lines.foldlM pingLine st =
      .ok ⟨last, st.latencies ++ entries st.prevIcmpSeq (lines.filterMap readOf)⟩ := by
  induction lines generalizing st with
  | nil => exact ⟨st.prevIcmpSeq, by simp [entries, Pure.pure, Except.pure]⟩
  | cons line lines ih =>
    obtain ⟨reply, first⟩ := all line (by simp)
    have rest := ih fun other member => all other (by simp [member])
    have read := readOf_of_reads first
    rw [List.foldlM_cons, pingLine_reads first]
    cases reply with
    | none =>
      obtain ⟨last, run⟩ := rest st
      exact ⟨last, by simpa [read, Bind.bind, Except.bind] using run⟩
    | some reply =>
      obtain ⟨last, run⟩ := rest ⟨reply.icmpSeq,
        st.latencies ++ missed st.prevIcmpSeq reply.icmpSeq ++ [reply.sample]⟩
      exact ⟨last, by simpa [read, entries, Bind.bind, Except.bind] using run⟩

theorem pingClient_eq {out : List Char} (all : ∀ line ∈ splitLines out, ∃ reply, Reads line reply)
    (latencies : List Rat) :
    pingClient latencies out = .ok (latencies ++ entries 0 (repliesOf out)) := by
  obtain ⟨last, run⟩ := pingLines_run all ⟨0, latencies⟩
  rw [pingClient, run]
  rfl

theorem entries_perm (prev : Int) (replies : List Reply) :
    (entries prev replies).Perm
      (replies.map Reply.sample ++ List.replicate (markers prev (replies.map Reply.icmpSeq)) lossMarker) := by
  induction replies generalizing prev with
  | nil => simp [entries, markers]
  | cons reply rest ih =>
    have later := ih reply.icmpSeq
    simp only [entries, List.map_cons, markers, List.replicate_add, ← eq_replicate_missed, List.append_assoc,
      List.cons_append, List.nil_append]
    refine List.perm_middle.trans (List.Perm.cons _ ?_)
    refine (List.Perm.append_left _ later).trans ?_
    rw [← List.append_assoc, ← List.append_assoc]
    exact List.Perm.append_right _ List.perm_append_comm

theorem length_entries (prev : Int) (replies : List Reply) :
    (entries prev replies).length = replies.length + markers prev (replies.map Reply.icmpSeq) := by
  rw [(entries_perm prev replies).length_eq]
  simp

theorem markers_append (prev : Int) (front back : List Int) :
    markers prev (front ++ back) = markers prev front + markers (lastSeq prev front) back := by
  induction front generalizing prev with
  | nil => simp [markers, lastSeq]
  | cons icmpSeq front ih =>
    rw [List.cons_append, markers, markers, ih, lastSeq_cons, Nat.add_assoc]

theorem seq_of_markers {prev : Int} {seqs : List Int} (above : ∀ icmpSeq ∈ seqs, prev < icmpSeq)
    (distinct : seqs.Nodup) (none : markers prev seqs = 0) {i : Nat} (bound : i < seqs.length) :
    seqs[i] = prev + 1 + i := by
  induction seqs generalizing prev i with
  | nil => simp at bound
  | cons icmpSeq rest ih =>
    obtain ⟨fresh, distinct_rest⟩ := List.nodup_cons.mp distinct
    have first := above icmpSeq (by simp)
    rw [markers, length_missed] at none
    split at none
    · omega
    · have next : icmpSeq = prev + 1 := by omega
      cases i with
      | zero => simp [next]
      | succ i =>
        have above_rest : ∀ other ∈ rest, icmpSeq < other := by
          intro other member
          have behind := above other (by simp [member])
          have differ : other ≠ icmpSeq := fun same => fresh (same ▸ member)
          omega
        have rest_seq := ih above_rest distinct_rest (by omega) (i := i) (by simpa using bound)
        rw [List.getElem_cons_succ, rest_seq]
        omega

theorem entries_of_markers {replies : List Reply} {prev : Int}
    (none : markers prev (replies.map Reply.icmpSeq) = 0) :
    entries prev replies = replies.map Reply.sample := by
  induction replies generalizing prev with
  | nil => rfl
  | cons reply rest ih =>
    rw [List.map_cons, markers, Nat.add_eq_zero_iff, List.length_eq_zero_iff] at none
    rw [entries, none.1, ih none.2]
    rfl

theorem seqs_positive {replies : List Reply} (positive : ∀ reply ∈ replies, 1 ≤ reply.icmpSeq) :
    ∀ icmpSeq ∈ replies.map Reply.icmpSeq, 0 < icmpSeq := by
  intro icmpSeq member
  obtain ⟨reply, found, rfl⟩ := List.mem_map.mp member
  have bound := positive reply found
  omega

theorem processPingOutput_single {out : List Char}
    (all : ∀ line ∈ splitLines out, ∃ reply, Reads line reply) :
    processPingOutput [out] = .ok (entries 0 (repliesOf out)) := by
  simp [processPingOutput, pingClient_eq all, Bind.bind, Except.bind, Pure.pure, Except.pure]

def replyText (icmpSeq time : String) : List Char :=
  ("64 bytes from 10.10.1.1: icmp_seq=" ++ icmpSeq ++ " ttl=64 time=" ++ time ++ " ms\n").toList

example : Reads (replyText "7" "0.25") (some ⟨7, 1 / 4⟩) := by decide +kernel

end RdmaExps.Measure
