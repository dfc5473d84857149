import RdmaExps.Measure.Ping

namespace RdmaExps.Measure

open RdmaExps.Python

def isReply (line : List Char) : Bool :=
  match icmpSeqOf line with
  | .ok (some _) => true
  | _ => false

/-- The reply lines permuted among their places, the other lines left where they are. -/
structure Reordered (lines lines' : List (List Char)) : Prop where
  others : lines'.map (fun line => if isReply line then none else some line) =
    lines.map (fun line => if isReply line then none else some line)
  replies : (lines'.filter isReply).Perm (lines.filter isReply)

/-- No reordering of the replies changes the multiset of entries. -/
def OrderFree (out : List Char) : Prop :=
  ∀ out', Reordered (splitLines out) (splitLines out') →
    ∃ latencies latencies', processPingOutput [out] = .ok latencies ∧
      processPingOutput [out'] = .ok latencies' ∧ latencies'.Perm latencies

def seqsTo (m : Nat) : List Int := (List.range m).map fun i : Nat => (i : Int) + 1

/-- Where the replies are those to the pings `1..m`, the entries are their times alone. -/
def NoFalseLoss (out : List Char) : Prop :=
  ((repliesOf out).map Reply.icmpSeq).Perm (seqsTo (repliesOf out).length) →
    ∃ latencies, processPingOutput [out] = .ok latencies ∧
      latencies.Perm ((repliesOf out).map Reply.sample)

def refill : List (List Char) → List (List Char) → List (List Char)
  | [], _ => []
  | line :: lines, replies =>
    if isReply line then
      match replies with
      | reply :: replies => reply :: refill lines replies
      | [] => line :: refill lines []
    else line :: refill lines replies

def seqOf (line : List Char) : Int := ((readOf line).map Reply.icmpSeq).getD 0

theorem isReply_of_reads {line : List Char} (reads : ∃ reply, Reads line reply) :
    isReply line = (readOf line).isSome := by
  obtain ⟨reply, reads⟩ := reads
  rw [readOf_of_reads reads]
  cases reply with
  | none => simp [isReply, reads.1]
  | some reply => simp [isReply, reads.1]

theorem replies_lines {lines : List (List Char)} (all : ∀ line ∈ lines, ∃ reply, Reads line reply) :
    lines.filterMap readOf = (lines.filter isReply).filterMap readOf ∧
    (lines.filterMap readOf).map Reply.icmpSeq = (lines.filter isReply).map seqOf := by
  induction lines with
  | nil => exact ⟨rfl, rfl⟩
  | cons line lines ih =>
    obtain ⟨replies, seqs⟩ := ih fun other member => all other (by simp [member])
    have kind := isReply_of_reads (all line (by simp))
    cases read : readOf line with
    | none =>
      rw [read] at kind
      simp [read, kind, replies, ← seqs]
    | some reply =>
      rw [read] at kind
      simp [read, kind, seqOf, ← replies, ← seqs]

theorem refill_spec {lines : List (List Char)} (replies : List (List Char))
    (count : replies.length = (lines.filter isReply).length) (all : ∀ line ∈ replies, isReply line = true) :
    (refill lines replies).filter isReply = replies ∧
    (refill lines replies).map (fun line => if isReply line then none else some line) =
      lines.map (fun line => if isReply line then none else some line) := by
  induction lines generalizing replies with
  | nil =>
    have empty : replies = [] := List.length_eq_zero_iff.mp count
    simp [refill, empty]
  | cons line lines ih =>
    cases kind : isReply line with
    | false =>
      obtain ⟨kept, others⟩ := ih replies (by simpa [kind] using count) all
      simp [refill, kind, kept, others]
    | true =>
      cases replies with
      | nil => simp [kind] at count
      | cons reply replies =>
        have first : isReply reply = true := all reply (by simp)
        obtain ⟨kept, others⟩ := ih replies (by simpa [kind] using count)
          fun other member => all other (by simp [member])
        simp [refill, kind, first, kept, others]

theorem Reordered.mem {lines lines' : List (List Char)} (reordered : Reordered lines lines')
    {line : List Char} (member : line ∈ lines') : line ∈ lines := by
  cases kind : isReply line with
  | true =>
    have reply : line ∈ lines'.filter isReply := List.mem_filter.mpr ⟨member, kind⟩
    exact (List.mem_filter.mp (reordered.replies.mem_iff.mp reply)).1
  | false =>
    have other : some line ∈ lines'.map (fun line => if isReply line then none else some line) :=
      List.mem_map.mpr ⟨line, member, by simp [kind]⟩
    rw [reordered.others] at other
    obtain ⟨same, found, equal⟩ := List.mem_map.mp other
    split at equal
    · exact absurd equal (by simp)
    · rw [← Option.some.inj equal]
      exact found

/-- Two replies the wrong way round: the late one is no loss, and the early one hides the gap
    before the other. -/
theorem markers_swap {prev a b : Int} (first : prev < a) (second : a < b) :
    markers prev [a, b] ≠ markers prev [b, a] := by
  have late : ¬ b < a - 1 := by omega
  have hidden : prev < b - 1 := by omega
  simp only [markers, length_missed, if_neg late, if_pos hidden]
  split <;> split <;> omega

theorem markers_swap_last {front : List Int} {a b : Int}
    (ascending : (0 :: (front ++ [a, b])).Pairwise (· < ·)) :
    markers 0 (front ++ [a, b]) ≠ markers 0 (front ++ [b, a]) := by
  rw [← List.cons_append, List.pairwise_append] at ascending
  obtain ⟨-, pair, across⟩ := ascending
  have last : lastSeq 0 front ∈ 0 :: front := by
    cases front using List.reverseRecOn with
    | nil => simp [lastSeq]
    | append_singleton front icmpSeq => simp [lastSeq]
  have first := across _ last a (by simp)
  have second : a < b := by simpa using pair
  have swapped := markers_swap first second
  rw [markers_append, markers_append]
  omega

def ascendingReplies (lines : List (List Char)) : List (List Char) :=
  (lines.filter isReply).mergeSort fun line line' => seqOf line ≤ seqOf line'

theorem ascendingReplies_pairwise (lines : List (List Char))
    (distinct : ((lines.filter isReply).map seqOf).Nodup) :
    ((ascendingReplies lines).map seqOf).Pairwise (· < ·) := by
  have perm : (ascendingReplies lines).Perm (lines.filter isReply) := List.mergeSort_perm ..
  have sorted : (ascendingReplies lines).Pairwise fun line line' => decide (seqOf line ≤ seqOf line') = true := by
    apply List.pairwise_mergeSort
    · intro a b c first second
      simp only [decide_eq_true_eq] at *
      omega
    · intro a b
      simp only [Bool.or_eq_true, decide_eq_true_eq]
      omega
  have sorted' : ((ascendingReplies lines).map seqOf).Pairwise (· ≤ ·) := by
    rw [List.pairwise_map]
    exact sorted.imp fun le => of_decide_eq_true le
  have distinct' : ((ascendingReplies lines).map seqOf).Nodup := (perm.map seqOf).nodup_iff.mpr distinct
  exact (sorted'.and distinct').imp fun both => lt_of_le_of_ne both.1 both.2

def rearranged (out : List Char) (replies : List (List Char)) : List Char :=
  endLines (refill (splitLines out) replies)

theorem splitLines_rearranged {out : List Char} {replies : List (List Char)}
    (perm : replies.Perm ((splitLines out).filter isReply)) :
    splitLines (rearranged out replies) = refill (splitLines out) replies ∧
      Reordered (splitLines out) (refill (splitLines out) replies) := by
  have all : ∀ line ∈ replies, isReply line = true :=
    fun line member => (List.mem_filter.mp (perm.mem_iff.mp member)).2
  obtain ⟨kept, others⟩ := refill_spec replies perm.length_eq all
  have reordered : Reordered (splitLines out) (refill (splitLines out) replies) :=
    ⟨others, by rw [kept]; exact perm⟩
  refine ⟨?_, reordered⟩
  apply splitLines_endLines
  intro line member
  exact splitLines_clear out line (reordered.mem member)

theorem length_rearranged {out : List Char} (all : ∀ line ∈ splitLines out, ∃ reply, Reads line reply)
    {replies : List (List Char)} (perm : replies.Perm ((splitLines out).filter isReply)) :
    ∃ latencies, processPingOutput [rearranged out replies] = .ok latencies ∧
      latencies.length = replies.length + markers 0 (replies.map seqOf) := by
  obtain ⟨lines, reordered⟩ := splitLines_rearranged perm
  have all' : ∀ line ∈ splitLines (rearranged out replies), ∃ reply, Reads line reply := by
    rw [lines]
    exact fun line member => all line (reordered.mem member)
  have kept : (splitLines (rearranged out replies)).filter isReply = replies := by
    rw [lines]
    exact (refill_spec replies perm.length_eq
      fun line member => (List.mem_filter.mp (perm.mem_iff.mp member)).2).1
  have seqs := (replies_lines all').2
  have length := congrArg List.length seqs
  rw [kept] at seqs length
  rw [List.length_map, List.length_map] at length
  refine ⟨_, processPingOutput_single all', ?_⟩
  rw [length_entries, repliesOf, seqs, length]

theorem exists_pair {α : Type} {xs : List α} (long : 2 ≤ xs.length) :
    ∃ front a b, xs = front ++ [a, b] := by
  have reversed : 2 ≤ xs.reverse.length := by simpa using long
  match split : xs.reverse, reversed with
  | b :: a :: rest, _ =>
    have back := congrArg List.reverse split
    exact ⟨rest.reverse, a, b, by simpa using back⟩

/-- Two replies or more: exchanging the last two of the ascending order changes the number of markers. -/
theorem not_orderFree {out : List Char} (all : ∀ line ∈ splitLines out, ∃ reply, Reads line reply)
    (distinct : ((repliesOf out).map Reply.icmpSeq).Nodup)
    (positive : ∀ reply ∈ repliesOf out, 1 ≤ reply.icmpSeq) (two : 2 ≤ (repliesOf out).length) :
    ¬ OrderFree out := by
  intro free
  have seqs := (replies_lines all).2
  have perm : (ascendingReplies (splitLines out)).Perm ((splitLines out).filter isReply) :=
    List.mergeSort_perm ..
  have ascending := ascendingReplies_pairwise (splitLines out) (by rw [← seqs]; exact distinct)
  have above : ∀ icmpSeq ∈ (ascendingReplies (splitLines out)).map seqOf, 0 < icmpSeq := by
    intro icmpSeq member
    rw [(perm.map seqOf).mem_iff, ← seqs] at member
    exact seqs_positive positive icmpSeq member
  have long : 2 ≤ (ascendingReplies (splitLines out)).length := by
    have length := congrArg List.length seqs
    rw [List.length_map, List.length_map] at length
    rw [perm.length_eq, ← length]
    exact two
  obtain ⟨front, a, b, sorted⟩ := exists_pair long
  have exchanged : (front ++ [b, a]).Perm ((splitLines out).filter isReply) := by
    rw [sorted] at perm
    exact (List.Perm.append_left front (List.Perm.swap a b [])).trans perm
  rw [sorted] at perm ascending above
  have differ : markers 0 ((front ++ [a, b]).map seqOf) ≠ markers 0 ((front ++ [b, a]).map seqOf) := by
    have chain := List.pairwise_cons.mpr ⟨above, ascending⟩
    simp only [List.map_append, List.map_cons, List.map_nil] at chain ⊢
    exact markers_swap_last chain
  -- both arrangements are reorderings of the output, so both give as many entries as it does
  have same : ∀ {replies : List (List Char)}, replies.Perm ((splitLines out).filter isReply) →
      ∃ latencies, processPingOutput [out] = .ok latencies ∧
        latencies.length = replies.length + markers 0 (replies.map seqOf) := by
    intro replies permuted
    obtain ⟨lines, reordered⟩ := splitLines_rearranged permuted
    obtain ⟨latencies, latencies', run, run', entries⟩ := free (rearranged out replies) (by rw [lines]; exact reordered)
    obtain ⟨found, found_run, length⟩ := length_rearranged all permuted
    rw [run'] at found_run
    exact ⟨latencies, run, by rw [← entries.length_eq, Except.ok.inj found_run, length]⟩
  obtain ⟨first, first_run, first_length⟩ := same perm
  obtain ⟨second, second_run, second_length⟩ := same exchanged
  rw [first_run] at second_run
  rw [Except.ok.inj second_run, second_length] at first_length
  simp only [List.length_append, List.length_cons, List.length_nil] at first_length
  omega

theorem seqsTo_succ (m : Nat) : seqsTo (m + 1) = seqsTo m ++ [(m : Int) + 1] := by
  simp [seqsTo, List.range_succ]

theorem lastSeq_seqsTo (m : Nat) : lastSeq 0 (seqsTo m) = m := by
  cases m with
  | zero => rfl
  | succ m => simp [seqsTo_succ, lastSeq]

theorem markers_seqsTo (m : Nat) : markers 0 (seqsTo m) = 0 := by
  induction m with
  | zero => rfl
  | succ m ih =>
    rw [seqsTo_succ, markers_append, ih, lastSeq_seqsTo]
    simp [markers, missed]

/-- No marker is emitted exactly when the replies are those to `1..m`, in this order. -/
theorem samples_alone_iff {out : List Char} (all : ∀ line ∈ splitLines out, ∃ reply, Reads line reply)
    (distinct : ((repliesOf out).map Reply.icmpSeq).Nodup)
    (positive : ∀ reply ∈ repliesOf out, 1 ≤ reply.icmpSeq) :
    (∃ latencies, processPingOutput [out] = .ok latencies ∧
      latencies.Perm ((repliesOf out).map Reply.sample)) ↔
    (repliesOf out).map Reply.icmpSeq = seqsTo (repliesOf out).length := by
  constructor
  · rintro ⟨latencies, run, perm⟩
    rw [processPingOutput_single all] at run
    have length := perm.length_eq
    rw [← Except.ok.inj run, length_entries, List.length_map] at length
    apply List.ext_getElem (by simp [seqsTo])
    intro i bound bound'
    have seq := seq_of_markers (seqs_positive positive) distinct (by omega) bound
    simp only [seq, seqsTo, List.getElem_map, List.getElem_range]
    omega
  · intro inOrder
    refine ⟨_, processPingOutput_single all, ?_⟩
    rw [entries_of_markers (by rw [inOrder]; exact markers_seqsTo _)]

/-- The entries do not depend on the order of the replies exactly when there is at most one. -/
theorem orderFree_iff {out : List Char} (all : ∀ line ∈ splitLines out, ∃ reply, Reads line reply)
    (distinct : ((repliesOf out).map Reply.icmpSeq).Nodup)
    (positive : ∀ reply ∈ repliesOf out, 1 ≤ reply.icmpSeq) :
    (OrderFree out ∧ NoFalseLoss out) ↔ (repliesOf out).length ≤ 1 := by
  constructor
  · rintro ⟨free, -⟩
    by_contra many
    exact not_orderFree all distinct positive (by omega) free
  · intro few
    have seqs := (replies_lines all).2
    have length := congrArg List.length seqs
    rw [List.length_map, List.length_map] at length
    refine ⟨?_, ?_⟩
    · intro out' reordered
      have all' : ∀ line ∈ splitLines out', ∃ reply, Reads line reply :=
        fun line member => all line (reordered.mem member)
      have same_lines : (splitLines out').filter isReply = (splitLines out).filter isReply := by
        have short : ((splitLines out).filter isReply).length ≤ 1 := by
          rw [← length]
          exact few
        have perm := reordered.replies
        match lines : (splitLines out).filter isReply, short with
        | [], _ => rwa [lines, List.perm_nil] at perm
        | [line], _ => rwa [lines, List.perm_singleton] at perm
      have same : repliesOf out' = repliesOf out := by
        rw [repliesOf, repliesOf, (replies_lines all').1, (replies_lines all).1, same_lines]
      exact ⟨_, _, processPingOutput_single all, processPingOutput_single all', by rw [same]⟩
    · intro whole
      refine (samples_alone_iff all distinct positive).mpr ?_
      match replies : repliesOf out, few with
      | [], _ => rfl
      | [reply], _ => simpa [replies] using whole

def pingOneOut : List Char := replyText "1" "0.5"

/-- Both pings are answered, the first one late. -/
def pingLateOut : List Char := replyText "2" "0.25" ++ replyText "1" "0.5"

theorem orderFree_one : OrderFree pingOneOut ∧ NoFalseLoss pingOneOut := by
  have read : ∀ line ∈ splitLines pingOneOut, Reads line (readOf line) := by decide +kernel
  have replies : repliesOf pingOneOut = [⟨1, 1 / 2⟩] := by decide +kernel
  exact (orderFree_iff (fun line member => ⟨readOf line, read line member⟩)
    (by simp [replies]) (by simp [replies])).mpr (by simp [replies])

/-- Three losses are reported though no ping is lost, and none once the two replies change places. -/
theorem late_reply_counts_as_loss :
    (∀ line ∈ splitLines pingLateOut, ∃ reply, Reads line reply) ∧
    processPingOutput [pingLateOut] = .ok [lossMarker, lossMarker, lossMarker, 250, 500] ∧
    ¬ OrderFree pingLateOut ∧ ¬ NoFalseLoss pingLateOut := by
  have read : ∀ line ∈ splitLines pingLateOut, Reads line (readOf line) := by decide +kernel
  have all : ∀ line ∈ splitLines pingLateOut, ∃ reply, Reads line reply :=
    fun line member => ⟨readOf line, read line member⟩
  have replies : repliesOf pingLateOut = [⟨2, 1 / 4⟩, ⟨1, 1 / 2⟩] := by decide +kernel
  have run : processPingOutput [pingLateOut] = .ok [lossMarker, lossMarker, lossMarker, 250, 500] := by
    rw [processPingOutput_single all, replies]
    decide +kernel
  refine ⟨all, run, ?_, ?_⟩
  · exact not_orderFree all (by simp [replies]) (by simp [replies]) (by simp [replies])
  · intro holds
    obtain ⟨latencies, same, perm⟩ := holds (by rw [replies]; decide)
    rw [run] at same
    have length := perm.length_eq
    rw [← Except.ok.inj same, replies] at length
    exact absurd length (by decide)

end RdmaExps.Measure
