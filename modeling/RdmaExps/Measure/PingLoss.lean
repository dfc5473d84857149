import RdmaExps.Measure.Ping

namespace RdmaExps.Measure

open RdmaExps.Python

/-- One entry for each ping up to the last reply: its time, or the marker when it has no reply. -/
structure CountedOnce (replies : List Reply) (latencies : List Rat) : Prop where
  length : (latencies.length : Int) = lastSeq 0 (replies.map Reply.icmpSeq)
  answered : ∀ (n : Nat) (reply : Reply), reply ∈ replies → reply.icmpSeq = n + 1 →
    latencies[n]? = some (reply.time * 1000)
  lost : ∀ n : Nat, n < latencies.length → (∀ reply ∈ replies, reply.icmpSeq ≠ n + 1) →
    latencies[n]? = some lossMarker

def NoneLost (prev : Int) (seqs : List Int) : Prop :=
  ∀ n, prev < n → n ≤ lastSeq prev seqs → n ∈ seqs

theorem le_lastSeq {prev : Int} {seqs : List Int} (ascending : (prev :: seqs).Pairwise (· < ·)) :
    prev ≤ lastSeq prev seqs := by
  induction seqs generalizing prev with
  | nil => simp [lastSeq]
  | cons icmpSeq rest ih =>
    obtain ⟨above, later⟩ := List.pairwise_cons.mp ascending
    have first := above icmpSeq (by simp)
    have last := ih later
    rw [lastSeq_cons]
    omega

/-- A gap of `k` pings adds `k + 2` markers, so that the entries are too many by two a gap. -/
theorem markers_bound {prev : Int} {seqs : List Int} (ascending : (prev :: seqs).Pairwise (· < ·)) :
    lastSeq prev seqs - prev ≤ seqs.length + markers prev seqs ∧
    (lastSeq prev seqs - prev = seqs.length + markers prev seqs → markers prev seqs = 0) := by
  induction seqs generalizing prev with
  | nil => simp [lastSeq, markers]
  | cons icmpSeq rest ih =>
    obtain ⟨above, later⟩ := List.pairwise_cons.mp ascending
    have first := above icmpSeq (by simp)
    obtain ⟨bound, exact⟩ := ih later
    rw [lastSeq_cons, markers, length_missed, List.length_cons]
    split
    · constructor <;> omega
    · refine ⟨by omega, fun equal => ?_⟩
      have none := exact (by omega)
      omega

theorem markers_of_noneLost {prev : Int} {seqs : List Int} (ascending : (prev :: seqs).Pairwise (· < ·))
    (noneLost : NoneLost prev seqs) : markers prev seqs = 0 := by
  induction seqs generalizing prev with
  | nil => rfl
  | cons icmpSeq rest ih =>
    obtain ⟨above, later⟩ := List.pairwise_cons.mp ascending
    have first := above icmpSeq (by simp)
    have last := le_lastSeq later
    have next : prev + 1 ∈ icmpSeq :: rest := by
      apply noneLost
      · omega
      · rw [lastSeq_cons]
        omega
    have adjacent : icmpSeq = prev + 1 := by
      rcases List.mem_cons.mp next with same | behind
      · exact same.symm
      · have beyond := (List.pairwise_cons.mp later).1 _ behind
        omega
    have remaining : NoneLost icmpSeq rest := by
      intro n after upto
      have member := noneLost n (by omega) (by rw [lastSeq_cons]; exact upto)
      rcases List.mem_cons.mp member with same | behind
      · omega
      · exact behind
    rw [markers, length_missed, if_neg (by omega), ih later remaining]

theorem countedOnce_of_markers {replies : List Reply}
    (ascending : (0 :: replies.map Reply.icmpSeq).Pairwise (· < ·))
    (none : markers 0 (replies.map Reply.icmpSeq) = 0) : CountedOnce replies (entries 0 replies) := by
  obtain ⟨above, later⟩ := List.pairwise_cons.mp ascending
  have consecutive : ∀ (i : Nat) (bound : i < replies.length), replies[i].icmpSeq = i + 1 := by
    intro i bound
    have seq := seq_of_markers above (later.imp Int.ne_of_lt) none (i := i) (by simpa using bound)
    rw [List.getElem_map] at seq
    omega
  rw [entries_of_markers none]
  refine ⟨?_, ?_, ?_⟩
  · rw [List.length_map]
    cases replies using List.reverseRecOn with
    | nil => rfl
    | append_singleton front reply =>
      have last := consecutive front.length (by simp)
      simp only [List.getElem_concat_length] at last
      simp [lastSeq, last]
  · intro n reply member seq
    obtain ⟨i, bound, rfl⟩ := List.mem_iff_getElem.mp member
    have here := consecutive i bound
    have same : i = n := by omega
    subst same
    simp [bound, Reply.sample]
  · intro n bound lost
    rw [List.length_map] at bound
    exact absurd (consecutive n bound) (lost _ (List.getElem_mem bound))

/-- The pings of a client are counted once each exactly when no reply is missing before the last
    one: a gap gets two markers too many. -/
theorem losses_counted_iff {out : List Char}
    (all : ∀ line ∈ splitLines out, ∃ reply, Reads line reply)
    (ascending : ((repliesOf out).map Reply.icmpSeq).Pairwise (· < ·))
    (positive : ∀ reply ∈ repliesOf out, 1 ≤ reply.icmpSeq) (latencies : List Rat) :
    (∃ own, pingClient latencies out = .ok (latencies ++ own) ∧ CountedOnce (repliesOf out) own) ↔
      NoneLost 0 ((repliesOf out).map Reply.icmpSeq) := by
  have above := seqs_positive positive
  have ascending' := List.pairwise_cons.mpr ⟨above, ascending⟩
  rw [pingClient_eq all]
  constructor
  · rintro ⟨own, run, counted⟩
    have same : own = entries 0 (repliesOf out) := by
      have equal := Except.ok.inj run
      exact (List.append_cancel_left equal).symm
    subst same
    have length := counted.length
    rw [length_entries] at length
    have none := (markers_bound ascending').2 (by rw [List.length_map]; omega)
    intro n after upto
    have short : (n - 1).toNat < (repliesOf out).length := by omega
    have seq := seq_of_markers above (ascending.imp Int.ne_of_lt) none (i := (n - 1).toNat) (by simpa using short)
    have same : ((repliesOf out).map Reply.icmpSeq).get ⟨(n - 1).toNat, by simpa using short⟩ = n := by
      rw [List.get_eq_getElem, seq]
      simp only [Int.ofNat_toNat]
      omega
    rw [← same]
    exact List.get_mem ..
  · intro noneLost
    exact ⟨_, rfl, countedOnce_of_markers ascending' (markers_of_noneLost ascending' noneLost)⟩

def pingOut : List Char :=
  replyText "1" "0.5" ++ replyText "2" "0.25"

def pingGapOut : List Char :=
  replyText "1" "0.5" ++ replyText "3" "0.25"

theorem pingOut_reads : ∀ line ∈ splitLines pingOut, ∃ reply, Reads line reply := by
  have read : ∀ line ∈ splitLines pingOut, Reads line (readOf line) := by decide +kernel
  exact fun line member => ⟨readOf line, read line member⟩

theorem pingGapOut_reads : ∀ line ∈ splitLines pingGapOut, ∃ reply, Reads line reply := by
  have read : ∀ line ∈ splitLines pingGapOut, Reads line (readOf line) := by decide +kernel
  exact fun line member => ⟨readOf line, read line member⟩

theorem losses_counted_pair :
    ∃ own, pingClient [] pingOut = .ok ([] ++ own) ∧ CountedOnce (repliesOf pingOut) own := by
  refine (losses_counted_iff pingOut_reads (by decide +kernel) ?_ []).mpr ?_
  · have replies : repliesOf pingOut = [⟨1, 1 / 2⟩, ⟨2, 1 / 4⟩] := by decide +kernel
    simp [replies]
  · have seqs : (repliesOf pingOut).map Reply.icmpSeq = [1, 2] := by decide +kernel
    rw [seqs]
    intro n after upto
    have last : n ≤ 2 := upto
    have either : n = 1 ∨ n = 2 := by omega
    rcases either with rfl | rfl <;> decide

/-- The one lost ping is counted three times. -/
theorem losses_miscounted_gap :
    ((∀ line ∈ splitLines pingGapOut, ∃ reply, Reads line reply) ∧
      (repliesOf pingGapOut).map Reply.icmpSeq = [1, 3] ∧
      pingClient [] pingGapOut = .ok [500, lossMarker, lossMarker, lossMarker, 250]) ∧
    ¬ ∃ own, pingClient [] pingGapOut = .ok ([] ++ own) ∧ CountedOnce (repliesOf pingGapOut) own := by
  have seqs : (repliesOf pingGapOut).map Reply.icmpSeq = [1, 3] := by decide +kernel
  have run : pingClient [] pingGapOut = .ok [500, lossMarker, lossMarker, lossMarker, 250] := by
    rw [pingClient_eq pingGapOut_reads]
    decide +kernel
  refine ⟨⟨pingGapOut_reads, seqs, run⟩, ?_⟩
  rintro ⟨own, same, counted⟩
  rw [run] at same
  have own_eq : [500, lossMarker, lossMarker, lossMarker, 250] = own := Except.ok.inj same
  have length := counted.length
  rw [← own_eq, seqs] at length
  exact absurd length (by decide)

end RdmaExps.Measure
