import RdmaExps.Cluster.Servers

namespace RdmaExps.Cluster

open RdmaExps.Python

theorem fdiv_bounds {n q : Int} (positive : 0 < q) : n - q < q * Int.fdiv n q ∧ q * Int.fdiv n q ≤ n := by
  have parts := Int.mul_fdiv_add_fmod n q
  have low := Int.fmod_nonneg_of_pos n positive
  have high := Int.fmod_lt_of_pos n positive
  omega

theorem le_mul_iff_ceil {m s : Int} (positive : 0 < s) (k : Int) : m ≤ k * s ↔ ⌈(m : ℚ) / s⌉ ≤ k := by
  have scale : (0 : ℚ) < s := by exact_mod_cast positive
  rw [Int.ceil_le, div_le_iff₀ scale]
  exact_mod_cast Iff.rfl

theorem fdiv_add_pred {m s : Int} (positive : 0 < s) : Int.fdiv (m + (s - 1)) s = ⌈(m : ℚ) / s⌉ := by
  have bounds := fdiv_bounds (n := m + (s - 1)) positive
  apply le_antisymm
  · by_contra less
    have held := (le_mul_iff_ceil (m := m) positive (Int.fdiv (m + (s - 1)) s - 1)).mpr (by omega)
    linarith
  · rw [← le_mul_iff_ceil positive]
    linarith

theorem getRoceAppBaseCmd_length {config : Config} {port : Int} {base : Perftest}
    (made : getRoceAppBaseCmd config port = .ok base) : perftestLength config = .ok base.length := by
  obtain ⟨⟨app, transport⟩, -, made⟩ := bind_ok made
  obtain ⟨devargs, -, made⟩ := bind_ok made
  obtain ⟨length, known, made⟩ := bind_ok made
  cases made
  exact known

/-- The bytes that `numqps` queue pairs move cover the message, by less than a round too much. -/
def CoversMessage (config : Config) (msgSize : Int) (base : Perftest) : Prop :=
  ∃ n, base.length = .count n ∧ 1 ≤ n ∧ msgSize ≤ config.numqps * n * config.segSize ∧
    config.numqps * n * config.segSize < msgSize + config.numqps * config.segSize

theorem length_of_sized {config : Config} {port msgSize : Int} {base : Perftest} (sleeping : config.polling = false)
    (sized : config.msgSize = some msgSize) (made : getRoceAppBaseCmd config port = .ok base)
    (segment : 1 ≤ config.segSize) (pairs : 1 ≤ config.numqps) :
    base.length = .count (Int.fdiv ⌈(msgSize : ℚ) / config.segSize⌉ config.numqps) := by
  have lasts := getRoceAppBaseCmd_length made
  have some_segment : config.segSize ≠ 0 := by omega
  have some_pair : config.numqps ≠ 0 := by omega
  simp only [perftestLength, sleeping, numsegsFor, sized, numsegsForMsgsize, attr, floorDiv, if_neg some_segment,
    if_neg some_pair, Bind.bind, Except.bind, Option.isSome_some, if_true, Bool.false_eq_true, if_false,
    fdiv_add_pred (show 0 < config.segSize by omega)] at lasts
  exact (Except.ok.inj lasts).symm

/-- The rounding down over the queue pairs undoes the rounding up over the segments, unless the
    segments of the message go round evenly. -/
theorem covers_message_iff {config : Config} {port msgSize : Int} {base : Perftest}
    (sleeping : config.polling = false) (sized : config.msgSize = some msgSize) (message : 1 ≤ msgSize)
    (segment : 1 ≤ config.segSize) (pairs : 1 ≤ config.numqps) (made : getRoceAppBaseCmd config port = .ok base) :
    CoversMessage config msgSize base ↔ config.numqps ∣ ⌈(msgSize : ℚ) / config.segSize⌉ := by
  have some_segment : 0 < config.segSize := by omega
  have some_pair : 0 < config.numqps := by omega
  have enough := le_mul_iff_ceil (m := msgSize) some_segment
  rw [CoversMessage, length_of_sized sleeping sized made segment pairs]
  generalize ⌈(msgSize : ℚ) / config.segSize⌉ = numsegs at enough ⊢
  constructor
  · rintro ⟨n, same, -, covers, -⟩
    cases same
    have all := (enough _).mp covers
    have most := (fdiv_bounds (n := numsegs) some_pair).2
    exact ⟨Int.fdiv numsegs config.numqps, le_antisymm all most⟩
  · rintro ⟨n, rfl⟩
    rw [Int.mul_fdiv_cancel_left n (by omega)]
    have covers := (enough (config.numqps * n)).mpr le_rfl
    have needed : ¬ msgSize ≤ (config.numqps * n - 1) * config.segSize := by
      rw [enough]
      omega
    have some_round : 1 ≤ n := by
      by_contra none
      have empty : ¬ msgSize ≤ 0 * config.segSize := by omega
      rw [enough] at empty
      nlinarith
    have more : config.segSize ≤ config.numqps * config.segSize := le_mul_of_one_le_left (by omega) pairs
    exact ⟨n, rfl, some_round, covers, by linarith⟩

def threeSegments : Config :=
  { cpuExpConfigDefaults "/hw2" with
    framework := RoCE
    msgSize := some 49152
    numqps := 2 }

theorem covers_message_four :
    ∃ base, getRoceAppBaseCmd { threeSegments with msgSize := some 65536 } 53282 = .ok base ∧
      CoversMessage { threeSegments with msgSize := some 65536 } 65536 base :=
  ⟨_, rfl, (covers_message_iff rfl rfl (by decide) (by decide) (by decide) rfl).mpr (by decide +kernel)⟩

/-- One segment for each pair: the third is never sent. -/
theorem third_segment_lost : ∃ base, getRoceAppBaseCmd threeSegments 53282 = .ok base ∧
    base.length = .count 1 ∧ ¬ CoversMessage threeSegments 49152 base := by
  refine ⟨_, rfl, rfl, ?_⟩
  rintro ⟨n, same, -, covers, -⟩
  cases same
  exact absurd covers (by decide)

def defaults : Config := cpuExpConfigDefaults "/hw2"

end RdmaExps.Cluster
