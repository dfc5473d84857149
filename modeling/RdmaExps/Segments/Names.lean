import RdmaExps.Segments.Conf

namespace RdmaExps.Segments

open RdmaExps.Python

def baseText (framework verb : String) (segSize signalIfreq run : Int) : String :=
  "rdma_seg_cpu" ++ "." ++ framework ++ "." ++ verb ++ "." ++ decimal segSize ++ "seg." ++
    (if framework = RoCE then decimal signalIfreq ++ "sig." else "") ++ decimal run ++ ".yaml"

theorem genBaseOutfname_segConfig (framework verb : String) (segSize signalIfreq run : Int)
    (outf : Option String) :
    genBaseOutfname { segConfig framework verb segSize signalIfreq run with outf := outf } =
      .ok (baseText framework verb segSize signalIfreq run) := by
  unfold baseText
  by_cases roce : framework = RoCE
  · simp only [genBaseOutfname, segConfig, if_pos roce, String.append_assoc]
  · simp only [genBaseOutfname, segConfig, if_neg roce, String.append_assoc, String.empty_append]

theorem getRdmaSegConfig_ok (cwd framework verb : String) (segSize signalIfreq run : Int) :
    getRdmaSegConfig cwd framework verb segSize signalIfreq run =
      .ok { segConfig framework verb segSize signalIfreq run with
        outf := some (cwd ++ "/results" ++ "/res." ++ baseText framework verb segSize signalIfreq run) } := by
  have base : genBaseOutfname (segConfig framework verb segSize signalIfreq run) = _ :=
    genBaseOutfname_segConfig framework verb segSize signalIfreq run none
  simp only [getRdmaSegConfig, base]
  rfl

def baseFields (framework verb : String) (segSize signalIfreq run : Int) : List (List Char) :=
  ["rdma_seg_cpu".toList, framework.toList, verb.toList, (decimal segSize).toList ++ "seg".toList] ++
    (if framework = RoCE then [(decimal signalIfreq).toList ++ "sig".toList] else []) ++
    [(decimal run).toList, "yaml".toList]

theorem dot_not_mem_decimal (n : Int) : '.' ∉ (decimal n).toList :=
  not_mem_decimal n (by decide) (by decide)

theorem baseText_split {framework verb : String} (segSize signalIfreq run : Int)
    (dotFree : '.' ∉ framework.toList ∧ '.' ∉ verb.toList) :
    (baseText framework verb segSize signalIfreq run).toList.splitOn '.' =
      baseFields framework verb segSize signalIfreq run := by
  have joined : (baseText framework verb segSize signalIfreq run).toList =
      ['.'].intercalate (baseFields framework verb segSize signalIfreq run) := by
    unfold baseText
    by_cases roce : framework = RoCE <;> simp [baseFields, roce, List.intercalate]
  have clear : ∀ field ∈ baseFields framework verb segSize signalIfreq run, '.' ∉ field := by
    intro field member
    by_cases roce : framework = RoCE
    · simp only [baseFields, roce, if_true, List.mem_append, List.mem_cons, List.not_mem_nil,
        or_false] at member
      rcases member with ((rfl | rfl | rfl | rfl) | rfl) | rfl | rfl
      all_goals simp [dot_not_mem_decimal, dotFree.2, RoCE]
    · simp only [baseFields, roce, if_false, List.mem_append, List.mem_cons, List.not_mem_nil,
        or_false] at member
      rcases member with (rfl | rfl | rfl | rfl) | rfl | rfl
      all_goals simp [dot_not_mem_decimal, dotFree.1, dotFree.2]
  rw [joined, List.splitOn_intercalate '.' clear (by simp [baseFields])]

theorem decimal_suffix_injective {m n : Int} {suffix : List Char}
    (same : (decimal m).toList ++ suffix = (decimal n).toList ++ suffix) : m = n :=
  decimal_injective (String.toList_inj.mp (List.append_cancel_right same))

theorem baseFields_injective {framework verb framework' verb' : String}
    {segSize signalIfreq run segSize' signalIfreq' run' : Int}
    (same : baseFields framework verb segSize signalIfreq run =
      baseFields framework' verb' segSize' signalIfreq' run') :
    framework = framework' ∧ verb = verb' ∧ segSize = segSize' ∧ run = run' ∧
      (framework = RoCE → signalIfreq = signalIfreq') := by
  have sameFramework : framework = framework' := by
    have second := congrArg (fun fields => fields[1]?) same
    by_cases roce : framework = RoCE <;> by_cases roce' : framework' = RoCE <;>
      simp [baseFields, roce, roce', String.toList_inj] at second ⊢
    all_goals exact second
  subst sameFramework
  by_cases roce : framework = RoCE
  · simp only [baseFields, roce, if_true, List.cons_append, List.nil_append, List.cons.injEq,
      true_and, and_true] at same
    obtain ⟨verbs, segSizes, signals, runs⟩ := same
    exact ⟨rfl, String.toList_inj.mp verbs, decimal_suffix_injective segSizes,
      decimal_injective (String.toList_inj.mp runs), fun _ => decimal_suffix_injective signals⟩
  · simp only [baseFields, roce, if_false, List.cons_append, List.nil_append, List.cons.injEq,
      true_and, and_true, List.append_nil] at same
    obtain ⟨verbs, segSizes, runs⟩ := same
    exact ⟨rfl, String.toList_inj.mp verbs, decimal_suffix_injective segSizes,
      decimal_injective (String.toList_inj.mp runs), fun h => absurd h roce⟩

theorem baseText_injective {framework verb framework' verb' : String}
    {segSize signalIfreq run segSize' signalIfreq' run' : Int}
    (dotFree : '.' ∉ framework.toList ∧ '.' ∉ verb.toList)
    (dotFree' : '.' ∉ framework'.toList ∧ '.' ∉ verb'.toList)
    (same : baseText framework verb segSize signalIfreq run =
      baseText framework' verb' segSize' signalIfreq' run') :
    framework = framework' ∧ verb = verb' ∧ segSize = segSize' ∧ run = run' ∧
      (framework = RoCE → signalIfreq = signalIfreq') := by
  apply baseFields_injective
  rw [← baseText_split segSize signalIfreq run dotFree, same,
    baseText_split segSize' signalIfreq' run' dotFree']

/-- A framework and a verb without a dot: the fields of a name can be told apart. -/
def SegTuple.DotFree (t : SegTuple) : Prop := '.' ∉ t.framework.toList ∧ '.' ∉ t.verb.toList

def SegTuple.baseText (t : SegTuple) : String :=
  Segments.baseText t.framework t.verb t.segSize t.signalIfreq t.run

theorem SegTuple.config_ok (cwd : String) (t : SegTuple) :
    t.config cwd = .ok { segConfig t.framework t.verb t.segSize t.signalIfreq t.run with
      outf := some (cwd ++ "/results" ++ "/res." ++ t.baseText) } :=
  getRdmaSegConfig_ok _ _ _ _ _ _

theorem SegTuple.base_of_config {cwd : String} {t : SegTuple} {config : SegConfig}
    (made : t.config cwd = .ok config) : genBaseOutfname config = .ok t.baseText := by
  rw [t.config_ok, Except.ok.injEq] at made
  subst made
  exact genBaseOutfname_segConfig _ _ _ _ _ _

theorem SegTuple.config_outf {cwd : String} {t : SegTuple} {config : SegConfig}
    (made : t.config cwd = .ok config) :
    config.outf = some (cwd ++ "/results" ++ "/res." ++ t.baseText) := by
  rw [t.config_ok, Except.ok.injEq] at made
  rw [← made]

theorem append_left_cancel (front : String) {a b : String} (same : front ++ a = front ++ b) : a = b := by
  have lists := congrArg String.toList same
  rw [String.toList_append, String.toList_append] at lists
  exact String.toList_inj.mp (List.append_cancel_left lists)

theorem SegTuple.outf_eq_iff {cwd : String} {t t' : SegTuple} {config config' : SegConfig}
    (made : t.config cwd = .ok config) (made' : t'.config cwd = .ok config') :
    config.outf = config'.outf ↔ t.baseText = t'.baseText := by
  rw [config_outf made, config_outf made', Option.some.injEq]
  constructor
  · exact fun same => append_left_cancel _ same
  · intro same
    rw [same]

theorem SegTuple.baseText_injective {t t' : SegTuple} (dotFree : t.DotFree) (dotFree' : t'.DotFree)
    (same : t.baseText = t'.baseText) :
    t.framework = t'.framework ∧ t.verb = t'.verb ∧ t.segSize = t'.segSize ∧ t.run = t'.run ∧
      (t.framework = RoCE → t.signalIfreq = t'.signalIfreq) :=
  Segments.baseText_injective dotFree dotFree' same

/-- Outside RoCE the signalling interval is the one parameter a configuration leaves out. -/
theorem SegTuple.config_eq_of_baseText {cwd : String} {t t' : SegTuple} {config config' : SegConfig}
    (dotFree : t.DotFree) (dotFree' : t'.DotFree)
    (made : t.config cwd = .ok config) (made' : t'.config cwd = .ok config')
    (same : t.baseText = t'.baseText) : config = config' := by
  obtain ⟨framework, verb, segSize, run, signal⟩ := baseText_injective dotFree dotFree' same
  rw [t.config_ok, Except.ok.injEq] at made
  rw [t'.config_ok, Except.ok.injEq] at made'
  rw [← made, ← made', same, framework, verb, segSize, run]
  by_cases roce : t'.framework = RoCE
  · rw [signal (framework.trans roce)]
  · simp only [segConfig, if_neg roce]

theorem outputConfig_keeps {cwd : String} {t t' : SegTuple} {config config' : SegConfig}
    {store store' : ConfStore} (dotFree : t.DotFree) (dotFree' : t'.DotFree)
    (made : t.config cwd = .ok config) (made' : t'.config cwd = .ok config')
    (output : outputConfig store config' = .ok store')
    (there : store ("conf/" ++ t.baseText) = some config) :
    store' ("conf/" ++ t.baseText) = some config := by
  have written : store' = fun path => if path = "conf/" ++ t'.baseText then some config' else store path := by
    simp only [outputConfig, SegTuple.base_of_config made'] at output
    exact (Except.ok.inj output).symm
  subst written
  by_cases same : t.baseText = t'.baseText
  · have equal := SegTuple.config_eq_of_baseText dotFree dotFree' made made' same
    simp only [same, if_true, equal]
  · have other : ¬ "conf/" ++ t.baseText = "conf/" ++ t'.baseText :=
      fun equal => same (append_left_cancel _ equal)
    simp only [if_neg other, there]

theorem outputConfig_writes {cwd : String} {t : SegTuple} {config : SegConfig} {store store' : ConfStore}
    (made : t.config cwd = .ok config) (output : outputConfig store config = .ok store') :
    store' ("conf/" ++ t.baseText) = some config := by
  simp only [outputConfig, SegTuple.base_of_config made] at output
  rw [← Except.ok.inj output]
  exact if_pos rfl

theorem outputAll_keeps {cwd : String} {ts : List SegTuple} {store store' : ConfStore}
    (dotFree : ∀ t ∈ ts, t.DotFree)
    (output : ts.foldlM (fun store t => do outputConfig store (← t.config cwd)) store = .ok store')
    {t : SegTuple} (clear : t.DotFree) {config : SegConfig} (made : t.config cwd = .ok config)
    (there : store ("conf/" ++ t.baseText) = some config ∨ t ∈ ts) :
    store' ("conf/" ++ t.baseText) = some config := by
  induction ts generalizing store with
  | nil =>
    cases output
    exact there.resolve_right (by simp)
  | cons first rest ih =>
    rw [List.foldlM_cons] at output
    obtain ⟨firstConfig, firstMade⟩ : ∃ c, first.config cwd = .ok c := ⟨_, first.config_ok cwd⟩
    obtain ⟨middle, firstOutput⟩ : ∃ middle, outputConfig store firstConfig = .ok middle := by
      simp only [outputConfig, SegTuple.base_of_config firstMade]
      exact ⟨_, rfl⟩
    rw [firstMade] at output
    simp only [Bind.bind, Except.bind, firstOutput] at output
    apply ih (fun u member => dotFree u (List.mem_cons_of_mem _ member)) output
    rcases there with there | member
    · exact .inl (outputConfig_keeps clear (dotFree first (by simp)) made firstMade firstOutput there)
    · rcases List.mem_cons.mp member with rfl | member
      · have equal : firstConfig = config := Except.ok.inj (firstMade.symm.trans made)
        subst equal
        exact .inl (outputConfig_writes made firstOutput)
      · exact .inr member

/-- After `main` every experiment's configuration can be read back from its own file. -/
theorem main_keeps_configs {cwd : String} {lists : SegLists} {store store' : ConfStore}
    (dotFree : ∀ t ∈ lists.tuples, t.DotFree) (output : main cwd lists store = .ok store')
    {t : SegTuple} (member : t ∈ lists.tuples) {config : SegConfig}
    (made : t.config cwd = .ok config) : store' ("conf/" ++ t.baseText) = some config :=
  outputAll_keeps dotFree output (dotFree t member) made (.inr member)

/-- Configurations of equal base name, or of equal result file, are equal, and so are the parameters
    they were built from; writing one never replaces a different one. -/
theorem names_never_clash (cwd : String) {t t' : SegTuple} {config config' : SegConfig}
    (dotFree : t.DotFree) (dotFree' : t'.DotFree)
    (made : t.config cwd = .ok config) (made' : t'.config cwd = .ok config') :
    (genBaseOutfname config = genBaseOutfname config' ↔ config.outf = config'.outf) ∧
    (genBaseOutfname config = genBaseOutfname config' →
      config = config' ∧ t.framework = t'.framework ∧ t.verb = t'.verb ∧ t.segSize = t'.segSize ∧
      t.run = t'.run ∧ (t.framework = RoCE → t.signalIfreq = t'.signalIfreq) ∧
      (t.framework ≠ RoCE → config.signalIfreq = none)) ∧
    (∀ store store' : ConfStore, ∀ base, genBaseOutfname config = .ok base →
      store ("conf/" ++ base) = some config → outputConfig store config' = .ok store' →
      store' ("conf/" ++ base) = some config) := by
  have base := SegTuple.base_of_config made
  have base' := SegTuple.base_of_config made'
  refine ⟨?_, ?_, ?_⟩
  · rw [base, base', Except.ok.injEq]
    exact (SegTuple.outf_eq_iff made made').symm
  · intro same
    rw [base, base', Except.ok.injEq] at same
    obtain ⟨framework, verb, segSize, run, signal⟩ :=
      SegTuple.baseText_injective dotFree dotFree' same
    refine ⟨SegTuple.config_eq_of_baseText dotFree dotFree' made made' same, framework, verb,
      segSize, run, signal, ?_⟩
    intro other
    rw [t.config_ok, Except.ok.injEq] at made
    rw [← made]
    exact if_neg other
  · intro store store' name named there output
    have same : name = t.baseText := Except.ok.inj (named.symm.trans base)
    subst same
    exact outputConfig_keeps dotFree dotFree' made made' output there

theorem names_never_clash_rone :
    ∃ config config' : SegConfig,
      SegTuple.config "/root" ⟨"RoNE", "READ_RC", 1024, 4, 0⟩ = .ok config ∧
      SegTuple.config "/root" ⟨"RoNE", "READ_RC", 1024, 16, 0⟩ = .ok config' ∧ config = config' := by
  let first : SegTuple := ⟨"RoNE", "READ_RC", 1024, 4, 0⟩
  let second : SegTuple := ⟨"RoNE", "READ_RC", 1024, 16, 0⟩
  have firstFree : first.DotFree := ⟨by decide, by decide⟩
  have secondFree : second.DotFree := ⟨by decide, by decide⟩
  have clash := names_never_clash "/root" firstFree secondFree (first.config_ok _) (second.config_ok _)
  refine ⟨_, _, first.config_ok _, second.config_ok _, (clash.2.1 ?_).1⟩
  rw [SegTuple.base_of_config (first.config_ok _), SegTuple.base_of_config (second.config_ok _)]
  rfl

end RdmaExps.Segments
