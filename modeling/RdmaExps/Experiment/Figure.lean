import RdmaExps.Experiment.Generated
import RdmaExps.Experiment.Roles

namespace RdmaExps.Experiment

open RdmaExps.Python RdmaExps.Cluster RdmaExps.Measure
open RdmaExps.Segments (SegLists Triple RunResult)

def dstatCommand (config : Config) : Command :=
  .dstat (config.roneCodeDir ++ "/exps/monitorDstat.py") (truncate config.runlen)

/-- The entries that `process_dstat_output_common` makes of the busy percentages of the intervals. -/
def cpuData (lib : Lib) (busy : List Rat) : Data :=
  .dict [("50p", .num (lib.getPercentile busy 50)), ("avg", .num (busy.sum / busy.length)),
    ("ivals", .list (busy.map .num))]

/-- The summary is that of a stream that dstat printed on its host. -/
def Streamed (lib : Lib) (config : Config) (trace : List Happening) (summary : Summary) (busy : List Rat) : Prop :=
  ∃ text utils, (⟨.inr (.out ⟨summary.source, dstatCommand config⟩), .ok text⟩ : Happening) ∈ trace ∧
    lib.yamlLoad text = .ok (.list utils) ∧ (utils.drop 2).mapM busyCpu = .ok busy ∧
    summary.results = cpuData lib busy

section Streams

variable {lib : Lib} {config : Config} {trace : List Happening}

theorem processDstatOutputCommon_cases {utils : List Data} {data : Data}
    (processed : processDstatOutputCommon lib.getPercentile utils = .ok data) :
    ∃ busy, (utils.drop 2).mapM busyCpu = .ok busy ∧ data = cpuData lib busy := by
  obtain ⟨busy, sums, processed⟩ := bind_ok processed
  obtain ⟨avg, divided, last⟩ := bind_ok processed
  unfold trueDiv at divided
  split at divided
  · cases divided
  · cases divided
    exact ⟨busy, sums, (Except.ok.inj last).symm⟩

theorem toList_ok {data : Data} {items : List Data} (listed : data.toList = .ok items) : data = .list items := by
  cases data with
  | list others => rw [Except.ok.inj listed]
  | none => cases listed
  | num value => cases listed
  | str value => cases listed
  | dict entries => cases listed

theorem streamed_of_process {proc : Proc} {summary : Summary} (started : proc.command = dstatCommand config)
    (runs : (liftM (processRhostDstatProc lib proc) : Run Summary).Runs trace (.ok summary)) :
    ∃ busy, Streamed lib config trace summary busy := by
  obtain ⟨reads, rfl, reading⟩ := Prog.runs_inr.mp runs
  obtain ⟨front, back, text, rfl, first, runs⟩ := Prog.runs_bind.mp reading
  obtain ⟨doc, loaded, runs⟩ := Prog.runs_lift_bind.mp runs
  obtain ⟨utils, listed, runs⟩ := Prog.runs_lift_bind.mp runs
  obtain ⟨data, processed, last⟩ := Prog.runs_lift_bind.mp runs
  obtain ⟨busy, sums, shape⟩ := processDstatOutputCommon_cases processed
  have filed : summary = ⟨proc.host, data⟩ := Except.ok.inj (Prog.runs_pure.mp last).2
  have same : (⟨proc.host, dstatCommand config⟩ : Proc) = proc := by rw [← started]
  rw [toList_ok listed] at loaded
  refine ⟨busy, text, utils, ?_, loaded, sums, by rw [filed, shape]⟩
  rw [filed, same, Prog.runs_call.mp first, List.map_append]
  exact List.mem_append_left _ List.mem_cons_self

theorem Streamed.within {inner : List Happening} {summary : Summary} {busy : List Rat} (inside : inner ⊆ trace)
    (streamed : Streamed lib config inner summary busy) : Streamed lib config trace summary busy := by
  obtain ⟨text, utils, read, rest⟩ := streamed
  exact ⟨text, utils, inside read, rest⟩

theorem started_dstat {rssh : Host} {proc : Proc}
    (runs : (startRhostDstatProc config rssh config.runlen).Runs trace (.ok proc)) :
    proc.command = dstatCommand config := by
  rw [(runs_execCommand runs).2, dstatCommand]

theorem streamed_of_measure {results : Results} (runs : (measureCpuUtil lib config).Runs trace (.ok results)) :
    ∃ busy, Streamed lib config trace results.clientCpu busy := by
  obtain ⟨t₁, u₁, _, rfl, -, runs⟩ := Prog.runs_bind.mp runs
  obtain ⟨t₂, u₂, _, rfl, -, runs⟩ := Prog.runs_bind.mp runs
  obtain ⟨t₃, u₃, clients, rfl, -, runs⟩ := Prog.runs_bind.mp runs
  obtain ⟨_, -, runs⟩ := Prog.runs_lift_bind.mp runs
  obtain ⟨serverSsh, -, runs⟩ := Prog.runs_lift_bind.mp runs
  obtain ⟨t₄, u₄, serverProc, rfl, server_dstat, runs⟩ := Prog.runs_bind.mp runs
  obtain ⟨clientSshs, -, runs⟩ := Prog.runs_lift_bind.mp runs
  obtain ⟨clientSsh, -, runs⟩ := Prog.runs_lift_bind.mp runs
  obtain ⟨t₅, u₅, clientProc, rfl, client_dstat, runs⟩ := Prog.runs_bind.mp runs
  obtain ⟨t₆, u₆, _, rfl, -, runs⟩ := Prog.runs_bind.mp runs
  obtain ⟨t₇, u₇, serverSummary, rfl, server_summary, runs⟩ := Prog.runs_bind.mp runs
  obtain ⟨t₈, u₈, clientSummary, rfl, client_summary, runs⟩ := Prog.runs_bind.mp runs
  obtain ⟨t₉, u₉, network, rfl, -, last⟩ := Prog.runs_bind.mp runs
  obtain ⟨busy, server⟩ := streamed_of_process (started_dstat server_dstat) server_summary
  obtain ⟨busy', client⟩ := streamed_of_process (started_dstat client_dstat) client_summary
  rw [Except.ok.inj (Prog.runs_pure.mp last).2]
  split
  · exact ⟨busy, server.within (by intro event; simp_all)⟩
  · exact ⟨busy', client.within (by intro event; simp_all)⟩

end Streams

/-- What `gen_rdma_seg_lines.py` takes from the document of a run. -/
def clientCpu (doc : Data) : Except PyErr RunResult := do
  let cpu ← doc.getItem "client_cpu"
  let avg ← cpu.getItem "avg"
  let p50 ← cpu.getItem "50p"
  return ⟨← avg.toNum, ← p50.toNum⟩

def loadRunResult (lib : Lib) (text : List Char) : Except PyErr RunResult := do
  let doc ← lib.yamlLoad text
  clientCpu doc

/-- The results directory as the script reads it. -/
def resultsOn (lib : Lib) (disk : Disk) : Segments.Results :=
  fun path => (disk path).bind fun text => (loadRunResult lib text).toOption

/-- YAML reads back what it has written of the client's CPU use. -/
def ReadsBack (lib : Lib) : Prop := ∀ (results : Results) (cpu : RunResult), clientCpu results.toData = .ok cpu →
  loadRunResult lib (lib.yamlDump results.toData) = .ok cpu

/-- A completed measurement within the history, and the busy percentages of the host it files as the client. -/
structure Measurement (lib : Lib) (config : Config) (history : List Step) where
  taken : List Happening
  results : Results
  busy : List Rat
  within : taken.map Event.inl <:+: history
  runs : (connectHosts config >>= measureCpuUtil lib).Runs taken (.ok results)
  streamed : Streamed lib config taken results.clientCpu busy

namespace Measurement

variable {lib : Lib} {config : Config} {history : List Step}

def median (m : Measurement lib config history) : Rat := lib.getPercentile m.busy 50

def mean (m : Measurement lib config history) : Rat := m.busy.sum / m.busy.length

/-- The host filed as the client ran a benchmark client. -/
def OfClient (m : Measurement lib config history) : Prop :=
  ∃ targets alone, Effect.dial m.results.clientCpu.source targets alone ∈ effects m.taken

theorem exists_of_recorded {content : List Char} (recorded : Recorded lib config history content) :
    ∃ m : Measurement lib config history, content = lib.yamlDump m.results.toData := by
  obtain ⟨taken, results, within, runs, document⟩ := recorded
  obtain ⟨front, back, connected, rfl, connect, measure⟩ := Prog.runs_bind.mp runs
  obtain ⟨hosts, -, -, rfl⟩ := runs_connectHosts connect
  obtain ⟨busy, streamed⟩ := streamed_of_measure measure
  have inside := streamed.within (List.subset_append_right front back)
  exact ⟨⟨_, results, busy, within, runs, inside⟩, document⟩

theorem clientCpu_eq (m : Measurement lib config history) : clientCpu m.results.toData = .ok ⟨m.mean, m.median⟩ := by
  obtain ⟨_, _, -, -, -, shape⟩ := m.streamed
  unfold clientCpu Results.toData
  rw [shape]
  rfl

theorem ofClient (m : Measurement lib config history) (tells : VerbTells config) : m.OfClient := by
  obtain ⟨front, back, connected, same, connect, measure⟩ := Prog.runs_bind.mp m.runs
  obtain ⟨hosts, clients, silent, rfl⟩ := runs_connectHosts connect
  obtain ⟨completes, does, first, rest, sshs, -, source⟩ := runs_measureCpuUtil measure
  obtain rfl : hosts = first :: rest := Option.some.inj sshs
  have some_client : (connectedTo config (first :: rest)).clientNames ≠ [] := by
    simp [Config.clientNames, connectedTo, clients]
  have turned := (verbTells_iff completes).mp tells
  have dials : ∃ targets alone, Effect.dial m.results.clientCpu.source targets alone ∈
      clientPlan (connectedTo config (first :: rest)) := by
    rw [dials_iff completes.known some_client, source]
    by_cases reversed : Reversed (connectedTo config (first :: rest))
    · rw [if_pos reversed, if_pos (turned.mp reversed)]
    · rw [if_neg reversed, if_neg (mt turned.mpr reversed)]
      exact List.mem_cons_self
  obtain ⟨targets, alone, member⟩ := dials
  refine ⟨targets, alone, ?_⟩
  rw [same, effects_append, silent, does]
  simp [member]

end Measurement

section Figure

variable {lib : Lib} {cwd roneCodeDir : String} {lists : SegLists}

theorem resultsOn_recorded {disk : Disk} {config : Config} {history : List Step} {path : String} {content : List Char}
    (readsBack : ReadsBack lib) (here : disk path = some content) (recorded : Recorded lib config history content) :
    ∃ m : Measurement lib config history, resultsOn lib disk path = some ⟨m.mean, m.median⟩ := by
  obtain ⟨m, rfl⟩ := Measurement.exists_of_recorded recorded
  refine ⟨m, ?_⟩
  rw [resultsOn, here, Option.bind_some, readsBack m.results _ m.clientCpu_eq]
  rfl

theorem genBySegsize_ok {results : Segments.Results} {verb : String} (single : lists.verbs = [verb])
    (signals : lists.signalIfreq ≠ []) (sizes : lists.segSizes ≠ [])
    {lines : List (Segments.Line (Option Rat))} (built : Segments.segsizeLines cwd lists results = .ok lines) :
    ∃ outfname plot, Segments.genBySegsize cwd lists results = .ok (outfname, plot) ∧ plot.lines = lines := by
  have last_verb : Segments.leftOver "verb" lists.verbs = .ok verb := by
    rw [single]
    rfl
  have last_size : Segments.leftOver "seg_size" (if lists.signalIfreq = [] then [] else lists.segSizes) =
      .ok (lists.segSizes.getLast sizes) := by
    rw [if_neg signals, Segments.leftOver, List.getLast?_eq_some_getLast sizes]
  have last_signal : Segments.leftOver "signal_ifreq" lists.signalIfreq = .ok (lists.signalIfreq.getLast signals) := by
    rw [Segments.leftOver, List.getLast?_eq_some_getLast signals]
  unfold Segments.genBySegsize
  rw [built, last_verb, last_size, last_signal]
  simp only [Bind.bind, Except.bind, Segments.getRdmaSegConfig_ok, Pure.pure, Except.pure]
  exact ⟨_, _, rfl, rfl⟩

/-- Once an invocation has run to its end, however many before it were cut short, the figure has one point for each
    segment size and signalling interval with a selected number of bytes a signal, and no others. Its height is the
    mean over the runs of the median CPU use in a completed measurement of that configuration. -/
theorem figure_of_measurements (readsBack : ReadsBack lib) (handed : Handed cwd lists) {verb : String}
    (roce : RoCE ∈ lists.frameworks) (single : lists.verbs = [verb])
    (signals : lists.signalIfreq ≠ [] ∧ lists.signalIfreq.Nodup ∧ ∀ f ∈ lists.signalIfreq, 0 < f)
    (sizes : lists.segSizes ≠ [] ∧ lists.segSizes.Nodup ∧ ∀ s ∈ lists.segSizes, 0 < s) {start s : State}
    (fresh : Fresh (handed.batch roneCodeDir) start)
    (reached : Relation.ReflTransGen (Invoke lib (handed.batch roneCodeDir) Uninterrupted) start s)
    {trace : List Step} (runs : (main lib roneCodeDir handed.names true).Runs trace (.ok ()))
    (honest : Honest handed.files s.store trace) :
    ∃ median : Triple → Int → Rat,
      (∀ t ∈ lists.triples, ∀ run ∈ lists.runs, ∃ fi,
        ∃ m : Measurement lib (runConfigAt roneCodeDir cwd t run fi) (s.next trace).log,
          m.median = median t run ∧ (t.verb = READ_RC → m.OfClient)) ∧
      ∃ outfname plot out keys,
        Segments.genBySegsize cwd lists (resultsOn lib (s.next trace).store) = .ok (outfname, plot) ∧
        Segments.convertPltdata plot.lines = .ok out ∧ keys.Nodup ∧
        List.Forall₂ (fun signalSize nl => nl.lname = Segments.getSegSizeStr signalSize) keys out.lines ∧
        (Segments.outputPoints keys out.lines).Perm
          ((lists.triples.filter fun t => Segments.Selected t.signalSize).map fun t =>
            (t.key, Segments.meanOrNone (lists.runs.map (median t)))) := by
  have grows := (Archive.grows_of_reaches lasting_earned (fun _ _ => Invoke.grows) reached)
  have loads : Honest (handed.batch roneCodeDir).files s.store trace := honest
  have ends : (main lib roneCodeDir (handed.batch roneCodeDir).configs true).Runs trace (.ok ()) := runs
  obtain ⟨last, fills⟩ := runs_main loads ends
  have sound := last.sound lasting_earned (grows.sound lasting_earned fresh.sound)
  have point : ∀ t ∈ lists.triples, ∀ run ∈ lists.runs, ∃ fi,
      ∃ m : Measurement lib (runConfigAt roneCodeDir cwd t run fi) (s.next trace).log,
        resultsOn lib (s.next trace).store (t.resultFile cwd run) = some ⟨m.mean, m.median⟩ := by
    intro t member run listed
    obtain ⟨entry, owns, same⟩ := handed.owns roneCodeDir roce member listed
    obtain ⟨content, here⟩ := Option.isSome_iff_exists.mp (fills entry owns.1 _ owns)
    have recorded := sound _ content here entry owns
    rw [same] at recorded
    exact ⟨entry.2, resultsOn_recorded readsBack here recorded⟩
  let median : Triple → Int → Rat := fun t run =>
    ((resultsOn lib (s.next trace).store (t.resultFile cwd run)).map RunResult.p50).getD 0
  refine ⟨median, ?_, ?_⟩
  · intro t member run listed
    obtain ⟨fi, m, found⟩ := point t member run listed
    refine ⟨fi, m, ?_, ?_⟩
    · simp [median, found]
    · intro read
      apply m.ofClient
      exact ⟨fun _ => read, fun dctcp => absurd dctcp (show ¬ RoCE = DCTCP by decide)⟩
  · have measured : ∀ t ∈ lists.triples, t.measured cwd lists (resultsOn lib (s.next trace).store) =
        Segments.meanOrNone (lists.runs.map (median t)) := by
      intro t member
      apply congrArg Segments.meanOrNone
      apply List.filterMap_eq_map_iff_forall_eq_some.mpr
      intro run listed
      obtain ⟨fi, m, found⟩ := point t member run listed
      simp [median, found]
    have verbs : lists.verbs.Nodup ∧ lists.verbs.length ≤ 1 := by simp [single]
    have distinct := Segments.keys_nodup verbs.1 signals.2.1 sizes.2.1 sizes.2.2 verbs.2
    have kept : Segments.PointsKept cwd lists (resultsOn lib (s.next trace).store) :=
      (Segments.pointsKept_iff_nodup signals.2.2).mpr (distinct.sublist (List.filter_sublist.map Triple.key))
    obtain ⟨lines, out, keys, built, converted, nodup, named, points⟩ := kept
    obtain ⟨outfname, plot, generated, rfl⟩ := genBySegsize_ok single signals.1 sizes.1 built
    refine ⟨outfname, plot, out, keys, generated, converted, nodup, named, points.trans ?_⟩
    apply List.Perm.of_eq
    apply List.map_congr_left
    intro t member
    rw [measured t (List.mem_of_mem_filter member)]
    rfl

end Figure

def cpuDoc (avg p50 : Rat) : Data := .dict [("client_cpu", .dict [("50p", .num p50), ("avg", .num avg)])]

/-- A library that knows the texts of the sample; it writes other documents as the number of their summary. -/
def cpuLib : Lib where
  yamlLoad text :=
    if text = dstatText then .ok dstatData
    else if text = resultsText then .ok (cpuDoc 100 100)
    else
      match (Encodable.decode text.length : Option (Rat × Rat)) with
      | some (avg, p50) => .ok (cpuDoc avg p50)
      | none => .error (.external "yaml")
  yamlDump data :=
    match clientCpu data with
    | .ok cpu =>
      if cpu.avg = 100 ∧ cpu.p50 = 100 then resultsText else List.replicate (Encodable.encode (cpu.avg, cpu.p50)) 'n'
    | .error _ => []
  jsonLoad _ := .error (.valueError "No JSON object could be decoded")
  getPercentile data _ := data.headD 0

theorem replicate_ne {text : List Char} {c : Char} (member : c ∈ text) (differ : c ≠ 'n') (k : Nat) :
    List.replicate k 'n' ≠ text := by
  intro same
  rw [← same] at member
  exact differ (List.eq_of_mem_replicate member)

theorem yamlLoad_replicate (k : Nat) : cpuLib.yamlLoad (List.replicate k 'n') =
    match (Encodable.decode k : Option (Rat × Rat)) with
    | some (avg, p50) => .ok (cpuDoc avg p50)
    | none => .error (.external "yaml") := by
  have dash : '-' ∈ dstatText := by decide +kernel
  have colon : ':' ∈ resultsText := by decide +kernel
  have dstat := replicate_ne dash (by decide) k
  have sampled := replicate_ne colon (by decide) k
  dsimp only [cpuLib]
  rw [if_neg dstat, if_neg sampled, List.length_replicate]

theorem readsBack_cpuLib : ReadsBack cpuLib := by
  intro results cpu read
  unfold loadRunResult
  by_cases sample : cpu.avg = 100 ∧ cpu.p50 = 100
  · have written : cpuLib.yamlDump results.toData = resultsText := by
      dsimp only [cpuLib]
      rw [read]
      exact if_pos sample
    have texts : resultsText ≠ dstatText := by decide +kernel
    have loaded : cpuLib.yamlLoad resultsText = .ok (cpuDoc 100 100) := by
      dsimp only [cpuLib]
      rw [if_neg texts, if_pos rfl]
    rw [written, loaded]
    obtain ⟨avg, p50⟩ := cpu
    obtain ⟨rfl, rfl⟩ := sample
    rfl
  · have written : cpuLib.yamlDump results.toData = List.replicate (Encodable.encode (cpu.avg, cpu.p50)) 'n' := by
      dsimp only [cpuLib]
      rw [read]
      exact if_neg sample
    rw [written, yamlLoad_replicate, Encodable.encodek]
    rfl

def oneLists : SegLists where
  runs := [0]
  frameworks := [RoCE]
  verbs := [READ_RC]
  segSizes := [16384]
  signalIfreq := [1]

def oneTriple : Triple := ⟨READ_RC, 1, 16384⟩

def oneName : String := "conf/" ++ Segments.baseText RoCE READ_RC 16384 1 0

def oneHanded : Handed "/root" oneLists where
  conf path := if path = oneName then some (tripleConfig "/root" oneTriple 0) else none
  output := by
    have made : Segments.SegTuple.config "/root" ⟨RoCE, READ_RC, 16384, 1, 0⟩ =
        .ok (tripleConfig "/root" oneTriple 0) := Segments.SegTuple.config_ok "/root" _
    have listed : oneLists.tuples = [⟨RoCE, READ_RC, 16384, 1, 0⟩] := rfl
    rw [Segments.main, listed, List.foldlM_cons, made]
    simp only [Bind.bind, Except.bind, Segments.outputConfig, Segments.SegTuple.base_of_config made]
    rfl
  dotFree := by
    intro t member
    rw [List.mem_singleton.mp member]
    exact ⟨by decide, by decide⟩
  names := [oneName]
  nonempty := by decide
  distinct := List.nodup_singleton _
  written := by
    intro name member
    rw [List.mem_singleton.mp member, if_pos rfl]
    rfl
  picked := by
    intro name there _
    by_cases here : name = oneName
    · rw [here]
      exact List.mem_singleton_self _
    · rw [if_neg here] at there
      cases there

def oneAnswers : (request : MainRequest) → Except PyErr request.Reply
  | .inr (.loadConfig _) => .ok (segUser (tripleConfig "/root" oneTriple 0))
  | request => mainAnswers outputs request

def oneTrace : List Step := ((main cpuLib "/hw2" oneHanded.names true).run oneAnswers).1

theorem figure_of_one_run : ∃ (median : Triple → Int → Rat) (outfname : String) (plot : Segments.PlotData)
    (out : Segments.Converted (Option Rat)) (keys : List Int),
    Segments.genBySegsize "/root" oneLists (resultsOn cpuLib (noFiles.next oneTrace).store) = .ok (outfname, plot) ∧
      Segments.convertPltdata plot.lines = .ok out ∧
      (Segments.outputPoints keys out.lines).Perm
        ((oneLists.triples.filter fun t => Segments.Selected t.signalSize).map fun t =>
          (t.key, Segments.meanOrNone (oneLists.runs.map (median t)))) := by
  obtain ⟨_, runs⟩ := Prog.runs_of_isOk oneAnswers (main cpuLib "/hw2" oneHanded.names true) (by decide +kernel)
  have fresh : Fresh (oneHanded.batch "/hw2") noFiles := fun _ _ _ => rfl
  have honest : Honest oneHanded.files noFiles.store oneTrace := by decide +kernel
  obtain ⟨median, -, outfname, plot, out, keys, generated, converted, -, -, points⟩ :=
    figure_of_measurements readsBack_cpuLib oneHanded (by decide) rfl (by decide) (by decide) fresh .refl runs honest
  exact ⟨median, outfname, plot, out, keys, generated, converted, points⟩

end RdmaExps.Experiment
