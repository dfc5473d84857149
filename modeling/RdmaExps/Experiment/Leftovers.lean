import RdmaExps.Cluster.Kill
import RdmaExps.Experiment.Resume
import RdmaExps.Experiment.Roles

namespace RdmaExps.Experiment

open RdmaExps.Python RdmaExps.Cluster

/-- The effect starts a server of the program on the host. -/
def starts (host : Host) (program : String) : Effect → Bool
  | .serve other _ name => other = host ∧ name = program
  | .dial _ _ _ => false
  | .kill _ _ => false

section Table

variable {table : ProcessTable} {host : Host} {program : String} {effects : List Effect}

theorem afterAll_two (table : ProcessTable) (front back : List Effect) :
    table.afterAll (front ++ back) = (table.afterAll front).afterAll back := List.foldl_append

theorem count_after (table : ProcessTable) {effect : Effect} (spared : effect ≠ .kill host program) :
    (table.after effect host).count program =
      (table host).count program + if starts host program effect then 1 else 0 := by
  cases effect with
  | serve other ports name =>
    by_cases here : host = other
    · subst here
      by_cases named : program = name
      · simp [ProcessTable.after, starts, named]
      · simp [ProcessTable.after, starts, named, Ne.symm named]
    · simp [ProcessTable.after, starts, here, Ne.symm here]
  | dial other targets alone => simp [ProcessTable.after, starts]
  | kill other name =>
    by_cases here : host = other
    · subst here
      have differ : program ≠ name := fun same => spared (same ▸ rfl)
      simp [ProcessTable.after, starts, differ]
    · simp [ProcessTable.after, starts, here]

/-- Without a `killall`, the processes of a program are those from before and those started. -/
theorem count_afterAll (table : ProcessTable) (spared : Effect.kill host program ∉ effects) :
    (table.afterAll effects host).count program = (table host).count program + effects.countP (starts host program) := by
  induction effects generalizing table with
  | nil => rfl
  | cons effect effects ih =>
    simp only [List.mem_cons, not_or] at spared
    have first := count_after table (Ne.symm spared.1)
    have rest := ih (table.after effect) spared.2
    rw [List.countP_cons]
    change ((table.after effect).afterAll effects host).count program = _
    omega

theorem countP_starts_eq_zero (absent : ∀ ports, Effect.serve host ports program ∉ effects) :
    effects.countP (starts host program) = 0 := by
  apply List.countP_eq_zero.mpr
  intro effect member started
  cases effect with
  | serve other ports name =>
    obtain ⟨rfl, rfl⟩ := of_decide_eq_true started
    exact absent ports member
  | dial other targets alone => cases started
  | kill other name => cases started

theorem absent_afterAll (absent : program ∉ table host) (spared : Effect.kill host program ∉ effects)
    (idle : ∀ ports, Effect.serve host ports program ∉ effects) : program ∉ table.afterAll effects host := by
  have counted := count_afterAll table spared
  rw [countP_starts_eq_zero idle, Multiset.count_eq_zero.mpr absent] at counted
  exact Multiset.count_eq_zero.mp counted

end Table

section Plans

variable {config : Config} {host : Host} {program : String}

theorem kill_not_mem_serverPlan (numservers : Nat) : Effect.kill host program ∉ serverPlan config numservers := by
  intro member
  obtain ⟨_, _, _, same⟩ := serverPlan_serves config numservers _ member
  cases same

theorem kill_not_mem_clientPlan : Effect.kill host program ∉ clientPlan config := by
  intro member
  obtain ⟨_, _, _, same⟩ := clientPlan_dials config _ member
  cases same

theorem serve_not_mem_clientPlan (ports : List Int) : Effect.serve host ports program ∉ clientPlan config := by
  intro member
  obtain ⟨_, _, _, same⟩ := clientPlan_dials config _ member
  cases same

theorem serve_not_mem_killPlan (ports : List Int) : Effect.serve host ports program ∉ killPlan config := by
  intro member
  obtain ⟨_, _, same⟩ := killPlan_kills config _ member
  cases same

end Plans

/-- No program that has been started is running where it was. -/
def Tidy (past : List Effect) (table : ProcessTable) : Prop :=
  ∀ host ports program, Effect.serve host ports program ∈ past → program ∉ table host

/-- The servers of the incast program are started on the server host only. -/
def NoStray (config : Config) : Prop :=
  config.framework = DCTCP → config.msgSize.isSome = true → ∀ host ∈ config.clientNames, host = config.server

section Rounds

variable {lib : Lib} {roneCodeDir : String} {config : Config} {past : List Effect} {table : ProcessTable}
  {files : String → UserConfig} {disk : Disk} {trace : List Step}

theorem tidy_of_round (known : config.framework ∈ TRANSPORTS) (stays : OnServerHost config) (tidy : Tidy past table) :
    Tidy (past ++ (killPlan config ++ serverPlan config 1 ++ clientPlan config ++ killPlan config))
      (table.afterAll (killPlan config ++ serverPlan config 1 ++ clientPlan config ++ killPlan config)) := by
  intro host ports program started
  by_cases killed : Effect.kill host program ∈ killPlan config
  · rw [afterAll_two]
    exact ProcessTable.not_mem_afterAll_of_killed (killPlan_kills config) (.inr killed)
  · have idle : ∀ ports, Effect.serve host ports program ∉ serverPlan config 1 := by
      intro ports served
      exact killed ((plan_killed known).mpr stays host ports program served)
    have before : Effect.serve host ports program ∈ past := by
      simpa [idle, serve_not_mem_killPlan, serve_not_mem_clientPlan] using started
    apply absent_afterAll (tidy host ports program before)
    · simp [killed, kill_not_mem_serverPlan, kill_not_mem_clientPlan]
    · simp [idle, serve_not_mem_killPlan, serve_not_mem_clientPlan]

theorem tidy_of_experiment {results : Results} (runs : (runCpuUtilExp lib config).Runs trace (.ok results))
    (stays : NoStray config) (tidy : Tidy past table) :
    Tidy (past ++ hostEffects trace) (table.afterAll (hostEffects trace)) := by
  obtain ⟨hosts, happenings, clients, measured, does⟩ := runs_runCpuUtilExp runs
  obtain ⟨completes, measures, -⟩ := runs_measureCpuUtil measured
  have connected : OnServerHost (connectedTo config hosts) := by
    intro dctcp sized host member
    apply stays dctcp sized host
    rw [Config.clientNames, clients]
    exact member
  rw [does, measures]
  exact tidy_of_round completes.known connected tidy

theorem runs_configured {skipExisting : Bool} {entry : String × Nat} (honest : Honest files disk trace)
    (runs : (runConfig lib roneCodeDir skipExisting entry).Runs trace (.ok ())) :
    hostEffects trace = [] ∨ ∃ experiment results, hostEffects trace = hostEffects experiment ∧
      (runCpuUtilExp lib (configAt roneCodeDir (files entry.1) entry.2)).Runs experiment (.ok results) := by
  obtain ⟨front, back, user, rfl, load, runs_look⟩ := Prog.runs_bind.mp runs
  obtain ⟨look, rest, skip, rfl, looks, later⟩ := Prog.runs_bind.mp runs_look
  obtain ⟨loads, rfl, loading⟩ := runs_inr load
  have asked : loads.map Event.inr = [(⟨.inr (.loadConfig entry.1), .ok user⟩ : Step)] := by
    rw [Prog.runs_call.mp loading]
    rfl
  rw [asked] at honest
  obtain ⟨rfl, -⟩ := honest
  rw [hostEffects_append, hostEffects_append, runs_files load, runs_files looks]
  cases skip with
  | true =>
    rw [show rest = [] from later.1]
    exact .inl rfl
  | false =>
    obtain ⟨front, back, _, rfl, sleep, runs_exp⟩ := Prog.runs_bind.mp later
    obtain ⟨experiment, final, results, rfl, measure, last⟩ := Prog.runs_bind.mp runs_exp
    obtain ⟨sleeps, slept, same⟩ := runs_host sleep
    rw [(Prog.runs_pure.mp last).1, hostEffects_append, same, runs_ask slept, List.append_nil]
    exact .inr ⟨experiment, results, rfl, measure⟩

theorem tidy_of_rounds {skipExisting : Bool} {entries : List (String × Nat)} {values : List Unit}
    (honest : Honest files disk trace)
    (runs : (entries.mapM (runConfig lib roneCodeDir skipExisting)).Runs trace (.ok values))
    (stays : ∀ entry ∈ entries, NoStray (cpuUtilExpConfig roneCodeDir (files entry.1))) (tidy : Tidy past table) :
    Tidy (past ++ hostEffects trace) (table.afterAll (hostEffects trace)) := by
  induction entries generalizing disk trace values past table with
  | nil =>
    rw [runs.1]
    simpa [hostEffects, ProcessTable.afterAll] using tidy
  | cons entry entries ih =>
    obtain ⟨front, back, value, rest, rfl, first, later, -⟩ := Prog.runs_mapM_cons.mp runs
    obtain ⟨honest_front, honest_back⟩ := honest_append.mp honest
    have here : Tidy (past ++ hostEffects front) (table.afterAll (hostEffects front)) := by
      rcases runs_configured honest_front first with idle | ⟨experiment, results, same, measured⟩
      · simpa [idle, ProcessTable.afterAll] using tidy
      · rw [same]
        exact tidy_of_experiment measured (stays entry List.mem_cons_self) tidy
    have all := ih honest_back later (fun other member => stays other (List.mem_cons_of_mem entry member)) here
    rw [hostEffects_append, afterAll_two, ← List.append_assoc]
    exact all

/-- An invocation that runs to its end leaves none of its servers running, whatever was running before. -/
theorem main_leaves_no_server {configs : List String} {skipExisting : Bool} (honest : Honest files disk trace)
    (stays : ∀ fname ∈ configs, NoStray (cpuUtilExpConfig roneCodeDir (files fname)))
    (runs : (main lib roneCodeDir configs skipExisting).Runs trace (.ok ())) (table : ProcessTable) :
    Tidy (hostEffects trace) (table.afterAll (hostEffects trace)) := by
  have start : Tidy [] table := fun host ports program nothing => absurd nothing List.not_mem_nil
  rw [main] at runs
  by_cases empty : configs.isEmpty
  · rw [if_pos empty] at runs
    obtain ⟨front, back, results, rfl, measured, last⟩ := Prog.runs_bind.mp runs
    rw [(Prog.runs_pure.mp last).1, List.append_nil]
    have stay : NoStray (cpuUtilExpConfig roneCodeDir noUserConfig) :=
      fun dctcp => absurd dctcp (show ¬ RoNE = DCTCP by decide)
    exact tidy_of_experiment measured stay start
  · rw [if_neg empty] at runs
    obtain ⟨front, back, values, rfl, rounds, last⟩ := Prog.runs_bind.mp runs
    rw [(Prog.runs_pure.mp last).1, List.append_nil] at honest ⊢
    exact tidy_of_rounds honest rounds
      (fun entry member => stays entry.1 (List.fst_mem_of_mem_zipIdx member)) start

end Rounds

theorem no_server_left_write : ∃ trace, (main textLib "/hw2" writeBatch.configs true).Runs trace (.ok ()) ∧
    ∀ table : ProcessTable, Tidy (hostEffects trace) (table.afterAll (hostEffects trace)) := by
  obtain ⟨_, runs⟩ := Prog.runs_of_isOk (batchAnswers false) (main textLib "/hw2" writeBatch.configs true)
    (by decide +kernel)
  have honest : Honest writeBatch.files noFiles.store (batchTrace false) := by decide +kernel
  refine ⟨_, runs, main_leaves_no_server honest ?_ runs⟩
  intro fname _ dctcp
  exact absurd dctcp (show ¬ RoCE = DCTCP by decide)

end RdmaExps.Experiment
