import RdmaExps.Cluster.Plan
import RdmaExps.Experiment.CpuUtil

namespace RdmaExps.Experiment

open RdmaExps.Python RdmaExps.Cluster RdmaExps.Measure

def hostEffects (trace : List Step) : List Effect :=
  trace.filterMap fun
    | ⟨.inl request, reply⟩ => effectOf ⟨request, reply⟩
    | _ => none

def RanClient (trace : List Step) (host : Host) : Prop :=
  ∃ targets alone, Effect.dial host targets alone ∈ hostEffects trace

def RanServer (trace : List Step) (host : Host) : Prop :=
  ∃ ports program, Effect.serve host ports program ∈ hostEffects trace

/-- Both summaries come from a host that played the role they are filed under. -/
def FiledUnderRole (trace : List Step) (results : Results) : Prop :=
  RanClient trace results.clientCpu.source ∧ RanServer trace results.serverCpu.source

/-- Where the verb alone tells whether the roles are reversed. -/
def VerbTells (config : Config) : Prop :=
  (config.framework = RoCE → config.verb = READ_RC) ∧
  (config.framework = DCTCP → (config.msgSize.isSome = true ↔ config.verb = READ_RC ∨ config.verb = WRITE_RC))

instance (config : Config) : Decidable (VerbTells config) := inferInstanceAs (Decidable ((_ → _) ∧ (_ → _)))

@[simp] theorem hostEffects_append (front back : List Step) :
    hostEffects (front ++ back) = hostEffects front ++ hostEffects back := List.filterMap_append

theorem hostEffects_inl (trace : List Happening) : hostEffects (trace.map Event.inl) = effects trace := by
  rw [hostEffects, List.filterMap_map]
  rfl

theorem runs_host {α : Type} {p : Run α} {trace : List Step} {result : Except PyErr α}
    (runs : (liftM p : Main α).Runs trace result) :
    ∃ happenings, p.Runs happenings result ∧ hostEffects trace = effects happenings := by
  obtain ⟨happenings, rfl, host⟩ := Prog.runs_inl.mp runs
  exact ⟨happenings, host, hostEffects_inl happenings⟩

theorem runs_files {α : Type} {p : Files α} {trace : List Step} {result : Except PyErr α}
    (runs : (liftM p : Main α).Runs trace result) : hostEffects trace = [] := by
  obtain ⟨events, rfl, -⟩ := Prog.runs_inr.mp runs
  rw [hostEffects, List.filterMap_map, List.filterMap_eq_nil_iff]
  intro event _
  rfl

theorem dials_iff {config : Config} (known : config.framework ∈ TRANSPORTS) (some_client : config.clientNames ≠ [])
    (host : Host) : (∃ targets alone, Effect.dial host targets alone ∈ clientPlan config) ↔
      if Reversed config then host = config.serverHost else host ∈ config.clientHosts := by
  have each : ∀ (hosts : List Host) (base : Int) (server : Host),
      (∃ targets alone, Effect.dial host targets alone ∈
        hosts.zipIdx.map fun host => Effect.dial host.1 [(server, base + host.2)] true) ↔ host ∈ hosts := by
    intro hosts base server
    constructor
    · rintro ⟨targets, alone, member⟩
      obtain ⟨⟨other, i⟩, numbered, same⟩ := List.mem_map.mp member
      cases same
      exact List.fst_mem_of_mem_zipIdx numbered
    · intro member
      obtain ⟨i, bound, rfl⟩ := List.mem_iff_getElem.mp member
      exact ⟨_, _, List.mem_map.mpr ⟨(hosts[i], i), List.mem_zipIdx_iff_getElem?.mpr (by simp), rfl⟩⟩
  rcases framework_cases known with ⟨reversed, here⟩ | ⟨direct, here⟩
  · rw [if_pos here]
    rcases reversed with rone | iroce | ⟨roce, read⟩ | ⟨dctcp, sized⟩
    · simp [(plans_rone 1 rone).2]
    · simp [(plans_iroce 1 iroce).2]
    · rw [(plans_read 1 roce read).2]
      constructor
      · rintro ⟨targets, alone, member⟩
        obtain ⟨_, -, same⟩ := List.mem_map.mp member
        cases same
        rfl
      · rintro rfl
        obtain ⟨client, rest, names⟩ := List.exists_cons_of_ne_nil some_client
        rw [names]
        exact ⟨_, _, List.mem_cons_self⟩
    · simp [(plans_incast 1 dctcp sized).2]
  · rw [if_neg here]
    rcases direct with ⟨roce, write⟩ | ⟨dctcp, unsized⟩
    · rw [(plans_write 1 roce write).2]
      exact each _ _ _
    · rw [(plans_iperf3 1 dctcp unsized).2]
      exact each _ _ _

theorem serves_iff {config : Config} (known : config.framework ∈ TRANSPORTS) (host : Host) :
    (∃ ports program, Effect.serve host ports program ∈ serverPlan config 1) ↔
      if Reversed config then host ∈ config.clientHosts else host = config.serverHost := by
  rcases framework_cases known with ⟨reversed, here⟩ | ⟨direct, here⟩
  · rw [if_pos here]
    rcases reversed with rone | iroce | ⟨roce, read⟩ | ⟨dctcp, sized⟩
    · simp [(plans_rone 1 rone).1]
    · simp [(plans_iroce 1 iroce).1]
    · rw [(plans_read 1 roce read).1]
      constructor
      · rintro ⟨ports, program, member⟩
        obtain ⟨⟨other, i⟩, numbered, same⟩ := List.mem_map.mp member
        cases same
        exact List.fst_mem_of_mem_zipIdx numbered
      · intro member
        obtain ⟨i, bound, rfl⟩ := List.mem_iff_getElem.mp member
        exact ⟨_, _, List.mem_map.mpr
          ⟨(config.clientHosts[i], i), List.mem_zipIdx_iff_getElem?.mpr (by simp), rfl⟩⟩
    · simp [(plans_incast 1 dctcp sized).1]
  · rw [if_neg here]
    rcases direct with ⟨roce, write⟩ | ⟨dctcp, unsized⟩
    · simp [(plans_write 1 roce write).1]
    · simp [(plans_iperf3 1 dctcp unsized).1]

theorem runs_startRhostDstatProc {config : Config} {rssh : Host} {runLen : Rat} {trace : List Happening} {proc : Proc}
    (runs : (startRhostDstatProc config rssh runLen).Runs trace (.ok proc)) :
    effects trace = [] ∧ proc.host = rssh := by
  obtain ⟨silent, rfl⟩ := runs_execCommand runs
  exact ⟨silent, rfl⟩

theorem runs_processRhostDstatProc {lib : Lib} {proc : Proc} {trace : List Happening} {summary : Summary}
    (runs : (liftM (processRhostDstatProc lib proc) : Run Summary).Runs trace (.ok summary)) :
    summary.source = proc.host := by
  obtain ⟨reads, -, runs⟩ := Prog.runs_inr.mp runs
  obtain ⟨_, _, text, -, -, runs⟩ := Prog.runs_bind.mp runs
  obtain ⟨_, -, runs⟩ := Prog.runs_lift_bind.mp runs
  obtain ⟨_, -, runs⟩ := Prog.runs_lift_bind.mp runs
  obtain ⟨_, -, last⟩ := Prog.runs_lift_bind.mp runs
  rw [Except.ok.inj (Prog.runs_pure.mp last).2]

/-- Starting the servers of RoCE, or killing them, needs a verb with a benchmark program. -/
theorem verb_of_killed {config : Config} {trace : List Happening} (roce : config.framework = RoCE)
    (runs : (killFrameworkServers config).Runs trace (.ok ())) :
    config.verb = READ_RC ∨ config.verb = READ_UC ∨ config.verb = WRITE_RC ∨ config.verb = WRITE_UC := by
  unfold killFrameworkServers at runs
  rw [if_neg (by simp [roce, TRANSPORTS])] at runs
  dsimp only at runs
  rw [if_neg (by rw [roce]; decide), if_neg (by rw [roce]; decide), if_pos roce] at runs
  obtain ⟨⟨app, transport⟩, known, -⟩ := Prog.runs_lift_bind.mp runs
  unfold verbToAppTransport at known
  by_contra other
  simp only [not_or] at other
  rw [if_neg other.1, if_neg other.2.1, if_neg other.2.2.1, if_neg other.2.2.2] at known
  cases known

theorem incast_verb {lib : Lib} {config : Config} {front back : List Happening} {clients : Clients} {data : Data}
    (incast : config.framework = RoNE ∨ config.framework = iRoCE)
    (started : (startFrameworkClients config).Runs front (.ok clients))
    (processed : (liftM (processFrameworkClientsOutput lib config clients) : Run Data).Runs back (.ok data)) :
    config.verb = READ_RC := by
  rcases (runs_startFrameworkClients started).2.2 incast with read | ⟨write, incasts, pings, rfl⟩
  · exact read
  · exfalso
    obtain ⟨reads, -, runs⟩ := Prog.runs_inr.mp processed
    unfold processFrameworkClientsOutput at runs
    rcases incast with rone | iroce
    · rw [if_neg (by simp [rone, TRANSPORTS])] at runs
      dsimp only at runs
      rw [if_pos rone, processRoneIncastClientsOutput, if_pos write] at runs
      obtain ⟨servers, found, -⟩ := Prog.runs_lift_bind.mp runs
      cases found
    · rw [if_neg (by simp [iroce, TRANSPORTS])] at runs
      dsimp only at runs
      rw [if_neg (by rw [iroce]; decide), if_pos iroce, processRoceIncastClientsOutput, if_pos write] at runs
      obtain ⟨servers, found, -⟩ := Prog.runs_lift_bind.mp runs
      cases found

/-- What a configuration is like on which the experiment completes. -/
structure Completes (config : Config) : Prop where
  known : config.framework ∈ TRANSPORTS
  roce : config.framework = RoCE → config.verb = READ_RC ∨ config.verb = READ_UC ∨ config.verb = WRITE_RC
  incast : config.framework = RoNE ∨ config.framework = iRoCE → config.verb = READ_RC

theorem runs_measureCpuUtil {lib : Lib} {config : Config} {trace : List Happening} {results : Results}
    (runs : (measureCpuUtil lib config).Runs trace (.ok results)) :
    Completes config ∧ effects trace = killPlan config ++ serverPlan config 1 ++ clientPlan config ∧
    ∃ first rest, config.clientSshs = some (first :: rest) ∧
      results.serverCpu.source = (if swaps config then first else config.serverHost) ∧
      results.clientCpu.source = (if swaps config then config.serverHost else first) := by
  obtain ⟨t₁, _, _, rfl, killed, runs⟩ := Prog.runs_bind.mp runs
  obtain ⟨t₂, _, _, rfl, served, runs⟩ := Prog.runs_bind.mp runs
  obtain ⟨t₃, _, clients, rfl, started, runs⟩ := Prog.runs_bind.mp runs
  obtain ⟨_, checked, runs⟩ := Prog.runs_lift_bind.mp runs
  obtain ⟨serverSsh, server, runs⟩ := Prog.runs_lift_bind.mp runs
  obtain ⟨t₄, _, serverProc, rfl, server_dstat, runs⟩ := Prog.runs_bind.mp runs
  obtain ⟨clientSshs, sshs, runs⟩ := Prog.runs_lift_bind.mp runs
  obtain ⟨clientSsh, first_client, runs⟩ := Prog.runs_lift_bind.mp runs
  obtain ⟨t₅, _, clientProc, rfl, client_dstat, runs⟩ := Prog.runs_bind.mp runs
  obtain ⟨t₆, _, _, rfl, slept, runs⟩ := Prog.runs_bind.mp runs
  obtain ⟨t₇, _, serverSummary, rfl, server_summary, runs⟩ := Prog.runs_bind.mp runs
  obtain ⟨t₈, _, clientSummary, rfl, client_summary, runs⟩ := Prog.runs_bind.mp runs
  obtain ⟨t₉, _, network, rfl, processed, last⟩ := Prog.runs_bind.mp runs
  obtain ⟨known, serves⟩ := runs_startFrameworkServers served
  obtain ⟨-, dials, -⟩ := runs_startFrameworkClients started
  refine ⟨⟨known, ?_, fun incast => incast_verb incast started processed⟩, ?_, ?_⟩
  · intro roce
    rcases verb_of_killed roce killed with read | read | write | write
    · exact .inl read
    · exact .inr (.inl read)
    · exact .inr (.inr write)
    · rw [checkWriteUc, if_pos ⟨write, by rw [roce]; decide⟩] at checked
      cases checked
  · obtain ⟨rfl, -⟩ := Prog.runs_pure.mp last
    simp only [effects_append, (runs_killFrameworkServers killed).2, serves, dials,
      (runs_startRhostDstatProc server_dstat).1, (runs_startRhostDstatProc client_dstat).1, runs_ask slept,
      effects_reading server_summary, effects_reading client_summary, effects_reading processed]
    simp [effects, effectOf]
  · have hosts : config.clientSshs = some clientSshs := attr_ok sshs
    cases clientSshs with
    | nil => cases first_client
    | cons first rest =>
      have same : first = clientSsh := Except.ok.inj first_client
      have server_source := (runs_processRhostDstatProc server_summary).trans
        (runs_startRhostDstatProc server_dstat).2
      have client_source := (runs_processRhostDstatProc client_summary).trans
        (runs_startRhostDstatProc client_dstat).2
      rw [Except.ok.inj (Prog.runs_pure.mp last).2, Config.serverHost, attr_getD "" server]
      refine ⟨first, rest, hosts, ?_, ?_⟩
      · split <;> simp [server_source, client_source, same]
      · split <;> simp [server_source, client_source, same]

/-- Killing apart, the experiment does what its measuring part does. -/
theorem runs_runCpuUtilExp {lib : Lib} {config : Config} {trace : List Step} {results : Results}
    (runs : (runCpuUtilExp lib config).Runs trace (.ok results)) :
    ∃ hosts happenings, config.clients = some hosts ∧
      (measureCpuUtil lib (connectedTo config hosts)).Runs happenings (.ok results) ∧
      hostEffects trace = effects happenings ++ killPlan (connectedTo config hosts) := by
  obtain ⟨t₁, _, connected, rfl, connects, runs⟩ := Prog.runs_bind.mp runs
  obtain ⟨t₂, _, found, rfl, measures, runs⟩ := Prog.runs_bind.mp runs
  obtain ⟨t₃, _, _, rfl, outputs, runs⟩ := Prog.runs_bind.mp runs
  obtain ⟨t₄, _, _, rfl, kills, last⟩ := Prog.runs_bind.mp runs
  obtain ⟨rfl, same⟩ := Prog.runs_pure.mp last
  obtain ⟨connect_happenings, connects, connect_effects⟩ := runs_host connects
  obtain ⟨happenings, measures, measure_effects⟩ := runs_host measures
  obtain ⟨kill_happenings, kills, kill_effects⟩ := runs_host kills
  obtain ⟨hosts, clients, silent, rfl⟩ := runs_connectHosts connects
  cases same
  refine ⟨hosts, happenings, clients, measures, ?_⟩
  rw [hostEffects_append, hostEffects_append, hostEffects_append, hostEffects_append, connect_effects, silent,
    measure_effects, runs_files outputs, kill_effects, (runs_killFrameworkServers kills).2]
  simp [hostEffects]

theorem verbTells_iff {config : Config} (completes : Completes config) :
    VerbTells config ↔ (Reversed config ↔ swaps config = true) := by
  have swapped : swaps config = true ↔ config.verb = READ_RC ∨ config.verb = WRITE_RC := by
    simp [swaps]
  rw [swapped]
  rcases framework_cases completes.known with ⟨rone | iroce | ⟨roce, read⟩ | ⟨dctcp, sized⟩, here⟩ |
    ⟨⟨roce, write⟩ | ⟨dctcp, unsized⟩, here⟩
  · have verb := completes.incast (.inl rone)
    simp [VerbTells, here, rone, verb, RoNE, RoCE, DCTCP]
  · have verb := completes.incast (.inr iroce)
    simp [VerbTells, here, iroce, verb, iRoCE, RoCE, DCTCP]
  · have either : config.verb = READ_RC ∨ config.verb = READ_UC := by simpa [isRead] using read
    rcases either with verb | verb
    · simp [VerbTells, here, roce, verb, RoCE, DCTCP]
    · simp [VerbTells, here, roce, verb, RoCE, DCTCP, READ_RC, READ_UC, WRITE_RC]
  · simp [VerbTells, here, dctcp, sized, RoCE, DCTCP]
  · have neither : ¬ (config.verb = READ_RC ∨ config.verb = READ_UC) := by simpa [isRead] using write
    rcases completes.roce roce with verb | verb | verb
    · exact absurd (.inl verb) neither
    · exact absurd (.inr verb) neither
    · simp [VerbTells, here, roce, verb, RoCE, DCTCP, READ_RC, WRITE_RC]
  · simp [VerbTells, here, dctcp, unsized, RoCE, DCTCP]

theorem ranClient_iff {config : Config} (known : config.framework ∈ TRANSPORTS) (some_client : config.clientNames ≠ [])
    {trace : List Step}
    (effects : hostEffects trace = killPlan config ++ serverPlan config 1 ++ clientPlan config ++ killPlan config)
    (host : Host) :
    RanClient trace host ↔ if Reversed config then host = config.serverHost else host ∈ config.clientHosts := by
  have killed : ∀ targets alone, Effect.dial host targets alone ∉ killPlan config := by
    intro targets alone member
    obtain ⟨_, _, same⟩ := killPlan_kills config _ member
    cases same
  have served : ∀ targets alone, Effect.dial host targets alone ∉ serverPlan config 1 := by
    intro targets alone member
    obtain ⟨_, _, _, same⟩ := serverPlan_serves config 1 _ member
    cases same
  rw [← dials_iff known some_client, RanClient, effects]
  simp [killed, served]

theorem ranServer_iff {config : Config} (known : config.framework ∈ TRANSPORTS) {trace : List Step}
    (effects : hostEffects trace = killPlan config ++ serverPlan config 1 ++ clientPlan config ++ killPlan config)
    (host : Host) :
    RanServer trace host ↔ if Reversed config then host ∈ config.clientHosts else host = config.serverHost := by
  have killed : ∀ ports program, Effect.serve host ports program ∉ killPlan config := by
    intro ports program member
    obtain ⟨_, _, same⟩ := killPlan_kills config _ member
    cases same
  have dialled : ∀ ports program, Effect.serve host ports program ∉ clientPlan config := by
    intro ports program member
    obtain ⟨_, _, _, same⟩ := clientPlan_dials config _ member
    cases same
  rw [← serves_iff known, RanServer, effects]
  simp [killed, dialled]

/-- The summaries are filed under the roles that the hosts played, exactly when the verb tells
    whether the roles are reversed. -/
theorem filed_under_role_iff {lib : Lib} {config : Config} {hosts : List Host} (clients : config.clients = some hosts)
    (apart : config.server ∉ hosts) {trace : List Step} {results : Results}
    (runs : (runCpuUtilExp lib config).Runs trace (.ok results)) :
    FiledUnderRole trace results ↔ VerbTells config := by
  obtain ⟨names, happenings, named, measures, launched⟩ := runs_runCpuUtilExp runs
  obtain rfl : names = hosts := Option.some.inj (named.symm.trans clients)
  obtain ⟨completes, measured, first, rest, sshs, serverCpu, clientCpu⟩ := runs_measureCpuUtil measures
  obtain rfl : names = first :: rest := Option.some.inj sshs
  rw [measured] at launched
  have some_client : (connectedTo config (first :: rest)).clientNames ≠ [] := by
    simp [Config.clientNames, connectedTo, clients]
  have differ : first ≠ config.server := fun same => apart (by simp [same])
  have connected : VerbTells config ↔ VerbTells (connectedTo config (first :: rest)) := Iff.rfl
  have server : (connectedTo config (first :: rest)).serverHost = config.server := rfl
  have client_hosts : (connectedTo config (first :: rest)).clientHosts = first :: rest := rfl
  rw [connected, verbTells_iff completes, FiledUnderRole, ranClient_iff completes.known some_client launched,
    ranServer_iff completes.known launched, serverCpu, clientCpu, server, client_hosts]
  by_cases reversed : Reversed (connectedTo config (first :: rest))
  · cases swapped : swaps (connectedTo config (first :: rest)) with
    | true => simp [reversed]
    | false => simp [reversed, differ]
  · cases swapped : swaps (connectedTo config (first :: rest)) with
    | true => simp [reversed, apart]
    | false => simp [reversed]

def roceTrace (verb : String) : List Step :=
  ((runCpuUtilExp textLib (roceConfig verb none)).run (mainAnswers outputs)).1

theorem filed_under_role_read : ∃ results,
    (runCpuUtilExp textLib (roceConfig READ_RC none)).Runs (roceTrace READ_RC) (.ok results) ∧
      FiledUnderRole (roceTrace READ_RC) results := by
  obtain ⟨results, runs⟩ := Prog.runs_of_isOk (mainAnswers outputs)
    (runCpuUtilExp textLib (roceConfig READ_RC none)) (by decide +kernel)
  exact ⟨results, runs, (filed_under_role_iff rfl (by decide) runs).mpr (by decide)⟩

/-- A run of writes: the summary of the server host is filed as that of the client. -/
theorem write_filed_as_read : ∃ results,
    (runCpuUtilExp textLib (roceConfig WRITE_RC none)).Runs (roceTrace WRITE_RC) (.ok results) ∧
    results.clientCpu.source = "10.10.1.2" ∧
    (hostEffects (roceTrace WRITE_RC)).filter (fun effect => effect matches .dial _ _ _) =
      [.dial "10.10.1.1" [("10.10.1.2", 53282)] true] ∧
    ¬ FiledUnderRole (roceTrace WRITE_RC) results := by
  obtain ⟨results, result, runs⟩ := Prog.exists_runs_run (mainAnswers outputs)
    (runCpuUtilExp textLib (roceConfig WRITE_RC none)) (by decide +kernel)
  have source : ((runCpuUtilExp textLib (roceConfig WRITE_RC none)).run (mainAnswers outputs)).2.toOption.map
      (fun results => results.clientCpu.source) = some "10.10.1.2" := by
    decide +kernel
  have dials : (hostEffects (roceTrace WRITE_RC)).filter (fun effect => effect matches .dial _ _ _) =
      [.dial "10.10.1.1" [("10.10.1.2", 53282)] true] := by
    decide +kernel
  rw [result] at source
  have client : results.clientCpu.source = "10.10.1.2" := Option.some.inj source
  refine ⟨results, runs, client, dials, ?_⟩
  rintro ⟨⟨targets, alone, member⟩, -⟩
  rw [client] at member
  have kept : Effect.dial "10.10.1.2" targets alone ∈
      (hostEffects (roceTrace WRITE_RC)).filter fun effect => effect matches .dial _ _ _ :=
    List.mem_filter.mpr ⟨member, rfl⟩
  rw [dials] at kept
  simp at kept

end RdmaExps.Experiment
