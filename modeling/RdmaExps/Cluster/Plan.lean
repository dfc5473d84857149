import RdmaExps.Cluster.Clients

namespace RdmaExps.Cluster

open RdmaExps.Python

namespace Config

def serverHost (config : Config) : Host := config.serverSsh.getD ""

def clientHosts (config : Config) : List Host := config.clientSshs.getD []

def clientNames (config : Config) : List Host := config.clients.getD []

end Config

def roceApp (config : Config) : String := if isRead config then "ib_read_bw" else "ib_write_bw"

def roceIncastApp (config : Config) : String :=
  if config.verb = READ_RC then "roce_read_incast" else "roce_write_incast_write0"

def roneIncastApp (config : Config) : String :=
  if config.verb = READ_RC then "rone_read_incast" else "rone_write_incast_write0"

theorem verbToAppTransport_app {config : Config} {app transport : String}
    (known : verbToAppTransport config.verb = .ok (app, transport)) : roceApp config = app := by
  unfold verbToAppTransport at known
  unfold roceApp isRead
  split at known
  · cases known
    simp [*]
  split at known
  · cases known
    simp [*]
  split at known
  · cases known
    simp only [*]
    decide
  split at known
  · cases known
    simp only [*]
    decide
  · cases known

theorem baseName_roceApp (config : Config) : baseName (roceApp config) = roceApp config := by
  unfold roceApp
  split <;> exact baseName_of_plain (by decide)

theorem getRoceAppBaseCmd_ok {config : Config} {port : Int} {base : Perftest}
    (made : getRoceAppBaseCmd config port = .ok base) : base.port = port ∧ base.app = roceApp config := by
  obtain ⟨⟨app, transport⟩, known, made⟩ := bind_ok made
  obtain ⟨devargs, -, made⟩ := bind_ok made
  obtain ⟨length, -, made⟩ := bind_ok made
  cases made
  exact ⟨rfl, (verbToAppTransport_app known).symm⟩

theorem effects_exec {host : Host} {command : Command} {timeout : Option Rat} {trace : List Happening}
    {proc : Proc} {effect : Effect} (runs : (execCommand host command timeout).Runs trace (.ok proc))
    (does : command.effect host = some effect) : effects trace = [effect] := by
  rw [(runs_execCommand runs).1, does]
  rfl

theorem effects_mapM {α β : Type} {f : α → Run β} {g : α → Effect} {xs : List α}
    (each : ∀ x ∈ xs, ∀ trace value, (f x).Runs trace (.ok value) → effects trace = [g x])
    {trace : List Happening} {values : List β} (runs : (xs.mapM f).Runs trace (.ok values)) :
    effects trace = xs.map g := by
  rw [List.map_eq_flatMap]
  exact Prog.Runs.mapM effectOf each runs

theorem runs_startRoceServers {config : Config} {numservers : Nat} {trace : List Happening} {procs : List Proc}
    (runs : (startRoceServers config numservers).Runs trace (.ok procs)) :
    effects trace = if isRead config then config.clientHosts.zipIdx.map fun host =>
        .serve host.1 [config.roceBaseport + host.2] (roceApp config)
      else (List.range numservers).map fun i : Nat =>
        .serve config.serverHost [config.roceBaseport + i] (roceApp config) := by
  unfold startRoceServers at runs
  split at runs
  · obtain ⟨clientSshs, found, runs⟩ := Prog.runs_lift_bind.mp runs
    rw [if_pos ‹_›, Config.clientHosts, attr_getD [] found]
    refine effects_mapM ?_ runs
    rintro ⟨host, i⟩ _ trace proc runs
    obtain ⟨cmd, made, runs⟩ := Prog.runs_lift_bind.mp runs
    obtain ⟨port, app⟩ := getRoceAppBaseCmd_ok made
    exact effects_exec runs (by simp only [Command.effect, port, app, baseName_roceApp])
  · rw [if_neg ‹_›]
    refine effects_mapM ?_ runs
    intro i _ trace proc runs
    obtain ⟨cmd, made, runs⟩ := Prog.runs_lift_bind.mp runs
    obtain ⟨port, app⟩ := getRoceAppBaseCmd_ok made
    obtain ⟨serverSsh, found, runs⟩ := Prog.runs_lift_bind.mp runs
    rw [Config.serverHost, attr_getD "" found]
    exact effects_exec runs (by simp only [Command.effect, port, app, baseName_roceApp])

theorem runs_startIperf3Servers {config : Config} {numservers : Nat} {trace : List Happening} {procs : List Proc}
    (runs : (startIperf3Servers config numservers).Runs trace (.ok procs)) :
    effects trace = (List.range numservers).map fun i : Nat =>
      .serve config.serverHost [config.iperfBaseport + i] "iperf3" := by
  refine effects_mapM ?_ runs
  intro i _ trace proc runs
  obtain ⟨serverSsh, found, runs⟩ := Prog.runs_lift_bind.mp runs
  rw [Config.serverHost, attr_getD "" found]
  exact effects_exec runs rfl

theorem incastCmd_cases {config : Config} {read write loc : String}
    (has : (if config.verb = READ_RC then some read else if config.verb = WRITE_UC then some write else none) =
      some loc) : config.verb = READ_RC ∧ loc = read ∨ config.verb = WRITE_UC ∧ config.verb ≠ READ_RC ∧ loc = write := by
  split at has
  · exact .inl ⟨‹_›, (Option.some.inj has).symm⟩
  · split at has
    · exact .inr ⟨‹_›, ‹_›, (Option.some.inj has).symm⟩
    · cases has

theorem roceIncastCmd_program {config : Config} {loc : String} (has : roceIncastCmd config = some loc) :
    baseName loc = roceIncastApp config := by
  rcases incastCmd_cases has with ⟨read, rfl⟩ | ⟨-, other, rfl⟩
  · rw [roceIncastApp, if_pos read]
    exact baseName_append_path config.roneCodeDir "/code" (by decide) (by decide)
  · rw [roceIncastApp, if_neg other]
    exact baseName_append_path config.roneCodeDir "/code" (by decide) (by decide)

theorem roneIncastCmd_program {config : Config} {loc : String} (has : roneIncastCmd config = some loc) :
    baseName loc = roneIncastApp config := by
  rcases incastCmd_cases has with ⟨read, rfl⟩ | ⟨-, other, rfl⟩
  · rw [roneIncastApp, if_pos read]
    exact baseName_append_path config.roneCodeDir "/code" (by decide) (by decide)
  · rw [roneIncastApp, if_neg other]
    exact baseName_append_path config.roneCodeDir "/code" (by decide) (by decide)

/-- A server on each client host, if the verb has a program. -/
theorem runs_incastServers {config : Config} {incastCmd : Option String} {serverFlags : Except PyErr String}
    {app : String} (program : ∀ loc, incastCmd = some loc → baseName loc = app) {trace : List Happening}
    {procs : List Proc}
    (runs : (do
      let clientSshs ← attr "client_sshs" config.clientSshs
      clientSshs.mapM fun clientSsh => do
        match incastCmd with
        | some incastLoc =>
          let flags ← serverFlags
          execCommand clientSsh (.verbIncast incastLoc config.roneBaseport config.roneIbaseport none flags)
            config.timeout
        | none => throw (.unboundLocalError "server_cmd") : Run (List Proc)).Runs trace (.ok procs)) :
    effects trace = config.clientHosts.map fun host =>
      .serve host [config.roneBaseport, config.roneIbaseport] app := by
  obtain ⟨clientSshs, found, runs⟩ := Prog.runs_lift_bind.mp runs
  rw [Config.clientHosts, attr_getD [] found]
  refine effects_mapM ?_ runs
  intro host _ trace proc runs
  cases has : incastCmd with
  | none =>
    rw [has] at runs
    exact absurd runs Prog.runs_throw_ok
  | some loc =>
    rw [has] at runs
    obtain ⟨flags, -, runs⟩ := Prog.runs_lift_bind.mp runs
    exact effects_exec runs (by simp only [Command.effect, program loc has])

theorem runs_startRoceIncastServers {config : Config} {trace : List Happening} {procs : List Proc}
    (runs : (startRoceIncastServers config).Runs trace (.ok procs)) :
    effects trace = config.clientHosts.map fun host =>
      .serve host [config.roneBaseport, config.roneIbaseport] (roceIncastApp config) :=
  runs_incastServers (fun _ => roceIncastCmd_program) runs

theorem runs_startRoneIncastServers {config : Config} {trace : List Happening} {procs : List Proc}
    (runs : (startRoneIncastServers config).Runs trace (.ok procs)) :
    effects trace = config.clientHosts.map fun host =>
      .serve host [config.roneBaseport, config.roneIbaseport] (roneIncastApp config) :=
  runs_incastServers (fun _ => roneIncastCmd_program) runs

theorem runs_startIncastServers {config : Config} {trace : List Happening} {procs : List Proc}
    (runs : (startIncastServers config).Runs trace (.ok procs)) :
    effects trace = config.clientHosts.map fun host => .serve host [config.iperfBaseport] "incast_server" := by
  obtain ⟨clientSshs, found, runs⟩ := Prog.runs_lift_bind.mp runs
  rw [Config.clientHosts, attr_getD [] found]
  refine effects_mapM ?_ runs
  intro host _ trace proc runs
  have name : baseName (config.roneCodeDir ++ "/bin/incast/incast_server") = "incast_server" :=
    baseName_append_path config.roneCodeDir "/bin/incast" (by decide) (by decide)
  exact effects_exec runs (by simp only [Command.effect, name])

/-- The check that all functions over the frameworks begin with. -/
theorem runs_checked {α : Type} {config : Config} {p : Run α} {trace : List Happening} {value : α}
    (runs : (do
      if config.framework ∉ TRANSPORTS then
        throw (.valueError ("Unexpected framework: '" ++ config.framework ++ "'"))
      p : Run α).Runs trace (.ok value)) : config.framework ∈ TRANSPORTS ∧ p.Runs trace (.ok value) := by
  by_cases known : config.framework ∈ TRANSPORTS
  · rw [if_neg (not_not.mpr known)] at runs
    exact ⟨known, runs⟩
  · rw [if_pos known] at runs
    obtain ⟨_, _, _, _, raised, _⟩ := Prog.runs_bind.mp runs
    exact absurd raised Prog.runs_throw_ok

/-- The servers that a framework starts where it starts them all. -/
def serverPlan (config : Config) (numservers : Nat) : List Effect :=
  if config.framework = RoNE then config.clientHosts.map fun host =>
    .serve host [config.roneBaseport, config.roneIbaseport] (roneIncastApp config)
  else if config.framework = iRoCE then config.clientHosts.map fun host =>
    .serve host [config.roneBaseport, config.roneIbaseport] (roceIncastApp config)
  else if config.framework = RoCE then
    if isRead config then config.clientHosts.zipIdx.map fun host =>
      .serve host.1 [config.roceBaseport + host.2] (roceApp config)
    else (List.range numservers).map fun i : Nat =>
      .serve config.serverHost [config.roceBaseport + i] (roceApp config)
  else if config.msgSize.isSome then config.clientHosts.map fun host =>
    .serve host [config.iperfBaseport] "incast_server"
  else (List.range numservers).map fun i : Nat =>
    .serve config.serverHost [config.iperfBaseport + i] "iperf3"

theorem runs_startFrameworkServers {config : Config} {numservers : Nat} {trace : List Happening}
    {procs : List Proc} (runs : (startFrameworkServers config numservers).Runs trace (.ok procs)) :
    config.framework ∈ TRANSPORTS ∧ effects trace = serverPlan config numservers := by
  obtain ⟨known, runs⟩ := runs_checked runs
  refine ⟨known, ?_⟩
  unfold serverPlan
  by_cases rone : config.framework = RoNE
  · rw [if_pos rone] at runs ⊢
    exact runs_startRoneIncastServers runs
  rw [if_neg rone] at runs ⊢
  by_cases iroce : config.framework = iRoCE
  · rw [if_pos iroce] at runs ⊢
    exact runs_startRoceIncastServers runs
  rw [if_neg iroce] at runs ⊢
  by_cases roce : config.framework = RoCE
  · rw [if_pos roce] at runs ⊢
    exact runs_startRoceServers runs
  rw [if_neg roce] at runs ⊢
  by_cases dctcp : config.framework = DCTCP
  · rw [if_pos dctcp] at runs
    split at runs
    · rw [if_pos ‹_›]
      exact runs_startIncastServers runs
    · rw [if_neg ‹_›]
      exact runs_startIperf3Servers runs
  · rw [if_neg dctcp] at runs
    exact absurd runs Prog.runs_throw_ok

def clientPlan (config : Config) : List Effect :=
  if config.framework = DCTCP ∧ config.msgSize.isSome then
    [.dial config.serverHost (config.clientNames.map fun client => (client, config.iperfBaseport)) false]
  else if config.framework = iRoCE ∨ config.framework = RoNE then
    [.dial config.serverHost (config.clientNames.flatMap fun client =>
      [(client, config.roneBaseport), (client, config.roneIbaseport)]) false]
  else if config.framework = RoCE ∧ isRead config then config.clientNames.zipIdx.map fun client =>
    .dial config.serverHost [(client.1, config.roceBaseport + client.2)] true
  else config.clientHosts.zipIdx.map fun host =>
    .dial host.1 [(config.server,
      (if config.framework = RoCE then config.roceBaseport else config.iperfBaseport) + host.2)] true

theorem runs_startPingClients {config : Config} {num : Int} {trace : List Happening} {procs : List Proc}
    (runs : (startPingClients config num).Runs trace (.ok procs)) : effects trace = [] := by
  obtain ⟨clients, -, runs⟩ := Prog.runs_lift_bind.mp runs
  have silent := Prog.Runs.mapM effectOf (g := fun _ => []) ?_ runs
  · exact silent.trans (by simp)
  · intro client _ trace proc runs
    obtain ⟨serverSsh, -, runs⟩ := Prog.runs_lift_bind.mp runs
    exact (runs_execCommand runs).1

theorem runs_startRoceClientsRead {config : Config} {trace : List Happening} {procs : List Proc}
    (runs : (startRoceClientsRead config).Runs trace (.ok procs)) :
    effects trace = config.clientNames.zipIdx.map fun client =>
      .dial config.serverHost [(client.1, config.roceBaseport + client.2)] true := by
  obtain ⟨clients, found, runs⟩ := Prog.runs_lift_bind.mp runs
  rw [Config.clientNames, attr_getD [] found]
  refine effects_mapM ?_ runs
  rintro ⟨client, offset⟩ _ trace proc runs
  obtain ⟨cmd, made, runs⟩ := Prog.runs_lift_bind.mp runs
  obtain ⟨serverSsh, has, runs⟩ := Prog.runs_lift_bind.mp runs
  rw [Config.serverHost, attr_getD "" has]
  exact effects_exec runs (by simp only [Command.effect, (getRoceAppBaseCmd_ok made).1])

theorem runs_startEachClient {config : Config} {trace : List Happening} {clients : Clients}
    (runs : (startEachClient config).Runs trace (.ok clients)) :
    effects trace = config.clientHosts.zipIdx.map fun host =>
      .dial host.1 [(config.server,
        (if config.framework = RoCE then config.roceBaseport else config.iperfBaseport) + host.2)] true := by
  obtain ⟨clientSshs, found, runs⟩ := Prog.runs_lift_bind.mp runs
  obtain ⟨front, back, procs, rfl, runs, last⟩ := Prog.runs_bind.mp runs
  rw [(Prog.runs_pure.mp last).1, List.append_nil, Config.clientHosts, attr_getD [] found]
  refine effects_mapM ?_ runs
  rintro ⟨rhost, offset⟩ _ trace procs runs
  dsimp only at runs
  split at runs
  · obtain ⟨cmd, made, runs⟩ := Prog.runs_lift_bind.mp runs
    obtain ⟨front, back, proc, rfl, runs, last⟩ := Prog.runs_bind.mp runs
    rw [(Prog.runs_pure.mp last).1, List.append_nil, if_pos ‹_›]
    exact effects_exec runs (by simp only [Command.effect, (getRoceAppBaseCmd_ok made).1])
  · split at runs
    · obtain ⟨front, back, proc, rfl, runs, last⟩ := Prog.runs_bind.mp runs
      rw [(Prog.runs_pure.mp last).1, List.append_nil, if_neg ‹_›]
      exact effects_exec runs rfl
    · exact absurd runs Prog.runs_throw_ok

theorem runs_startIncastClients {config : Config} {trace : List Happening} {clients : Clients}
    (runs : (startIncastClients config).Runs trace (.ok clients)) :
    effects trace =
      [.dial config.serverHost (config.clientNames.map fun client => (client, config.iperfBaseport)) false] := by
  obtain ⟨msgsize, -, runs⟩ := Prog.runs_lift_bind.mp runs
  obtain ⟨names, named, runs⟩ := Prog.runs_lift_bind.mp runs
  obtain ⟨serverSsh, has, runs⟩ := Prog.runs_lift_bind.mp runs
  obtain ⟨front, back, proc, rfl, first, runs⟩ := Prog.runs_bind.mp runs
  obtain ⟨middle, final, pings, rfl, second, last⟩ := Prog.runs_bind.mp runs
  rw [(Prog.runs_pure.mp last).1, effects_append, effects_append, runs_startPingClients second,
    Config.serverHost, attr_getD "" has, Config.clientNames, attr_getD [] named]
  simpa using effects_exec first rfl

theorem roceIncastCmd_verb {config : Config} {loc : String} (has : roceIncastCmd config = some loc) :
    config.verb = READ_RC ∨ config.verb = WRITE_UC := (incastCmd_cases has).imp And.left And.left

theorem roneIncastCmd_verb {config : Config} {loc : String} (has : roneIncastCmd config = some loc) :
    config.verb = READ_RC ∨ config.verb = WRITE_UC := (incastCmd_cases has).imp And.left And.left

/-- What the incast programs of the verbs return: for writes, a dictionary without the servers. -/
def IncastClients (config : Config) (clients : Clients) : Prop :=
  config.verb = READ_RC ∨ config.verb = WRITE_UC ∧ ∃ incasts pings, clients = .dict incasts pings none

theorem runs_startRoceIncastClients {config : Config} {trace : List Happening} {clients : Clients}
    (runs : (startRoceIncastClients config).Runs trace (.ok clients)) :
    effects trace = [.dial config.serverHost (config.clientNames.flatMap fun client =>
      [(client, config.roneBaseport), (client, config.roneIbaseport)]) false] ∧ IncastClients config clients := by
  obtain ⟨_, -, runs⟩ := Prog.runs_lift_bind.mp runs
  obtain ⟨names, named, runs⟩ := Prog.runs_lift_bind.mp runs
  obtain ⟨numsegs, -, runs⟩ := Prog.runs_lift_bind.mp runs
  obtain ⟨window, -, runs⟩ := Prog.runs_lift_bind.mp runs
  cases has : roceIncastCmd config with
  | none =>
    rw [has] at runs
    exact absurd runs Prog.runs_throw_ok
  | some loc =>
    rw [has] at runs
    obtain ⟨serverSsh, found, runs⟩ := Prog.runs_lift_bind.mp runs
    obtain ⟨front, back, proc, rfl, first, runs⟩ := Prog.runs_bind.mp runs
    have rest : effects back = [] ∧ IncastClients config clients := by
      split at runs
      · rename_i write
        obtain ⟨middle, final, pings, rfl, second, last⟩ := Prog.runs_bind.mp runs
        rw [(Prog.runs_pure.mp last).1, List.append_nil, runs_startPingClients second]
        exact ⟨rfl, .inr ⟨write, _, _, Except.ok.inj (Prog.runs_pure.mp last).2⟩⟩
      · rename_i read
        rw [(Prog.runs_pure.mp runs).1]
        exact ⟨rfl, .inl ((roceIncastCmd_verb has).resolve_right read)⟩
    rw [effects_append, rest.1, List.append_nil, Config.serverHost, attr_getD "" found, Config.clientNames,
      attr_getD [] named]
    exact ⟨effects_exec first rfl, rest.2⟩

theorem runs_startRoneIncastClients {config : Config} {trace : List Happening} {clients : Clients}
    (runs : (startRoneIncastClients config).Runs trace (.ok clients)) :
    effects trace = [.dial config.serverHost (config.clientNames.flatMap fun client =>
      [(client, config.roneBaseport), (client, config.roneIbaseport)]) false] ∧ IncastClients config clients := by
  obtain ⟨_, -, runs⟩ := Prog.runs_lift_bind.mp runs
  obtain ⟨names, named, runs⟩ := Prog.runs_lift_bind.mp runs
  obtain ⟨numsegs, -, runs⟩ := Prog.runs_lift_bind.mp runs
  cases has : roneIncastCmd config with
  | none =>
    rw [has] at runs
    exact absurd runs Prog.runs_throw_ok
  | some loc =>
    rw [has] at runs
    obtain ⟨serverSsh, found, runs⟩ := Prog.runs_lift_bind.mp runs
    obtain ⟨front, back, proc, rfl, first, last⟩ := Prog.runs_bind.mp runs
    obtain ⟨rfl, same⟩ := Prog.runs_pure.mp last
    rw [List.append_nil, Config.serverHost, attr_getD "" found, Config.clientNames, attr_getD [] named]
    refine ⟨effects_exec first rfl, ?_⟩
    rcases roneIncastCmd_verb has with read | write
    · exact .inl read
    · rw [if_pos write] at same
      exact .inr ⟨write, _, _, Except.ok.inj same⟩

theorem runs_startFrameworkClients {config : Config} {trace : List Happening} {clients : Clients}
    (runs : (startFrameworkClients config).Runs trace (.ok clients)) :
    config.framework ∈ TRANSPORTS ∧ effects trace = clientPlan config ∧
      (config.framework = RoNE ∨ config.framework = iRoCE → IncastClients config clients) := by
  obtain ⟨known, runs⟩ := runs_checked runs
  refine ⟨known, ?_⟩
  unfold clientPlan
  by_cases incast : config.framework = DCTCP ∧ config.msgSize.isSome
  · rw [if_pos incast] at runs ⊢
    exact ⟨runs_startIncastClients runs, by simp [incast.1, RoNE, iRoCE, DCTCP]⟩
  rw [if_neg incast] at runs ⊢
  by_cases iroce : config.framework = iRoCE
  · rw [if_pos iroce] at runs
    rw [if_pos (.inl iroce)]
    obtain ⟨dials, returned⟩ := runs_startRoceIncastClients runs
    exact ⟨dials, fun _ => returned⟩
  rw [if_neg iroce] at runs
  by_cases read : config.framework = RoCE ∧ isRead config
  · have differ : ¬ (config.framework = iRoCE ∨ config.framework = RoNE) := by
      rw [read.1]
      decide
    rw [if_pos read] at runs
    rw [if_neg differ, if_pos read]
    obtain ⟨front, back, procs, rfl, first, last⟩ := Prog.runs_bind.mp runs
    rw [(Prog.runs_pure.mp last).1, List.append_nil]
    exact ⟨runs_startRoceClientsRead first, fun verbs => absurd verbs.symm differ⟩
  rw [if_neg read] at runs
  by_cases rone : config.framework = RoNE
  · rw [if_pos rone] at runs
    rw [if_pos (.inr rone)]
    obtain ⟨dials, returned⟩ := runs_startRoneIncastClients runs
    exact ⟨dials, fun _ => returned⟩
  · rw [if_neg rone] at runs
    rw [if_neg (by simp [iroce, rone]), if_neg read]
    exact ⟨runs_startEachClient runs, fun verbs => absurd verbs (by simp [iroce, rone])⟩

def killsEverywhere (config : Config) (names : List String) : List Effect := names.flatMap fun name =>
  .kill config.serverHost name :: config.clientHosts.map fun host => .kill host name

def killPlan (config : Config) : List Effect :=
  if config.framework = RoNE then
    killsEverywhere config ["rone_read_incast", "rone_write_incast_write0"] ++
      killsEverywhere config ["roce_read_incast_write0", "roce_write_incast_write0", "roce_read_incast"]
  else if config.framework = iRoCE then
    killsEverywhere config ["roce_read_incast_write0", "roce_write_incast_write0", "roce_read_incast"] ++
      killsEverywhere config ["rone_read_incast", "rone_write_incast_write0"]
  else if config.framework = RoCE then killsEverywhere config [roceApp config]
  else [.kill config.serverHost "iperf3", .kill config.serverHost "incast_server"]

theorem killPlan_dctcp {config : Config} (dctcp : config.framework = DCTCP) : killPlan config =
    [.kill config.serverHost "iperf3", .kill config.serverHost "incast_server"] := by
  simp [killPlan, dctcp, RoNE, RoCE, iRoCE, DCTCP]

theorem mem_killsEverywhere {config : Config} {names : List String} {effect : Effect} :
    effect ∈ killsEverywhere config names ↔ ∃ name ∈ names, ∃ host,
      (host = config.serverHost ∨ host ∈ config.clientHosts) ∧ effect = .kill host name := by
  simp only [killsEverywhere, List.mem_flatMap, List.mem_cons, List.mem_map]
  constructor
  · rintro ⟨name, member, rfl | ⟨host, found, rfl⟩⟩
    · exact ⟨name, member, _, .inl rfl, rfl⟩
    · exact ⟨name, member, host, .inr found, rfl⟩
  · rintro ⟨name, member, host, rfl | found, rfl⟩
    · exact ⟨name, member, .inl rfl⟩
    · exact ⟨name, member, .inr ⟨host, found, rfl⟩⟩

theorem runs_killOnServer {config : Config} {name : String} {trace : List Happening}
    (runs : (killOnServer config name).Runs trace (.ok ())) : effects trace = [.kill config.serverHost name] := by
  obtain ⟨serverSsh, has, runs⟩ := Prog.runs_lift_bind.mp runs
  obtain ⟨front, back, proc, rfl, first, runs⟩ := Prog.runs_bind.mp runs
  obtain ⟨_, _, out, rfl, second, runs⟩ := Prog.runs_bind.mp runs
  obtain ⟨_, _, err, rfl, third, last⟩ := Prog.runs_bind.mp runs
  rw [(Prog.runs_pure.mp last).1, effects_append, effects_append, effects_append, effects_reading second,
    effects_reading third, effects_exec first rfl, Config.serverHost, attr_getD "" has]
  rfl

theorem runs_killClients {clientSshs : List Host} {name : String} {trace : List Happening} {procs : List Proc}
    (runs : (clientSshs.mapM fun clientSsh => execCommand clientSsh (.killall name) none).Runs trace (.ok procs)) :
    effects trace = clientSshs.map fun host => .kill host name :=
  effects_mapM (fun _ _ _ _ runs => effects_exec runs rfl) runs

theorem runs_killEverywhere {config : Config} {names : List String} {trace : List Happening}
    (runs : (killEverywhere config names).Runs trace (.ok ())) :
    effects trace = killsEverywhere config names := by
  obtain ⟨front, back, procs, rfl, runs, last⟩ := Prog.runs_bind.mp runs
  rw [(Prog.runs_pure.mp last).1, List.append_nil]
  refine Prog.Runs.mapM effectOf ?_ runs
  intro name _ trace procs runs
  obtain ⟨front, back, done, rfl, first, runs⟩ := Prog.runs_bind.mp runs
  obtain ⟨clientSshs, found, second⟩ := Prog.runs_lift_bind.mp runs
  change effects (front ++ back) = _
  rw [effects_append, runs_killOnServer first, runs_killClients second, Config.clientHosts, attr_getD [] found]
  rfl

theorem runs_killRoceServers {config : Config} {trace : List Happening}
    (runs : (killRoceServers config).Runs trace (.ok ())) :
    effects trace = killsEverywhere config [roceApp config] := by
  obtain ⟨⟨app, transport⟩, known, runs⟩ := Prog.runs_lift_bind.mp runs
  obtain ⟨front, back, done, rfl, first, runs⟩ := Prog.runs_bind.mp runs
  rw [effects_append, runs_killOnServer first, verbToAppTransport_app known, killsEverywhere, List.flatMap_singleton,
    Config.clientHosts]
  cases has : config.clientSshs with
  | none =>
    rw [has] at runs
    rw [(Prog.runs_pure.mp runs).1]
    rfl
  | some clientSshs =>
    rw [has] at runs
    obtain ⟨front, back, procs, rfl, second, last⟩ := Prog.runs_bind.mp runs
    rw [(Prog.runs_pure.mp last).1, List.append_nil, runs_killClients second]
    rfl

theorem runs_killFrameworkServers {config : Config} {trace : List Happening}
    (runs : (killFrameworkServers config).Runs trace (.ok ())) :
    config.framework ∈ TRANSPORTS ∧ effects trace = killPlan config := by
  obtain ⟨known, runs⟩ := runs_checked runs
  refine ⟨known, ?_⟩
  unfold killPlan
  by_cases rone : config.framework = RoNE
  · rw [if_pos rone] at runs ⊢
    obtain ⟨front, back, done, rfl, first, second⟩ := Prog.runs_bind.mp runs
    rw [effects_append, runs_killEverywhere first, runs_killEverywhere second]
  rw [if_neg rone] at runs ⊢
  by_cases iroce : config.framework = iRoCE
  · rw [if_pos iroce] at runs ⊢
    obtain ⟨front, back, done, rfl, first, second⟩ := Prog.runs_bind.mp runs
    rw [effects_append, runs_killEverywhere first, runs_killEverywhere second]
  rw [if_neg iroce] at runs ⊢
  by_cases roce : config.framework = RoCE
  · rw [if_pos roce] at runs ⊢
    exact runs_killRoceServers runs
  rw [if_neg roce] at runs ⊢
  by_cases dctcp : config.framework = DCTCP
  · rw [if_pos dctcp] at runs
    obtain ⟨front, back, done, rfl, first, second⟩ := Prog.runs_bind.mp runs
    rw [effects_append, runs_killOnServer first, runs_killOnServer second]
    rfl
  · rw [if_neg dctcp] at runs
    exact absurd runs Prog.runs_throw_ok

theorem serverPlan_serves (config : Config) (numservers : Nat) :
    ∀ effect ∈ serverPlan config numservers, ∃ host ports program, effect = .serve host ports program := by
  intro effect member
  unfold serverPlan at member
  have shape : ∀ {α : Type} {f : α → Effect} {xs : List α},
      (∀ x, ∃ host ports program, f x = .serve host ports program) →
      effect ∈ xs.map f → ∃ host ports program, effect = .serve host ports program := by
    intro α f xs each found
    obtain ⟨x, -, rfl⟩ := List.mem_map.mp found
    exact each x
  split at member
  · exact shape (fun _ => ⟨_, _, _, rfl⟩) member
  split at member
  · exact shape (fun _ => ⟨_, _, _, rfl⟩) member
  split at member
  · split at member
    · exact shape (fun _ => ⟨_, _, _, rfl⟩) member
    · exact shape (fun _ => ⟨_, _, _, rfl⟩) member
  · split at member
    · exact shape (fun _ => ⟨_, _, _, rfl⟩) member
    · exact shape (fun _ => ⟨_, _, _, rfl⟩) member

theorem clientPlan_dials (config : Config) :
    ∀ effect ∈ clientPlan config, ∃ host targets alone, effect = .dial host targets alone := by
  intro effect member
  unfold clientPlan at member
  split at member
  · exact ⟨_, _, _, List.mem_singleton.mp member⟩
  split at member
  · exact ⟨_, _, _, List.mem_singleton.mp member⟩
  split at member
  · obtain ⟨_, -, rfl⟩ := List.mem_map.mp member
    exact ⟨_, _, _, rfl⟩
  · obtain ⟨_, -, rfl⟩ := List.mem_map.mp member
    exact ⟨_, _, _, rfl⟩

theorem killPlan_kills (config : Config) :
    ∀ effect ∈ killPlan config, ∃ host name, effect = .kill host name := by
  have everywhere : ∀ {names : List String}, ∀ effect ∈ killsEverywhere config names,
      ∃ host name, effect = .kill host name := by
    intro names effect member
    obtain ⟨name, -, host, -, rfl⟩ := mem_killsEverywhere.mp member
    exact ⟨host, name, rfl⟩
  intro effect member
  unfold killPlan at member
  split at member
  · rcases List.mem_append.mp member with rone | roce
    · exact everywhere effect rone
    · exact everywhere effect roce
  split at member
  · rcases List.mem_append.mp member with roce | rone
    · exact everywhere effect roce
    · exact everywhere effect rone
  split at member
  · exact everywhere effect member
  · rcases List.mem_pair.mp member with rfl | rfl
    · exact ⟨_, _, rfl⟩
    · exact ⟨_, _, rfl⟩

section Plans

variable {config : Config} (numservers : Nat)

theorem plans_rone (rone : config.framework = RoNE) :
    serverPlan config numservers = config.clientHosts.map (fun host =>
      .serve host [config.roneBaseport, config.roneIbaseport] (roneIncastApp config)) ∧
    clientPlan config = [.dial config.serverHost (config.clientNames.flatMap fun client =>
      [(client, config.roneBaseport), (client, config.roneIbaseport)]) false] := by
  simp [serverPlan, clientPlan, rone, RoNE, iRoCE, DCTCP]

theorem plans_iroce (iroce : config.framework = iRoCE) :
    serverPlan config numservers = config.clientHosts.map (fun host =>
      .serve host [config.roneBaseport, config.roneIbaseport] (roceIncastApp config)) ∧
    clientPlan config = [.dial config.serverHost (config.clientNames.flatMap fun client =>
      [(client, config.roneBaseport), (client, config.roneIbaseport)]) false] := by
  simp [serverPlan, clientPlan, iroce, RoNE, iRoCE, DCTCP]

theorem plans_read (roce : config.framework = RoCE) (read : isRead config = true) :
    serverPlan config numservers = config.clientHosts.zipIdx.map (fun host =>
      .serve host.1 [config.roceBaseport + host.2] (roceApp config)) ∧
    clientPlan config = config.clientNames.zipIdx.map fun client =>
      .dial config.serverHost [(client.1, config.roceBaseport + client.2)] true := by
  simp [serverPlan, clientPlan, roce, read, RoNE, RoCE, iRoCE, DCTCP]

theorem plans_write (roce : config.framework = RoCE) (write : isRead config = false) :
    serverPlan config numservers = (List.range numservers).map (fun i : Nat =>
      .serve config.serverHost [config.roceBaseport + i] (roceApp config)) ∧
    clientPlan config = config.clientHosts.zipIdx.map fun host =>
      .dial host.1 [(config.server, config.roceBaseport + host.2)] true := by
  simp [serverPlan, clientPlan, roce, write, RoNE, RoCE, iRoCE, DCTCP]

theorem plans_incast (dctcp : config.framework = DCTCP) (sized : config.msgSize.isSome = true) :
    serverPlan config numservers = config.clientHosts.map (fun host =>
      .serve host [config.iperfBaseport] "incast_server") ∧
    clientPlan config =
      [.dial config.serverHost (config.clientNames.map fun client => (client, config.iperfBaseport)) false] := by
  simp [serverPlan, clientPlan, dctcp, sized, RoNE, RoCE, iRoCE, DCTCP]

theorem plans_iperf3 (dctcp : config.framework = DCTCP) (unsized : config.msgSize.isSome = false) :
    serverPlan config numservers = (List.range numservers).map (fun i : Nat =>
      .serve config.serverHost [config.iperfBaseport + i] "iperf3") ∧
    clientPlan config = config.clientHosts.zipIdx.map fun host =>
      .dial host.1 [(config.server, config.iperfBaseport + host.2)] true := by
  simp [serverPlan, clientPlan, dctcp, unsized, RoNE, RoCE, iRoCE, DCTCP]

end Plans

/-- The benchmark servers are launched on the client hosts. -/
def Reversed (config : Config) : Prop :=
  config.framework = RoNE ∨ config.framework = iRoCE ∨ (config.framework = RoCE ∧ isRead config = true) ∨
    (config.framework = DCTCP ∧ config.msgSize.isSome = true)

instance (config : Config) : Decidable (Reversed config) := inferInstanceAs (Decidable (_ ∨ _ ∨ _ ∨ _))

/-- The ways to start a framework: four with the servers on the client hosts, and two without. -/
theorem framework_cases {config : Config} (known : config.framework ∈ TRANSPORTS) :
    (config.framework = RoNE ∨ config.framework = iRoCE ∨ (config.framework = RoCE ∧ isRead config = true) ∨
      (config.framework = DCTCP ∧ config.msgSize.isSome = true)) ∧ Reversed config ∨
    ((config.framework = RoCE ∧ isRead config = false) ∨
      (config.framework = DCTCP ∧ config.msgSize.isSome = false)) ∧ ¬ Reversed config := by
  have one : config.framework = RoNE ∨ config.framework = iRoCE ∨ config.framework = RoCE ∨ config.framework = DCTCP := by
    simpa [TRANSPORTS] using known
  unfold Reversed
  rcases one with rone | iroce | roce | dctcp
  · simp [rone]
  · simp [iroce]
  · cases read : isRead config <;> simp [roce, RoNE, RoCE, iRoCE, DCTCP]
  · cases sized : config.msgSize.isSome <;> simp [dctcp, RoNE, RoCE, iRoCE, DCTCP]

end RdmaExps.Cluster
