import RdmaExps.Cluster.Plan

namespace RdmaExps.Cluster

open RdmaExps.Python

/-- Whatever a client connects to, a server was launched there. -/
def Served (servers clients : List Effect) : Prop :=
  ∀ host targets alone, Effect.dial host targets alone ∈ clients → ∀ target ∈ targets,
    ∃ ports program, Effect.serve target.1 ports program ∈ servers ∧ target.2 ∈ ports

def ownTargets : Effect → List (Host × Int)
  | .dial _ targets true => targets
  | _ => []

/-- The clients whose program needs a server of its own connect to different servers. -/
def OwnServers (clients : List Effect) : Prop := (clients.flatMap ownTargets).Nodup

theorem served_everywhere {hosts : List Host} {dialler : Host} {ports : List Int} {program : String}
    {targets : List (Host × Int)} (within : ∀ target ∈ targets, target.1 ∈ hosts ∧ target.2 ∈ ports) :
    Served (hosts.map fun host => .serve host ports program) [.dial dialler targets false] := by
  intro host dialled alone member target found
  cases List.mem_singleton.mp member
  obtain ⟨known, port⟩ := within target found
  exact ⟨ports, program, List.mem_map.mpr ⟨target.1, known, rfl⟩, port⟩

theorem ownServers_shared (dialler : Host) (targets : List (Host × Int)) :
    OwnServers [.dial dialler targets false] := by
  simp [OwnServers, ownTargets]

theorem served_oneEach {hosts : List Host} {server : Host} {base : Int} {program : String}
    (some_client : hosts ≠ []) :
    Served ((List.range 1).map fun i : Nat => .serve server [base + i] program)
      (hosts.zipIdx.map fun host => .dial host.1 [(server, base + host.2)] true) ↔ hosts.length = 1 := by
  constructor
  · intro served
    by_contra several
    have bound : 1 < hosts.length := by
      have some := List.length_pos_iff.mpr some_client
      omega
    have second : (hosts[1], 1) ∈ hosts.zipIdx := by
      rw [List.mem_zipIdx_iff_getElem?]
      simp [bound]
    obtain ⟨ports, program', launched, port⟩ := served _ _ _ (List.mem_map.mpr ⟨_, second, rfl⟩)
      (server, base + (1 : Nat)) (by simp)
    simp at launched
    rw [launched.1] at port
    simp at port
  · intro one dialler targets alone member target found
    obtain ⟨⟨host, i⟩, numbered, same⟩ := List.mem_map.mp member
    cases same
    have first : i = 0 := by
      have bound := (List.mem_zipIdx' numbered).1
      omega
    rw [List.mem_singleton.mp found, first]
    exact ⟨[base + (0 : Nat)], program, by simp, by simp⟩

theorem served_each {hosts : List Host} {dialler : Host} {base : Int} {program : String} :
    Served (hosts.zipIdx.map fun host => .serve host.1 [base + host.2] program)
      (hosts.zipIdx.map fun host => .dial dialler [(host.1, base + host.2)] true) := by
  intro host targets alone member target found
  obtain ⟨⟨peer, i⟩, numbered, same⟩ := List.mem_map.mp member
  cases same
  rw [List.mem_singleton.mp found]
  exact ⟨_, program, List.mem_map.mpr ⟨(peer, i), numbered, rfl⟩, by simp⟩

theorem ownServers_offset (hosts : List Host) (base : Int) (dialler peer : Host → Host) :
    OwnServers (hosts.zipIdx.map fun host => .dial (dialler host.1) [(peer host.1, base + host.2)] true) := by
  have targets : (hosts.zipIdx.map fun host => Effect.dial (dialler host.1) [(peer host.1, base + host.2)] true).flatMap
      ownTargets = hosts.zipIdx.map fun host => (peer host.1, base + (host.2 : Int)) := by
    rw [List.flatMap_map, List.map_eq_flatMap]
    rfl
  rw [OwnServers, targets]
  have offsets : (hosts.zipIdx.map Prod.snd).Nodup := by
    rw [List.zipIdx_map_snd]
    exact List.nodup_range' ..
  refine List.Nodup.of_map Prod.snd ?_
  rw [List.map_map]
  have shifted := offsets.map (f := fun i : Nat => base + (i : Int)) fun i j same => by
    have equal : base + (i : Int) = base + (j : Int) := same
    omega
  rwa [List.map_map] at shifted

theorem plan_served {config : Config} {hosts : List Host} (clients : config.clients = some hosts)
    (clientSshs : config.clientSshs = some hosts) (serverSsh : config.serverSsh = some config.server)
    (some_client : hosts ≠ []) (known : config.framework ∈ TRANSPORTS) :
    (Served (serverPlan config 1) (clientPlan config) ∧ OwnServers (clientPlan config)) ↔
      (Reversed config ∨ hosts.length = 1) := by
  have names : config.clientNames = hosts := by simp [Config.clientNames, clients]
  have hosts_eq : config.clientHosts = hosts := by simp [Config.clientHosts, clientSshs]
  have server : config.serverHost = config.server := by simp [Config.serverHost, serverSsh]
  have incast : ∀ program : String, Served
      (hosts.map fun host => .serve host [config.roneBaseport, config.roneIbaseport] program)
      [.dial config.server (hosts.flatMap fun client =>
        [(client, config.roneBaseport), (client, config.roneIbaseport)]) false] := by
    intro program
    apply served_everywhere
    intro target found
    obtain ⟨client, member, either⟩ := List.mem_flatMap.mp found
    rcases List.mem_pair.mp either with rfl | rfl <;> simp [member]
  rcases framework_cases known with ⟨reversed, here⟩ | ⟨direct, here⟩
  · refine iff_of_true ?_ (.inl here)
    rcases reversed with rone | iroce | ⟨roce, read⟩ | ⟨dctcp, sized⟩
    · obtain ⟨serves, dials⟩ := plans_rone 1 rone
      rw [serves, dials, hosts_eq, names, server]
      exact ⟨incast _, ownServers_shared _ _⟩
    · obtain ⟨serves, dials⟩ := plans_iroce 1 iroce
      rw [serves, dials, hosts_eq, names, server]
      exact ⟨incast _, ownServers_shared _ _⟩
    · obtain ⟨serves, dials⟩ := plans_read 1 roce read
      rw [serves, dials, hosts_eq, names, server]
      exact ⟨served_each, ownServers_offset _ _ (fun _ => config.server) id⟩
    · obtain ⟨serves, dials⟩ := plans_incast 1 dctcp sized
      rw [serves, dials, hosts_eq, names, server]
      refine ⟨served_everywhere ?_, ownServers_shared _ _⟩
      intro target found
      obtain ⟨client, member, rfl⟩ := List.mem_map.mp found
      exact ⟨member, by simp⟩
  · have one : (Reversed config ∨ hosts.length = 1) ↔ hosts.length = 1 := by simp [here]
    rw [one]
    rcases direct with ⟨roce, write⟩ | ⟨dctcp, unsized⟩
    · obtain ⟨serves, dials⟩ := plans_write 1 roce write
      rw [serves, dials, hosts_eq, server, served_oneEach some_client]
      exact and_iff_left (ownServers_offset _ _ id fun _ => config.server)
    · obtain ⟨serves, dials⟩ := plans_iperf3 1 dctcp unsized
      rw [serves, dials, hosts_eq, server, served_oneEach some_client]
      exact and_iff_left (ownServers_offset _ _ id fun _ => config.server)

/-- Every client connects to a server that was launched, and those that need one of their own have
    it, exactly when the servers are on the client hosts or there is one client only. -/
theorem clients_served_iff {config : Config} {hosts : List Host} (clients : config.clients = some hosts)
    (clientSshs : config.clientSshs = some hosts) (serverSsh : config.serverSsh = some config.server)
    (some_client : hosts ≠ []) {front back : List Happening} {servers : List Proc} {started : Clients}
    (launched : (startFrameworkServers config 1).Runs front (.ok servers))
    (dialled : (startFrameworkClients config).Runs back (.ok started)) :
    (Served (effects front) (effects back) ∧ OwnServers (effects back)) ↔
      (Reversed config ∨ hosts.length = 1) := by
  obtain ⟨known, serves⟩ := runs_startFrameworkServers launched
  rw [serves, (runs_startFrameworkClients dialled).2.1]
  exact plan_served clients clientSshs serverSsh some_client known

def twoClients (framework verb : String) : Config :=
  { cpuExpConfigDefaults "/hw2" with
    framework := framework
    verb := verb
    clients := some ["10.10.1.1", "10.10.1.3"]
    clientSshs := some ["10.10.1.1", "10.10.1.3"]
    serverSsh := some "10.10.1.2" }

def serverTrace (config : Config) : List Happening := ((startFrameworkServers config 1).run (answers fun _ => [])).1

def clientTrace (config : Config) : List Happening := ((startFrameworkClients config).run (answers fun _ => [])).1

theorem starts_twoClients (verb : String) (valid : verb ∈ [READ_RC, WRITE_RC]) :
    (∃ servers, (startFrameworkServers (twoClients RoCE verb) 1).Runs (serverTrace (twoClients RoCE verb)) (.ok servers)) ∧
    ∃ started, (startFrameworkClients (twoClients RoCE verb)).Runs (clientTrace (twoClients RoCE verb)) (.ok started) := by
  have either : verb = READ_RC ∨ verb = WRITE_RC := by simpa using valid
  rcases either with rfl | rfl
  · exact ⟨Prog.runs_of_isOk _ _ (by decide +kernel), Prog.runs_of_isOk _ _ (by decide +kernel)⟩
  · exact ⟨Prog.runs_of_isOk _ _ (by decide +kernel), Prog.runs_of_isOk _ _ (by decide +kernel)⟩

theorem clients_served_read :
    Served (effects (serverTrace (twoClients RoCE READ_RC))) (effects (clientTrace (twoClients RoCE READ_RC))) ∧
      OwnServers (effects (clientTrace (twoClients RoCE READ_RC))) := by
  obtain ⟨⟨servers, launched⟩, started, dialled⟩ := starts_twoClients READ_RC (by decide)
  have reversed : Reversed (twoClients RoCE READ_RC) := by decide
  exact (clients_served_iff rfl rfl rfl (by decide) launched dialled).mpr (.inl reversed)

/-- Two writing clients: the second one connects to a port on which no server was launched. -/
theorem second_client_unserved :
    ((∃ servers, (startFrameworkServers (twoClients RoCE WRITE_RC) 1).Runs
        (serverTrace (twoClients RoCE WRITE_RC)) (.ok servers)) ∧
      ∃ started, (startFrameworkClients (twoClients RoCE WRITE_RC)).Runs
        (clientTrace (twoClients RoCE WRITE_RC)) (.ok started)) ∧
    effects (serverTrace (twoClients RoCE WRITE_RC)) = [.serve "10.10.1.2" [53282] "ib_write_bw"] ∧
    effects (clientTrace (twoClients RoCE WRITE_RC)) =
      [.dial "10.10.1.1" [("10.10.1.2", 53282)] true, .dial "10.10.1.3" [("10.10.1.2", 53283)] true] ∧
    ¬ Served (effects (serverTrace (twoClients RoCE WRITE_RC))) (effects (clientTrace (twoClients RoCE WRITE_RC))) := by
  have serves : effects (serverTrace (twoClients RoCE WRITE_RC)) = [.serve "10.10.1.2" [53282] "ib_write_bw"] := by
    decide +kernel
  have dials : effects (clientTrace (twoClients RoCE WRITE_RC)) =
      [.dial "10.10.1.1" [("10.10.1.2", 53282)] true, .dial "10.10.1.3" [("10.10.1.2", 53283)] true] := by
    decide +kernel
  refine ⟨starts_twoClients WRITE_RC (by decide), serves, dials, ?_⟩
  rw [serves, dials]
  intro served
  obtain ⟨ports, program, launched, port⟩ := served "10.10.1.3" [("10.10.1.2", 53283)] true (by simp)
    ("10.10.1.2", 53283) (by simp)
  simp at launched
  simp [launched.1] at port

end RdmaExps.Cluster
