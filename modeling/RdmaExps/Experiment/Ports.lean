import RdmaExps.Cluster.Plan
import RdmaExps.Experiment.CpuUtil

namespace RdmaExps.Experiment

open RdmaExps.Python RdmaExps.Cluster

def endpoints (trace : List Happening) : List (Host × Int) :=
  (effects trace).flatMap fun
    | .serve host ports _ => ports.map fun port => (host, port)
    | _ => []

/-- `start_roce_servers` in the experiment at position `fi` of the list, once it is connected. -/
def launchServers (roneCodeDir : String) (user : UserConfig) (fi : Nat) : Run (List Proc) := do
  let config ← connectHosts (configAt roneCodeDir user fi)
  startRoceServers config 1

def roceHosts (config : Config) : List Host := if isRead config then config.clientNames else [config.server]

/-- Some host of the second list stands `gap` places further in the first. -/
def Meets (gap : Nat) (hosts later : List Host) : Prop := ∃ pair ∈ (hosts.drop gap).zip later, pair.1 = pair.2

instance (gap : Nat) (hosts later : List Host) : Decidable (Meets gap hosts later) :=
  inferInstanceAs (Decidable (∃ pair ∈ _, _))

theorem meets_iff {gap : Nat} {hosts later : List Host} :
    Meets gap hosts later ↔ ∃ l host, hosts[l + gap]? = some host ∧ later[l]? = some host := by
  constructor
  · rintro ⟨⟨host, other⟩, member, same⟩
    obtain rfl : host = other := same
    obtain ⟨l, paired⟩ := List.mem_iff_getElem?.mp member
    rw [List.getElem?_zip_eq_some, List.getElem?_drop, Nat.add_comm] at paired
    exact ⟨l, host, paired⟩
  · rintro ⟨l, host, first, second⟩
    refine ⟨(host, host), List.mem_iff_getElem?.mpr ⟨l, ?_⟩, rfl⟩
    rw [List.getElem?_zip_eq_some, List.getElem?_drop, Nat.add_comm]
    exact ⟨first, second⟩

def onPorts (base : Int) (hosts : List Host) : List (Host × Int) :=
  hosts.zipIdx.map fun host => (host.1, base + host.2)

theorem mem_onPorts {base port : Int} {hosts : List Host} {host : Host} :
    (host, port) ∈ onPorts base hosts ↔ ∃ k : Nat, hosts[k]? = some host ∧ port = base + k := by
  constructor
  · intro member
    obtain ⟨⟨other, k⟩, numbered, same⟩ := List.mem_map.mp member
    cases same
    exact ⟨k, List.mem_zipIdx_iff_getElem?.mp numbered, rfl⟩
  · rintro ⟨k, here, rfl⟩
    exact List.mem_map.mpr ⟨(host, k), List.mem_zipIdx_iff_getElem?.mpr here, rfl⟩

theorem disjoint_onPorts_iff {base : Int} {gap : Nat} {hosts later : List Host} :
    List.Disjoint (onPorts base hosts) (onPorts (base + gap) later) ↔ ¬ Meets gap hosts later := by
  rw [meets_iff]
  constructor
  · rintro apart ⟨l, host, first, second⟩
    apply apart (mem_onPorts.mpr ⟨l + gap, first, rfl⟩) (mem_onPorts.mpr ⟨l, second, ?_⟩)
    push_cast
    ring
  · intro never
    rintro ⟨host, port⟩ first second
    obtain ⟨k, here, rfl⟩ := mem_onPorts.mp first
    obtain ⟨l, there, same⟩ := mem_onPorts.mp second
    apply never
    refine ⟨l, host, ?_, there⟩
    rw [show l + gap = k by omega]
    exact here

theorem endpoints_launchServers {roneCodeDir : String} {user : UserConfig} {fi : Nat} {trace : List Happening}
    {procs : List Proc} (runs : (launchServers roneCodeDir user fi).Runs trace (.ok procs)) :
    endpoints trace = onPorts ((cpuUtilExpConfig roneCodeDir user).roceBaseport + 2 * fi)
      (roceHosts (cpuUtilExpConfig roneCodeDir user)) := by
  obtain ⟨front, back, connected, rfl, connects, launches⟩ := Prog.runs_bind.mp runs
  obtain ⟨hosts, clients, silent, rfl⟩ := runs_connectHosts connects
  have listed : (cpuUtilExpConfig roneCodeDir user).clients = some hosts := clients
  rw [endpoints, effects_append, silent, List.nil_append, runs_startRoceServers launches, roceHosts, Config.clientNames,
    listed]
  by_cases read : isRead (cpuUtilExpConfig roneCodeDir user)
  · rw [if_pos read, if_pos (show isRead (connectedTo (configAt roneCodeDir user fi) hosts) = true from read),
      List.flatMap_map, onPorts, List.map_eq_flatMap]
    rfl
  · rw [if_neg read, if_neg (show ¬ isRead (connectedTo (configAt roneCodeDir user fi) hosts) = true from read)]
    rfl

theorem not_meets_of_length {gap : Nat} {hosts : List Host} (short : hosts.length ≤ gap) (later : List Host) :
    ¬ Meets gap hosts later := by
  rw [Meets, List.drop_eq_nil_of_le short]
  simp

/-- The experiments of an invocation launch their servers on different endpoints, exactly when no
    host stands twice the distance of two experiments further in the list of the earlier one. -/
theorem endpoints_disjoint_iff {roneCodeDir : String} {base : Int} {users : List UserConfig}
    {traces : Nat → List Happening}
    (common : ∀ user ∈ users, (cpuUtilExpConfig roneCodeDir user).roceBaseport = base)
    (launched : ∀ i user, users[i]? = some user →
      ∃ procs, (launchServers roneCodeDir user i).Runs (traces i) (.ok procs)) :
    (∀ i j, i ≠ j → i < users.length → j < users.length →
      List.Disjoint (endpoints (traces i)) (endpoints (traces j))) ↔
      ∀ i j user later, i < j → users[i]? = some user → users[j]? = some later →
        ¬ Meets (2 * (j - i)) (roceHosts (cpuUtilExpConfig roneCodeDir user))
          (roceHosts (cpuUtilExpConfig roneCodeDir later)) := by
  have apart : ∀ i j user later, i < j → users[i]? = some user → users[j]? = some later →
      (List.Disjoint (endpoints (traces i)) (endpoints (traces j)) ↔
        ¬ Meets (2 * (j - i)) (roceHosts (cpuUtilExpConfig roneCodeDir user))
          (roceHosts (cpuUtilExpConfig roneCodeDir later))) := by
    intro i j user later before here there
    obtain ⟨procs, runs⟩ := launched i user here
    obtain ⟨procs', runs'⟩ := launched j later there
    have ports : base + 2 * (j : Int) = base + 2 * (i : Int) + (2 * (j - i) : Nat) := by omega
    rw [endpoints_launchServers runs, endpoints_launchServers runs', common user (List.mem_of_getElem? here),
      common later (List.mem_of_getElem? there), ports]
    exact disjoint_onPorts_iff
  constructor
  · intro disjoint i j user later before here there
    obtain ⟨first, -⟩ := List.getElem?_eq_some_iff.mp here
    obtain ⟨second, -⟩ := List.getElem?_eq_some_iff.mp there
    exact (apart i j user later before here there).mp (disjoint i j (by omega) first second)
  · intro never i j differ first second
    have here := List.getElem?_eq_getElem first
    have there := List.getElem?_eq_getElem second
    rcases Nat.lt_or_gt_of_ne differ with before | after
    · exact (apart i j _ _ before here there).mpr (never i j _ _ before here there)
    · exact ((apart j i _ _ after there here).mpr (never j i _ _ after there here)).symm

def readUser (clients : List Host) : UserConfig :=
  { noUserConfig with
    framework := some RoCE
    verb := some READ_RC
    clients := some clients }

def launchTraces (users : List UserConfig) (i : Nat) : List Happening :=
  match users[i]? with
  | some user => ((launchServers "/hw2" user i).run (answers fun _ => [])).1
  | none => []

theorem launched_at {users : List UserConfig} {i : Nat} {user : UserConfig} (found : users[i]? = some user)
    (returns : ((launchServers "/hw2" user i).run (answers fun _ => [])).2.isOk = true) :
    ∃ procs, (launchServers "/hw2" user i).Runs (launchTraces users i) (.ok procs) := by
  rw [launchTraces, found]
  exact Prog.runs_of_isOk _ _ returns

def twoClients : List UserConfig := [readUser ["10.10.1.1", "10.10.1.3"], readUser ["10.10.1.3", "10.10.1.1"]]

def threeClients : List UserConfig :=
  [readUser ["10.10.1.1", "10.10.1.3", "10.10.1.4"], readUser ["10.10.1.4", "10.10.1.3", "10.10.1.1"]]

theorem endpoints_disjoint_two :
    List.Disjoint (endpoints (launchTraces twoClients 0)) (endpoints (launchTraces twoClients 1)) := by
  have common : ∀ user ∈ twoClients, (cpuUtilExpConfig "/hw2" user).roceBaseport = 53282 := by decide
  refine (endpoints_disjoint_iff common ?_).mpr ?_ 0 1 (by decide) (by decide) (by decide)
  · intro i user found
    match i, found with
    | 0, found =>
      cases found
      exact launched_at rfl (by decide +kernel)
    | 1, found =>
      cases found
      exact launched_at rfl (by decide +kernel)
  · intro i j user later before here there
    apply not_meets_of_length
    have short : ∀ user ∈ twoClients, (roceHosts (cpuUtilExpConfig "/hw2" user)).length ≤ 2 := by decide
    have few := short user (List.mem_of_getElem? here)
    omega

/-- The third client of the first experiment and the first of the second wait on one port. -/
theorem third_port_reused :
    (∀ i user, threeClients[i]? = some user →
      ∃ procs, (launchServers "/hw2" user i).Runs (launchTraces threeClients i) (.ok procs)) ∧
    ("10.10.1.4", 53284) ∈ endpoints (launchTraces threeClients 0) ∧
    ("10.10.1.4", 53284) ∈ endpoints (launchTraces threeClients 1) ∧
    ¬ List.Disjoint (endpoints (launchTraces threeClients 0)) (endpoints (launchTraces threeClients 1)) := by
  have first : ("10.10.1.4", 53284) ∈ endpoints (launchTraces threeClients 0) := by decide +kernel
  have second : ("10.10.1.4", 53284) ∈ endpoints (launchTraces threeClients 1) := by decide +kernel
  refine ⟨?_, first, second, fun apart => apart first second⟩
  intro i user found
  match i, found with
  | 0, found =>
    cases found
    exact launched_at rfl (by decide +kernel)
  | 1, found =>
    cases found
    exact launched_at rfl (by decide +kernel)

end RdmaExps.Experiment
