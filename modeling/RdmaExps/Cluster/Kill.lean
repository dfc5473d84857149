import RdmaExps.Cluster.Plan

namespace RdmaExps.Cluster

open RdmaExps.Python

/-- The base names of the programs that run on each host. -/
abbrev ProcessTable := Host → Multiset String

namespace ProcessTable

/-- A started server is one more process; `killall` removes all processes of a name. -/
def after (table : ProcessTable) : Effect → ProcessTable
  | .serve host _ program => Function.update table host (program ::ₘ table host)
  | .dial _ _ _ => table
  | .kill host name => Function.update table host ((table host).filter (· ≠ name))

def afterAll (table : ProcessTable) (effects : List Effect) : ProcessTable := effects.foldl after table

theorem mem_after_of_mem {table : ProcessTable} {host : Host} {program : String} (running : program ∈ table host)
    {effect : Effect} (spared : effect ≠ .kill host program) : program ∈ table.after effect host := by
  cases effect with
  | serve other ports name =>
    by_cases same : host = other
    · subst same
      simp [after, running]
    · simpa [after, same] using running
  | dial other targets alone => exact running
  | kill other name =>
    by_cases same : host = other
    · subst same
      have differ : program ≠ name := fun equal => spared (equal ▸ rfl)
      simp [after, running, differ]
    · simpa [after, same] using running

theorem mem_afterAll_of_mem {table : ProcessTable} {host : Host} {program : String} (running : program ∈ table host)
    {effects : List Effect} (spared : Effect.kill host program ∉ effects) : program ∈ table.afterAll effects host := by
  induction effects generalizing table with
  | nil => exact running
  | cons effect effects ih =>
    simp only [List.mem_cons, not_or] at spared
    exact ih (mem_after_of_mem running (Ne.symm spared.1)) spared.2

theorem mem_afterAll_of_served {table : ProcessTable} {host : Host} {ports : List Int} {program : String}
    {effects : List Effect} (served : Effect.serve host ports program ∈ effects)
    (spared : Effect.kill host program ∉ effects) : program ∈ table.afterAll effects host := by
  induction effects generalizing table with
  | nil => cases served
  | cons effect effects ih =>
    simp only [List.mem_cons, not_or] at spared
    rcases List.mem_cons.mp served with rfl | later
    · change program ∈ (table.after (.serve host ports program)).afterAll effects host
      exact mem_afterAll_of_mem (by simp [after]) spared.2
    · exact ih later spared.2

theorem not_mem_afterAll_of_killed {table : ProcessTable} {host : Host} {program : String} {effects : List Effect}
    (kills : ∀ effect ∈ effects, ∃ host name, effect = .kill host name)
    (gone : program ∉ table host ∨ Effect.kill host program ∈ effects) : program ∉ table.afterAll effects host := by
  induction effects generalizing table with
  | nil => simpa [afterAll] using gone
  | cons effect effects ih =>
    obtain ⟨other, name, rfl⟩ := kills effect (by simp)
    apply ih fun later member => kills later (by simp [member])
    by_cases here : Effect.kill host program = .kill other name
    · cases here
      exact .inl (by simp [after])
    · rcases gone with absent | killed
      · refine .inl fun running => absent ?_
        by_cases same : host = other
        · subst same
          simp only [after, Function.update_self, Multiset.mem_filter] at running
          exact running.1
        · simpa [after, same] using running
      · exact .inr ((List.mem_cons.mp killed).resolve_left here)

end ProcessTable

def Undone (starts kills : List Effect) (table : ProcessTable) : Prop :=
  ∀ host ports program, Effect.serve host ports program ∈ starts →
    program ∉ table.afterAll (starts ++ kills) host

theorem undone_iff {starts kills : List Effect} (table : ProcessTable)
    (no_kill : ∀ host name, Effect.kill host name ∉ starts)
    (all_kills : ∀ effect ∈ kills, ∃ host name, effect = .kill host name) :
    Undone starts kills table ↔
      ∀ host ports program, Effect.serve host ports program ∈ starts → Effect.kill host program ∈ kills := by
  constructor
  · intro undone host ports program served
    by_contra spared
    apply undone host ports program served
    exact ProcessTable.mem_afterAll_of_served (List.mem_append_left _ served) (by simp [no_kill, spared])
  · intro killed host ports program served
    rw [ProcessTable.afterAll, List.foldl_append]
    exact ProcessTable.not_mem_afterAll_of_killed all_kills (.inr (killed host ports program served))

/-- The servers of the incast program are killed on the server host only. -/
def OnServerHost (config : Config) : Prop :=
  config.framework = DCTCP → config.msgSize.isSome = true → ∀ host ∈ config.clientHosts, host = config.serverHost

theorem kill_mem_everywhere {config : Config} {names : List String} {host : Host} {name : String}
    (known : host = config.serverHost ∨ host ∈ config.clientHosts) (listed : name ∈ names) :
    Effect.kill host name ∈ killsEverywhere config names :=
  mem_killsEverywhere.mpr ⟨name, listed, host, known, rfl⟩

theorem roneIncastApp_listed (config : Config) :
    roneIncastApp config ∈ ["rone_read_incast", "rone_write_incast_write0"] := by
  unfold roneIncastApp
  split <;> simp

theorem roceIncastApp_listed (config : Config) :
    roceIncastApp config ∈ ["roce_read_incast_write0", "roce_write_incast_write0", "roce_read_incast"] := by
  unfold roceIncastApp
  split <;> simp

theorem plan_killed {config : Config} {numservers : Nat} (known : config.framework ∈ TRANSPORTS) :
    (∀ host ports program, Effect.serve host ports program ∈ serverPlan config numservers →
      Effect.kill host program ∈ killPlan config) ↔ OnServerHost config := by
  have elsewhere : config.framework ≠ DCTCP → OnServerHost config :=
    fun differ dctcp => absurd dctcp differ
  rcases framework_cases known with ⟨rone | iroce | ⟨roce, read⟩ | ⟨dctcp, sized⟩, -⟩ |
    ⟨⟨roce, write⟩ | ⟨dctcp, unsized⟩, -⟩
  · refine iff_of_true ?_ (elsewhere (by rw [rone]; decide))
    intro host ports program served
    rw [(plans_rone numservers rone).1] at served
    obtain ⟨client, member, same⟩ := List.mem_map.mp served
    cases same
    rw [killPlan, if_pos rone]
    exact List.mem_append_left _ (kill_mem_everywhere (.inr member) (roneIncastApp_listed config))
  · refine iff_of_true ?_ (elsewhere (by rw [iroce]; decide))
    intro host ports program served
    rw [(plans_iroce numservers iroce).1] at served
    obtain ⟨client, member, same⟩ := List.mem_map.mp served
    cases same
    rw [killPlan, if_neg (by rw [iroce]; decide), if_pos iroce]
    exact List.mem_append_left _ (kill_mem_everywhere (.inr member) (roceIncastApp_listed config))
  · refine iff_of_true ?_ (elsewhere (by rw [roce]; decide))
    intro host ports program served
    rw [(plans_read numservers roce read).1] at served
    obtain ⟨⟨client, i⟩, numbered, same⟩ := List.mem_map.mp served
    cases same
    have member : client ∈ config.clientHosts := List.fst_mem_of_mem_zipIdx numbered
    rw [killPlan, if_neg (by rw [roce]; decide), if_neg (by rw [roce]; decide), if_pos roce]
    exact kill_mem_everywhere (.inr member) (by simp)
  · rw [(plans_incast numservers dctcp sized).1, killPlan_dctcp dctcp]
    constructor
    · intro killed _ _ host member
      have here := killed host _ _ (List.mem_map.mpr ⟨host, member, rfl⟩)
      simpa using here
    · intro same host ports program served
      obtain ⟨client, member, equal⟩ := List.mem_map.mp served
      cases equal
      simp [same dctcp sized host member]
  · refine iff_of_true ?_ (elsewhere (by rw [roce]; decide))
    intro host ports program served
    rw [(plans_write numservers roce write).1] at served
    obtain ⟨i, -, same⟩ := List.mem_map.mp served
    cases same
    rw [killPlan, if_neg (by rw [roce]; decide), if_neg (by rw [roce]; decide), if_pos roce]
    exact kill_mem_everywhere (.inl rfl) (by simp)
  · rw [(plans_iperf3 numservers dctcp unsized).1, killPlan_dctcp dctcp]
    refine iff_of_true ?_ fun _ sized => by simp [unsized] at sized
    intro host ports program served
    obtain ⟨i, -, same⟩ := List.mem_map.mp served
    cases same
    simp

/-- Killing a framework's servers after starting them leaves none of them, exactly when no incast
    server was started on another host than the server host. -/
theorem kill_undoes_start_iff {config : Config} {numservers : Nat} {front back : List Happening}
    {servers : List Proc} (launched : (startFrameworkServers config numservers).Runs front (.ok servers))
    (killed : (killFrameworkServers config).Runs back (.ok ())) (table : ProcessTable) :
    Undone (effects front) (effects back) table ↔ OnServerHost config := by
  obtain ⟨known, serves⟩ := runs_startFrameworkServers launched
  rw [serves, (runs_killFrameworkServers killed).2,
    undone_iff table ?_ (killPlan_kills config)]
  · exact plan_killed known
  · intro host name member
    obtain ⟨_, _, _, same⟩ := serverPlan_serves config numservers _ member
    cases same

def oneClient (framework : String) (msgSize : Option Int) : Config :=
  { cpuExpConfigDefaults "/hw2" with
    framework := framework
    msgSize := msgSize
    clients := some ["10.10.1.1"]
    clientSshs := some ["10.10.1.1"]
    serverSsh := some "10.10.1.2" }

theorem kill_undoes_read : ∃ front back,
    (∃ servers, (startFrameworkServers (oneClient RoCE none) 1).Runs front (.ok servers)) ∧
    (killFrameworkServers (oneClient RoCE none)).Runs back (.ok ()) ∧
    Undone (effects front) (effects back) fun _ => 0 := by
  obtain ⟨servers, launched⟩ := Prog.runs_of_isOk (answers fun _ => [])
    (startFrameworkServers (oneClient RoCE none) 1) (by decide +kernel)
  obtain ⟨_, killed⟩ := Prog.runs_of_isOk (answers fun _ => [])
    (killFrameworkServers (oneClient RoCE none)) (by decide +kernel)
  exact ⟨_, _, ⟨servers, launched⟩, killed, (kill_undoes_start_iff launched killed fun _ => 0).mpr fun dctcp =>
    absurd dctcp (by decide)⟩

theorem incast_server_left : ∃ front back,
    (∃ servers, (startFrameworkServers (oneClient DCTCP (some 1048576)) 1).Runs front (.ok servers)) ∧
    (killFrameworkServers (oneClient DCTCP (some 1048576))).Runs back (.ok ()) ∧
    effects front = [.serve "10.10.1.1" [5001] "incast_server"] ∧
    effects back = [.kill "10.10.1.2" "iperf3", .kill "10.10.1.2" "incast_server"] ∧
    ¬ Undone (effects front) (effects back) fun _ => 0 := by
  obtain ⟨servers, launched⟩ := Prog.runs_of_isOk (answers fun _ => [])
    (startFrameworkServers (oneClient DCTCP (some 1048576)) 1) (by decide +kernel)
  obtain ⟨_, killed⟩ := Prog.runs_of_isOk (answers fun _ => [])
    (killFrameworkServers (oneClient DCTCP (some 1048576))) (by decide +kernel)
  have serves := (runs_startFrameworkServers launched).2
  have kills := (runs_killFrameworkServers killed).2
  refine ⟨_, _, ⟨servers, launched⟩, killed, serves, kills, ?_⟩
  intro undone
  have gone := undone "10.10.1.1" [5001] "incast_server" (by rw [serves]; decide)
  have served : Effect.serve "10.10.1.1" [5001] "incast_server" ∈
      serverPlan (oneClient DCTCP (some 1048576)) 1 ++ killPlan (oneClient DCTCP (some 1048576)) := by
    decide
  rw [serves, kills] at gone
  exact gone (ProcessTable.mem_afterAll_of_served served (by decide))

end RdmaExps.Cluster
