import RdmaExps.Cluster.Network

namespace RdmaExps.Experiment

open RdmaExps.Python RdmaExps.Cluster RdmaExps.Measure

/-- What the experiment asks of the file system. A file is written one character after the other. -/
inductive FileRequest where
  | loadConfig (fname : String)
  | pathExists (path : String)
  | openWrite (path : String)
  | write (path : String) (c : Char)
  | close (path : String)

abbrev FileRequest.Reply : FileRequest → Type
  | .loadConfig _ => UserConfig
  | .pathExists _ => Bool
  | _ => Unit

abbrev Files (α : Type) : Type := Prog FileRequest FileRequest.Reply PyErr α

abbrev MainRequest : Type := Request ⊕ FileRequest

abbrev MainRequest.Reply : MainRequest → Type := Sum.elim Request.Reply FileRequest.Reply

abbrev Main (α : Type) : Type := Prog MainRequest MainRequest.Reply PyErr α

instance : MonadLift Run Main := ⟨Prog.inl⟩

instance : MonadLift Files Main := ⟨Prog.inr⟩

abbrev Step : Type := Event MainRequest MainRequest.Reply PyErr

def askFile (request : FileRequest) : Files request.Reply := Prog.call request

/-- The summary of a dstat stream; `source` is the host it comes from. -/
structure Summary where
  source : Host
  results : Data

structure Results where
  serverCpu : Summary
  clientCpu : Summary
  network : Data

def Results.toData (results : Results) : Data :=
  .dict [("server_cpu", results.serverCpu.results), ("client_cpu", results.clientCpu.results),
    ("network", results.network)]

def connectRhost (rhost : Host) : Run Host := do
  ask (.connect rhost)
  return rhost

/-- The connections and the timeout that the experiment adds to its configuration. -/
def connectHosts (config : Config) : Run Config := do
  let serverSsh ← connectRhost config.server
  let clients ← attr "clients" config.clients
  let clientSshs ← clients.mapM connectRhost
  return { config with serverSsh := some serverSsh, clientSshs := some clientSshs, timeout := some 30 }

theorem runs_connectRhost {rhost connected : Host} {trace : List Happening}
    (runs : (connectRhost rhost).Runs trace (.ok connected)) : effects trace = [] ∧ connected = rhost := by
  obtain ⟨front, back, reply, rfl, first, last⟩ := Prog.runs_bind.mp runs
  rw [runs_ask first, (Prog.runs_pure.mp last).1]
  exact ⟨rfl, Except.ok.inj (Prog.runs_pure.mp last).2⟩

def connectedTo (config : Config) (hosts : List Host) : Config :=
  { config with serverSsh := some config.server, clientSshs := some hosts, timeout := some 30 }

theorem runs_connectHosts {config connected : Config} {trace : List Happening}
    (runs : (connectHosts config).Runs trace (.ok connected)) :
    ∃ hosts, config.clients = some hosts ∧ effects trace = [] ∧ connected = connectedTo config hosts := by
  obtain ⟨front, back, serverSsh, rfl, first, runs⟩ := Prog.runs_bind.mp runs
  obtain ⟨hosts, has, runs⟩ := Prog.runs_lift_bind.mp runs
  obtain ⟨middle, final, clientSshs, rfl, second, last⟩ := Prog.runs_bind.mp runs
  obtain ⟨silent, rfl⟩ := runs_connectRhost first
  have quiet := Prog.Runs.mapM effectOf (g := fun _ => []) (fun _ _ _ _ runs => (runs_connectRhost runs).1) second
  have same := Prog.Runs.mapM_values (g := id) (fun _ _ _ _ runs => (runs_connectRhost runs).2) second
  refine ⟨hosts, attr_ok has, ?_, ?_⟩
  · have none : effects middle = [] := quiet.trans (by simp)
    rw [(Prog.runs_pure.mp last).1, effects_append, effects_append, silent, none]
    rfl
  · rw [Except.ok.inj (Prog.runs_pure.mp last).2, same, List.map_id, connectedTo]

def startRhostDstatProc (config : Config) (rssh : Host) (runLen : Rat) : Run Proc :=
  execCommand rssh (.dstat (config.roneCodeDir ++ "/exps/monitorDstat.py") (truncate runLen)) none

def processRhostDstatProc (lib : Lib) (rhostDstatProc : Proc) : Reading Summary := do
  let stdout ← readOut rhostDstatProc
  let utils ← lib.yamlLoad stdout
  let utils ← utils.toList
  let cpuResults ← processDstatOutputCommon lib.getPercentile utils
  return ⟨rhostDstatProc.host, cpuResults⟩

/-- The test that swaps the two summaries. -/
def swaps (config : Config) : Bool := config.verb = READ_RC || config.verb = WRITE_RC

/-- `assert` after the clients have been started. -/
def checkWriteUc (config : Config) : Except PyErr Unit :=
  if config.verb = WRITE_UC ∧ ¬ (config.framework = iRoCE ∨ config.framework = RoNE ∨ config.framework = DCTCP) then
    .error .assertionError
  else .ok ()

/-- `run_cpu_util_exp` up to the results. -/
def measureCpuUtil (lib : Lib) (config : Config) : Run Results := do
  killFrameworkServers config
  let _ ← startFrameworkServers config 1
  let clients ← startFrameworkClients config
  checkWriteUc config
  let serverSsh ← attr "server_ssh" config.serverSsh
  let serverDstatProc ← startRhostDstatProc config serverSsh config.runlen
  let clientSshs ← attr "client_sshs" config.clientSshs
  let clientSsh ← index clientSshs 0
  let clientDstatProc ← startRhostDstatProc config clientSsh config.runlen
  ask (.sleep config.runlen)
  let serverCpuResults ← processRhostDstatProc lib serverDstatProc
  let clientCpuResults ← processRhostDstatProc lib clientDstatProc
  let networkResults ← processFrameworkClientsOutput lib config clients
  return if swaps config then ⟨clientCpuResults, serverCpuResults, networkResults⟩
    else ⟨serverCpuResults, clientCpuResults, networkResults⟩

def writeText (path : String) (text : List Char) : Files Unit := do
  let _ ← text.mapM fun c => askFile (.write path c)
  return ()

/-- `with open(path, 'w') as outf: yaml.dump(results, outf)` -/
def dumpResults (path : String) (text : List Char) : Files Unit := do
  askFile (.openWrite path)
  tryCatch (writeText path text) fun error => do
    askFile (.close path)
    throw error
  askFile (.close path)

/-- The output file, unless it is `None` or empty. -/
def outfOf (config : Config) : Option String := config.outf.filter fun path => path ≠ ""

def outputResults (lib : Lib) (config : Config) (results : Results) : Files Unit :=
  match outfOf config with
  | some path => dumpResults path (lib.yamlDump results.toData)
  | none => return ()

/-- `run_cpu_util_exp`. The source returns nothing; the results are returned here to speak of
    them. -/
def runCpuUtilExp (lib : Lib) (config : Config) : Main Results := do
  let config ← connectHosts config
  let results ← measureCpuUtil lib config
  outputResults lib config results
  killFrameworkServers config
  return results

def configAt (roneCodeDir : String) (user : UserConfig) (fi : Nat) : Config :=
  let config := cpuUtilExpConfig roneCodeDir user
  { config with
    roneBaseport := config.roneBaseport + 2 * fi
    roneIbaseport := config.roneIbaseport + 2 * fi
    roceBaseport := config.roceBaseport + 2 * fi }

/-- `config.outf and os.path.exists(config.outf) and args.skip_existing` -/
def skips (config : Config) (skipExisting : Bool) : Files Bool :=
  match outfOf config with
  | some path => do
    let found ← askFile (.pathExists path)
    return found && skipExisting
  | none => return false

def runUnless (lib : Lib) (config : Config) (skip : Bool) : Main Unit :=
  if skip then return ()
  else do
    ask (.sleep (1 / 2))
    let _ ← runCpuUtilExp lib config
    return ()

/-- The body of the loop over the configuration files. -/
def runConfig (lib : Lib) (roneCodeDir : String) (skipExisting : Bool) (entry : String × Nat) : Main Unit := do
  let user ← askFile (.loadConfig entry.1)
  let config := configAt roneCodeDir user entry.2
  let skip ← skips config skipExisting
  runUnless lib config skip

def noUserConfig : UserConfig :=
  ⟨none, none, none, none, none, none, none, none, none, none, none, none, none, none, none, none, none, none, none,
    none, none⟩

def main (lib : Lib) (roneCodeDir : String) (configs : List String) (skipExisting : Bool) : Main Unit := do
  if configs.isEmpty then
    let _ ← runCpuUtilExp lib (cpuUtilExpConfig roneCodeDir noUserConfig)
    return ()
  else
    let _ ← configs.zipIdx.mapM (runConfig lib roneCodeDir skipExisting)
    return ()

def mainAnswers (out : Proc → List Char) : (request : MainRequest) → Except PyErr request.Reply
  | .inl request => answers out request
  | .inr (.loadConfig fname) => .error (.external fname)
  | .inr (.pathExists _) => .ok false
  | .inr (.openWrite _) => .ok ()
  | .inr (.write _ _) => .ok ()
  | .inr (.close _) => .ok ()

def dstatText : List Char :=
  ("- cpu0: {idl: 0.0}\n  cpu1: {idl: 100.0}\n  iter: 1\n" ++
    "- cpu0: {idl: 0.0}\n  cpu1: {idl: 100.0}\n  iter: 2\n" ++
    "- cpu0: {idl: 0.0}\n  cpu1: {idl: 100.0}\n  iter: 3\n").toList

def dstatData : Data :=
  let sample (iter : Rat) : Data :=
    .dict [("cpu0", .dict [("idl", .num 0)]), ("cpu1", .dict [("idl", .num 100)]), ("iter", .num iter)]
  .list [sample 1, sample 2, sample 3]

def perftestText : List Char :=
  " #bytes #iterations\n 16384 1000 9.50 9.50 0.072\n-----\n".toList

def resultsText : List Char :=
  ("client_cpu:\n  50p: 100.0\n  avg: 100.0\n  ivals: [100.0]\n" ++
    "network:\n  50p: 9.5\n  avg: 9.5\n  clients: [9.5]\n  unfairness: 0.0\n" ++
    "server_cpu:\n  50p: 100.0\n  avg: 100.0\n  ivals: [100.0]\n").toList

/-- The libraries on these texts; the percentile is that of a single number. -/
def textLib : Lib where
  yamlLoad text := if text = dstatText then .ok dstatData else .error (.external "yaml")
  yamlDump _ := resultsText
  jsonLoad _ := .error (.valueError "No JSON object could be decoded")
  getPercentile data _ := data.headD 0

def outputs (proc : Proc) : List Char :=
  match proc.command with
  | .dstat _ _ => dstatText
  | .perftest _ (some _) => perftestText
  | _ => []

def roceConfig (verb : String) (outf : Option String) : Config :=
  { cpuExpConfigDefaults "/hw2" with
    framework := RoCE
    verb := verb
    outf := outf
    clients := some ["10.10.1.1"] }

end RdmaExps.Experiment
