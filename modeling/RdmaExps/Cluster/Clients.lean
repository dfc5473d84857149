import RdmaExps.Cluster.Servers

namespace RdmaExps.Cluster

open RdmaExps.Python

/-- What starting the clients returns: a list, or a dictionary of lists for some incast programs. -/
inductive Clients where
  | procs (clients : List Proc)
  | dict (incasts pings servers : Option (List Proc))

def startRoceClientsRead (config : Config) : Run (List Proc) := do
  let clients ← attr "clients" config.clients
  clients.zipIdx.mapM fun (cip, offset) => do
    let cmd ← getRoceAppBaseCmd config (config.roceBaseport + offset)
    let serverSsh ← attr "server_ssh" config.serverSsh
    execCommand serverSsh (.perftest cmd (some cip)) config.timeout

def startRoceClients (config : Config) (offset : Nat) (rhost : Host) : Run (List Proc) := do
  let cmd ← getRoceAppBaseCmd config (config.roceBaseport + offset)
  let proc ← execCommand rhost (.perftest cmd (some config.server)) config.timeout
  return [proc]

def startIperf3Clients (config : Config) (offset : Nat) (rhost : Host) : Run (List Proc) := do
  let mstr := match config.msgSize with
    | some msgSize => "-n " ++ decimal msgSize
    | none => "-t " ++ decimal (truncate (config.runlen + 2))
  let proc ← execCommand rhost (.iperf3Client config.server mstr (config.iperfBaseport + offset)) none
  return [proc]

def startPingClients (config : Config) (numPings : Int) : Run (List Proc) := do
  let clients ← attr "clients" config.clients
  clients.mapM fun client => do
    let serverSsh ← attr "server_ssh" config.serverSsh
    execCommand serverSsh (.ping numPings client) none

def startRoceIncastClients (config : Config) : Run Clients := do
  let _ ← attr "msg_size" config.msgSize
  let clients ← attr "clients" config.clients
  let numsegs ← numsegsForMsgsize config
  let windowInSegs ← floorDiv config.windowSize config.segSize
  match roceIncastCmd config with
  | some incastLoc =>
    let flags :=
      if config.verb = READ_RC then
        " -e 1 -c 1 -n " ++ decimal numsegs ++ " -m " ++ decimal config.segSize ++ " -q " ++ decimal windowInSegs ++
          " -M " ++ decimal clients.length
      else " -e 1 -c 1 -q " ++ decimal windowInSegs ++ " -M " ++ decimal clients.length
    let serverSsh ← attr "server_ssh" config.serverSsh
    let proc ← execCommand serverSsh
      (.verbIncast incastLoc config.roneBaseport config.roneIbaseport (some clients) flags) config.timeout
    if config.verb = WRITE_UC then
      let pingProcs ← startPingClients config 500
      return .dict (some [proc]) (some pingProcs) none
    else return .procs [proc]
  | none => throw (.unboundLocalError "cmd")

def startRoneIncastClients (config : Config) : Run Clients := do
  let _ ← attr "msg_size" config.msgSize
  let clients ← attr "clients" config.clients
  let numsegs ← numsegsForMsgsize config
  match roneIncastCmd config with
  | some incastLoc =>
    let flags :=
      if config.verb = READ_RC then
        " -e 1 -c 1 " ++ ratelimitStr config ++ " -n " ++ decimal numsegs ++ " -m " ++ decimal config.segSize ++
          " -M " ++ decimal clients.length
      else " -e 1 -c 1 " ++ ratelimitStr config ++ " -M " ++ decimal clients.length
    let serverSsh ← attr "server_ssh" config.serverSsh
    let proc ← execCommand serverSsh
      (.verbIncast incastLoc config.roneBaseport config.roneIbaseport (some clients) flags) config.timeout
    return if config.verb = WRITE_UC then .dict (some [proc]) none none else .procs [proc]
  | none => throw (.unboundLocalError "cmd")

def incastMsgsize (config : Config) : Except PyErr Int :=
  match config.msgSize with
  | some msgSize => .ok msgSize
  | none => do
    let numsegs ← numsegsForRunlen config
    return numsegs * config.segSize

def startIncastClients (config : Config) : Run Clients := do
  let msgsize ← incastMsgsize config
  let clients ← attr "clients" config.clients
  let serverSsh ← attr "server_ssh" config.serverSsh
  let proc ← execCommand serverSsh (.incastClient (config.roneCodeDir ++ "/bin/incast/incast_client") msgsize
    (clients.map fun client => (client, config.iperfBaseport))) none
  let pingProcs ← startPingClients config 150
  return .dict (some [proc]) (some pingProcs) none

def startEachClient (config : Config) : Run Clients := do
  let clientSshs ← attr "client_sshs" config.clientSshs
  let clients ← clientSshs.zipIdx.mapM fun (rhost, offset) =>
    if config.framework = RoCE then startRoceClients config offset rhost
    else if config.framework = DCTCP then startIperf3Clients config offset rhost
    else throw (.valueError ("Unexpected framework: '" ++ config.framework ++ "'"))
  return .procs clients.flatten

def startFrameworkClients (config : Config) : Run Clients := do
  if config.framework ∉ TRANSPORTS then
    throw (.valueError ("Unexpected framework: '" ++ config.framework ++ "'"))
  if config.framework = DCTCP ∧ config.msgSize.isSome then startIncastClients config
  else if config.framework = iRoCE then startRoceIncastClients config
  else if config.framework = RoCE ∧ isRead config then return .procs (← startRoceClientsRead config)
  else if config.framework = RoNE then startRoneIncastClients config
  else startEachClient config

end RdmaExps.Cluster
