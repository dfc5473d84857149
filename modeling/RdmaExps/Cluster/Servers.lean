import RdmaExps.Cluster.Command

namespace RdmaExps.Cluster

open RdmaExps.Python

/-- `sudo killall name` on the server host, with its output printed. -/
def killOnServer (config : Config) (name : String) : Run Unit := do
  let serverSsh ← attr "server_ssh" config.serverSsh
  let proc ← execCommand serverSsh (.killall name) none
  let _ ← readOut proc
  let _ ← readErr proc
  return ()

def killRoceServers (config : Config) : Run Unit := do
  let (app, _) ← verbToAppTransport config.verb
  killOnServer config app
  match config.clientSshs with
  | some clientSshs =>
    let _ ← clientSshs.mapM fun clientSsh => execCommand clientSsh (.killall app) none
    return ()
  | none => return ()

def killEverywhere (config : Config) (names : List String) : Run Unit := do
  let _ ← names.mapM fun name => do
    killOnServer config name
    let clientSshs ← attr "client_sshs" config.clientSshs
    clientSshs.mapM fun clientSsh => execCommand clientSsh (.killall name) none
  return ()

def killRoceIncastServers (config : Config) : Run Unit :=
  killEverywhere config ["roce_read_incast_write0", "roce_write_incast_write0", "roce_read_incast"]

def killRoneIncastServers (config : Config) : Run Unit :=
  killEverywhere config ["rone_read_incast", "rone_write_incast_write0"]

def killIperf3Servers (config : Config) : Run Unit := killOnServer config "iperf3"

def killIncastServers (config : Config) : Run Unit := killOnServer config "incast_server"

def mlxDevargs (config : Config) : Except PyErr String :=
  if config.mlxDevstr = "mlx4_0" then .ok "-d mlx4_0 -i 2"
  else if config.mlxDevstr = "mlx5_0" then .ok "-d mlx5_0 -i 1"
  else .error (.valueError "Unknown mlx_devstr")

def numsegsFor (config : Config) : Except PyErr Int :=
  if config.msgSize.isSome then numsegsForMsgsize config else numsegsForRunlen config

/-- `-D` when polling, else `-n`, for each queue pair. -/
def perftestLength (config : Config) : Except PyErr Length :=
  if config.polling then .ok (.duration (truncate (config.runlen + 2)))
  else do
    let numsegs ← numsegsFor config
    let numsegs ← floorDiv numsegs config.numqps
    return .count numsegs

/-- The command without the peer that a client adds. -/
def getRoceAppBaseCmd (config : Config) (port : Int) : Except PyErr Perftest := do
  let (app, transport) ← verbToAppTransport config.verb
  let devargs ← mlxDevargs config
  let length ← perftestLength config
  return ⟨app, port, devargs, length, config.segSize, config.signalIfreq, transport, config.numqps⟩

def isRead (config : Config) : Bool := config.verb = READ_RC || config.verb = READ_UC

/-- Reads reverse the meaning of server and clients: the senders of the data are on the client hosts. -/
def startRoceServers (config : Config) (numservers : Nat) : Run (List Proc) := do
  if isRead config then
    let clientSshs ← attr "client_sshs" config.clientSshs
    clientSshs.zipIdx.mapM fun (clientSsh, i) => do
      let cmd ← getRoceAppBaseCmd config (config.roceBaseport + i)
      execCommand clientSsh (.perftest cmd none) none
  else
    (List.range numservers).mapM fun i : Nat => do
      let cmd ← getRoceAppBaseCmd config (config.roceBaseport + i)
      let serverSsh ← attr "server_ssh" config.serverSsh
      execCommand serverSsh (.perftest cmd none) none

def startIperf3Servers (config : Config) (numservers : Nat) : Run (List Proc) :=
  (List.range numservers).mapM fun i : Nat => do
    let serverSsh ← attr "server_ssh" config.serverSsh
    execCommand serverSsh (.iperf3Server (config.iperfBaseport + i)) none

/-- `None` where the verb has no incast program. -/
def roceIncastCmd (config : Config) : Option String :=
  if config.verb = READ_RC then some (config.roneCodeDir ++ "/code/roce_read_incast")
  else if config.verb = WRITE_UC then some (config.roneCodeDir ++ "/code/roce_write_incast_write0")
  else none

def roneIncastCmd (config : Config) : Option String :=
  if config.verb = READ_RC then some (config.roneCodeDir ++ "/code/rone_read_incast")
  else if config.verb = WRITE_UC then some (config.roneCodeDir ++ "/code/rone_write_incast_write0")
  else none

def ratelimitStr (config : Config) : String := if config.ratelimit = some false then "-R 0 " else ""

def roceIncastServerFlags (config : Config) : Except PyErr String :=
  if config.verb = READ_RC then .ok ""
  else do
    let numsegs ← numsegsForMsgsize config
    let windowInSegs ← floorDiv config.windowSize config.segSize
    return " -n " ++ decimal numsegs ++ " -m " ++ decimal config.segSize ++ " -e 1 -q " ++ decimal windowInSegs

def roneIncastServerFlags (config : Config) : Except PyErr String :=
  if config.verb = READ_RC then .ok (" " ++ ratelimitStr config)
  else do
    let numsegs ← numsegsForMsgsize config
    let _ ← floorDiv config.windowSize config.segSize
    return " " ++ ratelimitStr config ++ " -n " ++ decimal numsegs ++ " -m " ++ decimal config.segSize ++ " -e 1 "

def startRoceIncastServers (config : Config) : Run (List Proc) := do
  let clientSshs ← attr "client_sshs" config.clientSshs
  clientSshs.mapM fun clientSsh => do
    match roceIncastCmd config with
    | some incastLoc =>
      let flags ← roceIncastServerFlags config
      execCommand clientSsh (.verbIncast incastLoc config.roneBaseport config.roneIbaseport none flags) config.timeout
    -- neither branch assigns the command
    | none => throw (.unboundLocalError "server_cmd")

def startRoneIncastServers (config : Config) : Run (List Proc) := do
  let clientSshs ← attr "client_sshs" config.clientSshs
  clientSshs.mapM fun clientSsh => do
    match roneIncastCmd config with
    | some incastLoc =>
      let flags ← roneIncastServerFlags config
      execCommand clientSsh (.verbIncast incastLoc config.roneBaseport config.roneIbaseport none flags) config.timeout
    | none => throw (.unboundLocalError "server_cmd")

def startIncastServers (config : Config) : Run (List Proc) := do
  let clientSshs ← attr "client_sshs" config.clientSshs
  clientSshs.mapM fun clientSsh =>
    execCommand clientSsh (.incastServer (config.roneCodeDir ++ "/bin/incast/incast_server") config.iperfBaseport) none

def startFrameworkServers (config : Config) (numservers : Nat) : Run (List Proc) := do
  if config.framework ∉ TRANSPORTS then
    throw (.valueError ("Unexpected framework: '" ++ config.framework ++ "'"))
  if config.framework = RoNE then startRoneIncastServers config
  else if config.framework = iRoCE then startRoceIncastServers config
  else if config.framework = RoCE then startRoceServers config numservers
  else if config.framework = DCTCP then
    if config.msgSize.isSome then startIncastServers config else startIperf3Servers config numservers
  else throw (.valueError ("Unexpected framework: '" ++ config.framework ++ "'"))

def killFrameworkServers (config : Config) : Run Unit := do
  if config.framework ∉ TRANSPORTS then
    throw (.valueError ("Unexpected framework: '" ++ config.framework ++ "'"))
  if config.framework = RoNE then do
    killRoneIncastServers config
    killRoceIncastServers config
  else if config.framework = iRoCE then do
    killRoceIncastServers config
    killRoneIncastServers config
  else if config.framework = RoCE then killRoceServers config
  else if config.framework = DCTCP then do
    killIperf3Servers config
    killIncastServers config
  else throw (.valueError ("Unexpected framework: '" ++ config.framework ++ "'"))

end RdmaExps.Cluster
