import RdmaExps.Cluster.Clients
import RdmaExps.Measure.Ping
import RdmaExps.Measure.Dstat

namespace RdmaExps.Cluster

open RdmaExps.Python RdmaExps.Measure

/-- The libraries the experiment uses: YAML, JSON and statistics. -/
structure Lib where
  yamlLoad : List Char → Except PyErr Data
  yamlDump : Data → List Char
  jsonLoad : List Char → Except PyErr Data
  getPercentile : List Rat → Rat → Rat

def Clients.getItem (clients : Clients) (key : String) : Except PyErr (List Proc) :=
  match clients with
  | .dict incasts pings servers =>
    if key = "incasts" then entryOf key incasts
    else if key = "pings" then entryOf key pings
    else if key = "servers" then entryOf key servers
    else .error (.keyError key)
  | .procs _ => .error (.typeError "list indices must be integers, not str")

/-- The clients of a list; the keys of a dictionary are no processes. -/
def Clients.toList (clients : Clients) : Except PyErr (List Proc) :=
  match clients with
  | .procs clients => .ok clients
  | .dict _ _ _ => .error (.attributeError "stdout")

def aggTput (lib : Lib) (clientGbps : List Rat) (extra : List (String × Data)) : Except PyErr Data := do
  let avg ← trueDiv clientGbps.sum clientGbps.length
  match clientGbps.max?, clientGbps.min? with
  | some most, some least =>
    return .dict ([("50p", .num (lib.getPercentile clientGbps 50)), ("avg", .num avg),
      ("unfairness", .num (most - least))] ++ extra ++ [("clients", .list (clientGbps.map .num))])
  | _, _ => .error (.valueError "max() arg is an empty sequence")

def roceGbps (config : Config) (out : List Char) : Except PyErr Rat := do
  let outlines := out.splitOn '\n'
  if outlines.length < 3 then .error .indexError
  else
    let values := splitWords (outlines.getD (outlines.length - 3) [])
    let segSize ← index values 0
    match parseInt segSize with
    | none => .error (.valueError "invalid literal for int() with base 10")
    | some segSize =>
      if segSize ≠ config.segSize then .error (.valueError "Unexpected client segment size!")
      else
        let gbps ← index values 3
        match parseFloat gbps with
        | some gbps => .ok gbps
        | none => .error (.valueError "could not convert string to float")

def processRoceClientsOutput (lib : Lib) (config : Config) (clients : Clients) : Reading Data := do
  let clients ← clients.toList
  let clientGbps ← clients.mapM fun client => do
    let out ← readOut client
    let _ ← readErr client
    roceGbps config out
  aggTput lib clientGbps []

def iperf3Gbps (jsonObj : Data) : Except PyErr Rat := do
  let ending ← jsonObj.getItem "end"
  let sumSent ← ending.getItem "sum_sent"
  let bits ← sumSent.getItem "bits_per_second"
  let bits ← bits.toFloat parseFloat
  return bits / 1000000000

/-- The output is printed before an exception is passed on. -/
def loadIperf3 (lib : Lib) (proc : Proc) : Reading Data :=
  tryCatch (do
    let out ← readOut proc
    lib.jsonLoad out) fun error => do
    let _ ← readOut proc
    let _ ← readErr proc
    throw error

def processIperf3ClientsOutput (lib : Lib) (clients : Clients) : Reading Data := do
  let clients ← clients.toList
  let clientJsonObjs ← clients.mapM (loadIperf3 lib)
  let clientTputs ← (clientJsonObjs.mapM iperf3Gbps : Except PyErr (List Rat))
  aggTput lib clientTputs []

/-- `process_ping_output`, reading as it goes. -/
def readPingOutput (clients : List Proc) : Reading (List Rat) :=
  clients.foldlM (fun latencies client => do
    let out ← readOut client
    pingClient latencies out) []

def gbpsOf (row : Data) : Except PyErr Data := do
  let items ← row.unpack 4
  index items 2

def secondOf (row : Data) : Except PyErr Data := row.item 1

structure IncastState where
  clientGbps : List Data
  incastGbps : List Data
  latencies : Option (List Data)

def addIncastRows (st : IncastState) (rows : List Data) : Except PyErr IncastState := do
  let clientGbps ← rows.dropLast.mapM gbpsOf
  match rows.getLast? with
  | some last =>
    let gbps ← gbpsOf last
    return { st with clientGbps := st.clientGbps ++ clientGbps, incastGbps := st.incastGbps ++ [gbps] }
  | none => .error .indexError

def writeGbps (rows : List Data) : Except PyErr (List Data) := do
  let gbps ← rows.mapM fun row => do
    let items ← row.unpack 5
    let qptype ← index items 0
    let gbps ← index items 3
    return match qptype with
      | .str "WRITE_UC" => some gbps
      | _ => none
  return gbps.reduceOption

def addRows (config : Config) (st : IncastState) (rows : List Data) : Except PyErr IncastState :=
  if config.verb = WRITE_UC then do
    let gbps ← writeGbps rows.dropLast
    return { st with clientGbps := st.clientGbps ++ gbps }
  else addIncastRows st rows

/-- The body of the loop over the clients, from the output on. -/
def addIncastClient (lib : Lib) (config : Config) (st : IncastState) (out : List Char) : Except PyErr IncastState := do
  let yamlObj ← lib.yamlLoad out
  let yamlTput ← yamlObj.getItem "tput"
  let last ← yamlTput.last
  let columns ← last.toList
  -- the client crashed and just output latency
  if columns.length = 2 then return st
  else
    let rows ← yamlTput.toList
    let st ← addRows config st rows
    let yamlLatency ← yamlObj.getItem "latency"
    let yamlLatency ← yamlLatency.toList
    let latencies ← yamlLatency.mapM secondOf
    return { st with latencies := some latencies }

/-- `none` once reading a client times out. -/
def incastLoop (lib : Lib) (config : Config) : List Proc → IncastState → Reading (Option IncastState)
  | [], st => return some st
  | client :: rest, st => do
    let out ← tryCatch (do
      let _ ← readErr client
      let out ← readOut client
      return some out) fun error =>
        if error = .timeout then return none else throw error
    match out with
    | none => return none
    | some out =>
      let st ← addIncastClient lib config st out
      incastLoop lib config rest st

def processRoneIncastClientsOutputBase (lib : Lib) (config : Config) (clients : List Proc) : Reading Data := do
  match ← incastLoop lib config clients ⟨[], [], none⟩ with
  | none => return .none
  | some st =>
    if st.clientGbps.length = 0 ∧ st.incastGbps.length = 0 then return .none
    else
      let clientGbps ← (st.clientGbps.mapM Data.toNum : Except PyErr (List Rat))
      let aggTputResults ← aggTput lib clientGbps [("incast_gbps", .list st.incastGbps)]
      match st.latencies with
      | some latencies => return .dict [("tput", aggTputResults), ("latency", .list latencies)]
      | none => throw (.unboundLocalError "latencies")

/-- The throughput and the latencies that a server of the writing incast prints. -/
def serverResults (lib : Lib) (out : List Char) : Except PyErr (Data × List Data) := do
  let yamlObj ← lib.yamlLoad out
  let tput ← yamlObj.getItem "tput"
  let rows ← tput.toList
  match rows with
  | [row] =>
    let qptype ← row.item 0
    match qptype with
    | .str "WRITE_UC" =>
      let items ← row.unpack 5
      let gbps ← index items 3
      let yamlLatency ← yamlObj.getItem "latency"
      let yamlLatency ← yamlLatency.toList
      let latencies ← yamlLatency.mapM secondOf
      return (gbps, latencies)
    | _ => .error .assertionError
  | _ => .error .assertionError

def processRoneIncastClientsOutput (lib : Lib) (config : Config) (clients : Clients) : Reading Data := do
  if config.verb = WRITE_UC then
    let servers ← clients.getItem "servers"
    let _ ← clients.getItem "incasts"
    let results ← servers.mapM fun server => do
      let out ← readOut server
      serverResults lib out
    return .dict [("tput", .dict [("incast_gbps", .list []), ("clients", .list (results.map Prod.fst))]),
      ("latency", .list (results.flatMap Prod.snd))]
  else
    let clients ← clients.toList
    processRoneIncastClientsOutputBase lib config clients

/-- `- \[.*,.*\]` -/
def latencyLineRe : Re := .seq (.text "- [".toList) (.seq .any (.seq (.text [',']) (.seq .any (.text [']']))))

/-- `- \[.*` -/
def tputLineRe : Re := .seq (.text "- [".toList) .any

/-- `yaml.load(line)[0][i]` -/
def lineItem (lib : Lib) (i : Nat) (line : List Char) : Except PyErr Data := do
  let rows ← lib.yamlLoad line
  let row ← rows.item 0
  row.item i

/-- The latencies of one client; a line that cannot be read is passed over. -/
def clientLatencies (lib : Lib) (out : List Char) : List Data :=
  (splitLines out).filterMap fun line =>
    if (latencyLineRe.groups line).isSome then (lineItem lib 1 line).toOption else none

def serverTputs (lib : Lib) (out : List Char) : Except PyErr (List Data) :=
  ((splitLines out).filter fun line => (tputLineRe.groups line).isSome).mapM (lineItem lib 3)

def processRoceIncastClientsOutput (lib : Lib) (config : Config) (clients : Clients) : Reading Data := do
  if config.verb = WRITE_UC then
    let servers ← clients.getItem "servers"
    let incastClients ← clients.getItem "incasts"
    let pingClients ← clients.getItem "pings"
    let pinglatencies ← readPingOutput pingClients
    let latencies ← incastClients.mapM fun client => do
      let out ← readOut client
      let _ ← readErr client
      return clientLatencies lib out
    let tputs ← servers.mapM fun server => do
      let out ← readOut server
      serverTputs lib out
    return .dict [("tput", .dict [("clients", .list tputs.flatten)]), ("latency", .list latencies.flatten),
      ("pinglatency", .list (pinglatencies.map .num))]
  else
    let clients ← clients.toList
    processRoneIncastClientsOutputBase lib config clients

/-- The rows of one incast client: documentation first, the aggregate last. -/
def addTcpIncastClient (lib : Lib) (st : IncastState) (out : List Char) : Except PyErr IncastState := do
  let yamlObj ← lib.yamlLoad out
  let rows ← yamlObj.toList
  let clientGbps ← (rows.drop 1).dropLast.mapM gbpsOf
  let last ← yamlObj.last
  let gbps ← gbpsOf last
  return { st with clientGbps := st.clientGbps ++ clientGbps, incastGbps := st.incastGbps ++ [gbps] }

def processIncastClientsOutput (lib : Lib) (clients : Clients) : Reading Data := do
  let incastClients ← clients.getItem "incasts"
  let pingClients ← clients.getItem "pings"
  let st ← incastClients.foldlM (fun st client => do
    let out ← readOut client
    addTcpIncastClient lib st out) (⟨[], [], none⟩ : IncastState)
  let clientGbps ← (st.clientGbps.mapM Data.toNum : Except PyErr (List Rat))
  let aggTputResults ← aggTput lib clientGbps [("incast_gbps", .list st.incastGbps)]
  let latencies ← readPingOutput pingClients
  return .dict [("tput", aggTputResults), ("latency", .list (latencies.map .num))]

def processFrameworkClientsOutput (lib : Lib) (config : Config) (clients : Clients) : Reading Data := do
  if config.framework ∉ TRANSPORTS then
    throw (.valueError ("Unexpected framework: '" ++ config.framework ++ "'"))
  if config.framework = RoNE then processRoneIncastClientsOutput lib config clients
  else if config.framework = iRoCE then processRoceIncastClientsOutput lib config clients
  else if config.framework = RoCE then processRoceClientsOutput lib config clients
  else if config.framework = DCTCP then
    if config.msgSize.isSome then processIncastClientsOutput lib clients
    else processIperf3ClientsOutput lib clients
  else throw (.valueError ("Unexpected framework: '" ++ config.framework ++ "'"))

end RdmaExps.Cluster
