import RdmaExps.Python.Value

namespace RdmaExps.Cluster

open RdmaExps.Python

/-- A host is its address; a connection to it is identified with it. -/
abbrev Host := String

def RoNE : String := "RoNE"
def RoCE : String := "RoCE"
def iRoCE : String := "iRoCE"
def DCTCP : String := "DCTCP"
def TRANSPORTS : List String := [RoNE, iRoCE, RoCE, DCTCP]

def READ_RC : String := "READ_RC"
def READ_UC : String := "READ_UC"
def WRITE_RC : String := "WRITE_RC"
def WRITE_UC : String := "WRITE_UC"
def VERBS : List String := [READ_RC, READ_UC, WRITE_RC, WRITE_UC]

def verbToAppTransport (verb : String) : Except PyErr (String × String) :=
  if verb = READ_RC then .ok ("ib_read_bw", "RC")
  else if verb = READ_UC then .ok ("ib_read_bw", "UC")
  else if verb = WRITE_RC then .ok ("ib_write_bw", "RC")
  else if verb = WRITE_UC then .ok ("ib_write_bw", "UC")
  else .error (.keyError verb)

/-- `CpuUtilExpConfig`: the attributes that the experiment reads. Those without a default are
    optional, as `hasattr` sees them. -/
structure Config where
  outf : Option String
  runlen : Rat
  server : Host
  framework : String
  verb : String
  polling : Bool
  segSize : Int
  windowSize : Int
  signalIfreq : Int
  numqps : Int
  mlxDevstr : String
  lineRate : Rat
  roneCodeDir : String
  iperfBaseport : Int
  roneBaseport : Int
  roneIbaseport : Int
  roceBaseport : Int
  clients : Option (List Host)
  msgSize : Option Int
  timeout : Option Rat
  ratelimit : Option Bool
  serverSsh : Option Host
  clientSshs : Option (List Host)

structure UserConfig where
  outf : Option (Option String)
  runlen : Option Rat
  server : Option Host
  framework : Option String
  verb : Option String
  polling : Option Bool
  segSize : Option Int
  windowSize : Option Int
  signalIfreq : Option Int
  numqps : Option Int
  mlxDevstr : Option String
  lineRate : Option Rat
  roneCodeDir : Option String
  iperfBaseport : Option Int
  roneBaseport : Option Int
  roneIbaseport : Option Int
  roceBaseport : Option Int
  clients : Option (List Host)
  msgSize : Option Int
  timeout : Option Rat
  ratelimit : Option Bool
deriving DecidableEq

/-- `CPU_EXP_CONFIG_DEFAULTS`; the code directory is that of the environment. -/
def cpuExpConfigDefaults (roneCodeDir : String) : Config where
  outf := none
  runlen := 5
  server := "10.10.1.2"
  framework := RoNE
  verb := READ_RC
  polling := false
  segSize := 1024 * 16
  windowSize := 64 * 1024
  signalIfreq := 1
  numqps := 1
  mlxDevstr := "mlx4_0"
  lineRate := 10000000000
  roneCodeDir := roneCodeDir
  iperfBaseport := 5001
  roneBaseport := 55282
  roneIbaseport := 54282
  roceBaseport := 53282
  clients := none
  msgSize := none
  timeout := none
  ratelimit := none
  serverSsh := none
  clientSshs := none

def cpuUtilExpConfig (roneCodeDir : String) (user : UserConfig) : Config :=
  let defaults := cpuExpConfigDefaults roneCodeDir
  { outf := user.outf.getD defaults.outf
    runlen := user.runlen.getD defaults.runlen
    server := user.server.getD defaults.server
    framework := user.framework.getD defaults.framework
    verb := user.verb.getD defaults.verb
    polling := user.polling.getD defaults.polling
    segSize := user.segSize.getD defaults.segSize
    windowSize := user.windowSize.getD defaults.windowSize
    signalIfreq := user.signalIfreq.getD defaults.signalIfreq
    numqps := user.numqps.getD defaults.numqps
    mlxDevstr := user.mlxDevstr.getD defaults.mlxDevstr
    lineRate := user.lineRate.getD defaults.lineRate
    roneCodeDir := user.roneCodeDir.getD defaults.roneCodeDir
    iperfBaseport := user.iperfBaseport.getD defaults.iperfBaseport
    roneBaseport := user.roneBaseport.getD defaults.roneBaseport
    roneIbaseport := user.roneIbaseport.getD defaults.roneIbaseport
    roceBaseport := user.roceBaseport.getD defaults.roceBaseport
    clients := user.clients
    msgSize := user.msgSize
    timeout := user.timeout
    ratelimit := user.ratelimit
    serverSsh := none
    clientSshs := none }

def numsegsForMsgsize (config : Config) : Except PyErr Int := do
  let msgSize ← attr "msg_size" config.msgSize
  floorDiv (msgSize + (config.segSize - 1)) config.segSize

def MAX_SEGS : Int := 100000000

def numsegsForRunlen (config : Config) : Except PyErr Int := do
  let rate ← trueDiv config.lineRate (config.segSize * 8)
  let numSegs := truncate (rate * (config.runlen + 1))
  return if numSegs > MAX_SEGS then MAX_SEGS else numSegs

end RdmaExps.Cluster
