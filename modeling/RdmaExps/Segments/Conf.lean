import RdmaExps.Python.Decimal
import RdmaExps.Python.Value

namespace RdmaExps.Segments

open RdmaExps.Python

def RoCE : String := "RoCE"

/-- The dictionary that `get_rdma_seg_config` fills. The two optional entries are not there until
    they are assigned. -/
structure SegConfig where
  expname : String
  runlen : Int
  cpus : List Int
  rhost : String
  clients : List String
  framework : String
  verb : String
  segSize : Int
  signalIfreq : Option Int
  run : Int
  outf : Option String
  deriving DecidableEq, Repr

def genBaseOutfname (config : SegConfig) : Except PyErr String :=
  if config.framework = RoCE then
    match config.signalIfreq with
    | some signalIfreq =>
      .ok (config.expname ++ "." ++ config.framework ++ "." ++ config.verb ++ "." ++
        decimal config.segSize ++ "seg." ++ decimal signalIfreq ++ "sig." ++
        decimal config.run ++ ".yaml")
    | none => .error (.keyError "signal_ifreq")
  else
    .ok (config.expname ++ "." ++ config.framework ++ "." ++ config.verb ++ "." ++
      decimal config.segSize ++ "seg." ++ decimal config.run ++ ".yaml")

/-- `base_config.copy()` with the parameters of one experiment. -/
def segConfig (framework verb : String) (segSize signalIfreq run : Int) : SegConfig where
  expname := "rdma_seg_cpu"
  runlen := 10
  cpus := [0]
  rhost := "10.10.1.1"
  clients := ["10.10.1.1"]
  framework := framework
  verb := verb
  segSize := segSize
  signalIfreq := if framework = RoCE then some signalIfreq else none
  run := run
  outf := none

/-- `cwd` is the directory the script runs in, without a final slash. -/
def getRdmaSegConfig (cwd framework verb : String) (segSize signalIfreq run : Int) :
    Except PyErr SegConfig := do
  let config := segConfig framework verb segSize signalIfreq run
  let base ← genBaseOutfname config
  return { config with outf := some (cwd ++ "/results" ++ "/res." ++ base) }

abbrev ConfStore := String → Option SegConfig

def outputConfig (store : ConfStore) (config : SegConfig) : Except PyErr ConfStore := do
  let base ← genBaseOutfname config
  let configFname := "conf/" ++ base
  return fun path => if path = configFname then some config else store path

structure SegLists where
  runs : List Int
  frameworks : List String
  verbs : List String
  segSizes : List Int
  signalIfreq : List Int

structure SegTuple where
  framework : String
  verb : String
  segSize : Int
  signalIfreq : Int
  run : Int
  deriving DecidableEq

def SegTuple.config (cwd : String) (t : SegTuple) : Except PyErr SegConfig :=
  getRdmaSegConfig cwd t.framework t.verb t.segSize t.signalIfreq t.run

/-- The five nested loops of `main`, in order. -/
def SegLists.tuples (lists : SegLists) : List SegTuple :=
  lists.frameworks.flatMap fun framework => lists.verbs.flatMap fun verb =>
    lists.segSizes.flatMap fun segSize => lists.signalIfreq.flatMap fun signalIfreq =>
      lists.runs.map fun run => ⟨framework, verb, segSize, signalIfreq, run⟩

def main (cwd : String) (lists : SegLists) (store : ConfStore) : Except PyErr ConfStore :=
  lists.tuples.foldlM (fun store t => do outputConfig store (← t.config cwd)) store

def shippedLists : SegLists where
  runs := [0, 1, 2]
  frameworks := ["RoNE", RoCE]
  verbs := ["READ_RC"]
  segSizes := [1024, 4096, 16384, 65536, 262144, 1048576, 4194304]
  signalIfreq := [1, 4, 16, 64]

end RdmaExps.Segments
