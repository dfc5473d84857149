import RdmaExps.Python.Regex
import RdmaExps.Python.Split
import RdmaExps.Python.Value
import RdmaExps.Python.Loops

namespace RdmaExps.Measure

open RdmaExps.Python

def cpuNumberRe : Re := .seq (.text "-cpu".toList) (.seq (.group .digits) .any)

/-- `.*-cpu(\d+).*` -/
def cpuTitleRe : Re := .seq .any cpuNumberRe

/-- `.*cpu.*` -/
def cpuKeyRe : Re := .seq .any (.seq (.text "cpu".toList) .any)

def index {α : Type} (items : List α) (i : Nat) : Except PyErr α :=
  match items[i]? with
  | some item => .ok item
  | none => .error .indexError

def cpuOf (header : List Char) : Except PyErr String :=
  match cpuTitleRe.groups header with
  | some groups =>
    match parseInt (groups.headD []) with
    | some n => .ok ("cpu" ++ decimal n)
    | none => .error (.valueError "invalid literal for int() with base 10")
  | none => .ok "total"

/-- The body of the loop over the counters of a column. -/
def addCounter (utilStrSplit : List (List Char)) (utilization : List (String × Data))
    (counter : List Char × Nat) : Except PyErr (List (String × Data)) := do
  let val ← index utilStrSplit counter.2
  match parseFloat val with
  | some q => return Data.assign (String.ofList counter.1) (.num q) utilization
  | none => .error (.valueError "could not convert string to float")

/-- The body of the loop over the columns of a row. -/
def addColumn (utypesSplit utilsSplit : List (List Char)) (data : List (String × Data))
    (column : List Char × Nat) : Except PyErr (List (String × Data)) := do
  let utype ← index utypesSplit column.2
  let util ← index utilsSplit column.2
  let cpu ← cpuOf column.1
  let utilization ← (splitBlanks utype).zipIdx.foldlM (addCounter (splitBlanks (strip util))) []
  return Data.assign cpu (.dict utilization) data

/-- The sample of a row, `none` where the number of groups is another one. -/
def sampleRow (headersSplit utypesSplit : List (List Char)) (row : List Char × Nat) :
    Except PyErr (Option Data) := do
  let utilsSplit := row.1.splitOn ':'
  if utilsSplit.length ≠ headersSplit.length then return none
  let data ← headersSplit.zipIdx.foldlM (addColumn utypesSplit utilsSplit) []
  return some (.dict (Data.assign "iter" (.num (row.2 + 1)) data))

/-- `sample_dstat`, from what the `dstat` command prints. -/
def sampleDstat (dstatOut : List Char) : Except PyErr (List Data) := do
  match dstatOut.splitOn '\n' with
  | headers :: utypes :: rows =>
    let headersSplit := headers.splitOn ' '
    let utypesSplit := utypes.splitOn ':'
    if headersSplit.length ≠ utypesSplit.length then .error .assertionError
    else
      let samples ← rows.zipIdx.mapM (sampleRow headersSplit utypesSplit)
      return samples.reduceOption
  | _ => .error .indexError

/-- `100.0 - util_ival[key]['idl']` -/
def busyOf (utilIval : Data) (key : String) : Except PyErr Rat := do
  let cpu ← utilIval.getItem key
  let idl ← cpu.getItem "idl"
  let idl ← idl.toNum
  return 100 - idl

def busyCpu (utilIval : Data) : Except PyErr Rat := do
  let keys ← utilIval.keys
  let busy ← (keys.filter fun key => (cpuKeyRe.groups key.toList).isSome).mapM (busyOf utilIval)
  return busy.sum

/-- `process_dstat_output_common`; `getPercentile` is the function of the statistics library. -/
def processDstatOutputCommon (getPercentile : List Rat → Rat → Rat) (utils : List Data) :
    Except PyErr Data := do
  let aggCpu ← (utils.drop 2).mapM busyCpu
  let avg ← trueDiv aggCpu.sum aggCpu.length
  return .dict [("50p", .num (getPercentile aggCpu 50)), ("avg", .num avg), ("ivals", .list (aggCpu.map .num))]

end RdmaExps.Measure
