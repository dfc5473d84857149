import RdmaExps.Segments.Conf
import RdmaExps.Segments.Convert

namespace RdmaExps.Segments

open RdmaExps.Python

inductive Metric where
  | avg
  | med
  deriving DecidableEq

def pmetric : Metric := .med

/-- What the scripts read of a result file: the `client_cpu` entry. -/
structure RunResult where
  avg : Rat
  p50 : Rat

abbrev Results := String → Option RunResult

def addRun (cwd : String) (results : Results) (framework verb : String) (segSize signalIfreq : Int)
    (cpuResults : List Rat) (run : Int) : Except PyErr (List Rat) := do
  let config ← getRdmaSegConfig cwd framework verb segSize signalIfreq run
  let outfname ← entryOf "outf" config.outf
  match results outfname with
  | none => return cpuResults
  | some runResult =>
    if pmetric = .avg then return cpuResults ++ [runResult.avg]
    else if pmetric = .med then return cpuResults ++ [runResult.p50]
    else return cpuResults

def getAvgResults (cwd : String) (lists : SegLists) (results : Results) (framework verb : String)
    (segSize signalIfreq : Int) : Except PyErr (List Rat) :=
  lists.runs.foldlM (addRun cwd results framework verb segSize signalIfreq) []

/-- `1.0 * sum(cpu_results) / len(cpu_results)`, or None for an empty list. -/
def meanOrNone (cpuResults : List Rat) : Option Rat :=
  if 0 < cpuResults.length then some (1 * cpuResults.sum / cpuResults.length) else none

/-- The body of the loop over the signalling intervals: one line of the figure. -/
def segsizeLine (cwd : String) (lists : SegLists) (results : Results) (framework verb : String)
    (signalIfreq : Int) : Except PyErr (Line (Option Rat)) := do
  let ys ← lists.segSizes.mapM fun segSize => do
    let cpuResults ← getAvgResults cwd lists results framework verb segSize signalIfreq
    return meanOrNone cpuResults
  return ⟨framework ++ "." ++ verb ++ "." ++ decimal signalIfreq ++ "Sig", lists.segSizes, ys⟩

theorem getNumSigFromLname_lname (framework verb : String) (n : Nat) :
    getNumSigFromLname (framework ++ "." ++ verb ++ "." ++ decimal n ++ "Sig") = .ok (n : Int) ∧
      ∀ cwd lists results line, segsizeLine cwd lists results framework verb n = .ok line →
        getNumSigFromLname line.lname = .ok (n : Int) := by
  have parsed := getNumSigFromLname_append (framework ++ "." ++ verb) n
  refine ⟨parsed, ?_⟩
  intro cwd lists results line built
  obtain ⟨ys, -, same⟩ := bind_ok built
  rw [← Except.ok.inj same]
  exact parsed

/-- The lines that the nested loops of `gen_by_segsize` build. -/
def segsizeLines (cwd : String) (lists : SegLists) (results : Results) :
    Except PyErr (List (Line (Option Rat))) :=
  (lists.verbs.flatMap fun verb => lists.signalIfreq.map fun signalIfreq => (verb, signalIfreq)).mapM
    fun loop => segsizeLine cwd lists results RoCE loop.1 loop.2

structure PlotData where
  outf : String
  lines : List (Line (Option Rat))
  xlabel : String

/-- The value a loop variable keeps after its loop. -/
def leftOver {α : Type} (name : String) (values : List α) : Except PyErr α :=
  match values.getLast? with
  | some value => .ok value
  | none => .error (.unboundLocalError name)

/-- The lines and the name of the file that takes them. The configuration is built from what the
    loops left in their variables, which is nothing when one of them never ran. -/
def genBySegsize (cwd : String) (lists : SegLists) (results : Results) :
    Except PyErr (String × PlotData) := do
  let lines ← segsizeLines cwd lists results
  let verb ← leftOver "verb" lists.verbs
  let segSize ← leftOver "seg_size" (if lists.signalIfreq = [] then [] else lists.segSizes)
  let signalIfreq ← leftOver "signal_ifreq" lists.signalIfreq
  let config ← getRdmaSegConfig cwd RoCE verb segSize signalIfreq 0
  return (config.expname ++ ".segsize.lines.yaml",
    ⟨"plots." ++ config.expname ++ ".segsize.pdf", lines, "Segment size (KB)"⟩)

end RdmaExps.Segments
