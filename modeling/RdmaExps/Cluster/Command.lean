import RdmaExps.Python.Program
import RdmaExps.Python.Split
import RdmaExps.Cluster.Config

namespace RdmaExps.Cluster

open RdmaExps.Python

inductive Length where
  | duration (seconds : Int)
  | count (numsegs : Int)
deriving DecidableEq

structure Perftest where
  app : String
  port : Int
  devargs : String
  length : Length
  segSize : Int
  signalIfreq : Int
  trans : String
  numqps : Int
deriving DecidableEq

inductive Command where
  | killall (name : String)
  | perftest (base : Perftest) (peer : Option Host)
  | verbIncast (loc : String) (port ibase : Int) (peers : Option (List Host)) (flags : String)
  | iperf3Server (port : Int)
  | iperf3Client (server : Host) (amount : String) (port : Int)
  | incastServer (loc : String) (port : Int)
  | incastClient (loc : String) (msgsize : Int) (servers : List (Host × Int))
  | ping (num : Int) (dst : Host)
  | dstat (loc : String) (runlen : Int)
deriving DecidableEq

def Perftest.text (base : Perftest) : String :=
  (match base.length with
    | .duration seconds =>
      "sudo " ++ base.app ++ " -p " ++ decimal base.port ++ " " ++ base.devargs ++ " -F -D " ++ decimal seconds
    | .count numsegs =>
      "time sudo " ++ base.app ++ " -p " ++ decimal base.port ++ " -e " ++ base.devargs ++ " -F -n " ++
        decimal numsegs) ++
  " -s " ++ decimal base.segSize ++ " -Q " ++ decimal base.signalIfreq ++ " -l " ++ decimal base.signalIfreq ++
  " --report_gbits -c " ++ base.trans ++ " -q " ++ decimal base.numqps

/-- The text that `exec_command` is given. -/
def Command.text : Command → String
  | .killall name => "sudo killall " ++ name
  | .perftest base none => base.text
  | .perftest base (some peer) => base.text ++ " " ++ peer
  | .verbIncast loc port ibase peers flags =>
    loc ++ " -p " ++ decimal port ++ " -b " ++ decimal ibase ++
      (match peers with
        | some peers => " -h " ++ String.join (peers.map (· ++ ","))
        | none => "") ++ flags
  | .iperf3Server port => "iperf3 -s -p " ++ decimal port
  | .iperf3Client server amount port =>
    "iperf3 -c " ++ server ++ " " ++ amount ++ " -p " ++ decimal port ++ " -J -Z -l 1M"
  | .incastServer loc port => loc ++ " " ++ decimal port
  | .incastClient loc msgsize servers =>
    loc ++ " " ++ decimal msgsize ++ " " ++
      String.intercalate " " (servers.map fun server => server.1 ++ " " ++ decimal server.2)
  | .ping num dst => "sudo ping -i 0.005 -c " ++ decimal num ++ " " ++ dst
  | .dstat loc runlen => loc ++ " --runlen " ++ decimal runlen

/-- What a command does on its host, as far as the other hosts and commands can tell. -/
inductive Effect where
  /-- A benchmark server waits on some ports; `killall` knows it by its base name. -/
  | serve (host : Host) (ports : List Int) (program : String)
  /-- A benchmark client connects to servers; some programs need one of their own. -/
  | dial (host : Host) (servers : List (Host × Int)) (alone : Bool)
  | kill (host : Host) (name : String)
deriving DecidableEq

def Command.effect (host : Host) : Command → Option Effect
  | .killall name => some (.kill host name)
  | .perftest base none => some (.serve host [base.port] (baseName base.app))
  | .perftest base (some peer) => some (.dial host [(peer, base.port)] true)
  | .verbIncast loc port ibase none _ => some (.serve host [port, ibase] (baseName loc))
  | .verbIncast _ port ibase (some peers) _ =>
    some (.dial host (peers.flatMap fun peer => [(peer, port), (peer, ibase)]) false)
  | .iperf3Server port => some (.serve host [port] "iperf3")
  | .iperf3Client server _ port => some (.dial host [(server, port)] true)
  | .incastServer loc port => some (.serve host [port] (baseName loc))
  | .incastClient _ _ servers => some (.dial host servers false)
  | .ping _ _ => none
  | .dstat _ _ => none

/-- A started command: `(stdin, stdout, stderr)` of a host. -/
structure Proc where
  host : Host
  command : Command

inductive ReadRequest where
  | out (proc : Proc)
  | err (proc : Proc)

inductive HostRequest where
  | connect (host : Host)
  | exec (host : Host) (command : Command) (timeout : Option Rat)
  | sleep (seconds : Rat)

abbrev ReadRequest.Reply (_ : ReadRequest) : Type := List Char

abbrev HostRequest.Reply (_ : HostRequest) : Type := Unit

abbrev Request : Type := HostRequest ⊕ ReadRequest

abbrev Request.Reply : Request → Type := Sum.elim HostRequest.Reply ReadRequest.Reply

abbrev Reading (α : Type) : Type := Prog ReadRequest ReadRequest.Reply PyErr α

abbrev Run (α : Type) : Type := Prog Request Request.Reply PyErr α

instance : MonadLift Reading Run := ⟨Prog.inr⟩

abbrev Happening : Type := Event Request Request.Reply PyErr

def readOut (proc : Proc) : Reading (List Char) := Prog.call (.out proc)

def readErr (proc : Proc) : Reading (List Char) := Prog.call (.err proc)

def ask (request : HostRequest) : Run Unit :=
  (Prog.call (Sum.inl request) : Prog Request Request.Reply PyErr (Request.Reply (Sum.inl request)))

def execCommand (host : Host) (command : Command) (timeout : Option Rat) : Run Proc := do
  ask (.exec host command timeout)
  return ⟨host, command⟩

/-- An environment in which nothing fails and the processes print `out`. -/
def answers (out : Proc → List Char) : (request : Request) → Except PyErr request.Reply
  | .inl _ => .ok ()
  | .inr (.out proc) => .ok (out proc)
  | .inr (.err _) => .ok []

def effectOf : Happening → Option Effect
  | ⟨.inl (.exec host command _), .ok _⟩ => command.effect host
  | _ => none

def effects (trace : List Happening) : List Effect := trace.filterMap effectOf

@[simp] theorem effects_nil : effects [] = [] := rfl

@[simp] theorem effects_append (front back : List Happening) :
    effects (front ++ back) = effects front ++ effects back := List.filterMap_append

theorem runs_ask {request : HostRequest} {trace : List Happening} (runs : (ask request).Runs trace (.ok ())) :
    trace = [⟨.inl request, .ok ()⟩] := Prog.runs_call.mp runs

theorem runs_execCommand {host : Host} {command : Command} {timeout : Option Rat} {trace : List Happening}
    {proc : Proc} (runs : (execCommand host command timeout).Runs trace (.ok proc)) :
    effects trace = (command.effect host).toList ∧ proc = ⟨host, command⟩ := by
  obtain ⟨front, back, reply, rfl, first, last⟩ := Prog.runs_bind.mp runs
  rw [runs_ask first, (Prog.runs_pure.mp last).1]
  refine ⟨?_, Except.ok.inj (Prog.runs_pure.mp last).2⟩
  cases effect : command.effect host <;> simp [effects, effectOf, effect]

theorem effects_reading {α : Type} {p : Reading α} {trace : List Happening} {result : Except PyErr α}
    (runs : (liftM p : Run α).Runs trace result) : effects trace = [] := by
  obtain ⟨reads, rfl, -⟩ := Prog.runs_inr.mp runs
  rw [effects, List.filterMap_map, List.filterMap_eq_nil_iff]
  intro event _
  rfl

end RdmaExps.Cluster
