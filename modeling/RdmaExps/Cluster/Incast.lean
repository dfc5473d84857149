import RdmaExps.Cluster.Network
import RdmaExps.Python.Loops

namespace RdmaExps.Cluster

open RdmaExps.Python

structure Printed where
  client : Proc
  err : List Char
  out : List Char

/-- The reads of all clients, none of which times out. -/
def reads (printed : List Printed) : List (Event ReadRequest ReadRequest.Reply PyErr) :=
  printed.flatMap fun shown => [⟨.err shown.client, .ok shown.err⟩, ⟨.out shown.client, .ok shown.out⟩]

/-- What the output of a complete client tells: the throughputs, their aggregate, the latencies. -/
structure ClientRows where
  gbps : List Rat
  total : Rat
  latencies : List Data

/-- The last row of `tput` is one of latencies. -/
def Crashed (yamlObj : Data) : Prop :=
  ∃ rows columns, yamlObj.getItem "tput" = .ok (.list (rows ++ [.list columns])) ∧ columns.length = 2

def IsTputRow (row : Data) (gbps : Rat) : Prop :=
  ∃ totTime totBytes numSockets, row = .list [totTime, totBytes, .num gbps, numSockets]

def IsLatencyRow (row latency : Data) : Prop := ∃ first rest, row = .list (first :: latency :: rest)

/-- A row of `tput` for each of the throughputs, then one for their aggregate. -/
def Complete (yamlObj : Data) (client : ClientRows) : Prop :=
  ∃ rows last latency, yamlObj.getItem "tput" = .ok (.list (rows ++ [last])) ∧
    List.Forall₂ IsTputRow rows client.gbps ∧ IsTputRow last client.total ∧
    yamlObj.getItem "latency" = .ok (.list latency) ∧ List.Forall₂ IsLatencyRow latency client.latencies

def Shows (lib : Lib) (shown : Printed) (client : Option ClientRows) : Prop :=
  ∃ yamlObj, lib.yamlLoad shown.out = .ok yamlObj ∧
    match client with
    | none => Crashed yamlObj
    | some client => Complete yamlObj client

/-- The results of the complete clients, in order. -/
def Aggregates (clients : List ClientRows) (data : Data) : Prop :=
  data.getItem "latency" = .ok (.list (clients.flatMap ClientRows.latencies)) ∧
  ∃ tput, data.getItem "tput" = .ok tput ∧
    tput.getItem "clients" = .ok (.list ((clients.flatMap ClientRows.gbps).map .num)) ∧
    tput.getItem "incast_gbps" = .ok (.list (clients.map fun client => .num client.total))

/-- What the loop keeps of the clients it has seen: the latencies of the last one only. -/
def keeps (st : IncastState) (clients : List ClientRows) : IncastState where
  clientGbps := st.clientGbps ++ (clients.flatMap ClientRows.gbps).map .num
  incastGbps := st.incastGbps ++ clients.map fun client => .num client.total
  latencies := (clients.getLast?.map ClientRows.latencies).or st.latencies

variable {lib : Lib} {config : Config}

theorem gbpsOf_row {row : Data} {gbps : Rat} (shape : IsTputRow row gbps) : gbpsOf row = .ok (.num gbps) := by
  obtain ⟨totTime, totBytes, numSockets, rfl⟩ := shape
  rfl

theorem secondOf_row {row latency : Data} (shape : IsLatencyRow row latency) : secondOf row = .ok latency := by
  obtain ⟨first, rest, rfl⟩ := shape
  rfl

theorem addIncastClient_crashed {out : List Char} {yamlObj : Data} (st : IncastState)
    (loaded : lib.yamlLoad out = .ok yamlObj) (crashed : Crashed yamlObj) :
    addIncastClient lib config st out = .ok st := by
  obtain ⟨rows, columns, tput, two⟩ := crashed
  have last : (Data.list (rows ++ [.list columns])).last = .ok (.list columns) := by
    simp [Data.last, Data.toList, Bind.bind, Except.bind]
  simp only [addIncastClient, loaded, tput, last, Data.toList, Bind.bind, Except.bind, if_pos two]
  rfl

theorem addIncastClient_complete {out : List Char} {yamlObj : Data} {client : ClientRows} (st : IncastState)
    (verb : config.verb ≠ WRITE_UC) (loaded : lib.yamlLoad out = .ok yamlObj) (complete : Complete yamlObj client) :
    addIncastClient lib config st out = .ok (keeps st [client]) := by
  obtain ⟨rows, row, latency, tput, gbps, total, latencies, seconds⟩ := complete
  have throughputs : rows.mapM gbpsOf = .ok (client.gbps.map .num) := by
    apply mapM_of_forall₂
    rw [List.forall₂_map_right_iff]
    exact gbps.imp fun _ _ shape => gbpsOf_row shape
  have delays : latency.mapM secondOf = .ok client.latencies :=
    mapM_of_forall₂ (seconds.imp fun _ _ shape => secondOf_row shape)
  have last : (Data.list (rows ++ [row])).last = .ok row := by
    simp [Data.last, Data.toList, Bind.bind, Except.bind]
  have added : addRows config st (rows ++ [row]) =
      .ok { st with
        clientGbps := st.clientGbps ++ client.gbps.map .num
        incastGbps := st.incastGbps ++ [.num client.total] } := by
    simp only [addRows, if_neg verb, addIncastRows, List.dropLast_concat, throughputs, List.getLast?_concat,
      gbpsOf_row total, Bind.bind, Except.bind]
    rfl
  obtain ⟨totTime, totBytes, numSockets, rfl⟩ := total
  have four : ¬ [totTime, totBytes, .num client.total, numSockets].length = 2 := by simp
  simp only [addIncastClient, loaded, tput, last, Data.toList, Bind.bind, Except.bind, if_neg four, added, latencies,
    delays]
  simp [keeps, Pure.pure, Except.pure]

theorem keeps_keeps (st : IncastState) (first rest : List ClientRows) :
    keeps (keeps st first) rest = keeps st (first ++ rest) := by
  cases last : rest.getLast? <;> simp [keeps, last]

theorem runs_incastLoop {printed : List Printed} {clients : List (Option ClientRows)}
    (verb : config.verb ≠ WRITE_UC)
    (shown : List.Forall₂ (Shows lib) printed clients) (st : IncastState) :
    (incastLoop lib config (printed.map Printed.client) st).Runs (reads printed)
      (.ok (some (keeps st clients.reduceOption))) := by
  induction shown generalizing st with
  | nil => exact ⟨rfl, by simp [keeps]⟩
  | @cons printed client rest clients shows _ ih =>
    obtain ⟨yamlObj, loaded, kind⟩ := shows
    refine Prog.runs_bind.mpr ⟨_, _, some printed.out, rfl, ?_, ?_⟩
    · apply Prog.runs_tryCatch.mpr
      exact .inl (Prog.runs_bind.mpr ⟨[_], [_], _, rfl, Prog.runs_call.mpr rfl,
        Prog.runs_bind.mpr ⟨[_], [], _, rfl, Prog.runs_call.mpr rfl, rfl, rfl⟩⟩)
    · apply Prog.runs_lift_bind.mpr
      cases client with
      | none => exact ⟨st, addIncastClient_crashed st loaded kind, ih st⟩
      | some client =>
        have later := ih (keeps st [client])
        rw [keeps_keeps, List.singleton_append, ← List.reduceOption_cons_of_some] at later
        exact ⟨_, addIncastClient_complete st verb loaded kind, later⟩

theorem aggTput_ok (lib : Lib) {gbps : List Rat} (some_gbps : gbps ≠ []) (extra : List (String × Data)) :
    ∃ front : List (String × Data), front.map Prod.fst = ["50p", "avg", "unfairness"] ∧
      aggTput lib gbps extra = .ok (.dict (front ++ extra ++ [("clients", .list (gbps.map .num))])) := by
  have length : (gbps.length : ℚ) ≠ 0 := by
    exact_mod_cast mt List.length_eq_zero_iff.mp some_gbps
  obtain ⟨most, max⟩ := Option.isSome_iff_exists.mp (List.isSome_max?_of_ne_nil some_gbps)
  obtain ⟨least, min⟩ := Option.isSome_iff_exists.mp (List.isSome_min?_of_ne_nil some_gbps)
  refine ⟨[("50p", .num (lib.getPercentile gbps 50)), ("avg", .num (gbps.sum / gbps.length)),
    ("unfairness", .num (most - least))], rfl, ?_⟩
  simp only [aggTput, trueDiv, if_neg length, max, min, Bind.bind, Except.bind]
  rfl

theorem mapM_toNum (gbps : List Rat) : (gbps.map Data.num).mapM Data.toNum = .ok gbps := by
  apply mapM_of_forall₂
  rw [List.forall₂_map_left_iff, List.forall₂_same]
  exact fun _ _ => rfl

theorem runs_processBase {printed : List Printed} {clients : List (Option ClientRows)}
    (verb : config.verb ≠ WRITE_UC) (shown : List.Forall₂ (Shows lib) printed clients)
    {most : List ClientRows} {last : ClientRows} (complete : clients.reduceOption = most ++ [last])
    (some_row : clients.reduceOption.flatMap ClientRows.gbps ≠ []) : ∃ tput,
    (processRoneIncastClientsOutputBase lib config (printed.map Printed.client)).Runs (reads printed)
      (.ok (.dict [("tput", tput), ("latency", .list last.latencies)])) ∧
    tput.getItem "clients" = .ok (.list ((clients.reduceOption.flatMap ClientRows.gbps).map .num)) ∧
    tput.getItem "incast_gbps" = .ok (.list (clients.reduceOption.map fun client => .num client.total)) := by
  have loop := runs_incastLoop verb shown ⟨[], [], none⟩
  generalize clients.reduceOption = present at complete some_row loop ⊢
  have gbps : (keeps ⟨[], [], none⟩ present).clientGbps = (present.flatMap ClientRows.gbps).map .num :=
    List.nil_append _
  have totals : (keeps ⟨[], [], none⟩ present).incastGbps = present.map fun client => .num client.total :=
    List.nil_append _
  have latencies : (keeps ⟨[], [], none⟩ present).latencies = some last.latencies := by
    simp [keeps, complete]
  have rows : ¬ ((keeps ⟨[], [], none⟩ present).clientGbps.length = 0 ∧
      (keeps ⟨[], [], none⟩ present).incastGbps.length = 0) := by
    rw [gbps, List.length_map, List.length_eq_zero_iff]
    exact fun both => some_row both.1
  obtain ⟨front, names, made⟩ := aggTput_ok lib some_row
    [("incast_gbps", .list (present.map fun client => .num client.total))]
  have distinct : ((front ++ [("incast_gbps", Data.list (present.map fun client => .num client.total))] ++
      [("clients", Data.list ((present.flatMap ClientRows.gbps).map .num))]).map Prod.fst).Nodup := by
    simp [names]
  refine ⟨_, Prog.runs_bind.mpr ⟨reads printed, [], _, by simp, loop, ?_⟩, Data.getItem_of_mem distinct (by simp),
    Data.getItem_of_mem distinct (by simp)⟩
  dsimp only
  rw [if_neg rows, gbps, totals, latencies]
  exact Prog.runs_lift_bind.mpr ⟨_, mapM_toNum _, Prog.runs_lift_bind.mpr ⟨_, made, rfl, rfl⟩⟩

theorem flatMap_eq_last_iff {α β : Type} (f : α → List β) (most : List α) (last : α) :
    (most ++ [last]).flatMap f = f last ↔ ∀ x ∈ most, f x = [] := by
  rw [List.flatMap_append, List.flatMap_singleton, List.append_left_eq_self, List.flatMap_eq_nil_iff]

/-- The latencies are those of all clients whose throughputs are returned, exactly when no complete
    client but the last has any. -/
theorem aggregates_iff {printed : List Printed} {clients : List (Option ClientRows)} (verb : config.verb ≠ WRITE_UC)
    (shown : List.Forall₂ (Shows lib) printed clients)
    (some_row : ∃ client ∈ clients.reduceOption, client.gbps ≠ []) :
    (∃ data, (processRoneIncastClientsOutputBase lib config (printed.map Printed.client)).Runs (reads printed)
      (.ok data)) ∧
    ∀ data, (processRoneIncastClientsOutputBase lib config (printed.map Printed.client)).Runs (reads printed)
      (.ok data) →
        (Aggregates clients.reduceOption data ↔
          ∀ client ∈ clients.reduceOption.dropLast, client.latencies = []) := by
  obtain ⟨client, member, row⟩ := some_row
  have rows : clients.reduceOption.flatMap ClientRows.gbps ≠ [] := by
    intro none
    exact row (List.flatMap_eq_nil_iff.mp none client member)
  obtain ⟨most, last, complete⟩ := (List.eq_nil_or_concat' _).resolve_left (List.ne_nil_of_mem member)
  obtain ⟨tput, runs, gbps, totals⟩ := runs_processBase verb shown complete rows
  refine ⟨⟨_, runs⟩, ?_⟩
  intro data again
  cases runs.unique again
  rw [complete, List.dropLast_concat, ← flatMap_eq_last_iff ClientRows.latencies most last]
  rw [complete] at gbps totals
  constructor
  · rintro ⟨latency, -⟩
    exact (Data.list.inj (Except.ok.inj latency)).symm
  · intro same
    refine ⟨?_, tput, rfl, gbps, totals⟩
    rw [same]
    rfl

def completeText : List Char :=
  ("tput:\n- [1.0, 65536, 4.5, 1]\n- [1.0, 65536, 4.5, 1]\n" ++ "latency:\n- [0, 7.0]\n").toList

def crashedText : List Char := ("tput:\n- [0, 7.0]\n" ++ "latency:\n- [0, 7.0]\n").toList

def completeData : Data :=
  let row : Data := .list [.num 1, .num 65536, .num (9 / 2), .num 1]
  .dict [("tput", .list [row, row]), ("latency", .list [.list [.num 0, .num 7]])]

def crashedData : Data :=
  .dict [("tput", .list [.list [.num 0, .num 7]]), ("latency", .list [.list [.num 0, .num 7]])]

/-- The libraries on these texts; the percentile is that of equal numbers. -/
def incastLib : Lib where
  yamlLoad text :=
    if text = completeText then .ok completeData
    else if text = crashedText then .ok crashedData
    else .error (.external "yaml")
  yamlDump _ := []
  jsonLoad _ := .error (.valueError "No JSON object could be decoded")
  getPercentile data _ := data.headD 0

def completeRows : ClientRows := ⟨[9 / 2], 9 / 2, [.num 7]⟩

def printing (out : List Char) : Printed :=
  ⟨⟨"10.10.1.2", .verbIncast "/hw2/code/rone_read_incast" 55282 54282 (some ["10.10.1.1"]) ""⟩, [], out⟩

theorem shows_complete : Shows incastLib (printing completeText) (some completeRows) := by
  have loaded : incastLib.yamlLoad completeText = .ok completeData := by
    simp only [incastLib, if_true]
  exact ⟨completeData, loaded, [_], _, [_], rfl, .cons ⟨_, _, _, rfl⟩ .nil, ⟨_, _, _, rfl⟩, rfl,
    .cons ⟨_, _, rfl⟩ .nil⟩

theorem shows_crashed : Shows incastLib (printing crashedText) none := by
  have other : ¬ crashedText = completeText := by decide +kernel
  have loaded : incastLib.yamlLoad crashedText = .ok crashedData := by
    simp only [incastLib, if_neg other, if_true]
  exact ⟨crashedData, loaded, [], _, rfl, rfl⟩

theorem crashed_after_complete : ∃ data,
    (processRoneIncastClientsOutputBase incastLib (cpuExpConfigDefaults "/hw2")
      ([printing completeText, printing crashedText].map Printed.client)).Runs
        (reads [printing completeText, printing crashedText]) (.ok data) ∧ Aggregates [completeRows] data := by
  obtain ⟨⟨data, runs⟩, all⟩ := @aggregates_iff incastLib (cpuExpConfigDefaults "/hw2") _
    [some completeRows, none] (by decide) (.cons shows_complete (.cons shows_crashed .nil))
    ⟨completeRows, List.mem_cons_self, by simp [completeRows]⟩
  exact ⟨data, runs, (all data runs).mpr (by simp)⟩

/-- Two clients with a latency each: the first is lost. -/
theorem first_latency_lost : ∃ data,
    (processRoneIncastClientsOutputBase incastLib (cpuExpConfigDefaults "/hw2")
      ([printing completeText, printing completeText].map Printed.client)).Runs
        (reads [printing completeText, printing completeText]) (.ok data) ∧
    List.Forall₂ (Shows incastLib) [printing completeText, printing completeText]
      [some completeRows, some completeRows] ∧
    data.getItem "latency" = .ok (.list [.num 7]) ∧ ¬ Aggregates [completeRows, completeRows] data := by
  have shown : List.Forall₂ (Shows incastLib) [printing completeText, printing completeText]
      [some completeRows, some completeRows] := .cons shows_complete (.cons shows_complete .nil)
  obtain ⟨tput, runs, -⟩ := @runs_processBase incastLib (cpuExpConfigDefaults "/hw2") _ _ (by decide) shown
    [completeRows] completeRows rfl (by simp [completeRows])
  refine ⟨_, runs, shown, rfl, ?_⟩
  rintro ⟨latency, -⟩
  cases latency

end RdmaExps.Cluster
