import RdmaExps.Experiment.CpuUtil

namespace RdmaExps.Experiment

open RdmaExps.Python RdmaExps.Cluster RdmaExps.Measure

abbrev Disk : Type := String → Option (List Char)

/-- Opening a file to write it empties it. A request that fails changes nothing. -/
def Disk.after (disk : Disk) : Step → Disk
  | ⟨.inr (.openWrite path), .ok _⟩ => Function.update disk path (some [])
  | ⟨.inr (.write path c), .ok _⟩ => Function.update disk path ((disk path).map fun text => text ++ [c])
  | _ => disk

def Disk.afterAll (disk : Disk) (trace : List Step) : Disk := trace.foldl Disk.after disk

/-- The reply is that of the disk, on which the configuration files stay as they are. -/
def Answered (files : String → UserConfig) (disk : Disk) : Step → Prop
  | ⟨.inr (.loadConfig fname), .ok user⟩ => user = files fname
  | ⟨.inr (.pathExists path), .ok found⟩ => found = (disk path).isSome
  | _ => True

def Honest (files : String → UserConfig) : Disk → List Step → Prop
  | _, [] => True
  | disk, event :: rest => Answered files disk event ∧ Honest files (disk.after event) rest

instance (files : String → UserConfig) (disk : Disk) : (event : Step) → Decidable (Answered files disk event)
  | ⟨.inr (.loadConfig fname), .ok user⟩ => decEq (α := UserConfig) user (files fname)
  | ⟨.inr (.pathExists path), .ok found⟩ => decEq (α := Bool) found (disk path).isSome
  | ⟨.inr (.loadConfig _), .error _⟩ => .isTrue trivial
  | ⟨.inr (.pathExists _), .error _⟩ => .isTrue trivial
  | ⟨.inr (.openWrite _), _⟩ => .isTrue trivial
  | ⟨.inr (.write _ _), _⟩ => .isTrue trivial
  | ⟨.inr (.close _), _⟩ => .isTrue trivial
  | ⟨.inl _, _⟩ => .isTrue trivial

instance Honest.decidable (files : String → UserConfig) :
    (disk : Disk) → (trace : List Step) → Decidable (Honest files disk trace)
  | _, [] => .isTrue trivial
  | disk, event :: rest =>
    have := Honest.decidable files (disk.after event) rest
    inferInstanceAs (Decidable (_ ∧ _))

/-- The content is the document of a measurement that finished within the history. -/
def Recorded (lib : Lib) (config : Config) (history : List Step) (content : List Char) : Prop :=
  ∃ taken results, taken.map Event.inl <:+: history ∧
    (connectHosts config >>= measureCpuUtil lib).Runs taken (.ok results) ∧
    content = lib.yamlDump results.toData

def opened (path : String) : Step := ⟨.inr (.openWrite path), .ok ()⟩

def closed (path : String) : Step := ⟨.inr (.close path), .ok ()⟩

def written (path : String) (c : Char) : Step := ⟨.inr (.write path c), .ok ()⟩

def closes (path : String) : Step → Bool
  | ⟨.inr (.close other), .ok _⟩ => other = path
  | _ => false

def failsToWrite (path : String) : Step → Bool
  | ⟨.inr (.write other _), .error _⟩ => other = path
  | _ => false

/-- A file that is opened is closed afterwards, and no write to it fails. -/
def Uninterrupted : List Step → Prop
  | [] => True
  | ⟨.inr (.openWrite path), .ok _⟩ :: rest =>
    (rest.any (closes path) = true ∧ rest.any (failsToWrite path) = false) ∧ Uninterrupted rest
  | _ :: rest => Uninterrupted rest

instance Uninterrupted.decidable : (trace : List Step) → Decidable (Uninterrupted trace)
  | [] => .isTrue trivial
  | ⟨.inr (.openWrite _), .ok _⟩ :: rest =>
    have := Uninterrupted.decidable rest
    inferInstanceAs (Decidable (_ ∧ _))
  | ⟨.inr (.openWrite _), .error _⟩ :: rest => Uninterrupted.decidable rest
  | ⟨.inr (.loadConfig _), _⟩ :: rest => Uninterrupted.decidable rest
  | ⟨.inr (.pathExists _), _⟩ :: rest => Uninterrupted.decidable rest
  | ⟨.inr (.write _ _), _⟩ :: rest => Uninterrupted.decidable rest
  | ⟨.inr (.close _), _⟩ :: rest => Uninterrupted.decidable rest
  | ⟨.inl _, _⟩ :: rest => Uninterrupted.decidable rest

theorem Uninterrupted.later {front back : List Step} (whole : Uninterrupted (front ++ back)) :
    Uninterrupted back := by
  induction front with
  | nil => exact whole
  | cons event front ih =>
    apply ih
    rw [List.cons_append] at whole
    unfold Uninterrupted at whole
    split at whole
    · contradiction
    · rename_i same
      cases same
      exact whole.2
    · rename_i same
      cases same
      exact whole

theorem afterAll_append (disk : Disk) (front back : List Step) :
    disk.afterAll (front ++ back) = (disk.afterAll front).afterAll back := List.foldl_append

theorem honest_append {files : String → UserConfig} {disk : Disk} {front back : List Step} :
    Honest files disk (front ++ back) ↔ Honest files disk front ∧ Honest files (disk.afterAll front) back := by
  induction front generalizing disk with
  | nil => simp [Honest, Disk.afterAll]
  | cons event front ih =>
    rw [List.cons_append, Honest, Honest, ih, and_assoc]
    rfl

@[simp] theorem afterAll_hosts (disk : Disk) (happenings : List Happening) :
    disk.afterAll (happenings.map Event.inl) = disk := by
  induction happenings with
  | nil => rfl
  | cons happening happenings ih => exact ih

def dumpTrace (path : String) (text : List Char) : List Step :=
  opened path :: (text.map (written path) ++ [closed path])

theorem afterAll_written (disk : Disk) (path : String) (before text : List Char) :
    Disk.afterAll (Function.update disk path (some before)) (text.map (written path)) =
      Function.update disk path (some (before ++ text)) := by
  induction text generalizing before with
  | nil => simp [Disk.afterAll]
  | cons c text ih =>
    have first : Disk.after (Function.update disk path (some before)) (written path c) =
        Function.update disk path (some (before ++ [c])) := by
      simp [Disk.after, written]
    rw [List.map_cons, Disk.afterAll, List.foldl_cons, first, ← Disk.afterAll, ih, List.append_assoc]
    rfl

theorem afterAll_dumpTrace (disk : Disk) (path : String) (text : List Char) :
    disk.afterAll (dumpTrace path text) = Function.update disk path (some text) := by
  rw [dumpTrace, ← List.singleton_append, afterAll_append, afterAll_append]
  exact afterAll_written disk path [] text

abbrev FileEvent : Type := Event FileRequest FileRequest.Reply PyErr

section Dump

variable {path : String} {text : List Char} {trace : List FileEvent}

theorem runs_writeText {value : Unit} (runs : (writeText path text).Runs trace (.ok value)) :
    trace.map Event.inr = text.map (written path) := by
  obtain ⟨loop, none, values, rfl, writes, last⟩ := Prog.runs_bind.mp runs
  rw [(Prog.runs_pure.mp last).1, List.append_nil]
  clear runs last
  induction text generalizing loop values with
  | nil =>
    rw [writes.1]
    rfl
  | cons c text ih =>
    obtain ⟨front, back, value, rest, rfl, first, later, -⟩ := Prog.runs_mapM_cons.mp writes
    rw [List.map_append, ih _ _ later, Prog.runs_call.mp first]
    rfl

theorem writeText_raises {error : PyErr} (runs : (writeText path text).Runs trace (.error error)) :
    ∃ c, (⟨.write path c, .error error⟩ : FileEvent) ∈ trace := by
  rcases Prog.runs_bind_error.mp runs with runs | ⟨_, _, _, -, -, last⟩
  · induction text generalizing trace with
    | nil => cases runs.2
    | cons c text ih =>
      rw [List.mapM_cons] at runs
      rcases Prog.runs_bind_error.mp runs with early | ⟨front, back, value, rfl, first, later⟩
      · exact ⟨c, by simp [Prog.runs_call.mp early]⟩
      · rcases Prog.runs_bind_error.mp later with failed | ⟨_, _, _, -, -, last⟩
        · obtain ⟨d, member⟩ := ih (Prog.runs_bind_error.mpr (.inl failed)) failed
          exact ⟨d, by simp [member]⟩
        · cases last.2
  · cases last.2

theorem reaches_writeText (reaches : (writeText path text).Reaches trace) :
    ∀ event ∈ trace, ∃ c, event.req = .write path c := by
  have loop : (text.mapM fun c => askFile (.write path c)).Reaches trace := by
    rcases Prog.reaches_bind reaches with cut | ⟨front, back, values, rfl, runs, last⟩
    · exact cut
    · rw [show back = [] from last, List.append_nil]
      exact runs.reaches List.prefix_rfl
  clear reaches
  induction text generalizing trace with
  | nil =>
    rw [show trace = [] from loop]
    simp
  | cons c text ih =>
    rcases Prog.reaches_mapM_cons loop with cut | ⟨front, back, value, rfl, first, later⟩
    · rcases Prog.reaches_call cut with rfl | ⟨reply, rfl⟩ <;> simp
    · rw [Prog.runs_call.mp first]
      intro event member
      rcases List.mem_cons.mp member with rfl | member
      · exact ⟨c, rfl⟩
      · exact ih later event member

theorem runs_dumpResults {value : Unit} (runs : (dumpResults path text).Runs trace (.ok value)) :
    trace.map Event.inr = dumpTrace path text := by
  obtain ⟨front, back, _, rfl, opens, runs⟩ := Prog.runs_bind.mp runs
  obtain ⟨middle, final, _, rfl, body, closes⟩ := Prog.runs_bind.mp runs
  have writes : middle.map Event.inr = text.map (written path) := by
    rcases Prog.runs_tryCatch.mp body with returns | ⟨first, second, error, rfl, -, handled⟩
    · exact runs_writeText returns
    · obtain ⟨_, _, _, rfl, -, raises⟩ := Prog.runs_bind.mp handled
      exact absurd raises Prog.runs_throw_ok
  rw [Prog.runs_call.mp opens, Prog.runs_call.mp closes, List.map_append, List.map_append, writes]
  rfl

/-- A run that is cut while the file is open, or in which a write fails, is no whole one. -/
theorem reaches_dumpResults (reaches : (dumpResults path text).Reaches trace)
    (whole : Uninterrupted (trace.map Event.inr)) :
    (∀ disk : Disk, disk.afterAll (trace.map Event.inr) = disk) ∨ trace.map Event.inr = dumpTrace path text := by
  have writes_only : ∀ {events : List FileEvent} {event : FileEvent}, (writeText path text).Reaches events →
      event ∈ events → closes path event.inr = false := by
    intro events event reaches member
    obtain ⟨c, same⟩ := reaches_writeText reaches event member
    obtain ⟨req, reply⟩ := event
    cases same
    rfl
  rcases Prog.reaches_bind reaches with cut | ⟨front, back, _, rfl, opens, runs⟩
  · rcases Prog.reaches_call cut with rfl | ⟨reply | _, rfl⟩
    · exact .inl fun _ => rfl
    · exact .inl fun _ => rfl
    · cases whole.1.1
  · rw [Prog.runs_call.mp opens] at whole ⊢
    obtain ⟨⟨closed_later, sound⟩, -⟩ := whole
    obtain ⟨_, mapped, closing⟩ := List.any_eq_true.mp closed_later
    obtain ⟨event, member, rfl⟩ := List.mem_map.mp mapped
    replace member : event ∈ back := member
    rcases Prog.reaches_bind runs with cut | ⟨front, final, _, rfl, body, last⟩
    · rcases Prog.reaches_tryCatch cut with cut | ⟨first, second, error, rfl, failed, -⟩
      · rw [writes_only cut member] at closing
        contradiction
      · obtain ⟨c, fails⟩ := writeText_raises failed
        have bad := List.any_eq_false.mp sound _ (List.mem_map.mpr ⟨_, List.mem_append_left second fails, rfl⟩)
        simp [failsToWrite, Event.inr] at bad
    · rcases Prog.runs_tryCatch.mp body with returns | ⟨first, second, error, rfl, -, handled⟩
      · have early : event ∉ front := by
          intro early
          rw [writes_only (returns.reaches List.prefix_rfl) early] at closing
          contradiction
        have late := (List.mem_append.mp member).resolve_left early
        rcases Prog.reaches_call last with rfl | ⟨reply | _, rfl⟩
        · cases late
        · rw [List.mem_singleton.mp late] at closing
          cases closing
        · rw [List.singleton_append, List.map_cons, List.map_append, runs_writeText returns]
          exact .inr rfl
      · obtain ⟨_, _, _, rfl, -, raises⟩ := Prog.runs_bind.mp handled
        exact absurd raises Prog.runs_throw_ok

end Dump

section Round

variable {lib : Lib} {config : Config} {path : String} {trace : List Step}

theorem runs_inl {α : Type} {p : Run α} {result : Except PyErr α} (runs : (liftM p : Main α).Runs trace result) :
    ∃ happenings, trace = happenings.map Event.inl ∧ p.Runs happenings result := Prog.runs_inl.mp runs

theorem runs_inr {α : Type} {p : Files α} {result : Except PyErr α} (runs : (liftM p : Main α).Runs trace result) :
    ∃ events, trace = events.map Event.inr ∧ p.Runs events result := Prog.runs_inr.mp runs

theorem reaches_inr {α : Type} {p : Files α} (reaches : (liftM p : Main α).Reaches trace) :
    ∃ events, trace = events.map Event.inr ∧ p.Reaches events := Prog.reaches_inr reaches

/-- The trace writes the document of its own measurement to the file. -/
def Filed (lib : Lib) (config : Config) (path : String) (trace : List Step) : Prop :=
  ∃ content, (∀ disk : Disk, disk.afterAll trace = Function.update disk path (some content)) ∧
    Recorded lib config trace content

theorem filed_of_parts {connects measures cleans : List Happening} {connected : Config} {results : Results}
    (connect : (connectHosts config).Runs connects (.ok connected))
    (measure : (measureCpuUtil lib connected).Runs measures (.ok results)) :
    Filed lib config path (connects.map Event.inl ++ (measures.map Event.inl ++
      (dumpTrace path (lib.yamlDump results.toData) ++ cleans.map Event.inl))) := by
  refine ⟨lib.yamlDump results.toData, fun disk => ?_, connects ++ measures, results, ?_, ?_, rfl⟩
  · rw [afterAll_append, afterAll_append, afterAll_append, afterAll_hosts, afterAll_hosts, afterAll_dumpTrace,
      afterAll_hosts]
  · rw [List.map_append, ← List.append_assoc]
    exact (List.prefix_append _ _).isInfix
  · exact Prog.runs_bind.mpr ⟨connects, measures, connected, rfl, connect, measure⟩

theorem outfOf_connected {connected : Config} {connects : List Happening}
    (connect : (connectHosts config).Runs connects (.ok connected)) : outfOf connected = outfOf config := by
  obtain ⟨hosts, -, -, rfl⟩ := runs_connectHosts connect
  rfl

theorem outputResults_eq {results : Results} (names : outfOf config = some path) :
    outputResults lib config results = dumpResults path (lib.yamlDump results.toData) := by
  rw [outputResults, names]

theorem filed_runCpuUtilExp {results : Results} (names : outfOf config = some path)
    (runs : (runCpuUtilExp lib config).Runs trace (.ok results)) : Filed lib config path trace := by
  obtain ⟨front, back, connected, rfl, connect, runs_rest⟩ := Prog.runs_bind.mp runs
  obtain ⟨front, back, measured, rfl, measure, runs_output⟩ := Prog.runs_bind.mp runs_rest
  obtain ⟨front, back, _, rfl, output, runs_clean⟩ := Prog.runs_bind.mp runs_output
  obtain ⟨front, back, _, rfl, clean, last⟩ := Prog.runs_bind.mp runs_clean
  obtain ⟨connects, rfl, connecting⟩ := runs_inl connect
  obtain ⟨measures, rfl, measuring⟩ := runs_inl measure
  obtain ⟨outputs, rfl, outputting⟩ := runs_inr output
  obtain ⟨cleans, rfl, -⟩ := runs_inl clean
  rw [outputResults_eq ((outfOf_connected connecting).trans names)] at outputting
  rw [runs_dumpResults outputting, (Prog.runs_pure.mp last).1, List.append_nil]
  exact filed_of_parts connecting measuring

theorem reaches_runCpuUtilExp (names : outfOf config = some path) (whole : Uninterrupted trace)
    (reaches : (runCpuUtilExp lib config).Reaches trace) :
    (∀ disk : Disk, disk.afterAll trace = disk) ∨ Filed lib config path trace := by
  rcases Prog.reaches_bind reaches with cut | ⟨front, back, connected, rfl, connect, reaches_rest⟩
  · obtain ⟨connects, rfl, -⟩ := Prog.reaches_inl cut
    exact .inl fun disk => afterAll_hosts disk connects
  obtain ⟨connects, rfl, connecting⟩ := runs_inl connect
  rcases Prog.reaches_bind reaches_rest with cut | ⟨front, back, measured, rfl, measure, reaches_output⟩
  · obtain ⟨measures, rfl, -⟩ := Prog.reaches_inl cut
    exact .inl fun disk => by rw [afterAll_append, afterAll_hosts, afterAll_hosts]
  obtain ⟨measures, rfl, measuring⟩ := runs_inl measure
  have named := (outfOf_connected connecting).trans names
  rcases Prog.reaches_bind reaches_output with cut | ⟨front, back, _, rfl, output, reaches_clean⟩
  · obtain ⟨outputs, rfl, outputting⟩ := reaches_inr cut
    rw [outputResults_eq named] at outputting
    rcases reaches_dumpResults outputting whole.later.later with nothing | all
    · exact .inl fun disk => by rw [afterAll_append, afterAll_append, afterAll_hosts, afterAll_hosts, nothing]
    · have filed : Filed lib config path (_ ++ (_ ++ (dumpTrace path _ ++ [].map Event.inl))) :=
        filed_of_parts connecting measuring
      rw [List.map_nil, List.append_nil, ← all] at filed
      exact .inr filed
  obtain ⟨outputs, rfl, outputting⟩ := runs_inr output
  rw [outputResults_eq named] at outputting
  rw [runs_dumpResults outputting]
  rcases Prog.reaches_bind reaches_clean with cut | ⟨front, back, _, rfl, clean, last⟩
  · obtain ⟨cleans, rfl, -⟩ := Prog.reaches_inl cut
    exact .inr (filed_of_parts connecting measuring)
  · obtain ⟨cleans, rfl, -⟩ := runs_inl clean
    rw [show back = [] from last, List.append_nil]
    exact .inr (filed_of_parts connecting measuring)

theorem runs_skips {skipExisting skip : Bool} {events : List FileEvent} (names : outfOf config = some path)
    (runs : (skips config skipExisting).Runs events (.ok skip)) :
    ∃ found, events = [⟨.pathExists path, .ok found⟩] ∧ skip = (found && skipExisting) := by
  rw [skips, names] at runs
  obtain ⟨front, back, found, rfl, first, last⟩ := Prog.runs_bind.mp runs
  rw [Prog.runs_call.mp first, (Prog.runs_pure.mp last).1]
  exact ⟨found, rfl, Except.ok.inj (Prog.runs_pure.mp last).2⟩

theorem reaches_skips {skipExisting : Bool} {events : List FileEvent} (names : outfOf config = some path)
    (reaches : (skips config skipExisting).Reaches events) :
    events = [] ∨ ∃ reply, events = [⟨.pathExists path, reply⟩] := by
  rw [skips, names] at reaches
  rcases Prog.reaches_bind reaches with cut | ⟨front, back, found, rfl, first, last⟩
  · exact Prog.reaches_call cut
  · rw [Prog.runs_call.mp first, show back = [] from last]
    exact .inr ⟨_, rfl⟩

theorem Filed.after {quiet : List Step} (same : ∀ disk : Disk, disk.afterAll quiet = disk)
    (filed : Filed lib config path trace) : Filed lib config path (quiet ++ trace) := by
  obtain ⟨content, writes, taken, results, within, measured, document⟩ := filed
  refine ⟨content, fun disk => ?_, taken, results, ?_, measured, document⟩
  · rw [afterAll_append, same, writes]
  · exact within.trans (List.suffix_append quiet trace).isInfix

theorem filed_runUnless (names : outfOf config = some path) (runs : (runUnless lib config false).Runs trace (.ok ())) :
    Filed lib config path trace := by
  obtain ⟨front, back, _, rfl, sleep, runs_exp⟩ := Prog.runs_bind.mp runs
  obtain ⟨front, back, results, rfl, measure, last⟩ := Prog.runs_bind.mp runs_exp
  obtain ⟨sleeps, rfl, -⟩ := runs_inl sleep
  rw [(Prog.runs_pure.mp last).1, List.append_nil]
  exact (filed_runCpuUtilExp names measure).after fun disk => afterAll_hosts disk sleeps

theorem reaches_runUnless (names : outfOf config = some path) (whole : Uninterrupted trace)
    (reaches : (runUnless lib config false).Reaches trace) :
    (∀ disk : Disk, disk.afterAll trace = disk) ∨ Filed lib config path trace := by
  rcases Prog.reaches_bind reaches with cut | ⟨front, back, _, rfl, sleep, reaches_exp⟩
  · obtain ⟨sleeps, rfl, -⟩ := Prog.reaches_inl cut
    exact .inl fun disk => afterAll_hosts disk sleeps
  obtain ⟨sleeps, rfl, -⟩ := runs_inl sleep
  have quiet := fun disk : Disk => afterAll_hosts disk sleeps
  rcases Prog.reaches_bind reaches_exp with cut | ⟨front, back, results, rfl, measure, last⟩
  · rcases reaches_runCpuUtilExp names whole.later cut with nothing | filed
    · exact .inl fun disk => by rw [afterAll_append, afterAll_hosts, nothing]
    · exact .inr (filed.after quiet)
  · rw [show back = [] from last, List.append_nil]
    exact .inr ((filed_runCpuUtilExp names measure).after quiet)

end Round

end RdmaExps.Experiment
