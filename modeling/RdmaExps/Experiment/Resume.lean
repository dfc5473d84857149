import RdmaExps.Experiment.Archive
import RdmaExps.Experiment.Disk

namespace RdmaExps.Experiment

open RdmaExps.Python RdmaExps.Cluster RdmaExps.Measure

/-- Configuration files that name their results files, no two of them the same; `--configs` takes
    one or more. -/
structure Batch (roneCodeDir : String) where
  configs : List String
  nonempty : configs ≠ []
  files : String → UserConfig
  named : ∀ fname ∈ configs, (outfOf (cpuUtilExpConfig roneCodeDir (files fname))).isSome
  distinct : (configs.map fun fname => outfOf (cpuUtilExpConfig roneCodeDir (files fname))).Nodup

variable {roneCodeDir : String}

def Batch.config (batch : Batch roneCodeDir) (entry : String × Nat) : Config :=
  configAt roneCodeDir (batch.files entry.1) entry.2

/-- The entry of the batch whose results go to the file. -/
def Batch.Owns (batch : Batch roneCodeDir) (entry : String × Nat) (path : String) : Prop :=
  entry ∈ batch.configs.zipIdx ∧ outfOf (batch.config entry) = some path

abbrev State : Type := Archive Step String (List Char)

def State.next (s : State) (trace : List Step) : State := ⟨s.log ++ trace, Disk.afterAll s.store trace⟩

/-- One invocation with `--skip-existing`, cut short or not. -/
def Invoke (lib : Lib) (batch : Batch roneCodeDir) (allowed : List Step → Prop) (s s' : State) : Prop :=
  ∃ trace, (main lib roneCodeDir batch.configs true).Reaches trace ∧ Honest batch.files s.store trace ∧
    allowed trace ∧ s' = s.next trace

def Fresh (batch : Batch roneCodeDir) (s : State) : Prop :=
  ∀ entry path, batch.Owns entry path → s.store path = none

def Earned (lib : Lib) (batch : Batch roneCodeDir) (history : List Step) (path : String) (content : List Char) :
    Prop :=
  ∀ entry, batch.Owns entry path → Recorded lib (batch.config entry) history content

/-- What a rerun promises in a state. -/
structure Resumes (lib : Lib) (batch : Batch roneCodeDir) (allowed : List Step → Prop) (s : State) : Prop where
  complete : ∀ entry path content, batch.Owns entry path → s.store path = some content →
    Recorded lib (batch.config entry) s.log content
  skipped : ∀ entry path trace, batch.Owns entry path →
    (runConfig lib roneCodeDir true entry).Runs trace (.ok ()) → Honest batch.files s.store trace →
    (∀ content, ¬ Recorded lib (batch.config entry) trace content) →
    ∃ content, s.store path = some content ∧ Recorded lib (batch.config entry) s.log content
  notAgain : ∀ entry path content trace, batch.Owns entry path → s.store path = some content →
    (runConfig lib roneCodeDir true entry).Reaches trace → Honest batch.files s.store trace →
    ∀ event ∈ trace, ∀ request, event.req ≠ .inl request
  unchanged : ∀ s' entry path content, Relation.ReflTransGen (Invoke lib batch allowed) s s' →
    batch.Owns entry path → s.store path = some content → s'.store path = some content
  finished : ∀ trace, (main lib roneCodeDir batch.configs true).Runs trace (.ok ()) →
    Honest batch.files s.store trace → ∀ entry ∈ batch.configs.zipIdx, ∃ path content, batch.Owns entry path ∧
      (s.next trace).store path = some content ∧ Recorded lib (batch.config entry) (s.next trace).log content

section Batch

variable {lib : Lib} {batch : Batch roneCodeDir} {entry : String × Nat} {path : String} {disk : Disk}
  {trace : List Step} {s : State}

def lookTrace (batch : Batch roneCodeDir) (entry : String × Nat) (path : String) (found : Bool) : List Step :=
  [⟨.inr (.loadConfig entry.1), .ok (batch.files entry.1)⟩, ⟨.inr (.pathExists path), .ok found⟩]

theorem afterAll_lookTrace (found : Bool) (disk : Disk) :
    disk.afterAll (lookTrace batch entry path found) = disk := rfl

theorem runs_runConfig (owns : batch.Owns entry path) (honest : Honest batch.files disk trace)
    (runs : (runConfig lib roneCodeDir true entry).Runs trace (.ok ())) :
    ∃ rest, trace = lookTrace batch entry path (disk path).isSome ++ rest ∧
      (runUnless lib (batch.config entry) (disk path).isSome).Runs rest (.ok ()) := by
  obtain ⟨front, back, user, rfl, load, runs_look⟩ := Prog.runs_bind.mp runs
  obtain ⟨look, rest, skip, rfl, skipping, later⟩ := Prog.runs_bind.mp runs_look
  obtain ⟨loads, rfl, loading⟩ := runs_inr load
  obtain ⟨looks, rfl, looking⟩ := runs_inr skipping
  rw [Prog.runs_call.mp loading] at honest ⊢
  obtain ⟨rfl, honest⟩ := honest
  obtain ⟨found, rfl, rfl⟩ := runs_skips owns.2 looking
  obtain ⟨rfl, -⟩ := honest
  rw [Bool.and_true] at later
  exact ⟨rest, rfl, later⟩

theorem reaches_runConfig (owns : batch.Owns entry path) (honest : Honest batch.files disk trace)
    (reaches : (runConfig lib roneCodeDir true entry).Reaches trace) :
    (∃ events : List FileEvent, trace = events.map Event.inr ∧ ∀ disk : Disk, disk.afterAll trace = disk) ∨
      ∃ rest, trace = lookTrace batch entry path (disk path).isSome ++ rest ∧
        (runUnless lib (batch.config entry) (disk path).isSome).Reaches rest := by
  rcases Prog.reaches_bind reaches with cut | ⟨front, back, user, rfl, load, reaches_look⟩
  · obtain ⟨loads, rfl, loading⟩ := reaches_inr cut
    rcases Prog.reaches_call loading with rfl | ⟨reply, rfl⟩
    · exact .inl ⟨[], rfl, fun _ => rfl⟩
    · exact .inl ⟨_, rfl, fun _ => rfl⟩
  obtain ⟨loads, rfl, loading⟩ := runs_inr load
  rw [Prog.runs_call.mp loading] at honest ⊢
  obtain ⟨rfl, honest⟩ := honest
  rcases Prog.reaches_bind reaches_look with cut | ⟨look, rest, skip, rfl, skipping, later⟩
  · obtain ⟨looks, rfl, looking⟩ := reaches_inr cut
    rcases reaches_skips owns.2 looking with rfl | ⟨reply, rfl⟩
    · exact .inl ⟨[_], rfl, fun _ => rfl⟩
    · exact .inl ⟨[_, _], rfl, fun _ => rfl⟩
  · obtain ⟨looks, rfl, looking⟩ := runs_inr skipping
    obtain ⟨found, rfl, rfl⟩ := runs_skips owns.2 looking
    obtain ⟨rfl, -⟩ := honest
    rw [Bool.and_true] at later
    exact .inr ⟨rest, rfl, later⟩

theorem runs_round (owns : batch.Owns entry path) (honest : Honest batch.files disk trace)
    (runs : (runConfig lib roneCodeDir true entry).Runs trace (.ok ())) :
    ((disk path).isSome ∧ disk.afterAll trace = disk) ∨
      disk path = none ∧ Filed lib (batch.config entry) path trace := by
  obtain ⟨rest, rfl, later⟩ := runs_runConfig owns honest runs
  cases here : disk path with
  | some content =>
    rw [here] at later
    rw [show rest = [] from later.1]
    exact .inl ⟨rfl, rfl⟩
  | none =>
    rw [here] at later
    exact .inr ⟨rfl, (filed_runUnless owns.2 later).after (afterAll_lookTrace _)⟩

theorem reaches_round (owns : batch.Owns entry path) (honest : Honest batch.files disk trace)
    (whole : Uninterrupted trace) (reaches : (runConfig lib roneCodeDir true entry).Reaches trace) :
    disk.afterAll trace = disk ∨ disk path = none ∧ Filed lib (batch.config entry) path trace := by
  rcases reaches_runConfig owns honest reaches with ⟨-, -, same⟩ | ⟨rest, rfl, later⟩
  · exact .inl (same disk)
  · cases here : disk path with
    | some content =>
      rw [here] at later
      rw [show rest = [] from later]
      exact .inl rfl
    | none =>
      rw [here] at later whole
      rcases reaches_runUnless owns.2 whole.later later with nothing | filed
      · exact .inl (by rw [afterAll_append, afterAll_lookTrace, nothing])
      · exact .inr ⟨rfl, filed.after (afterAll_lookTrace _)⟩

theorem round_idle {content : List Char} (owns : batch.Owns entry path) (honest : Honest batch.files disk trace)
    (here : disk path = some content) (reaches : (runConfig lib roneCodeDir true entry).Reaches trace) :
    ∀ event ∈ trace, ∀ request, event.req ≠ .inl request := by
  have files : ∃ events : List FileEvent, trace = events.map Event.inr := by
    rcases reaches_runConfig owns honest reaches with ⟨events, same, -⟩ | ⟨rest, rfl, later⟩
    · exact ⟨events, same⟩
    · rw [here] at later ⊢
      rw [show rest = [] from later]
      exact ⟨[⟨.loadConfig _, .ok _⟩, ⟨.pathExists _, .ok _⟩], rfl⟩
  obtain ⟨events, rfl⟩ := files
  intro event member request same
  obtain ⟨inner, -, rfl⟩ := List.mem_map.mp member
  cases same

theorem recorded_mono {config : Config} {short long : List Step} {content : List Char} (within : short <:+: long)
    (recorded : Recorded lib config short content) : Recorded lib config long content := by
  obtain ⟨taken, results, inside, measured, document⟩ := recorded
  exact ⟨taken, results, inside.trans within, measured, document⟩

theorem lasting_earned : Archive.Lasting (Earned lib batch) :=
  fun _ _ _ _ within earned entry owns => recorded_mono within (earned entry owns)

theorem Batch.Owns.unique {other : String × Nat} (owns : batch.Owns entry path) (owned : batch.Owns other path) :
    other = entry := by
  have place : ∀ {entry : String × Nat}, batch.Owns entry path →
      (batch.configs.map fun fname => outfOf (cpuUtilExpConfig roneCodeDir (batch.files fname)))[entry.2]? =
        some (some path) := by
    intro entry owns
    rw [List.getElem?_map, List.mem_zipIdx_iff_getElem?.mp owns.1]
    exact congrArg some owns.2
  have same : other.2 = entry.2 := by
    obtain ⟨bound, -⟩ := List.getElem?_eq_some_iff.mp (place owned)
    exact (List.getElem?_inj bound batch.distinct).mp ((place owned).trans (place owns).symm)
  have named := List.mem_zipIdx_iff_getElem?.mp owned.1
  rw [same, List.mem_zipIdx_iff_getElem?.mp owns.1] at named
  exact Prod.ext (Option.some.inj named).symm same

theorem Batch.exists_owns (member : entry ∈ batch.configs.zipIdx) : ∃ path, batch.Owns entry path := by
  obtain ⟨path, names⟩ := Option.isSome_iff_exists.mp (batch.named entry.1 (List.fst_mem_of_mem_zipIdx member))
  exact ⟨path, member, names⟩

theorem next_append (s : State) (front back : List Step) : s.next (front ++ back) = (s.next front).next back := by
  simp [State.next, afterAll_append]

theorem grows_quiet (same : Disk.afterAll s.store trace = s.store) : s.Grows (Earned lib batch) (s.next trace) :=
  ⟨List.prefix_append s.log trace, fun key => .inl (congrFun same key)⟩

theorem grows_filed (owns : batch.Owns entry path) (missing : s.store path = none)
    (filed : Filed lib (batch.config entry) path trace) : s.Grows (Earned lib batch) (s.next trace) := by
  obtain ⟨content, writes, recorded⟩ := filed
  have files : (s.next trace).store = Function.update s.store path (some content) := writes s.store
  refine ⟨List.prefix_append s.log trace, fun key => ?_⟩
  by_cases here : key = path
  · refine .inr ⟨by rw [here, missing], content, ?_, ?_⟩
    · rw [files, here, Function.update_self]
    · intro other owned
      rw [here] at owned
      rw [owns.unique owned]
      exact recorded_mono (List.suffix_append s.log trace).isInfix recorded
  · rw [files, Function.update_of_ne here]
    exact .inl rfl

theorem grows_round (owns : batch.Owns entry path) (honest : Honest batch.files s.store trace)
    (runs : (runConfig lib roneCodeDir true entry).Runs trace (.ok ())) :
    s.Grows (Earned lib batch) (s.next trace) ∧ ((s.next trace).store path).isSome := by
  rcases runs_round owns honest runs with ⟨found, same⟩ | ⟨missing, filed⟩
  · have files : (s.next trace).store = s.store := same
    exact ⟨grows_quiet same, by rw [files, found]⟩
  · refine ⟨grows_filed owns missing filed, ?_⟩
    obtain ⟨content, writes, -⟩ := filed
    have files : (s.next trace).store = Function.update s.store path (some content) := writes s.store
    rw [files, Function.update_self]
    rfl

theorem runs_rounds {entries : List (String × Nat)} {values : List Unit} (listed : entries ⊆ batch.configs.zipIdx)
    (honest : Honest batch.files s.store trace)
    (runs : (entries.mapM (runConfig lib roneCodeDir true)).Runs trace (.ok values)) :
    s.Grows (Earned lib batch) (s.next trace) ∧
      ∀ entry ∈ entries, ∀ path, batch.Owns entry path → ((s.next trace).store path).isSome := by
  induction entries generalizing s trace values with
  | nil =>
    rw [runs.1]
    exact ⟨grows_quiet rfl, by simp⟩
  | cons entry entries ih =>
    obtain ⟨front, back, value, rest, rfl, first, later, -⟩ := Prog.runs_mapM_cons.mp runs
    obtain ⟨honest_front, honest_back⟩ := honest_append.mp honest
    obtain ⟨path, owns⟩ := Batch.exists_owns (listed List.mem_cons_self)
    obtain ⟨grows, fills⟩ := grows_round owns honest_front first
    obtain ⟨grows_rest, fills_rest⟩ := ih (fun other member => listed (List.mem_cons_of_mem entry member))
      (s := s.next front) honest_back later
    rw [next_append]
    refine ⟨grows.trans lasting_earned grows_rest, fun other member there owned => ?_⟩
    rcases List.mem_cons.mp member with rfl | member
    · obtain ⟨content, here⟩ := Option.isSome_iff_exists.mp fills
      rw [owned.2.symm.trans owns.2 |> Option.some.inj, grows_rest.keeps here]
      rfl
    · exact fills_rest other member there owned

theorem reaches_rounds {entries : List (String × Nat)} (listed : entries ⊆ batch.configs.zipIdx)
    (honest : Honest batch.files s.store trace) (whole : Uninterrupted trace)
    (reaches : (entries.mapM (runConfig lib roneCodeDir true)).Reaches trace) :
    s.Grows (Earned lib batch) (s.next trace) := by
  induction entries generalizing s trace with
  | nil =>
    rw [show trace = [] from reaches]
    exact grows_quiet rfl
  | cons entry entries ih =>
    obtain ⟨path, owns⟩ := Batch.exists_owns (listed List.mem_cons_self)
    rcases Prog.reaches_mapM_cons reaches with cut | ⟨front, back, value, rfl, first, later⟩
    · rcases reaches_round owns honest whole cut with same | ⟨missing, filed⟩
      · exact grows_quiet same
      · exact grows_filed owns missing filed
    · obtain ⟨honest_front, honest_back⟩ := honest_append.mp honest
      have grows := (grows_round owns honest_front first).1
      have grows_rest := ih (fun other member => listed (List.mem_cons_of_mem entry member))
        (s := s.next front) honest_back whole.later later
      rw [next_append]
      exact grows.trans lasting_earned grows_rest

theorem main_eq (batch : Batch roneCodeDir) : main lib roneCodeDir batch.configs true = do
    let _ ← batch.configs.zipIdx.mapM (runConfig lib roneCodeDir true)
    return () := by
  have some : batch.configs.isEmpty = false := List.isEmpty_eq_false_iff.mpr batch.nonempty
  rw [main, some]
  rfl

theorem runs_main (honest : Honest batch.files s.store trace)
    (runs : (main lib roneCodeDir batch.configs true).Runs trace (.ok ())) :
    s.Grows (Earned lib batch) (s.next trace) ∧
      ∀ entry ∈ batch.configs.zipIdx, ∀ path, batch.Owns entry path → ((s.next trace).store path).isSome := by
  rw [main_eq] at runs
  obtain ⟨front, back, values, rfl, rounds, last⟩ := Prog.runs_bind.mp runs
  rw [(Prog.runs_pure.mp last).1, List.append_nil] at honest ⊢
  exact runs_rounds (List.Subset.refl _) honest rounds

/-- An invocation that leaves no results file half written only adds documents of its own runs. -/
theorem Invoke.grows {s' : State} (invoked : Invoke lib batch Uninterrupted s s') :
    s.Grows (Earned lib batch) s' := by
  obtain ⟨trace, reaches, honest, whole, rfl⟩ := invoked
  rw [main_eq] at reaches
  rcases Prog.reaches_bind reaches with cut | ⟨front, back, values, rfl, rounds, last⟩
  · exact reaches_rounds (List.Subset.refl _) honest whole cut
  · rw [show back = [] from last, List.append_nil] at honest ⊢
    exact (runs_rounds (List.Subset.refl _) honest rounds).1

theorem Fresh.sound (fresh : Fresh batch s) : s.Sound (Earned lib batch) := by
  intro path content here entry owns
  rw [fresh entry path owns] at here
  cases here

/-- From a fresh start, as long as no invocation ends between opening a results file and closing
    it, every results file is complete, stays, and is made for every configuration in the end. -/
theorem resumes_of_uninterrupted (lib : Lib) (batch : Batch roneCodeDir) (start s : State) (fresh : Fresh batch start)
    (reached : Relation.ReflTransGen (Invoke lib batch Uninterrupted) start s) :
    Resumes lib batch Uninterrupted s := by
  have sound : s.Sound (Earned lib batch) :=
    (Archive.grows_of_reaches lasting_earned (fun _ _ => Invoke.grows) reached).sound lasting_earned fresh.sound
  refine ⟨?_, ?_, ?_, ?_, ?_⟩
  · intro entry path content owns here
    exact sound path content here entry owns
  · intro entry path trace owns runs honest never
    rcases runs_round owns honest runs with ⟨found, -⟩ | ⟨-, content, -, recorded⟩
    · obtain ⟨content, here⟩ := Option.isSome_iff_exists.mp found
      exact ⟨content, here, sound path content here entry owns⟩
    · exact absurd recorded (never content)
  · intro entry path content trace owns here reaches honest
    exact round_idle owns honest here reaches
  · intro s' entry path content later owns here
    exact (Archive.grows_of_reaches lasting_earned (fun _ _ => Invoke.grows) later).keeps here
  · intro trace runs honest entry member
    obtain ⟨grows, fills⟩ := runs_main honest runs
    obtain ⟨path, owns⟩ := Batch.exists_owns member
    obtain ⟨content, here⟩ := Option.isSome_iff_exists.mp (fills entry member path owns)
    exact ⟨path, content, owns, here, grows.sound lasting_earned sound path content here entry owns⟩

end Batch

def writeUser : UserConfig :=
  { noUserConfig with
    outf := some (some "out.yml")
    framework := some RoCE
    verb := some WRITE_RC
    clients := some ["10.10.1.1"] }

def writeBatch : Batch "/hw2" where
  configs := ["c.yml"]
  nonempty := by decide
  files _ := writeUser
  named := by decide +kernel
  distinct := by decide +kernel

def noFiles : State := ⟨[], fun _ => none⟩

def batchAnswers (found : Bool) : (request : MainRequest) → Except PyErr request.Reply
  | .inr (.loadConfig _) => .ok writeUser
  | .inr (.pathExists _) => .ok found
  | request => mainAnswers outputs request

def batchTrace (found : Bool) : List Step :=
  ((main textLib "/hw2" writeBatch.configs true).run (batchAnswers found)).1

/-- The invocation is killed when it has just opened the results file. -/
def cutTrace : List Step :=
  (batchTrace false).take ((batchTrace false).findIdx (fun event => event.req matches .inr (.openWrite _)) + 1)

theorem resumes_after_run : Resumes textLib writeBatch Uninterrupted (noFiles.next (batchTrace false)) := by
  apply resumes_of_uninterrupted textLib writeBatch noFiles
  · exact fun _ _ _ => rfl
  · exact .single ⟨batchTrace false, (Prog.runs_run _ _).reaches List.prefix_rfl, by decide +kernel,
      by decide +kernel, rfl⟩

/-- The empty file of a killed invocation is taken for a result, and stays for good. -/
theorem truncated_result_kept :
    Fresh writeBatch noFiles ∧ Invoke textLib writeBatch (fun _ => True) noFiles (noFiles.next cutTrace) ∧
    (main textLib "/hw2" writeBatch.configs true).Runs (batchTrace true) (.ok ()) ∧
    Honest writeBatch.files (noFiles.next cutTrace).store (batchTrace true) ∧
    ((noFiles.next cutTrace).next (batchTrace true)).store "out.yml" = some [] ∧
    ¬ Resumes textLib writeBatch (fun _ => True) (noFiles.next cutTrace) := by
  refine ⟨fun _ _ _ => rfl, ?_, ?_, by decide +kernel, by decide +kernel, ?_⟩
  · exact ⟨cutTrace, (Prog.runs_run _ _).reaches (List.take_prefix _ _), by decide +kernel, trivial, rfl⟩
  · obtain ⟨_, runs⟩ := Prog.runs_of_isOk (batchAnswers true) (main textLib "/hw2" writeBatch.configs true)
      (by decide +kernel)
    exact runs
  · intro resumes
    have owns : writeBatch.Owns ("c.yml", 0) "out.yml" := ⟨by decide, by decide +kernel⟩
    have empty : (noFiles.next cutTrace).store "out.yml" = some [] := by decide +kernel
    have some_text : resultsText.isEmpty = false := by decide +kernel
    obtain ⟨_, results, -, -, document⟩ := resumes.complete _ _ _ owns empty
    dsimp only [textLib] at document
    rw [← document] at some_text
    cases some_text

end RdmaExps.Experiment
