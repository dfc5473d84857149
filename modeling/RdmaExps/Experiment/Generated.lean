import RdmaExps.Experiment.Resume
import RdmaExps.Segments.Points

namespace RdmaExps.Experiment

open RdmaExps.Python RdmaExps.Cluster
open RdmaExps.Segments (SegConfig SegLists SegTuple ConfStore Triple outputConfig)

/-- What the experiment finds in a generated configuration; it does not look at the other keys. -/
def segUser (config : SegConfig) : UserConfig :=
  { noUserConfig with
    outf := some config.outf
    runlen := some config.runlen
    framework := some config.framework
    verb := some config.verb
    segSize := some config.segSize
    signalIfreq := config.signalIfreq
    clients := some config.clients }

/-- The pattern `conf/*RoCE*.yaml`. -/
def Picked (name : String) : Prop := ∃ front back, name = "conf/" ++ front ++ "RoCE" ++ back ++ ".yaml"

/-- The generated files that `run_rdma_seg.sh` hands to the experiment, in some order. -/
structure Handed (cwd : String) (lists : SegLists) where
  conf : ConfStore
  output : Segments.main cwd lists (fun _ => none) = .ok conf
  dotFree : ∀ t ∈ lists.tuples, t.DotFree
  names : List String
  nonempty : names ≠ []
  distinct : names.Nodup
  written : ∀ name ∈ names, (conf name).isSome
  picked : ∀ name, (conf name).isSome → Picked name → name ∈ names

variable {cwd : String} {lists : SegLists}

theorem generated_of_output {ts : List SegTuple} {store store' : ConfStore}
    (output : ts.foldlM (fun store t => do outputConfig store (← t.config cwd)) store = .ok store')
    {name : String} {config : SegConfig} (there : store' name = some config) :
    store name = some config ∨ ∃ t ∈ ts, name = "conf/" ++ t.baseText ∧ t.config cwd = .ok config := by
  induction ts generalizing store with
  | nil =>
    cases output
    exact .inl there
  | cons first rest ih =>
    rw [List.foldlM_cons] at output
    obtain ⟨middle, writes, output⟩ := bind_ok output
    obtain ⟨made, configured, writes⟩ := bind_ok writes
    rcases ih output with before | ⟨t, member, generated⟩
    · simp only [outputConfig, SegTuple.base_of_config configured] at writes
      rw [← Except.ok.inj writes] at before
      by_cases here : name = "conf/" ++ first.baseText
      · have same : made = config := Option.some.inj ((if_pos here).symm.trans before)
        rw [same] at configured
        exact .inr ⟨first, List.mem_cons_self, here, configured⟩
      · exact .inl ((if_neg here).symm.trans before)
    · exact .inr ⟨t, List.mem_cons_of_mem _ member, generated⟩

theorem outfOf_config (roneCodeDir : String) {t : SegTuple} {config : SegConfig} (made : t.config cwd = .ok config) :
    outfOf (cpuUtilExpConfig roneCodeDir (segUser config)) = some (cwd ++ "/results" ++ "/res." ++ t.baseText) := by
  have path := SegTuple.config_outf made
  have some_path : cwd ++ "/results" ++ "/res." ++ t.baseText ≠ "" := by
    intro empty
    have lengths := congrArg String.length empty
    simp only [String.length_append] at lengths
    have front : "/results".length = 8 := by decide
    rw [front] at lengths
    simp at lengths
  simp [outfOf, cpuUtilExpConfig, segUser, path, some_path]

namespace Handed

variable (handed : Handed cwd lists)

def files (name : String) : UserConfig := (handed.conf name).elim noUserConfig segUser

theorem generated {name : String} (member : name ∈ handed.names) :
    ∃ t ∈ lists.tuples, ∃ config, name = "conf/" ++ t.baseText ∧ t.config cwd = .ok config ∧
      handed.files name = segUser config := by
  obtain ⟨config, there⟩ := Option.isSome_iff_exists.mp (handed.written name member)
  rcases generated_of_output handed.output there with nothing | ⟨t, listed, named, made⟩
  · cases nothing
  · exact ⟨t, listed, config, named, made, by rw [files, there, Option.elim_some]⟩

theorem outfOf_files (roneCodeDir : String) {name : String} (member : name ∈ handed.names) :
    ∃ t ∈ lists.tuples, name = "conf/" ++ t.baseText ∧
      outfOf (cpuUtilExpConfig roneCodeDir (handed.files name)) =
        some (cwd ++ "/results" ++ "/res." ++ t.baseText) := by
  obtain ⟨t, listed, config, named, made, loads⟩ := handed.generated member
  exact ⟨t, listed, named, by rw [loads, outfOf_config roneCodeDir made]⟩

/-- The generated files name pairwise different results files. -/
def batch (roneCodeDir : String) : Batch roneCodeDir where
  configs := handed.names
  nonempty := handed.nonempty
  files := handed.files
  named := by
    intro name member
    obtain ⟨t, -, -, path⟩ := handed.outfOf_files roneCodeDir member
    rw [path]
    rfl
  distinct := by
    apply List.Nodup.map_on _ handed.distinct
    intro name member other member' same
    obtain ⟨t, -, rfl, path⟩ := handed.outfOf_files roneCodeDir member
    obtain ⟨t', -, rfl, path'⟩ := handed.outfOf_files roneCodeDir member'
    rw [path, path', Option.some.injEq] at same
    rw [Segments.append_left_cancel _ same]

end Handed

theorem mem_tuples {t : SegTuple} : t ∈ lists.tuples ↔ t.framework ∈ lists.frameworks ∧ t.verb ∈ lists.verbs ∧
    t.segSize ∈ lists.segSizes ∧ t.signalIfreq ∈ lists.signalIfreq ∧ t.run ∈ lists.runs := by
  obtain ⟨framework, verb, segSize, signalIfreq, run⟩ := t
  simp only [SegLists.tuples, List.mem_flatMap, List.mem_map, SegTuple.mk.injEq]
  constructor
  · rintro ⟨_, hf, _, hv, _, hs, _, hi, _, hr, rfl, rfl, rfl, rfl, rfl⟩
    exact ⟨hf, hv, hs, hi, hr⟩
  · rintro ⟨hf, hv, hs, hi, hr⟩
    exact ⟨_, hf, _, hv, _, hs, _, hi, _, hr, rfl, rfl, rfl, rfl, rfl⟩

theorem picked_of_roce {t : SegTuple} (roce : t.framework = RoCE) : Picked ("conf/" ++ t.baseText) := by
  refine ⟨"rdma_seg_cpu" ++ ".", "." ++ t.verb ++ "." ++ decimal t.segSize ++ "seg." ++
    (decimal t.signalIfreq ++ "sig.") ++ decimal t.run, ?_⟩
  have same : t.framework = Segments.RoCE := roce
  unfold SegTuple.baseText Segments.baseText
  rw [if_pos same, same]
  simp only [String.append_assoc, Segments.RoCE]

def tripleConfig (cwd : String) (t : Triple) (run : Int) : SegConfig :=
  { Segments.segConfig RoCE t.verb t.segSize t.signalIfreq run with outf := some (t.resultFile cwd run) }

/-- The configuration of one run of a triple, as the experiment adjusts it at its place in the list. -/
def runConfigAt (roneCodeDir cwd : String) (t : Triple) (run : Int) (fi : Nat) : Config :=
  configAt roneCodeDir (segUser (tripleConfig cwd t run)) fi

/-- Every run of a triple has its configuration in the batch, and its own results file. -/
theorem Handed.owns (handed : Handed cwd lists) (roneCodeDir : String) (roce : RoCE ∈ lists.frameworks) {t : Triple}
    (member : t ∈ lists.triples) {run : Int} (listed : run ∈ lists.runs) :
    ∃ entry, (handed.batch roneCodeDir).Owns entry (t.resultFile cwd run) ∧
      (handed.batch roneCodeDir).config entry = runConfigAt roneCodeDir cwd t run entry.2 := by
  obtain ⟨verb, signal, size⟩ := Segments.mem_triples.mp member
  let tuple : SegTuple := ⟨RoCE, t.verb, t.segSize, t.signalIfreq, run⟩
  have tupled : tuple ∈ lists.tuples := mem_tuples.mpr ⟨roce, verb, size, signal, listed⟩
  have made : tuple.config cwd = .ok (tripleConfig cwd t run) := tuple.config_ok cwd
  have stored := Segments.main_keeps_configs handed.dotFree handed.output tupled made
  have there : "conf/" ++ tuple.baseText ∈ handed.names := by
    apply handed.picked
    · rw [stored]
      rfl
    · exact picked_of_roce rfl
  obtain ⟨i, bound, named⟩ := List.mem_iff_getElem.mp there
  have loads : handed.files ("conf/" ++ tuple.baseText) = segUser (tripleConfig cwd t run) := by
    rw [files, stored, Option.elim_some]
  refine ⟨("conf/" ++ tuple.baseText, i), ⟨?_, ?_⟩, ?_⟩
  · apply List.mem_zipIdx_iff_getElem?.mpr
    exact List.getElem?_eq_some_iff.mpr ⟨bound, named⟩
  · have path := outfOf_config roneCodeDir made
    rw [← loads] at path
    exact path
  · exact congrArg (fun user => configAt roneCodeDir user i) loads

end RdmaExps.Experiment
