import RdmaExps.Segments.Lines
import RdmaExps.Segments.Names
import RdmaExps.Segments.Regroup

namespace RdmaExps.Segments

open RdmaExps.Python

/-- A point that was measured: a verb at a signalling interval and a segment size. -/
structure Triple where
  verb : String
  signalIfreq : Int
  segSize : Int
  deriving DecidableEq

def SegLists.triples (lists : SegLists) : List Triple :=
  lists.verbs.flatMap fun verb => lists.signalIfreq.flatMap fun signalIfreq =>
    lists.segSizes.map fun segSize => ⟨verb, signalIfreq, segSize⟩

def Triple.signalSize (t : Triple) : Int := t.signalIfreq * t.segSize

def Triple.key (t : Triple) : Int × Int := (t.signalSize, t.segSize)

def Triple.resultFile (cwd : String) (t : Triple) (run : Int) : String :=
  cwd ++ "/results" ++ "/res." ++ baseText RoCE t.verb t.segSize t.signalIfreq run

def Triple.measured (cwd : String) (lists : SegLists) (results : Results) (t : Triple) : Option Rat :=
  meanOrNone (lists.runs.filterMap fun run => (results (t.resultFile cwd run)).map RunResult.p50)

/-- The points on the output lines, `keys` naming the signal size of each line. -/
def outputPoints {Y : Type} (keys : List Int) (lines : List (NewLine Y)) : List ((Int × Int) × Y) :=
  (keys.zip lines).flatMap fun keyed =>
    ((keyed.2.xs.getD []).zip (keyed.2.ys.getD [])).map fun point => ((keyed.1, point.1), point.2)

/-- Every selected triple gives exactly one point of the output, and the output has no others. -/
def PointsKept (cwd : String) (lists : SegLists) (results : Results) : Prop :=
  ∃ lines out keys, segsizeLines cwd lists results = .ok lines ∧ convertPltdata lines = .ok out ∧
    keys.Nodup ∧ List.Forall₂ (fun signalSize nl => nl.lname = getSegSizeStr signalSize) keys out.lines ∧
    (outputPoints keys out.lines).Perm
      ((lists.triples.filter fun t => getSegSizeStr (t.signalIfreq * t.segSize) ∈ sigb).map
        fun t => ((t.signalIfreq * t.segSize, t.segSize), t.measured cwd lists results))

theorem addRun_ok (cwd : String) (results : Results) (t : Triple) (cpuResults : List Rat) (run : Int) :
    addRun cwd results RoCE t.verb t.segSize t.signalIfreq cpuResults run =
      .ok (cpuResults ++ [run].filterMap fun run =>
        (results (t.resultFile cwd run)).map RunResult.p50) := by
  simp only [addRun, getRdmaSegConfig_ok, entryOf, Bind.bind, Except.bind, Triple.resultFile,
    List.filterMap_cons, List.filterMap_nil]
  cases results (cwd ++ "/results" ++ "/res." ++ baseText RoCE t.verb t.segSize t.signalIfreq run) with
  | none => simp [Pure.pure, Except.pure]
  | some runResult => simp [pmetric, Pure.pure, Except.pure]

theorem getAvgResults_ok (cwd : String) (lists : SegLists) (results : Results) (t : Triple) :
    getAvgResults cwd lists results RoCE t.verb t.segSize t.signalIfreq =
      .ok (lists.runs.filterMap fun run =>
        (results (t.resultFile cwd run)).map RunResult.p50) := by
  obtain ⟨final, loop, collected⟩ := foldlM_run
    (addRun cwd results RoCE t.verb t.segSize t.signalIfreq)
    (fun seen cpuResults => cpuResults = seen.filterMap fun run =>
      (results (t.resultFile cwd run)).map RunResult.p50)
    (by
      rintro seen run cpuResults rfl
      exact ⟨_, addRun_ok cwd results t _ run, List.filterMap_append.symm⟩)
    lists.runs [] [] rfl
  rw [List.nil_append] at collected
  rw [← collected]
  exact loop

def sigLines (cwd : String) (lists : SegLists) (results : Results) : List (SigLine (Option Rat)) :=
  lists.verbs.flatMap fun verb => lists.signalIfreq.map fun signalIfreq =>
    ⟨RoCE ++ "." ++ verb, signalIfreq.toNat, lists.segSizes,
      lists.segSizes.map fun segSize => Triple.measured cwd lists results ⟨verb, signalIfreq, segSize⟩⟩

theorem segsizeLine_ok (cwd : String) (lists : SegLists) (results : Results) (verb : String)
    (signalIfreq : Int) :
    segsizeLine cwd lists results RoCE verb signalIfreq =
      .ok ⟨RoCE ++ "." ++ verb ++ "." ++ decimal signalIfreq ++ "Sig", lists.segSizes,
        lists.segSizes.map fun segSize =>
          Triple.measured cwd lists results ⟨verb, signalIfreq, segSize⟩⟩ := by
  have point : ∀ segSize : Int,
      (do let cpuResults ← getAvgResults cwd lists results RoCE verb segSize signalIfreq
          return meanOrNone cpuResults : Except PyErr (Option Rat)) =
        .ok (Triple.measured cwd lists results ⟨verb, signalIfreq, segSize⟩) := by
    intro segSize
    rw [getAvgResults_ok cwd lists results ⟨verb, signalIfreq, segSize⟩]
    rfl
  have ys := mapM_eq_map _ lists.segSizes fun segSize _ => point segSize
  rw [segsizeLine, ys]
  rfl

theorem segsizeLines_ok (cwd : String) (lists : SegLists) (results : Results)
    (positive : ∀ f ∈ lists.signalIfreq, 0 < f) :
    segsizeLines cwd lists results = .ok ((sigLines cwd lists results).map SigLine.line) := by
  have loops := mapM_eq_map (fun loop : String × Int =>
      segsizeLine cwd lists results RoCE loop.1 loop.2)
    (lists.verbs.flatMap fun verb => lists.signalIfreq.map fun f => (verb, f))
    fun loop _ => segsizeLine_ok cwd lists results loop.1 loop.2
  rw [segsizeLines, loops, sigLines, List.map_flatMap, List.map_flatMap]
  congr 2
  funext verb
  rw [List.map_map, List.map_map]
  apply List.map_congr_left
  intro f member
  have nonnegative : ((f.toNat : Nat) : Int) = f := Int.toNat_of_nonneg (positive f member).le
  simp only [Function.comp_apply, SigLine.line, nonnegative]

theorem inputPoints_sigLines (cwd : String) (lists : SegLists) (results : Results)
    (positive : ∀ f ∈ lists.signalIfreq, 0 < f) :
    inputPoints (sigLines cwd lists results) =
      lists.triples.map fun t => (t.key, t.measured cwd lists results) := by
  rw [inputPoints, sigLines, SegLists.triples, List.flatMap_assoc, List.map_flatMap]
  congr 1
  funext verb
  rw [List.flatMap_map, List.map_flatMap]
  apply List.flatMap_congr
  intro f member
  have nonnegative : ((f.toNat : Nat) : Int) = f := Int.toNat_of_nonneg (positive f member).le
  have pairs := List.zip_map' (f := fun segSize : Int => segSize)
    (g := fun segSize => Triple.measured cwd lists results ⟨verb, f, segSize⟩) (l := lists.segSizes)
  rw [List.map_id'] at pairs
  rw [SigLine.points, pairs, List.map_map, List.map_map]
  apply List.map_congr_left
  intro segSize _
  simp only [Function.comp_apply, nonnegative, Triple.key, Triple.signalSize, mul_comm]

theorem mem_triples {lists : SegLists} {t : Triple} :
    t ∈ lists.triples ↔
      t.verb ∈ lists.verbs ∧ t.signalIfreq ∈ lists.signalIfreq ∧ t.segSize ∈ lists.segSizes := by
  obtain ⟨verb, f, segSize⟩ := t
  simp only [SegLists.triples, List.mem_flatMap, List.mem_map, Triple.mk.injEq]
  constructor
  · rintro ⟨_, hv, _, hf, _, hs, rfl, rfl, rfl⟩
    exact ⟨hv, hf, hs⟩
  · rintro ⟨hv, hf, hs⟩
    exact ⟨_, hv, _, hf, _, hs, rfl, rfl, rfl⟩

theorem triples_nodup {lists : SegLists} (verbs : lists.verbs.Nodup)
    (signals : lists.signalIfreq.Nodup) (segSizes : lists.segSizes.Nodup) : lists.triples.Nodup := by
  have product : lists.triples = (lists.verbs ×ˢ (lists.signalIfreq ×ˢ lists.segSizes)).map
      fun p => ⟨p.1, p.2.1, p.2.2⟩ := by
    simp [SegLists.triples, SProd.sprod, List.product, List.map_flatMap, Function.comp_def]
  rw [product]
  refine (verbs.product (signals.product segSizes)).map ?_
  rintro ⟨v, f, s⟩ ⟨v', f', s'⟩ same
  simpa using same

theorem keys_nodup {lists : SegLists} (verbs : lists.verbs.Nodup)
    (signals : lists.signalIfreq.Nodup) (segSizes : lists.segSizes.Nodup)
    (positive : ∀ s ∈ lists.segSizes, 0 < s) (single : lists.verbs.length ≤ 1) :
    (lists.triples.map Triple.key).Nodup := by
  refine List.Nodup.map_on ?_ (triples_nodup verbs signals segSizes)
  rintro ⟨v, f, s⟩ member ⟨v', f', s'⟩ member' same
  obtain ⟨hv, -, hs⟩ := mem_triples.mp member
  obtain ⟨hv', -, -⟩ := mem_triples.mp member'
  simp only [Triple.key, Triple.signalSize, Prod.mk.injEq] at same hs
  obtain ⟨product, rfl⟩ := same
  have sameVerb : v = v' := by
    match listed : lists.verbs, single with
    | [], _ => rw [listed] at hv; cases hv
    | [w], _ =>
      rw [listed, List.mem_singleton] at hv hv'
      exact hv.trans hv'.symm
  have nonzero : s ≠ 0 := (positive s hs).ne'
  rw [sameVerb, mul_right_cancel₀ nonzero product]

section Output

variable {Y : Type}

theorem outputPoints_cons (signalSize : Int) (keys : List Int) (nl : NewLine Y)
    (lines : List (NewLine Y)) :
    outputPoints (signalSize :: keys) (nl :: lines) =
      ((nl.xs.getD []).zip (nl.ys.getD [])).map (fun point => ((signalSize, point.1), point.2)) ++
        outputPoints keys lines := rfl

theorem key_of_mem_outputPoints {keys : List Int} {lines : List (NewLine Y)} {point : (Int × Int) × Y}
    (member : point ∈ outputPoints keys lines) : point.1.1 ∈ keys := by
  simp only [outputPoints, List.mem_flatMap, List.mem_map] at member
  obtain ⟨keyed, zipped, _, _, rfl⟩ := member
  exact (List.of_mem_zip zipped).1

theorem zip_fst_sublist {α β : Type} (xs : List α) (ys : List β) :
    ((xs.zip ys).map Prod.fst).Sublist xs := by
  induction xs generalizing ys with
  | nil => simp
  | cons x xs ih =>
    cases ys with
    | nil => simp
    | cons y ys => simpa using ih ys

theorem outputPoints_nodup {keys : List Int} {lines : List (NewLine Y)} (nodup : keys.Nodup)
    (sorted : ∀ nl ∈ lines, (nl.xs.getD []).Pairwise (· < ·)) :
    ((outputPoints keys lines).map Prod.fst).Nodup := by
  induction keys generalizing lines with
  | nil => simp [outputPoints]
  | cons signalSize keys ih =>
    cases lines with
    | nil => simp [outputPoints]
    | cons nl lines =>
      obtain ⟨fresh, rest⟩ := List.nodup_cons.mp nodup
      rw [outputPoints_cons, List.map_append, List.map_map]
      refine List.Nodup.append ?_ (ih rest fun nl' member => sorted nl' (by simp [member])) ?_
      · have distinct : (nl.xs.getD []).Nodup := (sorted nl (by simp)).imp fun lt => ne_of_lt lt
        have firsts := (zip_fst_sublist (nl.xs.getD []) (nl.ys.getD [])).nodup distinct
        refine List.Nodup.of_map Prod.snd ?_
        rw [List.map_map]
        exact firsts
      · intro pair front back
        simp only [List.mem_map] at front back
        obtain ⟨_, _, rfl⟩ := front
        obtain ⟨point, member, same⟩ := back
        have key := key_of_mem_outputPoints member
        rw [same] at key
        exact fresh key

theorem mem_outputPoints (value : Int → Int → Option Y) {keys : List Int} {lines : List (NewLine Y)}
    (all : List.Forall₂ (fun signalSize => OutputLine (value signalSize) signalSize) keys lines)
    {signalSize v : Int} {y : Y} :
    ((signalSize, v), y) ∈ outputPoints keys lines ↔
      signalSize ∈ keys ∧ value signalSize v = some y := by
  induction all with
  | nil => simp [outputPoints]
  | @cons size nl keys lines output rest ih =>
    obtain ⟨xs, ys, hxs, hys, -, -, values⟩ := output.points
    rw [outputPoints_cons, List.mem_append, ih, hxs, hys]
    simp only [Option.getD_some, List.mem_map, List.mem_cons, Prod.mk.injEq]
    constructor
    · rintro (⟨⟨v', y'⟩, member, ⟨rfl, rfl⟩, rfl⟩ | ⟨member, found⟩)
      · exact ⟨.inl rfl, (values v' y').mp member⟩
      · exact ⟨.inr member, found⟩
    · rintro ⟨rfl | member, found⟩
      · exact .inl ⟨(v, y), (values v y).mpr found, ⟨rfl, rfl⟩, rfl⟩
      · exact .inr ⟨member, found⟩

theorem sorted_of_outputs {value : Int → Int → Option Y} {keys : List Int} {lines : List (NewLine Y)}
    (all : List.Forall₂ (fun signalSize => OutputLine (value signalSize) signalSize) keys lines) :
    ∀ nl ∈ lines, (nl.xs.getD []).Pairwise (· < ·) := by
  induction all with
  | nil => simp
  | cons output rest ih =>
    obtain ⟨xs, _, hxs, -, sorted, -⟩ := output.points
    simp only [List.mem_cons, forall_eq_or_imp, hxs, Option.getD_some]
    exact ⟨sorted, ih⟩

theorem outputPoints_perm {points : List ((Int × Int) × Y)} {keys : List Int}
    {lines : List (NewLine Y)} (nodup : keys.Nodup)
    (keyed : ∀ signalSize, signalSize ∈ keys ↔
      Selected signalSize ∧ ∃ point ∈ points, point.1.1 = signalSize)
    (all : List.Forall₂ (fun signalSize => OutputLine
      (fun v => lastWrite points (signalSize, v)) signalSize) keys lines)
    (distinct : ((selectedPoints points).map Prod.fst).Nodup) :
    (outputPoints keys lines).Perm (selectedPoints points) := by
  have outputs := outputPoints_nodup nodup (sorted_of_outputs all)
  refine (List.perm_ext_iff_of_nodup outputs.of_map distinct.of_map).mpr ?_
  rintro ⟨⟨signalSize, v⟩, y⟩
  rw [mem_outputPoints (fun signalSize v => lastWrite points (signalSize, v)) all,
    ← lastWrite_eq_some_of_nodup distinct]
  constructor
  · rintro ⟨member, found⟩
    rw [lastWrite_selected ((keyed signalSize).mp member).1]
    exact found
  · intro found
    have member := (lastWrite_eq_some_of_nodup distinct).mp found
    obtain ⟨there, selected⟩ := List.mem_filter.mp member
    have selected : Selected signalSize := of_decide_eq_true selected
    rw [lastWrite_selected selected] at found
    exact ⟨(keyed signalSize).mpr ⟨selected, _, there, rfl⟩, found⟩

end Output

theorem selected_triples (cwd : String) (lists : SegLists) (results : Results) :
    selectedPoints (lists.triples.map fun t => (t.key, t.measured cwd lists results)) =
      (lists.triples.filter fun t => getSegSizeStr (t.signalIfreq * t.segSize) ∈ sigb).map
        fun t => ((t.signalIfreq * t.segSize, t.segSize), t.measured cwd lists results) := by
  rw [selectedPoints, List.filter_map]
  rfl

theorem pointsKept_iff_nodup {cwd : String} {lists : SegLists} {results : Results}
    (positive : ∀ f ∈ lists.signalIfreq, 0 < f) :
    PointsKept cwd lists results ↔
      ((lists.triples.filter fun t => Selected t.signalSize).map Triple.key).Nodup := by
  have built := segsizeLines_ok cwd lists results positive
  obtain ⟨out, keys, run, nodup, keyed, all⟩ := convertPltdata_spec (sigLines cwd lists results)
  rw [inputPoints_sigLines cwd lists results positive] at keyed all
  have firsts : ((selectedPoints (lists.triples.map fun t =>
      (t.key, t.measured cwd lists results))).map Prod.fst) =
        (lists.triples.filter fun t => Selected t.signalSize).map Triple.key := by
    rw [selected_triples, List.map_map]
    rfl
  constructor
  · rintro ⟨lines, out', keys', built', run', nodup', -, perm⟩
    have sameLines := Except.ok.inj (built.symm.trans built')
    subst sameLines
    have sameOut := Except.ok.inj (run.symm.trans run')
    subst sameOut
    have outputs := outputPoints_nodup nodup' (sorted_of_outputs all)
    rw [← firsts, selected_triples]
    exact (perm.map Prod.fst).nodup_iff.mp outputs
  · intro distinct
    rw [← firsts] at distinct
    refine ⟨_, out, keys, built, run, nodup, all.imp fun _ _ output => output.lname, ?_⟩
    rw [← selected_triples]
    exact outputPoints_perm nodup keyed all distinct

theorem collision_of_two_verbs {lists : SegLists} (verbs : lists.verbs.Nodup)
    (many : 1 < lists.verbs.length) {f s : Int} (signal : f ∈ lists.signalIfreq)
    (size : s ∈ lists.segSizes) (selected : Selected (f * s)) :
    ¬ ((lists.triples.filter fun t => Selected t.signalSize).map Triple.key).Nodup := by
  intro nodup
  have first : (0 : Nat) < lists.verbs.length := by omega
  have there : ∀ verb ∈ lists.verbs,
      (⟨verb, f, s⟩ : Triple) ∈ lists.triples.filter fun t => Selected t.signalSize := by
    intro verb member
    exact List.mem_filter.mpr ⟨mem_triples.mpr ⟨member, signal, size⟩, decide_eq_true selected⟩
  have same := List.inj_on_of_nodup_map nodup (there _ (List.getElem_mem first))
    (there _ (List.getElem_mem many)) rfl
  have equal : lists.verbs[0] = lists.verbs[1] := congrArg Triple.verb same
  exact absurd ((verbs.getElem_inj_iff).mp equal) (by decide)

/-- No point is lost, doubled or changed between the result files and the figure exactly when there
    is at most one verb, or nothing to show. -/
theorem points_kept_iff (cwd : String) (lists : SegLists) (results : Results)
    (verbs : lists.verbs.Nodup) (signals : lists.signalIfreq.Nodup) (segSizes : lists.segSizes.Nodup)
    (positiveSignals : ∀ f ∈ lists.signalIfreq, 0 < f) (positiveSizes : ∀ s ∈ lists.segSizes, 0 < s) :
    PointsKept cwd lists results ↔
      lists.verbs.length ≤ 1 ∨
        ∀ f ∈ lists.signalIfreq, ∀ s ∈ lists.segSizes, getSegSizeStr (f * s) ∉ sigb := by
  rw [pointsKept_iff_nodup positiveSignals]
  constructor
  · intro nodup
    by_contra fails
    push Not at fails
    obtain ⟨many, f, signal, s, size, selected⟩ := fails
    exact collision_of_two_verbs verbs many signal size selected nodup
  · rintro (single | nothing)
    · exact (keys_nodup verbs signals segSizes positiveSizes single).sublist
        (List.filter_sublist.map Triple.key)
    · have none : lists.triples.filter (fun t => Selected t.signalSize) = [] := by
        rw [List.filter_eq_nil_iff]
        intro t member
        obtain ⟨-, signal, size⟩ := mem_triples.mp member
        exact fun selected => nothing _ signal _ size (of_decide_eq_true selected)
      rw [none]
      exact List.nodup_nil

theorem points_kept_shipped : PointsKept "/root" shippedLists (fun _ => none) :=
  (points_kept_iff "/root" shippedLists (fun _ => none) (by decide) (by decide) (by decide)
    (by decide) (by decide)).mpr (.inl (by decide))

def twoVerbs : SegLists := { shippedLists with verbs := ["READ_RC", "WRITE_RC"] }

theorem points_lost_two_verbs :
    twoVerbs.verbs.Nodup ∧ twoVerbs.signalIfreq.Nodup ∧ twoVerbs.segSizes.Nodup ∧
      (∀ verb ∈ twoVerbs.verbs, '.' ∉ verb.toList) ∧ (∀ f ∈ twoVerbs.signalIfreq, 0 < f) ∧
      (∀ s ∈ twoVerbs.segSizes, 0 < s) ∧ ¬ PointsKept "/root" twoVerbs (fun _ => some ⟨50, 50⟩) := by
  refine ⟨by decide, by decide, by decide, by decide, by decide, by decide, ?_⟩
  rw [pointsKept_iff_nodup (by decide)]
  exact collision_of_two_verbs (by decide) (by decide) (f := 1) (s := 16384) (by decide) (by decide)
    (by decide)

end RdmaExps.Segments
