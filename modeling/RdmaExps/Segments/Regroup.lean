import RdmaExps.Segments.Convert
import RdmaExps.Python.Loops

namespace RdmaExps.Segments

open RdmaExps.Python

variable {Y : Type}

/-- A line whose name ends in its number of signals, as `'<prefix>.<n>Sig'`. -/
structure SigLine (Y : Type) where
  front : String
  numSig : Nat
  xs : List Int
  ys : List Y

def SigLine.line (l : SigLine Y) : Line Y := ⟨l.front ++ "." ++ decimal l.numSig ++ "Sig", l.xs, l.ys⟩

def SigLine.points (l : SigLine Y) : List ((Int × Int) × Y) :=
  (l.xs.zip l.ys).map fun point => ((point.1 * l.numSig, point.1), point.2)

def inputPoints (ls : List (SigLine Y)) : List ((Int × Int) × Y) := ls.flatMap SigLine.points

def Selected (signalSize : Int) : Prop := getSegSizeStr signalSize ∈ sigb

instance (signalSize : Int) : Decidable (Selected signalSize) :=
  inferInstanceAs (Decidable (getSegSizeStr signalSize ∈ sigb))

def selectedPoints (points : List ((Int × Int) × Y)) : List ((Int × Int) × Y) :=
  points.filter fun point => Selected point.1.1

/-- The two-level map holds the last write to every pair of keys, and nothing else. -/
structure Regrouped (writes : List ((Int × Int) × Y)) (newLines : NewLines Y) : Prop where
  entry : ∀ signalSize nl, newLines.lookup signalSize = some nl →
    ∃ x2y : Dict Int Y, nl = ⟨getSegSizeStr signalSize, some x2y, none, none⟩ ∧
      ∀ verbSize, x2y.lookup verbSize = lastWrite writes (signalSize, verbSize)
  keys : ∀ signalSize, signalSize ∈ newLines ↔ ∃ write ∈ writes, write.1.1 = signalSize

theorem Regrouped.empty : Regrouped ([] : List ((Int × Int) × Y)) ∅ where
  entry := by simp
  keys := by simp

theorem Regrouped.lookup {writes : List ((Int × Int) × Y)} {newLines : NewLines Y}
    (holds : Regrouped writes newLines) {signalSize : Int} (member : signalSize ∈ newLines) :
    ∃ x2y : Dict Int Y,
      newLines.lookup signalSize = some ⟨getSegSizeStr signalSize, some x2y, none, none⟩ ∧
      ∀ verbSize, x2y.lookup verbSize = lastWrite writes (signalSize, verbSize) := by
  obtain ⟨nl, found⟩ := Option.isSome_iff_exists.mp (AList.lookup_isSome.mpr member)
  obtain ⟨x2y, rfl, values⟩ := holds.entry signalSize nl found
  exact ⟨x2y, found, values⟩

theorem lastWrite_of_no_key {writes : List ((Int × Int) × Y)} {signalSize : Int}
    (absent : ¬ ∃ write ∈ writes, write.1.1 = signalSize) (verbSize : Int) :
    lastWrite writes (signalSize, verbSize) = none := by
  rw [← Option.not_isSome_iff_eq_none, lastWrite_isSome, List.mem_map]
  rintro ⟨write, member, key⟩
  exact absent ⟨write, member, by rw [key]⟩

theorem Regrouped.write {writes : List ((Int × Int) × Y)} {newLines : NewLines Y}
    {signalSize verbSize : Int} {x2y : Dict Int Y} (holds : Regrouped writes newLines) (y : Y)
    (values : ∀ v, x2y.lookup v = lastWrite writes (signalSize, v)) :
    Regrouped (writes ++ [((signalSize, verbSize), y)])
      (newLines.insert signalSize
        ⟨getSegSizeStr signalSize, some (x2y.insert verbSize y), none, none⟩) where
  entry := by
    intro size nl found
    by_cases same : size = signalSize
    · subst same
      rw [AList.lookup_insert, Option.some.injEq] at found
      refine ⟨x2y.insert verbSize y, found.symm, ?_⟩
      intro v
      rw [lastWrite_append_single]
      by_cases here : v = verbSize
      · subst here
        rw [AList.lookup_insert, if_pos rfl]
      · have other : ¬ (size, verbSize) = (size, v) := fun h => here (Prod.mk.inj h).2.symm
        rw [AList.lookup_insert_ne here, values v, if_neg other]
    · rw [AList.lookup_insert_ne same] at found
      obtain ⟨old, shape, kept⟩ := holds.entry size nl found
      refine ⟨old, shape, ?_⟩
      intro v
      have other : ¬ (signalSize, verbSize) = (size, v) := fun h => same (Prod.mk.inj h).1.symm
      rw [lastWrite_append_single, if_neg other, kept v]
  keys := by
    intro size
    rw [AList.mem_insert, holds.keys size]
    constructor
    · rintro (rfl | ⟨write, member, key⟩)
      · exact ⟨_, List.mem_append_right _ (List.mem_singleton_self _), rfl⟩
      · exact ⟨write, List.mem_append_left _ member, key⟩
    · rintro ⟨write, member, key⟩
      rcases List.mem_append.mp member with member | member
      · exact .inr ⟨write, member, key⟩
      · rw [List.mem_singleton.mp member] at key
        exact .inl key.symm

theorem addPoint_step {writes : List ((Int × Int) × Y)} {newLines : NewLines Y}
    (holds : Regrouped writes newLines) (numSig : Int) (point : Int × Y) :
    ∃ newLines', addPoint numSig newLines point = .ok newLines' ∧
      Regrouped (writes ++ selectedPoints [((point.1 * numSig, point.1), point.2)]) newLines' := by
  obtain ⟨x, y⟩ := point
  by_cases selected : Selected (x * numSig)
  · have kept : selectedPoints [((x * numSig, x), y)] = [((x * numSig, x), y)] := by
      simp [selectedPoints, selected]
    rw [kept]
    have test : getSegSizeStr (x * numSig) ∈ sigb := selected
    by_cases member : x * numSig ∈ newLines
    · obtain ⟨x2y, found, values⟩ := holds.lookup member
      refine ⟨_, ?_, holds.write y values⟩
      simp only [addPoint, if_pos test, if_pos member, found, entryOf, Bind.bind, Except.bind]
      rfl
    · have fresh : ∀ v, (∅ : Dict Int Y).lookup v = lastWrite writes (x * numSig, v) := by
        intro v
        rw [lastWrite_of_no_key (fun there => member ((holds.keys _).mpr there)), AList.lookup_empty]
      refine ⟨_, ?_, holds.write y fresh⟩
      simp only [addPoint, if_pos test, if_neg member, AList.lookup_insert, entryOf, Bind.bind,
        Except.bind, AList.insert_insert]
      rfl
  · have dropped : selectedPoints [((x * numSig, x), y)] = [] := by
      simp [selectedPoints, selected]
    have test : ¬ getSegSizeStr (x * numSig) ∈ sigb := selected
    refine ⟨newLines, ?_, by simpa [dropped] using holds⟩
    simp only [addPoint, if_neg test]
    rfl

theorem addLine_step {writes : List ((Int × Int) × Y)} {newLines : NewLines Y}
    (holds : Regrouped writes newLines) (l : SigLine Y) :
    ∃ newLines', addLine newLines l.line = .ok newLines' ∧
      Regrouped (writes ++ selectedPoints l.points) newLines' := by
  have decoded : getNumSigFromLname l.line.lname = .ok (l.numSig : Int) :=
    getNumSigFromLname_append l.front l.numSig
  obtain ⟨final, run, regrouped⟩ := foldlM_run (addPoint (l.numSig : Int))
    (fun seen d => Regrouped (writes ++ selectedPoints
      (seen.map fun point => ((point.1 * (l.numSig : Int), point.1), point.2))) d)
    (by
      intro seen point d held
      obtain ⟨d', step, held'⟩ := addPoint_step held l.numSig point
      refine ⟨d', step, ?_⟩
      simpa [selectedPoints, List.filter_append, List.append_assoc] using held')
    (l.xs.zip l.ys) [] newLines (by simpa [selectedPoints] using holds)
  refine ⟨final, ?_, by simpa [SigLine.points] using regrouped⟩
  simp only [addLine, decoded, Bind.bind, Except.bind]
  exact run

theorem addLines_run (ls : List (SigLine Y)) :
    ∃ newLines, (ls.map SigLine.line).foldlM addLine ∅ = .ok newLines ∧
      Regrouped (selectedPoints (inputPoints ls)) newLines := by
  obtain ⟨final, run, regrouped⟩ := foldlM_run (fun d (l : SigLine Y) => addLine d l.line)
    (fun seen d => Regrouped (selectedPoints (inputPoints seen)) d)
    (by
      intro seen l d held
      obtain ⟨d', step, held'⟩ := addLine_step held l
      refine ⟨d', step, ?_⟩
      simpa [selectedPoints, inputPoints, List.filter_append] using held')
    ls [] ∅ Regrouped.empty
  exact ⟨final, by rw [List.foldlM_map]; exact run, regrouped⟩

/-- A line of the output, for the bytes per signal it stands for: the values `value` at the verb
    sizes that have one, in increasing order, and nothing left of the first pass. -/
structure OutputLine (value : Int → Option Y) (signalSize : Int) (nl : NewLine Y) : Prop where
  lname : nl.lname = getSegSizeStr signalSize
  finished : nl.x2y = none
  points : ∃ xs ys, nl.xs = some xs ∧ nl.ys = some ys ∧ xs.Pairwise (· < ·) ∧
    xs.length = ys.length ∧ ∀ v y, (v, y) ∈ xs.zip ys ↔ value v = some y

theorem forall₂_mem_zip {α β : Type} {R : α → β → Prop} {xs : List α} {ys : List β}
    (all : List.Forall₂ R xs ys) {x : α} {y : β} (member : (x, y) ∈ xs.zip ys) : R x y :=
  List.forall₂_zip all member

theorem exists_mem_zip {α β : Type} {xs : List α} {ys : List β} (length : xs.length = ys.length)
    {x : α} (member : x ∈ xs) : ∃ y, (x, y) ∈ xs.zip ys := by
  have firsts : (xs.zip ys).map Prod.fst = xs := List.map_fst_zip (Nat.le_of_eq length)
  rw [← firsts, List.mem_map] at member
  obtain ⟨⟨x', y⟩, pair, rfl⟩ := member
  exact ⟨y, pair⟩

theorem sorted_keys (x2y : Dict Int Y) : (x2y.keys.insertionSort (· ≤ ·)).Pairwise (· < ·) := by
  have sorted : (x2y.keys.insertionSort (· ≤ ·)).Pairwise (· ≤ ·) := List.pairwise_insertionSort _ _
  have nodup : (x2y.keys.insertionSort (· ≤ ·)).Nodup :=
    (List.perm_insertionSort _ _).nodup_iff.mpr x2y.keys_nodup
  exact (sorted.and nodup).imp fun bounds => lt_of_le_of_ne bounds.1 bounds.2

theorem finishLine_spec (signalSize : Int) (x2y : Dict Int Y) :
    ∃ nl, finishLine ⟨getSegSizeStr signalSize, some x2y, none, none⟩ = .ok nl ∧
      OutputLine (fun v => x2y.lookup v) signalSize nl := by
  have stored : ∀ x ∈ x2y.keys.insertionSort (· ≤ ·),
      ∃ y, entryOf (decimal x) (x2y.lookup x) = .ok y ∧ x2y.lookup x = some y := by
    intro x member
    have key : x ∈ x2y := AList.mem_keys.mpr ((List.mem_insertionSort _).mp member)
    obtain ⟨y, found⟩ := Option.isSome_iff_exists.mp (AList.lookup_isSome.mpr key)
    exact ⟨y, by rw [found]; rfl, found⟩
  obtain ⟨ys, run, all⟩ := mapM_total stored
  refine ⟨⟨getSegSizeStr signalSize, none, some _, some ys⟩, ?_, rfl, rfl,
    _, ys, rfl, rfl, sorted_keys x2y, all.length_eq, ?_⟩
  · simp only [finishLine, entryOf, Bind.bind, Except.bind]
    simp only [entryOf] at run
    rw [run]
    rfl
  · intro v y
    constructor
    · exact forall₂_mem_zip all
    · intro found
      have member : v ∈ x2y.keys.insertionSort (· ≤ ·) := by
        rw [List.mem_insertionSort, ← AList.mem_keys, ← AList.lookup_isSome, found]
        rfl
      obtain ⟨y', pair⟩ := exists_mem_zip all.length_eq member
      have same : y' = y := Option.some.inj ((forall₂_mem_zip all pair).symm.trans found)
      exact same ▸ pair

theorem lastWrite_selected {signalSize : Int} (selected : Selected signalSize)
    (points : List ((Int × Int) × Y)) (verbSize : Int) :
    lastWrite (selectedPoints points) (signalSize, verbSize) =
      lastWrite points (signalSize, verbSize) := by
  unfold lastWrite selectedPoints
  rw [← List.filter_reverse, List.find?_filter]
  congr 2
  funext point
  by_cases here : point.1 = (signalSize, verbSize)
  · simp [here, selected]
  · simp [here]

/-- The output of `convert_pltdata`, up to the order of its lines: `keys` lists the signal sizes in
    the order the dictionary happens to have. -/
theorem convertPltdata_spec (ls : List (SigLine Y)) :
    ∃ out keys, convertPltdata (ls.map SigLine.line) = .ok out ∧ keys.Nodup ∧
      (∀ signalSize, signalSize ∈ keys ↔
        Selected signalSize ∧ ∃ point ∈ inputPoints ls, point.1.1 = signalSize) ∧
      List.Forall₂ (fun signalSize => OutputLine
        (fun v => lastWrite (inputPoints ls) (signalSize, v)) signalSize) keys out.lines := by
  obtain ⟨newLines, run, regrouped⟩ := addLines_run ls
  have keyed : ∀ signalSize, signalSize ∈ newLines.keys ↔
      Selected signalSize ∧ ∃ point ∈ inputPoints ls, point.1.1 = signalSize := by
    intro signalSize
    rw [← AList.mem_keys, regrouped.keys]
    simp only [selectedPoints, List.mem_filter, decide_eq_true_eq]
    constructor
    · rintro ⟨point, ⟨member, selected⟩, rfl⟩
      exact ⟨selected, point, member, rfl⟩
    · rintro ⟨selected, point, member, rfl⟩
      exact ⟨point, ⟨member, selected⟩, rfl⟩
  have finishes : ∀ entry ∈ newLines.entries, ∃ nl, finishLine entry.2 = .ok nl ∧
      OutputLine (fun v => lastWrite (inputPoints ls) (entry.1, v)) entry.1 nl := by
    rintro ⟨signalSize, old⟩ member
    have found : newLines.lookup signalSize = some old := AList.mem_lookup_iff.mpr member
    have key : signalSize ∈ newLines := AList.lookup_isSome.mp (by rw [found]; rfl)
    obtain ⟨x2y, rfl, values⟩ := regrouped.entry signalSize old found
    obtain ⟨nl, finished, output⟩ := finishLine_spec signalSize x2y
    refine ⟨nl, finished, ?_⟩
    have same : (fun v => x2y.lookup v) = fun v => lastWrite (inputPoints ls) (signalSize, v) := by
      funext v
      rw [values v, lastWrite_selected ((keyed signalSize).mp (AList.mem_keys.mp key)).1]
    rw [← same]
    exact output
  obtain ⟨lines, finished, all⟩ := mapM_total finishes
  refine ⟨⟨lines, "Verb Size (B)"⟩, newLines.keys, ?_, newLines.keys_nodup, keyed, ?_⟩
  · simp only [convertPltdata, run, finished, Bind.bind, Except.bind]
    rfl
  · exact List.forall₂_map_left_iff.mpr all

/-- `convert_pltdata` regroups the points by bytes per signal, the last write winning. The lines of
    the output come in the order `keys`. -/
theorem convertPltdata_regroups (ls : List (SigLine Y)) :
    ∃ out keys, convertPltdata (ls.map SigLine.line) = .ok out ∧
      keys.Nodup ∧
      (∀ signalSize, signalSize ∈ keys ↔ getSegSizeStr signalSize ∈ sigb ∧
        ∃ l ∈ ls, ∃ x y, (x, y) ∈ l.xs.zip l.ys ∧ x * l.numSig = signalSize) ∧
      List.Forall₂ (fun signalSize nl =>
        nl.lname = getSegSizeStr signalSize ∧ nl.x2y = none ∧
        ∃ xs ys, nl.xs = some xs ∧ nl.ys = some ys ∧ xs.Pairwise (· < ·) ∧ xs.length = ys.length ∧
          ∀ v y, (v, y) ∈ xs.zip ys ↔
            ∃ before after, inputPoints ls = before ++ ((signalSize, v), y) :: after ∧
              ∀ point ∈ after, point.1 ≠ (signalSize, v)) keys out.lines := by
  obtain ⟨out, keys, run, nodup, keyed, all⟩ := convertPltdata_spec ls
  refine ⟨out, keys, run, nodup, ?_, ?_⟩
  · intro signalSize
    rw [keyed signalSize]
    apply and_congr_right
    intro _
    simp only [inputPoints, SigLine.points, List.mem_flatMap, List.mem_map]
    constructor
    · rintro ⟨point, ⟨l, member, ⟨x, y⟩, pair, rfl⟩, rfl⟩
      exact ⟨l, member, x, y, pair, rfl⟩
    · rintro ⟨l, member, x, y, pair, rfl⟩
      exact ⟨_, ⟨l, member, (x, y), pair, rfl⟩, rfl⟩
  · refine all.imp ?_
    rintro signalSize nl ⟨lname, finished, xs, ys, hxs, hys, sorted, length, values⟩
    refine ⟨lname, finished, xs, ys, hxs, hys, sorted, length, ?_⟩
    intro v y
    rw [values v y, lastWrite_eq_some]

end RdmaExps.Segments
