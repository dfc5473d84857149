import RdmaExps.Segments.Convert
import RdmaExps.Python.Loops

namespace RdmaExps.Segments

open RdmaExps.Python

variable {Y : Type}

/-- `line.xs = [x2idx[x] for x in line.xs]` -/
def updateXs (x2idx : Dict Int Int) (line : Line Y) : Except PyErr (Line Y) := do
  let xs ← line.xs.mapM fun x => entryOf (decimal x) (x2idx.lookup x)
  return { line with xs := xs }

def xsSet (lines : List (Line Y)) : Finset Int := lines.foldl (fun xsSet line => xsSet ∪ line.xs.toFinset) ∅

/-- The ticks, and the lines with their `xs` updated. The script has its own copy of
    `get_seg_size_str`. -/
def getXticksAndUpdateXs (lines : List (Line Y)) : Except PyErr (List String × List (Line Y)) := do
  let xs := (xsSet lines).sort
  let x2idx := dictOf (xs.zip ((List.range xs.length).map Int.ofNat))
  let xticks := xs.map getSegSizeStr
  let lines ← lines.mapM (updateXs x2idx)
  return (xticks, lines)

def pointAt (lines : List (Line Y)) (i j : Nat) : Option Int := lines[i]?.bind fun line => line.xs[j]?

structure Compressed (lines updated : List (Line Y)) (xticks : List String) : Prop where
  count : xticks.length = (lines.flatMap Line.xs).toFinset.card
  shape : updated.map (fun line => (line.lname, line.xs.length, line.ys)) =
    lines.map fun line => (line.lname, line.xs.length, line.ys)
  index : ∀ i j u, pointAt updated i j = some u → ∃ k < xticks.length, u = (k : Nat)
  tick : ∀ i j x, pointAt lines i j = some x → ∃ k : Nat, pointAt updated i j = some (k : Int) ∧
    xticks[k]? = some (getSegSizeStr x)
  order : ∀ i j i' j' x x' u u', pointAt lines i j = some x → pointAt lines i' j' = some x' →
    pointAt updated i j = some u → pointAt updated i' j' = some u' → cmp u u' = cmp x x'
  used : ∀ k < xticks.length, ∃ i j, pointAt updated i j = some (k : Int)
  distinct : (∀ line ∈ lines, ∀ x ∈ line.xs, ∃ k : Nat, 10 ≤ k ∧ x = 2 ^ k) → xticks.Nodup

section Rank

variable {α : Type} [LinearOrder α]

def rank (s : Finset α) (x : α) : Nat := s.sort.idxOf x

theorem rank_strictMonoOn (s : Finset α) : StrictMonoOn (rank s) s := by
  intro x hx y hy less
  have iso := (s.orderIsoOfFin rfl).symm.strictMono (show (⟨x, hx⟩ : s) < ⟨y, hy⟩ from less)
  rwa [Fin.lt_def, Finset.orderIsoOfFin_symm_apply, Finset.orderIsoOfFin_symm_apply] at iso

theorem rank_lt {s : Finset α} {x : α} (member : x ∈ s) : rank s x < s.sort.length :=
  List.idxOf_lt_length_of_mem ((s.mem_sort (· ≤ ·)).mpr member)

theorem getElem?_rank {s : Finset α} {x : α} (member : x ∈ s) : s.sort[rank s x]? = some x :=
  List.getElem?_idxOf ((s.mem_sort (· ≤ ·)).mpr member)

theorem exists_rank_eq {s : Finset α} {k : Nat} (bound : k < s.sort.length) : ∃ x ∈ s, rank s x = k := by
  have member : s.sort[k] ∈ s := (s.mem_sort (· ≤ ·)).mp (List.getElem_mem bound)
  exact ⟨_, member, (s.sort_nodup (· ≤ ·)).idxOf_getElem k bound⟩

end Rank

theorem mem_xsSet {lines : List (Line Y)} {x : Int} : x ∈ xsSet lines ↔ ∃ line ∈ lines, x ∈ line.xs := by
  have loop : ∀ (lines : List (Line Y)) (seen : Finset Int),
      x ∈ lines.foldl (fun xsSet line => xsSet ∪ line.xs.toFinset) seen ↔
        x ∈ seen ∨ ∃ line ∈ lines, x ∈ line.xs := by
    intro lines
    induction lines with
    | nil => simp
    | cons line lines ih =>
      intro seen
      rw [List.foldl_cons, ih, Finset.mem_union, List.mem_toFinset]
      simp [or_assoc]
  rw [xsSet, loop]
  simp

theorem lookup_x2idx {s : Finset Int} {x : Int} (member : x ∈ s) :
    (dictOf (s.sort.zip ((List.range s.sort.length).map Int.ofNat))).lookup x = some (rank s x : Int) := by
  rw [lookup_dictOf, lastWrite_eq_some_of_nodup]
  · apply List.mem_iff_getElem?.mpr
    refine ⟨rank s x, ?_⟩
    have bound := rank_lt member
    rw [List.getElem?_zip_eq_some, getElem?_rank member, List.getElem?_map, List.getElem?_range bound]
    exact ⟨rfl, rfl⟩
  · rw [List.map_fst_zip]
    · exact s.sort_nodup (· ≤ ·)
    · simp

def Line.ranked (s : Finset Int) (line : Line Y) : Line Y :=
  { line with xs := line.xs.map fun x => (rank s x : Int) }

theorem updateXs_eq {s : Finset Int} {line : Line Y} (members : ∀ x ∈ line.xs, x ∈ s) :
    updateXs (dictOf (s.sort.zip ((List.range s.sort.length).map Int.ofNat))) line = .ok (line.ranked s) := by
  have found := mapM_eq_map (g := fun x => (rank s x : Int))
    (fun x => entryOf (decimal x)
      ((dictOf (s.sort.zip ((List.range s.sort.length).map Int.ofNat))).lookup x)) line.xs
    (fun x member => by rw [lookup_x2idx (members x member), entryOf])
  rw [updateXs, found]
  rfl

theorem getXticksAndUpdateXs_eq (lines : List (Line Y)) : getXticksAndUpdateXs lines =
    .ok ((xsSet lines).sort.map getSegSizeStr, lines.map (Line.ranked (xsSet lines))) := by
  have members : ∀ line ∈ lines, ∀ x ∈ line.xs, x ∈ xsSet lines :=
    fun line listed x point => mem_xsSet.mpr ⟨line, listed, point⟩
  have updated := mapM_eq_map _ lines fun line listed => updateXs_eq (members line listed)
  rw [getXticksAndUpdateXs]
  simp only [updated, Bind.bind, Except.bind, Pure.pure, Except.pure]

theorem pointAt_ranked (s : Finset Int) (lines : List (Line Y)) (i j : Nat) :
    pointAt (lines.map (Line.ranked s)) i j = (pointAt lines i j).map fun x => (rank s x : Int) := by
  unfold pointAt
  rw [List.getElem?_map]
  cases lines[i]? with
  | none => rfl
  | some line => simp [Line.ranked]

theorem mem_of_pointAt {lines : List (Line Y)} {i j : Nat} {x : Int} (point : pointAt lines i j = some x) :
    x ∈ xsSet lines := by
  obtain ⟨line, there, here⟩ := Option.bind_eq_some_iff.mp point
  exact mem_xsSet.mpr ⟨line, List.mem_of_getElem? there, List.mem_of_getElem? here⟩

theorem exists_pointAt {lines : List (Line Y)} {x : Int} (member : x ∈ xsSet lines) :
    ∃ i j, pointAt lines i j = some x := by
  obtain ⟨line, listed, point⟩ := mem_xsSet.mp member
  obtain ⟨i, there⟩ := List.mem_iff_getElem?.mp listed
  obtain ⟨j, here⟩ := List.mem_iff_getElem?.mp point
  exact ⟨i, j, Option.bind_eq_some_iff.mpr ⟨line, there, here⟩⟩

theorem fdiv_pow (k : Nat) : Int.fdiv (2 ^ (k + 10)) 1024 = 2 ^ k := by
  rw [pow_add]
  exact Int.mul_fdiv_cancel _ (by decide)

theorem getSegSizeStr_pow (k : Nat) : getSegSizeStr (2 ^ (k + 10)) =
    if k < 10 then decimal (2 ^ k) ++ "KB" else decimal (2 ^ (k - 10)) ++ "MB" := by
  have small : (2 : Int) ^ (k + 10) < 2 ^ 20 ↔ k < 10 := by
    rw [pow_lt_pow_iff_right₀ (by decide)]
    omega
  unfold getSegSizeStr
  by_cases less : k < 10
  · rw [if_pos (small.mpr less), if_pos less, fdiv_pow]
  · obtain ⟨l, rfl⟩ := Nat.exists_eq_add_of_le' (Nat.le_of_not_lt less)
    rw [if_neg (mt small.mp less), if_neg less, fdiv_pow, fdiv_pow, Nat.add_sub_cancel]

theorem append_unit {m n : Int} {c d : Char}
    (same : decimal m ++ String.ofList [c, 'B'] = decimal n ++ String.ofList [d, 'B']) :
    m = n ∧ c = d := by
  have texts := congrArg String.toList same
  simp only [String.toList_append, String.toList_ofList] at texts
  obtain ⟨numbers, units⟩ := List.append_inj' texts rfl
  exact ⟨decimal_injective (String.toList_injective numbers), (List.cons.inj units).1⟩

theorem label_injective {k l : Nat} (same : getSegSizeStr (2 ^ (k + 10)) = getSegSizeStr (2 ^ (l + 10))) : k = l := by
  rw [getSegSizeStr_pow, getSegSizeStr_pow] at same
  have base : (1 : Int) < 2 := by decide
  by_cases small : k < 10 <;> by_cases less : l < 10
  · rw [if_pos small, if_pos less] at same
    exact Int.pow_right_injective (by decide) (append_unit same).1
  · rw [if_pos small, if_neg less] at same
    exact absurd (append_unit same).2 (by decide)
  · rw [if_neg small, if_pos less] at same
    exact absurd (append_unit same).2 (by decide)
  · rw [if_neg small, if_neg less] at same
    have exponents : k - 10 = l - 10 := Int.pow_right_injective (by decide) (append_unit same).1
    omega

/-- Ticks are the labels of the distinct sizes in order, and every line refers to them by rank. -/
theorem xticks_compress (lines : List (Line Y)) :
    ∃ xticks updated, getXticksAndUpdateXs lines = .ok (xticks, updated) ∧ Compressed lines updated xticks := by
  refine ⟨_, _, getXticksAndUpdateXs_eq lines, ?_⟩
  have all : (lines.flatMap Line.xs).toFinset = xsSet lines := by
    ext x
    rw [mem_xsSet, List.mem_toFinset, List.mem_flatMap]
  constructor
  case count => rw [List.length_map, Finset.length_sort, all]
  case shape => simp [Line.ranked]
  case index =>
    intro i j u updated
    rw [pointAt_ranked] at updated
    obtain ⟨x, point, rfl⟩ := Option.map_eq_some_iff.mp updated
    rw [List.length_map]
    exact ⟨_, rank_lt (mem_of_pointAt point), rfl⟩
  case tick =>
    intro i j x point
    refine ⟨rank (xsSet lines) x, ?_, ?_⟩
    · rw [pointAt_ranked, point]
      rfl
    · rw [List.getElem?_map, getElem?_rank (mem_of_pointAt point)]
      rfl
  case order =>
    intro i j i' j' x x' u u' point point' updated updated'
    rw [pointAt_ranked, point] at updated
    rw [pointAt_ranked, point'] at updated'
    cases updated
    cases updated'
    have ranks := (rank_strictMonoOn (xsSet lines)).cmp_map_eq (mem_of_pointAt point) (mem_of_pointAt point')
    rw [← ranks]
    exact Nat.strictMono_cast.cmp_map_eq _ _
  case used =>
    intro k bound
    rw [List.length_map] at bound
    obtain ⟨x, member, rfl⟩ := exists_rank_eq bound
    obtain ⟨i, j, point⟩ := exists_pointAt member
    exact ⟨i, j, by rw [pointAt_ranked, point]; rfl⟩
  case distinct =>
    intro powers
    apply List.Nodup.map_on ?_ ((xsSet lines).sort_nodup (· ≤ ·))
    intro x hx y hy same
    obtain ⟨line, listed, point⟩ := mem_xsSet.mp ((Finset.mem_sort _).mp hx)
    obtain ⟨line', listed', point'⟩ := mem_xsSet.mp ((Finset.mem_sort _).mp hy)
    obtain ⟨k, large, rfl⟩ := powers line listed x point
    obtain ⟨l, also, rfl⟩ := powers line' listed' y point'
    obtain ⟨k, rfl⟩ := Nat.exists_eq_add_of_le' large
    obtain ⟨l, rfl⟩ := Nat.exists_eq_add_of_le' also
    rw [label_injective same]

end RdmaExps.Segments
