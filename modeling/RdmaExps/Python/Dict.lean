import Mathlib

namespace RdmaExps.Python

/-- A dictionary. The order of its entries means nothing, as in Python 2. -/
abbrev Dict (κ : Type) (ν : Type) := AList (fun _ : κ => ν)

variable {κ ν : Type} [DecidableEq κ]

/-- The value of the last assignment to `key` in a sequence of assignments. -/
def lastWrite (writes : List (κ × ν)) (key : κ) : Option ν :=
  (writes.reverse.find? fun write => write.1 = key).map Prod.snd

@[simp] theorem lastWrite_nil (key : κ) : lastWrite ([] : List (κ × ν)) key = none := rfl

theorem lastWrite_append_single (writes : List (κ × ν)) (name key : κ) (value : ν) :
    lastWrite (writes ++ [(name, value)]) key =
      if name = key then some value else lastWrite writes key := by
  unfold lastWrite
  rw [List.reverse_append, List.reverse_singleton, List.singleton_append, List.find?_cons]
  by_cases same : name = key <;> simp [same]

theorem lastWrite_eq_some {writes : List (κ × ν)} {key : κ} {value : ν} :
    lastWrite writes key = some value ↔
      ∃ before after, writes = before ++ (key, value) :: after ∧ ∀ write ∈ after, write.1 ≠ key := by
  induction writes using List.reverseRecOn with
  | nil => simp
  | append_singleton writes write ih =>
    obtain ⟨name, last⟩ := write
    rw [lastWrite_append_single]
    by_cases same : name = key
    · subst same
      rw [if_pos rfl, Option.some.injEq]
      constructor
      · rintro rfl
        exact ⟨writes, [], rfl, by simp⟩
      · rintro ⟨before, after, split, clear⟩
        rcases after.eq_nil_or_concat with rfl | ⟨front, final, rfl⟩
        · simp only [List.append_singleton_inj, Prod.mk.injEq] at split
          exact split.2.2
        · rw [List.concat_eq_append, ← List.cons_append, ← List.append_assoc] at split
          have final_eq := (List.append_singleton_inj.mp split).2
          exact absurd (congrArg Prod.fst final_eq).symm (clear final (by simp))
    · rw [if_neg same, ih]
      constructor
      · rintro ⟨before, after, rfl, clear⟩
        refine ⟨before, after ++ [(name, last)], by simp, ?_⟩
        intro write member
        rcases List.mem_append.mp member with member | member
        · exact clear write member
        · rw [List.mem_singleton.mp member]
          exact same
      · rintro ⟨before, after, split, clear⟩
        rcases after.eq_nil_or_concat with rfl | ⟨front, final, rfl⟩
        · simp only [List.append_singleton_inj, Prod.mk.injEq] at split
          exact absurd split.2.1 same
        · rw [List.concat_eq_append, ← List.cons_append, ← List.append_assoc] at split
          refine ⟨before, front, (List.append_singleton_inj.mp split).1, ?_⟩
          intro write member
          exact clear write (by simp [member])

theorem lastWrite_isSome {writes : List (κ × ν)} {key : κ} :
    (lastWrite writes key).isSome ↔ key ∈ writes.map Prod.fst := by
  simp only [lastWrite, Option.isSome_map, List.find?_isSome, List.mem_reverse, List.mem_map,
    decide_eq_true_eq]

theorem lastWrite_eq_some_of_nodup {writes : List (κ × ν)} (nodup : (writes.map Prod.fst).Nodup)
    {key : κ} {value : ν} : lastWrite writes key = some value ↔ (key, value) ∈ writes := by
  rw [lastWrite_eq_some]
  constructor
  · rintro ⟨before, after, rfl, -⟩
    simp
  · intro member
    obtain ⟨before, after, rfl⟩ := List.append_of_mem member
    refine ⟨before, after, rfl, ?_⟩
    intro write later same
    rw [List.map_append, List.map_cons, List.nodup_append] at nodup
    have fresh := (List.nodup_cons.mp nodup.2.1).1
    exact fresh (List.mem_map.mpr ⟨write, later, same⟩)

/-- `dict(pairs)` -/
def dictOf (pairs : List (κ × ν)) : Dict κ ν := pairs.foldl (fun entries pair => entries.insert pair.1 pair.2) ∅

theorem lookup_dictOf (pairs : List (κ × ν)) (key : κ) : (dictOf pairs).lookup key = lastWrite pairs key := by
  induction pairs using List.reverseRecOn with
  | nil => simp [dictOf]
  | append_singleton pairs pair ih =>
    rw [dictOf, List.foldl_append, ← dictOf, lastWrite_append_single, ← ih, List.foldl_cons, List.foldl_nil]
    by_cases same : pair.1 = key
    · rw [if_pos same, ← same, AList.lookup_insert]
    · rw [if_neg same, AList.lookup_insert_ne (Ne.symm same)]

end RdmaExps.Python
