import RdmaExps.Python.Decimal

namespace RdmaExps.Python

/-- The regular expressions that the scripts use. Repetition is greedy, and of single characters. -/
inductive Re where
  | text (s : List Char)
  | char (p : Char → Bool)
  | many (p : Char → Bool)
  | seq (first second : Re)
  | alt (first second : Re)
  | opt (inner : Re)
  | group (inner : Re)

/-- What is left after a greedy repetition, the longest repetition first. -/
def manyRests (p : Char → Bool) : List Char → List (List Char)
  | [] => [[]]
  | c :: rest => if p c then manyRests p rest ++ [c :: rest] else [c :: rest]

/-- The ways to match a prefix, in the order a backtracking matcher tries them: the groups, and
    what is left of the text. -/
def Re.run : Re → List Char → List (List (List Char) × List Char)
  | .text s, cs => if s.isPrefixOf cs then [([], cs.drop s.length)] else []
  | .char p, cs =>
    match cs with
    | c :: rest => if p c then [([], rest)] else []
    | [] => []
  | .many p, cs => (manyRests p cs).map fun rest => ([], rest)
  | .seq first second, cs => (first.run cs).flatMap fun front =>
      (second.run front.2).map fun back => (front.1 ++ back.1, back.2)
  | .alt first second, cs => first.run cs ++ second.run cs
  | .opt inner, cs => inner.run cs ++ [([], cs)]
  | .group inner, cs => (inner.run cs).map fun found =>
      (cs.take (cs.length - found.2.length) :: found.1, found.2)

/-- `re.match(r, s)`: the groups of the first match. -/
def Re.groups (r : Re) (s : List Char) : Option (List (List Char)) := (r.run s).head?.map Prod.fst

namespace Re

def any : Re := .many fun c => c ≠ '\n'

def digits : Re := .seq (.char Char.isDigit) (.many Char.isDigit)

def sign : Re := .opt (.char fun c => c = '-' || c = '+')

/-- `[-+]?(\d+(\.\d*)?|\.\d+)([eE][-+]?\d+)?` -/
def float : Re :=
  .seq sign (.seq
    (.group (.alt
      (.seq digits (.opt (.group (.seq (.text ['.']) (.many Char.isDigit)))))
      (.seq (.text ['.']) digits)))
    (.opt (.group (.seq (.char fun c => c = 'e' || c = 'E') (.seq sign digits)))))

theorem run_many (p : Char → Bool) (cs : List Char) :
    (many p).run cs = (manyRests p cs).map fun rest => ([], rest) := rfl

theorem run_seq (first second : Re) (cs : List Char) :
    (seq first second).run cs = (first.run cs).flatMap fun front =>
      (second.run front.2).map fun back => (front.1 ++ back.1, back.2) := rfl

theorem mem_manyRests_self (p : Char → Bool) (cs : List Char) : cs ∈ manyRests p cs := by
  cases cs with
  | nil => simp [manyRests]
  | cons c cs =>
    unfold manyRests
    split <;> simp

theorem run_any (cs : List Char) : ∃ left others, any.run cs = ([], left) :: others := by
  obtain ⟨left, others, rests⟩ := List.exists_cons_of_ne_nil
    (List.ne_nil_of_mem (mem_manyRests_self (fun c => decide (c ≠ '\n')) cs))
  exact ⟨left, others.map fun rest => ([], rest), by rw [any, run_many, rests, List.map_cons]⟩

theorem run_text_append (s rest : List Char) : (text s).run (s ++ rest) = [([], rest)] := by
  have here : s.isPrefixOf (s ++ rest) = true := by
    rw [List.isPrefixOf_iff_prefix]
    exact List.prefix_append s rest
  simp [run, here]

theorem run_text_of_not_prefix {s cs : List Char} (absent : ¬ s <+: cs) : (text s).run cs = [] := by
  have fails : s.isPrefixOf cs = false := by
    rw [← Bool.not_eq_true, List.isPrefixOf_iff_prefix]
    exact absent
  simp [run, fails]

theorem manyRests_suffix {p : Char → Bool} {cs rest : List Char} (member : rest ∈ manyRests p cs) :
    rest <:+ cs := by
  induction cs with
  | nil =>
    rw [manyRests, List.mem_singleton] at member
    rw [member]
  | cons c cs ih =>
    unfold manyRests at member
    split at member
    · rcases List.mem_append.mp member with shorter | whole
      · exact (ih shorter).trans (List.suffix_cons c cs)
      · rw [List.mem_singleton.mp whole]
    · rw [List.mem_singleton.mp member]

theorem manyRests_append {p : Char → Bool} {front : List Char} (all : ∀ c ∈ front, p c = true)
    (cs : List Char) : ∃ longer, manyRests p (front ++ cs) = manyRests p cs ++ longer := by
  induction front with
  | nil => exact ⟨[], by simp⟩
  | cons c front ih =>
    obtain ⟨longer, rests⟩ := ih fun d member => all d (by simp [member])
    refine ⟨longer ++ [c :: (front ++ cs)], ?_⟩
    rw [List.cons_append, manyRests, if_pos (all c (by simp)), rests, List.append_assoc]

theorem manyRests_all {p : Char → Bool} {front : List Char} (all : ∀ c ∈ front, p c = true)
    {cs : List Char} (stop : ∀ c rest, cs = c :: rest → p c = false) :
    ∃ longer, manyRests p (front ++ cs) = cs :: longer := by
  obtain ⟨longer, rests⟩ := manyRests_append all cs
  rw [rests]
  cases cs with
  | nil => exact ⟨longer, by simp [manyRests]⟩
  | cons c rest => exact ⟨longer, by simp [manyRests, stop c rest rfl]⟩

/-- After a leading `.*`, the match is the one at the last place where the rest matches. -/
theorem run_any_seq {r : Re} {front : List Char} {c : Char} {back : List Char}
    (line : ∀ d ∈ front ++ c :: back, d ≠ '\n')
    (last : ∀ rest, rest <:+ back → r.run rest = []) (here : r.run (c :: back) ≠ []) :
    ((seq any r).run (front ++ c :: back)).head? = (r.run (c :: back)).head? := by
  have front_any : ∀ d ∈ front, decide (d ≠ '\n') = true :=
    fun d member => decide_eq_true (line d (List.mem_append_left _ member))
  obtain ⟨longer, rests⟩ := manyRests_append (p := fun d => decide (d ≠ '\n')) front_any (c :: back)
  have first : decide (c ≠ '\n') = true := decide_eq_true (line c (by simp))
  have shorter : (manyRests (fun d => decide (d ≠ '\n')) back).flatMap (fun rest => r.run rest) = [] := by
    rw [List.flatMap_eq_nil_iff]
    intro rest member
    exact last rest (manyRests_suffix member)
  have unfolded : (seq any r).run (front ++ c :: back) =
      (manyRests (fun d => decide (d ≠ '\n')) (front ++ c :: back)).flatMap fun rest => r.run rest := by
    simp [any, run_seq, run_many, List.flatMap_map]
  rw [unfolded, rests, manyRests, if_pos first]
  simp only [List.flatMap_append, shorter, List.nil_append, List.flatMap_singleton, List.append_assoc]
  exact List.head?_append_of_ne_nil _ here

theorem run_digits {ds : List Char} (nonempty : ds ≠ []) (all : ∀ d ∈ ds, d.isDigit = true)
    {rest : List Char} (stop : ∀ c tail, rest = c :: tail → c.isDigit = false) :
    ∃ longer, digits.run (ds ++ rest) = ([], rest) :: longer := by
  obtain ⟨d, tail, rfl⟩ := List.exists_cons_of_ne_nil nonempty
  have first : d.isDigit = true := all d (by simp)
  have tail_digits : ∀ e ∈ tail, e.isDigit = true :=
    fun e member => all e (List.mem_cons_of_mem _ member)
  obtain ⟨longer, rests⟩ := manyRests_all tail_digits stop
  exact ⟨longer.map fun rest => ([], rest), by
    simp [digits, run_seq, run, first, rests, Function.comp_def]⟩

theorem groups_any_seq {r : Re} {cs : List Char} (here : r.run cs ≠ []) :
    ((seq any r).groups cs).isSome = true := by
  obtain ⟨found, rests, split⟩ := List.exists_cons_of_ne_nil here
  have member : ([] ++ found.1, found.2) ∈ (seq any r).run cs := by
    rw [run_seq, List.mem_flatMap]
    refine ⟨([], cs), List.mem_map.mpr ⟨cs, mem_manyRests_self _ cs, rfl⟩, ?_⟩
    exact List.mem_map.mpr ⟨found, by simp [split], rfl⟩
  obtain ⟨first, others, run⟩ := List.exists_cons_of_ne_nil (List.ne_nil_of_mem member)
  simp [groups, run]

end Re

end RdmaExps.Python
