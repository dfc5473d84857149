import RdmaExps.Python.Decimal

namespace RdmaExps.Python

/-- `s[:s.find(c)]`; a missing `c` is found at -1, which cuts the last character. -/
def upTo (c : Char) (s : List Char) : List Char :=
  if c ∈ s then s.takeWhile (fun d => d ≠ c) else s.dropLast

/-- `os.path.basename`. -/
def baseName (path : String) : String :=
  String.ofList ((path.toList.splitOn '/').getLast (List.splitOn_ne_nil _ _))

/-- `re.split('\s+', s)`. -/
def splitBlanks : List Char → List (List Char)
  | [] => [[]]
  | c :: rest =>
    if isBlank c then
      -- Only the last blank of a run separates.
      match rest with
      | d :: _ => if isBlank d then splitBlanks rest else [] :: splitBlanks rest
      | [] => [[], []]
    else (splitBlanks rest).modifyHead (c :: ·)

/-- `s.split()`. -/
def splitWords (s : List Char) : List (List Char) :=
  if strip s = [] then [] else splitBlanks (strip s)

/-- `s.splitlines()` of a byte string. -/
def splitLines : List Char → List (List Char)
  | [] => []
  | '\n' :: rest => [] :: splitLines rest
  | '\r' :: '\n' :: rest => [] :: splitLines rest
  | '\r' :: rest => [] :: splitLines rest
  | c :: rest =>
    match splitLines rest with
    | [] => [[c]]
    | line :: lines => (c :: line) :: lines

def endLines (lines : List (List Char)) : List Char := lines.flatMap (· ++ ['\n'])

theorem upTo_append {c : Char} {s : List Char} (fresh : c ∉ s) (rest : List Char) :
    upTo c (s ++ c :: rest) = s := by
  have keep : ∀ d ∈ s, decide (d ≠ c) = true := by
    intro d member
    exact decide_eq_true (fun same => fresh (same ▸ member))
  unfold upTo
  rw [if_pos (by simp), List.takeWhile_append_of_pos keep]
  simp

theorem baseName_append (dir : String) {name : String} (plain : '/' ∉ name.toList) :
    baseName (dir ++ "/" ++ name) = name := by
  have parts : (dir ++ "/" ++ name).toList.splitOn '/' = dir.toList.splitOn '/' ++ [name.toList] := by
    rw [String.toList_append, String.toList_append, List.append_assoc]
    change (dir.toList ++ '/' :: name.toList).splitOn '/' = _
    rw [List.splitOn_append_cons_self, List.splitOn_eq_singleton plain]
  simp only [baseName, parts, List.getLast_append_singleton, String.ofList_toList]

theorem baseName_append_path (dir inner : String) {path name : String} (parts : path = inner ++ "/" ++ name)
    (plain : '/' ∉ name.toList) : baseName (dir ++ path) = name := by
  have joined := baseName_append (dir ++ inner) plain
  rw [String.append_assoc] at parts
  rwa [String.append_assoc, String.append_assoc, ← parts] at joined

theorem baseName_of_plain {name : String} (plain : '/' ∉ name.toList) : baseName name = name := by
  simp [baseName, List.splitOn_eq_singleton plain]

/-- Words joined by non-empty runs of blanks. -/
inductive Spaced : List (List Char) → List Char → Prop
  | last (word : List Char) : Spaced [word] word
  | cons (word gap : List Char) {words : List (List Char)} {text : List Char} (wide : gap ≠ [])
      (blank : ∀ c ∈ gap, isBlank c = true) (rest : Spaced words text) :
      Spaced (word :: words) (word ++ gap ++ text)

def Word (s : List Char) : Prop := s ≠ [] ∧ ∀ c ∈ s, isBlank c = false

instance (s : List Char) : Decidable (Word s) :=
  decidable_of_iff (s ≠ [] ∧ s.all (fun c => !isBlank c) = true) (by simp [Word])

theorem splitBlanks_plain {c : Char} (plain : isBlank c = false) (rest : List Char) :
    splitBlanks (c :: rest) = (splitBlanks rest).modifyHead (c :: ·) := by
  cases rest <;> simp [splitBlanks, plain]

theorem splitBlanks_word {word : List Char} (plain : ∀ c ∈ word, isBlank c = false)
    (rest : List Char) :
    splitBlanks (word ++ rest) = (splitBlanks rest).modifyHead (word ++ ·) := by
  induction word with
  | nil =>
    have identity : (fun head : List Char => [] ++ head) = id := funext fun _ => rfl
    rw [List.nil_append, identity, List.modifyHead_id]
    rfl
  | cons c word ih =>
    have first : isBlank c = false := plain c (by simp)
    rw [List.cons_append, splitBlanks_plain first, ih (fun d member => plain d (by simp [member])),
      List.modifyHead_modifyHead]
    rfl

theorem splitBlanks_gap {gap : List Char} (wide : gap ≠ []) (blank : ∀ c ∈ gap, isBlank c = true)
    {rest : List Char} (starts : ∃ d tail, rest = d :: tail ∧ isBlank d = false) :
    splitBlanks (gap ++ rest) = [] :: splitBlanks rest := by
  obtain ⟨d, tail, rfl, plain⟩ := starts
  induction gap with
  | nil => exact absurd rfl wide
  | cons c gap ih =>
    have first : isBlank c = true := blank c (by simp)
    cases gap with
    | nil => simp [splitBlanks, first, plain]
    | cons e gap =>
      have second : isBlank e = true := blank e (by simp)
      have shorter := ih (by simp) (fun d member => blank d (by simp [member]))
      simp only [List.cons_append, splitBlanks, first, second, if_true] at shorter ⊢
      exact shorter

theorem Spaced.starts {words : List (List Char)} {text : List Char} (spaced : Spaced words text)
    (plain : ∀ w ∈ words, Word w) : ∃ d tail, text = d :: tail ∧ isBlank d = false := by
  have head : ∀ w : List Char, Word w → ∀ rest, ∃ d tail, w ++ rest = d :: tail ∧ isBlank d = false := by
    intro w word rest
    obtain ⟨d, tail, rfl⟩ := List.exists_cons_of_ne_nil word.1
    exact ⟨d, tail ++ rest, rfl, word.2 d (by simp)⟩
  cases spaced with
  | last => simpa using head text (plain _ (by simp)) []
  | cons word gap wide blank rest =>
    rw [List.append_assoc]
    exact head word (plain _ (by simp)) _

theorem splitBlanks_spaced {words : List (List Char)} {text : List Char} (spaced : Spaced words text)
    (plain : ∀ w ∈ words, Word w) : splitBlanks text = words := by
  induction spaced with
  | last word =>
    have split := splitBlanks_word (plain word (by simp)).2 []
    simpa [splitBlanks] using split
  | cons word gap wide blank rest ih =>
    have tail : ∀ w ∈ _, Word w := fun w member => plain w (List.mem_cons_of_mem _ member)
    rw [List.append_assoc, splitBlanks_word (plain word (by simp)).2,
      splitBlanks_gap wide blank (rest.starts tail), ih tail]
    simp

theorem dropWhile_blanks {gap : List Char} (blank : ∀ c ∈ gap, isBlank c = true)
    {rest : List Char} (starts : ∃ d tail, rest = d :: tail ∧ isBlank d = false) :
    (gap ++ rest).dropWhile isBlank = rest := by
  obtain ⟨d, tail, rfl, plain⟩ := starts
  rw [List.dropWhile_append_of_pos blank, List.dropWhile_cons_of_neg (by simp [plain])]

theorem Spaced.ends {words : List (List Char)} {text : List Char} (spaced : Spaced words text)
    (plain : ∀ w ∈ words, Word w) : ∃ d tail, text.reverse = d :: tail ∧ isBlank d = false := by
  induction spaced with
  | last word =>
    obtain ⟨nonempty, clear⟩ := plain word (by simp)
    obtain ⟨d, tail, reversed⟩ := List.exists_cons_of_ne_nil (List.reverse_ne_nil_iff.mpr nonempty)
    refine ⟨d, tail, reversed, clear d ?_⟩
    rw [← List.mem_reverse, reversed]
    exact List.mem_cons_self
  | cons word gap wide blank rest ih =>
    obtain ⟨d, tail, reversed, clear⟩ := ih (fun w member => plain w (List.mem_cons_of_mem _ member))
    exact ⟨d, tail ++ (word ++ gap).reverse, by simp [reversed], clear⟩

theorem strip_padded {left right : List Char} {words : List (List Char)} {text : List Char}
    (spaced : Spaced words text) (plain : ∀ w ∈ words, Word w)
    (before : ∀ c ∈ left, isBlank c = true) (after : ∀ c ∈ right, isBlank c = true) :
    strip (left ++ text ++ right) = text := by
  obtain ⟨d, tail, begins, clear⟩ := spaced.starts plain
  have front : (left ++ text ++ right).dropWhile isBlank = text ++ right := by
    rw [List.append_assoc]
    exact dropWhile_blanks before ⟨d, tail ++ right, by simp [begins], clear⟩
  have back : (text ++ right).reverse.dropWhile isBlank = text.reverse := by
    rw [List.reverse_append]
    exact dropWhile_blanks (fun c member => after c (List.mem_reverse.mp member)) (spaced.ends plain)
  rw [strip, front, back, List.reverse_reverse]

theorem Spaced.not_mem {words : List (List Char)} {text : List Char} (spaced : Spaced words text)
    {c : Char} (notBlank : isBlank c = false) (absent : ∀ w ∈ words, c ∉ w) : c ∉ text := by
  induction spaced with
  | last word => exact absent word (by simp)
  | cons word gap wide blank rest ih =>
    have outside : c ∉ gap := by
      intro member
      have := blank c member
      rw [notBlank] at this
      cases this
    simp only [List.mem_append, not_or]
    exact ⟨⟨absent word (by simp), outside⟩, ih (fun w member => absent w (List.mem_cons_of_mem _ member))⟩

theorem splitLines_line {line : List Char} (clear : ∀ c ∈ line, c ≠ '\n' ∧ c ≠ '\r')
    (rest : List Char) : splitLines (line ++ '\n' :: rest) = line :: splitLines rest := by
  induction line with
  | nil => rw [List.nil_append, splitLines]
  | cons c line ih =>
    obtain ⟨notNewline, notReturn⟩ := clear c (by simp)
    rw [List.cons_append, splitLines, ih (fun d member => clear d (by simp [member]))]
    · exact notNewline
    · rintro _ rfl
      exact absurd rfl notReturn
    · exact notReturn

theorem splitLines_endLines {lines : List (List Char)}
    (clear : ∀ line ∈ lines, ∀ c ∈ line, c ≠ '\n' ∧ c ≠ '\r') : splitLines (endLines lines) = lines := by
  induction lines with
  | nil => simp [endLines, splitLines]
  | cons line lines ih =>
    have split := splitLines_line (clear line (by simp)) (endLines lines)
    rw [ih (fun l member => clear l (by simp [member]))] at split
    simpa [endLines] using split

theorem splitOn_endLines {lines : List (List Char)} (clear : ∀ line ∈ lines, '\n' ∉ line) :
    (endLines lines).splitOn '\n' = lines ++ [[]] := by
  induction lines with
  | nil => rfl
  | cons line lines ih =>
    have first : '\n' ∉ line := clear line (by simp)
    have rest := ih fun other member => clear other (by simp [member])
    have text : endLines (line :: lines) = line ++ '\n' :: endLines lines := by simp [endLines]
    rw [text, List.splitOn_append_cons_self_of_not_mem first, rest, List.cons_append]

theorem splitLines_clear (s : List Char) :
    ∀ line ∈ splitLines s, ∀ c ∈ line, c ≠ '\n' ∧ c ≠ '\r' := by
  fun_induction splitLines s with
  | case1 => simp
  | case2 rest ih => simpa using ih
  | case3 rest ih => simpa using ih
  | case4 rest notCrLf ih => simpa using ih
  | case5 c rest notNewline notCrLf notReturn empty ih =>
    simp only [List.mem_singleton, forall_eq]
    exact ⟨notNewline, notReturn⟩
  | case6 c rest notNewline notCrLf notReturn line lines split ih =>
    rw [split] at ih
    simp only [List.mem_cons, forall_eq_or_imp] at ih ⊢
    exact ⟨⟨⟨notNewline, notReturn⟩, ih.1⟩, ih.2⟩

example : splitWords " a  bc ".toList = ["a".toList, "bc".toList] := by decide
example : splitLines "a\r\n\nb".toList = ["a".toList, [], "b".toList] := by decide

end RdmaExps.Python
