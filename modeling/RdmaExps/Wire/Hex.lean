import Mathlib

namespace RdmaExps.Wire

/-- `sprintf` with `%0<width>x`. -/
def printHex (width n : Nat) : List Char := List.leftpad width '0' (Nat.toDigits 16 n)

def hexValue (c : Char) : Option Nat :=
  if '0' ≤ c ∧ c ≤ '9' then some (c.toNat - 48)
  else if 'a' ≤ c ∧ c ≤ 'f' then some (c.toNat - 87)
  else if 'A' ≤ c ∧ c ≤ 'F' then some (c.toNat - 55)
  else none

def isHex (c : Char) : Bool := (hexValue c).isSome

def hexDigits (digits : List Char) : Nat := digits.foldl (fun value c => value * 16 + (hexValue c).getD 0) 0

def isSpace (c : Char) : Bool :=
  c = ' ' || c = '\t' || c = '\n' || c = '\r' || c = '\x0b' || c = '\x0c'

def skipPrefix (s : List Char) : List Char :=
  match s with
  | '0' :: 'x' :: rest => rest
  | '0' :: 'X' :: rest => rest
  | _ => s

def scanUnsigned (s : List Char) : Option (Nat × List Char) :=
  let s := skipPrefix s
  if s.takeWhile isHex = [] then none else some (hexDigits (s.takeWhile isHex), s.dropWhile isHex)

/-- `sscanf` with `%x`: the number and the rest of the input. -/
def scanHex (s : List Char) : Option (UInt32 × List Char) :=
  match s.dropWhile isSpace with
  | '-' :: rest => (scanUnsigned rest).map fun found => (-found.1.toUInt32, found.2)
  | '+' :: rest => (scanUnsigned rest).map fun found => (found.1.toUInt32, found.2)
  | s => (scanUnsigned s).map fun found => (found.1.toUInt32, found.2)

/-- `sscanf` with `%s` -/
def scanWord (s : List Char) : Option (List Char × List Char) :=
  let s := s.dropWhile isSpace
  if s.takeWhile (!isSpace ·) = [] then none else some (s.takeWhile (!isSpace ·), s.dropWhile (!isSpace ·))

/-- A character of the format that is not a conversion. -/
def scanChar (c : Char) (s : List Char) : Option (List Char) :=
  match s with
  | first :: rest => if first = c then some rest else none
  | [] => none

theorem hexValue_digitChar {d : Nat} (digit : d < 16) : hexValue d.digitChar = some d := by
  have all : ∀ d < 16, hexValue (Nat.digitChar d) = some d := by decide
  exact all d digit

theorem mem_toDigits {n : Nat} {c : Char} (member : c ∈ Nat.toDigits 16 n) : ∃ d < 16, c = d.digitChar := by
  induction n using Nat.strongRecOn with
  | ind n ih =>
    rw [Nat.toDigits_eq_if (by decide)] at member
    split at member
    · rename_i small
      exact ⟨n, small, List.mem_singleton.mp member⟩
    · rcases List.mem_append.mp member with front | last
      · exact ih (n / 16) (by omega) front
      · exact ⟨n % 16, Nat.mod_lt _ (by decide), List.mem_singleton.mp last⟩

theorem hexDigits_append (front : List Char) (c : Char) :
    hexDigits (front ++ [c]) = hexDigits front * 16 + (hexValue c).getD 0 := by
  simp [hexDigits]

theorem hexDigits_toDigits (n : Nat) : hexDigits (Nat.toDigits 16 n) = n := by
  induction n using Nat.strongRecOn with
  | ind n ih =>
    rw [Nat.toDigits_eq_if (by decide)]
    split
    · rename_i small
      simp [hexDigits, hexValue_digitChar small]
    · rw [hexDigits_append, ih (n / 16) (by omega), hexValue_digitChar (Nat.mod_lt _ (by decide))]
      simp only [Option.getD_some]
      omega

theorem hexDigits_replicate (k : Nat) (digits : List Char) :
    hexDigits (List.replicate k '0' ++ digits) = hexDigits digits := by
  induction k with
  | zero => rfl
  | succ k ih =>
    rw [← ih, List.replicate_succ, List.cons_append]
    simp [hexDigits, show hexValue '0' = some 0 from rfl]

theorem length_printHex {width n : Nat} (fits : n < 16 ^ width) (pos : 0 < width) : (printHex width n).length = width := by
  have le := (Nat.length_toDigits_le_iff (by decide) pos).mpr fits
  simp only [printHex, List.leftpad, List.length_append, List.length_replicate]
  omega

theorem printHex_ne_nil (width n : Nat) : printHex width n ≠ [] := by
  unfold printHex List.leftpad
  exact List.append_ne_nil_of_right_ne_nil _ Nat.toDigits_ne_nil

theorem mem_printHex {width n : Nat} {c : Char} (member : c ∈ printHex width n) : ∃ d < 16, c = d.digitChar := by
  rcases List.mem_append.mp member with pad | digit
  · exact ⟨0, by decide, List.eq_of_mem_replicate pad⟩
  · exact mem_toDigits digit

theorem isHex_of_mem_printHex {width n : Nat} {c : Char} (member : c ∈ printHex width n) : isHex c = true := by
  obtain ⟨d, digit, rfl⟩ := mem_printHex member
  simp [isHex, hexValue_digitChar digit]

theorem hexDigits_printHex (width n : Nat) : hexDigits (printHex width n) = n := by
  unfold printHex List.leftpad
  rw [hexDigits_replicate, hexDigits_toDigits]

/-- What is no digit is no sign, blank or prefix of one. -/
theorem plain_of_isHex {c : Char} (hex : isHex c = true) : isSpace c = false ∧ c ≠ '-' ∧ c ≠ '+' ∧ c ≠ 'x' ∧ c ≠ 'X' := by
  refine ⟨?_, ?_, ?_, ?_, ?_⟩
  · by_contra blank
    simp only [isSpace, Bool.not_eq_false, Bool.or_eq_true, decide_eq_true_eq] at blank
    rcases blank with ((((rfl | rfl) | rfl) | rfl) | rfl) | rfl <;> exact absurd hex (by decide)
  all_goals
    rintro rfl
    exact absurd hex (by decide)

theorem skipPrefix_of_second {s : List Char} (second : ∀ c ∈ s[1]?, c ≠ 'x' ∧ c ≠ 'X') : skipPrefix s = s := by
  unfold skipPrefix
  split
  · exact absurd rfl (second 'x' rfl).1
  · exact absurd rfl (second 'X' rfl).2
  · rfl

/-- A run of digits is read to its end. -/
theorem scanUnsigned_append {digits rest : List Char} (nonempty : digits ≠ []) (hex : ∀ c ∈ digits, isHex c = true)
    (stop : ∀ c ∈ rest.head?, isHex c = false ∧ c ≠ 'x' ∧ c ≠ 'X') :
    scanUnsigned (digits ++ rest) = some (hexDigits digits, rest) := by
  have plain : skipPrefix (digits ++ rest) = digits ++ rest := by
    apply skipPrefix_of_second
    intro c second
    cases digits with
    | nil => exact absurd rfl nonempty
    | cons first digits =>
      cases digits with
      | nil => exact (stop c (by simpa [List.head?_eq_getElem?] using second)).2
      | cons next digits =>
        obtain rfl : next = c := by simpa using second
        exact (plain_of_isHex (hex next (by simp))).2.2.2
  have taken : (digits ++ rest).takeWhile isHex = digits ∧ (digits ++ rest).dropWhile isHex = rest := by
    rw [List.takeWhile_append_of_pos hex, List.dropWhile_append_of_pos hex]
    cases rest with
    | nil => simp
    | cons c rest => simp [(stop c rfl).1]
  unfold scanUnsigned
  simp only [plain, taken.1, taken.2, nonempty, if_false]

theorem scanHex_append {digits rest : List Char} (nonempty : digits ≠ []) (hex : ∀ c ∈ digits, isHex c = true)
    (stop : ∀ c ∈ rest.head?, isHex c = false ∧ c ≠ 'x' ∧ c ≠ 'X') :
    scanHex (digits ++ rest) = some ((hexDigits digits).toUInt32, rest) := by
  have scanned := scanUnsigned_append nonempty hex stop
  cases digits with
  | nil => exact absurd rfl nonempty
  | cons first digits =>
    obtain ⟨space, minus, plus, -⟩ := plain_of_isHex (hex first (by simp))
    have kept : ((first :: digits) ++ rest).dropWhile isSpace = (first :: digits) ++ rest := by
      rw [List.cons_append, List.dropWhile_cons_of_neg (by simp [space])]
    unfold scanHex
    rw [kept]
    split
    · rename_i same
      exact absurd (List.cons_eq_cons.mp same).1 minus
    · rename_i same
      exact absurd (List.cons_eq_cons.mp same).1 plus
    · rw [scanned]
      rfl

/-- What `%0<width>x` prints, `%x` reads. -/
theorem scanHex_printHex {width n : Nat} {rest : List Char} (fits : n < 2 ^ 32)
    (stop : ∀ c ∈ rest.head?, isHex c = false ∧ c ≠ 'x' ∧ c ≠ 'X') :
    ∃ x : UInt32, scanHex (printHex width n ++ rest) = some (x, rest) ∧ x.toNat = n := by
  refine ⟨_, scanHex_append (printHex_ne_nil width n) (fun c => isHex_of_mem_printHex) stop, ?_⟩
  rw [hexDigits_printHex]
  exact Nat.mod_eq_of_lt fits

theorem scanWord_of_plain {s : List Char} (nonempty : s ≠ []) (plain : ∀ c ∈ s, isSpace c = false) :
    scanWord s = some (s, []) := by
  have kept : s.dropWhile isSpace = s := by
    cases s with
    | nil => rfl
    | cons c s => exact List.dropWhile_cons_of_neg (by simp [plain c (by simp)])
  have whole : s.takeWhile (!isSpace ·) = s := List.takeWhile_eq_self_iff.mpr fun c member => by simp [plain c member]
  have none : s.dropWhile (!isSpace ·) = [] := List.dropWhile_eq_nil_iff.mpr fun c member => by simp [plain c member]
  unfold scanWord
  simp only [kept, whole, none, nonempty, if_false]

end RdmaExps.Wire
