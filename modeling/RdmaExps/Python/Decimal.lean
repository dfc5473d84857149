import Mathlib

namespace RdmaExps.Python

/-- White space of a byte string, as `str.strip` and `\s` see it. -/
def isBlank (c : Char) : Bool :=
  c = ' ' || c = '\t' || c = '\n' || c = '\r' || c = '\x0b' || c = '\x0c'

def strip (s : List Char) : List Char :=
  ((s.dropWhile isBlank).reverse.dropWhile isBlank).reverse

/-- `'%d' % n`. -/
def decimal (n : Int) : String := toString n

def digitsValue (s : List Char) : Nat := Nat.ofDigitChars 10 s 0

/-- The digits of `int(s)` and `float(s)`: at least one, and nothing else. -/
def unsigned (s : List Char) : Option Nat :=
  if s ≠ [] ∧ s.all Char.isDigit then some (digitsValue s) else none

def signed (s : List Char) : Option Int :=
  match s with
  | '-' :: rest => (unsigned rest).map fun n => -(n : Int)
  | '+' :: rest => (unsigned rest).map Int.ofNat
  | _ => (unsigned s).map Int.ofNat

/-- `int(s)`; `none` where Python raises ValueError. -/
def parseInt (s : List Char) : Option Int := signed (strip s)

def exponent (s : List Char) : Option Int :=
  match s with
  | [] => some 0
  | c :: rest => if c = 'e' ∨ c = 'E' then signed rest else none

def unsignedFloat (s : List Char) : Option Rat :=
  let whole := s.takeWhile Char.isDigit
  let rest := s.dropWhile Char.isDigit
  let fraction := match rest with
    | '.' :: tail => tail.takeWhile Char.isDigit
    | _ => []
  let tail := match rest with
    | '.' :: tail => tail.dropWhile Char.isDigit
    | _ => rest
  if whole = [] ∧ fraction = [] then none
  else (exponent tail).map fun e : Int =>
    (digitsValue (whole ++ fraction) : Rat) * (10 : Rat) ^ (e - fraction.length)

/-- `float(s)` on the decimal literals, in exact arithmetic; `none` where Python raises
    ValueError. -/
def parseFloat (s : List Char) : Option Rat :=
  match strip s with
  | '-' :: rest => (unsignedFloat rest).map fun q => -q
  | '+' :: rest => unsignedFloat rest
  | rest => unsignedFloat rest

theorem isBlank_of_isDigit {c : Char} (digit : c.isDigit) : isBlank c = false := by
  by_contra blank
  simp only [isBlank, Bool.not_eq_false, Bool.or_eq_true, decide_eq_true_eq] at blank
  rcases blank with ((((rfl | rfl) | rfl) | rfl) | rfl) | rfl <;> simp at digit

theorem strip_of_not_blank {s : List Char} (plain : ∀ c ∈ s, isBlank c = false) : strip s = s := by
  have front : ∀ t : List Char, (∀ c ∈ t, isBlank c = false) → t.dropWhile isBlank = t := by
    intro t clear
    cases t with
    | nil => rfl
    | cons c t => exact List.dropWhile_cons_of_neg (by simp [clear c (by simp)])
  unfold strip
  rw [front s plain, front s.reverse (fun c member => plain c (List.mem_reverse.mp member)),
    List.reverse_reverse]

theorem decimal_natCast (n : Nat) : (decimal n).toList = Nat.toDigits 10 n := by
  simp [decimal, Int.toString_eq_repr, Int.repr_eq_if]

theorem decimal_digits (n : Nat) : ∀ c ∈ (decimal n).toList, c.isDigit := by
  intro c member
  rw [decimal_natCast] at member
  exact Nat.isDigit_of_mem_toDigits (by decide) (by decide) member

theorem decimal_natCast_ne_nil (n : Nat) : (decimal n).toList ≠ [] := by
  rw [decimal_natCast]
  exact Nat.toDigits_ne_nil

theorem unsigned_decimal (n : Nat) : unsigned (decimal n).toList = some n := by
  have digits : (decimal n).toList.all Char.isDigit = true :=
    List.all_eq_true.mpr (decimal_digits n)
  unfold unsigned
  rw [if_pos ⟨decimal_natCast_ne_nil n, digits⟩]
  simp [digitsValue, decimal_natCast]

theorem signed_of_digits {s : List Char} (digits : ∀ c ∈ s, c.isDigit) :
    signed s = (unsigned s).map Int.ofNat := by
  unfold signed
  split
  · exact absurd (digits '-' (by simp)) (by decide)
  · exact absurd (digits '+' (by simp)) (by decide)
  · rfl

theorem decimal_negSucc (n : Nat) :
    (decimal (Int.negSucc n)).toList = '-' :: (decimal (n + 1 : Nat)).toList := by
  rw [decimal_natCast, ← Nat.toList_repr]
  simp [decimal, Int.toString_eq_repr, Int.repr]

theorem signed_decimal (n : Int) : signed (decimal n).toList = some n := by
  cases n with
  | ofNat n =>
    rw [Int.ofNat_eq_natCast, signed_of_digits (decimal_digits n), unsigned_decimal]
    rfl
  | negSucc n =>
    rw [decimal_negSucc, signed, unsigned_decimal]
    rfl

theorem decimal_injective {m n : Int} (same : decimal m = decimal n) : m = n := by
  have parsed := signed_decimal m
  rw [same, signed_decimal] at parsed
  exact (Option.some.inj parsed).symm

theorem decimal_char {n : Int} {c : Char} (member : c ∈ (decimal n).toList) :
    c.isDigit ∨ c = '-' := by
  cases n with
  | ofNat n => exact .inl (decimal_digits n c member)
  | negSucc n =>
    rw [decimal_negSucc] at member
    rcases List.mem_cons.mp member with sign | digit
    · exact .inr sign
    · exact .inl (decimal_digits _ c digit)

theorem not_mem_decimal (n : Int) {c : Char} (notDigit : c.isDigit = false) (notSign : c ≠ '-') :
    c ∉ (decimal n).toList := by
  intro member
  rcases decimal_char member with digit | sign
  · rw [notDigit] at digit
    cases digit
  · exact notSign sign

theorem parseInt_decimal (n : Nat) : parseInt (decimal n).toList = some (n : Int) := by
  have plain : ∀ c ∈ (decimal n).toList, isBlank c = false :=
    fun c member => isBlank_of_isDigit (decimal_digits n c member)
  rw [parseInt, strip_of_not_blank plain, signed_decimal]

example : parseInt " -42 ".toList = some (-42) := by decide
example : parseFloat "-12.50e1".toList = some (-125) := by decide +kernel

end RdmaExps.Python
