import Mathlib

namespace RdmaExps.Python

inductive PyErr where
  | attributeError (name : String)
  | keyError (key : String)
  | unboundLocalError (name : String)
  | valueError (message : String)
  | typeError (message : String)
  | zeroDivisionError
  | indexError
  | assertionError
  | timeout
  | external (message : String)
  deriving DecidableEq, Repr

/-- `getattr(obj, name)` where the attribute may be missing. -/
def attr {α : Type} (name : String) (value : Option α) : Except PyErr α :=
  match value with
  | some value => .ok value
  | none => .error (.attributeError name)

theorem attr_ok {α : Type} {name : String} {value : Option α} {found : α}
    (has : attr name value = .ok found) : value = some found := by
  cases value with
  | none => cases has
  | some value => rw [Except.ok.inj has]

theorem attr_getD {α : Type} {name : String} {value : Option α} {found : α} (default : α)
    (has : attr name value = .ok found) : value.getD default = found := by
  rw [attr_ok has]
  rfl

/-- `d[key]` for a key that may be missing. -/
def entryOf {α : Type} (key : String) (value : Option α) : Except PyErr α :=
  match value with
  | some value => .ok value
  | none => .error (.keyError key)

/-- `a / b` on integers: rounded down. -/
def floorDiv (a b : Int) : Except PyErr Int :=
  if b = 0 then .error .zeroDivisionError else .ok (Int.fdiv a b)

def trueDiv (a b : Rat) : Except PyErr Rat :=
  if b = 0 then .error .zeroDivisionError else .ok (a / b)

/-- `int(q)`: rounded towards zero. -/
def truncate (q : Rat) : Int := if 0 ≤ q then ⌊q⌋ else ⌈q⌉

/-- What YAML and JSON documents hold. A dictionary is the list of its entries, one for each key. -/
inductive Data where
  | none
  | num (value : Rat)
  | str (value : String)
  | list (items : List Data)
  | dict (entries : List (String × Data))

namespace Data

def lookup (key : String) : List (String × Data) → Option Data
  | [] => Option.none
  | (name, value) :: rest => if name = key then some value else lookup key rest

/-- `entries[key] = value`. -/
def assign (key : String) (value : Data) : List (String × Data) → List (String × Data)
  | [] => [(key, value)]
  | (name, old) :: rest =>
    if name = key then (key, value) :: rest else (name, old) :: assign key value rest

def getItem (data : Data) (key : String) : Except PyErr Data :=
  match data with
  | dict entries =>
    match lookup key entries with
    | some value => .ok value
    | Option.none => .error (.keyError key)
  | _ => .error (.typeError "string index")

def toNum (data : Data) : Except PyErr Rat :=
  match data with
  | num value => .ok value
  | _ => .error (.typeError "a number is required")

def toStr (data : Data) : Except PyErr String :=
  match data with
  | str value => .ok value
  | _ => .error (.typeError "expected string or buffer")

/-- What `for key in data` runs over, where the keys have to be strings. -/
def keys (data : Data) : Except PyErr (List String) :=
  match data with
  | dict entries => .ok (entries.map Prod.fst)
  | list items => items.mapM toStr
  | str value => .ok (value.toList.map String.singleton)
  | _ => .error (.typeError "object is not iterable")

def toList (data : Data) : Except PyErr (List Data) :=
  match data with
  | list items => .ok items
  | _ => .error (.typeError "object is not iterable")

/-- `float(data)`; strings are read by `read`. -/
def toFloat (read : List Char → Option Rat) (data : Data) : Except PyErr Rat :=
  match data with
  | num value => .ok value
  | str value =>
    match read value.toList with
    | some q => .ok q
    | Option.none => .error (.valueError "could not convert string to float")
  | _ => .error (.typeError "float() argument must be a string or a number")

/-- `a, b, ... = data` with `n` names. -/
def unpack (n : Nat) (data : Data) : Except PyErr (List Data) := do
  let items ← data.toList
  if items.length = n then .ok items
  else .error (.valueError "wrong number of values to unpack")

def item (data : Data) (i : Nat) : Except PyErr Data := do
  let items ← data.toList
  match items[i]? with
  | some value => .ok value
  | Option.none => .error .indexError

def last (data : Data) : Except PyErr Data := do
  let items ← data.toList
  match items.getLast? with
  | some value => .ok value
  | Option.none => .error .indexError

@[simp] theorem lookup_nil (key : String) : lookup key [] = Option.none := rfl

@[simp] theorem lookup_cons (key name : String) (value : Data) (rest : List (String × Data)) :
    lookup key ((name, value) :: rest) = if name = key then some value else lookup key rest := rfl

theorem lookup_of_mem {key : String} {value : Data} {entries : List (String × Data)}
    (distinct : (entries.map Prod.fst).Nodup) (member : (key, value) ∈ entries) :
    lookup key entries = some value := by
  induction entries with
  | nil => cases member
  | cons entry entries ih =>
    obtain ⟨name, other⟩ := entry
    rw [List.map_cons, List.nodup_cons] at distinct
    rcases List.mem_cons.mp member with same | later
    · cases same
      simp
    · have differ : name ≠ key := by
        intro same
        exact distinct.1 (List.mem_map.mpr ⟨_, later, same.symm⟩)
      rw [lookup_cons, if_neg differ, ih distinct.2 later]

theorem getItem_of_mem {key : String} {value : Data} {entries : List (String × Data)}
    (distinct : (entries.map Prod.fst).Nodup) (member : (key, value) ∈ entries) :
    (dict entries).getItem key = .ok value := by
  simp only [getItem, lookup_of_mem distinct member]

theorem assign_of_not_mem {key : String} (value : Data) {entries : List (String × Data)}
    (absent : key ∉ entries.map Prod.fst) : assign key value entries = entries ++ [(key, value)] := by
  induction entries with
  | nil => rfl
  | cons entry entries ih =>
    obtain ⟨name, old⟩ := entry
    simp only [List.map_cons, List.mem_cons, not_or] at absent
    simp only [assign, if_neg (Ne.symm absent.1), ih absent.2, List.cons_append]

theorem foldlM_assign {α : Type} {f : List (String × Data) → α → Except PyErr (List (String × Data))}
    {xs : List α} {added : List (String × Data)}
    (steps : List.Forall₂ (fun x entry => ∀ entries, f entries x = .ok (assign entry.1 entry.2 entries)) xs added)
    (entries : List (String × Data)) (distinct : ((entries ++ added).map Prod.fst).Nodup) :
    xs.foldlM f entries = .ok (entries ++ added) := by
  induction steps generalizing entries with
  | nil => simp [Pure.pure, Except.pure]
  | @cons x entry xs added step rest ih =>
    have absent : entry.1 ∉ entries.map Prod.fst := by
      rw [List.map_append, List.map_cons, List.nodup_append] at distinct
      exact fun member => distinct.2.2 _ member _ List.mem_cons_self rfl
    have later := ih (entries ++ [entry]) (by simpa using distinct)
    rw [List.foldlM_cons, step, assign_of_not_mem _ absent]
    simpa [Bind.bind, Except.bind] using later

end Data

theorem bind_ok {ε α β : Type} {x : Except ε α} {f : α → Except ε β} {b : β} (bound : (x >>= f) = .ok b) :
    ∃ a, x = .ok a ∧ f a = .ok b := by
  cases x with
  | error e => cases bound
  | ok a => exact ⟨a, rfl, bound⟩

end RdmaExps.Python
