import RdmaExps.Python.Split
import RdmaExps.Python.Value
import RdmaExps.Python.Dict

namespace RdmaExps.Segments

open RdmaExps.Python

def sigb : List String := ["16KB", "64KB", "256KB"]

def getNumSigFromLname (lname : String) : Except PyErr Int :=
  let s := (lname.toList.splitOn '.').getLast (List.splitOn_ne_nil _ _)
  match parseInt (upTo 'S' s) with
  | some n => .ok n
  | none => .error (.valueError "invalid literal for int() with base 10")

def getSegSizeStr (segSize : Int) : String :=
  if segSize < 2 ^ 20 then decimal (Int.fdiv segSize 1024) ++ "KB"
  else decimal (Int.fdiv (Int.fdiv segSize 1024) 1024) ++ "MB"

/-- A line of the plot: `{'lname': .., 'xs': .., 'ys': ..}`. -/
structure Line (Y : Type) where
  lname : String
  xs : List Int
  ys : List Y

/-- An entry of `new_lines`; the keys after the first come and go. -/
structure NewLine (Y : Type) where
  lname : String
  x2y : Option (Dict Int Y)
  xs : Option (List Int)
  ys : Option (List Y)

abbrev NewLines (Y : Type) := Dict Int (NewLine Y)

structure Converted (Y : Type) where
  lines : List (NewLine Y)
  xlabel : String

variable {Y : Type}

def addPoint (numSig : Int) (newLines : NewLines Y) (point : Int × Y) :
    Except PyErr (NewLines Y) := do
  let verbSize := point.1
  let signalSize := verbSize * numSig
  if getSegSizeStr signalSize ∈ sigb then
    let newLines := if signalSize ∈ newLines then newLines else
      newLines.insert signalSize ⟨getSegSizeStr signalSize, some ∅, none, none⟩
    let newLine ← entryOf (decimal signalSize) (newLines.lookup signalSize)
    let x2y ← entryOf "x2y" newLine.x2y
    return newLines.insert signalSize { newLine with x2y := some (x2y.insert verbSize point.2) }
  else
    return newLines

def addLine (newLines : NewLines Y) (line : Line Y) : Except PyErr (NewLines Y) := do
  let numSig ← getNumSigFromLname line.lname
  (line.xs.zip line.ys).foldlM (addPoint numSig) newLines

/-- The body of the second loop, which replaces `x2y` by `xs` and `ys`. -/
def finishLine (nl : NewLine Y) : Except PyErr (NewLine Y) := do
  let x2y ← entryOf "x2y" nl.x2y
  let xs := x2y.keys.insertionSort (· ≤ ·)
  let ys ← xs.mapM fun x => entryOf (decimal x) (x2y.lookup x)
  return { nl with xs := some xs, ys := some ys, x2y := none }

def convertPltdata (lines : List (Line Y)) : Except PyErr (Converted Y) := do
  let newLines ← lines.foldlM addLine ∅
  let lines ← newLines.entries.mapM fun entry => finishLine entry.2
  return ⟨lines, "Verb Size (B)"⟩

theorem getNumSigFromLname_append (front : String) (n : Nat) :
    getNumSigFromLname (front ++ "." ++ decimal n ++ "Sig") = .ok (n : Int) := by
  have dotFree : '.' ∉ (decimal n).toList ++ "Sig".toList := by
    rw [List.mem_append, not_or]
    exact ⟨not_mem_decimal n (by decide) (by decide), by decide⟩
  have parts : (front ++ "." ++ decimal n ++ "Sig").toList.splitOn '.' =
      front.toList.splitOn '.' ++ [(decimal n).toList ++ "Sig".toList] := by
    have shape : (front ++ "." ++ decimal n ++ "Sig").toList =
        front.toList ++ '.' :: ((decimal n).toList ++ "Sig".toList) := by simp
    rw [shape, List.splitOn_append_cons_self, List.splitOn_eq_singleton dotFree]
  have cut : upTo 'S' ((decimal n).toList ++ "Sig".toList) = (decimal n).toList :=
    upTo_append (not_mem_decimal n (by decide) (by decide)) ['i', 'g']
  simp only [getNumSigFromLname, parts, List.getLast_append_singleton, cut, parseInt_decimal]

example : getSegSizeStr 16384 = "16KB" ∧ getSegSizeStr 17407 = "16KB" := by decide

end RdmaExps.Segments
