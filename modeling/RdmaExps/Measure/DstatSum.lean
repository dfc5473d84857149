import RdmaExps.Measure.Dstat

namespace RdmaExps.Measure

open RdmaExps.Python

/-- The title of a core's column: `cpu<core>-usage` with dashes around it. -/
def Title (core : Nat) (text : List Char) : Prop :=
  ∃ before after, text = List.replicate before '-' ++ '-' :: ("cpu".toList ++ (decimal core).toList ++
    ("-usage".toList ++ List.replicate after '-'))

def Cell (figures : List Rat) (text : List Char) : Prop :=
  ∃ left body right words, text = left ++ body ++ right ∧ (∀ c ∈ left, isBlank c = true) ∧
    (∀ c ∈ right, isBlank c = true) ∧ Spaced words body ∧ (∀ w ∈ words, Word w) ∧
    List.Forall₂ (fun q w => parseFloat w = some q) figures words ∧ ':' ∉ text ∧ '\n' ∉ text

def Row (figures : List (List Rat)) (text : List Char) : Prop :=
  ∃ cells, List.Forall₂ Cell figures cells ∧ text = [':'].intercalate cells

/-- A well-formed output of `dstat` and what stands in it: row, core and counter give a number. -/
structure DstatOutput where
  cores : List Nat
  names : List (List Char)
  table : List (List (List Rat))
  titles : List (List Char)
  groups : List (List Char)
  rows : List (List Char)
  cores_ne_nil : cores ≠ []
  cores_nodup : cores.Nodup
  names_nodup : names.Nodup
  names_word : ∀ name ∈ names, Word name ∧ ':' ∉ name
  idl_mem : "idl".toList ∈ names
  three_rows : 3 ≤ table.length
  row_length : ∀ row ∈ table, row.length = cores.length
  figures_length : ∀ row ∈ table, ∀ figures ∈ row, figures.length = names.length
  titles_read : List.Forall₂ Title cores titles
  groups_read : groups.length = cores.length ∧ ∀ group ∈ groups, Spaced names group ∧ '\n' ∉ group
  rows_read : List.Forall₂ Row table rows

namespace DstatOutput

variable (d : DstatOutput)

def text : List Char :=
  endLines ([' '].intercalate d.titles :: [':'].intercalate d.groups :: d.rows)

def utilization (figures : List Rat) : List (String × Data) :=
  List.zipWith (fun name q => (String.ofList name, Data.num q)) d.names figures

def columns (row : List (List Rat)) : List (String × Data) :=
  List.zipWith (fun core figures => ("cpu" ++ decimal (core : Nat), Data.dict (d.utilization figures))) d.cores row

def sample (row : List (List Rat)) (iter : Nat) : Data :=
  .dict (d.columns row ++ [("iter", .num iter)])

def samples : List Data := d.table.zipIdx.map fun row => d.sample row.1 (row.2 + 1)

def idl (figures : List Rat) : Rat := figures.getD (d.names.idxOf "idl".toList) 0

def busy (row : List (List Rat)) : Rat := (row.map fun figures => 100 - d.idl figures).sum

/-- The samples are those of the rows, and the figures are the sums over the cores from the third
    row on. -/
def Reported (getPercentile : List Rat → Rat → Rat) : Prop :=
  sampleDstat d.text = .ok d.samples ∧
  ∃ results, processDstatOutputCommon getPercentile d.samples = .ok results ∧
    results.getItem "ivals" = .ok (.list ((d.table.drop 2).map fun row => .num (d.busy row)))

end DstatOutput

theorem run_cpuNumber {digits : List Char} (nonempty : digits ≠ [])
    (all : ∀ c ∈ digits, c.isDigit = true) {rest : List Char}
    (stop : ∀ c tail, rest = c :: tail → c.isDigit = false) :
    ∃ left others, cpuNumberRe.run ('-' :: ("cpu".toList ++ digits ++ rest)) = ([digits], left) :: others := by
  obtain ⟨longer, number⟩ := Re.run_digits nonempty all stop
  obtain ⟨left, others, ends⟩ := Re.run_any rest
  have text : '-' :: ("cpu".toList ++ digits ++ rest) = "-cpu".toList ++ (digits ++ rest) := by simp
  rw [text, cpuNumberRe, Re.run_seq, Re.run_text_append]
  simp [Re.run, number, ends]

theorem run_cpuNumber_of_suffix (back : List Char) {tail : List Char} (clear : 'c' ∉ back)
    (suffix : tail <:+ 'c' :: back) : cpuNumberRe.run tail = [] := by
  have absent : ¬ "-cpu".toList <+: tail := by
    rintro ⟨others, rfl⟩
    rcases List.suffix_cons_iff.mp suffix with whole | shorter
    · simp at whole
    · exact clear (shorter.subset (by simp))
  rw [cpuNumberRe, Re.run_seq, Re.run_text_of_not_prefix absent]
  rfl

theorem cpuTitle_groups (front : List Char) {digits : List Char} (rest : List Char) (nonempty : digits ≠ [])
    (all : ∀ c ∈ digits, c.isDigit = true) (stop : ∀ c tail, rest = c :: tail → c.isDigit = false)
    (line : ∀ c ∈ front ++ rest, c ≠ '\n') (clear : 'c' ∉ rest) :
    cpuTitleRe.groups (front ++ '-' :: ("cpu".toList ++ digits ++ rest)) = some [digits] := by
  have not_digit : ∀ c, c.isDigit = false → c ∉ digits := by
    intro c other member
    rw [all c member] at other
    cases other
  obtain ⟨left, others, run⟩ := run_cpuNumber nonempty all stop
  have whole : (cpuTitleRe.run (front ++ '-' :: ("cpu".toList ++ digits ++ rest))).head? =
      (cpuNumberRe.run ('-' :: ("cpu".toList ++ digits ++ rest))).head? := by
    apply Re.run_any_seq
    · intro c member same
      subst same
      have cleared := not_digit '\n' (by decide)
      have outside : '\n' ∉ front ++ rest := fun found => line _ found rfl
      simp_all
    · intro tail suffix
      apply run_cpuNumber_of_suffix ("pu".toList ++ digits ++ rest) ?_ suffix
      have cleared := not_digit 'c' (by decide)
      simp [cleared, clear]
    · simp only [run, ne_eq, reduceCtorEq, not_false_eq_true]
  rw [Re.groups, whole, run]
  rfl

theorem cpuOf_title {core : Nat} {text : List Char} (title : Title core text) :
    cpuOf text = .ok ("cpu" ++ decimal core) := by
  obtain ⟨before, after, rfl⟩ := title
  have groups := cpuTitle_groups (List.replicate before '-')
    ("-usage".toList ++ List.replicate after '-') (decimal_natCast_ne_nil core) (decimal_digits core)
    ?_ ?_ ?_
  · simp only [cpuOf, groups, List.headD_cons, parseInt_decimal]
  · intro c tail same
    cases same
    rfl
  · simp +contextual [or_imp]
  · simp [List.mem_replicate]

theorem addCounter_assign {utilStrSplit : List (List Char)} {name word : List Char} {i : Nat} {q : Rat}
    (found : utilStrSplit[i]? = some word) (number : parseFloat word = some q)
    (utilization : List (String × Data)) :
    addCounter utilStrSplit utilization (name, i) =
      .ok (Data.assign (String.ofList name) (.num q) utilization) := by
  simp only [addCounter, index, found, number, Bind.bind, Except.bind, Pure.pure, Except.pure]

theorem ofList_injective : Function.Injective String.ofList := fun _ _ => String.ofList_inj.mp

namespace DstatOutput

variable (d : DstatOutput)

theorem utilization_keys {figures : List Rat} (length : figures.length = d.names.length) :
    (d.utilization figures).map Prod.fst = d.names.map String.ofList := by
  rw [utilization, List.map_zipWith]
  apply List.ext_getElem
  · simp [length]
  · intro i bound bound'
    simp

theorem utilization_nodup {figures : List Rat} (length : figures.length = d.names.length) :
    ((d.utilization figures).map Prod.fst).Nodup := by
  rw [utilization_keys d length]
  exact d.names_nodup.map ofList_injective

theorem addCounters_run {figures : List Rat} {words : List (List Char)}
    (length : figures.length = d.names.length)
    (numbers : List.Forall₂ (fun q w => parseFloat w = some q) figures words) :
    d.names.zipIdx.foldlM (addCounter words) [] = .ok (d.utilization figures) := by
  obtain ⟨same, each⟩ := List.forall₂_iff_get.mp numbers
  refine Data.foldlM_assign (List.forall₂_iff_get.mpr ⟨?_, ?_⟩) [] ?_
  · simp [length]
  · intro i bound bound' entries
    have here : i < figures.length := by
      rw [length]
      simpa using bound
    have number := each i here (same ▸ here)
    simp only [List.get_eq_getElem, List.getElem_zipIdx, List.getElem_zipWith, Nat.zero_add]
    exact addCounter_assign (List.getElem?_eq_getElem (same ▸ here)) number entries
  · exact d.utilization_nodup length

theorem columns_keys {row : List (List Rat)} (length : row.length = d.cores.length) :
    (d.columns row).map Prod.fst = d.cores.map fun core : Nat => "cpu" ++ decimal core := by
  rw [columns, List.map_zipWith]
  apply List.ext_getElem
  · simp [length]
  · intro i bound bound'
    simp

theorem cpu_injective : Function.Injective fun core : Nat => "cpu" ++ decimal core := by
  intro core core' same
  have digits := congrArg String.toList same
  simp only [String.toList_append, List.append_cancel_left_eq] at digits
  exact Int.ofNat_inj.mp (decimal_injective (String.toList_inj.mp digits))

theorem columns_nodup {row : List (List Rat)} (length : row.length = d.cores.length) :
    ((d.columns row).map Prod.fst).Nodup := by
  rw [columns_keys d length]
  exact d.cores_nodup.map cpu_injective

theorem addColumn_assign {core : Nat} {figures : List Rat} {title group cell : List Char}
    {groups cells : List (List Char)} {i : Nat} (isTitle : Title core title)
    (found : groups[i]? = some group) (spaced : Spaced d.names group)
    (found' : cells[i]? = some cell) (isCell : Cell figures cell)
    (length : figures.length = d.names.length) (data : List (String × Data)) :
    addColumn groups cells data (title, i) =
      .ok (Data.assign ("cpu" ++ decimal core) (.dict (d.utilization figures)) data) := by
  obtain ⟨left, body, right, words, rfl, before, after, body_spaced, plain, numbers, -, -⟩ := isCell
  have names := splitBlanks_spaced spaced fun name member => (d.names_word name member).1
  have stripped := strip_padded body_spaced plain before after
  have split := splitBlanks_spaced body_spaced plain
  simp only [addColumn, index, found, found', cpuOf_title isTitle, names, stripped, split,
    d.addCounters_run length numbers, Bind.bind, Except.bind, Pure.pure, Except.pure]

theorem addColumns_run {row : List (List Rat)} {cells : List (List Char)}
    (length : row.length = d.cores.length) (figures_length : ∀ figures ∈ row, figures.length = d.names.length)
    (read : List.Forall₂ Cell row cells) :
    d.titles.zipIdx.foldlM (addColumn d.groups cells) [] = .ok (d.columns row) := by
  obtain ⟨same, each⟩ := List.forall₂_iff_get.mp read
  obtain ⟨titled, titles⟩ := List.forall₂_iff_get.mp d.titles_read
  obtain ⟨grouped, groups⟩ := d.groups_read
  refine Data.foldlM_assign (List.forall₂_iff_get.mpr ⟨?_, ?_⟩) [] ?_
  · simp [length, titled]
  · intro i bound bound' entries
    have here : i < d.cores.length := by
      rw [titled]
      simpa using bound
    have group : i < d.groups.length := by omega
    have cell : i < cells.length := by omega
    simp only [List.get_eq_getElem, List.getElem_zipIdx, List.getElem_zipWith, Nat.zero_add]
    exact d.addColumn_assign (titles i here (by omega)) (List.getElem?_eq_getElem group)
      (groups _ (List.getElem_mem group)).1 (List.getElem?_eq_getElem cell) (each i (by omega) cell)
      (figures_length _ (List.getElem_mem _)) entries
  · exact d.columns_nodup length

theorem iter_not_mem {row : List (List Rat)} (length : row.length = d.cores.length) :
    "iter" ∉ (d.columns row).map Prod.fst := by
  rw [d.columns_keys length]
  intro member
  obtain ⟨core, -, same⟩ := List.mem_map.mp member
  have first := congrArg (fun key => key.toList.head?) same
  simp at first

theorem titles_length : d.titles.length = d.cores.length := d.titles_read.length_eq.symm

theorem some_cores : 0 < d.cores.length := List.length_pos_iff.mpr d.cores_ne_nil

theorem sampleRow_row {row : List (List Rat)} {text : List Char} (read : Row row text)
    (length : row.length = d.cores.length) (figures_length : ∀ figures ∈ row, figures.length = d.names.length)
    (k : Nat) : sampleRow d.titles d.groups (text, k) = .ok (some (d.sample row (k + 1))) := by
  obtain ⟨cells, each, rfl⟩ := read
  have cells_length := each.length_eq
  have clear : ∀ cell ∈ cells, ':' ∉ cell := by
    intro cell member
    obtain ⟨i, bound, rfl⟩ := List.mem_iff_getElem.mp member
    obtain ⟨left, body, right, words, -, -, -, -, -, -, colon, -⟩ :=
      (List.forall₂_iff_get.mp each).2 i (by omega) bound
    exact colon
  have nonempty : cells ≠ [] := by
    have some := d.some_cores
    rw [← List.length_pos_iff]
    omega
  have split := List.splitOn_intercalate ':' clear nonempty
  have same : ¬ cells.length ≠ d.titles.length := by
    have titled := d.titles_length
    omega
  simp only [sampleRow, split, if_neg same, d.addColumns_run length figures_length each, Bind.bind,
    Except.bind, Pure.pure, Except.pure, Data.assign_of_not_mem _ (d.iter_not_mem length), sample]
  push_cast
  rfl

/-- The piece after the last newline: left out when there are two cores, an error with one. -/
theorem sampleRow_end (k : Nat) :
    sampleRow d.titles d.groups ([], k) =
      if 2 ≤ d.cores.length then .ok none else .error (.valueError "could not convert string to float") := by
  have titled := d.titles_length
  have some := d.some_cores
  split
  · have differ : ([[]] : List (List Char)).length ≠ d.titles.length := by
      rw [List.length_singleton]
      omega
    simp only [sampleRow, List.splitOn_nil, if_pos differ, Pure.pure, Except.pure]
  · obtain ⟨title, titles⟩ := List.length_eq_one_iff.mp (by omega : d.titles.length = 1)
    obtain ⟨group, groups⟩ := List.length_eq_one_iff.mp (by have := d.groups_read.1; omega : d.groups.length = 1)
    obtain ⟨core, cores⟩ := List.length_eq_one_iff.mp (by omega : d.cores.length = 1)
    have isTitle : Title core title := by
      have read := d.titles_read
      rw [titles, cores] at read
      simpa using read
    have names : splitBlanks group = d.names :=
      splitBlanks_spaced (d.groups_read.2 group (by simp [groups])).1 fun name member => (d.names_word name member).1
    obtain ⟨name, others, named⟩ := List.exists_cons_of_ne_nil (List.ne_nil_of_mem d.idl_mem)
    have empty : parseFloat [] = none := rfl
    rw [titles, groups]
    simp [sampleRow, addColumn, addCounter, index, cpuOf_title isTitle, names, named, strip, splitBlanks, empty,
      Bind.bind, Except.bind]

theorem not_mem_intercalate {c sep : Char} (differ : c ≠ sep) {parts : List (List Char)}
    (clear : ∀ part ∈ parts, c ∉ part) : c ∉ [sep].intercalate parts := by
  induction parts with
  | nil => simp [List.intercalate]
  | cons part parts ih =>
    have first := clear part (by simp)
    have rest := ih fun other member => clear other (by simp [member])
    cases parts with
    | nil => simpa [List.intercalate] using first
    | cons next parts =>
      simp only [List.intercalate_cons_cons, List.mem_append, List.mem_singleton, not_or]
      exact ⟨⟨first, differ⟩, rest⟩

theorem Title.clear {core : Nat} {text : List Char} (title : Title core text) : ' ' ∉ text ∧ '\n' ∉ text := by
  obtain ⟨before, after, rfl⟩ := title
  have space := not_mem_decimal (c := ' ') core (by decide) (by decide)
  have newline := not_mem_decimal (c := '\n') core (by decide) (by decide)
  constructor <;> simp [space, newline, List.mem_replicate]

theorem title_of_mem {title : List Char} (member : title ∈ d.titles) : ∃ core, Title core title := by
  obtain ⟨i, bound, rfl⟩ := List.mem_iff_getElem.mp member
  have titled := d.titles_length
  exact ⟨_, (List.forall₂_iff_get.mp d.titles_read).2 i (by omega) bound⟩

theorem rows_clear : ∀ row ∈ d.rows, '\n' ∉ row := by
  intro row member
  obtain ⟨i, bound, rfl⟩ := List.mem_iff_getElem.mp member
  obtain ⟨rows_length, each⟩ := List.forall₂_iff_get.mp d.rows_read
  obtain ⟨cells, cells_read, text⟩ := each i (by omega) bound
  rw [List.get_eq_getElem] at text
  rw [text]
  apply not_mem_intercalate (by decide)
  intro cell found
  obtain ⟨j, inside, rfl⟩ := List.mem_iff_getElem.mp found
  obtain ⟨cells_length, cell_read⟩ := List.forall₂_iff_get.mp cells_read
  obtain ⟨left, body, right, words, -, -, -, -, -, -, -, newline⟩ := cell_read j (by omega) inside
  exact newline

theorem text_split : d.text.splitOn '\n' =
    [' '].intercalate d.titles :: [':'].intercalate d.groups :: (d.rows ++ [[]]) := by
  apply splitOn_endLines
  intro line member
  rcases List.mem_cons.mp member with rfl | member
  · apply not_mem_intercalate (by decide)
    intro title found
    obtain ⟨core, read⟩ := d.title_of_mem found
    exact (Title.clear read).2
  rcases List.mem_cons.mp member with rfl | member
  · exact not_mem_intercalate (by decide) fun group found => (d.groups_read.2 group found).2
  · exact d.rows_clear line member

theorem headers_split : ([' '].intercalate d.titles).splitOn ' ' = d.titles := by
  apply List.splitOn_intercalate
  · intro title member
    obtain ⟨core, read⟩ := d.title_of_mem member
    exact (Title.clear read).1
  · rw [← List.length_pos_iff, d.titles_length]
    exact d.some_cores

theorem utypes_split : ([':'].intercalate d.groups).splitOn ':' = d.groups := by
  apply List.splitOn_intercalate
  · intro group member
    exact (d.groups_read.2 group member).1.not_mem (by decide) fun name found => (d.names_word name found).2
  · rw [← List.length_pos_iff, d.groups_read.1]
    exact d.some_cores

theorem sampleRows_run :
    d.rows.zipIdx.mapM (sampleRow d.titles d.groups) = .ok (d.samples.map some) := by
  obtain ⟨rows_length, each⟩ := List.forall₂_iff_get.mp d.rows_read
  apply mapM_of_forall₂
  refine List.forall₂_iff_get.mpr ⟨by simp [samples, rows_length], ?_⟩
  intro i bound bound'
  have inside : i < d.rows.length := by simpa using bound
  have member : d.table[i] ∈ d.table := List.getElem_mem _
  simp only [List.get_eq_getElem, List.getElem_zipIdx, samples, List.getElem_map, Nat.zero_add]
  exact d.sampleRow_row (each i (by omega) inside) (d.row_length _ member) (d.figures_length _ member) i

theorem sampleDstat_eq : sampleDstat d.text =
    if 2 ≤ d.cores.length then .ok d.samples else .error (.valueError "could not convert string to float") := by
  have same : ¬ d.titles.length ≠ d.groups.length := by
    have titled := d.titles_length
    have grouped := d.groups_read.1
    omega
  have rows : (d.rows ++ [[]]).zipIdx = d.rows.zipIdx ++ [([], d.rows.length)] := by
    simp [List.zipIdx_append]
  simp only [sampleDstat, d.text_split, d.headers_split, d.utypes_split, if_neg same, rows, List.mapM_append,
    d.sampleRows_run, List.mapM_cons, List.mapM_nil, d.sampleRow_end, Bind.bind, Except.bind, Pure.pure,
    Except.pure]
  by_cases several : 2 ≤ d.cores.length
  · simp [several, List.reduceOption]
  · simp [several]

theorem sample_nodup {row : List (List Rat)} (length : row.length = d.cores.length) (iter : Data) :
    ((d.columns row ++ [("iter", iter)]).map Prod.fst).Nodup := by
  rw [List.map_append, List.nodup_append]
  refine ⟨d.columns_nodup length, by simp, ?_⟩
  intro key member other other_member same
  rw [List.map_singleton, List.mem_singleton] at other_member
  rw [same, other_member] at member
  exact d.iter_not_mem length member

theorem idl_mem_utilization {figures : List Rat} (length : figures.length = d.names.length) :
    ("idl", Data.num (d.idl figures)) ∈ d.utilization figures := by
  have bound : d.names.idxOf "idl".toList < d.names.length := List.idxOf_lt_length_of_mem d.idl_mem
  have inside : d.names.idxOf "idl".toList < figures.length := length ▸ bound
  refine List.mem_iff_getElem.mpr ⟨d.names.idxOf "idl".toList, ?_, ?_⟩
  · rw [utilization, List.length_zipWith, length, Nat.min_self]
    exact bound
  · simp only [utilization, List.getElem_zipWith, List.getElem_idxOf, String.ofList_toList, idl,
      List.getD_eq_getElem _ _ inside]

theorem busyOf_core {row : List (List Rat)} (length : row.length = d.cores.length)
    (figures_length : ∀ figures ∈ row, figures.length = d.names.length) (iter i : Nat)
    (bound : i < d.cores.length) (bound' : i < row.length) :
    busyOf (d.sample row iter) ("cpu" ++ decimal d.cores[i]) = .ok (100 - d.idl row[i]) := by
  have member : ("cpu" ++ decimal d.cores[i], Data.dict (d.utilization row[i])) ∈
      d.columns row ++ [("iter", .num iter)] := by
    apply List.mem_append_left
    refine List.mem_iff_getElem.mpr ⟨i, ?_, ?_⟩
    · rw [columns, List.length_zipWith, length, Nat.min_self]
      exact bound
    · simp only [columns, List.getElem_zipWith]
  have inside := figures_length _ (List.getElem_mem bound')
  have column := Data.getItem_of_mem (d.sample_nodup length _) member
  have counter := Data.getItem_of_mem (d.utilization_nodup inside) (d.idl_mem_utilization inside)
  simp only [busyOf, sample, column, counter, Data.toNum, Bind.bind, Except.bind, Pure.pure, Except.pure]

theorem cpuKey_core (core : Nat) : (cpuKeyRe.groups ("cpu" ++ decimal core).toList).isSome = true := by
  apply Re.groups_any_seq
  obtain ⟨left, others, run⟩ := Re.run_any (decimal core).toList
  rw [String.toList_append, Re.run_seq, Re.run_text_append]
  simp [run]

theorem busyCpu_sample {row : List (List Rat)} (length : row.length = d.cores.length)
    (figures_length : ∀ figures ∈ row, figures.length = d.names.length) (iter : Nat) :
    busyCpu (d.sample row iter) = .ok (d.busy row) := by
  have keys : (d.sample row iter).keys = .ok ((d.cores.map fun core : Nat => "cpu" ++ decimal core) ++ ["iter"]) := by
    rw [sample, Data.keys, List.map_append, d.columns_keys length]
    rfl
  have kept : ((d.cores.map fun core : Nat => "cpu" ++ decimal core) ++ ["iter"]).filter
      (fun key => (cpuKeyRe.groups key.toList).isSome) = d.cores.map fun core : Nat => "cpu" ++ decimal core := by
    have core_kept : ∀ key ∈ d.cores.map (fun core : Nat => "cpu" ++ decimal core),
        (cpuKeyRe.groups key.toList).isSome = true := by
      intro key member
      obtain ⟨core, -, rfl⟩ := List.mem_map.mp member
      exact cpuKey_core core
    have iter_left : ["iter"].filter (fun key => (cpuKeyRe.groups key.toList).isSome) = [] := by decide
    rw [List.filter_append, List.filter_eq_self.mpr core_kept, iter_left, List.append_nil]
  have each : (d.cores.map fun core : Nat => "cpu" ++ decimal core).mapM (busyOf (d.sample row iter)) =
      .ok (row.map fun figures => 100 - d.idl figures) := by
    apply mapM_of_forall₂
    refine List.forall₂_iff_get.mpr ⟨by simp [length], ?_⟩
    intro i bound bound'
    simp only [List.get_eq_getElem, List.getElem_map]
    exact d.busyOf_core length figures_length iter i (by simpa using bound) (by simpa using bound')
  simp only [busyCpu, keys, kept, each, Bind.bind, Except.bind, Pure.pure, Except.pure, busy]

theorem ivals_samples (getPercentile : List Rat → Rat → Rat) :
    ∃ results, processDstatOutputCommon getPercentile d.samples = .ok results ∧
      results.getItem "ivals" = .ok (.list ((d.table.drop 2).map fun row => .num (d.busy row))) := by
  have run : (d.samples.drop 2).mapM busyCpu = .ok ((d.table.drop 2).map d.busy) := by
    apply mapM_of_forall₂
    refine List.forall₂_iff_get.mpr ⟨by simp [samples], ?_⟩
    intro i bound bound'
    have inside : 2 + i < d.table.length := by
      simp only [List.length_map, List.length_drop] at bound'
      omega
    have member : d.table[2 + i] ∈ d.table := List.getElem_mem _
    simp only [List.get_eq_getElem, List.getElem_drop, samples, List.getElem_map, List.getElem_zipIdx]
    exact d.busyCpu_sample (d.row_length _ member) (d.figures_length _ member) _
  have some_ivals : (((d.table.drop 2).map d.busy).length : Rat) ≠ 0 := by
    have three := d.three_rows
    rw [List.length_map, List.length_drop]
    exact_mod_cast (by omega : d.table.length - 2 ≠ 0)
  simp only [processDstatOutputCommon, run, trueDiv, if_neg some_ivals, Bind.bind, Except.bind, Pure.pure,
    Except.pure]
  refine ⟨_, rfl, ?_⟩
  simp [Data.getItem, Function.comp_def]

/-- The figures of a well-formed output are the sums over its cores exactly when there are two or
    more: with one core the text after the last newline passes for a row. -/
theorem reported_iff (getPercentile : List Rat → Rat → Rat) :
    d.Reported getPercentile ↔ 2 ≤ d.cores.length := by
  rw [Reported, d.sampleDstat_eq]
  constructor
  · rintro ⟨run, -⟩
    by_contra one
    rw [if_neg one] at run
    cases run
  · intro several
    rw [if_pos several]
    exact ⟨rfl, d.ivals_samples getPercentile⟩

end DstatOutput

def oneCoreOutput : DstatOutput where
  cores := [0]
  names := ["idl".toList]
  table := [[[100]], [[100]], [[100]]]
  titles := ["-cpu0-usage-".toList]
  groups := ["idl".toList]
  rows := ["100".toList, "100".toList, "100".toList]
  cores_ne_nil := by decide
  cores_nodup := by decide
  names_nodup := by decide
  names_word := by decide
  idl_mem := by decide
  three_rows := by decide
  row_length := by decide
  figures_length := by decide
  titles_read := .cons ⟨0, 1, by decide⟩ .nil
  groups_read := ⟨rfl, by
    intro group member
    rw [List.mem_singleton.mp member]
    exact ⟨.last _, by decide⟩⟩
  rows_read := by
    have cell : Cell [100] "100".toList :=
      ⟨[], "100".toList, [], ["100".toList], rfl, by simp, by simp, .last _, by decide,
        .cons (by decide +kernel) .nil, by decide, by decide⟩
    have row : Row [[100]] "100".toList := ⟨["100".toList], .cons cell .nil, rfl⟩
    exact .cons row (.cons row (.cons row .nil))

/-- On one core the samples are lost to a ValueError. -/
theorem oneCore_fails :
    sampleDstat oneCoreOutput.text = .error (.valueError "could not convert string to float") ∧
      ∀ getPercentile, ¬ oneCoreOutput.Reported getPercentile := by
  have run : sampleDstat oneCoreOutput.text = .error (.valueError "could not convert string to float") := by
    rw [oneCoreOutput.sampleDstat_eq]
    rfl
  refine ⟨run, fun getPercentile reported => ?_⟩
  have same := reported.1
  rw [run] at same
  cases same

end RdmaExps.Measure
