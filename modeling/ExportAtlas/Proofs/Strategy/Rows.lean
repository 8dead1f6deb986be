import Mathlib.Data.List.Find
import ExportAtlas.Strategy
import ExportAtlas.Proofs.Text.Case
/-!
# The rows of a strategy

A strategy puts a path into a section of the first row that takes it, and
where no row does it falls back on the top-level folder (`sectionOf_eq`). A
row takes a path by one of the components that the strategy looks at: by
feature and layer they are the folders, as they are written; by server layer
they are all components, in lower case.

No folder name of a row has a dot in it, and a dot stays in lower case. So
the name of a file decides nothing, if there is a dot in it
(`takes_concat`), and the section of a file is that of any other in its
folder (`sectionOf_concat`).
-/

namespace ExportAtlas

namespace Strategy

variable {strategy : Strategy} {row : Row} {parts folders : List String}
  {name name' label sub : String}

/-! ## The row of a path -/

/-- The rows of a strategy, in the order in which they are tried. -/
def rows : Strategy → List Row
  | nextLike => nextRows
  | expressLike => expressRows
  | vanilla => []

/-- A component as it is compared with the folder names of a row. -/
def asCompared : Strategy → String → String
  | expressLike, part => Text.lower part
  | nextLike, part | vanilla, part => part

/-- The components of a path that may lead to a row: by server layer all of
them, else the folders. -/
def eligible : Strategy → List String → List String
  | expressLike, parts => parts
  | nextLike, parts | vanilla, parts => parts.dropLast

/-- A component of a path leads to a row. -/
def takes (strategy : Strategy) (parts : List String) (row : Row) : Bool :=
  (strategy.eligible parts).any fun part => row.folders.contains (strategy.asCompared part)

/-- The first row that takes a path. -/
def row? (strategy : Strategy) (parts : List String) : Option Row :=
  strategy.rows.find? (strategy.takes parts)

/-- The section of a path that a row takes. -/
def sectionIn : Strategy → Row → List String → String
  | nextLike, row, parts => (sectionUnder row parts).getD row.label
  | expressLike, row, _ | vanilla, row, _ => row.label

/-- The section of a path that no row takes. -/
def fallback : Strategy → List String → String
  | nextLike, parts => "Other/" ++ topLevelFolder parts
  | expressLike, parts | vanilla, parts => topLevelFolder parts

/-- A row gives a section to the paths that it takes. -/
theorem sectionUnder_eq (row : Row) (parts : List String) : sectionUnder row parts =
    (Option.guard (nextLike.takes parts) row).map fun row => nextLike.sectionIn row parts := by
  have hsome : (sectionUnder row parts).isSome = nextLike.takes parts row := by
    rw [sectionUnder, Option.isSome_map, List.findIdx?_isSome]
    rfl
  cases htakes : nextLike.takes parts row with
  | false =>
    rw [htakes, Option.isSome_eq_false_iff, Option.isNone_iff_eq_none] at hsome
    rw [hsome, Option.guard_eq_ite, htakes]
    rfl
  | true =>
    rw [htakes] at hsome
    obtain ⟨key, hkey⟩ := Option.isSome_iff_exists.mp hsome
    rw [Option.guard_eq_ite, htakes, if_pos rfl, Option.map_some, sectionIn, hkey]
    rfl

/-- **The first row decides, and the top-level folder where there is none.** -/
theorem sectionOf_eq (strategy : Strategy) (parts : List String) : strategy.sectionOf parts =
    ((strategy.row? parts).map (strategy.sectionIn · parts)).getD (strategy.fallback parts) := by
  cases strategy with
  | nextLike =>
    have hrow : nextRows.findSome? (fun row => sectionUnder row parts) =
        (nextLike.row? parts).map (nextLike.sectionIn · parts) := by
      rw [row?, ← List.findSome?_guard, List.map_findSome?]
      exact congrArg (nextRows.findSome? ·) (funext fun row => sectionUnder_eq row parts)
    rw [sectionOf, nextSection, hrow]
    rfl
  | expressLike =>
    have hrow : expressRows.find? (fun row => (parts.map Text.lower).any row.folders.contains) =
        expressLike.row? parts :=
      List.find?_congr fun row _ => List.any_map
    rw [sectionOf, expressSection, hrow]
    cases expressLike.row? parts <;> rfl
  | vanilla => rfl

theorem sectionOf_of_row (h : strategy.row? parts = some row) :
    strategy.sectionOf parts = strategy.sectionIn row parts := by
  rw [sectionOf_eq, h]
  rfl

theorem sectionOf_of_none (h : strategy.row? parts = none) :
    strategy.sectionOf parts = strategy.fallback parts := by
  rw [sectionOf_eq, h]
  rfl

/-! ## The names in the tables -/

theorem mem_rows (h : row ∈ strategy.rows) : row ∈ nextRows ++ expressRows := by
  cases strategy with
  | nextLike => exact List.mem_append_left _ h
  | expressLike => exact List.mem_append_right _ h
  | vanilla => cases h

theorem dot_notMem_folder (h : row ∈ strategy.rows) :
    ∀ folder ∈ row.folders, '.' ∉ folder.toList := by
  have hall : ∀ row ∈ nextRows ++ expressRows, ∀ folder ∈ row.folders, '.' ∉ folder.toList := by
    decide
  exact hall row (mem_rows h)

theorem slash_notMem_label (h : row ∈ strategy.rows) : '/' ∉ row.label.toList := by
  have hall : ∀ row ∈ nextRows ++ expressRows, '/' ∉ row.label.toList := by decide
  exact hall row (mem_rows h)

/-- A key with a sub-folder is cut at the slash behind the label. -/
theorem cutAt_key (h : '/' ∉ label.toList) (sub : String) :
    Text.cutAt '/' (label ++ "/" ++ sub).toList = (label.toList, some sub.toList) := by
  rw [String.toList_append, String.toList_append, List.append_assoc]
  exact Text.cutAt_append_cons h sub.toList

/-- A key says what its sub-folder is. -/
theorem eq_of_key_eq {label' sub' : String} (h : '/' ∉ label.toList) (h' : '/' ∉ label'.toList)
    (hkey : label ++ "/" ++ sub = label' ++ "/" ++ sub') : label = label' ∧ sub = sub' := by
  have hcut := cutAt_key h sub
  rw [hkey, cutAt_key h', Prod.mk.injEq, Option.some.injEq] at hcut
  exact ⟨String.toList_inj.mp hcut.1.symm, String.toList_inj.mp hcut.2.symm⟩

theorem ne_key {label' : String} (h : '/' ∉ label.toList) (sub : String) :
    label ≠ label' ++ "/" ++ sub := by
  rintro rfl
  refine h ?_
  rw [String.toList_append, String.toList_append]
  exact List.mem_append_left _ (List.mem_append_right _ (List.mem_singleton_self '/'))

/-! ## What the name of a file decides -/

/-- **The name of a file selects no row**, if there is a dot in it: a row takes
the path by one of the folders. -/
theorem takes_concat (hrow : row ∈ strategy.rows) (hname : '.' ∈ name.toList) :
    strategy.takes (folders ++ [name]) row =
      folders.any fun folder => row.folders.contains (strategy.asCompared folder) := by
  cases strategy with
  | nextLike => rw [takes, eligible, List.dropLast_concat]
  | expressLike =>
    have hlower : row.folders.contains (Text.lower name) = false := by
      rw [← Bool.not_eq_true, List.contains_iff_mem]
      exact fun hmem => dot_notMem_folder hrow _ hmem (Text.dot_mem_lower hname)
    rw [takes, eligible, List.any_append, List.any_cons, List.any_nil, asCompared, hlower,
      Bool.or_false, Bool.or_false]
  | vanilla => cases hrow

theorem row?_concat (strategy : Strategy) (folders : List String) (hname : '.' ∈ name.toList) :
    strategy.row? (folders ++ [name]) = strategy.rows.find? fun row =>
      folders.any fun folder => row.folders.contains (strategy.asCompared folder) :=
  List.find?_congr fun _ hrow => takes_concat hrow hname

/-- The top-level folder is a folder. -/
theorem topLevelFolder_concat (folders : List String) (name : String) :
    topLevelFolder (folders ++ [name]) = folders.headD rootSection := by
  cases folders with
  | nil => rfl
  | cons folder folders => cases folders <;> rfl

/-- A sub-folder is the folder behind the one that leads to the row. -/
theorem sectionUnder_concat (row : Row) (folders : List String) (name : String) :
    sectionUnder row (folders ++ [name]) =
      (folders.findIdx? row.folders.contains).map fun i =>
        match folders.drop (i + 1) with
        | folder :: _ => row.label ++ "/" ++ folder
        | [] => row.label := by
  rw [sectionUnder, List.dropLast_concat]
  refine Option.map_congr fun i hi => ?_
  obtain ⟨hlt, -, -⟩ := List.findIdx?_eq_some_iff_getElem.mp hi
  rw [List.drop_append_of_le_length (by omega)]
  cases folders.drop (i + 1) with
  | nil => rfl
  | cons folder rest => cases rest <;> rfl

theorem sectionIn_concat (strategy : Strategy) (row : Row) (folders : List String)
    (name name' : String) : strategy.sectionIn row (folders ++ [name]) =
      strategy.sectionIn row (folders ++ [name']) := by
  cases strategy with
  | nextLike => rw [sectionIn, sectionIn, sectionUnder_concat, sectionUnder_concat]
  | expressLike => rfl
  | vanilla => rfl

theorem fallback_concat (strategy : Strategy) (folders : List String) (name name' : String) :
    strategy.fallback (folders ++ [name]) = strategy.fallback (folders ++ [name']) := by
  cases strategy <;> simp only [fallback, topLevelFolder_concat]

/-- The section in a row is its label, or has a folder behind it. -/
theorem sectionIn_cases (strategy : Strategy) (row : Row) (parts : List String) :
    strategy.sectionIn row parts = row.label ∨
      ∃ folder ∈ parts.dropLast, strategy.sectionIn row parts = row.label ++ "/" ++ folder := by
  cases strategy with
  | nextLike =>
    rcases List.eq_nil_or_concat' parts with rfl | ⟨folders, name, rfl⟩
    · exact .inl rfl
    rw [sectionIn, sectionUnder_concat, List.dropLast_concat]
    cases folders.findIdx? row.folders.contains with
    | none => exact .inl rfl
    | some i =>
      rw [Option.map_some, Option.getD_some]
      cases hdrop : folders.drop (i + 1) with
      | nil => exact .inl rfl
      | cons folder rest =>
        have hmem : folder ∈ folders.drop (i + 1) := hdrop ▸ List.mem_cons_self ..
        exact .inr ⟨folder, List.mem_of_mem_drop hmem, rfl⟩
  | expressLike => exact .inl rfl
  | vanilla => exact .inl rfl

/-- Behind the slash of a key by feature and layer stands a folder. -/
theorem mem_folders_of_nextKey {head : String} (hhead : '/' ∉ head.toList)
    (h : nextLike.sectionOf (folders ++ [name]) = head ++ "/" ++ sub) :
    sub ∈ folders ∨ folders = [] ∧ sub = rootSection := by
  cases hrow : nextLike.row? (folders ++ [name]) with
  | some row =>
    have hmem : row ∈ nextLike.rows := List.mem_of_find?_eq_some hrow
    have hslash := slash_notMem_label hmem
    rw [sectionOf_of_row hrow] at h
    rcases sectionIn_cases nextLike row (folders ++ [name]) with hkey | ⟨folder, hfolder, hkey⟩
    · exact absurd (hkey.symm.trans h) (ne_key hslash sub)
    · rw [List.dropLast_concat] at hfolder
      rw [← (eq_of_key_eq hslash hhead (hkey.symm.trans h)).2]
      exact .inl hfolder
  | none =>
    have hkey : nextLike.fallback (folders ++ [name]) =
        "Other" ++ "/" ++ folders.headD rootSection := by
      rw [fallback, topLevelFolder_concat]
      rfl
    rw [sectionOf_of_none hrow] at h
    rw [← (eq_of_key_eq (by decide) hhead (hkey.symm.trans h)).2]
    cases folders with
    | nil => exact .inr ⟨rfl, rfl⟩
    | cons folder folders => exact .inl (List.mem_cons_self ..)

/-- **The section of a file is that of every file in its folder**, if there is a
dot in their names. Rows are selected by the folders alone, and what stands
behind the first slash of a key is a folder, or `_root` where there is
none. -/
theorem sectionOf_concat (strategy : Strategy) (folders : List String)
    (hname : '.' ∈ name.toList) (hname' : '.' ∈ name'.toList) :
    strategy.sectionOf (folders ++ [name]) = strategy.sectionOf (folders ++ [name']) ∧
    (∀ row ∈ strategy.rows, strategy.takes (folders ++ [name]) row = true ↔
      ∃ folder ∈ folders, strategy.asCompared folder ∈ row.folders) ∧
    (∀ head sub : String, '/' ∉ head.toList →
      nextLike.sectionOf (folders ++ [name]) = head ++ "/" ++ sub →
      sub ∈ folders ∨ folders = [] ∧ sub = rootSection) := by
  refine ⟨?_, fun row hrow => ?_, fun head sub => mem_folders_of_nextKey⟩
  · rw [sectionOf_eq, sectionOf_eq, row?_concat strategy folders hname,
      row?_concat strategy folders hname', fallback_concat strategy folders name name',
      funext fun row => sectionIn_concat strategy row folders name name']
  · rw [takes_concat hrow hname, List.any_eq_true]
    simp only [List.contains_iff_mem]

/-- Two files of a folder of routes, one of them named for the row of the
services. -/
theorem sectionOf_concat_routes :
    '.' ∈ "services.js".toList ∧ '.' ∈ "Index.js".toList ∧
    expressLike.sectionOf ["src", "Routes", "services.js"] = "Routes" ∧
    expressLike.sectionOf ["src", "Routes", "services.js"] =
      expressLike.sectionOf ["src", "Routes", "Index.js"] := by
  have hname : '.' ∈ "services.js".toList := by decide
  have hname' : '.' ∈ "Index.js".toList := by decide
  exact ⟨hname, hname', by decide, (sectionOf_concat expressLike ["src", "Routes"] hname hname').1⟩

end Strategy

end ExportAtlas
