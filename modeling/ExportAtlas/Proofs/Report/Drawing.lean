import Mathlib.Data.List.Lex
import Mathlib.Data.List.Sort
import Mathlib.Order.RelClasses
import ExportAtlas.Proofs.Distinct
import ExportAtlas.Proofs.Report.Blocks
import ExportAtlas.Proofs.Report.Folder
import ExportAtlas.Proofs.Text.Utf8
/-!
# The drawing of a folder tree

A folder is drawn as rows: one for each file and each folder that it holds, on
whatever way (`mem_rowsOf`). The rows stand in one strict order
(`pairwise_rowsOf`), so they are known from what stands among them, and all
that a folder holds is drawn right behind it
(`exists_eq_append_of_isFolder`). The drawing has a line for each row
(`render_eq`): a piece for each folder on the way, by whether that folder is
the last of its own, a connector by whether the row itself is, and the name.
-/

namespace ExportAtlas

namespace Report

namespace FolderTree

open Folder Text

/-! ## Rows -/

/-- An entry of the drawing: the names of the folders above it, its own name, and
the file that it is unless it is a folder. -/
structure Row where
  way : List String
  name : String
  file? : Option FileRecord
  deriving DecidableEq

/-- Where a row stands. -/
def Row.position (r : Row) : List String := r.way ++ [r.name]

mutual

/-- The rows of what a folder holds, the folder being at the end of `way`. -/
def rowsOf (way : List String) : Folder → List Row
  | .mk folders files => folderRows way folders ++ files.map fun f => ⟨way, f.1, some f.2⟩

/-- The rows of sub-folders, each with the rows of what it holds. -/
def folderRows (way : List String) : List (String × Folder) → List Row
  | [] => []
  | (name, folder) :: rest =>
    ⟨way, name, none⟩ :: (rowsOf (way ++ [name]) folder ++ folderRows way rest)

end

variable {way above p : List String} {r : Row} {rows : List Row} {folder : Folder}
  {folders : List (String × Folder)} {files : List (String × FileRecord)}

/-- The row of a sub-folder, and the rows of what it holds. -/
def branch (way : List String) (f : String × Folder) : List Row :=
  ⟨way, f.1, none⟩ :: rowsOf (way ++ [f.1]) f.2

theorem folderRows_eq (way : List String) (folders : List (String × Folder)) :
    folderRows way folders = folders.flatMap (branch way) := by
  induction folders with
  | nil => rfl
  | cons f folders ih =>
    obtain ⟨name, folder⟩ := f
    rw [folderRows, ih, List.flatMap_cons]
    rfl

theorem rowsOf_mk (way : List String) (folders : List (String × Folder))
    (files : List (String × FileRecord)) : rowsOf way (.mk folders files) =
      folders.flatMap (branch way) ++ files.map fun f => ⟨way, f.1, some f.2⟩ := by
  rw [rowsOf, folderRows_eq]

/-- What stands at a position of a folder: a file, or a folder. -/
def Holds (folder : Folder) (p : List String) : Option FileRecord → Prop
  | some file => fileAt? p folder = some file
  | none => hasFolder p folder = true

theorem holds_singleton {name : String} {file? : Option FileRecord} :
    Holds (.mk folders files) [name] file? ↔
      (file? = none ∧ ∃ inner, folders.lookup name = some inner) ∨
        ∃ file, file? = some file ∧ files.lookup name = some file := by
  cases file? with
  | none => cases hlookup : folders.lookup name <;> simp [Holds, hasFolder, hlookup]
  | some file => simp [Holds, fileAt?]

theorem holds_cons {name : String} {file? : Option FileRecord} (hp : p ≠ []) :
    Holds (.mk folders files) (name :: p) file? ↔
      ∃ inner, folders.lookup name = some inner ∧ Holds inner p file? := by
  cases file? with
  | none => simp [Holds, hasFolder, Option.any_eq_true]
  | some file => simp [Holds, fileAt?_cons hp, Option.bind_eq_some_iff]

/-- **There is a row for everything that a folder holds**, and no other. -/
theorem mem_rowsOf (h : Ordered folder) : r ∈ rowsOf way folder ↔
    ∃ below, r.way = way ++ below ∧ Holds folder (below ++ [r.name]) r.file? := by
  induction h generalizing way with
  | mk hfolders hfiles hbelow ih =>
    rename_i folders files
    rw [rowsOf_mk, List.mem_append, List.mem_flatMap, List.mem_map]
    constructor
    · rintro (⟨f, hf, hr⟩ | ⟨f, hf, rfl⟩)
      · have hlookup := hfolders.lookup_eq_some_iff.mpr hf
        rcases List.mem_cons.mp hr with rfl | hr
        · refine ⟨[], (List.append_nil way).symm, holds_singleton.mpr (.inl ⟨rfl, f.2, hlookup⟩)⟩
        · obtain ⟨below, hway, hholds⟩ := (ih f hf).mp hr
          refine ⟨f.1 :: below, by rw [hway, List.append_assoc]; rfl, ?_⟩
          exact (holds_cons (by simp)).mpr ⟨f.2, hlookup, hholds⟩
      · refine ⟨[], (List.append_nil way).symm, holds_singleton.mpr (.inr ⟨f.2, rfl, ?_⟩)⟩
        exact hfiles.lookup_eq_some_iff.mpr hf
    · rintro ⟨below, hway, hholds⟩
      obtain ⟨rway, name, file?⟩ := r
      obtain rfl : rway = way ++ below := hway
      cases below with
      | nil =>
        rw [List.append_nil]
        rcases holds_singleton.mp hholds with ⟨hnone, inner, hlookup⟩ | ⟨file, hfile, hlookup⟩
        · obtain rfl : file? = none := hnone
          exact .inl ⟨_, hfolders.lookup_eq_some_iff.mp hlookup, List.mem_cons_self⟩
        · obtain rfl : file? = some file := hfile
          exact .inr ⟨_, hfiles.lookup_eq_some_iff.mp hlookup, rfl⟩
      | cons n below =>
        obtain ⟨inner, hlookup, hholds⟩ := (holds_cons (by simp)).mp hholds
        have hmem := hfolders.lookup_eq_some_iff.mp hlookup
        refine .inl ⟨_, hmem, List.mem_cons_of_mem _ ((ih _ hmem).mpr ⟨below, ?_, hholds⟩)⟩
        rw [List.append_assoc]
        rfl

/-- What a folder holds is below it. -/
theorem way_isPrefix (h : Ordered folder) (hr : r ∈ rowsOf way folder) : way <+: r.way := by
  obtain ⟨below, hway, -⟩ := (mem_rowsOf h).mp hr
  exact hway ▸ List.prefix_append way below

/-! ## The order of rows -/

/-- Of the entries of a folder, folders come before files, and both stand in the
order of the bytes of their names. An entry is told by whether it is a file,
and its name. -/
def Precedes (x y : Bool × String) : Prop :=
  x.1 = false ∧ y.1 = true ∨ x.1 = y.1 ∧ Utf8.ofString x.2 < Utf8.ofString y.2

/-- The entries on the way to a row, and the row itself. -/
def Row.steps (r : Row) : List (Bool × String) :=
  r.way.map (false, ·) ++ [(r.file?.isSome, r.name)]

/-- A row is drawn before another: it leads there, or precedes it where their
ways part. -/
def Row.Before (r r' : Row) : Prop := List.Lex Precedes r.steps r'.steps

theorem precedes_of_lt {name name' : String} (isFile : Bool) (h : name < name') :
    Precedes (isFile, name) (isFile, name') :=
  .inr ⟨rfl, Utf8.ofString_lt_ofString h⟩

/-- A way comes before what it leads to. -/
theorem lex_append {α : Type} {R : α → α → Prop} (xs : List α) {ys : List α} (hys : ys ≠ []) :
    List.Lex R xs (xs ++ ys) := by
  obtain ⟨y, ys, rfl⟩ := List.exists_cons_of_ne_nil hys
  simpa using List.Lex.append_left R (List.Lex.nil (a := y) (l := ys)) xs

theorem Row.steps_of_isFolder {d : Row} (hd : d.file? = none) :
    d.steps = d.position.map (false, ·) := by
  rw [Row.steps, Row.position, hd, List.map_append]
  rfl

/-- The steps to a row begin with those to a folder above it. -/
theorem Row.steps_of_isPrefix (h : above <+: r.way) :
    ∃ steps, steps ≠ [] ∧ r.steps = above.map (false, ·) ++ steps := by
  obtain ⟨below, hway⟩ := h
  refine ⟨below.map (false, ·) ++ [(r.file?.isSome, r.name)], by simp, ?_⟩
  rw [Row.steps, ← hway, List.map_append, List.append_assoc]

/-- A folder is drawn before what it holds. -/
theorem before_of_isPrefix {d : Row} (hd : d.file? = none) (h : d.position <+: r.way) :
    d.Before r := by
  obtain ⟨steps, hne, hsteps⟩ := Row.steps_of_isPrefix h
  rw [Row.Before, hsteps, Row.steps_of_isFolder hd]
  exact lex_append _ hne

/-- The rows of a sub-folder begin with a step to it. -/
theorem exists_steps_of_mem_branch {f : String × Folder} (h : Ordered f.2) (hr : r ∈ branch way f) :
    ∃ steps, r.steps = way.map (false, ·) ++ (false, f.1) :: steps := by
  rcases List.mem_cons.mp hr with rfl | hr
  · exact ⟨[], rfl⟩
  · obtain ⟨steps, -, hsteps⟩ := Row.steps_of_isPrefix (way_isPrefix h hr)
    refine ⟨steps, ?_⟩
    rw [hsteps, List.map_append, List.append_assoc]
    rfl

/-- Rows are in order that part behind a way. -/
theorem before_of_precedes {r' : Row} {x y : Bool × String} {xs ys : List (Bool × String)}
    (h : r.steps = way.map (false, ·) ++ x :: xs) (h' : r'.steps = way.map (false, ·) ++ y :: ys)
    (hxy : Precedes x y) : r.Before r' := by
  rw [Row.Before, h, h']
  exact List.Lex.append_left _ (.rel hxy) _

/-- **Rows are drawn in order.** -/
theorem pairwise_rowsOf (h : Ordered folder) : (rowsOf way folder).Pairwise Row.Before := by
  induction h generalizing way with
  | mk hfolders hfiles hbelow ih =>
    rename_i folders files
    rw [rowsOf_mk, List.pairwise_append, List.pairwise_flatMap, List.pairwise_map]
    refine ⟨⟨fun f hf => ?_, ?_⟩, ?_, ?_⟩
    · -- a folder is drawn before what it holds
      exact List.pairwise_cons.mpr
        ⟨fun r hr => before_of_isPrefix rfl (way_isPrefix (hbelow f hf) hr), ih f hf⟩
    · refine hfolders.imp_of_mem fun {f f'} hf hf' hlt r hr r' hr' => ?_
      obtain ⟨steps, hsteps⟩ := exists_steps_of_mem_branch (hbelow f hf) hr
      obtain ⟨steps', hsteps'⟩ := exists_steps_of_mem_branch (hbelow f' hf') hr'
      exact before_of_precedes hsteps hsteps' (precedes_of_lt false hlt)
    · refine hfiles.imp fun {f f'} hlt => ?_
      have hbefore : ∀ g : String × FileRecord, Row.steps ⟨way, g.1, some g.2⟩ =
          way.map (false, ·) ++ (true, g.1) :: [] := fun _ => rfl
      exact before_of_precedes (hbefore f) (hbefore f') (precedes_of_lt true hlt)
    · intro r hr r' hr'
      obtain ⟨f, hf, hr⟩ := List.mem_flatMap.mp hr
      obtain ⟨f', -, rfl⟩ := List.mem_map.mp hr'
      obtain ⟨steps, hsteps⟩ := exists_steps_of_mem_branch (hbelow f hf) hr
      exact before_of_precedes hsteps rfl (.inl ⟨rfl, rfl⟩)

instance : Std.Asymm Precedes where
  asymm x y h h' := by
    rcases h, h' with ⟨⟨h₁, h₂⟩ | ⟨h₁, h₂⟩, ⟨h₃, h₄⟩ | ⟨h₃, h₄⟩⟩
    · exact Bool.noConfusion (h₁.symm.trans h₄)
    · exact Bool.noConfusion (h₁.symm.trans (h₃.symm.trans h₂))
    · exact Bool.noConfusion (h₃.symm.trans (h₁.symm.trans h₄))
    · exact asymm h₂ h₄

instance : Std.Asymm Row.Before where
  asymm _ _ h h' := asymm (r := List.Lex Precedes) h h'

/-- Rows in order do not repeat. -/
theorem nodup_of_pairwise_before (h : rows.Pairwise Row.Before) : rows.Nodup :=
  h.imp ne_of_irrefl

/-! ### What a folder holds -/

/-- What comes behind a way, but no later than something that it leads to, is
something that it leads to. -/
theorem isPrefix_of_lex {α : Type} {R : α → α → Prop} [Std.Asymm R] {xs ys zs : List α}
    (h : List.Lex R xs ys) (h' : List.Lex R ys (xs ++ zs)) : xs <+: ys := by
  induction h with
  | nil => exact List.nil_prefix
  | rel hlt =>
    cases h' with
    | rel hgt => exact absurd hgt (asymm hlt)
    | cons _ => exact absurd hlt (irrefl_of R _)
  | cons _ ih =>
    cases h' with
    | rel hlt => exact absurd hlt (irrefl_of R _)
    | cons h' => exact List.cons_prefix_cons.mpr ⟨rfl, ih h'⟩

/-- Entries that come first in a list are those that begin it. -/
theorem filter_eq_takeWhile {α : Type} {p : α → Bool} {l : List α}
    (h : l.Pairwise fun a b => p b → p a) : l.filter p = l.takeWhile p := by
  induction l with
  | nil => rfl
  | cons a l ih =>
    obtain ⟨ha, hl⟩ := List.pairwise_cons.mp h
    by_cases hp : p a
    · rw [List.filter_cons_of_pos hp, List.takeWhile_cons_of_pos hp, ih hl]
    · rw [List.filter_cons_of_neg hp, List.takeWhile_cons_of_neg hp, List.filter_eq_nil_iff]
      exact fun b hb hpb => hp (ha b hb hpb)

section Nested

variable {d r' : Row}

/-- Between the two stands nothing else. -/
theorem isPrefix_of_before (hd : d.file? = none) (h : d.Before r') (h' : r'.Before r)
    (hr : d.position <+: r.way) : d.position <+: r'.way := by
  obtain ⟨steps, -, hsteps⟩ := Row.steps_of_isPrefix hr
  rw [Row.Before, Row.steps_of_isFolder hd] at h
  rw [Row.Before, hsteps] at h'
  have hprefix := isPrefix_of_lex h h'
  rw [Row.steps, List.prefix_concat_iff] at hprefix
  rcases hprefix with heq | hprefix
  · exact absurd (heq ▸ h) (irrefl_of (List.Lex Precedes) _)
  · simpa [Function.comp_def] using hprefix.map Prod.snd

/-- **Everything in a folder is drawn right behind it.** -/
theorem exists_eq_append_of_isFolder (h : rows.Pairwise Row.Before) (hmem : d ∈ rows)
    (hd : d.file? = none) : ∃ before after,
      rows = before ++ d :: ((rows.filter fun r => d.position <+: r.way) ++ after) := by
  obtain ⟨before, behind, rfl⟩ := List.append_of_mem hmem
  obtain ⟨-, hbehind, hcross⟩ := List.pairwise_append.mp h
  obtain ⟨hfirst, hbehind⟩ := List.pairwise_cons.mp hbehind
  have hself : ¬ decide (d.position <+: d.way) := by
    rw [decide_eq_true_iff]
    exact fun hin => irrefl_of Row.Before d (before_of_isPrefix hd hin)
  have hbefore : (before.filter fun r => d.position <+: r.way) = [] := by
    rw [List.filter_eq_nil_iff]
    exact fun r hr hin => asymm (hcross r hr d List.mem_cons_self)
      (before_of_isPrefix hd (of_decide_eq_true hin))
  have hskip : ((d :: behind).filter fun r => d.position <+: r.way) =
      behind.filter fun r => d.position <+: r.way := List.filter_cons_of_neg hself
  have hinside : (behind.filter fun r => d.position <+: r.way) =
      behind.takeWhile fun r => d.position <+: r.way := by
    refine filter_eq_takeWhile (hbehind.imp_of_mem fun {r' r} hr' _ hlt hin => ?_)
    exact decide_eq_true (isPrefix_of_before hd (hfirst r' hr') hlt (of_decide_eq_true hin))
  refine ⟨before, behind.dropWhile fun r => d.position <+: r.way, ?_⟩
  rw [List.filter_append, hbefore, hskip, hinside, List.nil_append, List.takeWhile_append_dropWhile]

end Nested

/-! ## Lines -/

/-- The rows of what stands in one folder. -/
def siblings (rows : List Row) (way : List String) : List Row :=
  rows.filter fun r => r.way = way

/-- A row is the last of its folder. -/
def isLast (rows : List Row) (r : Row) : Bool := (siblings rows r.way).getLast? = some r

/-- What stands in front of the rows of a folder, from a folder above it on: one
piece for each folder on the way, by whether that is the last of its own. -/
def frontFrom (rows : List Row) (above : List String) : (way : List String) → String
  | [] => ""
  | name :: way =>
    extension (isLast rows ⟨above, name, none⟩) ++ frontFrom rows (above ++ [name]) way

/-- What stands in front of the rows of a folder. -/
def front (rows : List Row) (way : List String) : String := frontFrom rows [] way

/-- What stands behind the name of a row. -/
def Row.tail (r : Row) : String := r.file?.elim "/" symbols

/-- A row as a line of the drawing. -/
def Row.line (rows : List Row) (r : Row) : String :=
  front rows r.way ++ connector (isLast rows r) ++ r.name ++ r.tail

theorem frontFrom_concat (rows : List Row) (above way : List String) (name : String) :
    frontFrom rows above (way ++ [name]) =
      frontFrom rows above way ++ extension (isLast rows ⟨above ++ way, name, none⟩) := by
  induction way generalizing above with
  | nil => simp [frontFrom]
  | cons n way ih =>
    rw [List.cons_append, frontFrom, ih, frontFrom, String.append_assoc, List.append_assoc]
    rfl

theorem front_concat (rows : List Row) (way : List String) (name : String) :
    front rows (way ++ [name]) =
      front rows way ++ extension (isLast rows ⟨way, name, none⟩) := by
  rw [front, frontFrom_concat, List.nil_append, front]

/-- Of siblings without repeats, the last is the one with none behind it. -/
theorem isLast_eq {before after : List Row} (h : siblings rows r.way = before ++ r :: after)
    (hnodup : (siblings rows r.way).Nodup) : isLast rows r = after.isEmpty := by
  rw [h] at hnodup
  rw [isLast, h]
  cases after with
  | nil => simp
  | cons x after =>
    have hlast : (before ++ r :: x :: after).getLast? = some ((x :: after).getLast (by simp)) := by
      rw [List.getLast?_append_of_ne_nil _ (by simp), List.getLast?_cons_cons,
        List.getLast?_eq_some_getLast]
    have hr : r ∉ x :: after := (List.nodup_cons.mp (List.nodup_append.mp hnodup).2.1).1
    rw [hlast]
    refine decide_eq_false fun heq => hr ?_
    rw [← Option.some.inj heq]
    exact List.getLast_mem _

/-! ### Siblings -/

/-- The rows of a folder itself are its entries. -/
theorem siblings_rowsOf (hbelow : ∀ f ∈ folders, Ordered f.2) :
    siblings (rowsOf way (.mk folders files)) way =
      folders.map (fun f => ⟨way, f.1, none⟩) ++ files.map fun f => ⟨way, f.1, some f.2⟩ := by
  have hbranch : ∀ f ∈ folders, (branch way f).filter (fun r => r.way = way) =
      [⟨way, f.1, none⟩] := by
    intro f hf
    have hinner : (rowsOf (way ++ [f.1]) f.2).filter (fun r => r.way = way) = [] := by
      rw [List.filter_eq_nil_iff]
      intro r hr heq
      have hlength := (way_isPrefix (hbelow f hf) hr).length_le
      rw [of_decide_eq_true heq, List.length_append] at hlength
      exact absurd hlength (by simp)
    rw [branch, List.filter_cons_of_pos (by simp), hinner]
  have hfiles : ∀ r ∈ files.map (fun f => (⟨way, f.1, some f.2⟩ : Row)), decide (r.way = way) :=
    List.forall_mem_map.mpr fun _ _ => decide_eq_true rfl
  rw [rowsOf_mk, siblings, List.filter_append, List.filter_flatMap, List.flatMap_congr hbranch,
    List.filter_eq_self.mpr hfiles, ← List.map_eq_flatMap]

/-- The rows of a folder below are those of the sub-folder that leads to it. -/
theorem siblings_rowsOf_of_isPrefix {f : String × Folder} {w : List String}
    (h : Ordered (.mk folders files)) (hf : f ∈ folders) (hw : way ++ [f.1] <+: w) :
    siblings (rowsOf way (.mk folders files)) w = siblings (rowsOf (way ++ [f.1]) f.2) w := by
  obtain ⟨hfolders, -, hbelow⟩ := h
  have hne : w ≠ way := by
    rintro rfl
    simpa using hw.length_le
  have hother : ∀ f' ∈ folders, f'.1 ≠ f.1 → (branch way f').filter (fun r => r.way = w) = [] := by
    intro f' hf' hname
    rw [branch, List.filter_cons_of_neg (by simpa using Ne.symm hne), List.filter_eq_nil_iff]
    intro r hr heq
    have hr := way_isPrefix (hbelow f' hf') hr
    rw [of_decide_eq_true heq] at hr
    -- both names come next on the way there
    have hprefix := List.prefix_of_prefix_length_le hr hw (by simp)
    simp [hname] at hprefix
  obtain ⟨before, after, rfl⟩ := List.append_of_mem hf
  obtain ⟨-, hafter, hcross⟩ := List.pairwise_append.mp hfolders
  have hbefore : before.flatMap (fun f' => (branch way f').filter fun r => r.way = w) = [] :=
    List.flatMap_eq_nil_iff.mpr fun f' hf' => hother f' (List.mem_append_left _ hf')
      (hcross f' hf' f List.mem_cons_self).ne
  have hbehind : after.flatMap (fun f' => (branch way f').filter fun r => r.way = w) = [] :=
    List.flatMap_eq_nil_iff.mpr fun f' hf' =>
      hother f' (List.mem_append_right _ (List.mem_cons_of_mem _ hf'))
        ((List.pairwise_cons.mp hafter).1 f' hf').ne'
  have hfiles : ∀ r ∈ files.map (fun f => (⟨way, f.1, some f.2⟩ : Row)), ¬ decide (r.way = w) :=
    List.forall_mem_map.mpr fun _ _ => by simpa using Ne.symm hne
  rw [rowsOf_mk, siblings, List.filter_append, List.filter_flatMap, List.flatMap_append,
    List.flatMap_cons, hbefore, hbehind, branch,
    List.filter_cons_of_neg (by simpa using Ne.symm hne), List.filter_eq_nil_iff.mpr hfiles,
    List.nil_append, List.append_nil, List.append_nil, siblings]

/-! ### The drawing -/

theorem fileLines_eq {before : List Row} (hnodup : rows.Nodup)
    (h : siblings rows way = before ++ files.map fun f => ⟨way, f.1, some f.2⟩) :
    fileLines (front rows way) files =
      (files.map fun f => (⟨way, f.1, some f.2⟩ : Row)).map (Row.line rows) := by
  induction files generalizing before with
  | nil => rfl
  | cons f files ih =>
    have hlast : isLast rows ⟨way, f.1, some f.2⟩ = files.isEmpty := by
      rw [isLast_eq h (hnodup.filter _), List.isEmpty_map]
    rw [fileLines, ih (h.trans (List.append_cons _ _ _)), List.map_cons, List.map_cons, Row.line,
      hlast]
    rfl

/-- **Every entry is drawn as its row.** -/
theorem entryLines_eq (h : Ordered folder) (hnodup : rows.Nodup)
    (hrows : ∀ w, way <+: w → siblings rows w = siblings (rowsOf way folder) w) :
    entryLines (front rows way) folder = (rowsOf way folder).map (Row.line rows) := by
  induction h generalizing way with
  | mk hfolders hfiles hbelow ih =>
    rename_i folders files
    have hsiblings := (hrows way List.prefix_rfl).trans (siblings_rowsOf hbelow)
    have hinner : ∀ f ∈ folders, entryLines (front rows (way ++ [f.1])) f.2 =
        (rowsOf (way ++ [f.1]) f.2).map (Row.line rows) := fun f hf =>
      ih f hf fun w hw => by
        rw [hrows w ((List.prefix_append _ _).trans hw),
          siblings_rowsOf_of_isPrefix (.mk hfolders hfiles hbelow) hf hw]
    have hfolderLines : ∀ before after, folders = before ++ after →
        folderLines (front rows way) files.isEmpty after =
          (after.flatMap (branch way)).map (Row.line rows) := by
      intro before after heq
      induction after generalizing before with
      | nil => rfl
      | cons f after ihafter =>
        have hlast : isLast rows ⟨way, f.1, none⟩ = (after.isEmpty && files.isEmpty) := by
          rw [heq, List.map_append, List.map_cons, List.append_assoc] at hsiblings
          rw [isLast_eq hsiblings (hnodup.filter _)]
          cases after <;> simp
        rw [folderLines, ← hlast, ← front_concat, hinner f (heq ▸ by simp),
          ihafter _ (heq.trans (List.append_cons _ _ _)), List.flatMap_cons, List.map_append,
          branch, List.map_cons]
        rfl
    rw [entryLines, rowsOf_mk, List.map_append, hfolderLines [] folders rfl,
      fileLines_eq hnodup hsiblings]

/-- The rows of the drawing of some files. -/
def rowsUnder (root : Path) (files : List FileRecord) : List Row := rowsOf [] (arrange root files)

theorem pairwise_rowsUnder (root : Path) (files : List FileRecord) :
    (rowsUnder root files).Pairwise Row.Before :=
  pairwise_rowsOf (ordered_arrange root files)

/-- **The drawing is its rows, line by line.** -/
theorem render_eq (root : Path) (a : Atlas) : render root a =
    unlines ((rootName root ++ "/") ::
      (rowsUnder root a.sections.files).map (Row.line (rowsUnder root a.sections.files))) := by
  have hlines : entryLines "" (arrange root a.sections.files) =
      (rowsUnder root a.sections.files).map (Row.line (rowsUnder root a.sections.files)) :=
    entryLines_eq (ordered_arrange root a.sections.files)
      (nodup_of_pairwise_before (pairwise_rowsUnder root _)) fun _ _ => rfl
  rw [render, lines, hlines]

end FolderTree

end Report

end ExportAtlas
