import ExportAtlas.Report
import ExportAtlas.Proofs.Distinct
import ExportAtlas.Proofs.Text.Pieces
/-!
# The blocks of two reports

The listing and the report by category are both written piece by piece: lines
that stand by themselves, and one block for a file of a section
(`Listing.render_eq`, `Markdown.render_eq`). The report by category gathers
the sections by the first part of their names (`Markdown.categories_eq`), so
its blocks are those of the listing in another order, less the files without
exports (`Markdown.blocks_perm`).
-/

namespace ExportAtlas

namespace Report

/-! ## Symbols -/

/-- The symbols of a file with the words for their kinds: kind by kind, the
default export last. -/
def kindNames (e : Exports) : List (String × String) :=
  e.functions.map ("function", ·) ++ e.constants.map ("constant", ·) ++ e.types.map ("type", ·) ++
    e.interfaces.map ("interface", ·) ++ e.classes.map ("class", ·) ++
    e.defaultExport.toList.map ("default", ·)

section Symbols

variable {e : Exports}

theorem labelled_eq (e : Exports) : labelled e = kindNames e := by
  have hdefault : (e.defaultExport.map fun name => ("default", name)).toList =
      e.defaultExport.toList.map ("default", ·) := by
    cases e.defaultExport <;> rfl
  rw [labelled, kindNames, hdefault, Exports.symbols, SymbolKind.all]
  simp [Exports.names, SymbolKind.label, Function.comp_def]

/-- A file that exports something has symbols. -/
theorem isEmpty_eq (e : Exports) : e.isEmpty = (kindNames e).isEmpty := by
  rw [Bool.eq_iff_iff, Exports.isEmpty, List.isEmpty_iff, kindNames]
  simp only [Bool.and_eq_true, List.isEmpty_iff, Option.isNone_iff_eq_none,
    List.append_eq_nil_iff, List.map_eq_nil_iff, Option.toList_eq_nil_iff]

end Symbols

/-! ## Pieces -/

/-- A piece of a report. -/
inductive Piece where
  /-- A line that belongs to no file. -/
  | line (text : String)
  /-- The block of a file of a section. -/
  | block (s : Section) (file : FileRecord)

namespace Piece

/-- The file that a piece is about, and its section. -/
def block? : Piece → Option (Section × FileRecord)
  | line _ => none
  | block s file => some (s, file)

end Piece

/-- The blocks among the pieces of a report. -/
def blocks (pieces : List Piece) : List (Section × FileRecord) := pieces.filterMap Piece.block?

/-- The pieces that lines are. -/
def linePieces (lines : List String) : List Piece := lines.map Piece.line

/-- The pieces that the files of a section are. -/
def blockPieces (s : Section) (files : List FileRecord) : List Piece := files.map (Piece.block s)

section Pieces

variable {write : Piece → List String}

theorem flatMap_linePieces (hwrite : ∀ text, write (.line text) = [text]) (lines : List String) :
    (linePieces lines).flatMap write = lines := by
  rw [linePieces, List.flatMap_map]
  simp only [hwrite, List.flatMap_singleton']

theorem blocks_append (ps qs : List Piece) : blocks (ps ++ qs) = blocks ps ++ blocks qs :=
  List.filterMap_append

theorem blocks_flatMap {α : Type} (f : α → List Piece) (l : List α) :
    blocks (l.flatMap f) = l.flatMap fun x => blocks (f x) := by
  rw [blocks, List.filterMap_flatMap]
  rfl

theorem blocks_linePieces (lines : List String) : blocks (linePieces lines) = [] := by
  rw [blocks, linePieces, List.filterMap_map, List.filterMap_eq_nil_iff]
  exact fun _ _ => rfl

theorem blocks_blockPieces (s : Section) (files : List FileRecord) :
    blocks (blockPieces s files) = files.map (s, ·) := by
  rw [blocks, blockPieces, List.filterMap_map, ← List.filterMap_eq_map]
  rfl

end Pieces

/-! ## The listing -/

namespace Listing

/-- How a piece is written in the listing. -/
def write : Piece → List String
  | .line text => [text]
  | .block _ file => file.path.display ::
      if kindNames file.exports = [] then ["  (no exports)"]
      else (kindNames file.exports).map fun x => "  " ++ x.1 ++ ": " ++ x.2

/-- The pieces of a section: a heading, and its files. -/
def sectionPieces (s : Section) : List Piece :=
  linePieces ["", "## " ++ s.name ++ " (" ++ toString s.files.length ++ " files)"] ++
    blockPieces s s.files

/-- The pieces of the listing. -/
def pieces (a : Atlas) : List Piece :=
  linePieces (["# " ++ a.kind.label ++ " project (" ++ a.kind.id ++ ")"] ++
    routeLines a.routeLines) ++ a.sections.entries.flatMap sectionPieces

theorem fileLines_eq (s : Section) (file : FileRecord) :
    fileLines file = write (.block s file) := by
  rw [fileLines, symbolLines, isEmpty_eq, labelled_eq, write]
  simp only [List.isEmpty_iff]

theorem sectionLines_eq (s : Section) : sectionLines s = (sectionPieces s).flatMap write := by
  rw [sectionLines, sectionPieces, List.flatMap_append, flatMap_linePieces fun _ => rfl,
    blockPieces, List.flatMap_map, funext (fileLines_eq s)]

/-- **The listing is written piece by piece.** -/
theorem render_eq (a : Atlas) : render a = unlines ((pieces a).flatMap write) := by
  rw [render, lines, pieces, List.flatMap_append, flatMap_linePieces fun _ => rfl,
    List.flatMap_assoc, funext sectionLines_eq]

/-- Every file of every section has its block. -/
theorem blocks_pieces (a : Atlas) :
    blocks (pieces a) = a.sections.entries.flatMap fun s => s.files.map (s, ·) := by
  rw [pieces, blocks_append, blocks_linePieces, List.nil_append, blocks_flatMap]
  refine congrArg (a.sections.entries.flatMap ·) (funext fun s => ?_)
  rw [sectionPieces, blocks_append, blocks_linePieces, List.nil_append, blocks_blockPieces]

end Listing

/-! ## The report by category -/

namespace Markdown

/-- The part of a section's name before the first slash. -/
def headOf (s : Section) : String := String.ofList (s.name.toList.takeWhile (· != '/'))

/-- The heads of the sections, in order of first appearance. -/
def heads (a : Atlas) : List String := (a.sections.entries.map headOf).eraseDups

/-- How a piece is written in the report by category. -/
def write : Piece → List String
  | .line text => [text]
  | .block _ file =>
    file.name :: (kindNames file.exports).map fun x => "• " ++ x.1 ++ ": " ++ x.2

/-- The files of a section that export something. -/
def exporting (s : Section) : List FileRecord :=
  s.files.filter fun file => kindNames file.exports ≠ []

/-- The pieces of a section: the rest of its name, and its files. -/
def sectionPieces (s : Section) : List Piece :=
  linePieces ((Text.cutOnce '/' s.name).2.map (· ++ "/")).toList ++
    blockPieces s (exporting s) ++ linePieces [""]

/-- The pieces under a head: one heading, and the sections with that head. -/
def headPieces (a : Atlas) (head : String) : List Piece :=
  linePieces (heading (title head)) ++
    (a.sections.entries.filter fun s => headOf s == head).flatMap sectionPieces

/-- The pieces of the report by category. -/
def pieces (a : Atlas) : List Piece :=
  linePieces (routeLines a.routeLines) ++ (heads a).flatMap (headPieces a) ++
    linePieces ["=== DONE ==="]

/-! ### Sections by category -/

section Gathering

variable {names : List String} {s : Section}

theorem category_eq (s : Section) : category s = headOf s :=
  congrArg String.ofList (Text.cutAt_fst '/' s.name.toList)

theorem filter_singleton_head (s : Section) (name : String) :
    ([s].filter fun s => headOf s == name) = if headOf s = name then [s] else [] := by
  rw [List.filter_cons, List.filter_nil]
  simp only [beq_iff_eq]

/-- **One section more** goes to its like, or under a head of its own at the
end. -/
theorem addSection_map (gathered : String → List Section) (hnames : names.Nodup) :
    addSection s (names.map fun name => (name, gathered name)) =
      if headOf s ∈ names then
        names.map fun name => (name, gathered name ++ [s].filter fun s => headOf s == name)
      else names.map (fun name => (name, gathered name)) ++ [(headOf s, [s])] := by
  induction names with
  | nil => rw [if_neg List.not_mem_nil, List.map_nil, addSection, category_eq]; rfl
  | cons name names ih =>
    obtain ⟨hname, hrest⟩ := List.nodup_cons.mp hnames
    rw [List.map_cons, addSection, category_eq]
    by_cases h : name = headOf s
    · -- the heads that follow are others, and nothing is added to them
      have hothers : ∀ other ∈ names,
          gathered other ++ ([s].filter fun s => headOf s == other) = gathered other := by
        intro other hmem
        have hne : headOf s ≠ other := fun heq => hname (h.trans heq ▸ hmem)
        rw [filter_singleton_head, if_neg hne, List.append_nil]
      rw [if_pos h, if_pos (h ▸ List.mem_cons_self), List.map_cons, filter_singleton_head,
        if_pos h.symm]
      exact congrArg _ (List.map_congr_left fun other hmem => by rw [hothers other hmem])
    · have hmem : headOf s ∈ name :: names ↔ headOf s ∈ names := by
        rw [List.mem_cons, or_iff_right (Ne.symm h)]
      rw [if_neg h, ih hrest]
      simp only [hmem]
      split
      · rw [List.map_cons, filter_singleton_head, if_neg (Ne.symm h), List.append_nil]
      · rfl

/-- **Sections are gathered by their heads**, in their order. -/
theorem categories_eq (ss : List Section) :
    categories ss = (ss.map headOf).eraseDups.map fun name =>
      (name, ss.filter fun s => headOf s == name) := by
  induction ss using List.reverseRecOn with
  | nil => rfl
  | append_singleton ss s ih =>
    rw [categories, List.foldl_append, ← categories, ih, List.foldl_cons, List.foldl_nil,
      addSection_map _ (nodup_eraseDups _), List.map_append, List.map_singleton, eraseDups_concat]
    simp only [List.mem_eraseDups, List.contains_iff_mem]
    split
    · simp only [List.filter_append]
    · rename_i h
      -- no section before has this head, and this one has no other
      have hbefore : (ss.filter fun s' => headOf s' == headOf s) = [] := by
        rw [List.filter_eq_nil_iff]
        exact fun s' hs' heq => h (List.mem_map.mpr ⟨s', hs', beq_iff_eq.mp heq⟩)
      rw [List.map_append, List.map_singleton, List.filter_append, hbefore, List.nil_append,
        filter_singleton_head, if_pos rfl]
      refine congrArg (· ++ _) (List.map_congr_left fun name hname => ?_)
      rw [List.filter_append, filter_singleton_head, if_neg, List.append_nil]
      rintro rfl
      exact h (List.mem_eraseDups.mp hname)

/-- A section joins its like over the sections between them. -/
example : (categories [⟨"hooks", []⟩, ⟨"lib/a", []⟩, ⟨"hooks/b", []⟩]).map
    (fun c => (c.1, c.2.map (·.name))) = [("hooks", ["hooks", "hooks/b"]), ("lib", ["lib/a"])] := by
  decide

end Gathering

/-! ### Pieces -/

theorem fileLines_eq (s : Section) (file : FileRecord) :
    fileLines file = if kindNames file.exports = [] then [] else write (.block s file) := by
  rw [fileLines, isEmpty_eq, labelled_eq, write]
  simp only [List.isEmpty_iff]

/-- Files without exports have no lines. -/
theorem flatMap_fileLines (s : Section) :
    s.files.flatMap fileLines = (blockPieces s (exporting s)).flatMap write := by
  rw [blockPieces, exporting, List.flatMap_map]
  induction s.files with
  | nil => rfl
  | cons file files ih =>
    rw [List.flatMap_cons, ih, fileLines_eq s]
    by_cases h : kindNames file.exports = []
    · rw [if_pos h, List.filter_cons_of_neg (by simpa using h), List.nil_append]
    · rw [if_neg h, List.filter_cons_of_pos (by simpa using h), List.flatMap_cons]

theorem sectionLines_eq (s : Section) : sectionLines s = (sectionPieces s).flatMap write := by
  rw [sectionLines, sectionPieces, List.flatMap_append, List.flatMap_append,
    flatMap_linePieces fun _ => rfl, flatMap_linePieces fun _ => rfl, flatMap_fileLines]

theorem categoryLines_eq (a : Atlas) (head : String) :
    categoryLines (head, a.sections.entries.filter fun s => headOf s == head) =
      (headPieces a head).flatMap write := by
  rw [categoryLines, headPieces, List.flatMap_append, flatMap_linePieces fun _ => rfl,
    List.flatMap_assoc, funext sectionLines_eq]

/-- **The report by category is written piece by piece.** -/
theorem render_eq (a : Atlas) : render a = unlines ((pieces a).flatMap write) := by
  rw [render, lines, pieces, List.flatMap_append, List.flatMap_append,
    flatMap_linePieces fun _ => rfl, flatMap_linePieces fun _ => rfl, List.flatMap_assoc,
    categories_eq, List.flatMap_map, heads, funext (categoryLines_eq a)]

theorem blocks_pieces (a : Atlas) :
    blocks (pieces a) = (heads a).flatMap fun head =>
      (a.sections.entries.filter fun s => headOf s == head).flatMap fun s =>
        (exporting s).map (s, ·) := by
  simp only [pieces, headPieces, sectionPieces, blocks_append, blocks_flatMap, blocks_linePieces,
    blocks_blockPieces, List.nil_append, List.append_nil]

/-- **Its blocks are those of the listing**, less the files without exports. -/
theorem blocks_perm (a : Atlas) : (blocks (pieces a)).Perm
    ((blocks (Listing.pieces a)).filter fun b => kindNames b.2.exports ≠ []) := by
  have hlisting : ((blocks (Listing.pieces a)).filter fun b => kindNames b.2.exports ≠ []) =
      a.sections.entries.flatMap fun s => (exporting s).map (s, ·) := by
    rw [Listing.blocks_pieces, List.filter_flatMap]
    exact congrArg (a.sections.entries.flatMap ·) (funext fun s => List.filter_map)
  have hgathered : ((heads a).flatMap fun head =>
      a.sections.entries.filter fun s => headOf s == head).Perm a.sections.entries :=
    flatMap_filter_perm (nodup_eraseDups _) fun s hs =>
      List.mem_eraseDups.mpr (List.mem_map_of_mem hs)
  rw [hlisting, blocks_pieces, ← List.flatMap_assoc]
  exact hgathered.flatMap_right _

end Markdown

/-- **The two reports carry the same symbols.** Both are written piece by
piece; the listing has a block for every file of every section, and the report
by category has the same blocks, less the files without exports. In it the
sections with the same head stand together under one heading, in their order,
and the headings in the order in which the heads first came. -/
theorem blocks_of_reports (a : Atlas) :
    Markdown.render a = unlines ((Markdown.pieces a).flatMap Markdown.write) ∧
    Listing.render a = unlines ((Listing.pieces a).flatMap Listing.write) ∧
    blocks (Listing.pieces a) = (a.sections.entries.flatMap fun s => s.files.map (s, ·)) ∧
    (blocks (Markdown.pieces a)).Perm
      ((blocks (Listing.pieces a)).filter fun b => kindNames b.2.exports ≠ []) ∧
    blocks (Markdown.pieces a) = ((Markdown.heads a).flatMap fun head =>
      (a.sections.entries.filter fun s => Markdown.headOf s == head).flatMap fun s =>
        (Markdown.exporting s).map (s, ·)) ∧
    (∀ head, head ∈ Markdown.heads a ↔ ∃ s ∈ a.sections.entries, Markdown.headOf s = head) ∧
    (Markdown.heads a).Pairwise fun head head' =>
      (a.sections.entries.map Markdown.headOf).idxOf head <
        (a.sections.entries.map Markdown.headOf).idxOf head' :=
  ⟨Markdown.render_eq a, Listing.render_eq a, Listing.blocks_pieces a, Markdown.blocks_perm a,
    Markdown.blocks_pieces a, fun _ => List.mem_eraseDups.trans List.mem_map,
    pairwise_eraseDups _⟩

end Report

end ExportAtlas
