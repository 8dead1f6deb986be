import ExportAtlas.Proofs.RouteTree.Growth
import ExportAtlas.Proofs.Text.Pieces
/-!
# Reading a forest from lines

Reading lines grows a forest along its right edge (`rightEdge_read`): one
node for each line that is not blank, named as the line is trimmed, as deep
as the line asks or as the line before allows (`node_read`).
-/

namespace ExportAtlas

namespace RouteTree

open Text (IsTrimmed isBlank)

variable {t : RouteTree} {id k : Nat}

/-! ## Reading one line -/

/-- Nothing but blanks. -/
def isBlankLine (line : String) : Bool := line.toList.all isBlank

/-- A name behind two spaces a level. -/
def indented (depth : Nat) (name : String) : String :=
  String.ofList (List.replicate (2 * depth) ' ') ++ name

/-- The line of a node. -/
theorem line_eq (t : RouteTree) (hid : id < t.size) :
    ((t.node? id).map RouteNode.line).getD "" = indented (t.depth id) (t.name id) := by
  obtain ⟨n, hn⟩ := Option.isSome_iff_exists.mp (lt_size_iff.mp hid)
  rw [depth, name, hn]
  rfl

theorem trim_eq_nil_iff_isBlankLine (line : String) :
    Text.trim line.toList = [] ↔ isBlankLine line = true := by
  rw [Text.trim_eq_nil_iff, isBlankLine, List.all_eq_true]

theorem Growing.addLine_of_blank (g : Growing) {line : String} (h : isBlankLine line = true) :
    g.addLine line = g := by
  rw [Growing.addLine, lineName?, (trim_eq_nil_iff_isBlankLine line).mpr h]

/-- **A line that is not blank** is one more node. -/
theorem Growing.addLine_of_not_blank (g : Growing) {line : String} (h : isBlankLine line = false) :
    g.addLine line = g.grow (lineDepth line) (String.ofList (Text.trim line.toList)) := by
  have hname : lineName? line = some (String.ofList (Text.trim line.toList)) := by
    have hne : Text.trim line.toList ≠ [] := by
      rw [ne_eq, trim_eq_nil_iff_isBlankLine, h]
      exact Bool.false_ne_true
    rw [lineName?]
    split
    · rename_i hnil
      exact absurd hnil hne
    · rfl
  rw [Growing.addLine, hname]
  rfl

theorem width_replicate (n : Nat) : Text.Utf8.width (List.replicate n ' ') = n := by
  induction n with
  | zero => rfl
  | succ n ih =>
    rw [List.replicate_succ, Text.Utf8.width, ih]
    exact Nat.add_comm 1 n

section Indented

variable {name : String} (h : IsTrimmed name.toList) (depth : Nat)

theorem toList_indented (depth : Nat) (name : String) :
    (indented depth name).toList = List.replicate (2 * depth) ' ' ++ name.toList := by
  rw [indented, String.toList_append, String.toList_ofList]

theorem isBlank_of_mem_replicate {n : Nat} {d : Char} (hd : d ∈ List.replicate n ' ') :
    isBlank d = true := by
  rw [List.eq_of_mem_replicate hd]
  rfl

include h

theorem isBlankLine_indented : isBlankLine (indented depth name) = false := by
  obtain ⟨d, rest, hd⟩ := List.exists_cons_of_ne_nil h.ne_nil
  rw [isBlankLine, toList_indented, List.all_append, hd, List.all_cons, h.head d (by rw [hd]; rfl),
    Bool.false_and, Bool.and_false]

theorem lineDepth_indented : lineDepth (indented depth name) = depth := by
  have hname : name.toList.takeWhile isBlank = [] := by
    obtain ⟨d, rest, hd⟩ := List.exists_cons_of_ne_nil h.ne_nil
    rw [hd, List.takeWhile_cons, h.head d (by rw [hd]; rfl), if_neg Bool.false_ne_true]
  rw [lineDepth, toList_indented, List.takeWhile_append_of_pos fun d => isBlank_of_mem_replicate,
    hname, List.append_nil, width_replicate]
  omega

/-- **What was indented is read back**, at its depth. -/
theorem Growing.addLine_indented (g : Growing) :
    g.addLine (indented depth name) = g.grow depth name := by
  have htrim := h.trim_eq (b := []) (fun _ hd => isBlank_of_mem_replicate (n := 2 * depth) hd) nofun
  rw [List.append_nil] at htrim
  rw [g.addLine_of_not_blank (isBlankLine_indented h depth), lineDepth_indented h, toList_indented,
    htrim, String.ofList_toList]

end Indented

/-! ## Writing a forest that grows -/

namespace Growing.RightEdge

variable {g : Growing}

theorem toLines_eq (h : g.RightEdge) : g.tree.toLines =
    (List.range g.tree.size).map fun id => indented (g.tree.depth id) (g.tree.name id) := by
  rw [toLines, h.preorder_eq]
  exact List.map_congr_left fun id hid => g.tree.line_eq (List.mem_range.mp hid)

/-- **One more node is one more line.** -/
theorem toLines_grow (h : g.RightEdge) (depth : Nat) (name : String) :
    (g.grow depth name).tree.toLines =
      g.tree.toLines ++ [indented (min depth g.trail.length) name] := by
  have hold : ∀ id ∈ List.range g.tree.size,
      indented ((g.grow depth name).tree.depth id) ((g.grow depth name).tree.name id) =
        indented (g.tree.depth id) (g.tree.name id) := by
    intro id hid
    have hne : id ≠ g.tree.size := Nat.ne_of_lt (List.mem_range.mp hid)
    rw [Growing.grow, depth_add_of_ne _ _ _ hne, name_add_of_ne _ _ _ hne]
  have hname : (g.grow depth name).tree.name g.tree.size = name :=
    name_add_size _ _ _ (h.parent_lt depth)
  rw [(h.grow depth name).toLines_eq, size_grow, List.range_succ, List.map_append,
    List.map_singleton, h.depth_grow, hname, List.map_congr_left hold, h.toLines_eq]

end Growing.RightEdge

/-! ## Reading lines -/

/-- The forest that lines write, and the way to its last node. -/
def read (lines : List String) : Growing := lines.foldl Growing.addLine Growing.start

theorem ofLines_eq (lines : List String) : ofLines lines = (read lines).tree := rfl

theorem read_concat (lines : List String) (line : String) :
    read (lines ++ [line]) = (read lines).addLine line := by
  rw [read, List.foldl_append]
  rfl

theorem rightEdge_read (lines : List String) : (read lines).RightEdge := by
  induction lines using List.reverseRecOn with
  | nil => exact Growing.RightEdge.start
  | append_singleton lines line ih =>
    rw [read_concat]
    cases hblank : isBlankLine line with
    | true => rwa [Growing.addLine_of_blank _ hblank]
    | false =>
      rw [Growing.addLine_of_not_blank _ hblank]
      exact ih.grow _ _

/-- The lines that are not blank. -/
def namingLines (lines : List String) : List String := lines.filter fun line => !isBlankLine line

/-- The depth of a line's node: the first one is a root, and each other is at
most one deeper than the one before it. -/
def clippedDepth (t : RouteTree) (line : String) : Nat → Nat
  | 0 => 0
  | k + 1 => min (Text.Utf8.width (line.toList.takeWhile isBlank) / 2) (t.depth k + 1)

theorem namingLines_concat (lines : List String) (line : String) :
    namingLines (lines ++ [line]) =
      namingLines lines ++ if isBlankLine line then [] else [line] := by
  rw [namingLines, List.filter_append, namingLines]
  cases hblank : isBlankLine line <;> simp [hblank]

theorem size_read (lines : List String) : (read lines).tree.size = (namingLines lines).length := by
  induction lines using List.reverseRecOn with
  | nil => rfl
  | append_singleton lines line ih =>
    rw [read_concat, namingLines_concat]
    cases hblank : isBlankLine line with
    | true =>
      rw [Growing.addLine_of_blank _ hblank, ih, if_pos rfl, List.append_nil]
    | false =>
      rw [Growing.addLine_of_not_blank _ hblank, Growing.RightEdge.size_grow, ih,
        if_neg Bool.false_ne_true, List.length_append, List.length_singleton]

/-- **Each line makes its node**, named as the line is trimmed and as deep as
the line before allows. -/
theorem node_read (lines : List String) (line : String)
    (hline : (namingLines lines)[id]? = some line) :
    (read lines).tree.name id = String.ofList (Text.trim line.toList) ∧
      (read lines).tree.depth id = (read lines).tree.clippedDepth line id := by
  induction lines using List.reverseRecOn with
  | nil => cases hline
  | append_singleton lines last ih =>
    have hsize := size_read lines
    have hedge := rightEdge_read lines
    rw [namingLines_concat] at hline
    rw [read_concat]
    cases hblank : isBlankLine last with
    | true =>
      rw [hblank, if_pos rfl, List.append_nil] at hline
      rw [Growing.addLine_of_blank _ hblank]
      exact ih hline
    | false =>
      rw [hblank, if_neg Bool.false_ne_true] at hline
      rw [Growing.addLine_of_not_blank _ hblank]
      have hlt : id < (namingLines lines).length + 1 := by
        have := (List.getElem?_eq_some_iff.mp hline).1
        rwa [List.length_append, List.length_singleton] at this
      -- the depths of the nodes that were there are as before
      have hclipped : ∀ l, clippedDepth ((read lines).grow (lineDepth last)
          (String.ofList (Text.trim last.toList))).tree l id =
          clippedDepth (read lines).tree l id := by
        intro l
        cases id with
        | zero => rfl
        | succ k =>
          rw [clippedDepth, clippedDepth, Growing.grow, depth_add_of_ne _ _ _ (by omega)]
      rw [hclipped]
      rcases Nat.lt_or_eq_of_le (Nat.le_of_lt_succ hlt) with hold | rfl
      · rw [List.getElem?_append_left hold] at hline
        rw [Growing.grow, name_add_of_ne _ _ _ (by omega), depth_add_of_ne _ _ _ (by omega)]
        exact ih hline
      · rw [List.getElem?_concat_length] at hline
        obtain rfl : last = line := Option.some.inj hline
        rw [← hsize]
        refine ⟨name_add_size _ _ _ (hedge.parent_lt _), ?_⟩
        rw [hedge.depth_grow]
        cases hk : (read lines).tree.size with
        | zero =>
          rw [hedge.trail_eq_nil hk]
          exact Nat.min_zero _
        | succ k =>
          rw [hedge.length_trail hk]
          rfl

end RouteTree

end ExportAtlas
