import ExportAtlas.Proofs.RouteTree.Lines
/-!
# Forests written and read again

A forest writes its nodes in pre-order, so it is read back with its nodes
numbered in that order (`renumbered`, `copied_preorder`), whatever the order
in which they were added: while it is read, the way to the last node is the
way to it in the forest that was written (`Walk.copies`). What was read from
lines is numbered so already, and is read again as it is
(`renumbered_eq_self`).
-/

namespace ExportAtlas

namespace RouteTree

open Text (IsTrimmed)

variable {t : RouteTree} {id p c k : Nat} {seen stack : List Nat}

/-! ## Numbers in pre-order -/

/-- The position of a node in the pre-order. -/
def rank (t : RouteTree) (id : Nat) : Nat := t.preorder.idxOf id

/-- The forest with its nodes numbered in pre-order, and all links with
them. -/
def renumbered (t : RouteTree) : RouteTree where
  nodes := (t.preorder.map fun id =>
    ⟨t.name id, t.depth id, (t.parent? id).map t.rank, (t.children id).map t.rank⟩).toArray
  roots := t.roots.map t.rank

theorem Built.mem_preorder (ht : Built t) : id ∈ t.preorder ↔ id < t.size := by
  rw [ht.preorder_perm.mem_iff, List.mem_range]

theorem Built.nodup_preorder (ht : Built t) : t.preorder.Nodup :=
  ht.preorder_perm.nodup_iff.mpr List.nodup_range

theorem Built.length_preorder (ht : Built t) : t.preorder.length = t.size := by
  rw [ht.preorder_perm.length_eq, List.length_range]

/-- **Positions and ranks** are the same. -/
theorem Built.getElem?_preorder (ht : Built t) :
    t.preorder[k]? = some id ↔ id < t.size ∧ t.rank id = k := by
  constructor
  · intro h
    obtain ⟨hk, rfl⟩ := List.getElem?_eq_some_iff.mp h
    exact ⟨ht.mem_preorder.mp (List.getElem_mem hk), ht.nodup_preorder.idxOf_getElem k hk⟩
  · rintro ⟨hid, rfl⟩
    have hmem := ht.mem_preorder.mpr hid
    rw [rank, List.getElem?_eq_getElem (List.idxOf_lt_length_iff.mpr hmem), List.getElem_idxOf]

theorem Built.rank_lt (ht : Built t) (hid : id < t.size) : t.rank id < t.size := by
  rw [← ht.length_preorder]
  exact List.idxOf_lt_length_iff.mpr (ht.mem_preorder.mpr hid)

theorem Built.rank_inj (ht : Built t) (hid : id < t.size) (hp : p < t.size)
    (h : t.rank id = t.rank p) : id = p := by
  have h₁ := ht.getElem?_preorder.mpr ⟨hid, h⟩
  have h₂ := ht.getElem?_preorder.mpr ⟨hp, rfl⟩
  exact Option.some.inj (h₁.symm.trans h₂)

/-- Nodes in the order of the walk have increasing ranks. -/
theorem Built.pairwise_map_rank (ht : Built t) {ids : List Nat} (h : ids.Sublist t.preorder) :
    (ids.map t.rank).Pairwise (· < ·) := by
  have hrange : t.preorder.map t.rank = List.range t.size := by
    refine List.ext_getElem? fun k => ?_
    rw [List.getElem?_map]
    rcases Nat.lt_or_ge k t.size with hk | hk
    · have hlt : k < t.preorder.length := by rwa [ht.length_preorder]
      have hget := List.getElem?_eq_getElem hlt
      rw [hget, Option.map_some, (ht.getElem?_preorder.mp hget).2, List.getElem?_range hk]
    · rw [List.getElem?_eq_none (by rwa [ht.length_preorder]),
        List.getElem?_eq_none (by rwa [List.length_range])]
      rfl
  exact List.Pairwise.sublist (hrange ▸ h.map t.rank) List.pairwise_lt_range

/-- The next node of a walk has the number of nodes visited as its rank. -/
theorem Walk.rank_next (ht : Built t) (h : Walk t seen (id :: stack)) :
    t.rank id = seen.length := by
  obtain ⟨rest, hrest⟩ := h.step.isPrefix ht
  refine (ht.getElem?_preorder.mp ?_).2
  rw [← hrest, List.append_assoc, List.getElem?_append_right (Nat.le_refl _), Nat.sub_self]
  rfl

/-! ## Copying along a walk -/

/-- The forest that grows from the names and depths of nodes. -/
def copied (t : RouteTree) (seen : List Nat) : Growing :=
  seen.foldl (fun g id => g.grow (t.depth id) (t.name id)) Growing.start

theorem copied_concat (t : RouteTree) (seen : List Nat) (id : Nat) :
    t.copied (seen ++ [id]) = (t.copied seen).grow (t.depth id) (t.name id) := by
  rw [copied, List.foldl_append]
  rfl

theorem rightEdge_copied (t : RouteTree) (seen : List Nat) : (t.copied seen).RightEdge := by
  induction seen using List.reverseRecOn with
  | nil => exact Growing.RightEdge.start
  | append_singleton seen id ih =>
    rw [copied_concat]
    exact ih.grow _ _

theorem size_copied (t : RouteTree) (seen : List Nat) :
    (t.copied seen).tree.size = seen.length := by
  induction seen using List.reverseRecOn with
  | nil => rfl
  | append_singleton seen id ih =>
    rw [copied_concat, Growing.RightEdge.size_grow, ih, List.length_append, List.length_singleton]

/-- A node cuts the way to the last one back to its own ancestors. -/
theorem Walk.take_depth (ht : Built t) (h : Walk t seen (id :: stack)) :
    (t.lastPath seen).take (t.depth id) = t.ancestors id := by
  rw [← ht.length_ancestors (h.next_lt_size ht)]
  exact (List.prefix_iff_eq_take.mp (h.ancestors_isPrefix ht)).symm

theorem Built.getLast?_ancestors (ht : Built t) (hid : id < t.size) :
    (t.ancestors id).getLast? = t.parent? id := by
  rw [ht.ancestors_eq hid]
  cases hp : t.parent? id with
  | none => rfl
  | some p => exact ht.getLast?_path (Nat.lt_trans (ht.parent_lt hp) hid)

/-- What a copy has of the nodes copied so far: the way to the last of them,
and each node's name, depth and parent, by ranks. -/
structure Copies (t : RouteTree) (seen : List Nat) (g : Growing) : Prop where
  trail : g.trail = (t.lastPath seen).map t.rank
  node : ∀ k id, seen[k]? = some id → g.tree.name k = t.name id ∧ g.tree.depth k = t.depth id ∧
    g.tree.parent? k = (t.parent? id).map t.rank

/-- **A walk is copied** node by node: the way that is open when a node comes
leads to its parent. -/
theorem Walk.copies (ht : Built t) (h : Walk t seen stack) : Copies t seen (t.copied seen) := by
  induction h with
  | start => exact ⟨rfl, nofun⟩
  | @step seen stack id h ih =>
    have hid := h.next_lt_size ht
    have hedge := rightEdge_copied t seen
    have hsize := size_copied t seen
    have htake : (t.copied seen).trail.take (t.depth id) = (t.ancestors id).map t.rank := by
      rw [ih.trail, ← List.map_take, h.take_depth ht]
    rw [copied_concat]
    refine ⟨?_, fun k i hk => ?_⟩
    · rw [lastPath_concat, ht.path_eq_ancestors hid, List.map_append, List.map_singleton,
        h.rank_next ht, ← hsize, ← htake]
      rfl
    · have hlt : k < seen.length + 1 := by
        have := (List.getElem?_eq_some_iff.mp hk).1
        rwa [List.length_append, List.length_singleton] at this
      rcases Nat.lt_or_eq_of_le (Nat.le_of_lt_succ hlt) with hold | rfl
      · rw [List.getElem?_append_left hold] at hk
        have hne : k ≠ (t.copied seen).tree.size := by omega
        rw [Growing.grow, name_add_of_ne _ _ _ hne, depth_add_of_ne _ _ _ hne,
          parent?_add_of_ne _ _ _ hne]
        exact ih.node k i hk
      · rw [List.getElem?_concat_length] at hk
        obtain rfl : id = i := Option.some.inj hk
        have hparent := hedge.parent_lt (t.depth id)
        rw [← hsize]
        refine ⟨name_add_size _ _ _ hparent, ?_, ?_⟩
        · -- no clipping: the ancestors are all on the way
          have hlength := congrArg List.length (h.take_depth ht)
          rw [List.length_take, ht.length_ancestors hid] at hlength
          rw [hedge.depth_grow, ih.trail, List.length_map, hlength]
        · rw [Growing.grow, parent?_add_size _ _ _ hparent, htake, List.getLast?_map,
            ht.getLast?_ancestors hid]

/-! ## The copy is the forest, renumbered -/

theorem node?_eq (hid : id < t.size) :
    t.node? id = some ⟨t.name id, t.depth id, t.parent? id, t.children id⟩ := by
  obtain ⟨n, hn⟩ := Option.isSome_iff_exists.mp (lt_size_iff.mp hid)
  rw [name, depth, parent?, children, hn]
  rfl

/-- Forests with the same nodes and roots are the same. -/
theorem ext_node? {t t' : RouteTree} (hnodes : ∀ id, t.node? id = t'.node? id)
    (hroots : t.roots = t'.roots) : t = t' := by
  cases t
  cases t'
  congr
  exact Array.ext_getElem? hnodes

theorem node?_renumbered (t : RouteTree) (k : Nat) :
    t.renumbered.node? k = (t.preorder[k]?).map fun id =>
      ⟨t.name id, t.depth id, (t.parent? id).map t.rank, (t.children id).map t.rank⟩ := by
  rw [node?, renumbered, List.getElem?_toArray, List.getElem?_map]

section Copy

variable (ht : Built t)

include ht

theorem parent?_copied (hid : id < t.size) :
    (t.copied t.preorder).tree.parent? (t.rank id) = (t.parent? id).map t.rank :=
  ((ht.walk_preorder.copies ht).node _ id (ht.getElem?_preorder.mpr ⟨hid, rfl⟩)).2.2

theorem exists_rank_of_lt (hk : k < t.size) : ∃ id < t.size, t.rank id = k := by
  have hlt : k < t.preorder.length := by rwa [ht.length_preorder]
  exact ⟨_, ht.getElem?_preorder.mp (List.getElem?_eq_getElem hlt)⟩

theorem children_copied (hid : id < t.size) :
    (t.copied t.preorder).tree.children (t.rank id) = (t.children id).map t.rank := by
  have hbuilt := (rightEdge_copied t t.preorder).built
  have hsub := ht.walk_preorder.children_sublist (ht.mem_preorder.mpr hid)
  rw [List.append_nil] at hsub
  refine (hbuilt.pairwise_children _).eq_of_mem_iff (ht.pairwise_map_rank hsub) fun k => ?_
  rw [hbuilt.mem_children, List.mem_map]
  constructor
  · intro hk
    have hlt := parent?_lt_size hk
    rw [size_copied, ht.length_preorder] at hlt
    obtain ⟨c, hc, rfl⟩ := exists_rank_of_lt ht hlt
    rw [parent?_copied ht hc, Option.map_eq_some_iff] at hk
    obtain ⟨p, hp, hrank⟩ := hk
    obtain rfl := ht.rank_inj (Nat.lt_trans (ht.parent_lt hp) hc) hid hrank
    exact ⟨c, ht.mem_children.mpr hp, rfl⟩
  · rintro ⟨c, hc, rfl⟩
    rw [parent?_copied ht (ht.lt_of_mem_children hc), ht.mem_children.mp hc]
    rfl

theorem roots_copied : (t.copied t.preorder).tree.roots = t.roots.map t.rank := by
  have hbuilt := (rightEdge_copied t t.preorder).built
  have hsub := ht.walk_preorder.roots_sublist
  rw [List.append_nil] at hsub
  refine hbuilt.pairwise_roots.eq_of_mem_iff (ht.pairwise_map_rank hsub) fun k => ?_
  rw [hbuilt.mem_roots, List.mem_map, size_copied, ht.length_preorder]
  constructor
  · rintro ⟨hlt, hnone⟩
    obtain ⟨r, hr, rfl⟩ := exists_rank_of_lt ht hlt
    rw [parent?_copied ht hr, Option.map_eq_none_iff] at hnone
    exact ⟨r, ht.mem_roots.mpr ⟨hr, hnone⟩, rfl⟩
  · rintro ⟨r, hr, rfl⟩
    obtain ⟨hlt, hnone⟩ := ht.mem_roots.mp hr
    rw [parent?_copied ht hlt, hnone]
    exact ⟨ht.rank_lt hlt, rfl⟩

/-- **The copy of a whole forest** is the forest with its nodes numbered in
pre-order. -/
theorem copied_preorder : (t.copied t.preorder).tree = t.renumbered := by
  have hsize : (t.copied t.preorder).tree.size = t.size := by
    rw [size_copied, ht.length_preorder]
  refine ext_node? (fun k => ?_) (roots_copied ht)
  rw [node?_renumbered]
  rcases Nat.lt_or_ge k t.size with hk | hk
  · obtain ⟨id, hid, rfl⟩ := exists_rank_of_lt ht hk
    have hget := ht.getElem?_preorder.mpr ⟨hid, rfl⟩
    obtain ⟨hname, hdepth, hparent⟩ := (ht.walk_preorder.copies ht).node _ id hget
    rw [node?_eq (by rwa [hsize]), hget, hname, hdepth, hparent, children_copied ht hid]
    rfl
  · have hnone : t.preorder[k]? = none := List.getElem?_eq_none (by rwa [ht.length_preorder])
    rw [hnone, node?, Array.getElem?_eq_none (by rw [← hsize] at hk; exact hk)]
    rfl

/-- Numbers in pre-order stay. -/
theorem renumbered_eq_self (h : t.preorder = List.range t.size) : t.renumbered = t := by
  have hrank : ∀ id < t.size, t.rank id = id := fun id hid =>
    (ht.getElem?_preorder.mp (by rw [h, List.getElem?_range hid])).2
  have hmap : ∀ ids : List Nat, (∀ id ∈ ids, id < t.size) → ids.map t.rank = ids := fun ids hids =>
    (List.map_congr_left fun id hid => hrank id (hids id hid)).trans (List.map_id ids)
  refine ext_node? (fun k => ?_) (hmap t.roots fun r hr => (ht.mem_roots.mp hr).1)
  rw [node?_renumbered, h]
  rcases Nat.lt_or_ge k t.size with hk | hk
  · have hparent : (t.parent? k).map t.rank = t.parent? k := by
      cases hp : t.parent? k with
      | none => rfl
      | some p => rw [Option.map_some, hrank p (Nat.lt_trans (ht.parent_lt hp) hk)]
    rw [List.getElem?_range hk, Option.map_some, hparent,
      hmap _ fun c hc => ht.lt_of_mem_children hc, node?_eq hk]
  · rw [List.getElem?_eq_none (by rwa [List.length_range]), node?, Array.getElem?_eq_none hk]
    rfl

/-- **Reading back what a forest writes** copies it along its pre-order. -/
theorem read_toLines (hnames : ∀ id < t.size, IsTrimmed (t.name id).toList) :
    read t.toLines = t.copied t.preorder := by
  have hfold : ∀ (ids : List Nat) (g : Growing), (∀ id ∈ ids, id < t.size) →
      (ids.map fun id => ((t.node? id).map RouteNode.line).getD "").foldl Growing.addLine g =
        ids.foldl (fun g id => g.grow (t.depth id) (t.name id)) g := by
    intro ids
    induction ids with
    | nil => exact fun g _ => rfl
    | cons id ids ih =>
      intro g hids
      have hid := hids id (List.mem_cons_self ..)
      rw [List.map_cons, List.foldl_cons, List.foldl_cons, t.line_eq hid,
        Growing.addLine_indented (hnames id hid)]
      exact ih _ fun i hi => hids i (List.mem_cons_of_mem id hi)
  exact hfold t.preorder Growing.start fun id hid => ht.mem_preorder.mp hid

end Copy

/-- **A forest is read back as it was written**, with its nodes numbered in
pre-order. -/
theorem ofLines_toLines (ht : Built t)
    (hnames : ∀ id < t.size, IsTrimmed (t.name id).toList) :
    t.preorder.Perm (List.range t.size) ∧ ofLines t.toLines = t.renumbered := by
  refine ⟨ht.preorder_perm, ?_⟩
  rw [ofLines_eq, read_toLines ht hnames, copied_preorder ht]

/-- Two trees that were added in turns are written one after the other. -/
theorem ofLines_toLines_inTurns : Built (ofAdditions inTurns) ∧
    (∀ id < (ofAdditions inTurns).size, IsTrimmed ((ofAdditions inTurns).name id).toList) ∧
    (ofAdditions inTurns).preorder.Perm (List.range (ofAdditions inTurns).size) ∧
    ofLines (ofAdditions inTurns).toLines = (ofAdditions inTurns).renumbered ∧
    (ofAdditions inTurns).renumbered.roots = [0, 4] ∧
    (ofAdditions inTurns).renumbered.children 0 = [1, 3] := by
  have hfirst : ParentsFirst inTurns := by decide
  have ht : Built (ofAdditions inTurns) := built_ofAdditions hfirst
  have htrimmed : ∀ a ∈ inTurns, IsTrimmed a.1.toList := by decide
  have hnames := forall_name_ofAdditions (P := fun name => IsTrimmed name.toList) hfirst htrimmed
  obtain ⟨hperm, hread⟩ := ofLines_toLines ht hnames
  exact ⟨ht, hnames, hperm, hread, by decide, by decide⟩

/-- The names of a forest that was read are those of trimmed lines. -/
theorem isTrimmed_name_read (lines : List String) (hid : id < (read lines).tree.size) :
    IsTrimmed ((read lines).tree.name id).toList := by
  rw [size_read] at hid
  have hline := List.getElem?_eq_getElem hid
  rw [(node_read lines _ hline).1, String.toList_ofList]
  refine Text.isTrimmed_trim fun hnil => ?_
  have hnaming := (List.mem_filter.mp (List.getElem_mem hid)).2
  rw [(trim_eq_nil_iff_isBlankLine _).mp hnil] at hnaming
  cases hnaming

/-- **Lines are read in their order.** Every line that is not blank makes one
node, and the nodes are numbered as the lines stand, which is their
pre-order; a node is named as its line is trimmed, the first is a root, and
each other is as deep as half the bytes of its indentation, or one deeper
than the node before. Writing what was read and reading it again changes
nothing. -/
theorem nodes_ofLines (lines : List String) :
    (ofLines lines).size = (namingLines lines).length ∧
    (ofLines lines).preorder = List.range (ofLines lines).size ∧
    (∀ id line, (namingLines lines)[id]? = some line →
      (ofLines lines).name id = String.ofList (Text.trim line.toList) ∧
      (ofLines lines).depth id = (ofLines lines).clippedDepth line id) ∧
    ofLines (ofLines lines).toLines = ofLines lines := by
  have hedge := rightEdge_read lines
  have hpre := hedge.preorder_eq
  refine ⟨size_read lines, hpre, fun id line => node_read lines line, ?_⟩
  rw [ofLines_eq lines, ofLines_eq,
    read_toLines hedge.built fun id hid => isTrimmed_name_read lines hid,
    copied_preorder hedge.built, renumbered_eq_self hedge.built hpre]

end RouteTree

end ExportAtlas
