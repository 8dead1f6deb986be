import ExportAtlas.Proofs.RouteTree.RoundTrip
/-!
# The pre-order told by recursion

The walk over a forest keeps a stack. What it visits is what a recursion
visits that knows of no stack: each root in turn, as the node and behind it
the traversal of its children (`Traversal`). One run of the walk is the
traversal of what lies on its stack (`Traversal.walk`), and in a forest that
was built the recursion ends, since children are younger than their parents
(`Built.exists_traversal`).

So a node's descendants stand right behind it, all of them and nothing else
(`Built.block`), and no line of the forest is indented more than one level
deeper than the line before (`Built.isChain_depth`).
-/

namespace ExportAtlas

namespace RouteTree

open Text (IsTrimmed)

variable {t : RouteTree} {id p c r : Nat} {ids order order' seen stack : List Nat}

/-- Nodes visited by recursion: each in turn, and behind it what the traversal
of its children visits. -/
inductive Traversal (t : RouteTree) : (ids order : List Nat) → Prop
  | nil : Traversal t [] []
  | cons {id : Nat} {ids below after : List Nat} (hbelow : Traversal t (t.children id) below)
      (hafter : Traversal t ids after) : Traversal t (id :: ids) (id :: (below ++ after))

/-! ## The recursion ends -/

/-- Nodes above a bound have children above the next, so `k` calls go deep
enough for the `k` youngest nodes. -/
theorem Built.exists_traversal_of_le (ht : Built t) (k : Nat)
    (h : ∀ id ∈ ids, id < t.size ∧ t.size ≤ id + k) : ∃ order, Traversal t ids order := by
  induction k generalizing ids with
  | zero =>
    cases ids with
    | nil => exact ⟨[], .nil⟩
    | cons id ids =>
      have := h id (List.mem_cons_self ..)
      omega
  | succ k ihk =>
    induction ids with
    | nil => exact ⟨[], .nil⟩
    | cons id ids ih =>
      rw [List.forall_mem_cons] at h
      obtain ⟨after, hafter⟩ := ih h.2
      have hchildren : ∀ c ∈ t.children id, c < t.size ∧ t.size ≤ c + k := by
        intro c hc
        have hlt : id < c := ht.parent_lt (ht.mem_children.mp hc)
        exact ⟨ht.lt_of_mem_children hc, by omega⟩
      obtain ⟨below, hbelow⟩ := ihk hchildren
      exact ⟨_, .cons hbelow hafter⟩

/-- **The recursion ends** on the nodes of a forest. -/
theorem Built.exists_traversal (ht : Built t) (h : ∀ id ∈ ids, id < t.size) :
    ∃ order, Traversal t ids order :=
  ht.exists_traversal_of_le t.size fun id hid => ⟨h id hid, by omega⟩

/-- And it can end in one way only. -/
theorem Traversal.unique (h : Traversal t ids order) (h' : Traversal t ids order') :
    order = order' := by
  induction h generalizing order' with
  | nil =>
    cases h'
    rfl
  | cons _ _ ihbelow ihafter =>
    cases h' with
    | cons hbelow' hafter' => rw [ihbelow hbelow', ihafter hafter']

/-! ## The walk is the recursion -/

/-- **What lies on the stack is traversed** before the walk comes to what lies
below it. -/
theorem Traversal.walk (h : Traversal t ids order) (hwalk : Walk t seen (ids ++ stack)) :
    Walk t (seen ++ order) stack := by
  induction h generalizing seen stack with
  | nil => rwa [List.append_nil]
  | @cons id ids below after _ _ ihbelow ihafter =>
    rw [List.cons_append] at hwalk
    have hend := ihafter (ihbelow hwalk.step)
    rwa [List.append_cons, ← List.append_assoc]

/-- **The pre-order is the traversal of the roots.** -/
theorem Built.traversal_preorder (ht : Built t) : Traversal t t.roots t.preorder := by
  obtain ⟨order, horder⟩ := ht.exists_traversal fun r hr => (ht.mem_roots.mp hr).1
  have hwalk : Walk t ([] ++ order) [] := horder.walk (by
    rw [List.append_nil]
    exact .start)
  rwa [hwalk.eq_preorder ht]

/-- More rounds than there are nodes find nothing to do. -/
theorem Built.visit_eq_preorder (ht : Built t) {fuel : Nat} (h : t.size ≤ fuel) :
    t.visit fuel t.roots = t.preorder := by
  have hvisit := ht.walk_preorder.visit_eq (fuel - t.size)
  have hnone : ∀ k, t.visit k [] = [] := fun k => by cases k <;> rfl
  rwa [ht.length_preorder, Nat.add_sub_cancel' h, hnone, List.append_nil] at hvisit

/-! ## What a traversal visits -/

theorem Traversal.subset (h : Traversal t ids order) : ids ⊆ order := by
  induction h with
  | nil => exact List.nil_subset _
  | cons _ _ _ ihafter =>
    exact List.cons_subset_cons _ fun r hr => List.mem_append_right _ (ihafter hr)

/-- With a node its children are visited. -/
theorem Traversal.mem_of_mem_children (h : Traversal t ids order) (hp : p ∈ order)
    (hc : c ∈ t.children p) : c ∈ order := by
  induction h with
  | nil => cases hp
  | cons hbelow _ ihbelow ihafter =>
    rw [List.mem_cons, List.mem_append] at hp ⊢
    rcases hp with rfl | hp | hp
    · exact .inr (.inl (hbelow.subset hc))
    · exact .inr (.inl (ihbelow hp))
    · exact .inr (.inr (ihafter hp))

/-- A node lies on the way to what lies below its children. -/
theorem Built.mem_path_of_child (ht : Built t) (hr : r ∈ t.children p) (hc : c < t.size)
    (h : r ∈ t.path c) : p ∈ t.path c := by
  obtain ⟨way, rest, hway⟩ := List.append_of_mem h
  have hprefix : way ++ [r] <+: t.path c := ⟨rest, by rw [hway]; simp⟩
  have hrs := ht.lt_of_mem_children hr
  have hpath := ht.path_of_isPrefix hc hprefix
  have hmem : p ∈ t.path r := by
    rw [ht.path_eq_ancestors hrs, ht.ancestors_child hr]
    simp
  rw [hpath] at hmem
  exact hprefix.subset hmem

/-- **A traversal visits what lies below its nodes**, and nothing else. -/
theorem Traversal.mem_iff (ht : Built t) (h : Traversal t ids order)
    (hids : ∀ id ∈ ids, id < t.size) :
    c ∈ order ↔ c < t.size ∧ ∃ r ∈ ids, r ∈ t.path c := by
  constructor
  · intro hc
    induction h with
    | nil => cases hc
    | @cons id ids below after hbelow hafter ihbelow ihafter =>
      rw [List.forall_mem_cons] at hids
      rw [List.mem_cons, List.mem_append] at hc
      rcases hc with rfl | hc | hc
      · refine ⟨hids.1, c, List.mem_cons_self .., ?_⟩
        rw [ht.path_eq_ancestors hids.1]
        exact List.mem_append_right _ (List.mem_singleton_self c)
      · obtain ⟨hlt, r, hr, hrc⟩ := ihbelow (fun c hc => ht.lt_of_mem_children hc) hc
        exact ⟨hlt, id, List.mem_cons_self .., ht.mem_path_of_child hr hlt hrc⟩
      · obtain ⟨hlt, r, hr, hrc⟩ := ihafter hids.2 hc
        exact ⟨hlt, r, List.mem_cons_of_mem id hr, hrc⟩
  · rintro ⟨hc, r, hr, hrc⟩
    -- the way down from `r` leads over nodes that are visited
    induction c using Nat.strongRecOn with
    | ind c ih =>
      rw [ht.path_eq hc, List.mem_append, List.mem_singleton] at hrc
      rcases hrc with hrc | rfl
      · cases hp : t.parent? c with
        | none =>
          rw [hp] at hrc
          cases hrc
        | some p =>
          rw [hp, Option.map_some, Option.getD_some] at hrc
          have hlt : p < c := ht.parent_lt hp
          exact h.mem_of_mem_children (ih p hlt (by omega) hrc) (ht.mem_children.mpr hp)
      · exact h.subset hr

/-! ## Ancestors -/

theorem path_eq_nil (h : ¬ id < t.size) : t.path id = [] := by
  have hnone : t.node? id = none := by
    rwa [← Option.not_isSome_iff_eq_none, ← lt_size_iff]
  rw [path]
  cases t.size with
  | zero => rfl
  | succ fuel => rw [lineage, hnone]

/-- Ancestors are older. -/
theorem Built.lt_of_mem_ancestors (ht : Built t) (h : p ∈ t.ancestors c) : p < c := by
  by_cases hc : c < t.size
  · rw [ht.ancestors_eq hc] at h
    cases hparent : t.parent? c with
    | none =>
      rw [hparent] at h
      cases h
    | some q =>
      rw [hparent, Option.map_some, Option.getD_some] at h
      have hlt : q < c := ht.parent_lt hparent
      have := ht.le_of_mem_path (by omega) h
      omega
  · rw [ancestors, path_eq_nil hc] at h
    cases h

/-- A node's ancestors are the other nodes on the way to it. -/
theorem Built.mem_ancestors (ht : Built t) :
    p ∈ t.ancestors c ↔ (c < t.size ∧ p ∈ t.path c) ∧ p ≠ c := by
  by_cases hc : c < t.size
  · rw [and_iff_right hc, ht.path_eq_ancestors hc, List.mem_append, List.mem_singleton]
    constructor
    · intro h
      exact ⟨.inl h, Nat.ne_of_lt (ht.lt_of_mem_ancestors h)⟩
    · rintro ⟨h, hne⟩
      exact h.resolve_right hne
  · rw [ancestors, path_eq_nil hc, List.dropLast_nil]
    exact iff_of_false List.not_mem_nil fun h => hc h.1.1

/-! ## The block of a node -/

/-- A walk comes by each node that it has visited. -/
theorem Walk.exists_next (h : Walk t seen stack) (hid : id ∈ seen) :
    ∃ before rest, Walk t before (id :: rest) := by
  induction h with
  | start => cases hid
  | @step seen stack next h ih =>
    rcases List.mem_append.mp hid with hid | hid
    · exact ih hid
    · rw [List.mem_singleton.mp hid]
      exact ⟨seen, stack, h⟩

/-- **What lies below a node stands right behind it**, in one block that is the
traversal of its children. -/
theorem Built.block (ht : Built t) (hid : id < t.size) : ∃ before below after,
    t.preorder = before ++ id :: (below ++ after) ∧ Traversal t (t.children id) below ∧
    ∀ c, c ∈ below ↔ id ∈ t.ancestors c := by
  obtain ⟨before, rest, hwalk⟩ := ht.walk_preorder.exists_next (ht.mem_preorder.mpr hid)
  have hchildren : ∀ c ∈ t.children id, c < t.size := fun c hc => ht.lt_of_mem_children hc
  obtain ⟨below, hbelow⟩ := ht.exists_traversal hchildren
  obtain ⟨after, hafter⟩ := (hbelow.walk hwalk.step).isPrefix ht
  have horder : t.preorder = before ++ id :: (below ++ after) := by
    rw [← hafter, List.append_assoc, List.append_assoc, List.singleton_append]
  refine ⟨before, below, after, horder, hbelow, fun c => ?_⟩
  have hself : id ∉ below := fun hmem => by
    have hnodup := horder ▸ ht.nodup_preorder
    have htail := (List.nodup_append.mp hnodup).2.1
    exact (List.nodup_cons.mp htail).1 (List.mem_append_left _ hmem)
  have hone : ∀ i ∈ [id], i < t.size := fun i hi => List.mem_singleton.mp hi ▸ hid
  have hblock := (Traversal.cons hbelow .nil).mem_iff ht (c := c) hone
  rw [List.append_nil, List.mem_cons] at hblock
  rw [ht.mem_ancestors]
  constructor
  · intro hc
    obtain ⟨hlt, r, hr, hpath⟩ := hblock.mp (.inr hc)
    rw [List.mem_singleton.mp hr] at hpath
    exact ⟨⟨hlt, hpath⟩, fun heq => hself (heq ▸ hc)⟩
  · rintro ⟨⟨hlt, hpath⟩, hne⟩
    exact (hblock.mpr ⟨hlt, id, List.mem_singleton_self id, hpath⟩).resolve_left (Ne.symm hne)

/-- **Ancestors stand in front.** -/
theorem Built.rank_lt_of_mem_ancestors (ht : Built t) (h : p ∈ t.ancestors id) :
    t.rank p < t.rank id := by
  obtain ⟨⟨hid, hpath⟩, -⟩ := ht.mem_ancestors.mp h
  have hp : p < t.size := Nat.lt_of_le_of_lt (ht.le_of_mem_path hid hpath) hid
  obtain ⟨before, below, after, horder, -, hbelow⟩ := ht.block hp
  have hpair : [p, id].Sublist t.preorder := by
    have hid : [id].Sublist (below ++ after) :=
      List.singleton_sublist.mpr (List.mem_append_left _ ((hbelow id).mpr h))
    rw [horder]
    exact (hid.cons_cons p).trans (List.sublist_append_right _ _)
  have hranks := ht.pairwise_map_rank hpair
  rw [List.map_cons, List.map_singleton, List.pairwise_pair] at hranks
  exact hranks

/-! ## Indentation -/

/-- A node is one level deeper at most than the node visited before it. -/
theorem Walk.isChain_depth (ht : Built t) (h : Walk t seen stack) :
    seen.IsChain fun a b => t.depth b ≤ t.depth a + 1 := by
  induction h with
  | start => exact .nil
  | @step seen stack id h ih =>
    refine List.isChain_append.mpr ⟨ih, .singleton id, fun a ha b hb => ?_⟩
    obtain rfl : id = b := Option.some.inj hb
    have hseen : a ∈ seen := List.mem_of_mem_getLast? ha
    have has : a < t.size := h.lt_size ht (List.mem_append_left _ hseen)
    have hlast : t.lastPath seen = t.path a := by rw [lastPath, ha]; rfl
    -- the ancestors of the next node are on the way to the last
    have hle := (h.ancestors_isPrefix ht).length_le
    rwa [hlast, ht.length_path has, ht.length_ancestors (h.next_lt_size ht)] at hle

theorem Built.isChain_depth (ht : Built t) :
    t.preorder.IsChain fun a b => t.depth b ≤ t.depth a + 1 :=
  ht.walk_preorder.isChain_depth ht

theorem Built.toLines_eq (ht : Built t) :
    t.toLines = t.preorder.map fun id => indented (t.depth id) (t.name id) :=
  List.map_congr_left fun _ hid => t.line_eq (ht.mem_preorder.mp hid)

/-- Where no name is mistaken for indentation, the lines themselves say so. -/
theorem Built.isChain_lineDepth (ht : Built t)
    (hnames : ∀ id < t.size, IsTrimmed (t.name id).toList) :
    t.toLines.IsChain fun a b => lineDepth b ≤ lineDepth a + 1 := by
  have hdepth : ∀ id ∈ t.preorder, lineDepth (indented (t.depth id) (t.name id)) = t.depth id :=
    fun id hid => lineDepth_indented (hnames id (ht.mem_preorder.mp hid)) (t.depth id)
  rw [ht.toLines_eq, List.isChain_map]
  refine ht.isChain_depth.imp_of_mem_imp fun a b ha hb hab => ?_
  rwa [hdepth a ha, hdepth b hb]

/-! ## The pre-order of a forest -/

/-- What the pre-order says of a forest. -/
structure Traversed (t : RouteTree) : Prop where
  /-- The walk ends with nothing left to visit. -/
  walk : Walk t t.preorder []
  /-- A bound on its rounds that lets it end changes nothing. -/
  visit : ∀ fuel ≥ t.size, t.visit fuel t.roots = t.preorder
  /-- It visits each root in turn, and behind a node the traversal of its
  children. -/
  traversal : ∀ order, Traversal t t.roots order ↔ order = t.preorder
  perm : t.preorder.Perm (List.range t.size)
  ancestor : ∀ id, ∀ p ∈ t.ancestors id, t.preorder.idxOf p < t.preorder.idxOf id
  /-- What lies below a node stands right behind it, in one block. -/
  block : ∀ id < t.size, ∃ before below after,
    t.preorder = before ++ id :: (below ++ after) ∧ Traversal t (t.children id) below ∧
    ∀ c, c ∈ below ↔ id ∈ t.ancestors c
  /-- The lines are those of the nodes, in this order. -/
  lines : t.toLines = t.preorder.map fun id => indented (t.depth id) (t.name id)
  /-- And none is indented more than one level deeper than the one before. -/
  indentation : t.preorder.IsChain fun a b => t.depth b ≤ t.depth a + 1
  lineDepth : (∀ id < t.size, IsTrimmed (t.name id).toList) →
    t.toLines.IsChain fun a b => lineDepth b ≤ lineDepth a + 1

/-- **The walk with a stack is the traversal by recursion**, of every forest
that is built by adding nodes under parents that are there. -/
theorem traversed_of_built (ht : Built t) : Traversed t where
  walk := ht.walk_preorder
  visit := fun _ hfuel => ht.visit_eq_preorder hfuel
  traversal := by
    intro order
    constructor
    · intro h
      exact h.unique ht.traversal_preorder
    · rintro rfl
      exact ht.traversal_preorder
  perm := ht.preorder_perm
  ancestor := fun _ _ => ht.rank_lt_of_mem_ancestors
  block := fun _ => ht.block
  lines := ht.toLines_eq
  indentation := ht.isChain_depth
  lineDepth := ht.isChain_lineDepth

/-- Two trees that were added in turns are visited one after the other. -/
theorem traversed_inTurns : Built (ofAdditions inTurns) ∧ Traversed (ofAdditions inTurns) ∧
    (ofAdditions inTurns).preorder = [0, 2, 5, 4, 1, 3] ∧
    (ofAdditions inTurns).ancestors 5 = [0, 2] := by
  have ht : Built (ofAdditions inTurns) := built_ofAdditions (by decide)
  exact ⟨ht, traversed_of_built ht, by decide, by decide⟩

end RouteTree

end ExportAtlas
