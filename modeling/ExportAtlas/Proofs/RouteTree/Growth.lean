import ExportAtlas.Proofs.RouteTree.Walk
/-!
# Growing a forest along its right edge

A forest that is read or copied node by node grows along the way to its last
node: each new node hangs somewhere on that way (`Growing.grow`). Such a
forest keeps what lies below a node in one piece, right behind it
(`Growing.RightEdge`), and so its nodes stand in pre-order as they were added
(`Built.preorder_eq_range`).
-/

namespace ExportAtlas

namespace RouteTree

variable {t : RouteTree} {id p a k : Nat} {way : List Nat}

/-! ## Ways in a forest that grows -/

/-- Old ways stay. -/
theorem Built.path_add_of_lt (ht : Built t) (name : String) (parent : Option Nat)
    (hparent : ∀ p ∈ parent, p < t.size) (hid : id < t.size) :
    (t.add name parent).path id = t.path id := by
  induction id using Nat.strongRecOn with
  | ind id ih =>
    have hne : id ≠ t.size := Nat.ne_of_lt hid
    rw [(ht.add name parent hparent).path_eq (by rw [size_add]; omega), ht.path_eq hid,
      parent?_add_of_ne t name parent hne]
    cases hp : t.parent? id with
    | none => rfl
    | some p =>
      have hlt : p < id := ht.parent_lt hp
      rw [Option.map_some, Option.map_some, ih p hlt (by omega)]

/-- The way to a node leads over older ones. -/
theorem Built.le_of_mem_path (ht : Built t) (hid : id < t.size) (h : a ∈ t.path id) : a ≤ id := by
  induction id using Nat.strongRecOn with
  | ind id ih =>
    rw [ht.path_eq hid, List.mem_append, List.mem_singleton] at h
    rcases h with h | rfl
    · cases hp : t.parent? id with
      | none =>
        rw [hp] at h
        cases h
      | some p =>
        rw [hp] at h
        have hlt : p < id := ht.parent_lt hp
        have := ih p hlt (by omega) h
        omega
    · exact Nat.le_refl _

/-- **A way to a node leads to each node on it.** -/
theorem Built.path_of_isPrefix (ht : Built t) (hid : id < t.size) (h : way ++ [a] <+: t.path id) :
    t.path a = way ++ [a] := by
  induction id using Nat.strongRecOn with
  | ind id ih =>
    have hpath := ht.path_eq hid
    rw [hpath, List.prefix_concat_iff] at h
    rcases h with h | h
    · obtain ⟨-, hlast⟩ := List.append_inj' h rfl
      obtain rfl : a = id := by simpa using hlast
      rw [hpath, h]
    · cases hp : t.parent? id with
      | none =>
        rw [hp] at h
        exact absurd (List.prefix_nil.mp h) (List.concat_ne_nil a way)
      | some p =>
        rw [hp] at h
        have hlt : p < id := ht.parent_lt hp
        exact ih p hlt (by omega) h

/-! ## Nodes in pre-order -/

/-- What lies below a node is in one piece: whoever is numbered between a
node and one below it lies below it too. -/
def InOnePiece (t : RouteTree) : Prop :=
  ∀ id < t.size, ∀ p ∈ t.path id, ∀ j, p ≤ j → j ≤ id → p ∈ t.path j

/-- The nodes from a number on whose parents come before it. -/
def waiting (t : RouteTree) (k : Nat) : List Nat :=
  (List.range t.size).filter fun j => decide (k ≤ j) && (t.parent? j).all (· < k)

theorem mem_waiting : a ∈ t.waiting k ↔ a < t.size ∧ k ≤ a ∧ ∀ p ∈ t.parent? a, p < k := by
  rw [waiting, List.mem_filter, List.mem_range, Bool.and_eq_true, decide_eq_true_eq]
  cases t.parent? a <;> simp

theorem pairwise_waiting (t : RouteTree) (k : Nat) : (t.waiting k).Pairwise (· < ·) :=
  List.pairwise_lt_range.filter _

theorem Built.waiting_zero (ht : Built t) : t.waiting 0 = t.roots := by
  refine (pairwise_waiting t 0).eq_of_mem_iff ht.pairwise_roots fun a => ?_
  rw [mem_waiting, ht.mem_roots]
  refine and_congr_right fun _ => ?_
  cases t.parent? a <;> simp

/-- The rest of those that wait for a node. -/
theorem Built.waiting_eq_cons (ht : Built t) (hk : k < t.size) :
    t.waiting k = k :: (t.waiting k).filter (k < ·) := by
  have hrest : (k :: (t.waiting k).filter (k < ·)).Pairwise (· < ·) := by
    refine List.pairwise_cons.mpr ⟨fun a ha => ?_, (pairwise_waiting t k).filter _⟩
    simpa using (List.mem_filter.mp ha).2
  refine (pairwise_waiting t k).eq_of_mem_iff hrest fun a => ?_
  rw [List.mem_cons, List.mem_filter, decide_eq_true_eq]
  constructor
  · intro ha
    obtain ⟨-, hle, -⟩ := mem_waiting.mp ha
    rcases Nat.lt_or_eq_of_le hle with hlt | rfl
    · exact .inr ⟨ha, hlt⟩
    · exact .inl rfl
  · rintro (rfl | ⟨ha, -⟩)
    · exact mem_waiting.mpr ⟨hk, Nat.le_refl a, fun p hp => ht.parent_lt hp⟩
    · exact ha

/-- **The next ones to wait**: the children of a node go before those that
have waited with it, since no other node stands between it and its
children. -/
theorem Built.waiting_succ (ht : Built t) (hpiece : InOnePiece t) (k : Nat) :
    t.waiting (k + 1) = t.children k ++ (t.waiting k).filter (k < ·) := by
  have hsorted : (t.children k ++ (t.waiting k).filter (k < ·)).Pairwise (· < ·) := by
    refine List.pairwise_append.mpr
      ⟨ht.pairwise_children k, (pairwise_waiting t k).filter _, fun c hc j hj => ?_⟩
    have hparent := ht.mem_children.mp hc
    have hcs := parent?_lt_size hparent
    obtain ⟨hwait, hkj⟩ := List.mem_filter.mp hj
    obtain ⟨hjs, -, hbefore⟩ := mem_waiting.mp hwait
    have hkj : k < j := by simpa using hkj
    by_contra hcj
    have hkc : k ∈ t.path c := by
      rw [ht.path_eq hcs, hparent, Option.map_some, Option.getD_some,
        ht.path_eq_ancestors (Nat.lt_trans (ht.parent_lt hparent) hcs)]
      simp
    -- `j` would lie below `k`, but its parent comes before `k`
    have hkpath := hpiece c hcs k hkc j (by omega) (by omega)
    rw [ht.path_eq hjs, List.mem_append, List.mem_singleton] at hkpath
    rcases hkpath with hkpath | rfl
    · cases hp : t.parent? j with
      | none =>
        rw [hp] at hkpath
        cases hkpath
      | some p =>
        rw [hp] at hkpath
        have hpk : p < k := hbefore p hp
        have := ht.le_of_mem_path (by omega) hkpath
        omega
    · exact Nat.lt_irrefl _ hkj
  refine (pairwise_waiting t (k + 1)).eq_of_mem_iff hsorted fun a => ?_
  rw [List.mem_append, List.mem_filter, decide_eq_true_eq, mem_waiting, mem_waiting,
    ht.mem_children]
  constructor
  · rintro ⟨has, hka, hbefore⟩
    by_cases hparent : t.parent? a = some k
    · exact .inl hparent
    · refine .inr ⟨⟨has, by omega, fun p hp => ?_⟩, by omega⟩
      have hle : p < k + 1 := hbefore p hp
      have hne : p ≠ k := by
        rintro rfl
        exact hparent hp
      omega
  · rintro (hparent | ⟨⟨has, hle, hbefore⟩, hka⟩)
    · have hlt : k < a := ht.parent_lt hparent
      refine ⟨parent?_lt_size hparent, hlt, fun p hp => ?_⟩
      obtain rfl : k = p := Option.some.inj (hparent.symm.trans hp)
      exact Nat.lt_succ_self k
    · refine ⟨has, hka, fun p hp => Nat.lt_succ_of_lt (hbefore p hp)⟩

/-- **Where what lies below a node is in one piece, the numbers are in
pre-order.** -/
theorem Built.preorder_eq_range (ht : Built t) (hpiece : InOnePiece t) :
    t.preorder = List.range t.size := by
  have hwalk : ∀ k ≤ t.size, Walk t (List.range k) (t.waiting k) := by
    intro k hk
    induction k with
    | zero =>
      rw [ht.waiting_zero]
      exact .start
    | succ k ih =>
      have h := ih (by omega)
      rw [ht.waiting_eq_cons (by omega)] at h
      rw [List.range_succ, ht.waiting_succ hpiece]
      exact h.step
  have hend : t.waiting t.size = [] := by
    refine List.eq_nil_iff_forall_not_mem.mpr fun a ha => ?_
    obtain ⟨has, hle, -⟩ := mem_waiting.mp ha
    omega
  have h := hwalk t.size (Nat.le_refl _)
  rw [hend] at h
  exact h.eq_preorder ht

namespace Growing

variable {g : Growing} (depth : Nat) (name : String)

/-- One more node, at a depth or as deep as the way to the last node
allows. -/
def grow (g : Growing) (depth : Nat) (name : String) : Growing :=
  ⟨g.tree.add name (g.trail.take depth).getLast?, g.trail.take depth ++ [g.tree.size]⟩

/-- Nothing has grown yet. -/
def start : Growing := ⟨RouteTree.empty, []⟩

/-- A forest that has grown along its right edge, with the way to its last
node. -/
structure RightEdge (g : Growing) : Prop where
  built : Built g.tree
  trail : g.trail = g.tree.lastPath (List.range g.tree.size)
  piece : InOnePiece g.tree

namespace RightEdge

theorem start : RightEdge start where
  built := .empty
  trail := rfl
  piece := nofun

/-- The way leads to the last node, if there is one. -/
theorem trail_eq_path (h : RightEdge g) (hk : g.tree.size = k + 1) : g.trail = g.tree.path k := by
  rw [h.trail, hk, List.range_succ, lastPath_concat]

theorem trail_eq_nil (h : RightEdge g) (hsize : g.tree.size = 0) : g.trail = [] := by
  rw [h.trail, hsize]
  rfl

/-- Each node on the way is there, and the way leads to it. -/
theorem path_of_isPrefix (h : RightEdge g) (hway : way ++ [a] <+: g.trail) :
    a < g.tree.size ∧ g.tree.path a = way ++ [a] := by
  cases hsize : g.tree.size with
  | zero =>
    rw [h.trail_eq_nil hsize] at hway
    exact absurd (List.prefix_nil.mp hway) (List.concat_ne_nil a way)
  | succ k =>
    have hk : k < g.tree.size := by omega
    rw [h.trail_eq_path hsize] at hway
    have ha : a ∈ g.tree.path k := hway.subset (List.mem_append_right _ (List.mem_singleton_self a))
    exact ⟨Nat.lt_succ_of_le (h.built.le_of_mem_path hk ha), h.built.path_of_isPrefix hk hway⟩

/-- The new node's parent is there. -/
theorem parent_lt (h : RightEdge g) : ∀ p ∈ (g.trail.take depth).getLast?, p < g.tree.size := by
  intro p hp
  obtain ⟨way, hway⟩ := List.getLast?_eq_some_iff.mp hp
  exact (h.path_of_isPrefix (hway ▸ List.take_prefix depth g.trail)).1

theorem built_grow (h : RightEdge g) : Built (g.grow depth name).tree :=
  h.built.add name _ (h.parent_lt depth)

theorem size_grow (g : Growing) : (g.grow depth name).tree.size = g.tree.size + 1 := size_add ..

/-- **The way to the new node** leaves the old way at its depth. -/
theorem path_grow (h : RightEdge g) :
    (g.grow depth name).tree.path g.tree.size = g.trail.take depth ++ [g.tree.size] := by
  have hparent := h.parent_lt depth
  rw [(h.built_grow depth name).path_eq (by rw [size_grow]; omega)]
  congr 1
  rw [grow, parent?_add_size _ _ _ hparent]
  cases hlast : (g.trail.take depth).getLast? with
  | none =>
    rw [List.getLast?_eq_none_iff.mp hlast]
    rfl
  | some p =>
    obtain ⟨way, hway⟩ := List.getLast?_eq_some_iff.mp hlast
    obtain ⟨hlt, hpath⟩ := h.path_of_isPrefix (hway ▸ List.take_prefix depth g.trail)
    rw [hlast] at hparent
    rw [Option.map_some, Option.getD_some, h.built.path_add_of_lt name _ hparent hlt, hpath, hway]

theorem path_grow_of_lt (h : RightEdge g) (hid : id < g.tree.size) :
    (g.grow depth name).tree.path id = g.tree.path id :=
  h.built.path_add_of_lt name _ (h.parent_lt depth) hid

/-- **A forest keeps growing along its right edge.** -/
theorem grow (h : RightEdge g) : RightEdge (g.grow depth name) where
  built := h.built_grow depth name
  trail := by
    rw [size_grow, List.range_succ, lastPath_concat, h.path_grow]
    rfl
  piece := by
    intro id hid p hp j hpj hj
    rw [size_grow] at hid
    have hnew := h.path_grow depth name
    rcases Nat.lt_or_eq_of_le (Nat.le_of_lt_succ hid) with hlt | rfl
    · rw [h.path_grow_of_lt depth name hlt] at hp
      rw [h.path_grow_of_lt depth name (by omega)]
      exact h.piece id hlt p hp j hpj hj
    rcases Nat.lt_or_eq_of_le hj with hlt | rfl
    · -- `p` is on the way to the last node, and `j` lies between the two
      rw [hnew, List.mem_append, List.mem_singleton] at hp
      rcases hp with hp | rfl
      · obtain ⟨k, hk⟩ := Nat.exists_eq_add_of_lt hlt
        have hsize : g.tree.size = (j + k) + 1 := hk
        have hp := List.mem_of_mem_take hp
        rw [h.trail_eq_path hsize] at hp
        rw [h.path_grow_of_lt depth name hlt]
        exact h.piece (j + k) (by omega) p hp j hpj (by omega)
      · omega
    · exact hp

/-- **The new node is as deep as asked, or one deeper than the last node.** -/
theorem depth_grow (h : RightEdge g) :
    (g.grow depth name).tree.depth g.tree.size = min depth g.trail.length := by
  have hnew : g.tree.size < (g.grow depth name).tree.size := by
    rw [size_grow]
    omega
  have hlength := (h.built_grow depth name).length_path hnew
  rw [h.path_grow, List.length_append, List.length_take, List.length_singleton] at hlength
  omega

theorem length_trail (h : RightEdge g) (hk : g.tree.size = k + 1) :
    g.trail.length = g.tree.depth k + 1 := by
  rw [h.trail_eq_path hk, h.built.length_path (by omega)]

theorem preorder_eq (h : RightEdge g) : g.tree.preorder = List.range g.tree.size :=
  h.built.preorder_eq_range h.piece

end RightEdge

end Growing

end RouteTree

end ExportAtlas
