import Mathlib.Data.List.Sort
import ExportAtlas.Proofs.RouteTree.Links
/-!
# Walking a forest

The pre-order is what a walk visits that keeps the nodes still to visit on a
stack (`Walk`), and facts about it are facts that each step of such a walk
keeps. A walk holds each node at most once, and holds it as soon as its
parent is visited (`Walk.nodup`, `Walk.mem_iff`); so it ends with every node
visited (`Built.preorder_perm`), and nothing else ends so
(`Walk.eq_preorder`). Siblings stay in order (`Walk.children_sublist`), and
the ancestors of what is still to visit lie on the way to the last node
visited (`Walk.pairwise_prefix`).
-/

namespace ExportAtlas

namespace RouteTree

variable {t : RouteTree} {id p c : Nat} {seen stack order : List Nat}

/-- A walk over a forest: the nodes visited so far, and those on the stack,
the next one first. -/
inductive Walk (t : RouteTree) : (seen stack : List Nat) → Prop
  | start : Walk t [] t.roots
  | step {seen stack : List Nat} {id : Nat} (h : Walk t seen (id :: stack)) :
      Walk t (seen ++ [id]) (t.children id ++ stack)

namespace Walk

/-! ## What a walk holds -/

/-- A step takes up the children of the node it visits. -/
theorem mem_step : c ∈ seen ++ [id] ++ (t.children id ++ stack) ↔
    c ∈ t.children id ∨ c ∈ seen ++ id :: stack := by
  simp only [List.mem_append, List.mem_cons]
  tauto

/-- **A walk holds** the roots and the children of the nodes it has visited. -/
theorem mem_iff (ht : Built t) (h : Walk t seen stack) :
    c ∈ seen ++ stack ↔ c < t.size ∧ ∀ p ∈ t.parent? c, p ∈ seen := by
  induction h with
  | start =>
    rw [List.nil_append, ht.mem_roots]
    refine and_congr_right fun _ => ?_
    cases t.parent? c with
    | none => exact ⟨fun _ => nofun, fun _ => rfl⟩
    | some p => exact ⟨nofun, fun hp => nomatch hp p rfl⟩
  | @step seen stack id h ih =>
    rw [mem_step, ht.mem_children, ih]
    constructor
    · rintro (hparent | ⟨hlt, hseen⟩)
      · refine ⟨parent?_lt_size hparent, fun p hp => ?_⟩
        rw [hparent] at hp
        exact List.mem_append_right _ (List.mem_singleton.mpr (Option.some.inj hp).symm)
      · exact ⟨hlt, fun p hp => List.mem_append_left _ (hseen p hp)⟩
    · rintro ⟨hlt, hseen⟩
      by_cases hparent : t.parent? c = some id
      · exact .inl hparent
      · refine .inr ⟨hlt, fun p hp => ?_⟩
        rcases List.mem_append.mp (hseen p hp) with hp' | hp'
        · exact hp'
        · rw [List.mem_singleton.mp hp'] at hp
          exact absurd hp hparent

/-- **No node twice.** -/
theorem nodup (ht : Built t) (h : Walk t seen stack) : (seen ++ stack).Nodup := by
  induction h with
  | start => exact ht.pairwise_roots.imp Nat.ne_of_lt
  | @step seen stack id h ih =>
    have hnew : id ∉ seen := fun hid =>
      List.disjoint_of_nodup_append ih hid (List.mem_cons_self ..)
    have hperm : (seen ++ [id] ++ (t.children id ++ stack)).Perm
        (t.children id ++ (seen ++ id :: stack)) := by
      rw [List.append_cons seen id stack, ← List.append_assoc, ← List.append_assoc]
      exact List.perm_append_comm.append_right stack
    refine hperm.nodup_iff.mpr (List.nodup_append.mpr
      ⟨(ht.pairwise_children id).imp Nat.ne_of_lt, ih, ?_⟩)
    rintro c hc d hd rfl
    -- a child that were held already would have its parent visited already
    exact hnew (((h.mem_iff ht).mp hd).2 id (ht.mem_children.mp hc))

theorem lt_size (ht : Built t) (h : Walk t seen stack) (hid : id ∈ seen ++ stack) : id < t.size :=
  ((h.mem_iff ht).mp hid).1

theorem next_lt_size (ht : Built t) (h : Walk t seen (id :: stack)) : id < t.size :=
  h.lt_size ht (List.mem_append_right _ (List.mem_cons_self ..))

theorem length_le (ht : Built t) (h : Walk t seen stack) :
    seen.length + stack.length ≤ t.size := by
  have hsub : seen ++ stack ⊆ List.range t.size := fun id hid =>
    List.mem_range.mpr (h.lt_size ht hid)
  have := (List.subperm_of_subset (h.nodup ht) hsub).length_le
  rwa [List.length_append, List.length_range] at this

/-- **A walk to its end** visits every node. -/
theorem perm_range (ht : Built t) (h : Walk t order []) : order.Perm (List.range t.size) := by
  have hmem : ∀ c, c ∈ order ↔ c < t.size ∧ ∀ p ∈ t.parent? c, p ∈ order := fun c => by
    rw [← h.mem_iff ht, List.append_nil]
  have hnodup := h.nodup ht
  rw [List.append_nil] at hnodup
  have hall : ∀ id < t.size, id ∈ order := by
    intro id
    induction id using Nat.strongRecOn with
    | ind id ih =>
      refine fun hid => (hmem id).mpr ⟨hid, fun p hp => ?_⟩
      have hlt : p < id := ht.parent_lt hp
      exact ih p hlt (by omega)
  refine (List.perm_ext_iff_of_nodup hnodup List.nodup_range).mpr fun id => ?_
  rw [List.mem_range]
  exact ⟨fun hid => ((hmem id).mp hid).1, hall id⟩

end Walk

/-! ## The pre-order is a walk -/

/-- Visiting goes on with a walk until nothing is left, or for as many nodes
as it may visit. -/
theorem Walk.visit (h : Walk t seen stack) (fuel : Nat) :
    ∃ rest, Walk t (seen ++ t.visit fuel stack) rest ∧
      (rest = [] ∨ (t.visit fuel stack).length = fuel) := by
  induction fuel generalizing seen stack with
  | zero =>
    refine ⟨stack, ?_, .inr rfl⟩
    rwa [RouteTree.visit, List.append_nil]
  | succ fuel ih =>
    cases stack with
    | nil =>
      refine ⟨[], ?_, .inl rfl⟩
      rwa [RouteTree.visit, List.append_nil]
      exact nofun
    | cons id stack =>
      obtain ⟨rest, hwalk, hrest⟩ := ih h.step
      refine ⟨rest, ?_, ?_⟩
      · rwa [RouteTree.visit, List.append_cons]
      · rwa [RouteTree.visit, List.length_cons, Nat.succ_inj]

/-- **The pre-order is a walk to its end.** -/
theorem Built.walk_preorder (ht : Built t) : Walk t t.preorder [] := by
  obtain ⟨rest, hwalk, hrest⟩ := Walk.start.visit (t := t) t.size
  rw [List.nil_append] at hwalk
  rcases hrest with rfl | hlength
  · exact hwalk
  · have hle := hwalk.length_le ht
    obtain rfl : rest = [] := List.length_eq_zero_iff.mp (by omega)
    exact hwalk

theorem Built.preorder_perm (ht : Built t) : t.preorder.Perm (List.range t.size) :=
  ht.walk_preorder.perm_range ht

/-- What visiting yields begins with every walk. -/
theorem Walk.visit_eq (h : Walk t seen stack) (fuel : Nat) :
    t.visit (seen.length + fuel) t.roots = seen ++ t.visit fuel stack := by
  induction h generalizing fuel with
  | start => rw [List.length_nil, Nat.zero_add, List.nil_append]
  | @step seen stack id h ih =>
    rw [List.length_append, List.length_singleton, Nat.add_assoc, Nat.add_comm 1, ih,
      RouteTree.visit, List.append_cons]

/-- **Every walk begins the pre-order.** -/
theorem Walk.isPrefix (ht : Built t) (h : Walk t seen stack) : seen <+: t.preorder := by
  have hle := h.length_le ht
  rw [preorder, show t.size = seen.length + (t.size - seen.length) by omega, h.visit_eq]
  exact List.prefix_append _ _

/-- So a walk to its end is the pre-order. -/
theorem Walk.eq_preorder (ht : Built t) (h : Walk t order []) : t.preorder = order := by
  refine ((h.isPrefix ht).eq_of_length ?_).symm
  rw [(h.perm_range ht).length_eq, ht.preorder_perm.length_eq]

/-! ## Siblings and ancestors -/

theorem Walk.sublist_step (seen stack children : List Nat) (id : Nat) :
    (seen ++ id :: stack).Sublist (seen ++ [id] ++ (children ++ stack)) := by
  rw [List.append_cons seen id stack]
  exact (List.Sublist.refl _).append (List.sublist_append_right children stack)

theorem Walk.roots_sublist (h : Walk t seen stack) : t.roots.Sublist (seen ++ stack) := by
  induction h with
  | start => exact List.Sublist.refl _
  | step h ih => exact ih.trans (Walk.sublist_step ..)

/-- **Siblings stay in order.** -/
theorem Walk.children_sublist (h : Walk t seen stack) (hp : p ∈ seen) :
    (t.children p).Sublist (seen ++ stack) := by
  induction h with
  | start => cases hp
  | @step seen stack id h ih =>
    rcases List.mem_append.mp hp with hp | hp
    · exact (ih hp).trans (Walk.sublist_step ..)
    · rw [List.mem_singleton.mp hp]
      exact (List.sublist_append_left _ stack).trans (List.sublist_append_right _ _)

/-- The way to the last of the nodes visited. -/
def lastPath (t : RouteTree) (seen : List Nat) : List Nat := (seen.getLast?.map t.path).getD []

theorem lastPath_concat (seen : List Nat) (id : Nat) : t.lastPath (seen ++ [id]) = t.path id := by
  rw [lastPath, List.getLast?_concat]
  rfl

/-- **What is still to visit hangs on the way to the last node visited**, and
what lies deeper in the stack hangs higher. -/
theorem Walk.pairwise_prefix (ht : Built t) (h : Walk t seen stack) :
    (t.lastPath seen :: stack.map t.ancestors).Pairwise fun a b => b <+: a := by
  induction h with
  | start =>
    have hnil : ∀ a ∈ t.roots.map t.ancestors, a = [] := by
      intro a ha
      obtain ⟨r, hr, rfl⟩ := List.mem_map.mp ha
      exact ht.ancestors_root hr
    refine List.pairwise_cons.mpr ⟨fun a ha => ?_, ?_⟩
    · rw [hnil a ha]
      exact List.nil_prefix
    · refine List.pairwise_of_forall_mem_list fun a _ b hb => ?_
      rw [hnil b hb]
      exact List.nil_prefix
  | @step seen stack id h ih =>
    rw [List.map_cons] at ih
    obtain ⟨-, hstack⟩ := List.pairwise_cons.mp ih
    obtain ⟨hbelow, hrest⟩ := List.pairwise_cons.mp hstack
    have hpath : t.path id = t.ancestors id ++ [id] := ht.path_eq_ancestors (h.next_lt_size ht)
    -- the children hang on the way to `id` itself, the others on that to its parent
    have hchildren : ∀ a ∈ (t.children id).map t.ancestors, a = t.path id := by
      intro a ha
      obtain ⟨c, hc, rfl⟩ := List.mem_map.mp ha
      rw [ht.ancestors_child hc, hpath]
    have hlower : ∀ b ∈ stack.map t.ancestors, b <+: t.path id := by
      intro b hb
      rw [hpath]
      exact (hbelow b hb).trans (List.prefix_append _ _)
    rw [lastPath_concat, List.map_append]
    refine List.pairwise_cons.mpr ⟨fun a ha => ?_, List.pairwise_append.mpr ⟨?_, hrest, ?_⟩⟩
    · rcases List.mem_append.mp ha with ha | ha
      · obtain rfl := hchildren a ha
        exact List.prefix_rfl
      · exact hlower a ha
    · refine List.pairwise_of_forall_mem_list fun a ha b hb => ?_
      obtain rfl := hchildren a ha
      obtain rfl := hchildren b hb
      exact List.prefix_rfl
    · intro a ha b hb
      rw [hchildren a ha]
      exact hlower b hb

/-- The ancestors of the next node begin the way to the last one. -/
theorem Walk.ancestors_isPrefix (ht : Built t) (h : Walk t seen (id :: stack)) :
    t.ancestors id <+: t.lastPath seen :=
  (List.pairwise_cons.mp (h.pairwise_prefix ht)).1 _ (List.mem_cons_self ..)

end RouteTree

end ExportAtlas
