import Mathlib.Data.List.Chain
import Mathlib.Data.List.Nodup
import ExportAtlas.Proofs.RouteTree.Arena
/-!
# One forest, linked four ways

A forest keeps its shape four times over: as parents, as children, as roots
and as depths. Whatever the order of insertion, `add` keeps them in step
(`Linked`): depths count the steps up, and every node stands once among the
roots and the children, siblings by age. So the way up from a node ends at a
root after as many steps as the node is deep (`Built.lineage_eq_path`).
-/

namespace ExportAtlas

namespace RouteTree

variable {t : RouteTree} {id p c : Nat}

/-- The depth of a node. -/
def depth (t : RouteTree) (id : Nat) : Nat := ((t.node? id).map RouteNode.depth).getD 0

/-! ## Names and depths of one node more -/

section Add

variable (t : RouteTree) (name : String) (parent : Option Nat)

/-- What does not depend on a node's children is as it was in the others. -/
theorem map_node?_add_of_ne {α : Type} (f : RouteNode → α)
    (hf : ∀ (n : RouteNode) (children : List Nat), f { n with children := children } = f n)
    (hid : id ≠ t.size) : ((t.add name parent).node? id).map f = (t.node? id).map f := by
  rw [node?_add_of_ne t name parent hid]
  cases t.node? id with
  | none => rfl
  | some n =>
    rw [Option.map_some, Option.map_some, Option.map_some]
    split
    · rw [hf]
    · rfl

theorem name_add_size (hparent : ∀ p ∈ parent, p < t.size) :
    (t.add name parent).name t.size = name := by
  rw [RouteTree.name, node?_add_size t name parent hparent]
  rfl

theorem name_add_of_ne (hid : id ≠ t.size) : (t.add name parent).name id = t.name id := by
  rw [RouteTree.name, map_node?_add_of_ne t name parent RouteNode.name (fun _ _ => rfl) hid,
    RouteTree.name]

theorem depth_add_size (hparent : ∀ p ∈ parent, p < t.size) :
    (t.add name parent).depth t.size = t.depthUnder parent := by
  rw [depth, node?_add_size t name parent hparent]
  rfl

theorem depth_add_of_ne (hid : id ≠ t.size) : (t.add name parent).depth id = t.depth id := by
  rw [depth, map_node?_add_of_ne t name parent RouteNode.depth (fun _ _ => rfl) hid, depth]

theorem depthUnder_some (hp : p < t.size) : t.depthUnder (some p) = t.depth p + 1 := by
  obtain ⟨n, hn⟩ := Option.isSome_iff_exists.mp (lt_size_iff.mp hp)
  rw [depthUnder, depth, Option.bind_some, hn]
  rfl

end Add

/-! ## Depths count the steps up -/

theorem Built.depth_of_root (ht : Built t) (h : t.parent? id = none) : t.depth id = 0 := by
  induction ht with
  | empty => rfl
  | @add t name parent ht hparent ih =>
    by_cases hid : id = t.size
    · subst hid
      rw [parent?_add_size t name parent hparent] at h
      rw [depth_add_size t name parent hparent, h]
      rfl
    · rw [parent?_add_of_ne t name parent hid] at h
      rw [depth_add_of_ne t name parent hid, ih h]

/-- **A child is one level below its parent.** -/
theorem Built.depth_of_parent (ht : Built t) (h : t.parent? id = some p) :
    t.depth id = t.depth p + 1 := by
  induction ht with
  | empty => cases parent?_lt_size h
  | @add t name parent ht hparent ih =>
    by_cases hid : id = t.size
    · subst hid
      rw [parent?_add_size t name parent hparent] at h
      have hp : p < t.size := hparent p h
      rw [depth_add_size t name parent hparent, h, depthUnder_some t hp,
        depth_add_of_ne t name _ (Nat.ne_of_lt hp)]
    · rw [parent?_add_of_ne t name parent hid] at h
      have hp : p < t.size := Nat.lt_trans (ht.parent_lt h) (parent?_lt_size h)
      rw [depth_add_of_ne t name parent hid, depth_add_of_ne t name parent (Nat.ne_of_lt hp), ih h]

/-! ## Siblings by age, and every node once -/

theorem pairwise_lt_concat {l : List Nat} {n : Nat} (hl : l.Pairwise (· < ·))
    (hn : ∀ a ∈ l, a < n) : (l ++ [n]).Pairwise (· < ·) := by
  refine List.pairwise_append.mpr ⟨hl, List.pairwise_singleton _ n, fun a ha b hb => ?_⟩
  rw [List.mem_singleton.mp hb]
  exact hn a ha

theorem Built.lt_of_mem_children (ht : Built t) (h : c ∈ t.children p) : c < t.size :=
  parent?_lt_size (ht.mem_children.mp h)

theorem Built.pairwise_children (ht : Built t) (p : Nat) : (t.children p).Pairwise (· < ·) := by
  induction ht with
  | empty => exact List.Pairwise.nil
  | @add t name parent ht hparent ih =>
    by_cases hp : p = t.size
    · subst hp
      rw [children_add_size t name parent hparent]
      exact List.Pairwise.nil
    · rw [children_add_of_ne t name parent hparent hp]
      split
      · exact pairwise_lt_concat ih fun c hc => ht.lt_of_mem_children hc
      · exact ih

theorem Built.pairwise_roots (ht : Built t) : t.roots.Pairwise (· < ·) := by
  induction ht with
  | empty => exact List.Pairwise.nil
  | @add t name parent ht hparent ih =>
    rw [roots_add]
    split
    · exact pairwise_lt_concat ih fun r hr => (ht.mem_roots.mp hr).1
    · exact ih

/-- **Every node stands once** among the roots and all children. -/
theorem Built.perm_range (ht : Built t) :
    (t.roots ++ (List.range t.size).flatMap t.children).Perm (List.range t.size) := by
  have hchildren : ((List.range t.size).flatMap t.children).Nodup := by
    refine List.nodup_flatMap.mpr ⟨fun p _ => (ht.pairwise_children p).imp Nat.ne_of_lt, ?_⟩
    refine List.pairwise_lt_range.imp fun {p q} hpq c hp hq => ?_
    -- one parent a node
    have := (ht.mem_children.mp hp).symm.trans (ht.mem_children.mp hq)
    exact Nat.ne_of_lt hpq (Option.some.inj this)
  have hnodup : (t.roots ++ (List.range t.size).flatMap t.children).Nodup := by
    refine List.nodup_append.mpr ⟨ht.pairwise_roots.imp Nat.ne_of_lt, hchildren, ?_⟩
    rintro r hr c hc rfl
    obtain ⟨p, -, hp⟩ := List.mem_flatMap.mp hc
    rw [ht.mem_children, (ht.mem_roots.mp hr).2] at hp
    cases hp
  refine (List.perm_ext_iff_of_nodup hnodup List.nodup_range).mpr fun c => ?_
  rw [List.mem_append, List.mem_flatMap, List.mem_range, ht.mem_roots]
  constructor
  · rintro (⟨hc, -⟩ | ⟨p, -, hp⟩)
    · exact hc
    · exact ht.lt_of_mem_children hp
  · intro hc
    cases hparent : t.parent? c with
    | none => exact .inl ⟨hc, rfl⟩
    | some p =>
      have hp : p < c := ht.parent_lt hparent
      exact .inr ⟨p, List.mem_range.mpr (by omega), ht.mem_children.mpr hparent⟩

/-- What the four encodings of a forest say of each other. -/
structure Linked (t : RouteTree) : Prop where
  /-- A parent is older than its children, and one level higher. -/
  parent : ∀ c p, t.parent? c = some p → p < c ∧ t.depth c = t.depth p + 1
  /-- The roots are the nodes without a parent, on the level zero. -/
  root : ∀ r, r ∈ t.roots ↔ r < t.size ∧ t.parent? r = none
  depth_root : ∀ r ∈ t.roots, t.depth r = 0
  /-- The children of a node are those that have it as their parent. -/
  child : ∀ p c, c ∈ t.children p ↔ t.parent? c = some p
  /-- Each number below the size stands once in all the lists, and no other. -/
  once : (t.roots ++ (List.range t.size).flatMap t.children).Perm (List.range t.size)
  roots_increase : t.roots.Pairwise (· < ·)
  children_increase : ∀ p, (t.children p).Pairwise (· < ·)

theorem Built.linked (ht : Built t) : Linked t where
  parent _ _ h := ⟨ht.parent_lt h, ht.depth_of_parent h⟩
  root _ := ht.mem_roots
  depth_root _ h := ht.depth_of_root (ht.mem_roots.mp h).2
  child _ _ := ht.mem_children
  once := ht.perm_range
  roots_increase := ht.pairwise_roots
  children_increase := ht.pairwise_children

/-! ## The way up ends -/

theorem Built.length_path (ht : Built t) (hid : id < t.size) :
    (t.path id).length = t.depth id + 1 := by
  induction id using Nat.strongRecOn with
  | ind id ih =>
    rw [ht.path_eq hid, List.length_append, List.length_singleton]
    cases hp : t.parent? id with
    | none =>
      rw [ht.depth_of_root hp]
      rfl
    | some p =>
      have hlt : p < id := ht.parent_lt hp
      rw [ht.depth_of_parent hp, Option.map_some, Option.getD_some, ih p hlt (by omega)]

/-- A node is as deep as it has ancestors. -/
theorem Built.length_ancestors (ht : Built t) (hid : id < t.size) :
    (t.ancestors id).length = t.depth id := by
  have h := ht.length_path hid
  rw [ht.path_eq_ancestors hid, List.length_append, List.length_singleton] at h
  omega

theorem Built.getLast?_path (ht : Built t) (hid : id < t.size) :
    (t.path id).getLast? = some id := by
  rw [ht.path_eq_ancestors hid, List.getLast?_concat]

theorem Built.head?_path (ht : Built t) (hid : id < t.size) :
    ∃ r ∈ t.roots, (t.path id).head? = some r := by
  induction id using Nat.strongRecOn with
  | ind id ih =>
    rw [ht.path_eq hid]
    cases hp : t.parent? id with
    | none => exact ⟨id, ht.mem_roots.mpr ⟨hid, hp⟩, rfl⟩
    | some p =>
      have hlt : p < id := ht.parent_lt hp
      obtain ⟨r, hr, hhead⟩ := ih p hlt (by omega)
      refine ⟨r, hr, ?_⟩
      rw [Option.map_some, Option.getD_some, List.head?_append, hhead]
      rfl

/-- Each node on the way is the parent of the next. -/
theorem Built.isChain_path (ht : Built t) (hid : id < t.size) :
    (t.path id).IsChain fun p c => t.parent? c = some p := by
  induction id using Nat.strongRecOn with
  | ind id ih =>
    rw [ht.path_eq hid]
    cases hp : t.parent? id with
    | none => exact List.IsChain.singleton id
    | some p =>
      have hlt : p < id := ht.parent_lt hp
      have hps : p < t.size := by omega
      refine List.isChain_append.mpr ⟨ih p hlt hps, List.IsChain.singleton id, ?_⟩
      intro q hq c hc
      rw [Option.map_some, Option.getD_some, ht.getLast?_path hps] at hq
      obtain rfl : p = q := Option.some.inj hq
      obtain rfl : id = c := Option.some.inj hc
      exact hp

/-- **The walk up ends** within one round more than the node is deep: further
rounds find nothing to do. -/
theorem Built.lineage_eq_path (ht : Built t) (hid : id < t.size) {fuel : Nat}
    (h : t.depth id < fuel) : t.lineage fuel id [] = t.path id := by
  induction fuel generalizing id with
  | zero => cases h
  | succ fuel ih =>
    rw [ht.path_eq hid]
    cases hp : t.parent? id with
    | none => exact lineage_of_root hid hp fuel []
    | some p =>
      have hps : p < t.size := Nat.lt_trans (ht.parent_lt hp) hid
      have hdepth := ht.depth_of_parent hp
      rw [lineage_of_parent hp, lineage_append, ih hps (by omega)]
      rfl

/-! ## Nodes added one after another -/

/-- The forest of nodes that are added one after another, each given by its
name and its parent. -/
def ofAdditions (additions : List (String × Option Nat)) : RouteTree :=
  additions.foldl (fun t a => t.add a.1 a.2) empty

/-- Each parent is the number of a node added before. -/
def ParentsFirst (additions : List (String × Option Nat)) : Prop :=
  ∀ (k : Nat) (hk : k < additions.length), ∀ p ∈ additions[k].2, p < k

instance (additions : List (String × Option Nat)) : Decidable (ParentsFirst additions) :=
  inferInstanceAs (Decidable (∀ (k : Nat) (hk : k < additions.length), ∀ p ∈ additions[k].2, p < k))

section Additions

variable {additions : List (String × Option Nat)} {a : String × Option Nat}

theorem ofAdditions_concat (additions : List (String × Option Nat)) (a : String × Option Nat) :
    ofAdditions (additions ++ [a]) = (ofAdditions additions).add a.1 a.2 := by
  rw [ofAdditions, List.foldl_append]
  rfl

theorem size_ofAdditions (additions : List (String × Option Nat)) :
    (ofAdditions additions).size = additions.length := by
  induction additions using List.reverseRecOn with
  | nil => rfl
  | append_singleton additions a ih =>
    rw [ofAdditions_concat, size_add, ih, List.length_append, List.length_singleton]

theorem ParentsFirst.of_concat (h : ParentsFirst (additions ++ [a])) :
    ParentsFirst additions ∧ ∀ p ∈ a.2, p < (ofAdditions additions).size := by
  have hlength : (additions ++ [a]).length = additions.length + 1 := List.length_append
  constructor
  · intro k hk p hp
    refine h k (by omega) p ?_
    rwa [List.getElem_append_left hk]
  · intro p hp
    rw [size_ofAdditions]
    refine h additions.length (by omega) p ?_
    rwa [List.getElem_concat_length rfl]

theorem built_ofAdditions (h : ParentsFirst additions) : Built (ofAdditions additions) := by
  induction additions using List.reverseRecOn with
  | nil => exact .empty
  | append_singleton additions a ih =>
    obtain ⟨hfirst, hparent⟩ := h.of_concat
    rw [ofAdditions_concat]
    exact .add a.1 a.2 (ih hfirst) hparent

/-- **Numbers go by age**: the node added at a position has it as its number. -/
theorem getElem?_additions (h : ParentsFirst additions) {name : String} {parent : Option Nat}
    (hid : additions[id]? = some (name, parent)) :
    (ofAdditions additions).name id = name ∧ (ofAdditions additions).parent? id = parent := by
  induction additions using List.reverseRecOn with
  | nil => cases hid
  | append_singleton additions a ih =>
    obtain ⟨hfirst, hparent⟩ := h.of_concat
    have hsize := size_ofAdditions additions
    rw [ofAdditions_concat]
    by_cases hnew : id = additions.length
    · subst hnew
      rw [List.getElem?_concat_length] at hid
      obtain rfl : a = (name, parent) := Option.some.inj hid
      rw [← hsize, name_add_size _ _ _ hparent, parent?_add_size _ _ _ hparent]
      exact ⟨rfl, rfl⟩
    · have hlt : id < additions.length := by
        obtain ⟨hlt, -⟩ := List.getElem?_eq_some_iff.mp hid
        rw [List.length_append, List.length_singleton] at hlt
        omega
      rw [List.getElem?_append_left hlt] at hid
      rw [name_add_of_ne _ _ _ (by omega), parent?_add_of_ne _ _ _ (by omega)]
      exact ih hfirst hid

/-- **The names of a forest** are those that were added. -/
theorem forall_name_ofAdditions (h : ParentsFirst additions) {P : String → Prop}
    (hall : ∀ a ∈ additions, P a.1) : ∀ id < (ofAdditions additions).size,
      P ((ofAdditions additions).name id) := by
  intro id hid
  rw [size_ofAdditions] at hid
  have hadded := List.getElem?_eq_getElem hid
  rw [(getElem?_additions h hadded).1]
  exact hall _ (List.getElem_mem hid)

end Additions

/-- **A forest is linked as it was added to.** Whatever nodes are added one
after another under parents that are there, their numbers go by age, the four
encodings agree, and the names on the way to a node are those of a chain of
parents that begins at a root and ends at the node, one more than the node is
deep. -/
theorem linked_ofAdditions (additions : List (String × Option Nat)) (h : ParentsFirst additions) :
    (ofAdditions additions).size = additions.length ∧
    (∀ id name parent, additions[id]? = some (name, parent) →
      (ofAdditions additions).name id = name ∧ (ofAdditions additions).parent? id = parent) ∧
    Linked (ofAdditions additions) ∧
    ∀ id < (ofAdditions additions).size, ∃ way : List Nat,
      (ofAdditions additions).ancestry id = way.map (ofAdditions additions).name ∧
      way.length = (ofAdditions additions).depth id + 1 ∧
      (∃ r ∈ (ofAdditions additions).roots, way.head? = some r) ∧
      way.getLast? = some id ∧
      (way.IsChain fun p c => (ofAdditions additions).parent? c = some p) ∧
      ∀ fuel > (ofAdditions additions).depth id,
        (ofAdditions additions).lineage fuel id [] = way := by
  have ht := built_ofAdditions h
  refine ⟨size_ofAdditions additions, fun id name parent => getElem?_additions h, ht.linked,
    fun id hid => ⟨(ofAdditions additions).path id, rfl, ht.length_path hid, ht.head?_path hid,
      ht.getLast?_path hid, ht.isChain_path hid, fun fuel hfuel => ht.lineage_eq_path hid hfuel⟩⟩

/-- Two trees of pages that grow in turns. -/
def inTurns : List (String × Option Nat) :=
  [("admin", none), ("docs", none), ("orders", some 0), ("guide", some 1), ("users", some 0),
    ("[id]", some 2)]

/-- The turns leave their traces in the numbers, not in the links. -/
theorem linked_inTurns : ParentsFirst inTurns ∧ Linked (ofAdditions inTurns) ∧
    (ofAdditions inTurns).roots = [0, 1] ∧ (ofAdditions inTurns).children 0 = [2, 4] ∧
    (ofAdditions inTurns).ancestry 5 = ["admin", "orders", "[id]"] := by
  have h : ParentsFirst inTurns := by decide
  obtain ⟨-, -, hlinked, -⟩ := linked_ofAdditions inTurns h
  exact ⟨h, hlinked, by decide, by decide, by decide⟩

end RouteTree

end ExportAtlas
