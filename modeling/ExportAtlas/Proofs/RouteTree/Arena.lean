import Mathlib.Data.List.Basic
import ExportAtlas.RouteTree
/-!
# The arena of a route tree

A forest is built from nothing by `add`, with parents that are there
already (`Built`). Then a parent has a smaller number than its children, and
the links upwards and downwards are the same links (`Built.parent_lt`,
`Built.mem_children`, `Built.mem_roots`). So the way up from a node ends,
and the way down to it is the way to its parent and one step
(`Built.path_eq`).
-/

namespace ExportAtlas

namespace RouteTree

variable {t : RouteTree} {id p c : Nat} {n : RouteNode}

/-- A forest built by adding nodes under parents that are in it. -/
inductive Built : RouteTree → Prop where
  | empty : Built empty
  | add {t : RouteTree} (name : String) (parent : Option Nat) (h : Built t)
      (hparent : ∀ p ∈ parent, p < t.size) : Built (t.add name parent)

/-- The parent of a node. -/
def parent? (t : RouteTree) (id : Nat) : Option Nat := (t.node? id).bind RouteNode.parent

theorem lt_size_iff : id < t.size ↔ (t.node? id).isSome := by
  rw [node?, size, getElem?_def]
  split <;> simp [*]

/-! ## One node more -/

section Add

variable (t : RouteTree) (name : String) (parent : Option Nat)

theorem size_add : (t.add name parent).size = t.size + 1 := by
  cases parent with
  | none => simp [add, size]
  | some p => simp [add, size]

theorem roots_add :
    (t.add name parent).roots = if parent = none then t.roots ++ [t.size] else t.roots := by
  cases parent <;> rfl

/-- The new node is last, and has no children yet. -/
theorem node?_add_size (hparent : ∀ p ∈ parent, p < t.size) :
    (t.add name parent).node? t.size = some ⟨name, t.depthUnder parent, parent, []⟩ := by
  cases parent with
  | none => simp [add, node?, size]
  | some p =>
    have hp : p ≠ t.size := Nat.ne_of_lt (hparent p rfl)
    simp only [add, node?, size, Array.getElem?_modify] at hp ⊢
    rw [if_neg hp]
    simp

/-- The other nodes are as they were, but for the parent's children. -/
theorem node?_add_of_ne (hid : id ≠ t.size) :
    (t.add name parent).node? id =
      (t.node? id).map fun n =>
        if parent = some id then { n with children := n.children ++ [t.size] } else n := by
  have hpush : ∀ n : RouteNode, (t.nodes.push n)[id]? = t.nodes[id]? := by
    intro n
    rw [Array.getElem?_push]
    exact if_neg hid
  cases parent with
  | none =>
    change (t.nodes.push _)[id]? = _
    rw [hpush, node?]
    simp
  | some p =>
    change ((t.nodes.push _).modify p _)[id]? = _
    rw [Array.getElem?_modify, hpush, node?]
    by_cases hp : p = id
    · simp [hp]
    · simp [hp]

theorem parent?_add_size (hparent : ∀ p ∈ parent, p < t.size) :
    (t.add name parent).parent? t.size = parent := by
  rw [parent?, node?_add_size t name parent hparent]
  rfl

theorem parent?_add_of_ne (hid : id ≠ t.size) : (t.add name parent).parent? id = t.parent? id := by
  rw [parent?, node?_add_of_ne t name parent hid, parent?]
  cases t.node? id with
  | none => rfl
  | some n =>
    rw [Option.map_some, Option.bind_some, Option.bind_some]
    split <;> rfl

theorem children_add_size (hparent : ∀ p ∈ parent, p < t.size) :
    (t.add name parent).children t.size = [] := by
  rw [children, node?_add_size t name parent hparent]
  rfl

theorem children_add_of_ne (hparent : ∀ p ∈ parent, p < t.size) (hid : id ≠ t.size) :
    (t.add name parent).children id =
      if parent = some id then t.children id ++ [t.size] else t.children id := by
  rw [children, node?_add_of_ne t name parent hid, children]
  by_cases hp : parent = some id
  · obtain ⟨n, hn⟩ := Option.isSome_iff_exists.mp (lt_size_iff.mp (hparent id hp))
    simp [hp, hn]
  · simp [hp]

end Add

/-! ## The links of a built forest -/

theorem parent?_lt_size (h : t.parent? id = some p) : id < t.size := by
  rw [lt_size_iff]
  cases hn : t.node? id with
  | none =>
    rw [parent?, hn] at h
    cases h
  | some n => rfl

/-- **Parents come first.** -/
theorem Built.parent_lt (ht : Built t) (h : t.parent? id = some p) : p < id := by
  induction ht with
  | empty => cases parent?_lt_size h
  | @add t name parent ht hparent ih =>
    by_cases hid : id = t.size
    · subst hid
      rw [parent?_add_size t name parent hparent] at h
      exact hparent p h
    · rw [parent?_add_of_ne t name parent hid] at h
      exact ih h

/-- **The children of a node** are the nodes that have it as their parent. -/
theorem Built.mem_children (ht : Built t) : c ∈ t.children p ↔ t.parent? c = some p := by
  induction ht with
  | empty =>
    constructor
    · intro h
      cases h
    · intro h
      cases parent?_lt_size h
  | @add t name parent ht hparent ih =>
    have hold : t.parent? c = some p → c ≠ t.size := fun h => Nat.ne_of_lt (parent?_lt_size h)
    by_cases hp : p = t.size
    · -- nothing has the new node as its parent yet
      subst hp
      rw [children_add_size t name parent hparent]
      refine ⟨fun h => (nomatch h), fun h => ?_⟩
      by_cases hc : c = t.size
      · subst hc
        rw [parent?_add_size t name parent hparent] at h
        exact absurd (hparent t.size h) (Nat.lt_irrefl _)
      · rw [parent?_add_of_ne t name parent hc] at h
        exact absurd (Nat.lt_trans (ht.parent_lt h) (parent?_lt_size h)) (Nat.lt_irrefl _)
    · rw [children_add_of_ne t name parent hparent hp]
      by_cases hc : c = t.size
      · subst hc
        rw [parent?_add_size t name parent hparent]
        split
        · rename_i hparent'
          simp [hparent']
        · rename_i hparent'
          rw [ih]
          exact ⟨fun h => absurd rfl (hold h), fun h => absurd h hparent'⟩
      · rw [parent?_add_of_ne t name parent hc, ← ih]
        split
        · simp [hc]
        · exact Iff.rfl

/-- **The roots** are the nodes without a parent. -/
theorem Built.mem_roots (ht : Built t) : c ∈ t.roots ↔ c < t.size ∧ t.parent? c = none := by
  induction ht with
  | empty =>
    constructor
    · intro h
      cases h
    · intro h
      cases h.1
  | @add t name parent ht hparent ih =>
    rw [roots_add, size_add]
    by_cases hc : c = t.size
    · subst hc
      rw [parent?_add_size t name parent hparent]
      have hnew : t.size ∉ t.roots := fun h => absurd (ih.mp h).1 (Nat.lt_irrefl _)
      split
      · rename_i hnone
        simp [hnone]
      · rename_i hsome
        exact ⟨fun h => absurd h hnew, fun h => absurd h.2 hsome⟩
    · rw [parent?_add_of_ne t name parent hc]
      have hroots : (c ∈ if parent = none then t.roots ++ [t.size] else t.roots) ↔ c ∈ t.roots := by
        split
        · simp [hc]
        · exact Iff.rfl
      rw [hroots, ih]
      constructor
      · rintro ⟨hlt, hnone⟩
        exact ⟨by omega, hnone⟩
      · rintro ⟨hlt, hnone⟩
        exact ⟨by omega, hnone⟩

/-! ## The way up -/

theorem lineage_of_root (hid : id < t.size) (h : t.parent? id = none) (fuel : Nat)
    (below : List Nat) : t.lineage (fuel + 1) id below = id :: below := by
  obtain ⟨n, hn⟩ := Option.isSome_iff_exists.mp (lt_size_iff.mp hid)
  rw [parent?, hn, Option.bind_some] at h
  simp only [lineage, hn, h]

theorem lineage_of_parent (h : t.parent? id = some p) (fuel : Nat) (below : List Nat) :
    t.lineage (fuel + 1) id below = t.lineage fuel p (id :: below) := by
  obtain ⟨n, hn⟩ := Option.isSome_iff_exists.mp (lt_size_iff.mp (parent?_lt_size h))
  rw [parent?, hn, Option.bind_some] at h
  simp only [lineage, hn, h]

/-- What lies below is carried along. -/
theorem lineage_append (fuel : Nat) (below : List Nat) :
    t.lineage fuel id below = t.lineage fuel id [] ++ below := by
  induction fuel generalizing id below with
  | zero => rfl
  | succ fuel ih =>
    rw [lineage, lineage]
    split
    · rfl
    · split
      · rfl
      · rw [ih (id :: below), ih [id], List.append_assoc]
        rfl

/-- The way from a root to a node, the node last. -/
def path (t : RouteTree) (id : Nat) : List Nat := t.lineage t.size id []

/-- The proper ancestors of a node, from the root down. -/
def ancestors (t : RouteTree) (id : Nat) : List Nat := (t.path id).dropLast

/-- Steps beyond a node's number change nothing: each step up leads to a
smaller one. -/
theorem Built.lineage_fuel (ht : Built t) (hid : id < t.size) {fuel fuel' : Nat} (h : id < fuel)
    (h' : id < fuel') : t.lineage fuel id [] = t.lineage fuel' id [] := by
  induction id using Nat.strongRecOn generalizing fuel fuel' with
  | ind id ih =>
    obtain ⟨f, rfl⟩ := Nat.exists_eq_succ_of_ne_zero (show fuel ≠ 0 by omega)
    obtain ⟨f', rfl⟩ := Nat.exists_eq_succ_of_ne_zero (show fuel' ≠ 0 by omega)
    cases hp : t.parent? id with
    | none => rw [lineage_of_root hid hp, lineage_of_root hid hp]
    | some p =>
      have hlt : p < id := ht.parent_lt hp
      rw [lineage_of_parent hp, lineage_of_parent hp, lineage_append, lineage_append f',
        ih p hlt (by omega) (show p < f by omega) (show p < f' by omega)]

/-- **The way to a node** is the way to its parent and one step. -/
theorem Built.path_eq (ht : Built t) (hid : id < t.size) :
    t.path id = ((t.parent? id).map t.path).getD [] ++ [id] := by
  obtain ⟨f, hf⟩ := Nat.exists_eq_succ_of_ne_zero (show t.size ≠ 0 by omega)
  rw [path, hf]
  cases hp : t.parent? id with
  | none => exact lineage_of_root hid hp f []
  | some p =>
    have hlt : p < id := ht.parent_lt hp
    rw [lineage_of_parent hp, lineage_append, Option.map_some, Option.getD_some, path,
      ht.lineage_fuel (by omega) (show p < f by omega) (show p < t.size by omega)]

theorem Built.ancestors_eq (ht : Built t) (hid : id < t.size) :
    t.ancestors id = ((t.parent? id).map t.path).getD [] := by
  rw [ancestors, ht.path_eq hid, List.dropLast_concat]

theorem Built.path_eq_ancestors (ht : Built t) (hid : id < t.size) :
    t.path id = t.ancestors id ++ [id] := by
  rw [ht.ancestors_eq hid, ht.path_eq hid]

theorem Built.ancestors_root (ht : Built t) (h : id ∈ t.roots) : t.ancestors id = [] := by
  obtain ⟨hid, hnone⟩ := ht.mem_roots.mp h
  rw [ht.ancestors_eq hid, hnone]
  rfl

/-- A child has the ancestors of its parent, and the parent. -/
theorem Built.ancestors_child (ht : Built t) (h : c ∈ t.children p) :
    t.ancestors c = t.ancestors p ++ [p] := by
  have hparent := ht.mem_children.mp h
  have hc := parent?_lt_size hparent
  have hp : p < t.size := Nat.lt_trans (ht.parent_lt hparent) hc
  rw [ht.ancestors_eq hc, hparent, ← ht.path_eq_ancestors hp]
  rfl

end RouteTree

end ExportAtlas
