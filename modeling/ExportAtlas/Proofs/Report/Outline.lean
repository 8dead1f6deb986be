import ExportAtlas.Proofs.RouteTree.Groups
import ExportAtlas.Proofs.RouteTree.RoundTrip
import ExportAtlas.Report.Outline
/-!
# The route groups of the outline

The outline draws the groups of a forest in an order of its own, none lost and
none repeated (`orderGroups_perm`). Under the header of a group stand the pages
that are left of it once parameters are taken out, and there are none exactly if
the group has parameters only (`pageLines_eq_nil_iff`). A group without pages is
not drawn, but parameters count as pages there: so a header stands alone where
all that a group lists is parameters (`routeBlock_of_built`).
-/

namespace ExportAtlas

namespace Report

namespace Outline

variable {a : Atlas} {t : RouteTree} {g : RouteGroup} {isLast : Bool}

/-! ## The entries of a block -/

section Entries

variable {α : Type}

/-- Entries, each with whether it is the last. -/
def marked : List α → List (Bool × α)
  | [] => []
  | x :: rest => (rest.isEmpty, x) :: marked rest

theorem map_snd_marked (entries : List α) : (marked entries).map Prod.snd = entries := by
  induction entries with
  | nil => rfl
  | cons x rest ih => rw [marked, List.map_cons, ih]

/-- **A block draws its entries one behind the other**, below its header. -/
theorem block_eq (title : String) (draw : (isLast : Bool) → α → List String) (entries : List α) :
    block title draw entries =
      if entries = [] then []
      else header title ++ (marked entries).flatMap (fun e => draw e.1 e.2) ++ [""] := by
  have hdraw : drawEach draw entries = (marked entries).flatMap fun e => draw e.1 e.2 := by
    induction entries with
    | nil => rfl
    | cons x rest ih => rw [drawEach, marked, List.flatMap_cons, ih]
  simp only [block, hdraw, List.isEmpty_iff]

end Entries

/-! ## The groups that are drawn -/

/-- **No group is lost or repeated** where they are put in order. -/
theorem orderBy_perm (names : List String) (groups : List RouteGroup) :
    (orderBy names groups).Perm groups := by
  induction names generalizing groups with
  | nil => exact List.Perm.refl groups
  | cons name names ih =>
    rw [orderBy, List.partition_eq_filter_filter]
    exact ((ih _).append_left _).trans (List.filter_append_perm (isCalled name) groups)

theorem orderGroups_perm (groups : List RouteGroup) : (orderGroups groups).Perm groups :=
  orderBy_perm firstGroups groups

/-- The groups of a forest without nodes are not drawn, and there are none. -/
theorem routeGroups_of_isEmpty {policy : BracketPolicy} (ht : RouteTree.Built t)
    (h : t.isEmpty = true) : t.routeGroups policy = [] := by
  have hsize : t.preorder.length = 0 := by
    rw [ht.length_preorder]
    exact Array.size_eq_zero_iff.mpr (Array.isEmpty_iff.mp h)
  rw [RouteTree.routeGroups, List.length_eq_zero_iff.mp hsize]
  rfl

/-- **The groups drawn are those of the forest** that list some page. -/
theorem groups_perm (ha : a.routes = some t) (ht : RouteTree.Built t) : (groups a).Perm
    ((t.grouped .keep t.preorder).filter fun g => !g.children.isEmpty) := by
  rw [← ht.routeGroups_eq, groups, Atlas.someRoutes?, ha, Option.filter_some]
  cases hempty : t.isEmpty with
  | true =>
    rw [routeGroups_of_isEmpty ht hempty]
    exact List.Perm.refl []
  | false => exact orderGroups_perm _

/-! ## The pages of a group -/

/-- **Of the children the parameters are left out**, and some child is left if
there is any other. -/
theorem consolidateFrom_eq_nil_iff (parameters children : List String) :
    consolidateFrom parameters [] children = [] ↔
      ∀ child ∈ children, isRouteParameter child = true := by
  induction children with
  | nil => exact iff_of_true rfl nofun
  | cons child children ih =>
    rw [consolidateFrom, List.forall_mem_cons]
    by_cases hchild : isRouteParameter child = true
    · rw [if_pos hchild, ih]
      exact (and_iff_right hchild).symm
    · rw [if_neg hchild]
      exact iff_of_false nofun fun h => hchild h.1

/-- **A header stands alone** if the group has parameters only. -/
theorem pageLines_eq_nil_iff :
    pageLines isLast g = [] ↔ ∀ child ∈ g.children, isRouteParameter child = true := by
  rw [← consolidateFrom_eq_nil_iff (parameters g.children), ← consolidate]
  cases hpages : consolidate g.children with
  | nil => exact iff_of_true (by rw [pageLines, hpages]; rfl) rfl
  | cons page pages => exact iff_of_false (by rw [pageLines, hpages]; exact nofun) nofun

/-- What stands right below a header is a page. -/
theorem exists_page_iff :
    (∃ page more, pageLines isLast g = (indent isLast ++ "/" ++ page) :: more) ↔
      ∃ child ∈ g.children, isRouteParameter child = false := by
  have hother : pageLines isLast g ≠ [] ↔ ∃ child ∈ g.children, isRouteParameter child = false := by
    rw [Ne, pageLines_eq_nil_iff]
    simp
  rw [← hother]
  constructor
  · rintro ⟨page, more, hlines⟩
    rw [hlines]
    exact List.cons_ne_nil _ _
  · intro hne
    rw [pageLines] at hne ⊢
    cases hpages : consolidate g.children with
    | nil =>
      rw [hpages] at hne
      exact absurd rfl hne
    | cons page pages => exact ⟨page, _, rfl⟩

theorem isLeftOut_keep (name : String) :
    RouteTree.Grouping.isLeftOut .keep name = RouteGroup.isTechnical name := Bool.or_false _

section Listed

variable {Q : String → Prop}

/-- What a group of the forest lists, parameters included. -/
theorem exists_mem_children_iff (ht : RouteTree.Built t) (hg : g ∈ t.grouped .keep t.preorder) :
    (∃ child ∈ g.children, Q child) ↔ ∃ id < t.size, t.home? id = some g.key ∧
      RouteGroup.isTechnical (t.name id) = false ∧ Q (t.name id) := by
  obtain ⟨key, -, rfl⟩ := List.mem_map.mp hg
  simp only [RouteTree.mem_pagesOf, ht.mem_preorder, isLeftOut_keep]
  constructor
  · rintro ⟨_, ⟨id, hid, hhome, hlisted, rfl⟩, hname⟩
    exact ⟨id, hid, hhome, hlisted, hname⟩
  · rintro ⟨id, hid, hhome, hlisted, hname⟩
    exact ⟨_, ⟨id, hid, hhome, hlisted, rfl⟩, hname⟩

theorem forall_mem_children_iff (ht : RouteTree.Built t) (hg : g ∈ t.grouped .keep t.preorder) :
    (∀ child ∈ g.children, Q child) ↔ ∀ id < t.size, t.home? id = some g.key →
      RouteGroup.isTechnical (t.name id) = false → Q (t.name id) := by
  -- none of them is without the property
  have hnone := not_congr (exists_mem_children_iff (Q := fun name => ¬ Q name) ht hg)
  simpa only [not_exists, not_and, not_not] using hnone

end Listed

/-- **The block of the routes.** The groups of the forest that list a page are
drawn, one behind the other, each with its header and its pages. Every group
lists some page; but a page stands below the header only if one of those listed
is no parameter, and else nothing does. -/
theorem routeBlock_of_built (ha : a.routes = some t) (ht : RouteTree.Built t) :
    (groups a).Perm
      ((t.grouped .keep t.preorder).filter fun g => !g.children.isEmpty) ∧
    routeBlock a = (if groups a = [] then []
      else header "Routes" ++ (marked (groups a)).flatMap
        (fun e => groupHeader e.1 e.2 :: pageLines e.1 e.2) ++ [""]) ∧
    ∀ e ∈ marked (groups a),
      (∃ id < t.size, t.home? id = some e.2.key ∧
        RouteGroup.isTechnical (t.name id) = false) ∧
      ((∃ page more, pageLines e.1 e.2 = (indent e.1 ++ "/" ++ page) :: more) ↔
        ∃ id < t.size, t.home? id = some e.2.key ∧
          RouteGroup.isTechnical (t.name id) = false ∧ isRouteParameter (t.name id) = false) ∧
      (pageLines e.1 e.2 = [] ↔ ∀ id < t.size, t.home? id = some e.2.key →
        RouteGroup.isTechnical (t.name id) = false → isRouteParameter (t.name id) = true) := by
  refine ⟨groups_perm ha ht, block_eq .., ?_⟩
  rintro ⟨isLast, g⟩ he
  have hdrawn : g ∈ groups a := by
    rw [← map_snd_marked (groups a)]
    exact List.mem_map_of_mem he
  obtain ⟨hg, hlists⟩ := List.mem_filter.mp ((groups_perm ha ht).mem_iff.mp hdrawn)
  refine ⟨?_, exists_page_iff.trans (exists_mem_children_iff ht hg),
    pageLines_eq_nil_iff.trans (forall_mem_children_iff ht hg)⟩
  have hsome : ∃ child ∈ g.children, True := by
    obtain ⟨child, hchild⟩ := List.exists_mem_of_ne_nil g.children (by simpa using hlists)
    exact ⟨child, hchild, trivial⟩
  obtain ⟨id, hid, hhome, hlisted, -⟩ := (exists_mem_children_iff ht hg).mp hsome
  exact ⟨id, hid, hhome, hlisted⟩

/-- Orders with a list page, and with a parameter below that has a parameter of
its own. -/
def orderRoutes : RouteTree :=
  (((RouteTree.empty.add "orders" none).add "new" (some 0)).add "[id]" (some 0)).add "[item]"
    (some 2)

/-- A project with these routes. -/
def orderAtlas : Atlas := ⟨.nextjs, .empty, some orderRoutes⟩

/-- The list page stands below the header of its group. -/
theorem routeBlock_of_built_orders :
    orderAtlas.routes = some orderRoutes ∧ RouteTree.Built orderRoutes ∧
    routeBlock orderAtlas = header "Routes" ++
      ["├── 📄 Orders", "│   /new", "└── 📄 Orders", ""] ∧
    ∃ page more, pageLines false ⟨"orders", ["new"]⟩ = (indent false ++ "/" ++ page) :: more := by
  have hbuilt : RouteTree.Built orderRoutes :=
    .add "[item]" (some 2) (.add "[id]" (some 0) (.add "new" (some 0) (.add "orders" none .empty
      (by decide)) (by decide)) (by decide)) (by decide)
  have hdrawn : (false, ⟨"orders", ["new"]⟩) ∈ marked (groups orderAtlas) := by
    decide +kernel
  obtain ⟨-, -, hlines⟩ := routeBlock_of_built (a := orderAtlas) rfl hbuilt
  refine ⟨rfl, hbuilt, by decide +kernel, (hlines _ hdrawn).2.1.mpr ⟨1, ?_⟩⟩
  decide +kernel

/-- Orders with a parameter alone, that has a parameter of its own. -/
def itemRoutes : RouteTree :=
  ((RouteTree.empty.add "orders" none).add "[id]" (some 0)).add "[item]" (some 1)

/-- **A header stands alone**: the one page of its group is a parameter, so the
group counts as having pages, and none of them is drawn. -/
theorem header_without_pages :
    RouteTree.ofLines ["orders", "  [id]", "    [item]"] = itemRoutes ∧
    groups ⟨.nextjs, .empty, some itemRoutes⟩ = [⟨"orders/[id]", ["[item]"]⟩] ∧
    pageLines true ⟨"orders/[id]", ["[item]"]⟩ = [] ∧
    routeBlock ⟨.nextjs, .empty, some itemRoutes⟩ =
      header "Routes" ++ ["└── 📄 Orders", ""] := by
  decide +kernel

end Outline

end Report

end ExportAtlas
