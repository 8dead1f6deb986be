import Mathlib.Data.List.Infix
import ExportAtlas.Proofs.Distinct
import ExportAtlas.Proofs.RouteTree.Arena
import ExportAtlas.RouteTree.Groups
/-!
# What route groups mean

`routeGroups` walks a forest once and keeps two registers: the top-level
route it is in, and the parameter below it. `grouped` says the outcome
without a walk: each node opens a group or belongs to one by its own
ancestors alone (`opens?`, `home?`), and a group lists its pages in
pre-order.

The registers name the ancestors of the node at hand because a stack of
nodes still to visit holds siblings of ancestors only: the ancestors of each
entry begin the way to the last node visited (`Holds`, `foldl_visit`).
-/

namespace ExportAtlas

namespace RouteTree

open Grouping (isLeftOut)

variable {t : RouteTree} {id a b p : Nat} {policy : BracketPolicy}

/-! ## Ancestors that show -/

/-- A node shows in addresses if it is no `(group)` folder. -/
def isShown (t : RouteTree) (id : Nat) : Bool := !isRouteGroup (t.name id)

theorem isShown_eq_true : t.isShown id = true ↔ ¬ isRouteGroup (t.name id) = true := by
  rw [isShown, Bool.not_eq_true', Bool.not_eq_true]

theorem isShown_eq_false : t.isShown id = false ↔ isRouteGroup (t.name id) = true := by
  rw [isShown, Bool.not_eq_false']

/-- The proper ancestors of a node that show in its address, from the root
down. -/
def shownAncestors (t : RouteTree) (id : Nat) : List Nat := (t.ancestors id).filter t.isShown

theorem urlDepth_eq (t : RouteTree) (id : Nat) :
    t.urlDepth id = (t.shownAncestors id).length := by
  have hnames : (t.ancestry id).dropLast = (t.ancestors id).map t.name := by
    rw [ancestry, ancestors, path, List.map_dropLast]
  rw [urlDepth, hnames, List.filter_map, List.length_map]
  rfl

/-- The way to a node shows what its ancestors show, and the node. -/
theorem Built.filter_path (ht : Built t) (hid : id < t.size) :
    (t.path id).filter t.isShown =
      t.shownAncestors id ++ if t.isShown id then [id] else [] := by
  rw [ht.path_eq_ancestors hid, List.filter_append, shownAncestors, List.filter_cons,
    List.filter_nil]

/-- **The shown ancestors stand by their depths**: at each depth of an
address one ancestor shows. -/
theorem Built.shownAncestors_getElem? (ht : Built t) (hid : id < t.size) (k a : Nat) :
    (t.shownAncestors id)[k]? = some a ↔
      a ∈ t.ancestors id ∧ t.isShown a = true ∧ t.urlDepth a = k := by
  induction id using Nat.strongRecOn with
  | ind id ih =>
    cases hp : t.parent? id with
    | none =>
      have hnil : t.ancestors id = [] := by
        rw [ht.ancestors_eq hid, hp]
        rfl
      simp [shownAncestors, hnil]
    | some p =>
      have hlt : p < id := ht.parent_lt hp
      have hps : p < t.size := by omega
      have hanc : t.ancestors id = t.ancestors p ++ [p] :=
        ht.ancestors_child (ht.mem_children.mpr hp)
      have hih := ih p hlt hps
      have hdepth := urlDepth_eq t p
      rw [shownAncestors, hanc, ← ht.path_eq_ancestors hps, ht.filter_path hps,
        ht.path_eq_ancestors hps, List.mem_append, List.mem_singleton]
      -- the parent stands behind its own shown ancestors, at its own depth
      rcases Nat.lt_or_ge k (t.shownAncestors p).length with hk | hk
      · rw [List.getElem?_append_left hk, hih]
        constructor
        · rintro ⟨hmem, hrest⟩
          exact ⟨.inl hmem, hrest⟩
        · rintro ⟨hmem | rfl, hshown, hdeep⟩
          · exact ⟨hmem, hshown, hdeep⟩
          · omega
      · have hold : ¬ (a ∈ t.ancestors p ∧ t.isShown a = true ∧ t.urlDepth a = k) := by
          rw [← hih, List.getElem?_eq_none hk]
          exact nofun
        rw [List.getElem?_append_right hk]
        constructor
        · intro h
          split at h
          · rename_i hshown
            have hzero : k - (t.shownAncestors p).length = 0 := by
              rcases Nat.eq_zero_or_pos (k - (t.shownAncestors p).length) with h0 | h0
              · exact h0
              · rw [List.getElem?_eq_none (by rw [List.length_singleton]; omega)] at h
                cases h
            rw [hzero] at h
            obtain rfl : p = a := by simpa using h
            exact ⟨.inr rfl, hshown, by omega⟩
          · cases h
        · rintro ⟨hmem | rfl, hshown, hdeep⟩
          · exact absurd ⟨hmem, hshown, hdeep⟩ hold
          · rw [if_pos hshown, show k - (t.shownAncestors a).length = 0 by omega]
            rfl

/-- So the ancestor at a depth is one. -/
theorem Built.existsUnique_ancestor (ht : Built t) (hid : id < t.size) {k : Nat}
    (hk : k < t.urlDepth id) :
    ∃! a, a ∈ t.ancestors id ∧ t.isShown a = true ∧ t.urlDepth a = k := by
  rw [urlDepth_eq] at hk
  have hget := List.getElem?_eq_getElem hk
  refine ⟨(t.shownAncestors id)[k], (ht.shownAncestors_getElem? hid k _).mp hget, fun a ha => ?_⟩
  have ha' := (ht.shownAncestors_getElem? hid k a).mpr ha
  rw [hget] at ha'
  exact (Option.some.inj ha').symm

/-- The ancestor of a node that shows in its address at a depth. -/
def shownAncestor? (t : RouteTree) (id depth : Nat) : Option Nat :=
  (t.ancestors id).find? fun a => t.isShown a && t.urlDepth a == depth

theorem Built.shownAncestor?_eq (ht : Built t) (hid : id < t.size) (k : Nat) :
    t.shownAncestor? id k = (t.shownAncestors id)[k]? := by
  have hfound : ∀ a, t.shownAncestor? id k = some a → (t.shownAncestors id)[k]? = some a := by
    intro a ha
    have hprop := List.find?_some ha
    rw [Bool.and_eq_true, beq_iff_eq] at hprop
    exact (ht.shownAncestors_getElem? hid k a).mpr ⟨List.mem_of_find?_eq_some ha, hprop⟩
  cases h : t.shownAncestor? id k with
  | some a => exact (hfound a h).symm
  | none =>
    cases h' : (t.shownAncestors id)[k]? with
    | none => rfl
    | some a =>
      obtain ⟨hmem, hshown, hdepth⟩ := (ht.shownAncestors_getElem? hid k a).mp h'
      have := List.find?_eq_none.mp h a hmem
      rw [hshown, hdepth, beq_self_eq_true] at this
      exact absurd rfl this

/-! ## The outcome without a walk -/

/-- The key of the group that a parameter opens below a top-level route. -/
def parameterKey (t : RouteTree) (top parameter : Nat) : String :=
  t.name top ++ "/" ++ t.name parameter

/-- The key of the group that a node opens: a top-level route, or a parameter
right below one. -/
def opens? (t : RouteTree) (id : Nat) : Option String :=
  if t.isShown id then
    match t.urlDepth id with
    | 0 => some (t.name id)
    | 1 =>
      if isRouteParameter (t.name id) then
        (t.shownAncestor? id 0).map fun top => t.parameterKey top id
      else none
    | _ => none
  else none

/-- The key of the group that a node is a page of: its top-level route, or
the parameter below that. -/
def home? (t : RouteTree) (id : Nat) : Option String :=
  if t.isShown id then
    match t.urlDepth id with
    | 0 => none
    | 1 =>
      if isRouteParameter (t.name id) then none
      else (t.shownAncestor? id 0).map t.name
    | _ => do
      let top ← t.shownAncestor? id 0
      let second ← t.shownAncestor? id 1
      if isRouteParameter (t.name second) then t.parameterKey top second else t.name top
  else none

/-- The keys that nodes open, each at its first appearance. -/
def groupKeys (t : RouteTree) (ids : List Nat) : List String := (ids.filterMap t.opens?).eraseDups

/-- The names of the pages of a group, each at its first appearance. -/
def pagesOf (t : RouteTree) (policy : BracketPolicy) (key : String) (ids : List Nat) :
    List String :=
  ((ids.filter fun id => t.home? id == some key && !isLeftOut policy (t.name id)).map
    t.name).eraseDups

/-- The groups that nodes make, in the order in which their keys appear. -/
def grouped (t : RouteTree) (policy : BracketPolicy) (ids : List Nat) : List RouteGroup :=
  (t.groupKeys ids).map fun key => ⟨key, t.pagesOf policy key ids⟩

/-! ## One node more -/

section Concat

variable {seen : List Nat} {key : String}

theorem grouped_concat_of_none (hopens : t.opens? id = none)
    (hhome : ∀ key, t.home? id = some key → isLeftOut policy (t.name id) = true) :
    t.grouped policy (seen ++ [id]) = t.grouped policy seen := by
  have hkeys : t.groupKeys (seen ++ [id]) = t.groupKeys seen := by
    simp [groupKeys, hopens]
  have hpages : ∀ key, t.pagesOf policy key (seen ++ [id]) = t.pagesOf policy key seen := by
    intro key
    have hout : (t.home? id == some key && !isLeftOut policy (t.name id)) = false := by
      by_cases h : t.home? id = some key
      · rw [hhome key h]
        exact Bool.and_false _
      · rw [beq_false_of_ne h]
        rfl
    simp [pagesOf, List.filter_append, hout]
  simp only [grouped, hkeys, hpages]

/-- A node that opens a group leaves the pages as they are. -/
theorem grouped_concat_of_opens (hopens : t.opens? id = some key) (hhome : t.home? id = none)
    (hempty : key ∉ seen.filterMap t.opens? → t.pagesOf policy key seen = []) :
    t.grouped policy (seen ++ [id]) = Grouping.openGroup key (t.grouped policy seen) := by
  have hpages : ∀ key, t.pagesOf policy key (seen ++ [id]) = t.pagesOf policy key seen := by
    intro key
    simp [pagesOf, List.filter_append, hhome]
  have hany : ((t.grouped policy seen).any fun g => g.key == key) =
      (seen.filterMap t.opens?).contains key := by
    rw [grouped, List.any_map, Bool.eq_iff_iff, List.any_eq_true, List.contains_iff_mem]
    simp [groupKeys]
  have hkeys : t.groupKeys (seen ++ [id]) =
      if (seen.filterMap t.opens?).contains key then t.groupKeys seen
      else t.groupKeys seen ++ [key] := by
    rw [groupKeys, List.filterMap_append, List.filterMap_cons_some hopens, List.filterMap_nil,
      eraseDups_concat]
    rfl
  rw [Grouping.openGroup, hany, grouped, hkeys]
  split
  · simp only [hpages, grouped]
  · rename_i hnew
    rw [List.map_append, List.map_singleton, hpages,
      hempty fun h => hnew (List.contains_iff_mem.mpr h)]
    simp only [hpages, grouped]

/-- A page is added to the group that it belongs to. -/
theorem grouped_concat_of_home (hopens : t.opens? id = none) (hhome : t.home? id = some key)
    (hlisted : isLeftOut policy (t.name id) = false) :
    t.grouped policy (seen ++ [id]) =
      Grouping.addChild key (t.name id) (t.grouped policy seen) := by
  have hkeys : t.groupKeys (seen ++ [id]) = t.groupKeys seen := by
    simp [groupKeys, hopens]
  rw [Grouping.addChild, grouped, hkeys, grouped, List.map_map]
  refine List.map_congr_left fun k _ => ?_
  rw [Function.comp_apply]
  by_cases hk : k = key
  · -- its own group, where a page of that name may be listed already
    subst hk
    rw [if_pos rfl, RouteGroup.addChild]
    have hpages : t.pagesOf policy k (seen ++ [id]) =
        if (t.pagesOf policy k seen).contains (t.name id) then t.pagesOf policy k seen
        else t.pagesOf policy k seen ++ [t.name id] := by
      rw [pagesOf, List.filter_append, List.map_append,
        show [id].filter (fun id => t.home? id == some k && !isLeftOut policy (t.name id)) = [id] by
          simp [hhome, hlisted],
        List.map_singleton, eraseDups_concat, ← contains_eraseDups]
      rfl
    rw [hpages]
    split <;> rfl
  · -- every other group
    rw [if_neg hk]
    have hout : (t.home? id == some k) = false := by
      rw [hhome]
      exact beq_false_of_ne fun h => hk (Option.some.inj h).symm
    simp [pagesOf, List.filter_append, hout]

end Concat

/-! ## What a node opens, by its shown ancestors -/

section Kinds

variable {rest : List Nat}

theorem opens?_of_hidden (h : t.isShown id = false) : t.opens? id = none ∧ t.home? id = none := by
  rw [opens?, home?, h]
  exact ⟨rfl, rfl⟩

theorem opens?_of_nil (h : t.isShown id = true) (hanc : t.shownAncestors id = []) :
    t.opens? id = some (t.name id) ∧ t.home? id = none := by
  have hdepth : t.urlDepth id = 0 := by rw [urlDepth_eq, hanc, List.length_nil]
  rw [opens?, home?, h, hdepth]
  exact ⟨rfl, rfl⟩

/-- Right below a top-level route a parameter opens a group, and any other
node is a page. -/
theorem Built.opens?_of_singleton (ht : Built t) (hid : id < t.size) (h : t.isShown id = true)
    (hanc : t.shownAncestors id = [a]) :
    t.opens? id = (if isRouteParameter (t.name id) then some (t.parameterKey a id) else none) ∧
      t.home? id = if isRouteParameter (t.name id) then none else some (t.name a) := by
  have hdepth : t.urlDepth id = 1 := by rw [urlDepth_eq, hanc]; rfl
  have htop : t.shownAncestor? id 0 = some a := by rw [ht.shownAncestor?_eq hid, hanc]; rfl
  rw [opens?, home?, h, hdepth, htop]
  exact ⟨rfl, rfl⟩

/-- Further down every node is a page. -/
theorem Built.opens?_of_cons_cons (ht : Built t) (hid : id < t.size) (h : t.isShown id = true)
    (hanc : t.shownAncestors id = a :: b :: rest) :
    t.opens? id = none ∧ t.home? id =
      some (if isRouteParameter (t.name b) then t.parameterKey a b else t.name a) := by
  have hdepth : t.urlDepth id = rest.length + 2 := by rw [urlDepth_eq, hanc]; rfl
  have htop : t.shownAncestor? id 0 = some a := by rw [ht.shownAncestor?_eq hid, hanc]; rfl
  have hsecond : t.shownAncestor? id 1 = some b := by rw [ht.shownAncestor?_eq hid, hanc]; rfl
  rw [opens?, home?, h, hdepth, htop, hsecond]
  refine ⟨rfl, ?_⟩
  change (if isRouteParameter (t.name b) then some (t.parameterKey a b) else some (t.name a)) = _
  split <;> rfl

end Kinds

/-! ## The registers follow the walk -/

/-- What holds of the walk when the nodes of `seen` have been visited and
`path` are the nodes that show on the way to the last of them. The groups are
those of the nodes seen, and every page has its group; the registers name the
top-level route on the way and what is right below it, and their groups are
open. -/
structure Holds (t : RouteTree) (policy : BracketPolicy) (g : Grouping) (seen path : List Nat) :
    Prop where
  groups : g.groups = t.grouped policy seen
  homes : ∀ i ∈ seen, ∀ key, t.home? i = some key → key ∈ seen.filterMap t.opens?
  top : ∀ a, path[0]? = some a → g.top = some (t.name a) ∧ t.name a ∈ seen.filterMap t.opens?
  parameter : ∀ a b, path[0]? = some a → path[1]? = some b →
    if isRouteParameter (t.name b) then
      g.parameter = some (t.parameterKey a b) ∧ t.parameterKey a b ∈ seen.filterMap t.opens?
    else g.parameter = none

namespace Holds

variable {g : Grouping} {seen path path' rest : List Nat} {key : String}

theorem empty (t : RouteTree) (policy : BracketPolicy) : Holds t policy Grouping.empty [] [] where
  groups := rfl
  homes := nofun
  top := nofun
  parameter := nofun

/-- **The registers hold further up the way as well.** -/
theorem of_isPrefix (h : Holds t policy g seen path) (hpath : path' <+: path) :
    Holds t policy g seen path' := by
  have hget : ∀ k a : Nat, path'[k]? = some a → path[k]? = some a := by
    intro k a ha
    obtain ⟨more, rfl⟩ := hpath
    obtain ⟨hk, -⟩ := List.getElem?_eq_some_iff.mp ha
    rw [List.getElem?_append_left hk]
    exact ha
  exact ⟨h.groups, h.homes, fun a ha => h.top a (hget 0 a ha),
    fun a b ha hb => h.parameter a b (hget 0 a ha) (hget 1 b hb)⟩

/-- An open group stays open. -/
theorem mem_concat (h : key ∈ seen.filterMap t.opens?) :
    key ∈ (seen ++ [id]).filterMap t.opens? := by
  rw [List.filterMap_append]
  exact List.mem_append_left _ h

theorem homes_concat (h : Holds t policy g seen path)
    (hid : ∀ key, t.home? id = some key → key ∈ seen.filterMap t.opens?) :
    ∀ i ∈ seen ++ [id], ∀ key, t.home? i = some key →
      key ∈ (seen ++ [id]).filterMap t.opens? := by
  intro i hi key hkey
  rcases List.mem_append.mp hi with hi | hi
  · exact mem_concat (h.homes i hi key hkey)
  · rw [List.mem_singleton.mp hi] at hkey
    exact mem_concat (hid key hkey)

/-- The registers of a walk that has seen one node more, on the same way. -/
theorem registers_concat (h : Holds t policy g seen path) (id : Nat) :
    (∀ a, path[0]? = some a →
      g.top = some (t.name a) ∧ t.name a ∈ (seen ++ [id]).filterMap t.opens?) ∧
    (∀ a b, path[0]? = some a → path[1]? = some b →
      if isRouteParameter (t.name b) then g.parameter = some (t.parameterKey a b) ∧
        t.parameterKey a b ∈ (seen ++ [id]).filterMap t.opens?
      else g.parameter = none) := by
  refine ⟨fun a ha => ⟨(h.top a ha).1, mem_concat (h.top a ha).2⟩, fun a b ha hb => ?_⟩
  have := h.parameter a b ha hb
  split
  · rename_i hb
    rw [if_pos hb] at this
    exact ⟨this.1, mem_concat this.2⟩
  · rename_i hb
    rwa [if_neg hb] at this

/-- A group has no pages before it is open. -/
theorem pagesOf_eq_nil (h : Holds t policy g seen path) (hkey : key ∉ seen.filterMap t.opens?) :
    t.pagesOf policy key seen = [] := by
  have hnone : (seen.filter fun id =>
      t.home? id == some key && !isLeftOut policy (t.name id)) = [] := by
    refine List.filter_eq_nil_iff.mpr fun i hi hpage => hkey ?_
    rw [Bool.and_eq_true, beq_iff_eq] at hpage
    exact h.homes i hi key hpage.1
  rw [pagesOf, hnone]
  rfl

/-- A node opens its group, if it is new. -/
theorem groups_openGroup (h : Holds t policy g seen path) (hopens : t.opens? id = some key)
    (hhome : t.home? id = none) :
    Grouping.openGroup key g.groups = t.grouped policy (seen ++ [id]) := by
  rw [grouped_concat_of_opens hopens hhome h.pagesOf_eq_nil, h.groups]

/-- **One page more**, in the group that the registers name. -/
theorem groups_page (h : Holds t policy g seen path) (hopens : t.opens? id = none)
    (hhome : t.home? id = some key) (depth : Nat) (g' : Grouping)
    (hg' : g' = if depth = 1 then { g with parameter := none } else g)
    (htarget : g'.target? depth = some key) :
    g.page policy depth (t.name id) =
      { g' with groups := t.grouped policy (seen ++ [id]) } := by
  have hgroups : g'.groups = t.grouped policy seen := by
    rw [hg', ← h.groups]
    split <;> rfl
  rw [Grouping.page, ← hg']
  by_cases hout : isLeftOut policy (t.name id) = true
  · rw [if_pos hout, grouped_concat_of_none hopens fun _ _ => hout, ← hgroups]
  · rw [if_neg hout, htarget, grouped_concat_of_home hopens hhome (by simpa using hout), ← hgroups]

/-- A folder that does not show changes nothing. -/
theorem step_hidden (h : Holds t policy g seen path) (hid : t.isShown id = false) :
    Holds t policy (g.step policy (t.urlDepth id) (t.name id)) (seen ++ [id]) path := by
  obtain ⟨hopens, hhome⟩ := opens?_of_hidden hid
  have hgroup := isShown_eq_false.mp hid
  obtain ⟨htop, hparameter⟩ := h.registers_concat id
  rw [Grouping.step, if_pos hgroup]
  refine ⟨?_, h.homes_concat fun key hkey => ?_, htop, hparameter⟩
  · rw [h.groups, grouped_concat_of_none hopens]
    intro key hkey
    rw [hhome] at hkey
    cases hkey
  · rw [hhome] at hkey
    cases hkey

/-- A top-level route opens its group and resets the registers. -/
theorem step_top (h : Holds t policy g seen []) (hid : t.isShown id = true)
    (hanc : t.shownAncestors id = []) :
    Holds t policy (g.step policy (t.urlDepth id) (t.name id)) (seen ++ [id]) [id] := by
  obtain ⟨hopens, hhome⟩ := opens?_of_nil hid hanc
  have hgroup := isShown_eq_true.mp hid
  have hdepth : t.urlDepth id = 0 := by rw [urlDepth_eq, hanc, List.length_nil]
  rw [Grouping.step, if_neg hgroup, if_pos hdepth]
  refine ⟨h.groups_openGroup hopens hhome, h.homes_concat fun key hkey => ?_, fun a ha => ?_, nofun⟩
  · rw [hhome] at hkey
    cases hkey
  · obtain rfl : id = a := Option.some.inj ha
    refine ⟨rfl, ?_⟩
    rw [List.filterMap_append, List.filterMap_cons_some hopens]
    exact List.mem_append_right _ (List.mem_cons_self ..)

/-- A parameter right below a top-level route opens its group, and the
register names it. -/
theorem step_parameter (ht : Built t) (hlt : id < t.size) (h : Holds t policy g seen [a])
    (hid : t.isShown id = true) (hanc : t.shownAncestors id = [a])
    (hparameter : isRouteParameter (t.name id) = true) :
    Holds t policy (g.step policy (t.urlDepth id) (t.name id)) (seen ++ [id]) [a, id] := by
  obtain ⟨hopens, hhome⟩ := ht.opens?_of_singleton hlt hid hanc
  rw [if_pos hparameter] at hopens hhome
  have hgroup := isShown_eq_true.mp hid
  have hdepth : t.urlDepth id = 1 := by rw [urlDepth_eq, hanc]; rfl
  obtain ⟨htop, hopen⟩ := h.top a rfl
  rw [Grouping.step, if_neg hgroup, if_neg (by omega), if_pos ⟨hdepth, hparameter⟩, htop]
  refine ⟨h.groups_openGroup hopens hhome, h.homes_concat fun key hkey => ?_,
    fun a' ha' => ?_, fun a' b hb ha' => ?_⟩
  · rw [hhome] at hkey
    cases hkey
  · obtain rfl : a = a' := Option.some.inj ha'
    exact ⟨rfl, mem_concat hopen⟩
  · obtain rfl : a = a' := Option.some.inj hb
    obtain rfl : id = b := Option.some.inj ha'
    rw [if_pos hparameter]
    refine ⟨rfl, ?_⟩
    rw [List.filterMap_append, List.filterMap_cons_some hopens]
    exact List.mem_append_right _ (List.mem_cons_self ..)

/-- Any other node right below a top-level route is a page of it, and the
register is reset, whether the page is listed or not. -/
theorem step_page (ht : Built t) (hlt : id < t.size) (h : Holds t policy g seen [a])
    (hid : t.isShown id = true) (hanc : t.shownAncestors id = [a])
    (hparameter : isRouteParameter (t.name id) = false) :
    Holds t policy (g.step policy (t.urlDepth id) (t.name id)) (seen ++ [id]) [a, id] := by
  obtain ⟨hopens, hhome⟩ := ht.opens?_of_singleton hlt hid hanc
  rw [hparameter, if_neg Bool.false_ne_true] at hopens hhome
  have hgroup := isShown_eq_true.mp hid
  have hdepth : t.urlDepth id = 1 := by rw [urlDepth_eq, hanc]; rfl
  obtain ⟨htop, hopen⟩ := h.top a rfl
  rw [Grouping.step, if_neg hgroup, hdepth, if_neg Nat.one_ne_zero, hparameter,
    if_neg (by simp), h.groups_page hopens hhome 1 { g with parameter := none } rfl htop]
  refine ⟨rfl, h.homes_concat fun key hkey => ?_, fun a' ha' => ?_, fun a' b _ hb => ?_⟩
  · obtain rfl : t.name a = key := Option.some.inj (hhome.symm.trans hkey)
    exact hopen
  · obtain rfl : a = a' := Option.some.inj ha'
    exact ⟨htop, mem_concat hopen⟩
  · obtain rfl : id = b := Option.some.inj hb
    rw [hparameter, if_neg Bool.false_ne_true]

/-- Further down, a node is a page of the parameter that the register names,
or of the top-level route if it names none. -/
theorem step_below (ht : Built t) (hlt : id < t.size) (h : Holds t policy g seen (a :: b :: rest))
    (hid : t.isShown id = true) (hanc : t.shownAncestors id = a :: b :: rest) :
    Holds t policy (g.step policy (t.urlDepth id) (t.name id)) (seen ++ [id])
      (a :: b :: rest ++ [id]) := by
  obtain ⟨hopens, hhome⟩ := ht.opens?_of_cons_cons hlt hid hanc
  have hgroup := isShown_eq_true.mp hid
  have hdepth : t.urlDepth id = rest.length + 2 := by rw [urlDepth_eq, hanc]; rfl
  obtain ⟨htop, hopen⟩ := h.top a rfl
  have hregister := h.parameter a b rfl rfl
  -- the register was set or cleared at `b`, whatever has been visited below it since
  have htarget : g.target? (rest.length + 2) =
        some (if isRouteParameter (t.name b) then t.parameterKey a b else t.name a) ∧
      (if isRouteParameter (t.name b) then t.parameterKey a b else t.name a) ∈
        seen.filterMap t.opens? := by
    rw [Grouping.target?, if_pos (by omega)]
    split
    · rename_i hb
      rw [if_pos hb] at hregister
      rw [hregister.1]
      exact ⟨rfl, hregister.2⟩
    · rename_i hb
      rw [if_neg hb] at hregister
      rw [hregister, htop]
      exact ⟨rfl, hopen⟩
  obtain ⟨htops, hparameters⟩ := h.registers_concat id
  rw [Grouping.step, if_neg hgroup, hdepth, if_neg (by omega), if_neg (by omega),
    h.groups_page hopens hhome (rest.length + 2) g (by rw [if_neg (by omega)]) htarget.1]
  refine ⟨rfl, h.homes_concat fun key hkey => ?_, htops, hparameters⟩
  obtain rfl := Option.some.inj (hhome.symm.trans hkey)
  exact htarget.2

/-- **One node more.** Where the registers name the shown ancestors of a
node, its step makes them name the way to the node. -/
theorem step (ht : Built t) (hlt : id < t.size)
    (h : Holds t policy g seen (t.shownAncestors id)) :
    Holds t policy (g.step policy (t.urlDepth id) (t.name id)) (seen ++ [id])
      ((t.path id).filter t.isShown) := by
  rw [ht.filter_path hlt]
  cases hid : t.isShown id with
  | false =>
    rw [if_neg Bool.false_ne_true, List.append_nil]
    exact h.step_hidden hid
  | true =>
    rw [if_pos rfl]
    cases hanc : t.shownAncestors id with
    | nil =>
      rw [hanc] at h
      exact h.step_top hid hanc
    | cons a ctx =>
      rw [hanc] at h
      cases ctx with
      | nil =>
        cases hparameter : isRouteParameter (t.name id) with
        | true => exact h.step_parameter ht hlt hid hanc hparameter
        | false => exact h.step_page ht hlt hid hanc hparameter
      | cons b rest => exact h.step_below ht hlt hid hanc

/-- **A whole walk.** The ancestors of each node on the stack begin those of
the node above it, and the way to the last node visited. -/
theorem foldl_visit (ht : Built t) (fuel : Nat) (stack : List Nat) (hsize : ∀ s ∈ stack, s < t.size)
    (hstack : stack.Pairwise fun a b => t.shownAncestors b <+: t.shownAncestors a)
    (h : Holds t policy g seen path) (hpath : ∀ s ∈ stack, t.shownAncestors s <+: path) :
    ∃ path', Holds t policy
      ((t.visit fuel stack).foldl (fun g id => g.step policy (t.urlDepth id) (t.name id)) g)
      (seen ++ t.visit fuel stack) path' := by
  induction fuel generalizing stack g seen path with
  | zero =>
    rw [visit, List.append_nil]
    exact ⟨path, h⟩
  | succ fuel ih =>
    cases stack with
    | nil =>
      rw [visit, List.append_nil]
      · exact ⟨path, h⟩
      · exact nofun
    | cons id stack =>
      have hlt : id < t.size := hsize id (List.mem_cons_self ..)
      obtain ⟨hbelow, hrest⟩ := List.pairwise_cons.mp hstack
      have hstep := (h.of_isPrefix (hpath id (List.mem_cons_self ..))).step ht hlt
      have hchild : ∀ c ∈ t.children id, t.shownAncestors c = (t.path id).filter t.isShown := by
        intro c hc
        rw [shownAncestors, ht.ancestors_child hc, ht.path_eq_ancestors hlt]
      have hhere : t.shownAncestors id <+: (t.path id).filter t.isShown := by
        rw [ht.filter_path hlt]
        exact List.prefix_append _ _
      rw [visit, List.foldl_cons, List.append_cons]
      -- the children go on top of the stack, and the way now ends at `id`
      refine ih _ ?_ ?_ hstep ?_
      · intro s hs
        rcases List.mem_append.mp hs with hs | hs
        · exact parent?_lt_size (ht.mem_children.mp hs)
        · exact hsize s (List.mem_cons_of_mem id hs)
      · refine List.pairwise_append.mpr ⟨?_, hrest, fun c hc s hs => ?_⟩
        · refine List.pairwise_of_forall_mem_list fun c hc d hd => ?_
          rw [hchild c hc, hchild d hd]
        · rw [hchild c hc]
          exact (hbelow s hs).trans hhere
      · intro s hs
        rcases List.mem_append.mp hs with hs | hs
        · rw [hchild s hs]
        · exact (hbelow s hs).trans hhere

end Holds

/-- **The walk finds the groups that the nodes make**, less those without
pages. -/
theorem Built.routeGroups_eq (ht : Built t) (policy : BracketPolicy) : t.routeGroups policy =
    (t.grouped policy t.preorder).filter fun g => !g.children.isEmpty := by
  have hroots : ∀ s ∈ t.roots, t.shownAncestors s = [] := by
    intro s hs
    rw [shownAncestors, ht.ancestors_root hs, List.filter_nil]
  obtain ⟨path, h⟩ := (Holds.empty t policy).foldl_visit ht t.size t.roots
    (fun s hs => (ht.mem_roots.mp hs).1)
    (List.pairwise_of_forall_mem_list fun a ha b hb => by rw [hroots a ha, hroots b hb])
    (fun s hs => by rw [hroots s hs])
  rw [routeGroups, preorder]
  exact congrArg (List.filter fun g : RouteGroup => !g.children.isEmpty) h.groups

/-- The pages of a group are those that belong to it and are not left out. -/
theorem mem_pagesOf {key child : String} {ids : List Nat} : child ∈ t.pagesOf policy key ids ↔
    ∃ id ∈ ids, t.home? id = some key ∧ isLeftOut policy (t.name id) = false ∧
      t.name id = child := by
  simp [pagesOf, and_assoc]

/-- **Route groups mean what the nodes say of themselves.** In every forest
built by adding nodes, one ancestor shows at each depth of a node's address,
and the groups are those that the nodes open, in pre-order, each with the
pages that belong to it, less those without pages. -/
theorem routeGroups_eq_grouped (ht : Built t) (policy : BracketPolicy) :
    (∀ id < t.size, ∀ k < t.urlDepth id,
      ∃! a, a ∈ t.ancestors id ∧ t.isShown a = true ∧ t.urlDepth a = k) ∧
    t.routeGroups policy =
      (t.grouped policy t.preorder).filter fun g => !g.children.isEmpty :=
  ⟨fun _ hid _ hk => ht.existsUnique_ancestor hid hk, ht.routeGroups_eq policy⟩

/-- Orders inside a group folder, with their pages and a parameter. -/
def orderRoutes : RouteTree :=
  ((((empty.add "(shop)" none).add "orders" (some 0)).add "new" (some 1)).add "[id]" (some 1)).add
    "edit" (some 3)

/-- The list page and the pages of one order are kept apart. -/
theorem routeGroups_orderRoutes : Built orderRoutes ∧
    (∀ id < orderRoutes.size, ∀ k < orderRoutes.urlDepth id,
      ∃! a, a ∈ orderRoutes.ancestors id ∧ orderRoutes.isShown a = true ∧
        orderRoutes.urlDepth a = k) ∧
    orderRoutes.routeGroups .skip =
      (orderRoutes.grouped .skip orderRoutes.preorder).filter (fun g => !g.children.isEmpty) ∧
    orderRoutes.routeGroups .skip = [⟨"orders", ["new"]⟩, ⟨"orders/[id]", ["edit"]⟩] := by
  have hbuilt : Built orderRoutes :=
    .add "edit" (some 3) (.add "[id]" (some 1) (.add "new" (some 1) (.add "orders" (some 0)
      (.add "(shop)" none .empty (by decide)) (by decide)) (by decide)) (by decide)) (by decide)
  obtain ⟨hone, hgroups⟩ := routeGroups_eq_grouped hbuilt .skip
  exact ⟨hbuilt, hone, hgroups, by decide⟩

end RouteTree

end ExportAtlas
