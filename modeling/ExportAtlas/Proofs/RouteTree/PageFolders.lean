import Mathlib.Data.List.Sort
import ExportAtlas.Proofs.Disk.Listing
import ExportAtlas.Proofs.RouteTree.Lines
import ExportAtlas.Proofs.Text.Utf8
import ExportAtlas.RouteTree.PageFolders
/-!
# Which folders make routes

The routes of page folders are the folders that a way of route names leads
to (`IsRoute`). They are written in one order, however the folders are
listed: a folder before those in it, and side by side the route groups
first, then by the bytes of their names (`Precedes`).

Putting folders in order undoes any order of listing
(`PageFolder.ofChildren_relisted`), keeps those that make routes
(`PageFolder.mem_ways_ofChildren`), and what is in order is walked in the
order of the ways (`PageFolder.Ordered.pairwise_ways`). Grafting grows the
forest by one line for each way (`Growing.RightEdge.graftAll`).
-/

namespace ExportAtlas

open Text Entry

/-! ## Names side by side -/

/-- Names side by side: route groups first, and then by bytes. -/
def Precedes (a b : String) : Prop :=
  if isRouteGroup a = isRouteGroup b then Utf8.ofString a < Utf8.ofString b
  else isRouteGroup a = true

namespace Precedes

variable {a b c : String}

theorem irrefl (a : String) : ¬ Precedes a a := by
  rw [Precedes, if_pos rfl]
  exact List.lt_irrefl _

theorem trans (hab : Precedes a b) (hbc : Precedes b c) : Precedes a c := by
  rw [Precedes] at *
  cases ha : isRouteGroup a <;> cases hb : isRouteGroup b <;> cases hc : isRouteGroup c <;>
    simp only [ha, hb, hc, if_true, if_false, Bool.false_eq_true, Bool.true_eq_false] at hab hbc ⊢
  · exact List.lt_trans hab hbc
  · exact List.lt_trans hab hbc

theorem asymm (hab : Precedes a b) : ¬ Precedes b a := fun hba => irrefl a (hab.trans hba)

/-- Of two names one precedes the other, and `before` says which. -/
theorem of_before (hne : a ≠ b) :
    if PageFolder.before a b then Precedes a b else Precedes b a := by
  rw [PageFolder.before, Precedes, Precedes]
  by_cases hgroup : isRouteGroup a = isRouteGroup b
  · rw [hgroup, beq_self_eq_true, if_pos rfl, if_pos rfl, if_pos rfl]
    split
    · rename_i hle
      exact Utf8.ofString_lt_ofString (lt_of_le_of_ne (of_decide_eq_true hle) hne)
    · rename_i hle
      exact Utf8.ofString_lt_ofString (lt_of_not_ge fun h => hle (decide_eq_true h))
  · rw [beq_false_of_ne hgroup, if_neg Bool.false_ne_true, if_neg hgroup, if_neg (Ne.symm hgroup)]
    cases ha : isRouteGroup a with
    | true => rfl
    | false =>
      rw [ha] at hgroup
      simpa using hgroup

end Precedes

namespace PageFolder

variable {name : String} {f g : PageFolder} {inner fs : List PageFolder} {x : FileName × Entry}
  {children children' : List (FileName × Entry)} {way : List String}

/-! ## Folders in order -/

/-- Folders in order, and so those in them. -/
inductive Ordered : List PageFolder → Prop
  | nil : Ordered []
  | cons {name : String} {inner fs : List PageFolder} (hfirst : ∀ g ∈ fs, Precedes name g.name)
      (hinner : Ordered inner) (h : Ordered fs) : Ordered (mk name inner :: fs)

theorem Ordered.pairwise (h : Ordered fs) : fs.Pairwise fun f g => Precedes f.name g.name := by
  induction h with
  | nil => exact List.Pairwise.nil
  | cons hfirst _ _ _ ih => exact List.Pairwise.cons hfirst ih

/-- **Folders in order are told by which they are.** -/
theorem Ordered.eq_of_mem_iff {fs' : List PageFolder} (h : Ordered fs) (h' : Ordered fs')
    (hmem : ∀ f, f ∈ fs ↔ f ∈ fs') : fs = fs' := by
  have : Std.Irrefl fun f g : PageFolder => Precedes f.name g.name :=
    ⟨fun f => Precedes.irrefl f.name⟩
  have : Std.Antisymm fun f g : PageFolder => Precedes f.name g.name :=
    ⟨fun f g hfg hgf => absurd hgf hfg.asymm⟩
  exact h.pairwise.eq_of_mem_iff h'.pairwise hmem

theorem mem_insert : g ∈ insert f fs ↔ g = f ∨ g ∈ fs := by
  induction fs with
  | nil => rw [insert, List.mem_singleton]; simp
  | cons h fs ih =>
    rw [insert]
    split
    · rw [List.mem_cons]
    · rw [List.mem_cons, ih, List.mem_cons]
      tauto

theorem Ordered.insert (h : Ordered fs) (hinner : Ordered inner)
    (hnew : ∀ g ∈ fs, name ≠ g.name) : Ordered (insert (mk name inner) fs) := by
  induction h with
  | nil => exact .cons (fun g hg => nomatch hg) hinner .nil
  | @cons first below fs hfirst hbelow h _ ih =>
    have hne : name ≠ first := hnew _ (List.mem_cons_self ..)
    have hbefore := Precedes.of_before hne
    rw [PageFolder.insert]
    split
    · rename_i hle
      rw [if_pos (show before name first = true from hle)] at hbefore
      refine .cons (fun g hg => ?_) hinner (.cons hfirst hbelow h)
      rcases List.mem_cons.mp hg with rfl | hg
      · exact hbefore
      · exact hbefore.trans (hfirst g hg)
    · rename_i hle
      rw [if_neg (show ¬ before name first = true from hle)] at hbefore
      refine .cons (fun g hg => ?_) hbelow (ih fun g hg => hnew g (List.mem_cons_of_mem _ hg))
      rcases mem_insert.mp hg with rfl | hg
      · exact hbefore
      · exact hfirst g hg

/-! ## The folders that make routes -/

/-- The folder that an entry makes, if it makes a route. -/
def folderOf? : FileName × Entry → Option PageFolder
  | (name, .folder children) => (segment? name).map fun s => mk s (ofChildren children)
  | _ => none

theorem ofChildren_cons (x : FileName × Entry) (children : List (FileName × Entry)) :
    ofChildren (x :: children) =
      (folderOf? x).elim (ofChildren children) (insert · (ofChildren children)) := by
  obtain ⟨name, e⟩ := x
  cases e with
  | folder inner =>
    rw [ofChildren, folderOf?]
    cases segment? name <;> rfl
  | _ => rw [ofChildren]; rfl

/-- **A name makes a route** if it is the bytes of a route's name. -/
theorem segment?_eq_some_iff {name : FileName} {s : String} :
    segment? name = some s ↔ name = Utf8.ofString s ∧ isSegment s = true := by
  rw [segment?, Option.filter_eq_some_iff, Utf8.toString?_eq_some_iff]

theorem segment?_ofString (s : String) :
    segment? (Utf8.ofString s) = if isSegment s then some s else none := by
  rw [segment?, Utf8.toString?_eq_some_iff.mpr rfl, Option.filter_some]

theorem folderOf?_eq_some_iff : folderOf? x = some f ↔ ∃ s inner,
    x = (Utf8.ofString s, .folder inner) ∧ isSegment s = true ∧ f = mk s (ofChildren inner) := by
  obtain ⟨name, e⟩ := x
  cases e with
  | folder inner =>
    rw [folderOf?, Option.map_eq_some_iff]
    constructor
    · rintro ⟨s, hs, rfl⟩
      obtain ⟨rfl, hsegment⟩ := segment?_eq_some_iff.mp hs
      exact ⟨s, inner, rfl, hsegment, rfl⟩
    · rintro ⟨s, inner', hx, hsegment, rfl⟩
      obtain ⟨rfl, he⟩ := Prod.mk.inj hx
      obtain rfl := Entry.folder.inj he
      exact ⟨s, segment?_eq_some_iff.mpr ⟨rfl, hsegment⟩, rfl⟩
  | _ => exact ⟨nofun, fun ⟨_, _, hx, _⟩ => nomatch (Prod.mk.inj hx).2⟩

theorem mem_ofChildren : f ∈ ofChildren children ↔ ∃ x ∈ children, folderOf? x = some f := by
  induction children with
  | nil =>
    rw [ofChildren]
    simp
  | cons x children ih =>
    rw [ofChildren_cons, List.exists_mem_cons_iff, ← ih]
    cases hx : folderOf? x with
    | none => simp
    | some f' => rw [Option.elim_some, mem_insert, Option.some.injEq, eq_comm]

/-- **Entries with distinct names make folders in order.** -/
theorem ordered_ofChildren (h : DistinctNames children) : Ordered (ofChildren children) := by
  induction h with
  | nil => rw [ofChildren]; exact .nil
  | @cons name e children hname hinner _ ihinner ih =>
    rw [ofChildren_cons]
    cases hentry : folderOf? (name, e) with
    | none => exact ih
    | some f =>
      obtain ⟨s, inner, hx, -, rfl⟩ := folderOf?_eq_some_iff.mp hentry
      obtain ⟨rfl, rfl⟩ := Prod.mk.inj hx
      refine ih.insert (ihinner inner rfl) fun g hg hsame => hname ?_
      -- a folder of that name would come from an entry of that name
      obtain ⟨y, hy, hyg⟩ := mem_ofChildren.mp hg
      obtain ⟨s', inner', rfl, -, rfl⟩ := folderOf?_eq_some_iff.mp hyg
      rw [show s = s' from hsame]
      exact List.mem_map_of_mem hy

/-- **The order of listing is undone.** -/
theorem ofChildren_relisted (hdistinct : DistinctNames children)
    (h : Relisted children children') : ofChildren children' = ofChildren children := by
  induction h with
  | nil => rfl
  | entry first _ ih =>
    cases hdistinct with
    | cons _ _ hrest => rw [ofChildren_cons, ofChildren_cons, ih hrest]
  | @folder _ _ inner inner' name _ _ ihinner ih =>
    cases hdistinct with
    | cons _ hinner hrest =>
      rw [ofChildren_cons, ofChildren_cons, folderOf?, folderOf?, ihinner (hinner inner rfl),
        ih hrest]
  | swap x y children =>
    refine (ordered_ofChildren (hdistinct.relisted (.swap x y children))).eq_of_mem_iff
      (ordered_ofChildren hdistinct) fun f => ?_
    simp only [mem_ofChildren, List.mem_cons, exists_eq_or_imp]
    exact or_left_comm
  | trans h _ ih ih' => rw [ih' (hdistinct.relisted h), ih hdistinct]

/-! ## Ways -/

/-- The ways to folders and to those in them, in pre-order. -/
def ways : List PageFolder → List (List String)
  | [] => []
  | mk name inner :: rest => [name] :: (ways inner).map (name :: ·) ++ ways rest

theorem mem_ways : way ∈ ways fs ↔
    ∃ name inner rest, mk name inner ∈ fs ∧ way = name :: rest ∧
      (rest = [] ∨ rest ∈ ways inner) := by
  induction fs with
  | nil =>
    rw [ways]
    exact ⟨nofun, fun ⟨_, _, _, hmem, _⟩ => nomatch hmem⟩
  | cons f fs ih =>
    obtain ⟨name, inner⟩ := f
    rw [ways, List.mem_append, List.mem_cons, List.mem_map, ih]
    constructor
    · rintro ((rfl | ⟨rest, hrest, rfl⟩) | ⟨n, i, rest, hmem, hway⟩)
      · exact ⟨name, inner, [], List.mem_cons_self .., rfl, .inl rfl⟩
      · exact ⟨name, inner, rest, List.mem_cons_self .., rfl, .inr hrest⟩
      · exact ⟨n, i, rest, List.mem_cons_of_mem _ hmem, hway⟩
    · rintro ⟨n, i, rest, hmem, rfl, hrest⟩
      rcases List.mem_cons.mp hmem with heq | hmem
      · obtain ⟨rfl, rfl⟩ := PageFolder.mk.inj heq
        rcases hrest with rfl | hrest
        · exact .inl (.inl rfl)
        · exact .inl (.inr ⟨rest, hrest, rfl⟩)
      · exact .inr ⟨n, i, rest, hmem, rfl, hrest⟩

theorem ne_nil_of_mem_ways (h : way ∈ ways fs) : way ≠ [] := by
  obtain ⟨name, _, rest, -, rfl, -⟩ := mem_ways.mp h
  exact List.cons_ne_nil name rest

/-- **What is in order is walked in the order of the ways**, each way after
those that it goes on from. -/
theorem Ordered.pairwise_ways (h : Ordered fs) : (ways fs).Pairwise (List.Lex Precedes) := by
  induction h with
  | nil => rw [ways]; exact List.Pairwise.nil
  | @cons name inner fs hfirst _ _ ihinner ih =>
    have hbelow : ((ways inner).map (name :: ·)).Pairwise (List.Lex Precedes) :=
      List.pairwise_map.mpr (ihinner.imp fun hlex => .cons hlex)
    have hfront : ([name] :: (ways inner).map (name :: ·)).Pairwise (List.Lex Precedes) := by
      refine hbelow.cons fun w hw => ?_
      obtain ⟨rest, hrest, rfl⟩ := List.mem_map.mp hw
      obtain ⟨s, more, rfl⟩ := List.exists_cons_of_ne_nil (ne_nil_of_mem_ways hrest)
      exact .cons .nil
    rw [ways]
    refine List.pairwise_append.mpr ⟨hfront, ih, fun w hw w' hw' => ?_⟩
    obtain ⟨s, i, rest', hmem, rfl, -⟩ := mem_ways.mp hw'
    have hprecedes : Precedes name s := hfirst (mk s i) hmem
    rcases List.mem_cons.mp hw with rfl | hw
    · exact .rel hprecedes
    · obtain ⟨rest, -, rfl⟩ := List.mem_map.mp hw
      exact .rel hprecedes

end PageFolder

/-- A way down from the page folders that leads, without links, to a folder,
over names that make routes. -/
structure IsRoute (children : List (FileName × Entry)) (way : List String) : Prop where
  ne_nil : way ≠ []
  segments : ∀ s ∈ way, PageFolder.isSegment s = true
  folder : ∃ inner, (Entry.folder children).descend? (way.map Utf8.ofString) = some (.folder inner)

namespace PageFolder

variable {children : List (FileName × Entry)} {way : List String} {s : String}

/-- A route leads to a folder, or on through it. -/
theorem isRoute_cons : IsRoute children (s :: way) ↔ isSegment s = true ∧
    ∃ inner, children.lookup (Utf8.ofString s) = some (.folder inner) ∧
      (way = [] ∨ IsRoute inner way) := by
  constructor
  · rintro ⟨-, hsegments, below, hbelow⟩
    rw [List.forall_mem_cons] at hsegments
    refine ⟨hsegments.1, ?_⟩
    rw [List.map_cons, Entry.descend?, Option.bind_eq_some_iff] at hbelow
    obtain ⟨e, he, hbelow⟩ := hbelow
    cases way with
    | nil =>
      rw [List.map_nil, Entry.descend?] at hbelow
      exact ⟨below, he.trans hbelow, .inl rfl⟩
    | cons s' way =>
      cases e with
      | folder inner =>
        exact ⟨inner, he, .inr ⟨List.cons_ne_nil s' way, hsegments.2, below, hbelow⟩⟩
      | _ => cases hbelow
  · rintro ⟨hsegment, inner, hlookup, hway⟩
    have hdescend : ∀ names, (Entry.folder children).descend? (Utf8.ofString s :: names) =
        (Entry.folder inner).descend? names := by
      intro names
      rw [Entry.descend?, hlookup]
      rfl
    rcases hway with rfl | hway
    · refine ⟨List.cons_ne_nil s [], fun s' hs' => ?_, inner, ?_⟩
      · rwa [List.mem_singleton.mp hs']
      · rw [List.map_cons, hdescend, List.map_nil, Entry.descend?]
    · refine ⟨List.cons_ne_nil s way, List.forall_mem_cons.mpr ⟨hsegment, hway.segments⟩, ?_⟩
      rw [List.map_cons, hdescend]
      exact hway.folder

/-- **The ways in order are the routes.** -/
theorem mem_ways_ofChildren (h : DistinctNames children) :
    way ∈ ways (ofChildren children) ↔ IsRoute children way := by
  induction way generalizing children with
  | nil =>
    exact iff_of_false (fun hmem => ne_nil_of_mem_ways hmem rfl) fun hroute => hroute.ne_nil rfl
  | cons s way ih =>
    rw [isRoute_cons, mem_ways]
    constructor
    · rintro ⟨name, below, rest, hmem, hway, hrest⟩
      obtain ⟨rfl, rfl⟩ := List.cons.inj hway
      obtain ⟨x, hx, hentry⟩ := mem_ofChildren.mp hmem
      obtain ⟨_, inner, rfl, hsegment, heq⟩ := folderOf?_eq_some_iff.mp hentry
      obtain ⟨rfl, rfl⟩ := PageFolder.mk.inj heq
      exact ⟨hsegment, inner, h.lookup_eq_some_iff.mpr hx, hrest.imp_right (ih (h.of_mem hx)).mp⟩
    · rintro ⟨hsegment, inner, hlookup, hway⟩
      have hx := h.lookup_eq_some_iff.mp hlookup
      refine ⟨s, ofChildren inner, way, mem_ofChildren.mpr ⟨_, hx, ?_⟩, rfl,
        hway.imp_right (ih (h.of_mem hx)).mpr⟩
      exact folderOf?_eq_some_iff.mpr ⟨s, inner, rfl, hsegment, rfl⟩

end PageFolder

/-! ## Grafting -/

namespace RouteTree

open PageFolder (ways)

/-- The line of a folder at the end of a way, below a depth. -/
def wayLine (depth : Nat) (way : List String) : String :=
  indented (depth + way.dropLast.length) (way.getLast?.getD "")

theorem wayLine_cons (depth : Nat) (name : String) {way : List String} (h : way ≠ []) :
    wayLine depth (name :: way) = wayLine (depth + 1) way := by
  obtain ⟨s, rest, rfl⟩ := List.exists_cons_of_ne_nil h
  rw [wayLine, wayLine, List.dropLast_cons_cons, List.length_cons, List.getLast?_cons_cons]
  congr 1
  omega

/-- **Grafting grows the forest** by the lines of the ways, below any depth
that the way to the last node has, and leaves the way to that depth open. -/
theorem Growing.RightEdge.graftAll {g : Growing} (h : g.RightEdge) (depth : Nat)
    (hdepth : depth ≤ g.trail.length) (fs : List PageFolder) :
    ∃ g' : Growing, g'.RightEdge ∧
      g'.tree = g.tree.graftAll (g.trail.take depth).getLast? fs ∧
      g'.trail.take depth = g.trail.take depth ∧ depth ≤ g'.trail.length ∧
      g'.tree.toLines = g.tree.toLines ++ (ways fs).map (wayLine depth) := by
  match fs with
  | [] =>
    refine ⟨g, h, rfl, rfl, hdepth, ?_⟩
    rw [ways, List.map_nil, List.append_nil]
  | .mk name inner :: rest =>
    have hlength : (g.trail.take depth).length = depth := by rw [List.length_take]; omega
    have hopen : (g.grow depth name).trail.take (depth + 1) = g.trail.take depth ++ [g.tree.size] :=
      List.take_of_length_le (by rw [Growing.grow, List.length_append, hlength]; rfl)
    -- the folders in this one hang below the new node, the others where it hangs
    obtain ⟨g₁, hedge₁, htree₁, htake₁, hdepth₁, hlines₁⟩ :=
      Growing.RightEdge.graftAll (h.grow depth name) (depth + 1)
        (by rw [Growing.grow, List.length_append, hlength]; rfl) inner
    obtain ⟨g₂, hedge₂, htree₂, htake₂, hdepth₂, hlines₂⟩ :=
      Growing.RightEdge.graftAll hedge₁ depth (by omega) rest
    have hback : g₁.trail.take depth = g.trail.take depth := by
      have := congrArg (List.take depth) (htake₁.trans hopen)
      rwa [List.take_take, Nat.min_eq_left (Nat.le_succ depth), List.take_left' hlength] at this
    refine ⟨g₂, hedge₂, ?_, htake₂.trans hback, hdepth₂, ?_⟩
    · rw [htree₂, hback, htree₁, hopen, List.getLast?_concat, RouteTree.graftAll, RouteTree.graft]
      rfl
    · have hbelow : (ways inner).map (wayLine depth ∘ (name :: ·)) =
          (ways inner).map (wayLine (depth + 1)) :=
        List.map_congr_left fun way hway =>
          wayLine_cons depth name (PageFolder.ne_nil_of_mem_ways hway)
      rw [hlines₂, hlines₁, h.toLines_grow, Nat.min_eq_left hdepth, ways, List.map_append,
        List.map_cons, List.map_map, hbelow, List.append_assoc, List.append_assoc]
      rfl

/-- The lines of a folder's routes. -/
theorem toLines_ofFolder (children : List (FileName × Entry)) :
    (ofFolder children).toLines = (ways (PageFolder.ofChildren children)).map (wayLine 0) := by
  obtain ⟨g, -, htree, -, -, hlines⟩ :=
    Growing.RightEdge.start.graftAll 0 (Nat.zero_le _) (PageFolder.ofChildren children)
  rw [ofFolder, ← List.nil_append (List.map _ _)]
  exact (congrArg toLines htree).symm.trans hlines

/-- **The routes are the folders, in one order.** However the page folders
are listed, they make the same forest; and it writes one line for each
folder that is reached, without links, over names that make routes, behind
two spaces for each folder above it. A folder stands before those in it, and
folders side by side stand with the route groups first, and then by the bytes
of their names. -/
theorem toLines_ofFolder_routes (children : List (FileName × Entry))
    (h : DistinctNames children) :
    (∀ children', Relisted children children' → ofFolder children' = ofFolder children) ∧
    ∃ routes : List (List String),
      (∀ way, way ∈ routes ↔ IsRoute children way) ∧ routes.Nodup ∧
      routes.Pairwise (List.Lex Precedes) ∧
      (ofFolder children).toLines =
        routes.map fun way => indented way.dropLast.length (way.getLast?.getD "") := by
  have hordered := (PageFolder.ordered_ofChildren h).pairwise_ways
  refine ⟨fun children' hlisted => ?_, ways (PageFolder.ofChildren children),
    fun way => PageFolder.mem_ways_ofChildren h, ?_, hordered, ?_⟩
  · rw [ofFolder, ofFolder, PageFolder.ofChildren_relisted h hlisted]
  · refine hordered.imp fun {way way'} hlex heq => ?_
    rw [heq] at hlex
    exact List.lex_irrefl Precedes.irrefl way' hlex
  · rw [toLines_ofFolder]
    refine List.map_congr_left fun way _ => ?_
    rw [wayLine, Nat.zero_add]

/-- The page folders of a shop: a route group with a route in it, a private
folder, the server's own interface, and a link to a folder. -/
def shopPages : List (FileName × Entry) :=
  [(Utf8.ofString "zeta", .folder []),
    (Utf8.ofString "_parts", .folder [(Utf8.ofString "menu", .folder [])]),
    (Utf8.ofString "api", .folder [(Utf8.ofString "cart", .folder [])]),
    (Utf8.ofString "shortcut", .link (Path.ofString "zeta")),
    (Utf8.ofString "(shop)",
      .folder [(Utf8.ofString "page.tsx", .file (.ok [])), (Utf8.ofString "cart", .folder [])])]

/-- Three of the folders make routes, in whatever order they are listed. -/
theorem toLines_ofFolder_shopPages : DistinctNames shopPages ∧
    Relisted shopPages shopPages.reverse ∧ ofFolder shopPages.reverse = ofFolder shopPages ∧
    ∃ routes : List (List String),
      (∀ way, way ∈ routes ↔ IsRoute shopPages way) ∧ routes.length = 3 ∧
      (ofFolder shopPages).toLines = ["(shop)", "  cart", "zeta"] := by
  have hleaf (name : FileName) : DistinctNames [(name, .folder [])] :=
    .cons List.not_mem_nil (fun _ h => Entry.folder.inj h ▸ .nil) .nil
  have hshop : DistinctNames
      [(Utf8.ofString "page.tsx", .file (.ok [])), (Utf8.ofString "cart", .folder [])] :=
    .cons (by decide) nofun (hleaf _)
  have hdistinct : DistinctNames shopPages :=
    .cons (by decide) (fun _ h => Entry.folder.inj h ▸ .nil) <|
    .cons (by decide) (fun _ h => Entry.folder.inj h ▸ hleaf _) <|
    .cons (by decide) (fun _ h => Entry.folder.inj h ▸ hleaf _) <|
    .cons (by decide) nofun <|
    .cons (by decide) (fun _ h => Entry.folder.inj h ▸ hshop) .nil
  have hlisted : Relisted shopPages shopPages.reverse := .of_perm shopPages.reverse_perm.symm
  obtain ⟨hsame, routes, hroutes, -, -, hlines⟩ := toLines_ofFolder_routes shopPages hdistinct
  have hfolders : PageFolder.ofChildren shopPages =
      [.mk "(shop)" [.mk "cart" []], .mk "zeta" []] := by
    simp only [shopPages, PageFolder.ofChildren, PageFolder.segment?_ofString]
    rfl
  have hvalue : (ofFolder shopPages).toLines = ["(shop)", "  cart", "zeta"] := by
    rw [toLines_ofFolder, hfolders]
    simp only [ways]
    rfl
  refine ⟨hdistinct, hlisted, hsame _ hlisted, routes, hroutes, ?_, hvalue⟩
  rw [← routes.length_map, ← hlines, hvalue]
  rfl

end RouteTree

end ExportAtlas
