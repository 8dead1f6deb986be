import Mathlib.Data.List.Infix
import ExportAtlas.Proofs.Report.Outline
import ExportAtlas.Proofs.Text.Case
/-!
# The pages of a route group

Of the children of a group the parameters are left out, and of the others the
first of each name, whatever its case, is kept (`FirstOfEach`). A page is marked
if it has a parameter of its own: `HasDetail` says so by the children alone, and
it does not matter where among them the parameter stands.

What was seen before is a list of its own, so the induction is for any such
list: a page is kept if its name is not in it (`exists_consolidateFrom_eq`).
-/

namespace ExportAtlas

namespace Report

namespace Outline

open Text

variable {children pages seen shown : List String} {child page : String}

/-- The children that are no parameters. -/
def pagesAmong (children : List String) : List String :=
  children.filter fun child => !isRouteParameter child

/-- Among the pages shown there is one for each lower-cased name, in the order
in which the names first came, and it is the first page of its name. -/
structure FirstOfEach (pages shown : List String) : Prop where
  sublist : shown.Sublist pages
  names : shown.map lower = (pages.map lower).eraseDups
  first : ∀ page ∈ shown, pages.find? (fun p => lower p == lower page) = some page

/-- The lower-cased name of the page, without its last character, is not empty
and stands in the lower case of some child that begins with a bracket. -/
def HasDetail (children : List String) (page : String) : Prop :=
  (lower page).toList.dropLast ≠ [] ∧
    ∃ child ∈ children, startsWith child '[' = true ∧
      (lower page).toList.dropLast <:+: (lower child).toList

instance (children : List String) (page : String) : Decidable (HasDetail children page) :=
  inferInstanceAs (Decidable (_ ∧ _))

/-- A page as it is drawn among the children of its group. -/
def drawnAs (children : List String) (page : String) : String :=
  if HasDetail children page then page ++ " (list, detail)" else page

theorem hasDetail_iff :
    hasDetail (parameters children) (lower page) = true ↔ HasDetail children page := by
  simp only [hasDetail, parameters, HasDetail, Bool.and_eq_true, Bool.not_eq_true',
    List.any_eq_true, List.mem_map, List.mem_filter, contains, occursIn_iff, String.toList_ofList]
  refine and_congr ?_ ⟨?_, ?_⟩
  · rw [← Bool.not_eq_true, String.isEmpty_iff, String.ofList_eq_empty_iff]
  · rintro ⟨_, ⟨child, ⟨hchild, hbracket⟩, rfl⟩, hstem⟩
    exact ⟨child, hchild, hbracket, hstem⟩
  · rintro ⟨child, hchild, hbracket, hstem⟩
    exact ⟨_, ⟨child, ⟨hchild, hbracket⟩, rfl⟩, hstem⟩

/-! ## One child after the other -/

theorem pagesAmong_cons_of_parameter (h : isRouteParameter child = true) :
    pagesAmong (child :: children) = pagesAmong children := by
  simp [pagesAmong, h]

theorem pagesAmong_cons_of_page (h : isRouteParameter child = false) :
    pagesAmong (child :: children) = child :: pagesAmong children := by
  simp [pagesAmong, h]

/-- The pages shown are the first of each name that was not seen before. -/
structure FirstOfNew (seen pages shown : List String) : Prop where
  sublist : shown.Sublist pages
  names : shown.map lower = ((pages.map lower).filter fun name => !seen.contains name).eraseDups
  first : ∀ page ∈ shown, pages.find? (fun p => lower p == lower page) = some page

namespace FirstOfNew

theorem notMem_seen (h : FirstOfNew seen pages shown) (hpage : page ∈ shown) :
    lower page ∉ seen := by
  have hname : lower page ∈ shown.map lower := List.mem_map_of_mem hpage
  rw [h.names, List.mem_eraseDups, List.mem_filter] at hname
  simpa using hname.2

/-- A page of another name is no less the first of its own. -/
theorem find?_cons (h : FirstOfNew seen pages shown) (hpage : page ∈ shown)
    (hne : lower child ≠ lower page) :
    (child :: pages).find? (fun p => lower p == lower page) = some page := by
  rw [List.find?_cons_of_neg (by simpa using hne)]
  exact h.first page hpage

/-- A page whose name was seen is passed over. -/
theorem old (h : FirstOfNew seen pages shown) (hseen : lower child ∈ seen) :
    FirstOfNew seen (child :: pages) shown where
  sublist := h.sublist.cons child
  names := by rw [h.names, List.map_cons, List.filter_cons_of_neg (by simpa using hseen)]
  first page hpage := h.find?_cons hpage fun heq => h.notMem_seen hpage (heq ▸ hseen)

/-- A page with a new name is shown, and the name is seen from then on. -/
theorem new (h : FirstOfNew (seen ++ [lower child]) pages shown) (hnew : lower child ∉ seen) :
    FirstOfNew seen (child :: pages) (child :: shown) where
  sublist := h.sublist.cons_cons child
  names := by
    rw [List.map_cons, h.names, List.map_cons, List.filter_cons_of_pos (by simpa using hnew),
      List.eraseDups_cons, List.filter_filter]
    refine congrArg (fun names => lower child :: List.eraseDups names) (List.filter_congr ?_)
    intro name _
    by_cases hname : name = lower child <;> simp [hname]
  first page hpage := by
    rcases List.mem_cons.mp hpage with rfl | hpage
    · exact List.find?_cons_of_pos (beq_self_eq_true _)
    · exact h.find?_cons hpage fun heq => h.notMem_seen hpage (by simp [heq])

end FirstOfNew

/-- **What is drawn after some names have been seen**: of each new name the
first page. -/
theorem exists_consolidateFrom_eq (details seen children : List String) :
    ∃ shown : List String, FirstOfNew seen (pagesAmong children) shown ∧
      consolidateFrom details seen children = shown.map fun page =>
        if hasDetail details (lower page) then page ++ " (list, detail)" else page := by
  induction children generalizing seen with
  | nil => exact ⟨[], ⟨List.Sublist.refl [], rfl, nofun⟩, rfl⟩
  | cons child children ih =>
    rw [consolidateFrom]
    by_cases hchild : isRouteParameter child = true
    · rw [if_pos hchild, pagesAmong_cons_of_parameter hchild]
      exact ih seen
    rw [if_neg hchild, pagesAmong_cons_of_page (by simpa using hchild)]
    by_cases hseen : lower child ∈ seen
    · obtain ⟨shown, hfirst, heq⟩ := ih seen
      exact ⟨shown, hfirst.old hseen, by rw [if_pos (by simpa using hseen), heq]⟩
    · obtain ⟨shown, hfirst, heq⟩ := ih (seen ++ [lower child])
      refine ⟨child :: shown, hfirst.new hseen, ?_⟩
      rw [if_neg (by simpa using hseen), heq, List.map_cons]

/-- **The pages drawn.** Of the children that are no parameters there is one for
each name, the case of its letters apart: the first, in the order in which the
names came, and spelled as it is. It is marked if it has a parameter of its own,
and else drawn unchanged. -/
theorem consolidate_eq_drawn (children : List String) :
    ∃ shown, FirstOfEach (pagesAmong children) shown ∧
      consolidate children = shown.map (drawnAs children) := by
  obtain ⟨shown, hfirst, heq⟩ := exists_consolidateFrom_eq (parameters children) [] children
  refine ⟨shown, ⟨hfirst.sublist, ?_, hfirst.first⟩, ?_⟩
  · simpa using hfirst.names
  · rw [consolidate, heq]
    simp only [hasDetail_iff]
    rfl

/-- The parameter counts before its page and behind it. -/
example : consolidate ["[orderId]", "orders", "reports", "Orders", "users", "[user]"] =
    ["orders (list, detail)", "reports", "users (list, detail)"] := by decide +kernel

end Outline

end Report

end ExportAtlas
