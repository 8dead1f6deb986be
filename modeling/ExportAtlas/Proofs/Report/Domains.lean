import ExportAtlas.Proofs.Text.Case
import ExportAtlas.Report.Digest
import ExportAtlas.Report.Outline
/-!
# The sections shown as domains

The digest and the outline show a section as a domain if the word `features`
stands anywhere in its name. A name is a category and perhaps a sub-folder
behind it, and the word stands in one of the two (`mentions_eq`). So the
sections of the category `features` are all shown (`isFeature`), and with them
those that have the word in a longer category or in the name of a sub-folder
(`isStray`); without such sections there are the former alone
(`domains_of_reports`).
-/

namespace ExportAtlas

namespace Report

variable {name : String}

/-! ## The word in the name of a section -/

/-- What stands before the first slash of the name of a section. -/
def category (name : String) : String := (Text.cutOnce '/' name).1

/-- What stands behind the first slash of the name of a section. -/
def subfolder? (name : String) : Option String := (Text.cutOnce '/' name).2

/-- The word `features` stands in a text, in any case. -/
def mentions (part : String) : Bool := Text.contains (Text.lower part) "features"

/-- A section of the category `features`, in any case. -/
def isFeature (name : String) : Bool := Text.lower (category name) == "features"

/-- A section of another category that has the word `features` somewhere in its
name. -/
def isStray (name : String) : Bool :=
  !isFeature name && (mentions (category name) || (subfolder? name).any mentions)

/-- **The word stands in the category or in the sub-folder.** -/
theorem mentions_eq (name : String) :
    mentions name = (mentions (category name) || (subfolder? name).any mentions) :=
  Text.contains_lower_eq ⟨by decide, by decide⟩ (by decide) name

theorem mentions_of_isFeature (h : isFeature name = true) : mentions (category name) = true := by
  rw [mentions, beq_iff_eq.mp h]
  decide

/-- **A section has the word in its name** if it is of the category `features`, or
a stray. -/
theorem mentions_eq_isFeature_or_isStray (name : String) :
    mentions name = (isFeature name || isStray name) := by
  rw [mentions_eq, isStray]
  cases hfeature : isFeature name with
  | true => rw [mentions_of_isFeature hfeature, Bool.true_or, Bool.true_or]
  | false => rw [Bool.false_or, Bool.not_false, Bool.true_and]

/-! ## The sections that are shown -/

/-- The sections of the category `features`. -/
def features (a : Atlas) : List Section := a.sections.entries.filter fun s => isFeature s.name

/-- The sections of that category, and the strays among them. -/
def featuresAndStrays (a : Atlas) : List Section :=
  a.sections.entries.filter fun s => isFeature s.name || isStray s.name

theorem matching_features (a : Atlas) : a.sections.matching "features" = featuresAndStrays a := by
  have hlower : Text.lower "features" = "features" := by decide
  rw [Sections.matching, hlower]
  exact List.filter_congr fun s _ => mentions_eq_isFeature_or_isStray s.name

/-- The strays are shown as well, so none are is to say that there are none. -/
theorem featuresAndStrays_eq_features_iff (a : Atlas) :
    featuresAndStrays a = features a ↔ ∀ s ∈ a.sections.entries, isStray s.name = false := by
  constructor
  · intro h s hs
    rw [Bool.eq_false_iff]
    intro hstray
    have hshown : s ∈ featuresAndStrays a :=
      List.mem_filter.mpr ⟨hs, by rw [hstray, Bool.or_true]⟩
    rw [h] at hshown
    rw [isStray, (List.mem_filter.mp hshown).2] at hstray
    cases hstray
  · intro h
    refine List.filter_congr fun s hs => ?_
    rw [h s hs, Bool.or_false]

/-- **The domains of the two reports** are the sections of the category
`features`, in the order of the sections, with the strays in their places among
them: the digest has a line for each under `Core Domains`, and the outline one
under `Domains`. No section of the category is left out, and there are only such
sections exactly where there are no strays. -/
theorem domains_of_reports (a : Atlas) :
    Digest.domainBlock a =
      (if featuresAndStrays a = [] then []
        else Digest.counted "Core Domains" (featuresAndStrays a).length ::
          (featuresAndStrays a).map Digest.domainLine ++ [""]) ∧
    Outline.domainBlock a =
      Outline.block "Domains" (fun isLast s => [Outline.domainLine isLast s])
        (featuresAndStrays a) ∧
    (features a).Sublist (featuresAndStrays a) ∧
    (featuresAndStrays a = features a ↔
      ∀ s ∈ a.sections.entries, isStray s.name = false) := by
  refine ⟨?_, ?_, ?_, featuresAndStrays_eq_features_iff a⟩
  · rw [Digest.domainBlock, Digest.domains, matching_features, Digest.block]
    simp only [List.isEmpty_iff]
  · rw [Outline.domainBlock, Outline.domains, matching_features]
  · refine List.monotone_filter_right _ fun s hs => ?_
    rw [hs, Bool.true_or]

/-- A component of a project whose folder is called `featuresList`. -/
def listingAtlas : Atlas :=
  .classify (.ofString "/repo") [.of (.ofString "/repo/components/featuresList/a.ts") Exports.empty]
    .nextjs .empty

/-- **A section of another category is shown as a domain**, its sub-folder having
the word in its name. -/
theorem stray_shown :
    listingAtlas.sections.names = ["Components/featuresList"] ∧
    isFeature "Components/featuresList" = false ∧
    features listingAtlas = [] ∧
    Digest.domainBlock listingAtlas =
      ["## Core Domains (1)", "components/featureslist — manage (0 actions)", ""] ∧
    Outline.domainBlock listingAtlas =
      Outline.header "Domains" ++ ["└── 📂 features/components/featureslist", ""] := by
  decide +kernel

end Report

end ExportAtlas
