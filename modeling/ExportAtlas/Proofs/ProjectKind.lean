import ExportAtlas.ProjectKind
import ExportAtlas.Proofs.Json.Names
import ExportAtlas.Proofs.Json.RoundTrip
/-!
# Kinds of projects by their packages

A manifest is any JSON object, and the packages that it declares are the names
in its two tables, whatever else it holds (`exists_parse?`). The kind of a
project is read off at the first sign that is found (`getElem?_byPrecedence`),
so it depends on the set of packages alone, and with more packages no later sign
is the first (`kinds_of_declared`).
-/

namespace ExportAtlas

variable {content : String} {members : List (String × Json)} {m m' : Manifest}

namespace Manifest

/-- The packages that the members of a manifest declare: the names of a member
that is called like one of the tables and is an object. -/
def Declares (members : List (String × Json)) (package : String) : Prop :=
  ∃ table ∈ ["dependencies", "devDependencies"], ∃ packages,
    (table, Json.object packages) ∈ members ∧ package ∈ packages.map Prod.fst

theorem mem_packages_iff {table : Option Json} {package : String} :
    package ∈ packages table ↔
      ∃ entries, table = some (.object entries) ∧ package ∈ entries.map Prod.fst := by
  cases table with
  | none => simp [packages]
  | some v => cases v <;> simp [packages, Json.object?]

/-- **Every JSON object is a manifest**, and has the packages of its tables. -/
theorem exists_parse? (h : Json.read? content = some (.object members)) :
    ∃ m, parse? content = some m ∧ ∀ package, m.has package = true ↔ Declares members package := by
  refine ⟨_, by rw [parse?, h]; rfl, fun package => ?_⟩
  have hnames := Json.nodup_names_of_read? h
  simp only [has, Bool.or_eq_true, List.contains_iff_mem, mem_packages_iff,
    KeyedList.lookup_eq_some_iff hnames, Declares, List.mem_cons, List.not_mem_nil, or_false,
    exists_eq_or_imp, exists_eq_left]

end Manifest

namespace ProjectKind

open Manifest

/-- The kinds of projects with a manifest, the one that wins first. -/
def byPrecedence : List ProjectKind := [nextjs, nestjs, sveltekit, vue, express, react, node]

/-- The place of the first sign of a manifest; a configuration file of Next.js
counts as the first of all. -/
def place (m : Manifest) (hasNextConfig : Bool) : Nat :=
  if hasNextConfig then 0 else signs.findIdx fun sign => sign.1.any m.has

/-- What is found first stands at the first place; behind all places stands what
counts if nothing is found. -/
theorem getElem?_findIdx {α β : Type} (f : α → β) (last : β) (p : α → Bool) (l : List α) :
    (l.map f ++ [last])[l.findIdx p]? = some (((l.find? p).map f).getD last) := by
  induction l with
  | nil => rfl
  | cons x l ih =>
    rw [List.findIdx_cons, List.find?_cons]
    cases p x with
    | true => rfl
    | false => exact ih

/-- **The kind of a project** is that of the first sign, or the last kind. -/
theorem getElem?_byPrecedence (m : Manifest) (hasNextConfig : Bool) :
    byPrecedence[place m hasNextConfig]? = some (ofManifest (some m) hasNextConfig) := by
  cases hasNextConfig with
  | true => rfl
  | false =>
    refine (getElem?_findIdx Prod.snd node (fun sign => sign.1.any m.has) signs).trans ?_
    simp only [ofManifest, Bool.false_eq_true, if_false]
    cases signs.find? fun sign => sign.1.any m.has <;> rfl

theorem place_le (h : ∀ package, m.has package = true → m'.has package = true)
    (hasNextConfig : Bool) : place m' hasNextConfig ≤ place m hasNextConfig := by
  unfold place
  split
  · exact Nat.le_refl 0
  · refine List.findIdx_le_findIdx fun sign _ hsign => ?_
    obtain ⟨package, hpackage, hhas⟩ := List.any_eq_true.mp hsign
    exact List.any_eq_true.mpr ⟨package, hpackage, h package hhas⟩

/-- **The kind follows from the set of packages.** Any JSON object is a manifest
and declares the names in its two tables. Two manifests that declare the same
packages are of one kind, in whichever table these stand; and if one declares
all packages of the other, it is of the same kind or of one that wins over it. -/
theorem kinds_of_declared {content content' : String} {members members' : List (String × Json)}
    (h : Json.read? content = some (.object members))
    (h' : Json.read? content' = some (.object members')) :
    (∃ m, parse? content = some m ∧ ∀ package, m.has package = true ↔ Declares members package) ∧
    ((∀ package, Declares members package ↔ Declares members' package) → ∀ hasNextConfig,
      ofManifest (parse? content) hasNextConfig = ofManifest (parse? content') hasNextConfig) ∧
    ((∀ package, Declares members package → Declares members' package) → ∀ hasNextConfig,
      ∃ i j : Nat, i ≤ j ∧
        byPrecedence[i]? = some (ofManifest (parse? content') hasNextConfig) ∧
        byPrecedence[j]? = some (ofManifest (parse? content) hasNextConfig)) := by
  obtain ⟨m, hm, hhas⟩ := exists_parse? h
  obtain ⟨m', hm', hhas'⟩ := exists_parse? h'
  rw [hm, hm']
  refine ⟨⟨m, rfl, hhas⟩, fun hsame hasNextConfig => ?_, fun hmore hasNextConfig => ?_⟩
  · have hle : place m' hasNextConfig ≤ place m hasNextConfig := place_le (fun package hpackage =>
      (hhas' package).mpr ((hsame package).mp ((hhas package).mp hpackage))) hasNextConfig
    have hge : place m hasNextConfig ≤ place m' hasNextConfig := place_le (fun package hpackage =>
      (hhas package).mpr ((hsame package).mpr ((hhas' package).mp hpackage))) hasNextConfig
    rw [← Option.some_inj, ← getElem?_byPrecedence, ← getElem?_byPrecedence,
      Nat.le_antisymm hge hle]
  · exact ⟨place m' hasNextConfig, place m hasNextConfig,
      place_le (fun package hpackage =>
        (hhas' package).mpr (hmore package ((hhas package).mp hpackage))) hasNextConfig,
      getElem?_byPrecedence m' hasNextConfig, getElem?_byPrecedence m hasNextConfig⟩

/-- A manifest of a tool, with an odd name. -/
def toolManifest : List (String × Json) :=
  [("name", .array []), ("devDependencies", .object [("react", .string "18")])]

/-- A manifest of a server, with an odd table. -/
def serverManifest : List (String × Json) :=
  [("dependencies", .object [("hono", .array []), ("react", .string "18")]),
    ("devDependencies", .string "none")]

theorem read?_toolManifest :
    Json.read? (Json.object toolManifest).print = some (.object toolManifest) := by
  have hlegible : Json.Legible 2 (.object toolManifest) :=
    .object (by
      simp only [toolManifest, List.forall_mem_cons]
      exact ⟨.array nofun, .object (List.forall_mem_singleton.mpr (.string 0 _)) (by decide),
        nofun⟩) (by decide)
  have hnone : ∀ c ∈ "".toList, Json.isSpace c = true := nofun
  simpa using hlegible.read?_print (by decide) hnone

theorem read?_serverManifest :
    Json.read? (Json.object serverManifest).print = some (.object serverManifest) := by
  have hlegible : Json.Legible 3 (.object serverManifest) :=
    .object (by
      simp only [serverManifest, List.forall_mem_cons]
      exact ⟨.object (List.forall_mem_cons.mpr ⟨.array nofun, List.forall_mem_singleton.mpr
        (.string 1 _)⟩) (by decide), .string 2 _, nofun⟩) (by decide)
  have hnone : ∀ c ∈ "".toList, Json.isSpace c = true := nofun
  simpa using hlegible.read?_print (by decide) hnone

/-- The server declares what the tool does, in the other table, and a package
that wins over it. -/
theorem kinds_of_declared_server :
    Json.read? (Json.object toolManifest).print = some (.object toolManifest) ∧
    Json.read? (Json.object serverManifest).print = some (.object serverManifest) ∧
    (∀ package, Declares toolManifest package → Declares serverManifest package) ∧
    ofManifest (parse? (Json.object toolManifest).print) false = react ∧
    ofManifest (parse? (Json.object serverManifest).print) false = express ∧
    ∃ i j : Nat, i ≤ j ∧
      byPrecedence[i]? = some (ofManifest (parse? (Json.object serverManifest).print) false) ∧
      byPrecedence[j]? = some (ofManifest (parse? (Json.object toolManifest).print) false) := by
  have hmore : ∀ package, Declares toolManifest package → Declares serverManifest package := by
    rintro package ⟨table, -, packages, hmem, hpackage⟩
    simp only [toolManifest, List.mem_cons, List.not_mem_nil, or_false, Prod.mk.injEq] at hmem
    rcases hmem with ⟨-, hmem⟩ | ⟨-, hmem⟩
    · cases hmem
    · obtain rfl := Json.object.inj hmem
      refine ⟨"dependencies", by decide, _, List.mem_cons_self, ?_⟩
      simp only [List.map_cons, List.map_nil, List.mem_singleton] at hpackage
      simp [hpackage]
  have hkinds := (kinds_of_declared read?_toolManifest read?_serverManifest).2.2 hmore false
  exact ⟨read?_toolManifest, read?_serverManifest, hmore, by decide +kernel, by decide +kernel,
    hkinds⟩

end ProjectKind

end ExportAtlas
