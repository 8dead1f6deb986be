import Mathlib.Data.List.Forall2
import ExportAtlas.Proofs.Json.RoundTrip
import ExportAtlas.Proofs.Sections
import ExportAtlas.Proofs.Text.Utf8
import ExportAtlas.Report
/-!
# What the structured reports keep

A project is written as JSON from the inside out: a file as an object
(`FileRecord.ofJson?_of_toJson?`), a section as a member with a list of files,
and the project as an object of three members. What is written is read back as
it was (`Report.Contents.ofJson?_of_toJson?`), since the names of sections are
different. Both structured reports fail for a path that is not UTF-8, and for
nothing else (`Report.toJson?_eq_none_iff`, `Report.Toon.lines?_eq_none_iff`).
-/

namespace ExportAtlas

open Text

/-! ## Lists mapped as far as each entry allows -/

section Mapped

variable {α β : Type} {f : α → Option β} {g : β → Option α} {l : List α} {r : List β}

theorem mapM_eq_some_iff_forall₂ : l.mapM f = some r ↔ List.Forall₂ (f · = some ·) l r := by
  induction l generalizing r with
  | nil => cases r <;> simp
  | cons a l ih =>
    cases r with
    | nil =>
      rw [List.mapM_cons]
      cases f a <;> cases l.mapM f <;> simp
    | cons b r =>
      rw [List.mapM_cons, List.forall₂_cons, ← ih]
      cases f a <;> cases l.mapM f <;> simp

theorem mapM_eq_none_iff : l.mapM f = none ↔ ∃ a ∈ l, f a = none := by
  induction l with
  | nil => simp
  | cons a l ih =>
    rw [List.mapM_cons, List.exists_mem_cons_iff, ← ih]
    cases f a with
    | none => simp
    | some b => cases l.mapM f <;> simp

/-- What each entry can be told from again, the list can be told from again. -/
theorem mapM_of_mapM (hback : ∀ a b, f a = some b → g b = some a) (h : l.mapM f = some r) :
    r.mapM g = some l := by
  rw [mapM_eq_some_iff_forall₂] at h ⊢
  exact (h.imp hback).flip

theorem exists_mem_of_mapM {b : β} (h : l.mapM f = some r) (hb : b ∈ r) :
    ∃ a ∈ l, f a = some b := by
  rw [mapM_eq_some_iff_forall₂] at h
  induction h with
  | nil => cases hb
  | cons ha _ ih =>
    rcases List.mem_cons.mp hb with rfl | hb
    · exact ⟨_, List.mem_cons_self, ha⟩
    · obtain ⟨a, hmem, ha⟩ := ih hb
      exact ⟨a, List.mem_cons_of_mem _ hmem, ha⟩

/-- What each entry keeps, the list keeps. -/
theorem map_of_mapM {γ : Type} {p : α → γ} {q : β → γ} (hkeep : ∀ a b, f a = some b → q b = p a)
    (h : l.mapM f = some r) : r.map q = l.map p := by
  rw [mapM_eq_some_iff_forall₂] at h
  induction h with
  | nil => rfl
  | cons ha _ ih => rw [List.map_cons, List.map_cons, hkeep _ _ ha, ih]

end Mapped

/-! ## Paths -/

theorem Path.toString?_eq_some_iff {p : Path} {s : String} :
    p.toString? = some s ↔ p = Path.ofString s := by
  rw [Path.toString?, Utf8.toString?_eq_some_iff, Path.ofString, Path.mk.injEq]

theorem Path.toString?_eq_none_iff {p : Path} :
    p.toString? = none ↔ ∀ s, p ≠ Path.ofString s := by
  rw [Option.eq_none_iff_forall_ne_some]
  exact forall_congr' fun s => not_congr toString?_eq_some_iff

/-! ## Lists of texts -/

namespace Json

theorem strings?_strings (l : List String) : strings? (strings l) = some l := by
  rw [strings, strings?, mapM_eq_some_iff_forall₂, List.forall₂_map_left_iff, List.forall₂_same]
  exact fun _ _ => rfl

theorem legible_strings (depth : Nat) (l : List String) : Legible (depth + 1) (strings l) := by
  refine .array fun item hitem => ?_
  obtain ⟨s, -, rfl⟩ := List.mem_map.mp hitem
  exact .string depth s

end Json

/-! ## Files -/

section Files

variable {e : Exports} {file : FileRecord} {j : Json}

/-- A file that exports no default has no member for it. -/
theorem Exports.lookup_toMembers_defaultExport (e : Exports) :
    e.toMembers.lookup "defaultExport" = e.defaultExport.map Json.string := by
  obtain ⟨functions, constants, types, interfaces, classes, defaultExport⟩ := e
  cases defaultExport <;> simp [toMembers, List.lookup_cons]

theorem Exports.ofMembers?_toMembers (e : Exports) (path name : String) :
    Exports.ofMembers? ([("path", .string path), ("name", .string name)] ++ e.toMembers) =
      some e := by
  obtain ⟨functions, constants, types, interfaces, classes, defaultExport⟩ := e
  cases defaultExport <;>
    simp [ofMembers?, toMembers, List.lookup_cons, Json.strings?_strings]

/-- **A file that is written is read back.** -/
theorem FileRecord.ofJson?_of_toJson? (h : file.toJson? = some j) :
    FileRecord.ofJson? j = some file := by
  obtain ⟨path, hpath, rfl⟩ := Option.map_eq_some_iff.mp h
  obtain ⟨filePath, name, exports⟩ := file
  obtain rfl := Path.toString?_eq_some_iff.mp hpath
  simp only [ofJson?, Json.object?, Option.bind_eq_bind, Option.bind_some,
    Exports.ofMembers?_toMembers]
  simp [List.lookup_cons, Json.string?]

theorem FileRecord.legible_of_toJson? (h : file.toJson? = some j) : j.Legible 2 := by
  obtain ⟨path, -, rfl⟩ := Option.map_eq_some_iff.mp h
  obtain ⟨filePath, name, functions, constants, types, interfaces, classes, defaultExport⟩ := file
  refine .object ?_ ?_
  · cases defaultExport <;>
      simp [Exports.toMembers, Json.legible_strings, Json.Legible.string]
  · cases defaultExport <;> simp [Exports.toMembers]

end Files

/-! ## Sections -/

/-- The items of an array. -/
def Json.items? : Json → Option (List Json)
  | .array items => some items
  | _ => none

namespace Section

variable {s : Section} {m : String × Json}

/-- The member that writes a section: its name, and a list of its files. -/
def toMember? (s : Section) : Option (String × Json) :=
  (s.files.mapM FileRecord.toJson?).map fun files => (s.name, .array files)

/-- The section that a member writes. -/
def ofMember? (m : String × Json) : Option Section :=
  m.2.items?.bind fun items => (items.mapM FileRecord.ofJson?).map (⟨m.1, ·⟩)

theorem ofMember?_of_toMember? (h : s.toMember? = some m) : ofMember? m = some s := by
  obtain ⟨files, hfiles, rfl⟩ := Option.map_eq_some_iff.mp h
  rw [ofMember?, Json.items?, Option.bind_some,
    mapM_of_mapM (fun _ _ => FileRecord.ofJson?_of_toJson?) hfiles]
  rfl

theorem name_of_toMember? (h : s.toMember? = some m) : m.1 = s.name := by
  obtain ⟨files, -, rfl⟩ := Option.map_eq_some_iff.mp h
  rfl

theorem legible_of_toMember? (h : s.toMember? = some m) : m.2.Legible 3 := by
  obtain ⟨files, hfiles, rfl⟩ := Option.map_eq_some_iff.mp h
  refine .array fun item hitem => ?_
  obtain ⟨file, -, hfile⟩ := exists_mem_of_mapM hfiles hitem
  exact FileRecord.legible_of_toJson? hfile

theorem toMember?_eq_none_iff :
    s.toMember? = none ↔ ∃ file ∈ s.files, file.path.toString? = none := by
  rw [toMember?, Option.map_eq_none_iff, mapM_eq_none_iff]
  exact exists_congr fun file => and_congr_right fun _ => Option.map_eq_none_iff

end Section

namespace Sections

variable {sections : Sections} {j : Json}

theorem toJson?_eq (sections : Sections) :
    sections.toJson? = (sections.entries.mapM Section.toMember?).map .object := rfl

theorem legible_of_toJson? (hnames : sections.names.Nodup) (h : sections.toJson? = some j) :
    j.Legible 4 := by
  obtain ⟨members, hmembers, rfl⟩ := Option.map_eq_some_iff.mp h
  refine .object (fun m hm => ?_) ?_
  · obtain ⟨s, -, hs⟩ := exists_mem_of_mapM hmembers hm
    exact Section.legible_of_toMember? hs
  · rwa [map_of_mapM (fun _ _ => Section.name_of_toMember?) hmembers]

theorem exists_mem_files_iff {p : FileRecord → Prop} :
    (∃ file ∈ sections.files, p file) ↔ ∃ s ∈ sections.entries, ∃ file ∈ s.files, p file := by
  simp only [files, List.mem_flatMap]
  constructor
  · rintro ⟨file, ⟨s, hs, hfile⟩, hp⟩
    exact ⟨s, hs, file, hfile, hp⟩
  · rintro ⟨s, hs, file, hfile, hp⟩
    exact ⟨file, ⟨s, hs, hfile⟩, hp⟩

/-- **Sections cannot be written** if a path is not UTF-8, and for nothing
else. -/
theorem toJson?_eq_none_iff :
    sections.toJson? = none ↔ ∃ file ∈ sections.files, file.path.toString? = none := by
  rw [toJson?_eq, Option.map_eq_none_iff, mapM_eq_none_iff, exists_mem_files_iff]
  exact exists_congr fun s => and_congr_right fun _ => Section.toMember?_eq_none_iff

end Sections

/-! ## Projects -/

namespace Report

/-- What a structured report tells of a project. -/
structure Contents where
  kind : ProjectKind
  routes : List String
  sections : List Section
  deriving DecidableEq

/-- The contents that a JSON value writes. -/
def Contents.ofJson? (j : Json) : Option Contents := do
  let members ← j.object?
  let kind ← (members.lookup "projectType").bind ProjectKind.ofJson?
  let routes ← (members.lookup "routes").bind Json.strings?
  let sections ← (members.lookup "sections").bind Json.object?
  some ⟨kind, routes, ← sections.mapM Section.ofMember?⟩

/-- The records of the files in the sections that a JSON value writes. -/
def recordsOf (j : Json) : List Json :=
  let sections := (j.object?.bind (·.lookup "sections")).bind Json.object?
  (sections.getD []).flatMap fun m => m.2.items?.getD []

/-- The contents of a project. -/
def Contents.of (a : Atlas) : Contents := ⟨a.kind, a.routeLines, a.sections.entries⟩

variable {a : Atlas} {j : Json}

theorem ofJson?_id (kind : ProjectKind) : ProjectKind.ofJson? (.string kind.id) = some kind := by
  cases kind <;> decide

/-- **A project that is written is read back.** -/
theorem Contents.ofJson?_of_toJson? (h : toJson? a = some j) :
    Contents.ofJson? j = some (Contents.of a) := by
  obtain ⟨sections, hsections, rfl⟩ := Option.map_eq_some_iff.mp h
  obtain ⟨members, hmembers, rfl⟩ := Option.map_eq_some_iff.mp hsections
  have hback : members.mapM Section.ofMember? = some a.sections.entries :=
    mapM_of_mapM (fun _ _ => Section.ofMember?_of_toMember?) hmembers
  simp [ofJson?, Json.object?, List.lookup_cons, ofJson?_id, Json.strings?_strings, hback,
    Contents.of]

theorem legible_of_toJson? (hnames : a.sections.names.Nodup) (h : toJson? a = some j) :
    j.Legible 5 := by
  obtain ⟨sections, hsections, rfl⟩ := Option.map_eq_some_iff.mp h
  have hlegible := Sections.legible_of_toJson? hnames hsections
  refine .object ?_ (by simp)
  simp [Json.Legible.string, Json.legible_strings, hlegible]

/-- A record has a member for the default export if the file has one. -/
def TellsDefault (file : FileRecord) (record : Json) : Prop :=
  record.object?.bind (·.lookup "defaultExport") = file.exports.defaultExport.map Json.string

theorem tellsDefault_of_toJson? {file : FileRecord} (h : file.toJson? = some j) :
    TellsDefault file j := by
  obtain ⟨path, -, rfl⟩ := Option.map_eq_some_iff.mp h
  rw [TellsDefault, Json.object?, Option.bind_some, ← file.exports.lookup_toMembers_defaultExport]
  simp [List.lookup_cons]

theorem forall₂_recordsOf (h : toJson? a = some j) :
    List.Forall₂ TellsDefault a.sections.files (recordsOf j) := by
  obtain ⟨sections, hsections, rfl⟩ := Option.map_eq_some_iff.mp h
  obtain ⟨members, hmembers, rfl⟩ := Option.map_eq_some_iff.mp hsections
  have hrecords : recordsOf (.object [("projectType", .string a.kind.id),
      ("routes", .strings a.routeLines), ("sections", .object members)]) =
        members.flatMap fun m => m.2.items?.getD [] := by
    simp [recordsOf, Json.object?, List.lookup_cons]
  rw [hrecords, Sections.files]
  refine List.rel_flatMap (mapM_eq_some_iff_forall₂.mp hmembers) ?_
  intro s m hm
  obtain ⟨files, hfiles, rfl⟩ := Option.map_eq_some_iff.mp hm
  exact (mapM_eq_some_iff_forall₂.mp hfiles).imp fun _ _ => tellsDefault_of_toJson?

/-- **The JSON report cannot be written** if a path is not UTF-8, and for nothing
else. -/
theorem toJson?_eq_none_iff :
    toJson? a = none ↔ ∃ file ∈ a.sections.files, file.path.toString? = none := by
  rw [toJson?, Option.map_eq_none_iff, Sections.toJson?_eq_none_iff]

/-- Neither can the TOON report. -/
theorem Toon.lines?_eq_none_iff :
    Toon.lines? a = none ↔ ∃ file ∈ a.sections.files, file.path.toString? = none := by
  rw [Toon.lines?, Option.map_eq_none_iff, mapM_eq_none_iff, Sections.exists_mem_files_iff]
  refine exists_congr fun s => and_congr_right fun _ => ?_
  rw [Toon.sectionLines?, Option.map_eq_none_iff, mapM_eq_none_iff]
  exact exists_congr fun file => and_congr_right fun _ => Option.map_eq_none_iff

/-! ## The reports -/

theorem forall_path_iff : (∀ file ∈ a.sections.files, ∃ s, file.path = Path.ofString s) ↔
    ¬ ∃ file ∈ a.sections.files, file.path.toString? = none := by
  simp only [Path.toString?_eq_none_iff, not_exists, not_and, not_forall, not_not]

/-- What is written is read back, if sections have different names. -/
theorem read?_json (hnames : a.sections.names.Nodup) (h : toJson? a = some j) :
    ∃ text, json a = .ok text ∧ Json.read? text = some j := by
  refine ⟨j.print ++ "\n", by rw [json, h], ?_⟩
  exact (legible_of_toJson? hnames h).read?_print (by decide) (by simpa using Json.isSpace_newline)

/-- **The JSON report is lossless.** What it says of a project with UTF-8 paths
is read back as the kind, the routes, the names of the sections and their files,
all in order; a default export has a member exactly if there is one. Where a
path is not UTF-8, both structured reports fail alike, and nowhere else. -/
theorem json_lossless (a : Atlas) :
    (∀ pushes, a.sections = Sections.ofPushes pushes →
      (∀ file ∈ a.sections.files, ∃ s, file.path = Path.ofString s) →
      ∃ text value, json a = .ok text ∧ Json.read? text = some value ∧
        Contents.ofJson? value = some ⟨a.kind, a.routeLines, a.sections.entries⟩ ∧
        List.Forall₂ TellsDefault a.sections.files (recordsOf value)) ∧
    ((∃ file ∈ a.sections.files, ∀ s, file.path ≠ Path.ofString s) →
      json a = .error .pathNotText ∧ toon a = .error .pathNotText) ∧
    ((∀ file ∈ a.sections.files, ∃ s, file.path = Path.ofString s) →
      ∃ text text', json a = .ok text ∧ toon a = .ok text') := by
  simp only [forall_path_iff, ← Path.toString?_eq_none_iff]
  refine ⟨fun pushes hpushes hpaths => ?_, fun hpath => ⟨?_, ?_⟩, fun hpaths => ?_⟩
  · have hnames : a.sections.names.Nodup := by
      rw [hpushes]
      exact (Sections.indexed_ofPushes pushes).nodup_names
    obtain ⟨value, hvalue⟩ := Option.ne_none_iff_exists'.mp (mt toJson?_eq_none_iff.mp hpaths)
    obtain ⟨text, htext, hread⟩ := read?_json hnames hvalue
    exact ⟨text, value, htext, hread, Contents.ofJson?_of_toJson? hvalue, forall₂_recordsOf hvalue⟩
  · rw [json, toJson?_eq_none_iff.mpr hpath]
  · rw [toon, Toon.lines?_eq_none_iff.mpr hpath]
  · obtain ⟨value, hvalue⟩ := Option.ne_none_iff_exists'.mp (mt toJson?_eq_none_iff.mp hpaths)
    obtain ⟨lines, hlines⟩ := Option.ne_none_iff_exists'.mp (mt Toon.lines?_eq_none_iff.mp hpaths)
    refine ⟨_, _, by rw [json, hvalue], by rw [toon, hlines]⟩

/-- Files pushed in turns under two names. -/
def shopPushes : List (String × FileRecord) :=
  [("Lib", .of (.ofString "/shop/lib/a.ts") { Exports.empty with defaultExport := some "a" }),
    ("API/\"v1\"", .of (.ofString "/shop/api/\\b.ts") { Exports.empty with types := ["B", "É"] }),
    ("Lib", .of (.ofString "/shop/lib/c.ts") Exports.empty)]

/-- A project with these files and two routes. -/
def shopAtlas : Atlas :=
  ⟨.nextjs, .ofPushes shopPushes, some (.ofLines ["(shop)", "  cart"])⟩

/-- Files, names that need escapes and routes are read back. -/
theorem json_lossless_shop :
    (∀ file ∈ shopAtlas.sections.files, ∃ s, file.path = Path.ofString s) ∧
    ∃ text value, json shopAtlas = .ok text ∧ Json.read? text = some value ∧
      Contents.ofJson? value = some ⟨.nextjs, ["(shop)", "  cart"], [
        ⟨"Lib", [.of (.ofString "/shop/lib/a.ts") { Exports.empty with defaultExport := some "a" },
          .of (.ofString "/shop/lib/c.ts") Exports.empty]⟩,
        ⟨"API/\"v1\"", [.of (.ofString "/shop/api/\\b.ts")
          { Exports.empty with types := ["B", "É"] }]⟩]⟩ := by
  have hpaths : ∀ file ∈ shopAtlas.sections.files, ∃ s, file.path = Path.ofString s := by
    intro file hfile
    rw [shopAtlas, (Sections.files_ofPushes shopPushes).mem_iff] at hfile
    obtain rfl | rfl | rfl : file = _ ∨ file = _ ∨ file = _ := by simpa [shopPushes] using hfile
    all_goals exact ⟨_, rfl⟩
  obtain ⟨text, value, htext, hread, hcontents, -⟩ :=
    (json_lossless shopAtlas).1 shopPushes rfl hpaths
  have hroutes : shopAtlas.routeLines = ["(shop)", "  cart"] := by decide +kernel
  rw [hroutes] at hcontents
  exact ⟨hpaths, text, value, htext, hread, hcontents⟩

end Report

end ExportAtlas
