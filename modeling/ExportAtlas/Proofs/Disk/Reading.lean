import ExportAtlas.Disk.Lookup
import ExportAtlas.Proofs.Disk.Ways
/-!
# Reading below a folder

A path of plain names goes down from the folder that it is seen from. Where no
link is met on the way (`Entry.meetsLink`), it leads through what that folder
holds and nothing else, so a folder that lies at two places, be it on one disk
or on two, is read alike at both (`Disk.read_eq_of_folder`).
-/

namespace ExportAtlas

namespace Entry

/-- A link is met on a way down, or at its end. -/
def meetsLink : Entry → Location → Bool
  | .link _, _ => true
  | .folder children, name :: names =>
    match children.lookup name with
    | some e => e.meetsLink names
    | none => false
  | _, _ => false

variable {children : List (FileName × Entry)} {name : FileName} {names : Location} {e : Entry}

theorem meetsLink_of_lookup (he : children.lookup name = some e) :
    (Entry.folder children).meetsLink (name :: names) = e.meetsLink names := by
  rw [meetsLink, he]

/-- No link is met on the first part of a way without links. -/
theorem not_meetsLink_of_append {names' : Location} (h : e.meetsLink (names ++ names') = false) :
    e.meetsLink names = false := by
  induction names generalizing e with
  | nil =>
    cases e with
    | link target =>
      rw [meetsLink] at h
      cases h
    | _ => rfl
  | cons name names ih =>
    cases e with
    | folder children =>
      rw [List.cons_append, meetsLink] at h
      rw [meetsLink]
      split
      · rename_i f hlookup
        rw [hlookup] at h
        exact ih h
      · rfl
    | link target =>
      rw [List.cons_append, meetsLink] at h
      cases h
    | _ => rfl

end Entry

namespace Disk

open Entry

variable {d d' : Disk} {place place' : Location} {e : Entry} {p : Path} {names : Location}

/-! ## One name -/

/-- What a name leads to from a place is told by the entry there. -/
theorem find_congr (h : d.entry? place = some e) (h' : d'.entry? place' = some e)
    (name : FileName) : d.find place name = d'.find place' name := by
  rw [find, find, h, h']

/-- A name that leads to an entry leads to one of a folder. -/
theorem lookup_of_find_entry {name : FileName} {f : Entry} (h : d.entry? place = some e)
    (hfind : d.find place name = .entry f) :
    ∃ children, e = .folder children ∧ children.lookup name = some f := by
  rw [find, h] at hfind
  split at hfind
  · rename_i children heq
    split at hfind
    · cases hfind
    · split at hfind
      · cases hfind
      · cases hfind
      · rename_i f' _ hlookup
        obtain rfl := Found.entry.inj hfind
        exact ⟨children, Option.some.inj heq, hlookup⟩
  · cases hfind

/-- And one that leads to a link leads to one of a folder. -/
theorem lookup_of_find_link {name : FileName} {target : Path} (h : d.entry? place = some e)
    (hfind : d.find place name = .link target) :
    ∃ children, e = .folder children ∧ children.lookup name = some (.link target) := by
  rw [find, h] at hfind
  split at hfind
  · rename_i children heq
    split at hfind
    · cases hfind
    · split at hfind
      · cases hfind
      · rename_i target' hlookup
        obtain rfl := Found.link.inj hfind
        exact ⟨children, Option.some.inj heq, hlookup⟩
      · cases hfind
  · cases hfind

/-! ## Names in a row -/

/-- **Without links names lead down** from both places, or end both times for
the same reason. -/
theorem advance_of_not_meetsLink (h : d.entry? place = some e) (h' : d'.entry? place' = some e)
    (hlink : e.meetsLink names = false) :
    (d.advance place (names.map .down) = .at (place ++ names) ∧
      d'.advance place' (names.map .down) = .at (place' ++ names)) ∨
    ∃ problem, d.advance place (names.map .down) = .blocked problem ∧
      d'.advance place' (names.map .down) = .blocked problem := by
  induction names generalizing e place place' with
  | nil =>
    rw [List.map_nil, List.append_nil, List.append_nil, advance, advance]
    exact .inl ⟨rfl, rfl⟩
  | cons name names ih =>
    rw [List.map_cons, advance, advance, ← find_congr h h' name]
    cases hfind : d.find place name with
    | nothing => exact .inr ⟨_, rfl, rfl⟩
    | blocked problem => exact .inr ⟨_, rfl, rfl⟩
    | link target =>
      obtain ⟨children, rfl, hlookup⟩ := lookup_of_find_link h hfind
      -- a link is met after all
      rw [meetsLink_of_lookup hlookup, meetsLink] at hlink
      cases hlink
    | entry f =>
      obtain ⟨children, rfl, hlookup⟩ := lookup_of_find_entry h hfind
      rw [meetsLink_of_lookup hlookup] at hlink
      have hf : (Entry.folder children).descend? [name] = some f := by
        rw [descend?_of_lookup hlookup, descend?_nil]
      rw [List.append_cons place name names, List.append_cons place' name names]
      exact ih ((entry?_append h [name]).trans hf) ((entry?_append h' [name]).trans hf) hlink

/-- The same, for a path that is written as names. -/
theorem locate_of_not_meetsLink (h : d.entry? place = some e) (h' : d'.entry? place' = some e)
    (hsteps : p.steps = names.map .down) (hlink : e.meetsLink names = false) :
    (d.locate place p = .ok (place ++ names) ∧ d'.locate place' p = .ok (place' ++ names)) ∨
    ∃ problem, d.locate place p = .error problem ∧ d'.locate place' p = .error problem := by
  rw [locate, locate]
  cases pathProblem? p with
  | some problem => exact .inr ⟨problem, rfl, rfl⟩
  | none =>
    dsimp only
    rw [follow, follow, hsteps]
    rcases advance_of_not_meetsLink h h' hlink with ⟨hd, hd'⟩ | ⟨problem, hd, hd'⟩
    · rw [hd, hd']
      exact .inl ⟨rfl, rfl⟩
    · rw [hd, hd']
      exact .inr ⟨problem, rfl, rfl⟩

/-! ## What is read -/

/-- **A folder is read alike wherever it lies**, as long as no link is met. -/
theorem read_eq_of_folder (h : d.entry? place = some e) (h' : d'.entry? place' = some e)
    (hsteps : p.steps = names.map .down) (hlink : e.meetsLink names = false) :
    d.read place p = d'.read place' p := by
  rw [read, read]
  rcases locate_of_not_meetsLink h h' hsteps hlink with ⟨hd, hd'⟩ | ⟨problem, hd, hd'⟩
  · rw [hd, hd']
    dsimp only
    rw [entry?_append h, entry?_append h']
  · rw [hd, hd']

/-- And a path names a file only if there is one at the end of its names. -/
theorem isFile_eq_false (h : d.entry? place = some e) (hsteps : p.steps = names.map .down)
    (hlink : e.meetsLink names = false) (hfile : ∀ bytes, e.descend? names ≠ some (.file bytes)) :
    d.isFile place p = false := by
  rw [isFile, lookup?]
  rcases locate_of_not_meetsLink h h hsteps hlink with ⟨hd, -⟩ | ⟨problem, hd, -⟩
  · rw [hd]
    dsimp only
    rw [entry?_append h]
    split
    · rename_i bytes hbytes
      exact absurd hbytes (hfile bytes)
    · rfl
  · rw [hd]

end Disk

end ExportAtlas
