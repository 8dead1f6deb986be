import ExportAtlas.Ignore.Names
import ExportAtlas.Proofs.Ignore.NamePattern
/-!
# What ignore entries leave out

Each entry leaves out names of its own, whatever entries stand beside it
(`ignores_ofEntries`), so more entries leave out more names (`ignores_mono`). An
entry that is no valid pattern leaves out the name that it is, and any other one
the names of its form. A pattern without sets has its own form, so it leaves out
its own name as well; a pattern with a set need not (`ignores_entry`).
-/

namespace ExportAtlas

namespace IgnoreNames

open NamePattern (Fits)

variable {entry name : String} {entries entries' : List String} {p : NamePattern}

/-! ## Entry by entry -/

/-- **Each entry leaves out names of its own**, whatever entries stand beside
it: those of its pattern, or without a pattern the name that it is. -/
theorem ignores_ofEntries : (ofEntries entries).ignores name = true ↔
    ∃ entry ∈ entries, (pattern? entry = none ∧ entry = name) ∨
      ∃ pattern, pattern? entry = some pattern ∧ pattern.accepts name = true := by
  simp only [ignores, ofEntries, Bool.or_eq_true, List.contains_iff_mem, List.any_eq_true,
    List.mem_filter, List.mem_filterMap, Option.isNone_iff_eq_none]
  constructor
  · rintro (⟨hmem, hnone⟩ | ⟨pattern, ⟨entry, hmem, hsome⟩, haccepts⟩)
    · exact ⟨name, hmem, .inl ⟨hnone, rfl⟩⟩
    · exact ⟨entry, hmem, .inr ⟨pattern, hsome, haccepts⟩⟩
  · rintro ⟨entry, hmem, ⟨hnone, rfl⟩ | ⟨pattern, hsome, haccepts⟩⟩
    · exact .inl ⟨hmem, hnone⟩
    · exact .inr ⟨pattern, ⟨entry, hmem, hsome⟩, haccepts⟩

/-- More entries leave out more names. -/
theorem ignores_mono (hentries : ∀ entry ∈ entries, entry ∈ entries')
    (h : (ofEntries entries).ignores name = true) :
    (ofEntries entries').ignores name = true := by
  obtain ⟨entry, hmem, hentry⟩ := ignores_ofEntries.mp h
  exact ignores_ofEntries.mpr ⟨entry, hentries entry hmem, hentry⟩

/-! ## Names and patterns -/

theorem parse?_of_pattern? (h : pattern? entry = some p) : NamePattern.parse? entry = some p := by
  rw [pattern?] at h
  split at h
  · exact h
  · cases h

/-- An entry with a bracket that is a valid pattern counts as one. -/
theorem pattern?_of_bracket (hset : '[' ∈ entry.toList)
    (h : NamePattern.parse? entry = some p) : pattern? entry = some p := by
  have hlooks : looksLikePattern entry = true :=
    List.any_eq_true.mpr ⟨'[', hset, by decide⟩
  rw [pattern?, if_pos hlooks, h]

/-- **A valid pattern alone leaves out the names of its form.** -/
theorem ignores_pattern_iff (h : pattern? entry = some p) :
    (ofEntries [entry]).ignores name = true ↔ Fits p.parts name.toList := by
  rw [ignores_ofEntries, ← NamePattern.accepts_iff]
  simp [h]

/-- **An entry leaves out its own name** if there is no set in it, or if it is no
valid pattern. -/
theorem ignores_self (h : '[' ∉ entry.toList ∨ NamePattern.parse? entry = none) :
    (ofEntries [entry]).ignores entry = true := by
  cases hpattern : pattern? entry with
  | none => exact ignores_ofEntries.mpr ⟨entry, List.mem_singleton_self entry, .inl ⟨hpattern, rfl⟩⟩
  | some p =>
    have hparse := parse?_of_pattern? hpattern
    have hset : '[' ∉ entry.toList := h.resolve_right (by rw [hparse]; exact nofun)
    rw [ignores_pattern_iff hpattern]
    exact NamePattern.fits_of_spelled (NamePattern.spelled_of_parse? hparse) hset

/-- **What an entry leaves out, beside any others.** A plain name, a text that
is no valid pattern and a pattern without sets leave out the name that they
are. A valid pattern with a set leaves out the names of its form, and its own
name only if that has this form; it never has where every part of the pattern
takes one character. What is left out stays so with more entries. -/
theorem ignores_entry (hmem : entry ∈ entries) :
    ('[' ∉ entry.toList ∨ NamePattern.parse? entry = none →
      (ofEntries entries).ignores entry = true) ∧
    (∀ p, '[' ∈ entry.toList → NamePattern.parse? entry = some p →
      (∀ name : String, Fits p.parts name.toList → (ofEntries entries).ignores name = true) ∧
      ((ofEntries [entry]).ignores entry = true ↔ Fits p.parts entry.toList) ∧
      ((∀ part ∈ p.parts, part.isSingle = true) → (ofEntries [entry]).ignores entry = false)) ∧
    ∀ more : List String, (∀ e ∈ entries, e ∈ more) → ∀ name,
      (ofEntries entries).ignores name = true → (ofEntries more).ignores name = true := by
  have hbeside : ∀ name, (ofEntries [entry]).ignores name = true →
      (ofEntries entries).ignores name = true := fun name =>
    ignores_mono fun e he => List.mem_singleton.mp he ▸ hmem
  refine ⟨fun h => hbeside entry (ignores_self h), fun p hset hparse => ?_,
    fun more hmore name => ignores_mono hmore⟩
  have hpattern := pattern?_of_bracket hset hparse
  refine ⟨fun name hfits => hbeside name ((ignores_pattern_iff hpattern).mpr hfits),
    ignores_pattern_iff hpattern, fun hsingle => ?_⟩
  rw [← Bool.not_eq_true, ignores_pattern_iff hpattern]
  exact NamePattern.not_fits_of_isSingle (NamePattern.spelled_of_parse? hparse) hset hsingle

/-- Entries of a project with a folder for a parameter: a name, two patterns
without sets, a text that is no valid pattern, and two patterns with a set. -/
def routeEntries : List String := ["dist", "*.gen.?s", "**", "a**", "[id]", "*[]]"]

/-- The pattern `[id]` stands for two names and is none of them; a run makes up
for the set of `*[]]`. -/
theorem ignores_entry_routes :
    "*.gen.?s" ∈ routeEntries ∧ '[' ∉ "*.gen.?s".toList ∧
    (ofEntries routeEntries).ignores "*.gen.?s" = true ∧
    "a**" ∈ routeEntries ∧ NamePattern.parse? "a**" = none ∧
    (ofEntries routeEntries).ignores "a**" = true ∧
    "[id]" ∈ routeEntries ∧
    NamePattern.parse? "[id]" = some ⟨[.set false [.single 'i', .single 'd']]⟩ ∧
    (ofEntries ["[id]"]).ignores "[id]" = false ∧
    (ofEntries ["*[]]"]).ignores "*[]]" = true := by
  have hglob : "*.gen.?s" ∈ routeEntries ∧ '[' ∉ "*.gen.?s".toList := by decide
  have hinvalid : "a**" ∈ routeEntries ∧ NamePattern.parse? "a**" = none := by decide
  have hset : "[id]" ∈ routeEntries ∧ '[' ∈ "[id]".toList ∧
      NamePattern.parse? "[id]" = some ⟨[.set false [.single 'i', .single 'd']]⟩ := by decide
  refine ⟨hglob.1, hglob.2, (ignores_entry hglob.1).1 (.inl hglob.2), hinvalid.1, hinvalid.2,
    (ignores_entry hinvalid.1).1 (.inr hinvalid.2), hset.1, hset.2.2, ?_, by decide⟩
  exact ((ignores_entry hset.1).2.1 _ hset.2.1 hset.2.2).2.2 (by decide)

/-- **An entry need not leave out its own name**: the pattern `[id]` leaves out
`i` and `d`, and not the folder that is called so. -/
theorem not_ignores_parameter :
    "[id]" ∈ ["[id]"] ∧ "[id]" ≠ "" ∧ '/' ∉ "[id]".toList ∧
    (ofEntries ["[id]"]).ignores "[id]" = false ∧
    (ofEntries ["[id]"]).ignores "i" = true ∧ (ofEntries ["[id]"]).ignores "d" = true := by
  decide

end IgnoreNames

end ExportAtlas
