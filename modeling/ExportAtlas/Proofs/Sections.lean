import ExportAtlas.Proofs.Distinct
import ExportAtlas.Sections
/-!
# What sections keep of what is pushed

Sections are made by pushes, each of a file under a name (`ofPushes`). The
groups and the table of where they stand are kept in step by every push
(`Indexed.push`), so that a name leads to its group and to no other. With
that a push says what it does to each thing that is read off the sections:
the names (`Indexed.names_push`), the files under a name
(`Indexed.get?_push`), all files (`Indexed.files_push`) and the first file of
each group (`Indexed.firsts_push`). A run of pushes then puts the files that
share a name together, in the order of the pushes (`entries_ofPushes`).
-/

namespace ExportAtlas

namespace Sections

variable {s : Sections} {name n : String} {file : FileRecord} {i j : Nat}
  {files : List FileRecord} {pushes : List (String × FileRecord)}

/-! ## Groups and table in step -/

/-- **The table tells where each group stands**: it sends a name to a place
exactly if the group there has that name. -/
def Indexed (s : Sections) : Prop := ∀ name i, s.index? name = some i ↔ s.names[i]? = some name

theorem indexed_empty : empty.Indexed := by
  intro name i
  simp [index?, names, empty]

/-- A name that the table does not have is the name of no group. -/
theorem Indexed.index?_eq_none_iff (h : s.Indexed) : s.index? name = none ↔ name ∉ s.names := by
  constructor
  · intro hnone hmem
    obtain ⟨i, hi⟩ := List.getElem?_of_mem hmem
    rw [(h name i).mpr hi] at hnone
    cases hnone
  · intro hmem
    rw [Option.eq_none_iff_forall_ne_some]
    intro i hi
    exact hmem (List.mem_of_getElem? ((h name i).mp hi))

/-- The group that the table sends a name to. -/
theorem Indexed.exists_entry (h : s.Indexed) (hi : s.index? name = some i) :
    ∃ group, s.entries[i]? = some group ∧ group.name = name := by
  have hname := (h name i).mp hi
  rw [names, List.getElem?_map] at hname
  exact Option.map_eq_some_iff.mp hname

/-- The table leads to no place without a group. -/
theorem Indexed.lt_length (h : s.Indexed) (hi : s.index? name = some i) :
    i < s.entries.length := by
  obtain ⟨group, hgroup, -⟩ := h.exists_entry hi
  exact (List.getElem?_eq_some_iff.mp hgroup).1

/-- Two groups do not share a name, since the table sends it to one place. -/
theorem Indexed.nodup_names (h : s.Indexed) : s.names.Nodup := by
  rw [List.nodup_iff_getElem?_ne_getElem?]
  intro i j hij hj heq
  have hname : s.names[j]? = some s.names[j] := List.getElem?_eq_getElem hj
  have hsame := (h _ i).mpr (heq.trans hname)
  have hother := (h _ j).mpr hname
  have : i = j := Option.some.inj (hsame.symm.trans hother)
  omega

/-- The files under a name are those of the group of that name. -/
theorem Indexed.get?_eq_some_iff (h : s.Indexed) :
    s.get? name = some files ↔ ⟨name, files⟩ ∈ s.entries := by
  constructor
  · intro hget
    obtain ⟨i, hi, hfiles⟩ := Option.bind_eq_some_iff.mp hget
    obtain ⟨group, hgroup, rfl⟩ := h.exists_entry hi
    rw [hgroup, Option.map_some, Option.some.injEq] at hfiles
    rw [← hfiles]
    exact List.mem_of_getElem? hgroup
  · intro hmem
    obtain ⟨i, hi⟩ := List.getElem?_of_mem hmem
    have hname : s.names[i]? = some name := by rw [names, List.getElem?_map, hi]; rfl
    rw [get?, (h name i).mpr hname, Option.bind_some, hi]
    rfl

/-- There are files under a name if the name is one of a group. -/
theorem Indexed.contains_eq (h : s.Indexed) : s.contains name = (s.get? name).isSome := by
  rw [contains, get?]
  cases hi : s.index? name with
  | none => rfl
  | some i =>
    obtain ⟨group, hgroup, -⟩ := h.exists_entry hi
    rw [Option.bind_some, hgroup]
    rfl

/-! ## One push -/

theorem entries_push_of_some (hi : s.index? name = some i) : (s.push name file).entries =
    s.entries.modify i fun group => group.add file := by
  rw [push, hi]

theorem entries_push_of_none (hi : s.index? name = none) : (s.push name file).entries =
    s.entries ++ [⟨name, [file]⟩] := by
  rw [push, hi]

theorem index?_push_of_some (hi : s.index? name = some i) :
    (s.push name file).index? n = s.index? n := by
  rw [push, hi]
  rfl

theorem index?_push_of_none (hi : s.index? name = none) : (s.push name file).index? n =
    if n = name then some s.entries.length else s.index? n := by
  rw [push, hi]
  exact KeyedList.lookup_put

/-- A file pushed under a name that is there makes no new name. -/
theorem names_push_of_some (hi : s.index? name = some i) :
    (s.push name file).names = s.names := by
  rw [names, names, entries_push_of_some hi]
  refine List.ext_getElem? fun j => ?_
  rw [List.getElem?_map, List.getElem?_map, List.getElem?_modify]
  cases s.entries[j]? with
  | none => rfl
  | some group => by_cases hij : i = j <;> simp [hij, Section.add]

theorem names_push_of_none (hi : s.index? name = none) :
    (s.push name file).names = s.names ++ [name] := by
  rw [names, names, entries_push_of_none hi, List.map_append]
  rfl

theorem getElem?_concat_eq_some_iff {α : Type} {l : List α} {a b : α} :
    (l ++ [a])[j]? = some b ↔ l[j]? = some b ∨ j = l.length ∧ a = b := by
  rw [List.getElem?_append]
  split
  · rename_i hj
    exact (or_iff_left fun h => by omega).symm
  · rename_i hj
    rw [List.getElem?_eq_none (Nat.le_of_not_lt hj), List.getElem?_singleton]
    split
    · rename_i hlast
      rw [Option.some.injEq]
      exact ⟨fun h => .inr ⟨by omega, h⟩, fun h => (h.resolve_left nofun).2⟩
    · rename_i hlast
      exact iff_of_false nofun fun h => hlast (by have := (h.resolve_left nofun).1; omega)

/-- **A push keeps the table in step.** -/
theorem Indexed.push (h : s.Indexed) : (s.push name file).Indexed := by
  intro n j
  cases hi : s.index? name with
  | some i =>
    rw [names_push_of_some hi, index?_push_of_some hi]
    exact h n j
  | none =>
    have hnew : name ∉ s.names := h.index?_eq_none_iff.mp hi
    have hlength : s.names.length = s.entries.length := List.length_map ..
    rw [names_push_of_none hi, index?_push_of_none hi, getElem?_concat_eq_some_iff, hlength]
    split
    · rename_i hn
      have hold : s.names[j]? ≠ some n := fun hj => hnew (hn ▸ List.mem_of_getElem? hj)
      rw [or_iff_right hold, Option.some.injEq, eq_comm]
      exact (and_iff_left hn.symm).symm
    · rename_i hn
      rw [or_iff_left fun hlast => hn hlast.2.symm]
      exact h n j

/-- **A push adds its name** to the names unless it is one of them. -/
theorem Indexed.names_push (h : s.Indexed) : (s.push name file).names =
    if s.names.contains name then s.names else s.names ++ [name] := by
  cases hi : s.index? name with
  | some i =>
    have hmem : name ∈ s.names := List.mem_of_getElem? ((h name i).mp hi)
    rw [names_push_of_some hi, if_pos (List.contains_iff_mem.mpr hmem)]
  | none =>
    have hmem : name ∉ s.names := h.index?_eq_none_iff.mp hi
    rw [names_push_of_none hi, if_neg fun hc => hmem (List.contains_iff_mem.mp hc)]

/-- **A push adds its file** to those under its name, and leaves those under
every other name as they are. -/
theorem Indexed.get?_push (h : s.Indexed) : (s.push name file).get? n =
    if n = name then some ((s.get? name).getD [] ++ [file]) else s.get? n := by
  cases hi : s.index? name with
  | some i =>
    obtain ⟨group, hgroup, -⟩ := h.exists_entry hi
    rw [get?, get?, get?, index?_push_of_some hi, entries_push_of_some hi]
    split
    · rename_i hn
      simp [hn, hi, hgroup, Section.add]
    · rename_i hn
      cases hj : s.index? n with
      | none => rfl
      | some j =>
        -- the name stands elsewhere
        have hij : i ≠ j := by
          rintro rfl
          have hname := (h n i).mp hj
          rw [(h name i).mp hi] at hname
          exact hn (Option.some.inj hname).symm
        rw [Option.bind_some, Option.bind_some, List.getElem?_modify_ne _ _ hij]
  | none =>
    rw [get?, get?, get?, index?_push_of_none hi, entries_push_of_none hi]
    split
    · rw [Option.bind_some, List.getElem?_concat_length, hi]
      rfl
    · cases hj : s.index? n with
      | none => rfl
      | some j =>
        rw [Option.bind_some, Option.bind_some, List.getElem?_append_left (h.lt_length hj)]

/-- A push under a name that is there changes one group, where it stands. -/
theorem Indexed.exists_push (h : s.Indexed) (hi : s.index? name = some i) :
    ∃ before group after, s.entries = before ++ group :: after ∧
      (s.push name file).entries = before ++ group.add file :: after := by
  obtain ⟨before, group, after, hentries, -, hmodify⟩ :=
    List.exists_of_modify (fun group : Section => group.add file) (h.lt_length hi)
  rw [entries_push_of_some hi, hmodify]
  exact ⟨before, group, after, hentries, rfl⟩

/-- **A push adds its file to all files.** -/
theorem Indexed.files_push (h : s.Indexed) : (s.push name file).files.Perm (file :: s.files) := by
  cases hi : s.index? name with
  | some i =>
    obtain ⟨before, group, after, hentries, hpush⟩ := h.exists_push hi
    rw [files, files, hpush, hentries]
    simp only [List.flatMap_append, List.flatMap_cons, Section.add, List.append_assoc,
      List.singleton_append]
    rw [← List.append_assoc, ← List.append_assoc]
    exact List.perm_middle
  | none =>
    rw [files, files, entries_push_of_none hi, List.flatMap_append]
    exact List.perm_append_singleton file _

/-- The first file of each group. -/
def firsts (s : Sections) : List FileRecord := s.entries.filterMap fun group => group.files.head?

/-- **A push under a new name adds a first file**, and no other push changes
the first files of groups that have files. -/
theorem Indexed.firsts_push (h : s.Indexed) (hne : ∀ group ∈ s.entries, group.files ≠ []) :
    (s.push name file).firsts =
      if s.names.contains name then s.firsts else s.firsts ++ [file] := by
  cases hi : s.index? name with
  | some i =>
    have hmem : name ∈ s.names := List.mem_of_getElem? ((h name i).mp hi)
    obtain ⟨before, group, after, hentries, hpush⟩ := h.exists_push hi
    have hfiles : group.files ≠ [] := hne group (by rw [hentries]; simp)
    have hhead : (group.add file).files.head? = group.files.head? := by
      rw [Section.add, List.head?_append_of_ne_nil _ hfiles]
    rw [firsts, firsts, hpush, hentries, if_pos (List.contains_iff_mem.mpr hmem),
      List.filterMap_append, List.filterMap_append, List.filterMap_cons, List.filterMap_cons, hhead]
  | none =>
    have hmem : name ∉ s.names := h.index?_eq_none_iff.mp hi
    rw [firsts, firsts, entries_push_of_none hi,
      if_neg fun hc => hmem (List.contains_iff_mem.mp hc), List.filterMap_append]
    rfl

/-! ## A run of pushes -/

/-- Sections made by pushes, one after the other. -/
def ofPushes (pushes : List (String × FileRecord)) : Sections :=
  pushes.foldl (fun s p => s.push p.1 p.2) empty

/-- The files that are pushed under a name. -/
def under (pushes : List (String × FileRecord)) (name : String) : List FileRecord :=
  (pushes.filter fun p => p.1 == name).map Prod.snd

theorem ofPushes_concat (pushes : List (String × FileRecord)) (p : String × FileRecord) :
    ofPushes (pushes ++ [p]) = (ofPushes pushes).push p.1 p.2 := by
  rw [ofPushes, List.foldl_append]
  rfl

theorem under_concat (pushes : List (String × FileRecord)) (p : String × FileRecord) :
    under (pushes ++ [p]) n = if n = p.1 then under pushes n ++ [p.2] else under pushes n := by
  rw [under, List.filter_append, List.map_append]
  by_cases hn : n = p.1
  · simp [under, hn]
  · simp [under, hn, Ne.symm hn]

theorem under_eq_nil_iff : under pushes name = [] ↔ name ∉ pushes.map Prod.fst := by
  rw [under, List.map_eq_nil_iff, List.filter_eq_nil_iff, List.mem_map]
  constructor
  · rintro h ⟨p, hp, rfl⟩
    exact h p hp (beq_self_eq_true p.1)
  · intro h p hp hname
    exact h ⟨p, hp, eq_of_beq hname⟩

theorem indexed_ofPushes (pushes : List (String × FileRecord)) : (ofPushes pushes).Indexed := by
  induction pushes using List.reverseRecOn with
  | nil => exact indexed_empty
  | append_singleton pushes p ih =>
    rw [ofPushes_concat]
    exact ih.push

/-- **The names stand in the order of their first pushes.** -/
theorem names_ofPushes (pushes : List (String × FileRecord)) :
    (ofPushes pushes).names = (pushes.map Prod.fst).eraseDups := by
  induction pushes using List.reverseRecOn with
  | nil => rfl
  | append_singleton pushes p ih =>
    rw [ofPushes_concat, (indexed_ofPushes pushes).names_push, ih, contains_eraseDups,
      List.map_append, List.map_singleton, eraseDups_concat]

/-- **Under a name are the files pushed under it**, in their order. -/
theorem get?_ofPushes (pushes : List (String × FileRecord)) (name : String) :
    (ofPushes pushes).get? name =
      if name ∈ pushes.map Prod.fst then some (under pushes name) else none := by
  induction pushes using List.reverseRecOn with
  | nil => rfl
  | append_singleton pushes p ih =>
    rw [ofPushes_concat, (indexed_ofPushes pushes).get?_push, under_concat, List.map_append,
      List.map_singleton]
    simp only [List.mem_append, List.mem_singleton]
    split
    · rename_i hname
      have hold : ((ofPushes pushes).get? p.1).getD [] = under pushes p.1 := by
        rw [← hname, ih]
        split
        · rfl
        · rename_i hnone
          exact (under_eq_nil_iff.mpr hnone).symm
      rw [if_pos (.inr hname), hold, hname]
    · rename_i hname
      simp only [or_iff_left hname, ih]

/-- **All pushed files are there**, each as often as it is pushed. -/
theorem files_ofPushes (pushes : List (String × FileRecord)) :
    (ofPushes pushes).files.Perm (pushes.map Prod.snd) := by
  induction pushes using List.reverseRecOn with
  | nil => exact List.Perm.nil
  | append_singleton pushes p ih =>
    rw [ofPushes_concat, List.map_append, List.map_singleton]
    exact ((indexed_ofPushes pushes).files_push.trans (ih.cons p.2)).trans
      (List.perm_append_singleton p.2 _).symm

/-- **The groups collect the files that share a name**, each in the place of its
first file. -/
theorem entries_ofPushes (pushes : List (String × FileRecord)) : (ofPushes pushes).entries =
    (pushes.map Prod.fst).eraseDups.map fun name => ⟨name, under pushes name⟩ := by
  have hgroup : ∀ group ∈ (ofPushes pushes).entries,
      ⟨group.name, under pushes group.name⟩ = group := by
    intro group hmem
    have hget := (indexed_ofPushes pushes).get?_eq_some_iff.mpr hmem
    rw [get?_ofPushes] at hget
    split at hget
    · rw [Option.some.inj hget]
    · cases hget
  rw [← names_ofPushes, names, List.map_map]
  exact ((List.map_congr_left hgroup).trans (List.map_id _)).symm

/-- No group is without files. -/
theorem files_ne_nil_of_mem_entries : ∀ group ∈ (ofPushes pushes).entries, group.files ≠ [] := by
  intro group hmem
  rw [entries_ofPushes] at hmem
  obtain ⟨name, hname, rfl⟩ := List.mem_map.mp hmem
  exact fun hnil => under_eq_nil_iff.mp hnil (List.mem_eraseDups.mp hname)

/-- **The first files of the groups stand in the order of the pushes.** -/
theorem firsts_ofPushes_sublist (pushes : List (String × FileRecord)) :
    (ofPushes pushes).firsts.Sublist (pushes.map Prod.snd) := by
  induction pushes using List.reverseRecOn with
  | nil => exact List.Sublist.slnil
  | append_singleton pushes p ih =>
    rw [ofPushes_concat, (indexed_ofPushes pushes).firsts_push files_ne_nil_of_mem_entries,
      List.map_append, List.map_singleton]
    split
    · exact ih.trans (List.sublist_append_left _ _)
    · exact ih.append (List.Sublist.refl _)

/-! ## All that sections keep -/

/-- What sections keep of the pushes that made them. -/
structure Keeps (s : Sections) (pushes : List (String × FileRecord)) : Prop where
  /-- The table sends a name to a place exactly if the group there has it. -/
  index : ∀ name i, s.index.lookup name = some i ↔ s.entries[i]?.map Section.name = some name
  nodup_names : (s.entries.map Section.name).Nodup
  /-- The table leads to no place without a group. -/
  index_lt : ∀ name i, s.index.lookup name = some i → i < s.entries.length
  files_ne_nil : ∀ group ∈ s.entries, group.files ≠ []
  /-- Under a name are the files pushed under it, in their order. -/
  get? : ∀ name, s.get? name =
    if name ∈ pushes.map Prod.fst then
      some ((pushes.filter fun p => p.1 == name).map Prod.snd)
    else none
  contains : ∀ name, s.contains name = (s.get? name).isSome
  /-- The names stand in the order of their first pushes. -/
  names : s.names = (pushes.map Prod.fst).eraseDups
  fileCount : s.fileCount = pushes.length
  /-- One more push changes nothing under the other names. -/
  frame : ∀ name file other, other ≠ name → (s.push name file).get? other = s.get? other

/-- **Groups and table stay in step** over every run of pushes, and what is
read off either of them is what the pushes say. -/
theorem keeps_ofPushes (pushes : List (String × FileRecord)) :
    (ofPushes pushes).Keeps pushes where
  index := by
    intro name i
    rw [← List.getElem?_map]
    exact indexed_ofPushes pushes name i
  nodup_names := (indexed_ofPushes pushes).nodup_names
  index_lt := by
    intro name i
    exact (indexed_ofPushes pushes).lt_length
  files_ne_nil := files_ne_nil_of_mem_entries
  get? := get?_ofPushes pushes
  contains := by
    intro name
    exact (indexed_ofPushes pushes).contains_eq
  names := names_ofPushes pushes
  fileCount := by rw [Sections.fileCount, (files_ofPushes pushes).length_eq, List.length_map]
  frame := by
    intro name file other hother
    rw [(indexed_ofPushes pushes).get?_push, if_neg hother]

end Sections

end ExportAtlas
