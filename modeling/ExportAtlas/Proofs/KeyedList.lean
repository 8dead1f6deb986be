import Mathlib.Data.List.Nodup
import ExportAtlas.KeyedList
/-!
# Tables with distinct keys

To put a value into a table keeps its keys distinct (`nodup_map_fst_put`), and
in a table with distinct keys a key finds the value listed with it
(`lookup_eq_some_iff`).
-/

namespace ExportAtlas

namespace KeyedList

variable {κ α : Type} {key : κ} {value : α} {l : List (κ × α)}

/-- A new key comes last. -/
theorem map_fst_put [DecidableEq κ] : (put key value l).map Prod.fst =
    if key ∈ l.map Prod.fst then l.map Prod.fst else l.map Prod.fst ++ [key] := by
  induction l with
  | nil => rfl
  | cons x l ih =>
    obtain ⟨k, v⟩ := x
    rw [put]
    by_cases hk : k = key
    · simp [hk]
    · rw [if_neg hk, List.map_cons, ih, List.map_cons]
      by_cases hkey : key ∈ l.map Prod.fst
      · rw [if_pos hkey, if_pos (List.mem_cons_of_mem k hkey)]
      · rw [if_neg hkey, if_neg, List.cons_append]
        rintro (_ | ⟨_, hmem⟩)
        · exact hk rfl
        · exact hkey hmem

theorem nodup_map_fst_put [DecidableEq κ] (h : (l.map Prod.fst).Nodup) :
    ((put key value l).map Prod.fst).Nodup := by
  rw [map_fst_put]
  split
  · exact h
  · rename_i hkey
    exact List.nodup_append.mpr ⟨h, List.nodup_singleton key, fun k hk k' hk' heq =>
      hkey (List.mem_singleton.mp hk' ▸ heq ▸ hk)⟩

/-- **A key finds the value listed with it.** -/
theorem lookup_eq_some_iff [BEq κ] [LawfulBEq κ] (h : (l.map Prod.fst).Nodup) :
    l.lookup key = some value ↔ (key, value) ∈ l := by
  induction l with
  | nil => exact ⟨nofun, nofun⟩
  | cons x l ih =>
    obtain ⟨k, v⟩ := x
    rw [List.map_cons, List.nodup_cons] at h
    rw [List.lookup_cons, List.mem_cons, Prod.mk.injEq]
    by_cases hk : key = k
    · subst hk
      have hother : (key, value) ∉ l := fun hmem => h.1 (List.mem_map.mpr ⟨_, hmem, rfl⟩)
      simp [hother, eq_comm]
    · rw [beq_false_of_ne hk]
      simp only [hk, false_and, false_or]
      exact ih h.2

end KeyedList

end ExportAtlas
