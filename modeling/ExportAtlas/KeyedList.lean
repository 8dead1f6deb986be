/-!
# Keyed lists

A list of pairs read as a table: the first pair with a key holds its value,
and keys stand in the order in which they first came.
-/

namespace ExportAtlas

namespace KeyedList

variable {κ α : Type} [DecidableEq κ]

/-- A table with a key set to a value. A key that is there keeps its place; a
new one comes last. -/
def put (key : κ) (value : α) : List (κ × α) → List (κ × α)
  | [] => [(key, value)]
  | (k, v) :: rest => if k = key then (key, value) :: rest else (k, v) :: put key value rest

section Lookup

variable [BEq κ] [LawfulBEq κ] {key k k' : κ} {value v : α} {l : List (κ × α)}

theorem lookup_cons_eq_ite : ((k', v) :: l).lookup k = if k = k' then some v else l.lookup k := by
  rw [List.lookup_cons]
  by_cases hk : k = k'
  · simp [hk]
  · rw [if_neg hk, beq_false_of_ne hk]

/-- A set key is found with its value, and the others as before. -/
theorem lookup_put : (put key value l).lookup k = if k = key then some value else l.lookup k := by
  induction l with
  | nil => exact lookup_cons_eq_ite
  | cons x l ih =>
    obtain ⟨k', v⟩ := x
    rw [put, lookup_cons_eq_ite]
    split
    · rename_i hkey
      rw [lookup_cons_eq_ite, hkey]
      split <;> rfl
    · rename_i hkey
      rw [lookup_cons_eq_ite, ih]
      split
      · rename_i hk
        rw [if_neg fun h => hkey (hk.symm.trans h)]
      · rfl

end Lookup

end KeyedList

end ExportAtlas
