import Mathlib.Data.List.Induction
import Mathlib.Data.List.Nodup
import Mathlib.Data.List.Perm.Subperm
/-!
# Lists without repeats

`eraseDups` keeps the first appearance of each entry, so a list that grows at
its end grows by what is new (`eraseDups_concat`, `foldl_addNew`), and the
entries stand in the order in which they first came (`pairwise_eraseDups`). What is gathered
under each key of a list is the list, in another order
(`flatMap_filter_perm`).
-/

namespace ExportAtlas

variable {α : Type} [BEq α] [LawfulBEq α]

theorem contains_eraseDups (l : List α) (a : α) : l.eraseDups.contains a = l.contains a := by
  rw [Bool.eq_iff_iff, List.contains_iff_mem, List.contains_iff_mem, List.mem_eraseDups]

/-- **One entry more at the end** counts if it is new. -/
theorem eraseDups_concat (l : List α) (a : α) :
    (l ++ [a]).eraseDups = if l.contains a then l.eraseDups else l.eraseDups ++ [a] := by
  rw [List.eraseDups_append]
  split
  · rename_i h
    have hold : [a].removeAll l = [] := by simp [List.removeAll, List.contains_iff_mem.mp h]
    rw [hold, List.eraseDups_nil, List.append_nil]
  · rename_i h
    have hnew : [a].removeAll l = [a] := by
      have hn : a ∉ l := fun hc => h (List.contains_iff_mem.mpr hc)
      simp [List.removeAll, hn]
    rw [hnew]
    rfl

/-- A list to which entries are added one after the other, unless they are
there, ends in the new ones, each once. -/
theorem foldl_addNew {β : Type} [DecidableEq β] (init l : List β) :
    l.foldl (fun kept a => if a ∈ kept then kept else kept ++ [a]) init =
      init ++ (l.filter fun a => a ∉ init).eraseDups := by
  induction l using List.reverseRecOn with
  | nil => simp
  | append_singleton l a ih =>
    rw [List.foldl_concat, ih, List.filter_append]
    by_cases hinit : a ∈ init
    · simp [hinit]
    have hsingle : [a].filter (fun a => decide (a ∉ init)) = [a] := by simp [hinit]
    rw [hsingle, eraseDups_concat]
    by_cases hl : a ∈ l
    · simp [hinit, hl]
    · simp [hinit, hl]

theorem nodup_eraseDups (l : List α) : l.eraseDups.Nodup := by
  induction l using List.reverseRecOn with
  | nil => exact List.nodup_nil
  | append_singleton l a ih =>
    rw [eraseDups_concat, ← contains_eraseDups]
    split
    · exact ih
    · rename_i h
      refine List.nodup_append.mpr ⟨ih, List.nodup_singleton a, ?_⟩
      intro b hb c hc hbc
      rw [List.mem_singleton.mp hc] at hbc
      exact h (List.contains_iff_mem.mpr (hbc ▸ hb))

/-- **A list without repeats is as long as before**, and no other. -/
theorem length_eraseDups_eq_iff {l : List α} : l.eraseDups.length = l.length ↔ l.Nodup := by
  have hsubperm : l.eraseDups.Subperm l :=
    List.subperm_of_subset (nodup_eraseDups l) fun _ => List.mem_eraseDups.mp
  constructor
  · intro h
    exact (hsubperm.perm_of_length_le (Nat.le_of_eq h.symm)).nodup_iff.mp (nodup_eraseDups l)
  · intro h
    have hback := List.subperm_of_subset h fun _ => List.mem_eraseDups.mpr
    exact Nat.le_antisymm hsubperm.length_le hback.length_le

/-- **Entries stand in the order in which they first came.** -/
theorem pairwise_eraseDups (l : List α) :
    l.eraseDups.Pairwise fun a b => l.idxOf a < l.idxOf b := by
  induction l using List.reverseRecOn with
  | nil => exact List.Pairwise.nil
  | append_singleton l a ih =>
    have hold : ∀ b ∈ l.eraseDups, (l ++ [a]).idxOf b = l.idxOf b := fun b hb =>
      List.idxOf_append_of_mem (List.mem_eraseDups.mp hb)
    have hpairs : l.eraseDups.Pairwise fun b c => (l ++ [a]).idxOf b < (l ++ [a]).idxOf c :=
      ih.imp_of_mem fun {b c} hb hc hlt => by rwa [hold b hb, hold c hc]
    rw [eraseDups_concat]
    split
    · exact hpairs
    · rename_i h
      refine List.pairwise_append.mpr ⟨hpairs, List.pairwise_singleton _ _, fun b hb c hc => ?_⟩
      have ha : a ∉ l := fun hmem => h (List.contains_iff_mem.mpr hmem)
      rw [List.mem_singleton.mp hc, hold b hb, List.idxOf_append_of_notMem ha,
        List.idxOf_cons_self, Nat.add_zero]
      exact List.idxOf_lt_length_of_mem (List.mem_eraseDups.mp hb)

section Gathered

variable {β : Type} {keys : List α} {key : β → α} {x : β} {l : List β}

theorem filter_singleton_of_notMem (h : key x ∉ keys) :
    (keys.flatMap fun k => [x].filter fun y => key y == k) = [] := by
  rw [List.flatMap_eq_nil_iff]
  intro k hk
  rw [List.filter_cons_of_neg, List.filter_nil]
  exact fun heq => h (beq_iff_eq.mp heq ▸ hk)

/-- One entry is gathered under one key. -/
theorem filter_singleton_of_mem (hkeys : keys.Nodup) (h : key x ∈ keys) :
    (keys.flatMap fun k => [x].filter fun y => key y == k) = [x] := by
  obtain ⟨before, after, rfl, hbefore⟩ := List.eq_append_cons_of_mem h
  have hafter : key x ∉ after :=
    (List.nodup_cons.mp (List.nodup_append.mp hkeys).2.1).1
  have hx : ([x].filter fun y => key y == key x) = [x] :=
    List.filter_cons_of_pos (beq_self_eq_true (key x))
  rw [List.flatMap_append, List.flatMap_cons, filter_singleton_of_notMem hbefore,
    filter_singleton_of_notMem hafter, hx]
  rfl

/-- **To gather a list under its keys** neither loses an entry nor repeats
one. -/
theorem flatMap_filter_perm (hkeys : keys.Nodup) (h : ∀ x ∈ l, key x ∈ keys) :
    (keys.flatMap fun k => l.filter fun x => key x == k).Perm l := by
  induction l with
  | nil => simp
  | cons x l ih =>
    rw [List.forall_mem_cons] at h
    have hsplit : (keys.flatMap fun k => (x :: l).filter fun y => key y == k) =
        keys.flatMap fun k => ([x].filter fun y => key y == k) ++ l.filter fun y => key y == k :=
      congrArg (keys.flatMap ·) (funext fun k => List.filter_append [x] l)
    rw [hsplit]
    refine (List.flatMap_append_perm keys _ _).symm.trans ?_
    rw [filter_singleton_of_mem hkeys h.1]
    exact (ih h.2).append_left [x]

end Gathered

end ExportAtlas
