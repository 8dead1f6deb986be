import ExportAtlas.Source.Extract
/-!
# The order of the text

`inTextOrder` is the stable sort by position: it keeps what it is given
(`inTextOrder_perm`), puts it in order (`pairwise_inTextOrder`), and leaves
the declarations of one place as they stood (`filter_inTextOrder`). These
three facts leave only one list (`eq_of_filter_position`), which is how a
list built in some other way is recognised as the sorted one.
-/

namespace ExportAtlas

namespace Source

variable {ds es : List Declaration}

/-- The sort loses no declaration and makes none. -/
theorem inTextOrder_perm : (inTextOrder ds).Perm ds := List.mergeSort_perm _ _

/-- The order by position is transitive, in the form the sort asks for. -/
theorem position_le_trans (a b c : Declaration)
    (hab : decide (a.position ≤ b.position) = true)
    (hbc : decide (b.position ≤ c.position) = true) :
    decide (a.position ≤ c.position) = true := by
  simp only [decide_eq_true_eq] at hab hbc ⊢
  omega

/-- And total. -/
theorem position_le_total (a b : Declaration) :
    (decide (a.position ≤ b.position) || decide (b.position ≤ a.position)) = true := by
  simp only [Bool.or_eq_true, decide_eq_true_eq]
  omega

/-- The sorted declarations stand by position. -/
theorem pairwise_inTextOrder :
    (inTextOrder ds).Pairwise fun a b => a.position ≤ b.position :=
  (List.pairwise_mergeSort position_le_trans position_le_total ds).imp fun hab => by
    simpa using hab

/-- **The sort is stable**: the declarations of one place keep their
order. Those of the input are in order among themselves, so they are a
sublist of the sorted list; counting shows that they are all of it that
lies at the place. -/
theorem filter_inTextOrder (p : Nat) :
    (inTextOrder ds).filter (fun d => d.position == p) =
      ds.filter fun d => d.position == p := by
  have hin : (ds.filter fun d => d.position == p).Pairwise
      fun a b => decide (a.position ≤ b.position) = true := by
    refine List.pairwise_of_forall_mem_list fun a ha b hb => ?_
    have ha' : a.position = p := by simpa using (List.mem_filter.mp ha).2
    have hb' : b.position = p := by simpa using (List.mem_filter.mp hb).2
    simp only [decide_eq_true_eq]
    omega
  have hsub : (ds.filter fun d => d.position == p).Sublist (inTextOrder ds) :=
    List.sublist_mergeSort position_le_trans position_le_total hin List.filter_sublist
  have hsub' := hsub.filter fun d => d.position == p
  rw [List.filter_filter] at hsub'
  simp only [Bool.and_self] at hsub'
  refine (hsub'.eq_of_length ?_).symm
  exact (inTextOrder_perm.filter _).length_eq.symm

/-- Two lists in order that hold the same at every place are one list. -/
theorem eq_of_filter_position :
    ∀ {ds es : List Declaration}, ds.Pairwise (fun a b => a.position ≤ b.position) →
      es.Pairwise (fun a b => a.position ≤ b.position) →
      (∀ p, ds.filter (fun d => d.position == p) = es.filter fun d => d.position == p) →
      ds = es := by
  intro ds
  induction ds with
  | nil =>
    intro es _ _ h
    cases es with
    | nil => rfl
    | cons e es => simpa using h e.position
  | cons d ds ih =>
    intro es hds hes h
    cases es with
    | nil => simpa using h d.position
    | cons e es =>
      obtain ⟨hd, hds'⟩ := List.pairwise_cons.mp hds
      obtain ⟨he, hes'⟩ := List.pairwise_cons.mp hes
      -- each head is found in the other list, so neither lies before the other
      have hde : d ∈ e :: es := by
        have : d ∈ (e :: es).filter fun x => x.position == d.position := by
          rw [← h d.position]; simp
        exact (List.mem_filter.mp this).1
      have hed : e ∈ d :: ds := by
        have : e ∈ (d :: ds).filter fun x => x.position == e.position := by
          rw [h e.position]; simp
        exact (List.mem_filter.mp this).1
      have hp : d.position = e.position := by
        have h1 : e.position ≤ d.position := by
          rcases List.mem_cons.mp hde with rfl | hmem
          · exact Nat.le_refl _
          · exact he d hmem
        have h2 : d.position ≤ e.position := by
          rcases List.mem_cons.mp hed with rfl | hmem
          · exact Nat.le_refl _
          · exact hd e hmem
        omega
      have heq : d = e := by
        have := h d.position
        simp only [List.filter_cons, beq_self_eq_true, hp] at this
        exact (List.cons.inj this).1
      subst heq
      rw [ih hds' hes' fun p => ?_]
      have hp' := h p
      simp only [List.filter_cons] at hp'
      split at hp'
      · exact (List.cons.inj hp').2
      · exact hp'

/-- **What the sorted list is**: the one in order that holds at every place
what the input holds there. -/
theorem inTextOrder_eq (hes : es.Pairwise fun a b => a.position ≤ b.position)
    (h : ∀ p, ds.filter (fun d => d.position == p) = es.filter fun d => d.position == p) :
    inTextOrder ds = es :=
  eq_of_filter_position pairwise_inTextOrder hes fun p => by rw [filter_inTextOrder, h p]

/-- Where two lists share no place, it does not matter which of them stands in
front. -/
theorem inTextOrder_append_comm (h : ∀ d ∈ ds, ∀ e ∈ es, d.position ≠ e.position) :
    inTextOrder (ds ++ es) = inTextOrder (es ++ ds) := by
  refine inTextOrder_eq pairwise_inTextOrder fun p => ?_
  rw [filter_inTextOrder, List.filter_append, List.filter_append]
  -- at each place one of the lists holds nothing
  by_cases hp : ∃ d ∈ ds, d.position = p
  · obtain ⟨d, hd, rfl⟩ := hp
    have hnone : es.filter (fun e => e.position == d.position) = [] :=
      List.filter_eq_nil_iff.mpr fun e he heq => h d hd e he (beq_iff_eq.mp heq).symm
    rw [hnone, List.append_nil, List.nil_append]
  · have hnone : ds.filter (fun d => d.position == p) = [] :=
      List.filter_eq_nil_iff.mpr fun d hd heq => hp ⟨d, hd, beq_iff_eq.mp heq⟩
    rw [hnone, List.append_nil, List.nil_append]

/-- Two conditions can be asked in either order. -/
theorem filter_swap {p q : Declaration → Bool} (ds : List Declaration) :
    (ds.filter p).filter q = (ds.filter q).filter p := by
  rw [List.filter_filter, List.filter_filter]
  exact List.filter_congr fun d _ => Bool.and_comm _ _

/-- Leaving declarations out before the sort or after it is the same. -/
theorem filter_inTextOrder_comm (p : Declaration → Bool) :
    (inTextOrder ds).filter p = inTextOrder (ds.filter p) := by
  refine (inTextOrder_eq (pairwise_inTextOrder.filter p) fun q => ?_).symm
  rw [filter_swap, filter_swap (inTextOrder ds), filter_inTextOrder]

/-- **What stands at the front comes first**; the others are sorted among
themselves. -/
theorem inTextOrder_eq_append :
    inTextOrder ds = ds.filter (fun d => d.position == 0) ++
      inTextOrder (ds.filter fun d => d.position != 0) := by
  have hzero : ∀ d ∈ ds.filter (fun d => d.position == 0), d.position = 0 := fun d hd =>
    beq_iff_eq.mp (List.mem_filter.mp hd).2
  refine inTextOrder_eq (List.pairwise_append.mpr ⟨?_, pairwise_inTextOrder, ?_⟩) fun p => ?_
  · refine List.pairwise_of_forall_mem_list fun d hd e _ => ?_
    rw [hzero d hd]
    exact Nat.zero_le _
  · intro d hd e _
    rw [hzero d hd]
    exact Nat.zero_le _
  · rw [List.filter_append, filter_inTextOrder, List.filter_filter, List.filter_filter]
    -- at each place all of the declarations are in one of the two parts
    by_cases hp : p = 0
    · have hnone : ds.filter (fun d => d.position == p && d.position != 0) = [] :=
        List.filter_eq_nil_iff.mpr fun d _ => by simp [hp]
      have hall : ds.filter (fun d => d.position == p && d.position == 0) =
          ds.filter fun d => d.position == p := List.filter_congr fun d _ => by simp [hp]
      rw [hnone, hall, List.append_nil]
    · have hnone : ds.filter (fun d => d.position == p && d.position == 0) = [] := by
        refine List.filter_eq_nil_iff.mpr fun d _ => ?_
        simp only [Bool.and_eq_true, beq_iff_eq]
        omega
      have hall : ds.filter (fun d => d.position == p && d.position != 0) =
          ds.filter fun d => d.position == p := by
        refine List.filter_congr fun d _ => ?_
        rw [Bool.eq_iff_iff]
        simp only [Bool.and_eq_true, beq_iff_eq, bne_iff_ne]
        omega
      rw [hnone, hall, List.nil_append]

end Source

end ExportAtlas
