import ExportAtlas.Proofs.Report.Outline
/-!
# The order of the route groups

The outline takes the groups that are called for in front, one name after the
other. What that comes to is told by ranks: the rank of a group is the place of
the first name in its key. A round takes the groups of rank zero and leaves the
others one rank lower (`rank_cons_of_isCalled`, `rank_cons_of_not_isCalled`), so
after all rounds the groups stand by rank (`pairwise_rank_orderBy`), and those
of one rank as they stood before (`filter_rank_orderBy`).
-/

namespace ExportAtlas

namespace Report

namespace Outline

variable {name : String} {names : List String} {g : RouteGroup} {groups : List RouteGroup}

/-- The place of the first of the names that stands in the key of a group, in
lower case; behind all of them if none does. -/
def rank (names : List String) (g : RouteGroup) : Nat :=
  names.findIdx fun name => Text.contains (Text.lower g.key) name

theorem rank_cons_of_isCalled (h : isCalled name g = true) : rank (name :: names) g = 0 := by
  unfold isCalled at h
  simp [rank, List.findIdx_cons, h]

theorem rank_cons_of_not_isCalled (h : isCalled name g = false) :
    rank (name :: names) g = rank names g + 1 := by
  unfold isCalled at h
  simp [rank, List.findIdx_cons, h]

/-- **One round** takes the groups that are called for, and leaves the others to
the rounds behind it. -/
theorem orderBy_cons (name : String) (names : List String) (groups : List RouteGroup) :
    orderBy (name :: names) groups = groups.filter (isCalled name) ++
      orderBy names (groups.filter fun g => !isCalled name g) := by
  rw [orderBy, List.partition_eq_filter_filter]
  rfl

/-- No later round brings back a group that is called for. -/
theorem not_isCalled_of_mem_orderBy
    (h : g ∈ orderBy names (groups.filter fun g => !isCalled name g)) :
    isCalled name g = false := by
  have hleft := (List.mem_filter.mp ((orderBy_perm names _).mem_iff.mp h)).2
  simpa using hleft

/-- **The groups stand by rank.** -/
theorem pairwise_rank_orderBy (names : List String) (groups : List RouteGroup) :
    (orderBy names groups).Pairwise fun g h => rank names g ≤ rank names h := by
  induction names generalizing groups with
  | nil => exact List.pairwise_of_forall fun _ _ => Nat.le_refl 0
  | cons name names ih =>
    rw [orderBy_cons, List.pairwise_append]
    refine ⟨List.pairwise_of_forall_mem_list ?_, ?_, ?_⟩
    · intro g hg h _
      rw [rank_cons_of_isCalled (List.mem_filter.mp hg).2]
      exact Nat.zero_le _
    · refine (ih _).imp_of_mem ?_
      intro g h hg hh hle
      rw [rank_cons_of_not_isCalled (not_isCalled_of_mem_orderBy hg),
        rank_cons_of_not_isCalled (not_isCalled_of_mem_orderBy hh)]
      omega
    · intro g hg h _
      rw [rank_cons_of_isCalled (List.mem_filter.mp hg).2]
      exact Nat.zero_le _

/-- The groups of rank zero are those that the first name calls for. -/
theorem filter_rank_zero (groups : List RouteGroup) :
    groups.filter (fun g => rank (name :: names) g == 0) = groups.filter (isCalled name) := by
  refine List.filter_congr fun g _ => ?_
  cases hg : isCalled name g with
  | true => simp [rank_cons_of_isCalled hg]
  | false => simp [rank_cons_of_not_isCalled hg]

/-- The others are ranked by the names behind it. -/
theorem filter_rank_succ (groups : List RouteGroup) (r : Nat) :
    groups.filter (fun g => rank (name :: names) g == r + 1) =
      (groups.filter fun g => !isCalled name g).filter fun g => rank names g == r := by
  rw [List.filter_filter]
  refine List.filter_congr fun g _ => ?_
  cases hg : isCalled name g with
  | true => simp [rank_cons_of_isCalled hg]
  | false => simp [rank_cons_of_not_isCalled hg]

/-- A round takes the groups that are called for in their order. -/
theorem filter_isCalled_orderBy_cons (groups : List RouteGroup) :
    (orderBy (name :: names) groups).filter (isCalled name) = groups.filter (isCalled name) := by
  have hlater : (orderBy names (groups.filter fun g => !isCalled name g)).filter (isCalled name) =
      [] := by
    rw [List.filter_eq_nil_iff]
    intro g hg
    simp [not_isCalled_of_mem_orderBy hg]
  rw [orderBy_cons, List.filter_append, hlater, List.append_nil, List.filter_filter]
  simp only [Bool.and_self]

/-- It leaves the others to the later rounds. -/
theorem filter_not_isCalled_orderBy_cons (groups : List RouteGroup) :
    (orderBy (name :: names) groups).filter (fun g => !isCalled name g) =
      orderBy names (groups.filter fun g => !isCalled name g) := by
  have hnow : (groups.filter (isCalled name)).filter (fun g => !isCalled name g) = [] := by
    rw [List.filter_eq_nil_iff]
    intro g hg
    simp [(List.mem_filter.mp hg).2]
  rw [orderBy_cons, List.filter_append, hnow, List.nil_append, List.filter_eq_self]
  intro g hg
  simp [not_isCalled_of_mem_orderBy hg]

/-- **Groups of one rank stand as they did before.** Those of rank zero are taken
by the first round, and those of another rank by the rounds behind it. -/
theorem filter_rank_orderBy (names : List String) (groups : List RouteGroup) (r : Nat) :
    (orderBy names groups).filter (fun g => rank names g == r) =
      groups.filter fun g => rank names g == r := by
  induction names generalizing groups r with
  | nil => rfl
  | cons name names ih =>
    cases r with
    | zero => rw [filter_rank_zero, filter_rank_zero, filter_isCalled_orderBy_cons]
    | succ r => rw [filter_rank_succ, filter_rank_succ, filter_not_isCalled_orderBy_cons, ih]

/-- **The groups are sorted by rank, and stably**: none is lost or repeated, no
group stands behind one of a higher rank, and the groups of each rank are in the
order in which they came. -/
theorem orderGroups_stable (groups : List RouteGroup) :
    (orderGroups groups).Perm groups ∧
    (orderGroups groups).Pairwise (fun g h =>
      rank ["client", "admin", "api"] g ≤ rank ["client", "admin", "api"] h) ∧
    ∀ r, (orderGroups groups).filter (fun g => rank ["client", "admin", "api"] g == r) =
      groups.filter fun g => rank ["client", "admin", "api"] g == r :=
  ⟨orderGroups_perm groups, pairwise_rank_orderBy firstGroups groups,
    filter_rank_orderBy firstGroups groups⟩

/-- A key with several of the names is placed by the first of them. -/
example : (orderGroups [⟨"settings", []⟩, ⟨"api-admin", []⟩, ⟨"API", []⟩, ⟨"admin", []⟩]).map
    RouteGroup.key = ["api-admin", "admin", "API", "settings"] := by decide +kernel

end Outline

end Report

end ExportAtlas
