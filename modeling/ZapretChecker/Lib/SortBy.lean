import Mathlib.Data.List.Sort

/-!
# Sorting by a comparison function

`sortBy cmp` is the stable sort `sort_by` of the standard library, for a three-way comparison.
A stable sort has only one result, so any algorithm models it; insertion sort also evaluates inside
the kernel. What `sort_by` asks of a comparison is `Std.TransCmp`.
-/

namespace SortBy

variable {α : Type*}

/-- `a` does not have to move behind `b`. -/
def NotAfter (cmp : α → α → Ordering) (a b : α) : Prop := (cmp a b).isLE = true

instance (cmp : α → α → Ordering) : DecidableRel (NotAfter cmp) :=
  fun a b => inferInstanceAs (Decidable ((cmp a b).isLE = true))

/-- `slice::sort_by`: stable sort by a three-way comparison. -/
def sortBy (cmp : α → α → Ordering) (l : List α) : List α := l.insertionSort (NotAfter cmp)

/-- `slice::sort_by_key`: stable sort by a key. -/
def sortByKey {κ : Type*} [Ord κ] (key : α → κ) (l : List α) : List α := sortBy (compareOn key) l

theorem sortBy_perm (cmp : α → α → Ordering) (l : List α) : (sortBy cmp l).Perm l :=
  List.perm_insertionSort _ l

@[simp] theorem mem_sortBy {cmp : α → α → Ordering} {l : List α} {a : α} :
    a ∈ sortBy cmp l ↔ a ∈ l :=
  (sortBy_perm cmp l).mem_iff

instance (cmp : α → α → Ordering) [Std.TransCmp cmp] : Std.Total (NotAfter cmp) where
  total a b := by
    have hswap : cmp b a = (cmp a b).swap := Std.OrientedCmp.eq_swap
    unfold NotAfter
    rw [hswap]
    cases cmp a b <;> simp

instance (cmp : α → α → Ordering) [Std.TransCmp cmp] : IsTrans α (NotAfter cmp) where
  trans _ _ _ hab hbc := Std.TransCmp.isLE_trans hab hbc

/-- The result is sorted. -/
theorem pairwise_sortBy (cmp : α → α → Ordering) [Std.TransCmp cmp] (l : List α) :
    (sortBy cmp l).Pairwise (NotAfter cmp) :=
  List.pairwise_insertionSort _ l

/-- Elements that do not have to move behind each other compare equal. -/
theorem NotAfter.antisymm {cmp : α → α → Ordering} [Std.TransCmp cmp] {a b : α}
    (hab : NotAfter cmp a b) (hba : NotAfter cmp b a) : cmp a b = .eq := by
  have hswap : cmp b a = (cmp a b).swap := Std.OrientedCmp.eq_swap
  unfold NotAfter at hab hba
  rw [hswap] at hba
  cases hcmp : cmp a b with
  | lt => rw [hcmp] at hba; cases hba
  | eq => rfl
  | gt => rw [hcmp] at hab; cases hab

/-- Where elements that compare equal have the same key and no key repeats, the order is strict. -/
theorem pairwise_lt_sortBy {κ : Type*} {cmp : α → α → Ordering} [Std.TransCmp cmp] {key : α → κ}
    (heq : ∀ a b, cmp a b = .eq → key a = key b) {l : List α} (hnodup : (l.map key).Nodup) :
    (sortBy cmp l).Pairwise fun a b => cmp a b = .lt := by
  have hkeys : ((sortBy cmp l).map key).Nodup := ((sortBy_perm cmp l).map key).nodup_iff.mpr hnodup
  refine ((pairwise_sortBy cmp l).and (List.pairwise_map.mp hkeys)).imp ?_
  rintro a b ⟨hle, hne⟩
  unfold NotAfter at hle
  cases hcmp : cmp a b with
  | lt => rfl
  | eq => exact absurd (heq a b hcmp) hne
  | gt => rw [hcmp] at hle; cases hle

/-- Where only equal elements compare equal, the order of the input does not matter. -/
theorem sortBy_eq_of_perm {cmp : α → α → Ordering} [Std.TransCmp cmp] {l l' : List α}
    (h : l.Perm l') (heq : ∀ a ∈ l, ∀ b ∈ l, cmp a b = .eq → a = b) :
    sortBy cmp l = sortBy cmp l' := by
  refine List.Perm.eq_of_pairwise ?_ (pairwise_sortBy cmp l) (pairwise_sortBy cmp l') ?_
  · intro a b ha hb hab hba
    exact heq a (mem_sortBy.mp ha) b (h.mem_iff.mpr (mem_sortBy.mp hb)) (hab.antisymm hba)
  · exact (sortBy_perm cmp l).trans (h.trans (sortBy_perm cmp l').symm)

/-- Sorting by a key with the keys `0, …, k - 1` puts them in that order. -/
theorem map_sortByKey_eq_range {key : α → Nat} {l : List α} {k : Nat}
    (h : (l.map key).Perm (List.range k)) : (sortByKey key l).map key = List.range k := by
  have hperm : ((sortByKey key l).map key).Perm (List.range k) :=
    ((sortBy_perm _ l).map key).trans h
  have hs : ((sortByKey key l).map key).Pairwise (· ≤ ·) := by
    rw [List.pairwise_map]
    refine (pairwise_sortBy (compareOn key) l).imp ?_
    intro a b hab
    simpa [NotAfter, compareOn, Nat.isLE_compare] using hab
  exact hperm.eq_of_pairwise' hs List.pairwise_le_range

end SortBy
