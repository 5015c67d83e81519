import Mathlib.Algebra.BigOperators.Group.Finset.Piecewise
import ZapretChecker.Lib.Collect

/-!
# Keeping what two limits allow

A list is filtered from the left: an element is kept while its group has fewer than `maxGroup`
elements kept, and its subgroup in the group fewer than `maxSub`. A decision is never revisited.

* `keep` — the loop
* `load` — how many elements a group would keep if it had no limit of its own
* `inGroup_keep`, `inSub_keep` — what is kept, counted without running the loop
* `mem_keep_iff` — which elements are kept
-/

namespace Caps

open Collect

/-- The groups and subgroups of the elements, and the limits on both. -/
structure Limits (α κ ι : Type*) where
  group : α → κ
  sub : α → ι
  maxGroup : Nat
  maxSub : Nat

variable {α κ ι : Type*} [DecidableEq κ] [DecidableEq ι] (c : Limits α κ ι)

/-- The number of elements of the group `k`. -/
def inGroup (k : κ) (l : List α) : Nat := l.countP fun a => c.group a = k

/-- The number of elements of the subgroup `i` of the group `k`. -/
def inSub (k : κ) (i : ι) (l : List α) : Nat := l.countP fun a => c.group a = k ∧ c.sub a = i

/-- Beside the elements kept so far there is room for `a`. -/
def Fits (kept : List α) (a : α) : Prop :=
  inGroup c (c.group a) kept < c.maxGroup ∧ inSub c (c.group a) (c.sub a) kept < c.maxSub

instance (kept : List α) (a : α) : Decidable (Fits c kept a) := inferInstanceAs (Decidable (_ ∧ _))

/-- The body of the loop. -/
def push (kept : List α) (a : α) : List α := if Fits c kept a then kept ++ [a] else kept

def keep (l : List α) : List α := l.foldl (push c) []

/-- The subgroups of a group that occur in a list. -/
def subs (k : κ) (l : List α) : Finset ι := ((l.filter fun a => c.group a = k).map c.sub).toFinset

/-- The number of elements the group `k` would keep without a limit of its own: every subgroup keeps
as many as it has, up to its limit. -/
def load (k : κ) (l : List α) : Nat := (subs c k l).sum fun i => min c.maxSub (inSub c k i l)

/-- After the elements of `l` the limits leave room for `a`. -/
def Room (l : List α) (a : α) : Prop :=
  load c (c.group a) l < c.maxGroup ∧ inSub c (c.group a) (c.sub a) l < c.maxSub

instance (l : List α) (a : α) : Decidable (Room c l a) := inferInstanceAs (Decidable (_ ∧ _))

/-! ## Counting -/

variable {c}

omit [DecidableEq ι] in
theorem inGroup_append_singleton (k : κ) (l : List α) (a : α) :
    inGroup c k (l ++ [a]) = inGroup c k l + if c.group a = k then 1 else 0 := by
  simp [inGroup, List.countP_append, List.countP_singleton]

theorem inSub_append_singleton (k : κ) (i : ι) (l : List α) (a : α) :
    inSub c k i (l ++ [a]) = inSub c k i l + if c.group a = k ∧ c.sub a = i then 1 else 0 := by
  simp [inSub, List.countP_append, List.countP_singleton]

theorem inSub_eq_zero {k : κ} {i : ι} {l : List α} (h : i ∉ subs c k l) : inSub c k i l = 0 := by
  rw [inSub, List.countP_eq_zero]
  intro a ha
  rw [decide_eq_true_eq]
  rintro ⟨hk, hi⟩
  refine h (List.mem_toFinset.mpr (List.mem_map.mpr ⟨a, ?_, hi⟩))
  exact List.mem_filter.mpr ⟨ha, by simpa using hk⟩

theorem load_append_of_ne {k : κ} (l : List α) {a : α} (h : c.group a ≠ k) :
    load c k (l ++ [a]) = load c k l := by
  have hsubs : subs c k (l ++ [a]) = subs c k l := by simp [subs, h]
  rw [load, load, hsubs]
  refine Finset.sum_congr rfl fun i _ => ?_
  rw [inSub_append_singleton, if_neg fun he => h he.1, Nat.add_zero]

/-- One more element of a subgroup counts while the subgroup has room. -/
theorem load_append_self (l : List α) (a : α) :
    load c (c.group a) (l ++ [a]) = load c (c.group a) l +
      if inSub c (c.group a) (c.sub a) l < c.maxSub then 1 else 0 := by
  have hsubs : subs c (c.group a) (l ++ [a]) = insert (c.sub a) (subs c (c.group a) l) := by
    ext i
    simp [subs]
  have hterm (i : ι) : min c.maxSub (inSub c (c.group a) i (l ++ [a])) =
      min c.maxSub (inSub c (c.group a) i l) + if i = c.sub a then
        (if inSub c (c.group a) (c.sub a) l < c.maxSub then 1 else 0) else 0 := by
    rw [inSub_append_singleton]
    by_cases hi : i = c.sub a
    · subst hi
      rw [if_pos ⟨rfl, rfl⟩, if_pos rfl]
      split <;> omega
    · rw [if_neg fun he => hi he.2.symm, if_neg hi, Nat.add_zero, Nat.add_zero]
  rw [load, load, hsubs, Finset.sum_congr rfl fun i _ => hterm i, Finset.sum_add_distrib,
    Finset.sum_ite_eq' _ (c.sub a), if_pos (Finset.mem_insert_self _ _)]
  congr 1
  refine Finset.sum_insert_of_eq_zero_if_notMem fun h => ?_
  rw [inSub_eq_zero h, Nat.min_zero]

/-! ## The loop -/

theorem keep_append_singleton (l : List α) (a : α) :
    keep c (l ++ [a]) = if Fits c (keep c l) a then keep c l ++ [a] else keep c l := by
  rw [keep, List.foldl_append, List.foldl_cons, List.foldl_nil]
  rfl

/-- Going on, the loop keeps what it has and adds some of the later elements. -/
theorem foldl_push (l kept : List α) :
    ∃ more, l.foldl (push c) kept = kept ++ more ∧ more.Sublist l := by
  induction l generalizing kept with
  | nil => exact ⟨[], by rw [List.append_nil, List.foldl_nil], List.Sublist.slnil⟩
  | cons a l ih =>
    rw [List.foldl_cons]
    obtain ⟨more, hmore, hsub⟩ := ih (push c kept a)
    rw [hmore, push]
    split
    · exact ⟨a :: more, by rw [List.append_assoc, List.singleton_append], hsub.cons_cons a⟩
    · exact ⟨more, rfl, hsub.cons a⟩

theorem keep_append (l m : List α) : ∃ more, keep c (l ++ m) = keep c l ++ more ∧ more.Sublist m := by
  rw [keep, List.foldl_append]
  exact foldl_push m _

theorem keep_sublist (l : List α) : (keep c l).Sublist l := by
  obtain ⟨more, hmore, hsub⟩ := foldl_push (c := c) l []
  rw [keep, hmore]
  exact hsub

theorem inGroup_keep_le (k : κ) (l : List α) : inGroup c k (keep c l) ≤ c.maxGroup := by
  induction l using List.reverseRecOn with
  | nil => exact Nat.zero_le _
  | append_singleton l a ih =>
    rw [keep_append_singleton]
    split
    · next hfits =>
      rw [inGroup_append_singleton]
      split
      · next hk => exact hk ▸ hfits.1
      · exact ih
    · exact ih

theorem inSub_keep_le (k : κ) (i : ι) (l : List α) : inSub c k i (keep c l) ≤ c.maxSub := by
  induction l using List.reverseRecOn with
  | nil => exact Nat.zero_le _
  | append_singleton l a ih =>
    rw [keep_append_singleton]
    split
    · next hfits =>
      rw [inSub_append_singleton]
      split
      · next h =>
        obtain ⟨rfl, rfl⟩ := h
        exact hfits.2
      · exact ih
    · exact ih

/-- Limits that cannot be reached keep everything. -/
theorem keep_eq_self {l : List α} (hgroup : l.length ≤ c.maxGroup) (hsub : l.length ≤ c.maxSub) :
    keep c l = l := by
  induction l using List.reverseRecOn with
  | nil => rfl
  | append_singleton l a ih =>
    rw [List.length_append, List.length_singleton] at hgroup hsub
    have hfits : Fits c l a :=
      ⟨Nat.lt_of_le_of_lt List.countP_le_length hgroup,
        Nat.lt_of_le_of_lt List.countP_le_length hsub⟩
    rw [keep_append_singleton, ih (by omega) (by omega), if_pos hfits]

/-! ## What is kept, counted -/

/-- What a group and its subgroups have kept. -/
structure Counted (c : Limits α κ ι) (l : List α) : Prop where
  group : ∀ k, inGroup c k (keep c l) = min c.maxGroup (load c k l)
  /-- While the group has room, only the limit of the subgroup counts. -/
  sub : ∀ k i, load c k l < c.maxGroup → inSub c k i (keep c l) = min c.maxSub (inSub c k i l)

/-- The loop has room for an element when the counts say so. -/
theorem Counted.fits_iff {l : List α} (h : Counted c l) (a : α) : Fits c (keep c l) a ↔ Room c l a := by
  have hgroup := h.group (c.group a)
  constructor
  · rintro ⟨hg, hs⟩
    have hload : load c (c.group a) l < c.maxGroup := by omega
    have hsub := h.sub _ (c.sub a) hload
    exact ⟨hload, by omega⟩
  · rintro ⟨hload, hs⟩
    have hsub := h.sub _ (c.sub a) hload
    exact ⟨by omega, by omega⟩

theorem Counted.keep_append_singleton {l : List α} (h : Counted c l) (a : α) :
    keep c (l ++ [a]) = if Room c l a then keep c l ++ [a] else keep c l := by
  rw [Caps.keep_append_singleton]
  simp only [h.fits_iff a]

/-- One more element, and what its group has kept. -/
theorem Counted.group_append {l : List α} (h : Counted c l) (a : α) (k : κ) :
    inGroup c k (keep c (l ++ [a])) = min c.maxGroup (load c k (l ++ [a])) := by
  rw [h.keep_append_singleton a]
  by_cases hk : c.group a = k
  · subst hk
    have hload := load_append_self (c := c) l a
    have hg := h.group (c.group a)
    split
    · next hroom =>
      rw [if_pos hroom.2] at hload
      have hlt := hroom.1
      rw [inGroup_append_singleton, if_pos rfl, hg, hload]
      omega
    · next hroom =>
      -- either the group is full or the element does not count
      rw [hg, hload]
      split
      · next hs =>
        have hfull : ¬ load c (c.group a) l < c.maxGroup := fun hlt => hroom ⟨hlt, hs⟩
        omega
      · rfl
  · rw [load_append_of_ne l hk, ← h.group k]
    split
    · rw [inGroup_append_singleton, if_neg hk, Nat.add_zero]
    · rfl

/-- One more element, and what its subgroup has kept while the group has room. -/
theorem Counted.sub_append {l : List α} (h : Counted c l) (a : α) {k : κ} {i : ι}
    (hlt : load c k (l ++ [a]) < c.maxGroup) :
    inSub c k i (keep c (l ++ [a])) = min c.maxSub (inSub c k i (l ++ [a])) := by
  rw [h.keep_append_singleton a, inSub_append_singleton]
  by_cases hk : c.group a = k
  · subst hk
    have hload := load_append_self (c := c) l a
    have hlt' : load c (c.group a) l < c.maxGroup := by omega
    have hs := h.sub _ i hlt'
    split
    · next hroom =>
      rw [inSub_append_singleton, hs]
      split
      · next heq =>
        have hsub := hroom.2
        rw [heq.2] at hsub
        omega
      · omega
    · next hroom =>
      rw [hs]
      split
      · next heq =>
        have hsub : ¬ inSub c (c.group a) i l < c.maxSub := by
          rw [← heq.2]
          exact fun hsub => hroom ⟨hlt', hsub⟩
        omega
      · omega
  · rw [load_append_of_ne l hk] at hlt
    have hother : (if c.group a = k ∧ c.sub a = i then 1 else 0) = 0 := if_neg fun heq => hk heq.1
    rw [hother, Nat.add_zero, ← h.sub k i hlt]
    split
    · rw [inSub_append_singleton, hother, Nat.add_zero]
    · rfl

theorem counted (l : List α) : Counted c l := by
  induction l using List.reverseRecOn with
  | nil => exact ⟨fun k => by simp [keep, inGroup, load, subs], fun k i _ => by simp [keep, inSub]⟩
  | append_singleton l a ih => exact ⟨ih.group_append a, fun _ _ => ih.sub_append a⟩

/-- A group or a subgroup of it is full exactly when there is no room for one more element. -/
theorem full_iff (l : List α) (a : α) :
    (inGroup c (c.group a) (keep c l) = c.maxGroup ∨
      inSub c (c.group a) (c.sub a) (keep c l) = c.maxSub) ↔ ¬ Room c l a := by
  have hg := (counted (c := c) l).group (c.group a)
  constructor
  · rintro hfull ⟨hload, hsub⟩
    have hs := (counted (c := c) l).sub _ (c.sub a) hload
    rcases hfull with h | h <;> omega
  · intro hroom
    by_cases hload : load c (c.group a) l < c.maxGroup
    · right
      have hs := (counted (c := c) l).sub _ (c.sub a) hload
      have hsub : ¬ inSub c (c.group a) (c.sub a) l < c.maxSub := fun hsub => hroom ⟨hload, hsub⟩
      omega
    · left
      omega

/-- An element is kept when there is room for it after those before it. -/
theorem mem_keep_iff [DecidableEq α] {l : List α} (hnodup : l.Nodup) {a : α} (ha : a ∈ l) :
    a ∈ keep c l ↔ Room c (before a l) a := by
  obtain ⟨after, hl⟩ := eq_before_append ha
  have hbefore : a ∉ before a l := fun h => (mem_of_mem_before h).2 rfl
  have hafter : a ∉ after := by
    rw [hl, List.nodup_append, List.nodup_cons] at hnodup
    exact hnodup.2.1.1
  have hstep := keep_append_singleton (c := c) (before a l) a
  simp only [(counted (before a l)).fits_iff a] at hstep
  -- no later element decides about `a`
  have hlater : a ∈ keep c l ↔ a ∈ keep c (before a l ++ [a]) := by
    have hall : l = before a l ++ [a] ++ after := by
      rw [List.append_assoc, List.singleton_append]
      exact hl
    obtain ⟨more, hmore, hsub⟩ := keep_append (c := c) (before a l ++ [a]) after
    rw [← hall] at hmore
    rw [hmore, List.mem_append]
    exact or_iff_left fun hmem => hafter (hsub.subset hmem)
  rw [hlater, hstep]
  split
  · next hroom => simp [hroom]
  · next hroom =>
    refine iff_of_false (fun hmem => hbefore ?_) hroom
    exact (keep_sublist _).subset hmem

end Caps
