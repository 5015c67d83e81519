import ZapretChecker.Lib.RoundRobin

/-!
# Turns are fair

What every prefix of the rounds holds of a group: its first elements, in order, and at most one more
than of any group that is not exhausted yet.

* `filter_rounds` — the elements of one group, in all rounds
* `Fair`, `fair_of_prefix` — two groups in a prefix of the rounds
-/

namespace RoundRobin

variable {κ α : Type*} [DecidableEq κ] {order : List κ} {groups : κ → List α} {key : α → κ}

/-- Every group holds the elements of its key. -/
def Keyed (order : List κ) (groups : κ → List α) (key : α → κ) : Prop :=
  ∀ k ∈ order, ∀ a ∈ groups k, key a = k

theorem keyed_tails (h : Keyed order groups key) : Keyed order (tails order groups) key := by
  intro k hk a ha
  rw [tails, if_pos hk] at ha
  exact h k hk a (List.mem_of_mem_tail ha)

/-! ## One group -/

/-- A round holds the head of the group. -/
theorem filter_round (hkeyed : Keyed order groups key) (hnodup : order.Nodup) {k : κ}
    (hk : k ∈ order) :
    (round order groups 0).filter (fun a => key a = k) = (groups k).take 1 := by
  -- no other group has an element of this key
  have hother : ∀ ks : List κ, k ∉ ks → ks ⊆ order →
      (round ks groups 0).filter (fun a => key a = k) = [] := by
    intro ks hks hsub
    rw [List.filter_eq_nil_iff]
    intro a ha
    obtain ⟨j, hj, hget⟩ := List.mem_filterMap.mp ha
    rw [hkeyed j (hsub hj) a (List.mem_of_getElem? hget), decide_eq_true_eq]
    rintro rfl
    exact hks hj
  obtain ⟨before, after, rfl⟩ := List.append_of_mem hk
  obtain ⟨hbefore, hafter⟩ : k ∉ before ∧ k ∉ after := by
    rw [List.nodup_append, List.nodup_cons] at hnodup
    exact ⟨fun h => hnodup.2.2 _ h _ List.mem_cons_self rfl, hnodup.2.1.1⟩
  have hsplit : round (before ++ k :: after) groups 0 =
      round before groups 0 ++ ((groups k).take 1 ++ round after groups 0) := by
    rw [round, List.filterMap_append, List.filterMap_cons]
    cases groups k <;> rfl
  have hhead : ((groups k).take 1).filter (fun a => key a = k) = (groups k).take 1 := by
    rw [List.filter_eq_self]
    intro a ha
    simpa using hkeyed k hk a (List.mem_of_mem_take ha)
  rw [hsplit, List.filter_append, List.filter_append, hhead,
    hother before hbefore (List.subset_append_left _ _),
    hother after hafter fun j hj => List.mem_append_right _ (List.mem_cons_of_mem k hj),
    List.nil_append, List.append_nil]

/-- The rounds hold a group in its own order. -/
theorem filter_rounds (hkeyed : Keyed order groups key) (hnodup : order.Nodup) {k : κ}
    (hk : k ∈ order) (n : Nat) :
    (rounds order groups n).filter (fun a => key a = k) = (groups k).take n := by
  induction n generalizing groups with
  | zero => simp [rounds]
  | succ n ih =>
    rw [rounds_succ, List.filter_append, filter_round hkeyed hnodup hk, ih (keyed_tails hkeyed),
      tails, if_pos hk]
    cases groups k <;> simp

/-! ## Two groups -/

/-- The number of elements of the key `k`. -/
def held (key : α → κ) (k : κ) (p : List α) : Nat := p.countP fun a => key a = k

theorem held_append (k : κ) (p q : List α) : held key k (p ++ q) = held key k p + held key k q :=
  List.countP_append

theorem held_round (hkeyed : Keyed order groups key) (hnodup : order.Nodup) {k : κ}
    (hk : k ∈ order) : held key k (round order groups 0) = min 1 (groups k).length := by
  rw [held, List.countP_eq_length_filter, filter_round hkeyed hnodup hk, List.length_take]

/-- While `k` is not exhausted, `p` holds at most one more of `j`, and only if `j` comes first. -/
def Fair (order : List κ) (groups : κ → List α) (key : α → κ) (p : List α) : Prop :=
  ∀ j ∈ order, ∀ k ∈ order, held key k p < (groups k).length →
    held key j p ≤ held key k p + 1 ∧
      (held key j p = held key k p + 1 → [j, k].Sublist order)

/-- Inside a round. -/
theorem fair_of_prefix_round (hkeyed : Keyed order groups key) (hnodup : order.Nodup) {p : List α}
    (h : p <+: round order groups 0) : Fair order groups key p := by
  intro j hj k hk hlt
  have hle : held key j p ≤ 1 := by
    have hround := held_round hkeyed hnodup hj
    have hsub : held key j p ≤ held key j (round order groups 0) := h.sublist.countP_le
    omega
  refine ⟨by omega, fun heq => ?_⟩
  obtain ⟨visited, ⟨rest, hrest⟩, hp⟩ := List.prefix_filterMap_iff.mp h
  have hround : p = round visited groups 0 := hp
  have hkeyed' : Keyed visited groups key := fun i hi => hkeyed i (by
    rw [← hrest]
    exact List.mem_append_left rest hi)
  have hnodup' : visited.Nodup := by
    rw [← hrest] at hnodup
    exact (List.nodup_append.mp hnodup).1
  -- `j` had its turn, `k` had none
  have hjv : j ∈ visited := by
    by_contra hj'
    have hzero : held key j p = 0 := by
      rw [held, List.countP_eq_zero, hround]
      intro a ha
      obtain ⟨i, hi, hget⟩ := List.mem_filterMap.mp ha
      rw [hkeyed' i hi a (List.mem_of_getElem? hget), decide_eq_true_eq]
      rintro rfl
      exact hj' hi
    omega
  have hkv : k ∉ visited := by
    intro hk'
    have hone := held_round hkeyed' hnodup' hk'
    rw [← hround] at hone
    omega
  have hkr : k ∈ rest := by
    rw [← hrest] at hk
    exact (List.mem_append.mp hk).resolve_left hkv
  rw [← hrest]
  exact (List.singleton_sublist.mpr hjv).append (List.singleton_sublist.mpr hkr)

/-- **The rounds are fair.** -/
theorem fair_of_prefix (hkeyed : Keyed order groups key) (hnodup : order.Nodup) {n : Nat}
    {p : List α} (h : p <+: rounds order groups n) : Fair order groups key p := by
  induction n generalizing groups p with
  | zero =>
    have hnil : p = [] := List.prefix_nil.mp h
    subst hnil
    exact fair_of_prefix_round hkeyed hnodup List.nil_prefix
  | succ n ih =>
    rw [rounds_succ] at h
    rcases List.prefix_or_prefix_of_prefix h (List.prefix_append _ _) with h | ⟨q, rfl⟩
    · exact fair_of_prefix_round hkeyed hnodup h
    · -- a whole round, and a prefix of the rounds that follow it
      have hq := (List.prefix_append_right_inj _).mp h
      intro j hj k hk hlt
      have hround := held_round hkeyed hnodup hk
      have hround' := held_round hkeyed hnodup hj
      rw [held_append] at hlt
      have htail : held key k q < (tails order groups k).length := by
        rw [tails, if_pos hk, List.length_tail]
        omega
      obtain ⟨hle, hfirst⟩ := ih (keyed_tails hkeyed) hq j hj k hk htail
      rw [held_append, held_append]
      exact ⟨by omega, fun heq => hfirst (by omega)⟩

end RoundRobin
