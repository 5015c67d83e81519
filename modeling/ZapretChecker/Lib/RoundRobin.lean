import Mathlib.Algebra.GroupWithZero.Nat
import Mathlib.Data.List.Perm.Basic
import Mathlib.Data.List.Nodup
import Mathlib.Logic.Function.Basic

/-!
# Taking turns

Groups of elements are drained in turns: each pass over the groups takes the first element of every
group that has one, until a number of elements is reached or all groups are empty.

* `pass`, `drain` — the loop, with its early return inside a pass
* `rounds` — what the turns are: round `r` has the `r`-th element of every group with that many
* `drain_eq_take` — the loop takes the rounds in order, up to the limit
* `rounds_perm` — the rounds together hold every element of every group once
* `flatMap_filter_perm` — a list grouped by a key
-/

namespace RoundRobin

variable {κ α : Type*} [DecidableEq κ]

structure State (κ α : Type*) where
  selected : List α
  groups : κ → List α

/-- How a pass ends: the whole loop returned, or the pass is over. -/
inductive PassResult (κ α : Type*)
  | returned (selected : List α)
  | finished (s : State κ α) (madeProgress : Bool)

/-- One pass over the groups. -/
def pass (max : Nat) : List κ → State κ α → Bool → PassResult κ α
  | [], s, madeProgress => .finished s madeProgress
  | k :: order, s, madeProgress =>
    if max ≤ s.selected.length then .returned s.selected
    else match s.groups k with
      | [] => pass max order s madeProgress
      | a :: rest =>
        pass max order ⟨s.selected ++ [a], Function.update s.groups k rest⟩ true

/-- The number of elements left. -/
def remaining (order : List κ) (groups : κ → List α) : Nat :=
  (order.map fun k => (groups k).length).sum

theorem remaining_update_le {order : List κ} {groups : κ → List α} {k : κ} {a : α} {rest : List α}
    (hk : groups k = a :: rest) :
    remaining order (Function.update groups k rest) ≤ remaining order groups := by
  induction order with
  | nil => exact Nat.le_refl _
  | cons j order ih =>
    unfold remaining at *
    rw [List.map_cons, List.map_cons, List.sum_cons, List.sum_cons]
    by_cases hj : j = k
    · subst hj
      rw [Function.update_self, hk, List.length_cons]
      omega
    · rw [Function.update_of_ne hj]
      omega

theorem remaining_update_lt {order : List κ} {groups : κ → List α} {k : κ} {a : α} {rest : List α}
    (hk : groups k = a :: rest) (hmem : k ∈ order) :
    remaining order (Function.update groups k rest) < remaining order groups := by
  induction order with
  | nil => exact absurd hmem List.not_mem_nil
  | cons j order ih =>
    have hle : remaining order (Function.update groups k rest) ≤ remaining order groups :=
      remaining_update_le hk
    unfold remaining at *
    rw [List.map_cons, List.map_cons, List.sum_cons, List.sum_cons]
    by_cases hj : j = k
    · subst hj
      rw [Function.update_self, hk, List.length_cons]
      omega
    · have hlt := ih ((List.mem_cons.mp hmem).resolve_left (Ne.symm hj))
      rw [Function.update_of_ne hj]
      omega

/-- A pass that made progress leaves fewer elements. -/
theorem remaining_pass {max : Nat} {order all : List κ} {s s' : State κ α} {p p' : Bool}
    (h : pass max order s p = .finished s' p') (hsub : order ⊆ all) :
    remaining all s'.groups ≤ remaining all s.groups ∧
      (p = false → p' = true → remaining all s'.groups < remaining all s.groups) := by
  induction order generalizing s p with
  | nil =>
    simp only [pass, PassResult.finished.injEq] at h
    obtain ⟨rfl, rfl⟩ := h
    exact ⟨Nat.le_refl _, fun hf ht => by simp [hf] at ht⟩
  | cons k order ih =>
    have hsub' : order ⊆ all := fun j hj => hsub (List.mem_cons_of_mem k hj)
    rw [pass] at h
    split at h
    · cases h
    · split at h
      · exact ih h hsub'
      · rename_i a rest hk
        have hlt := remaining_update_lt hk (hsub List.mem_cons_self)
        obtain ⟨hle, -⟩ := ih h hsub'
        exact ⟨Nat.le_of_lt (Nat.lt_of_le_of_lt hle hlt),
          fun _ _ => Nat.lt_of_le_of_lt hle hlt⟩

/-- Passes until the limit is reached or a pass finds every group empty. -/
def drain (max : Nat) (order : List κ) (s : State κ α) : List α :=
  match _h : pass max order s false with
  | .returned selected => selected
  | .finished s' true => drain max order s'
  | .finished s' false => s'.selected
termination_by remaining order s.groups
decreasing_by exact (remaining_pass _h (List.Subset.refl _)).2 rfl rfl

/-! ## The rounds -/

section Rounds

omit [DecidableEq κ]

/-- The elements taken in round `r`. -/
def round (order : List κ) (groups : κ → List α) (r : Nat) : List α :=
  order.filterMap fun k => (groups k)[r]?

/-- The first `n` rounds. -/
def rounds (order : List κ) (groups : κ → List α) (n : Nat) : List α :=
  (List.range n).flatMap (round order groups)

theorem rounds_eq_nil {order : List κ} {groups : κ → List α} (h : ∀ k ∈ order, groups k = [])
    (n : Nat) : rounds order groups n = [] := by
  unfold rounds round
  rw [List.flatMap_eq_nil_iff]
  intro r _
  rw [List.filterMap_eq_nil_iff]
  intro k hk
  rw [h k hk, List.getElem?_nil]

theorem round_cons_of_nil {order : List κ} {groups : κ → List α} {k : κ} (hk : groups k = []) :
    round (k :: order) groups 0 = round order groups 0 := by
  simp [round, hk]

theorem round_cons_of_cons {order : List κ} {groups : κ → List α} {k : κ} {a : α} {rest : List α}
    (hk : groups k = a :: rest) : round (k :: order) groups 0 = a :: round order groups 0 := by
  simp [round, hk]

theorem round_eq_nil_iff {order : List κ} {groups : κ → List α} :
    round order groups 0 = [] ↔ ∀ k ∈ order, groups k = [] := by
  unfold round
  rw [List.filterMap_eq_nil_iff]
  constructor
  · intro h k hk
    have := h k hk
    cases hg : groups k <;> simp_all
  · intro h k hk
    rw [h k hk, List.getElem?_nil]

end Rounds

theorem round_update {order : List κ} (groups : κ → List α) {k : κ} (hk : k ∉ order)
    (rest : List α) : round order (Function.update groups k rest) 0 = round order groups 0 := by
  unfold round
  apply List.filterMap_congr
  intro j hj
  have hne : j ≠ k := fun he => hk (he ▸ hj)
  rw [Function.update_of_ne hne]

/-- The groups after a full pass. -/
def tails (order : List κ) (groups : κ → List α) (k : κ) : List α :=
  if k ∈ order then (groups k).tail else groups k

theorem round_tails (order : List κ) (groups : κ → List α) (r : Nat) :
    round order (tails order groups) r = round order groups (r + 1) := by
  unfold round
  apply List.filterMap_congr
  intro k hk
  rw [tails, if_pos hk, List.getElem?_tail]

theorem rounds_succ (order : List κ) (groups : κ → List α) (n : Nat) :
    rounds order groups (n + 1) =
      round order groups 0 ++ rounds order (tails order groups) n := by
  unfold rounds
  rw [List.range_succ_eq_map, List.flatMap_cons, List.flatMap_map]
  congr 1
  apply List.flatMap_congr
  intro r _
  exact (round_tails order groups r).symm

/-! ## One pass takes one round -/

/-- What a pass does that does not reach the limit. -/
theorem pass_finished {max : Nat} {order : List κ} {s s' : State κ α} {p p' : Bool}
    (hnodup : order.Nodup) (hlen : s.selected.length ≤ max)
    (h : pass max order s p = .finished s' p') :
    s'.selected = s.selected ++ round order s.groups 0 ∧ s'.groups = tails order s.groups ∧
      p' = (p || !(round order s.groups 0).isEmpty) ∧ s'.selected.length ≤ max := by
  induction order generalizing s p with
  | nil =>
    simp only [pass, PassResult.finished.injEq] at h
    obtain ⟨rfl, rfl⟩ := h
    exact ⟨by simp [round], by funext k; simp [tails], by simp [round], hlen⟩
  | cons k order ih =>
    obtain ⟨hk, hnodup⟩ := List.nodup_cons.mp hnodup
    rw [pass] at h
    split at h
    · cases h
    rename_i hmax
    -- `k` does not come again, so taking from its group leaves the rest of the round alone
    cases hg : s.groups k with
    | nil =>
      simp only [hg] at h
      obtain ⟨hsel, hgroups, hp, hlen'⟩ := ih hnodup hlen h
      rw [round_cons_of_nil hg]
      refine ⟨hsel, ?_, hp, hlen'⟩
      rw [hgroups]
      funext j
      by_cases hj : j = k
      · subst hj
        simp [tails, hk, hg]
      · simp [tails, hj]
    | cons a rest =>
      simp only [hg] at h
      have hlen₁ : (s.selected ++ [a]).length ≤ max := by
        rw [List.length_append, List.length_singleton]
        omega
      obtain ⟨hsel, hgroups, hp, hlen'⟩ := ih hnodup hlen₁ h
      rw [round_update s.groups hk] at hsel hp
      rw [round_cons_of_cons hg]
      refine ⟨?_, ?_, ?_, hlen'⟩
      · rw [hsel, List.append_assoc, List.singleton_append]
      · rw [hgroups]
        funext j
        by_cases hj : j = k
        · subst hj
          simp [tails, hk, hg]
        · simp [tails, hj]
      · rw [hp]
        simp

/-- What a pass does that reaches the limit. -/
theorem pass_returned {max : Nat} {order : List κ} {s : State κ α} {p : Bool} {out : List α}
    (hnodup : order.Nodup) (hlen : s.selected.length ≤ max)
    (h : pass max order s p = .returned out) :
    out.length = max ∧ out <+: s.selected ++ round order s.groups 0 := by
  induction order generalizing s p with
  | nil => simp [pass] at h
  | cons k order ih =>
    obtain ⟨hk, hnodup⟩ := List.nodup_cons.mp hnodup
    rw [pass] at h
    split at h
    · rename_i hmax
      simp only [PassResult.returned.injEq] at h
      subst h
      exact ⟨Nat.le_antisymm hlen hmax, List.prefix_append _ _⟩
    rename_i hmax
    cases hg : s.groups k with
    | nil =>
      simp only [hg] at h
      rw [round_cons_of_nil hg]
      exact ih hnodup hlen h
    | cons a rest =>
      simp only [hg] at h
      have hlen₁ : (s.selected ++ [a]).length ≤ max := by
        rw [List.length_append, List.length_singleton]
        omega
      obtain ⟨hout, hprefix⟩ := ih hnodup hlen₁ h
      rw [round_update s.groups hk, List.append_assoc, List.singleton_append] at hprefix
      exact ⟨hout, by rw [round_cons_of_cons hg]; exact hprefix⟩

/-! ## The loop takes the rounds in order -/

/-- The loop returns the first `max` elements of the rounds. -/
theorem drain_eq_take {max : Nat} {order : List κ} {s : State κ α} {n : Nat}
    (hnodup : order.Nodup) (hlen : s.selected.length ≤ max)
    (hn : ∀ k ∈ order, (s.groups k).length ≤ n) :
    drain max order s = (s.selected ++ rounds order s.groups n).take max := by
  -- on the number of rounds that are left: a pass that goes on takes one of them
  induction n generalizing s with
  | zero =>
    have hempty : ∀ k ∈ order, s.groups k = [] :=
      fun k hk => List.length_eq_zero_iff.mp (Nat.le_zero.mp (hn k hk))
    rw [rounds_eq_nil hempty, List.append_nil, List.take_of_length_le hlen, drain]
    split
    · rename_i out h
      obtain ⟨hout, hprefix⟩ := pass_returned hnodup hlen h
      rw [round_eq_nil_iff.mpr hempty, List.append_nil] at hprefix
      exact hprefix.eq_of_length_le (by omega)
    · rename_i s' h
      obtain ⟨-, -, hp, -⟩ := pass_finished hnodup hlen h
      rw [round_eq_nil_iff.mpr hempty] at hp
      cases hp
    · rename_i s' h
      obtain ⟨hsel, -, -, -⟩ := pass_finished hnodup hlen h
      rw [hsel, round_eq_nil_iff.mpr hempty, List.append_nil]
  | succ n ih =>
    rw [drain, rounds_succ]
    split
    · rename_i out h
      obtain ⟨hout, hprefix⟩ := pass_returned hnodup hlen h
      have hprefix' := hprefix.trans
        (List.prefix_append _ (rounds order (tails order s.groups) n))
      rw [List.append_assoc] at hprefix'
      rw [← hout]
      exact List.prefix_iff_eq_take.mp hprefix'
    · rename_i s' h
      obtain ⟨hsel, hgroups, -, hlen'⟩ := pass_finished hnodup hlen h
      have hn' : ∀ k ∈ order, (s'.groups k).length ≤ n := by
        intro k hk
        have := hn k hk
        rw [hgroups, tails, if_pos hk, List.length_tail]
        omega
      rw [ih hlen' hn', hsel, hgroups, List.append_assoc]
    · rename_i s' h
      obtain ⟨hsel, -, hp, hlen'⟩ := pass_finished hnodup hlen h
      have hempty : ∀ k ∈ order, s.groups k = [] := by
        rw [← round_eq_nil_iff]
        simpa using hp
      have htails : ∀ k ∈ order, tails order s.groups k = [] := by
        intro k hk
        rw [tails, if_pos hk, hempty k hk, List.tail_nil]
      rw [rounds_eq_nil htails, List.append_nil, ← hsel, List.take_of_length_le hlen']

/-! ## The rounds hold every element once -/

theorem round_append_tails_perm {order : List κ} (groups : κ → List α) (hnodup : order.Nodup) :
    (round order groups 0 ++ order.flatMap (tails order groups)).Perm (order.flatMap groups) := by
  have hcongr : order.flatMap (tails order groups) = order.flatMap fun k => (groups k).tail := by
    apply List.flatMap_congr
    intro k hk
    rw [tails, if_pos hk]
  rw [hcongr]
  clear hcongr
  induction order with
  | nil => exact List.Perm.nil
  | cons k order ih =>
    have ih := ih (List.nodup_cons.mp hnodup).2
    rw [List.flatMap_cons, List.flatMap_cons]
    cases hg : groups k with
    | nil =>
      rw [round_cons_of_nil hg]
      exact ih
    | cons a rest =>
      rw [round_cons_of_cons hg, List.tail_cons, List.cons_append, List.cons_append]
      refine List.Perm.cons a ?_
      -- the rest of the group stands behind the heads of the later groups
      have hswap : (round order groups 0 ++ rest).Perm (rest ++ round order groups 0) :=
        List.perm_append_comm
      rw [← List.append_assoc]
      refine (hswap.append_right _).trans ?_
      rw [List.append_assoc]
      exact ih.append_left rest

theorem rounds_perm {order : List κ} {groups : κ → List α} {n : Nat} (hnodup : order.Nodup)
    (hn : ∀ k ∈ order, (groups k).length ≤ n) :
    (rounds order groups n).Perm (order.flatMap groups) := by
  induction n generalizing groups with
  | zero =>
    have hempty : ∀ k ∈ order, groups k = [] :=
      fun k hk => List.length_eq_zero_iff.mp (Nat.le_zero.mp (hn k hk))
    rw [rounds_eq_nil hempty, List.flatMap_eq_nil_iff.mpr hempty]
  | succ n ih =>
    have hn' : ∀ k ∈ order, (tails order groups k).length ≤ n := by
      intro k hk
      have := hn k hk
      rw [tails, if_pos hk, List.length_tail]
      omega
    rw [rounds_succ]
    exact ((ih hn').append_left _).trans (round_append_tails_perm groups hnodup)

/-! ## Grouping by a key -/

/-- The groups of a list hold its elements. -/
theorem flatMap_filter_perm {key : α → κ} {keys : List κ} {l : List α} (hnodup : keys.Nodup)
    (hmem : ∀ a ∈ l, key a ∈ keys) :
    (keys.flatMap fun k => l.filter fun a => key a == k).Perm l := by
  induction l with
  | nil => simp
  | cons a l ih =>
    have ih := ih fun b hb => hmem b (List.mem_cons_of_mem a hb)
    -- `a` is the head of its own group and in no other
    obtain ⟨before, after, rfl⟩ := List.append_of_mem (hmem a List.mem_cons_self)
    obtain ⟨hbefore, hafter⟩ : key a ∉ before ∧ key a ∉ after := by
      rw [List.nodup_append, List.nodup_cons] at hnodup
      exact ⟨fun h => hnodup.2.2 _ h _ List.mem_cons_self rfl, hnodup.2.1.1⟩
    have hother : ∀ ks : List κ, key a ∉ ks →
        (ks.flatMap fun k => (a :: l).filter fun b => key b == k) =
          ks.flatMap fun k => l.filter fun b => key b == k := by
      intro ks hks
      apply List.flatMap_congr
      intro k hk
      have hne : key a ≠ k := fun he => hks (he ▸ hk)
      rw [List.filter_cons_of_neg (by simpa using hne)]
    rw [List.flatMap_append, List.flatMap_cons] at ih ⊢
    rw [hother before hbefore, hother after hafter, List.filter_cons_of_pos (by simp),
      List.cons_append]
    exact List.perm_middle.trans (ih.cons a)

end RoundRobin
