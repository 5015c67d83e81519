import Mathlib.Algebra.BigOperators.Group.Finset.Basic
import Mathlib.Data.List.Perm.Basic

/-!
# What the parties hold

`hold a` is what a party in state `a` holds. One party moves at a time. The parties' states are a
list in which the mover is replaced, or a function that is updated at the mover.

* `perm_filterMap_set` — a move changes what all hold by what the mover gave and got
* `count_set` — the same for the number of parties in one state
* `perm_filterMap_orElse` — two kinds of holding, counted together and apart
* `sum_hold_update` — the same for what is counted, over a fixed set of parties
-/

namespace Holdings

variable {α β : Type*}

theorem filterMap_cons_toList (hold : α → Option β) (a : α) (as : List α) :
    (a :: as).filterMap hold = (hold a).toList ++ as.filterMap hold := by
  cases h : hold a <;> simp [h]

/-- A move puts the mover's new state in the place of its old one. -/
theorem cons_set_perm {as : List α} {i : Nat} {a : α} (h : as[i]? = some a) (a' : α) :
    (a :: as.set i a').Perm (a' :: as) := by
  obtain ⟨hi, rfl⟩ := List.getElem?_eq_some_iff.mp h
  calc as[i] :: as.set i a'
    _ |>.Perm (as[i] :: a' :: as.eraseIdx i) := (List.set_perm_cons_eraseIdx hi a').cons _
    _ |>.Perm (a' :: as[i] :: as.eraseIdx i) := .swap ..
    _ |>.Perm (a' :: as) := (List.getElem_cons_eraseIdx_perm hi).cons _

/-- What all hold after a move, with what the mover held before it. -/
theorem perm_filterMap_set (hold : α → Option β) {as : List α} {i : Nat} {a : α}
    (h : as[i]? = some a) (a' : α) :
    ((hold a).toList ++ (as.set i a').filterMap hold).Perm
      ((hold a').toList ++ as.filterMap hold) := by
  have hp := (cons_set_perm h a').filterMap hold
  rwa [filterMap_cons_toList, filterMap_cons_toList] at hp

/-- How many are in state `b` after a move. -/
theorem count_set [BEq α] {as : List α} {i : Nat} {a : α} (h : as[i]? = some a) (a' b : α) :
    (as.set i a').count b + (if a == b then 1 else 0) =
      as.count b + if a' == b then 1 else 0 := by
  have hp := (cons_set_perm h a').countP_eq (· == b)
  rwa [List.countP_cons, List.countP_cons] at hp

/-- Two kinds of holding, counted together and apart. -/
theorem perm_filterMap_orElse (f g : α → Option β) (h : ∀ a, f a = none ∨ g a = none)
    (as : List α) :
    (as.filterMap fun a => f a <|> g a).Perm (as.filterMap f ++ as.filterMap g) := by
  induction as with
  | nil => simp
  | cons a as ih =>
    cases hf : f a with
    | some b =>
      have hg : g a = none := by
        rcases h a with h | h
        · simp [hf] at h
        · exact h
      simpa [hf, hg] using ih
    | none =>
      cases hg : g a with
      | none => simpa [hf, hg] using ih
      | some c =>
        simpa [hf, hg] using (ih.cons c).trans List.perm_middle.symm

/-! ## A fixed set of parties -/

/-- What all hold after a move, with what the mover held before it. -/
theorem sum_hold_update {ι M : Type*} [Fintype ι] [DecidableEq ι] [AddCommMonoid M] (hold : α → M)
    (as : ι → α) (i : ι) (a : α) :
    ∑ j, hold (Function.update as i a j) + hold (as i) = ∑ j, hold (as j) + hold a := by
  have hrest : ∑ j ∈ Finset.univ.erase i, hold (Function.update as i a j) =
      ∑ j ∈ Finset.univ.erase i, hold (as j) :=
    Finset.sum_congr rfl fun j hj => by rw [Function.update_of_ne (Finset.ne_of_mem_erase hj)]
  rw [← Finset.add_sum_erase _ _ (Finset.mem_univ i), hrest, Function.update_self,
    ← Finset.add_sum_erase _ (fun j => hold (as j)) (Finset.mem_univ i)]
  rw [add_comm (hold a), add_comm (hold (as i)), add_assoc, add_assoc, add_comm (hold a)]

end Holdings
