import Mathlib.Data.List.Forall2
import Mathlib.Data.List.Perm.Basic
import Mathlib.Data.Multiset.Bind
import Mathlib.Logic.Function.Basic

/-!
# Assignments

Every way to give each key one of its values, in the order of the product.

* `assignments` — the product of the values, the last key varying fastest
* `foldl_extend` — as a loop that extends every assignment it has
* `perm_map_assigned` — the order of the keys does not change what is assigned
-/

namespace Assignments

variable {κ ν : Type*}

/-- The product of the values of the keys. The last one varies fastest. -/
def assignments : List (κ × List ν) → List (List (κ × ν))
  | [] => [[]]
  | (key, values) :: params =>
    values.flatMap fun value => (assignments params).map fun rest => (key, value) :: rest

theorem mem_assignments_iff {params : List (κ × List ν)} {assignment : List (κ × ν)} :
    assignment ∈ assignments params ↔
      List.Forall₂ (fun a p => a.1 = p.1 ∧ a.2 ∈ p.2) assignment params := by
  induction params generalizing assignment with
  | nil => simp [assignments]
  | cons p params ih =>
    obtain ⟨key, values⟩ := p
    simp only [assignments, List.mem_flatMap, List.mem_map, List.forall₂_cons_right_iff, ih]
    constructor
    · rintro ⟨value, hvalue, rest, hrest, rfl⟩
      exact ⟨(key, value), rest, ⟨rfl, hvalue⟩, hrest, rfl⟩
    · rintro ⟨⟨_, value⟩, rest, ⟨rfl, hvalue⟩, hrest, rfl⟩
      exact ⟨value, hvalue, rest, hrest, rfl⟩

theorem keys_of_mem {params : List (κ × List ν)} {assignment : List (κ × ν)}
    (h : assignment ∈ assignments params) : assignment.map (·.1) = params.map (·.1) := by
  rw [mem_assignments_iff] at h
  induction h with
  | nil => rfl
  | cons hhead _ ih => rw [List.map_cons, List.map_cons, hhead.1, ih]

/-- What is assigned is one of the values. -/
theorem exists_of_mem {params : List (κ × List ν)} {assignment : List (κ × ν)}
    (h : assignment ∈ assignments params) {a : κ × ν} (ha : a ∈ assignment) :
    ∃ p ∈ params, a.1 = p.1 ∧ a.2 ∈ p.2 := by
  rw [mem_assignments_iff] at h
  induction h with
  | nil => cases ha
  | @cons b p _ _ hhead _ ih =>
    rcases List.mem_cons.mp ha with rfl | ha
    · exact ⟨p, List.mem_cons_self, hhead⟩
    · obtain ⟨p, hp, hmem⟩ := ih ha
      exact ⟨p, List.mem_cons_of_mem _ hp, hmem⟩

/-- The loop that extends what it has with the next key. -/
theorem foldl_extend (params : List (κ × List ν)) (out : List (List (κ × ν))) :
    params.foldl (fun out p =>
        out.flatMap fun existing => p.2.map fun value => existing ++ [(p.1, value)]) out =
      out.flatMap fun existing => (assignments params).map fun rest => existing ++ rest := by
  induction params generalizing out with
  | nil => simp [assignments]
  | cons p params ih =>
    obtain ⟨key, values⟩ := p
    rw [List.foldl_cons, ih]
    simp [assignments, List.flatMap_assoc, List.flatMap_map, List.map_flatMap, Function.comp_def]

section Lookup

variable [DecidableEq κ]

/-- What is assigned to a key. -/
def assigned (assignment : List (κ × ν)) : κ → Option ν := fun key => assignment.lookup key

theorem assigned_cons (key : κ) (value : ν) (rest : List (κ × ν)) :
    assigned ((key, value) :: rest) = Function.update (assigned rest) key (some value) := by
  funext k
  by_cases h : k = key
  · simp [assigned, h]
  · simp [assigned, List.lookup_cons, h, beq_false_of_ne h]

theorem map_assigned_cons (key : κ) (values : List ν) (params : List (κ × List ν)) :
    (assignments ((key, values) :: params)).map assigned =
      values.flatMap fun value => ((assignments params).map assigned).map fun assigned =>
        Function.update assigned key (some value) := by
  rw [assignments, List.map_flatMap]
  refine List.flatMap_congr fun value _ => ?_
  rw [List.map_map, List.map_map]
  exact List.map_congr_left fun rest _ => assigned_cons key value rest

/-- The order of the loops does not change what comes out. -/
theorem perm_flatMap_flatMap {α β γ : Type*} (l : List α) (m : List β) (f : α → β → List γ) :
    (l.flatMap fun a => m.flatMap fun b => f a b).Perm
      (m.flatMap fun b => l.flatMap fun a => f a b) := by
  have h := Multiset.bind_bind (l : Multiset α) (m : Multiset β)
    (f := fun a b => (f a b : Multiset γ))
  simp only [Multiset.coe_bind] at h
  exact Multiset.coe_eq_coe.mp h

theorem perm_map_assigned {params params' : List (κ × List ν)} (h : params.Perm params')
    (hkeys : (params.map (·.1)).Nodup) :
    ((assignments params).map assigned).Perm ((assignments params').map assigned) := by
  induction h with
  | nil => exact List.Perm.refl _
  | cons p _ ih =>
    obtain ⟨key, values⟩ := p
    rw [map_assigned_cons, map_assigned_cons]
    exact List.Perm.flatMap_left _ fun value _ => (ih (List.nodup_cons.mp hkeys).2).map _
  | swap p q params =>
    obtain ⟨key, values⟩ := p
    obtain ⟨key', values'⟩ := q
    have hne : key' ≠ key := by
      intro h
      simp [h] at hkeys
    simp only [map_assigned_cons, List.map_flatMap, List.map_map]
    refine (perm_flatMap_flatMap _ _ _).trans (List.Perm.of_eq ?_)
    refine List.flatMap_congr fun value _ => List.flatMap_congr fun value' _ => ?_
    refine List.map_congr_left fun rest _ => ?_
    exact Function.update_comm hne.symm _ _ _
  | trans hfirst _ ihfirst ihsecond =>
    exact (ihfirst hkeys).trans (ihsecond ((hfirst.map _).nodup_iff.mp hkeys))

/-- What is read off the assignments comes out in another order only. -/
theorem perm_filterMap {γ : Type*} {params params' : List (κ × List ν)} (h : params.Perm params')
    (hkeys : (params.map (·.1)).Nodup) {f : List (κ × ν) → Option γ}
    (hf : f.FactorsThrough assigned) :
    ((assignments params).filterMap f).Perm ((assignments params').filterMap f) := by
  have hfilter (l : List (List (κ × ν))) :
      l.filterMap f = (l.map assigned).filterMap (Function.extend assigned f fun _ => none) := by
    rw [List.filterMap_map]
    refine List.filterMap_congr fun assignment _ => ?_
    exact (hf.extend_apply _ assignment).symm
  rw [hfilter, hfilter]
  exact (perm_map_assigned h hkeys).filterMap _

end Lookup

end Assignments
