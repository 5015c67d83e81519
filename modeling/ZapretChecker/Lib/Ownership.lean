import Mathlib.Data.List.Nodup
import Mathlib.Logic.Function.Basic

/-!
# Owned resources

Parties `ι` share a list of live resources. `own i` is the resource party `i` owns, if any.

* `Owned` — every live resource has exactly one owner, and every owned resource is live
* `Owned.acquire`, `Owned.release` — the two ways ownership changes
* `Owned.nodup_map_key` — when a resource carries its owner's key, no key occurs twice
* `nodup_map_append`, `map_erase_of_nodup` — keys that do not occur twice, when a resource comes or
  leaves
-/

namespace Ownership

variable {ι α κ : Type*}

/-- The live resources are those the parties own, each owned once. -/
structure Owned (own : ι → Option α) (live : List α) : Prop where
  nodup : live.Nodup
  live_of_own : ∀ i x, own i = some x → x ∈ live
  covered : ∀ x ∈ live, ∃ i, own i = some x
  unique : ∀ i j x, own i = some x → own j = some x → i = j

theorem owned_nil {own : ι → Option α} (h : ∀ i, own i = none) : Owned own [] where
  nodup := List.nodup_nil
  live_of_own i x hx := by simp [h i] at hx
  covered x hx := by simp at hx
  unique i j x hx := by simp [h i] at hx

variable [DecidableEq ι]

/-- A party without a resource acquires one that is not live yet. -/
theorem Owned.acquire {own : ι → Option α} {live : List α} (ho : Owned own live) {i : ι} {x : α}
    (hi : own i = none) (hx : x ∉ live) :
    Owned (Function.update own i (some x)) (live ++ [x]) where
  nodup := List.nodup_append_comm.mp (List.nodup_cons.mpr ⟨hx, ho.nodup⟩)
  live_of_own j y hy := by
    by_cases hj : j = i
    · subst hj
      rw [Function.update_self, Option.some.injEq] at hy
      simp [hy]
    · rw [Function.update_of_ne hj] at hy
      exact List.mem_append_left _ (ho.live_of_own j y hy)
  covered y hy := by
    rcases List.mem_append.mp hy with hy | hy
    · obtain ⟨j, hj⟩ := ho.covered y hy
      have hne : j ≠ i := by
        intro he
        rw [he, hi] at hj
        simp at hj
      exact ⟨j, by rw [Function.update_of_ne hne]; exact hj⟩
    · exact ⟨i, by rw [Function.update_self, List.mem_singleton.mp hy]⟩
  unique j k y hj hk := by
    have hlive : ∀ m, m ≠ i → Function.update own i (some x) m = some y → y ∈ live := by
      intro m hm h
      rw [Function.update_of_ne hm] at h
      exact ho.live_of_own m y h
    have hself : Function.update own i (some x) i = some y → y ∉ live := by
      intro h
      rw [Function.update_self, Option.some.injEq] at h
      exact h ▸ hx
    by_cases hji : j = i
    · by_cases hki : k = i
      · rw [hji, hki]
      · exact absurd (hlive k hki hk) (hself (hji ▸ hj))
    · by_cases hki : k = i
      · exact absurd (hlive j hji hj) (hself (hki ▸ hk))
      · rw [Function.update_of_ne hji] at hj
        rw [Function.update_of_ne hki] at hk
        exact ho.unique j k y hj hk

/-- A party releases its resource. -/
theorem Owned.release [DecidableEq α] {own : ι → Option α} {live : List α} (ho : Owned own live)
    {i : ι} {x : α} (hi : own i = some x) :
    Owned (Function.update own i none) (live.erase x) := by
  have hkeep : ∀ j y, Function.update own i none j = some y → j ≠ i ∧ own j = some y := by
    intro j y hy
    have hj : j ≠ i := by
      rintro rfl
      rw [Function.update_self] at hy
      simp at hy
    rw [Function.update_of_ne hj] at hy
    exact ⟨hj, hy⟩
  refine ⟨ho.nodup.erase x, ?_, ?_, ?_⟩
  · intro j y hy
    obtain ⟨hj, hy⟩ := hkeep j y hy
    have hne : y ≠ x := fun he => hj (ho.unique j i x (he ▸ hy) hi)
    exact (List.mem_erase_of_ne hne).mpr (ho.live_of_own j y hy)
  · intro y hy
    obtain ⟨hne, hy⟩ := ho.nodup.mem_erase_iff.mp hy
    obtain ⟨j, hj⟩ := ho.covered y hy
    have hji : j ≠ i := by
      rintro rfl
      exact hne (Option.some.inj (hj.symm.trans hi))
    exact ⟨j, by rw [Function.update_of_ne hji]; exact hj⟩
  · intro j k y hj hk
    exact ho.unique j k y (hkeep j y hj).2 (hkeep k y hk).2

/-! ## Keys -/

omit [DecidableEq ι]

/-- When a resource carries its owner's key, no key occurs twice. -/
theorem Owned.nodup_map_key {own : ι → Option α} {live : List α} (ho : Owned own live)
    {key : α → κ} {keyOf : ι → κ} (hkey : ∀ i x, own i = some x → key x = keyOf i)
    (hinj : Function.Injective keyOf) : (live.map key).Nodup := by
  refine ho.nodup.map_on ?_
  intro x hx y hy hxy
  obtain ⟨i, hi⟩ := ho.covered x hx
  obtain ⟨j, hj⟩ := ho.covered y hy
  rw [hkey i x hi, hkey j y hj] at hxy
  rw [hinj hxy] at hi
  exact Option.some.inj (hi.symm.trans hj)

/-- A party that owns nothing has no live resource under its key. -/
theorem Owned.key_ne {own : ι → Option α} {live : List α} (ho : Owned own live) (key : α → κ)
    {keyOf : ι → κ} (hkey : ∀ i x, own i = some x → key x = keyOf i)
    (hinj : Function.Injective keyOf) {i : ι} (hi : own i = none) {x : α} (hx : x ∈ live) :
    key x ≠ keyOf i := by
  intro he
  obtain ⟨j, hj⟩ := ho.covered x hx
  rw [hkey j x hj] at he
  rw [hinj he, hi] at hj
  simp at hj

/-- A resource with a new key comes. -/
theorem nodup_map_append {key : α → κ} {live : List α} {x : α} (h : (live.map key).Nodup)
    (hx : ∀ y ∈ live, key y ≠ key x) : ((live ++ [x]).map key).Nodup := by
  rw [List.map_append, List.map_singleton]
  refine List.nodup_append_comm.mp (List.nodup_cons.mpr ⟨fun hmem => ?_, h⟩)
  obtain ⟨y, hy, hkey⟩ := List.mem_map.mp hmem
  exact hx y hy hkey

/-- Where no key occurs twice, an entry leaves with its key. -/
theorem map_erase_of_nodup [DecidableEq α] [DecidableEq κ] {key : α → κ} {live : List α}
    (hnodup : (live.map key).Nodup) {x : α} (hx : x ∈ live) :
    (live.erase x).map key = (live.map key).erase (key x) := by
  induction live with
  | nil => simp at hx
  | cons y live ih =>
    rw [List.map_cons, List.nodup_cons] at hnodup
    by_cases hy : y = x
    · rw [hy, List.erase_cons_head, List.map_cons, List.erase_cons_head]
    · have hmem : x ∈ live := (List.mem_cons.mp hx).resolve_left (Ne.symm hy)
      have hkey : key y ≠ key x := fun he => hnodup.1 (he ▸ List.mem_map_of_mem hmem)
      rw [List.erase_cons_tail (by simpa using hy), List.map_cons, List.map_cons,
        List.erase_cons_tail (by simpa using hkey), ih hnodup.2 hmem]

end Ownership
