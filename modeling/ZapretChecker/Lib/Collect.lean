import Mathlib.Data.List.Nodup
import Mathlib.Data.List.Basic
import Mathlib.Data.List.TakeWhile

/-!
# Collecting without duplicates

A loop that fills a vector and skips an element whose key it has seen before. What such a loop
collects is `firstOf`: the elements that are the first with their key.

* `Acc.push` — one step of the loop; the element it makes may depend on its position
* `foldl_push_out` — the whole loop
* `map_mapIdx_of_forall` — what the elements have whatever their positions
* `mem_firstOf_iff`, `nodup_map_firstOf`, `key_mem_firstOf_iff` — what is collected
-/

namespace Collect

variable {α β κ : Type*}

/-- The keys seen so far and the elements collected so far. -/
structure Acc (κ β : Type*) where
  seen : List κ
  out : List β

def Acc.empty : Acc κ β := ⟨[], []⟩

variable [DecidableEq κ]

/-- Skip `a` if its key was seen, else make an element of it for the next position. -/
def Acc.push (key : α → κ) (make : Nat → α → β) (acc : Acc κ β) (a : α) : Acc κ β :=
  if key a ∈ acc.seen then acc
  else { seen := key a :: acc.seen, out := acc.out ++ [make acc.out.length a] }

/-- The elements whose key is not in `seen` and does not occur before them. -/
def firstOf (key : α → κ) : List κ → List α → List α
  | _, [] => []
  | seen, a :: l => if key a ∈ seen then firstOf key seen l else a :: firstOf key (key a :: seen) l

/-! ## The loop collects the first elements -/

theorem foldl_push_out (key : α → κ) (make : Nat → α → β) (l : List α) (acc : Acc κ β) :
    (l.foldl (Acc.push key make) acc).out =
      acc.out ++ (firstOf key acc.seen l).mapIdx fun i a => make (acc.out.length + i) a := by
  induction l generalizing acc with
  | nil => simp [firstOf]
  | cons a l ih =>
    rw [List.foldl_cons, ih, firstOf]
    by_cases h : key a ∈ acc.seen
    · rw [Acc.push, if_pos h, if_pos h]
    · rw [Acc.push, if_neg h, if_neg h, List.mapIdx_cons, List.append_assoc, List.singleton_append]
      simp [Nat.add_right_comm, Nat.add_assoc]

/-- What does not depend on the position is the same before the elements are made. -/
theorem map_mapIdx_of_forall {γ : Type*} {make : Nat → α → β} {f : β → γ} {g : α → γ}
    (h : ∀ i a, f (make i a) = g a) (l : List α) : (l.mapIdx make).map f = l.map g := by
  apply List.ext_getElem
  · simp
  · intro i _ _
    simp [h]

/-! ## What is collected -/

theorem firstOf_sublist (key : α → κ) (seen : List κ) (l : List α) :
    (firstOf key seen l).Sublist l := by
  induction l generalizing seen with
  | nil => exact List.Sublist.slnil
  | cons a l ih =>
    rw [firstOf]
    split
    · exact (ih seen).cons a
    · exact (ih _).cons_cons a

/-- Where no key repeats, everything is collected. -/
theorem firstOf_eq_self {key : α → κ} {seen : List κ} {l : List α} (hnodup : (l.map key).Nodup)
    (hnew : ∀ a ∈ l, key a ∉ seen) : firstOf key seen l = l := by
  induction l generalizing seen with
  | nil => rfl
  | cons a l ih =>
    obtain ⟨ha, hnodup⟩ := List.nodup_cons.mp hnodup
    rw [firstOf, if_neg (hnew a List.mem_cons_self), ih hnodup]
    intro b hb
    rw [List.mem_cons, not_or]
    exact ⟨fun he => ha (he ▸ List.mem_map_of_mem hb), hnew b (List.mem_cons_of_mem a hb)⟩

/-- An element is collected when its key was neither seen nor occurs before it. -/
theorem mem_firstOf_iff {key : α → κ} {seen : List κ} {l : List α} {a : α} :
    a ∈ firstOf key seen l ↔
      ∃ before after, l = before ++ a :: after ∧ key a ∉ seen ∧ key a ∉ before.map key := by
  induction l generalizing seen with
  | nil => simp [firstOf]
  | cons b l ih =>
    rw [firstOf]
    constructor
    · intro ha
      split at ha
      · rename_i hb
        obtain ⟨before, after, rfl, hseen, hbefore⟩ := ih.mp ha
        refine ⟨b :: before, after, rfl, hseen, ?_⟩
        rw [List.map_cons, List.mem_cons, not_or]
        exact ⟨fun he => hseen (he ▸ hb), hbefore⟩
      · rename_i hb
        rcases List.mem_cons.mp ha with rfl | ha
        · exact ⟨[], l, rfl, hb, List.not_mem_nil⟩
        · obtain ⟨before, after, rfl, hseen, hbefore⟩ := ih.mp ha
          rw [List.mem_cons, not_or] at hseen
          refine ⟨b :: before, after, rfl, hseen.2, ?_⟩
          rw [List.map_cons, List.mem_cons, not_or]
          exact ⟨hseen.1, hbefore⟩
    · rintro ⟨before, after, hl, hseen, hbefore⟩
      cases before with
      | nil =>
        obtain ⟨rfl, rfl⟩ := List.cons.inj hl
        rw [if_neg hseen]
        exact List.mem_cons_self
      | cons c before =>
        obtain ⟨rfl, rfl⟩ := List.cons.inj hl
        rw [List.map_cons, List.mem_cons, not_or] at hbefore
        split
        · exact ih.mpr ⟨before, after, rfl, hseen, hbefore.2⟩
        · refine List.mem_cons_of_mem _ (ih.mpr ⟨before, after, rfl, ?_, hbefore.2⟩)
          rw [List.mem_cons, not_or]
          exact ⟨hbefore.1, hseen⟩

/-- The elements before the first occurrence of `a`. -/
def before [DecidableEq α] (a : α) (l : List α) : List α := l.takeWhile (· ≠ a)

theorem eq_before_append [DecidableEq α] {a : α} {l : List α} (h : a ∈ l) :
    ∃ after, l = before a l ++ a :: after := by
  induction l with
  | nil => exact absurd h List.not_mem_nil
  | cons b l ih =>
    by_cases hb : b = a
    · subst hb
      exact ⟨l, by simp [before]⟩
    · obtain ⟨after, hl⟩ := ih ((List.mem_cons.mp h).resolve_left (Ne.symm hb))
      refine ⟨after, ?_⟩
      rw [before, List.takeWhile_cons_of_pos (by simpa using hb), List.cons_append]
      exact congrArg (b :: ·) hl

theorem mem_of_mem_before [DecidableEq α] {a b : α} {l : List α} (h : b ∈ before a l) :
    b ∈ l ∧ b ≠ a :=
  ⟨(List.takeWhile_sublist _).subset h, by simpa using List.mem_takeWhile_imp h⟩

/-- From the start, an element is collected when no element before it has its key. -/
theorem mem_firstOf_iff_before [DecidableEq α] {key : α → κ} {l : List α} {a : α} :
    a ∈ firstOf key [] l ↔ a ∈ l ∧ ∀ b ∈ before a l, key b ≠ key a := by
  rw [mem_firstOf_iff]
  constructor
  · rintro ⟨l₁, l₂, rfl, -, hkey⟩
    have hnew : ∀ b ∈ l₁, key b ≠ key a := fun b hb he => hkey (List.mem_map.mpr ⟨b, hb, he⟩)
    refine ⟨List.mem_append_right _ List.mem_cons_self, ?_⟩
    have hbefore : before a (l₁ ++ a :: l₂) = l₁ := by
      have hne : ∀ b ∈ l₁, decide (b ≠ a) = true := by
        intro b hb
        simpa using fun he : b = a => hnew b hb (he ▸ rfl)
      rw [before, List.takeWhile_append_of_pos hne]
      simp
    rw [hbefore]
    exact hnew
  · rintro ⟨hmem, hnew⟩
    obtain ⟨after, hl⟩ := eq_before_append hmem
    refine ⟨before a l, after, hl, List.not_mem_nil, ?_⟩
    intro hkey
    obtain ⟨b, hb, he⟩ := List.mem_map.mp hkey
    exact hnew b hb he

/-- A key is collected if it occurs and was not seen. -/
theorem key_mem_firstOf_iff {key : α → κ} {seen : List κ} {l : List α} {k : κ} :
    k ∈ (firstOf key seen l).map key ↔ k ∈ l.map key ∧ k ∉ seen := by
  induction l generalizing seen with
  | nil => simp [firstOf]
  | cons a l ih =>
    rw [firstOf]
    by_cases h : key a ∈ seen
    · rw [if_pos h, ih, List.map_cons, List.mem_cons]
      constructor
      · exact fun hk => ⟨Or.inr hk.1, hk.2⟩
      · rintro ⟨rfl | hk, hs⟩
        · exact absurd h hs
        · exact ⟨hk, hs⟩
    · rw [if_neg h, List.map_cons, List.mem_cons, ih, List.map_cons, List.mem_cons, List.mem_cons]
      constructor
      · rintro (rfl | ⟨hk, hs⟩)
        · exact ⟨Or.inl rfl, h⟩
        · exact ⟨Or.inr hk, fun hm => hs (Or.inr hm)⟩
      · rintro ⟨rfl | hk, hs⟩
        · exact Or.inl rfl
        · by_cases he : k = key a
          · exact Or.inl he
          · exact Or.inr ⟨hk, fun hm => hm.elim he hs⟩

/-- No key is collected twice. -/
theorem nodup_map_firstOf (key : α → κ) (seen : List κ) (l : List α) :
    ((firstOf key seen l).map key).Nodup := by
  induction l generalizing seen with
  | nil => exact List.nodup_nil
  | cons a l ih =>
    rw [firstOf]
    split
    · exact ih seen
    · rw [List.map_cons, List.nodup_cons]
      refine ⟨fun hmem => ?_, ih _⟩
      exact (key_mem_firstOf_iff.mp hmem).2 List.mem_cons_self

end Collect
