import Mathlib.Data.List.Perm.Basic
import Mathlib.Data.Prod.Lex
import Mathlib.Order.Defs.LinearOrder

/-!
# Greedy orders

A list is in greedy order when it starts with the least element and goes on with the element that
is least as seen from the one before. Keys of a partial order say what is least; where no key
repeats there is only one such order.

* `minBy`, `minIndex` — `Iterator::min_by`: the first of the least elements
* `GreedyOrder` — the order
* `GreedyOrder.unique` — there is only one
-/

namespace Greedy

variable {α K L : Type*}

/-! ## Comparisons and keys -/

/-- `cmp` compares by `key`. -/
def ComparesBy [LT K] (cmp : α → α → Ordering) (key : α → K) : Prop :=
  ∀ a b, cmp a b = .gt ↔ key b < key a

theorem comparesBy_compareOn [LinearOrder K] (key : α → K) : ComparesBy (compareOn key) key :=
  fun _ _ => compare_gt_iff_gt

/-- Comparing by one key and then by another is comparing by the pair. -/
theorem ComparesBy.lex [LinearOrder K] [LinearOrder L] {cmp : α → α → Ordering} {next : α → L}
    (h : ComparesBy cmp next) (key : α → K) :
    ComparesBy (compareLex (compareOn key) cmp) fun a => toLex (key a, next a) := by
  intro a b
  rw [Prod.Lex.toLex_lt_toLex, ← h a b]
  show (compare (key a) (key b)).then (cmp a b) = .gt ↔ _
  rcases lt_trichotomy (key a) (key b) with hlt | heq | hgt
  · rw [compare_lt_iff_lt.mpr hlt]
    simp [hlt.ne', hlt.not_gt]
  · rw [compare_eq_iff_eq.mpr heq]
    simp [heq]
  · rw [compare_gt_iff_gt.mpr hgt]
    simp [hgt]

/-! ## The least element -/

/-- `Iterator::min_by`: the first of the least elements. -/
def minBy (cmp : α → α → Ordering) : List α → Option α
  | [] => none
  | a :: l => some (l.foldl (fun least b => if cmp least b = .gt then b else least) a)

/-- The position that `min_by` finds on the enumerated elements. -/
def minIndex (cmp : α → α → Ordering) (l : List α) : Option Nat :=
  (minBy (fun a b => cmp a.1 b.1) l.zipIdx).map Prod.snd

theorem foldl_least [LinearOrder K] {cmp : α → α → Ordering} {key : α → K}
    (h : ComparesBy cmp key) (l : List α) (a : α) :
    l.foldl (fun least b => if cmp least b = .gt then b else least) a ∈ a :: l ∧
      ∀ b ∈ a :: l,
        key (l.foldl (fun least b => if cmp least b = .gt then b else least) a) ≤ key b := by
  induction l generalizing a with
  | nil =>
    refine ⟨List.mem_cons_self, ?_⟩
    intro b hb
    rw [List.mem_singleton.mp hb]
    exact le_refl _
  | cons c l ih =>
    rw [List.foldl_cons]
    by_cases hgt : cmp a c = .gt
    · rw [if_pos hgt]
      obtain ⟨hmem, hle⟩ := ih c
      refine ⟨List.mem_cons_of_mem a hmem, ?_⟩
      intro b hb
      rcases List.mem_cons.mp hb with rfl | hb
      · exact (hle c List.mem_cons_self).trans ((h b c).mp hgt).le
      · exact hle b hb
    · rw [if_neg hgt]
      obtain ⟨hmem, hle⟩ := ih a
      have hac : key a ≤ key c := not_lt.mp fun hlt => hgt ((h a c).mpr hlt)
      refine ⟨?_, ?_⟩
      · rcases List.mem_cons.mp hmem with heq | hmem
        · exact List.mem_cons.mpr (Or.inl heq)
        · exact List.mem_cons_of_mem a (List.mem_cons_of_mem c hmem)
      · intro b hb
        rcases List.mem_cons.mp hb with rfl | hb
        · exact hle b List.mem_cons_self
        · rcases List.mem_cons.mp hb with rfl | hb
          · exact (hle a List.mem_cons_self).trans hac
          · exact hle b (List.mem_cons_of_mem a hb)

theorem minBy_spec [LinearOrder K] {cmp : α → α → Ordering} {key : α → K}
    (h : ComparesBy cmp key) {l : List α} (hl : l ≠ []) :
    ∃ a ∈ l, minBy cmp l = some a ∧ ∀ b ∈ l, key a ≤ key b := by
  cases l with
  | nil => exact absurd rfl hl
  | cons a l =>
    obtain ⟨hmem, hle⟩ := foldl_least h l a
    exact ⟨_, hmem, rfl, hle⟩

/-- Something is least in a list that is not empty, at a position within the list. -/
theorem minIndex_spec [LinearOrder K] {cmp : α → α → Ordering} {key : α → K}
    (h : ComparesBy cmp key) {l : List α} (hl : l ≠ []) :
    ∃ i a, minIndex cmp l = some i ∧ l[i]? = some a ∧ ∀ b ∈ l, key a ≤ key b := by
  have henumerated : ComparesBy (fun a b : α × Nat => cmp a.1 b.1) fun a => key a.1 :=
    fun a b => h a.1 b.1
  have hne : l.zipIdx ≠ [] := by
    rwa [ne_eq, List.zipIdx_eq_nil_iff]
  obtain ⟨⟨a, i⟩, hmem, hmin, hle⟩ := minBy_spec henumerated hne
  refine ⟨i, a, ?_, List.mem_zipIdx_iff_getElem?.mp hmem, ?_⟩
  · rw [minIndex, hmin]
    rfl
  · intro b hb
    obtain ⟨j, hj⟩ := List.mem_iff_getElem?.mp hb
    exact hle (b, j) (List.mem_zipIdx_iff_getElem?.mpr hj)

/-! ## The order -/

/-- Each element is least among itself and what follows, as seen from the one before it. -/
def Follows [LE K] (step : α → α → K) : α → List α → Prop
  | _, [] => True
  | last, a :: rest => (∀ b ∈ rest, step last a ≤ step last b) ∧ Follows step a rest

structure GreedyOrder [LE K] [LE L] (start : α → K) (step : α → α → L) (out : List α) : Prop where
  /-- The first element is least. -/
  first : ∀ a rest, out = a :: rest → ∀ b ∈ rest, start a ≤ start b
  /-- An element is least among those that are not placed yet. -/
  next : ∀ front last a rest, out = front ++ last :: a :: rest →
    ∀ b ∈ rest, step last a ≤ step last b

theorem Follows.next [LE K] {step : α → α → K} {first : α} {l : List α} (h : Follows step first l)
    {front rest : List α} {last a : α} (hl : first :: l = front ++ last :: a :: rest) :
    ∀ b ∈ rest, step last a ≤ step last b := by
  induction l generalizing first front with
  | nil =>
    have hlength := congrArg List.length hl
    simp at hlength
    omega
  | cons c l ih =>
    cases front with
    | nil =>
      obtain ⟨rfl, hrest⟩ := List.cons.inj hl
      obtain ⟨rfl, rfl⟩ := List.cons.inj hrest
      exact h.1
    | cons d front =>
      obtain ⟨rfl, hrest⟩ := List.cons.inj hl
      exact ih h.2 hrest

theorem follows_of_next [LE K] {step : α → α → K} {first : α} {l : List α}
    (h : ∀ front last a rest, first :: l = front ++ last :: a :: rest →
      ∀ b ∈ rest, step last a ≤ step last b) : Follows step first l := by
  induction l generalizing first with
  | nil => trivial
  | cons c l ih =>
    refine ⟨h [] first c l rfl, ih ?_⟩
    intro front last a rest hl
    exact h (first :: front) last a rest (congrArg (first :: ·) hl)

theorem greedyOrder_nil [LE K] [LE L] {start : α → K} {step : α → α → L} :
    GreedyOrder start step [] where
  first _ _ h := absurd h.symm (List.cons_ne_nil _ _)
  next front _ _ _ h := by
    have hlength := congrArg List.length h
    simp at hlength

theorem greedyOrder_cons_iff [LE K] [LE L] {start : α → K} {step : α → α → L} {first : α}
    {l : List α} :
    GreedyOrder start step (first :: l) ↔
      (∀ b ∈ l, start first ≤ start b) ∧ Follows step first l := by
  constructor
  · intro h
    exact ⟨h.first first l rfl, follows_of_next h.next⟩
  · rintro ⟨hfirst, hfollows⟩
    refine ⟨?_, fun front last a rest hl => hfollows.next hl⟩
    intro a rest hl
    obtain ⟨rfl, rfl⟩ := List.cons.inj hl
    exact hfirst

/-! ## Uniqueness -/

/-- No two elements of `l` have the same key. -/
def KeysDiffer (key : α → K) (l : List α) : Prop := ∀ a ∈ l, ∀ b ∈ l, key a = key b → a = b

theorem KeysDiffer.tail {key : α → K} {a : α} {l : List α} (h : KeysDiffer key (a :: l)) :
    KeysDiffer key l :=
  fun b hb c hc => h b (List.mem_cons_of_mem a hb) c (List.mem_cons_of_mem a hc)

/-- Only one element is least, where no key repeats. -/
theorem least_unique [PartialOrder K] {key : α → K} {a a' : α} {rest rest' : List α}
    (hinj : KeysDiffer key (a :: rest))
    (hperm : (a :: rest).Perm (a' :: rest')) (h : ∀ b ∈ rest, key a ≤ key b)
    (h' : ∀ b ∈ rest', key a' ≤ key b) : a = a' := by
  have ha' : a' ∈ a :: rest := hperm.mem_iff.mpr List.mem_cons_self
  refine hinj a List.mem_cons_self a' ha' (le_antisymm ?_ ?_)
  · rcases List.mem_cons.mp ha' with rfl | hmem
    · exact le_refl _
    · exact h a' hmem
  · rcases List.mem_cons.mp (hperm.mem_iff.mp List.mem_cons_self) with rfl | hmem
    · exact le_refl _
    · exact h' a hmem

theorem Follows.unique [PartialOrder K] {step : α → α → K} {last : α} {l l' : List α}
    (hkeys : ∀ last, KeysDiffer (step last) l) (hperm : l.Perm l')
    (h : Follows step last l) (h' : Follows step last l') : l = l' := by
  induction l generalizing last l' with
  | nil => exact hperm.nil_eq
  | cons a rest ih =>
    cases l' with
    | nil => exact absurd hperm (List.not_perm_cons_nil)
    | cons a' rest' =>
      obtain rfl : a = a' := least_unique (hkeys last) hperm h.1 h'.1
      rw [ih (fun last => (hkeys last).tail) hperm.cons_inv h.2 h'.2]

theorem GreedyOrder.unique [PartialOrder K] [PartialOrder L] {start : α → K} {step : α → α → L}
    {l l' : List α} (hstart : KeysDiffer start l) (hstep : ∀ last, KeysDiffer (step last) l)
    (hperm : l.Perm l') (h : GreedyOrder start step l) (h' : GreedyOrder start step l') :
    l = l' := by
  cases l with
  | nil => exact hperm.nil_eq
  | cons a rest =>
    cases l' with
    | nil => exact absurd hperm (List.not_perm_cons_nil)
    | cons a' rest' =>
      obtain ⟨hfirst, hfollows⟩ := greedyOrder_cons_iff.mp h
      obtain ⟨hfirst', hfollows'⟩ := greedyOrder_cons_iff.mp h'
      obtain rfl : a = a' := least_unique hstart hperm hfirst hfirst'
      rw [hfollows.unique (fun last => (hstep last).tail) hperm.cons_inv hfollows']

end Greedy
