import Mathlib.Algebra.BigOperators.Group.List.Basic
import Mathlib.Algebra.Group.Action.Defs
import Mathlib.Algebra.Group.Hom.Defs
import Mathlib.Algebra.Order.Monoid.Defs
import Mathlib.Data.List.Perm.Basic

/-!
# Tallies by key

A map from keys to values, updated entry by entry: an entry opens its key with a start value when
the key is absent, and then adds its amount. Amounts are added in any order, so all that matters is
their total, and which entry opened the key.

* `foldl_record` — the value of a key is its opening value and the total of its amounts
* `foldl_record_perm` — the order of the entries does not matter
* `map_total_nonpos_iff` — a measure that no amount lowers is left alone by the total exactly when
  it is by every amount
-/

namespace Tally

variable {κ V δ : Type*}

structure Entry (κ V δ : Type*) where
  key : κ
  start : V
  amount : δ

variable [DecidableEq κ] [AddCommMonoid δ] [AddAction δ V]

/-- One entry: open the key, and add the amount. -/
def record (m : κ → Option V) (e : Entry κ V δ) : κ → Option V :=
  Function.update m e.key (some (e.amount +ᵥ (m e.key).getD e.start))

/-- The amounts of the key `k`, added up. -/
def total (k : κ) (es : List (Entry κ V δ)) : δ :=
  ((es.filter (·.key = k)).map Entry.amount).sum

omit [AddCommMonoid δ] [AddAction δ V] in
/-- The value of the key `k` before any amount is added: what the map holds, or what the first entry
opens the key with. -/
def opening (m : κ → Option V) (k : κ) (es : List (Entry κ V δ)) : Option V :=
  m k <|> (es.find? (·.key = k)).map Entry.start

omit [AddAction δ V] in
theorem total_cons (k : κ) (e : Entry κ V δ) (es : List (Entry κ V δ)) :
    total k (e :: es) = (if e.key = k then e.amount else 0) + total k es := by
  by_cases h : e.key = k <;> simp [total, h]

/-- **The value of a key** is its opening value and the total of its amounts. -/
theorem foldl_record (es : List (Entry κ V δ)) (m : κ → Option V) (k : κ) :
    es.foldl record m k = (opening m k es).map (total k es +ᵥ ·) := by
  induction es generalizing m with
  | nil => simp [opening, total]
  | cons e es ih =>
    rw [List.foldl_cons, ih, total_cons]
    by_cases h : e.key = k
    · subst h
      have hopen : opening (record m e) e.key es =
          some (e.amount +ᵥ (m e.key).getD e.start) := by
        simp [opening, record]
      have hstart : opening m e.key (e :: es) = some ((m e.key).getD e.start) := by
        cases hm : m e.key <;> simp [opening, hm]
      rw [hopen, hstart, if_pos rfl, Option.map_some, Option.map_some, vadd_vadd,
        add_comm e.amount]
    · have hopen : opening (record m e) k es = opening m k (e :: es) := by
        have hm : record m e k = m k := Function.update_of_ne (Ne.symm h) ..
        simp [opening, hm, h]
      rw [hopen, if_neg h, zero_add]

omit [AddAction δ V] in
theorem total_perm {es fs : List (Entry κ V δ)} (h : es.Perm fs) (k : κ) :
    total k es = total k fs :=
  ((h.filter _).map _).sum_eq

omit [AddCommMonoid δ] [AddAction δ V] in
/-- The order does not matter to a key the map holds, or whose entries agree on the start value. -/
theorem opening_perm {es fs : List (Entry κ V δ)} (h : es.Perm fs) {m : κ → Option V} {k : κ}
    (hk : (m k).isSome ∨ ∀ e ∈ es, ∀ f ∈ es, e.key = k → f.key = k → e.start = f.start) :
    opening m k es = opening m k fs := by
  cases hm : m k with
  | some v => simp [opening, hm]
  | none =>
    have hstart : ∀ e ∈ es, ∀ f ∈ es, e.key = k → f.key = k → e.start = f.start := by
      rcases hk with hk | hk
      · simp [hm] at hk
      · exact hk
    rw [opening, opening, hm]
    cases he : es.find? (·.key = k) with
    | none =>
      have hf : fs.find? (·.key = k) = none := by
        rw [List.find?_eq_none] at he ⊢
        exact fun f hmem => he f (h.mem_iff.mpr hmem)
      rw [hf]
    | some e =>
      have hekey : e.key = k := by simpa using List.find?_some he
      have hemem : e ∈ fs := h.mem_iff.mp (List.mem_of_find?_eq_some he)
      obtain ⟨f, hf⟩ : ∃ f, fs.find? (·.key = k) = some f :=
        Option.isSome_iff_exists.mp (List.find?_isSome.mpr ⟨e, hemem, by simpa using hekey⟩)
      have hfkey : f.key = k := by simpa using List.find?_some hf
      have hfmem : f ∈ es := h.mem_iff.mpr (List.mem_of_find?_eq_some hf)
      rw [hf]
      simp [hstart e (List.mem_of_find?_eq_some he) f hfmem hekey hfkey]

theorem foldl_record_perm {es fs : List (Entry κ V δ)} (h : es.Perm fs) {m : κ → Option V} {k : κ}
    (hk : (m k).isSome ∨ ∀ e ∈ es, ∀ f ∈ es, e.key = k → f.key = k → e.start = f.start) :
    es.foldl record m k = fs.foldl record m k := by
  rw [foldl_record, foldl_record, opening_perm h hk, total_perm h]

/-! ## Measures of the total -/

omit [AddAction δ V] in
theorem map_total_nonneg {M : Type*} [AddCommMonoid M] [PartialOrder M] [IsOrderedAddMonoid M]
    (φ : δ →+ M) {es : List (Entry κ V δ)} (h : ∀ e ∈ es, 0 ≤ φ e.amount) (k : κ) :
    0 ≤ φ (total k es) := by
  induction es with
  | nil => simp [total]
  | cons e es ih =>
    rw [List.forall_mem_cons] at h
    rw [total_cons, map_add]
    refine add_nonneg ?_ (ih h.2)
    by_cases hk : e.key = k
    · rw [if_pos hk]
      exact h.1
    · rw [if_neg hk, map_zero]

omit [AddAction δ V] in
theorem map_total_nonpos_iff {M : Type*} [AddCommMonoid M] [PartialOrder M] [IsOrderedAddMonoid M]
    (φ : δ →+ M) {es : List (Entry κ V δ)} (h : ∀ e ∈ es, 0 ≤ φ e.amount) (k : κ) :
    φ (total k es) ≤ 0 ↔ ∀ e ∈ es, e.key = k → φ e.amount ≤ 0 := by
  induction es with
  | nil => simp [total]
  | cons e es ih =>
    rw [List.forall_mem_cons] at h
    have hrest := map_total_nonneg φ h.2 k
    rw [total_cons, map_add, List.forall_mem_cons, ← ih h.2]
    by_cases hk : e.key = k
    · simp only [hk, if_true, forall_const]
      constructor
      · intro hle
        exact ⟨(le_add_of_nonneg_right hrest).trans hle, (le_add_of_nonneg_left h.1).trans hle⟩
      · rintro ⟨hfst, hsnd⟩
        exact add_nonpos hfst hsnd
    · simp [hk]

end Tally
