import Mathlib.Data.Rat.Lemmas
import Mathlib.Algebra.Group.Prod
import Mathlib.Tactic.Ring
import ZapretChecker.Lib.Tally
import ZapretChecker.Score.Model

/-!
# Bayesian accounting

`run_strategy_tests` sums up the attempts, `should_update_strategy_score` and `BayesianState::update`
filter the results, and `update` counts. Together they are one tally by strategy id: what counts for
a strategy is the verdict of its attempts, and each verdict has one increment.

* `verdict` — what a list of attempts comes to
* `posteriors_finalizeResults` — `finalize_results` is a tally of these verdicts
* `accounting` — the posterior of every id, in counts
-/

namespace ZapretChecker.Score

open Pool Worker Tally

/-! ## Attempts -/

/-- The first attempt that is not a success, else the last one. -/
theorem foldl_push (results : List ProbeResult) (tests : StrategyTests) :
    results.foldl StrategyTests.push tests =
      { attempts := tests.attempts ++ results
        lastResult := results.getLast?.or tests.lastResult
        firstFailure := tests.firstFailure.or (results.find? (·.outcome ≠ .success)) } := by
  induction results generalizing tests with
  | nil => simp
  | cons result results ih =>
    rw [List.foldl_cons, ih]
    simp only [StrategyTests.push, List.append_assoc, List.singleton_append]
    congr 1
    · rw [List.getLast?_cons]
      cases results.getLast? <;> rfl
    · by_cases h : result.outcome = .success <;> cases tests.firstFailure <;> simp [h]

/-- What `run_strategy_tests` returns. -/
theorem runStrategyTests_eq_some {results attempts : List ProbeResult} {result : ProbeResult}
    (h : runStrategyTests results = some (result, attempts)) :
    attempts = results ∧ result ∈ results ∧
      (results.find? (·.outcome ≠ .success)).or results.getLast? = some result := by
  obtain ⟨found, hfound, hpair⟩ := Option.map_eq_some_iff.mp h
  obtain ⟨rfl, hattempts⟩ := Prod.mk.inj hpair
  rw [foldl_push] at hfound hattempts
  have hor : (results.find? (·.outcome ≠ .success)).or results.getLast? = some found := by
    simpa using hfound
  refine ⟨by simpa using hattempts.symm, ?_, hor⟩
  rcases Option.or_eq_some_iff.mp hor with hfind | ⟨-, hlast⟩
  · exact List.mem_of_find?_eq_some hfind
  · exact List.mem_of_getLast? hlast

/-- The outcome and the failure kind of an attempt agree. -/
structure WellClassified (r : ProbeResult) : Prop where
  success_iff : r.failureKind = none ↔ r.outcome = .success
  cancelled_iff : r.failureKind = some .cancelled ↔ r.outcome = .cancelled

/-- A result of the pool is what `run_strategy_tests` makes of well classified attempts. -/
def Tested (item : IndexedPoolResult) : Prop :=
  ∃ results, runStrategyTests results = some (item.result, item.attempts) ∧
    ∀ r ∈ results, WellClassified r

inductive Verdict
  | success
  /-- the first failed attempt is a timeout -/
  | timeout
  /-- the first failed attempt is another failure -/
  | failure
  /-- the first failed attempt says nothing about the strategy -/
  | ignored
  deriving DecidableEq

/-- What the attempts of a strategy come to. -/
def verdict (attempts : List ProbeResult) : Verdict :=
  match attempts.find? (·.outcome ≠ .success) with
  | none => .success
  | some failed =>
    if failed.failureKind = some .infrastructureFailure ∨ failed.failureKind = some .cancelled then
      .ignored
    else if failed.outcome = .timeout then .timeout
    else .failure

/-! ## Increments -/

/-- What is added to alpha, beta and tests. -/
abbrev Increment := Rat × Rat × Nat

instance : VAdd Increment Posterior where
  vadd d p := { alpha := p.alpha + d.1, beta := p.beta + d.2.1, tests := p.tests + d.2.2 }

theorem vadd_posterior (d : Increment) (p : Posterior) :
    d +ᵥ p = { alpha := p.alpha + d.1, beta := p.beta + d.2.1, tests := p.tests + d.2.2 } := rfl

instance : AddAction Increment Posterior where
  zero_vadd p := by simp [vadd_posterior]
  add_vadd c d p := by
    simp only [vadd_posterior, Prod.fst_add, Prod.snd_add, Posterior.mk.injEq]
    refine ⟨?_, ?_, ?_⟩
    · rw [add_comm c.1, add_assoc]
    · rw [add_comm c.2.1, add_assoc]
    · rw [add_comm c.2.2, add_assoc]

/-- What `update` adds for an outcome. -/
def outcomeIncrement : ProbeOutcome → Increment
  | .success => (1, 0, 1)
  | .cancelled => (0, 0, 0)
  | .timeout => (0, 7 / 10, 1)
  | _ => (0, 1, 1)

def Verdict.increment : Verdict → Increment
  | .success => (1, 0, 1)
  | .timeout => (0, 7 / 10, 1)
  | .failure => (0, 1, 1)
  | .ignored => 0

/-- The posterior of a node that has not been tested. -/
def priorPosterior (node : StrategyNode) : Posterior where
  alpha := node.prior.1
  beta := node.prior.2
  tests := 0

/-- What `finalize_results` does with one result: nothing after an infrastructure failure. -/
def entryOf (item : IndexedPoolResult) : Option (Entry String Posterior Increment) :=
  if shouldUpdateStrategyScore item.result then
    some ⟨item.node.id, priorPosterior item.node, outcomeIncrement item.result.outcome⟩
  else none

theorem entryOf_infrastructure {item : IndexedPoolResult}
    (h : item.result.failureKind = some .infrastructureFailure) : entryOf item = none := by
  simp [entryOf, shouldUpdateStrategyScore, h]

theorem entryOf_of_ne {item : IndexedPoolResult}
    (h : item.result.failureKind ≠ some .infrastructureFailure) :
    entryOf item =
      some ⟨item.node.id, priorPosterior item.node, outcomeIncrement item.result.outcome⟩ := by
  simp [entryOf, shouldUpdateStrategyScore, h]

/-- An entry carries the id and the prior of a node. -/
theorem exists_of_mem_entries {items : List IndexedPoolResult}
    {e : Entry String Posterior Increment} (h : e ∈ items.filterMap entryOf) :
    ∃ item ∈ items, item.node.id = e.key ∧ e.start = priorPosterior item.node := by
  obtain ⟨item, hitem, he⟩ := List.mem_filterMap.mp h
  unfold entryOf at he
  split at he
  · obtain rfl := Option.some.inj he
    exact ⟨item, hitem, rfl, rfl⟩
  · simp at he

/-! ## `finalize_results` is a tally -/

theorem getOrInsert_eq (s : BayesianState) (key : String) (prior : Rat × Rat) :
    (s.getOrInsert key prior).1 = (s.posteriors key).getD ⟨prior.1, prior.2, 0⟩ ∧
      (s.getOrInsert key prior).2.posteriors = Function.update s.posteriors key
        (some ((s.posteriors key).getD ⟨prior.1, prior.2, 0⟩)) := by
  unfold BayesianState.getOrInsert
  cases h : s.posteriors key with
  | some p => exact ⟨rfl, (Function.update_eq_self_iff.mpr h.symm).symm⟩
  | none => exact ⟨rfl, rfl⟩

/-- `update` opens the posterior and adds the increment of the outcome. -/
theorem posteriors_update (s : BayesianState) (node : StrategyNode) (result : ProbeResult)
    (h : result.failureKind ≠ some .infrastructureFailure) :
    (s.update node.id node.prior result).posteriors =
      record s.posteriors ⟨node.id, priorPosterior node, outcomeIncrement result.outcome⟩ := by
  obtain ⟨hp, hs⟩ := getOrInsert_eq s node.id node.prior
  unfold BayesianState.update record
  rw [if_neg h]
  cases result.outcome <;>
    simp [hp, hs, BayesianState.set, outcomeIncrement, vadd_posterior, priorPosterior]

theorem posteriors_updateBayes (s : BayesianState) (item : IndexedPoolResult) :
    (updateBayes s item).posteriors =
      match entryOf item with
      | some e => record s.posteriors e
      | none => s.posteriors := by
  unfold updateBayes entryOf
  by_cases h : shouldUpdateStrategyScore item.result = true
  · rw [if_pos h, if_pos h]
    exact posteriors_update s item.node item.result (by simpa [shouldUpdateStrategyScore] using h)
  · rw [if_neg h, if_neg h]

theorem finalizeResults_snd (weights : ScoreWeights) (items : List IndexedPoolResult)
    (s : BayesianState) : (finalizeResults weights items s).2 = items.foldl updateBayes s := by
  unfold finalizeResults
  exact (List.foldl_hom Prod.snd fun _ _ => rfl).symm

/-- **`finalize_results` is a tally** of the results that `should_update_strategy_score` lets
through. -/
theorem posteriors_finalizeResults (weights : ScoreWeights) (items : List IndexedPoolResult)
    (s : BayesianState) :
    (finalizeResults weights items s).2.posteriors =
      (items.filterMap entryOf).foldl record s.posteriors := by
  rw [finalizeResults_snd]
  induction items generalizing s with
  | nil => rfl
  | cons item items ih =>
    rw [List.foldl_cons, ih, posteriors_updateBayes]
    cases h : entryOf item <;> simp [h]

/-! ## Counts -/

/-- The results of strategy `k` whose attempts come to `v`. -/
def count (v : Verdict) (k : String) (items : List IndexedPoolResult) : Nat :=
  items.countP fun item => item.node.id = k ∧ verdict item.attempts = v

/-- The posterior of `k` before anything is counted: the one the state holds, or the prior of the
first node that touches it. -/
def startPosterior (s : BayesianState) (k : String) (items : List IndexedPoolResult) :
    Option Posterior :=
  s.posteriors k <|> (items.find? fun item =>
    item.node.id = k ∧ item.result.failureKind ≠ some .infrastructureFailure).map
      fun item => priorPosterior item.node

theorem opening_entries (s : BayesianState) (k : String) (items : List IndexedPoolResult) :
    opening s.posteriors k (items.filterMap entryOf) = startPosterior s k items := by
  unfold opening startPosterior
  congr 1
  induction items with
  | nil => rfl
  | cons item items ih =>
    by_cases hinfra : item.result.failureKind = some .infrastructureFailure
    · rw [List.filterMap_cons_none (entryOf_infrastructure hinfra), ih,
        List.find?_cons_of_neg (by simp [hinfra])]
    · rw [List.filterMap_cons_some (entryOf_of_ne hinfra)]
      by_cases hk : item.node.id = k
      · rw [List.find?_cons_of_pos (by simpa using hk),
          List.find?_cons_of_pos (by simp [hk, hinfra])]
        rfl
      · rw [List.find?_cons_of_neg (by simpa using hk), List.find?_cons_of_neg (by simp [hk])]
        exact ih

/-- The two filters and the early return of `update` come to the verdict of the attempts. -/
theorem increment_of_tested {item : IndexedPoolResult} (h : Tested item) :
    (match entryOf item with | some e => e.amount | none => 0) =
      (verdict item.attempts).increment := by
  obtain ⟨results, hrun, hwell⟩ := h
  obtain ⟨hattempts, hmem, hor⟩ := runStrategyTests_eq_some hrun
  have hresult := hwell _ hmem
  rw [hattempts]
  unfold verdict
  cases hfind : results.find? (·.outcome ≠ .success) with
  | none =>
    have hsucc : item.result.outcome = .success := by
      simpa using List.find?_eq_none.mp hfind _ hmem
    have hkind := hresult.success_iff.mpr hsucc
    simp [entryOf, shouldUpdateStrategyScore, hkind, hsucc, outcomeIncrement, Verdict.increment]
  | some failed =>
    obtain rfl : failed = item.result := by
      rw [hfind] at hor
      simpa using hor
    have hfailed : item.result.outcome ≠ .success := by simpa using List.find?_some hfind
    by_cases hinfra : item.result.failureKind = some .infrastructureFailure
    · rw [entryOf_infrastructure hinfra]
      simp [hinfra, Verdict.increment]
    · by_cases hcancelled : item.result.failureKind = some .cancelled
      · have houtcome := hresult.cancelled_iff.mp hcancelled
        rw [entryOf_of_ne hinfra]
        simp only [hcancelled, houtcome, outcomeIncrement]
        rfl
      · have houtcome : item.result.outcome ≠ .cancelled :=
          fun h => hcancelled (hresult.cancelled_iff.mpr h)
        rw [entryOf_of_ne hinfra]
        simp only [hinfra, hcancelled, or_self, if_false]
        cases ho : item.result.outcome <;>
          simp_all [outcomeIncrement, Verdict.increment]

theorem total_entries_cons {item : IndexedPoolResult} (h : Tested item)
    (items : List IndexedPoolResult) (k : String) :
    total k ((item :: items).filterMap entryOf) =
      (if item.node.id = k then (verdict item.attempts).increment else 0) +
        total k (items.filterMap entryOf) := by
  rw [← increment_of_tested h]
  by_cases hinfra : item.result.failureKind = some .infrastructureFailure
  · have he := entryOf_infrastructure hinfra
    rw [List.filterMap_cons_none he, he]
    simp
  · have he := entryOf_of_ne hinfra
    rw [List.filterMap_cons_some he, total_cons, he]

theorem count_cons (v : Verdict) (k : String) (item : IndexedPoolResult)
    (items : List IndexedPoolResult) :
    count v k (item :: items) =
      (if item.node.id = k ∧ verdict item.attempts = v then 1 else 0) + count v k items := by
  unfold count
  rw [List.countP_cons, add_comm]
  simp

/-- **All the increments of a strategy, in counts.** -/
theorem total_entries {items : List IndexedPoolResult} (h : ∀ item ∈ items, Tested item)
    (k : String) :
    total k (items.filterMap entryOf) =
      ((count .success k items : Rat),
        7 / 10 * (count .timeout k items : Rat) + (count .failure k items : Rat),
        count .success k items + count .timeout k items + count .failure k items) := by
  induction items with
  | nil => simp [total, count, Prod.zero_eq_mk]
  | cons item items ih =>
    rw [List.forall_mem_cons] at h
    rw [total_entries_cons h.1, ih h.2]
    simp only [count_cons]
    by_cases hk : item.node.id = k
    · cases verdict item.attempts <;> simp [hk, Verdict.increment] <;> ring_nf <;> simp
    · simp [hk]

/-! ## The claim -/

/--
**Bayesian accounting.** After `finalize_results` the posterior of `k` is its start value, with alpha
increased by the successes, beta by 0.7 for each timeout and 1 for each other failure, and tests by
all of these. An id that no result has keeps its posterior, and the order of the results does not
matter to an id that the state holds or whose results come from nodes of one prior.
-/
theorem accounting (weights : ScoreWeights) (s : BayesianState) {items : List IndexedPoolResult}
    (h : ∀ item ∈ items, Tested item) (k : String) :
    (finalizeResults weights items s).2.posteriors k =
        (startPosterior s k items).map (fun p =>
          { alpha := p.alpha + count .success k items
            beta := p.beta + (7 / 10 * count .timeout k items + count .failure k items)
            tests := p.tests +
              (count .success k items + count .timeout k items + count .failure k items) }) ∧
      ((∀ item ∈ items, item.node.id ≠ k) →
        (finalizeResults weights items s).2.posteriors k = s.posteriors k) ∧
      ∀ items', items.Perm items' →
        ((s.posteriors k).isSome ∨ ∀ i ∈ items, ∀ j ∈ items,
          i.node.id = k → j.node.id = k → i.node.prior = j.node.prior) →
        (finalizeResults weights items' s).2.posteriors k =
          (finalizeResults weights items s).2.posteriors k := by
  have hcounts : (finalizeResults weights items s).2.posteriors k =
      (startPosterior s k items).map (fun p =>
        { alpha := p.alpha + count .success k items
          beta := p.beta + (7 / 10 * count .timeout k items + count .failure k items)
          tests := p.tests +
            (count .success k items + count .timeout k items + count .failure k items) }) := by
    rw [posteriors_finalizeResults, foldl_record, opening_entries, total_entries h]
    rfl
  refine ⟨hcounts, fun hk => ?_, fun items' hperm hstart => ?_⟩
  · have hnone : ∀ v, count v k items = 0 := by
      intro v
      exact List.countP_eq_zero.mpr fun item hitem => by simp [hk item hitem]
    have hfind : items.find? (fun item => item.node.id = k ∧
        item.result.failureKind ≠ some .infrastructureFailure) = none :=
      List.find?_eq_none.mpr fun item hitem => by simp [hk item hitem]
    rw [hcounts, startPosterior, hfind, hnone, hnone, hnone]
    cases s.posteriors k <;> simp
  · rw [posteriors_finalizeResults, posteriors_finalizeResults]
    refine (foldl_record_perm (hperm.filterMap entryOf) ?_).symm
    rcases hstart with hsome | hprior
    · exact Or.inl hsome
    · refine Or.inr fun e he f hf hek hfk => ?_
      obtain ⟨i, hi, hik, histart⟩ := exists_of_mem_entries he
      obtain ⟨j, hj, hjk, hjstart⟩ := exists_of_mem_entries hf
      rw [histart, hjstart, priorPosterior, priorPosterior,
        hprior i hi j hj (hik.trans hek) (hjk.trans hfk)]

/-- A strategy of two targets: the second attempt times out, or is cancelled. -/
def twoResults : List IndexedPoolResult :=
  let timeout : ProbeResult :=
    { (default : ProbeResult) with outcome := .timeout, failureKind := some .strategyFailure }
  let cancelled : ProbeResult :=
    { (default : ProbeResult) with outcome := .cancelled, failureKind := some .cancelled }
  [{ (default : IndexedPoolResult) with result := timeout, attempts := [default, timeout] },
    { (default : IndexedPoolResult) with result := cancelled, attempts := [default, cancelled] }]

theorem tested_twoResults : ∀ item ∈ twoResults, Tested item := by
  intro item hitem
  refine ⟨item.attempts, ?_, fun r hr => ?_⟩
  · revert item
    decide
  · have hall : ∀ item ∈ twoResults, ∀ r ∈ item.attempts,
        (r.failureKind = none ↔ r.outcome = .success) ∧
          (r.failureKind = some .cancelled ↔ r.outcome = .cancelled) := by decide
    exact ⟨(hall item hitem r hr).1, (hall item hitem r hr).2⟩

theorem accounting_twoResults :
    (finalizeResults default twoResults ⟨fun _ => none⟩).2.posteriors "" =
      some { alpha := 0, beta := 7 / 10, tests := 1 } := by
  rw [(accounting default ⟨fun _ => none⟩ tested_twoResults "").1]
  decide +kernel

end ZapretChecker.Score
