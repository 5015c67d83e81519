import ZapretChecker.Pool.Invariant

/-!
# The result list is a prefix of the strategies

* `taken_nodup` — no task is taken twice, in any run
* `result_fromTake` — a collected result carries the node of its task and the identity of the worker
  that took it, in any run
* `returnedResults_prefix` — without cancellation the list `run` returns is `0, …, k - 1`, and it is
  cut short only by the success limit
-/

namespace ZapretChecker.Pool

open StepSystem SortBy PoolConfig

variable {cfg : PoolConfig} {es : List (Event cfg.workerCount)} {s : State cfg.workerCount}

/-! ## Every run -/

/-- No task is taken twice. -/
theorem taken_nodup (hrun : cfg.system.run es = some s) : ((cfg.takes es).map Prod.fst).Nodup := by
  rw [(poolInv_run hrun).queue.taken]
  exact List.nodup_range

/-- A task has one taker. -/
theorem taker_unique (hrun : cfg.system.run es = some s) {i : Nat} {w w' : Fin cfg.workerCount}
    (hw : (i, w) ∈ cfg.takes es) (hw' : (i, w') ∈ cfg.takes es) : w' = w := by
  have hinj := List.inj_on_of_nodup_map (taken_nodup hrun) hw' hw rfl
  exact congrArg Prod.snd hinj

/-- The tasks taken are tasks of the producer's list. -/
theorem takes_length_le (hrun : cfg.system.run es = some s) :
    (cfg.takes es).length ≤ cfg.nodes.length := by
  have hq := (poolInv_run hrun).queue
  have hsent := hq.sent
  have hbound := hq.bound
  omega

theorem strategyIndex_lt (hrun : cfg.system.run es = some s) {i : Nat} {w : Fin cfg.workerCount}
    (hw : (i, w) ∈ cfg.takes es) : i < cfg.nodes.length := by
  have hmem : i ∈ (cfg.takes es).map Prod.fst := List.mem_map_of_mem (f := Prod.fst) hw
  rw [(poolInv_run hrun).queue.taken, List.mem_range] at hmem
  exact Nat.lt_of_lt_of_le hmem (takes_length_le hrun)

/-- A collected result belongs to its task and to the one worker that took it. -/
theorem result_fromTake (hrun : cfg.system.run es = some s) {r : IndexedPoolResult}
    (hr : r ∈ s.results) :
    cfg.nodes[r.strategyIndex]? = some r.node ∧
      ∃ w, (∀ w', (r.strategyIndex, w') ∈ cfg.takes es ↔ w' = w) ∧
        r.workerId = (cfg.assignments.get w).workerId ∧ r.qnum = (cfg.assignments.get w).qnum := by
  obtain ⟨w, hw, hnode, hid, hqnum⟩ := (poolInv_run hrun).origin.results r hr
  refine ⟨?_, w, fun w' => ⟨fun hw' => taker_unique hrun hw hw', fun h => h ▸ hw⟩, hid, hqnum⟩
  have hlt := strategyIndex_lt hrun hw
  rw [hnode, List.getElem?_eq_getElem hlt]
  simp [PoolConfig.task, List.getD_eq_getElem?_getD, List.getElem?_eq_getElem hlt]

/-! ## Runs without cancellation that have returned -/

/-- `run` returns only when every worker has returned and nothing is left in the channel. -/
theorem drained_of_returned (hrun : cfg.system.run es = some s) (hes : Event.cancel ∉ es)
    (hret : s.collector = .returned) : AllReturned s ∧ s.resultQueue = [] :=
  ((poolInv_run hrun).closed (not_cancelled_of_run hrun hes)).collector
    (by simp [hret, CollectorPc.InMain])

/-- Every task taken has its result, and no other result was collected. -/
theorem results_perm_range (hrun : cfg.system.run es = some s) (hes : Event.cancel ∉ es)
    (hret : s.collector = .returned) :
    (s.results.map IndexedPoolResult.strategyIndex).Perm (List.range (cfg.takes es).length) := by
  obtain ⟨hall, hnil⟩ := drained_of_returned hrun hes hret
  have htoken := (poolInv_run hrun).token (not_cancelled_of_run hrun hes)
  have hheld : heldBy s.workers = 0 :=
    Finset.sum_eq_zero fun w _ => by rw [hall w]; rfl
  have hdelivered : delivered s = s.results.map IndexedPoolResult.strategyIndex := by
    simp [delivered, hnil, hret, CollectorPc.hand]
  rw [TokenInv, hheld, hdelivered, zero_add] at htoken
  exact Multiset.coe_eq_coe.mp htoken

/-- The pool leaves a strategy out only after the success limit was reached. -/
theorem all_taken_or_limit (hW : 1 ≤ cfg.workerCount) (hrun : cfg.system.run es = some s)
    (hes : Event.cancel ∉ es) (hret : s.collector = .returned) :
    (cfg.takes es).length = cfg.nodes.length ∨
      cfg.stopAtSuccess ≠ 0 ∧
        cfg.stopAtSuccess ≤ s.results.countP IndexedPoolResult.isSuccess := by
  have hinv := poolInv_run hrun
  have hclosed := hinv.closed (not_cancelled_of_run hrun hes)
  have hstop : s.stopEnqueue = true → cfg.stopAtSuccess ≠ 0 ∧
      cfg.stopAtSuccess ≤ s.results.countP IndexedPoolResult.isSuccess := by
    intro h
    obtain ⟨hne, hle⟩ := hinv.stop.limit h
    have hcount : s.successCount = s.results.countP IndexedPoolResult.isSuccess := by
      simpa [hret, CollectorPc.counted] using hinv.stop.count hne
    rw [hcount] at hle
    exact ⟨hne, hle⟩
  -- any worker will do: it has returned
  have hw := (drained_of_returned hrun hes hret).1 ⟨0, hW⟩
  rcases hclosed.worker _ hw with h | ⟨hnil, hfin⟩
  · exact Or.inr (hstop h)
  · rcases hclosed.producer hfin with h | hidx
    · exact Or.inr (hstop h)
    · left
      have hsent := hinv.queue.sent
      rw [hnil, hidx] at hsent
      exact hsent

/--
**Exact prefix.** Whenever `run` returns and the token was never cancelled, its list is one result
for each of the strategies `0, …, k - 1`, in that order. Each result carries the node of its strategy
and the identity of the one worker that took it. Only the success limit makes `k` smaller than the
number of strategies.
-/
theorem returnedResults_prefix (hW : 1 ≤ cfg.workerCount) (hrun : cfg.system.run es = some s)
    (hes : Event.cancel ∉ es) (hret : s.collector = .returned) :
    ∃ k ≤ cfg.nodes.length,
      (returnedResults s).map IndexedPoolResult.strategyIndex = List.range k ∧
      (∀ r ∈ returnedResults s, cfg.nodes[r.strategyIndex]? = some r.node ∧
        ∃ w, (∀ w', (r.strategyIndex, w') ∈ cfg.takes es ↔ w' = w) ∧
          r.workerId = (cfg.assignments.get w).workerId ∧
          r.qnum = (cfg.assignments.get w).qnum) ∧
      (k = cfg.nodes.length ∨ cfg.stopAtSuccess ≠ 0 ∧
        cfg.stopAtSuccess ≤ (returnedResults s).countP IndexedPoolResult.isSuccess) := by
  have hperm : (returnedResults s).Perm s.results := sortBy_perm _ _
  refine ⟨_, takes_length_le hrun, map_sortByKey_eq_range (results_perm_range hrun hes hret), ?_, ?_⟩
  · intro r hr
    exact result_fromTake hrun (hperm.mem_iff.mp hr)
  · rw [hperm.countP_eq]
    exact all_taken_or_limit hW hrun hes hret

/-- One worker, channels of size one, three strategies, one success wanted. -/
def smallPool : PoolConfig where
  assignments := [{ workerId := 7, qnum := 200, fwmark := none, sourcePort := none }]
  taskChannelSize := 1
  taskChannelSize_pos := by decide
  resultChannelSize := 1
  resultChannelSize_pos := by decide
  stopAtSuccess := 1
  nodes := [default, default, default]
  targets := []
  timeouts := default

abbrev smallPoolWorker : Fin smallPool.workerCount := ⟨0, by decide⟩

/-- The first strategy succeeds before the producer looks at the second. -/
def smallPoolRun : List (Event smallPool.workerCount) :=
  List.replicate 10 .producer ++ List.replicate 4 (.worker smallPoolWorker) ++
    [.backend smallPoolWorker { (default : ProbeResult) with outcome := .success } [],
      .worker smallPoolWorker] ++
    List.replicate 5 .collector ++ [.worker smallPoolWorker] ++ List.replicate 3 .producer ++
    List.replicate 4 .collector

theorem returnedResults_prefix_smallPool :
    ∃ s, smallPool.system.run smallPoolRun = some s ∧ ∃ k ≤ 3,
      (returnedResults s).map IndexedPoolResult.strategyIndex = List.range k ∧
      (∀ r ∈ returnedResults s, smallPool.nodes[r.strategyIndex]? = some r.node ∧
        ∃ w, (∀ w', (r.strategyIndex, w') ∈ smallPool.takes smallPoolRun ↔ w' = w) ∧
          r.workerId = (smallPool.assignments.get w).workerId ∧
          r.qnum = (smallPool.assignments.get w).qnum) ∧
      (k = 3 ∨ smallPool.stopAtSuccess ≠ 0 ∧
        smallPool.stopAtSuccess ≤ (returnedResults s).countP IndexedPoolResult.isSuccess) := by
  have hmap : (smallPool.system.run smallPoolRun).map State.collector = some .returned := by decide
  obtain ⟨s, hrun, hret⟩ := Option.map_eq_some_iff.mp hmap
  exact ⟨s, hrun, returnedResults_prefix (by decide) hrun (by decide) hret⟩

end ZapretChecker.Pool
