import Mathlib.Algebra.Order.BigOperators.Group.Finset
import ZapretChecker.Pool.Invariant

/-!
# How far the success limit is overshot

The collector counts the successes. When it sets the stop flag, results it has not seen are in the
channel, in a blocked `send` or not there yet, because their strategy is still running.

* `OvershootInv` — once the flag is set, what is counted, in the channel and in flight stays bounded
* `LateInv` — once the flag is set, no worker begins two strategies
* `overshoot_bounded` — both, for every run
-/

namespace ZapretChecker.Pool

open StepSystem PoolConfig Holdings SortBy

variable {cfg : PoolConfig}

/-! ## What is in flight -/

/-- A worker that has passed its last check of the stop flag may still deliver one result. -/
def WorkerPc.inFlight : WorkerPc → Nat
  | .tryRecv | .received _ | .running _ | .sending _ => 1
  | _ => 0

theorem WorkerPc.inFlight_le (pc : WorkerPc) : pc.inFlight ≤ 1 := by
  cases pc <;> simp [WorkerPc.inFlight]

/-- The workers that may still deliver one result. -/
def inFlight {n : Nat} (workers : Fin n → WorkerPc) : Nat := ∑ w, (workers w).inFlight

theorem inFlight_le {n : Nat} (workers : Fin n → WorkerPc) : inFlight workers ≤ n := by
  calc inFlight workers
    _ ≤ ∑ _w : Fin n, 1 := Finset.sum_le_sum fun w _ => (workers w).inFlight_le
    _ = n := by simp

theorem inFlight_update {n : Nat} (workers : Fin n → WorkerPc) (w : Fin n) (pc : WorkerPc) :
    inFlight (Function.update workers w pc) + (workers w).inFlight =
      inFlight workers + pc.inFlight :=
  sum_hold_update WorkerPc.inFlight workers w pc

/-- The successes among the results the collector has taken out of the channel. -/
def seenSuccesses {n : Nat} (s : State n) : Nat :=
  (s.collector.hand ++ s.results).countP IndexedPoolResult.isSuccess

/-! ## The bound -/

/-- What holds of every reachable state when the limit is not 0. -/
structure OvershootInv (cfg : PoolConfig) (s : State cfg.workerCount) : Prop where
  /-- A bounded channel holds at most its capacity. -/
  channel : s.resultQueue.length ≤ cfg.resultChannelSize
  /-- Between `fetch_add` and `store` the limit is just reached. -/
  unset : s.stopEnqueue = false → s.successCount < cfg.stopAtSuccess ∨
    s.successCount = cfg.stopAtSuccess ∧ ∃ loop result, s.collector = .storeStop loop result
  set : s.stopEnqueue = true →
    seenSuccesses s + s.resultQueue.length + inFlight s.workers ≤
      cfg.stopAtSuccess + cfg.resultChannelSize + cfg.workerCount

theorem overshootInv_init (hL : 1 ≤ cfg.stopAtSuccess) : OvershootInv cfg cfg.init where
  channel := Nat.zero_le _
  unset _ := Or.inl hL
  set h := by simp [init] at h

/-- Nothing new comes into flight once the flag is set. -/
theorem OvershootInv.congr {s s' : State cfg.workerCount} (hi : OvershootInv cfg s)
    (hq : s'.resultQueue = s.resultQueue) (hs : s'.stopEnqueue = s.stopEnqueue)
    (hk : s'.successCount = s.successCount) (hc : s'.collector = s.collector)
    (hr : s'.results = s.results)
    (hw : s.stopEnqueue = true → inFlight s'.workers ≤ inFlight s.workers) :
    OvershootInv cfg s' where
  channel := by rw [hq]; exact hi.channel
  unset h := by rw [hk, hc]; exact hi.unset (hs ▸ h)
  set h := by
    rw [hs] at h
    have hset := hi.set h
    have hflight := hw h
    have hseen : seenSuccesses s' = seenSuccesses s := by unfold seenSuccesses; rw [hc, hr]
    rw [hseen, hq]
    omega

theorem inFlight_goWorker_le {n : Nat} {s : State n} {w : Fin n} {pc : WorkerPc}
    (h : pc.inFlight ≤ (s.workers w).inFlight) :
    inFlight (goWorker s w pc).workers ≤ inFlight s.workers := by
  have hu := inFlight_update s.workers w pc
  show inFlight (Function.update s.workers w pc) ≤ inFlight s.workers
  omega

theorem overshootInv_worker {s s' : State cfg.workerCount} {w : Fin cfg.workerCount}
    (hi : OvershootInv cfg s) (hm : WorkerMove cfg s w s') : OvershootInv cfg s' := by
  cases hm with
  | check pc hpc hstop =>
    exact hi.congr rfl rfl rfl rfl rfl fun h => by simp [hstop] at h
  | empty hpc | retry hpc | disconnected hpc | giveUp hpc | drop task hpc | start task hpc
  | closed result hpc =>
    exact hi.congr rfl rfl rfl rfl rfl fun _ =>
      inFlight_goWorker_le (by simp [hpc, WorkerPc.inFlight])
  | stopped hpc =>
    refine hi.congr rfl rfl rfl rfl rfl fun _ => inFlight_goWorker_le ?_
    simp [WorkerPc.inFlight]
  | take task rest hpc =>
    refine hi.congr rfl rfl rfl rfl rfl fun _ => ?_
    exact inFlight_goWorker_le (s := { s with taskQueue := rest }) (by simp [hpc, WorkerPc.inFlight])
  | send result hpc hopen hlt =>
    have hu := inFlight_update s.workers w .outerCheck
    rw [hpc] at hu
    -- the result leaves its worker for the channel
    have hflight : inFlight (Function.update s.workers w .outerCheck) + 1 = inFlight s.workers := hu
    refine ⟨?_, hi.unset, fun h => ?_⟩
    · show (s.resultQueue ++ [result]).length ≤ cfg.resultChannelSize
      rw [List.length_append, List.length_singleton]
      omega
    · have hset := hi.set h
      show seenSuccesses s + (s.resultQueue ++ [result]).length +
        inFlight (Function.update s.workers w .outerCheck) ≤ _
      rw [List.length_append, List.length_singleton]
      omega

theorem seenSuccesses_eq (s : State cfg.workerCount) :
    seenSuccesses s = s.collector.hand.countP IndexedPoolResult.isSuccess +
      s.results.countP IndexedPoolResult.isSuccess :=
  List.countP_append

/-- The limit is not reached before `store` is. -/
theorem OvershootInv.count_lt {s : State cfg.workerCount} (hi : OvershootInv cfg s)
    (h : s.stopEnqueue = false) (hpc : ∀ loop result, s.collector ≠ .storeStop loop result) :
    s.successCount < cfg.stopAtSuccess := by
  rcases hi.unset h with hlt | ⟨-, loop, result, hstore⟩
  · exact hlt
  · exact absurd hstore (hpc loop result)

/-- When the flag is set for the first time, exactly `limit` successes are counted. -/
theorem OvershootInv.seen_of_storeStop {s : State cfg.workerCount} (hi : OvershootInv cfg s)
    (hs : StopInv cfg s) (hL : 1 ≤ cfg.stopAtSuccess) {loop : RecvLoop}
    {result : IndexedPoolResult} (hpc : s.collector = .storeStop loop result)
    (h : s.stopEnqueue = false) : seenSuccesses s = cfg.stopAtSuccess := by
  have hcount := hs.count (by omega)
  have hrec := hs.recording
  rw [hpc] at hcount hrec
  obtain ⟨hsucc, -, hle⟩ := hrec
  have hcounted : s.successCount = s.results.countP IndexedPoolResult.isSuccess + 1 := hcount
  have hseen : seenSuccesses s = s.results.countP IndexedPoolResult.isSuccess + 1 := by
    rw [seenSuccesses_eq, hpc]
    simp [CollectorPc.hand, hsucc, Nat.add_comm]
  rcases hi.unset h with hlt | ⟨heq, -⟩
  · omega
  · omega

/-- The collector goes on with the same results, from a line other than `store`. -/
theorem OvershootInv.goCollector {s s' : State cfg.workerCount} (hi : OvershootInv cfg s)
    (hq : s'.resultQueue = s.resultQueue) (hs : s'.stopEnqueue = s.stopEnqueue)
    (hk : s'.successCount = s.successCount) (hw : s'.workers = s.workers)
    (hseen : seenSuccesses s' = seenSuccesses s)
    (hpc : ∀ loop result, s.collector ≠ .storeStop loop result) : OvershootInv cfg s' where
  channel := by rw [hq]; exact hi.channel
  unset h := by
    rw [hk]
    exact Or.inl (hi.count_lt (hs ▸ h) hpc)
  set h := by
    rw [hseen, hq, hw]
    exact hi.set (hs ▸ h)

theorem overshootInv_collector {s s' : State cfg.workerCount} (hi : OvershootInv cfg s)
    (hs : StopInv cfg s) (hL : 1 ≤ cfg.stopAtSuccess) (hm : CollectorMove cfg s s') :
    OvershootInv cfg s' := by
  cases hm with
  | recv loop result rest hpc hq =>
    have hchannel := hi.channel
    rw [hq, List.length_cons] at hchannel
    refine ⟨by dsimp only; omega, fun h => ?_, fun h => ?_⟩
    · exact Or.inl (hi.count_lt h (by simp [hpc]))
    · have hset := hi.set h
      have hone : [result].countP IndexedPoolResult.isSuccess ≤ 1 := List.countP_le_length
      rw [seenSuccesses_eq] at hset ⊢
      rw [hpc, hq, List.length_cons] at hset
      simp only [CollectorPc.hand, List.countP_nil] at hset
      dsimp only
      rw [afterRecv_hand]
      omega
  | closed loop hpc hq hall =>
    refine hi.goCollector rfl rfl rfl rfl ?_ (by simp [hpc])
    simp only [seenSuccesses, hpc]
    rw [exit_hand]
    rfl
  | fetchAdd loop result hpc =>
    have hseen : ∀ pc : CollectorPc, pc.hand = [result] →
        (pc.hand ++ s.results).countP IndexedPoolResult.isSuccess = seenSuccesses s := by
      intro pc hhand
      rw [seenSuccesses, hpc, hhand]
      rfl
    refine ⟨hi.channel, fun h => ?_, fun h => ?_⟩
    · have hlt := hi.count_lt h (by simp [hpc])
      dsimp only
      by_cases hle : cfg.stopAtSuccess ≤ s.successCount + 1
      · exact Or.inr ⟨by omega, loop, result, if_pos hle⟩
      · exact Or.inl (by omega)
    · have hset := hi.set h
      rw [← hseen _ (show CollectorPc.hand (if cfg.stopAtSuccess ≤ s.successCount + 1
        then .storeStop loop result else .push loop result) = [result] by split <;> rfl)] at hset
      exact hset
  | storeStop loop result hpc =>
    refine ⟨hi.channel, fun h => by simp at h, fun _ => ?_⟩
    have hsame : seenSuccesses ({ s with
        stopEnqueue := true, collector := .notifyWaiters loop result }) = seenSuccesses s := by
      rw [seenSuccesses, seenSuccesses, hpc]
      rfl
    show seenSuccesses _ + s.resultQueue.length + inFlight s.workers ≤ _
    rw [hsame]
    cases hset : s.stopEnqueue with
    | true => exact hi.set hset
    | false =>
      have hseen := hi.seen_of_storeStop hs hL hpc hset
      have hchannel := hi.channel
      have hflight := inFlight_le s.workers
      omega
  | notifyWaiters loop result hpc =>
    refine hi.goCollector rfl rfl rfl rfl ?_ (by simp [hpc])
    rw [seenSuccesses, seenSuccesses, hpc]
    rfl
  | push loop result hpc =>
    refine hi.goCollector rfl rfl rfl rfl ?_ (by simp [hpc])
    rw [seenSuccesses, seenSuccesses, hpc]
    have hperm : (s.results ++ [result]).Perm ([result] ++ s.results) := List.perm_append_comm
    exact hperm.countP_eq _
  | producerDone hpc hf | join hpc =>
    refine hi.goCollector rfl rfl rfl rfl ?_ (by simp [hpc])
    rw [seenSuccesses, seenSuccesses, hpc]
    rfl

theorem overshootInv_step {s s' : State cfg.workerCount} {e : Event cfg.workerCount}
    (hL : 1 ≤ cfg.stopAtSuccess) (hi : OvershootInv cfg s) (hs : StopInv cfg s)
    (hm : Move cfg s e s') : OvershootInv cfg s' := by
  cases hm with
  | cancel => exact hi.congr rfl rfl rfl rfl rfl fun _ => Nat.le_refl _
  | producer hm => cases hm <;> exact hi.congr rfl rfl rfl rfl rfl fun _ => Nat.le_refl _
  | worker w hm => exact overshootInv_worker hi hm
  | backend w task result attempts hpc =>
    exact hi.congr rfl rfl rfl rfl rfl fun _ =>
      inFlight_goWorker_le (by simp [hpc, WorkerPc.inFlight])
  | collector hm => exact overshootInv_collector hi hs hL hm
  | collectorCancelled hpc | drainDeadline hpc =>
    refine hi.goCollector rfl rfl rfl rfl ?_ (by simp [hpc])
    rw [seenSuccesses, seenSuccesses, hpc]
    rfl

/-! ## Strategies begun after the flag is set -/

/-- The observation of a worker calling `run_strategy` while the stop flag is set. -/
def observeLateBegin (s : State cfg.workerCount) (e : Event cfg.workerCount) :
    List (Fin cfg.workerCount) :=
  match e with
  | .worker w =>
    match s.workers w with
    | .received _ => if s.stopEnqueue = true ∧ s.cancelled = false then [w] else []
    | _ => []
  | _ => []

/-- The strategies begun along a run once the stop flag was set, each by its worker. -/
def lateBegins (cfg : PoolConfig) (es : List (Event cfg.workerCount)) :
    List (Fin cfg.workerCount) :=
  cfg.system.history observeLateBegin es

/-- A worker that has passed its last check of the stop flag may still begin a strategy. -/
def WorkerPc.mayBegin : WorkerPc → Nat
  | .tryRecv | .received _ => 1
  | _ => 0

theorem WorkerPc.mayBegin_le (pc : WorkerPc) : pc.mayBegin ≤ 1 := by
  cases pc <;> simp [WorkerPc.mayBegin]

structure LateInv (cfg : PoolConfig) (s : State cfg.workerCount)
    (h : List (Fin cfg.workerCount)) : Prop where
  early : s.stopEnqueue = false → h = []
  once : ∀ w, h.count w + (s.workers w).mayBegin ≤ 1

theorem lateInv_init : LateInv cfg cfg.init [] := by
  refine ⟨fun _ => rfl, fun w => ?_⟩
  simp [init, WorkerPc.mayBegin]

/-- A step that begins nothing, and lets nobody begin once the flag is set. -/
theorem LateInv.keep {s s' : State cfg.workerCount} {h : List (Fin cfg.workerCount)}
    (hi : LateInv cfg s h) (hstop : s'.stopEnqueue = false → s.stopEnqueue = false)
    (hw : s.stopEnqueue = true → ∀ w, (s'.workers w).mayBegin ≤ (s.workers w).mayBegin) :
    LateInv cfg s' h := by
  refine ⟨fun hs => hi.early (hstop hs), fun w => ?_⟩
  cases hs : s.stopEnqueue with
  | false =>
    have hle := (s'.workers w).mayBegin_le
    simp only [hi.early hs, List.count_nil]
    omega
  | true =>
    have hle := hw hs w
    have honce := hi.once w
    omega

/-- The same where the step is seen to begin nothing. -/
theorem LateInv.silent {s s' : State cfg.workerCount} {e : Event cfg.workerCount}
    {h : List (Fin cfg.workerCount)} (hi : LateInv cfg s h) (hobs : observeLateBegin s e = [])
    (hstop : s'.stopEnqueue = false → s.stopEnqueue = false)
    (hw : s.stopEnqueue = true → ∀ w, (s'.workers w).mayBegin ≤ (s.workers w).mayBegin) :
    LateInv cfg s' (h ++ observeLateBegin s e) := by
  rw [hobs, List.append_nil]
  exact hi.keep hstop hw

theorem mayBegin_goWorker_le {n : Nat} {s : State n} {w : Fin n} {pc : WorkerPc}
    (h : pc.mayBegin ≤ (s.workers w).mayBegin) (v : Fin n) :
    ((goWorker s w pc).workers v).mayBegin ≤ (s.workers v).mayBegin := by
  show (Function.update s.workers w pc v).mayBegin ≤ _
  by_cases hv : v = w
  · subst hv
    rwa [Function.update_self]
  · rw [Function.update_of_ne hv]

theorem observeLateBegin_eq_nil {s : State cfg.workerCount} {w : Fin cfg.workerCount}
    (h : ∀ task, s.workers w = .received task →
      ¬(s.stopEnqueue = true ∧ s.cancelled = false)) :
    observeLateBegin s (.worker w) = [] := by
  unfold observeLateBegin
  dsimp only
  split
  · next task hpc => exact if_neg (h task hpc)
  · rfl

theorem LateInv.silent_worker {s s' : State cfg.workerCount} {w : Fin cfg.workerCount}
    {h : List (Fin cfg.workerCount)} (hi : LateInv cfg s h)
    (hquiet : ∀ task, s.workers w = .received task →
      ¬(s.stopEnqueue = true ∧ s.cancelled = false))
    (hstop : s'.stopEnqueue = false → s.stopEnqueue = false)
    (hw : s.stopEnqueue = true → ∀ v, (s'.workers v).mayBegin ≤ (s.workers v).mayBegin) :
    LateInv cfg s' (h ++ observeLateBegin s (.worker w)) :=
  hi.silent (observeLateBegin_eq_nil hquiet) hstop hw

theorem lateInv_worker {s s' : State cfg.workerCount} {w : Fin cfg.workerCount}
    {h : List (Fin cfg.workerCount)} (hi : LateInv cfg s h) (hm : WorkerMove cfg s w s') :
    LateInv cfg s' (h ++ observeLateBegin s (.worker w)) := by
  cases hm with
  | start task hpc hc =>
    by_cases hstop : s.stopEnqueue = true
    · have hobs : observeLateBegin s (.worker w) = [w] := by
        simp [observeLateBegin, hpc, hstop, hc]
      rw [hobs]
      refine ⟨fun hs => ?_, fun v => ?_⟩
      · have hs : s.stopEnqueue = false := hs
        simp [hstop] at hs
      · have honce := hi.once v
        show (h ++ [w]).count v + (Function.update s.workers w _ v).mayBegin ≤ 1
        rw [List.count_append]
        by_cases hv : v = w
        · -- what the worker might have begun it has begun
          subst hv
          rw [hpc] at honce
          rw [Function.update_self, List.count_singleton_self]
          exact honce
        · rw [Function.update_of_ne hv, List.count_singleton, beq_false_of_ne (Ne.symm hv)]
          exact honce
    · exact hi.silent_worker (fun _ _ hand => hstop hand.1) id fun h => absurd h hstop
  | check pc hpc hstop =>
    exact hi.silent_worker (fun _ _ hand => by simp [hstop] at hand) id fun h => by simp [hstop] at h
  | drop task hpc hc =>
    exact hi.silent_worker (fun _ _ hand => by simp [hc] at hand) id
      fun _ => mayBegin_goWorker_le (by simp [WorkerPc.mayBegin])
  | stopped hpc =>
    exact hi.silent_worker (fun _ hrecv => by simp [hrecv] at hpc) id
      fun _ => mayBegin_goWorker_le (by simp [WorkerPc.mayBegin])
  | empty hpc | retry hpc | disconnected hpc | giveUp hpc | closed result hpc =>
    exact hi.silent_worker (fun _ hrecv => by simp [hpc] at hrecv) id
      fun _ => mayBegin_goWorker_le (by simp [WorkerPc.mayBegin])
  | take task rest hpc =>
    refine hi.silent_worker (fun _ hrecv => by simp [hpc] at hrecv) id fun _ => ?_
    exact mayBegin_goWorker_le (s := { s with taskQueue := rest }) (by simp [hpc, WorkerPc.mayBegin])
  | send result hpc =>
    refine hi.silent_worker (fun _ hrecv => by simp [hpc] at hrecv) id fun _ => ?_
    exact mayBegin_goWorker_le (s := { s with resultQueue := s.resultQueue ++ [result] })
      (by simp [WorkerPc.mayBegin])

theorem lateInv_step {s s' : State cfg.workerCount} {e : Event cfg.workerCount}
    {h : List (Fin cfg.workerCount)} (hi : LateInv cfg s h) (hm : Move cfg s e s') :
    LateInv cfg s' (h ++ observeLateBegin s e) := by
  cases hm with
  | worker w hm => exact lateInv_worker hi hm
  | producer hm => cases hm <;> exact hi.silent rfl id fun _ _ => Nat.le_refl _
  | collector hm =>
    cases hm with
    | storeStop => exact hi.silent rfl (fun hs => by simp at hs) fun _ _ => Nat.le_refl _
    | _ => exact hi.silent rfl id fun _ _ => Nat.le_refl _
  | backend w task result attempts hpc =>
    exact hi.silent rfl id fun _ => mayBegin_goWorker_le (by simp [WorkerPc.mayBegin])
  | cancel | collectorCancelled | drainDeadline =>
    exact hi.silent rfl id fun _ _ => Nat.le_refl _

/-! ## Runs -/

/--
**Bounded overshoot.** Once the stop flag is set no worker begins more than one further strategy, and
the results collected hold at most `limit` successes, those in the result channel and one for each
worker.
-/
theorem overshoot_bounded (hL : 1 ≤ cfg.stopAtSuccess) {es : List (Event cfg.workerCount)}
    {s : State cfg.workerCount} (hrun : cfg.system.run es = some s) :
    (∀ w, (lateBegins cfg es).count w ≤ 1) ∧
      (returnedResults s).countP IndexedPoolResult.isSuccess ≤
        cfg.stopAtSuccess + cfg.resultChannelSize + cfg.workerCount := by
  have hlate : LateInv cfg s (lateBegins cfg es) :=
    System.run_history_invariant lateInv_init (fun _ _ _ _ hi he => lateInv_step hi (step_move he))
      hrun
  have hinv : StopInv cfg s ∧ OvershootInv cfg s := by
    refine System.run_invariant (I := fun s => StopInv cfg s ∧ OvershootInv cfg s)
      ⟨stopInv_init, overshootInv_init hL⟩ ?_ hrun
    rintro s e s' ⟨hs, hi⟩ he
    exact ⟨stopInv_step hs (step_move he), overshootInv_step hL hi hs (step_move he)⟩
  obtain ⟨hs, hi⟩ := hinv
  refine ⟨fun w => ?_, ?_⟩
  · have honce := hlate.once w
    omega
  · have hperm : (returnedResults s).Perm s.results := sortBy_perm _ _
    rw [hperm.countP_eq]
    cases hstop : s.stopEnqueue with
    | true =>
      have hset := hi.set hstop
      rw [seenSuccesses_eq] at hset
      omega
    | false =>
      have hunset := hi.unset hstop
      have hcount := hs.count (by omega)
      rcases hunset with hlt | ⟨heq, -⟩ <;> omega

/-- Two workers, a result channel of size one, one success wanted. -/
def overshotPool : PoolConfig where
  assignments := [{ workerId := 0, qnum := 200, fwmark := none, sourcePort := none },
    { workerId := 1, qnum := 201, fwmark := none, sourcePort := none }]
  taskChannelSize := 4
  taskChannelSize_pos := by decide
  resultChannelSize := 1
  resultChannelSize_pos := Nat.one_pos
  stopAtSuccess := 1
  nodes := [default, default, default, default]
  targets := []
  timeouts := default

abbrev overshotPoolWorker (w : Fin 2) : Fin overshotPool.workerCount := w

/-- Worker `w` takes a task and begins it, from its outer check. -/
def overshotPoolBegin (w : Fin 2) : List (Event overshotPool.workerCount) :=
  List.replicate 4 (.worker (overshotPoolWorker w))

def overshotPoolSuccess (w : Fin 2) : Event overshotPool.workerCount :=
  .backend (overshotPoolWorker w) { (default : ProbeResult) with outcome := .success } []

/-- The collector has counted the first success when one more is in the channel, one in a blocked
`send` and one still to come. -/
def overshotPoolRun : List (Event overshotPool.workerCount) :=
  List.replicate 41 .producer ++
    overshotPoolBegin 0 ++ [overshotPoolSuccess 0, .worker (overshotPoolWorker 0)] ++
    List.replicate 2 .collector ++
    overshotPoolBegin 0 ++ [overshotPoolSuccess 0, .worker (overshotPoolWorker 0)] ++
    overshotPoolBegin 0 ++ [overshotPoolSuccess 0] ++ overshotPoolBegin 1 ++
    -- `stop_enqueue.store(true)`
    List.replicate 3 .collector ++
    [.collector, .worker (overshotPoolWorker 0), overshotPoolSuccess 1] ++
    List.replicate 4 .collector ++ [.collector, .worker (overshotPoolWorker 1)] ++
    List.replicate 9 .collector ++
    [.worker (overshotPoolWorker 0), .worker (overshotPoolWorker 1)] ++
    List.replicate 4 .collector

/-- The bound is met with equality. -/
theorem overshoot_bounded_overshotPool :
    ∃ s, overshotPool.system.run overshotPoolRun = some s ∧ s.collector = .returned ∧
      (returnedResults s).countP IndexedPoolResult.isSuccess = 1 + 1 + 2 ∧
      (∀ w, (lateBegins overshotPool overshotPoolRun).count w ≤ 1) ∧
      (returnedResults s).countP IndexedPoolResult.isSuccess ≤ 1 + 1 + 2 := by
  have hmap : (overshotPool.system.run overshotPoolRun).map (fun s => (s.collector,
      (returnedResults s).countP IndexedPoolResult.isSuccess)) = some (.returned, 4) := by decide
  obtain ⟨s, hrun, hret⟩ := Option.map_eq_some_iff.mp hmap
  obtain ⟨hret, hcount⟩ := Prod.mk.inj hret
  exact ⟨s, hrun, hret, hcount, overshoot_bounded (by decide) hrun⟩

end ZapretChecker.Pool
