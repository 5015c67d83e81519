import Mathlib.Algebra.BigOperators.Fin
import Mathlib.Data.Multiset.Range
import ZapretChecker.Lib.Holdings
import ZapretChecker.Pool.Moves

/-!
# Invariants of the worker pool

What holds in every state of every run, next to the history of the tasks taken so far.

* `QueueInv` — the producer has sent the tasks `0, 1, …` in order, the workers have taken a prefix of
  them, and the task channel holds the rest
* `OriginInv` — a task in hand and a result on its way belong to a worker that took that task
* `StopInv` — the stop flag is set only when `limit` results were a success
* `ClosedInv` — why a party has ended, as long as the token is not cancelled
* `TokenInv` — without cancellation every task taken is in exactly one place
-/

namespace ZapretChecker.Pool

open StepSystem PoolConfig Holdings

variable {cfg : PoolConfig}

/-! ## What the parties hold -/

/-- The indices of the tasks a worker has in hand. -/
def WorkerPc.held : WorkerPc → Multiset Nat
  | .received task | .running task => {task.strategyIndex}
  | .sending result => {result.strategyIndex}
  | _ => 0

/-- The result the collector has in hand. -/
def CollectorPc.hand : CollectorPc → List IndexedPoolResult
  | .fetchAdd _ result | .storeStop _ result | .notifyWaiters _ result | .push _ result => [result]
  | _ => []

/-- The collector is in its main receive loop. -/
def CollectorPc.InMain : CollectorPc → Prop
  | .recv loop | .fetchAdd loop _ | .storeStop loop _ | .notifyWaiters loop _ | .push loop _ =>
    loop = .main
  | _ => False

/-- The outcome of a result is `Success`. -/
def IndexedPoolResult.isSuccess (r : IndexedPoolResult) : Bool := r.result.outcome = .success

/-- The results in hand that `success_count` has already counted. -/
def CollectorPc.counted : CollectorPc → Nat
  | .storeStop _ _ | .notifyWaiters _ _ => 1
  | .push _ result => if result.isSuccess then 1 else 0
  | _ => 0

theorem afterRecv_hand (loop : RecvLoop) (r : IndexedPoolResult) :
    (cfg.afterRecv loop r).hand = [r] := by
  unfold afterRecv
  split <;> rfl

theorem exit_hand (loop : RecvLoop) : (RecvLoop.exit loop).hand = [] := by cases loop <;> rfl

/-! ## The task channel -/

structure QueueInv (cfg : PoolConfig) (s : State cfg.workerCount)
    (h : List (Nat × Fin cfg.workerCount)) : Prop where
  queue : s.taskQueue = (List.range' h.length s.taskQueue.length).map cfg.task
  sent : h.length + s.taskQueue.length = s.producer.strategyIndex
  taken : h.map Prod.fst = List.range h.length
  bound : s.producer.strategyIndex ≤ cfg.nodes.length
  inHand : s.producer.pc ≠ .nextNode → s.producer.pc ≠ .finished →
    s.producer.strategyIndex < cfg.nodes.length

theorem queueInv_init : QueueInv cfg cfg.init [] := by
  refine ⟨rfl, rfl, rfl, Nat.zero_le _, ?_⟩
  intro h
  exact absurd rfl h

/-- The invariant speaks of the producer and the task channel only. -/
theorem QueueInv.congr {s s' : State cfg.workerCount} {h : List (Nat × Fin cfg.workerCount)}
    (hi : QueueInv cfg s h) (hp : s'.producer.pc = s.producer.pc)
    (hx : s'.producer.strategyIndex = s.producer.strategyIndex) (hq : s'.taskQueue = s.taskQueue) :
    QueueInv cfg s' h where
  queue := by rw [hq]; exact hi.queue
  sent := by rw [hq, hx]; exact hi.sent
  taken := hi.taken
  bound := by rw [hx]; exact hi.bound
  inHand := by rw [hp, hx]; exact hi.inHand

theorem queueInv_producer {s s' : State cfg.workerCount} {h : List (Nat × Fin cfg.workerCount)}
    (hi : QueueInv cfg s h) (hm : ProducerMove cfg s s') : QueueInv cfg s' h := by
  cases hm with
  | take hpc hlt => exact ⟨hi.queue, hi.sent, hi.taken, hi.bound, fun _ _ => hlt⟩
  | advance pc hfrom hto hreg =>
    exact ⟨hi.queue, hi.sent, hi.taken, hi.bound, fun _ _ => hi.inHand hfrom.1 hfrom.2⟩
  | createNotified hpc =>
    exact ⟨hi.queue, hi.sent, hi.taken, hi.bound,
      fun _ _ => hi.inHand (by simp [hpc]) (by simp [hpc])⟩
  | send hpc hlt =>
    have hidx := hi.inHand (by simp [hpc]) (by simp [hpc])
    refine ⟨?_, ?_, hi.taken, hidx, fun hne => absurd rfl hne⟩
    · show s.taskQueue ++ [_] = (List.range' _ (s.taskQueue ++ [_]).length).map cfg.task
      rw [List.length_append, List.length_singleton, List.range'_concat, List.map_append,
        ← hi.queue]
      simp [hi.sent]
    · show h.length + (s.taskQueue ++ [_]).length = s.producer.strategyIndex + 1
      rw [List.length_append, List.length_singleton, ← hi.sent, Nat.add_assoc]
  | finish hpc hwhy =>
    exact ⟨hi.queue, hi.sent, hi.taken, hi.bound, fun _ hne => absurd rfl hne⟩

/-- The task taken next is the one after the tasks taken so far. -/
theorem QueueInv.head {s : State cfg.workerCount} {h : List (Nat × Fin cfg.workerCount)}
    (hi : QueueInv cfg s h) {task : IndexedPoolTask} {rest : List IndexedPoolTask}
    (hq : s.taskQueue = task :: rest) :
    task = cfg.task h.length ∧ rest = (List.range' (h.length + 1) rest.length).map cfg.task := by
  have hqueue := hi.queue
  rw [hq, List.length_cons, List.range'_succ, List.map_cons, List.cons.injEq] at hqueue
  exact hqueue

theorem queueInv_take {s : State cfg.workerCount} {h : List (Nat × Fin cfg.workerCount)}
    (hi : QueueInv cfg s h) {task : IndexedPoolTask} {rest : List IndexedPoolTask}
    {w : Fin cfg.workerCount} (hq : s.taskQueue = task :: rest) (pc : WorkerPc) :
    QueueInv cfg (goWorker { s with taskQueue := rest } w pc) (h ++ [(task.strategyIndex, w)]) := by
  obtain ⟨htask, hrest⟩ := hi.head hq
  have hidx : task.strategyIndex = h.length := by rw [htask]; rfl
  refine ⟨?_, ?_, ?_, hi.bound, hi.inHand⟩
  · show rest = (List.range' (h ++ [_]).length rest.length).map cfg.task
    rw [List.length_append, List.length_singleton, ← hrest]
  · show (h ++ [_]).length + rest.length = s.producer.strategyIndex
    rw [← hi.sent, hq, List.length_append, List.length_singleton, List.length_cons]
    omega
  · rw [List.map_append, hi.taken, List.length_append, List.length_singleton, List.range_succ, hidx]
    rfl

/-- A step that takes no task is not observed. -/
theorem observeTake_eq_nil {s : State cfg.workerCount} {w : Fin cfg.workerCount}
    (h : s.workers w = .tryRecv → s.taskQueue = []) : cfg.observeTake s (.worker w) = [] := by
  simp only [observeTake]
  split
  · next hpc hq => rw [h hpc] at hq; simp at hq
  · rfl

theorem observeTake_take {s : State cfg.workerCount} {w : Fin cfg.workerCount}
    {task : IndexedPoolTask} {rest : List IndexedPoolTask} (hpc : s.workers w = .tryRecv)
    (hq : s.taskQueue = task :: rest) :
    cfg.observeTake s (.worker w) = [(task.strategyIndex, w)] := by
  simp [observeTake, hpc, hq]

theorem queueInv_step {s s' : State cfg.workerCount} {h : List (Nat × Fin cfg.workerCount)}
    {e : Event cfg.workerCount} (hi : QueueInv cfg s h) (hm : Move cfg s e s') :
    QueueInv cfg s' (h ++ cfg.observeTake s e) := by
  cases hm with
  | cancel | backend | collectorCancelled | drainDeadline =>
    simp only [observeTake, List.append_nil]
    exact hi.congr rfl rfl rfl
  | producer hm =>
    simp only [observeTake, List.append_nil]
    exact queueInv_producer hi hm
  | collector hm =>
    simp only [observeTake, List.append_nil]
    cases hm <;> exact hi.congr rfl rfl rfl
  | worker w hm =>
    cases hm with
    | take task rest hpc hq =>
      rw [observeTake_take hpc hq]
      exact queueInv_take hi hq _
    | empty hpc hq hopen | disconnected hpc hq hf =>
      rw [observeTake_eq_nil (fun _ => hq), List.append_nil]
      exact hi.congr rfl rfl rfl
    | check pc hpc hstop =>
      rw [observeTake_eq_nil (by rcases hpc with ⟨hpc, -⟩ | ⟨hpc, -⟩ <;> simp [hpc]),
        List.append_nil]
      exact hi.congr rfl rfl rfl
    | stopped hpc hstop =>
      rw [observeTake_eq_nil (by rcases hpc with hpc | hpc <;> simp [hpc]), List.append_nil]
      exact hi.congr rfl rfl rfl
    | retry hpc | giveUp hpc | drop _ hpc | start _ hpc | send _ hpc | closed _ hpc =>
      rw [observeTake_eq_nil (by simp [hpc]), List.append_nil]
      exact hi.congr rfl rfl rfl

/-! ## Where tasks and results come from -/

/-- `r` was built by a worker that took the task at `r`'s position. -/
def FromTake (cfg : PoolConfig) (h : List (Nat × Fin cfg.workerCount)) (r : IndexedPoolResult) :
    Prop :=
  ∃ w, (r.strategyIndex, w) ∈ h ∧ r.node = (cfg.task r.strategyIndex).node ∧
    r.workerId = (cfg.assignments.get w).workerId ∧ r.qnum = (cfg.assignments.get w).qnum

/-- What worker `w` has in hand is what it took. -/
def WorkerPc.Origin (cfg : PoolConfig) (h : List (Nat × Fin cfg.workerCount))
    (w : Fin cfg.workerCount) : WorkerPc → Prop
  | .received task | .running task =>
    (task.strategyIndex, w) ∈ h ∧ task = cfg.task task.strategyIndex
  | .sending result => FromTake cfg h result
  | _ => True

structure OriginInv (cfg : PoolConfig) (s : State cfg.workerCount)
    (h : List (Nat × Fin cfg.workerCount)) : Prop where
  workers : ∀ w, (s.workers w).Origin cfg h w
  queued : ∀ r ∈ s.resultQueue, FromTake cfg h r
  hand : ∀ r ∈ s.collector.hand, FromTake cfg h r
  results : ∀ r ∈ s.results, FromTake cfg h r

theorem FromTake.mono {h h' : List (Nat × Fin cfg.workerCount)} {r : IndexedPoolResult}
    (hr : FromTake cfg h r) (hsub : h ⊆ h') : FromTake cfg h' r := by
  obtain ⟨w, hw, hrest⟩ := hr
  exact ⟨w, hsub hw, hrest⟩

theorem WorkerPc.Origin.mono {h h' : List (Nat × Fin cfg.workerCount)} {w : Fin cfg.workerCount}
    {pc : WorkerPc} (ho : pc.Origin cfg h w) (hsub : h ⊆ h') : pc.Origin cfg h' w := by
  cases pc with
  | received task | running task => exact ⟨hsub ho.1, ho.2⟩
  | sending result => exact FromTake.mono ho hsub
  | outerCheck | innerCheck | tryRecv | queueEmpty | returned => trivial

theorem OriginInv.mono {s : State cfg.workerCount} {h h' : List (Nat × Fin cfg.workerCount)}
    (hi : OriginInv cfg s h) (hsub : h ⊆ h') : OriginInv cfg s h' where
  workers w := (hi.workers w).mono hsub
  queued r hr := (hi.queued r hr).mono hsub
  hand r hr := (hi.hand r hr).mono hsub
  results r hr := (hi.results r hr).mono hsub

theorem originInv_init : OriginInv cfg cfg.init [] := by
  refine ⟨fun _ => trivial, ?_, ?_, ?_⟩ <;> intro r hr <;> simp [init, CollectorPc.hand] at hr

/-- Worker `w` goes on with something it took. -/
theorem OriginInv.goWorker {s : State cfg.workerCount} {h : List (Nat × Fin cfg.workerCount)}
    (hi : OriginInv cfg s h) {w : Fin cfg.workerCount} {pc : WorkerPc}
    (hpc : pc.Origin cfg h w) : OriginInv cfg (goWorker s w pc) h where
  workers :=
    (Function.forall_update_iff s.workers fun v pc => pc.Origin cfg h v).mpr
      ⟨hpc, fun v _ => hi.workers v⟩
  queued := hi.queued
  hand := hi.hand
  results := hi.results

theorem originInv_worker {s s' : State cfg.workerCount} {h : List (Nat × Fin cfg.workerCount)}
    {w : Fin cfg.workerCount} (hi : OriginInv cfg s h) (hq : QueueInv cfg s h)
    (hm : WorkerMove cfg s w s') : OriginInv cfg s' (h ++ cfg.observeTake s (.worker w)) := by
  have hw := hi.workers w
  cases hm with
  | take task rest hpc htq =>
    rw [observeTake_take hpc htq]
    have htask : task = cfg.task task.strategyIndex := by
      have := (hq.head htq).1
      rw [this]
      rfl
    have hm := hi.mono (List.subset_append_left h [(task.strategyIndex, w)])
    have hi' : OriginInv cfg { s with taskQueue := rest } (h ++ [(task.strategyIndex, w)]) :=
      ⟨hm.workers, hm.queued, hm.hand, hm.results⟩
    exact hi'.goWorker ⟨by simp, htask⟩
  | check pc hpc hstop =>
    refine (hi.mono (List.subset_append_left _ _)).goWorker ?_
    rcases hpc with ⟨-, rfl⟩ | ⟨-, rfl⟩ <;> trivial
  | start task hpc hc =>
    refine (hi.mono (List.subset_append_left _ _)).goWorker ?_
    rw [hpc] at hw
    exact ⟨List.mem_append_left _ hw.1, hw.2⟩
  | send result hpc hopen hlt =>
    rw [hpc] at hw
    have hi' : OriginInv cfg { s with resultQueue := s.resultQueue ++ [result] } h := by
      refine ⟨hi.workers, ?_, hi.hand, hi.results⟩
      intro r hr
      rcases List.mem_append.mp hr with hr | hr
      · exact hi.queued r hr
      · rw [List.mem_singleton.mp hr]
        exact hw
    exact (hi'.mono (List.subset_append_left _ _)).goWorker trivial
  | empty | retry | stopped | disconnected | giveUp | drop | closed =>
    exact (hi.mono (List.subset_append_left _ _)).goWorker trivial

theorem originInv_collector {s s' : State cfg.workerCount}
    {h : List (Nat × Fin cfg.workerCount)} (hi : OriginInv cfg s h)
    (hm : CollectorMove cfg s s') : OriginInv cfg s' h := by
  have hhand := hi.hand
  cases hm with
  | recv loop result rest hpc hq =>
    have hqueued := hi.queued
    rw [hq] at hqueued
    refine ⟨hi.workers, fun r hr => hqueued r (List.mem_cons_of_mem _ hr), ?_, hi.results⟩
    intro r hr
    rw [show _ = _ from afterRecv_hand loop result, List.mem_singleton] at hr
    exact hqueued r (hr ▸ List.mem_cons_self ..)
  | closed loop hpc hq hall =>
    refine ⟨hi.workers, hi.queued, ?_, hi.results⟩
    intro r hr
    rw [show _ = _ from exit_hand loop] at hr
    simp at hr
  | fetchAdd loop result hpc =>
    rw [hpc] at hhand
    refine ⟨hi.workers, hi.queued, ?_, hi.results⟩
    dsimp only
    split <;> exact hhand
  | storeStop loop result hpc | notifyWaiters loop result hpc =>
    rw [hpc] at hhand
    exact ⟨hi.workers, hi.queued, hhand, hi.results⟩
  | push loop result hpc =>
    rw [hpc] at hhand
    refine ⟨hi.workers, hi.queued, by simp [CollectorPc.hand], ?_⟩
    intro r hr
    rcases List.mem_append.mp hr with hr | hr
    · exact hi.results r hr
    · exact hhand r hr
  | producerDone hpc hf | join hpc =>
    exact ⟨hi.workers, hi.queued, by simp [CollectorPc.hand], hi.results⟩

theorem originInv_step {s s' : State cfg.workerCount} {h : List (Nat × Fin cfg.workerCount)}
    {e : Event cfg.workerCount} (hi : OriginInv cfg s h) (hq : QueueInv cfg s h)
    (hm : Move cfg s e s') : OriginInv cfg s' (h ++ cfg.observeTake s e) := by
  cases hm with
  | cancel =>
    simp only [observeTake, List.append_nil]
    exact ⟨hi.workers, hi.queued, hi.hand, hi.results⟩
  | producer hm =>
    simp only [observeTake, List.append_nil]
    cases hm <;> exact ⟨hi.workers, hi.queued, hi.hand, hi.results⟩
  | worker w hm => exact originInv_worker hi hq hm
  | backend w task result attempts hpc =>
    simp only [observeTake, List.append_nil]
    have hw := hi.workers w
    rw [hpc] at hw
    exact hi.goWorker ⟨w, hw.1, congrArg IndexedPoolTask.node hw.2, rfl, rfl⟩
  | collector hm =>
    simp only [observeTake, List.append_nil]
    exact originInv_collector hi hm
  | collectorCancelled hpc hc | drainDeadline hpc =>
    simp only [observeTake, List.append_nil]
    exact ⟨hi.workers, hi.queued, by simp [CollectorPc.hand], hi.results⟩

/-! ## The stop flag -/

/-- What `record_success` knows at each of its lines. -/
def CollectorPc.Recording (cfg : PoolConfig) (s : State cfg.workerCount) : CollectorPc → Prop
  | .fetchAdd _ result => result.isSuccess = true ∧ cfg.stopAtSuccess ≠ 0
  | .storeStop _ result =>
    result.isSuccess = true ∧ cfg.stopAtSuccess ≠ 0 ∧ cfg.stopAtSuccess ≤ s.successCount
  | .notifyWaiters _ result => result.isSuccess = true ∧ s.stopEnqueue = true
  | _ => True

structure StopInv (cfg : PoolConfig) (s : State cfg.workerCount) : Prop where
  notified : s.producer.notified = some true → s.stopEnqueue = true
  limit : s.stopEnqueue = true → cfg.stopAtSuccess ≠ 0 ∧ cfg.stopAtSuccess ≤ s.successCount
  recording : s.collector.Recording cfg s
  count : cfg.stopAtSuccess ≠ 0 →
    s.successCount = s.results.countP IndexedPoolResult.isSuccess + s.collector.counted

theorem stopInv_init : StopInv cfg cfg.init := by
  refine ⟨?_, ?_, trivial, fun _ => rfl⟩ <;> intro h <;> simp [init] at h

/-- The invariant speaks of the `Notified` future, the stop state and the collector only. -/
theorem StopInv.congr {s s' : State cfg.workerCount} (hi : StopInv cfg s)
    (hn : s'.producer.notified = some true → s.producer.notified = some true)
    (hs : s'.stopEnqueue = s.stopEnqueue) (hk : s'.successCount = s.successCount)
    (hc : s'.collector = s.collector) (hr : s'.results = s.results) : StopInv cfg s' where
  notified h := by rw [hs]; exact hi.notified (hn h)
  limit h := by rw [hk]; exact hi.limit (hs ▸ h)
  recording := by
    have hrec := hi.recording
    rw [hc]
    cases hpc : s.collector with
    | fetchAdd loop result => rw [hpc] at hrec; exact hrec
    | storeStop loop result => rw [hpc] at hrec; exact ⟨hrec.1, hrec.2.1, by rw [hk]; exact hrec.2.2⟩
    | notifyWaiters loop result => rw [hpc] at hrec; exact ⟨hrec.1, by rw [hs]; exact hrec.2⟩
    | recv | push | awaitProducer | joinWorkers | returned => trivial
  count h := by rw [hk, hc, hr]; exact hi.count h

theorem stopInv_producer {s s' : State cfg.workerCount} (hi : StopInv cfg s)
    (hm : ProducerMove cfg s s') : StopInv cfg s' := by
  cases hm with
  | take | advance => exact hi.congr id rfl rfl rfl rfl
  | createNotified | send | finish => exact hi.congr (by simp) rfl rfl rfl rfl

/-- A result just taken out of the channel is not counted yet. -/
theorem counted_afterRecv (loop : RecvLoop) (r : IndexedPoolResult) (h : cfg.stopAtSuccess ≠ 0) :
    (cfg.afterRecv loop r).counted = 0 := by
  unfold afterRecv
  split
  · rfl
  · next hn =>
    have hr : r.isSuccess = false := by simpa [IndexedPoolResult.isSuccess, h] using hn
    simp [CollectorPc.counted, hr]

theorem stopInv_collector {s s' : State cfg.workerCount} (hi : StopInv cfg s)
    (hm : CollectorMove cfg s s') : StopInv cfg s' := by
  have hrec := hi.recording
  have hcount := hi.count
  cases hm with
  | recv loop result rest hpc hq =>
    rw [hpc] at hcount
    refine ⟨hi.notified, hi.limit, ?_, ?_⟩
    · dsimp only [afterRecv]
      split
      · next h => exact ⟨by simpa [IndexedPoolResult.isSuccess] using h.1, h.2⟩
      · trivial
    · intro h
      rw [hcount h, counted_afterRecv loop result h]
      rfl
  | closed loop hpc hq hall =>
    rw [hpc] at hcount
    exact ⟨hi.notified, hi.limit, by cases loop <;> trivial, by cases loop <;> exact hcount⟩
  | fetchAdd loop result hpc =>
    rw [hpc] at hrec hcount
    obtain ⟨hsucc, hlim⟩ := hrec
    refine ⟨hi.notified, ?_, ?_, ?_⟩
    · intro h
      exact ⟨hlim, Nat.le_succ_of_le (hi.limit h).2⟩
    · dsimp only
      split
      · next hle => exact ⟨hsucc, hlim, hle⟩
      · trivial
    · intro h
      have h0 := hcount h
      dsimp only
      split <;> simp [CollectorPc.counted, hsucc, h0]
  | storeStop loop result hpc =>
    rw [hpc] at hrec hcount
    exact ⟨fun _ => rfl, fun _ => hrec.2, ⟨hrec.1, rfl⟩, hcount⟩
  | notifyWaiters loop result hpc =>
    rw [hpc] at hrec hcount
    refine ⟨fun _ => hrec.2, hi.limit, trivial, ?_⟩
    intro h
    -- a success stays counted until it is pushed
    rw [hcount h]
    simp [CollectorPc.counted, hrec.1]
  | push loop result hpc =>
    rw [hpc] at hcount
    refine ⟨hi.notified, hi.limit, trivial, ?_⟩
    intro h
    rw [hcount h]
    simp [CollectorPc.counted, List.countP_append, List.countP_singleton]
  | producerDone hpc hf | join hpc =>
    rw [hpc] at hcount
    exact ⟨hi.notified, hi.limit, trivial, hcount⟩

theorem stopInv_step {s s' : State cfg.workerCount} {e : Event cfg.workerCount}
    (hi : StopInv cfg s) (hm : Move cfg s e s') : StopInv cfg s' := by
  cases hm with
  | cancel | backend => exact hi.congr id rfl rfl rfl rfl
  | producer hm => exact stopInv_producer hi hm
  | worker w hm => cases hm <;> exact hi.congr id rfl rfl rfl rfl
  | collector hm => exact stopInv_collector hi hm
  | collectorCancelled hpc | drainDeadline hpc =>
    have hcount := hi.count
    rw [hpc] at hcount
    exact ⟨hi.notified, hi.limit, trivial, hcount⟩

/-! ## Runs without cancellation -/

theorem cancelled_of_move {s s' : State cfg.workerCount} {e : Event cfg.workerCount}
    (hm : Move cfg s e s') (hc : s'.cancelled = false) : s.cancelled = false := by
  cases hm with
  | cancel => simp at hc
  | producer hm | worker w hm | collector hm => cases hm <;> exact hc
  | backend | collectorCancelled | drainDeadline => exact hc

/-- Why a party has ended, as long as the token is not cancelled. -/
structure ClosedInv (cfg : PoolConfig) (s : State cfg.workerCount) : Prop where
  producer : s.producer.pc = .finished →
    s.stopEnqueue = true ∨ s.producer.strategyIndex = cfg.nodes.length
  worker : ∀ w, s.workers w = .returned →
    s.stopEnqueue = true ∨ s.taskQueue = [] ∧ s.producer.pc = .finished
  collector : ¬s.collector.InMain → AllReturned s ∧ s.resultQueue = []

theorem closedInv_init : ClosedInv cfg cfg.init := by
  refine ⟨?_, ?_, ?_⟩
  · intro h
    simp [init] at h
  · intro w h
    simp [init] at h
  · intro h
    exact absurd rfl h

theorem closedInv_producer {s s' : State cfg.workerCount} {h : List (Nat × Fin cfg.workerCount)}
    (hi : ClosedInv cfg s) (hq : QueueInv cfg s h) (hs : StopInv cfg s)
    (hm : ProducerMove cfg s s') (hc : s'.cancelled = false) : ClosedInv cfg s' := by
  -- every move is one of a producer that has not finished
  have hworker : s.producer.pc ≠ .finished → ∀ w, s.workers w = .returned → s.stopEnqueue = true :=
    fun hne w hw => (hi.worker w hw).resolve_right fun hr => hne hr.2
  cases hm with
  | take hpc =>
    exact ⟨by simp, fun w hw => Or.inl (hworker (by simp [hpc]) w hw), hi.collector⟩
  | advance pc hfrom hto hreg =>
    exact ⟨fun hf => absurd hf hto.2, fun w hw => Or.inl (hworker hfrom.2 w hw), hi.collector⟩
  | createNotified hpc | send hpc =>
    exact ⟨by simp, fun w hw => Or.inl (hworker (by simp [hpc]) w hw), hi.collector⟩
  | finish hpc hwhy =>
    refine ⟨fun _ => ?_, fun w hw => Or.inl (hworker hpc w hw), hi.collector⟩
    rcases hwhy with ⟨-, hge⟩ | hcan | hstop | hn
    · exact Or.inr (le_antisymm hq.bound hge)
    · exact absurd (hcan.symm.trans hc) (by simp)
    · exact Or.inl hstop
    · exact Or.inl (hs.notified hn)

/-- Worker `w` goes on and has not returned. -/
theorem ClosedInv.goWorker {s : State cfg.workerCount} (hi : ClosedInv cfg s)
    {w : Fin cfg.workerCount} (hw : s.workers w ≠ .returned) {pc : WorkerPc}
    (hpc : pc = .returned → s.stopEnqueue = true ∨ s.taskQueue = [] ∧ s.producer.pc = .finished) :
    ClosedInv cfg (goWorker s w pc) where
  producer := hi.producer
  worker :=
    (Function.forall_update_iff s.workers fun _ pc' => pc' = WorkerPc.returned →
      s.stopEnqueue = true ∨ s.taskQueue = [] ∧ s.producer.pc = .finished).mpr
      ⟨hpc, fun v _ => hi.worker v⟩
  collector hc := absurd ((hi.collector hc).1 w) hw

theorem closedInv_worker {s s' : State cfg.workerCount} {w : Fin cfg.workerCount}
    (hi : ClosedInv cfg s) (hm : WorkerMove cfg s w s') (hc : s'.cancelled = false) :
    ClosedInv cfg s' := by
  cases hm with
  | check pc hpc hstop =>
    rcases hpc with ⟨hpc, rfl⟩ | ⟨hpc, rfl⟩ <;> exact hi.goWorker (by simp [hpc]) (by simp)
  | empty hpc | retry hpc | start _ hpc => exact hi.goWorker (by simp [hpc]) (by simp)
  | stopped hpc hstop =>
    exact hi.goWorker (by rcases hpc with hpc | hpc <;> simp [hpc]) fun _ => Or.inl hstop
  | disconnected hpc hq hf => exact hi.goWorker (by simp [hpc]) fun _ => Or.inr ⟨hq, hf⟩
  | giveUp hpc hcan | drop task hpc hcan => exact absurd (hcan.symm.trans hc) (by simp)
  | take task rest hpc hq =>
    -- the channel was not empty, so whoever has returned saw the stop flag
    have hi' : ClosedInv cfg { s with taskQueue := rest } := by
      refine ⟨hi.producer, ?_, hi.collector⟩
      intro v hv
      rcases hi.worker v hv with hstop | ⟨hnil, -⟩
      · exact Or.inl hstop
      · rw [hq] at hnil
        simp at hnil
    exact hi'.goWorker (by simp [hpc]) (by simp)
  | send result hpc hopen hlt =>
    have hi' : ClosedInv cfg { s with resultQueue := s.resultQueue ++ [result] } := by
      refine ⟨hi.producer, hi.worker, ?_⟩
      intro hcol
      have hw := (hi.collector hcol).1 w
      rw [hpc] at hw
      simp at hw
    exact hi'.goWorker (by simp [hpc]) (by simp)
  | closed result hpc hclosed =>
    -- the collector does not return before this worker has
    have hw := (hi.collector (by simp [hclosed, CollectorPc.InMain])).1 w
    rw [hpc] at hw
    simp at hw

/-- The collector goes on within its loop, or leaves it with every worker returned. -/
theorem closedInv_collector {s s' : State cfg.workerCount} (hi : ClosedInv cfg s)
    (hm : CollectorMove cfg s s') : ClosedInv cfg s' := by
  have hcol := hi.collector
  cases hm with
  | recv loop result rest hpc hq =>
    rw [hpc] at hcol
    refine ⟨hi.producer, hi.worker, ?_⟩
    intro hn
    have hne : ¬(CollectorPc.recv loop).InMain := by
      intro hmain
      apply hn
      dsimp only [afterRecv]
      split <;> exact hmain
    have hnil := (hcol hne).2
    rw [hq] at hnil
    simp at hnil
  | closed loop hpc hq hall => exact ⟨hi.producer, hi.worker, fun _ => ⟨hall, hq⟩⟩
  | fetchAdd loop result hpc =>
    rw [hpc] at hcol
    refine ⟨hi.producer, hi.worker, ?_⟩
    dsimp only
    split <;> exact hcol
  | storeStop loop result hpc =>
    rw [hpc] at hcol
    exact ⟨fun _ => Or.inl rfl, fun _ _ => Or.inl rfl, hcol⟩
  | notifyWaiters loop result hpc | push loop result hpc =>
    rw [hpc] at hcol
    exact ⟨hi.producer, hi.worker, hcol⟩
  | producerDone hpc hf | join hpc =>
    rw [hpc] at hcol
    exact ⟨hi.producer, hi.worker, fun _ => hcol id⟩

theorem closedInv_step {s s' : State cfg.workerCount} {h : List (Nat × Fin cfg.workerCount)}
    {e : Event cfg.workerCount} (hi : ClosedInv cfg s) (hq : QueueInv cfg s h) (hs : StopInv cfg s)
    (hm : Move cfg s e s') (hc : s'.cancelled = false) : ClosedInv cfg s' := by
  cases hm with
  | cancel => simp at hc
  | producer hm => exact closedInv_producer hi hq hs hm hc
  | worker w hm => exact closedInv_worker hi hm hc
  | backend w task result attempts hpc => exact hi.goWorker (by simp [hpc]) (by simp)
  | collector hm => exact closedInv_collector hi hm
  | collectorCancelled hpc hcan => exact absurd (hcan.symm.trans hc) (by simp)
  | drainDeadline hpc =>
    have hcol := hi.collector
    rw [hpc] at hcol
    exact ⟨hi.producer, hi.worker, fun _ => hcol (by simp [CollectorPc.InMain])⟩

/-! ## Every task taken is in one place -/

/-- The indices of the tasks the workers have in hand. -/
def heldBy {n : Nat} (workers : Fin n → WorkerPc) : Multiset Nat := ∑ w, (workers w).held

/-- The indices of the results that have left their worker. -/
def delivered {n : Nat} (s : State n) : List Nat :=
  (s.resultQueue ++ s.collector.hand ++ s.results).map IndexedPoolResult.strategyIndex

/-- Without cancellation every task taken is in exactly one place. -/
def TokenInv (cfg : PoolConfig) (s : State cfg.workerCount)
    (h : List (Nat × Fin cfg.workerCount)) : Prop :=
  heldBy s.workers + delivered s = Multiset.range h.length

theorem heldBy_update {n : Nat} (workers : Fin n → WorkerPc) (w : Fin n) (pc : WorkerPc) :
    heldBy (Function.update workers w pc) + (workers w).held = heldBy workers + pc.held :=
  sum_hold_update WorkerPc.held workers w pc

/-- A worker that goes on with the same task holds the same index. -/
theorem heldBy_goWorker {n : Nat} {s : State n} {w : Fin n} {pc : WorkerPc}
    (h : pc.held = (s.workers w).held) : heldBy (goWorker s w pc).workers = heldBy s.workers := by
  have hu := heldBy_update s.workers w pc
  rw [h] at hu
  exact add_right_cancel hu

theorem tokenInv_init : TokenInv cfg cfg.init [] := by
  simp [TokenInv, heldBy, delivered, init, WorkerPc.held, CollectorPc.hand]

theorem tokenInv_worker {s s' : State cfg.workerCount} {h : List (Nat × Fin cfg.workerCount)}
    {w : Fin cfg.workerCount} (hi : TokenInv cfg s h) (hq : QueueInv cfg s h)
    (hcl : ClosedInv cfg s) (hm : WorkerMove cfg s w s') (hc : s'.cancelled = false) :
    TokenInv cfg s' (h ++ cfg.observeTake s (.worker w)) := by
  -- a move that takes nothing and hands nothing over
  have hsame : ∀ pc : WorkerPc, (s.workers w = .tryRecv → s.taskQueue = []) →
      pc.held = (s.workers w).held →
      TokenInv cfg (goWorker s w pc) (h ++ cfg.observeTake s (.worker w)) := by
    intro pc hnil hheld
    rw [observeTake_eq_nil hnil, List.append_nil]
    unfold TokenInv
    rw [heldBy_goWorker hheld]
    exact hi
  cases hm with
  | check pc hpc hstop =>
    rcases hpc with ⟨hpc, rfl⟩ | ⟨hpc, rfl⟩ <;>
      exact hsame _ (by simp [hpc]) (by simp [hpc, WorkerPc.held])
  | empty hpc hnil => exact hsame _ (fun _ => hnil) (by simp [hpc, WorkerPc.held])
  | disconnected hpc hnil => exact hsame _ (fun _ => hnil) (by simp [hpc, WorkerPc.held])
  | retry hpc | start _ hpc => exact hsame _ (by simp [hpc]) (by simp [hpc, WorkerPc.held])
  | stopped hpc hstop =>
    rcases hpc with hpc | hpc <;> exact hsame _ (by simp [hpc]) (by simp [hpc, WorkerPc.held])
  | giveUp hpc hcan | drop task hpc hcan => exact absurd (hcan.symm.trans hc) (by simp)
  | take task rest hpc htq =>
    rw [observeTake_take hpc htq]
    have hidx : task.strategyIndex = h.length := by rw [(hq.head htq).1]; rfl
    have hu := heldBy_update s.workers w (.received task)
    rw [hpc] at hu
    show heldBy (Function.update s.workers w _) + (delivered s : Multiset Nat) = _
    rw [show heldBy (Function.update s.workers w (.received task)) =
      heldBy s.workers + {task.strategyIndex} by simpa [WorkerPc.held] using hu,
      List.length_append, List.length_singleton, Multiset.range_succ, ← hi, hidx,
      add_right_comm, add_comm, Multiset.singleton_add]
  | send result hpc hopen hlt =>
    rw [observeTake_eq_nil (by simp [hpc]), List.append_nil]
    have hu := heldBy_update s.workers w .outerCheck
    rw [hpc] at hu
    show heldBy (Function.update s.workers w _) +
      (((s.resultQueue ++ [result] ++ s.collector.hand ++ s.results).map _ : List Nat) :
        Multiset Nat) = _
    rw [← hi, show heldBy s.workers = heldBy (Function.update s.workers w .outerCheck) +
      {result.strategyIndex} by simpa [WorkerPc.held] using hu.symm, add_assoc]
    congr 1
    simp only [delivered, List.map_append, List.map_cons, List.map_nil, ← Multiset.coe_add,
      Multiset.coe_singleton]
    ac_rfl
  | closed result hpc hclosed =>
    have hw := (hcl.collector (by simp [hclosed, CollectorPc.InMain])).1 w
    rw [hpc] at hw
    simp at hw

/-- The collector only moves results from one place to the next. -/
theorem delivered_collector {s s' : State cfg.workerCount} (hm : CollectorMove cfg s s') :
    (delivered s').Perm (delivered s) ∧ s'.workers = s.workers := by
  cases hm with
  | recv loop result rest hpc hq =>
    refine ⟨?_, rfl⟩
    refine List.Perm.map _ ?_
    rw [hpc, hq]
    show (rest ++ (cfg.afterRecv loop result).hand ++ s.results).Perm _
    rw [afterRecv_hand, show (CollectorPc.recv loop).hand = [] from rfl, List.append_nil,
      List.append_assoc]
    exact List.perm_middle
  | closed loop hpc hq hall =>
    refine ⟨?_, rfl⟩
    simp only [delivered, hpc, exit_hand]
    exact .refl _
  | fetchAdd loop result hpc =>
    refine ⟨?_, rfl⟩
    simp only [delivered, hpc]
    split <;> exact .refl _
  | storeStop loop result hpc | notifyWaiters loop result hpc | producerDone hpc | join hpc =>
    refine ⟨?_, rfl⟩
    simp only [delivered, hpc]
    exact .refl _
  | push loop result hpc =>
    refine ⟨?_, rfl⟩
    refine List.Perm.map _ ?_
    rw [hpc]
    show (s.resultQueue ++ [] ++ (s.results ++ [result])).Perm (s.resultQueue ++ [result] ++ s.results)
    rw [List.append_nil, List.append_assoc]
    exact List.Perm.append_left _ List.perm_append_comm

theorem tokenInv_step {s s' : State cfg.workerCount} {h : List (Nat × Fin cfg.workerCount)}
    {e : Event cfg.workerCount} (hi : TokenInv cfg s h) (hq : QueueInv cfg s h)
    (hcl : ClosedInv cfg s) (hm : Move cfg s e s') (hc : s'.cancelled = false) :
    TokenInv cfg s' (h ++ cfg.observeTake s e) := by
  cases hm with
  | cancel => simp at hc
  | producer hm =>
    simp only [observeTake, List.append_nil]
    cases hm <;> exact hi
  | worker w hm => exact tokenInv_worker hi hq hcl hm hc
  | backend w task result attempts hpc =>
    simp only [observeTake, List.append_nil]
    unfold TokenInv
    rw [heldBy_goWorker (by simp [hpc, WorkerPc.held, indexed])]
    exact hi
  | collector hm =>
    simp only [observeTake, List.append_nil]
    obtain ⟨hperm, hworkers⟩ := delivered_collector hm
    unfold TokenInv
    rw [hworkers, Multiset.coe_eq_coe.mpr hperm]
    exact hi
  | collectorCancelled hpc hcan => exact absurd (hcan.symm.trans hc) (by simp)
  | drainDeadline hpc =>
    simp only [observeTake, List.append_nil]
    unfold TokenInv at hi ⊢
    simp only [delivered, hpc] at hi ⊢
    exact hi

/-! ## All invariants -/

/-- The invariant of the pool. The last two parts need the token not to be cancelled. -/
structure PoolInv (cfg : PoolConfig) (s : State cfg.workerCount)
    (h : List (Nat × Fin cfg.workerCount)) : Prop where
  queue : QueueInv cfg s h
  origin : OriginInv cfg s h
  stop : StopInv cfg s
  closed : s.cancelled = false → ClosedInv cfg s
  token : s.cancelled = false → TokenInv cfg s h

/-- **Every run keeps the invariant**, with the tasks taken so far as its history. -/
theorem poolInv_run {es : List (Event cfg.workerCount)} {s : State cfg.workerCount}
    (h : cfg.system.run es = some s) : PoolInv cfg s (cfg.takes es) := by
  refine System.run_history_invariant (I := PoolInv cfg)
    ⟨queueInv_init, originInv_init, stopInv_init, fun _ => closedInv_init, fun _ => tokenInv_init⟩
    ?_ h
  intro s h e s' hi he
  have hm := step_move he
  refine ⟨queueInv_step hi.queue hm, originInv_step hi.origin hi.queue hm, stopInv_step hi.stop hm,
    fun hc => ?_, fun hc => ?_⟩
  · have hc0 := cancelled_of_move hm hc
    exact closedInv_step (hi.closed hc0) hi.queue hi.stop hm hc
  · have hc0 := cancelled_of_move hm hc
    exact tokenInv_step (hi.token hc0) hi.queue (hi.closed hc0) hm hc

/-- A run without a cancellation ends with the token not cancelled. -/
theorem not_cancelled_of_run {es : List (Event cfg.workerCount)} {s : State cfg.workerCount}
    (h : cfg.system.run es = some s) (hes : Event.cancel ∉ es) : s.cancelled = false := by
  refine System.run_induction (S := cfg.system)
    (P := fun es s => Event.cancel ∉ es → s.cancelled = false) (fun _ => rfl) ?_ h hes
  intro es s e s' _ ih he hes
  have hc := ih fun hmem => hes (List.mem_append_left _ hmem)
  have hne : e ≠ Event.cancel := fun heq => hes (by simp [heq])
  cases step_move he with
  | cancel => exact absurd rfl hne
  | producer hm | worker w hm | collector hm => cases hm <;> exact hc
  | backend | collectorCancelled | drainDeadline => exact hc

end ZapretChecker.Pool
