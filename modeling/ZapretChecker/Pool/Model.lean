import Mathlib.Logic.Function.Basic
import Mathlib.Tactic.Simps.Basic
import ZapretChecker.Lib.SortBy
import ZapretChecker.Lib.StepSystem
import ZapretChecker.Types

/-!
# The worker pool

`src/worker_pool.rs` with the producer of `Scheduler::run_graph_with_bayes` (`src/scheduler.rs`), as
one step system. The parties are the producer, the workers and the collector (`WorkerPool::run`
itself). They share two bounded channels, the stop state and the cancellation token.

A step is one access to shared state: one load of a flag, one poll, one push or pop. A program
counter names what the party does next.

* The producer is the only sender of tasks, so a free slot of the task channel is its own.
* `Notified` futures are `Producer.notified`: `none` while there is none, `some woken` once it is
  created. `notify_waiters` wakes a future that exists and leaves nothing behind otherwise.
* A worker that has returned has dropped its `result_tx`; a producer that has finished has dropped
  the `EnqueueContext`. `task_rx` lives in `run` until it returns.
* The backend's answer and the moment a deadline passes are part of the label.
-/

namespace ZapretChecker.Pool

open StepSystem SortBy

structure IndexedPoolTask where
  strategyIndex : Nat
  node : StrategyNode
  targets : List StrategyProbeTarget
  timeouts : ProbeTimeouts
  deriving DecidableEq, Inhabited

structure IndexedPoolResult where
  strategyIndex : Nat
  node : StrategyNode
  result : ProbeResult
  attempts : List ProbeResult
  workerId : Nat
  qnum : UInt16
  deriving DecidableEq, Inhabited

/-- What one call of `WorkerPool::run` works on. `mpsc::channel(0)` panics, hence the bounds. -/
structure PoolConfig where
  assignments : List WorkerAssignment
  taskChannelSize : Nat
  taskChannelSize_pos : 1 ≤ taskChannelSize
  resultChannelSize : Nat
  resultChannelSize_pos : 1 ≤ resultChannelSize
  stopAtSuccess : Nat
  /-- The nodes the producer walks, in order. -/
  nodes : List StrategyNode
  targets : List StrategyProbeTarget
  timeouts : ProbeTimeouts

namespace PoolConfig

abbrev workerCount (cfg : PoolConfig) : Nat := cfg.assignments.length

/-- The task the producer builds for the node at position `i`. -/
def task (cfg : PoolConfig) (i : Nat) : IndexedPoolTask where
  strategyIndex := i
  node := cfg.nodes.getD i default
  targets := cfg.targets
  timeouts := cfg.timeouts

end PoolConfig

/-! ## Program counters -/

/-- Where the producer is. -/
inductive ProducerPc
  /-- `ordered_nodes.next()` -/
  | nextNode
  /-- `ctx.should_stop()`, the token -/
  | ctxCancelled
  /-- `ctx.should_stop()`, the stop flag -/
  | ctxStop
  /-- `enqueue`, first line, the token -/
  | enqueueCancelled
  /-- `enqueue`, first line, the stop flag -/
  | enqueueStop
  /-- `select!` polls `cancelled()` -/
  | pollCancelled
  /-- `select!` polls `stopped()` for the first time: its own check of the stop flag -/
  | stoppedCheck
  /-- `stopped()` saw the flag unset and is about to create the `Notified` future -/
  | stoppedNotified
  /-- `select!` polls the `Notified` future -/
  | pollNotified
  /-- `select!` polls `send` -/
  | pollSend
  /-- every branch is pending -/
  | parked
  /-- the producer future is done and its `EnqueueContext` dropped -/
  | finished
  deriving DecidableEq

structure Producer where
  pc : ProducerPc
  /-- Position of the node in hand, or of the next one. -/
  strategyIndex : Nat
  notified : Option Bool
  deriving DecidableEq

/-- Where a worker is in `worker_loop`. -/
inductive WorkerPc
  /-- the check of the stop flag in the outer loop -/
  | outerCheck
  /-- the check of the stop flag in the inner loop -/
  | innerCheck
  /-- `receiver.try_recv()` under the lock -/
  | tryRecv
  /-- `TryRecvError::Empty`: look at the token, then sleep -/
  | queueEmpty
  /-- a task in hand: look at the token -/
  | received (task : IndexedPoolTask)
  /-- inside `backend.run_strategy` -/
  | running (task : IndexedPoolTask)
  /-- `result_tx.send` -/
  | sending (result : IndexedPoolResult)
  | returned
  deriving DecidableEq

/-- The two receive loops of `run`. -/
inductive RecvLoop
  | main
  | drain
  deriving DecidableEq

/-- Where `WorkerPool::run` is. -/
inductive CollectorPc
  | recv (loop : RecvLoop)
  /-- `record_success`: `success_count.fetch_add` -/
  | fetchAdd (loop : RecvLoop) (result : IndexedPoolResult)
  /-- `record_success`: `stop_enqueue.store(true)` -/
  | storeStop (loop : RecvLoop) (result : IndexedPoolResult)
  /-- `record_success`: `notify.notify_waiters()` -/
  | notifyWaiters (loop : RecvLoop) (result : IndexedPoolResult)
  /-- `results.push` -/
  | push (loop : RecvLoop) (result : IndexedPoolResult)
  /-- `producer_handle.await` -/
  | awaitProducer
  | joinWorkers
  | returned
  deriving DecidableEq

/-! ## States and labels -/

structure State (n : Nat) where
  producer : Producer
  taskQueue : List IndexedPoolTask
  workers : Fin n → WorkerPc
  resultQueue : List IndexedPoolResult
  collector : CollectorPc
  results : List IndexedPoolResult
  successCount : Nat
  stopEnqueue : Bool
  cancelled : Bool

inductive Event (n : Nat)
  /-- somebody cancels the token -/
  | cancel
  /-- the producer's next step -/
  | producer
  /-- the next step of worker `w`, outside its backend call -/
  | worker (w : Fin n)
  /-- the backend answers worker `w` -/
  | backend (w : Fin n) (result : ProbeResult) (attempts : List ProbeResult)
  /-- the collector's next step -/
  | collector
  /-- `select!` of the main loop takes the `cancelled()` branch -/
  | collectorCancelled
  /-- `drain_until` passes -/
  | drainDeadline
  deriving DecidableEq

namespace PoolConfig

variable (cfg : PoolConfig)

def init : State cfg.workerCount where
  producer := { pc := .nextNode, strategyIndex := 0, notified := none }
  taskQueue := []
  workers := fun _ => .outerCheck
  resultQueue := []
  collector := .recv .main
  results := []
  successCount := 0
  stopEnqueue := false
  cancelled := false

/-! ## The steps -/

/-- The producer goes on at `pc`. -/
@[simps] def goProducer {n : Nat} (s : State n) (pc : ProducerPc) : State n :=
  { s with producer := { s.producer with pc := pc } }

/-- The producer loop breaks. The futures of `select!` are dropped. -/
@[simps] def finishProducer {n : Nat} (s : State n) : State n :=
  { s with producer := { s.producer with pc := .finished, notified := none } }

/--
One step of the producer.

`biased` polls the branches in the order written: the token, `stopped()`, `send`. The first poll of
`stopped()` checks the flag and creates the `Notified` future; later polls only poll that future.
-/
def producerStep (s : State cfg.workerCount) : Option (State cfg.workerCount) :=
  match s.producer.pc with
  | .nextNode =>
    if s.producer.strategyIndex < cfg.nodes.length then some (goProducer s .ctxCancelled)
    else some (finishProducer s)
  | .ctxCancelled => some (if s.cancelled then finishProducer s else goProducer s .ctxStop)
  | .ctxStop => some (if s.stopEnqueue then finishProducer s else goProducer s .enqueueCancelled)
  | .enqueueCancelled => some (if s.cancelled then finishProducer s else goProducer s .enqueueStop)
  | .enqueueStop => some (if s.stopEnqueue then finishProducer s else goProducer s .pollCancelled)
  | .pollCancelled =>
    if s.cancelled then some (finishProducer s)
    else match s.producer.notified with
      | none => some (goProducer s .stoppedCheck)
      | some _ => some (goProducer s .pollNotified)
  | .stoppedCheck => some (if s.stopEnqueue then finishProducer s else goProducer s .stoppedNotified)
  | .stoppedNotified =>
    some { s with producer := { s.producer with pc := .pollNotified, notified := some false } }
  | .pollNotified =>
    some (if s.producer.notified = some true then finishProducer s else goProducer s .pollSend)
  | .pollSend =>
    if s.taskQueue.length < cfg.taskChannelSize then
      some { s with
        taskQueue := s.taskQueue ++ [cfg.task s.producer.strategyIndex]
        producer :=
          { pc := .nextNode, strategyIndex := s.producer.strategyIndex + 1, notified := none } }
    else some (goProducer s .parked)
  | .parked =>
    -- a wake-up polls every branch again, in order
    if s.cancelled ∨ s.producer.notified = some true ∨ s.taskQueue.length < cfg.taskChannelSize then
      some (goProducer s .pollCancelled)
    else none
  | .finished => none

/-- Worker `w` goes on at `pc`. -/
@[simps] def goWorker {n : Nat} (s : State n) (w : Fin n) (pc : WorkerPc) : State n :=
  { s with workers := Function.update s.workers w pc }

/-- One step of worker `w`. The call of the backend is left to the label. -/
def workerStep (s : State cfg.workerCount) (w : Fin cfg.workerCount) :
    Option (State cfg.workerCount) :=
  match s.workers w with
  | .outerCheck => some (goWorker s w (if s.stopEnqueue then .returned else .innerCheck))
  | .innerCheck => some (goWorker s w (if s.stopEnqueue then .returned else .tryRecv))
  | .tryRecv =>
    match s.taskQueue with
    | task :: rest => some (goWorker { s with taskQueue := rest } w (.received task))
    | [] => some (goWorker s w (if s.producer.pc = .finished then .returned else .queueEmpty))
  | .queueEmpty => some (goWorker s w (if s.cancelled then .returned else .innerCheck))
  | .received task => some (goWorker s w (if s.cancelled then .returned else .running task))
  | .running _ => none
  | .sending result =>
    -- `send` fails once `run` has returned and dropped `result_rx`
    if s.collector = .returned then some (goWorker s w .returned)
    else if s.resultQueue.length < cfg.resultChannelSize then
      some (goWorker { s with resultQueue := s.resultQueue ++ [result] } w .outerCheck)
    else none
  | .returned => none

/-- The result worker `w` builds from the backend's answer to `task`. -/
def indexed (w : Fin cfg.workerCount) (task : IndexedPoolTask) (result : ProbeResult)
    (attempts : List ProbeResult) : IndexedPoolResult where
  strategyIndex := task.strategyIndex
  node := task.node
  result := result
  attempts := attempts
  workerId := (cfg.assignments.get w).workerId
  qnum := (cfg.assignments.get w).qnum

/-- The backend answers worker `w`. -/
def backendStep (s : State cfg.workerCount) (w : Fin cfg.workerCount) (result : ProbeResult)
    (attempts : List ProbeResult) : Option (State cfg.workerCount) :=
  match s.workers w with
  | .running task => some (goWorker s w (.sending (cfg.indexed w task result attempts)))
  | _ => none

/-- The collector has taken `result` out of the channel. `record_success` is a no-op at limit 0. -/
def afterRecv (loop : RecvLoop) (result : IndexedPoolResult) : CollectorPc :=
  if result.result.outcome = .success ∧ cfg.stopAtSuccess ≠ 0 then .fetchAdd loop result
  else .push loop result

/-- Every worker has returned, so every `result_tx` is dropped. -/
def AllReturned {n : Nat} (s : State n) : Prop := ∀ w, s.workers w = .returned

instance {n : Nat} (s : State n) : Decidable (AllReturned s) :=
  inferInstanceAs (Decidable (∀ w, s.workers w = .returned))

/-- What `run` does when the result channel is closed and empty. -/
def RecvLoop.exit : RecvLoop → CollectorPc
  | .main => .awaitProducer
  | .drain => .joinWorkers

/-- One step of the collector. -/
def collectorStep (s : State cfg.workerCount) : Option (State cfg.workerCount) :=
  match s.collector with
  | .recv loop =>
    match s.resultQueue with
    | result :: rest =>
      some { s with resultQueue := rest, collector := cfg.afterRecv loop result }
    | [] => if AllReturned s then some { s with collector := RecvLoop.exit loop } else none
  | .fetchAdd loop result =>
    some { s with
      successCount := s.successCount + 1
      collector := if cfg.stopAtSuccess ≤ s.successCount + 1 then .storeStop loop result
        else .push loop result }
  | .storeStop loop result =>
    some { s with stopEnqueue := true, collector := .notifyWaiters loop result }
  | .notifyWaiters loop result =>
    some { s with
      producer := { s.producer with notified := s.producer.notified.map fun _ => true }
      collector := .push loop result }
  | .push loop result => some { s with results := s.results ++ [result], collector := .recv loop }
  | .awaitProducer =>
    if s.producer.pc = .finished then some { s with collector := .recv .drain } else none
  | .joinWorkers =>
    -- each handle is awaited at most `shutdown_timeout_ms`, so this step is always taken
    some { s with collector := .returned }
  | .returned => none

def step (s : State cfg.workerCount) : Event cfg.workerCount → Option (State cfg.workerCount)
  | .cancel => some { s with cancelled := true }
  | .producer => cfg.producerStep s
  | .worker w => cfg.workerStep s w
  | .backend w result attempts => cfg.backendStep s w result attempts
  | .collector => cfg.collectorStep s
  | .collectorCancelled =>
    if s.collector = .recv .main ∧ s.cancelled then some { s with collector := .awaitProducer }
    else none
  | .drainDeadline =>
    if s.collector = .recv .drain then some { s with collector := .joinWorkers } else none

/-- The worker pool as a step system. -/
def system : System (State cfg.workerCount) (Event cfg.workerCount) where
  init := cfg.init
  step := cfg.step

/-- The list `run` returns: `results.sort_by_key(|item| item.strategy_index)`. -/
def returnedResults {n : Nat} (s : State n) : List IndexedPoolResult :=
  sortByKey IndexedPoolResult.strategyIndex s.results

/-- The observation of a task being taken out of the channel, with the worker that took it. -/
def observeTake (s : State cfg.workerCount) (e : Event cfg.workerCount) :
    List (Nat × Fin cfg.workerCount) :=
  match e with
  | .worker w =>
    match s.workers w, s.taskQueue with
    | .tryRecv, task :: _ => [(task.strategyIndex, w)]
    | _, _ => []
  | _ => []

/-- The tasks taken along a run, in order, each with the worker that took it. -/
def takes (es : List (Event cfg.workerCount)) : List (Nat × Fin cfg.workerCount) :=
  cfg.system.history cfg.observeTake es

end PoolConfig

end ZapretChecker.Pool
