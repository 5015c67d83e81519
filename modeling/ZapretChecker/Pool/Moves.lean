import ZapretChecker.Pool.Model

/-!
# What one step of the pool can do

One inversion lemma for each party: everything a step can do, with its guards. The invariants of
`ZapretChecker.Pool.Invariant` are case analyses over these moves and never unfold a step function.
-/

namespace ZapretChecker.Pool

open StepSystem PoolConfig

variable {cfg : PoolConfig}

/-! ## The producer -/

/-- These branches are polled only after the `Notified` future was created. -/
def ProducerPc.Registered : ProducerPc → Prop
  | .pollNotified | .pollSend | .parked => True
  | _ => False

/-- The moves of the producer. -/
inductive ProducerMove (cfg : PoolConfig) (s : State cfg.workerCount) :
    State cfg.workerCount → Prop
  | take (hpc : s.producer.pc = .nextNode) (hlt : s.producer.strategyIndex < cfg.nodes.length) :
    ProducerMove cfg s (goProducer s .ctxCancelled)
  /-- from one check or poll to the next, with the same node in hand -/
  | advance (pc : ProducerPc) (hfrom : s.producer.pc ≠ .nextNode ∧ s.producer.pc ≠ .finished)
    (hto : pc ≠ .nextNode ∧ pc ≠ .finished)
    (hreg : pc.Registered → s.producer.pc.Registered ∨ s.producer.notified ≠ none) :
    ProducerMove cfg s (goProducer s pc)
  | createNotified (hpc : s.producer.pc = .stoppedNotified) :
    ProducerMove cfg s
      { s with producer := { s.producer with pc := .pollNotified, notified := some false } }
  | send (hpc : s.producer.pc = .pollSend) (hlt : s.taskQueue.length < cfg.taskChannelSize) :
    ProducerMove cfg s
      { s with
        taskQueue := s.taskQueue ++ [cfg.task s.producer.strategyIndex]
        producer :=
          { pc := .nextNode, strategyIndex := s.producer.strategyIndex + 1, notified := none } }
  | finish (hpc : s.producer.pc ≠ .finished)
    (hwhy : (s.producer.pc = .nextNode ∧ cfg.nodes.length ≤ s.producer.strategyIndex) ∨
      s.cancelled = true ∨ s.stopEnqueue = true ∨ s.producer.notified = some true) :
    ProducerMove cfg s (finishProducer s)

theorem producerStep_move {s s' : State cfg.workerCount} (h : cfg.producerStep s = some s') :
    ProducerMove cfg s s' := by
  cases hpc : s.producer.pc with
  | nextNode =>
    simp only [producerStep, hpc] at h
    split at h
    · next hlt => cases h; exact .take hpc hlt
    · next hge => cases h; exact .finish (by simp [hpc]) (Or.inl ⟨hpc, by omega⟩)
  | ctxCancelled | enqueueCancelled =>
    simp only [producerStep, hpc, Option.some.injEq] at h
    subst h
    split
    · next hc => exact .finish (by simp [hpc]) (Or.inr (Or.inl hc))
    · exact .advance _ (by simp [hpc]) (by simp) (by simp [ProducerPc.Registered])
  | ctxStop | enqueueStop | stoppedCheck =>
    simp only [producerStep, hpc, Option.some.injEq] at h
    subst h
    split
    · next hs => exact .finish (by simp [hpc]) (Or.inr (Or.inr (Or.inl hs)))
    · exact .advance _ (by simp [hpc]) (by simp) (by simp [ProducerPc.Registered])
  | pollCancelled =>
    simp only [producerStep, hpc] at h
    split at h
    · next hc => cases h; exact .finish (by simp [hpc]) (Or.inr (Or.inl hc))
    · split at h
      · cases h; exact .advance _ (by simp [hpc]) (by simp) (by simp [ProducerPc.Registered])
      · next woken hn => cases h; exact .advance _ (by simp [hpc]) (by simp) fun _ => by simp [hn]
  | stoppedNotified =>
    simp only [producerStep, hpc, Option.some.injEq] at h
    subst h
    exact .createNotified hpc
  | pollNotified =>
    simp only [producerStep, hpc, Option.some.injEq] at h
    subst h
    split
    · next hn => exact .finish (by simp [hpc]) (Or.inr (Or.inr (Or.inr hn)))
    · exact .advance _ (by simp [hpc]) (by simp) fun _ => Or.inl (by rw [hpc]; trivial)
  | pollSend =>
    simp only [producerStep, hpc] at h
    split at h
    · next hlt => cases h; exact .send hpc hlt
    · cases h; exact .advance _ (by simp [hpc]) (by simp) fun _ => Or.inl (by rw [hpc]; trivial)
  | parked =>
    simp only [producerStep, hpc] at h
    split at h
    · cases h; exact .advance _ (by simp [hpc]) (by simp) (by simp [ProducerPc.Registered])
    · simp at h
  | finished => simp [producerStep, hpc] at h

/-! ## The workers -/

/-- The moves of worker `w` outside its backend call. -/
inductive WorkerMove (cfg : PoolConfig) (s : State cfg.workerCount) (w : Fin cfg.workerCount) :
    State cfg.workerCount → Prop
  /-- a check of the stop flag that finds it unset -/
  | check (pc : WorkerPc) (hpc : (s.workers w = .outerCheck ∧ pc = .innerCheck) ∨
      (s.workers w = .innerCheck ∧ pc = .tryRecv)) (hstop : s.stopEnqueue = false) :
    WorkerMove cfg s w (goWorker s w pc)
  | empty (hpc : s.workers w = .tryRecv) (hq : s.taskQueue = [])
    (hopen : s.producer.pc ≠ .finished) : WorkerMove cfg s w (goWorker s w .queueEmpty)
  | retry (hpc : s.workers w = .queueEmpty) (hc : s.cancelled = false) :
    WorkerMove cfg s w (goWorker s w .innerCheck)
  /-- a check of the stop flag that finds it set -/
  | stopped (hpc : s.workers w = .outerCheck ∨ s.workers w = .innerCheck)
    (hstop : s.stopEnqueue = true) : WorkerMove cfg s w (goWorker s w .returned)
  /-- `TryRecvError::Disconnected` -/
  | disconnected (hpc : s.workers w = .tryRecv) (hq : s.taskQueue = [])
    (hf : s.producer.pc = .finished) : WorkerMove cfg s w (goWorker s w .returned)
  /-- `TryRecvError::Empty` with the token cancelled -/
  | giveUp (hpc : s.workers w = .queueEmpty) (hc : s.cancelled = true) :
    WorkerMove cfg s w (goWorker s w .returned)
  | take (task : IndexedPoolTask) (rest : List IndexedPoolTask) (hpc : s.workers w = .tryRecv)
    (hq : s.taskQueue = task :: rest) :
    WorkerMove cfg s w (goWorker { s with taskQueue := rest } w (.received task))
  /-- a task in hand is dropped -/
  | drop (task : IndexedPoolTask) (hpc : s.workers w = .received task) (hc : s.cancelled = true) :
    WorkerMove cfg s w (goWorker s w .returned)
  | start (task : IndexedPoolTask) (hpc : s.workers w = .received task)
    (hc : s.cancelled = false) : WorkerMove cfg s w (goWorker s w (.running task))
  | send (result : IndexedPoolResult) (hpc : s.workers w = .sending result)
    (hopen : s.collector ≠ .returned) (hlt : s.resultQueue.length < cfg.resultChannelSize) :
    WorkerMove cfg s w
      (goWorker { s with resultQueue := s.resultQueue ++ [result] } w .outerCheck)
  /-- the receiver is gone -/
  | closed (result : IndexedPoolResult) (hpc : s.workers w = .sending result)
    (hclosed : s.collector = .returned) : WorkerMove cfg s w (goWorker s w .returned)

theorem workerStep_move {s s' : State cfg.workerCount} {w : Fin cfg.workerCount}
    (h : cfg.workerStep s w = some s') : WorkerMove cfg s w s' := by
  cases hpc : s.workers w with
  | outerCheck | innerCheck =>
    simp only [workerStep, hpc, Option.some.injEq] at h
    subst h
    cases hs : s.stopEnqueue with
    | true => exact .stopped (by simp [hpc]) hs
    | false => exact .check _ (by simp [hpc]) hs
  | tryRecv =>
    simp only [workerStep, hpc] at h
    split at h
    · next task rest hq => cases h; exact .take task rest hpc hq
    · next hq =>
      simp only [Option.some.injEq] at h
      subst h
      split
      · next hf => exact .disconnected hpc hq hf
      · next hf => exact .empty hpc hq hf
  | queueEmpty =>
    simp only [workerStep, hpc, Option.some.injEq] at h
    subst h
    cases hc : s.cancelled with
    | true => exact .giveUp hpc hc
    | false => exact .retry hpc hc
  | received task =>
    simp only [workerStep, hpc, Option.some.injEq] at h
    subst h
    cases hc : s.cancelled with
    | true => exact .drop task hpc hc
    | false => exact .start task hpc hc
  | running task => simp [workerStep, hpc] at h
  | sending result =>
    simp only [workerStep, hpc] at h
    split at h
    · next hclosed => cases h; exact .closed result hpc hclosed
    · next hopen =>
      split at h
      · next hlt => cases h; exact .send result hpc hopen hlt
      · simp at h
  | returned => simp [workerStep, hpc] at h

theorem backendStep_move {s s' : State cfg.workerCount} {w : Fin cfg.workerCount}
    {result : ProbeResult} {attempts : List ProbeResult}
    (h : cfg.backendStep s w result attempts = some s') :
    ∃ task, s.workers w = .running task ∧
      s' = goWorker s w (.sending (cfg.indexed w task result attempts)) := by
  unfold backendStep at h
  split at h
  · next task hpc => exact ⟨task, hpc, by simpa using h.symm⟩
  · simp at h

/-! ## The collector -/

/-- The moves of the collector. -/
inductive CollectorMove (cfg : PoolConfig) (s : State cfg.workerCount) :
    State cfg.workerCount → Prop
  | recv (loop : RecvLoop) (result : IndexedPoolResult) (rest : List IndexedPoolResult)
    (hpc : s.collector = .recv loop) (hq : s.resultQueue = result :: rest) :
    CollectorMove cfg s { s with resultQueue := rest, collector := cfg.afterRecv loop result }
  /-- the result channel is closed and empty -/
  | closed (loop : RecvLoop) (hpc : s.collector = .recv loop) (hq : s.resultQueue = [])
    (hall : AllReturned s) : CollectorMove cfg s { s with collector := RecvLoop.exit loop }
  | fetchAdd (loop : RecvLoop) (result : IndexedPoolResult) (hpc : s.collector = .fetchAdd loop result) :
    CollectorMove cfg s
      { s with
        successCount := s.successCount + 1
        collector := if cfg.stopAtSuccess ≤ s.successCount + 1 then .storeStop loop result
          else .push loop result }
  | storeStop (loop : RecvLoop) (result : IndexedPoolResult)
    (hpc : s.collector = .storeStop loop result) :
    CollectorMove cfg s { s with stopEnqueue := true, collector := .notifyWaiters loop result }
  | notifyWaiters (loop : RecvLoop) (result : IndexedPoolResult)
    (hpc : s.collector = .notifyWaiters loop result) :
    CollectorMove cfg s
      { s with
        producer := { s.producer with notified := s.producer.notified.map fun _ => true }
        collector := .push loop result }
  | push (loop : RecvLoop) (result : IndexedPoolResult) (hpc : s.collector = .push loop result) :
    CollectorMove cfg s { s with results := s.results ++ [result], collector := .recv loop }
  | producerDone (hpc : s.collector = .awaitProducer) (hf : s.producer.pc = .finished) :
    CollectorMove cfg s { s with collector := .recv .drain }
  | join (hpc : s.collector = .joinWorkers) :
    CollectorMove cfg s { s with collector := .returned }

theorem collectorStep_move {s s' : State cfg.workerCount} (h : cfg.collectorStep s = some s') :
    CollectorMove cfg s s' := by
  cases hpc : s.collector with
  | recv loop =>
    simp only [collectorStep, hpc] at h
    split at h
    · next result rest hq => cases h; exact .recv loop result rest hpc hq
    · next hq =>
      split at h
      · next hall => cases h; exact .closed loop hpc hq hall
      · simp at h
  | fetchAdd loop result =>
    simp only [collectorStep, hpc, Option.some.injEq] at h
    exact h ▸ .fetchAdd loop result hpc
  | storeStop loop result =>
    simp only [collectorStep, hpc, Option.some.injEq] at h
    exact h ▸ .storeStop loop result hpc
  | notifyWaiters loop result =>
    simp only [collectorStep, hpc, Option.some.injEq] at h
    exact h ▸ .notifyWaiters loop result hpc
  | push loop result =>
    simp only [collectorStep, hpc, Option.some.injEq] at h
    exact h ▸ .push loop result hpc
  | awaitProducer =>
    simp only [collectorStep, hpc] at h
    split at h
    · next hf => cases h; exact .producerDone hpc hf
    · simp at h
  | joinWorkers =>
    simp only [collectorStep, hpc, Option.some.injEq] at h
    exact h ▸ .join hpc
  | returned => simp [collectorStep, hpc] at h

/-! ## All parties -/

/-- The moves of the whole system. -/
inductive Move (cfg : PoolConfig) (s : State cfg.workerCount) :
    Event cfg.workerCount → State cfg.workerCount → Prop
  | cancel : Move cfg s .cancel { s with cancelled := true }
  | producer {s' : State cfg.workerCount} (h : ProducerMove cfg s s') : Move cfg s .producer s'
  | worker {s' : State cfg.workerCount} (w : Fin cfg.workerCount) (h : WorkerMove cfg s w s') :
    Move cfg s (.worker w) s'
  | backend (w : Fin cfg.workerCount) (task : IndexedPoolTask) (result : ProbeResult)
    (attempts : List ProbeResult) (hpc : s.workers w = .running task) :
    Move cfg s (.backend w result attempts)
      (goWorker s w (.sending (cfg.indexed w task result attempts)))
  | collector {s' : State cfg.workerCount} (h : CollectorMove cfg s s') : Move cfg s .collector s'
  | collectorCancelled (hpc : s.collector = .recv .main) (hc : s.cancelled = true) :
    Move cfg s .collectorCancelled { s with collector := .awaitProducer }
  | drainDeadline (hpc : s.collector = .recv .drain) :
    Move cfg s .drainDeadline { s with collector := .joinWorkers }

theorem step_move {s s' : State cfg.workerCount} {e : Event cfg.workerCount}
    (h : cfg.system.step s e = some s') : Move cfg s e s' := by
  cases e with
  | cancel =>
    have hs : { s with cancelled := true } = s' := by simpa [system, step] using h
    exact hs ▸ .cancel
  | producer => exact .producer (producerStep_move h)
  | worker w => exact .worker w (workerStep_move h)
  | backend w result attempts =>
    obtain ⟨task, hpc, rfl⟩ := backendStep_move h
    exact .backend w task result attempts hpc
  | collector => exact .collector (collectorStep_move h)
  | collectorCancelled =>
    simp only [system, step] at h
    split at h
    · next hc => cases h; exact .collectorCancelled hc.1 hc.2
    · simp at h
  | drainDeadline =>
    simp only [system, step] at h
    split at h
    · next hc => cases h; exact .drainDeadline hc
    · simp at h

end ZapretChecker.Pool
