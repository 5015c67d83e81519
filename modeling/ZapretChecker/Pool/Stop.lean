import ZapretChecker.Pool.Prefix

/-!
# Stopping the producer

`StopState::stopped` reads the stop flag and then creates its `Notified` future. Between the two,
`record_success` can set the flag and call `notify_waiters`, which wakes only the futures that exist.

* `Hung` — every worker has returned and `run` waits for a producer that nobody will wake
* `hung_stuck` — such a state has no step left but a cancellation
* `hung_of_lostWakeUp` — it is reachable
* `not_hung` — it is not, in runs where the future is never created between the two
-/

namespace ZapretChecker.Pool

open StepSystem PoolConfig

variable {cfg : PoolConfig}

/-- Something is about to poll the parked `enqueue` again. -/
def WakeUpPending (cfg : PoolConfig) (s : State cfg.workerCount) : Prop :=
  s.cancelled = true ∨ s.producer.notified = some true ∨ s.taskQueue.length < cfg.taskChannelSize

instance (s : State cfg.workerCount) : Decidable (WakeUpPending cfg s) :=
  inferInstanceAs (Decidable (_ ∨ _ ∨ _))

/-- `run` waits for the producer, and the producer for a slot that no worker will ever free. -/
structure Hung (cfg : PoolConfig) (s : State cfg.workerCount) : Prop where
  stop : s.stopEnqueue = true
  workers : AllReturned s
  collector : s.collector = .awaitProducer
  producer : s.producer.pc = .parked
  noWakeUp : ¬WakeUpPending cfg s

/-- A hung pool takes no step but a cancellation. -/
theorem hung_stuck {s s' : State cfg.workerCount} {e : Event cfg.workerCount} (h : Hung cfg s)
    (he : cfg.system.step s e = some s') : e = .cancel := by
  obtain ⟨-, hw, hcol, hp, hwake⟩ := h
  cases e with
  | cancel => rfl
  | producer =>
    have hnone : cfg.producerStep s = none := by
      simpa [producerStep, hp, WakeUpPending] using hwake
    exact absurd (hnone.symm.trans he) (by simp)
  | worker w => simp [system, step, workerStep, hw w] at he
  | backend w result attempts => simp [system, step, backendStep, hw w] at he
  | collector => simp [system, step, collectorStep, hcol, hp] at he
  | collectorCancelled => simp [system, step, hcol] at he
  | drainDeadline => simp [system, step, hcol] at he

/-! ## The lost wake-up -/

/--
The producer reads the flag unset. The one success is recorded, the worker and the receive loop
end, and only then the producer creates its `Notified` future and parks on the full channel.
-/
def lostWakeUpRun : List (Event smallPool.workerCount) :=
  List.replicate 10 .producer ++ List.replicate 3 (.worker smallPoolWorker) ++
    List.replicate 17 .producer ++
    [.worker smallPoolWorker,
      .backend smallPoolWorker { (default : ProbeResult) with outcome := .success } [],
      .worker smallPoolWorker] ++
    List.replicate 5 .collector ++ [.worker smallPoolWorker, .collector] ++
    List.replicate 3 .producer

/-- **The pool can hang on stop.** -/
theorem hung_of_lostWakeUp : ∃ s, smallPool.system.run lostWakeUpRun = some s ∧ Hung smallPool s := by
  have hmap : (smallPool.system.run lostWakeUpRun).map (fun s => decide
      (s.stopEnqueue = true ∧ AllReturned s ∧ s.collector = .awaitProducer ∧
        s.producer.pc = .parked ∧ ¬WakeUpPending smallPool s)) = some true := by decide
  obtain ⟨s, hrun, hs⟩ := Option.map_eq_some_iff.mp hmap
  obtain ⟨h1, h2, h3, h4, h5⟩ := of_decide_eq_true hs
  exact ⟨s, hrun, h1, h2, h3, h4, h5⟩

/-! ## Runs without it -/

/-- The collector is about to call `notify_waiters`. -/
def CollectorPc.notifying : CollectorPc → Bool
  | .notifyWaiters _ _ => true
  | _ => false

/-- The `Notified` future is created while the flag is unset or `notify_waiters` still to come. -/
def RegistersInTime (cfg : PoolConfig) (s : State cfg.workerCount) (e : Event cfg.workerCount) :
    Prop :=
  e = .producer → s.producer.pc = .stoppedNotified →
    s.stopEnqueue = false ∨ s.collector.notifying = true

instance (s : State cfg.workerCount) (e : Event cfg.workerCount) :
    Decidable (RegistersInTime cfg s e) :=
  inferInstanceAs (Decidable (_ → _ → _ ∨ _))

structure WakeInv (cfg : PoolConfig) (s : State cfg.workerCount) : Prop where
  registered : s.producer.pc.Registered → s.producer.notified ≠ none
  woken : s.stopEnqueue = true → s.producer.notified = some false → s.collector.notifying = true

theorem wakeInv_init : WakeInv cfg cfg.init := by
  refine ⟨?_, ?_⟩ <;> intro h
  · exact absurd h id
  · simp [init] at h

theorem wakeInv_producer {s s' : State cfg.workerCount} (hi : WakeInv cfg s)
    (hreg : RegistersInTime cfg s .producer) (hm : ProducerMove cfg s s') : WakeInv cfg s' := by
  cases hm with
  | take hpc hlt => exact ⟨fun h => absurd h id, hi.woken⟩
  | advance pc hfrom hto hr =>
    refine ⟨?_, hi.woken⟩
    intro h
    rcases hr h with hr | hr
    · exact hi.registered hr
    · exact hr
  | createNotified hpc =>
    refine ⟨by simp, ?_⟩
    intro hstop _
    rcases hreg rfl hpc with hno | hnot
    · exact absurd (hno.symm.trans hstop) (by simp)
    · exact hnot
  | send hpc hlt => exact ⟨fun h => absurd h id, by simp⟩
  | finish hpc hwhy => exact ⟨fun h => absurd h id, by simp⟩

/-- As long as the collector is not about to notify, nobody waits with the flag set. -/
theorem WakeInv.not_waiting {s : State cfg.workerCount} (hi : WakeInv cfg s)
    (hc : s.collector.notifying = false) (hstop : s.stopEnqueue = true) :
    s.producer.notified ≠ some false := by
  intro hn
  exact absurd (hc.symm.trans (hi.woken hstop hn)) (by simp)

theorem wakeInv_collector {s s' : State cfg.workerCount} (hi : WakeInv cfg s)
    (hm : CollectorMove cfg s s') : WakeInv cfg s' := by
  cases hm with
  | recv _ _ _ hpc | closed _ hpc | fetchAdd _ _ hpc | push _ _ hpc | producerDone hpc | join hpc =>
    refine ⟨hi.registered, fun hstop hn => ?_⟩
    exact absurd hn (hi.not_waiting (by rw [hpc]; rfl) hstop)
  | storeStop loop result hpc => exact ⟨hi.registered, fun _ _ => rfl⟩
  | notifyWaiters loop result hpc =>
    refine ⟨fun h => ?_, fun _ hn => ?_⟩
    · simpa using hi.registered h
    · simp [Option.map_eq_some_iff] at hn

theorem wakeInv_step {s s' : State cfg.workerCount} {e : Event cfg.workerCount}
    (hi : WakeInv cfg s) (hreg : RegistersInTime cfg s e) (hm : Move cfg s e s') :
    WakeInv cfg s' := by
  cases hm with
  | cancel | backend => exact ⟨hi.registered, hi.woken⟩
  | producer hm => exact wakeInv_producer hi hreg hm
  | worker w hm => cases hm <;> exact ⟨hi.registered, hi.woken⟩
  | collector hm => exact wakeInv_collector hi hm
  | collectorCancelled hpc | drainDeadline hpc =>
    refine ⟨hi.registered, fun hstop hn => ?_⟩
    exact absurd hn (hi.not_waiting (by rw [hpc]; rfl) hstop)

/--
**No deadlock on stop** in a run that creates every `Notified` future in time: before the flag is
set, or before `notify_waiters` is called.
-/
theorem not_hung {es : List (Event cfg.workerCount)} {s : State cfg.workerCount}
    (hrun : cfg.system.run es = some s) (halong : cfg.system.Along (RegistersInTime cfg) es) :
    ¬Hung cfg s := by
  have hi : WakeInv cfg s := System.along_invariant (S := cfg.system) wakeInv_init
    (fun s e s' hi hreg he => wakeInv_step hi hreg (step_move he)) hrun halong
  rintro ⟨hstop, -, hcol, hp, hwake⟩
  -- a parked producer has a future: woken it is a pending wake-up, unwoken it still will be
  cases hn : s.producer.notified with
  | none => exact hi.registered (by rw [hp]; trivial) hn
  | some woken =>
    cases woken with
    | true => exact hwake (Or.inr (Or.inl hn))
    | false => exact hi.not_waiting (by rw [hcol]; rfl) hstop hn

/-- The producer is parked on the full channel with its third task when the success is recorded. -/
def parkedRun : List (Event smallPool.workerCount) :=
  List.replicate 10 .producer ++ List.replicate 3 (.worker smallPoolWorker) ++
    List.replicate 20 .producer ++
    [.worker smallPoolWorker,
      .backend smallPoolWorker { (default : ProbeResult) with outcome := .success } [],
      .worker smallPoolWorker] ++
    List.replicate 5 .collector ++ [.worker smallPoolWorker, .collector]

/-- It is woken, and finishes. -/
theorem not_hung_parked :
    (∃ s, smallPool.system.run parkedRun = some s ∧ s.stopEnqueue = true ∧
      s.producer.pc = .parked ∧ s.collector = .awaitProducer ∧ ¬Hung smallPool s) ∧
    (smallPool.system.run (parkedRun ++ List.replicate 3 .producer)).map
      (fun s => s.producer.pc) = some .finished := by
  have hmap : (smallPool.system.run parkedRun).map (fun s => decide
      (s.stopEnqueue = true ∧ s.producer.pc = .parked ∧ s.collector = .awaitProducer)) =
      some true := by decide
  obtain ⟨s, hrun, hs⟩ := Option.map_eq_some_iff.mp hmap
  obtain ⟨hstop, hpc, hcol⟩ := of_decide_eq_true hs
  exact ⟨⟨s, hrun, hstop, hpc, hcol, not_hung hrun (by decide)⟩, by decide⟩

end ZapretChecker.Pool
