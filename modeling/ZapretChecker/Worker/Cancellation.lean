import Mathlib.Data.Fintype.Card
import ZapretChecker.Worker.Resources

/-!
# Cancellation and new resources

`worker_loop` looks at the token before it calls `run_strategy`. The loop over the targets in
`run_strategy_tests` does not, nor does `run_worker_task` before it starts nfqws and installs the
rule: a worker that has targets left when the token is cancelled goes through all of them.

* `createsAfterCancel_of_twoTargets` — a second target gets its own instance and rule
* `creation_stops` — as long as the token is cancelled only when no worker has targets left, no
  attempt that begins later creates anything
* `createsAfterCancel_of_targetsLeft` — and where a worker has targets left, the run can go on to
  create
-/

namespace ZapretChecker.Worker

open StepSystem WorkersConfig

variable {cfg : WorkersConfig}

/-! ## What the claim forbids -/

/-- Worker `w` begins an attempt after the cancellation, and then starts an instance or installs a
rule. The first call of an attempt is `prepare`. -/
def CreatesAfterCancel {n : Nat} (es : List (Event n)) : Prop :=
  ∃ w port, [.cancel, .prepare w port, .start w true].Sublist es ∨
    ∃ handle, [.cancel, .prepare w port, .install w (some handle)].Sublist es

/-- Worker `w` starts two instances after the cancellation. -/
def StartsTwice {n : Nat} (es : List (Event n)) (w : Fin n) : Prop :=
  [.cancel, .start w true, .start w true].Sublist es

/-- The token is cancelled in the first of two attempts, whose rule is to be removed. -/
def firstTarget : List (Event twoWorkers.workerCount) :=
  [.receive worker0 [webTarget, webTarget], .prepare worker0 (some 40000), .cancel,
    .start worker0 true, .install worker0 (some 4), .connect worker0]

def twoTargetsRun : List (Event twoWorkers.workerCount) :=
  firstTarget ++ .find worker0 true ::
    [.remove worker0 (some ⟨twoWorkers.rule worker0 ⟨webTarget, [webTarget], 40000⟩, 4⟩),
      .stop worker0 true, .prepare worker0 (some 40001), .start worker0 true,
      .install worker0 (some 5)]

def firstTargetListing : State twoWorkers.workerCount :=
  (twoWorkers.system.run firstTarget).get rfl

theorem step_firstTargetListing : twoWorkers.system.step firstTargetListing (.find worker0 true) =
    some (go firstTargetListing worker0 (.removing ⟨webTarget, [webTarget], 40000⟩ ⟨200, 0⟩
      (.byHandle 4))) :=
  step_find rfl ((findRuleHandle_eq ..).trans (by decide +kernel))

/-- **The second target gets its own instance and rule.** -/
theorem createsAfterCancel_of_twoTargets :
    (twoWorkers.system.run twoTargetsRun).isSome ∧ CreatesAfterCancel twoTargetsRun ∧
      StartsTwice twoTargetsRun worker0 := by
  refine ⟨?_, ⟨worker0, some 40001, Or.inl (by decide)⟩, ?_⟩
  · rw [twoTargetsRun, System.run_append_cons (Option.some_get _).symm step_firstTargetListing]
    rfl
  · unfold StartsTwice
    decide

/-! ## Targets left -/

/-- The targets a worker goes on with after the attempt it is in. -/
def WorkerPc.targetsLeft : WorkerPc → List StrategyProbeTarget
  | .nextTarget _ targets => targets
  | .starting a | .installing a _ | .abandoning a _ | .probing _ a _ | .finding a _
  | .removing a _ _ | .stopping a _ => a.rest
  | .idle | .returned => []

/-- The token is cancelled only when no worker has targets left. -/
def CancelWhenLast {n : Nat} (s : State n) (e : Event n) : Prop :=
  e = .cancel → ∀ w, (s.workers w).targetsLeft = []

instance {n : Nat} (s : State n) (e : Event n) : Decidable (CancelWhenLast s e) :=
  inferInstanceAs (Decidable (e = .cancel → ∀ w, (s.workers w).targetsLeft = []))

/-- Once the token is cancelled nobody has targets left. -/
def LastInv {n : Nat} (s : State n) : Prop :=
  s.cancelled = true → ∀ w, (s.workers w).targetsLeft = []

/-- Worker `w` goes on with no new targets. -/
theorem LastInv.go {n : Nat} {s s' : State n} (hi : LastInv s) {w : Fin n} {pc : WorkerPc}
    (hw : s'.workers = Function.update s.workers w pc) (hc : s'.cancelled = s.cancelled)
    (hpc : s.cancelled = true → (s.workers w).targetsLeft = [] → pc.targetsLeft = []) :
    LastInv s' := by
  intro hcancel
  rw [hc] at hcancel
  rw [hw]
  exact (Function.forall_update_iff s.workers fun _ pc => pc.targetsLeft = []).mpr
    ⟨hpc hcancel (hi hcancel w), fun v _ => hi hcancel v⟩

theorem targetsLeft_afterProbe (a : Attempt) (nfqws : NfqwsHandle) :
    (cfg.afterProbe a nfqws).targetsLeft = a.rest := by
  unfold afterProbe
  cases cfg.isolationMode <;> cases cfg.firewallBackend <;> rfl

theorem targetsLeft_afterStart (a : Attempt) (nfqws : NfqwsHandle) :
    (cfg.afterStart a nfqws).targetsLeft = a.rest := by
  unfold afterStart
  cases cfg.isolationMode <;> rfl

theorem lastInv_step {s s' : State cfg.workerCount} {e : Event cfg.workerCount} (hi : LastInv s)
    (hlast : CancelWhenLast s e) (hm : cfg.Move s e s') : LastInv s' := by
  cases hm with
  | cancel => exact fun _ => hlast rfl
  | exit => exact hi
  | receive w targets hpc hc => exact hi.go rfl rfl fun h => by simp [hc] at h
  | drop w targets hpc | leave w hpc => exact hi.go rfl rfl fun _ _ => rfl
  | endStrategy w attempted hpc => exact hi.go rfl rfl fun _ _ => by cases attempted <;> rfl
  | prepareFails w attempted target rest hpc | prepare w attempted target rest port hpc =>
    -- a worker with nothing left begins nothing
    refine hi.go rfl rfl fun _ h => ?_
    rw [hpc] at h
    simp [WorkerPc.targetsLeft] at h
  | startFails w a hpc | installFails w a nfqws hpc | install w a nfqws handle hpc
  | connect w a nfqws hpc | connected w a nfqws hpc | findFails w a nfqws hpc
  | find w a nfqws handle hpc | findNothing w a nfqws hpc | removeFails w a nfqws deletion hpc
  | remove w a nfqws deletion listed hpc =>
    refine hi.go rfl rfl fun _ h => ?_
    rw [hpc] at h
    exact h
  | start w a hpc =>
    refine hi.go rfl rfl fun _ h => ?_
    rw [hpc] at h
    rw [targetsLeft_afterStart]
    exact h
  | connectCancelled w a nfqws hpc | probeEnd w phase a nfqws hpc =>
    refine hi.go rfl rfl fun _ h => ?_
    rw [hpc] at h
    rw [targetsLeft_afterProbe]
    exact h
  | stop w ok a nfqws hpc =>
    refine hi.go rfl rfl fun _ h => ?_
    rcases hpc with hpc | hpc <;> rw [hpc] at h <;> exact h

/-! ## Runs -/

theorem cancelled_of_move {s s' : State cfg.workerCount} {e : Event cfg.workerCount}
    (hm : cfg.Move s e s') (h : s.cancelled = true ∨ e = .cancel) : s'.cancelled = true := by
  cases hm with
  | cancel => rfl
  | _ => simpa using h

/-- Only `prepare` leads to the start of an instance. -/
theorem prepare_of_starting {s s' : State cfg.workerCount} {e : Event cfg.workerCount}
    {w : Fin cfg.workerCount} {a : Attempt} (hm : cfg.Move s e s')
    (ha : s'.workers w = .starting a) :
    s.workers w = .starting a ∨ ∃ port, e = .prepare w port := by
  by_cases hw : e.worker = some w
  · right
    cases hm with
    | prepare v attempted target rest port =>
      obtain rfl : v = w := by simpa [Event.worker] using hw
      exact ⟨some port, rfl⟩
    | cancel | exit => simp [Event.worker] at hw
    | endStrategy v attempted =>
      obtain rfl : v = w := by simpa [Event.worker] using hw
      cases attempted <;> simp at ha
    | start v =>
      obtain rfl : v = w := by simpa [Event.worker] using hw
      simp only [afterStart, go_workers, Function.update_self] at ha
      split at ha <;> simp at ha
    | connectCancelled v | probeEnd v =>
      obtain rfl : v = w := by simpa [Event.worker] using hw
      simp only [afterProbe, go_workers, Function.update_self] at ha
      split at ha <;> simp at ha
    | receive v | drop v | leave v | prepareFails v | startFails v | installFails v | install v
    | connect v | connected v | findFails v | find v | findNothing v | removeFails v | remove v
    | stop v =>
      obtain rfl : v = w := by simpa [Event.worker] using hw
      simp at ha
  · left
    rw [← (move_frame hm hw).1]
    exact ha

theorem targetsLeft_of_prepare {s s' : State cfg.workerCount} {w : Fin cfg.workerCount}
    {port : Option UInt16} (hm : cfg.Move s (.prepare w port) s') :
    (s.workers w).targetsLeft ≠ [] := by
  cases hm with
  | prepareFails w attempted target rest hpc | prepare w attempted target rest port hpc =>
    simp [hpc, WorkerPc.targetsLeft]

theorem starting_of_start {s s' : State cfg.workerCount} {w : Fin cfg.workerCount}
    (hm : cfg.Move s (.start w true) s') :
    (∃ a, s.workers w = .starting a) ∧ ∀ a, s'.workers w ≠ .starting a := by
  cases hm with
  | start w a hpc =>
    refine ⟨⟨a, hpc⟩, fun b => ?_⟩
    simp only [afterStart, go_workers, Function.update_self]
    split <;> simp

/-- What holds at the end of a run whose cancellations leave nobody with targets. -/
structure CancelInv (cfg : WorkersConfig) (es : List (Event cfg.workerCount))
    (s : State cfg.workerCount) : Prop where
  cancelled : [.cancel].Sublist es → s.cancelled = true
  last : LastInv s
  begun : ∀ w port, ¬[.cancel, .prepare w port].Sublist es
  started : ∀ w, [.cancel, .start w true].Sublist es → ∀ a, s.workers w ≠ .starting a
  once : ∀ w, ¬StartsTwice es w

theorem cancelInv_init : CancelInv cfg [] cfg.init := by
  constructor <;> simp [LastInv, StartsTwice, init]

theorem cancelInv_step {es : List (Event cfg.workerCount)} {s s' : State cfg.workerCount}
    {e : Event cfg.workerCount} (hi : CancelInv cfg es s) (hlast : CancelWhenLast s e)
    (hm : cfg.Move s e s') : CancelInv cfg (es ++ [e]) s' := by
  have hbegun : ∀ w port, ¬[.cancel, .prepare w port].Sublist (es ++ [e]) := by
    intro w port h
    rcases (sublist_snoc (l := [Event.cancel])).mp h with hold | ⟨rfl, hcancel⟩
    · exact hi.begun w port hold
    · exact targetsLeft_of_prepare hm (hi.last (hi.cancelled hcancel) w)
  refine ⟨fun h => ?_, lastInv_step hi.last hlast hm, hbegun, fun w h a ha => ?_, fun w h => ?_⟩
  · rcases (sublist_snoc (l := [])).mp h with h | ⟨rfl, -⟩
    · exact cancelled_of_move hm (Or.inl (hi.cancelled h))
    · exact cancelled_of_move hm (Or.inr rfl)
  · rcases (sublist_snoc (l := [Event.cancel])).mp h with hold | ⟨rfl, -⟩
    · rcases prepare_of_starting hm ha with hstarting | ⟨port, rfl⟩
      · exact hi.started w hold a hstarting
      · -- the worker would begin an attempt after the cancellation
        refine hbegun w port ((sublist_snoc (l := [Event.cancel])).mpr (Or.inr ⟨rfl, ?_⟩))
        exact (List.sublist_append_left [Event.cancel] [Event.start w true]).trans hold
    · exact (starting_of_start hm).2 a ha
  · rcases (sublist_snoc (l := [Event.cancel, .start w true])).mp h with hold | ⟨rfl, hstart⟩
    · exact hi.once w hold
    · obtain ⟨a, ha⟩ := (starting_of_start hm).1
      exact hi.started w hstart a ha

/--
**Cancellation stops resource creation**, in runs that cancel the token only when no worker has
targets left: no attempt that begins afterwards starts an instance or installs a rule, and no worker
starts two instances.
-/
theorem creation_stops {es : List (Event cfg.workerCount)} {s : State cfg.workerCount}
    (hrun : cfg.system.run es = some s) (halong : cfg.system.Along CancelWhenLast es) :
    ¬CreatesAfterCancel es ∧ ∀ w, ¬StartsTwice es w := by
  have hi : CancelInv cfg es s := by
    refine System.run_induction (S := cfg.system)
      (P := fun es s => cfg.system.Along CancelWhenLast es → CancelInv cfg es s)
      (fun _ => cancelInv_init) ?_ hrun halong
    intro es s e s' hs ih he ha
    obtain ⟨hbefore, hlast⟩ := System.along_snoc hs ha
    exact cancelInv_step (ih hbefore) hlast (step_move he)
  refine ⟨?_, hi.once⟩
  rintro ⟨w, port, h | ⟨handle, h⟩⟩
  · exact hi.begun w port ((List.sublist_append_left _ [Event.start w true]).trans h)
  · exact hi.begun w port ((List.sublist_append_left _ [Event.install w (some handle)]).trans h)

/-- One target for each worker: the attempts in progress are finished, and nothing else is started. -/
def lastTargetRun : List (Event twoWorkers.workerCount) :=
  [.receive worker0 [webTarget], .prepare worker0 (some 40000), .cancel, .start worker0 true,
    .install worker0 (some 4), .connect worker0, .find worker0 false, .stop worker0 true,
    .endStrategy worker0, .receive worker0 [webTarget, webTarget]]

theorem creation_stops_lastTarget :
    (twoWorkers.system.run lastTargetRun).isSome ∧ ¬CreatesAfterCancel lastTargetRun ∧
      ∀ w, ¬StartsTwice lastTargetRun w := by
  have hsome : (twoWorkers.system.run lastTargetRun).isSome := rfl
  obtain ⟨s, hrun⟩ := Option.isSome_iff_exists.mp hsome
  exact ⟨hsome, creation_stops hrun (by decide)⟩

/-! ## The condition is needed -/

/-- A worker can always finish its attempt and come to the next target. -/
theorem exists_finish (s : State cfg.workerCount) {w : Fin cfg.workerCount}
    (hleft : (s.workers w).targetsLeft ≠ []) :
    ∃ es attempted, (cfg.system.runFrom s es).map State.workers =
      some (Function.update s.workers w (.nextTarget attempted (s.workers w).targetsLeft)) := by
  cases hpc : s.workers w with
  | idle | returned => simp [hpc, WorkerPc.targetsLeft] at hleft
  | nextTarget attempted targets =>
    refine ⟨[], attempted, ?_⟩
    simp [WorkerPc.targetsLeft, ← hpc]
  | starting a =>
    refine ⟨[.start w false], true, ?_⟩
    simp [System.runFrom, system, step, hpc, WorkerPc.targetsLeft, go]
  | installing a nfqws =>
    refine ⟨[.install w none, .stop w true], true, ?_⟩
    simp [System.runFrom, system, step, hpc, WorkerPc.targetsLeft, go]
  | abandoning a nfqws | stopping a nfqws =>
    refine ⟨[.stop w true], true, ?_⟩
    simp [System.runFrom, system, step, hpc, WorkerPc.targetsLeft, go]
  | finding a nfqws =>
    refine ⟨[.find w false, .stop w true], true, ?_⟩
    simp [System.runFrom, system, step, hpc, WorkerPc.targetsLeft, go]
  | removing a nfqws deletion =>
    refine ⟨[.remove w none, .stop w true], true, ?_⟩
    simp [System.runFrom, system, step, hpc, WorkerPc.targetsLeft, go]
  | probing phase a nfqws =>
    cases hmode : cfg.isolationMode with
    | sourcePort =>
      cases hbackend : cfg.firewallBackend with
      | nftables =>
        refine ⟨[.probeEnd w, .find w false, .stop w true], true, ?_⟩
        simp [System.runFrom, system, step, hpc, afterProbe, hmode, hbackend, WorkerPc.targetsLeft, go]
      | iptables =>
        refine ⟨[.probeEnd w, .remove w none, .stop w true], true, ?_⟩
        simp [System.runFrom, system, step, hpc, afterProbe, hmode, hbackend, WorkerPc.targetsLeft, go]
    | fwmark =>
      refine ⟨[.probeEnd w, .stop w true], true, ?_⟩
      simp [System.runFrom, system, step, hpc, afterProbe, hmode, WorkerPc.targetsLeft, go]

/-- With at most 65536 workers, one of which has no socket, a port is free. -/
theorem exists_portFree {n : Nat} (hn : n ≤ 65536) {s : State n} {w : Fin n}
    (hw : (s.workers w).socketPort = none) : ∃ port, PortFree s port := by
  by_contra hall
  simp only [PortFree, not_exists, not_forall, not_not] at hall
  choose holder hholder using hall
  -- every port would have a holder of its own, and none of them is `w`
  have hinj : Function.Injective fun i : Fin 65536 => holder (UInt16.ofNat i) := by
    intro i j hij
    have hi := hholder (UInt16.ofNat i)
    have hj := hholder (UInt16.ofNat j)
    dsimp only at hij
    rw [hij, hj, Option.some.injEq] at hi
    have hnat := congrArg UInt16.toNat hi
    rw [UInt16.toNat_ofNat', UInt16.toNat_ofNat'] at hnat
    omega
  have hne : ∀ i : Fin 65536, holder (UInt16.ofNat i) ≠ w := by
    intro i hi
    have hport := hholder (UInt16.ofNat i)
    rw [hi, hw] at hport
    simp at hport
  have hcard : (Finset.univ.image fun i : Fin 65536 => holder (UInt16.ofNat i)).card = 65536 := by
    rw [Finset.card_image_of_injective _ hinj]
    simp
  have hsub : (Finset.univ.image fun i : Fin 65536 => holder (UInt16.ofNat i)) ⊆
      Finset.univ.erase w := by
    intro v hv
    obtain ⟨i, -, rfl⟩ := Finset.mem_image.mp hv
    exact Finset.mem_erase.mpr ⟨hne i, Finset.mem_univ _⟩
  have hle := Finset.card_le_card hsub
  rw [hcard, Finset.card_erase_of_mem (Finset.mem_univ w), Finset.card_univ, Fintype.card_fin] at hle
  omega

/-- **The condition is needed.** Where a worker has targets left, a run can go on to create after the
cancellation. -/
theorem createsAfterCancel_of_targetsLeft (hn : cfg.workerCount ≤ 65536)
    {es : List (Event cfg.workerCount)} {s : State cfg.workerCount}
    (hrun : cfg.system.run es = some s) {w : Fin cfg.workerCount}
    (hleft : (s.workers w).targetsLeft ≠ []) :
    ∃ fs, (cfg.system.run (es ++ .cancel :: fs)).isSome ∧
      CreatesAfterCancel (es ++ .cancel :: fs) := by
  let s₁ : State cfg.workerCount := { s with cancelled := true }
  obtain ⟨fs, attempted, hfs⟩ := exists_finish s₁ hleft
  obtain ⟨s₂, hs₂, hworkers⟩ := Option.map_eq_some_iff.mp hfs
  obtain ⟨target, rest, htargets⟩ := List.exists_cons_of_ne_nil hleft
  have hpc : s₂.workers w = .nextTarget attempted (target :: rest) := by
    rw [hworkers, Function.update_self, ← htargets]
  obtain ⟨port, hport⟩ : ∃ port, cfg.MayPrepare s₂ target port := by
    unfold MayPrepare
    split
    · exact ⟨0, rfl⟩
    · exact exists_portFree hn (w := w) (by rw [hpc]; rfl)
  have hrun₂ : cfg.system.run (es ++ .cancel :: fs) = some s₂ := by
    unfold System.run at hrun ⊢
    rw [System.runFrom_append, hrun, Option.bind_some, System.runFrom_cons]
    exact hs₂
  -- the worker begins the next target and starts its instance
  let s₃ : State cfg.workerCount := go s₂ w (.starting ⟨target, rest, port⟩)
  have hrun₃ : cfg.system.run (es ++ .cancel :: fs ++ [.prepare w (some port)]) = some s₃ :=
    System.run_snoc.mpr ⟨s₂, hrun₂, by simp [system, step, hpc, hport, s₃]⟩
  have hstart : (cfg.system.step s₃ (.start w true)).isSome := by simp [system, step, s₃]
  obtain ⟨s₄, hs₄⟩ := Option.isSome_iff_exists.mp hstart
  have hrun₄ := System.run_snoc.mpr ⟨s₃, hrun₃, hs₄⟩
  refine ⟨fs ++ [.prepare w (some port), .start w true], ?_, w, some port, Or.inl ?_⟩
  · have hlist : es ++ .cancel :: (fs ++ [.prepare w (some port), .start w true]) =
        es ++ .cancel :: fs ++ [.prepare w (some port)] ++ [.start w true] := by simp
    rw [hlist, hrun₄]
    rfl
  · refine List.Sublist.trans ?_ (List.sublist_append_right es _)
    exact (List.sublist_append_right fs _).cons_cons _

end ZapretChecker.Worker
