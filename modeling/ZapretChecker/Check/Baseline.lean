import Mathlib.Algebra.Order.Ring.Rat
import ZapretChecker.Score.Accounting
import ZapretChecker.Worker.Verdict

/-!
# The baseline and the scores

`check` (`src/main.rs`) probes the target once without nfqws before it tests any strategy. It goes on
unless that baseline was an infrastructure failure or cancelled; a baseline that could not connect is
a `TargetFailure`, so the strategies are tested, fail, and are counted.

* `punished_of_refused` — a target that refuses every connection
* `notPunished_iff` — exactly which results leave the scores alone

The scores are exact rationals: an `f64` beta of 2^53 or more absorbs an addition, and such a beta
does not grow whatever the results are.
-/

namespace ZapretChecker.Check

open Pool Worker Probe Score Tally

/-! ## The baseline probe -/

structure BaselineScript where
  /-- socket creation, `bind` and `local_addr`: the port -/
  prepare : Except ProbeError UInt16
  /-- how the wait under the total timeout ends -/
  total : Except ProbeWaitError Unit
  probe : ProbeScript
  totalMs : Nat

/-- `ProbeBackend::probe` -/
def probe (native : NativeTcpTlsHttpProbe) (task : ProbeTask) (ctx : ProbeContext)
    (script : BaselineScript) : ProbeResult :=
  let qnum := if ctx.baseline then none else some ctx.qnum
  let totalTimeout : ProbeResult :=
    { totalTimeoutResult task ctx.qnum 0 script.totalMs with
      qnum := qnum
      assignedSourcePort := none
      failureKind := some (probeFailureKind ctx.baseline) }
  let result := match prepareTransport .sourcePort task.protocol script.prepare with
    | .ok prepared =>
      match script.total with
      | .ok () => native.probeWithPreparedSocket task ctx prepared script.probe
      | .error .timeout => totalTimeout
      | .error .cancelled =>
        { totalTimeout with
          outcome := .cancelled
          failureKind := some .cancelled
          errorClass := some .cancelled
          errorMessage := some "cancelled" }
    | .error e =>
      ProbeResult.infrastructureFailure task qnum none .bindFailed e.toText script.totalMs
  { result with qnum := if ctx.baseline then none else result.qnum }

/-- `run_baseline_probe` -/
def runBaselineProbe (native : NativeTcpTlsHttpProbe) (host : String) (ip : IpAddr) (port : UInt16)
    (request : HttpRequestSpec) (timeouts : ProbeTimeouts) (cancellation : Bool)
    (protocol : ProbeProtocol) (script : BaselineScript) : ProbeResult :=
  let task : ProbeTask :=
    { strategyId := "baseline"
      workerId := 0
      strategyArgs := []
      targetHost := host
      targetIp := ip
      targetPort := port
      protocol := protocol
      path := request.pathAndQuery
      request := request
      timeouts := timeouts }
  probe native task { qnum := 0, cancellation := cancellation, baseline := true } script

def shouldSkipStrategiesAfterBaseline (result : ProbeResult) : Bool :=
  match result.failureKind with
  | some .infrastructureFailure | some .cancelled => true
  | _ => false

/-- The state `check` saves, if any: the loaded state after the results of the pool. -/
def checkSaves (weights : ScoreWeights) (baseline : ProbeResult) (loaded : BayesianState)
    (poolResults : List IndexedPoolResult) : Option BayesianState :=
  if shouldSkipStrategiesAfterBaseline baseline then none
  else some (finalizeResults weights poolResults loaded).2

/-! ## Punished strategies -/

/-- The baseline probe could not establish the TCP connection. -/
def Unreachable (baseline : ProbeResult) : Prop :=
  baseline.failureKind = some .targetFailure ∧
    (baseline.outcome = .refused ∨
      baseline.outcome = .timeout ∧ baseline.errorClass = some .connectTimeout)

instance (baseline : ProbeResult) : Decidable (Unreachable baseline) :=
  inferInstanceAs (Decidable (_ ∧ _))

/-- No posterior has a larger beta in the saved state than it started with. -/
def NotPunished (loaded saved : BayesianState) (items : List IndexedPoolResult) : Prop :=
  ∀ k start p, startPosterior loaded k items = some start → saved.posteriors k = some p →
    p.beta ≤ start.beta

/-- A result that says nothing against its strategy. -/
def Harmless (result : ProbeResult) : Prop :=
  result.failureKind = some .infrastructureFailure ∨ result.outcome = .success ∨
    result.outcome = .cancelled

instance (result : ProbeResult) : Decidable (Harmless result) :=
  inferInstanceAs (Decidable (_ ∨ _))

/-- What an increment adds to beta. -/
def betaHom : Increment →+ Rat := (AddMonoidHom.fst Rat Nat).comp (AddMonoidHom.snd Rat (Rat × Nat))

theorem betaHom_apply (d : Increment) : betaHom d = d.2.1 := rfl

theorem betaHom_outcomeIncrement_nonneg (outcome : ProbeOutcome) :
    0 ≤ betaHom (outcomeIncrement outcome) := by
  cases outcome <;> decide +kernel

theorem betaHom_outcomeIncrement_nonpos_iff (outcome : ProbeOutcome) :
    betaHom (outcomeIncrement outcome) ≤ 0 ↔ outcome = .success ∨ outcome = .cancelled := by
  cases outcome <;> decide +kernel

/-- The entries of harmless results are those that add nothing to beta. -/
theorem harmless_iff_entry {item : IndexedPoolResult} :
    Harmless item.result ↔ ∀ e, entryOf item = some e → betaHom e.amount ≤ 0 := by
  by_cases hinfra : item.result.failureKind = some .infrastructureFailure
  · rw [entryOf_infrastructure hinfra]
    simp [Harmless, hinfra]
  · rw [entryOf_of_ne hinfra]
    simp [Harmless, hinfra, betaHom_outcomeIncrement_nonpos_iff]

theorem betaHom_entry_nonneg (items : List IndexedPoolResult) :
    ∀ e ∈ items.filterMap entryOf, 0 ≤ betaHom e.amount := by
  intro e he
  obtain ⟨item, -, hitem⟩ := List.mem_filterMap.mp he
  unfold entryOf at hitem
  split at hitem
  · obtain rfl := Option.some.inj hitem
    exact betaHom_outcomeIncrement_nonneg _
  · simp at hitem

/-- A strategy with an entry has a start value. -/
theorem exists_startPosterior (loaded : BayesianState) {items : List IndexedPoolResult}
    {e : Entry String Posterior Increment} (he : e ∈ items.filterMap entryOf) :
    ∃ start, startPosterior loaded e.key items = some start := by
  rw [← opening_entries, opening]
  cases loaded.posteriors e.key with
  | some p => exact ⟨p, rfl⟩
  | none =>
    have hfind : ((items.filterMap entryOf).find? (·.key = e.key)).isSome :=
      List.find?_isSome.mpr ⟨e, he, by simp⟩
    obtain ⟨f, hf⟩ := Option.isSome_iff_exists.mp hfind
    exact ⟨f.start, by simp [hf]⟩

/-- What the tally adds to the beta of each strategy decides. -/
theorem notPunished_iff_total (weights : ScoreWeights) (loaded : BayesianState)
    (items : List IndexedPoolResult) :
    NotPunished loaded (finalizeResults weights items loaded).2 items ↔
      ∀ k start, startPosterior loaded k items = some start →
        betaHom (total k (items.filterMap entryOf)) ≤ 0 := by
  unfold NotPunished
  refine forall₂_congr fun k start => ?_
  rw [posteriors_finalizeResults, foldl_record, opening_entries]
  constructor
  · intro h hstart
    have hle : start.beta + betaHom (total k (items.filterMap entryOf)) ≤ start.beta :=
      h _ hstart (by rw [hstart]; rfl)
    exact nonpos_of_add_le_right hle
  · intro h p hstart hp
    rw [hstart, Option.map_some, Option.some.injEq] at hp
    rw [← hp, vadd_posterior]
    exact add_le_of_nonpos_right (h hstart)

/-- The run goes on after a baseline that could not connect, and saves what it counted. -/
theorem checkSaves_of_unreachable {baseline : ProbeResult} (hbaseline : Unreachable baseline)
    (weights : ScoreWeights) (loaded : BayesianState) (items : List IndexedPoolResult) :
    checkSaves weights baseline loaded items =
      some (finalizeResults weights items loaded).2 := by
  simp [checkSaves, shouldSkipStrategiesAfterBaseline, hbaseline.1]

/-- **When the strategies are not punished.** After a baseline that could not connect, no beta grows
exactly when every result of the run is an infrastructure failure, a success or cancelled. -/
theorem notPunished_iff {baseline : ProbeResult} (hbaseline : Unreachable baseline)
    (weights : ScoreWeights) (loaded : BayesianState) (items : List IndexedPoolResult) :
    (∀ saved, checkSaves weights baseline loaded items = some saved →
        NotPunished loaded saved items) ↔ ∀ item ∈ items, Harmless item.result := by
  have hnonneg := betaHom_entry_nonneg items
  rw [checkSaves_of_unreachable hbaseline]
  simp only [Option.some.injEq, forall_eq', notPunished_iff_total]
  constructor
  · intro h item hitem
    refine harmless_iff_entry.mpr fun e he => ?_
    have hmem : e ∈ items.filterMap entryOf := List.mem_filterMap.mpr ⟨item, hitem, he⟩
    obtain ⟨start, hstart⟩ := exists_startPosterior loaded hmem
    exact (map_total_nonpos_iff betaHom hnonneg e.key).mp (h e.key start hstart) e hmem rfl
  · intro h k start _
    refine (map_total_nonpos_iff betaHom hnonneg k).mpr fun e hmem _ => ?_
    obtain ⟨item, hitem, he⟩ := List.mem_filterMap.mp hmem
    exact harmless_iff_entry.mp (h item hitem) e he

/-! ## A target that refuses every connection -/

/-- The answers of a target whose port is closed. -/
def refusedProbe : ProbeScript :=
  { exitedScript.probe with connect := .ok (.error "connection refused") }

def refusedBaseline : ProbeResult :=
  runBaselineProbe plainRuntime.nativeProbe headTask.targetHost headTask.targetIp
    headTask.targetPort headTask.request headTask.timeouts true headTask.protocol
    { prepare := .ok 40000, total := .ok (), probe := refusedProbe, totalMs := 40 }

/-- What the pool returns for `node` when its one attempt has this result. -/
def testedOnce (node : StrategyNode) (result : ProbeResult) : IndexedPoolResult where
  strategyIndex := 0
  node := node
  result := result
  attempts := [result]
  workerId := 0
  qnum := 0

/-- **A closed port is held against the strategy.** The baseline is refused, the strategy's probe is
refused, and its beta grows from the prior. -/
theorem punished_of_refused :
    Unreachable refusedBaseline ∧
      ∃ result, plainRuntime.runWorkerTask headTask default true
          { exitedScript with probe := refusedProbe } = some result ∧
        runStrategyTests [result] = some (result, [result]) ∧
        ∃ saved, checkSaves default refusedBaseline ⟨fun _ => none⟩ [testedOnce default result] =
            some saved ∧
          ¬NotPunished ⟨fun _ => none⟩ saved [testedOnce default result] := by
  have hbaseline : Unreachable refusedBaseline := by decide +kernel
  have hmap : (plainRuntime.runWorkerTask headTask default true
      { exitedScript with probe := refusedProbe }).map (fun r => (r.outcome, r.failureKind)) =
        some (.refused, some .strategyFailure) := by decide +kernel
  obtain ⟨result, hrun, hr⟩ := Option.map_eq_some_iff.mp hmap
  obtain ⟨houtcome, hkind⟩ := Prod.mk.inj hr
  have htests : runStrategyTests [result] = some (result, [result]) := by
    simp [runStrategyTests, StrategyTests.push, houtcome]
  have hsaves := checkSaves_of_unreachable hbaseline default ⟨fun _ => none⟩
    [testedOnce default result]
  refine ⟨hbaseline, result, hrun, htests, _, hsaves, fun h => ?_⟩
  have hentry : entryOf (testedOnce default result) =
      some ⟨(default : StrategyNode).id, priorPosterior default, (0, 1, 1)⟩ := by
    simp [entryOf, testedOnce, shouldUpdateStrategyScore, hkind, houtcome, outcomeIncrement]
  have hstart : startPosterior ⟨fun _ => none⟩ (default : StrategyNode).id
      [testedOnce default result] = some (priorPosterior default) := by
    simp [startPosterior, testedOnce, hkind]
  have hone : betaHom (total (default : StrategyNode).id
      ([testedOnce default result].filterMap entryOf)) = 1 := by
    rw [List.filterMap_cons_some hentry]
    simp [total, betaHom_apply]
  have hle := (notPunished_iff_total _ _ _).mp h _ _ hstart
  rw [hone] at hle
  exact absurd hle (by decide +kernel)

/-- The results of a run after a refused baseline: one strategy connects, one cannot be started, and
the run is cancelled during the third. -/
def harmlessResults : List IndexedPoolResult :=
  [testedOnce { (default : StrategyNode) with id := "tls12_fake_fake_tls_0" }
      { (default : ProbeResult) with outcome := .success, failureKind := none },
    testedOnce { (default : StrategyNode) with id := "tls12_split_multisplit_tls_1" }
      { (default : ProbeResult) with
        outcome := .internalError, failureKind := some .infrastructureFailure },
    testedOnce { (default : StrategyNode) with id := "tls12_split_multisplit_tls_2" }
      { (default : ProbeResult) with outcome := .cancelled, failureKind := some .cancelled }]

theorem notPunished_iff_refused : Unreachable refusedBaseline ∧
    ∃ saved, checkSaves default refusedBaseline ⟨fun _ => none⟩ harmlessResults = some saved ∧
      NotPunished ⟨fun _ => none⟩ saved harmlessResults := by
  have hbaseline : Unreachable refusedBaseline := by decide +kernel
  have hsaves := checkSaves_of_unreachable hbaseline default ⟨fun _ => none⟩ harmlessResults
  have hspared := (notPunished_iff hbaseline default ⟨fun _ => none⟩ harmlessResults).mpr
    (by decide)
  exact ⟨hbaseline, _, hsaves, hspared _ hsaves⟩

end ZapretChecker.Check
