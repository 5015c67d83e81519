import ZapretChecker.Pool.Model
import ZapretChecker.Worker.Task

/-!
# Scores

`src/bayes.rs`, `src/scoring.rs`, and what they are fed with: the attempts `run_strategy_tests`
(`src/worker_pool.rs`) sums up to one result, and the results `finalize_results` (`src/scheduler.rs`)
passes on. The `f64` values are exact rationals, and the `u64` count `Posterior::tests` is a natural
number.
-/

namespace ZapretChecker.Score

open Pool Worker

/-! ## Attempts -/

/-- The variables of the loop over the targets. -/
structure StrategyTests where
  attempts : List ProbeResult
  lastResult : Option ProbeResult
  firstFailure : Option ProbeResult
  deriving DecidableEq

/-- One iteration, after `run_strategy_task`. -/
def StrategyTests.push (tests : StrategyTests) (result : ProbeResult) : StrategyTests where
  attempts := tests.attempts ++ [result]
  lastResult := some result
  firstFailure :=
    if result.outcome = .success then tests.firstFailure else tests.firstFailure.or (some result)

/-- `run_strategy_tests`, from what `run_strategy_task` returns for each target in order. `none` is
the panic of `expect` when there is no target. -/
def runStrategyTests (results : List ProbeResult) : Option (ProbeResult × List ProbeResult) :=
  let tests := results.foldl StrategyTests.push ⟨[], none, none⟩
  (tests.firstFailure.or tests.lastResult).map fun result => (result, tests.attempts)

/-! ## Posteriors -/

structure Posterior where
  alpha : Rat
  beta : Rat
  tests : Nat
  deriving DecidableEq

structure BayesianState where
  posteriors : String → Option Posterior

namespace BayesianState

/-- The posterior of `key`, and the state that holds it. -/
def getOrInsert (s : BayesianState) (key : String) (prior : Rat × Rat) : Posterior × BayesianState :=
  match s.posteriors key with
  | some p => (p, s)
  | none =>
    let p : Posterior := { alpha := prior.1, beta := prior.2, tests := 0 }
    (p, { posteriors := Function.update s.posteriors key (some p) })

/-- `*p = value` through the reference `get_or_insert` returns. -/
def set (s : BayesianState) (key : String) (value : Posterior) : BayesianState where
  posteriors := Function.update s.posteriors key (some value)

def update (s : BayesianState) (key : String) (prior : Rat × Rat) (result : ProbeResult) :
    BayesianState :=
  if result.failureKind = some .infrastructureFailure then s
  else
    let (p, s) := s.getOrInsert key prior
    match result.outcome with
    | .success => s.set key { p with alpha := p.alpha + 1, tests := p.tests + 1 }
    | .cancelled => s
    | .timeout => s.set key { p with beta := p.beta + 7 / 10, tests := p.tests + 1 }
    | _ => s.set key { p with beta := p.beta + 1, tests := p.tests + 1 }

end BayesianState

/-! ## Final results -/

structure ScoreWeights where
  success : Rat
  timeoutPenalty : Rat
  costPenalty : Rat
  riskPenalty : Rat

/-- `Default::default()` -/
instance : Inhabited ScoreWeights :=
  ⟨{ success := 100, timeoutPenalty := 20, costPenalty := 3, riskPenalty := 5 }⟩

def adaptiveScore (result : ProbeResult) (cost risk : Rat) (w : ScoreWeights) : Rat :=
  match result.failureKind with
  | some .infrastructureFailure | some .cancelled => 0
  | _ =>
    let s := match result.outcome with
      | .success => w.success
      | .timeout | .tlsAlert | .tcpReset | .httpBlockPage | .emptyResponse | .bodyTooSmall
      | .refused => -w.timeoutPenalty
      | .cancelled | .dnsFailure | .networkUnreachable | .internalError => 0
    s - cost * w.costPenalty - risk * w.riskPenalty

structure StrategyRunResult where
  node : StrategyNode
  result : ProbeResult
  attempts : List ProbeResult
  adaptiveScore : Rat
  workerId : Nat
  qnum : UInt16

/-- The state after one result of the pool. -/
def updateBayes (bayes : BayesianState) (item : IndexedPoolResult) : BayesianState :=
  if shouldUpdateStrategyScore item.result then
    bayes.update item.node.id item.node.prior item.result
  else bayes

def finalizeResults (weights : ScoreWeights) (poolResults : List IndexedPoolResult)
    (bayes : BayesianState) : List StrategyRunResult × BayesianState :=
  poolResults.foldl (fun (out, bayes) item =>
    let run : StrategyRunResult :=
      { node := item.node
        result := item.result
        attempts := item.attempts
        adaptiveScore := adaptiveScore item.result item.node.cost item.node.risk weights
        workerId := item.workerId
        qnum := item.qnum }
    (out ++ [run], updateBayes bayes item)) ([], bayes)

end ZapretChecker.Score
