import Mathlib.Logic.Function.Basic
import Mathlib.Tactic.Simps.Basic
import ZapretChecker.Firewall.Handle
import ZapretChecker.Lib.StepSystem

/-!
# The life of the workers

`WorkerRuntime::run_worker_task` (`src/worker.rs`) under the loops of `run_strategy_tests` and
`worker_loop` (`src/worker_pool.rs`), for all workers together. What they share is the machine: the
ports of live sockets, the live nfqws instances, the firewall chain and the cancellation token.

* The answer of every call into the machine is part of the label: the port `bind` returns, whether
  a start, an install, a removal or a stop succeeds, when a probe ends.
* `bind` to port 0 returns any port that no live socket holds.
* A failed start or install leaves nothing behind; a failed removal or stop leaves the rule or the
  instance in place; an instance may exit by itself.
* `remove_worker_rule` of the nftables backend is two commands, and other workers may take steps
  between them: it lists the chain, where `find_nft_rule_handle` picks a line, and deletes the rule
  with the handle of that line. Without such a line it returns `Ok` and deletes nothing. The iptables
  backend deletes by the texts of the rule.
* The probe owns the prepared socket and drops it when it ends, before `run_worker_task` removes the
  rule. On the early returns the socket lives until `run_worker_task` returns.
* How a worker gets its next strategy is left to the label; `ZapretChecker.Pool` has the channels.
-/

namespace ZapretChecker.Worker

open StepSystem Firewall

inductive IsolationMode
  | sourcePort
  | fwmark
  deriving DecidableEq, Repr, Inhabited

/-- A started nfqws instance: its queue and its child process. -/
structure NfqwsHandle where
  qnum : UInt16
  child : Nat
  deriving DecidableEq, Repr, Inhabited

/-- One call of `run_worker_task` that has its socket, and the targets `run_strategy_tests` goes on
with. -/
structure Attempt where
  target : StrategyProbeTarget
  rest : List StrategyProbeTarget
  sourcePort : UInt16
  deriving DecidableEq, Repr, Inhabited

/-- How far `probe_with_prepared_socket` has got. -/
inductive ProbePhase
  | unconnected
  | connecting
  | exchanging
  deriving DecidableEq, Repr, Inhabited

/-- What the delete command of `remove_worker_rule` names: a handle (`render_delete_rule_by_handle`
of nftables) or the rule itself (`render_delete_rule` of iptables). -/
inductive RuleDeletion
  | byHandle (handle : UInt64)
  | bySpec
  deriving DecidableEq, Repr, Inhabited

/-- Where a worker is. -/
inductive WorkerPc
  /-- `worker_loop`, between two strategies -/
  | idle
  /-- the head of the loop over the targets; `attempted` once one target has been tried -/
  | nextTarget (attempted : Bool) (targets : List StrategyProbeTarget)
  /-- `nfqws.start` -/
  | starting (a : Attempt)
  /-- `firewall.install_worker_rule` -/
  | installing (a : Attempt) (nfqws : NfqwsHandle)
  /-- `nfqws.stop` after a failed install -/
  | abandoning (a : Attempt) (nfqws : NfqwsHandle)
  /-- inside `probe_with_prepared_socket` -/
  | probing (phase : ProbePhase) (a : Attempt) (nfqws : NfqwsHandle)
  /-- `firewall.remove_worker_rule`: `find_rule_handle` -/
  | finding (a : Attempt) (nfqws : NfqwsHandle)
  /-- `firewall.remove_worker_rule`: the delete command -/
  | removing (a : Attempt) (nfqws : NfqwsHandle) (deletion : RuleDeletion)
  /-- `nfqws.stop` -/
  | stopping (a : Attempt) (nfqws : NfqwsHandle)
  /-- the worker's task has ended, by a return or by a panic -/
  | returned
  deriving DecidableEq, Inhabited

/-- The port of the live socket of a worker. -/
def WorkerPc.socketPort : WorkerPc → Option UInt16
  | .starting a | .installing a _ | .abandoning a _ | .probing _ a _ => some a.sourcePort
  | _ => none

/-- The instance a worker has to stop. -/
def WorkerPc.nfqws : WorkerPc → Option NfqwsHandle
  | .installing _ nfqws | .abandoning _ nfqws | .probing _ _ nfqws | .finding _ nfqws
  | .removing _ nfqws _ | .stopping _ nfqws => some nfqws
  | _ => none

/-- The attempt whose rule a worker has to remove. -/
def WorkerPc.ruled : WorkerPc → Option Attempt
  | .probing _ a _ | .finding a _ | .removing a _ _ => some a
  | _ => none

/-- The worker is between two attempts, or has returned. -/
def WorkerPc.Between : WorkerPc → Prop
  | .idle | .nextTarget _ _ | .returned => True
  | _ => False

structure State (n : Nat) where
  workers : Fin n → WorkerPc
  /-- the rules of the chain, in the order they were added; iptables knows no handles -/
  chain : List ListedRule
  /-- the live nfqws instances -/
  instances : List NfqwsHandle
  /-- the next process -/
  nextChild : Nat
  cancelled : Bool

/-- The rules of the chain without their handles. -/
def State.rules {n : Nat} (s : State n) : List WorkerFirewallRule := s.chain.map ListedRule.rule

inductive Event (n : Nat)
  /-- somebody cancels the token -/
  | cancel
  /-- an nfqws instance exits by itself -/
  | exit (nfqws : NfqwsHandle)
  /-- worker `w` receives a strategy with these targets -/
  | receive (w : Fin n) (targets : List StrategyProbeTarget)
  /-- worker `w` leaves `worker_loop` -/
  | leave (w : Fin n)
  /-- the loop over the targets ends -/
  | endStrategy (w : Fin n)
  /-- `prepare_transport`: the port, or a failure -/
  | prepare (w : Fin n) (port : Option UInt16)
  | start (w : Fin n) (ok : Bool)
  /-- the handle of the new rule, or a failure -/
  | install (w : Fin n) (handle : Option UInt64)
  /-- the check of the token, then the first poll of `connect` -/
  | connect (w : Fin n)
  | connected (w : Fin n)
  /-- the probe ends: a verdict, an error, a timeout, the total timeout, a cancellation -/
  | probeEnd (w : Fin n)
  /-- the listing of the chain -/
  | find (w : Fin n) (ok : Bool)
  /-- the rule that is deleted, or a failure -/
  | remove (w : Fin n) (deleted : Option ListedRule)
  | stop (w : Fin n) (ok : Bool)
  deriving DecidableEq

structure WorkersConfig where
  assignments : List WorkerAssignment
  isolationMode : IsolationMode
  firewallBackend : FirewallBackend
  firewallHook : FirewallHook
  /-- what nft prints around the rules of the chain -/
  chainFrame : ChainFrame

def l4Protocol : ProbeProtocol → L4Protocol
  | .quicHttp3Future => .udp
  | _ => .tcp

/-- The flow of the attempt's socket. -/
def Attempt.flow (a : Attempt) : Flow where
  targetIp := a.target.ip
  sourcePort := a.sourcePort
  targetPort := a.target.port
  protocol := l4Protocol a.target.protocol

namespace WorkersConfig

variable (cfg : WorkersConfig)

abbrev workerCount : Nat := cfg.assignments.length

def qnum (w : Fin cfg.workerCount) : UInt16 := (cfg.assignments.get w).qnum

/-- Every worker has its own queue. -/
def QnumsDistinct : Prop := Function.Injective cfg.qnum

instance : Decidable cfg.QnumsDistinct :=
  inferInstanceAs (Decidable (∀ w v, cfg.qnum w = cfg.qnum v → w = v))

/-- The rule of worker `w` for an attempt. -/
def rule (w : Fin cfg.workerCount) (a : Attempt) : WorkerFirewallRule where
  workerId := (cfg.assignments.get w).workerId
  qnum := cfg.qnum w
  sourcePort := a.sourcePort
  targetIp := a.target.ip
  targetPort := a.target.port
  protocol := l4Protocol a.target.protocol
  hook := cfg.firewallHook

@[simp] theorem rule_flow (w : Fin cfg.workerCount) (a : Attempt) :
    (cfg.rule w a).flow = a.flow := rfl

@[simp] theorem rule_qnum (w : Fin cfg.workerCount) (a : Attempt) :
    (cfg.rule w a).qnum = cfg.qnum w := rfl

def init : State cfg.workerCount where
  workers := fun _ => .idle
  chain := []
  instances := []
  nextChild := 0
  cancelled := false

/-! ## The steps -/

/-- `bind` may return `port`: no live socket holds it. -/
def PortFree {n : Nat} (s : State n) (port : UInt16) : Prop :=
  ∀ w, (s.workers w).socketPort ≠ some port

instance {n : Nat} (s : State n) (port : UInt16) : Decidable (PortFree s port) :=
  inferInstanceAs (Decidable (∀ w, (s.workers w).socketPort ≠ some port))

/-- The ports `prepare_transport` and `prepare_transport_fwmark` may answer. A TCP socket of the
fwmark mode is not bound and answers 0. -/
def MayPrepare {n : Nat} (s : State n) (target : StrategyProbeTarget) (port : UInt16) : Prop :=
  if cfg.isolationMode = .fwmark ∧ l4Protocol target.protocol = .tcp then port = 0
  else PortFree s port

instance {n : Nat} (s : State n) (target : StrategyProbeTarget) (port : UInt16) :
    Decidable (cfg.MayPrepare s target port) := by
  unfold MayPrepare
  infer_instance

/-- nftables gives no two rules of a chain the same handle. -/
def HandleFree {n : Nat} (s : State n) (handle : UInt64) : Prop :=
  ∀ listed ∈ s.chain, listed.handle ≠ handle

instance {n : Nat} (s : State n) (handle : UInt64) : Decidable (HandleFree s handle) :=
  inferInstanceAs (Decidable (∀ listed ∈ s.chain, listed.handle ≠ handle))

/-- The handle that `find_rule_handle` reads from the listing for the rule of the attempt. -/
def findRuleHandle (s : State cfg.workerCount) (w : Fin cfg.workerCount) (a : Attempt) :
    Option UInt64 :=
  findNftRuleHandle (cfg.chainFrame.listChain s.chain) (cfg.rule w a)

/-- The delete command may delete this rule. -/
def Deletes (w : Fin cfg.workerCount) (a : Attempt) : RuleDeletion → ListedRule → Prop
  | .byHandle handle, listed => listed.handle = handle
  | .bySpec, listed => listed.rule.flow = a.flow ∧ listed.rule.qnum = cfg.qnum w

instance (w : Fin cfg.workerCount) (a : Attempt) :
    (deletion : RuleDeletion) → (listed : ListedRule) → Decidable (cfg.Deletes w a deletion listed)
  | .byHandle handle, listed => inferInstanceAs (Decidable (listed.handle = handle))
  | .bySpec, listed =>
    inferInstanceAs (Decidable (listed.rule.flow = a.flow ∧ listed.rule.qnum = cfg.qnum w))

/-- Worker `w` goes on at `pc`. -/
@[simps] def go {n : Nat} (s : State n) (w : Fin n) (pc : WorkerPc) : State n :=
  { s with workers := Function.update s.workers w pc }

/-- Where the probe returns to: `per_task_rule` decides whether there is a rule to remove. -/
def afterProbe (a : Attempt) (nfqws : NfqwsHandle) : WorkerPc :=
  match cfg.isolationMode, cfg.firewallBackend with
  | .sourcePort, .nftables => .finding a nfqws
  | .sourcePort, .iptables => .removing a nfqws .bySpec
  | .fwmark, _ => .stopping a nfqws

/-- Where a successful start goes on. -/
def afterStart (a : Attempt) (nfqws : NfqwsHandle) : WorkerPc :=
  match cfg.isolationMode with
  | .sourcePort => .installing a nfqws
  | .fwmark => .probing .unconnected a nfqws

def step (s : State cfg.workerCount) : Event cfg.workerCount → Option (State cfg.workerCount)
  | .cancel => some { s with cancelled := true }
  | .exit nfqws => some { s with instances := s.instances.erase nfqws }
  | .receive w targets =>
    match s.workers w with
    | .idle => some (go s w (if s.cancelled then .returned else .nextTarget false targets))
    | _ => none
  | .leave w =>
    match s.workers w with
    | .idle => some (go s w .returned)
    | _ => none
  | .endStrategy w =>
    match s.workers w with
    -- without a single target `expect` panics
    | .nextTarget attempted [] => some (go s w (if attempted then .idle else .returned))
    | _ => none
  | .prepare w port =>
    match s.workers w, port with
    | .nextTarget _ (_ :: rest), none => some (go s w (.nextTarget true rest))
    | .nextTarget _ (target :: rest), some port =>
      if cfg.MayPrepare s target port then some (go s w (.starting ⟨target, rest, port⟩)) else none
    | _, _ => none
  | .start w ok =>
    match s.workers w with
    | .starting a =>
      if ok then
        let nfqws := ⟨cfg.qnum w, s.nextChild⟩
        some (go { s with instances := s.instances ++ [nfqws], nextChild := s.nextChild + 1 } w
          (cfg.afterStart a nfqws))
      else some (go s w (.nextTarget true a.rest))
    | _ => none
  | .install w handle =>
    match s.workers w, handle with
    | .installing a nfqws, some handle =>
      if HandleFree s handle then
        some (go { s with chain := s.chain ++ [⟨cfg.rule w a, handle⟩] } w
          (.probing .unconnected a nfqws))
      else none
    | .installing a nfqws, none => some (go s w (.abandoning a nfqws))
    | _, _ => none
  | .connect w =>
    match s.workers w with
    | .probing .unconnected a nfqws =>
      some (go s w (if s.cancelled then cfg.afterProbe a nfqws else .probing .connecting a nfqws))
    | _ => none
  | .connected w =>
    match s.workers w with
    | .probing .connecting a nfqws => some (go s w (.probing .exchanging a nfqws))
    | _ => none
  | .probeEnd w =>
    match s.workers w with
    | .probing _ a nfqws => some (go s w (cfg.afterProbe a nfqws))
    | _ => none
  | .find w ok =>
    match s.workers w with
    | .finding a nfqws =>
      if ok then
        match cfg.findRuleHandle s w a with
        | some handle => some (go s w (.removing a nfqws (.byHandle handle)))
        -- no line has the texts of the rule: `Ok(())`
        | none => some (go s w (.stopping a nfqws))
      else some (go s w (.stopping a nfqws))
    | _ => none
  | .remove w deleted =>
    match s.workers w, deleted with
    | .removing a nfqws deletion, some listed =>
      if listed ∈ s.chain ∧ cfg.Deletes w a deletion listed then
        some (go { s with chain := s.chain.erase listed } w (.stopping a nfqws))
      else none
    | .removing a nfqws _, none => some (go s w (.stopping a nfqws))
    | _, _ => none
  | .stop w ok =>
    match s.workers w with
    | .stopping a nfqws | .abandoning a nfqws =>
      some (go { s with instances := if ok then s.instances.erase nfqws else s.instances } w
        (.nextTarget true a.rest))
    | _ => none

/-- All workers as a step system. -/
def system : System (State cfg.workerCount) (Event cfg.workerCount) where
  init := cfg.init
  step := cfg.step

/-! ## What one step can do -/

/-- The moves of worker `w`, with the events that make them. -/
inductive Move (s : State cfg.workerCount) :
    Event cfg.workerCount → State cfg.workerCount → Prop
  | cancel : Move s .cancel { s with cancelled := true }
  | exit (nfqws : NfqwsHandle) :
    Move s (.exit nfqws) { s with instances := s.instances.erase nfqws }
  | receive (w : Fin cfg.workerCount) (targets : List StrategyProbeTarget)
    (hpc : s.workers w = .idle) (hc : s.cancelled = false) :
    Move s (.receive w targets) (go s w (.nextTarget false targets))
  /-- a strategy received after the cancellation is dropped -/
  | drop (w : Fin cfg.workerCount) (targets : List StrategyProbeTarget)
    (hpc : s.workers w = .idle) (hc : s.cancelled = true) :
    Move s (.receive w targets) (go s w .returned)
  | leave (w : Fin cfg.workerCount) (hpc : s.workers w = .idle) :
    Move s (.leave w) (go s w .returned)
  | endStrategy (w : Fin cfg.workerCount) (attempted : Bool)
    (hpc : s.workers w = .nextTarget attempted []) :
    Move s (.endStrategy w) (go s w (if attempted then .idle else .returned))
  | prepareFails (w : Fin cfg.workerCount) (attempted : Bool) (target : StrategyProbeTarget)
    (rest : List StrategyProbeTarget) (hpc : s.workers w = .nextTarget attempted (target :: rest)) :
    Move s (.prepare w none) (go s w (.nextTarget true rest))
  | prepare (w : Fin cfg.workerCount) (attempted : Bool) (target : StrategyProbeTarget)
    (rest : List StrategyProbeTarget) (port : UInt16)
    (hpc : s.workers w = .nextTarget attempted (target :: rest))
    (hport : cfg.MayPrepare s target port) :
    Move s (.prepare w (some port)) (go s w (.starting ⟨target, rest, port⟩))
  | startFails (w : Fin cfg.workerCount) (a : Attempt) (hpc : s.workers w = .starting a) :
    Move s (.start w false) (go s w (.nextTarget true a.rest))
  | start (w : Fin cfg.workerCount) (a : Attempt) (hpc : s.workers w = .starting a) :
    Move s (.start w true)
      (go { s with
        instances := s.instances ++ [⟨cfg.qnum w, s.nextChild⟩]
        nextChild := s.nextChild + 1 } w (cfg.afterStart a ⟨cfg.qnum w, s.nextChild⟩))
  | installFails (w : Fin cfg.workerCount) (a : Attempt) (nfqws : NfqwsHandle)
    (hpc : s.workers w = .installing a nfqws) :
    Move s (.install w none) (go s w (.abandoning a nfqws))
  | install (w : Fin cfg.workerCount) (a : Attempt) (nfqws : NfqwsHandle) (handle : UInt64)
    (hpc : s.workers w = .installing a nfqws) (hhandle : HandleFree s handle) :
    Move s (.install w (some handle))
      (go { s with chain := s.chain ++ [⟨cfg.rule w a, handle⟩] } w (.probing .unconnected a nfqws))
  | connectCancelled (w : Fin cfg.workerCount) (a : Attempt) (nfqws : NfqwsHandle)
    (hpc : s.workers w = .probing .unconnected a nfqws) (hc : s.cancelled = true) :
    Move s (.connect w) (go s w (cfg.afterProbe a nfqws))
  | connect (w : Fin cfg.workerCount) (a : Attempt) (nfqws : NfqwsHandle)
    (hpc : s.workers w = .probing .unconnected a nfqws) (hc : s.cancelled = false) :
    Move s (.connect w) (go s w (.probing .connecting a nfqws))
  | connected (w : Fin cfg.workerCount) (a : Attempt) (nfqws : NfqwsHandle)
    (hpc : s.workers w = .probing .connecting a nfqws) :
    Move s (.connected w) (go s w (.probing .exchanging a nfqws))
  | probeEnd (w : Fin cfg.workerCount) (phase : ProbePhase) (a : Attempt) (nfqws : NfqwsHandle)
    (hpc : s.workers w = .probing phase a nfqws) :
    Move s (.probeEnd w) (go s w (cfg.afterProbe a nfqws))
  | findFails (w : Fin cfg.workerCount) (a : Attempt) (nfqws : NfqwsHandle)
    (hpc : s.workers w = .finding a nfqws) :
    Move s (.find w false) (go s w (.stopping a nfqws))
  | find (w : Fin cfg.workerCount) (a : Attempt) (nfqws : NfqwsHandle) (handle : UInt64)
    (hpc : s.workers w = .finding a nfqws) (hfind : cfg.findRuleHandle s w a = some handle) :
    Move s (.find w true) (go s w (.removing a nfqws (.byHandle handle)))
  /-- the removal succeeds and removes nothing -/
  | findNothing (w : Fin cfg.workerCount) (a : Attempt) (nfqws : NfqwsHandle)
    (hpc : s.workers w = .finding a nfqws) (hfind : cfg.findRuleHandle s w a = none) :
    Move s (.find w true) (go s w (.stopping a nfqws))
  | removeFails (w : Fin cfg.workerCount) (a : Attempt) (nfqws : NfqwsHandle)
    (deletion : RuleDeletion) (hpc : s.workers w = .removing a nfqws deletion) :
    Move s (.remove w none) (go s w (.stopping a nfqws))
  | remove (w : Fin cfg.workerCount) (a : Attempt) (nfqws : NfqwsHandle) (deletion : RuleDeletion)
    (listed : ListedRule) (hpc : s.workers w = .removing a nfqws deletion)
    (hmem : listed ∈ s.chain) (hdel : cfg.Deletes w a deletion listed) :
    Move s (.remove w (some listed))
      (go { s with chain := s.chain.erase listed } w (.stopping a nfqws))
  | stop (w : Fin cfg.workerCount) (ok : Bool) (a : Attempt) (nfqws : NfqwsHandle)
    (hpc : s.workers w = .stopping a nfqws ∨ s.workers w = .abandoning a nfqws) :
    Move s (.stop w ok)
      (go { s with instances := if ok then s.instances.erase nfqws else s.instances } w
        (.nextTarget true a.rest))

variable {cfg}

theorem step_move {s s' : State cfg.workerCount} {e : Event cfg.workerCount}
    (h : cfg.system.step s e = some s') : cfg.Move s e s' := by
  cases e with
  | cancel =>
    have hs : { s with cancelled := true } = s' := by simpa [system, step] using h
    exact hs ▸ .cancel
  | exit nfqws =>
    have hs : { s with instances := s.instances.erase nfqws } = s' := by
      simpa [system, step] using h
    exact hs ▸ .exit nfqws
  | receive w targets =>
    simp only [system, step] at h
    split at h
    · next hpc =>
      cases h
      cases hc : s.cancelled with
      | true => exact .drop w targets hpc hc
      | false => exact .receive w targets hpc hc
    · simp at h
  | leave w =>
    simp only [system, step] at h
    split at h
    · next hpc => cases h; exact .leave w hpc
    · simp at h
  | endStrategy w =>
    simp only [system, step] at h
    split at h
    · next attempted hpc => cases h; exact .endStrategy w attempted hpc
    · simp at h
  | prepare w port =>
    simp only [system, step] at h
    split at h
    · next attempted target rest hpc => cases h; exact .prepareFails w attempted target rest hpc
    · next attempted target rest port hpc =>
      split at h
      · next hport => cases h; exact .prepare w attempted target rest port hpc hport
      · simp at h
    · simp at h
  | start w ok =>
    simp only [system, step] at h
    split at h
    · next a hpc =>
      cases ok with
      | true => cases h; exact .start w a hpc
      | false => cases h; exact .startFails w a hpc
    · simp at h
  | install w handle =>
    simp only [system, step] at h
    split at h
    · next a nfqws handle hpc =>
      split at h
      · next hhandle => cases h; exact .install w a nfqws handle hpc hhandle
      · simp at h
    · next a nfqws hpc => cases h; exact .installFails w a nfqws hpc
    · simp at h
  | connect w =>
    simp only [system, step] at h
    split at h
    · next a nfqws hpc =>
      cases h
      cases hc : s.cancelled with
      | true => exact .connectCancelled w a nfqws hpc hc
      | false => exact .connect w a nfqws hpc hc
    · simp at h
  | connected w =>
    simp only [system, step] at h
    split at h
    · next a nfqws hpc => cases h; exact .connected w a nfqws hpc
    · simp at h
  | probeEnd w =>
    simp only [system, step] at h
    split at h
    · next phase a nfqws hpc => cases h; exact .probeEnd w phase a nfqws hpc
    · simp at h
  | find w ok =>
    simp only [system, step] at h
    split at h
    · next a nfqws hpc =>
      cases ok with
      | true =>
        cases hfind : cfg.findRuleHandle s w a with
        | some handle =>
          simp only [hfind] at h
          cases h
          exact .find w a nfqws handle hpc hfind
        | none =>
          simp only [hfind] at h
          cases h
          exact .findNothing w a nfqws hpc hfind
      | false => cases h; exact .findFails w a nfqws hpc
    · simp at h
  | remove w deleted =>
    simp only [system, step] at h
    split at h
    · next a nfqws deletion listed hpc =>
      split at h
      · next hdel => cases h; exact .remove w a nfqws deletion listed hpc hdel.1 hdel.2
      · simp at h
    · next a nfqws deletion hpc => cases h; exact .removeFails w a nfqws deletion hpc
    · simp at h
  | stop w ok =>
    simp only [system, step] at h
    split at h
    · next a nfqws hpc => cases h; exact .stop w ok a nfqws (Or.inl hpc)
    · next a nfqws hpc => cases h; exact .stop w ok a nfqws (Or.inr hpc)
    · simp at h

end WorkersConfig

end ZapretChecker.Worker
