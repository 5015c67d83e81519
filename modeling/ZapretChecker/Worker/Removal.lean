import ZapretChecker.Lib.Ownership
import ZapretChecker.Worker.Lifecycle

/-!
# The removal of the own rule

`remove_worker_rule` of the nftables backend deletes the rule whose handle `find_nft_rule_handle` reads
from the listing of the chain: the first one whose line has the texts of the worker's rule.

* `OwnRemoval` — no rule before the worker's own has its texts
* `findRuleHandle_iff` — then, and only then, the handle is that of the worker's own rule
* `chainInv_run` — as long as every listing is so, every rule stays in the chain until its worker
  deletes it, and what a worker deletes is its own rule (`deleted_own`)
-/

namespace ZapretChecker.Worker

open StepSystem Firewall Ownership WorkersConfig

variable {cfg : WorkersConfig}

/-- When a worker lists the chain, no rule before its own has the texts of its own. -/
def OwnRemoval (cfg : WorkersConfig) (s : State cfg.workerCount) (e : Event cfg.workerCount) :
    Prop :=
  match e with
  | .find w true =>
    match s.workers w with
    | .finding a _ => ∀ other ∈ s.chain.takeWhile (fun listed => listed.rule ≠ cfg.rule w a),
        ¬Confusable (cfg.rule w a) other
    | _ => True
  | _ => True

instance (s : State cfg.workerCount) :
    (e : Event cfg.workerCount) → Decidable (OwnRemoval cfg s e)
  | .find w true => by
    dsimp only [OwnRemoval]
    exact match s.workers w with
      | .finding a _ => List.decidableBAll _ _
      | .idle | .nextTarget .. | .starting _ | .installing .. | .abandoning .. | .probing ..
      | .removing .. | .stopping .. | .returned => instDecidableTrue
  | .find _ false | .cancel | .exit _ | .receive .. | .leave _ | .endStrategy _ | .prepare ..
  | .start .. | .install .. | .connect _ | .connected _ | .probeEnd _ | .remove .. | .stop .. =>
    instDecidableTrue

/-- The rule a worker has to remove is in the chain, under the handle it has found. -/
def Installed (cfg : WorkersConfig) (chain : List ListedRule) (w : Fin cfg.workerCount) :
    WorkerPc → Prop
  | .probing _ a _ | .finding a _ | .removing a _ .bySpec => ∃ handle, ⟨cfg.rule w a, handle⟩ ∈ chain
  | .removing a _ (.byHandle handle) => ⟨cfg.rule w a, handle⟩ ∈ chain
  | _ => True

structure ChainInv (cfg : WorkersConfig) (s : State cfg.workerCount) : Prop where
  handles : (s.chain.map ListedRule.handle).Nodup
  rules : ∀ listed ∈ s.chain, ∃ v a, listed.rule = cfg.rule v a
  installed : ∀ w, Installed cfg s.chain w (s.workers w)

/-! ## What is installed -/

theorem Installed.exists_handle {chain : List ListedRule} {w : Fin cfg.workerCount} {pc : WorkerPc}
    (h : Installed cfg chain w pc) {a : Attempt} (ha : pc.ruled = some a) :
    ∃ handle, ⟨cfg.rule w a, handle⟩ ∈ chain := by
  cases pc with
  | probing | finding => cases ha; exact h
  | removing b nfqws deletion =>
    cases ha
    cases deletion with
    | byHandle handle => exact ⟨handle, h⟩
    | bySpec => exact h
  | idle | nextTarget | starting | installing | abandoning | stopping | returned => cases ha

/-- A change of the chain that keeps the rules of `w`. -/
theorem Installed.mono {chain chain' : List ListedRule} {w : Fin cfg.workerCount} {pc : WorkerPc}
    (h : Installed cfg chain w pc)
    (hkeep : ∀ a handle, ⟨cfg.rule w a, handle⟩ ∈ chain → ⟨cfg.rule w a, handle⟩ ∈ chain') :
    Installed cfg chain' w pc := by
  cases pc with
  | probing phase a | finding a => exact Exists.imp (hkeep a) h
  | removing a nfqws deletion =>
    cases deletion with
    | byHandle handle => exact hkeep a handle h
    | bySpec => exact Exists.imp (hkeep a) h
  | idle | nextTarget | starting | installing | abandoning | stopping | returned => trivial

/-- A rule with the queue and the flow of a worker's attempt is the rule of that attempt. -/
theorem rule_eq_of_spec (hq : cfg.QnumsDistinct) {w v : Fin cfg.workerCount} {a b : Attempt}
    (hflow : b.flow = a.flow) (hqnum : cfg.qnum v = cfg.qnum w) : cfg.rule v b = cfg.rule w a := by
  obtain rfl : v = w := hq hqnum
  have hip : b.target.ip = a.target.ip := congrArg Flow.targetIp hflow
  have hsource : b.sourcePort = a.sourcePort := congrArg Flow.sourcePort hflow
  have htarget : b.target.port = a.target.port := congrArg Flow.targetPort hflow
  have hprotocol : l4Protocol b.target.protocol = l4Protocol a.target.protocol :=
    congrArg Flow.protocol hflow
  unfold rule
  rw [hip, hsource, htarget, hprotocol]

/-- **What a worker deletes is its own rule.** -/
theorem deleted_own (hq : cfg.QnumsDistinct) {s : State cfg.workerCount} (hi : ChainInv cfg s)
    {w : Fin cfg.workerCount} {a : Attempt} {nfqws : NfqwsHandle} {deletion : RuleDeletion}
    (hpc : s.workers w = .removing a nfqws deletion) {listed : ListedRule} (hmem : listed ∈ s.chain)
    (hdel : cfg.Deletes w a deletion listed) : listed.rule = cfg.rule w a := by
  cases deletion with
  | byHandle handle =>
    have hown := hi.installed w
    rw [hpc] at hown
    exact congrArg ListedRule.rule (List.inj_on_of_nodup_map hi.handles hmem hown hdel)
  | bySpec =>
    obtain ⟨v, b, hrule⟩ := hi.rules listed hmem
    obtain ⟨hflow, hqnum⟩ := hdel
    rw [hrule] at hflow hqnum ⊢
    exact rule_eq_of_spec hq hflow hqnum

/-! ## The listing -/

theorem findRuleHandle_eq (s : State cfg.workerCount) (w : Fin cfg.workerCount) (a : Attempt) :
    cfg.findRuleHandle s w a =
      (s.chain.find? fun listed => Confusable (cfg.rule w a) listed).map ListedRule.handle :=
  findNftRuleHandle_confusable cfg.chainFrame s.chain (cfg.rule w a)

/-- **The handle is that of the own rule** exactly if no rule before it has its texts. -/
theorem findRuleHandle_iff {s : State cfg.workerCount}
    (hhandles : (s.chain.map ListedRule.handle).Nodup) {w : Fin cfg.workerCount} {a : Attempt}
    {nfqws : NfqwsHandle} (hpc : s.workers w = .finding a nfqws) :
    cfg.findRuleHandle s w a = ownHandle s.chain (cfg.rule w a) ↔
      OwnRemoval cfg s (.find w true) := by
  simp only [OwnRemoval, hpc]
  rw [findRuleHandle, findNftRuleHandle_listChain]
  exact find?_lineMatches_iff hhandles _

/-- A rule of the chain has a handle, and it is one of this rule. -/
theorem ownHandle_of_mem {chain : List ListedRule} {rule : WorkerFirewallRule} {handle : UInt64}
    (hmem : ⟨rule, handle⟩ ∈ chain) :
    ∃ own, ownHandle chain rule = some own ∧ ⟨rule, own⟩ ∈ chain := by
  obtain ⟨listed, hlisted, hfind, hrule⟩ :=
    exists_find?_of_mem (p := fun listed => listed.rule = rule) hmem (by simp)
  obtain rfl : listed.rule = rule := of_decide_eq_true hrule
  exact ⟨listed.handle, by rw [ownHandle, hfind, Option.map_some], hlisted⟩

/-- The step of a listing that finds a rule. -/
theorem step_find {s : State cfg.workerCount} {w : Fin cfg.workerCount} {a : Attempt}
    {nfqws : NfqwsHandle} {handle : UInt64} (hpc : s.workers w = .finding a nfqws)
    (hfind : cfg.findRuleHandle s w a = some handle) :
    cfg.system.step s (.find w true) = some (go s w (.removing a nfqws (.byHandle handle))) := by
  simp [system, step, hpc, hfind]

theorem found_own {s : State cfg.workerCount} (hi : ChainInv cfg s) {w : Fin cfg.workerCount}
    {a : Attempt} {nfqws : NfqwsHandle} (hpc : s.workers w = .finding a nfqws)
    (hown : OwnRemoval cfg s (.find w true)) :
    ∃ handle, cfg.findRuleHandle s w a = some handle ∧ ⟨cfg.rule w a, handle⟩ ∈ s.chain := by
  have hin := hi.installed w
  rw [hpc] at hin
  obtain ⟨_, hmem⟩ := hin
  rw [(findRuleHandle_iff hi.handles hpc).mpr hown]
  exact ownHandle_of_mem hmem

/-- Otherwise the handle is that of another rule. -/
theorem found_other {s : State cfg.workerCount} {w : Fin cfg.workerCount} {a : Attempt}
    {nfqws : NfqwsHandle} (hpc : s.workers w = .finding a nfqws)
    (hother : ¬OwnRemoval cfg s (.find w true)) :
    ∃ listed ∈ s.chain, cfg.findRuleHandle s w a = some listed.handle ∧
      listed.rule ≠ cfg.rule w a := by
  simp only [OwnRemoval, hpc] at hother
  push Not at hother
  obtain ⟨other, hmem, hconfusable⟩ := hother
  -- the first line with the texts is before the own rule
  obtain ⟨listed, hbefore, hfind, -⟩ :=
    exists_find?_of_mem (p := fun listed => Confusable (cfg.rule w a) listed) hmem
      (decide_eq_true hconfusable)
  refine ⟨listed, (List.takeWhile_sublist _).mem hbefore, ?_,
    by simpa using List.mem_takeWhile_imp hbefore⟩
  rw [findRuleHandle_eq,
    ← List.takeWhile_append_dropWhile (p := fun listed => listed.rule ≠ cfg.rule w a)
      (l := s.chain), List.find?_append, hfind, Option.some_or, Option.map_some]

/-! ## The steps -/

theorem chainInv_init : ChainInv cfg cfg.init :=
  ⟨List.nodup_nil, fun _ h => absurd h List.not_mem_nil, fun _ => trivial⟩

/-- Worker `w` goes on, and if it still has a rule it is installed. -/
theorem ChainInv.go {s : State cfg.workerCount} (hi : ChainInv cfg s) {w : Fin cfg.workerCount}
    {pc : WorkerPc} (hin : Installed cfg s.chain w pc) : ChainInv cfg (go s w pc) where
  handles := hi.handles
  rules := hi.rules
  installed :=
    (Function.forall_update_iff s.workers fun v pc => Installed cfg s.chain v pc).mpr
      ⟨hin, fun v _ => hi.installed v⟩

theorem chainInv_install {s : State cfg.workerCount} (hi : ChainInv cfg s)
    {w : Fin cfg.workerCount} {a : Attempt} {nfqws : NfqwsHandle} {handle : UInt64}
    (hhandle : HandleFree s handle) :
    ChainInv cfg (WorkersConfig.go { s with chain := s.chain ++ [⟨cfg.rule w a, handle⟩] } w
      (.probing .unconnected a nfqws)) := by
  have hi' : ChainInv cfg { s with chain := s.chain ++ [⟨cfg.rule w a, handle⟩] } := by
    refine ⟨nodup_map_append hi.handles hhandle, fun listed hlisted => ?_,
      fun v => (hi.installed v).mono fun b h hmem => List.mem_append_left _ hmem⟩
    rcases List.mem_append.mp hlisted with hlisted | hlisted
    · exact hi.rules listed hlisted
    · exact ⟨w, a, by rw [List.mem_singleton.mp hlisted]⟩
  exact hi'.go ⟨handle, List.mem_append_right _ (List.mem_singleton.mpr rfl)⟩

theorem chainInv_remove (hq : cfg.QnumsDistinct) {s : State cfg.workerCount} (hi : ChainInv cfg s)
    {w : Fin cfg.workerCount} {a : Attempt} {nfqws : NfqwsHandle} {listed : ListedRule}
    (hrule : listed.rule = cfg.rule w a) :
    ChainInv cfg (WorkersConfig.go { s with chain := s.chain.erase listed } w
      (.stopping a nfqws)) where
  handles := hi.handles.sublist (List.erase_sublist.map _)
  rules other hother := hi.rules other (List.mem_of_mem_erase hother)
  installed := by
    refine (Function.forall_update_iff s.workers fun v pc =>
      Installed cfg (s.chain.erase listed) v pc).mpr ⟨trivial, fun v hv => ?_⟩
    refine (hi.installed v).mono fun b handle hmem => ?_
    -- another worker's rule has another queue
    have hne : (⟨cfg.rule v b, handle⟩ : ListedRule) ≠ listed := by
      rintro rfl
      exact hv (hq (congrArg WorkerFirewallRule.qnum hrule))
    exact (List.mem_erase_of_ne hne).mpr hmem

theorem installed_afterProbe (hmode : cfg.isolationMode = .sourcePort) {chain : List ListedRule}
    {w : Fin cfg.workerCount} {a : Attempt} (nfqws : NfqwsHandle)
    (h : ∃ handle, ⟨cfg.rule w a, handle⟩ ∈ chain) :
    Installed cfg chain w (cfg.afterProbe a nfqws) := by
  rw [afterProbe, hmode]
  cases cfg.firewallBackend <;> exact h

theorem chainInv_step (hmode : cfg.isolationMode = .sourcePort) (hq : cfg.QnumsDistinct)
    {s s' : State cfg.workerCount} {e : Event cfg.workerCount} (hi : ChainInv cfg s)
    (hown : OwnRemoval cfg s e) (hm : cfg.Move s e s') : ChainInv cfg s' := by
  cases hm with
  | cancel | exit => exact ⟨hi.handles, hi.rules, hi.installed⟩
  | receive | drop | leave | prepareFails | prepare | startFails | installFails | findFails
  | removeFails => exact hi.go trivial
  | endStrategy w attempted => cases attempted <;> exact hi.go trivial
  | start w a hpc =>
    have hi' : ChainInv cfg { s with
        instances := s.instances ++ [⟨cfg.qnum w, s.nextChild⟩]
        nextChild := s.nextChild + 1 } := ⟨hi.handles, hi.rules, hi.installed⟩
    refine hi'.go ?_
    rw [afterStart, hmode]
    trivial
  | install w a nfqws handle hpc hhandle => exact chainInv_install hi hhandle
  | connectCancelled w a nfqws hpc | probeEnd w phase a nfqws hpc =>
    have hin := hi.installed w
    rw [hpc] at hin
    exact hi.go (installed_afterProbe hmode nfqws hin)
  | connect w a nfqws hpc | connected w a nfqws hpc =>
    have hin := hi.installed w
    rw [hpc] at hin
    exact hi.go hin
  | find w a nfqws handle hpc hfind =>
    obtain ⟨own, hfound, hmem⟩ := found_own hi hpc hown
    obtain rfl : own = handle := Option.some.inj (hfound.symm.trans hfind)
    exact hi.go hmem
  | findNothing w a nfqws hpc hfind => exact hi.go trivial
  | remove w a nfqws deletion listed hpc hmem hdel =>
    exact chainInv_remove hq hi (deleted_own hq hi hpc hmem hdel)
  | stop w ok a nfqws hpc =>
    have hi' : ChainInv cfg
        { s with instances := if ok then s.instances.erase nfqws else s.instances } :=
      ⟨hi.handles, hi.rules, hi.installed⟩
    exact hi'.go trivial

/-- As long as every worker finds its own rule, every rule stays until its worker deletes it. -/
theorem chainInv_run (hmode : cfg.isolationMode = .sourcePort) (hq : cfg.QnumsDistinct)
    {es : List (Event cfg.workerCount)} {s : State cfg.workerCount}
    (hrun : cfg.system.run es = some s) (halong : cfg.system.Along (OwnRemoval cfg) es) :
    ChainInv cfg s :=
  System.along_invariant (S := cfg.system) chainInv_init
    (fun _ _ _ hi hown he => chainInv_step hmode hq hi hown (step_move he)) hrun halong

theorem chainInv_along (hmode : cfg.isolationMode = .sourcePort) (hq : cfg.QnumsDistinct)
    {es : List (Event cfg.workerCount)} (halong : cfg.system.Along (OwnRemoval cfg) es) :
    cfg.system.Along (fun s e => ChainInv cfg s ∧ OwnRemoval cfg s e) es :=
  halong.and_invariant chainInv_init fun _ _ _ hi hown he =>
    chainInv_step hmode hq hi hown (step_move he)

end ZapretChecker.Worker
