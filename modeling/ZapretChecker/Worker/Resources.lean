import ZapretChecker.Worker.Removal

/-!
# Resource discipline

In source_port mode, as long as every removal and stop succeeds, no instance exits by itself, and
every worker finds its own rule in the listing:

* `resourceInv_run` — the live instances and the rules of the chain are those the workers own
* `cycleInv_run` — the calls of a worker are complete cycles start, install, remove, stop (or start,
  stop), and a part of one more while it is inside an attempt
* `disciplined` — both, in terms of queue numbers

A removal that finds another rule succeeds too:

* `undisciplined_of_reusedPort` — the number of a queue occurs in a reused port, and a worker deletes
  the rule of the other one
* `undisciplined_of_otherRemoval` — the first removal that finds another rule always ends so
-/

namespace ZapretChecker.Worker

open StepSystem Firewall Ownership WorkersConfig

variable {cfg : WorkersConfig}

/-- Every removal and stop succeeds, and no instance exits by itself. -/
def Event.Dependable {n : Nat} : Event n → Prop
  | .exit _ => False
  | .find _ ok | .stop _ ok => ok = true
  | .remove _ deleted => deleted ≠ none
  | _ => True

instance {n : Nat} : (e : Event n) → Decidable e.Dependable
  | .exit _ => isFalse id
  | .find _ ok | .stop _ ok => inferInstanceAs (Decidable (ok = true))
  | .remove _ deleted => inferInstanceAs (Decidable (deleted ≠ none))
  | .cancel | .receive .. | .leave _ | .endStrategy _ | .prepare .. | .start .. | .install ..
  | .connect _ | .connected _ | .probeEnd _ => isTrue trivial

theorem along_dependable {es : List (Event cfg.workerCount)} (h : ∀ e ∈ es, e.Dependable) :
    cfg.system.Along (fun _ e => e.Dependable) es :=
  System.along_of_forall fun _ e he => h e he

/-! ## Who owns what -/

/-- The instance worker `w` owns. -/
def ownNfqws {n : Nat} (s : State n) (w : Fin n) : Option NfqwsHandle := (s.workers w).nfqws

/-- The rule worker `w` owns. -/
def ownRule (cfg : WorkersConfig) (s : State cfg.workerCount) (w : Fin cfg.workerCount) :
    Option WorkerFirewallRule :=
  (s.workers w).ruled.map (cfg.rule w)

structure ResourceInv (cfg : WorkersConfig) (s : State cfg.workerCount) : Prop where
  instances : Owned (ownNfqws s) s.instances
  qnum : ∀ w k, ownNfqws s w = some k → k.qnum = cfg.qnum w
  fresh : ∀ k ∈ s.instances, k.child < s.nextChild
  rules : Owned (ownRule cfg s) s.rules

theorem ownNfqws_go {n : Nat} (s : State n) (w : Fin n) (pc : WorkerPc) :
    ownNfqws (go s w pc) = Function.update (ownNfqws s) w pc.nfqws :=
  funext fun v => Function.apply_update (fun _ => WorkerPc.nfqws) s.workers w pc v

theorem ownRule_go (s : State cfg.workerCount) (w : Fin cfg.workerCount) (pc : WorkerPc) :
    ownRule cfg (go s w pc) = Function.update (ownRule cfg s) w (pc.ruled.map (cfg.rule w)) :=
  funext fun v => Function.apply_update (fun v pc => pc.ruled.map (cfg.rule v)) s.workers w pc v

theorem ownRule_qnum {s : State cfg.workerCount} {w : Fin cfg.workerCount}
    {r : WorkerFirewallRule} (h : ownRule cfg s w = some r) : r.qnum = cfg.qnum w := by
  obtain ⟨a, -, rfl⟩ := Option.map_eq_some_iff.mp h
  rfl

theorem resourceInv_init : ResourceInv cfg cfg.init where
  instances := owned_nil fun _ => rfl
  qnum w k hk := by simp [ownNfqws, init, WorkerPc.nfqws] at hk
  fresh k hk := by simp [init] at hk
  rules := owned_nil fun _ => rfl

/-- Worker `w` goes on with what it owns. -/
theorem ResourceInv.go {s : State cfg.workerCount} (hi : ResourceInv cfg s)
    {w : Fin cfg.workerCount} {pc : WorkerPc} (hk : pc.nfqws = (s.workers w).nfqws)
    (hr : pc.ruled = (s.workers w).ruled) : ResourceInv cfg (go s w pc) := by
  have hown : ownNfqws (WorkersConfig.go s w pc) = ownNfqws s := by
    rw [ownNfqws_go, hk]
    exact Function.update_eq_self w (ownNfqws s)
  have hrule : ownRule cfg (WorkersConfig.go s w pc) = ownRule cfg s := by
    rw [ownRule_go, hr]
    exact Function.update_eq_self w (ownRule cfg s)
  exact ⟨hown ▸ hi.instances, hown ▸ hi.qnum, hi.fresh, hrule ▸ hi.rules⟩

theorem resourceInv_start {s : State cfg.workerCount} (hi : ResourceInv cfg s)
    {w : Fin cfg.workerCount} {a : Attempt} (hpc : s.workers w = .starting a) :
    ResourceInv cfg
      (WorkersConfig.go { s with
        instances := s.instances ++ [⟨cfg.qnum w, s.nextChild⟩]
        nextChild := s.nextChild + 1 } w (.installing a ⟨cfg.qnum w, s.nextChild⟩)) := by
  have hnone : ownNfqws s w = none := by simp [ownNfqws, hpc, WorkerPc.nfqws]
  have hnew : (⟨cfg.qnum w, s.nextChild⟩ : NfqwsHandle) ∉ s.instances :=
    fun hmem => Nat.lt_irrefl _ (hi.fresh _ hmem)
  refine ⟨?_, ?_, ?_, ?_⟩
  · rw [ownNfqws_go]
    exact hi.instances.acquire hnone hnew
  · rw [ownNfqws_go]
    refine (Function.forall_update_iff (ownNfqws s)
      fun v o => ∀ k, o = some k → k.qnum = cfg.qnum v).mpr ⟨?_, fun v _ => hi.qnum v⟩
    intro k hk
    cases hk
    rfl
  · intro k hk
    rcases List.mem_append.mp hk with hk | hk
    · exact Nat.lt_succ_of_lt (hi.fresh k hk)
    · rw [List.mem_singleton.mp hk]
      exact Nat.lt_succ_self _
  · rw [ownRule_go]
    have hsame : Function.update (ownRule cfg s) w none = ownRule cfg s :=
      Function.update_eq_self_iff.mpr (by simp [ownRule, hpc, WorkerPc.ruled])
    exact hsame.symm ▸ hi.rules

theorem resourceInv_install {s : State cfg.workerCount} (hi : ResourceInv cfg s)
    (hq : cfg.QnumsDistinct) {w : Fin cfg.workerCount} {a : Attempt} {nfqws : NfqwsHandle}
    {handle : UInt64} (hpc : s.workers w = .installing a nfqws) :
    ResourceInv cfg (WorkersConfig.go { s with chain := s.chain ++ [⟨cfg.rule w a, handle⟩] } w
      (.probing .unconnected a nfqws)) := by
  have hsame : Function.update (ownNfqws s) w (some nfqws) = ownNfqws s :=
    Function.update_eq_self_iff.mpr (by simp [ownNfqws, hpc, WorkerPc.nfqws])
  have hnone : ownRule cfg s w = none := by simp [ownRule, hpc, WorkerPc.ruled]
  have hnew : cfg.rule w a ∉ s.rules := fun hmem =>
    -- a rule in the chain has an owner, and no owner but `w` has this queue
    hi.rules.key_ne WorkerFirewallRule.qnum (fun _ _ => ownRule_qnum) hq hnone hmem rfl
  refine ⟨?_, ?_, hi.fresh, ?_⟩
  · rw [ownNfqws_go]
    exact hsame.symm ▸ hi.instances
  · rw [ownNfqws_go]
    exact hsame.symm ▸ hi.qnum
  · have hrules : (WorkersConfig.go { s with chain := s.chain ++ [⟨cfg.rule w a, handle⟩] } w
        (.probing .unconnected a nfqws)).rules = s.rules ++ [cfg.rule w a] := by
      simp [State.rules]
    rw [ownRule_go, hrules]
    exact hi.rules.acquire hnone hnew

theorem resourceInv_remove {s : State cfg.workerCount} (hi : ResourceInv cfg s)
    {w : Fin cfg.workerCount} {a : Attempt} {nfqws : NfqwsHandle} {deletion : RuleDeletion}
    (hpc : s.workers w = .removing a nfqws deletion) {listed : ListedRule}
    (hmem : listed ∈ s.chain) (hrule : listed.rule = cfg.rule w a) :
    ResourceInv cfg (WorkersConfig.go { s with chain := s.chain.erase listed } w
      (.stopping a nfqws)) := by
  have hsame : Function.update (ownNfqws s) w (some nfqws) = ownNfqws s :=
    Function.update_eq_self_iff.mpr (by simp [ownNfqws, hpc, WorkerPc.nfqws])
  have hown : ownRule cfg s w = some (cfg.rule w a) := by simp [ownRule, hpc, WorkerPc.ruled]
  refine ⟨?_, ?_, hi.fresh, ?_⟩
  · rw [ownNfqws_go]
    exact hsame.symm ▸ hi.instances
  · rw [ownNfqws_go]
    exact hsame.symm ▸ hi.qnum
  · have hrules : (WorkersConfig.go { s with chain := s.chain.erase listed } w
        (.stopping a nfqws)).rules = s.rules.erase (cfg.rule w a) := by
      rw [← hrule]
      exact map_erase_of_nodup hi.rules.nodup hmem
    rw [ownRule_go, hrules]
    exact hi.rules.release hown

theorem resourceInv_stop {s : State cfg.workerCount} (hi : ResourceInv cfg s)
    {w : Fin cfg.workerCount} {a : Attempt} {nfqws : NfqwsHandle}
    (hpc : s.workers w = .stopping a nfqws ∨ s.workers w = .abandoning a nfqws) :
    ResourceInv cfg (WorkersConfig.go { s with instances := s.instances.erase nfqws } w
      (.nextTarget true a.rest)) := by
  have hown : ownNfqws s w = some nfqws := by
    rcases hpc with hpc | hpc <;> simp [ownNfqws, hpc, WorkerPc.nfqws]
  have hsame : Function.update (ownRule cfg s) w none = ownRule cfg s :=
    Function.update_eq_self_iff.mpr
      (by rcases hpc with hpc | hpc <;> simp [ownRule, hpc, WorkerPc.ruled])
  refine ⟨?_, ?_, fun k hk => hi.fresh k (List.mem_of_mem_erase hk), ?_⟩
  · rw [ownNfqws_go]
    exact hi.instances.release hown
  · rw [ownNfqws_go]
    refine (Function.forall_update_iff (ownNfqws s)
      fun v o => ∀ k, o = some k → k.qnum = cfg.qnum v).mpr ⟨?_, fun v _ => hi.qnum v⟩
    intro k hk
    simp [WorkerPc.nfqws] at hk
  · rw [ownRule_go]
    exact hsame.symm ▸ hi.rules

/-- After the probe the worker still has its instance and its rule. -/
theorem afterProbe_owns (hmode : cfg.isolationMode = .sourcePort) (a : Attempt)
    (nfqws : NfqwsHandle) :
    (cfg.afterProbe a nfqws).nfqws = some nfqws ∧ (cfg.afterProbe a nfqws).ruled = some a := by
  rw [afterProbe, hmode]
  cases cfg.firewallBackend <;> exact ⟨rfl, rfl⟩

theorem resourceInv_step (hmode : cfg.isolationMode = .sourcePort) (hq : cfg.QnumsDistinct)
    {s s' : State cfg.workerCount} {e : Event cfg.workerCount} (hc : ChainInv cfg s)
    (hi : ResourceInv cfg s) (hd : e.Dependable) (hown : OwnRemoval cfg s e)
    (hm : cfg.Move s e s') : ResourceInv cfg s' := by
  cases hm with
  | cancel => exact ⟨hi.instances, hi.qnum, hi.fresh, hi.rules⟩
  | exit nfqws => exact absurd hd id
  | endStrategy w attempted hpc =>
    cases attempted <;>
      exact hi.go (by simp [hpc, WorkerPc.nfqws]) (by simp [hpc, WorkerPc.ruled])
  | connectCancelled w a nfqws hpc | probeEnd w phase a nfqws hpc =>
    obtain ⟨hnfqws, hruled⟩ := afterProbe_owns hmode a nfqws
    exact hi.go (by rw [hnfqws, hpc]; rfl) (by rw [hruled, hpc]; rfl)
  | receive w _ hpc | drop w _ hpc | leave w hpc | prepareFails w _ _ _ hpc
  | prepare w _ _ _ _ hpc | startFails w a hpc | installFails w _ _ hpc | connect w _ _ hpc
  | connected w _ _ hpc | find w _ _ _ hpc =>
    exact hi.go (by simp [hpc, WorkerPc.nfqws]) (by simp [hpc, WorkerPc.ruled])
  | start w a hpc =>
    rw [show cfg.afterStart a ⟨cfg.qnum w, s.nextChild⟩ = .installing a ⟨cfg.qnum w, s.nextChild⟩
      by rw [afterStart, hmode]]
    exact resourceInv_start hi hpc
  | install w a nfqws handle hpc => exact resourceInv_install hi hq hpc
  | findFails w => exact absurd (show false = true from hd) Bool.false_ne_true
  | findNothing w a nfqws hpc hfind =>
    -- the rule is in the chain, and its worker finds it
    obtain ⟨handle, hfound, -⟩ := found_own hc hpc hown
    rw [hfind] at hfound
    cases hfound
  | removeFails w => exact absurd rfl (show none ≠ none from hd)
  | remove w a nfqws deletion listed hpc hmem hdel =>
    exact resourceInv_remove hi hpc hmem (deleted_own hq hc hpc hmem hdel)
  | stop w ok a nfqws hpc =>
    rw [if_pos (show ok = true from hd)]
    exact resourceInv_stop hi hpc

theorem resourceInv_run (hmode : cfg.isolationMode = .sourcePort) (hq : cfg.QnumsDistinct)
    {es : List (Event cfg.workerCount)} {s : State cfg.workerCount}
    (hrun : cfg.system.run es = some s) (hes : ∀ e ∈ es, e.Dependable)
    (halong : cfg.system.Along (OwnRemoval cfg) es) : ResourceInv cfg s := by
  refine System.along_invariant (S := cfg.system) resourceInv_init ?_ hrun
    ((along_dependable hes).and (chainInv_along hmode hq halong))
  rintro s e s' hi ⟨hd, hc, hown⟩ he
  exact resourceInv_step hmode hq hc hi hd hown (step_move he)

/-! ## The calls of one worker -/

/-- A successful call into the machine. -/
inductive Call
  | start (nfqws : NfqwsHandle)
  | install (rule : WorkerFirewallRule)
  | remove (rule : WorkerFirewallRule)
  | stop (nfqws : NfqwsHandle)
  deriving DecidableEq

/-- The worker an event belongs to. -/
def Event.worker {n : Nat} : Event n → Option (Fin n)
  | .cancel | .exit _ => none
  | .receive w _ | .leave w | .endStrategy w | .prepare w _ | .start w _ | .install w _ | .connect w
  | .connected w | .probeEnd w | .find w _ | .remove w _ | .stop w _ => some w

/-- The successful calls of worker `w` in one step of its own. -/
def ownCalls (cfg : WorkersConfig) (w : Fin cfg.workerCount) (s : State cfg.workerCount)
    (e : Event cfg.workerCount) : List Call :=
  match e, s.workers w with
  | .start _ true, _ => [.start ⟨cfg.qnum w, s.nextChild⟩]
  | .install _ (some _), .installing a _ => [.install (cfg.rule w a)]
  | .remove _ (some listed), _ => [.remove listed.rule]
  | .stop _ true, .stopping _ nfqws | .stop _ true, .abandoning _ nfqws => [.stop nfqws]
  | _, _ => []

/-- The successful calls of worker `w` in one step. -/
def observeCalls (cfg : WorkersConfig) (w : Fin cfg.workerCount) (s : State cfg.workerCount)
    (e : Event cfg.workerCount) : List Call :=
  if e.worker = some w then ownCalls cfg w s e else []

/-- The successful calls of worker `w` along a run, in order. -/
def calls (cfg : WorkersConfig) (w : Fin cfg.workerCount) (es : List (Event cfg.workerCount)) :
    List Call :=
  cfg.system.history (observeCalls cfg w) es

/-- What one complete attempt does. Without a rule the install failed. -/
structure Cycle where
  nfqws : NfqwsHandle
  rule : Option WorkerFirewallRule
  deriving DecidableEq

def Cycle.calls (c : Cycle) : List Call :=
  match c.rule with
  | some rule => [.start c.nfqws, .install rule, .remove rule, .stop c.nfqws]
  | none => [.start c.nfqws, .stop c.nfqws]

/-- The calls of an attempt that is not complete yet. -/
def WorkerPc.opened (cfg : WorkersConfig) (w : Fin cfg.workerCount) : WorkerPc → List Call
  | .installing _ nfqws | .abandoning _ nfqws => [.start nfqws]
  | .probing _ a nfqws | .finding a nfqws | .removing a nfqws _ =>
    [.start nfqws, .install (cfg.rule w a)]
  | .stopping a nfqws => [.start nfqws, .install (cfg.rule w a), .remove (cfg.rule w a)]
  | _ => []

/-- The calls so far are complete cycles and the open one, each with its own instance. -/
structure CycleInv (cfg : WorkersConfig) (w : Fin cfg.workerCount) (s : State cfg.workerCount)
    (h : List Call) (cycles : List Cycle) : Prop where
  calls : h = cycles.flatMap Cycle.calls ++ (s.workers w).opened cfg w
  nodup : (cycles.map Cycle.nfqws ++ (s.workers w).nfqws.toList).Nodup
  fresh : ∀ k ∈ cycles.map Cycle.nfqws ++ (s.workers w).nfqws.toList, k.child < s.nextChild

/-- A step of another worker leaves `w` alone. -/
theorem move_frame {w : Fin cfg.workerCount} {s s' : State cfg.workerCount}
    {e : Event cfg.workerCount} (hm : cfg.Move s e s') (he : e.worker ≠ some w) :
    s'.workers w = s.workers w ∧ s.nextChild ≤ s'.nextChild := by
  cases hm with
  | cancel | exit => exact ⟨rfl, le_refl _⟩
  | start v =>
    have hv : w ≠ v := fun h => he (by simp [Event.worker, h])
    exact ⟨Function.update_of_ne hv .., Nat.le_succ _⟩
  | receive v | drop v | leave v | endStrategy v | prepareFails v | prepare v | startFails v
  | installFails v | install v | connectCancelled v | connect v | connected v | probeEnd v
  | findFails v | find v | findNothing v | removeFails v | remove v | stop v =>
    have hv : w ≠ v := fun h => he (by simp [Event.worker, h])
    exact ⟨Function.update_of_ne hv .., le_refl _⟩

theorem CycleInv.keep {w : Fin cfg.workerCount} {s s' : State cfg.workerCount} {h : List Call}
    {cycles : List Cycle} (hi : CycleInv cfg w s h cycles)
    (ho : (s'.workers w).opened cfg w = (s.workers w).opened cfg w)
    (hk : (s'.workers w).nfqws = (s.workers w).nfqws) (hn : s.nextChild ≤ s'.nextChild) :
    CycleInv cfg w s' h cycles where
  calls := by rw [ho]; exact hi.calls
  nodup := by rw [hk]; exact hi.nodup
  fresh := by
    rw [hk]
    exact fun k hmem => Nat.lt_of_lt_of_le (hi.fresh k hmem) hn

/-- A step without a successful call of `w`. -/
theorem CycleInv.silent {w : Fin cfg.workerCount} {s s' : State cfg.workerCount} {h : List Call}
    {cycles : List Cycle} {e : Event cfg.workerCount} (hi : CycleInv cfg w s h cycles)
    (hobs : observeCalls cfg w s e = [])
    (ho : (s'.workers w).opened cfg w = (s.workers w).opened cfg w)
    (hk : (s'.workers w).nfqws = (s.workers w).nfqws) (hn : s.nextChild ≤ s'.nextChild) :
    ∃ cycles', CycleInv cfg w s' (h ++ observeCalls cfg w s e) cycles' := by
  rw [hobs, List.append_nil]
  exact ⟨cycles, hi.keep ho hk hn⟩

/-- One more call of the open cycle. -/
theorem CycleInv.extend {w : Fin cfg.workerCount} {s s' : State cfg.workerCount} {h : List Call}
    {cycles : List Cycle} (hi : CycleInv cfg w s h cycles) {c : Call}
    (ho : (s'.workers w).opened cfg w = (s.workers w).opened cfg w ++ [c])
    (hk : (s'.workers w).nfqws = (s.workers w).nfqws) (hn : s.nextChild ≤ s'.nextChild) :
    CycleInv cfg w s' (h ++ [c]) cycles where
  calls := by rw [ho, hi.calls, List.append_assoc]
  nodup := by rw [hk]; exact hi.nodup
  fresh := by
    rw [hk]
    exact fun k hmem => Nat.lt_of_lt_of_le (hi.fresh k hmem) hn

/-- The stop completes the open cycle. -/
theorem CycleInv.close {w : Fin cfg.workerCount} {s s' : State cfg.workerCount} {h : List Call}
    {cycles : List Cycle} (hi : CycleInv cfg w s h cycles) (c : Cycle)
    (ho : (s.workers w).opened cfg w ++ [.stop c.nfqws] = c.calls)
    (hk : (s.workers w).nfqws = some c.nfqws) (ho' : (s'.workers w).opened cfg w = [])
    (hk' : (s'.workers w).nfqws = none) (hn : s'.nextChild = s.nextChild) :
    CycleInv cfg w s' (h ++ [.stop c.nfqws]) (cycles ++ [c]) := by
  have hlist : (cycles ++ [c]).map Cycle.nfqws ++ (s'.workers w).nfqws.toList =
      cycles.map Cycle.nfqws ++ (s.workers w).nfqws.toList := by
    simp [hk, hk']
  refine ⟨?_, ?_, ?_⟩
  · rw [ho', hi.calls, List.append_assoc, ho, List.append_nil, List.flatMap_append]
    simp
  · rw [hlist]
    exact hi.nodup
  · rw [hlist, hn]
    exact hi.fresh

theorem cycleInv_start {w : Fin cfg.workerCount} {s s' : State cfg.workerCount} {h : List Call}
    {cycles : List Cycle} (hi : CycleInv cfg w s h cycles)
    (ho : (s.workers w).opened cfg w = [])
    (ho' : (s'.workers w).opened cfg w = [.start ⟨cfg.qnum w, s.nextChild⟩])
    (hk' : (s'.workers w).nfqws = some ⟨cfg.qnum w, s.nextChild⟩)
    (hn : s'.nextChild = s.nextChild + 1) :
    CycleInv cfg w s' (h ++ [.start ⟨cfg.qnum w, s.nextChild⟩]) cycles := by
  have hfresh : ∀ k ∈ cycles.map Cycle.nfqws, k.child < s.nextChild :=
    fun k hmem => hi.fresh k (List.mem_append_left _ hmem)
  have hnodup : (cycles.map Cycle.nfqws).Nodup := hi.nodup.of_append_left
  refine ⟨?_, ?_, ?_⟩
  · rw [ho', hi.calls, ho, List.append_nil]
  · rw [hk']
    refine List.nodup_append_comm.mp (List.nodup_cons.mpr ⟨?_, by simpa using hnodup⟩)
    exact fun hmem => Nat.lt_irrefl _ (hfresh _ (by simpa using hmem))
  · rw [hk', hn]
    intro k hmem
    rcases List.mem_append.mp hmem with hmem | hmem
    · exact Nat.lt_succ_of_lt (hfresh k hmem)
    · have hk := List.mem_singleton.mp hmem
      rw [hk]
      exact Nat.lt_succ_self _

theorem opened_afterProbe (hmode : cfg.isolationMode = .sourcePort) (w : Fin cfg.workerCount)
    (a : Attempt) (nfqws : NfqwsHandle) :
    (cfg.afterProbe a nfqws).opened cfg w = [.start nfqws, .install (cfg.rule w a)] := by
  rw [afterProbe, hmode]
  cases cfg.firewallBackend <;> rfl

theorem cycleInv_step (hmode : cfg.isolationMode = .sourcePort) (hq : cfg.QnumsDistinct)
    {w : Fin cfg.workerCount} {s s' : State cfg.workerCount} {e : Event cfg.workerCount}
    {h : List Call} {cycles : List Cycle} (hc : ChainInv cfg s) (hi : CycleInv cfg w s h cycles)
    (hd : e.Dependable) (hown : OwnRemoval cfg s e) (hm : cfg.Move s e s') :
    ∃ cycles', CycleInv cfg w s' (h ++ observeCalls cfg w s e) cycles' := by
  -- a step of another worker changes neither the calls of `w` nor its place
  by_cases he : e.worker = some w
  · cases hm with
    | cancel | exit => simp [Event.worker] at he
    | receive v _ hpc | drop v _ hpc | leave v hpc | prepareFails v _ _ _ hpc
    | prepare v _ _ _ _ hpc | startFails v a hpc | installFails v _ _ hpc | connect v _ _ hpc
    | connected v _ _ hpc | find v _ _ _ hpc =>
      obtain rfl : v = w := Option.some.inj he
      exact hi.silent (by simp [observeCalls, ownCalls]) (by simp [hpc, WorkerPc.opened])
        (by simp [hpc, WorkerPc.nfqws]) (le_refl _)
    | endStrategy v attempted hpc =>
      obtain rfl : v = w := Option.some.inj he
      exact hi.silent (by simp [observeCalls, ownCalls])
        (by cases attempted <;> simp [hpc, WorkerPc.opened])
        (by cases attempted <;> simp [hpc, WorkerPc.nfqws]) (le_refl _)
    | connectCancelled v a nfqws hpc | probeEnd v phase a nfqws hpc =>
      obtain rfl : v = w := Option.some.inj he
      exact hi.silent (by simp [observeCalls, ownCalls])
        (by rw [go_workers, Function.update_self, opened_afterProbe hmode, hpc]; rfl)
        (by rw [go_workers, Function.update_self, (afterProbe_owns hmode a nfqws).1, hpc]; rfl)
        (le_refl _)
    | start v a hpc =>
      obtain rfl : v = w := Option.some.inj he
      have hnext : cfg.afterStart a ⟨cfg.qnum v, s.nextChild⟩ =
          .installing a ⟨cfg.qnum v, s.nextChild⟩ := by rw [afterStart, hmode]
      rw [show observeCalls cfg v s (.start v true) = [.start ⟨cfg.qnum v, s.nextChild⟩] by
        simp [observeCalls, ownCalls, Event.worker], hnext]
      exact ⟨cycles, cycleInv_start hi (by simp [hpc, WorkerPc.opened])
        (by simp [WorkerPc.opened]) (by simp [WorkerPc.nfqws]) rfl⟩
    | install v a nfqws handle hpc =>
      obtain rfl : v = w := Option.some.inj he
      rw [show observeCalls cfg v s (.install v (some handle)) = [.install (cfg.rule v a)] by
        simp [observeCalls, ownCalls, Event.worker, hpc]]
      exact ⟨cycles, hi.extend (by simp [hpc, WorkerPc.opened]) (by simp [hpc, WorkerPc.nfqws])
        (le_refl _)⟩
    | findFails v => exact absurd (show false = true from hd) Bool.false_ne_true
    | findNothing v a nfqws hpc hfind =>
      obtain ⟨handle, hfound, -⟩ := found_own hc hpc hown
      rw [hfind] at hfound
      cases hfound
    | removeFails v => exact absurd rfl (show none ≠ none from hd)
    | remove v a nfqws deletion listed hpc hmem hdel =>
      obtain rfl : v = w := Option.some.inj he
      rw [show observeCalls cfg v s (.remove v (some listed)) = [.remove listed.rule] by
        simp [observeCalls, ownCalls, Event.worker], deleted_own hq hc hpc hmem hdel]
      exact ⟨cycles, hi.extend (by simp [hpc, WorkerPc.opened]) (by simp [hpc, WorkerPc.nfqws])
        (le_refl _)⟩
    | stop v ok a nfqws hpc =>
      obtain rfl : v = w := Option.some.inj he
      obtain rfl : ok = true := hd
      have hobs : observeCalls cfg v s (.stop v true) = [.stop nfqws] := by
        rcases hpc with hpc | hpc <;> simp [observeCalls, ownCalls, Event.worker, hpc]
      rw [hobs]
      -- after a failed install the cycle has no rule
      rcases hpc with hpc | hpc
      · exact ⟨_, hi.close ⟨nfqws, some (cfg.rule v a)⟩
          (by simp [hpc, WorkerPc.opened, Cycle.calls]) (by simp [hpc, WorkerPc.nfqws])
          (by simp [WorkerPc.opened]) (by simp [WorkerPc.nfqws]) rfl⟩
      · exact ⟨_, hi.close ⟨nfqws, none⟩
          (by simp [hpc, WorkerPc.opened, Cycle.calls]) (by simp [hpc, WorkerPc.nfqws])
          (by simp [WorkerPc.opened]) (by simp [WorkerPc.nfqws]) rfl⟩
  · obtain ⟨hw, hn⟩ := move_frame hm he
    exact hi.silent (if_neg he) (by rw [hw]) (by rw [hw]) hn

theorem cycleInv_run (hmode : cfg.isolationMode = .sourcePort) (hq : cfg.QnumsDistinct)
    (w : Fin cfg.workerCount) {es : List (Event cfg.workerCount)} {s : State cfg.workerCount}
    (hrun : cfg.system.run es = some s) (hes : ∀ e ∈ es, e.Dependable)
    (halong : cfg.system.Along (OwnRemoval cfg) es) :
    ∃ cycles, CycleInv cfg w s (calls cfg w es) cycles := by
  refine System.along_history_invariant (S := cfg.system)
    (I := fun s h => ∃ cycles, CycleInv cfg w s h cycles) ⟨[], ?_⟩ ?_ hrun
    ((along_dependable hes).and (chainInv_along hmode hq halong))
  · refine ⟨rfl, ?_, ?_⟩ <;> simp [system, init, WorkerPc.nfqws]
  · rintro s h e s' ⟨cycles, hi⟩ ⟨hd, hc, hown⟩ he
    exact cycleInv_step hmode hq hc hi hd hown (step_move he)

/-! ## The discipline -/

theorem between_owns {pc : WorkerPc} (h : pc.Between) :
    pc.nfqws = none ∧ pc.ruled = none ∧ ∀ (cfg : WorkersConfig) w, pc.opened cfg w = [] := by
  cases pc with
  | idle | nextTarget | returned => exact ⟨rfl, rfl, fun _ _ => rfl⟩
  | starting | installing | abandoning | probing | finding | removing | stopping =>
    exact absurd h id

/-- What the workers promise about queues, instances and rules. -/
structure Disciplined (cfg : WorkersConfig) (es : List (Event cfg.workerCount))
    (s : State cfg.workerCount) : Prop where
  /-- a queue has at most one live instance -/
  oneInstance : (s.instances.map NfqwsHandle.qnum).Nodup
  /-- a queue has at most one rule -/
  oneRule : (s.rules.map WorkerFirewallRule.qnum).Nodup
  /-- a probe runs only with the worker's own instance live and its own rule installed -/
  probing : ∀ w phase a nfqws, s.workers w = .probing phase a nfqws →
    nfqws ∈ s.instances ∧ nfqws.qnum = cfg.qnum w ∧ cfg.rule w a ∈ s.rules
  /-- a worker removes what it installed and then stops what it started, with an instance of its own
  each time -/
  cycles : ∀ w, ∃ cycles : List Cycle,
    calls cfg w es = cycles.flatMap Cycle.calls ++ (s.workers w).opened cfg w ∧
    (cycles.map Cycle.nfqws ++ (s.workers w).nfqws.toList).Nodup
  /-- between two attempts, and once it has returned, a worker owns nothing -/
  between : ∀ w, (s.workers w).Between → (s.workers w).opened cfg w = [] ∧
    (∀ nfqws ∈ s.instances, nfqws.qnum ≠ cfg.qnum w) ∧ ∀ rule ∈ s.rules, rule.qnum ≠ cfg.qnum w

/-- **Resource discipline**, in runs in which every worker finds its own rule. -/
theorem disciplined (hmode : cfg.isolationMode = .sourcePort) (hq : cfg.QnumsDistinct)
    {es : List (Event cfg.workerCount)} {s : State cfg.workerCount}
    (hrun : cfg.system.run es = some s) (hes : ∀ e ∈ es, e.Dependable)
    (halong : cfg.system.Along (OwnRemoval cfg) es) : Disciplined cfg es s := by
  have hi := resourceInv_run hmode hq hrun hes halong
  refine ⟨hi.instances.nodup_map_key hi.qnum hq,
    hi.rules.nodup_map_key (fun _ _ => ownRule_qnum) hq, ?_, ?_, ?_⟩
  · intro w phase a nfqws hpc
    have hown : ownNfqws s w = some nfqws := by simp [ownNfqws, hpc, WorkerPc.nfqws]
    have hrule : ownRule cfg s w = some (cfg.rule w a) := by simp [ownRule, hpc, WorkerPc.ruled]
    exact ⟨hi.instances.live_of_own w nfqws hown, hi.qnum w nfqws hown,
      hi.rules.live_of_own w _ hrule⟩
  · intro w
    obtain ⟨cycles, hc⟩ := cycleInv_run hmode hq w hrun hes halong
    exact ⟨cycles, hc.calls, hc.nodup⟩
  · intro w hb
    obtain ⟨hk, hr, ho⟩ := between_owns hb
    have hrule : ownRule cfg s w = none := by simp [ownRule, hr]
    exact ⟨ho cfg w, fun k hmem => hi.instances.key_ne NfqwsHandle.qnum hi.qnum hq hk hmem,
      fun r hmem => hi.rules.key_ne WorkerFirewallRule.qnum (fun _ _ => ownRule_qnum) hq hrule hmem⟩

/-- Two workers on the queues 200 and 201. -/
def twoWorkers : WorkersConfig where
  assignments :=
    [{ workerId := 0, qnum := 200, fwmark := none, sourcePort := none },
      { workerId := 1, qnum := 201, fwmark := none, sourcePort := none }]
  isolationMode := .sourcePort
  firewallBackend := .nftables
  firewallHook := .output
  chainFrame := testChain

abbrev worker0 : Fin twoWorkers.workerCount := ⟨0, Nat.zero_lt_two⟩

abbrev worker1 : Fin twoWorkers.workerCount := ⟨1, Nat.one_lt_two⟩

/-- A web server. -/
def webTarget : StrategyProbeTarget :=
  { (default : StrategyProbeTarget) with ip := .v4 0x5DB8D822#32, port := 443 }

/-- Both workers have a rule, and the second one's probe ends. -/
def secondProbe : List (Event twoWorkers.workerCount) :=
  [.receive worker0 [webTarget], .prepare worker0 (some 40000), .start worker0 true,
    .receive worker1 [webTarget, webTarget], .prepare worker1 (some 40001), .start worker1 true,
    .install worker0 (some 4), .install worker1 (some 5), .connect worker0, .connect worker1,
    .probeEnd worker1]

/-- While the first worker probes, the second removes its rule from behind the first one's, and then
fails to install a rule for its next target. -/
def disciplinedRun : List (Event twoWorkers.workerCount) :=
  secondProbe ++ .find worker1 true ::
    [.remove worker1 (some ⟨twoWorkers.rule worker1 ⟨webTarget, [webTarget], 40001⟩, 5⟩),
      .stop worker1 true, .prepare worker1 (some 40002), .start worker1 true,
      .install worker1 none]

/-- The state in which the second worker lists the chain. -/
def secondListing : State twoWorkers.workerCount :=
  (twoWorkers.system.run secondProbe).get rfl

theorem run_secondProbe : twoWorkers.system.run secondProbe = some secondListing :=
  (Option.some_get _).symm

theorem step_secondListing : twoWorkers.system.step secondListing (.find worker1 true) =
    some (go secondListing worker1 (.removing ⟨webTarget, [webTarget], 40001⟩ ⟨201, 1⟩
      (.byHandle 5))) :=
  step_find rfl ((findRuleHandle_eq ..).trans (by decide +kernel))

theorem isSome_disciplinedRun : (twoWorkers.system.run disciplinedRun).isSome = true := by
  rw [disciplinedRun, System.run_append_cons run_secondProbe step_secondListing]
  rfl

theorem ownRemoval_disciplinedRun : twoWorkers.system.Along (OwnRemoval twoWorkers) disciplinedRun :=
  (System.along_append_cons run_secondProbe step_secondListing).mpr
    ⟨by decide, by decide +kernel, by decide⟩

theorem disciplined_twoWorkers :
    ∃ s, twoWorkers.system.run disciplinedRun = some s ∧ Disciplined twoWorkers disciplinedRun s := by
  obtain ⟨s, hrun⟩ := Option.isSome_iff_exists.mp isSome_disciplinedRun
  exact ⟨s, hrun, disciplined rfl (by decide) hrun (by decide) ownRemoval_disciplinedRun⟩

/-! ## Another rule -/

/-- Worker 0 gets the port of worker 1, whose rule is still in the chain. -/
def reusedPortProbe : List (Event twoWorkers.workerCount) :=
  [.receive worker1 [webTarget], .prepare worker1 (some 42000), .start worker1 true,
    .install worker1 (some 4), .connect worker1, .connected worker1, .probeEnd worker1,
    .receive worker0 [webTarget], .prepare worker0 (some 42000), .start worker0 true,
    .install worker0 (some 5), .connect worker0, .connected worker0, .probeEnd worker0]

/-- The line of worker 1's rule has the texts of worker 0's: the `200` is in `42000`. -/
def reusedPortRemoval : List (Event twoWorkers.workerCount) :=
  reusedPortProbe ++ .find worker0 true ::
    [.remove worker0 (some ⟨twoWorkers.rule worker1 ⟨webTarget, [], 42000⟩, 4⟩),
      .stop worker0 true]

def reusedPortListing : State twoWorkers.workerCount :=
  (twoWorkers.system.run reusedPortProbe).get rfl

theorem run_reusedPortProbe : twoWorkers.system.run reusedPortProbe = some reusedPortListing :=
  (Option.some_get _).symm

theorem step_reusedPortListing : twoWorkers.system.step reusedPortListing (.find worker0 true) =
    some (go reusedPortListing worker0 (.removing ⟨webTarget, [], 42000⟩ ⟨200, 1⟩
      (.byHandle 4))) :=
  step_find rfl ((findRuleHandle_eq ..).trans (by decide +kernel))

/-- **A worker deletes another one's rule and leaves its own**, and every call succeeds. -/
theorem undisciplined_of_reusedPort :
    (∀ e ∈ reusedPortRemoval, e.Dependable) ∧
      ∃ s, twoWorkers.system.run reusedPortRemoval = some s ∧
        ¬Disciplined twoWorkers reusedPortRemoval s := by
  have hmap : (twoWorkers.system.run reusedPortRemoval).map (fun s => decide
      (s.workers worker0 = .nextTarget true [] ∧
        s.rules = [twoWorkers.rule worker0 ⟨webTarget, [], 42000⟩])) = some true := by
    rw [reusedPortRemoval, System.run_append_cons run_reusedPortProbe step_reusedPortListing]
    rfl
  obtain ⟨s, hrun, hs⟩ := Option.map_eq_some_iff.mp hmap
  obtain ⟨hpc, hrules⟩ := of_decide_eq_true hs
  refine ⟨by decide, s, hrun, fun h => ?_⟩
  obtain ⟨-, -, hnone⟩ := h.between worker0 (by rw [hpc]; trivial)
  exact hnone _ (by rw [hrules]; exact List.mem_singleton.mpr rfl) rfl

/-- **The condition is needed.** The first listing in which a worker finds another rule leads to a
worker without an attempt whose rule is in the chain. -/
theorem undisciplined_of_otherRemoval (hmode : cfg.isolationMode = .sourcePort)
    (hq : cfg.QnumsDistinct) {es : List (Event cfg.workerCount)} {s : State cfg.workerCount}
    (hrun : cfg.system.run es = some s) (halong : cfg.system.Along (OwnRemoval cfg) es)
    {w : Fin cfg.workerCount} (hother : ¬OwnRemoval cfg s (.find w true)) :
    ∃ listed s', cfg.system.run (es ++ [.find w true, .remove w (some listed), .stop w true]) =
        some s' ∧
      ¬Disciplined cfg (es ++ [.find w true, .remove w (some listed), .stop w true]) s' := by
  cases hpc : s.workers w with
  | finding a nfqws =>
    obtain ⟨listed, hmem, hfind, hne⟩ := found_other hpc hother
    have hin := (chainInv_run hmode hq hrun halong).installed w
    rw [hpc] at hin
    obtain ⟨own, hown⟩ := hin
    have hrun' := System.run_append_cons hrun (step_find hpc hfind)
      [.remove w (some listed), .stop w true]
    simp only [System.runFrom, system, step, go_workers, go_chain, Function.update_self, Deletes, hmem,
      and_self, if_true, Option.bind_some] at hrun'
    refine ⟨listed, _, hrun', fun h => ?_⟩
    obtain ⟨-, -, hnone⟩ := h.between w (by rw [go_workers, Function.update_self]; trivial)
    refine hnone (cfg.rule w a) (List.mem_map.mpr ⟨⟨cfg.rule w a, own⟩, ?_, rfl⟩) rfl
    exact (List.mem_erase_of_ne fun he => hne (congrArg ListedRule.rule he).symm).mpr hown
  | idle | nextTarget | starting | installing | abandoning | probing | removing | stopping
  | returned => exact absurd (by simp [OwnRemoval, hpc]) hother

end ZapretChecker.Worker
