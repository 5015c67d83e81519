import ZapretChecker.Worker.Resources

/-!
# Routing isolation

A worker's packets must reach its own nfqws instance: the first rule of the chain for the flow of its
socket has to be its own. The probe drops its socket before the rule is removed, so another worker
can get the same port while the old rule is still in the chain. And a removal may delete the rule of
another worker that is still probing.

* `misrouted_of_reusedPort` — the old rule takes the new worker's packets
* `routedToOwn` — as long as no rule is appended behind one for the same flow, and every worker
  finds its own rule in the listing, every probe is routed to its own queue
* `misrouted_of_staleRule` — a rule appended behind one for the same flow can always do harm
* `misrouted_of_otherRemoval` — and so does a listing in which a worker finds the rule of a probe,
  as with the ports 43200 and 4320 (`misrouted_of_prefixPort`)
-/

namespace ZapretChecker.Worker

open StepSystem Firewall Ownership WorkersConfig

variable {cfg : WorkersConfig}

/-- Every probe that is connecting or exchanging data is queued to its own worker. -/
def RoutedToOwn (cfg : WorkersConfig) (s : State cfg.workerCount) : Prop :=
  ∀ w phase a nfqws, s.workers w = .probing phase a nfqws → phase ≠ .unconnected →
    queueOf s.rules a.flow = some (cfg.qnum w)

/-! ## The reused port -/

/-- Every call succeeds. The first worker's socket is dropped, the second worker gets its port, and
both rules are in the chain when the second worker connects. -/
def reusedPortRun : List (Event twoWorkers.workerCount) :=
  [.receive worker0 [default], .prepare worker0 (some 40000), .start worker0 true,
    .install worker0 (some 4), .connect worker0, .connected worker0, .probeEnd worker0,
    .receive worker1 [default], .prepare worker1 (some 40000), .start worker1 true,
    .install worker1 (some 5), .connect worker1]

/-- **A reused port is routed to the wrong queue.** -/
theorem misrouted_of_reusedPort :
    ∃ s, twoWorkers.system.run reusedPortRun = some s ∧ ¬RoutedToOwn twoWorkers s := by
  have hmap : (twoWorkers.system.run reusedPortRun).map (fun s => decide
      (s.workers worker1 = .probing .connecting ⟨default, [], 40000⟩ ⟨201, 1⟩ ∧
        queueOf s.rules (Attempt.flow ⟨default, [], 40000⟩) = some 200)) = some true := rfl
  obtain ⟨s, hrun, hs⟩ := Option.map_eq_some_iff.mp hmap
  obtain ⟨hpc, hqueue⟩ := of_decide_eq_true hs
  refine ⟨s, hrun, fun h => ?_⟩
  have hown := h worker1 _ _ _ hpc (by decide)
  rw [hqueue] at hown
  exact absurd hown (by decide)

/-! ## Fresh installs -/

/-- A rule is appended only when the chain has no rule for the same flow. -/
def FreshInstall (cfg : WorkersConfig) (s : State cfg.workerCount) (e : Event cfg.workerCount) :
    Prop :=
  match e with
  | .install w (some _) =>
    match s.workers w with
    | .installing a _ => ∀ rule ∈ s.rules, rule.flow ≠ a.flow
    | _ => True
  | _ => True

instance (s : State cfg.workerCount) :
    (e : Event cfg.workerCount) → Decidable (FreshInstall cfg s e)
  | .install w (some _) => by
    dsimp only [FreshInstall]
    exact match s.workers w with
      | .installing a _ => inferInstanceAs (Decidable (∀ rule ∈ s.rules, rule.flow ≠ a.flow))
      | .idle | .nextTarget .. | .starting _ | .abandoning .. | .probing .. | .finding ..
      | .removing .. | .stopping .. | .returned => instDecidableTrue
  | .install _ none | .cancel | .exit _ | .receive .. | .leave _ | .endStrategy _ | .prepare ..
  | .start .. | .connect _ | .connected _ | .probeEnd _ | .find .. | .remove .. | .stop .. =>
    instDecidableTrue

/-- No two rules of the chain are for the same flow. -/
def FlowsDistinct {n : Nat} (s : State n) : Prop := (s.rules.map WorkerFirewallRule.flow).Nodup

theorem flowsDistinct_install {s : State cfg.workerCount} (hi : FlowsDistinct s)
    {w : Fin cfg.workerCount} {a : Attempt} {handle : UInt64}
    (hfresh : ∀ rule ∈ s.rules, rule.flow ≠ a.flow) :
    FlowsDistinct { s with chain := s.chain ++ [⟨cfg.rule w a, handle⟩] } := by
  unfold FlowsDistinct State.rules at hi ⊢
  rw [List.map_append, List.map_singleton]
  exact nodup_map_append hi hfresh

theorem flowsDistinct_step {s s' : State cfg.workerCount} {e : Event cfg.workerCount}
    (hi : FlowsDistinct s) (hf : FreshInstall cfg s e) (hm : cfg.Move s e s') :
    FlowsDistinct s' := by
  cases hm with
  | cancel | exit | receive | drop | leave | endStrategy | prepareFails | prepare | startFails | start
  | installFails | connectCancelled | connect | connected | probeEnd | findFails | find | findNothing
  | removeFails | stop => exact hi
  | install w a nfqws handle hpc =>
    simp only [FreshInstall, hpc] at hf
    exact flowsDistinct_install hi hf
  | remove w a nfqws deletion listed =>
    exact hi.sublist ((List.erase_sublist.map _).map _)

theorem flowsDistinct_run {es : List (Event cfg.workerCount)} {s : State cfg.workerCount}
    (hrun : cfg.system.run es = some s) (halong : cfg.system.Along (FreshInstall cfg) es) :
    FlowsDistinct s :=
  System.along_invariant (S := cfg.system) (I := FlowsDistinct) List.nodup_nil
    (fun _ _ _ hi hf he => flowsDistinct_step hi hf (step_move he)) hrun halong

/-- **Routing isolation**, in runs that append no rule behind one for the same flow and in which every
worker finds its own rule. -/
theorem routedToOwn (hmode : cfg.isolationMode = .sourcePort) (hq : cfg.QnumsDistinct)
    {es : List (Event cfg.workerCount)} {s : State cfg.workerCount}
    (hrun : cfg.system.run es = some s) (hfresh : cfg.system.Along (FreshInstall cfg) es)
    (hown : cfg.system.Along (OwnRemoval cfg) es) : RoutedToOwn cfg s := by
  intro w phase a nfqws hpc _
  have hin := (chainInv_run hmode hq hrun hown).installed w
  obtain ⟨handle, hmem⟩ := hin.exists_handle (a := a) (by rw [hpc]; rfl)
  have hrule : cfg.rule w a ∈ s.rules := List.mem_map_of_mem hmem
  exact queueOf_of_mem (flowsDistinct_run hrun hfresh) hrule

theorem routedToOwn_twoWorkers : ∃ s, twoWorkers.system.run disciplinedRun = some s ∧
    s.workers worker0 = .probing .connecting ⟨webTarget, [], 40000⟩ ⟨200, 0⟩ ∧
    RoutedToOwn twoWorkers s := by
  have hmap : (twoWorkers.system.run disciplinedRun).map (fun s => decide
      (s.workers worker0 = .probing .connecting ⟨webTarget, [], 40000⟩ ⟨200, 0⟩)) = some true := by
    rw [disciplinedRun, System.run_append_cons run_secondProbe step_secondListing]
    rfl
  obtain ⟨s, hrun, hs⟩ := Option.map_eq_some_iff.mp hmap
  have hfresh : twoWorkers.system.Along (FreshInstall twoWorkers) disciplinedRun :=
    (System.along_append_cons run_secondProbe step_secondListing).mpr
      ⟨by decide, trivial, by decide⟩
  exact ⟨s, hrun, of_decide_eq_true hs,
    routedToOwn rfl (by decide) hrun hfresh ownRemoval_disciplinedRun⟩

/-! ## Stale rules -/

/-- A rule behind one for the same flow never sees a packet. -/
theorem queueOf_append_of_mem {chain : List WorkerFirewallRule} {old new : WorkerFirewallRule}
    (hmem : old ∈ chain) (hflow : old.flow = new.flow) :
    ∃ rule ∈ chain, queueOf (chain ++ [new]) new.flow = some rule.qnum := by
  obtain ⟨rule, hrule, hfind, -⟩ := exists_find?_of_mem (p := fun r => r.flow = new.flow) hmem
    (decide_eq_true hflow)
  refine ⟨rule, hrule, ?_⟩
  rw [queueOf, List.find?_append, hfind]
  rfl

/-- **The first condition is needed.** Where a run in which every removal and stop succeeds, and removes
the own rule, can append a rule behind one for the same flow, it can go on to a misrouted probe. -/
theorem misrouted_of_staleRule (hmode : cfg.isolationMode = .sourcePort) (hq : cfg.QnumsDistinct)
    {es : List (Event cfg.workerCount)} {s : State cfg.workerCount}
    (hrun : cfg.system.run es = some s) (hes : ∀ e ∈ es, e.Dependable)
    (hown : cfg.system.Along (OwnRemoval cfg) es) {w : Fin cfg.workerCount} {handle : UInt64}
    (hhandle : HandleFree s handle) (hstale : ¬FreshInstall cfg s (.install w (some handle)))
    (hc : s.cancelled = false) :
    ∃ s', cfg.system.run (es ++ [.install w (some handle), .connect w]) = some s' ∧
      ¬RoutedToOwn cfg s' := by
  cases hpc : s.workers w with
  | installing a nfqws =>
    simp only [FreshInstall, hpc] at hstale
    push Not at hstale
    obtain ⟨old, hold, hflow⟩ := hstale
    have hi := resourceInv_run hmode hq hrun hes hown
    have hsame : old.flow = (cfg.rule w a).flow := hflow
    -- worker `w` has no rule yet, so the rule that takes its packets is another worker's
    obtain ⟨rule, hmem, hqueue⟩ := queueOf_append_of_mem hold hsame
    have hnone : ownRule cfg s w = none := by simp [ownRule, hpc, WorkerPc.ruled]
    have hne := hi.rules.key_ne WorkerFirewallRule.qnum (fun _ _ => ownRule_qnum) hq hnone
      hmem
    let s₁ := go { s with chain := s.chain ++ [⟨cfg.rule w a, handle⟩] } w
      (.probing .unconnected a nfqws)
    let s₂ := go s₁ w (.probing .connecting a nfqws)
    have h₁ : cfg.system.run (es ++ [.install w (some handle)]) = some s₁ :=
      System.run_snoc.mpr ⟨s, hrun, by simp [system, step, hpc, hhandle, s₁]⟩
    have h₂ : cfg.system.run (es ++ [.install w (some handle)] ++ [.connect w]) = some s₂ :=
      System.run_snoc.mpr ⟨s₁, h₁, by simp [system, step, hc, s₁, s₂]⟩
    refine ⟨s₂, by simpa using h₂, fun h => ?_⟩
    have hr := h w .connecting a nfqws (Function.update_self ..) (by decide)
    have hrules : s₂.rules = s.rules ++ [cfg.rule w a] := by simp [State.rules, s₁, s₂]
    have hrule : queueOf s₂.rules a.flow = some rule.qnum := by
      rw [hrules]
      exact hqueue
    rw [hrule, Option.some.injEq] at hr
    exact hne hr
  | idle | nextTarget | starting | abandoning | probing | finding | removing | stopping | returned =>
    exact absurd (by simp [FreshInstall, hpc]) hstale

/-! ## The rule of another worker -/

/-- **The second condition is needed.** Where a worker finds the rule of another worker's probe, the
removal leaves that probe without one. -/
theorem misrouted_of_otherRemoval {es : List (Event cfg.workerCount)} {s : State cfg.workerCount}
    (hrun : cfg.system.run es = some s) (hfresh : cfg.system.Along (FreshInstall cfg) es)
    {w v : Fin cfg.workerCount} {a b : Attempt} {nfqws nfqws' : NfqwsHandle} {phase : ProbePhase}
    (hpc : s.workers w = .finding a nfqws) (hprobe : s.workers v = .probing phase b nfqws')
    (hphase : phase ≠ .unconnected) {handle : UInt64} (hmem : ⟨cfg.rule v b, handle⟩ ∈ s.chain)
    (hfind : cfg.findRuleHandle s w a = some handle) :
    ∃ s', cfg.system.run (es ++ [.find w true, .remove w (some ⟨cfg.rule v b, handle⟩)]) = some s' ∧
      ¬RoutedToOwn cfg s' := by
  have hne : v ≠ w := by
    rintro rfl
    rw [hpc] at hprobe
    cases hprobe
  have hrun' := System.run_append_cons hrun (step_find hpc hfind)
    [.remove w (some ⟨cfg.rule v b, handle⟩)]
  simp only [System.runFrom, system, step, go_workers, go_chain, Function.update_self, Deletes, hmem,
    and_self, if_true, Option.bind_some] at hrun'
  refine ⟨_, hrun', fun h => ?_⟩
  have hqueue := h v phase b nfqws' (by simp [go_workers, hne, hprobe]) hphase
  -- the rule that is left for the flow of the probe is none
  have hflows := flowsDistinct_run hrun hfresh
  rw [FlowsDistinct, State.rules, List.map_map] at hflows
  have herase := map_erase_of_nodup hflows hmem
  obtain ⟨rule, hrule, -⟩ := Option.map_eq_some_iff.mp hqueue
  have hrest := List.mem_map_of_mem (f := WorkerFirewallRule.flow) (List.mem_of_find?_eq_some hrule)
  have hflow : rule.flow = b.flow := by simpa using List.find?_some hrule
  rw [State.rules, List.map_map, hflow] at hrest
  exact hflows.not_mem_erase (herase ▸ hrest)

/-- Worker 1 is connected when worker 0 lists the chain. The port 4320 begins 43200, and the 200 is in
it. -/
def prefixPortProbe : List (Event twoWorkers.workerCount) :=
  [.receive worker1 [webTarget], .prepare worker1 (some 43200), .start worker1 true,
    .install worker1 (some 4), .connect worker1, .connected worker1,
    .receive worker0 [webTarget], .prepare worker0 (some 4320), .start worker0 true,
    .install worker0 (some 5), .connect worker0, .connected worker0, .probeEnd worker0]

def prefixPortListing : State twoWorkers.workerCount :=
  (twoWorkers.system.run prefixPortProbe).get rfl

theorem misrouted_of_prefixPort :
    ∃ s, twoWorkers.system.run (prefixPortProbe ++ [.find worker0 true,
        .remove worker0 (some ⟨twoWorkers.rule worker1 ⟨webTarget, [], 43200⟩, 4⟩)]) = some s ∧
      ¬RoutedToOwn twoWorkers s :=
  have hrun : twoWorkers.system.run prefixPortProbe = some prefixPortListing :=
    (Option.some_get _).symm
  have hpc : prefixPortListing.workers worker0 = .finding ⟨webTarget, [], 4320⟩ ⟨200, 1⟩ := rfl
  have hprobe : prefixPortListing.workers worker1 =
      .probing .exchanging ⟨webTarget, [], 43200⟩ ⟨201, 0⟩ := rfl
  misrouted_of_otherRemoval hrun (by decide) hpc hprobe (by decide) (by decide)
    ((findRuleHandle_eq ..).trans (by decide +kernel))

end ZapretChecker.Worker
