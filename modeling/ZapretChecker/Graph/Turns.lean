import ZapretChecker.Graph.Caps
import ZapretChecker.Lib.Turns

/-!
# The families take turns

`round_robin_by_family` drains one queue per family, pass after pass, and returns in the middle of a
pass when it has enough.

* `filter_roundRobinByFamily` — a family comes in the order of quality, with no node skipped
* `roundRobin_fair` — the length, the order and the fairness of every prefix
-/

namespace ZapretChecker.Graph

open SortBy Collect RoundRobin

/-- The order of the families: rank, then name. -/
def compareFamilies : String → String → Ordering :=
  compareLex (compareOn familyDiversityRank) compare

instance : Std.TransCmp compareFamilies := by
  unfold compareFamilies
  infer_instance

theorem pairwise_familyOrder (nodes : List StrategyNode) :
    (familyOrder nodes).Pairwise fun f g => compareFamilies f g = .lt := by
  have heq : ∀ f g, compareFamilies f g = .eq → id f = id g := by
    intro f g h
    unfold compareFamilies at h
    rw [compareLex_eq_eq] at h
    exact Std.LawfulEqCmp.eq_of_compare h.2
  exact pairwise_lt_sortBy heq (nodup_map_firstOf id [] _)

theorem mem_familyGroup {nodes : List StrategyNode} {f : String} {n : StrategyNode} :
    n ∈ familyGroup nodes f ↔ n ∈ nodes ∧ n.family = f := by
  rw [familyGroup, mem_sortBy, List.mem_filter, beq_iff_eq]

theorem keyed_familyGroup (nodes : List StrategyNode) :
    Keyed (familyOrder nodes) (familyGroup nodes) (·.family) :=
  fun _ _ _ hn => (mem_familyGroup.mp hn).2

theorem length_familyGroup (nodes : List StrategyNode) (f : String) :
    (familyGroup nodes f).length = familyCount nodes f := by
  rw [familyGroup, (sortBy_perm _ _).length_eq, familyCount, List.countP_eq_length_filter]
  rfl

/-- A family that has no turn has no nodes. -/
theorem familyCount_eq_zero {nodes : List StrategyNode} {f : String} (h : f ∉ familyOrder nodes) :
    familyCount nodes f = 0 := by
  rw [familyCount, List.countP_eq_zero]
  intro n hn
  rw [decide_eq_true_eq]
  rintro rfl
  exact h (family_mem_familyOrder hn)

theorem filter_turns (nodes : List StrategyNode) (f : String) :
    (turns nodes).filter (fun n => n.family = f) = familyGroup nodes f := by
  by_cases hf : f ∈ familyOrder nodes
  · rw [turns, filter_rounds (keyed_familyGroup nodes) (nodup_familyOrder nodes) hf,
      List.take_of_length_le (length_familyGroup_le nodes f)]
  · have hzero := familyCount_eq_zero hf
    have hnil : familyGroup nodes f = [] := by
      rw [← List.length_eq_zero_iff, length_familyGroup, hzero]
    rw [hnil, ← List.length_eq_zero_iff, ← List.countP_eq_length_filter]
    exact ((turns_perm nodes).countP_eq _).trans hzero

theorem roundRobinByFamily_isPrefix (nodes : List StrategyNode) (maxCandidates : Nat) :
    roundRobinByFamily nodes maxCandidates <+: turns nodes := by
  rw [roundRobinByFamily_eq_take]
  exact List.take_prefix _ _

/-- Of every family the first nodes are returned, in the order of quality. -/
theorem filter_roundRobinByFamily (nodes : List StrategyNode) (maxCandidates : Nat) (f : String) :
    (roundRobinByFamily nodes maxCandidates).filter (fun n => n.family = f) <+:
      familyGroup nodes f := by
  rw [← filter_turns]
  exact (roundRobinByFamily_isPrefix nodes maxCandidates).filter _

theorem fair_prefix {nodes p : List StrategyNode} (h : p <+: turns nodes) {f g : String}
    (hlt : familyCount p f < familyCount nodes f) :
    familyCount p g ≤ familyCount p f + 1 ∧
      (familyCount p g = familyCount p f + 1 → compareFamilies g f = .lt) := by
  have hfair := fair_of_prefix (keyed_familyGroup nodes) (nodup_familyOrder nodes) h
  have hf : f ∈ familyOrder nodes := by
    by_contra hf
    rw [familyCount_eq_zero hf] at hlt
    exact absurd hlt (Nat.not_lt_zero _)
  rw [← length_familyGroup nodes] at hlt
  by_cases hg : g ∈ familyOrder nodes
  · obtain ⟨hle, hfirst⟩ := hfair g hg f hf hlt
    refine ⟨hle, fun heq => ?_⟩
    have hpair := (pairwise_familyOrder nodes).sublist (hfirst heq)
    exact List.rel_of_pairwise_cons hpair List.mem_cons_self
  · have hzero : familyCount p g = 0 := by
      have hsub : familyCount p g ≤ familyCount (turns nodes) g := h.sublist.countP_le
      have hperm : familyCount (turns nodes) g = familyCount nodes g :=
        (turns_perm nodes).countP_eq _
      have hnone := familyCount_eq_zero hg
      omega
    exact ⟨by omega, fun heq => by omega⟩

/--
**The turns are fair.** As many nodes are returned as wanted or given, none twice, and of every
family the best ones in order. In every prefix a family that is not exhausted lags behind another
one by one node at most, and only behind a family that comes before it.
-/
theorem roundRobin_fair (nodes : List StrategyNode) (maxCandidates : Nat) :
    let out := roundRobinByFamily nodes maxCandidates
    out.length = min maxCandidates nodes.length ∧ out.Subperm nodes ∧
      (∀ f, out.filter (fun n => n.family = f) <+:
        sortBy compareNodeQuality (nodes.filter fun n => n.family == f)) ∧
      ∀ p, p <+: out → ∀ f g, familyCount p f < familyCount nodes f →
        familyCount p g ≤ familyCount p f + 1 ∧
          (familyCount p g = familyCount p f + 1 → compareFamilies g f = .lt) := by
  intro out
  have hout : out = (turns nodes).take maxCandidates :=
    roundRobinByFamily_eq_take nodes maxCandidates
  have hprefix : out <+: turns nodes := roundRobinByFamily_isPrefix nodes maxCandidates
  refine ⟨?_, ?_, ?_, ?_⟩
  · rw [hout, List.length_take, (turns_perm nodes).length_eq]
  · exact hprefix.sublist.subperm.trans (turns_perm nodes).subperm
  · exact filter_roundRobinByFamily nodes maxCandidates
  · exact fun p hp f g hlt => fair_prefix (hp.trans hprefix) hlt

end ZapretChecker.Graph
