import Mathlib.Algebra.Order.Ring.Unbundled.Rat
import Mathlib.Data.String.Basic
import ZapretChecker.Lib.Greedy
import ZapretChecker.Lib.SortBy
import ZapretChecker.Types

/-!
# The local ordering

`src/ordering.rs`: the cheapest node first, and then always the node that is cheapest to go to from
the one before.

* `tspLikeLocalOrdering` — the function, over any type of nodes and any linear order of costs
* `tspLikeLocalOrdering_greedy` — the result is the one greedy order of the nodes
-/

namespace ZapretChecker.Graph

open SortBy Greedy

/-- The fields of a node that the ordering reads. `κ` is ordered as `f64::total_cmp` orders. -/
structure NodeFields (ν κ : Type*) where
  id : ν → String
  family : ν → String
  cost : ν → κ
  risk : ν → κ

def strategyFields : NodeFields StrategyNode Rat where
  id := StrategyNode.id
  family := StrategyNode.family
  cost := StrategyNode.cost
  risk := StrategyNode.risk

variable {ν κ : Type*} [LinearOrder κ]

namespace NodeFields

variable (fields : NodeFields ν κ) (transition : String × String → Option κ)

/-- What the nodes are sorted by. -/
def compareStart : ν → ν → Ordering :=
  compareLex (compareOn fields.cost) <| compareLex (compareOn fields.risk) (compareOn fields.id)

/-- The cost of going from `last` to `node`. -/
def transitionCost (last node : ν) : κ :=
  (transition (fields.family last, fields.family node)).getD (fields.cost node)

def compareNext (last : ν) : ν → ν → Ordering :=
  compareLex (compareOn (fields.transitionCost transition last)) <|
    compareLex (compareOn fields.cost) (compareOn fields.id)

/-- The `while` loop. `none` is a panic of an `unwrap` or of `remove`. -/
def orderingLoop (out remaining : List ν) : Option (List ν) :=
  if remaining = [] then some out
  else
    out.getLast?.bind fun last =>
      (minIndex (fields.compareNext transition last) remaining).bind fun idx =>
        match _h : remaining[idx]? with
        | none => none
        | some node => orderingLoop (out ++ [node]) (remaining.eraseIdx idx)
termination_by remaining.length
decreasing_by
  obtain ⟨hlt, -⟩ := List.getElem?_eq_some_iff.mp _h
  rw [List.length_eraseIdx_of_lt hlt]
  omega

def tspLikeLocalOrdering (nodes : List ν) : Option (List ν) :=
  match sortBy fields.compareStart nodes with
  | [] => some []
  | first :: remaining => fields.orderingLoop transition [first] remaining

/-! ## Keys -/

/-- Cost, risk and id. -/
def startKey (node : ν) : κ ×ₗ κ ×ₗ String :=
  toLex (fields.cost node, toLex (fields.risk node, fields.id node))

/-- Cost of the transition, own cost and id. -/
def nextKey (last node : ν) : κ ×ₗ κ ×ₗ String :=
  toLex (fields.transitionCost transition last node, toLex (fields.cost node, fields.id node))

theorem comparesBy_compareStart : ComparesBy fields.compareStart fields.startKey :=
  ((comparesBy_compareOn fields.id).lex fields.risk).lex fields.cost

theorem comparesBy_compareNext (last : ν) :
    ComparesBy (fields.compareNext transition last) (fields.nextKey transition last) :=
  ((comparesBy_compareOn fields.id).lex fields.cost).lex (fields.transitionCost transition last)

instance : Std.TransCmp fields.compareStart := by
  unfold compareStart
  infer_instance

omit [LinearOrder κ] in
/-- Keys that hold the id differ where the ids differ. -/
theorem keysDiffer_of_id {K : Type*} {fields : NodeFields ν κ} {key : ν → K}
    (hkey : ∀ a b, key a = key b → fields.id a = fields.id b) {nodes : List ν}
    (hids : (nodes.map fields.id).Nodup) : KeysDiffer key nodes := by
  intro a ha b hb h
  exact List.inj_on_of_nodup_map hids ha hb (hkey a b h)

omit [LinearOrder κ] in
theorem id_eq_of_startKey {fields : NodeFields ν κ} (a b : ν)
    (h : fields.startKey a = fields.startKey b) : fields.id a = fields.id b :=
  congrArg (fun k => (ofLex (ofLex k).2).2) h

omit [LinearOrder κ] in
theorem id_eq_of_nextKey {fields : NodeFields ν κ} {transition : String × String → Option κ}
    {last : ν} (a b : ν)
    (h : fields.nextKey transition last a = fields.nextKey transition last b) :
    fields.id a = fields.id b :=
  congrArg (fun k => (ofLex (ofLex k).2).2) h

/-! ## The loop -/

/-- One round: the least of the remaining nodes moves to the end of `out`. -/
theorem orderingLoop_round (front : List ν) (last : ν) {remaining : List ν} (h : remaining ≠ []) :
    ∃ i node, remaining[i]? = some node ∧
      (∀ b ∈ remaining, fields.nextKey transition last node ≤ fields.nextKey transition last b) ∧
      fields.orderingLoop transition (front ++ [last]) remaining =
        fields.orderingLoop transition (front ++ [last] ++ [node]) (remaining.eraseIdx i) := by
  obtain ⟨i, node, hindex, hnode, hle⟩ :=
    minIndex_spec (fields.comparesBy_compareNext transition last) h
  refine ⟨i, node, hnode, hle, ?_⟩
  rw [orderingLoop, if_neg h, List.getLast?_append, List.getLast?_singleton]
  show (minIndex _ remaining).bind _ = _
  rw [hindex]
  show (match _h : remaining[i]? with
    | none => none
    | some node => fields.orderingLoop transition (front ++ [last] ++ [node])
      (remaining.eraseIdx i)) = _
  split
  · next hnone => rw [hnone] at hnode; cases hnode
  · next node' hsome =>
    obtain rfl : node' = node := Option.some.inj (hsome.symm.trans hnode)
    rfl

/-- All rounds: what remains follows in greedy order. -/
theorem orderingLoop_spec (front : List ν) (last : ν) (remaining : List ν) :
    ∃ rest, fields.orderingLoop transition (front ++ [last]) remaining =
        some (front ++ [last] ++ rest) ∧
      rest.Perm remaining ∧ Follows (fields.nextKey transition) last rest := by
  induction hn : remaining.length generalizing front last remaining with
  | zero =>
    obtain rfl := List.length_eq_zero_iff.mp hn
    refine ⟨[], ?_, List.Perm.refl _, trivial⟩
    rw [orderingLoop, if_pos rfl, List.append_nil]
  | succ n ih =>
    have hne : remaining ≠ [] := List.ne_nil_of_length_eq_add_one hn
    obtain ⟨i, node, hnode, hle, hround⟩ := fields.orderingLoop_round transition front last hne
    obtain ⟨hlt, hget⟩ := List.getElem?_eq_some_iff.mp hnode
    have hperm : (node :: remaining.eraseIdx i).Perm remaining := by
      rw [← hget]
      exact List.getElem_cons_eraseIdx_perm hlt
    have hlength : (remaining.eraseIdx i).length = n := by
      rw [List.length_eraseIdx_of_lt hlt, hn, Nat.add_sub_cancel]
    obtain ⟨rest, hloop, hrest, hfollows⟩ := ih (front ++ [last]) node (remaining.eraseIdx i) hlength
    refine ⟨node :: rest, ?_, (hrest.cons node).trans hperm, ?_, hfollows⟩
    · rw [hround, hloop, List.append_assoc _ [node]]
      rfl
    · intro b hb
      exact hle b (hperm.mem_iff.mp (List.mem_cons_of_mem node (hrest.mem_iff.mp hb)))

/-! ## The result -/

/-- The nodes are sorted by the first key. -/
theorem pairwise_sortBy_compareStart (nodes : List ν) :
    (sortBy fields.compareStart nodes).Pairwise fun a b => fields.startKey a ≤ fields.startKey b := by
  refine (pairwise_sortBy fields.compareStart nodes).imp ?_
  intro a b hab
  refine not_lt.mp fun hlt => ?_
  have hgt := (fields.comparesBy_compareStart a b).mpr hlt
  rw [NotAfter, hgt] at hab
  cases hab

/-- The result is a permutation in greedy order. -/
theorem tspLikeLocalOrdering_spec (nodes : List ν) :
    ∃ out, fields.tspLikeLocalOrdering transition nodes = some out ∧ out.Perm nodes ∧
      GreedyOrder fields.startKey (fields.nextKey transition) out := by
  have hsorted := fields.pairwise_sortBy_compareStart nodes
  have hperm := sortBy_perm fields.compareStart nodes
  unfold tspLikeLocalOrdering
  cases hsort : sortBy fields.compareStart nodes with
  | nil =>
    rw [hsort] at hperm
    exact ⟨[], rfl, hperm, greedyOrder_nil⟩
  | cons first remaining =>
    rw [hsort] at hperm hsorted
    obtain ⟨rest, hloop, hrest, hfollows⟩ :=
      fields.orderingLoop_spec transition [] first remaining
    refine ⟨first :: rest, hloop, (hrest.cons first).trans hperm,
      greedyOrder_cons_iff.mpr ⟨?_, hfollows⟩⟩
    intro b hb
    exact List.rel_of_pairwise_cons hsorted (hrest.mem_iff.mp hb)

end NodeFields

/-- **The ordering is the one greedy permutation of the nodes.** -/
theorem tspLikeLocalOrdering_greedy (fields : NodeFields ν κ)
    (transition : String × String → Option κ) {nodes : List ν}
    (hids : (nodes.map fields.id).Nodup) :
    ∃ out, fields.tspLikeLocalOrdering transition nodes = some out ∧ out.Perm nodes ∧
      GreedyOrder fields.startKey (fields.nextKey transition) out ∧
      ∀ nodes', nodes'.Perm nodes → fields.tspLikeLocalOrdering transition nodes' = some out := by
  obtain ⟨out, hout, hperm, hgreedy⟩ := fields.tspLikeLocalOrdering_spec transition nodes
  refine ⟨out, hout, hperm, hgreedy, ?_⟩
  intro nodes' hnodes
  obtain ⟨out', hout', hperm', hgreedy'⟩ := fields.tspLikeLocalOrdering_spec transition nodes'
  have hids' : (out.map fields.id).Nodup := (hperm.map fields.id).nodup_iff.mpr hids
  have hsame : out.Perm out' := hperm.trans (hnodes.symm.trans hperm'.symm)
  rw [hout', hgreedy.unique (NodeFields.keysDiffer_of_id NodeFields.id_eq_of_startKey hids')
    (fun _ => NodeFields.keysDiffer_of_id NodeFields.id_eq_of_nextKey hids') hsame hgreedy']

def localNode (id family : String) (cost : Rat) : StrategyNode where
  id := id
  family := family
  actionId := id
  args := []
  components := []
  isCombined := false
  cost := cost
  risk := 0
  prior := (1, 1)

/-- From `fake` the way to `disorder` is short. -/
def localTransition (pair : String × String) : Option Rat :=
  if pair = ("fake", "disorder") then some (1 / 2) else none

theorem tspLikeLocalOrdering_three :
    ∃ out, strategyFields.tspLikeLocalOrdering localTransition
          [localNode "a" "split" 2, localNode "b" "disorder" 3, localNode "c" "fake" 1] =
        some out ∧
      out.Perm [localNode "a" "split" 2, localNode "b" "disorder" 3, localNode "c" "fake" 1] ∧
      GreedyOrder strategyFields.startKey (strategyFields.nextKey localTransition) out ∧
      ∀ nodes', nodes'.Perm
          [localNode "a" "split" 2, localNode "b" "disorder" 3, localNode "c" "fake" 1] →
        strategyFields.tspLikeLocalOrdering localTransition nodes' = some out :=
  tspLikeLocalOrdering_greedy strategyFields localTransition (by decide)

example : strategyFields.tspLikeLocalOrdering localTransition
    [localNode "a" "split" 2, localNode "b" "disorder" 3, localNode "c" "fake" 1] =
    some [localNode "c" "fake" 1, localNode "b" "disorder" 3, localNode "a" "split" 2] := by
  decide +kernel

end ZapretChecker.Graph
