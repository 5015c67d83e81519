import Mathlib.Data.List.Nodup
import ZapretChecker.Types

/-!
# Firewall rules

`WorkerFirewallRule` of `src/firewall.rs` and what the kernel does with a chain of such rules: rules
are appended, and the first rule that matches a packet queues it.
-/

namespace ZapretChecker.Firewall

inductive L4Protocol
  | tcp
  | udp
  deriving DecidableEq, Repr, Inhabited

inductive FirewallHook
  | output
  | postrouting
  deriving DecidableEq, Repr, Inhabited

/-- The backends that install a rule for each attempt. -/
inductive FirewallBackend
  | nftables
  | iptables
  deriving DecidableEq, Repr, Inhabited

structure WorkerFirewallRule where
  workerId : Nat
  qnum : UInt16
  sourcePort : UInt16
  targetIp : IpAddr
  targetPort : UInt16
  protocol : L4Protocol
  hook : FirewallHook
  deriving DecidableEq, Repr, Inhabited

/-- The fields of a packet the rules look at. -/
structure Flow where
  targetIp : IpAddr
  sourcePort : UInt16
  targetPort : UInt16
  protocol : L4Protocol
  deriving DecidableEq, Repr, Inhabited

/-- The packets a rule matches: `daddr`, `sport`, `dport` and the protocol of `render_add_rule`. -/
def WorkerFirewallRule.flow (rule : WorkerFirewallRule) : Flow where
  targetIp := rule.targetIp
  sourcePort := rule.sourcePort
  targetPort := rule.targetPort
  protocol := rule.protocol

/-- The queue the chain sends a packet of `flow` to. -/
def queueOf (chain : List WorkerFirewallRule) (flow : Flow) : Option UInt16 :=
  (chain.find? fun rule => rule.flow = flow).map WorkerFirewallRule.qnum

/-- A search finds an element when there is one. -/
theorem exists_find?_of_mem {α : Type} {p : α → Bool} {l : List α} {a : α} (ha : a ∈ l)
    (hp : p a = true) : ∃ b ∈ l, l.find? p = some b ∧ p b = true := by
  obtain ⟨b, hb⟩ := Option.isSome_iff_exists.mp (List.find?_isSome.mpr ⟨a, ha, hp⟩)
  exact ⟨b, List.mem_of_find?_eq_some hb, hb, List.find?_some hb⟩

/-- A rule takes the packets of its flow, when no other rule of the chain is for the same flow. -/
theorem queueOf_of_mem {chain : List WorkerFirewallRule} {rule : WorkerFirewallRule}
    (hnodup : (chain.map WorkerFirewallRule.flow).Nodup) (hmem : rule ∈ chain) :
    queueOf chain rule.flow = some rule.qnum := by
  obtain ⟨r, hr, hfind, hflow⟩ := exists_find?_of_mem (p := fun r => r.flow = rule.flow) hmem
    (by simp)
  have he := List.inj_on_of_nodup_map hnodup hr hmem (of_decide_eq_true hflow)
  rw [queueOf, hfind, he]
  rfl

end ZapretChecker.Firewall
