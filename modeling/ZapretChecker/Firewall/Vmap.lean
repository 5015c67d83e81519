import Mathlib.Data.List.Basic
import ZapretChecker.Config.App
import ZapretChecker.Firewall.Rule

/-!
# The marks in the firewall

`build_firewall` of `src/main.rs` and `NftablesVmapFirewallManager` of `src/firewall.rs`: the script
that sends the packets of a mark to a queue, and what its chains do with a packet.

A chain runs its statements in order. A map that holds the mark ends it with the queue of that mark,
a mark that is not in the map goes on to the next statement, and a packet that reaches the end is
accepted by the policy.
-/

namespace ZapretChecker.Firewall

open Config Isolation

structure NftablesVmapFirewallManager where
  table : String
  hook : FirewallHook
  priority : String
  cleanupOnStart : Bool
  desyncMark : UInt32
  assignments : List WorkerAssignment
  deriving DecidableEq, Repr, Inhabited

structure NftablesFirewallManager where
  table : String
  hook : FirewallHook
  priority : String
  cleanupOnStart : Bool
  deriving DecidableEq, Repr, Inhabited

inductive FirewallManager
  | nftablesVmap (manager : NftablesVmapFirewallManager)
  | iptables
  | nftables (manager : NftablesFirewallManager)
  deriving DecidableEq, Repr, Inhabited

def parseHook (s : String) : FirewallHook :=
  if s = "postrouting" then .postrouting else .output

/-- `none` is the panic of the `expect`. -/
def buildFirewall (cfg : AppConfig) (assignments : List WorkerAssignment) :
    Option FirewallManager :=
  if IsolationMode.parse cfg.isolation.mode = .ok .fwmark ∧ cfg.isolation.useNftVmap then do
    let desyncMark ← (parseHexMark cfg.isolation.desyncMark).toOption
    some (.nftablesVmap
      { table := cfg.firewall.table
        hook := parseHook cfg.firewall.hook
        priority := cfg.firewall.priority
        cleanupOnStart := cfg.firewall.cleanupOnStart
        desyncMark := desyncMark
        assignments := assignments })
  else if cfg.firewall.backend = "iptables" then some .iptables
  else
    some (.nftables
      { table := cfg.firewall.table
        hook := parseHook cfg.firewall.hook
        priority := cfg.firewall.priority
        cleanupOnStart := cfg.firewall.cleanupOnStart })

/-! ## The script -/

/-- The statements of the two chains. -/
inductive ChainStatement
  /-- `meta mark M notrack counter accept comment "desync bypass"` -/
  | acceptMetaMark (mark : UInt32)
  /-- `meta mark vmap @meta_mark_queue` -/
  | metaMarkVmap
  /-- `ct mark set meta mark` -/
  | setCtMark
  /-- `ct mark vmap @ct_mark_queue` -/
  | ctMarkVmap
  deriving DecidableEq, Repr, Inhabited

/-- An element `M : queue num Q bypass` of a map is the pair of `M` and `Q`. -/
structure SetupScript where
  table : String
  hook : FirewallHook
  priority : String
  metaMarkQueue : List (UInt32 × UInt16)
  ctMarkQueue : List (UInt32 × UInt16)
  chain : List ChainStatement
  input : List ChainStatement
  deriving DecidableEq, Repr, Inhabited

/-- The elements of the maps: one for each assignment with a mark. -/
def markElements (assignments : List WorkerAssignment) : List (UInt32 × UInt16) :=
  assignments.filterMap fun assignment => assignment.fwmark.map fun mark => (mark, assignment.qnum)

def NftablesVmapFirewallManager.renderSetupScript (self : NftablesVmapFirewallManager) :
    SetupScript where
  table := self.table
  hook := self.hook
  priority := self.priority
  metaMarkQueue := markElements self.assignments
  ctMarkQueue := markElements self.assignments
  chain := [.acceptMetaMark self.desyncMark, .metaMarkVmap, .setCtMark, .ctMarkVmap]
  input := [.ctMarkVmap]

/-! ## Packets -/

structure PacketMarks where
  metaMark : UInt32
  ctMark : UInt32
  deriving DecidableEq, Repr, Inhabited

inductive Verdict
  | accept
  | queue (qnum : UInt16)
  deriving DecidableEq, Repr, Inhabited

/-- The verdict of a list of statements. -/
def SetupScript.run (script : SetupScript) : List ChainStatement → PacketMarks → Verdict
  | [], _ => .accept
  | .acceptMetaMark mark :: rest, marks =>
    if marks.metaMark = mark then .accept else script.run rest marks
  | .metaMarkVmap :: rest, marks =>
    match script.metaMarkQueue.lookup marks.metaMark with
    | some qnum => .queue qnum
    | none => script.run rest marks
  | .setCtMark :: rest, marks => script.run rest { marks with ctMark := marks.metaMark }
  | .ctMarkVmap :: rest, marks =>
    match script.ctMarkQueue.lookup marks.ctMark with
    | some qnum => .queue qnum
    | none => script.run rest marks

theorem lookup_of_mem {α β : Type} [DecidableEq α] {l : List (α × β)} {a : α} {b : β}
    (hnodup : (l.map Prod.fst).Nodup) (h : (a, b) ∈ l) : l.lookup a = some b := by
  rw [List.lookup_eq_some_iff]
  obtain ⟨l₁, l₂, rfl⟩ := List.append_of_mem h
  refine ⟨l₁, l₂, rfl, fun p hp => ?_⟩
  rw [List.map_append, List.map_cons, List.nodup_middle, List.nodup_cons] at hnodup
  rw [bne_iff_ne]
  rintro rfl
  exact hnodup.1 (List.mem_append_left _ (List.mem_map.mpr ⟨p, hp, rfl⟩))

/-- Marks without repetition are keys without repetition. -/
theorem nodup_markElements {assignments : List WorkerAssignment}
    (h : (assignments.map WorkerAssignment.fwmark).Nodup) :
    ((markElements assignments).map Prod.fst).Nodup := by
  have hkeys : (markElements assignments).map Prod.fst =
      (assignments.map WorkerAssignment.fwmark).filterMap id := by
    rw [markElements, List.map_filterMap, List.filterMap_map]
    refine List.filterMap_congr fun a _ => ?_
    rw [Option.map_map]
    exact Option.map_id_apply
  rw [hkeys]
  exact h.filterMap fun a a' b hb hb' => hb.trans hb'.symm

/-- A packet with the mark of a worker goes to the queue of that worker, unless the bypass takes
it first. -/
theorem run_chain_of_mem {manager : NftablesVmapFirewallManager} {a : WorkerAssignment}
    {mark ctMark : UInt32} (hnodup : (manager.assignments.map WorkerAssignment.fwmark).Nodup)
    (hmem : a ∈ manager.assignments) (hmark : a.fwmark = some mark)
    (hne : mark ≠ manager.desyncMark) :
    manager.renderSetupScript.run manager.renderSetupScript.chain ⟨mark, ctMark⟩ =
      .queue a.qnum := by
  have helement : (mark, a.qnum) ∈ markElements manager.assignments :=
    List.mem_filterMap.mpr ⟨a, hmem, by rw [hmark]; rfl⟩
  have hlookup : manager.renderSetupScript.metaMarkQueue.lookup mark = some a.qnum :=
    lookup_of_mem (nodup_markElements hnodup) helement
  show (if mark = manager.desyncMark then Verdict.accept else _) = _
  rw [if_neg hne, SetupScript.run, hlookup]

/-- With the settings of the fwmark mode the firewall is the one with the maps. -/
theorem buildFirewall_fwmark {cfg : AppConfig} (assignments : List WorkerAssignment)
    {desyncMark : UInt32} (hmode : IsolationMode.parse cfg.isolation.mode = .ok .fwmark)
    (hvmap : cfg.isolation.useNftVmap = true)
    (hdesync : parseHexMark cfg.isolation.desyncMark = .ok desyncMark) :
    ∃ manager, buildFirewall cfg assignments = some (.nftablesVmap manager) ∧
      manager.desyncMark = desyncMark ∧ manager.assignments = assignments := by
  rw [buildFirewall, if_pos ⟨hmode, hvmap⟩, hdesync]
  exact ⟨_, rfl, rfl, rfl⟩

end ZapretChecker.Firewall
