import ZapretChecker.Config.App

/-!
# Queue numbers of a run

`AppConfig::validate` checks the range of the queue numbers for `workers.count`, cast to `u32`; the
check command hands `generate_assignments` the count of `--workers` when there is one. The numbers
are exact when the count that is used fits, and the check promises that only for the other one.
-/

namespace ZapretChecker.Isolation

open Config Worker

/-- Every queue number is the base plus the worker id, and no two workers share one. -/
def QnumsExact (build : Build) (workersCount : Nat) (isolation : IsolationConfig) : Prop :=
  ∃ assignments, generateAssignments build workersCount isolation = some assignments ∧
    assignments.map (fun a => (a.workerId, a.qnum.toNat)) =
      (List.range workersCount).map (fun id => (id, isolation.queueBase.toNat + id)) ∧
    (assignments.map WorkerAssignment.qnum).Nodup

theorem effectiveWorkers_pos (workers : Option Nat) (count : Nat) :
    0 < effectiveWorkers workers count := Nat.lt_of_lt_of_le Nat.one_pos (le_max_right _ _)

/-- The largest number has to be a `u16`. -/
theorem QnumsExact.fits {build : Build} {workersCount : Nat} {isolation : IsolationConfig}
    (h : QnumsExact build workersCount isolation) (hpos : 0 < workersCount) :
    isolation.queueBase.toNat + (workersCount - 1) ≤ 65535 := by
  obtain ⟨assignments, -, hmap, -⟩ := h
  have hlast : (workersCount - 1, isolation.queueBase.toNat + (workersCount - 1)) ∈
      assignments.map fun a => (a.workerId, a.qnum.toNat) := by
    rw [hmap]
    exact List.mem_map.mpr ⟨workersCount - 1, List.mem_range.mpr (by omega), rfl⟩
  obtain ⟨a, -, ha⟩ := List.mem_map.mp hlast
  have hqnum : a.qnum.toNat = isolation.queueBase.toNat + (workersCount - 1) :=
    congrArg Prod.snd ha
  have := a.qnum.toNat_lt
  omega

/-- Numbers counted up from the base are different. -/
theorem nodup_qnum {assignments : List WorkerAssignment} {base workersCount : Nat}
    (h : assignments.map (fun a => (a.workerId, a.qnum.toNat)) =
      (List.range workersCount).map (fun id => (id, base + id))) :
    (assignments.map WorkerAssignment.qnum).Nodup := by
  have hsnd := congrArg (List.map Prod.snd) h
  rw [List.map_map, List.map_map] at hsnd
  have hnodup : (assignments.map fun a => a.qnum.toNat).Nodup := by
    rw [show (assignments.map fun a => a.qnum.toNat) = (List.range workersCount).map (base + ·)
      from hsnd]
    exact List.nodup_range.map fun i j hij => Nat.add_left_cancel hij
  refine List.Nodup.of_map UInt16.toNat ?_
  rw [List.map_map]
  exact hnodup

theorem qnumsExact_of_fits {build : Build} {workersCount : Nat} {isolation : IsolationConfig}
    {mode : IsolationMode} {markBase : UInt32}
    (hmode : IsolationMode.parse isolation.mode = .ok mode)
    (hbase : parseHexMark isolation.markBase = .ok markBase)
    (hfit : isolation.queueBase.toNat + (workersCount - 1) ≤ 65535) :
    QnumsExact build workersCount isolation := by
  have hmod : ∀ id < workersCount, id % 2 ^ 16 = id := fun id hid =>
    Nat.mod_eq_of_lt (by omega)
  have hcount : workersCount < 2 ^ 32 := by omega
  obtain ⟨assignments, hgen⟩ := exists_generateAssignments build hmode hbase hcount
    fun id hid => by
      rw [hmod id hid, build.add_of_lt (by omega)]
      rfl
  obtain ⟨hlen, hget⟩ := (generateAssignments_eq_some_iff hmode hbase).mp hgen
  have hmap : assignments.map (fun a => (a.workerId, a.qnum.toNat)) =
      (List.range workersCount).map (fun id => (id, isolation.queueBase.toNat + id)) := by
    refine List.ext_getElem (by simpa using hlen) fun id hid _ => ?_
    rw [List.length_map] at hid
    obtain ⟨hworker, hqnum, -⟩ := workerAssignment_spec (hget id hid)
    rw [hmod id (by omega), Nat.mod_eq_of_lt (by omega)] at hqnum
    simp only [List.getElem_map, List.getElem_range, hworker, hqnum]
  exact ⟨assignments, hgen, hmap, nodup_qnum hmap⟩

/-- Whatever the override: the numbers of a run are exact when the last of them is a `u16`. -/
theorem qnumsExact_iff {build : Build} {socketAddrPort : String → Option UInt16}
    {cfg : AppConfig} (workers : Option Nat) (h : (cfg.validate build socketAddrPort).Returns ()) :
    QnumsExact build (effectiveWorkers workers cfg.workers.count) cfg.isolation ↔
      cfg.isolation.queueBase.toNat + (effectiveWorkers workers cfg.workers.count - 1) ≤ 65535 := by
  obtain ⟨mode, markBase, desyncMark, hiso⟩ := (Accepted.of_validate h).isolation
  constructor
  · intro hexact
    exact hexact.fits (effectiveWorkers_pos workers cfg.workers.count)
  · exact qnumsExact_of_fits hiso.mode_eq hiso.markBase_eq

/-- One worker on the last queue number. -/
def lastQueueConfig : AppConfig where
  workers := { count := 1 }
  sourcePort := { mode := "os_assigned" }
  probe := { backend := "native" }
  firewall :=
    { backend := "nftables", table := "zapret_checker", hook := "output", priority := "mangle"
      cleanupOnStart := true, cleanupOnExit := true }
  debug := { keepRulesOnFailure := false }
  isolation := { queueBase := 65535 }

/-- The last three queue numbers, for three workers. -/
def lastQueuesConfig : AppConfig := { lastQueueConfig with isolation := { queueBase := 65533 } }

theorem qnumsExact_lastQueues :
    QnumsExact .debug (effectiveWorkers (some 3) lastQueuesConfig.workers.count)
      lastQueuesConfig.isolation :=
  (@qnumsExact_iff .debug (fun _ => some 443) lastQueuesConfig (some 3) (by decide +kernel)).mpr
    (by decide +kernel)

/-- With `--workers 2` the second worker wraps around to queue 0, or the debug build panics. -/
theorem not_qnumsExact_lastQueue :
    (∀ build, (lastQueueConfig.validate build fun _ => some 443).Returns ()) ∧
      ∀ build, ¬ QnumsExact build (effectiveWorkers (some 2) lastQueueConfig.workers.count)
        lastQueueConfig.isolation := by
  refine ⟨fun build => by cases build <;> decide +kernel, fun build hexact => ?_⟩
  have hfits := hexact.fits (by decide)
  exact absurd hfits (by decide +kernel)

/-! ## What the check promises -/

/-- Without an override the check is enough, as long as the cast to `u32` and the sum keep their
value. -/
theorem fits_of_validate {build : Build} {cfg : AppConfig} (h : Accepted build cfg)
    (hcount : cfg.isolation.queueBase.toNat + cfg.workers.count ≤ 2 ^ 32) :
    cfg.isolation.queueBase.toNat + (cfg.workers.count - 1) ≤ 65535 := by
  obtain ⟨maxQnum, hadd, hmax⟩ := h.queueRange
  have hpos := h.count_pos
  have hid : cfg.workers.maxWorkerId = cfg.workers.count - 1 := Nat.mod_eq_of_lt (by omega)
  rw [hid, build.add_of_lt (by omega)] at hadd
  obtain rfl := Option.some.inj hadd
  exact hmax

end ZapretChecker.Isolation
