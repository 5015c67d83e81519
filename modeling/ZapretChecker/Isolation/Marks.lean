import ZapretChecker.Firewall.Vmap
import ZapretChecker.Isolation.Queues

/-!
# Marks of a run

Worker `id` gets the mark `markBase + id + 1`, saturated at the largest `u32`. So the marks are
different as long as at most one of them reaches that end, and they miss the bypass mark when it lies
outside their range; `validate_isolation` compares it with the last mark only.
-/

namespace ZapretChecker.Isolation

open Config Firewall Worker

/-- Every worker has a mark of its own, none has the bypass mark, and the packets of a worker go to
its queue. -/
structure MarksExact (build : Build) (cfg : AppConfig) (assignments : List WorkerAssignment)
    (manager : NftablesVmapFirewallManager) : Prop where
  generated : generateAssignments build cfg.workers.count cfg.isolation = some assignments
  firewall : buildFirewall cfg assignments = some (.nftablesVmap manager)
  desync : parseHexMark cfg.isolation.desyncMark = .ok manager.desyncMark
  length_eq : assignments.length = cfg.workers.count
  marked : ∀ a ∈ assignments, a.fwmark.isSome
  nodup : (assignments.map WorkerAssignment.fwmark).Nodup
  ne_desync : ∀ a ∈ assignments, a.fwmark ≠ some manager.desyncMark
  routed : ∀ a ∈ assignments, ∀ mark ctMark, a.fwmark = some mark →
    manager.renderSetupScript.run manager.renderSetupScript.chain ⟨mark, ctMark⟩ = .queue a.qnum

/-- The marks end before the largest `u32`, or there is one only, and the bypass mark is not among
them. -/
def MarkRangeFree (count markBase desyncMark : Nat) : Prop :=
  (markBase + count < 2 ^ 32 ∨ count = 1) ∧ ¬ (markBase < desyncMark ∧ desyncMark ≤ markBase + count)

instance (count markBase desyncMark : Nat) : Decidable (MarkRangeFree count markBase desyncMark) :=
  inferInstanceAs (Decidable (_ ∧ _))

/-! ## The marks as numbers -/

theorem toNat_workerFwmark {build : Build} {markBase mark : UInt32} {id : Nat}
    (hid : id + 1 < 2 ^ 32) (h : workerFwmark build markBase id = some mark) :
    mark.toNat = min (markBase.toNat + (id + 1)) (2 ^ 32 - 1) := by
  rw [workerFwmark_of_lt build markBase hid, Option.some.injEq] at h
  have hlt : saturatingAdd (2 ^ 32) markBase.toNat (id + 1) < 2 ^ 32 := by
    unfold saturatingAdd
    omega
  rw [← h, UInt32.toNat_ofNat', Nat.mod_eq_of_lt hlt]
  rfl

theorem workerFwmark_eq_of_saturated {build : Build} {markBase : UInt32} {i j : Nat}
    (hi : i + 1 < 2 ^ 32) (hj : j + 1 < 2 ^ 32) (hsi : 2 ^ 32 ≤ markBase.toNat + (i + 2))
    (hsj : 2 ^ 32 ≤ markBase.toNat + (j + 2)) :
    workerFwmark build markBase i = workerFwmark build markBase j := by
  rw [workerFwmark_of_lt build markBase hi, workerFwmark_of_lt build markBase hj, saturatingAdd,
    saturatingAdd, Nat.min_eq_right (by omega), Nat.min_eq_right (by omega)]

/-! ## What distinct marks rule out -/

section Necessary

variable {build : Build} {cfg : AppConfig} {assignments : List WorkerAssignment}
  {manager : NftablesVmapFirewallManager} {markBase : UInt32}

/-- The worker `id` of the list and its mark. -/
theorem MarksExact.mark_getElem (h : MarksExact build cfg assignments manager)
    (hmode : IsolationMode.parse cfg.isolation.mode = .ok .fwmark)
    (hbase : parseHexMark cfg.isolation.markBase = .ok markBase) {id : Nat}
    (hid : id < assignments.length) :
    ∃ mark, assignments[id].fwmark = some mark ∧ workerFwmark build markBase id = some mark := by
  obtain ⟨-, hget⟩ := (generateAssignments_eq_some_iff hmode hbase).mp h.generated
  exact fwmark_of_workerAssignment (hget id hid)

/-- Two workers do not have one mark. -/
theorem MarksExact.worker_inj (h : MarksExact build cfg assignments manager)
    (hmode : IsolationMode.parse cfg.isolation.mode = .ok .fwmark)
    (hbase : parseHexMark cfg.isolation.markBase = .ok markBase) {i j : Nat}
    (hi : i < cfg.workers.count) (hj : j < cfg.workers.count)
    (heq : workerFwmark build markBase i = workerFwmark build markBase j) : i = j := by
  rw [← h.length_eq] at hi hj
  obtain ⟨m, hm, hwm⟩ := h.mark_getElem hmode hbase hi
  obtain ⟨n, hn, hwn⟩ := h.mark_getElem hmode hbase hj
  have hmn : m = n := Option.some.inj (hwm.symm.trans (heq.trans hwn))
  have hi' : i < (assignments.map WorkerAssignment.fwmark).length := by rwa [List.length_map]
  have hj' : j < (assignments.map WorkerAssignment.fwmark).length := by rwa [List.length_map]
  have hij : (assignments.map WorkerAssignment.fwmark)[i] =
      (assignments.map WorkerAssignment.fwmark)[j] := by
    rw [List.getElem_map, List.getElem_map, hm, hn, hmn]
  exact h.nodup.getElem_inj_iff.mp hij

/-- No worker computes the bypass mark. -/
theorem MarksExact.worker_ne_desync (h : MarksExact build cfg assignments manager)
    (hmode : IsolationMode.parse cfg.isolation.mode = .ok .fwmark)
    (hbase : parseHexMark cfg.isolation.markBase = .ok markBase) (id : Nat)
    (hid : id < cfg.workers.count) :
    ∃ mark, workerFwmark build markBase id = some mark ∧ mark ≠ manager.desyncMark := by
  rw [← h.length_eq] at hid
  obtain ⟨mark, hm, hw⟩ := h.mark_getElem hmode hbase hid
  refine ⟨mark, hw, ?_⟩
  rintro rfl
  exact h.ne_desync _ (List.getElem_mem hid) hm

/-- There are fewer workers than `u32` values: one more would repeat a mark, and that many would use
up all of them, the bypass mark among them. -/
theorem MarksExact.count_lt (h : MarksExact build cfg assignments manager)
    (hmode : IsolationMode.parse cfg.isolation.mode = .ok .fwmark)
    (hbase : parseHexMark cfg.isolation.markBase = .ok markBase) :
    cfg.workers.count < 2 ^ 32 := by
  by_contra hge
  rcases Nat.lt_or_ge (2 ^ 32) cfg.workers.count with hlt | hle
  · have := h.worker_inj hmode hbase (i := 0) (j := 2 ^ 32) (by omega) hlt
      (workerFwmark_mod build markBase (2 ^ 32))
    omega
  have hcount : cfg.workers.count = 2 ^ 32 := by omega
  obtain ⟨last, hlast, hne⟩ := h.worker_ne_desync hmode hbase (2 ^ 32 - 1) (by omega)
  cases build with
  | debug => cases (workerFwmark_debug_last markBase).symm.trans hlast
  | release =>
    obtain rfl : markBase = last :=
      Option.some.inj ((workerFwmark_wrap markBase).symm.trans hlast)
    rcases Nat.eq_zero_or_pos markBase.toNat with hzero | hpos
    · have hdesync : manager.desyncMark.toNat ≠ 0 := fun hd =>
        hne (UInt32.toNat_inj.mp (hzero.trans hd.symm))
      have hd := manager.desyncMark.toNat_lt
      obtain ⟨mark, hw, hmark⟩ := h.worker_ne_desync hmode hbase
        (manager.desyncMark.toNat - 1) (by omega)
      have hnat := toNat_workerFwmark (by omega) hw
      exact hmark (UInt32.toNat_inj.mp (by omega))
    · have := h.worker_inj hmode hbase (i := 2 ^ 32 - 3) (j := 2 ^ 32 - 2) (by omega) (by omega)
        (workerFwmark_eq_of_saturated (by omega) (by omega) (by omega) (by omega))
      omega

theorem MarksExact.rangeFree (h : MarksExact build cfg assignments manager)
    (hmode : IsolationMode.parse cfg.isolation.mode = .ok .fwmark)
    (hbase : parseHexMark cfg.isolation.markBase = .ok markBase)
    (hpos : 0 < cfg.workers.count) :
    MarkRangeFree cfg.workers.count markBase.toNat manager.desyncMark.toNat := by
  have hcount := h.count_lt hmode hbase
  constructor
  · by_contra hnot
    have := h.worker_inj hmode hbase (i := cfg.workers.count - 2) (j := cfg.workers.count - 1)
      (by omega) (by omega)
      (workerFwmark_eq_of_saturated (by omega) (by omega) (by omega) (by omega))
    omega
  · rintro ⟨hlt, hle⟩
    have hd := manager.desyncMark.toNat_lt
    obtain ⟨mark, hw, hmark⟩ := h.worker_ne_desync hmode hbase
      (manager.desyncMark.toNat - markBase.toNat - 1) (by omega)
    have hnat := toNat_workerFwmark (by omega) hw
    exact hmark (UInt32.toNat_inj.mp (by omega))

end Necessary

/-! ## What makes them distinct -/

section Sufficient

variable {build : Build} {cfg : AppConfig} {markBase desyncMark : UInt32}

/-- The sums of the queue numbers do not panic. -/
theorem isSome_add_qnum (h : Accepted build cfg) (hcount : cfg.workers.count < 2 ^ 32) {id : Nat}
    (hid : id < cfg.workers.count) :
    (build.add (2 ^ 16) cfg.isolation.queueBase.toNat (id % 2 ^ 16)).isSome := by
  cases build with
  | release => exact Build.isSome_add_release _ _ _
  | debug =>
    have hmod : cfg.workers.maxWorkerId = cfg.workers.count - 1 := Nat.mod_eq_of_lt (by omega)
    obtain ⟨maxQnum, hadd, -⟩ := h.queueRange
    have hsum := Build.add_debug_eq_some hadd
    have hfit := fits_of_validate h (by omega)
    rw [Nat.mod_eq_of_lt (by omega), Build.add_of_lt _ (by omega)]
    rfl

/-- The marks of the workers are different. -/
theorem workerFwmark_inj (hfree : MarkRangeFree cfg.workers.count markBase.toNat desyncMark.toNat)
    {i j : Nat} {mark : UInt32} (hi : i < cfg.workers.count) (hj : j < cfg.workers.count)
    (hcount : cfg.workers.count < 2 ^ 32) (hwi : workerFwmark build markBase i = some mark)
    (hwj : workerFwmark build markBase j = some mark) : i = j := by
  have hni := toNat_workerFwmark (by omega) hwi
  have hnj := toNat_workerFwmark (by omega) hwj
  obtain ⟨hlt | hone, -⟩ := hfree
  · omega
  · omega

/-- The bypass mark is none of them. -/
theorem workerFwmark_ne_desync (hrange : MarkRangeChecked build cfg markBase desyncMark)
    (hfree : MarkRangeFree cfg.workers.count markBase.toNat desyncMark.toNat) {id : Nat}
    (hid : id < cfg.workers.count) (hcount : cfg.workers.count < 2 ^ 32) :
    workerFwmark build markBase id ≠ some desyncMark := by
  intro hw
  have hnat := toNat_workerFwmark (by omega) hw
  obtain ⟨offset, hoffset, hne⟩ := hrange
  rw [WorkersConfig.maxWorkerId, Nat.mod_eq_of_lt (by omega), build.add_of_lt (by omega)] at hoffset
  obtain rfl := Option.some.inj hoffset
  unfold saturatingAdd at hne
  obtain ⟨hlt | hone, hout⟩ := hfree
  · omega
  · omega

theorem marksExact_of_rangeFree (h : Accepted build cfg)
    (hiso : IsolationAccepted build cfg .fwmark markBase desyncMark)
    (hfree : MarkRangeFree cfg.workers.count markBase.toNat desyncMark.toNat) :
    ∃ assignments manager, MarksExact build cfg assignments manager := by
  obtain ⟨hvmap, -, hrange⟩ := hiso.fwmark rfl
  have hcount : cfg.workers.count < 2 ^ 32 := by
    obtain ⟨hlt | hone, -⟩ := hfree <;> omega
  obtain ⟨assignments, hgen⟩ := exists_generateAssignments build hiso.mode_eq hiso.markBase_eq hcount
    fun id hid => isSome_add_qnum h hcount hid
  obtain ⟨manager, hfirewall, rfl, rfl⟩ := buildFirewall_fwmark assignments
    hiso.mode_eq hvmap hiso.desyncMark_eq
  obtain ⟨hlen, hget⟩ :=
    (generateAssignments_eq_some_iff hiso.mode_eq hiso.markBase_eq).mp hgen
  have hmark : ∀ id (hid : id < manager.assignments.length), ∃ mark,
      manager.assignments[id].fwmark = some mark ∧ workerFwmark build markBase id = some mark :=
    fun id hid => fwmark_of_workerAssignment (hget id hid)
  have hnodup : (manager.assignments.map WorkerAssignment.fwmark).Nodup := by
    refine List.nodup_iff_injective_getElem.mpr fun ⟨i, hi⟩ ⟨j, hj⟩ hij => ?_
    rw [List.length_map] at hi hj
    obtain ⟨m, hm, hwm⟩ := hmark i hi
    obtain ⟨n, hn, hwn⟩ := hmark j hj
    simp only [List.getElem_map, hm, hn, Option.some.injEq] at hij
    subst hij
    have hi' : i < cfg.workers.count := by omega
    have hj' : j < cfg.workers.count := by omega
    exact Fin.ext (workerFwmark_inj hfree hi' hj' hcount hwm hwn)
  have hne : ∀ a ∈ manager.assignments, a.fwmark ≠ some manager.desyncMark := by
    intro a ha hdesync
    obtain ⟨id, hid, rfl⟩ := List.getElem_of_mem ha
    obtain ⟨mark, hm, hw⟩ := hmark id hid
    exact workerFwmark_ne_desync hrange hfree (by omega) hcount (hw.trans (hm.symm.trans hdesync))
  refine ⟨manager.assignments, manager, hgen, hfirewall, hiso.desyncMark_eq, hlen, ?_, hnodup,
    hne, ?_⟩
  · intro a ha
    obtain ⟨id, hid, rfl⟩ := List.getElem_of_mem ha
    obtain ⟨mark, hm, -⟩ := hmark id hid
    rw [hm]
    rfl
  · intro a ha mark ctMark hm
    refine run_chain_of_mem hnodup ha hm ?_
    rintro rfl
    exact hne a ha hm

end Sufficient

/-! ## The run -/

/-- In fwmark mode the marks are right when they end before the largest `u32` and the bypass mark is
outside their range. -/
theorem marksExact_iff {build : Build} {socketAddrPort : String → Option UInt16} {cfg : AppConfig}
    {markBase desyncMark : UInt32} (h : (cfg.validate build socketAddrPort).Returns ())
    (hmode : IsolationMode.parse cfg.isolation.mode = .ok .fwmark)
    (hbase : parseHexMark cfg.isolation.markBase = .ok markBase)
    (hdesync : parseHexMark cfg.isolation.desyncMark = .ok desyncMark) :
    (∃ assignments manager, MarksExact build cfg assignments manager) ↔
      MarkRangeFree cfg.workers.count markBase.toNat desyncMark.toNat := by
  have haccepted := Accepted.of_validate h
  constructor
  · rintro ⟨assignments, manager, hexact⟩
    obtain rfl : desyncMark = manager.desyncMark := Except.ok.inj (hdesync.symm.trans hexact.desync)
    exact hexact.rangeFree hmode hbase haccepted.count_pos
  · intro hfree
    obtain ⟨mode, base, desync, hiso⟩ := haccepted.isolation
    obtain rfl : .fwmark = mode := Except.ok.inj (hmode.symm.trans hiso.mode_eq)
    obtain rfl : markBase = base := Except.ok.inj (hbase.symm.trans hiso.markBase_eq)
    obtain rfl : desyncMark = desync := Except.ok.inj (hdesync.symm.trans hiso.desyncMark_eq)
    exact marksExact_of_rangeFree haccepted hiso hfree

/-- Three workers in fwmark mode, whose marks start after `0x20000000`. -/
def threeMarksConfig (desyncMark : String) : AppConfig where
  workers := { count := 3 }
  sourcePort := { mode := "os_assigned" }
  probe := { backend := "native" }
  firewall :=
    { backend := "nftables", table := "zapret_checker", hook := "output", priority := "mangle"
      cleanupOnStart := true, cleanupOnExit := true }
  debug := { keepRulesOnFailure := false }
  isolation :=
    { mode := "fwmark", queueBase := 200, desyncMark := desyncMark, useNftVmap := true }

theorem marksExact_threeMarks :
    ∃ assignments manager,
      MarksExact .release (threeMarksConfig "0x40000000") assignments manager :=
  (@marksExact_iff .release (fun _ => some 443) _ 0x20000000 0x40000000
    (by decide +kernel) (by decide +kernel) (by decide +kernel) (by decide +kernel)).mpr
    (by decide +kernel)

/-- The bypass mark is the mark of the first of three workers, and the check accepts it. -/
theorem not_marksExact_threeMarks :
    (∀ build, ((threeMarksConfig "0x20000001").validate build fun _ => some 443).Returns ()) ∧
      ∀ build, ¬ ∃ assignments manager,
        MarksExact build (threeMarksConfig "0x20000001") assignments manager := by
  refine ⟨fun build => by cases build <;> decide +kernel, ?_⟩
  rintro build ⟨assignments, manager, h⟩
  have hmode : IsolationMode.parse (threeMarksConfig "0x20000001").isolation.mode =
      .ok .fwmark := by decide +kernel
  have hbase : parseHexMark (threeMarksConfig "0x20000001").isolation.markBase =
      .ok 0x20000000 := by decide +kernel
  have hdesync : parseHexMark (threeMarksConfig "0x20000001").isolation.desyncMark =
      .ok 0x20000001 := by decide +kernel
  have hmark : manager.desyncMark = 0x20000001 := Except.ok.inj (h.desync.symm.trans hdesync)
  have hfree := h.rangeFree hmode hbase (by decide)
  rw [hmark] at hfree
  exact absurd hfree (by decide +kernel)

end ZapretChecker.Isolation
