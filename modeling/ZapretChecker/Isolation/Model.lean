import Mathlib.Algebra.GroupWithZero.Nat
import ZapretChecker.Lib.Checked
import ZapretChecker.Lib.Text
import ZapretChecker.Worker.Lifecycle

/-!
# Isolation of the workers

`IsolationConfig` (`src/config.rs`) and `src/isolation.rs`: the queue number and the firewall mark of
each worker, and how the marks are read from the configuration.

`usize` has 64 bits; a cast to `u16` or `u32` keeps the low bits.
-/

namespace ZapretChecker.Isolation

open Worker

structure IsolationConfig where
  mode : String := "source_port"
  queueBase : UInt16 := 10
  markBase : String := "0x20000000"
  desyncMark : String := "0x40000000"
  useNftVmap : Bool := false
  deriving DecidableEq, Repr, Inhabited

inductive IsolationError
  | unknownMode (other : String)
  | invalidMark (value : String) (error : Text.ParseIntError)
  deriving DecidableEq, Repr

/-- The text of the error. `debug` is the `Debug` format of a string. -/
def IsolationError.message (debug : String → String) : IsolationError → String
  | .unknownMode other => "isolation.mode must be source_port or fwmark, got " ++ debug other
  | .invalidMark value error => "invalid mark " ++ debug value ++ ": " ++ error.text

def IsolationMode.parse (value : String) : Except IsolationError IsolationMode :=
  match value with
  | "source_port" => .ok .sourcePort
  | "fwmark" => .ok .fwmark
  | other => .error (.unknownMode other)

def parseHexMark (value : String) : Except IsolationError UInt32 :=
  let trimmed := Text.trim value
  let hex := ((Text.stripPrefix trimmed "0x").or (Text.stripPrefix trimmed "0X")).getD trimmed
  match Text.fromHexRadix (2 ^ 32 - 1) hex with
  | .ok mark => .ok (UInt32.ofNat mark)
  | .error error => .error (.invalidMark value error)

/-! ## Assignments -/

/-- The addition of 1 is checked, the other one saturates. -/
def workerFwmark (build : Build) (markBase : UInt32) (workerId : Nat) : Option UInt32 := do
  let offset ← build.add (2 ^ 32) (workerId % 2 ^ 32) 1
  pure (UInt32.ofNat (saturatingAdd (2 ^ 32) markBase.toNat offset))

/-- The body of the loop of `generate_assignments`. -/
def workerAssignment (build : Build) (mode : IsolationMode) (queueBase : UInt16)
    (markBase : UInt32) (workerId : Nat) : Option WorkerAssignment := do
  let qnum ← build.add (2 ^ 16) queueBase.toNat (workerId % 2 ^ 16)
  match mode with
  | .fwmark =>
    let fwmark ← workerFwmark build markBase workerId
    pure { workerId, qnum := UInt16.ofNat qnum, fwmark := some fwmark, sourcePort := none }
  | .sourcePort =>
    pure { workerId, qnum := UInt16.ofNat qnum, fwmark := none, sourcePort := none }

/-- `none` is a panic: one of the two `expect`s or an addition that overflows. -/
def generateAssignments (build : Build) (workersCount : Nat) (isolation : IsolationConfig) :
    Option (List WorkerAssignment) := do
  let mode ← (IsolationMode.parse isolation.mode).toOption
  let markBase ← (parseHexMark isolation.markBase).toOption
  (List.range workersCount).mapM (workerAssignment build mode isolation.queueBase markBase)

/-- The worker count of the check command: `--workers` if given, else `workers.count`. -/
def effectiveWorkers (workers : Option Nat) (count : Nat) : Nat := max (workers.getD count) 1

/-! ## One worker -/

theorem workerFwmark_of_lt (build : Build) (markBase : UInt32) {workerId : Nat}
    (h : workerId + 1 < 2 ^ 32) :
    workerFwmark build markBase workerId =
      some (UInt32.ofNat (saturatingAdd (2 ^ 32) markBase.toNat (workerId + 1))) := by
  have hmod : workerId % 2 ^ 32 = workerId := Nat.mod_eq_of_lt (by omega)
  rw [workerFwmark, hmod, build.add_of_lt h]
  rfl

/-- The worker that wraps the offset around gets the base itself as its mark. -/
theorem workerFwmark_wrap (markBase : UInt32) :
    workerFwmark .release markBase (2 ^ 32 - 1) = some markBase := by
  have hle : markBase.toNat ≤ 2 ^ 32 - 1 := by
    have := markBase.toNat_lt
    omega
  show some (UInt32.ofNat (min (markBase.toNat + 0) (2 ^ 32 - 1))) = some markBase
  rw [Nat.add_zero, Nat.min_eq_left hle, UInt32.ofNat_toNat]

theorem workerFwmark_debug_last (markBase : UInt32) :
    workerFwmark .debug markBase (2 ^ 32 - 1) = none := rfl

theorem workerFwmark_mod (build : Build) (markBase : UInt32) (workerId : Nat) :
    workerFwmark build markBase (workerId % 2 ^ 32) = workerFwmark build markBase workerId := by
  rw [workerFwmark, workerFwmark, Nat.mod_mod]

theorem toNat_of_add16 {build : Build} {queueBase : UInt16} {n qnum : Nat}
    (h : build.add (2 ^ 16) queueBase.toNat n = some qnum) :
    (UInt16.ofNat qnum).toNat = (queueBase.toNat + n) % 2 ^ 16 := by
  rw [Build.add_eq_mod h, UInt16.toNat_ofNat', Nat.mod_mod]

/-- What the assignment of a worker consists of. -/
theorem workerAssignment_spec {build : Build} {mode : IsolationMode} {queueBase : UInt16}
    {markBase : UInt32} {workerId : Nat} {a : WorkerAssignment}
    (h : workerAssignment build mode queueBase markBase workerId = some a) :
    a.workerId = workerId ∧ a.qnum.toNat = (queueBase.toNat + workerId % 2 ^ 16) % 2 ^ 16 ∧
      a.fwmark = match mode with
        | .fwmark => workerFwmark build markBase workerId
        | .sourcePort => none := by
  obtain ⟨qnum, hq, h⟩ := Option.bind_eq_some_iff.mp h
  have hnat := toNat_of_add16 hq
  cases mode with
  | fwmark =>
    obtain ⟨fwmark, hf, h⟩ := Option.bind_eq_some_iff.mp h
    obtain rfl := Option.some.inj h
    exact ⟨rfl, hnat, hf.symm⟩
  | sourcePort =>
    obtain rfl := Option.some.inj h
    exact ⟨rfl, hnat, rfl⟩

/-- In fwmark mode every assignment has a mark. -/
theorem fwmark_of_workerAssignment {build : Build} {queueBase : UInt16} {markBase : UInt32}
    {workerId : Nat} {a : WorkerAssignment}
    (h : workerAssignment build .fwmark queueBase markBase workerId = some a) :
    ∃ mark, a.fwmark = some mark ∧ workerFwmark build markBase workerId = some mark := by
  obtain ⟨qnum, -, h⟩ := Option.bind_eq_some_iff.mp h
  obtain ⟨fwmark, hf, h⟩ := Option.bind_eq_some_iff.mp h
  obtain rfl := Option.some.inj h
  exact ⟨fwmark, rfl, hf⟩

/-- An assignment is made when neither addition overflows. -/
theorem workerAssignment_isSome {build : Build} {mode : IsolationMode} {queueBase : UInt16}
    {markBase : UInt32} {workerId : Nat}
    (hq : (build.add (2 ^ 16) queueBase.toNat (workerId % 2 ^ 16)).isSome)
    (hm : workerId + 1 < 2 ^ 32) :
    ∃ a, workerAssignment build mode queueBase markBase workerId = some a := by
  obtain ⟨qnum, hq⟩ := Option.isSome_iff_exists.mp hq
  rw [workerAssignment, hq, workerFwmark_of_lt build markBase hm]
  cases mode <;> exact ⟨_, rfl⟩

/-! ## All workers -/

/-- The assignments are those of the workers, one after the other. -/
theorem generateAssignments_eq_some_iff {build : Build} {workersCount : Nat}
    {isolation : IsolationConfig} {assignments : List WorkerAssignment} {mode : IsolationMode}
    {markBase : UInt32} (hmode : IsolationMode.parse isolation.mode = .ok mode)
    (hbase : parseHexMark isolation.markBase = .ok markBase) :
    generateAssignments build workersCount isolation = some assignments ↔
      assignments.length = workersCount ∧ ∀ id (h : id < assignments.length),
        workerAssignment build mode isolation.queueBase markBase id = some assignments[id] := by
  rw [← List.mapM_range_eq_some_iff, generateAssignments, hmode, hbase]
  rfl

/-- The loop ends when none of its additions panics. -/
theorem exists_generateAssignments (build : Build) {workersCount : Nat}
    {isolation : IsolationConfig} {mode : IsolationMode} {markBase : UInt32}
    (hmode : IsolationMode.parse isolation.mode = .ok mode)
    (hbase : parseHexMark isolation.markBase = .ok markBase) (hcount : workersCount < 2 ^ 32)
    (hq : ∀ id < workersCount,
      (build.add (2 ^ 16) isolation.queueBase.toNat (id % 2 ^ 16)).isSome) :
    ∃ assignments, generateAssignments build workersCount isolation = some assignments := by
  rw [generateAssignments, hmode, hbase]
  refine List.exists_mapM_of_forall fun id hid => ?_
  have hlt : id < workersCount := List.mem_range.mp hid
  exact workerAssignment_isSome (hq id hlt) (by omega)

end ZapretChecker.Isolation
