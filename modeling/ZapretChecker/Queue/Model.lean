import ZapretChecker.Lib.StepSystem

/-!
# The queue number allocator

`src/queue.rs` as a step system. A process is one call of `acquire` together with the lease it
returns: it waits for a number, holds the lease, and gives the number back by `release` or by
dropping the lease. Any number of processes run, and a new one may start at any time.

A step is one access to shared state, or the code between two of them. What is assumed of tokio:

* `Mutex` — one task has the lock at a time; who gets it next is not fixed.
* `Notify` — a `Notified` future registers when it is first polled, unless a permit is stored.
  `notify_one` wakes the waiter that registered first, or stores the one permit.
  A woken future that is dropped passes its notification on.
* A future can be dropped only where it awaits something.
-/

namespace ZapretChecker.Queue

open StepSystem

inductive QueueError
  | emptyPool
  deriving DecidableEq

/-- `QueueLease`, less its handle of the allocator. -/
structure QueueLease where
  qnum : UInt16
  released : Bool
  deriving DecidableEq

/-- Who runs `release_qnum`. -/
inductive Releaser
  /-- the future of `QueueLease::release`, which owns the lease -/
  | release (lease : QueueLease)
  /-- the task that `Drop` has spawned -/
  | dropTask (qnum : UInt16)
  deriving DecidableEq

def Releaser.qnum : Releaser → UInt16
  | .release lease => lease.qnum
  | .dropTask qnum => qnum

/-- Where a process is. -/
inductive Phase
  /-- `acquire` awaits the lock -/
  | acquireLock
  /-- `guard.pop_front()`, under the lock -/
  | popFront
  /-- the queue was empty: `drop(guard)` -/
  | dropGuard
  /-- `notified()`, not polled yet -/
  | register
  /-- registered on the `Notify` -/
  | parked
  /-- notified, not polled since -/
  | woken
  /-- the lease is made; `acquire` returns and its guard is dropped -/
  | returning (lease : QueueLease)
  | held (lease : QueueLease)
  /-- `release_qnum` awaits the lock -/
  | releaseLock (releaser : Releaser)
  /-- `contains` and `push_back`, under the lock -/
  | pushBack (releaser : Releaser)
  /-- `notify_one`, under the lock -/
  | notifyOne (releaser : Releaser)
  /-- `release_qnum` returns and its guard is dropped -/
  | unlock (releaser : Releaser)
  /-- `self.released = true`, then the lease is dropped -/
  | setReleased (lease : QueueLease)
  | finished
  deriving DecidableEq

/-- `Inner`: the mutex with its queue, and the `Notify` with its permit and its waiters. -/
structure Inner where
  available : List UInt16
  locked : Bool
  permit : Bool
  waiters : List Nat
  deriving DecidableEq

/-- The shared allocator and every process started so far. -/
structure State extends Inner where
  procs : List Phase
  deriving DecidableEq

/-! ## `QueueAllocator::new` -/

def QueueAllocator.new (baseQnum qnumCount : UInt16) : Except QueueError Inner :=
  if qnumCount = 0 then .error .emptyPool
  else .ok {
    available := (List.range qnumCount.toNat).map fun n => baseQnum + UInt16.ofNat n
    locked := false
    permit := false
    waiters := [] }

/-! ## Steps -/

/-- `Drop for QueueLease`: where the process goes when its lease is dropped. -/
def QueueLease.drop (lease : QueueLease) : Phase :=
  if lease.released then .finished else .releaseLock (.dropTask lease.qnum)

namespace State

def goto (s : State) (i : Nat) (phase : Phase) : State :=
  { s with procs := s.procs.set i phase }

/-- `Mutex::lock`, when the lock is free. -/
def lock (s : State) : Option State :=
  if s.locked then none else some { s with locked := true }

def unlock (s : State) : State := { s with locked := false }

/-- `Notify::notify_one` -/
def notifyOne (s : State) : State :=
  match s.waiters with
  | [] => { s with permit := true }
  | w :: ws => { s with waiters := ws }.goto w .woken

/-- Process `i`, which is in `phase`, takes the next step of its own code. -/
def advance (s : State) (i : Nat) : Phase → Option State
  | .acquireLock => s.lock.map (·.goto i .popFront)
  | .popFront =>
    match s.available with
    | qnum :: rest => some ({ s with available := rest }.goto i (.returning ⟨qnum, false⟩))
    | [] => some (s.goto i .dropGuard)
  | .dropGuard => some (s.unlock.goto i .register)
  | .register =>
    if s.permit then some ({ s with permit := false }.goto i .acquireLock)
    else some ({ s with waiters := s.waiters ++ [i] }.goto i .parked)
  | .woken => some (s.goto i .acquireLock)
  | .returning lease => some (s.unlock.goto i (.held lease))
  | .releaseLock releaser => s.lock.map (·.goto i (.pushBack releaser))
  | .pushBack releaser =>
    if releaser.qnum ∈ s.available then some (s.goto i (.unlock releaser))
    else some ({ s with available := s.available ++ [releaser.qnum] }.goto i (.notifyOne releaser))
  | .notifyOne releaser => some (s.notifyOne.goto i (.unlock releaser))
  | .unlock (.release lease) => some (s.unlock.goto i (.setReleased lease))
  | .unlock (.dropTask _) => some (s.unlock.goto i .finished)
  | .setReleased lease => some (s.goto i ({ lease with released := true } : QueueLease).drop)
  | .parked | .held _ | .finished => none

/-- The future of process `i`, which awaits in `phase`, is dropped. -/
def cancel (s : State) (i : Nat) : Phase → Option State
  | .acquireLock => some (s.goto i .finished)
  | .parked => some ({ s with waiters := s.waiters.erase i }.goto i .finished)
  | .woken => some (s.notifyOne.goto i .finished)
  -- the dropped release future owns the lease, and drops it
  | .releaseLock (.release lease) => some (s.goto i lease.drop)
  | _ => none

/-- `QueueLease::release` is called. -/
def release (s : State) (i : Nat) : Phase → Option State
  | .held lease =>
    some (s.goto i (if lease.released then lease.drop else .releaseLock (.release lease)))
  | _ => none

/-- The holder drops the lease. -/
def dropLease (s : State) (i : Nat) : Phase → Option State
  | .held lease => some (s.goto i lease.drop)
  | _ => none

end State

/-- What happens next. -/
inductive Event
  /-- a new call of `acquire` -/
  | acquire
  | advance (i : Nat)
  | cancel (i : Nat)
  | release (i : Nat)
  | drop (i : Nat)
  deriving DecidableEq

def step (s : State) : Event → Option State
  | .acquire => some { s with procs := s.procs ++ [.acquireLock] }
  | .advance i => (s.procs[i]?).bind (s.advance i)
  | .cancel i => (s.procs[i]?).bind (s.cancel i)
  | .release i => (s.procs[i]?).bind (s.release i)
  | .drop i => (s.procs[i]?).bind (s.dropLease i)

/-- The allocator `inner`, before the first call of `acquire`. -/
def system (inner : Inner) : System State Event where
  init := { inner with procs := [] }
  step := step

/-! ## Who holds a number -/

/-- The live lease of a process: it exists and its number has not been pushed back. -/
def Phase.lease? : Phase → Option QueueLease
  | .returning lease | .held lease => some lease
  | .releaseLock (.release lease) | .pushBack (.release lease) => some lease
  | _ => none

/-- The number that a release task of a dropped lease has yet to push back. -/
def Phase.pending? : Phase → Option UInt16
  | .releaseLock (.dropTask qnum) | .pushBack (.dropTask qnum) => some qnum
  | _ => none

namespace State

def liveLeases (s : State) : List QueueLease := s.procs.filterMap Phase.lease?

def pendingReleases (s : State) : List UInt16 := s.procs.filterMap Phase.pending?

end State

end ZapretChecker.Queue
