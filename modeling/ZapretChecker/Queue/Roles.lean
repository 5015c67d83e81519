import ZapretChecker.Queue.Model

/-!
# Who is on the way to the queue

A count of the processes by what each is about to do. `Move` is a step as the counts see it: which
roles it gives up, which it takes, and what it does to the mutex and the `Notify`.

* `Balanced` — while calls wait, a notification is on its way for every free number
* `Move.balanced` — a move keeps the balance
-/

namespace ZapretChecker.Queue

/-- What a process is about to do with the queue or the `Notify`. -/
inductive Role
  /-- it was notified, and goes to the queue -/
  | coming
  /-- it has the lock, and looks for a number -/
  | popping
  /-- it has the lock, and found the queue empty -/
  | emptied
  /-- it has left the queue to wait -/
  | registering
  /-- it has the lock, and brings a number back -/
  | pushing
  /-- it has the lock, and has brought a number back -/
  | notifying
  /-- it has the lock, and only gives it back -/
  | leaving
  deriving DecidableEq

section

variable (q : Inner) (n : Role → Nat)

/-- The calls that will look for a number without being notified again. -/
def arriving : Nat := n .coming + n .popping

/-- The releases that have yet to call `notify_one`. -/
def releasing : Nat := n .pushing + n .notifying

/-- The calls that wait, or have left the queue to wait. -/
def waiting : Nat := q.waiters.length + n .registering

/-- The numbers that are free, or about to be. -/
def onOffer : Nat := q.available.length + n .pushing

/-- The notifications under way: calls on the way to the queue, releases, and the permit. -/
def underWay : Nat := arriving n + releasing n + q.permit.toNat

/-- The permit and the releases do not reach every call that waits. -/
def Outnumbered : Prop := q.permit.toNat + releasing n < waiting q n

instance : Decidable (Outnumbered q n) := inferInstanceAs (Decidable (_ < _))

/-- Calls wait that no permit and no release will reach, and there is no notification to spare. -/
def NoneToSpare : Prop := Outnumbered q n ∧ underWay q n ≤ onOffer q n

instance : Decidable (NoneToSpare q n) := inferInstanceAs (Decidable (_ ∧ _))

/-- The balance of numbers and notifications. -/
structure Balanced : Prop where
  one_lock : n .popping + n .emptied + releasing n + n .leaving = q.locked.toNat
  emptied : 0 < n .emptied → q.available = []
  /-- While a call may wait in vain, every number has a notification under way. -/
  covered : Outnumbered q n → onOffer q n ≤ underWay q n

end

/-- A step as the counts `n` see it. -/
inductive Move (n : Role → Nat) (q : Inner) : List Role → List Role → Inner → Prop
  | quiet (roles : List Role) : Move n q roles roles q
  | enter (hfree : q.locked = false) : Move n q [] [.popping] { q with locked := true }
  | arrive (hfree : q.locked = false) : Move n q [.coming] [.popping] { q with locked := true }
  | pop {qnum : UInt16} {rest : List UInt16} (ha : q.available = qnum :: rest) :
      Move n q [.popping] [.leaving] { q with available := rest }
  | findEmpty (ha : q.available = []) : Move n q [.popping] [.emptied] q
  | goWait : Move n q [.emptied] [.registering] { q with locked := false }
  | takePermit (hp : q.permit = true) :
      Move n q [.registering] [.coming] { q with permit := false }
  | park (i : Nat) : Move n q [.registering] [] { q with waiters := q.waiters ++ [i] }
  | leave : Move n q [.leaving] [] { q with locked := false }
  | bring (hfree : q.locked = false) : Move n q [] [.pushing] { q with locked := true }
  | push (qnum : UInt16) :
      Move n q [.pushing] [.notifying] { q with available := q.available ++ [qnum] }
  | wake {w : Nat} {ws : List Nat} (hp : q.permit = false) (hw : q.waiters = w :: ws) :
      Move n q [.notifying] [.leaving, .coming] { q with waiters := ws }
  | store (hp : q.permit = false) (hw : q.waiters = []) :
      Move n q [.notifying] [.leaving] { q with permit := true }
  /-- The permit is stored already: the notification is lost, to nobody's harm. -/
  | lose (hp : q.permit = true) (hw : q.waiters = [])
      (hok : 2 ≤ n .registering → q.available.length ≤ arriving n + 1) :
      Move n q [.notifying] [.leaving] q
  | unpark (i : Nat) : Move n q [] [] { q with waiters := q.waiters.erase i }
  /-- A dropped call passes its notification on, or stores it. -/
  | passOn {w : Nat} {ws : List Nat} (hp : q.permit = false) (hw : q.waiters = w :: ws) :
      Move n q [.coming] [.coming] { q with waiters := ws }
  | putBack (hp : q.permit = false) (hw : q.waiters = []) :
      Move n q [.coming] [] { q with permit := true }
  /-- Its notification is lost, to nobody's harm. -/
  | giveUp (hok : ¬ NoneToSpare q n) : Move n q [.coming] [] q

variable {n n' : Role → Nat} {q q' : Inner} {old new : List Role}

/-- The balance in numbers. -/
theorem balanced_iff : Balanced q n ↔
    n .popping + n .emptied + (n .pushing + n .notifying) + n .leaving = q.locked.toNat ∧
    (0 < n .emptied → q.available.length = 0) ∧
    (q.permit.toNat + (n .pushing + n .notifying) < q.waiters.length + n .registering →
      q.available.length + n .pushing ≤
        n .coming + n .popping + (n .pushing + n .notifying) + q.permit.toNat) := by
  rw [List.length_eq_zero_iff]
  exact ⟨fun h => ⟨h.one_lock, h.emptied, h.covered⟩, fun h => ⟨h.1, h.2.1, h.2.2⟩⟩

/-- A move keeps the balance, for the counts before and after it. -/
theorem Move.balanced (h : Move n q old new q') (hs : Balanced q n)
    (hn : ∀ role, n' role + old.count role = n role + new.count role) : Balanced q' n' := by
  rw [balanced_iff] at hs ⊢
  obtain ⟨hlock, hempty, hcovered⟩ := hs
  have hc := hn .coming
  have hp := hn .popping
  have he := hn .emptied
  have hr := hn .registering
  have hu := hn .pushing
  have hy := hn .notifying
  have hl := hn .leaving
  have hle := q.locked.toNat_le
  cases h <;> simp only [List.count_cons, List.count_nil, beq_iff_eq, reduceCtorEq, if_true,
    if_false, Nat.add_right_cancel_iff, Nat.add_zero, Nat.zero_add] at hc hp he hr hu hy hl ⊢
  case quiet => omega
  case enter hfree =>
    rw [hfree, Bool.toNat_false] at hlock
    rw [Bool.toNat_true]
    omega
  case arrive hfree =>
    rw [hfree, Bool.toNat_false] at hlock
    rw [Bool.toNat_true]
    omega
  case pop ha =>
    rw [ha, List.length_cons] at hcovered
    omega
  case findEmpty ha =>
    rw [ha, List.length_nil]
    omega
  case goWait =>
    rw [Bool.toNat_false]
    omega
  case takePermit hpermit =>
    rw [hpermit, Bool.toNat_true] at hcovered
    rw [Bool.toNat_false]
    omega
  case park i =>
    rw [List.length_append, List.length_singleton]
    omega
  case leave =>
    rw [Bool.toNat_false]
    omega
  case bring hfree =>
    rw [hfree, Bool.toNat_false] at hlock
    rw [Bool.toNat_true]
    omega
  case push qnum =>
    rw [List.length_append, List.length_singleton]
    omega
  case wake hpermit hw =>
    rw [hpermit, hw, List.length_cons] at hcovered
    rw [hpermit]
    omega
  case store hpermit hw =>
    rw [hpermit, hw, Bool.toNat_false] at hcovered
    rw [hw, Bool.toNat_true]
    omega
  case lose hpermit hw hok =>
    unfold arriving at hok
    rw [hpermit, hw, Bool.toNat_true, List.length_nil]
    omega
  case unpark i =>
    have hle : (q.waiters.erase i).length ≤ q.waiters.length := List.length_erase_le
    omega
  case passOn hpermit hw =>
    rw [hpermit, hw, List.length_cons] at hcovered
    rw [hpermit]
    omega
  case putBack hpermit hw =>
    rw [hpermit, hw, Bool.toNat_false] at hcovered
    rw [hw, Bool.toNat_true]
    omega
  case giveUp hok =>
    have hspare : ¬ (Outnumbered q n ∧ underWay q n ≤ onOffer q n) := hok
    unfold Outnumbered onOffer underWay waiting arriving releasing at hspare
    omega

end ZapretChecker.Queue
