import ZapretChecker.Queue.Leases
import ZapretChecker.Queue.Roles

/-!
# Who is left on the `Notify`

`acquire` finds the queue empty, unlocks it and only then registers on the `Notify`, which stores
one permit. Two releases in that window can both find no waiter: the second notification is lost,
and of two calls that then register one parks although a number is free.

* `Stranded` — a call is parked, a number is free, and nobody is on the way
* `LosesWakeup` — the steps by which a notification is lost that a waiter depends on
* `Waits` — the invariant: every step without a lost wakeup is a move that keeps the balance
* `not_stranded` — without a lost wakeup no reachable state strands a call
-/

namespace ZapretChecker.Queue

open StepSystem Holdings

/-! ## Roles -/

/-- `notified` tells a call that was notified from a call that has just begun. -/
def Phase.role (notified : Bool) : Phase → Option Role
  | .acquireLock => if notified then some .coming else none
  | .woken => some .coming
  | .popFront => some .popping
  | .dropGuard => some .emptied
  | .register => some .registering
  | .pushBack _ => some .pushing
  | .notifyOne _ => some .notifying
  | .returning _ | .unlock _ => some .leaving
  | .parked | .held _ | .releaseLock _ | .setReleased _ | .finished => none

namespace State

/-- A call that has taken a step and awaits the lock again was notified. -/
def roles (s : State) (past : List Event) : List (Option Role) :=
  s.procs.mapIdx fun i phase => phase.role (decide (.advance i ∈ past))

def tally (s : State) (past : List Event) (role : Role) : Nat :=
  (s.roles past).count (some role)

end State

/-! ## What may go wrong -/

/-- A call is parked while a number is free, no permit is stored, nobody has the lock, and nobody
who was woken is on the way to the queue. -/
def Stranded (past : List Event) (s : State) : Prop :=
  .parked ∈ s.procs ∧ s.available ≠ [] ∧ s.permit = false ∧ s.locked = false ∧
    .woken ∉ s.procs ∧
    ∀ i < s.procs.length, s.procs[i]? = some .acquireLock → .advance i ∉ past

instance (past : List Event) (s : State) : Decidable (Stranded past s) :=
  inferInstanceAs (Decidable (_ ∧ _))

/-- The steps by which a notification is lost that a waiter depends on. -/
def LosesWakeup (past : List Event) (s : State) : Event → Prop
  -- the permit is stored already, and two calls are between the unlock and the registration
  | .advance i => (s.roles past)[i]? = some (some .notifying) ∧ s.permit = true ∧
      2 ≤ s.tally past .registering ∧ arriving (s.tally past) + 1 < s.available.length
  -- a call that was notified is dropped, and does not pass its notification on
  | .cancel i => (s.roles past)[i]? = some (some .coming) ∧
      (s.procs[i]? = some .woken → s.permit = true) ∧ NoneToSpare s.toInner (s.tally past)
  | .acquire | .release _ | .drop _ => False

instance (past : List Event) (s : State) : ∀ e, Decidable (LosesWakeup past s e)
  | .advance _ => inferInstanceAs (Decidable (_ ∧ _))
  | .cancel _ => inferInstanceAs (Decidable (_ ∧ _))
  | .acquire | .release _ | .drop _ => inferInstanceAs (Decidable False)

/-! ## One process moves -/

variable {ns : List UInt16} {past past' : List Event} {s s' : State} {i : Nat} {p t : Phase}

theorem roles_getElem? (past : List Event) (hi : s.procs[i]? = some p) :
    (s.roles past)[i]? = some (p.role (decide (.advance i ∈ past))) := by
  rw [State.roles, List.getElem?_mapIdx, hi]
  rfl

/-- Process `i` goes from `p` to `t`, and no other takes a step. -/
structure Turn (past past' : List Event) (s s' : State) (i : Nat) (p t : Phase) : Prop where
  start : s.procs[i]? = some p
  procs : s'.procs = s.procs.set i t
  others : ∀ j, j ≠ i → (.advance j ∈ past' ↔ .advance j ∈ past)

theorem Turn.of_event {e : Event} (hi : s.procs[i]? = some p)
    (hprocs : s'.procs = s.procs.set i t) (he : ∀ j, .advance j = e → j = i) :
    Turn past (past ++ [e]) s s' i p t where
  start := hi
  procs := hprocs
  others j hj := by
    rw [List.mem_append, List.mem_singleton]
    exact or_iff_left fun h => hj (he j h)

theorem Turn.advance (hi : s.procs[i]? = some p) (hprocs : s'.procs = s.procs.set i t) :
    Turn past (past ++ [.advance i]) s s' i p t :=
  .of_event hi hprocs fun _ hj => Event.advance.inj hj

theorem Turn.roles (h : Turn past past' s s' i p t) :
    s'.roles past' = (s.roles past).set i (t.role (decide (.advance i ∈ past'))) := by
  refine List.ext_getElem? fun j => ?_
  rw [State.roles, State.roles, h.procs, List.getElem?_mapIdx, List.getElem?_set]
  by_cases hj : j = i
  · subst hj
    by_cases hlt : j < s.procs.length
    · simp [hlt]
    · simp [hlt]
  · rw [List.getElem?_set_ne (Ne.symm hj), if_neg (Ne.symm hj), List.getElem?_mapIdx]
    simp only [h.others j hj]

/-- The mover gives one role up and takes another. -/
theorem Turn.tally (h : Turn past past' s s' i p t) (role : Role) :
    s'.tally past' role + (p.role (decide (.advance i ∈ past))).toList.count role =
      s.tally past role + (t.role (decide (.advance i ∈ past'))).toList.count role := by
  have hcount : ∀ r : Option Role, r.toList.count role = if r == some role then 1 else 0 := by
    intro r
    cases r with
    | none => rfl
    | some r => simp [List.count_cons]
  rw [hcount, hcount, State.tally, State.tally, h.roles]
  exact count_set (roles_getElem? _ h.start) _ _

/-- Who is in the past has a number, and a mover has one. -/
theorem Turn.began (h : Turn past past' s s' i p t)
    (hs : ∀ j, .advance j ∈ past → j < s.procs.length) :
    ∀ j, .advance j ∈ past' → j < s'.procs.length := by
  intro j hj
  rw [h.procs, List.length_set]
  by_cases hji : j = i
  · exact hji ▸ (List.getElem?_eq_some_iff.mp h.start).1
  · exact hs j ((h.others j hji).mp hj)

/-- Who is parked after a turn is the mover, or was parked before. -/
theorem Turn.parked (h : Turn past past' s s' i p t) {j : Nat}
    (hj : s'.procs[j]? = some .parked) : j = i ∧ t = .parked ∨ j ≠ i ∧ s.procs[j]? = some .parked := by
  rw [h.procs, List.getElem?_set] at hj
  split at hj
  case isTrue heq =>
    split at hj
    · exact .inl ⟨heq.symm, Option.some.inj hj⟩
    · simp at hj
  case isFalse hne => exact .inr ⟨Ne.symm hne, hj⟩

/-! ## The invariant -/

/-- What holds of every state that is reached without a lost wakeup. -/
structure Waits (ns : List UInt16) (past : List Event) (s : State) : Prop extends
    Leased ns s, Balanced s.toInner (s.tally past) where
  registered : ∀ j, s.procs[j]? = some .parked → j ∈ s.waiters
  permit_idle : s.permit = true → s.waiters = []
  began : ∀ j, .advance j ∈ past → j < s.procs.length

theorem waits_init {inner : Inner} (hw : inner.waiters = []) (hl : inner.locked = false) :
    Waits inner.available [] (system inner).init where
  toLeased := leased_init hw
  toBalanced := by
    rw [balanced_iff]
    simp [system, State.tally, State.roles, hl, hw]
  registered := by simp [system]
  permit_idle _ := hw
  began := by simp

theorem Waits.of_turn (hs : Waits ns past s) (hl : Leased ns s') (h : Turn past past' s s' i p t)
    (hm : Move (s.tally past) s.toInner (p.role (decide (.advance i ∈ past))).toList
      (t.role (decide (.advance i ∈ past'))).toList s'.toInner)
    (hw : ∀ w ∈ s.waiters, w ≠ i → w ∈ s'.waiters) (ht : t = .parked → i ∈ s'.waiters)
    (hp : s'.permit = true → s'.waiters = []) : Waits ns past' s' where
  toLeased := hl
  toBalanced := hm.balanced hs.toBalanced h.tally
  registered j hj := by
    rcases h.parked hj with ⟨rfl, heq⟩ | ⟨hne, hj⟩
    · exact ht heq
    · exact hw j (hs.registered j hj) hne
  permit_idle := hp
  began := h.began hs.began

/-- A turn that leaves the `Notify` alone. -/
theorem Waits.of_queue (hs : Waits ns past s) (hl : Leased ns s') (h : Turn past past' s s' i p t)
    (hm : Move (s.tally past) s.toInner (p.role (decide (.advance i ∈ past))).toList
      (t.role (decide (.advance i ∈ past'))).toList s'.toInner)
    (hw : s'.waiters = s.waiters) (hp : s'.permit = s.permit) (ht : t ≠ .parked) :
    Waits ns past' s' := by
  refine hs.of_turn hl h hm (fun w hmem _ => hw ▸ hmem) (fun heq => absurd heq ht) ?_
  rw [hw, hp]
  exact hs.permit_idle

/-! ## `notify_one` -/

theorem notifyOne_nil (hw : s.waiters = []) : s.notifyOne = { s with permit := true } := by
  simp [State.notifyOne, hw]

theorem notifyOne_cons {w : Nat} {ws : List Nat} (hw : s.waiters = w :: ws) :
    s.notifyOne = ({ s with waiters := ws } : State).goto w .woken := by
  simp [State.notifyOne, hw]

theorem inner_of_permit (hp : s.permit = true) :
    ({ s.toInner with permit := true } : Inner) = s.toInner := by
  rw [← hp]

theorem Waits.permit_of_waiters {w : Nat} {ws : List Nat} (hs : Waits ns past s)
    (hw : s.waiters = w :: ws) : s.permit = false := by
  refine Bool.eq_false_iff.mpr fun hp => ?_
  simp [hs.permit_idle hp] at hw

/-- Process `i` notifies a waiter, and goes on. -/
theorem Waits.of_wake {w : Nat} {ws : List Nat} (hs : Waits ns past s) (hl : Leased ns s')
    (hw : s.waiters = w :: ws) (h : Turn past past' s.notifyOne s' i p t)
    (hinner : s'.toInner = { s.toInner with waiters := ws })
    (hm : Move (s.tally past) s.toInner (p.role (decide (.advance i ∈ past))).toList
      ((t.role (decide (.advance i ∈ past'))).toList ++ [.coming]) s'.toInner)
    (ht : t ≠ .parked) : Waits ns past' s' := by
  have hwake : Turn past past s s.notifyOne w .parked .woken :=
    ⟨hs.parked w (by simp [hw]), by rw [notifyOne_cons hw]; rfl, fun _ _ => .rfl⟩
  refine ⟨hl, hm.balanced hs.toBalanced fun role => ?_, ?_, ?_, h.began (hwake.began hs.began)⟩
  · -- the waiter takes a role, and the mover changes its own
    have h1 : s.notifyOne.tally past role + 0 = s.tally past role + [Role.coming].count role :=
      hwake.tally role
    have h2 := h.tally role
    rw [List.count_append]
    omega
  · intro j hj
    rcases h.parked hj with ⟨-, heq⟩ | ⟨-, hj⟩
    · exact absurd heq ht
    · rcases hwake.parked hj with ⟨-, heq⟩ | ⟨hne, hj⟩
      · simp at heq
      · have hmem := hs.registered j hj
        rw [hw, List.mem_cons] at hmem
        rw [hinner]
        exact hmem.resolve_left hne
  · intro hp
    rw [hinner, hs.permit_of_waiters hw] at hp
    simp at hp

theorem waits_notifyOne {r : Releaser} (hs : Waits ns past s) (hl : Leased ns s')
    (hi : s.procs[i]? = some (.notifyOne r)) (hlose : ¬ LosesWakeup past s (.advance i))
    (h : s.advance i (.notifyOne r) = some s') : Waits ns (past ++ [.advance i]) s' := by
  obtain rfl := Option.some.inj h
  cases hw : s.waiters with
  | cons w ws =>
    have hpermit := hs.permit_of_waiters hw
    have hstart := hs.notifyOne_procs hi (by simp)
    refine hs.of_wake hl hw (.advance hstart rfl) ?_ ?_ (by simp)
    · rw [notifyOne_cons hw]
      rfl
    · rw [notifyOne_cons hw]
      exact .wake hpermit hw
  | nil =>
    have hturn : Turn past (past ++ [.advance i]) s (s.notifyOne.goto i (.unlock r)) i _ _ :=
      .advance hi (by rw [notifyOne_nil hw]; rfl)
    refine hs.of_turn hl hturn ?_ (by simp [hw]) (by simp) fun _ => by rw [notifyOne_nil hw]; exact hw
    rw [notifyOne_nil hw]
    cases hpermit : s.permit with
    | false => exact .store hpermit hw
    | true =>
      show Move _ s.toInner _ _ { s.toInner with permit := true }
      rw [inner_of_permit hpermit]
      refine .lose hpermit hw fun hr => ?_
      by_contra hlt
      exact hlose ⟨roles_getElem? _ hi, hpermit, hr, by omega⟩

/-! ## Every step -/

theorem free_of_lock (h : s.lock = some s') : s.locked = false := by
  unfold State.lock at h
  split at h
  · simp at h
  · simpa using ‹¬ s.locked = true›

theorem waits_acquireLock (hs : Waits ns past s) (hl : Leased ns s')
    (hi : s.procs[i]? = some .acquireLock) (h : s.advance i .acquireLock = some s') :
    Waits ns (past ++ [.advance i]) s' := by
  obtain ⟨s₁, hlock, rfl⟩ := Option.map_eq_some_iff.mp h
  have hfree := free_of_lock hlock
  obtain rfl := lock_eq hlock
  refine hs.of_queue (t := .popFront) hl (.advance hi rfl) ?_ rfl rfl (by simp)
  by_cases hm : .advance i ∈ past
  · simp only [Phase.role, hm, decide_true, if_true]
    exact .arrive hfree
  · simp only [Phase.role, hm, decide_false, Bool.false_eq_true, if_false]
    exact .enter hfree

theorem waits_popFront (hs : Waits ns past s) (hl : Leased ns s')
    (hi : s.procs[i]? = some .popFront) (h : s.advance i .popFront = some s') :
    Waits ns (past ++ [.advance i]) s' := by
  simp only [State.advance] at h
  split at h
  case h_1 qnum rest ha =>
    obtain rfl := Option.some.inj h
    exact hs.of_queue hl (.advance hi rfl) (.pop ha) rfl rfl
      (by simp)
  case h_2 ha =>
    obtain rfl := Option.some.inj h
    exact hs.of_queue hl (.advance hi rfl) (.findEmpty ha) rfl
      rfl (by simp)

theorem waits_register (hs : Waits ns past s) (hl : Leased ns s')
    (hi : s.procs[i]? = some .register) (h : s.advance i .register = some s') :
    Waits ns (past ++ [.advance i]) s' := by
  simp only [State.advance] at h
  split at h
  case isTrue hp =>
    obtain rfl := Option.some.inj h
    refine hs.of_turn (t := .acquireLock) hl (.advance hi rfl) ?_ (fun w hw _ => hw) (by simp)
      (by simp [State.goto])
    have hm : .advance i ∈ past ++ [.advance i] := by simp
    simp only [Phase.role, hm, decide_true, if_true]
    exact .takePermit hp
  case isFalse hp =>
    obtain rfl := Option.some.inj h
    refine hs.of_turn hl (.advance hi rfl) (.park i) ?_ ?_ ?_
    · exact fun w hw _ => List.mem_append_left _ hw
    · exact fun _ => List.mem_append_right _ (by simp)
    · exact fun hpermit => absurd hpermit hp

/-- The number that comes back is not in the queue, so the release does notify. -/
theorem waits_pushBack {r : Releaser} (hns : ns.Nodup) (hs : Waits ns past s) (hl : Leased ns s')
    (hi : s.procs[i]? = some (.pushBack r)) (h : s.advance i (.pushBack r) = some s') :
    Waits ns (past ++ [.advance i]) s' := by
  have hr : (Phase.pushBack r).qnum? = some r.qnum := by cases r <;> rfl
  simp only [State.advance, if_neg (hs.not_mem_available hns hi hr), Option.some.injEq] at h
  subst h
  exact hs.of_queue hl (.advance hi rfl) (.push r.qnum) rfl rfl
    (by simp)

theorem waits_advance (hns : ns.Nodup) (hs : Waits ns past s) (hi : s.procs[i]? = some p)
    (hlose : ¬ LosesWakeup past s (.advance i)) (h : s.advance i p = some s') :
    Waits ns (past ++ [.advance i]) s' := by
  have hl := leased_advance hs.toLeased hns hi h
  cases p with
  | acquireLock => exact waits_acquireLock hs hl hi h
  | popFront => exact waits_popFront hs hl hi h
  | register => exact waits_register hs hl hi h
  | pushBack r => exact waits_pushBack hns hs hl hi h
  | notifyOne r => exact waits_notifyOne hs hl hi hlose h
  | dropGuard =>
    obtain rfl := Option.some.inj h
    exact hs.of_queue hl (.advance hi rfl) .goWait rfl rfl (by simp)
  | woken =>
    obtain rfl := Option.some.inj h
    refine hs.of_queue (t := .acquireLock) hl (.advance hi rfl) ?_ rfl rfl (by simp)
    have hm : .advance i ∈ past ++ [.advance i] := by simp
    simp only [Phase.role, hm, decide_true, if_true]
    exact .quiet _
  | returning lease =>
    obtain rfl := Option.some.inj h
    exact hs.of_queue hl (.advance hi rfl) .leave rfl rfl (by simp)
  | releaseLock r =>
    obtain ⟨s₁, hlock, rfl⟩ := Option.map_eq_some_iff.mp h
    have hfree := free_of_lock hlock
    obtain rfl := lock_eq hlock
    exact hs.of_queue hl (.advance hi rfl) (.bring hfree) rfl rfl (by simp)
  | unlock r =>
    cases r with
    | release lease =>
      obtain rfl := Option.some.inj h
      exact hs.of_queue (t := .setReleased lease) hl (.advance hi rfl) .leave rfl rfl
        (by simp)
    | dropTask q =>
      obtain rfl := Option.some.inj h
      exact hs.of_queue (t := .finished) hl (.advance hi rfl) .leave rfl rfl (by simp)
  | setReleased lease =>
    obtain rfl := Option.some.inj h
    exact hs.of_queue (t := .finished) hl (.advance hi rfl) (.quiet _) rfl rfl (by simp)
  | parked | held lease | finished => simp [State.advance] at h

/-- A dropped call that was notified and not polled since passes its notification on. -/
theorem waits_cancelWoken (hs : Waits ns past s) (hl : Leased ns s')
    (hi : s.procs[i]? = some .woken) (hlose : ¬ LosesWakeup past s (.cancel i))
    (h : s.cancel i .woken = some s') : Waits ns (past ++ [.cancel i]) s' := by
  obtain rfl := Option.some.inj h
  cases hw : s.waiters with
  | cons w ws =>
    have hpermit := hs.permit_of_waiters hw
    have hstart := hs.notifyOne_procs hi (by simp)
    refine hs.of_wake (t := .finished) hl hw (.of_event hstart rfl (by simp)) ?_ ?_ (by simp)
    · rw [notifyOne_cons hw]
      rfl
    · rw [notifyOne_cons hw]
      exact .passOn hpermit hw
  | nil =>
    have hturn : Turn past (past ++ [.cancel i]) s (s.notifyOne.goto i .finished) i _ _ :=
      .of_event hi (by rw [notifyOne_nil hw]; rfl) (by simp)
    refine hs.of_turn hl hturn ?_ (by simp [hw]) (by simp) fun _ => by rw [notifyOne_nil hw]; exact hw
    rw [notifyOne_nil hw]
    cases hpermit : s.permit with
    | false => exact .putBack hpermit hw
    | true =>
      show Move _ s.toInner _ _ { s.toInner with permit := true }
      rw [inner_of_permit hpermit]
      exact .giveUp fun hspare => hlose ⟨roles_getElem? _ hi, fun _ => hpermit, hspare⟩

theorem waits_cancel (hs : Waits ns past s) (hi : s.procs[i]? = some p)
    (hlose : ¬ LosesWakeup past s (.cancel i)) (h : s.cancel i p = some s') :
    Waits ns (past ++ [.cancel i]) s' := by
  have hl := leased_cancel hs.toLeased hi h
  have hrole := roles_getElem? past hi
  cases p with
  | acquireLock =>
    obtain rfl := Option.some.inj h
    refine hs.of_queue (t := .finished) hl (.of_event hi rfl (by simp)) ?_ rfl rfl (by simp)
    by_cases hm : .advance i ∈ past
    · simp only [Phase.role, hm, decide_true, if_true] at hrole ⊢
      exact .giveUp fun hspare => hlose ⟨hrole, by simp [hi], hspare⟩
    · simp only [Phase.role, hm, decide_false, Bool.false_eq_true, if_false]
      exact .quiet _
  | parked =>
    obtain rfl := Option.some.inj h
    refine hs.of_turn (t := .finished) hl (.of_event hi rfl (by simp)) (.unpark i) ?_ (by simp) ?_
    · exact fun w hw hne => (List.mem_erase_of_ne hne).mpr hw
    · intro hp
      show s.waiters.erase i = []
      rw [hs.permit_idle hp]
      rfl
  | woken => exact waits_cancelWoken hs hl hi hlose h
  | releaseLock r =>
    cases r with
    | release lease =>
      obtain rfl := Option.some.inj h
      have hdrop := QueueLease.drop_eq (unreleased_of_lease hs.toLeased hi rfl)
      rw [hdrop] at hl ⊢
      exact hs.of_queue hl (.of_event hi rfl (by simp)) (.quiet _) rfl rfl (by simp)
    | dropTask q => simp [State.cancel] at h
  | _ => simp [State.cancel] at h

theorem waits_release (hs : Waits ns past s) (hi : s.procs[i]? = some p)
    (h : s.release i p = some s') : Waits ns (past ++ [.release i]) s' := by
  have hl := leased_release hs.toLeased hi h
  cases p with
  | held lease =>
    have hflag := unreleased_of_lease hs.toLeased hi rfl
    simp only [State.release, hflag, Bool.false_eq_true, if_false, Option.some.injEq] at h
    subst h
    exact hs.of_queue hl (.of_event hi rfl (by simp)) (.quiet _) rfl rfl (by simp)
  | _ => simp [State.release] at h

theorem waits_dropLease (hs : Waits ns past s) (hi : s.procs[i]? = some p)
    (h : s.dropLease i p = some s') : Waits ns (past ++ [.drop i]) s' := by
  have hl := leased_dropLease hs.toLeased hi h
  cases p with
  | held lease =>
    obtain rfl := Option.some.inj h
    have hdrop := QueueLease.drop_eq (unreleased_of_lease hs.toLeased hi rfl)
    rw [hdrop] at hl ⊢
    exact hs.of_queue hl (.of_event hi rfl (by simp)) (.quiet _) rfl rfl (by simp)
  | _ => simp [State.dropLease] at h

/-- A new call has no role: its number is not in the past. -/
theorem waits_acquire (hs : Waits ns past s) :
    Waits ns (past ++ [.acquire]) { s with procs := s.procs ++ [.acquireLock] } where
  toLeased := leased_acquire hs.toLeased
  toBalanced := by
    refine (Move.quiet []).balanced hs.toBalanced fun role => ?_
    have hnew : Event.advance s.procs.length ∉ past := fun hmem => (hs.began _ hmem).ne rfl
    simp [State.tally, State.roles, List.mapIdx_append, hnew, Phase.role]
  registered j hj := by
    rw [List.getElem?_append] at hj
    split at hj
    · exact hs.registered j hj
    · simp [List.getElem?_singleton] at hj
  permit_idle := hs.permit_idle
  began j hj := by
    have hmem : .advance j ∈ past := by simpa using hj
    rw [List.length_append]
    exact Nat.lt_add_right _ (hs.began j hmem)

/-- Every step without a lost wakeup keeps the invariant. -/
theorem waits_step (hns : ns.Nodup) {e : Event} (hs : Waits ns past s)
    (hlose : ¬ LosesWakeup past s e) (h : step s e = some s') : Waits ns (past ++ [e]) s' := by
  cases e with
  | acquire =>
    obtain rfl := Option.some.inj h
    exact waits_acquire hs
  | advance i =>
    obtain ⟨p, hi, h⟩ := Option.bind_eq_some_iff.mp h
    exact waits_advance hns hs hi hlose h
  | cancel i =>
    obtain ⟨p, hi, h⟩ := Option.bind_eq_some_iff.mp h
    exact waits_cancel hs hi hlose h
  | release i =>
    obtain ⟨p, hi, h⟩ := Option.bind_eq_some_iff.mp h
    exact waits_release hs hi h
  | drop i =>
    obtain ⟨p, hi, h⟩ := Option.bind_eq_some_iff.mp h
    exact waits_dropLease hs hi h

/-! ## Runs -/

/-- Whoever is on the way to the queue was woken, or has taken a step and awaits the lock. -/
theorem coming_eq_zero (hwoken : .woken ∉ s.procs)
    (hlock : ∀ j < s.procs.length, s.procs[j]? = some .acquireLock → .advance j ∉ past) :
    s.tally past .coming = 0 := by
  refine List.count_eq_zero.mpr fun hmem => ?_
  obtain ⟨j, hj, hrole⟩ := List.mem_mapIdx.mp hmem
  have hget : s.procs[j]? = some s.procs[j] := List.getElem?_eq_getElem hj
  cases hp : s.procs[j] with
  | woken => exact hwoken (hp ▸ List.getElem_mem hj)
  | acquireLock => simp [hp, Phase.role, hlock j hj (hp ▸ hget)] at hrole
  | _ => simp [hp, Phase.role] at hrole

theorem Waits.nobody_stranded (hs : Waits ns past s) : ¬ Stranded past s := by
  rintro ⟨hparked, hfree, hpermit, hlocked, hwoken, hlock⟩
  have hcoming := coming_eq_zero hwoken hlock
  obtain ⟨hone, -, hcovered⟩ := balanced_iff.mp hs.toBalanced
  rw [hlocked, Bool.toNat_false] at hone
  rw [hpermit, Bool.toNat_false] at hcovered
  obtain ⟨j, hj⟩ := List.mem_iff_getElem?.mp hparked
  have hwaiters := List.length_pos_of_mem (hs.registered j hj)
  have hnumbers := List.length_pos_iff.mpr hfree
  omega

theorem new_available_nodup {baseQnum qnumCount : UInt16} {inner : Inner}
    (hnew : QueueAllocator.new baseQnum qnumCount = .ok inner) : inner.available.Nodup := by
  unfold QueueAllocator.new at hnew
  split at hnew
  · simp at hnew
  · obtain rfl := Except.ok.inj hnew
    refine List.Nodup.map_on (fun m hm n hn heq => ?_) List.nodup_range
    -- `u16` wraps, but there are no more numbers than `u16` has
    rw [List.mem_range] at hm hn
    have hlt := qnumCount.toNat_lt
    have hnat := congrArg UInt16.toNat ((UInt16.add_right_inj baseQnum).mp heq)
    rw [UInt16.toNat_ofNat', UInt16.toNat_ofNat'] at hnat
    omega

/-- **Without a lost wakeup nobody is stranded**, in any interleaving of any number of calls. -/
theorem not_stranded {baseQnum qnumCount : UInt16} {inner : Inner} {es : List Event} {s : State}
    (hnew : QueueAllocator.new baseQnum qnumCount = .ok inner)
    (h : (system inner).run es = some s)
    (hlose : (system inner).traced.Along (fun (s, past) e => ¬ LosesWakeup past s e) es) :
    ¬ Stranded es s := by
  have hns := new_available_nodup hnew
  have hinit : Waits inner.available [] (system inner).init :=
    waits_init (new_waiters hnew) (new_locked hnew)
  have hs := System.along_invariant (S := (system inner).traced)
    (I := fun (s, past) => Waits inner.available past s) hinit ?_ (System.run_traced h) hlose
  · exact hs.nobody_stranded
  · rintro ⟨s, past⟩ e ⟨s', past'⟩ hs hlose he
    obtain ⟨s₁, hs₁, heq⟩ := Option.map_eq_some_iff.mp he
    obtain ⟨rfl, rfl⟩ := Prod.mk.inj heq
    exact waits_step hns hs hlose hs₁

/-- Two calls hold both numbers, and two more leave the empty queue to wait. -/
def twoHoldTwoWait : List Event :=
  [.acquire, .acquire, .advance 0, .advance 0, .advance 0, .advance 1, .advance 1, .advance 1,
    .acquire, .acquire, .advance 2, .advance 2, .advance 2, .advance 3, .advance 3, .advance 3]

/-- Process `i` gives its number back. -/
def releaseOf (i : Nat) : List Event :=
  [.release i, .advance i, .advance i, .advance i, .advance i]

/-- Both registered before the second release: the first takes the permit, the second is woken. -/
theorem not_stranded_registered :
    let es := twoHoldTwoWait ++ releaseOf 0 ++ [.advance 2, .advance 3] ++ releaseOf 1 ++
      [.advance 2, .advance 2, .advance 2]
    ¬ Stranded es {
      available := [201], locked := false, permit := false, waiters := []
      procs := [.setReleased ⟨200, false⟩, .setReleased ⟨201, false⟩, .held ⟨200, false⟩,
        .woken] } :=
  @not_stranded 200 2 ⟨[200, 201], false, false, []⟩ _ _ (by decide) (by decide) (by decide)

/-- Both releases come before the registrations: the second notification is lost. The first call
takes the permit and a number, and the other parks while a number is free. -/
theorem stranded_unregistered :
    ¬ ∀ (baseQnum qnumCount : UInt16) (inner : Inner) (es : List Event) (s : State),
      QueueAllocator.new baseQnum qnumCount = .ok inner → (system inner).run es = some s →
        ¬ Stranded es s := by
  intro h
  let es := twoHoldTwoWait ++ releaseOf 0 ++ releaseOf 1 ++
    [.advance 2, .advance 3, .advance 2, .advance 2, .advance 2]
  refine h 200 2 ⟨[200, 201], false, false, []⟩ es {
    available := [201], locked := false, permit := false, waiters := [3]
    procs := [.setReleased ⟨200, false⟩, .setReleased ⟨201, false⟩, .held ⟨200, false⟩,
      .parked] } ?_ ?_ ?_
  · decide
  · decide
  · decide

end ZapretChecker.Queue
