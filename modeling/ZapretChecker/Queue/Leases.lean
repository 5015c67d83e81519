import Mathlib.Data.List.Nodup
import ZapretChecker.Lib.Holdings
import ZapretChecker.Queue.Model

/-!
# Every queue number has one place

A number is in the free queue, in one live lease, or with one pending release task. `Phase.qnum?`
is the number a process has taken from the queue and not pushed back.

* `Leased` — the invariant
* `leased_step` — every step keeps it
* `qnums_exactly_once` — the accounting, in every reachable state
-/

namespace ZapretChecker.Queue

open StepSystem Holdings

/-- While `base + count` stays in range, `base_qnum + n` does not wrap. -/
theorem new_available {baseQnum qnumCount : UInt16} {inner : Inner}
    (h : baseQnum.toNat + qnumCount.toNat ≤ 65536)
    (hnew : QueueAllocator.new baseQnum qnumCount = .ok inner) :
    inner.available.map UInt16.toNat = List.range' baseQnum.toNat qnumCount.toNat := by
  unfold QueueAllocator.new at hnew
  split at hnew
  · simp at hnew
  · obtain rfl := Except.ok.inj hnew
    rw [List.range'_eq_map_range, List.map_map]
    refine List.map_congr_left fun n hn => ?_
    rw [List.mem_range] at hn
    rw [Function.comp_apply, UInt16.toNat_add, UInt16.toNat_ofNat']
    omega

theorem new_waiters {baseQnum qnumCount : UInt16} {inner : Inner}
    (hnew : QueueAllocator.new baseQnum qnumCount = .ok inner) : inner.waiters = [] := by
  unfold QueueAllocator.new at hnew
  split at hnew
  · simp at hnew
  · obtain rfl := Except.ok.inj hnew
    rfl

theorem new_locked {baseQnum qnumCount : UInt16} {inner : Inner}
    (hnew : QueueAllocator.new baseQnum qnumCount = .ok inner) : inner.locked = false := by
  unfold QueueAllocator.new at hnew
  split at hnew
  · simp at hnew
  · obtain rfl := Except.ok.inj hnew
    rfl

/-! ## What a process holds -/

/-- The number a process has taken from the queue and not pushed back. -/
def Phase.qnum? (phase : Phase) : Option UInt16 :=
  (phase.lease?.map (·.qnum)) <|> phase.pending?

theorem Phase.qnum?_of_lease {p : Phase} {lease : QueueLease} (h : p.lease? = some lease) :
    p.qnum? = some lease.qnum := by
  simp [Phase.qnum?, h]

/-- A live lease has its flag unset. -/
def Phase.Unreleased (phase : Phase) : Prop :=
  ∀ lease, phase.lease? = some lease → lease.released = false

/-- The numbers in the hands of the processes. -/
def State.taken (s : State) : List UInt16 := s.procs.filterMap Phase.qnum?

/-- They are in live leases or in pending release tasks. -/
theorem taken_perm (s : State) :
    s.taken.Perm (s.liveLeases.map (·.qnum) ++ s.pendingReleases) := by
  have h : ∀ p : Phase, p.lease?.map (·.qnum) = none ∨ p.pending? = none := by
    intro p
    cases p with
    | releaseLock r => cases r <;> simp [Phase.lease?, Phase.pending?]
    | pushBack r => cases r <;> simp [Phase.lease?, Phase.pending?]
    | _ => simp [Phase.pending?]
  have hp := perm_filterMap_orElse _ _ h s.procs
  rwa [← List.map_filterMap] at hp

/-- Dropping an unreleased lease leaves its number to the release task. -/
theorem QueueLease.drop_eq {lease : QueueLease} (h : lease.released = false) :
    lease.drop = .releaseLock (.dropTask lease.qnum) := by
  simp [QueueLease.drop, h]

/-! ## The invariant -/

/-- What holds of every reachable state of an allocator of the numbers `ns`. -/
structure Leased (ns : List UInt16) (s : State) : Prop where
  conserved : (s.available ++ s.taken).Perm ns
  unreleased : ∀ p ∈ s.procs, p.Unreleased
  /-- A registered waiter is parked, so a notification finds it with empty hands. -/
  parked : ∀ w ∈ s.waiters, s.procs[w]? = some .parked
  waiters_nodup : s.waiters.Nodup

theorem leased_init {inner : Inner} (h : inner.waiters = []) :
    Leased inner.available (system inner).init where
  conserved := by simp [system, State.taken]
  unreleased := by simp [system]
  parked := by simp [system, h]
  waiters_nodup := by simp [system, h]

variable {ns : List UInt16} {s s' : State} {i : Nat} {p t : Phase}

/-- Process `i` goes from `p` to `t`: the free queue changes by what it took or pushed back, and
the waiters by itself. -/
theorem Leased.of_set (hs : Leased ns s) (hi : s.procs[i]? = some p)
    (hprocs : s'.procs = s.procs.set i t) (hu : t.Unreleased)
    (hq : (s'.available ++ t.qnum?.toList).Perm (s.available ++ p.qnum?.toList))
    (hw : ∀ w ∈ s'.waiters, w ≠ i ∧ w ∈ s.waiters ∨ w = i ∧ t = .parked)
    (hn : s'.waiters.Nodup) : Leased ns s' where
  conserved := by
    have hset := perm_filterMap_set Phase.qnum? hi t
    have htaken : (p.qnum?.toList ++ s'.taken).Perm (t.qnum?.toList ++ s.taken) := by
      rw [State.taken, hprocs]
      exact hset
    refine List.Perm.trans ?_ hs.conserved
    refine (List.perm_append_left_iff p.qnum?.toList).mp ?_
    calc p.qnum?.toList ++ (s'.available ++ s'.taken)
      _ |>.Perm (s'.available ++ (p.qnum?.toList ++ s'.taken)) := List.perm_append_comm_assoc ..
      _ |>.Perm (s'.available ++ (t.qnum?.toList ++ s.taken)) := htaken.append_left _
      _ |>.Perm ((s'.available ++ t.qnum?.toList) ++ s.taken) := by rw [List.append_assoc]
      _ |>.Perm ((s.available ++ p.qnum?.toList) ++ s.taken) := hq.append_right _
      _ |>.Perm (s.available ++ (p.qnum?.toList ++ s.taken)) := by rw [List.append_assoc]
      _ |>.Perm (p.qnum?.toList ++ (s.available ++ s.taken)) := List.perm_append_comm_assoc ..
  unreleased q hq := by
    rw [hprocs] at hq
    rcases List.mem_or_eq_of_mem_set hq with hq | rfl
    · exact hs.unreleased q hq
    · exact hu
  parked w hw' := by
    have hlt : i < s.procs.length := (List.getElem?_eq_some_iff.mp hi).1
    rw [hprocs]
    rcases hw w hw' with ⟨hne, hmem⟩ | ⟨rfl, rfl⟩
    · rw [List.getElem?_set_ne (Ne.symm hne)]
      exact hs.parked w hmem
    · exact List.getElem?_set_self hlt
  waiters_nodup := hn

/-- Who is not parked is not a waiter. -/
theorem Leased.ne_of_mem (hs : Leased ns s) (hi : s.procs[i]? = some p) (hp : p ≠ .parked) :
    ∀ w ∈ s.waiters, w ≠ i := by
  rintro w hw rfl
  exact hp (Option.some.inj (hi.symm.trans (hs.parked w hw)))

/-- A process that is not parked goes on. -/
theorem Leased.move (hs : Leased ns s) (hi : s.procs[i]? = some p) (hp : p ≠ .parked)
    (hprocs : s'.procs = s.procs.set i t) (hw : s'.waiters = s.waiters) (hu : t.Unreleased)
    (hq : (s'.available ++ t.qnum?.toList).Perm (s.available ++ p.qnum?.toList)) :
    Leased ns s' := by
  refine hs.of_set hi hprocs hu hq ?_ (hw ▸ hs.waiters_nodup)
  intro w hmem
  rw [hw] at hmem
  exact .inl ⟨hs.ne_of_mem hi hp w hmem, hmem⟩

/-- It goes on with the same lease and the same number in its hands. -/
theorem Leased.keep (hs : Leased ns s) (hi : s.procs[i]? = some p) (hp : p ≠ .parked)
    (hprocs : s'.procs = s.procs.set i t) (hw : s'.waiters = s.waiters)
    (ha : s'.available = s.available) (hl : t.lease? = p.lease?)
    (hpending : t.pending? = p.pending?) : Leased ns s' := by
  refine hs.move hi hp hprocs hw ?_ ?_
  · intro lease hlease
    rw [hl] at hlease
    exact hs.unreleased p (List.mem_of_getElem? hi) lease hlease
  · rw [ha, Phase.qnum?, Phase.qnum?, hl, hpending]

/-- It goes on with nothing in its hands, before and after. -/
theorem Leased.idle (hs : Leased ns s) (hi : s.procs[i]? = some p) (hp : p ≠ .parked)
    (hprocs : s'.procs = s.procs.set i t) (hw : s'.waiters = s.waiters)
    (ha : s'.available = s.available) (hq : p.qnum? = none) (hq' : t.qnum? = none) :
    Leased ns s' := by
  refine hs.move hi hp hprocs hw ?_ (by rw [ha, hq, hq'])
  intro lease hlease
  rw [Phase.qnum?_of_lease hlease] at hq'
  simp at hq'

/-- `notify_one` moves a parked process, which holds nothing. -/
theorem Leased.notifyOne (hs : Leased ns s) : Leased ns s.notifyOne := by
  unfold State.notifyOne
  split
  case h_1 => exact ⟨hs.conserved, hs.unreleased, hs.parked, hs.waiters_nodup⟩
  case h_2 w ws hws =>
    have hnodup := hs.waiters_nodup
    rw [hws, List.nodup_cons] at hnodup
    have hw : s.procs[w]? = some .parked := hs.parked w (by simp [hws])
    refine hs.of_set (t := .woken) hw rfl (by simp [Phase.Unreleased, Phase.lease?]) .rfl ?_
      hnodup.2
    intro v hv
    have hne : v ≠ w := fun he => hnodup.1 (he ▸ hv)
    exact .inl ⟨hne, by rw [hws]; exact List.mem_cons_of_mem _ hv⟩

/-- `notify_one` leaves alone who is not parked. -/
theorem Leased.notifyOne_procs (hs : Leased ns s) (hi : s.procs[i]? = some p)
    (hp : p ≠ .parked) : s.notifyOne.procs[i]? = some p := by
  unfold State.notifyOne
  split
  case h_1 => exact hi
  case h_2 w ws hws =>
    have hne : w ≠ i := hs.ne_of_mem hi hp w (by simp [hws])
    rw [State.goto, List.getElem?_set_ne hne]
    exact hi

/-! ## Every step -/

theorem lock_eq (h : s.lock = some s') : s' = { s with locked := true } := by
  unfold State.lock at h
  split at h
  · simp at h
  · exact (Option.some.inj h).symm

theorem unreleased_of_lease {lease : QueueLease} (hs : Leased ns s) (hi : s.procs[i]? = some p)
    (hp : p.lease? = some lease) : lease.released = false :=
  hs.unreleased p (List.mem_of_getElem? hi) lease hp

/-- A live lease that is dropped leaves its number to the release task. -/
theorem Leased.dropLease {lease : QueueLease} (hs : Leased ns s) (hi : s.procs[i]? = some p)
    (hp : p ≠ .parked) (hlease : p.lease? = some lease) : Leased ns (s.goto i lease.drop) := by
  have hdrop := QueueLease.drop_eq (unreleased_of_lease hs hi hlease)
  refine hs.move (t := lease.drop) hi hp rfl rfl ?_ ?_
  · simp [hdrop, Phase.Unreleased, Phase.lease?]
  · rw [Phase.qnum?_of_lease hlease, hdrop]
    rfl

/-- `notify_one`, and then process `i` goes on with nothing in its hands. -/
theorem Leased.notifyOne_idle (hs : Leased ns s) (hi : s.procs[i]? = some p) (hp : p ≠ .parked)
    (hq : p.qnum? = none) (hq' : t.qnum? = none) : Leased ns (s.notifyOne.goto i t) :=
  hs.notifyOne.idle (hs.notifyOne_procs hi hp) hp rfl rfl rfl hq hq'

theorem leased_popFront (hs : Leased ns s) (hi : s.procs[i]? = some .popFront)
    (h : s.advance i .popFront = some s') : Leased ns s' := by
  simp only [State.advance] at h
  split at h
  case h_1 qnum rest havail =>
    obtain rfl := Option.some.inj h
    refine hs.move hi (by simp) rfl rfl (by simp [Phase.Unreleased, Phase.lease?]) ?_
    -- the number leaves the front of the queue
    show (rest ++ [qnum]).Perm (s.available ++ [])
    rw [havail, List.append_nil]
    exact List.perm_append_comm
  case h_2 =>
    obtain rfl := Option.some.inj h
    exact hs.idle hi (by simp) rfl rfl rfl rfl rfl

theorem leased_register (hs : Leased ns s) (hi : s.procs[i]? = some .register)
    (h : s.advance i .register = some s') : Leased ns s' := by
  simp only [State.advance] at h
  split at h
  · obtain rfl := Option.some.inj h
    exact hs.idle (t := .acquireLock) hi (by simp) rfl rfl rfl rfl rfl
  · obtain rfl := Option.some.inj h
    have hne := hs.ne_of_mem hi (by simp)
    refine hs.of_set (t := .parked) hi rfl (by simp [Phase.Unreleased, Phase.lease?]) .rfl ?_ ?_
    · intro w hw
      rcases List.mem_append.mp hw with hw | hw
      · exact .inl ⟨hne w hw, hw⟩
      · exact .inr ⟨List.mem_singleton.mp hw, rfl⟩
    · refine List.nodup_append_comm.mp (List.nodup_cons.mpr ⟨?_, hs.waiters_nodup⟩)
      exact fun hmem => hne i hmem rfl

/-- The membership test of `release_qnum` never fails: a number that is to be pushed back is not in
the queue. -/
theorem Leased.not_mem_available (hs : Leased ns s) (hns : ns.Nodup) {q : UInt16}
    (hi : s.procs[i]? = some p) (hq : p.qnum? = some q) : q ∉ s.available := by
  have htaken : q ∈ s.taken := List.mem_filterMap.mpr ⟨p, List.mem_of_getElem? hi, hq⟩
  have hnodup := hs.conserved.nodup_iff.mpr hns
  exact fun hmem => List.disjoint_of_nodup_append hnodup hmem htaken

theorem leased_pushBack {r : Releaser} (hs : Leased ns s) (hns : ns.Nodup)
    (hi : s.procs[i]? = some (.pushBack r)) (h : s.advance i (.pushBack r) = some s') :
    Leased ns s' := by
  have hr : (Phase.pushBack r).qnum? = some r.qnum := by cases r <;> rfl
  have hnot := hs.not_mem_available hns hi hr
  simp only [State.advance, if_neg hnot, Option.some.injEq] at h
  subst h
  refine hs.move hi (by simp) rfl rfl (by simp [Phase.Unreleased, Phase.lease?]) ?_
  rw [hr]
  show ((s.available ++ [r.qnum]) ++ []).Perm (s.available ++ [r.qnum])
  rw [List.append_nil]

theorem leased_advance (hs : Leased ns s) (hns : ns.Nodup) (hi : s.procs[i]? = some p)
    (h : s.advance i p = some s') : Leased ns s' := by
  cases p with
  | popFront => exact leased_popFront hs hi h
  | register => exact leased_register hs hi h
  | pushBack r => exact leased_pushBack hs hns hi h
  | acquireLock =>
    obtain ⟨s₁, hlock, rfl⟩ := Option.map_eq_some_iff.mp h
    obtain rfl := lock_eq hlock
    exact hs.idle (t := .popFront) hi (by simp) rfl rfl rfl rfl rfl
  | releaseLock r =>
    obtain ⟨s₁, hlock, rfl⟩ := Option.map_eq_some_iff.mp h
    obtain rfl := lock_eq hlock
    exact hs.keep (t := .pushBack r) hi (by simp) rfl rfl rfl (by cases r <;> rfl)
      (by cases r <;> rfl)
  | returning lease =>
    obtain rfl := Option.some.inj h
    exact hs.keep (t := .held lease) hi (by simp) rfl rfl rfl rfl rfl
  | dropGuard =>
    obtain rfl := Option.some.inj h
    exact hs.idle (t := .register) hi (by simp) rfl rfl rfl rfl rfl
  | woken =>
    obtain rfl := Option.some.inj h
    exact hs.idle (t := .acquireLock) hi (by simp) rfl rfl rfl rfl rfl
  | notifyOne r =>
    obtain rfl := Option.some.inj h
    exact hs.notifyOne_idle hi (by simp) rfl rfl
  | unlock r =>
    cases r with
    | release lease =>
      obtain rfl := Option.some.inj h
      exact hs.idle (t := .setReleased lease) hi (by simp) rfl rfl rfl rfl rfl
    | dropTask q =>
      obtain rfl := Option.some.inj h
      exact hs.idle (t := .finished) hi (by simp) rfl rfl rfl rfl rfl
  | setReleased lease =>
    obtain rfl := Option.some.inj h
    exact hs.idle (t := .finished) hi (by simp) rfl rfl rfl rfl rfl
  | parked | held lease | finished => simp [State.advance] at h

theorem leased_cancel (hs : Leased ns s) (hi : s.procs[i]? = some p)
    (h : s.cancel i p = some s') : Leased ns s' := by
  cases p with
  | acquireLock =>
    obtain rfl := Option.some.inj h
    exact hs.idle (t := .finished) hi (by simp) rfl rfl rfl rfl rfl
  | parked =>
    obtain rfl := Option.some.inj h
    refine hs.of_set (t := .finished) hi rfl (by simp [Phase.Unreleased, Phase.lease?]) .rfl ?_
      (hs.waiters_nodup.erase i)
    intro w hw
    obtain ⟨hne, hmem⟩ := hs.waiters_nodup.mem_erase_iff.mp hw
    exact .inl ⟨hne, hmem⟩
  | woken =>
    obtain rfl := Option.some.inj h
    exact hs.notifyOne_idle hi (by simp) rfl rfl
  | releaseLock r =>
    cases r with
    | release lease =>
      obtain rfl := Option.some.inj h
      exact hs.dropLease hi (by simp) rfl
    | dropTask q => simp [State.cancel] at h
  | _ => simp [State.cancel] at h

theorem leased_release (hs : Leased ns s) (hi : s.procs[i]? = some p)
    (h : s.release i p = some s') : Leased ns s' := by
  cases p with
  | held lease =>
    have hflag := unreleased_of_lease hs hi rfl
    simp only [State.release, hflag, Bool.false_eq_true, if_false, Option.some.injEq] at h
    subst h
    exact hs.keep (t := .releaseLock (.release lease)) hi (by simp) rfl rfl rfl rfl rfl
  | _ => simp [State.release] at h

theorem leased_dropLease (hs : Leased ns s) (hi : s.procs[i]? = some p)
    (h : s.dropLease i p = some s') : Leased ns s' := by
  cases p with
  | held lease =>
    obtain rfl := Option.some.inj h
    exact hs.dropLease hi (by simp) rfl
  | _ => simp [State.dropLease] at h

/-- A new call of `acquire` has nothing in its hands. -/
theorem leased_acquire (hs : Leased ns s) :
    Leased ns { s with procs := s.procs ++ [.acquireLock] } where
  conserved := by simpa [State.taken, Phase.qnum?, Phase.lease?, Phase.pending?] using hs.conserved
  unreleased p hp := by
    rcases List.mem_append.mp hp with hp | hp
    · exact hs.unreleased p hp
    · simp [List.mem_singleton.mp hp, Phase.Unreleased, Phase.lease?]
  parked w hw := by
    have hlt := (List.getElem?_eq_some_iff.mp (hs.parked w hw)).1
    rw [List.getElem?_append_left hlt]
    exact hs.parked w hw
  waiters_nodup := hs.waiters_nodup

theorem leased_step (hns : ns.Nodup) {e : Event} (hs : Leased ns s) (h : step s e = some s') :
    Leased ns s' := by
  cases e with
  | acquire =>
    obtain rfl := Option.some.inj h
    exact leased_acquire hs
  | advance i =>
    obtain ⟨p, hi, h⟩ := Option.bind_eq_some_iff.mp h
    exact leased_advance hs hns hi h
  | cancel i =>
    obtain ⟨p, hi, h⟩ := Option.bind_eq_some_iff.mp h
    exact leased_cancel hs hi h
  | release i =>
    obtain ⟨p, hi, h⟩ := Option.bind_eq_some_iff.mp h
    exact leased_release hs hi h
  | drop i =>
    obtain ⟨p, hi, h⟩ := Option.bind_eq_some_iff.mp h
    exact leased_dropLease hs hi h

/-! ## Runs -/

theorem leased_run {inner : Inner} (hns : inner.available.Nodup) (hw : inner.waiters = [])
    {es : List Event} (h : (system inner).run es = some s) : Leased inner.available s :=
  System.run_invariant (leased_init hw) (fun _ _ _ hs he => leased_step hns hs he) h

/-- **Every number has one place.** In every reachable state the free queue, the live leases and the
pending release tasks hold each number of the allocator exactly once. -/
theorem qnums_exactly_once {baseQnum qnumCount : UInt16} {inner : Inner} {es : List Event}
    {s : State} (hrange : baseQnum.toNat + qnumCount.toNat ≤ 65536)
    (hnew : QueueAllocator.new baseQnum qnumCount = .ok inner)
    (h : (system inner).run es = some s) :
    ((s.available ++ s.liveLeases.map (·.qnum) ++ s.pendingReleases).map UInt16.toNat).Perm
        (List.range' baseQnum.toNat qnumCount.toNat) ∧
      (s.liveLeases.map (·.qnum)).Nodup ∧
      (s.liveLeases = [] → s.pendingReleases = [] →
        (s.available.map UInt16.toNat).Perm (List.range' baseQnum.toNat qnumCount.toNat)) := by
  have hns := new_available hrange hnew
  have hnodup : inner.available.Nodup := by
    refine List.Nodup.of_map UInt16.toNat ?_
    rw [hns]
    exact List.nodup_range'
  have hs := leased_run hnodup (new_waiters hnew) h
  have hperm : (s.available ++ s.liveLeases.map (·.qnum) ++ s.pendingReleases).Perm
      inner.available := by
    rw [List.append_assoc]
    exact ((taken_perm s).symm.append_left _).trans hs.conserved
  have hall := hperm.map UInt16.toNat
  rw [hns] at hall
  refine ⟨hall, ?_, ?_⟩
  · have hlive := hperm.nodup_iff.mpr hnodup
    exact (List.nodup_append.mp (List.nodup_append.mp hlive).1).2.1
  · intro hlive hpending
    simpa [hlive, hpending] using hall

/-- Two probes: one lease is dropped, the release of the other is cancelled. -/
theorem qnums_exactly_once_two :
    let s : State := {
      available := [], locked := false, permit := false, waiters := []
      procs := [.releaseLock (.dropTask 200), .releaseLock (.dropTask 201)] }
    ((s.available ++ s.liveLeases.map (·.qnum) ++ s.pendingReleases).map UInt16.toNat).Perm
        (List.range' 200 2) ∧
      (s.liveLeases.map (·.qnum)).Nodup ∧
      (s.liveLeases = [] → s.pendingReleases = [] →
        (s.available.map UInt16.toNat).Perm (List.range' 200 2)) :=
  @qnums_exactly_once 200 2 ⟨[200, 201], false, false, []⟩
    [.acquire, .acquire, .advance 0, .advance 0, .advance 0, .advance 1, .advance 1, .advance 1,
      .drop 0, .release 1, .cancel 1]
    _ (by decide) (by decide) (by decide)

end ZapretChecker.Queue
