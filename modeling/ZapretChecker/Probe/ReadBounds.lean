import ZapretChecker.Probe.Chunks

/-!
# The bounds of the read loop

The loop of `http_over_stream` with what it asks for and how often it goes round, for any answers:
there is one for each round, without end. A subtraction that underflows and a loop that does not end
have no result.

* `iteration`, `countedLoop`, `streamReads` — the loop and the read before it
* `readLoop_eq_of_countedLoop` — it is the loop of the probe
* `streamReads_bounded` — it ends, within `max_read_bytes` rounds and bytes
-/

namespace ZapretChecker.Probe

/-! ## The loop, counted -/

/-- `a - b` of unsigned numbers. `none` is an underflow. -/
def checkedSub (a b : Nat) : Option Nat := if b ≤ a then some (a - b) else none

/-- A call of `stream.read` under `cancellable_timeout`. -/
structure ReadCall where
  /-- the length of the slice that is read into -/
  len : Nat
  timeoutMs : Nat
  deriving DecidableEq, Repr

/-- How an iteration ends. -/
inductive Iteration
  | ends (ending : ReadEnd)
  | reads (buf : List UInt8)

structure ReadRun where
  /-- the length of the buffer at the head of each iteration -/
  heads : List Nat
  calls : List ReadCall
  buf : List UInt8
  /-- `none` where the loop was not reached -/
  ending : Option ReadEnd
  deriving DecidableEq, Repr

variable (task : ProbeTask) (ctx : ProbeContext) (firstByteMs : Option Nat)

/-- The condition of the loop is false. -/
def LoopDone (buf : List UInt8) : Prop :=
  httpReadCriteriaMet (parseHttpResponseRead buf firstByteMs) task.request.method
      task.request.readMode task.request.minBodyBytes = true ∨
    maxReadBytes task.request ≤ buf.length

instance (buf : List UInt8) : Decidable (LoopDone task firstByteMs buf) :=
  inferInstanceAs (Decidable (_ ∨ _))

/-- The body of the loop: the call of `read`, if it comes to one, and how it ends. -/
def iteration (buf : List UInt8) (step : ReadStep) : Option (Option ReadCall × Iteration) :=
  let request := task.request
  let read := parseHttpResponseRead buf firstByteMs
  let timedOut : ReadEnd :=
    if httpTimeoutCanSucceed read request.method request.readMode request.minBodyBytes then .classify
    else .timeout
  if ctx.cancellation && step.cancelled then some (none, .ends .cancelled)
  else if task.timeouts.totalMs ≤ step.elapsedMs then some (none, .ends timedOut)
  else do
    let remaining ← checkedSub (maxReadBytes request) buf.length
    let left ← checkedSub task.timeouts.totalMs step.elapsedMs
    let call : ReadCall := { len := min remaining chunkSize, timeoutMs := max left 1 }
    match step.answer with
    | .ok (.ok data) =>
      if data.take call.len = [] then return (some call, .ends .classify)
      else return (some call, .reads (buf ++ data.take call.len))
    | .ok (.error e) =>
      if httpReadCriteriaMet read request.method request.readMode request.minBodyBytes then
        return (some call, .ends .classify)
      else return (some call, .ends (.reset e))
    | .error .timeout => return (some call, .ends timedOut)
    | .error .cancelled => return (some call, .ends .cancelled)

/-- At most `rounds` iterations; the next one is number `i`. -/
def countedLoop (answers : Nat → ReadStep) : (rounds i : Nat) → List UInt8 → Option ReadRun
  | rounds, i, buf =>
    if LoopDone task firstByteMs buf then
      some { heads := [], calls := [], buf := buf, ending := some .classify }
    else
      match rounds with
      | 0 => none
      | rounds + 1 =>
        match iteration task ctx firstByteMs buf (answers i) with
        | none => none
        | some (call, .ends ending) =>
          some { heads := [buf.length], calls := call.toList, buf := buf, ending := some ending }
        | some (call, .reads buf') =>
          (countedLoop answers rounds (i + 1) buf').map fun run =>
            { run with heads := buf.length :: run.heads, calls := call.toList ++ run.calls }

/-- The reads of `http_over_stream` once the request is written. -/
def streamReads (firstRead : Wait (List UInt8)) (firstByteMs : Nat) (answers : Nat → ReadStep)
    (rounds : Nat) : Option ReadRun :=
  let call : ReadCall := { len := chunkSize, timeoutMs := task.timeouts.firstByteMs }
  match firstRead with
  | .ok (.ok data) =>
    if data.take chunkSize = [] then
      some { heads := [], calls := [call], buf := [], ending := none }
    else
      let buf := (data.take chunkSize).take (maxReadBytes task.request)
      (countedLoop task ctx (some firstByteMs) answers rounds 0 buf).map fun run =>
        { run with calls := call :: run.calls }
  | _ => some { heads := [], calls := [call], buf := [], ending := none }

/-! ## One iteration -/

variable {task ctx firstByteMs}

theorem length_lt_of_not_loopDone {buf : List UInt8} (h : ¬ LoopDone task firstByteMs buf) :
    buf.length < maxReadBytes task.request := by
  rw [LoopDone, not_or, not_le] at h
  exact h.2

theorem checkedSub_of_le {a b : Nat} (h : b ≤ a) : checkedSub a b = some (a - b) := if_pos h

/-- A call of `read` that is within the bounds of the chunk. -/
def ReadCall.InBounds (call : ReadCall) : Prop := 1 ≤ call.len ∧ call.len ≤ chunkSize

/-- What an iteration comes to: it underflows nowhere, and where it goes on it has read something
and the buffer still has room for it. -/
structure IterationSpec (task : ProbeTask) (buf : List UInt8) (call : Option ReadCall)
    (next : Iteration) : Prop where
  call_bounds : ∀ c ∈ call, c.InBounds
  grows : ∀ buf', next = .reads buf' →
    buf.length < buf'.length ∧ buf'.length ≤ maxReadBytes task.request

theorem IterationSpec.ends {buf : List UInt8} {call : Option ReadCall} {ending : ReadEnd}
    (h : ∀ c ∈ call, c.InBounds) : IterationSpec task buf call (.ends ending) :=
  ⟨h, fun _ he => by cases he⟩

theorem iteration_spec (ctx : ProbeContext) (firstByteMs : Option Nat) {buf : List UInt8}
    (hroom : buf.length < maxReadBytes task.request) (step : ReadStep) :
    ∃ call next, iteration task ctx firstByteMs buf step = some (call, next) ∧
      IterationSpec task buf call next := by
  have hnone : ∀ c ∈ (none : Option ReadCall), c.InBounds := fun c hc => by cases hc
  have hremaining := checkedSub_of_le hroom.le
  unfold iteration
  by_cases hcancelled : (ctx.cancellation && step.cancelled) = true
  · rw [if_pos hcancelled]
    exact ⟨_, _, rfl, .ends hnone⟩
  rw [if_neg hcancelled]
  by_cases htime : task.timeouts.totalMs ≤ step.elapsedMs
  · rw [if_pos htime]
    exact ⟨_, _, rfl, .ends hnone⟩
  rw [if_neg htime, hremaining, checkedSub_of_le (not_le.mp htime).le]
  simp only [Option.bind_eq_bind, Option.bind_some, Option.pure_def]
  generalize hlen : min (maxReadBytes task.request - buf.length) chunkSize = len
  have hbounds : 1 ≤ len ∧ len ≤ chunkSize := by
    have hchunk : chunkSize = 4096 := rfl
    omega
  have hsome : ∀ c ∈ some (ReadCall.mk len (max (task.timeouts.totalMs - step.elapsedMs) 1)),
      c.InBounds := by
    intro c hc
    obtain rfl := Option.mem_some_iff.mp hc
    exact hbounds
  split
  · next data _ =>
    split
    · exact ⟨_, _, rfl, .ends hsome⟩
    · next hdata =>
      -- at least one byte and no more than was asked for
      have hpos : 0 < (data.take len).length := List.length_pos_of_ne_nil hdata
      have htake : (data.take len).length ≤ len := List.length_take_le _ _
      refine ⟨_, _, rfl, hsome, ?_⟩
      intro buf' hbuf
      obtain rfl := Iteration.reads.inj hbuf
      rw [List.length_append]
      omega
  · split
    · exact ⟨_, _, rfl, .ends hsome⟩
    · exact ⟨_, _, rfl, .ends hsome⟩
  · exact ⟨_, _, rfl, .ends hsome⟩
  · exact ⟨_, _, rfl, .ends hsome⟩

/-! ## The loop -/

/-- What a run of the loop keeps to, from a buffer of `start` bytes. -/
structure RunBounds (task : ProbeTask) (start : Nat) (run : ReadRun) : Prop where
  rounds : start + run.heads.length ≤ max start (maxReadBytes task.request)
  heads : ∀ n ∈ run.heads, n < maxReadBytes task.request
  calls : ∀ c ∈ run.calls, c.InBounds
  buf : run.buf.length ≤ maxReadBytes task.request

/-- A loop that is not entered. -/
theorem RunBounds.done {buf : List UInt8} (h : buf.length ≤ maxReadBytes task.request) :
    RunBounds task buf.length
      { heads := [], calls := [], buf := buf, ending := some .classify } where
  rounds := Nat.le_max_left _ _
  heads _ hn := absurd hn List.not_mem_nil
  calls _ hc := absurd hc List.not_mem_nil
  buf := h

/-- An iteration that ends the loop. -/
theorem RunBounds.ends {buf : List UInt8} (hroom : buf.length < maxReadBytes task.request)
    {call : Option ReadCall} (hcall : ∀ c ∈ call.toList, c.InBounds) (ending : ReadEnd) :
    RunBounds task buf.length
      { heads := [buf.length], calls := call.toList, buf := buf, ending := some ending } where
  rounds := by
    show buf.length + 1 ≤ _
    omega
  heads n hn := by
    rw [List.mem_singleton.mp hn]
    exact hroom
  calls := hcall
  buf := hroom.le

/-- An iteration that reads something, before a run that keeps to the bounds. -/
theorem RunBounds.reads {buf buf' : List UInt8} {run : ReadRun}
    (h : RunBounds task buf'.length run) (hroom : buf.length < maxReadBytes task.request)
    (hgrows : buf.length < buf'.length) (hcap : buf'.length ≤ maxReadBytes task.request)
    {call : Option ReadCall} (hcall : ∀ c ∈ call.toList, c.InBounds) :
    RunBounds task buf.length
      { run with heads := buf.length :: run.heads, calls := call.toList ++ run.calls } where
  rounds := by
    have hrounds := h.rounds
    show buf.length + (run.heads.length + 1) ≤ _
    omega
  heads n hn := by
    rcases List.mem_cons.mp hn with rfl | hn
    · exact hroom
    · exact h.heads n hn
  calls c hc := by
    rcases List.mem_append.mp hc with hc | hc
    · exact hcall c hc
    · exact h.calls c hc
  buf := h.buf

/-- The loop ends, one byte at least in every round. -/
theorem countedLoop_bounded (ctx : ProbeContext) (firstByteMs : Option Nat)
    (answers : Nat → ReadStep) {rounds : Nat} (i : Nat) {buf : List UInt8}
    (hcap : buf.length ≤ maxReadBytes task.request)
    (hrounds : maxReadBytes task.request ≤ buf.length + rounds) :
    ∃ run, countedLoop task ctx firstByteMs answers rounds i buf = some run ∧
      RunBounds task buf.length run := by
  induction rounds generalizing i buf with
  | zero =>
    have hfull : LoopDone task firstByteMs buf := Or.inr hrounds
    unfold countedLoop
    rw [if_pos hfull]
    exact ⟨_, rfl, .done hcap⟩
  | succ rounds ih =>
    unfold countedLoop
    by_cases hdone : LoopDone task firstByteMs buf
    · rw [if_pos hdone]
      exact ⟨_, rfl, .done hcap⟩
    · have hroom := length_lt_of_not_loopDone hdone
      obtain ⟨call, next, hiteration, hspec⟩ :=
        iteration_spec ctx firstByteMs hroom (answers i)
      have hcall : ∀ c ∈ call.toList, c.InBounds := fun c hc =>
        hspec.call_bounds c (Option.mem_toList.mp hc)
      rw [if_neg hdone]
      simp only [hiteration]
      cases next with
      | ends ending => exact ⟨_, rfl, .ends hroom hcall ending⟩
      | reads buf' =>
        obtain ⟨hgrows, hcap'⟩ := hspec.grows buf' rfl
        obtain ⟨run, hrun, hbounds⟩ := ih (i + 1) hcap' (by omega)
        simp only [hrun, Option.map_some]
        exact ⟨_, rfl, hbounds.reads hroom hgrows hcap' hcall⟩

/-! ## The loop of the probe -/

theorem loopDone_iff {buf : List UInt8} :
    LoopDone task firstByteMs buf ↔ ReadDone task.request buf := by
  rw [LoopDone, criteriaMet_firstByteMs]
  rfl

/-- The loop of the probe does what the iteration does. -/
theorem readLoop_of_iteration {buf : List UInt8} {step : ReadStep} {call : Option ReadCall}
    {next : Iteration} (hdone : ¬ LoopDone task firstByteMs buf)
    (h : iteration task ctx firstByteMs buf step = some (call, next)) (steps : List ReadStep) :
    readLoop task ctx firstByteMs buf (step :: steps) =
      match next with
      | .ends ending => (buf, ending)
      | .reads buf' => readLoop task ctx firstByteMs buf' steps := by
  have hroom := length_lt_of_not_loopDone hdone
  unfold iteration at h
  rw [readLoop]
  refine (if_neg hdone).trans ?_
  by_cases hcancelled : (ctx.cancellation && step.cancelled) = true
  · rw [if_pos hcancelled] at h ⊢
    obtain ⟨-, rfl⟩ := Prod.mk.inj (Option.some.inj h)
    rfl
  rw [if_neg hcancelled] at h ⊢
  by_cases htime : task.timeouts.totalMs ≤ step.elapsedMs
  · rw [if_pos htime] at h ⊢
    obtain ⟨-, rfl⟩ := Prod.mk.inj (Option.some.inj h)
    exact (apply_ite (Prod.mk buf) _ _ _).symm
  rw [if_neg htime] at h ⊢
  rw [checkedSub_of_le hroom.le, checkedSub_of_le (not_le.mp htime).le] at h
  simp only [Option.bind_eq_bind, Option.bind_some, Option.pure_def] at h
  cases hanswer : step.answer with
  | error e =>
    rw [hanswer] at h
    cases e with
    | timeout =>
      obtain ⟨-, rfl⟩ := Prod.mk.inj (Option.some.inj h)
      exact (apply_ite (Prod.mk buf) _ _ _).symm
    | cancelled =>
      obtain ⟨-, rfl⟩ := Prod.mk.inj (Option.some.inj h)
      rfl
  | ok result =>
    rw [hanswer] at h
    cases result with
    | error e =>
      -- the loop is not done, so the criteria are not met
      have hmet : ¬ httpReadCriteriaMet (parseHttpResponseRead buf firstByteMs)
          task.request.method task.request.readMode task.request.minBodyBytes = true :=
        fun hmet => hdone (Or.inl hmet)
      simp only [if_neg hmet] at h ⊢
      obtain ⟨-, rfl⟩ := Prod.mk.inj (Option.some.inj h)
      rfl
    | ok data =>
      by_cases hdata :
          data.take (min (maxReadBytes task.request - buf.length) chunkSize) = []
      · simp only [if_pos hdata] at h ⊢
        obtain ⟨-, rfl⟩ := Prod.mk.inj (Option.some.inj h)
        rfl
      · simp only [if_neg hdata] at h ⊢
        obtain ⟨-, rfl⟩ := Prod.mk.inj (Option.some.inj h)
        rfl

/-- The counted loop is the one of the probe, on as many answers as it has rounds, or more. -/
theorem readLoop_eq_of_countedLoop {answers : Nat → ReadStep} {rounds i : Nat} {buf : List UInt8}
    {run : ReadRun} (h : countedLoop task ctx firstByteMs answers rounds i buf = some run)
    {n : Nat} (hn : run.heads.length ≤ n) :
    ∃ ending, run.ending = some ending ∧
      readLoop task ctx firstByteMs buf ((List.range' i n).map answers) = (run.buf, ending) := by
  induction rounds generalizing i buf run n with
  | zero =>
    unfold countedLoop at h
    split at h
    · next hdone =>
      obtain rfl := Option.some.inj h
      exact ⟨.classify, rfl, readLoop_of_done (loopDone_iff.mp hdone)⟩
    · cases h
  | succ rounds ih =>
    unfold countedLoop at h
    split at h
    · next hdone =>
      obtain rfl := Option.some.inj h
      exact ⟨.classify, rfl, readLoop_of_done (loopDone_iff.mp hdone)⟩
    · next hdone =>
      cases hiteration : iteration task ctx firstByteMs buf (answers i) with
      | none =>
        simp only [hiteration] at h
        cases h
      | some result =>
        obtain ⟨call, next⟩ := result
        simp only [hiteration] at h
        cases next with
        | ends ending =>
          obtain rfl := Option.some.inj h
          obtain ⟨m, rfl⟩ := Nat.exists_eq_add_of_le' (show 1 ≤ n from hn)
          refine ⟨ending, rfl, ?_⟩
          rw [List.range'_succ, List.map_cons, readLoop_of_iteration hdone hiteration]
        | reads buf' =>
          obtain ⟨run', hrun, rfl⟩ := Option.map_eq_some_iff.mp h
          have hlength : run'.heads.length + 1 ≤ n := hn
          obtain ⟨m, rfl⟩ := Nat.exists_eq_add_of_le' (show 1 ≤ n by omega)
          obtain ⟨ending, hending, hloop⟩ := ih hrun (show run'.heads.length ≤ m by omega)
          refine ⟨ending, hending, ?_⟩
          rw [List.range'_succ, List.map_cons, readLoop_of_iteration hdone hiteration]
          exact hloop

/-! ## The reads of the stream -/

/-- **The reads are bounded.** -/
theorem streamReads_bounded (task : ProbeTask) (ctx : ProbeContext)
    (firstRead : Wait (List UInt8)) (firstByteMs : Nat) (answers : Nat → ReadStep) :
    ∃ run, streamReads task ctx firstRead firstByteMs answers (maxReadBytes task.request) =
        some run ∧
      run.heads.length ≤ maxReadBytes task.request ∧
      (∀ n ∈ run.heads, n ≤ maxReadBytes task.request) ∧
      run.buf.length ≤ maxReadBytes task.request ∧
      ∀ c ∈ run.calls, 1 ≤ c.len ∧ c.len ≤ 4096 := by
  have hfirst : ∀ c ∈ [ReadCall.mk chunkSize task.timeouts.firstByteMs],
      1 ≤ c.len ∧ c.len ≤ 4096 := by
    intro c hc
    rw [List.mem_singleton.mp hc]
    show 1 ≤ chunkSize ∧ chunkSize ≤ 4096
    decide
  have hnever : ∀ n ∈ ([] : List Nat), n ≤ maxReadBytes task.request := List.forall_mem_nil _
  unfold streamReads
  split
  · next data =>
    by_cases hempty : data.take chunkSize = []
    · rw [if_pos hempty]
      exact ⟨_, rfl, Nat.zero_le _, hnever, Nat.zero_le _, hfirst⟩
    · rw [if_neg hempty]
      have hcap : ((data.take chunkSize).take (maxReadBytes task.request)).length ≤
          maxReadBytes task.request := List.length_take_le _ _
      obtain ⟨run, hrun, hbounds⟩ := countedLoop_bounded ctx (some firstByteMs) answers 0 hcap
        (Nat.le_add_left _ _)
      have hrounds := hbounds.rounds
      simp only [hrun, Option.map_some]
      refine ⟨_, rfl, ?_, fun n hn => (hbounds.heads n hn).le, hbounds.buf, ?_⟩
      · show run.heads.length ≤ _
        omega
      · intro c hc
        rcases List.mem_cons.mp hc with rfl | hc
        · exact hfirst _ List.mem_cons_self
        · exact hbounds.calls c hc
  · exact ⟨_, rfl, Nat.zero_le _, hnever, Nat.zero_le _, hfirst⟩

end ZapretChecker.Probe
