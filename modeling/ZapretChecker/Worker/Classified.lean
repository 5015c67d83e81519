import ZapretChecker.Probe.Prefix
import ZapretChecker.Score.Accounting
import ZapretChecker.Worker.Verdict

/-!
# Every result is classified

Some twenty places of `src/worker.rs` and `src/probe.rs` build a `ProbeResult`. They come in four
shapes: `failure`, a judged response, `infrastructure_failure` and the total timeout. Each shape is
classified soundly, so is every path through `run_worker_task`.

* `SoundlyClassified` — outcome, failure kind, error class and counters agree
* `soundlyClassified` — all results of `run_worker_task`
* `tested_of_runWorkerTask` — what the scores rely on
-/

namespace ZapretChecker.Worker

open Probe

/-! ## What is read -/

/-- The result reports the response `read`. -/
structure Reports (r : ProbeResult) (read : HttpResponseRead) : Prop where
  httpStatus : r.httpStatus = read.status
  headerBytes : r.headerBytes = read.headerBytes
  bodyBytes : r.bodyBytes = read.bodyBytes
  totalBytes : r.totalBytes = read.totalBytes

/-! ## Sound results -/

/-- Outcome, failure kind, error class and counters of a result agree. -/
structure SoundlyClassified (task : ProbeTask) (r : ProbeResult) : Prop where
  failureKind_none_iff : r.failureKind = none ↔ r.outcome = .success
  failureKind_cancelled_iff : r.failureKind = some .cancelled ↔ r.outcome = .cancelled
  headers_of_success : r.outcome = .success →
    ∃ buf firstByteMs, Reports r (parseHttpResponseRead buf firstByteMs) ∧
      (parseHttpResponseRead buf firstByteMs).headersComplete = true
  status_of_success : r.outcome = .success →
    ∃ status, r.httpStatus = some status ∧ 200 ≤ status.toNat ∧ status.toNat ≤ 399
  body_of_success : r.outcome = .success →
    task.request.method = .head ∨ task.request.readMode = .headers ∨
      task.request.minBodyBytes ≤ r.bodyBytes
  not_targetFailure : r.failureKind ≠ some .targetFailure
  success_of_errorClass_none : r.errorClass = none → r.outcome = .success
  counters : (r.totalBytes = r.headerBytes + r.bodyBytes ∧ 4 ≤ r.headerBytes) ∨
    (r.headerBytes = 0 ∧ r.bodyBytes = 0)

/-- A failure kind that may stand beside an outcome. -/
def KindFits (outcome : ProbeOutcome) (kind : FailureKind) : Prop :=
  outcome ≠ .success ∧ kind ≠ .targetFailure ∧ (kind = .cancelled ↔ outcome = .cancelled)

instance (outcome : ProbeOutcome) (kind : FailureKind) : Decidable (KindFits outcome kind) :=
  inferInstanceAs (Decidable (_ ∧ _ ∧ _))

/-- A result with a failure kind and an error class, whatever it has read. -/
theorem SoundlyClassified.of_failure {task : ProbeTask} {r : ProbeResult} {kind : FailureKind}
    (read : HttpResponseRead) (hkind : r.failureKind = some kind) (hcls : r.errorClass ≠ none)
    (hread : Reports r read)
    (hcounters : (read.totalBytes = read.headerBytes + read.bodyBytes ∧ 4 ≤ read.headerBytes) ∨
      (read.headerBytes = 0 ∧ read.bodyBytes = 0))
    (hfits : KindFits r.outcome kind) : SoundlyClassified task r where
  failureKind_none_iff := by simp [hkind, hfits.1]
  failureKind_cancelled_iff := by rw [hkind, Option.some.injEq, hfits.2.2]
  headers_of_success h := absurd h hfits.1
  status_of_success h := absurd h hfits.1
  body_of_success h := absurd h hfits.1
  not_targetFailure := by
    rw [hkind, ne_eq, Option.some.injEq]
    exact hfits.2.1
  success_of_errorClass_none h := absurd h hcls
  counters := by rwa [hread.totalBytes, hread.headerBytes, hread.bodyBytes]

/-- Nothing but the error class has changed, and that has not been taken away. -/
theorem SoundlyClassified.congr {task : ProbeTask} {r s : ProbeResult}
    (h : SoundlyClassified task r) (hkind : s.failureKind = r.failureKind)
    (houtcome : s.outcome = r.outcome) (hstatus : s.httpStatus = r.httpStatus)
    (hheader : s.headerBytes = r.headerBytes) (hbody : s.bodyBytes = r.bodyBytes)
    (htotal : s.totalBytes = r.totalBytes) (hcls : s.errorClass = none → r.errorClass = none) :
    SoundlyClassified task s where
  failureKind_none_iff := by rw [hkind, houtcome, h.failureKind_none_iff]
  failureKind_cancelled_iff := by rw [hkind, houtcome, h.failureKind_cancelled_iff]
  headers_of_success hs := by
    obtain ⟨buf, ms, hread, hcomplete⟩ := h.headers_of_success (houtcome ▸ hs)
    exact ⟨buf, ms, ⟨hstatus.trans hread.httpStatus, hheader.trans hread.headerBytes,
      hbody.trans hread.bodyBytes, htotal.trans hread.totalBytes⟩, hcomplete⟩
  status_of_success hs := by
    rw [hstatus]
    exact h.status_of_success (houtcome ▸ hs)
  body_of_success hs := by
    rw [hbody]
    exact h.body_of_success (houtcome ▸ hs)
  not_targetFailure := by
    rw [hkind]
    exact h.not_targetFailure
  success_of_errorClass_none hs := by
    rw [houtcome]
    exact h.success_of_errorClass_none (hcls hs)
  counters := by
    rw [htotal, hheader, hbody]
    exact h.counters

/-! ## The four shapes -/

theorem soundlyClassified_failure {task : ProbeTask} {qnum sourcePort : UInt16}
    {outcome : ProbeOutcome} {kind : FailureKind} {cls : ProbeErrorClass} {msg : String}
    {totalMs : Nat} {connectMs tlsMs firstByteMs : Option Nat} {baseline : Bool}
    (hfits : KindFits outcome kind) :
    SoundlyClassified task (failure task qnum sourcePort outcome kind cls msg totalMs connectMs
      tlsMs firstByteMs none baseline) :=
  .of_failure default rfl (Option.some_ne_none cls) ⟨rfl, rfl, rfl, rfl⟩
    (Or.inr ⟨rfl, rfl⟩) hfits

/-- A failure after some of the response has been read. -/
theorem soundlyClassified_failure_read {task : ProbeTask} {qnum sourcePort : UInt16}
    {outcome : ProbeOutcome} {kind : FailureKind} {cls : ProbeErrorClass} {msg : String}
    {totalMs : Nat} {connectMs tlsMs firstByteMs : Option Nat} {buf : List UInt8} {baseline : Bool}
    (hfits : KindFits outcome kind) :
    SoundlyClassified task (failure task qnum sourcePort outcome kind cls msg totalMs connectMs
      tlsMs firstByteMs (some (parseHttpResponseRead buf firstByteMs)) baseline) :=
  .of_failure (parseHttpResponseRead buf firstByteMs) rfl (Option.some_ne_none cls)
    ⟨rfl, rfl, rfl, rfl⟩ (counters_parse buf firstByteMs) hfits

theorem soundlyClassified_cancelledResult {task : ProbeTask} {qnum sourcePort : UInt16}
    {totalMs : Nat} {baseline : Bool} :
    SoundlyClassified task (cancelledResult task qnum sourcePort totalMs baseline) :=
  soundlyClassified_failure (by decide)

theorem soundlyClassified_infrastructureFailure {task : ProbeTask}
    {qnum sourcePort : Option UInt16} {cls : ProbeErrorClass} {msg : String} {totalMs : Nat} :
    SoundlyClassified task
      (ProbeResult.infrastructureFailure task qnum sourcePort cls msg totalMs) :=
  .of_failure default rfl (Option.some_ne_none cls) ⟨rfl, rfl, rfl, rfl⟩
    (Or.inr ⟨rfl, rfl⟩) (by simp only [ProbeResult.infrastructureFailure]; decide)

theorem soundlyClassified_totalTimeoutResult {task : ProbeTask} {qnum sourcePort : UInt16}
    {totalMs : Nat} : SoundlyClassified task (totalTimeoutResult task qnum sourcePort totalMs) :=
  .of_failure default rfl (by simp [totalTimeoutResult]) ⟨rfl, rfl, rfl, rfl⟩
    (Or.inr ⟨rfl, rfl⟩) (by simp only [totalTimeoutResult]; decide)

theorem status_of_statusIsSuccess {status : Option UInt16} (h : statusIsSuccess status = true) :
    ∃ code, status = some code ∧ 200 ≤ code.toNat ∧ code.toNat ≤ 399 := by
  cases status with
  | none => cases h
  | some code =>
    simp only [statusIsSuccess, Bool.and_eq_true, decide_eq_true_eq] at h
    have hlow : 200 ≤ code.toNat := UInt16.le_iff_toNat_le.mp h.1
    have hhigh : code.toNat < 400 := UInt16.lt_iff_toNat_lt.mp h.2
    exact ⟨code, rfl, hlow, by omega⟩

/-- A response is a success only if nothing is left to read of it. -/
theorem body_of_classifyHttpResponse_success {status : Option UInt16} {headersComplete : Bool}
    {bodyBytes minBodyBytes : Nat} {method : HttpMethod} {readMode : ReadMode}
    (h : (classifyHttpResponse status headersComplete bodyBytes method readMode minBodyBytes).1 =
      .success) : method = .head ∨ readMode = .headers ∨ minBodyBytes ≤ bodyBytes := by
  unfold classifyHttpResponse at h
  split at h
  · cases h
  split at h
  · cases h
  split at h
  · cases h
  split at h
  · cases h
  split at h
  · next hmode => exact hmode.imp_right Or.inl
  split at h
  · next hbody => exact Or.inr (Or.inr hbody)
  · cases h

/-- A response without an error class is a success; none is cancelled. -/
theorem classifyHttpResponse_errorClass (status : Option UInt16) (headersComplete : Bool)
    (bodyBytes minBodyBytes : Nat) (method : HttpMethod) (readMode : ReadMode) :
    let judged :=
      classifyHttpResponse status headersComplete bodyBytes method readMode minBodyBytes
    judged.1 ≠ .cancelled ∧ (judged.2.1 = none → judged.1 = .success) := by
  simp only
  unfold classifyHttpResponse
  split
  · simp
  split
  · simp
  split
  · simp
  split
  · simp
  split
  · simp
  split <;> simp

/-- The result of a response that is judged as it is. -/
theorem soundlyClassified_judged {task : ProbeTask} {ctx : ProbeContext} {sourcePort : UInt16}
    {totalMs : Nat} {connectMs tlsMs firstByteMs : Option Nat} {buf : List UInt8} :
    let read := parseHttpResponseRead buf firstByteMs
    let judged := classifyHttpResponse read.status read.headersComplete read.bodyBytes
      task.request.method task.request.readMode task.request.minBodyBytes
    SoundlyClassified task (buildHttpProbeResult task ctx sourcePort totalMs connectMs tlsMs read
      judged.1 (if judged.1 = .success then none else some .strategyFailure)
      judged.2.1 judged.2.2) := by
  intro read judged
  obtain ⟨hcancelled, hnone⟩ := classifyHttpResponse_errorClass read.status read.headersComplete
    read.bodyBytes task.request.minBodyBytes task.request.method task.request.readMode
  have hreports : Reports (buildHttpProbeResult task ctx sourcePort totalMs connectMs tlsMs read
      judged.1 (if judged.1 = .success then none else some .strategyFailure)
      judged.2.1 judged.2.2) read := ⟨rfl, rfl, rfl, rfl⟩
  by_cases hsuccess : judged.1 = .success
  · obtain ⟨hcomplete, hstatus⟩ := classifyHttpResponse_success hsuccess
    refine ⟨?_, ?_, fun _ => ⟨buf, firstByteMs, hreports, hcomplete⟩,
      fun _ => status_of_statusIsSuccess hstatus,
      fun _ => body_of_classifyHttpResponse_success hsuccess, ?_, fun _ => hsuccess,
      counters_parse buf firstByteMs⟩
    · simp [buildHttpProbeResult, hsuccess]
    · simp [buildHttpProbeResult, hsuccess]
    · simp [buildHttpProbeResult, hsuccess]
  · have hkind : (if judged.1 = .success then none else some FailureKind.strategyFailure) =
        some .strategyFailure := if_neg hsuccess
    refine .of_failure read ((buildHttpProbeResult_failureKind ..).trans hkind) ?_ hreports
      (counters_parse buf firstByteMs) ⟨hsuccess, by decide, ?_⟩
    · exact fun hcls => hsuccess (hnone hcls)
    · exact iff_of_false (by decide) hcancelled

/-! ## The probe -/

theorem probeFailureKind_strategy {baseline : Bool} (h : baseline = false) :
    probeFailureKind baseline = .strategyFailure := by
  rw [h]
  rfl

theorem soundlyClassified_httpOverStream {task : ProbeTask} {ctx : ProbeContext}
    {sourcePort : UInt16} {script : HttpScript} {totalMs : Nat} {connectMs tlsMs : Option Nat}
    (hctx : ctx.baseline = false) :
    SoundlyClassified task
      (httpOverStream task ctx sourcePort script totalMs connectMs tlsMs) := by
  unfold httpOverStream
  simp only [probeFailureKind_strategy hctx]
  cases script.write (buildHttpRequest task) with
  | error e => exact soundlyClassified_failure (by decide)
  | ok _ =>
    cases script.firstRead with
    | error e =>
      cases e with
      | timeout => exact soundlyClassified_failure (by decide)
      | cancelled => exact soundlyClassified_cancelledResult
    | ok answer =>
      cases answer with
      | error e => exact soundlyClassified_failure (by decide)
      | ok data =>
        simp only
        split
        · exact soundlyClassified_failure (by decide)
        · cases (readLoop task ctx (some script.firstByteMs)
            ((data.take chunkSize).take (maxReadBytes task.request)) script.reads).2 with
          | cancelled => exact soundlyClassified_cancelledResult
          | timeout | reset => exact soundlyClassified_failure_read (by decide)
          | classify => exact soundlyClassified_judged

theorem soundlyClassified_httpsHttp11 {probe : NativeTcpTlsHttpProbe} {task : ProbeTask}
    {ctx : ProbeContext} {sourcePort : UInt16} {script : ProbeScript} {connectMs : Option Nat}
    (hctx : ctx.baseline = false) :
    SoundlyClassified task (probe.httpsHttp11 task ctx sourcePort script connectMs) := by
  unfold NativeTcpTlsHttpProbe.httpsHttp11
  simp only [probeFailureKind_strategy hctx]
  cases probe.tlsConfigError with
  | some error => exact soundlyClassified_failure (by decide)
  | none =>
    cases probe.serverName task.targetHost with
    | error e => exact soundlyClassified_failure (by decide)
    | ok _ =>
      cases script.tls with
      | error e =>
        cases e with
        | timeout => exact soundlyClassified_failure (by decide)
        | cancelled => exact soundlyClassified_cancelledResult
      | ok answer =>
        cases answer with
        | error e => exact soundlyClassified_failure (by decide)
        | ok _ => exact soundlyClassified_httpOverStream hctx

theorem soundlyClassified_quicProbe {task : ProbeTask} {ctx : ProbeContext} {sourcePort : UInt16}
    {script : QuicScript} {totalMs : Nat} (hctx : ctx.baseline = false) :
    SoundlyClassified task
      (NativeTcpTlsHttpProbe.quicProbe task ctx sourcePort script totalMs) := by
  unfold NativeTcpTlsHttpProbe.quicProbe
  simp only [probeFailureKind_strategy hctx]
  cases script.config with
  | error e => exact soundlyClassified_failure (by decide)
  | ok _ =>
    cases script.connect with
    | error e => exact soundlyClassified_failure (by decide)
    | ok _ =>
      cases script.handshake with
      | error e =>
        cases e with
        | timeout => exact soundlyClassified_failure (by decide)
        | cancelled => exact soundlyClassified_cancelledResult
      | ok answer => cases answer <;> exact soundlyClassified_failure (by decide)

theorem soundlyClassified_probeWithPreparedSocket {probe : NativeTcpTlsHttpProbe}
    {task : ProbeTask} {ctx : ProbeContext} {prepared : PreparedSocket} {script : ProbeScript}
    (hctx : ctx.baseline = false) :
    SoundlyClassified task (probe.probeWithPreparedSocket task ctx prepared script) := by
  unfold NativeTcpTlsHttpProbe.probeWithPreparedSocket
  simp only [probeFailureKind_strategy hctx]
  split
  · exact soundlyClassified_cancelledResult
  cases prepared.transport with
  | quic => exact soundlyClassified_quicProbe hctx
  | tcp =>
    cases script.connect with
    | error e =>
      cases e with
      | timeout => exact soundlyClassified_failure (by decide)
      | cancelled => exact soundlyClassified_cancelledResult
    | ok answer =>
      cases answer with
      | error e => exact soundlyClassified_failure (by decide)
      | ok _ =>
        cases task.protocol with
        | httpPlain => exact soundlyClassified_httpOverStream hctx
        | tls12Http11 | tls13Http11 => exact soundlyClassified_httpsHttp11 hctx
        | quicHttp3Future => exact soundlyClassified_failure (by decide)

/-! ## The task -/

theorem SoundlyClassified.noteFailure {ε : Type} {task : ProbeTask} {r : ProbeResult}
    (h : SoundlyClassified task r) (call : Except ε Unit) (cls : ProbeErrorClass) :
    SoundlyClassified task (noteFailure call cls r) := by
  cases call with
  | ok _ => exact h
  | error e =>
    refine h.congr rfl rfl rfl rfl rfl rfl fun hnone => ?_
    exact (Option.or_eq_none_iff.mp hnone).1

theorem SoundlyClassified.finishTask {task : ProbeTask} {r : ProbeResult}
    (h : SoundlyClassified task r) (perTaskRule : Bool) (qnum sourcePort : UInt16)
    (script : TaskScript) :
    SoundlyClassified task (finishTask perTaskRule qnum sourcePort script r) := by
  have hsetup : SoundlyClassified task { r with setupMs := some script.setupMs } :=
    h.congr rfl rfl rfl rfl rfl rfl id
  cases perTaskRule with
  | false =>
    exact (hsetup.noteFailure (nfqwsStop script.stop) .nfqwsStopFailed).congr
      rfl rfl rfl rfl rfl rfl id
  | true =>
    exact ((hsetup.noteFailure script.remove .firewallRemoveFailed).noteFailure
      (nfqwsStop script.stop) .nfqwsStopFailed).congr rfl rfl rfl rfl rfl rfl id

theorem soundlyClassified_timedProbe {runtime : WorkerRuntime} {task : ProbeTask} {qnum : UInt16}
    {cancellation : Bool} {prepared : PreparedSocket} {script : TaskScript} :
    SoundlyClassified task (runtime.timedProbe task qnum cancellation prepared script) := by
  unfold WorkerRuntime.timedProbe
  split
  · exact soundlyClassified_totalTimeoutResult
  · exact soundlyClassified_probeWithPreparedSocket rfl

/-- The socket, nfqws or the rule failed, so the probe was not begun. -/
def FailsBeforeConnect (runtime : WorkerRuntime) (script : TaskScript) : Prop :=
  (∃ e, script.prepare = .error e) ∨ (∃ e, nfqwsStart script.start = .error e) ∨
    runtime.isolationMode = .sourcePort ∧ ∃ e, script.install = .error e

theorem soundlyClassified_runWorkerTask {runtime : WorkerRuntime} {task : ProbeTask}
    {assignment : WorkerAssignment} {cancellation : Bool} {script : TaskScript}
    {result : ProbeResult}
    (hrun : runtime.runWorkerTask task assignment cancellation script = some result) :
    SoundlyClassified task result := by
  unfold WorkerRuntime.runWorkerTask at hrun
  split at hrun
  · cases hrun
  simp only at hrun
  split at hrun
  · obtain rfl := Option.some.inj hrun
    exact soundlyClassified_infrastructureFailure
  split at hrun
  · obtain rfl := Option.some.inj hrun
    exact soundlyClassified_infrastructureFailure
  split at hrun
  · obtain rfl := Option.some.inj hrun
    exact soundlyClassified_infrastructureFailure
  · obtain rfl := Option.some.inj hrun
    exact soundlyClassified_timedProbe.finishTask _ _ _ _

theorem infrastructure_of_failsBeforeConnect {runtime : WorkerRuntime} {task : ProbeTask}
    {assignment : WorkerAssignment} {cancellation : Bool} {script : TaskScript}
    {result : ProbeResult}
    (hrun : runtime.runWorkerTask task assignment cancellation script = some result)
    (hfails : FailsBeforeConnect runtime script) :
    result.failureKind = some .infrastructureFailure := by
  unfold WorkerRuntime.runWorkerTask prepareTransport at hrun
  split at hrun
  · cases hrun
  cases hprepare : script.prepare with
  | error e =>
    rw [hprepare] at hrun
    obtain rfl := Option.some.inj hrun
    rfl
  | ok port =>
    simp only [hprepare] at hrun
    cases hstart : nfqwsStart script.start with
    | error e =>
      rw [hstart] at hrun
      obtain rfl := Option.some.inj hrun
      rfl
    | ok _ =>
      rcases hfails with ⟨e, he⟩ | ⟨e, he⟩ | ⟨hmode, e, he⟩
      · cases hprepare.symm.trans he
      · cases hstart.symm.trans he
      · simp only [hstart, WorkerRuntime.perTaskRule, hmode, he, decide_true, if_true] at hrun
        obtain rfl := Option.some.inj hrun
        rfl

/-- **Results are classified soundly**, and a failure before the connect attempt is one of the
infrastructure. -/
theorem soundlyClassified {runtime : WorkerRuntime} {task : ProbeTask}
    {assignment : WorkerAssignment} {cancellation : Bool} {script : TaskScript}
    {result : ProbeResult}
    (hrun : runtime.runWorkerTask task assignment cancellation script = some result) :
    SoundlyClassified task result ∧
      (FailsBeforeConnect runtime script → result.failureKind = some .infrastructureFailure) :=
  ⟨soundlyClassified_runWorkerTask hrun, infrastructure_of_failsBeforeConnect hrun⟩

theorem soundlyClassified_exitedScript :
    ∃ result, plainRuntime.runWorkerTask headTask default true exitedScript = some result ∧
      SoundlyClassified headTask result ∧ (FailsBeforeConnect plainRuntime exitedScript →
        result.failureKind = some .infrastructureFailure) := by
  have hsome : (plainRuntime.runWorkerTask headTask default true exitedScript).isSome = true := by
    decide +kernel
  obtain ⟨result, hrun⟩ := Option.isSome_iff_exists.mp hsome
  exact ⟨result, hrun, soundlyClassified hrun⟩

/-! ## What the scores rely on -/

theorem SoundlyClassified.wellClassified {task : ProbeTask} {r : ProbeResult}
    (h : SoundlyClassified task r) : Score.WellClassified r :=
  ⟨h.failureKind_none_iff, h.failureKind_cancelled_iff⟩

/-- What `run_strategy_tests` makes of results of `run_worker_task` is fit to be scored. -/
theorem tested_of_runWorkerTask {item : Pool.IndexedPoolResult} {results : List ProbeResult}
    (htests : Score.runStrategyTests results = some (item.result, item.attempts))
    (hruns : ∀ r ∈ results, ∃ (runtime : WorkerRuntime) (task : ProbeTask)
      (assignment : WorkerAssignment) (cancellation : Bool) (script : TaskScript),
      runtime.runWorkerTask task assignment cancellation script = some r) : Score.Tested item := by
  refine ⟨results, htests, fun r hr => ?_⟩
  obtain ⟨_, _, _, _, _, hrun⟩ := hruns r hr
  exact (soundlyClassified_runWorkerTask hrun).wellClassified

end ZapretChecker.Worker
