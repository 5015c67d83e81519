import ZapretChecker.Worker.Task

/-!
# Verdicts of a dead nfqws

The rule says `bypass`: once nfqws has exited the packets pass unmodified, and what the probe sees
says nothing about the strategy. `ProcessNfqwsManager::stop` finds the child exited and returns `Ok`.

* `runWorkerTask_stop_congr` — the result depends on the stop only through its error
* `success_of_exitedChild` — so a run whose nfqws died can end with `Success`
* `infrastructure_iff_of_exitedChild` — and is an infrastructure failure only for another reason
-/

namespace ZapretChecker.Worker

open Probe

variable {runtime : WorkerRuntime} {task : ProbeTask} {assignment : WorkerAssignment}
  {cancellation : Bool} {script : TaskScript} {result : ProbeResult}

/-! ## Failure kinds -/

@[simp] theorem failure_failureKind (task : ProbeTask) (qnum sourcePort : UInt16)
    (outcome : ProbeOutcome) (kind : FailureKind) (cls : ProbeErrorClass) (msg : String)
    (totalMs : Nat) (connectMs tlsMs firstByteMs : Option Nat) (read : Option HttpResponseRead)
    (baseline : Bool) :
    (failure task qnum sourcePort outcome kind cls msg totalMs connectMs tlsMs firstByteMs read
      baseline).failureKind = some kind := rfl

@[simp] theorem cancelledResult_failureKind (task : ProbeTask) (qnum sourcePort : UInt16)
    (totalMs : Nat) (baseline : Bool) :
    (cancelledResult task qnum sourcePort totalMs baseline).failureKind = some .cancelled := rfl

@[simp] theorem buildHttpProbeResult_failureKind (task : ProbeTask) (ctx : ProbeContext)
    (sourcePort : UInt16) (totalMs : Nat) (connectMs tlsMs : Option Nat) (read : HttpResponseRead)
    (outcome : ProbeOutcome) (kind : Option FailureKind) (cls : Option ProbeErrorClass)
    (msg : Option String) :
    (buildHttpProbeResult task ctx sourcePort totalMs connectMs tlsMs read outcome kind cls
      msg).failureKind = kind := rfl

theorem probeFailureKind_ne (baseline : Bool) :
    probeFailureKind baseline ≠ .infrastructureFailure := by
  cases baseline <;> decide

/-- What is said over a stream is never an infrastructure failure. -/
theorem httpOverStream_ne_infrastructure (task : ProbeTask) (ctx : ProbeContext)
    (sourcePort : UInt16) (script : HttpScript) (totalMs : Nat) (connectMs tlsMs : Option Nat) :
    (httpOverStream task ctx sourcePort script totalMs connectMs tlsMs).failureKind ≠
      some .infrastructureFailure := by
  have hkind := probeFailureKind_ne ctx.baseline
  unfold httpOverStream
  cases script.write (buildHttpRequest task) with
  | error e => simpa using hkind
  | ok _ =>
    cases script.firstRead with
    | error e => cases e <;> simp [hkind]
    | ok answer =>
      cases answer with
      | error e => simpa using hkind
      | ok data =>
        simp only
        split
        · simpa using hkind
        · cases (readLoop task ctx (some script.firstByteMs)
            ((data.take chunkSize).take (maxReadBytes task.request)) script.reads).2 with
          | cancelled | timeout | reset => simp [hkind]
          | classify =>
            simp only [buildHttpProbeResult_failureKind]
            split <;> simp [hkind]

theorem httpsHttp11_infrastructure_iff (probe : NativeTcpTlsHttpProbe) (task : ProbeTask)
    (ctx : ProbeContext) (sourcePort : UInt16) (script : ProbeScript) (connectMs : Option Nat) :
    (probe.httpsHttp11 task ctx sourcePort script connectMs).failureKind =
        some .infrastructureFailure ↔
      probe.tlsConfigError ≠ none ∨ ∃ e, probe.serverName task.targetHost = .error e := by
  have hkind := probeFailureKind_ne ctx.baseline
  have hhttp := httpOverStream_ne_infrastructure task ctx sourcePort script.http script.totalMs
    connectMs (some script.tlsMs)
  unfold NativeTcpTlsHttpProbe.httpsHttp11
  cases probe.tlsConfigError with
  | some error => simp
  | none =>
    cases probe.serverName task.targetHost with
    | error e => simp
    | ok _ =>
      cases script.tls with
      | error e => cases e <;> simp [hkind]
      | ok answer => cases answer <;> simp [hkind, hhttp]

theorem quicProbe_infrastructure_iff (task : ProbeTask) (ctx : ProbeContext)
    (sourcePort : UInt16) (script : QuicScript) (totalMs : Nat) :
    (NativeTcpTlsHttpProbe.quicProbe task ctx sourcePort script totalMs).failureKind =
        some .infrastructureFailure ↔
      (∃ e, script.config = .error e) ∨ (∃ e, script.connect = .error e) ∨
        script.handshake = .ok (.ok ()) := by
  have hkind := probeFailureKind_ne ctx.baseline
  unfold NativeTcpTlsHttpProbe.quicProbe
  cases script.config with
  | error e => simp
  | ok _ =>
    cases script.connect with
    | error e => simp
    | ok _ =>
      cases script.handshake with
      | error e => cases e <;> simp [hkind]
      | ok answer => cases answer <;> simp [hkind]

/-- The probe's own infrastructure failures: before the first packet the strategy could have touched,
or after a QUIC handshake. -/
def ProbeInfrastructure (probe : NativeTcpTlsHttpProbe) (task : ProbeTask) (cancellation : Bool)
    (script : ProbeScript) : Prop :=
  (cancellation && script.cancelledAtStart) = false ∧
    match transportOf task.protocol with
    | .quic => (∃ e, script.quic.config = .error e) ∨ (∃ e, script.quic.connect = .error e) ∨
        script.quic.handshake = .ok (.ok ())
    | .tcp => script.connect = .ok (.ok ()) ∧ usesTls task.protocol = true ∧
        (probe.tlsConfigError ≠ none ∨ ∃ e, probe.serverName task.targetHost = .error e)

theorem probeWithPreparedSocket_infrastructure_iff (probe : NativeTcpTlsHttpProbe)
    (task : ProbeTask) (ctx : ProbeContext) (port : UInt16) (script : ProbeScript) :
    (probe.probeWithPreparedSocket task ctx
      { transport := transportOf task.protocol, assignedSourcePort := port } script).failureKind =
        some .infrastructureFailure ↔
      ProbeInfrastructure probe task ctx.cancellation script := by
  have hkind := probeFailureKind_ne ctx.baseline
  unfold NativeTcpTlsHttpProbe.probeWithPreparedSocket ProbeInfrastructure
  cases ctx.cancellation && script.cancelledAtStart with
  | true => simp
  | false =>
    cases hp : task.protocol with
    | quicHttp3Future =>
      simpa [transportOf] using quicProbe_infrastructure_iff task ctx port script.quic script.totalMs
    | httpPlain =>
      cases script.connect with
      | error e => cases e <;> simp [transportOf, hkind]
      | ok answer =>
        cases answer <;> simp [transportOf, hkind, usesTls, httpOverStream_ne_infrastructure]
    | tls12Http11 | tls13Http11 =>
      cases script.connect with
      | error e => cases e <;> simp [transportOf, hkind]
      | ok answer =>
        cases answer with
        | error e => simp [transportOf, hkind]
        | ok _ => simp [transportOf, usesTls, httpsHttp11_infrastructure_iff]

/-! ## The end of the task -/

@[simp] theorem noteFailure_failureKind {ε : Type} (call : Except ε Unit) (cls : ProbeErrorClass)
    (result : ProbeResult) : (noteFailure call cls result).failureKind = result.failureKind := by
  cases call <;> rfl

@[simp] theorem finishTask_failureKind (perTaskRule : Bool) (qnum sourcePort : UInt16)
    (script : TaskScript) (result : ProbeResult) :
    (finishTask perTaskRule qnum sourcePort script result).failureKind = result.failureKind := by
  cases perTaskRule <;> simp [finishTask]

/-- **The exit is invisible.** Two stops that return the same leave the same result: it makes no
difference whether nfqws was still running. -/
theorem runWorkerTask_stop_congr {stop : StopScript} (h : nfqwsStop stop = nfqwsStop script.stop) :
    runtime.runWorkerTask task assignment cancellation { script with stop := stop } =
      runtime.runWorkerTask task assignment cancellation script := by
  unfold WorkerRuntime.runWorkerTask finishTask WorkerRuntime.timedProbe
  simp only [h]

/-! ## A dead nfqws -/

/-- nfqws was started, and `stop` finds that it has exited by itself. -/
def TaskScript.ChildExited (script : TaskScript) : Prop :=
  (∃ port, script.prepare = .ok port) ∧ nfqwsStart script.start = .ok () ∧
    ∃ status, script.stop.tryWait = .ok (some status)

/-- The reasons for an infrastructure failure that have nothing to do with the exit. -/
def InfrastructureElsewhere (runtime : WorkerRuntime) (task : ProbeTask) (cancellation : Bool)
    (script : TaskScript) : Prop :=
  (runtime.isolationMode = .sourcePort ∧ ∃ e, script.install = .error e) ∨
    script.totalTimeout = false ∧
      ProbeInfrastructure runtime.nativeProbe task cancellation script.probe

/-- nfqws exits during the probe, the peer answers 200. -/
def exitedScript : TaskScript where
  prepare := .ok 40000
  start := { spawn := .ok (), tryWait := .ok none }
  install := .ok ()
  setupMs := 5
  totalTimeout := false
  probe :=
    { cancelledAtStart := false
      connect := .ok (.ok ())
      connectMs := 10
      localPort := some 40000
      tls := .ok (.ok ())
      tlsMs := 10
      http :=
        { write := fun _ => .ok ()
          firstRead := .ok (.ok (Text.asciiBytes "HTTP/1.1 200 OK\r\n\r\n"))
          firstByteMs := 10
          reads := [] }
      quic := { config := .ok (), connect := .ok (), handshake := .ok (.ok ()), connectMs := 10 }
      totalMs := 30 }
  remove := .ok ()
  stop :=
    { tryWait := .ok (some 1)
      termWait := none
      startKill := .ok ()
      killWait := none }
  totalMs := 40

def plainRuntime : WorkerRuntime where
  nativeProbe := { tlsConfigError := none, serverName := fun _ => .ok () }
  isolationMode := .sourcePort

def headTask : ProbeTask :=
  { (default : ProbeTask) with
    request := { (default : HttpRequestSpec) with method := .head, maxReadBytes := 4096 }
    timeouts := { connectMs := 100, tlsMs := 100, firstByteMs := 100, totalMs := 1000 } }

/-- **A dead nfqws can yield a success.** -/
theorem success_of_exitedChild :
    exitedScript.ChildExited ∧
      ∃ result, plainRuntime.runWorkerTask headTask default true exitedScript = some result ∧
        result.outcome = .success ∧ result.failureKind ≠ some .infrastructureFailure ∧
        shouldUpdateStrategyScore result = true := by
  have hmap : (plainRuntime.runWorkerTask headTask default true exitedScript).map
      (fun r => (r.outcome, r.failureKind)) = some (.success, none) := by decide +kernel
  obtain ⟨result, hrun, hr⟩ := Option.map_eq_some_iff.mp hmap
  obtain ⟨houtcome, hkind⟩ := Prod.mk.inj hr
  refine ⟨⟨⟨40000, rfl⟩, rfl, 1, rfl⟩, result, hrun, houtcome, by simp [hkind], ?_⟩
  simp [shouldUpdateStrategyScore, hkind]

/--
**What a dead nfqws comes to.** The result is an infrastructure failure exactly when the install
failed or the probe met an infrastructure failure of its own.
-/
theorem infrastructure_iff_of_exitedChild (hexit : script.ChildExited)
    (hrun : runtime.runWorkerTask task assignment cancellation script = some result) :
    result.failureKind = some .infrastructureFailure ↔
      InfrastructureElsewhere runtime task cancellation script := by
  obtain ⟨⟨port, hport⟩, hstart, -⟩ := hexit
  unfold WorkerRuntime.runWorkerTask at hrun
  split at hrun
  · simp at hrun
  · simp only [prepareTransport, hport, hstart] at hrun
    unfold InfrastructureElsewhere
    split at hrun
    · next e hinstall =>
      -- a failed install: the mode is source_port
      have hmode : runtime.isolationMode = .sourcePort ∧ script.install = .error e := by
        cases hm : runtime.isolationMode with
        | sourcePort => exact ⟨rfl, by simpa [WorkerRuntime.perTaskRule, hm] using hinstall⟩
        | fwmark => simp [WorkerRuntime.perTaskRule, hm] at hinstall
      rw [← Option.some.inj hrun]
      exact ⟨fun _ => Or.inl ⟨hmode.1, e, hmode.2⟩, fun _ => rfl⟩
    · next hinstall =>
      have hno : ¬(runtime.isolationMode = .sourcePort ∧ ∃ e, script.install = .error e) := by
        rintro ⟨hm, e, he⟩
        simp [WorkerRuntime.perTaskRule, hm, he] at hinstall
      rw [← Option.some.inj hrun, finishTask_failureKind, WorkerRuntime.timedProbe]
      cases script.totalTimeout with
      | true => simp [hno, totalTimeoutResult]
      | false =>
        simp only [hno, false_or, true_and, Bool.false_eq_true, if_false]
        exact probeWithPreparedSocket_infrastructure_iff ..

/-- No TLS client can be configured. -/
def noTlsRuntime : WorkerRuntime :=
  { plainRuntime with
    nativeProbe := { plainRuntime.nativeProbe with tlsConfigError := some "no TLS versions" } }

/-- The same exit: once the probe sees the peer, once it has a failure of its own. -/
theorem infrastructure_iff_exitedScript :
    (∃ result, plainRuntime.runWorkerTask headTask default true exitedScript = some result ∧
      result.failureKind = none ∧ ¬InfrastructureElsewhere plainRuntime headTask true exitedScript) ∧
    ∃ result, noTlsRuntime.runWorkerTask { headTask with protocol := .tls12Http11 } default true
        exitedScript = some result ∧
      InfrastructureElsewhere noTlsRuntime { headTask with protocol := .tls12Http11 } true
        exitedScript ∧
      result.failureKind = some .infrastructureFailure := by
  have hexit : exitedScript.ChildExited := ⟨⟨40000, rfl⟩, rfl, 1, rfl⟩
  have hplain : (plainRuntime.runWorkerTask headTask default true exitedScript).map
      (fun r => r.failureKind) = some none := by decide +kernel
  have htls : (noTlsRuntime.runWorkerTask { headTask with protocol := .tls12Http11 } default true
      exitedScript).isSome = true := by decide +kernel
  obtain ⟨result, hrun, hkind⟩ := Option.map_eq_some_iff.mp hplain
  obtain ⟨result', hrun'⟩ := Option.isSome_iff_exists.mp htls
  have helsewhere : InfrastructureElsewhere noTlsRuntime
      { headTask with protocol := .tls12Http11 } true exitedScript :=
    Or.inr ⟨rfl, rfl, rfl, rfl, Or.inl (by decide)⟩
  refine ⟨⟨result, hrun, hkind, fun h => ?_⟩, result', hrun', helsewhere,
    (infrastructure_iff_of_exitedChild hexit hrun').mpr helsewhere⟩
  rw [(infrastructure_iff_of_exitedChild hexit hrun).mpr h] at hkind
  cases hkind

end ZapretChecker.Worker
