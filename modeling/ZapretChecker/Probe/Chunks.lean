import ZapretChecker.Probe.Native
import ZapretChecker.Probe.Prefix

/-!
# Chunks

The read loop may stop at any prefix of the response that meets the read criteria, and which
prefixes it sees depends on how the bytes arrive. The verdict does not: it is the one on the first
`max_read_bytes` bytes of the stream.

* `Delivers` — the reads hand over a stream, however it is cut
* `streamVerdict` — the verdict, from the stream alone
* `chunking_irrelevant` — the probe gives this verdict for every delivery
-/

namespace ZapretChecker.Probe

/-! ## Deliveries -/

variable {task : ProbeTask} {ctx : ProbeContext}

/-- The head of the loop ends it: the criteria are met or the buffer is full. -/
def ReadDone (request : HttpRequestSpec) (buf : List UInt8) : Prop :=
  httpReadCriteriaMet (parseHttpResponseRead buf none) request.method request.readMode
      request.minBodyBytes = true ∨
    maxReadBytes request ≤ buf.length

instance (request : HttpRequestSpec) (buf : List UInt8) : Decidable (ReadDone request buf) :=
  inferInstanceAs (Decidable (_ ∨ _))

/-- An iteration without cancellation and timeout that reads `data`. -/
structure Receives (task : ProbeTask) (ctx : ProbeContext) (step : ReadStep) (data : List UInt8) :
    Prop where
  not_cancelled : (ctx.cancellation && step.cancelled) = false
  in_time : step.elapsedMs < task.timeouts.totalMs
  answer : step.answer = .ok (.ok data)

/-- With `buf` in the buffer, the reads deliver `rest`, in chunks that are not longer than what the
loop asks for. Once the loop is done, it asks for nothing more. -/
inductive Delivers (task : ProbeTask) (ctx : ProbeContext) :
    List UInt8 → List UInt8 → List ReadStep → Prop
  | done {buf rest : List UInt8} {steps : List ReadStep} :
    ReadDone task.request buf → Delivers task ctx buf rest steps
  /-- the peer has closed the connection -/
  | closed {buf : List UInt8} : Delivers task ctx buf [] []
  | eof {buf : List UInt8} {step : ReadStep} {steps : List ReadStep} :
    Receives task ctx step [] → Delivers task ctx buf [] (step :: steps)
  | chunk {buf data rest : List UInt8} {step : ReadStep} {steps : List ReadStep} :
    Receives task ctx step data → data ≠ [] →
    data.length ≤ min (maxReadBytes task.request - buf.length) chunkSize →
    Delivers task ctx (buf ++ data) rest steps →
    Delivers task ctx buf (data ++ rest) (step :: steps)

/-- The request is written, and the reads deliver `stream` from its first byte on. -/
structure DeliversStream (task : ProbeTask) (ctx : ProbeContext) (stream : List UInt8)
    (script : HttpScript) : Prop where
  written : script.write (buildHttpRequest task) = .ok ()
  delivered : ∃ first rest, stream = first ++ rest ∧ first ≠ [] ∧ first.length ≤ chunkSize ∧
    script.firstRead = .ok (.ok first) ∧
    Delivers task ctx (first.take (maxReadBytes task.request)) rest script.reads

/-! ## The verdict -/

/-- The part of a result that says what the peer did. -/
structure ReadVerdict where
  outcome : ProbeOutcome
  failureKind : Option FailureKind
  errorClass : Option ProbeErrorClass
  httpStatus : Option UInt16
  headerBytes : Nat
  deriving DecidableEq, Repr

def readVerdict (r : ProbeResult) : ReadVerdict where
  outcome := r.outcome
  failureKind := r.failureKind
  errorClass := r.errorClass
  httpStatus := r.httpStatus
  headerBytes := r.headerBytes

/-- The judgement of a buffer: outcome, error class and message. -/
def judge (request : HttpRequestSpec) (buf : List UInt8) :
    ProbeOutcome × Option ProbeErrorClass × Option String :=
  let read := parseHttpResponseRead buf none
  classifyHttpResponse read.status read.headersComplete read.bodyBytes request.method
    request.readMode request.minBodyBytes

/-- The verdict on what has been read. -/
def bufferVerdict (request : HttpRequestSpec) (baseline : Bool) (buf : List UInt8) :
    ReadVerdict where
  outcome := (judge request buf).1
  failureKind :=
    if (judge request buf).1 = .success then none else some (probeFailureKind baseline)
  errorClass := (judge request buf).2.1
  httpStatus := (parseHttpResponseRead buf none).status
  headerBytes := (parseHttpResponseRead buf none).headerBytes

/-- The verdict on a stream: that on its first `max_read_bytes` bytes. -/
def streamVerdict (request : HttpRequestSpec) (baseline : Bool) (stream : List UInt8) :
    ReadVerdict :=
  bufferVerdict request baseline (stream.take (maxReadBytes request))

/-! ## The loop -/

theorem criteriaMet_firstByteMs (request : HttpRequestSpec) (buf : List UInt8)
    (firstByteMs : Option Nat) :
    httpReadCriteriaMet (parseHttpResponseRead buf firstByteMs) request.method request.readMode
        request.minBodyBytes =
      httpReadCriteriaMet (parseHttpResponseRead buf none) request.method request.readMode
        request.minBodyBytes := by
  rw [parseHttpResponseRead_firstByteMs buf firstByteMs]
  rfl

theorem readLoop_of_done {firstByteMs : Option Nat} {buf : List UInt8} {steps : List ReadStep}
    (h : ReadDone task.request buf) :
    readLoop task ctx firstByteMs buf steps = (buf, .classify) := by
  cases steps with
  | nil => rfl
  | cons step steps =>
    rw [ReadDone, ← criteriaMet_firstByteMs task.request buf firstByteMs] at h
    rw [readLoop]
    exact if_pos h

/-- One iteration that reads something. -/
theorem readLoop_of_receives {firstByteMs : Option Nat} {buf data : List UInt8} {step : ReadStep}
    {steps : List ReadStep} (hdone : ¬ ReadDone task.request buf)
    (hstep : Receives task ctx step data)
    (hlen : data.length ≤ min (maxReadBytes task.request - buf.length) chunkSize) :
    readLoop task ctx firstByteMs buf (step :: steps) =
      if data = [] then (buf, .classify)
      else readLoop task ctx firstByteMs (buf ++ data) steps := by
  rw [ReadDone, ← criteriaMet_firstByteMs task.request buf firstByteMs] at hdone
  have htime : ¬ task.timeouts.totalMs ≤ step.elapsedMs := not_le.mpr hstep.in_time
  rw [readLoop]
  simp only [if_neg hdone, hstep.not_cancelled, Bool.false_eq_true, if_false, if_neg htime,
    hstep.answer, List.take_of_length_le hlen]

/-- The buffer the loop ends with is all that could be read, or it was enough. -/
def ReadsEnough (request : HttpRequestSpec) (all final : List UInt8) : Prop :=
  final <+: all ∧ (final = all ∨
    httpReadCriteriaMet (parseHttpResponseRead final none) request.method request.readMode
      request.minBodyBytes = true)

theorem readsEnough_of_done {request : HttpRequestSpec} {buf rest : List UInt8}
    (h : ReadDone request buf) (hcap : buf.length ≤ maxReadBytes request) :
    ReadsEnough request ((buf ++ rest).take (maxReadBytes request)) buf := by
  have hpre : buf <+: (buf ++ rest).take (maxReadBytes request) :=
    List.prefix_take_iff.mpr ⟨List.prefix_append buf rest, hcap⟩
  refine ⟨hpre, ?_⟩
  rcases h with hmet | hfull
  · exact Or.inr hmet
  · left
    refine hpre.eq_of_length ?_
    rw [List.length_take, List.length_append]
    omega

theorem readLoop_of_delivers (firstByteMs : Option Nat) {buf rest : List UInt8}
    {steps : List ReadStep} (h : Delivers task ctx buf rest steps)
    (hcap : buf.length ≤ maxReadBytes task.request) :
    ∃ final, readLoop task ctx firstByteMs buf steps = (final, .classify) ∧
      ReadsEnough task.request ((buf ++ rest).take (maxReadBytes task.request)) final := by
  have hall : ∀ buf : List UInt8, buf.length ≤ maxReadBytes task.request →
      ReadsEnough task.request ((buf ++ []).take (maxReadBytes task.request)) buf := by
    intro buf hcap
    rw [List.append_nil, List.take_of_length_le hcap]
    exact ⟨List.prefix_rfl, Or.inl rfl⟩
  induction h with
  | done hdone => exact ⟨_, readLoop_of_done hdone, readsEnough_of_done hdone hcap⟩
  | closed => exact ⟨_, rfl, hall _ hcap⟩
  | @eof buf step steps hstep =>
    refine ⟨buf, ?_, hall buf hcap⟩
    by_cases hdone : ReadDone task.request buf
    · exact readLoop_of_done hdone
    · rw [readLoop_of_receives hdone hstep (Nat.zero_le _), if_pos rfl]
  | @chunk buf data rest step steps hstep hdata hlen _ ih =>
    by_cases hdone : ReadDone task.request buf
    · exact ⟨buf, readLoop_of_done hdone, readsEnough_of_done hdone hcap⟩
    · have hcap' : (buf ++ data).length ≤ maxReadBytes task.request := by
        rw [List.length_append]
        omega
      obtain ⟨final, hfinal, henough⟩ := ih hcap'
      refine ⟨final, ?_, ?_⟩
      · rw [readLoop_of_receives hdone hstep hlen, if_neg hdata, hfinal]
      · rwa [List.append_assoc] at henough

/-! ## The result -/

/-- What was enough is judged like all of it. -/
theorem bufferVerdict_of_readsEnough {request : HttpRequestSpec} {baseline : Bool}
    {all final : List UInt8} (h : ReadsEnough request all final) :
    bufferVerdict request baseline final = bufferVerdict request baseline all := by
  obtain ⟨⟨more, rfl⟩, heq | hmet⟩ := h
  · rw [← heq]
  · have hparse := parse_append_of_headersComplete (headersComplete_of_criteriaMet hmet) more
    have hjudge : judge request (final ++ more) = judge request final := by
      unfold judge
      rw [hparse]
      exact classify_of_criteriaMet hmet (Nat.le_add_right _ more.length)
    rw [bufferVerdict, bufferVerdict, hjudge, hparse]

/-- The first read may bring more than the buffer takes. -/
theorem take_append_take {α : Type} (n : Nat) (first rest : List α) :
    (first.take n ++ rest).take n = (first ++ rest).take n := by
  rw [List.take_append, List.take_append, List.take_take, Nat.min_self, List.length_take]
  congr 2
  omega

theorem readVerdict_httpOverStream {stream : List UInt8} {script : HttpScript}
    {sourcePort : UInt16} {totalMs : Nat} {connectMs tlsMs : Option Nat}
    (h : DeliversStream task ctx stream script) :
    readVerdict (httpOverStream task ctx sourcePort script totalMs connectMs tlsMs) =
      streamVerdict task.request ctx.baseline stream := by
  obtain ⟨hwritten, first, rest, rfl, hfirst, hlen, hread, hdelivers⟩ := h
  have htake : first.take chunkSize = first := List.take_of_length_le hlen
  obtain ⟨final, hloop, henough⟩ := readLoop_of_delivers (some script.firstByteMs) hdelivers
    (List.length_take_le _ _)
  rw [take_append_take] at henough
  rw [streamVerdict, ← bufferVerdict_of_readsEnough henough]
  unfold httpOverStream
  simp only [hwritten, hread, htake, if_neg hfirst, hloop]
  rw [parseHttpResponseRead_firstByteMs final]
  rfl

/-- **Chunking does not change the verdict.** Two deliveries of one stream give the same verdict,
that on its first `max_read_bytes` bytes. -/
theorem chunking_irrelevant {stream : List UInt8} {script₁ script₂ : HttpScript}
    {sourcePort₁ sourcePort₂ : UInt16} {totalMs₁ totalMs₂ : Nat}
    {connectMs₁ connectMs₂ tlsMs₁ tlsMs₂ : Option Nat}
    (h₁ : DeliversStream task ctx stream script₁) (h₂ : DeliversStream task ctx stream script₂) :
    readVerdict (httpOverStream task ctx sourcePort₁ script₁ totalMs₁ connectMs₁ tlsMs₁) =
        readVerdict (httpOverStream task ctx sourcePort₂ script₂ totalMs₂ connectMs₂ tlsMs₂) ∧
      readVerdict (httpOverStream task ctx sourcePort₁ script₁ totalMs₁ connectMs₁ tlsMs₁) =
        streamVerdict task.request ctx.baseline stream :=
  ⟨(readVerdict_httpOverStream h₁).trans (readVerdict_httpOverStream h₂).symm,
    readVerdict_httpOverStream h₁⟩

/-- A request for at least three bytes of body. -/
def bodyTask : ProbeTask :=
  { (default : ProbeTask) with
    request :=
      { (default : HttpRequestSpec) with readMode := .body, minBodyBytes := 3, maxReadBytes := 64 }
    timeouts := { connectMs := 100, tlsMs := 100, firstByteMs := 100, totalMs := 1000 } }

/-- The chunks arrive one after the other, the first at once. -/
def chunkScript (first : String) (rest : List String) : HttpScript where
  write _ := .ok ()
  firstRead := .ok (.ok (Text.asciiBytes first))
  firstByteMs := 5
  reads := rest.map fun data =>
    { cancelled := false, elapsedMs := 10, answer := .ok (.ok (Text.asciiBytes data)) }

/-- A response cut inside the blank line, and the same response in one piece. -/
theorem chunking_irrelevant_cutHeader :
    ∃ stream ctx,
      readVerdict (httpOverStream bodyTask ctx 40000
        (chunkScript "HTTP/1.1 200 OK\r\n\r" ["\nhel", "lo"]) 30 (some 10) none) =
      readVerdict (httpOverStream bodyTask ctx 40001
        (chunkScript "HTTP/1.1 200 OK\r\n\r\nhello" []) 20 (some 10) none) ∧
      readVerdict (httpOverStream bodyTask ctx 40000
        (chunkScript "HTTP/1.1 200 OK\r\n\r" ["\nhel", "lo"]) 30 (some 10) none) =
      streamVerdict bodyTask.request ctx.baseline stream := by
  have hreceives : ∀ data, Receives bodyTask { qnum := 1, cancellation := true, baseline := false }
      { cancelled := false, elapsedMs := 10, answer := .ok (.ok (Text.asciiBytes data)) }
      (Text.asciiBytes data) := fun data => ⟨rfl, show (10 : Nat) < 1000 by decide, rfl⟩
  have hsplit : Text.asciiBytes "\nhello" = Text.asciiBytes "\nhel" ++ Text.asciiBytes "lo" := by
    decide +kernel
  refine ⟨Text.asciiBytes "HTTP/1.1 200 OK\r\n\r\nhello",
    { qnum := 1, cancellation := true, baseline := false }, chunking_irrelevant ?_ ?_⟩
  · refine ⟨rfl, Text.asciiBytes "HTTP/1.1 200 OK\r\n\r", Text.asciiBytes "\nhello",
      by decide +kernel, by decide +kernel, by decide +kernel, rfl, ?_⟩
    rw [hsplit]
    exact .chunk (hreceives "\nhel") (by decide +kernel) (by decide +kernel)
      (.done (by decide +kernel))
  · exact ⟨rfl, Text.asciiBytes "HTTP/1.1 200 OK\r\n\r\nhello", [], by decide +kernel,
      by decide +kernel, by decide +kernel, rfl, .closed⟩

end ZapretChecker.Probe
