import ZapretChecker.Config.App
import ZapretChecker.Probe.Chunks

/-!
# The limits of a request

`min_body_bytes` counts the body, `max_read_bytes` counts the headers with it. A request whose limits
are accepted may still ask for more body than the loop will read.

* `parse_take` — what a part of a response says
* `success_iff_fits` — when a response that is long enough is a success
-/

namespace ZapretChecker.Probe

open ZapretChecker.Config

variable {task : ProbeTask} {ctx : ProbeContext}

/-- 403 and 451 are no success. -/
theorem not_block_of_statusIsSuccess {status : UInt16}
    (h : statusIsSuccess (some status) = true) : isHttpBlockStatus status = false := by
  cases hb : isHttpBlockStatus status with
  | false => rfl
  | true =>
    simp only [isHttpBlockStatus, Bool.or_eq_true, beq_iff_eq] at hb
    rcases hb with rfl | rfl <;> simp [statusIsSuccess] at h

/-- A 2xx or 3xx response is a success unless a body is asked for that it does not have. -/
theorem classify_of_statusIsSuccess {read : HttpResponseRead} {method : HttpMethod}
    {readMode : ReadMode} {minBodyBytes : Nat} (hcomplete : read.headersComplete = true)
    (hstatus : statusIsSuccess read.status = true) (bodyBytes : Nat) :
    (classifyHttpResponse read.status read.headersComplete bodyBytes method readMode
      minBodyBytes).1 = .success ↔
      (method = .head ∨ readMode = .headers) ∨ minBodyBytes ≤ bodyBytes := by
  obtain ⟨status, hread⟩ : ∃ status, read.status = some status := by
    cases hread : read.status with
    | none => simp [hread, statusIsSuccess] at hstatus
    | some status => exact ⟨status, rfl⟩
  rw [hread] at hstatus ⊢
  have hblock := not_block_of_statusIsSuccess hstatus
  unfold classifyHttpResponse
  simp only [hcomplete, Bool.not_true, Bool.false_eq_true, if_false, hblock, hstatus]
  split
  · next hmode => simp [hmode]
  · next hmode =>
    rw [or_iff_right hmode]
    split <;> simp [*]

/-- A response with a body of `min_body_bytes` is a success if the headers and so much of the body
fit into `max_read_bytes`. -/
theorem success_iff_fits {stream : List UInt8} {script : HttpScript} {sourcePort : UInt16}
    {totalMs : Nat} {connectMs tlsMs : Option Nat} (hmethod : task.request.method = .get)
    (hmode : task.request.readMode ≠ .headers) (hdelivers : DeliversStream task ctx stream script)
    (hcomplete : (parseHttpResponseRead stream none).headersComplete = true)
    (hstatus : statusIsSuccess (parseHttpResponseRead stream none).status = true)
    (hbody : task.request.minBodyBytes ≤ (parseHttpResponseRead stream none).bodyBytes) :
    (httpOverStream task ctx sourcePort script totalMs connectMs tlsMs).outcome = .success ↔
      (parseHttpResponseRead stream none).headerBytes + task.request.minBodyBytes ≤
        maxReadBytes task.request := by
  have hverdict : (httpOverStream task ctx sourcePort script totalMs connectMs tlsMs).outcome =
      (judge task.request (stream.take (maxReadBytes task.request))).1 :=
    congrArg ReadVerdict.outcome (readVerdict_httpOverStream hdelivers)
  rw [hverdict]
  unfold judge
  rcases Nat.lt_or_ge (maxReadBytes task.request) (parseHttpResponseRead stream none).headerBytes
    with hlt | hle
  · -- the blank line is not read
    have hnone := not_headersComplete_take hcomplete hlt
    simp only [classifyHttpResponse, hnone, Bool.not_false, if_true]
    refine iff_of_false ProbeOutcome.noConfusion ?_
    omega
  · have hget : ¬ (task.request.method = .head ∨ task.request.readMode = .headers) := by
      simp [hmethod, hmode]
    rw [parse_take hcomplete hle, classify_of_statusIsSuccess hcomplete hstatus, or_iff_right hget]
    obtain ⟨idx, hidx⟩ := headersComplete_iff.mp hcomplete
    have hlen := headersEnd_le hidx
    rw [parse_of_headersEnd hidx] at hbody hle ⊢
    simp only at hbody hle ⊢
    omega

/-- A configuration with these limits. -/
def limitsConfig (minBodyBytes maxReadBytes : Nat) : AppConfig :=
  { (default : AppConfig) with probe := { backend := "native", minBodyBytes, maxReadBytes } }

/-- A task with the request of a configuration. -/
def configuredTask (cfg : AppConfig) : ProbeTask :=
  { bodyTask with request := ((requestFromConfig cfg none none none none).toOption).getD default }

def anyContext : ProbeContext := { qnum := 1, cancellation := true, baseline := false }

/-- 19 bytes of headers and 24 of body. -/
def exactResponse : String := "HTTP/1.1 200 OK\r\n\r\n<html>long enough</html>"

theorem exactResponse_delivered (task : ProbeTask) (ctx : ProbeContext) :
    DeliversStream task ctx (Text.asciiBytes exactResponse) (chunkScript exactResponse []) :=
  ⟨rfl, Text.asciiBytes exactResponse, [], by rw [List.append_nil], by decide +kernel,
    by decide +kernel, rfl, .closed⟩

theorem success_iff_fits_exact :
    (httpOverStream (configuredTask (limitsConfig 24 43)) anyContext 40000
      (chunkScript exactResponse []) 30 (some 10) none).outcome = .success :=
  (success_iff_fits rfl (by decide +kernel) (exactResponse_delivered _ _) (by decide +kernel)
    (by decide +kernel) (by decide +kernel)).mpr (by decide +kernel)

/-- Accepted limits that leave no room for the headers: the body is cut short. -/
theorem not_success_tight :
    requestFromConfig (limitsConfig 24 24) none none none none =
        .ok (configuredTask (limitsConfig 24 24)).request ∧
      (configuredTask (limitsConfig 24 24)).request.method = .get ∧
      (configuredTask (limitsConfig 24 24)).request.readMode = .body ∧
      DeliversStream (configuredTask (limitsConfig 24 24)) anyContext
        (Text.asciiBytes exactResponse) (chunkScript exactResponse []) ∧
      (parseHttpResponseRead (Text.asciiBytes exactResponse) none).status = some 200 ∧
      (parseHttpResponseRead (Text.asciiBytes exactResponse) none).bodyBytes = 24 ∧
      (httpOverStream (configuredTask (limitsConfig 24 24)) anyContext 40000
        (chunkScript exactResponse []) 30 (some 10) none).outcome = .bodyTooSmall := by
  refine ⟨by decide +kernel, by decide +kernel, by decide +kernel, exactResponse_delivered _ _,
    by decide +kernel, by decide +kernel, by decide +kernel⟩

end ZapretChecker.Probe
