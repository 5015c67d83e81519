import ZapretChecker.Probe.Limits

/-!
# Transfer diagnostics

The read loop stops at the first buffer that meets the read criteria. How far that buffer goes beyond
them depends on the chunks, and the transfer level and the suspicion of interference are computed
from its length.

* `stopLength` — the least number of bytes that meets the criteria
* `final_of_delivers` — where the loop may stop
* `exists_delivery` — it may stop everywhere there
* `peerDetermined_iff` — when the diagnostics do not depend on the chunks
-/

namespace ZapretChecker.Probe

open ZapretChecker.Config

variable {task : ProbeTask} {ctx : ProbeContext} {request : HttpRequestSpec}

/-! ## The criteria on prefixes -/

/-- The headers alone meet the criteria. -/
def EndsAtHeaders (request : HttpRequestSpec) (status : Option UInt16) : Prop :=
  request.method = .head ∨ request.readMode = .headers ∨
    ∃ s ∈ status, isHttpBlockStatus s = true ∨ statusIsSuccess (some s) = false

instance (request : HttpRequestSpec) (status : Option UInt16) :
    Decidable (EndsAtHeaders request status) :=
  inferInstanceAs (Decidable (_ ∨ _ ∨ _))

/-- The least number of bytes that meets the criteria, from all that can be read. -/
def stopLength (request : HttpRequestSpec) (read : HttpResponseRead) : Option Nat :=
  if !read.headersComplete then none
  else if EndsAtHeaders request read.status then some read.headerBytes
  else if request.readMode = .body ∧ request.minBodyBytes ≤ read.bodyBytes then
    some (read.headerBytes + request.minBodyBytes)
  else none

/-- The criteria hold of a buffer. -/
def EnoughRead (request : HttpRequestSpec) (buf : List UInt8) : Prop :=
  httpReadCriteriaMet (parseHttpResponseRead buf none) request.method request.readMode
    request.minBodyBytes = true

theorem criteriaMet_iff (read : HttpResponseRead) :
    httpReadCriteriaMet read request.method request.readMode request.minBodyBytes = true ↔
      read.headersComplete = true ∧ (EndsAtHeaders request read.status ∨
        request.readMode = .body ∧ request.minBodyBytes ≤ read.bodyBytes) := by
  unfold httpReadCriteriaMet EndsAtHeaders
  cases hcomplete : read.headersComplete with
  | false => simp
  | true =>
    cases read.status <;> cases request.method <;> cases request.readMode <;> simp [or_assoc]

theorem headerBytes_le_stopLength {read : HttpResponseRead} {t : Nat}
    (h : stopLength request read = some t) : read.headerBytes ≤ t := by
  unfold stopLength at h
  split at h
  · cases h
  split at h
  · exact (Option.some.inj h).le
  split at h
  · obtain rfl := Option.some.inj h
    exact Nat.le_add_right _ _
  · cases h

/-- All that can be read meets the criteria if there is a length that does. -/
theorem stopLength_le {all : List UInt8} {t : Nat}
    (h : stopLength request (parseHttpResponseRead all none) = some t) :
    (parseHttpResponseRead all none).headersComplete = true ∧ 4 ≤ t ∧ t ≤ all.length := by
  cases hidx : headersEnd all with
  | none =>
    have hread : parseHttpResponseRead all none =
        { (default : HttpResponseRead) with totalBytes := all.length } := by
      unfold parseHttpResponseRead
      rw [hidx]
      rfl
    rw [hread] at h
    cases h
  | some idx =>
    have hlen := headersEnd_le hidx
    have hle := headerBytes_le_stopLength h
    rw [parse_of_headersEnd hidx] at h hle ⊢
    unfold stopLength at h
    simp only [Bool.not_true, Bool.false_eq_true, if_false] at h hle ⊢
    refine ⟨trivial, by omega, ?_⟩
    split at h
    · obtain rfl := Option.some.inj h
      exact hlen
    split at h
    · next hbody =>
      obtain rfl := Option.some.inj h
      have := hbody.2
      omega
    · cases h

/-- The prefixes that meet the criteria are those of this length or more. -/
theorem enoughRead_take_iff {all : List UInt8} {n : Nat} (hn : n ≤ all.length) :
    EnoughRead request (all.take n) ↔
      ∃ t, stopLength request (parseHttpResponseRead all none) = some t ∧ t ≤ n := by
  unfold EnoughRead
  rw [criteriaMet_iff]
  cases hcomplete : (parseHttpResponseRead all none).headersComplete with
  | false =>
    refine iff_of_false ?_ ?_
    · rintro ⟨htake, -⟩
      obtain ⟨idx, hidx⟩ := headersComplete_iff.mp htake
      have hmore := headersEnd_append hidx (all.drop n)
      rw [List.take_append_drop] at hmore
      rw [headersComplete_iff.mpr ⟨idx, hmore⟩] at hcomplete
      cases hcomplete
    · rintro ⟨t, ht, -⟩
      rw [(stopLength_le ht).1] at hcomplete
      cases hcomplete
  | true =>
    rcases Nat.lt_or_ge n (parseHttpResponseRead all none).headerBytes with hlt | hge
    · rw [not_headersComplete_take hcomplete hlt]
      refine iff_of_false (by simp) ?_
      rintro ⟨t, ht, htn⟩
      have := headerBytes_le_stopLength ht
      omega
    · have hlen : (parseHttpResponseRead all none).bodyBytes =
          all.length - (parseHttpResponseRead all none).headerBytes := by
        obtain ⟨idx, hidx⟩ := headersComplete_iff.mp hcomplete
        rw [parse_of_headersEnd hidx]
      rw [parse_take hcomplete hge]
      unfold stopLength
      simp only [hcomplete, Bool.not_true, Bool.false_eq_true, if_false, true_and, hlen]
      by_cases hends : EndsAtHeaders request (parseHttpResponseRead all none).status
      · simp [hends, hge]
      by_cases hmode : request.readMode = .body
      · simp only [hends, hmode, if_false, true_and, false_or]
        split
        · simp only [Option.some.injEq, exists_eq_left']
          omega
        · simp only [reduceCtorEq, false_and, exists_false, iff_false]
          omega
      · simp [hends, hmode]

theorem enoughRead_iff_of_isPrefix {all buf : List UInt8} (h : buf <+: all) :
    EnoughRead request buf ↔
      ∃ t, stopLength request (parseHttpResponseRead all none) = some t ∧ t ≤ buf.length := by
  rw [← enoughRead_take_iff h.length_le, ← List.prefix_iff_eq_take.mp h]

/-! ## Where the loop stops -/

/-- A buffer that goes beyond the criteria goes there with one chunk. -/
theorem readLoop_length_lt {t : Nat} (firstByteMs : Option Nat) {buf rest : List UInt8}
    {steps : List ReadStep} (h : Delivers task ctx buf rest steps)
    (henough : ∀ more, more <+: buf ++ rest → more.length ≤ maxReadBytes task.request →
      t ≤ more.length → EnoughRead task.request more)
    (hcap : buf.length ≤ maxReadBytes task.request) (hbuf : buf.length < t + chunkSize) :
    (readLoop task ctx firstByteMs buf steps).1.length < t + chunkSize := by
  induction h with
  | done hdone => rwa [readLoop_of_done hdone]
  | closed => exact hbuf
  | @eof buf step steps hstep =>
    by_cases hdone : ReadDone task.request buf
    · rwa [readLoop_of_done hdone]
    · rwa [readLoop_of_receives hdone hstep (Nat.zero_le _), if_pos rfl]
  | @chunk buf data rest step steps hstep hdata hlen _ ih =>
    by_cases hdone : ReadDone task.request buf
    · rwa [readLoop_of_done hdone]
    · rw [readLoop_of_receives hdone hstep hlen, if_neg hdata]
      -- the loop has not stopped before this chunk
      have hshort : buf.length < t := by
        by_contra hge
        exact hdone (Or.inl (henough buf (List.prefix_append _ _) hcap (not_lt.mp hge)))
      rw [← List.append_assoc] at henough
      refine ih henough ?_ ?_ <;> rw [List.length_append] <;> omega

/-- The bytes of a stream the loop can read. -/
def readable (request : HttpRequestSpec) (stream : List UInt8) : List UInt8 :=
  stream.take (maxReadBytes request)

/-- The last length the loop can come to, if `t` bytes meet the criteria. -/
def mostRead (request : HttpRequestSpec) (stream : List UInt8) (t : Nat) : Nat :=
  min (readable request stream).length (t - 1 + chunkSize)

/-- The lengths the loop may stop at. -/
def StopsAt (request : HttpRequestSpec) (stream : List UInt8) (n : Nat) : Prop :=
  match stopLength request (parseHttpResponseRead (readable request stream) none) with
  | none => n = (readable request stream).length
  | some t => t ≤ n ∧ n ≤ mostRead request stream t

/-- The part of a result that describes the transfer. -/
def diagnostics (r : ProbeResult) : TransferLevel × Bool := (r.transferLevel, r.dpiSuspicious)

/-- The diagnostics of a buffer. -/
def bufferDiagnostics (task : ProbeTask) (connectMs tlsMs : Option Nat) (buf : List UInt8) :
    TransferLevel × Bool :=
  (computeTransferLevel connectMs tlsMs (parseHttpResponseRead buf none)
      task.request.verifyTransferBytes (usesTls task.protocol),
    decide (buf.length < task.request.dpiDetectionBytes) && (judge task.request buf).1 != .success)

theorem totalBytes_parse (buf : List UInt8) (firstByteMs : Option Nat) :
    (parseHttpResponseRead buf firstByteMs).totalBytes = buf.length := by
  unfold parseHttpResponseRead
  cases headersEnd buf <;> rfl

/-- The result of a response that is classified. -/
theorem diagnostics_of_readLoop {script : HttpScript} {sourcePort : UInt16} {totalMs : Nat}
    {connectMs tlsMs : Option Nat} {first final : List UInt8}
    (hwritten : script.write (buildHttpRequest task) = .ok ())
    (hread : script.firstRead = .ok (.ok first)) (hfirst : first ≠ [])
    (hlen : first.length ≤ chunkSize)
    (hloop : readLoop task ctx (some script.firstByteMs) (first.take (maxReadBytes task.request))
      script.reads = (final, .classify)) :
    diagnostics (httpOverStream task ctx sourcePort script totalMs connectMs tlsMs) =
      bufferDiagnostics task connectMs tlsMs final := by
  have htake : first.take chunkSize = first := List.take_of_length_le hlen
  unfold httpOverStream
  simp only [hwritten, hread, htake, if_neg hfirst, hloop]
  rw [parseHttpResponseRead_firstByteMs final]
  have htotal := totalBytes_parse final none
  unfold diagnostics buildHttpProbeResult bufferDiagnostics computeDpiSuspicious judge
  simp only [htotal, HttpResponseRead.started, Option.isSome_some, Bool.true_or, Bool.true_and]
  rfl

theorem length_readable_le (request : HttpRequestSpec) (stream : List UInt8) :
    (readable request stream).length ≤ maxReadBytes request :=
  List.length_take_le _ _

/-- A buffer that is read to the end, or far enough and not much further. -/
theorem stopsAt_of_isPrefix {request : HttpRequestSpec} {stream final : List UInt8}
    (hfinal : final <+: readable request stream)
    (hreads : final = readable request stream ∨ EnoughRead request final)
    (hmost : ∀ t, stopLength request (parseHttpResponseRead (readable request stream) none) =
      some t → final.length < t + chunkSize) : StopsAt request stream final.length := by
  have henough : EnoughRead request final ↔ _ := enoughRead_iff_of_isPrefix hfinal
  unfold StopsAt
  cases hstop : stopLength request (parseHttpResponseRead (readable request stream) none) with
  | none =>
    rcases hreads with heq | hmet
    · exact congrArg List.length heq
    · obtain ⟨t, ht, -⟩ := henough.mp hmet
      rw [hstop] at ht
      cases ht
  | some t =>
    obtain ⟨-, hfour, ht⟩ := stopLength_le hstop
    have hlt := hmost t hstop
    refine ⟨?_, le_min hfinal.length_le (by omega)⟩
    rcases hreads with heq | hmet
    · rw [heq]
      exact ht
    · obtain ⟨t', ht', hle⟩ := henough.mp hmet
      rw [hstop] at ht'
      rwa [Option.some.inj ht']

/-- Every delivery stops there. -/
theorem stopsAt_of_delivers {stream : List UInt8} {script : HttpScript} {sourcePort : UInt16}
    {totalMs : Nat} {connectMs tlsMs : Option Nat} (h : DeliversStream task ctx stream script) :
    ∃ n, StopsAt task.request stream n ∧
      diagnostics (httpOverStream task ctx sourcePort script totalMs connectMs tlsMs) =
        bufferDiagnostics task connectMs tlsMs ((readable task.request stream).take n) := by
  obtain ⟨hwritten, first, rest, rfl, hfirst, hlen, hread, hdelivers⟩ := h
  obtain ⟨final, hloop, hprefix, hreads⟩ := readLoop_of_delivers (some script.firstByteMs)
    hdelivers (List.length_take_le _ _)
  rw [take_append_take] at hprefix hreads
  refine ⟨final.length, stopsAt_of_isPrefix hprefix hreads fun t hstop => ?_, ?_⟩
  · have hlt := readLoop_length_lt (t := t) (some script.firstByteMs) hdelivers ?_
      (List.length_take_le _ _) ?_
    · rwa [hloop] at hlt
    · intro more hmore hcap htmore
      have hmore : more <+: readable task.request (first ++ rest) := by
        unfold readable
        rw [← take_append_take]
        exact List.prefix_take_iff.mpr ⟨hmore, hcap⟩
      exact (enoughRead_iff_of_isPrefix hmore).mpr ⟨t, hstop, htmore⟩
    · obtain ⟨-, hfour, -⟩ := stopLength_le hstop
      have hle := List.length_take_le (maxReadBytes task.request) first
      rw [List.length_take]
      omega
  · have hall : (readable task.request (first ++ rest)).take final.length = final :=
      (List.prefix_iff_eq_take.mp hprefix).symm
    rw [hall]
    exact diagnostics_of_readLoop hwritten hread hfirst hlen hloop

/-! ## Every such length is reached -/

section Reached

variable {stream : List UInt8} {firstByteMs : Option Nat} {final : List UInt8}

theorem take_readable {n : Nat} (h : n ≤ (readable request stream).length) :
    (readable request stream).take n = stream.take n := by
  have := length_readable_le request stream
  unfold readable
  rw [List.take_take, Nat.min_eq_left (h.trans this)]

/-- One more chunk, before the loop is done. -/
theorem exists_reads_chunk {k m : Nat} (htime : 0 < task.timeouts.totalMs) (hkm : k < m)
    (hm : m ≤ k + chunkSize) (hlen : m ≤ (readable task.request stream).length)
    (hdone : ¬ ReadDone task.request (stream.take k))
    (h : ∃ steps, Delivers task ctx (stream.take m) (stream.drop m) steps ∧
      readLoop task ctx firstByteMs (stream.take m) steps = (final, .classify)) :
    ∃ steps, Delivers task ctx (stream.take k) (stream.drop k) steps ∧
      readLoop task ctx firstByteMs (stream.take k) steps = (final, .classify) := by
  obtain ⟨steps, hdelivers, hloop⟩ := h
  have hcap := length_readable_le task.request stream
  have hstream : (readable task.request stream).length ≤ stream.length := by
    unfold readable
    exact List.length_take_le' _ _
  let data := (stream.drop k).take (m - k)
  let step : ReadStep := { cancelled := false, elapsedMs := 0, answer := .ok (.ok data) }
  have hlength : data.length = m - k := by
    show ((stream.drop k).take (m - k)).length = m - k
    rw [List.length_take, List.length_drop]
    omega
  have hdata : data ≠ [] := by
    intro h
    rw [h, List.length_nil] at hlength
    omega
  have hbuf : stream.take k ++ data = stream.take m := by
    rw [← Nat.add_sub_cancel' hkm.le, List.take_add]
  have hrest : stream.drop k = data ++ stream.drop m := by
    have hdrop : stream.drop m = (stream.drop k).drop (m - k) := by
      rw [List.drop_drop, Nat.add_sub_cancel' hkm.le]
    rw [hdrop]
    exact (List.take_append_drop _ _).symm
  have hreceives : Receives task ctx step data := ⟨Bool.and_false _, htime, rfl⟩
  have hfits : data.length ≤
      min (maxReadBytes task.request - (stream.take k).length) chunkSize := by
    rw [hlength, List.length_take]
    omega
  refine ⟨step :: steps, ?_, ?_⟩
  · rw [hrest]
    exact .chunk hreceives hdata hfits (hbuf ▸ hdelivers)
  · rw [readLoop_of_receives hdone hreceives hfits, if_neg hdata, hbuf, hloop]

/-- The loop goes on before the criteria are met. -/
theorem not_readDone_take {t k : Nat}
    (hstop : stopLength request (parseHttpResponseRead (readable request stream) none) = some t)
    (hk : k < t) : ¬ ReadDone request (stream.take k) := by
  obtain ⟨-, -, ht⟩ := stopLength_le hstop
  have hcap := length_readable_le request stream
  have hlen : k ≤ (readable request stream).length := by omega
  rintro (hmet | hfull)
  · rw [← take_readable hlen] at hmet
    obtain ⟨t', ht', hle⟩ := (enoughRead_take_iff hlen).mp hmet
    obtain rfl := Option.some.inj (hstop.symm.trans ht')
    omega
  · rw [List.length_take] at hfull
    omega

/-- Single bytes up to the last one that does not meet the criteria, then one chunk. -/
theorem exists_reads {t n k : Nat} (htime : 0 < task.timeouts.totalMs)
    (hstop : stopLength task.request
      (parseHttpResponseRead (readable task.request stream) none) = some t)
    (htn : t ≤ n) (hn : n ≤ mostRead task.request stream t) (hk : k < t) :
    ∃ steps, Delivers task ctx (stream.take k) (stream.drop k) steps ∧
      readLoop task ctx firstByteMs (stream.take k) steps = (stream.take n, .classify) := by
  obtain ⟨-, hfour, ht⟩ := stopLength_le hstop
  obtain ⟨hall, hmost⟩ := Nat.le_min.mp hn
  have hdone := not_readDone_take hstop hk
  induction hd : t - 1 - k generalizing k with
  | zero =>
    refine exists_reads_chunk htime (show k < n by omega) (by omega) hall hdone ⟨[], ?_, rfl⟩
    refine .done (Or.inl ?_)
    rw [← take_readable hall]
    exact (enoughRead_take_iff hall).mpr ⟨t, hstop, htn⟩
  | succ d ih =>
    have hnext : k + 1 < t := by omega
    exact exists_reads_chunk htime (Nat.lt_succ_self k) (by unfold chunkSize; omega) (by omega)
      hdone (ih hnext (not_readDone_take hstop hnext) (by omega))

/-- A delivery that stops at the given length. -/
theorem exists_delivery (ctx : ProbeContext) {t n : Nat} (htime : 0 < task.timeouts.totalMs)
    (hstop : stopLength task.request
      (parseHttpResponseRead (readable task.request stream) none) = some t)
    (htn : t ≤ n) (hn : n ≤ mostRead task.request stream t) :
    ∃ script, DeliversStream task ctx stream script ∧
      ∀ sourcePort totalMs connectMs tlsMs,
        diagnostics (httpOverStream task ctx sourcePort script totalMs connectMs tlsMs) =
          bufferDiagnostics task connectMs tlsMs ((readable task.request stream).take n) := by
  obtain ⟨-, hfour, ht⟩ := stopLength_le hstop
  have hcap := length_readable_le task.request stream
  have hstream : (readable task.request stream).length ≤ stream.length := by
    unfold readable
    exact List.length_take_le' _ _
  obtain ⟨steps, hdelivers, hloop⟩ : ∃ steps,
      Delivers task ctx (stream.take 1) (stream.drop 1) steps ∧
        readLoop task ctx (some 0) (stream.take 1) steps = (stream.take n, .classify) :=
    exists_reads htime hstop htn hn (by omega)
  have hlength : (stream.take 1).length = 1 := by
    rw [List.length_take]
    omega
  have hfirst : stream.take 1 ≠ [] := by
    intro h
    rw [h] at hlength
    cases hlength
  have htake : (stream.take 1).take (maxReadBytes task.request) = stream.take 1 :=
    List.take_of_length_le (by omega)
  have hchunk : (stream.take 1).length ≤ chunkSize := by
    rw [hlength]
    decide
  refine ⟨{ write := fun _ => .ok (), firstRead := .ok (.ok (stream.take 1)), firstByteMs := 0,
            reads := steps },
    ⟨rfl, stream.take 1, stream.drop 1, (List.take_append_drop 1 stream).symm, hfirst, hchunk, rfl,
      htake.symm ▸ hdelivers⟩, fun sourcePort totalMs connectMs tlsMs => ?_⟩
  rw [take_readable (Nat.le_min.mp hn).1]
  exact diagnostics_of_readLoop rfl rfl hfirst hchunk (htake.symm ▸ hloop)

end Reached

/-! ## The diagnostics of the lengths -/

/-- The transfer level after `n` bytes that meet the criteria. -/
def levelAt (request : HttpRequestSpec) (read : HttpResponseRead) (n : Nat) : TransferLevel :=
  if request.verifyTransferBytes ≤ n - read.headerBytes then .verified
  else if read.headerBytes < n then .body
  else .headers

/-- The suspicion after `n` bytes that meet the criteria. -/
def suspiciousAt (request : HttpRequestSpec) (read : HttpResponseRead) (n : Nat) : Bool :=
  decide (n < request.dpiDetectionBytes) && !statusIsSuccess read.status

/-- What meets the criteria is a success if its status is. -/
theorem classify_success_iff {read : HttpResponseRead}
    (h : httpReadCriteriaMet read request.method request.readMode request.minBodyBytes = true) :
    (classifyHttpResponse read.status read.headersComplete read.bodyBytes request.method
      request.readMode request.minBodyBytes).1 = .success ↔ statusIsSuccess read.status = true := by
  obtain ⟨hcomplete, hends⟩ := (criteriaMet_iff read).mp h
  refine ⟨fun h => (classifyHttpResponse_success h).2, fun hstatus => ?_⟩
  rw [classify_of_statusIsSuccess hcomplete hstatus]
  rcases hends with (hhead | hheaders | ⟨status, hs, hfinal⟩) | hbody
  · exact Or.inl (Or.inl hhead)
  · exact Or.inl (Or.inr hheaders)
  · rw [Option.mem_def.mp hs] at hstatus
    rcases hfinal with hblock | hfail
    · exact absurd hblock (by simp [not_block_of_statusIsSuccess hstatus])
    · exact absurd hstatus (by simp [hfail])
  · exact Or.inr hbody.2

theorem bufferDiagnostics_take {all : List UInt8} {connectMs : Nat} {tlsMs : Option Nat} {t n : Nat}
    (hstop : stopLength task.request (parseHttpResponseRead all none) = some t) (htn : t ≤ n)
    (hn : n ≤ all.length) :
    bufferDiagnostics task (some connectMs) tlsMs (all.take n) =
      (levelAt task.request (parseHttpResponseRead all none) n,
        suspiciousAt task.request (parseHttpResponseRead all none) n) := by
  obtain ⟨hcomplete, -, -⟩ := stopLength_le hstop
  have hheader := (headerBytes_le_stopLength hstop).trans htn
  have hjudge : (judge task.request (all.take n)).1 = .success ↔
      statusIsSuccess (parseHttpResponseRead all none).status = true := by
    have hstatus : (parseHttpResponseRead (all.take n) none).status =
        (parseHttpResponseRead all none).status := by rw [parse_take hcomplete hheader]
    rw [← hstatus]
    exact classify_success_iff ((enoughRead_take_iff hn).mpr ⟨t, hstop, htn⟩)
  have hoff : ((judge task.request (all.take n)).1 != .success) =
      !statusIsSuccess (parseHttpResponseRead all none).status := by
    rw [Bool.eq_iff_iff, bne_iff_ne, Bool.not_eq_true', ne_eq, hjudge, Bool.not_eq_true]
  have hlevel : computeTransferLevel (some connectMs) tlsMs (parseHttpResponseRead (all.take n) none)
      task.request.verifyTransferBytes (usesTls task.protocol) =
        levelAt task.request (parseHttpResponseRead all none) n := by
    rw [parse_take hcomplete hheader, Nat.min_eq_left hn]
    unfold computeTransferLevel levelAt
    simp only [Option.isNone_some, Bool.false_eq_true, if_false, hcomplete, if_true,
      Nat.sub_pos_iff_lt]
  unfold bufferDiagnostics
  rw [hlevel, hoff, List.length_take, Nat.min_eq_left hn]
  rfl

/-- The chunks do not matter: no threshold of the diagnostics lies between the least and the most
that is read. -/
structure Unaffected (request : HttpRequestSpec) (read : HttpResponseRead) (least most : Nat) :
    Prop where
  verify : request.verifyTransferBytes ≤ least - read.headerBytes ∨
    most - read.headerBytes < request.verifyTransferBytes
  body : request.verifyTransferBytes = 0 ∨ read.headerBytes < least ∨ most = read.headerBytes
  dpi : statusIsSuccess read.status = true ∨ request.dpiDetectionBytes ≤ least ∨
    most < request.dpiDetectionBytes

theorem levelAt_eq {read : HttpResponseRead} {least most n : Nat}
    (h : Unaffected request read least most) (hheader : read.headerBytes ≤ least)
    (hleast : least ≤ n) (hmost : n ≤ most) : levelAt request read n = levelAt request read least := by
  obtain ⟨hverify, hbody, -⟩ := h
  unfold levelAt
  rcases hverify with hdone | hnever
  · rw [if_pos (hdone.trans (Nat.sub_le_sub_right hleast _)), if_pos hdone]
  · have hn : ¬ request.verifyTransferBytes ≤ n - read.headerBytes := by omega
    have hl : ¬ request.verifyTransferBytes ≤ least - read.headerBytes := by omega
    have hsame : read.headerBytes < n ↔ read.headerBytes < least := by omega
    simp only [hn, hl, hsame, if_false]

theorem suspiciousAt_eq {read : HttpResponseRead} {least most n : Nat}
    (h : Unaffected request read least most) (hleast : least ≤ n) (hmost : n ≤ most) :
    suspiciousAt request read n = suspiciousAt request read least := by
  unfold suspiciousAt
  rcases h.dpi with hsuccess | hdpi
  · rw [hsuccess, Bool.not_true, Bool.and_false, Bool.and_false]
  · have hsame : n < request.dpiDetectionBytes ↔ least < request.dpiDetectionBytes := by omega
    simp only [hsame]

/-- The least and the most that is read decide. -/
theorem unaffected_of_eq {read : HttpResponseRead} {least most : Nat}
    (hheader : read.headerBytes ≤ least) (hmost : least ≤ most)
    (hlevel : levelAt request read most = levelAt request read least)
    (hsuspicious : suspiciousAt request read most = suspiciousAt request read least) :
    Unaffected request read least most := by
  unfold levelAt at hlevel
  refine ⟨?_, ?_, ?_⟩
  · by_contra hne
    have hl : ¬ request.verifyTransferBytes ≤ least - read.headerBytes := by omega
    rw [if_pos (by omega), if_neg hl] at hlevel
    split at hlevel <;> cases hlevel
  · by_contra hne
    have hl : ¬ request.verifyTransferBytes ≤ least - read.headerBytes := by omega
    have hnone : ¬ read.headerBytes < least := by omega
    have hsome : read.headerBytes < most := by omega
    rw [if_neg hl, if_neg hnone, if_pos hsome] at hlevel
    split at hlevel <;> cases hlevel
  · by_contra hne
    rw [not_or, Bool.not_eq_true] at hne
    unfold suspiciousAt at hsuspicious
    rw [hne.1, Bool.not_false, Bool.and_true, Bool.and_true, decide_eq_decide] at hsuspicious
    omega

/-! ## The streams -/

/-- The diagnostics depend on the peer's stream only. -/
def PeerDetermined (request : HttpRequestSpec) (stream : List UInt8) : Prop :=
  ∀ (task : ProbeTask) (ctx : ProbeContext) (script₁ script₂ : HttpScript)
    (sourcePort₁ sourcePort₂ : UInt16) (totalMs₁ totalMs₂ connectMs₁ connectMs₂ : Nat)
    (tlsMs₁ tlsMs₂ : Option Nat),
    task.request = request → tlsMs₁.isSome = tlsMs₂.isSome →
    DeliversStream task ctx stream script₁ → DeliversStream task ctx stream script₂ →
    let r₁ := httpOverStream task ctx sourcePort₁ script₁ totalMs₁ (some connectMs₁) tlsMs₁
    let r₂ := httpOverStream task ctx sourcePort₂ script₂ totalMs₂ (some connectMs₂) tlsMs₂
    r₁.transferLevel = r₂.transferLevel ∧ r₁.dpiSuspicious = r₂.dpiSuspicious

/-- The times themselves do not count. -/
theorem bufferDiagnostics_congr {connectMs₁ connectMs₂ : Nat} {tlsMs₁ tlsMs₂ : Option Nat}
    (h : tlsMs₁.isSome = tlsMs₂.isSome) (buf : List UInt8) :
    bufferDiagnostics task (some connectMs₁) tlsMs₁ buf =
      bufferDiagnostics task (some connectMs₂) tlsMs₂ buf := by
  unfold bufferDiagnostics computeTransferLevel
  rw [h]
  rfl

/-- The diagnostics of a delivery, if its stream meets the criteria. -/
theorem diagnostics_of_stop {stream : List UInt8} {script : HttpScript} {t : Nat}
    (h : DeliversStream task ctx stream script)
    (hstop : stopLength task.request
      (parseHttpResponseRead (readable task.request stream) none) = some t)
    (sourcePort : UInt16) (totalMs connectMs : Nat) (tlsMs : Option Nat) :
    ∃ n, t ≤ n ∧ n ≤ mostRead task.request stream t ∧
      diagnostics (httpOverStream task ctx sourcePort script totalMs (some connectMs) tlsMs) =
        (levelAt task.request (parseHttpResponseRead (readable task.request stream) none) n,
          suspiciousAt task.request
            (parseHttpResponseRead (readable task.request stream) none) n) := by
  obtain ⟨n, hn, hdiag⟩ := stopsAt_of_delivers h
  unfold StopsAt at hn
  rw [hstop] at hn
  obtain ⟨htn, hmost⟩ := hn
  exact ⟨n, htn, hmost,
    hdiag.trans (bufferDiagnostics_take hstop htn (Nat.le_min.mp hmost).1)⟩

/-- **When the segmentation does not show.** -/
theorem peerDetermined_iff (request : HttpRequestSpec) (stream : List UInt8) :
    PeerDetermined request stream ↔
      ∀ t, stopLength request (parseHttpResponseRead (readable request stream) none) = some t →
        Unaffected request (parseHttpResponseRead (readable request stream) none) t
          (mostRead request stream t) := by
  constructor
  · intro h t hstop
    obtain ⟨-, hfour, ht⟩ := stopLength_le hstop
    have hmost : t ≤ mostRead request stream t := by
      unfold mostRead chunkSize
      omega
    let task : ProbeTask := { bodyTask with request := request }
    have htime : 0 < task.timeouts.totalMs := show 0 < 1000 by decide
    -- one delivery that stops at the least length, one that stops at the most
    obtain ⟨script₁, hdelivers₁, h₁⟩ := exists_delivery anyContext htime hstop hmost le_rfl
    obtain ⟨script₂, hdelivers₂, h₂⟩ := exists_delivery anyContext htime hstop le_rfl hmost
    have hsame := h task anyContext script₁ script₂ 0 0 0 0 0 0 none none rfl rfl hdelivers₁
      hdelivers₂
    have hdiag := (h₁ 0 0 (some 0) none).symm.trans
      ((Prod.ext hsame.1 hsame.2).trans (h₂ 0 0 (some 0) none))
    rw [bufferDiagnostics_take hstop hmost (Nat.le_min.mp le_rfl).1,
      bufferDiagnostics_take hstop le_rfl ht] at hdiag
    obtain ⟨hlevel, hsuspicious⟩ := Prod.mk.inj hdiag
    exact unaffected_of_eq (headerBytes_le_stopLength hstop) hmost hlevel hsuspicious
  · intro h task ctx script₁ script₂ sourcePort₁ sourcePort₂ totalMs₁ totalMs₂ connectMs₁ connectMs₂
      tlsMs₁ tlsMs₂ hrequest htls hdelivers₁ hdelivers₂
    subst hrequest
    suffices hdiag : diagnostics (httpOverStream task ctx sourcePort₁ script₁ totalMs₁
        (some connectMs₁) tlsMs₁) = diagnostics (httpOverStream task ctx sourcePort₂ script₂ totalMs₂
        (some connectMs₂) tlsMs₂) from Prod.mk.inj hdiag
    cases hstop : stopLength task.request
      (parseHttpResponseRead (readable task.request stream) none) with
    | none =>
      obtain ⟨n₁, hn₁, h₁⟩ := stopsAt_of_delivers hdelivers₁
      obtain ⟨n₂, hn₂, h₂⟩ := stopsAt_of_delivers hdelivers₂
      unfold StopsAt at hn₁ hn₂
      rw [hstop] at hn₁ hn₂
      rw [h₁, h₂, hn₁, hn₂, bufferDiagnostics_congr htls]
    | some t =>
      obtain ⟨n₁, htn₁, hn₁, h₁⟩ := diagnostics_of_stop hdelivers₁ hstop sourcePort₁ totalMs₁
        connectMs₁ tlsMs₁
      obtain ⟨n₂, htn₂, hn₂, h₂⟩ := diagnostics_of_stop hdelivers₂ hstop sourcePort₂ totalMs₂
        connectMs₂ tlsMs₂
      have hheader := headerBytes_le_stopLength hstop
      have hunaffected := h t hstop
      rw [h₁, h₂, levelAt_eq hunaffected hheader htn₁ hn₁, levelAt_eq hunaffected hheader htn₂ hn₂,
        suspiciousAt_eq hunaffected htn₁ hn₁, suspiciousAt_eq hunaffected htn₂ hn₂]

/-- One byte of body is asked for, three are a verified transfer. -/
def transferTask : ProbeTask :=
  configuredTask
    { (default : AppConfig) with probe := { backend := "native", verifyTransferBytes := 3 } }

/-- One stream in one chunk and in two: the second stops after one byte of body. -/
theorem not_peerDetermined_cut :
    requestFromConfig
        { (default : AppConfig) with probe := { backend := "native", verifyTransferBytes := 3 } }
        none none none none = .ok transferTask.request ∧
      DeliversStream transferTask anyContext (Text.asciiBytes "HTTP/1.1 200 OK\r\n\r\nhello")
        (chunkScript "HTTP/1.1 200 OK\r\n\r\nhello" []) ∧
      DeliversStream transferTask anyContext (Text.asciiBytes "HTTP/1.1 200 OK\r\n\r\nhello")
        (chunkScript "HTTP/1.1 200 OK\r\n\r\nh" ["ello"]) ∧
      (httpOverStream transferTask anyContext 40000
        (chunkScript "HTTP/1.1 200 OK\r\n\r\nhello" []) 30 (some 10) none).transferLevel =
          .verified ∧
      (httpOverStream transferTask anyContext 40000
        (chunkScript "HTTP/1.1 200 OK\r\n\r\nh" ["ello"]) 30 (some 10) none).transferLevel =
          .body := by
  refine ⟨by decide +kernel, ?_, ?_, by decide +kernel, by decide +kernel⟩
  · exact ⟨rfl, Text.asciiBytes "HTTP/1.1 200 OK\r\n\r\nhello", [], by decide +kernel,
      by decide +kernel, by decide +kernel, rfl, .closed⟩
  · exact ⟨rfl, Text.asciiBytes "HTTP/1.1 200 OK\r\n\r\nh", Text.asciiBytes "ello",
      by decide +kernel, by decide +kernel, by decide +kernel, rfl, .done (by decide +kernel)⟩

end ZapretChecker.Probe
