import ZapretChecker.Probe.Http

/-!
# Responses read in part

What `parse_http_response_read` says of a buffer, and what stays of it when more bytes arrive: once
the headers are complete, only the length of the body still grows.
-/

namespace ZapretChecker.Probe

/-! ## The end of the headers -/

theorem headersEnd_le {buf : List UInt8} {idx : Nat} (h : headersEnd buf = some idx) :
    idx + 4 ≤ buf.length := by
  induction buf generalizing idx with
  | nil => cases h
  | cons b bs ih =>
    rw [headersEnd] at h
    split at h
    · next hprefix =>
      obtain rfl := Option.some.inj h
      exact (List.isPrefixOf_iff_prefix.mp hprefix).length_le
    · obtain ⟨i, hi, rfl⟩ := Option.map_eq_some_iff.mp h
      have := ih hi
      rw [List.length_cons]
      omega

/-- The first blank line stays the first one. -/
theorem headersEnd_append {buf : List UInt8} {idx : Nat} (h : headersEnd buf = some idx)
    (more : List UInt8) : headersEnd (buf ++ more) = some idx := by
  induction buf generalizing idx with
  | nil => cases h
  | cons b bs ih =>
    rw [headersEnd] at h
    rw [List.cons_append, headersEnd]
    split at h
    · next hprefix =>
      have hlonger : crlfCrlf.isPrefixOf (b :: (bs ++ more)) = true := by
        rw [List.isPrefixOf_iff_prefix] at hprefix ⊢
        exact hprefix.trans (List.prefix_append (b :: bs) more)
      rw [if_pos hlonger]
      exact h
    · next hprefix =>
      obtain ⟨i, hi, rfl⟩ := Option.map_eq_some_iff.mp h
      have hlen := headersEnd_le hi
      -- a blank line at the front would lie in the part that was there before
      have hlonger : ¬ crlfCrlf.isPrefixOf (b :: (bs ++ more)) = true := by
        intro hfront
        rw [List.isPrefixOf_iff_prefix] at hfront
        refine hprefix (List.isPrefixOf_iff_prefix.mpr ?_)
        refine List.prefix_of_prefix_length_le hfront (List.prefix_append (b :: bs) more) ?_
        show 4 ≤ bs.length + 1
        omega
      rw [if_neg hlonger, ih hi]
      rfl

theorem headersEnd_take_of_le {buf : List UInt8} {idx n : Nat} (h : headersEnd buf = some idx)
    (hn : idx + 4 ≤ n) : headersEnd (buf.take n) = some idx := by
  induction buf generalizing idx n with
  | nil => cases h
  | cons b bs ih =>
    obtain ⟨n, rfl⟩ := Nat.exists_eq_add_of_le' (show 1 ≤ n by omega)
    rw [headersEnd] at h
    rw [List.take_succ_cons, headersEnd, ← List.take_succ_cons]
    split at h
    · next hprefix =>
      obtain rfl := Option.some.inj h
      rw [List.isPrefixOf_iff_prefix] at hprefix
      have htake : crlfCrlf <+: (b :: bs).take (n + 1) := List.prefix_take_iff.mpr (And.intro hprefix hn)
      rw [if_pos (List.isPrefixOf_iff_prefix.mpr htake)]
    · next hprefix =>
      obtain ⟨i, hi, rfl⟩ := Option.map_eq_some_iff.mp h
      have htake : ¬ crlfCrlf.isPrefixOf ((b :: bs).take (n + 1)) = true := by
        intro hfront
        rw [List.isPrefixOf_iff_prefix] at hfront
        exact hprefix (List.isPrefixOf_iff_prefix.mpr (hfront.trans (List.take_prefix _ _)))
      rw [if_neg htake, ih hi (by omega)]
      rfl

/-- A prefix has the blank line if it reaches to its end. -/
theorem headersEnd_take {buf : List UInt8} {idx : Nat} (h : headersEnd buf = some idx) (n : Nat) :
    headersEnd (buf.take n) = if idx + 4 ≤ n then some idx else none := by
  split
  · next hn => exact headersEnd_take_of_le h hn
  · next hn =>
    cases htake : headersEnd (buf.take n) with
    | none => rfl
    | some j =>
      have hlen := headersEnd_le htake
      have hmore := headersEnd_append htake (buf.drop n)
      rw [List.take_append_drop, h] at hmore
      obtain rfl := Option.some.inj hmore
      rw [List.length_take] at hlen
      omega

/-! ## The parsed buffer -/

/-- The clock only passes through the parser. -/
theorem parseHttpResponseRead_firstByteMs (buf : List UInt8) (firstByteMs : Option Nat) :
    parseHttpResponseRead buf firstByteMs =
      { parseHttpResponseRead buf none with firstByteMs := firstByteMs } := by
  unfold parseHttpResponseRead
  cases headersEnd buf <;> rfl

theorem headersComplete_iff {buf : List UInt8} {firstByteMs : Option Nat} :
    (parseHttpResponseRead buf firstByteMs).headersComplete = true ↔
      ∃ idx, headersEnd buf = some idx := by
  unfold parseHttpResponseRead
  cases headersEnd buf with
  | none => simp
  | some idx => simp

/-- The counters of a read add up, or there are no headers and no body yet. -/
theorem counters_parse (buf : List UInt8) (firstByteMs : Option Nat) :
    let read := parseHttpResponseRead buf firstByteMs
    (read.totalBytes = read.headerBytes + read.bodyBytes ∧ 4 ≤ read.headerBytes) ∨
      (read.headerBytes = 0 ∧ read.bodyBytes = 0) := by
  unfold parseHttpResponseRead
  cases hidx : headersEnd buf with
  | none => exact Or.inr ⟨rfl, rfl⟩
  | some idx =>
    have := headersEnd_le hidx
    refine Or.inl ⟨?_, Nat.le_add_left 4 idx⟩
    show buf.length = idx + 4 + (buf.length - (idx + 4))
    omega

/-- After the headers, more bytes are more body and nothing else. -/
theorem parse_append_of_headersComplete {buf : List UInt8} {firstByteMs : Option Nat}
    (h : (parseHttpResponseRead buf firstByteMs).headersComplete = true) (more : List UInt8) :
    parseHttpResponseRead (buf ++ more) firstByteMs =
      { parseHttpResponseRead buf firstByteMs with
        bodyBytes := (parseHttpResponseRead buf firstByteMs).bodyBytes + more.length
        totalBytes := (parseHttpResponseRead buf firstByteMs).totalBytes + more.length } := by
  obtain ⟨idx, hidx⟩ := headersComplete_iff.mp h
  have hlen := headersEnd_le hidx
  have hbody : buf.length + more.length - (idx + 4) = buf.length - (idx + 4) + more.length := by
    omega
  unfold parseHttpResponseRead
  rw [headersEnd_append hidx more, hidx]
  simp only [List.take_append_of_le_length hlen, List.length_append, hbody]

/-- The buffer, once its headers are complete. -/
theorem parse_of_headersEnd {buf : List UInt8} {idx : Nat} (h : headersEnd buf = some idx)
    (firstByteMs : Option Nat) :
    parseHttpResponseRead buf firstByteMs =
      { status := (parseHttpStatus (buf.take (idx + 4))).toOption
        headerBytes := idx + 4
        bodyBytes := buf.length - (idx + 4)
        totalBytes := buf.length
        firstByteMs := firstByteMs
        headersComplete := true } := by
  unfold parseHttpResponseRead
  rw [h]

/-- A part of a response that has the headers. -/
theorem parse_take {stream : List UInt8} {firstByteMs : Option Nat}
    (h : (parseHttpResponseRead stream firstByteMs).headersComplete = true) {n : Nat}
    (hn : (parseHttpResponseRead stream firstByteMs).headerBytes ≤ n) :
    parseHttpResponseRead (stream.take n) firstByteMs =
      { parseHttpResponseRead stream firstByteMs with
        bodyBytes := min n stream.length - (parseHttpResponseRead stream firstByteMs).headerBytes
        totalBytes := min n stream.length } := by
  obtain ⟨idx, hidx⟩ := headersComplete_iff.mp h
  rw [parse_of_headersEnd hidx] at hn ⊢
  have htake : headersEnd (stream.take n) = some idx := by rw [headersEnd_take hidx, if_pos hn]
  rw [parse_of_headersEnd htake, List.take_take, Nat.min_eq_left hn, List.length_take]

/-- A part that ends before the headers do. -/
theorem not_headersComplete_take {stream : List UInt8} {firstByteMs : Option Nat}
    (h : (parseHttpResponseRead stream firstByteMs).headersComplete = true) {n : Nat}
    (hn : n < (parseHttpResponseRead stream firstByteMs).headerBytes) :
    (parseHttpResponseRead (stream.take n) firstByteMs).headersComplete = false := by
  obtain ⟨idx, hidx⟩ := headersComplete_iff.mp h
  rw [parse_of_headersEnd hidx] at hn
  have htake : headersEnd (stream.take n) = none := by
    rw [headersEnd_take hidx, if_neg (not_le.mpr hn)]
  unfold parseHttpResponseRead
  rw [htake]

/-! ## The criteria -/

theorem headersComplete_of_criteriaMet {read : HttpResponseRead} {method : HttpMethod}
    {readMode : ReadMode} {minBodyBytes : Nat}
    (h : httpReadCriteriaMet read method readMode minBodyBytes = true) :
    read.headersComplete = true := by
  unfold httpReadCriteriaMet at h
  split at h
  · cases h
  · next hc => simpa using hc

/-- Once the criteria are met, a longer body makes no difference to the judgement. -/
theorem classify_of_criteriaMet {read : HttpResponseRead} {method : HttpMethod}
    {readMode : ReadMode} {minBodyBytes bodyBytes : Nat}
    (h : httpReadCriteriaMet read method readMode minBodyBytes = true)
    (hbody : read.bodyBytes ≤ bodyBytes) :
    classifyHttpResponse read.status read.headersComplete bodyBytes method readMode minBodyBytes =
      classifyHttpResponse read.status read.headersComplete read.bodyBytes method readMode
        minBodyBytes := by
  unfold classifyHttpResponse
  split
  · rfl
  split
  · rfl
  next status hstatus =>
  split
  · rfl
  next hblock =>
  split
  · rfl
  next hsuccess =>
  split
  · rfl
  next hmode =>
  -- a 2xx or 3xx response to a GET: the criterion is the length of the body
  have hmet : minBodyBytes ≤ read.bodyBytes := by
    have hcomplete := headersComplete_of_criteriaMet h
    rw [not_or] at hmode
    cases hread : readMode with
    | headers => exact absurd hread hmode.2
    | body =>
      simpa [httpReadCriteriaMet, hread, hcomplete, hmode.1, hstatus, hblock, hsuccess] using h
    | full =>
      simp [httpReadCriteriaMet, hread, hcomplete, hmode.1, hstatus, hblock, hsuccess] at h
  rw [if_pos hmet, if_pos (hmet.trans hbody)]

end ZapretChecker.Probe
