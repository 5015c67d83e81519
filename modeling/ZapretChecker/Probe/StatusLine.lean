import ZapretChecker.Lib.Utf8
import ZapretChecker.Lib.Words
import ZapretChecker.Probe.Prefix

/-!
# The status line

Which bytes of a header block decide the status that `parse_http_status` reports.
-/

namespace ZapretChecker.Probe

open Text

/-! ## The parts of a header block -/

/-- The first line, without its newline and the carriage return before it. -/
def firstLine (buf : List UInt8) : List UInt8 :=
  let line := buf.takeWhile (· ≠ 10)
  if line.getLast? = some 13 then line.dropLast else line

/-- What the header block has after the first line. -/
def headerFields (buf : List UInt8) : List UInt8 :=
  match headersEnd buf with
  | some idx => ((buf.take (idx + 4)).dropWhile (· ≠ 10)).drop 1
  | none => []

/-- A word that begins with `HTTP/`, then a number. -/
def wordsStatus : List (List Char) → Option UInt16
  | proto :: code :: _ =>
    if "HTTP/".toList.isPrefixOf proto then (parseUnsigned 65535 code).map UInt16.ofNat else none
  | _ => none

/-- The status a line carries. -/
def lineStatus (line : List UInt8) : Option UInt16 :=
  (decodeUtf8 line).bind fun s => wordsStatus (splitWhitespace s)

/-- The header block ends with a newline. -/
theorem newline_mem_block {buf : List UInt8} {idx : Nat} (h : headersEnd buf = some idx) :
    10 ∈ buf.take (idx + 4) := by
  induction buf generalizing idx with
  | nil => cases h
  | cons b bs ih =>
    rw [headersEnd] at h
    split at h
    · next hprefix =>
      obtain rfl := Option.some.inj h
      have htake : (b :: bs).take (0 + 4) = crlfCrlf :=
        (List.prefix_iff_eq_take.mp (List.isPrefixOf_iff_prefix.mp hprefix)).symm
      rw [htake]
      decide
    · obtain ⟨i, hi, rfl⟩ := Option.map_eq_some_iff.mp h
      rw [Nat.add_right_comm, List.take_succ_cons]
      exact List.mem_cons_of_mem b (ih hi)

/-- A text is cut at its first newline. -/
theorem cut_at_newline {line : List UInt8} (h : 10 ∉ line) (rest : List UInt8) :
    (line ++ 10 :: rest).takeWhile (· ≠ 10) = line ∧
      (line ++ 10 :: rest).dropWhile (· ≠ 10) = 10 :: rest := by
  have hall : ∀ b ∈ line, decide (b ≠ 10) = true := by
    intro b hb
    rw [decide_eq_true_eq]
    rintro rfl
    exact h hb
  rw [List.takeWhile_append_of_pos hall, List.dropWhile_append_of_pos hall,
    List.takeWhile_cons_of_neg (by simp), List.dropWhile_cons_of_neg (by simp), List.append_nil]
  exact ⟨rfl, rfl⟩

/-- The header block is the first line, a newline and the header fields. -/
theorem block_eq {buf : List UInt8} {idx : Nat} (h : headersEnd buf = some idx) :
    10 ∉ buf.takeWhile (· ≠ 10) ∧
      buf.take (idx + 4) = buf.takeWhile (· ≠ 10) ++ 10 :: headerFields buf := by
  obtain ⟨line, fields, hblock, hline⟩ := List.eq_append_cons_of_mem (newline_mem_block h)
  have hbuf : buf = line ++ 10 :: (fields ++ buf.drop (idx + 4)) := by
    rw [← List.cons_append, ← List.append_assoc, ← hblock, List.take_append_drop]
  have htake : buf.takeWhile (· ≠ 10) = line := by
    rw [hbuf]
    exact (cut_at_newline hline _).1
  have hfields : headerFields buf = fields := by
    unfold headerFields
    rw [h]
    show ((buf.take (idx + 4)).dropWhile (· ≠ 10)).drop 1 = fields
    rw [hblock, (cut_at_newline hline fields).2, List.drop_succ_cons, List.drop_zero]
  rw [htake, hfields]
  exact ⟨hline, hblock⟩

/-! ## The first line alone -/

/-- A carriage return at the end does not count. -/
theorem lineStatus_concat_cr (line : List UInt8) : lineStatus (line ++ [13]) = lineStatus line := by
  unfold lineStatus
  cases hline : decodeUtf8 line with
  | none =>
    cases hd : decodeUtf8 (line ++ [13]) with
    | none => rfl
    | some s =>
      obtain ⟨t, -, ht, -, -⟩ := (decodeUtf8_append_cons (by decide)).mp hd
      rw [hline] at ht
      cases ht
  | some t =>
    rw [(decodeUtf8_append_cons (by decide)).mpr ⟨t, [], hline, rfl, rfl⟩, Option.bind_some,
      Option.bind_some, splitWhitespace_append_cons (by decide), splitWhitespace_nil,
      List.append_nil]

theorem lineStatus_firstLine (buf : List UInt8) :
    lineStatus (firstLine buf) = lineStatus (buf.takeWhile (· ≠ 10)) := by
  simp only [firstLine]
  split
  · next hlast =>
    obtain ⟨line, hline⟩ := List.getLast?_eq_some_iff.mp hlast
    rw [hline, List.dropLast_concat, lineStatus_concat_cr]
  · rfl

/-- On a text of several lines the parser looks at the first. -/
theorem parseHttpStatus_lines {bytes : List UInt8} {line fields : List Char}
    (h : decodeUtf8 bytes = some (line ++ '\n' :: fields)) (hline : '\n' ∉ line) :
    (parseHttpStatus bytes).toOption = wordsStatus (splitWhitespace line) := by
  unfold parseHttpStatus
  simp only [h, head_lines hline, splitWhitespace_stripCr]
  rcases splitWhitespace line with _ | ⟨proto, _ | ⟨code, parts⟩⟩
  · rfl
  · simp only
    split <;> rfl
  · simp only [ite_not, wordsStatus]
    split
    · cases parseUnsigned 65535 code <;> rfl
    · rfl

/-- The status is the first line's, if the header fields are well-formed UTF-8. -/
theorem status_parse {buf : List UInt8} {idx : Nat} (h : headersEnd buf = some idx)
    (firstByteMs : Option Nat) :
    (parseHttpResponseRead buf firstByteMs).status =
      if (decodeUtf8 (headerFields buf)).isSome then lineStatus (firstLine buf) else none := by
  obtain ⟨hnewline, hblock⟩ := block_eq h
  have hstatus : (parseHttpResponseRead buf firstByteMs).status =
      (parseHttpStatus (buf.take (idx + 4))).toOption := by
    unfold parseHttpResponseRead
    rw [h]
  rw [hstatus, lineStatus_firstLine]
  unfold lineStatus
  cases hd : decodeUtf8 (buf.take (idx + 4)) with
  | none =>
    have herror : (parseHttpStatus (buf.take (idx + 4))).toOption = none := by
      unfold parseHttpStatus
      rw [hd]
      rfl
    rw [herror]
    split
    · next hfields =>
      -- the header fields decode, so the line does not
      obtain ⟨t, ht⟩ := Option.isSome_iff_exists.mp hfields
      cases hl : decodeUtf8 (buf.takeWhile (· ≠ 10)) with
      | none => rfl
      | some s =>
        rw [hblock, (decodeUtf8_append_cons (by decide)).mpr ⟨s, t, hl, ht, rfl⟩] at hd
        cases hd
    · rfl
  | some s =>
    rw [hblock] at hd
    obtain ⟨line, fields, hl, hf, rfl⟩ := (decodeUtf8_append_cons (by decide)).mp hd
    have hline : '\n' ∉ line := notMem_of_decodeUtf8 (by decide) (by decide) hl hnewline
    rw [hblock, parseHttpStatus_lines hd hline, hl, hf]
    rfl

/-! ## The shape of a status line -/

def digitByte (d : Fin 10) : UInt8 := UInt8.ofNat (48 + d)

/-- `HTTP/1.x`, a space, three digits and what follows them. -/
def statusLine (x d₁ d₂ d₃ : Fin 10) (tail : List UInt8) : List UInt8 :=
  asciiBytes "HTTP/1." ++
    digitByte x :: 32 :: digitByte d₁ :: digitByte d₂ :: digitByte d₃ :: tail

theorem digitByte_spec (d : Fin 10) :
    digitByte d < 0x80 ∧ Char.ofNat (digitByte d).toNat = Nat.digitChar d := by
  revert d
  decide

theorem parseUnsigned_three (d₁ d₂ d₃ : Fin 10) :
    parseUnsigned 65535 [Nat.digitChar d₁, Nat.digitChar d₂, Nat.digitChar d₃] =
      some (100 * d₁.val + 10 * d₂.val + d₃.val) := by
  have hvalue : Nat.ofDigitChars 10 [Nat.digitChar d₁, Nat.digitChar d₂, Nat.digitChar d₃] 0 =
      100 * d₁.val + 10 * d₂.val + d₃.val := by
    rw [Nat.ofDigitChars_cons_digitChar_of_lt_ten d₁.isLt,
      Nat.ofDigitChars_cons_digitChar_of_lt_ten d₂.isLt,
      Nat.ofDigitChars_cons_digitChar_of_lt_ten d₃.isLt, Nat.ofDigitChars_nil]
    omega
  have hdigits : ∀ c ∈ [Nat.digitChar d₁, Nat.digitChar d₂, Nat.digitChar d₃],
      c.isDigit = true := by
    have hdigit : ∀ d : Fin 10, (Nat.digitChar d).isDigit = true := by decide
    simp [hdigit]
  rw [parseUnsigned_digits (by simp) hdigits (by omega), hvalue]

theorem wordsStatus_line (x d₁ d₂ d₃ : Fin 10) {after : List Char}
    (hafter : ∀ c ∈ after.head?, isWhitespace c = true) :
    wordsStatus (splitWhitespace ("HTTP/1.".toList ++ [Nat.digitChar x] ++
      ' ' :: ([Nat.digitChar d₁, Nat.digitChar d₂, Nat.digitChar d₃] ++ after))) =
      some (UInt16.ofNat (100 * d₁ + 10 * d₂ + d₃)) := by
  have hproto : IsWord ("HTTP/1.".toList ++ [Nat.digitChar x]) := by
    revert x
    decide
  have hprefix : "HTTP/".toList.isPrefixOf ("HTTP/1.".toList ++ [Nat.digitChar x]) = true := by
    revert x
    decide
  have hcode : IsWord [Nat.digitChar d₁, Nat.digitChar d₂, Nat.digitChar d₃] := by
    have hword : ∀ d : Fin 10, isWhitespace (Nat.digitChar d) = false := by decide
    exact ⟨by simp, by simp [hword]⟩
  obtain ⟨words, hwords⟩ : ∃ words, splitWhitespace
      ([Nat.digitChar d₁, Nat.digitChar d₂, Nat.digitChar d₃] ++ after) =
        [Nat.digitChar d₁, Nat.digitChar d₂, Nat.digitChar d₃] :: words := by
    cases after with
    | nil => exact ⟨[], by rw [List.append_nil, splitWhitespace_word hcode]⟩
    | cons c after => exact ⟨_, splitWhitespace_word_cons hcode (hafter c rfl) after⟩
  rw [splitWhitespace_word_cons hproto (by decide), hwords, wordsStatus, if_pos hprefix,
    parseUnsigned_three]
  rfl

/-- A line of this shape carries the number its digits write. -/
theorem lineStatus_statusLine (x d₁ d₂ d₃ : Fin 10) {tail : List UInt8}
    (hascii : ∀ b ∈ tail, b < 0x80) (hspace : ∀ b ∈ tail.head?, b = 32) :
    lineStatus (statusLine x d₁ d₂ d₃ tail) =
      some (UInt16.ofNat (100 * d₁ + 10 * d₂ + d₃)) := by
  have hall : ∀ b ∈ statusLine x d₁ d₂ d₃ tail, b < 0x80 := by
    have hhttp : ∀ b ∈ asciiBytes "HTTP/1.", b < 0x80 := by decide +kernel
    intro b hb
    simp only [statusLine, List.mem_append, List.mem_cons] at hb
    rcases hb with hb | rfl | rfl | rfl | rfl | rfl | hb
    · exact hhttp b hb
    · exact (digitByte_spec x).1
    · decide
    · exact (digitByte_spec d₁).1
    · exact (digitByte_spec d₂).1
    · exact (digitByte_spec d₃).1
    · exact hascii b hb
  have hhttp : (asciiBytes "HTTP/1.").map (fun b => Char.ofNat b.toNat) = "HTTP/1.".toList := by
    decide
  unfold lineStatus
  rw [decodeUtf8_of_ascii hall, Option.bind_some, statusLine, List.map_append, hhttp]
  simp only [List.map_cons, (digitByte_spec _).2]
  have hafter : ∀ c ∈ (tail.map fun b => Char.ofNat b.toNat).head?, isWhitespace c = true := by
    intro c hc
    rw [List.head?_map] at hc
    obtain ⟨b, hb, rfl⟩ := Option.map_eq_some_iff.mp hc
    rw [hspace b hb]
    decide
  simpa using wordsStatus_line x d₁ d₂ d₃ hafter

/-! ## Two blocks with one first line -/

/-- `HTTP/1.1 200 OK`, with a byte in a header field that is not UTF-8. -/
def latinHeader : List UInt8 :=
  asciiBytes "HTTP/1.1 200 OK\r\nServer: caf" ++ 0xE9 :: asciiBytes "\r\n\r\n"

def plainHeader : List UInt8 := asciiBytes "HTTP/1.1 200 OK\r\nServer: cafe\r\n\r\n"

/-- The status of a header block is its first line's if the other header fields are UTF-8, and
there is none if they are not. -/
theorem status_decided_iff {buf₁ buf₂ : List UInt8} {firstByteMs₁ firstByteMs₂ : Option Nat}
    (h₁ : (parseHttpResponseRead buf₁ firstByteMs₁).headersComplete = true)
    (h₂ : (parseHttpResponseRead buf₂ firstByteMs₂).headersComplete = true)
    (hline : firstLine buf₁ = firstLine buf₂) :
    ((parseHttpResponseRead buf₁ firstByteMs₁).status =
        (parseHttpResponseRead buf₂ firstByteMs₂).status ↔
      lineStatus (firstLine buf₁) = none ∨
        (decodeUtf8 (headerFields buf₁)).isSome = (decodeUtf8 (headerFields buf₂)).isSome) ∧
    ∀ (x d₁ d₂ d₃ : Fin 10) (tail : List UInt8), (∀ b ∈ tail, b < 0x80) →
      (∀ b ∈ tail.head?, b = 32) → firstLine buf₁ = statusLine x d₁ d₂ d₃ tail →
      ((parseHttpResponseRead buf₁ firstByteMs₁).status =
          some (UInt16.ofNat (100 * d₁ + 10 * d₂ + d₃)) ↔
        (decodeUtf8 (headerFields buf₁)).isSome = true) := by
  obtain ⟨idx₁, hidx₁⟩ := headersComplete_iff.mp h₁
  obtain ⟨idx₂, hidx₂⟩ := headersComplete_iff.mp h₂
  rw [status_parse hidx₁, status_parse hidx₂, ← hline]
  refine ⟨?_, fun x d₁ d₂ d₃ tail hascii hspace hshape => ?_⟩
  · cases (decodeUtf8 (headerFields buf₁)).isSome <;>
      cases (decodeUtf8 (headerFields buf₂)).isSome <;> simp [eq_comm]
  · rw [hshape, lineStatus_statusLine x d₁ d₂ d₃ hascii hspace]
    cases (decodeUtf8 (headerFields buf₁)).isSome <;> simp

theorem status_decided_iff_plain :
    (parseHttpResponseRead plainHeader none).status = some 200 := by
  have hplain : (parseHttpResponseRead plainHeader none).headersComplete = true := by
    decide +kernel
  have hlatin : (parseHttpResponseRead latinHeader none).headersComplete = true := by
    decide +kernel
  have hshape : firstLine plainHeader = statusLine 1 2 0 0 (asciiBytes " OK") := by decide +kernel
  have hiff := (status_decided_iff hplain hlatin (by decide +kernel)).2 1 2 0 0 (asciiBytes " OK")
    (by decide +kernel) (by decide +kernel) hshape
  exact hiff.mpr (by decide +kernel)

/-- One of two blocks with the same first line loses its status. -/
theorem not_status_decided_latin :
    firstLine latinHeader = asciiBytes "HTTP/1.1 200 OK" ∧
      firstLine plainHeader = asciiBytes "HTTP/1.1 200 OK" ∧
      (parseHttpResponseRead latinHeader none).headersComplete = true ∧
      (parseHttpResponseRead plainHeader none).headersComplete = true ∧
      (parseHttpResponseRead latinHeader none).status = none ∧
      (parseHttpResponseRead plainHeader none).status = some 200 := by
  decide +kernel

end ZapretChecker.Probe
