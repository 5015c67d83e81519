import ZapretChecker.Probe.Prefix

/-!
# Reading goes forward

More bytes may complete the headers and make the body longer, nothing else. So what was reached is
not lost: the criteria that ended the loop stay met, and the transfer level does not fall.

* `Advances` — what a later read keeps of an earlier one
* `advances_parse` — more bytes advance
* `reading_advances` — with the criteria and the level
-/

namespace ZapretChecker.Probe

/-! ## Later reads -/

/-- `later` keeps what `read` has. -/
structure Advances (read later : HttpResponseRead) : Prop where
  body_le : read.bodyBytes ≤ later.bodyBytes
  complete : read.headersComplete = true → later.headersComplete = true
  headers : read.headersComplete = true → later.headerBytes = read.headerBytes
  status : read.headersComplete = true → later.status = read.status

/-- Without headers there is no body. -/
theorem bodyBytes_of_not_complete {buf : List UInt8} {firstByteMs : Option Nat}
    (h : ¬ (parseHttpResponseRead buf firstByteMs).headersComplete = true) :
    (parseHttpResponseRead buf firstByteMs).bodyBytes = 0 := by
  rw [headersComplete_iff] at h
  unfold parseHttpResponseRead
  cases hidx : headersEnd buf with
  | none => rfl
  | some idx => exact absurd ⟨idx, hidx⟩ h

theorem advances_parse (buf more : List UInt8) (firstByteMs : Option Nat) :
    Advances (parseHttpResponseRead buf firstByteMs)
      (parseHttpResponseRead (buf ++ more) firstByteMs) := by
  by_cases h : (parseHttpResponseRead buf firstByteMs).headersComplete = true
  · rw [parse_append_of_headersComplete h more]
    exact ⟨Nat.le_add_right _ _, id, fun _ => rfl, fun _ => rfl⟩
  · refine ⟨?_, fun hc => absurd hc h, fun hc => absurd hc h, fun hc => absurd hc h⟩
    rw [bodyBytes_of_not_complete h]
    exact Nat.zero_le _

/-! ## The criteria -/

/-- Criteria that are met stay met. -/
theorem Advances.criteriaMet {read later : HttpResponseRead} (h : Advances read later)
    {method : HttpMethod} {readMode : ReadMode} {minBodyBytes : Nat}
    (hmet : httpReadCriteriaMet read method readMode minBodyBytes = true) :
    httpReadCriteriaMet later method readMode minBodyBytes = true := by
  have hcomplete := headersComplete_of_criteriaMet hmet
  have hlater := h.complete hcomplete
  unfold httpReadCriteriaMet at hmet ⊢
  rw [h.status hcomplete, hlater]
  rw [hcomplete] at hmet
  by_cases hearly : method = .head ∨ readMode = .headers
  · rw [if_pos hearly]
    rfl
  rw [if_neg hearly] at hmet ⊢
  by_cases hblock : read.status.any isHttpBlockStatus = true
  · rw [if_pos hblock]
    rfl
  rw [if_neg hblock] at hmet ⊢
  by_cases hfailed : read.status.any (fun status => !statusIsSuccess (some status)) = true
  · rw [if_pos hfailed]
    rfl
  rw [if_neg hfailed] at hmet ⊢
  -- only the length of the body is left to look at
  cases readMode with
  | headers => rfl
  | body =>
    have hbody : minBodyBytes ≤ read.bodyBytes := of_decide_eq_true hmet
    exact decide_eq_true (hbody.trans h.body_le)
  | full => exact hmet

/-! ## The level -/

/-- The order of the levels. -/
def rank : TransferLevel → Nat
  | .none => 0
  | .connected => 1
  | .tlsHandshake => 2
  | .headers => 3
  | .body => 4
  | .verified => 5

theorem Advances.rank_le {read later : HttpResponseRead} (h : Advances read later)
    (connectMs tlsMs : Option Nat) (verifyTransferBytes : Nat) (usesTls : Bool) :
    rank (computeTransferLevel connectMs tlsMs read verifyTransferBytes usesTls) ≤
      rank (computeTransferLevel connectMs tlsMs later verifyTransferBytes usesTls) := by
  unfold computeTransferLevel
  by_cases hconnect : connectMs.isNone = true
  · rw [if_pos hconnect, if_pos hconnect]
  rw [if_neg hconnect, if_neg hconnect]
  by_cases hverified : verifyTransferBytes ≤ read.bodyBytes
  · rw [if_pos hverified, if_pos (hverified.trans h.body_le)]
  rw [if_neg hverified]
  by_cases hbody : 0 < read.bodyBytes
  · rw [if_pos hbody, if_pos (lt_of_lt_of_le hbody h.body_le)]
    split <;> decide
  rw [if_neg hbody]
  by_cases hheaders : read.headersComplete = true
  · rw [if_pos hheaders, if_pos (h.complete hheaders)]
    split
    · decide
    · split <;> decide
  rw [if_neg hheaders]
  -- the handshake is the same for both
  by_cases htls : (usesTls && tlsMs.isSome) = true
  · rw [if_pos htls]
    split
    · decide
    · split
      · decide
      · split <;> decide
  · rw [if_neg htls]
    split
    · decide
    · split
      · decide
      · split <;> decide

/-! ## Both -/

/-- **Reading never goes back.** -/
theorem reading_advances (buf more : List UInt8) (firstByteMs : Option Nat) :
    ((parseHttpResponseRead buf firstByteMs).headersComplete = true →
      (parseHttpResponseRead (buf ++ more) firstByteMs).headersComplete = true ∧
      (parseHttpResponseRead (buf ++ more) firstByteMs).headerBytes =
        (parseHttpResponseRead buf firstByteMs).headerBytes ∧
      (parseHttpResponseRead (buf ++ more) firstByteMs).status =
        (parseHttpResponseRead buf firstByteMs).status ∧
      (parseHttpResponseRead (buf ++ more) firstByteMs).bodyBytes =
        (parseHttpResponseRead buf firstByteMs).bodyBytes + more.length) ∧
    (∀ method readMode minBodyBytes,
      httpReadCriteriaMet (parseHttpResponseRead buf firstByteMs) method readMode minBodyBytes =
        true →
      httpReadCriteriaMet (parseHttpResponseRead (buf ++ more) firstByteMs) method readMode
        minBodyBytes = true) ∧
    ∀ connectMs tlsMs verifyTransferBytes usesTls,
      rank (computeTransferLevel connectMs tlsMs (parseHttpResponseRead buf firstByteMs)
          verifyTransferBytes usesTls) ≤
        rank (computeTransferLevel connectMs tlsMs
          (parseHttpResponseRead (buf ++ more) firstByteMs) verifyTransferBytes usesTls) := by
  have hadvances := advances_parse buf more firstByteMs
  refine ⟨?_, fun _ _ _ hmet => hadvances.criteriaMet hmet, hadvances.rank_le⟩
  intro hcomplete
  refine ⟨hadvances.complete hcomplete, hadvances.headers hcomplete, hadvances.status hcomplete, ?_⟩
  rw [parse_append_of_headersComplete hcomplete more]

/-- Four more bytes of body. -/
theorem reading_advances_body :
    (parseHttpResponseRead (Text.asciiBytes "HTTP/1.1 200 OK\r\n\r\nh" ++ Text.asciiBytes "ello")
      none).bodyBytes =
    (parseHttpResponseRead (Text.asciiBytes "HTTP/1.1 200 OK\r\n\r\nh") none).bodyBytes +
      (Text.asciiBytes "ello").length :=
  ((reading_advances (Text.asciiBytes "HTTP/1.1 200 OK\r\n\r\nh") (Text.asciiBytes "ello") none).1
    (by decide +kernel)).2.2.2

end ZapretChecker.Probe
