import ZapretChecker.Lib.Text

/-!
# UTF-8 and ASCII

An ASCII byte is no part of a longer sequence, so well-formed bytes can be cut there.

* `Sequence` — the bytes of one character that is not ASCII
* `decodeUtf8_cases` — well-formed bytes begin with an ASCII byte or a sequence
* `decodeUtf8_append_cons` — the cut
* `notMem_of_decodeUtf8` — an ASCII character comes from its own byte
-/

namespace Text

/-! ## Sequences -/

theorem inRange_iff {lo hi b : UInt8} :
    inRange lo hi b = true ↔ lo.toNat ≤ b.toNat ∧ b.toNat ≤ hi.toNat := by
  simp [inRange, UInt8.le_iff_toNat_le]

theorem not_ascii_iff {b : UInt8} : ¬ b < 0x80 ↔ 0x80 ≤ b.toNat := by
  rw [UInt8.lt_iff_toNat_lt, not_lt]
  rfl

/-- A number that is no character becomes the character zero. -/
theorem toNat_ofNat_of_ge {n : Nat} (h : 0x80 ≤ n) :
    (Char.ofNat n).toNat = 0 ∨ 0x80 ≤ (Char.ofNat n).toNat := by
  by_cases hvalid : n.isValidChar
  · right
    rw [Char.ofNat, dif_pos hvalid]
    exact h
  · left
    rw [Char.ofNat, dif_neg hvalid]
    rfl

/-- The bytes of one character beyond ASCII. -/
structure Sequence (block : List UInt8) (c : Char) : Prop where
  ne_nil : block ≠ []
  high : ∀ b ∈ block, 0x80 ≤ b.toNat
  char : c.toNat = 0 ∨ 0x80 ≤ c.toNat
  decode : ∀ bs, decodeUtf8 (block ++ bs) = (decodeUtf8 bs).map (c :: ·)

theorem decodeUtf8_ascii_cons {b : UInt8} (hb : b < 0x80) (bs : List UInt8) :
    decodeUtf8 (b :: bs) = (decodeUtf8 bs).map (Char.ofNat b.toNat :: ·) := by
  rw [decodeUtf8.eq_def]
  exact if_pos hb

/-! ## The lengths -/

theorem sequence_two {b₀ b₁ : UInt8} (h₀ : inRange 0xC2 0xDF b₀ = true)
    (h₁ : inRange 0x80 0xBF b₁ = true) :
    Sequence [b₀, b₁] (Char.ofNat (b₀.toNat % 32 * 64 + low6 b₁)) := by
  have hr₀ := inRange_iff.mp h₀
  have hr₁ := inRange_iff.mp h₁
  simp only [UInt8.reduceToNat] at hr₀ hr₁
  refine ⟨by simp, ?_, toNat_ofNat_of_ge (by omega), fun bs => ?_⟩
  · simp only [List.mem_cons, List.not_mem_nil, or_false, forall_eq_or_imp, forall_eq]
    omega
  · have hhigh : ¬ b₀ < 0x80 := not_ascii_iff.mpr (by omega)
    rw [List.cons_append, List.cons_append, List.nil_append, decodeUtf8.eq_def]
    simp only [if_neg hhigh, h₀, h₁, if_true]

/-- What the second byte of a sequence of three may be. -/
theorem low_second_three {b₀ b₁ : UInt8} (h₀ : inRange 0xE0 0xEF b₀ = true)
    (h₁ : inRange (if b₀ = 0xE0 then 0xA0 else 0x80) (if b₀ = 0xED then 0x9F else 0xBF) b₁ = true) :
    0x80 ≤ b₁.toNat ∧ 32 ≤ b₀.toNat % 16 * 64 + low6 b₁ := by
  have hr₀ := inRange_iff.mp h₀
  have hr₁ := (inRange_iff.mp h₁).1
  simp only [UInt8.reduceToNat] at hr₀
  have hup : b₁.toNat ≤ 0xBF := by
    have hle := (inRange_iff.mp h₁).2
    split at hle <;> simp only [UInt8.reduceToNat] at hle <;> omega
  unfold low6
  split at hr₁
  · simp only [UInt8.reduceToNat] at hr₁
    omega
  · next hne =>
    rw [← UInt8.toNat_inj] at hne
    simp only [UInt8.reduceToNat] at hr₁ hne
    omega

theorem sequence_three {b₀ b₁ b₂ : UInt8} (htwo : inRange 0xC2 0xDF b₀ = false)
    (h₀ : inRange 0xE0 0xEF b₀ = true)
    (h₁ : inRange (if b₀ = 0xE0 then 0xA0 else 0x80) (if b₀ = 0xED then 0x9F else 0xBF) b₁ = true)
    (h₂ : inRange 0x80 0xBF b₂ = true) :
    Sequence [b₀, b₁, b₂] (Char.ofNat ((b₀.toNat % 16 * 64 + low6 b₁) * 64 + low6 b₂)) := by
  have hr₀ := inRange_iff.mp h₀
  have hr₂ := inRange_iff.mp h₂
  obtain ⟨hr₁, hlow⟩ := low_second_three h₀ h₁
  simp only [UInt8.reduceToNat] at hr₀ hr₂
  refine ⟨by simp, ?_, toNat_ofNat_of_ge (by omega), fun bs => ?_⟩
  · simp only [List.mem_cons, List.not_mem_nil, or_false, forall_eq_or_imp, forall_eq]
    omega
  · have hhigh : ¬ b₀ < 0x80 := not_ascii_iff.mpr (by omega)
    rw [List.cons_append, List.cons_append, List.cons_append, List.nil_append, decodeUtf8.eq_def]
    simp only [if_neg hhigh, htwo, h₀, h₁, h₂, Bool.false_eq_true, if_false, if_true, Bool.and_self]

/-- What the second byte of a sequence of four may be. -/
theorem low_second_four {b₀ b₁ : UInt8} (h₀ : inRange 0xF0 0xF4 b₀ = true)
    (h₁ : inRange (if b₀ = 0xF0 then 0x90 else 0x80) (if b₀ = 0xF4 then 0x8F else 0xBF) b₁ = true) :
    0x80 ≤ b₁.toNat ∧ 16 ≤ b₀.toNat % 8 * 64 + low6 b₁ := by
  have hr₀ := inRange_iff.mp h₀
  have hr₁ := (inRange_iff.mp h₁).1
  simp only [UInt8.reduceToNat] at hr₀
  have hup : b₁.toNat ≤ 0xBF := by
    have hle := (inRange_iff.mp h₁).2
    split at hle <;> simp only [UInt8.reduceToNat] at hle <;> omega
  unfold low6
  split at hr₁
  · simp only [UInt8.reduceToNat] at hr₁
    omega
  · next hne =>
    rw [← UInt8.toNat_inj] at hne
    simp only [UInt8.reduceToNat] at hr₁ hne
    omega

theorem sequence_four {b₀ b₁ b₂ b₃ : UInt8} (htwo : inRange 0xC2 0xDF b₀ = false)
    (hthree : inRange 0xE0 0xEF b₀ = false) (h₀ : inRange 0xF0 0xF4 b₀ = true)
    (h₁ : inRange (if b₀ = 0xF0 then 0x90 else 0x80) (if b₀ = 0xF4 then 0x8F else 0xBF) b₁ = true)
    (h₂ : inRange 0x80 0xBF b₂ = true) (h₃ : inRange 0x80 0xBF b₃ = true) :
    Sequence [b₀, b₁, b₂, b₃]
      (Char.ofNat (((b₀.toNat % 8 * 64 + low6 b₁) * 64 + low6 b₂) * 64 + low6 b₃)) := by
  have hr₀ := inRange_iff.mp h₀
  have hr₂ := inRange_iff.mp h₂
  have hr₃ := inRange_iff.mp h₃
  obtain ⟨hr₁, hlow⟩ := low_second_four h₀ h₁
  simp only [UInt8.reduceToNat] at hr₀ hr₂ hr₃
  refine ⟨by simp, ?_, toNat_ofNat_of_ge (by omega), fun bs => ?_⟩
  · simp only [List.mem_cons, List.not_mem_nil, or_false, forall_eq_or_imp, forall_eq]
    omega
  · have hhigh : ¬ b₀ < 0x80 := not_ascii_iff.mpr (by omega)
    rw [List.cons_append, List.cons_append, List.cons_append, List.cons_append, List.nil_append,
      decodeUtf8.eq_def]
    simp only [if_neg hhigh, htwo, hthree, h₀, h₁, h₂, h₃, Bool.false_eq_true, if_false, if_true,
      Bool.and_self]

/-- Well-formed bytes begin with an ASCII byte or with a sequence. -/
theorem decodeUtf8_cases {b : UInt8} {bs : List UInt8} {s : List Char}
    (h : decodeUtf8 (b :: bs) = some s) :
    (b < 0x80 ∧ ∃ t, decodeUtf8 bs = some t ∧ s = Char.ofNat b.toNat :: t) ∨
      ∃ block rest c t, b :: bs = block ++ rest ∧ Sequence block c ∧ decodeUtf8 rest = some t ∧
        s = c :: t := by
  by_cases hb : b < 0x80
  · rw [decodeUtf8_ascii_cons hb, Option.map_eq_some_iff] at h
    obtain ⟨t, ht, rfl⟩ := h
    exact Or.inl ⟨hb, t, ht, rfl⟩
  right
  rw [decodeUtf8.eq_def] at h
  simp only [if_neg hb] at h
  cases bs with
  | nil => cases h
  | cons b₁ bs =>
    cases htwo : inRange 0xC2 0xDF b with
    | true =>
      simp only [htwo, if_true] at h
      rw [Option.ite_none_right_eq_some] at h
      obtain ⟨h₁, h⟩ := h
      obtain ⟨t, ht, rfl⟩ := Option.map_eq_some_iff.mp h
      exact ⟨[b, b₁], bs, _, t, rfl, sequence_two htwo h₁, ht, rfl⟩
    | false =>
      simp only [htwo, Bool.false_eq_true, if_false] at h
      cases bs with
      | nil => cases h
      | cons b₂ bs =>
        cases hthree : inRange 0xE0 0xEF b with
        | true =>
          simp only [hthree, if_true] at h
          rw [Option.ite_none_right_eq_some, Bool.and_eq_true] at h
          obtain ⟨⟨h₁, h₂⟩, h⟩ := h
          obtain ⟨t, ht, rfl⟩ := Option.map_eq_some_iff.mp h
          exact ⟨[b, b₁, b₂], bs, _, t, rfl, sequence_three htwo hthree h₁ h₂, ht, rfl⟩
        | false =>
          simp only [hthree, Bool.false_eq_true, if_false] at h
          cases bs with
          | nil => cases h
          | cons b₃ bs =>
            simp only at h
            rw [Option.ite_none_right_eq_some, Bool.and_eq_true, Bool.and_eq_true,
              Bool.and_eq_true] at h
            obtain ⟨⟨⟨⟨h₀, h₁⟩, h₂⟩, h₃⟩, h⟩ := h
            obtain ⟨t, ht, rfl⟩ := Option.map_eq_some_iff.mp h
            exact ⟨[b, b₁, b₂, b₃], bs, _, t, rfl, sequence_four htwo hthree h₀ h₁ h₂ h₃, ht, rfl⟩

/-! ## The cut -/

theorem length_lt_of_sequence {block m x : List UInt8} {c : Char} (h : Sequence block c)
    (hx : x = block ++ m) : m.length < x.length := by
  have hpos := List.length_pos_iff.mpr h.ne_nil
  rw [hx, List.length_append]
  omega

/-- Well-formed bytes may be joined at an ASCII byte. -/
theorem decodeUtf8_join {b : UInt8} (hb : b < 0x80) {x y : List UInt8} {s₁ s₂ : List Char}
    (h₁ : decodeUtf8 x = some s₁) (h₂ : decodeUtf8 y = some s₂) :
    decodeUtf8 (x ++ b :: y) = some (s₁ ++ Char.ofNat b.toNat :: s₂) := by
  -- on the length: a sequence takes several bytes at once
  induction hn : x.length using Nat.strong_induction_on generalizing x s₁ with
  | _ n ih =>
    subst hn
    cases x with
    | nil =>
      obtain rfl := Option.some.inj h₁
      rw [List.nil_append, decodeUtf8_ascii_cons hb, h₂]
      rfl
    | cons a x =>
      rcases decodeUtf8_cases h₁ with ⟨ha, t, ht, rfl⟩ | ⟨block, rest, c, t, hsplit, hseq, ht, rfl⟩
      · rw [List.cons_append, decodeUtf8_ascii_cons ha, ih x.length (by simp) ht rfl]
        rfl
      · rw [hsplit, List.append_assoc, hseq.decode,
          ih rest.length (length_lt_of_sequence hseq hsplit) ht rfl]
        rfl

/-- An ASCII byte is never inside a sequence. -/
theorem append_cons_cases {b : UInt8} (hb : b < 0x80) {block x y rest : List UInt8} {c : Char}
    (hseq : Sequence block c) (h : x ++ b :: y = block ++ rest) :
    ∃ m, x = block ++ m ∧ rest = m ++ b :: y := by
  rcases List.append_eq_append_iff.mp h with ⟨m, hblock, hm⟩ | ⟨m, hx, hrest⟩
  · cases m with
    | nil => exact ⟨[], by rw [hblock, List.append_nil, List.append_nil], hm.symm⟩
    | cons d m =>
      have hd : b ∈ block := by
        rw [hblock, (List.cons.inj hm).1]
        exact List.mem_append_right _ List.mem_cons_self
      exact absurd (hseq.high b hd) (by rwa [← not_ascii_iff, not_not])
  · exact ⟨m, hx, hrest⟩

/-- Well-formed bytes may be cut at an ASCII byte. -/
theorem exists_of_decodeUtf8_append_cons {b : UInt8} (hb : b < 0x80) {x y : List UInt8}
    {s : List Char} (h : decodeUtf8 (x ++ b :: y) = some s) :
    ∃ s₁ s₂, decodeUtf8 x = some s₁ ∧ decodeUtf8 y = some s₂ ∧
      s = s₁ ++ Char.ofNat b.toNat :: s₂ := by
  induction hn : x.length using Nat.strong_induction_on generalizing x s with
  | _ n ih =>
    subst hn
    cases x with
    | nil =>
      rw [List.nil_append, decodeUtf8_ascii_cons hb, Option.map_eq_some_iff] at h
      obtain ⟨t, ht, rfl⟩ := h
      exact ⟨[], t, rfl, ht, rfl⟩
    | cons a x =>
      rw [List.cons_append] at h
      rcases decodeUtf8_cases h with ⟨ha, t, ht, rfl⟩ | ⟨block, rest, c, t, hsplit, hseq, ht, rfl⟩
      · obtain ⟨s₁, s₂, h₁, h₂, rfl⟩ := ih x.length (by simp) ht rfl
        refine ⟨Char.ofNat a.toNat :: s₁, s₂, ?_, h₂, rfl⟩
        rw [decodeUtf8_ascii_cons ha, h₁]
        rfl
      · rw [← List.cons_append] at hsplit
        obtain ⟨m, hx, rfl⟩ := append_cons_cases hb hseq hsplit
        obtain ⟨s₁, s₂, h₁, h₂, rfl⟩ := ih m.length (length_lt_of_sequence hseq hx) ht rfl
        refine ⟨c :: s₁, s₂, ?_, h₂, rfl⟩
        rw [hx, hseq.decode, h₁]
        rfl

/-- Well-formed bytes, an ASCII byte and well-formed bytes. -/
theorem decodeUtf8_append_cons {b : UInt8} (hb : b < 0x80) {x y : List UInt8} {s : List Char} :
    decodeUtf8 (x ++ b :: y) = some s ↔
      ∃ s₁ s₂, decodeUtf8 x = some s₁ ∧ decodeUtf8 y = some s₂ ∧
        s = s₁ ++ Char.ofNat b.toNat :: s₂ := by
  constructor
  · exact exists_of_decodeUtf8_append_cons hb
  · rintro ⟨s₁, s₂, h₁, h₂, rfl⟩
    exact decodeUtf8_join hb h₁ h₂

/-- ASCII bytes are their characters. -/
theorem decodeUtf8_of_ascii {bs : List UInt8} (h : ∀ b ∈ bs, b < 0x80) :
    decodeUtf8 bs = some (bs.map fun b => Char.ofNat b.toNat) := by
  induction bs with
  | nil => rfl
  | cons b bs ih =>
    rw [decodeUtf8_ascii_cons (h b List.mem_cons_self),
      ih fun d hd => h d (List.mem_cons_of_mem b hd)]
    rfl

/-- The character of an ASCII byte. -/
theorem toNat_ofNat_of_ascii {b : UInt8} (hb : b < 0x80) : (Char.ofNat b.toNat).toNat = b.toNat := by
  have hlt := UInt8.lt_iff_toNat_lt.mp hb
  simp only [UInt8.reduceToNat] at hlt
  have hvalid : b.toNat.isValidChar := Or.inl (by omega)
  rw [Char.ofNat, dif_pos hvalid]
  rfl

/-- An ASCII character comes from its own byte. -/
theorem notMem_of_decodeUtf8 {b : UInt8} (hzero : b.toNat ≠ 0) (hb : b < 0x80) {bs : List UInt8}
    {s : List Char} (h : decodeUtf8 bs = some s) (hbs : b ∉ bs) : Char.ofNat b.toNat ∉ s := by
  induction hn : bs.length using Nat.strong_induction_on generalizing bs s with
  | _ n ih =>
    cases bs with
    | nil =>
      obtain rfl := Option.some.inj h
      exact List.not_mem_nil
    | cons a bs =>
      rw [List.mem_cons, not_or] at hbs
      rcases decodeUtf8_cases h with ⟨ha, t, ht, rfl⟩ | ⟨block, rest, c, t, hsplit, hseq, ht, rfl⟩
      · rw [List.mem_cons, not_or]
        refine ⟨fun hc => hbs.1 ?_, ih bs.length (by simp [← hn]) ht hbs.2 rfl⟩
        rw [← UInt8.toNat_inj, ← toNat_ofNat_of_ascii hb, hc, toNat_ofNat_of_ascii ha]
      · have hlen : rest.length < n := by
          have hpos := List.length_pos_iff.mpr hseq.ne_nil
          rw [← hn, hsplit, List.length_append]
          omega
        have hrest : b ∉ rest := by
          intro hmem
          have hmem : b ∈ a :: bs := hsplit ▸ List.mem_append_right block hmem
          exact (List.mem_cons.mp hmem).elim hbs.1 hbs.2
        rw [List.mem_cons, not_or]
        refine ⟨fun hc => ?_, ih rest.length hlen ht hrest rfl⟩
        have hchar := hseq.char
        have hlt := UInt8.lt_iff_toNat_lt.mp hb
        simp only [UInt8.reduceToNat] at hlt
        rw [← hc, toNat_ofNat_of_ascii hb] at hchar
        omega

end Text
