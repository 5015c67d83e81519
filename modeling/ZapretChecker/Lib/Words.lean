import ZapretChecker.Lib.Text

/-!
# Lines and words

What `split_whitespace` and `lines` make of a text put together from words and lines.

* `splitWhitespace_append_cons` — whitespace separates
* `splitWhitespace_word` — a word is one piece
* `head_lines` — the first line
* `parseUnsigned_digits` — digits are parsed as the number they write
* `rsplitOnce`, `rsplitOnceAt` — `rsplit_once` at a character and at a text
* `infix_intercalate_iff` — where a pattern of three words occurs in a line
-/

namespace Text

/-! ## Words -/

/-- A word of a text. -/
def IsWord (w : List Char) : Prop := w ≠ [] ∧ ∀ c ∈ w, isWhitespace c = false

instance (w : List Char) : Decidable (IsWord w) :=
  haveI := List.decidableBAll (fun c => isWhitespace c = false) w
  inferInstanceAs (Decidable (_ ∧ _))

@[simp] theorem splitWhitespace_nil : splitWhitespace [] = [] := rfl

/-- Whitespace separates. -/
theorem splitWhitespace_append_cons {c : Char} (hc : isWhitespace c = true) (s t : List Char) :
    splitWhitespace (s ++ c :: t) = splitWhitespace s ++ splitWhitespace t := by
  unfold splitWhitespace
  rw [List.splitOnP_append_cons s t hc, List.filter_append]

theorem splitWhitespace_word {w : List Char} (hw : IsWord w) : splitWhitespace w = [w] := by
  unfold splitWhitespace
  rw [List.splitOnP_eq_singleton hw.2, List.filter_singleton]
  simp [hw.1]

theorem splitWhitespace_word_cons {w : List Char} (hw : IsWord w) {c : Char}
    (hc : isWhitespace c = true) (t : List Char) :
    splitWhitespace (w ++ c :: t) = w :: splitWhitespace t := by
  rw [splitWhitespace_append_cons hc, splitWhitespace_word hw]
  rfl

/-- A carriage return is whitespace. -/
theorem splitWhitespace_stripCr (line : List Char) :
    splitWhitespace (stripCr line) = splitWhitespace line := by
  unfold stripCr
  split
  · next hlast =>
    obtain ⟨init, rfl⟩ := List.getLast?_eq_some_iff.mp hlast
    rw [List.dropLast_concat, splitWhitespace_append_cons (by decide), splitWhitespace_nil,
      List.append_nil]
  · rfl

/-! ## Lines -/

theorem stripCr_isPrefix (line : List Char) : stripCr line <+: line := by
  unfold stripCr
  split
  · exact List.dropLast_prefix line
  · exact List.prefix_rfl

theorem stripCr_of_notMem {line : List Char} (h : '\r' ∉ line) : stripCr line = line := by
  unfold stripCr
  rw [if_neg fun hlast => h (List.mem_of_getLast? hlast)]

/-- The first line ends at the first newline. -/
theorem head_lines {first : List Char} (h : '\n' ∉ first) (rest : List Char) :
    (lines (first ++ '\n' :: rest)).head? = some (stripCr first) := by
  unfold lines
  rw [List.splitOn_append_cons_self_of_not_mem h]
  obtain ⟨piece, pieces, hrest⟩ := List.exists_cons_of_ne_nil (List.splitOn_ne_nil '\n' rest)
  rw [hrest]
  rfl

theorem splitOn_flatten_newline {ls : List (List Char)} (h : ∀ l ∈ ls, '\n' ∉ l) :
    ((ls.map (· ++ ['\n'])).flatten).splitOn '\n' = ls ++ [[]] := by
  induction ls with
  | nil => rfl
  | cons l ls ih =>
    rw [List.map_cons, List.flatten_cons, List.append_assoc, List.singleton_append,
      List.splitOn_append_cons_self_of_not_mem (h l List.mem_cons_self),
      ih fun m hm => h m (List.mem_cons_of_mem l hm)]
    rfl

/-- The lines of a text in which every line ends with a newline. -/
theorem lines_flatten {ls : List (List Char)} (h : ∀ l ∈ ls, '\n' ∉ l) :
    lines (ls.map (· ++ ['\n'])).flatten = ls.map stripCr := by
  unfold lines
  rw [splitOn_flatten_newline h]
  simp

/-! ## Numbers -/

theorem toNat_of_isDigit {c : Char} (h : c.isDigit = true) : 48 ≤ c.toNat ∧ c.toNat ≤ 57 := by
  simpa [Char.isDigit, UInt32.le_iff_toNat_le] using h

/-- Digits are not whitespace. -/
theorem isWhitespace_of_isDigit {c : Char} (h : c.isDigit = true) : isWhitespace c = false := by
  have hrange := toNat_of_isDigit h
  unfold isWhitespace
  simp
  omega

theorem parseUnsigned_digits {max : Nat} {s : List Char} (hs : s ≠ [])
    (hdigits : ∀ c ∈ s, c.isDigit = true) (hmax : Nat.ofDigitChars 10 s 0 ≤ max) :
    parseUnsigned max s = some (Nat.ofDigitChars 10 s 0) := by
  have hall : s.all Char.isDigit = true := List.all_eq_true.mpr hdigits
  unfold parseUnsigned
  dsimp only
  split
  · exact absurd (hdigits '+' List.mem_cons_self) (by decide)
  · exact if_pos ⟨hs, hall, hmax⟩

/-- The digits of a number are parsed as the number. -/
theorem parseUnsigned_toDigits {max n : Nat} (h : n ≤ max) :
    parseUnsigned max (Nat.toDigits 10 n) = some n := by
  have hvalue : Nat.ofDigitChars 10 (Nat.toDigits 10 n) 0 = n := Nat.ofDigitChars_ten_toDigits
  rw [parseUnsigned_digits Nat.toDigits_ne_nil
    (fun c hc => Nat.isDigit_of_mem_toDigits (by decide) (by decide) hc) (by rwa [hvalue]), hvalue]

/-! ## The last occurrence -/

def reversed (s : String) : String := String.ofList s.toList.reverse

/-- `str::rsplit_once` at a character -/
def rsplitOnce (s : String) (sep : Char) : Option (String × String) :=
  (splitOnce (reversed s) sep).map fun (after, before) => (reversed before, reversed after)

@[simp] theorem toList_reversed (s : String) : (reversed s).toList = s.toList.reverse :=
  String.toList_ofList

/-- The text is cut at the last occurrence. -/
theorem rsplitOnce_eq_some_iff {s a b : String} {sep : Char} :
    rsplitOnce s sep = some (a, b) ↔ s.toList = a.toList ++ sep :: b.toList ∧ sep ∉ b.toList := by
  unfold rsplitOnce
  rw [Option.map_eq_some_iff]
  constructor
  · rintro ⟨⟨after, before⟩, hcut, heq⟩
    obtain ⟨rfl, rfl⟩ := Prod.mk.inj heq
    obtain ⟨hs, hsep⟩ := splitOnce_eq_some_iff.mp hcut
    rw [toList_reversed] at hs
    rw [toList_reversed, toList_reversed]
    refine ⟨?_, by rwa [List.mem_reverse]⟩
    rw [← List.reverse_inj, hs]
    simp
  · rintro ⟨hs, hsep⟩
    refine ⟨(reversed b, reversed a), splitOnce_eq_some_iff.mpr ?_, by simp [reversed]⟩
    rw [toList_reversed, toList_reversed, toList_reversed, List.mem_reverse]
    exact ⟨by rw [hs]; simp, hsep⟩

theorem rsplitOnce_eq_none_iff {s : String} {sep : Char} :
    rsplitOnce s sep = none ↔ sep ∉ s.toList := by
  constructor
  · intro h hmem
    obtain ⟨after, before, hs, hafter⟩ :=
      List.eq_append_cons_of_mem (List.mem_reverse.mpr hmem)
    have hcut : s.toList = before.reverse ++ sep :: after.reverse := by
      rw [← List.reverse_inj, hs]
      simp
    have hsome : rsplitOnce s sep =
        some (String.ofList before.reverse, String.ofList after.reverse) := by
      rw [rsplitOnce_eq_some_iff, String.toList_ofList, String.toList_ofList]
      exact ⟨hcut, by rwa [List.mem_reverse]⟩
    rw [h] at hsome
    cases hsome
  · intro h
    cases hcut : rsplitOnce s sep with
    | none => rfl
    | some cut =>
      obtain ⟨hs, -⟩ := rsplitOnce_eq_some_iff.mp hcut
      rw [hs] at h
      exact absurd (List.mem_append_right _ List.mem_cons_self) h

/-- What stands before the first occurrence of a character. -/
theorem before_first_inj {c : Char} {a b x y : List Char} (hx : c ∉ x) (hy : c ∉ y)
    (h : x ++ c :: a = y ++ c :: b) : x = y ∧ a = b := by
  have hreverse : a.reverse ++ c :: x.reverse = b.reverse ++ c :: y.reverse := by
    simpa using congrArg List.reverse h
  obtain ⟨hab, hxy⟩ := after_last_inj (by rwa [List.mem_reverse]) (by rwa [List.mem_reverse]) hreverse
  exact ⟨List.reverse_inj.mp hxy, List.reverse_inj.mp hab⟩

/-- `str::rsplit_once` at a text that is not empty -/
def rsplitOnceAt (pat : List Char) : List Char → Option (List Char × List Char)
  | [] => none
  | c :: cs =>
    match rsplitOnceAt pat cs with
    | some (before, after) => some (c :: before, after)
    | none => if pat.isPrefixOf (c :: cs) then some ([], (c :: cs).drop pat.length) else none

theorem rsplitOnceAt_eq_none {p : Char} {pat s : List Char} (h : p ∉ s) :
    rsplitOnceAt (p :: pat) s = none := by
  induction s with
  | nil => rfl
  | cons c s ih =>
    rw [List.mem_cons, not_or] at h
    have hhead : (p :: pat).isPrefixOf (c :: s) = false := by simp [List.isPrefixOf, h.1]
    rw [rsplitOnceAt, ih h.2, hhead]
    rfl

/-- An occurrence is the last one if its first character does not come again. -/
theorem rsplitOnceAt_append {p : Char} {pat after : List Char} (hpat : p ∉ pat) (hafter : p ∉ after)
    (before : List Char) :
    rsplitOnceAt (p :: pat) (before ++ (p :: pat ++ after)) = some (before, after) := by
  induction before with
  | nil =>
    have hnone : rsplitOnceAt (p :: pat) (pat ++ after) = none :=
      rsplitOnceAt_eq_none (by simp [hpat, hafter])
    have hhead : (p :: pat).isPrefixOf (p :: pat ++ after) = true :=
      List.isPrefixOf_iff_prefix.mpr (List.prefix_append _ _)
    rw [List.nil_append, List.cons_append, rsplitOnceAt, hnone]
    rw [List.cons_append] at hhead
    simp only [hhead, if_true]
    rw [← List.cons_append, List.drop_left]
  | cons c before ih => rw [List.cons_append, rsplitOnceAt, ih]

/-! ## Words in a line -/

theorem mem_intercalate {sep : List Char} {ws : List (List Char)} {c : Char}
    (h : c ∈ sep.intercalate ws) : c ∈ sep ∨ ∃ w ∈ ws, c ∈ w := by
  induction ws with
  | nil => cases h
  | cons w ws ih =>
    by_cases hws : ws = []
    · subst hws
      rw [List.intercalate_singleton] at h
      exact Or.inr ⟨w, List.mem_cons_self, h⟩
    · rw [List.intercalate_cons_of_ne_nil hws, List.mem_append, List.mem_append] at h
      rcases h with (h | h) | h
      · exact Or.inr ⟨w, List.mem_cons_self, h⟩
      · exact Or.inl h
      · exact (ih h).imp_right fun ⟨v, hv, hc⟩ => ⟨v, List.mem_cons_of_mem w hv, hc⟩

/-- The last words of a line stand at its end. -/
theorem suffix_intercalate_append {sep : List Char} (front : List (List Char))
    {rest : List (List Char)} (h : rest ≠ []) :
    sep.intercalate rest <:+ sep.intercalate (front ++ rest) := by
  induction front with
  | nil => exact List.suffix_rfl
  | cons w front ih =>
    rw [List.cons_append, List.intercalate_cons_of_ne_nil (by simp [h])]
    exact ih.trans (List.suffix_append _ _)

/-- Three words in a row: the end of one, a whole one and the beginning of one. -/
def Consecutive (a b c : List Char) : List (List Char) → Prop
  | w₁ :: w₂ :: w₃ :: ws => (a <:+ w₁ ∧ b = w₂ ∧ c <+: w₃) ∨ Consecutive a b c (w₂ :: w₃ :: ws)
  | _ => False

section Consecutive

variable {a b c : List Char}

theorem prefix_intercalate_iff {w : List Char} {ws : List (List Char)} (hc : ' ' ∉ c) :
    c <+: [' '].intercalate (w :: ws) ↔ c <+: w := by
  cases ws with
  | nil => rw [List.intercalate_singleton]
  | cons w' ws =>
    rw [List.intercalate_cons_cons, List.append_assoc, List.singleton_append]
    exact ⟨prefix_of_prefix_append_cons hc, fun h => h.trans (List.prefix_append _ _)⟩

/-- A whole word and what follows it. -/
theorem prefix_two_intercalate_iff {w : List Char} {ws : List (List Char)} (hb : ' ' ∉ b)
    (hc : ' ' ∉ c) (hws : ∀ v ∈ w :: ws, ' ' ∉ v) :
    (b ++ ' ' :: c) <+: [' '].intercalate (w :: ws) ↔
      b = w ∧ ∃ w' ws', ws = w' :: ws' ∧ c <+: w' := by
  cases ws with
  | nil =>
    rw [List.intercalate_singleton]
    refine iff_of_false (fun h => ?_) (by simp)
    exact hws w List.mem_cons_self (h.subset (by simp))
  | cons w' ws =>
    rw [List.intercalate_cons_cons, List.append_assoc, List.singleton_append]
    constructor
    · rintro ⟨y, hy⟩
      rw [List.append_assoc, List.cons_append] at hy
      obtain ⟨rfl, hrest⟩ := before_first_inj hb (hws w List.mem_cons_self) hy
      exact ⟨rfl, w', ws, rfl, (prefix_intercalate_iff hc).mp ⟨y, hrest⟩⟩
    · rintro ⟨rfl, w'', ws', heq, hprefix⟩
      obtain ⟨rfl, rfl⟩ := List.cons.inj heq
      rw [List.prefix_append_right_inj, List.cons_prefix_cons]
      exact ⟨rfl, (prefix_intercalate_iff hc).mpr hprefix⟩

/-- A pattern of three words occurs in a line where they stand in a row. -/
theorem infix_intercalate_iff {ws : List (List Char)} (ha : ' ' ∉ a) (hb : ' ' ∉ b) (hc : ' ' ∉ c)
    (hws : ∀ w ∈ ws, ' ' ∉ w) :
    (a ++ ' ' :: (b ++ ' ' :: c)) <:+: [' '].intercalate ws ↔ Consecutive a b c ws := by
  induction ws with
  | nil => simp [Consecutive]
  | cons w₁ ws ih =>
    have hw₁ := hws w₁ List.mem_cons_self
    have ih := ih fun w hw => hws w (List.mem_cons_of_mem w₁ hw)
    cases ws with
    | nil =>
      rw [List.intercalate_singleton]
      refine iff_of_false (fun h => hw₁ (h.subset (by simp))) (by simp [Consecutive])
    | cons w₂ ws =>
      have htail : ∀ v ∈ w₂ :: ws, ' ' ∉ v := fun v hv => hws v (List.mem_cons_of_mem w₁ hv)
      -- the pattern begins in the first word or after it
      have hsplit : (a ++ ' ' :: (b ++ ' ' :: c)) <:+: [' '].intercalate (w₁ :: w₂ :: ws) ↔
          (a <:+ w₁ ∧ (b ++ ' ' :: c) <+: [' '].intercalate (w₂ :: ws)) ∨
            (a ++ ' ' :: (b ++ ' ' :: c)) <:+: [' '].intercalate (w₂ :: ws) := by
        rw [List.intercalate_cons_cons, List.append_assoc, List.singleton_append]
        generalize [' '].intercalate (w₂ :: ws) = text
        constructor
        · rintro ⟨x, y, hxy⟩
          by_cases hx : ' ' ∈ x
          · obtain ⟨x₁, x₂, rfl, hx₁⟩ := List.eq_append_cons_of_mem hx
            simp only [List.append_assoc, List.cons_append] at hxy
            obtain ⟨-, htext⟩ := before_first_inj hx₁ hw₁ hxy
            exact Or.inr ⟨x₂, y, by simpa using htext⟩
          · have hxa : ' ' ∉ x ++ a := by simp [hx, ha]
            have hcut : (x ++ a) ++ ' ' :: (b ++ ' ' :: c ++ y) = w₁ ++ ' ' :: text := by
              simpa using hxy
            obtain ⟨hw, htext⟩ := before_first_inj hxa hw₁ hcut
            exact Or.inl ⟨⟨x, hw⟩, ⟨y, by simpa using htext⟩⟩
        · rintro (⟨⟨x, hx⟩, ⟨y, hy⟩⟩ | hlater)
          · exact ⟨x, y, by rw [← hx, ← hy]; simp⟩
          · exact hlater.trans ((List.suffix_cons ' ' text).trans (List.suffix_append w₁ _)).isInfix
      rw [hsplit, ih, prefix_two_intercalate_iff hb hc htail]
      cases ws with
      | nil => simp [Consecutive]
      | cons w₃ ws => simp [Consecutive]

end Consecutive

end Text
