import Mathlib.Data.List.Infix
import Mathlib.Data.List.Basic
import Mathlib.Data.List.TakeDrop
import Mathlib.Data.List.TakeWhile

/-!
# Strings of the standard library

The methods of `str` the checker uses, on strings and on their lists of characters.

* `isWhitespace`, `splitWhitespace`, `lines` — `char::is_whitespace`, `split_whitespace`, `lines`
* `parseUnsigned` — `parse::<u16>` and its like
* `startsWith`, `stripPrefix`, `contains`, `replace`, `split`, `splitOnce` — the methods with a pattern
* `decodeUtf8` — `str::from_utf8`: well-formed UTF-8 and nothing else
-/

namespace Text

/-! ## Whitespace and lines -/

/-- `char::is_whitespace`: the property `White_Space`. -/
def isWhitespace (c : Char) : Bool :=
  let n := c.toNat
  (0x09 ≤ n && n ≤ 0x0D) || n == 0x20 || n == 0x85 || n == 0xA0 || n == 0x1680 ||
    (0x2000 ≤ n && n ≤ 0x200A) || n == 0x2028 || n == 0x2029 || n == 0x202F || n == 0x205F ||
    n == 0x3000

/-- `str::split_whitespace` -/
def splitWhitespace (s : List Char) : List (List Char) :=
  (s.splitOnP isWhitespace).filter (· ≠ [])

/-- A line without the carriage return before its newline. -/
def stripCr (line : List Char) : List Char :=
  if line.getLast? = some '\r' then line.dropLast else line

/-- `str::lines`: a newline ends a line, so the last piece is a line only if it is not empty. -/
def lines (s : List Char) : List (List Char) :=
  let pieces := s.splitOn '\n'
  pieces.dropLast.map stripCr ++ (pieces.getLast?.toList.filter (· ≠ []))

/-- `str::trim` -/
def trim (s : String) : String :=
  String.ofList (((s.toList.dropWhile isWhitespace).reverse.dropWhile isWhitespace).reverse)

/-! ## Patterns -/

/-- `str::starts_with` -/
def startsWith (s pat : String) : Bool := pat.toList.isPrefixOf s.toList

/-- `str::strip_prefix` -/
def stripPrefix (s pat : String) : Option String :=
  (pat.toList.isPrefixOf? s.toList).map String.ofList

/-- `pat` occurs in `s`. -/
def hasInfix (pat : List Char) : List Char → Bool
  | [] => pat.isEmpty
  | c :: cs => pat.isPrefixOf (c :: cs) || hasInfix pat cs

/-- `str::contains` -/
def contains (s pat : String) : Bool := hasInfix pat.toList s.toList

/-- Replace every occurrence of `pat`, from left to right. The first `skip` characters belong to the
occurrence just replaced. -/
def replaceFrom (pat rep : List Char) : Nat → List Char → List Char
  | _, [] => []
  | skip + 1, _ :: cs => replaceFrom pat rep skip cs
  | 0, c :: cs =>
    if pat.isPrefixOf (c :: cs) then rep ++ replaceFrom pat rep (pat.length - 1) cs
    else c :: replaceFrom pat rep 0 cs

/-- `str::replace`, for a pattern that is not empty. -/
def replace (s pat rep : String) : String :=
  String.ofList (replaceFrom pat.toList rep.toList 0 s.toList)

/-- `str::split` at a character -/
def split (s : String) (sep : Char) : List String := (s.toList.splitOn sep).map String.ofList

/-- `str::split_once` at a character -/
def splitOnce (s : String) (sep : Char) : Option (String × String) :=
  match s.toList.span (· ≠ sep) with
  | (before, _ :: after) => some (String.ofList before, String.ofList after)
  | (_, []) => none

/-- `join` -/
def join (sep : String) (parts : List String) : String :=
  String.ofList (sep.toList.intercalate (parts.map String.toList))

/-- `str::to_ascii_lowercase` -/
def toAsciiLowercase (s : String) : String := String.ofList (s.toList.map Char.toLower)

/-- `str::to_ascii_uppercase` -/
def toAsciiUppercase (s : String) : String := String.ofList (s.toList.map Char.toUpper)

theorem hasInfix_iff {pat s : List Char} : hasInfix pat s = true ↔ pat <:+: s := by
  induction s with
  | nil => simp [hasInfix]
  | cons c cs ih =>
    rw [hasInfix, Bool.or_eq_true, ih, List.isPrefixOf_iff_prefix, List.infix_cons_iff]

theorem startsWith_iff {s pat : String} : startsWith s pat = true ↔ pat.toList <+: s.toList :=
  List.isPrefixOf_iff_prefix

theorem stripPrefix_eq_some_iff {s pat rest : String} :
    stripPrefix s pat = some rest ↔ s = pat ++ rest := by
  unfold stripPrefix
  rw [Option.map_eq_some_iff]
  constructor
  · rintro ⟨l, hl, rfl⟩
    rw [List.isPrefixOf?_eq_some_iff_append_eq] at hl
    rw [← String.toList_inj, String.toList_append, String.toList_ofList, hl]
  · rintro rfl
    exact ⟨rest.toList, by rw [List.isPrefixOf?_eq_some_iff_append_eq, String.toList_append],
      String.ofList_toList⟩

@[simp] theorem toList_join (sep : String) (parts : List String) :
    (join sep parts).toList = sep.toList.intercalate (parts.map String.toList) :=
  String.toList_ofList

theorem contains_iff {s pat : String} : contains s pat = true ↔ pat.toList <:+: s.toList :=
  hasInfix_iff

/-! ## Pieces of a text -/

theorem infix_intercalate {sep part : List Char} {parts : List (List Char)} (h : part ∈ parts) :
    part <:+: sep.intercalate parts := by
  induction parts with
  | nil => exact absurd h List.not_mem_nil
  | cons p parts ih =>
    rcases List.mem_cons.mp h with rfl | h
    · cases parts with
      | nil => rw [List.intercalate_singleton]
      | cons q parts =>
        rw [List.intercalate_cons_cons, List.append_assoc]
        exact (List.prefix_append _ _).isInfix
    · rw [List.intercalate_cons_of_ne_nil (List.ne_nil_of_mem h)]
      exact (ih h).trans (List.suffix_append _ _).isInfix

/-- The pieces of a split occur in the text. -/
theorem infix_of_mem_split {s part : String} {sep : Char} (h : part ∈ split s sep) :
    part.toList <:+: s.toList := by
  obtain ⟨l, hl, rfl⟩ := List.mem_map.mp h
  rw [String.toList_ofList]
  have hinfix : l <:+: [sep].intercalate (s.toList.splitOn sep) := infix_intercalate hl
  rwa [List.intercalate_splitOn] at hinfix

/-- The text is cut at the first occurrence. -/
theorem splitOnce_eq_some_iff {s a b : String} {sep : Char} :
    splitOnce s sep = some (a, b) ↔ s.toList = a.toList ++ sep :: b.toList ∧ sep ∉ a.toList := by
  unfold splitOnce
  rw [List.span_eq_takeWhile_dropWhile]
  constructor
  · intro h
    split at h
    · rename_i before c after hspan
      obtain ⟨hbefore, hafter⟩ := Prod.mk.inj hspan
      obtain ⟨rfl, rfl⟩ := Prod.mk.inj (Option.some.inj h)
      have hc : c = sep := by
        have hhead := List.head?_dropWhile_not (fun x => decide (x ≠ sep)) s.toList
        rw [hafter] at hhead
        simpa using hhead
      rw [String.toList_ofList, String.toList_ofList, ← hc, ← hafter, ← hbefore,
        List.takeWhile_append_dropWhile]
      refine ⟨rfl, fun hmem => ?_⟩
      simpa [hc] using List.mem_takeWhile_imp hmem
    · cases h
  · rintro ⟨hs, hsep⟩
    have hall : ∀ c ∈ a.toList, decide (c ≠ sep) = true := by
      intro c hc
      rw [decide_eq_true_eq]
      rintro rfl
      exact hsep hc
    rw [hs, List.takeWhile_append_of_pos hall, List.dropWhile_append_of_pos hall,
      List.takeWhile_cons_of_neg (by simp), List.dropWhile_cons_of_neg (by simp), List.append_nil]
    simp

/-- The first piece and what follows it. -/
theorem splitOn_append_takeWhile {sep : Char} {piece : List Char} (hpiece : sep ∉ piece)
    (after : List Char) : ∃ pieces, (piece ++ after).splitOn sep =
      (piece ++ after.takeWhile (· ≠ sep)) :: pieces := by
  have hfirst : sep ∉ piece ++ after.takeWhile (· ≠ sep) := by
    rw [List.mem_append, not_or]
    refine ⟨hpiece, fun h => ?_⟩
    simpa using List.mem_takeWhile_imp h
  have happend : piece ++ after =
      piece ++ after.takeWhile (· ≠ sep) ++ after.dropWhile (· ≠ sep) := by
    rw [List.append_assoc, List.takeWhile_append_dropWhile]
  rw [happend]
  cases hdrop : after.dropWhile (· ≠ sep) with
  | nil => exact ⟨[], by rw [List.append_nil, List.splitOn_eq_singleton hfirst]⟩
  | cons c rest =>
    have hc : c = sep := by
      have hhead := List.head?_dropWhile_not (fun x => decide (x ≠ sep)) after
      rw [hdrop] at hhead
      simpa using hhead
    rw [hc, List.splitOn_append_cons_self_of_not_mem hfirst]
    exact ⟨_, rfl⟩

/-- A piece of a split goes from one separator to the next. -/
theorem mem_splitOn_append {sep : Char} {before piece : List Char}
    (hbefore : before = [] ∨ before.getLast? = some sep) (hpiece : sep ∉ piece)
    (after : List Char) :
    piece ++ after.takeWhile (· ≠ sep) ∈ (before ++ (piece ++ after)).splitOn sep := by
  obtain ⟨pieces, hpieces⟩ := splitOn_append_takeWhile hpiece after
  rcases hbefore with rfl | hlast
  · rw [List.nil_append, hpieces]
    exact List.mem_cons_self
  · obtain ⟨init, rfl⟩ := List.getLast?_eq_some_iff.mp hlast
    rw [List.append_assoc, List.singleton_append, List.splitOn_append_cons_self, hpieces]
    exact List.mem_append_right _ List.mem_cons_self

/-- No piece of a split contains the separator. -/
theorem notMem_of_mem_splitOn {sep : Char} {s piece : List Char} (h : piece ∈ s.splitOn sep) :
    sep ∉ piece := by
  induction s generalizing piece with
  | nil =>
    rw [List.splitOn_nil, List.mem_singleton] at h
    rw [h]
    exact List.not_mem_nil
  | cons c s ih =>
    obtain ⟨first, pieces, hs⟩ := List.exists_cons_of_ne_nil (List.splitOn_ne_nil sep s)
    rw [List.splitOn_cons_eq_if_modifyHead] at h
    split at h
    · rcases List.mem_cons.mp h with rfl | h
      · exact List.not_mem_nil
      · exact ih h
    · next hc =>
      rw [hs, List.modifyHead_cons] at h
      rw [hs] at ih
      rcases List.mem_cons.mp h with rfl | h
      · rw [List.mem_cons, not_or]
        exact ⟨fun he => hc (by rw [he, beq_self_eq_true]), ih List.mem_cons_self⟩
      · exact ih (List.mem_cons_of_mem first h)

theorem notMem_of_mem_split {sep : Char} {s part : String} (h : part ∈ split s sep) :
    sep ∉ part.toList := by
  obtain ⟨piece, hpiece, rfl⟩ := List.mem_map.mp h
  rw [String.toList_ofList]
  exact notMem_of_mem_splitOn hpiece

/-- `split` undoes `join` at a character the parts do not contain. -/
theorem split_join {sep : Char} {parts : List String} (hparts : parts ≠ [])
    (h : ∀ part ∈ parts, sep ∉ part.toList) :
    split (join (String.ofList [sep]) parts) sep = parts := by
  have hsplit : ([sep].intercalate (parts.map String.toList)).splitOn sep =
      parts.map String.toList := by
    refine List.splitOn_intercalate sep ?_ (by simpa using hparts)
    intro s hs
    obtain ⟨part, hpart, rfl⟩ := List.mem_map.mp hs
    exact h part hpart
  rw [split, toList_join, String.toList_ofList, hsplit, List.map_map]
  simp

/-- Texts joined at a character they do not contain can be told apart. -/
theorem join_inj {sep : Char} {l m : List String} (hl : l ≠ []) (hm : m ≠ [])
    (hsepl : ∀ s ∈ l, sep ∉ s.toList) (hsepm : ∀ s ∈ m, sep ∉ s.toList)
    (h : join (String.ofList [sep]) l = join (String.ofList [sep]) m) : l = m := by
  rw [← split_join hl hsepl, h, split_join hm hsepm]

/-- What follows the last occurrence of a character. -/
theorem after_last_inj {c : Char} {a b x y : List Char} (hx : c ∉ x) (hy : c ∉ y)
    (h : a ++ c :: x = b ++ c :: y) : a = b ∧ x = y := by
  rcases List.append_eq_append_iff.mp h with ⟨m, hb, hm⟩ | ⟨m, ha, hm⟩
  · cases m with
    | nil => exact ⟨by rw [hb, List.append_nil], (List.cons.inj hm).2⟩
    | cons d m =>
      have hmem : c ∈ x := by
        rw [(List.cons.inj hm).2]
        simp
      exact absurd hmem hx
  · cases m with
    | nil => exact ⟨by rw [ha, List.append_nil], (List.cons.inj hm).2.symm⟩
    | cons d m =>
      have hmem : c ∈ y := by
        rw [(List.cons.inj hm).2]
        simp
      exact absurd hmem hy

/-- A text that ends in an underscore and a number can be taken apart. -/
theorem numbered_inj {p q : String} {i j : Nat}
    (h : p ++ "_" ++ toString i = q ++ "_" ++ toString j) : p = q ∧ i = j := by
  have hlist : p.toList ++ '_' :: Nat.toDigits 10 i = q.toList ++ '_' :: Nat.toDigits 10 j := by
    simpa [Nat.toString_eq_ofList_toDigits] using congrArg String.toList h
  obtain ⟨hpq, hdigits⟩ := after_last_inj Nat.underscore_not_in_toDigits
    Nat.underscore_not_in_toDigits hlist
  refine ⟨String.toList_inj.mp hpq, ?_⟩
  rw [← Nat.ofDigitChars_ten_toDigits (n := i), hdigits, Nat.ofDigitChars_ten_toDigits]

/-- A character does not get doubled where another one stands between. -/
theorem not_doubled_append {c d : Char} {a b : List Char} (hd : d ≠ c) (ha : ¬ [c, c] <:+: a)
    (hb : ¬ [c, c] <:+: b) : ¬ [c, c] <:+: a ++ d :: b := by
  induction a with
  | nil =>
    rw [List.nil_append, List.infix_cons_iff, not_or]
    refine ⟨fun h => hd ?_, hb⟩
    exact (List.cons_prefix_cons.mp h).1.symm
  | cons x a ih =>
    rw [List.infix_cons_iff, not_or] at ha
    rw [List.cons_append, List.infix_cons_iff, not_or]
    refine ⟨fun h => ?_, ih ha.2⟩
    obtain ⟨hx, h⟩ := List.cons_prefix_cons.mp h
    cases a with
    | nil => exact hd (List.cons_prefix_cons.mp h).1.symm
    | cons y a =>
      rw [List.cons_append] at h
      have hy := (List.cons_prefix_cons.mp h).1
      exact ha.1 (List.cons_prefix_cons.mpr ⟨hx, List.cons_prefix_cons.mpr ⟨hy, List.nil_prefix⟩⟩)

/-- Nor where texts are joined at another one. -/
theorem not_doubled_intercalate {c sep : Char} (hsep : sep ≠ c) {parts : List (List Char)}
    (h : ∀ p ∈ parts, ¬ [c, c] <:+: p) : ¬ [c, c] <:+: [sep].intercalate parts := by
  induction parts with
  | nil => simp
  | cons p parts ih =>
    have hp := h p List.mem_cons_self
    have ih := ih fun q hq => h q (List.mem_cons_of_mem p hq)
    by_cases hparts : parts = []
    · subst hparts
      rwa [List.intercalate_singleton]
    · rw [List.intercalate_cons_of_ne_nil hparts, List.append_assoc, List.singleton_append]
      exact not_doubled_append hsep hp ih

/-! ## Replacing in a part of a text -/

theorem prefix_of_prefix_append_cons {pat x y : List Char} {d : Char} (hd : d ∉ pat)
    (h : pat <+: x ++ d :: y) : pat <+: x := by
  rcases Nat.lt_or_ge x.length pat.length with hlt | hle
  · have hx : x ++ [d] <+: pat := by
      refine List.prefix_of_prefix_length_le ⟨y, by simp⟩ h ?_
      rw [List.length_append, List.length_singleton]
      omega
    exact absurd (hx.subset (List.mem_append_right _ List.mem_cons_self)) hd
  · exact List.prefix_of_prefix_length_le h (List.prefix_append x _) hle

/-- A character that the pattern does not contain separates what is replaced. -/
theorem replaceFrom_append_cons {pat : List Char} (rep : List Char) {d : Char} (hpat : pat ≠ [])
    (hd : d ∉ pat) {skip : Nat} {x : List Char} (hskip : skip ≤ x.length) (y : List Char) :
    replaceFrom pat rep skip (x ++ d :: y) =
      replaceFrom pat rep skip x ++ d :: replaceFrom pat rep 0 y := by
  have hprefix (x : List Char) : pat.isPrefixOf (x ++ d :: y) = pat.isPrefixOf x := by
    rw [Bool.eq_iff_iff, List.isPrefixOf_iff_prefix, List.isPrefixOf_iff_prefix]
    exact ⟨prefix_of_prefix_append_cons hd, fun h => h.trans (List.prefix_append x _)⟩
  induction x generalizing skip with
  | nil =>
    obtain rfl : skip = 0 := Nat.le_zero.mp hskip
    have hhead : pat.isPrefixOf (d :: y) = false := by
      rw [← List.nil_append (d :: y), hprefix]
      cases pat with
      | nil => exact absurd rfl hpat
      | cons p pat => rfl
    have hkept : replaceFrom pat rep 0 (d :: y) = d :: replaceFrom pat rep 0 y := by
      rw [replaceFrom, hhead, if_neg Bool.false_ne_true]
    exact hkept
  | cons c x ih =>
    cases skip with
    | succ skip =>
      rw [List.cons_append, replaceFrom, replaceFrom]
      exact ih (Nat.le_of_succ_le_succ hskip)
    | zero =>
      have hhead := hprefix (c :: x)
      rw [List.cons_append] at hhead ⊢
      rw [replaceFrom, replaceFrom, hhead]
      split
      · rename_i hpre
        have hlen := (List.isPrefixOf_iff_prefix.mp hpre).length_le
        rw [ih (by rw [List.length_cons] at hlen; omega), List.append_assoc]
      · rw [ih (Nat.zero_le _), List.cons_append]

/-- What does not contain the first character of the pattern is kept. -/
theorem replaceFrom_append_of_notMem {p : Char} {pat : List Char} (rep : List Char) {x : List Char}
    (h : p ∉ x) (y : List Char) :
    replaceFrom (p :: pat) rep 0 (x ++ y) = x ++ replaceFrom (p :: pat) rep 0 y := by
  induction x with
  | nil => rfl
  | cons c x ih =>
    rw [List.mem_cons, not_or] at h
    have hhead : (p :: pat).isPrefixOf (c :: (x ++ y)) = false := by
      simp [List.isPrefixOf, h.1]
    rw [List.cons_append, replaceFrom, hhead, if_neg Bool.false_ne_true, ih h.2, List.cons_append]

/-- An occurrence of the pattern is replaced. -/
theorem replaceFrom_append_self {pat : List Char} (rep : List Char) (hpat : pat ≠ [])
    (y : List Char) : replaceFrom pat rep 0 (pat ++ y) = rep ++ replaceFrom pat rep 0 y := by
  have hskip (x : List Char) : replaceFrom pat rep x.length (x ++ y) = replaceFrom pat rep 0 y := by
    induction x with
    | nil => rfl
    | cons c x ih => rwa [List.length_cons, List.cons_append, replaceFrom]
  obtain ⟨p, ps, rfl⟩ := List.exists_cons_of_ne_nil hpat
  have hhead : (p :: ps).isPrefixOf (p :: (ps ++ y)) = true :=
    List.isPrefixOf_iff_prefix.mpr (List.prefix_append (p :: ps) y)
  rw [List.cons_append, replaceFrom, if_pos hhead, List.length_cons, Nat.add_sub_cancel, hskip]

/-! ## Numbers -/

def digitValue (c : Char) : Nat := c.toNat - '0'.toNat

/-- `parse` for an unsigned type with the bound `max`: an optional plus sign, then digits. -/
def parseUnsigned (max : Nat) (s : List Char) : Option Nat :=
  let digits := match s with
    | '+' :: rest => rest
    | _ => s
  let value := digits.foldl (fun acc c => 10 * acc + digitValue c) 0
  if digits ≠ [] ∧ digits.all Char.isDigit ∧ value ≤ max then some value else none

/-- `ParseIntError` -/
inductive ParseIntError
  | empty
  | invalidDigit
  | posOverflow
  deriving DecidableEq, Repr

def ParseIntError.text : ParseIntError → String
  | .empty => "cannot parse integer from empty string"
  | .invalidDigit => "invalid digit found in string"
  | .posOverflow => "number too large to fit in target type"

/-- `char::to_digit` with the radix 16 -/
def hexDigit (c : Char) : Option Nat :=
  if c.isDigit then some (c.toNat - '0'.toNat)
  else if 'a' ≤ c ∧ c ≤ 'f' then some (c.toNat - 'a'.toNat + 10)
  else if 'A' ≤ c ∧ c ≤ 'F' then some (c.toNat - 'A'.toNat + 10)
  else none

/-- The digits, from the left, up to the first that is none or does not fit. -/
def hexDigits (max : Nat) : Nat → List Char → Except ParseIntError Nat
  | acc, [] => .ok acc
  | acc, c :: cs =>
    match hexDigit c with
    | none => .error .invalidDigit
    | some d => if acc * 16 + d ≤ max then hexDigits max (acc * 16 + d) cs else .error .posOverflow

/-- `from_str_radix` with the radix 16, for an unsigned type with the bound `max` -/
def fromHexRadix (max : Nat) (s : String) : Except ParseIntError Nat :=
  match s.toList with
  | [] => .error .empty
  | ['+'] => .error .invalidDigit
  | '+' :: digits => hexDigits max 0 digits
  | digits => hexDigits max 0 digits

/-! ## UTF-8 -/

/-- A continuation byte in the given range. -/
def inRange (lo hi b : UInt8) : Bool := lo ≤ b && b ≤ hi

/-- The bits of a continuation byte. -/
def low6 (b : UInt8) : Nat := b.toNat % 64

/--
`str::from_utf8`: the characters, if the bytes are well-formed.

The ranges of the second byte leave out overlong forms, surrogates and what is beyond U+10FFFF.
-/
def decodeUtf8 : List UInt8 → Option (List Char)
  | [] => some []
  | b₀ :: rest₀ =>
    if b₀ < 0x80 then (decodeUtf8 rest₀).map (Char.ofNat b₀.toNat :: ·)
    else match rest₀ with
      | [] => none
      | b₁ :: rest₁ =>
        if inRange 0xC2 0xDF b₀ then
          if inRange 0x80 0xBF b₁ then
            (decodeUtf8 rest₁).map (Char.ofNat (b₀.toNat % 32 * 64 + low6 b₁) :: ·)
          else none
        else match rest₁ with
          | [] => none
          | b₂ :: rest₂ =>
            if inRange 0xE0 0xEF b₀ then
              let lo : UInt8 := if b₀ = 0xE0 then 0xA0 else 0x80
              let hi : UInt8 := if b₀ = 0xED then 0x9F else 0xBF
              if inRange lo hi b₁ && inRange 0x80 0xBF b₂ then
                (decodeUtf8 rest₂).map
                  (Char.ofNat ((b₀.toNat % 16 * 64 + low6 b₁) * 64 + low6 b₂) :: ·)
              else none
            else match rest₂ with
              | [] => none
              | b₃ :: rest₃ =>
                let lo : UInt8 := if b₀ = 0xF0 then 0x90 else 0x80
                let hi : UInt8 := if b₀ = 0xF4 then 0x8F else 0xBF
                if inRange 0xF0 0xF4 b₀ && inRange lo hi b₁ && inRange 0x80 0xBF b₂ &&
                    inRange 0x80 0xBF b₃ then
                  (decodeUtf8 rest₃).map (Char.ofNat
                    (((b₀.toNat % 8 * 64 + low6 b₁) * 64 + low6 b₂) * 64 + low6 b₃) :: ·)
                else none

/-- The bytes of an ASCII text. -/
def asciiBytes (s : String) : List UInt8 := s.toList.map fun c => UInt8.ofNat c.toNat

example : lines "a\r\nb\n\nc".toList = ["a".toList, "b".toList, [], "c".toList] := by decide

example : replace "a<x>b<x>" "<x>" "1:2" = "a1:2b1:2" := by decide

example : decodeUtf8 [0x61, 0xC3, 0xA9, 0xE2, 0x82, 0xAC] = some ['a', 'é', '€'] := by decide

end Text
