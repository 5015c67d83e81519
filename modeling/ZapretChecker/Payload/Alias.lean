import ZapretChecker.Config.App
import ZapretChecker.Lib.Runs
import ZapretChecker.Lib.Words

/-!
# Aliases of payload files

`make_payload_alias` of `src/payload_registry.rs`: the stem of the file in lower case, with one
underscore for everything between letters and digits.

* `Lowercase` — what `char::to_lowercase` is known to do
* `stemAlias_eq` — the alias is the runs of letters and digits, joined by underscores
* `makePayloadAlias_canonical` — shape, idempotence and stems with the same alias
-/

namespace ZapretChecker.Payload

open Config Runs Text

/-- `char::to_lowercase`. The tables of Unicode are not looked into. -/
structure Lowercase where
  toLowercase : Char → List Char
  /-- The mapping is one character or more. -/
  ne_nil : ∀ c, toLowercase c ≠ []
  ascii : ∀ c, c.toNat < 128 → toLowercase c = [c.toLower]
  /-- No letter of ASCII is left in upper case. -/
  not_isUpper : ∀ c, ∀ d ∈ toLowercase c, d.isUpper = false

inductive PayloadError
  /-- a text without a quoted value -/
  | bail (text : String)
  | aliasCharacters (payloadAlias : String)
  | aliasReserved (payloadAlias : String)
  | aliasDuplicated (payloadAlias : String)
  deriving DecidableEq, Repr

/-- The text of the error. `debug` is the `Debug` format of a string. -/
def PayloadError.message (debug : String → String) : PayloadError → String
  | .bail text => text
  | .aliasCharacters a =>
    "payload alias " ++ debug a ++ " must contain only ASCII letters, digits or underscore"
  | .aliasReserved a =>
    "payload alias " ++ debug a ++ " conflicts with a builtin payload alias"
  | .aliasDuplicated a => "payload alias " ++ debug a ++ " is duplicated"

def validatePayloadAlias (payloadAlias : String) : Except PayloadError Unit :=
  if payloadAlias = "" then .error (.bail "payload alias must not be empty")
  else if payloadAlias.toList.all fun c => c.isAlphanum || c = '_' then .ok ()
  else .error (.aliasCharacters payloadAlias)

/-- The alias before it is checked. -/
def normalizeStem (lowercase : Lowercase) (stem : String) : String :=
  String.ofList (trimMatches '_' (squeeze Char.isAlphanum '_'
    (stem.toList.flatMap lowercase.toLowercase)))

def stemAlias (lowercase : Lowercase) (stem : String) : Except PayloadError String := do
  validatePayloadAlias (normalizeStem lowercase stem)
  return normalizeStem lowercase stem

def makePayloadAlias (lowercase : Lowercase) (path : String) : Except PayloadError String :=
  match fileStem path with
  | some stem => stemAlias lowercase stem
  | none => .error (.bail "payload file must have a valid UTF-8 file name")

/-! ## The runs of an alias -/

/-- The letters and digits of a stem, in lower case, as they stand together. -/
def stemRuns (lowercase : Lowercase) (stem : List Char) : List (List Char) :=
  runs Char.isAlphanum (stem.flatMap lowercase.toLowercase)

/-- The alias is its runs, joined by underscores. -/
theorem normalizeStem_eq (lowercase : Lowercase) (stem : String) :
    normalizeStem lowercase stem =
      String.ofList (['_'].intercalate (stemRuns lowercase stem.toList)) := by
  rw [normalizeStem, trimMatches_squeeze (by decide)]
  rfl

/-- A letter in lower case or a digit. -/
def isAliasChar (c : Char) : Bool := c.isLower || c.isDigit

/-- Beside the upper case, these are the letters and digits. -/
theorem isAlphanum_eq (c : Char) : c.isAlphanum = (c.isUpper || isAliasChar c) :=
  Bool.or_assoc _ _ _

theorem isAliasChar_of_isAlphanum {c : Char} (h : c.isAlphanum = true) (hupper : c.isUpper = false) :
    isAliasChar c = true := by
  rwa [isAlphanum_eq, hupper, Bool.false_or] at h

theorem isAlphanum_of_isAliasChar {c : Char} (h : isAliasChar c = true) : c.isAlphanum = true := by
  rw [isAlphanum_eq, h, Bool.or_true]

theorem isUpper_iff {c : Char} : c.isUpper = true ↔ 65 ≤ c.toNat ∧ c.toNat ≤ 90 :=
  decide_eq_true_iff

theorem isLower_iff {c : Char} : c.isLower = true ↔ 97 ≤ c.toNat ∧ c.toNat ≤ 122 :=
  Bool.and_eq_true_iff.trans (and_congr decide_eq_true_iff decide_eq_true_iff)

theorem mem_stemRuns {lowercase : Lowercase} {stem run : List Char}
    (h : run ∈ stemRuns lowercase stem) : run ≠ [] ∧ ∀ c ∈ run, isAliasChar c = true := by
  obtain ⟨hne, hrun⟩ := mem_runs h
  refine ⟨hne, ?_⟩
  intro c hc
  obtain ⟨d, -, hd⟩ := List.mem_flatMap.mp (mem_of_mem_runs h hc)
  exact isAliasChar_of_isAlphanum (hrun c hc) (lowercase.not_isUpper d c hd)

/-! ## The shape of an alias -/

/-- Runs of letters in lower case and digits, with single underscores between them. -/
def Canonical (payloadAlias : String) : Prop :=
  ∃ words : List (List Char), words ≠ [] ∧
    (∀ word ∈ words, word ≠ [] ∧ ∀ c ∈ word, isAliasChar c = true) ∧
    payloadAlias.toList = ['_'].intercalate words

theorem areRuns_stemRuns (lowercase : Lowercase) (stem : List Char) :
    AreRuns Char.isAlphanum (stemRuns lowercase stem) := areRuns_runs _ _

theorem mem_normalizeStem {lowercase : Lowercase} {stem : String} {c : Char}
    (h : c ∈ (normalizeStem lowercase stem).toList) : c = '_' ∨ isAliasChar c = true := by
  rw [normalizeStem_eq, String.toList_ofList] at h
  rcases mem_intercalate h with h | ⟨run, hrun, hc⟩
  · exact Or.inl (List.mem_singleton.mp h)
  · exact Or.inr ((mem_stemRuns hrun).2 c hc)

theorem normalizeStem_eq_empty_iff (lowercase : Lowercase) (stem : String) :
    normalizeStem lowercase stem = "" ↔ stemRuns lowercase stem.toList = [] := by
  rw [← String.toList_eq_nil_iff, normalizeStem_eq, String.toList_ofList,
    intercalate_eq_nil_iff (by decide) (areRuns_stemRuns lowercase stem.toList)]

/-- Only an empty alias is refused. -/
theorem stemAlias_eq_ok_iff {lowercase : Lowercase} {stem a : String} :
    stemAlias lowercase stem = .ok a ↔
      stemRuns lowercase stem.toList ≠ [] ∧ a = normalizeStem lowercase stem := by
  have hempty := normalizeStem_eq_empty_iff lowercase stem
  have hchars : (normalizeStem lowercase stem).toList.all (fun c => c.isAlphanum || c = '_') =
      true := by
    rw [List.all_eq_true]
    intro c hc
    rcases mem_normalizeStem hc with rfl | hc
    · rfl
    · rw [isAlphanum_of_isAliasChar hc, Bool.true_or]
  unfold stemAlias validatePayloadAlias
  by_cases hnil : stemRuns lowercase stem.toList = []
  · rw [if_pos (hempty.mpr hnil)]
    constructor
    · intro h
      cases h
    · intro h
      exact absurd hnil h.1
  · rw [if_neg fun h => hnil (hempty.mp h), if_pos hchars]
    constructor
    · intro h
      exact ⟨hnil, (Except.ok.inj h).symm⟩
    · rintro ⟨-, rfl⟩
      rfl

theorem canonical_of_stemAlias {lowercase : Lowercase} {stem a : String}
    (h : stemAlias lowercase stem = .ok a) : Canonical a := by
  obtain ⟨hne, rfl⟩ := stemAlias_eq_ok_iff.mp h
  refine ⟨stemRuns lowercase stem.toList, hne, fun run hrun => mem_stemRuns hrun, ?_⟩
  rw [normalizeStem_eq, String.toList_ofList]

/-! ## Aliases as stems -/

/-- A path without slashes and dots is its own stem. -/
theorem fileStem_eq_self {name : String} (hne : name ≠ "") (hslash : '/' ∉ name.toList)
    (hdot : '.' ∉ name.toList) : fileStem name = some name := by
  have hsplit : split name '/' = [name] := by
    rw [split, List.splitOn_eq_singleton fun h => hslash h, List.map_singleton, String.ofList_toList]
  have hdots : name ≠ "." ∧ name ≠ ".." := by
    constructor <;>
    · rintro rfl
      exact hdot (by decide)
  have hname : fileName name = some name := by
    have hlast : ([name].filter fun part => part ≠ "" ∧ part ≠ ".").getLast? = some name := by
      simp [hne, hdots.1]
    unfold fileName
    rw [hsplit, hlast]
    split
    · next h => exact absurd (Option.some.inj h) hdots.2
    · rfl
  have hspan : name.toList.reverse.span (· ≠ '.') = (name.toList.reverse, []) := by
    have hall : ∀ c ∈ name.toList.reverse, decide (c ≠ '.') = true := by
      intro c hc
      refine decide_eq_true ?_
      rintro rfl
      exact hdot (List.mem_reverse.mp hc)
    rw [List.span_eq_takeWhile_dropWhile, List.takeWhile_eq_self_iff.mpr hall,
      List.dropWhile_eq_nil_iff.mpr hall]
  unfold fileStem
  rw [hname, Option.map_some, hspan]

theorem isAliasChar_bounds {c : Char} (h : c = '_' ∨ isAliasChar c = true) :
    c.toNat < 128 ∧ c.isUpper = false ∧ c ≠ '/' ∧ c ≠ '.' := by
  rcases h with rfl | h
  · decide
  · have hne : ∀ d : Char, isAliasChar d = false → c ≠ d := by
      rintro d hd rfl
      rw [h] at hd
      cases hd
    have hrange : 97 ≤ c.toNat ∧ c.toNat ≤ 122 ∨ 48 ≤ c.toNat ∧ c.toNat ≤ 57 := by
      rw [isAliasChar, Bool.or_eq_true] at h
      exact h.imp isLower_iff.mp toNat_of_isDigit
    refine ⟨by omega, ?_, hne '/' (by decide), hne '.' (by decide)⟩
    rw [← Bool.not_eq_true, isUpper_iff]
    omega

theorem toLower_of_not_isUpper {c : Char} (h : c.isUpper = false) : c.toLower = c := by
  have hnot : ¬ (c.val ≥ 'A'.val ∧ c.val ≤ 'Z'.val) := of_decide_eq_false h
  unfold Char.toLower
  exact dif_neg hnot

theorem toLowercase_of_isAliasChar (lowercase : Lowercase) {c : Char}
    (h : c = '_' ∨ isAliasChar c = true) : lowercase.toLowercase c = [c] := by
  obtain ⟨hascii, hupper, -⟩ := isAliasChar_bounds h
  rw [lowercase.ascii c hascii, toLower_of_not_isUpper hupper]

/-- The runs of an alias are the runs it was made of. -/
theorem stemRuns_normalizeStem (lowercase : Lowercase) (stem : String) :
    stemRuns lowercase (normalizeStem lowercase stem).toList =
      stemRuns lowercase stem.toList := by
  have hlower : (normalizeStem lowercase stem).toList.flatMap lowercase.toLowercase =
      (normalizeStem lowercase stem).toList := by
    rw [List.flatMap_congr fun c hc => toLowercase_of_isAliasChar lowercase (mem_normalizeStem hc),
      List.flatMap_singleton']
  rw [stemRuns, hlower, normalizeStem_eq, String.toList_ofList,
    runs_intercalate (by decide) (areRuns_stemRuns lowercase stem.toList)]

theorem makePayloadAlias_self {lowercase : Lowercase} {stem a : String}
    (h : stemAlias lowercase stem = .ok a) : makePayloadAlias lowercase a = .ok a := by
  obtain ⟨hne, rfl⟩ := stemAlias_eq_ok_iff.mp h
  have hruns := stemRuns_normalizeStem lowercase stem
  have hnot : ∀ c ∈ (normalizeStem lowercase stem).toList, c ≠ '/' ∧ c ≠ '.' := fun c hc =>
    (isAliasChar_bounds (mem_normalizeStem hc)).2.2
  have hstem : fileStem (normalizeStem lowercase stem) = some (normalizeStem lowercase stem) := by
    refine fileStem_eq_self ?_ (fun hc => (hnot _ hc).1 rfl) fun hc => (hnot _ hc).2 rfl
    intro hempty
    rw [hempty] at hruns
    exact hne hruns.symm
  rw [makePayloadAlias, hstem]
  refine stemAlias_eq_ok_iff.mpr ⟨by rwa [hruns], ?_⟩
  rw [normalizeStem_eq lowercase (normalizeStem lowercase stem), hruns, normalizeStem_eq]

/-! ## Stems with the same alias -/

/-- A character without a letter or digit of ASCII in its lower case. -/
def IsSeparator (lowercase : Lowercase) (c : Char) : Prop :=
  ∀ d ∈ lowercase.toLowercase c, d.isAlphanum = false

instance (lowercase : Lowercase) : DecidablePred (IsSeparator lowercase) := fun c =>
  List.decidableBAll (fun d : Char => d.isAlphanum = false) (lowercase.toLowercase c)

/-- The same character, or a letter of ASCII in its other case. -/
def SameLetter (c d : Char) : Prop :=
  c = d ∨ c.toNat < 128 ∧ d.toNat < 128 ∧ c.toLower = d.toLower

/-- A change of a stem that its alias does not show. -/
inductive Respelled (lowercase : Lowercase) : List Char → List Char → Prop
  | letters {s t : List Char} : List.Forall₂ SameLetter s t → Respelled lowercase s t
  | between {gap gap' : List Char} (before after : List Char) : gap ≠ [] → gap' ≠ [] →
    (∀ c ∈ gap, IsSeparator lowercase c) → (∀ c ∈ gap', IsSeparator lowercase c) →
    Respelled lowercase (before ++ gap ++ after) (before ++ gap' ++ after)
  | front {gap gap' : List Char} (after : List Char) :
    (∀ c ∈ gap, IsSeparator lowercase c) → (∀ c ∈ gap', IsSeparator lowercase c) →
    Respelled lowercase (gap ++ after) (gap' ++ after)
  | back {gap gap' : List Char} (before : List Char) :
    (∀ c ∈ gap, IsSeparator lowercase c) → (∀ c ∈ gap', IsSeparator lowercase c) →
    Respelled lowercase (before ++ gap) (before ++ gap')
  | trans {s t u : List Char} : Respelled lowercase s t → Respelled lowercase t u →
    Respelled lowercase s u

theorem isGap_flatMap {lowercase : Lowercase} {gap : List Char}
    (h : ∀ c ∈ gap, IsSeparator lowercase c) :
    IsGap Char.isAlphanum (gap.flatMap lowercase.toLowercase) := by
  intro d hd
  obtain ⟨c, hc, hd⟩ := List.mem_flatMap.mp hd
  exact h c hc d hd

theorem flatMap_ne_nil {lowercase : Lowercase} {gap : List Char} (h : gap ≠ []) :
    gap.flatMap lowercase.toLowercase ≠ [] := by
  cases gap with
  | nil => exact absurd rfl h
  | cons c gap =>
    rw [List.flatMap_cons]
    exact List.append_ne_nil_of_left_ne_nil (lowercase.ne_nil c) _

theorem SameLetter.toLowercase_eq {lowercase : Lowercase} {c d : Char} (h : SameLetter c d) :
    lowercase.toLowercase c = lowercase.toLowercase d := by
  rcases h with rfl | ⟨hc, hd, hsame⟩
  · rfl
  · rw [lowercase.ascii c hc, lowercase.ascii d hd, hsame]

theorem flatMap_toLowercase_eq {lowercase : Lowercase} {s t : List Char}
    (h : List.Forall₂ SameLetter s t) :
    s.flatMap lowercase.toLowercase = t.flatMap lowercase.toLowercase := by
  induction h with
  | nil => rfl
  | cons hc _ ih => rw [List.flatMap_cons, List.flatMap_cons, hc.toLowercase_eq, ih]

theorem stemRuns_eq_of_respelled {lowercase : Lowercase} {s t : List Char}
    (h : Respelled lowercase s t) : stemRuns lowercase s = stemRuns lowercase t := by
  unfold stemRuns
  induction h with
  | letters hletters => rw [flatMap_toLowercase_eq hletters]
  | between before after hne hne' hgap hgap' =>
    simp only [List.flatMap_append]
    rw [runs_append_gap_append (isGap_flatMap hgap) (flatMap_ne_nil hne),
      runs_append_gap_append (isGap_flatMap hgap') (flatMap_ne_nil hne')]
  | front after hgap hgap' =>
    simp only [List.flatMap_append]
    rw [runs_gap_append (isGap_flatMap hgap), runs_gap_append (isGap_flatMap hgap')]
  | back before hgap hgap' =>
    simp only [List.flatMap_append]
    rw [runs_append_gap (isGap_flatMap hgap), runs_append_gap (isGap_flatMap hgap')]
  | trans _ _ ih ih' => rw [ih, ih']

theorem stemAlias_eq_of_respelled {lowercase : Lowercase} {stem stem' : String}
    (h : Respelled lowercase stem.toList stem'.toList) :
    stemAlias lowercase stem = stemAlias lowercase stem' := by
  have hsame : normalizeStem lowercase stem = normalizeStem lowercase stem' := by
    rw [normalizeStem_eq, normalizeStem_eq, stemRuns_eq_of_respelled h]
  rw [stemAlias, stemAlias, hsame]

/-- **Aliases are canonical.** -/
theorem makePayloadAlias_canonical (lowercase : Lowercase) :
    (∀ path a, makePayloadAlias lowercase path = .ok a →
      Canonical a ∧ makePayloadAlias lowercase a = .ok a) ∧
    ∀ stem stem' : String, Respelled lowercase stem.toList stem'.toList →
      stemAlias lowercase stem = stemAlias lowercase stem' := by
  refine ⟨?_, fun stem stem' h => stemAlias_eq_of_respelled h⟩
  intro path a h
  unfold makePayloadAlias at h
  split at h
  · exact ⟨canonical_of_stemAlias h, makePayloadAlias_self h⟩
  · cases h

theorem isUpper_toLower (c : Char) : c.toLower.isUpper = false := by
  by_cases h : c.isUpper = true
  · have hrange := isUpper_iff.mp h
    have hval : ∀ n : Nat, 65 ≤ n → n ≤ 90 → (Char.ofNat n).toLower.isUpper = false := by
      decide +kernel
    rw [← Char.ofNat_toNat c]
    exact hval c.toNat hrange.1 hrange.2
  · rw [toLower_of_not_isUpper (Bool.eq_false_iff.mpr h)]
    exact Bool.eq_false_iff.mpr h

/-- The letters of ASCII, and the two other characters whose lower case holds one. -/
def someLowercase : Lowercase where
  toLowercase c :=
    if c = 'İ' then ['i', '\u0307'] else if c = '\u212a' then ['k'] else [c.toLower]
  ne_nil c := by
    split
    · simp
    · split <;> simp
  ascii c hc := by
    have hne : c ≠ 'İ' ∧ c ≠ '\u212a' := by
      constructor <;>
      · rintro rfl
        revert hc
        decide
    rw [if_neg hne.1, if_neg hne.2]
  not_isUpper c d hd := by
    split at hd
    · have hall : ∀ d ∈ ['i', '\u0307'], d.isUpper = false := by simp
      exact hall d hd
    · split at hd
      · rw [List.mem_singleton.mp hd]
        rfl
      · rw [List.mem_singleton.mp hd]
        exact isUpper_toLower c

theorem makePayloadAlias_canonical_hello :
    Canonical "tls_hello" ∧ makePayloadAlias someLowercase "tls_hello" = .ok "tls_hello" ∧
      stemAlias someLowercase "TLS--Hello" = stemAlias someLowercase "TLS hello" := by
  have hcanonical := makePayloadAlias_canonical someLowercase
  have halias := hcanonical.1 "payloads/TLS--Hello.bin" "tls_hello" (by decide +kernel)
  have hdash : IsSeparator someLowercase '-' := by decide +kernel
  have hblank : IsSeparator someLowercase ' ' := by decide +kernel
  have hgap : Respelled someLowercase "TLS--Hello".toList "TLS Hello".toList :=
    @Respelled.between someLowercase ['-', '-'] [' '] "TLS".toList "Hello".toList (by simp) (by simp)
      (by simp [hdash]) (by simp [hblank])
  have hcase : Respelled someLowercase "TLS Hello".toList "TLS hello".toList :=
    .letters (by unfold SameLetter; decide +kernel)
  exact ⟨halias.1, halias.2, hcanonical.2 "TLS--Hello" "TLS hello" (hgap.trans hcase)⟩

example : makePayloadAlias someLowercase "TLS ClientHello--WWW.Google.COM.bin" =
    .ok "tls_clienthello_www_google_com" := by
  decide +kernel

end ZapretChecker.Payload
