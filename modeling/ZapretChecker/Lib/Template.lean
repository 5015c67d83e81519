import ZapretChecker.Lib.Text

/-!
# Templates

A template has slots: names in double brackets. If no bracket occurs elsewhere, to replace one name
after the other, wherever it stands in brackets, is to substitute all of them at once. No slot is
read across two others, and no value adds one.

* `Brackets`, `Brackets.Template` — the two characters, and a template without others of them
* `substitute` — a template with every slot replaced at once
* `foldl_replace_text` — the slots replaced one after the other
* `contains_of_substitute`, `text_of_substitute` — a slot is left exactly where a value is missing
-/

namespace Templates

open Text

structure Brackets where
  opening : Char
  closing : Char
  distinct : opening ≠ closing

inductive Piece
  | literal (text : String)
  | slot (name : String)
  deriving DecidableEq, Repr

namespace Piece

/-- What a piece stands for. `none` is a slot without a value. -/
def value (values : String → Option String) : Piece → Option String
  | literal text => some text
  | slot name => values name

/-- A slot that has a value becomes a literal. -/
def fill (values : String → Option String) (p : Piece) : Piece :=
  match p.value values with
  | some text => literal text
  | none => p

@[simp] theorem fill_none (p : Piece) : p.fill (fun _ => none) = p := by
  cases p <;> rfl

/-- What is filled first is kept. -/
theorem fill_fill (first second : String → Option String) (p : Piece) :
    (p.fill first).fill second = p.fill fun name => (first name).or (second name) := by
  cases p with
  | literal text => rfl
  | slot name =>
    cases hfirst : first name with
    | none => simp [fill, value, hfirst]
    | some text => simp [fill, value, hfirst]

end Piece

/-- The template with every slot replaced at once. `none` if one has no value. -/
def substitute (values : String → Option String) : List Piece → Option String
  | [] => some ""
  | p :: pieces => do
    let text ← p.value values
    let rest ← substitute values pieces
    return text ++ rest

theorem substitute_cons_eq_none_iff {values : String → Option String} {p : Piece}
    {pieces : List Piece} :
    substitute values (p :: pieces) = none ↔
      p.value values = none ∨ substitute values pieces = none := by
  rw [substitute]
  cases p.value values with
  | none => simp
  | some text =>
    cases substitute values pieces with
    | none => simp
    | some rest => simp

/-- A slot without a value is left. -/
theorem substitute_eq_none_iff {values : String → Option String} {pieces : List Piece} :
    substitute values pieces = none ↔ ∃ name, Piece.slot name ∈ pieces ∧ values name = none := by
  induction pieces with
  | nil => simp [substitute]
  | cons p pieces ih =>
    rw [substitute_cons_eq_none_iff, ih]
    cases p with
    | literal text => simp [Piece.value]
    | slot name => simp [Piece.value, or_and_right, exists_or]

namespace Brackets

variable (b : Brackets)

/-- The text of a slot. -/
def slot (name : String) : String :=
  String.ofList [b.opening, b.opening] ++ name ++ String.ofList [b.closing, b.closing]

def pieceText : Piece → String
  | .literal text => text
  | .slot name => b.slot name

def text : List Piece → String
  | [] => ""
  | p :: pieces => b.pieceText p ++ text pieces

/-- There is no bracket in it. -/
structure Plain (s : String) : Prop where
  opening : b.opening ∉ s.toList
  closing : b.closing ∉ s.toList

def PlainPiece : Piece → Prop
  | .literal text => b.Plain text
  | .slot name => b.Plain name

instance (s : String) : Decidable (b.Plain s) :=
  decidable_of_iff (b.opening ∉ s.toList ∧ b.closing ∉ s.toList)
    ⟨fun h => ⟨h.1, h.2⟩, fun h => ⟨h.opening, h.closing⟩⟩

/-- A template that has no brackets but those of its slots. -/
structure Template where
  pieces : List Piece
  plain : ∀ p ∈ pieces, b.PlainPiece p

variable {b} in
def Template.text (template : b.Template) : String := b.text template.pieces

/-- A name that ends a slot and begins another one. -/
def Straddles (name : String) : Prop :=
  ∃ before after, name.toList = before ++ after ∧ [b.closing, b.closing] <:+: before ∧
    [b.opening, b.opening] <:+: after

variable {b}

theorem Plain.not_straddles {name : String} (h : b.Plain name) : ¬ b.Straddles name := by
  rintro ⟨before, after, hname, hclosing, -⟩
  refine h.closing ?_
  rw [hname]
  exact List.mem_append_left _ (hclosing.subset List.mem_cons_self)

theorem Plain.append {s t : String} (hs : b.Plain s) (ht : b.Plain t) : b.Plain (s ++ t) where
  opening := by
    rw [String.toList_append, List.mem_append, not_or]
    exact ⟨hs.opening, ht.opening⟩
  closing := by
    rw [String.toList_append, List.mem_append, not_or]
    exact ⟨hs.closing, ht.closing⟩

theorem toList_slot (name : String) :
    (b.slot name).toList =
      b.opening :: b.opening :: (name.toList ++ [b.closing, b.closing]) := by
  simp [slot]

theorem toList_text_cons (p : Piece) (pieces : List Piece) :
    (b.text (p :: pieces)).toList = (b.pieceText p).toList ++ (b.text pieces).toList := by
  rw [text, String.toList_append]

/-! ## Where a slot is read -/

/-- A slot is opened before one is closed. -/
theorem opening_before_closing {pieces : List Piece} (hpieces : ∀ p ∈ pieces, b.PlainPiece p)
    {before after : List Char} (h : (b.text pieces).toList = before ++ b.closing :: after) :
    [b.opening, b.opening] <:+: before := by
  induction pieces generalizing before after with
  | nil => cases List.append_ne_nil_of_right_ne_nil before (List.cons_ne_nil _ _) h.symm
  | cons p pieces ih =>
    have hpiece := hpieces p List.mem_cons_self
    have ih {before after} := @ih (fun q hq => hpieces q (List.mem_cons_of_mem p hq)) before after
    rw [toList_text_cons] at h
    cases p with
    | literal text =>
      rcases List.append_eq_append_iff.mp h with ⟨before', rfl, hrest⟩ | ⟨middle, htext, hrest⟩
      · exact (ih hrest).trans (List.suffix_append _ _).isInfix
      · cases middle with
        | nil =>
          have hclosed : (b.text pieces).toList = [] ++ b.closing :: after := hrest.symm
          exact (ih hclosed).trans List.nil_infix
        | cons c middle =>
          obtain ⟨rfl, -⟩ := List.cons.inj hrest
          refine absurd ?_ hpiece.closing
          show b.closing ∈ (b.pieceText (.literal text)).toList
          rw [htext]
          exact List.mem_append_right _ List.mem_cons_self
    | slot name =>
      rw [show b.pieceText (.slot name) = b.slot name from rfl, toList_slot] at h
      cases before with
      | nil => exact absurd (List.cons.inj h).1 b.distinct
      | cons c before =>
        obtain ⟨rfl, htail⟩ := List.cons.inj h
        cases before with
        | nil => exact absurd (List.cons.inj htail).1 b.distinct
        | cons c before =>
          obtain ⟨rfl, -⟩ := List.cons.inj htail
          exact (List.prefix_append [b.opening, b.opening] before).isInfix

/-- The slot of another name is not read at the slot of `name`. -/
theorem slot_not_begins {name other : String} (hname : b.Plain name) (hne : name ≠ other)
    (hother : ¬ b.Straddles other) {pieces : List Piece} (hpieces : ∀ p ∈ pieces, b.PlainPiece p) :
    ¬ (b.slot other).toList <+: (b.slot name).toList ++ (b.text pieces).toList := by
  rw [toList_slot, toList_slot, List.cons_append, List.cons_append, List.cons_prefix_cons,
    List.cons_prefix_cons]
  rintro ⟨-, -, after, h⟩
  rw [List.append_assoc, List.append_assoc] at h
  rcases List.append_eq_append_iff.mp h with ⟨middle, hmiddle, hrest⟩ | ⟨middle, hmiddle, hrest⟩
  · -- `other` ends within `name`
    cases middle with
    | nil => exact hne (String.toList_inj.mp (by rw [hmiddle, List.append_nil]))
    | cons c middle =>
      obtain ⟨rfl, -⟩ := List.cons.inj hrest
      refine hname.closing ?_
      rw [hmiddle]
      exact List.mem_append_right _ List.mem_cons_self
  · -- `name` and its brackets are the begin of `other`
    rcases middle with _ | ⟨c, _ | ⟨d, middle⟩⟩
    · exact hne (String.toList_inj.mp (by rw [hmiddle, List.append_nil]))
    · have hclosing : (b.text pieces).toList = [] ++ b.closing :: after :=
        (List.cons.inj (List.cons.inj hrest).2).2
      exact absurd (opening_before_closing hpieces hclosing) (by simp)
    · obtain ⟨rfl, htail⟩ := List.cons.inj hrest
      obtain ⟨rfl, hclosing⟩ := List.cons.inj htail
      refine hother ⟨name.toList ++ [b.closing, b.closing], middle, by simp [hmiddle],
        (List.suffix_append _ _).isInfix, ?_⟩
      exact opening_before_closing hpieces hclosing

/-! ## Replacing -/

/-- A slot is kept if what is replaced does not begin with it. -/
theorem replaceFrom_slot_of_not_begins {name other : String} (hname : b.opening ∉ name.toList)
    {rest : List Char} (hfirst : ¬ (b.slot other).toList <+: (b.slot name).toList ++ rest)
    (value : List Char) :
    replaceFrom (b.slot other).toList value 0 ((b.slot name).toList ++ rest) =
      (b.slot name).toList ++ replaceFrom (b.slot other).toList value 0 rest := by
  have hopening : b.opening ∉ name.toList ++ [b.closing, b.closing] := by
    simp [hname, b.distinct]
  -- the second bracket is no begin either: what follows it is no bracket of this kind
  have hsecond : ¬ (b.slot other).toList <+:
      b.opening :: (name.toList ++ [b.closing, b.closing] ++ rest) := by
    rw [toList_slot, List.cons_prefix_cons]
    rintro ⟨-, h⟩
    have hlength : [b.opening].length ≤ (name.toList ++ [b.closing, b.closing]).length := by simp
    have hbegin : [b.opening] <+: name.toList ++ [b.closing, b.closing] :=
      List.prefix_of_prefix_length_le ((List.prefix_append [b.opening] _).trans h)
        (List.prefix_append _ _) hlength
    exact hopening (hbegin.subset List.mem_cons_self)
  rw [toList_slot name, List.cons_append, List.cons_append] at hfirst ⊢
  rw [← List.isPrefixOf_iff_prefix] at hfirst hsecond
  rw [replaceFrom, if_neg hfirst, replaceFrom, if_neg hsecond, toList_slot,
    replaceFrom_append_of_notMem _ hopening, List.cons_append, List.cons_append]

/-- To replace a name is to fill its slots. -/
theorem replace_text {name : String} (hname : ¬ b.Straddles name) (value : String)
    {pieces : List Piece} (hpieces : ∀ p ∈ pieces, b.PlainPiece p) :
    replace (b.text pieces) (b.slot name) value =
      b.text (pieces.map (Piece.fill fun n => [(name, value)].lookup n)) := by
  rw [← String.toList_inj, replace, String.toList_ofList]
  induction pieces with
  | nil => rfl
  | cons p pieces ih =>
    have hpiece := hpieces p List.mem_cons_self
    have hrest : ∀ q ∈ pieces, b.PlainPiece q := fun q hq =>
      hpieces q (List.mem_cons_of_mem p hq)
    rw [List.map_cons, toList_text_cons, toList_text_cons, ← ih hrest]
    cases p with
    | literal text =>
      rw [toList_slot]
      exact replaceFrom_append_of_notMem _ hpiece.opening _
    | slot other =>
      by_cases hother : other = name
      · subst hother
        have hvalue : Piece.fill (fun n => [(other, value)].lookup n) (.slot other) =
            .literal value := by
          simp [Piece.fill, Piece.value]
        rw [hvalue]
        exact replaceFrom_append_self _ (by simp [toList_slot]) _
      · have hkept : Piece.fill (fun n => [(name, value)].lookup n) (.slot other) =
            .slot other := by
          simp [Piece.fill, Piece.value, List.lookup_cons, beq_false_of_ne hother]
        rw [hkept]
        exact replaceFrom_slot_of_not_begins hpiece.opening
          (slot_not_begins hpiece hother hname hrest) _

theorem plainPiece_fill {values : String → Option String}
    (hvalues : ∀ name value, values name = some value → b.Plain value) {p : Piece}
    (hp : b.PlainPiece p) : b.PlainPiece (p.fill values) := by
  unfold Piece.fill
  cases p with
  | literal text => exact hp
  | slot name =>
    cases hvalue : Piece.value values (.slot name) with
    | none => exact hp
    | some value => exact hvalues name value hvalue

/-- Replaced one after the other, the first value of every name is filled in. -/
theorem foldl_replace_text {values : List (String × String)}
    (hnames : ∀ p ∈ values, ¬ b.Straddles p.1) (hvalues : ∀ p ∈ values, b.Plain p.2)
    {pieces : List Piece} (hpieces : ∀ p ∈ pieces, b.PlainPiece p) :
    values.foldl (fun text p => replace text (b.slot p.1) p.2) (b.text pieces) =
      b.text (pieces.map (Piece.fill fun name => values.lookup name)) := by
  induction values generalizing pieces with
  | nil =>
    rw [List.foldl_nil, show (fun name => ([] : List (String × String)).lookup name) =
      fun _ => none from rfl, List.map_congr_left fun p _ => Piece.fill_none p, List.map_id']
  | cons p values ih =>
    obtain ⟨name, value⟩ := p
    have hvalue (n text : String) (h : [(name, value)].lookup n = some text) : b.Plain text := by
      obtain rfl : value = text := by
        by_cases hn : n = name
        · simpa [hn] using h
        · simp [List.lookup_cons, beq_false_of_ne hn] at h
      exact hvalues _ List.mem_cons_self
    have hfilled : ∀ q ∈ pieces.map (Piece.fill fun n => [(name, value)].lookup n),
        b.PlainPiece q := by
      intro filled hfilled
      obtain ⟨q, hq, rfl⟩ := List.mem_map.mp hfilled
      exact plainPiece_fill hvalue (hpieces q hq)
    rw [List.foldl_cons, replace_text (hnames _ List.mem_cons_self) value hpieces,
      ih (fun q hq => hnames q (List.mem_cons_of_mem _ hq))
        (fun q hq => hvalues q (List.mem_cons_of_mem _ hq)) hfilled, List.map_map]
    congr 1
    refine List.map_congr_left fun q _ => ?_
    rw [Function.comp_apply, Piece.fill_fill]
    congr 1
    funext n
    exact List.lookup_append.symm

/-! ## What is left -/

theorem infix_text {p : Piece} {pieces : List Piece} (h : p ∈ pieces) :
    (b.pieceText p).toList <:+: (b.text pieces).toList := by
  induction pieces with
  | nil => cases h
  | cons q pieces ih =>
    rw [toList_text_cons]
    rcases List.mem_cons.mp h with rfl | h
    · exact (List.prefix_append _ _).isInfix
    · exact (ih h).trans (List.suffix_append _ _).isInfix

/-- A slot is left if one has no value. -/
theorem contains_of_substitute {values : String → Option String} {pieces : List Piece}
    (h : substitute values pieces = none) :
    [b.opening, b.opening] <:+: (b.text (pieces.map (Piece.fill values))).toList := by
  obtain ⟨name, hslot, hvalue⟩ := substitute_eq_none_iff.mp h
  have hfill : Piece.fill values (.slot name) = .slot name := by
    simp [Piece.fill, Piece.value, hvalue]
  have hleft := infix_text (b := b) (List.mem_map_of_mem (f := Piece.fill values) hslot)
  rw [hfill, show b.pieceText (.slot name) = b.slot name from rfl, toList_slot] at hleft
  exact (List.prefix_append [b.opening, b.opening] _).isInfix.trans hleft

/-- And otherwise nothing. -/
theorem text_of_substitute {values : String → Option String}
    (hvalues : ∀ name value, values name = some value → b.Plain value) {pieces : List Piece}
    (hpieces : ∀ p ∈ pieces, b.PlainPiece p) {s : String} (h : substitute values pieces = some s) :
    b.text (pieces.map (Piece.fill values)) = s ∧ b.Plain s := by
  induction pieces generalizing s with
  | nil =>
    obtain rfl := Option.some.inj h
    exact ⟨rfl, List.not_mem_nil, List.not_mem_nil⟩
  | cons p pieces ih =>
    rw [substitute] at h
    simp only [Option.bind_eq_bind, Option.bind_eq_some_iff, Option.pure_def,
      Option.some.injEq] at h
    obtain ⟨text, htext, rest, hrest, rfl⟩ := h
    obtain ⟨hmap, hplain⟩ := ih (fun q hq => hpieces q (List.mem_cons_of_mem p hq)) hrest
    have hpiece : b.Plain text := by
      cases p with
      | literal l =>
        obtain rfl : l = text := Option.some.inj htext
        exact hpieces _ List.mem_cons_self
      | slot name => exact hvalues name text htext
    have hfill : p.fill values = .literal text := by
      rw [Piece.fill, htext]
    refine ⟨?_, hpiece.append hplain⟩
    rw [List.map_cons, Brackets.text, hfill, hmap]
    rfl

/-- A text without brackets has no slot that is left. -/
theorem Plain.not_opening {s : String} (h : b.Plain s) :
    ¬ [b.opening, b.opening] <:+: s.toList :=
  fun hopening => h.opening (hopening.subset List.mem_cons_self)

theorem Plain.not_closing {s : String} (h : b.Plain s) :
    ¬ [b.closing, b.closing] <:+: s.toList :=
  fun hclosing => h.closing (hclosing.subset List.mem_cons_self)

end Brackets

end Templates
