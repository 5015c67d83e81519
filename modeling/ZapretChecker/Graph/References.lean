import ZapretChecker.Graph.Args
import ZapretChecker.Graph.Substitution

/-!
# References to files

A file of a fake directory stands in a template as a sentinel that spells its blob name and its
path. After the substitution a rendered text refers to it in a part `blob=…`.

* `FakeFile` — a file with its blob name, its path and the value that stands for it
* `Mentions` — a rendered text refers to a file
* `mentions_of_template` — the texts that a template with a `blob` parameter is rendered as
-/

namespace ZapretChecker.Graph

open SortBy

/-! ## Files -/

def FakeBlobKind.text : FakeBlobKind → String
  | .http => "http"
  | .tls => "tls"
  | .quic => "quic"
  | .all => "fake"

/-- A file of a fake directory, with the kind of the marker that lists it. -/
structure FakeFile where
  kind : FakeBlobKind
  dir : String
  entry : DirEntry
  named : entry.name ≠ ""

namespace FakeFile

variable (f : FakeFile)

def path : String := f.entry.path f.dir

/-- The value that stands for the file in a template. -/
def value : String := blobFileSentinelValue f.kind f.dir f.entry

/-- The name of its blob. -/
def name : String :=
  sanitizeBlobName ("fake_" ++ f.kind.text ++ "_" ++ f.entry.fileName.getD "blob")

theorem blob_value : "blob=" ++ f.value = referencePart f.name f.path := by
  have hvalue : f.value = blobFileSentinel ++ f.name ++ "@" ++ f.path := by
    obtain ⟨kind, dir, entry, hentry⟩ := f
    cases kind <;> rfl
  rw [hvalue, referencePart]
  simp only [String.append_assoc]

theorem path_ne_empty : f.path ≠ "" := by
  unfold path DirEntry.path
  split
  · intro h
    exact f.named (String.append_eq_empty_iff.mp h).2
  · intro h
    exact f.named (String.append_eq_empty_iff.mp h).2

end FakeFile

/-! ## Names -/

theorem eq_of_toLower_eq {c d : Char} (hd : d.isLower = false) (h : c.toLower = d) : c = d := by
  subst h
  unfold Char.toLower at hd ⊢
  split
  · rename_i hupper
    rw [dif_pos hupper] at hd
    replace hd := Bool.and_eq_false_iff.mp hd
    simp only [decide_eq_false_iff_not, ge_iff_le, UInt32.le_iff_toNat_le,
      UInt32.toNat_add] at hd hupper
    simp at hd hupper
    omega
  · rfl

/-- What a sanitized name has at the place of a character. -/
def sanitizeChar (c : Char) : Char := if c.isAlphanum || c == '_' then c.toLower else '_'

/-- An underscore goes before a name that does not start as an identifier. -/
def startAsIdentifier : List Char → String
  | c :: cs => String.ofList (if c.isAlpha || c == '_' then c :: cs else '_' :: c :: cs)
  | [] => "_"

theorem sanitizeBlobName_eq (value : String) :
    sanitizeBlobName value = startAsIdentifier (value.toList.map sanitizeChar) := by
  unfold sanitizeBlobName
  cases value.toList with
  | nil => rfl
  | cons c cs => exact (apply_ite String.ofList _ _ _).symm

theorem startAsIdentifier_ne_empty (out : List Char) : startAsIdentifier out ≠ "" := by
  cases out with
  | nil => decide
  | cons c cs =>
    rw [startAsIdentifier, Ne, ← String.toList_inj, String.toList_ofList]
    split <;> simp

theorem mem_startAsIdentifier {d : Char} {out : List Char}
    (h : d ∈ (startAsIdentifier out).toList) : d = '_' ∨ d ∈ out := by
  cases out with
  | nil => exact Or.inl (by simpa [startAsIdentifier] using h)
  | cons c cs =>
    rw [startAsIdentifier, String.toList_ofList] at h
    split at h
    · exact Or.inr h
    · exact List.mem_cons.mp h

/-- A sanitized name has none of the characters that are not kept. -/
theorem notMem_sanitizeBlobName {d : Char} (hd : d.isAlphanum = false) (hunderscore : d ≠ '_')
    (value : String) : d ∉ (sanitizeBlobName value).toList := by
  have halpha : (d.isUpper || d.isLower) = false := (Bool.or_eq_false_iff.mp hd).1
  have hlower : d.isLower = false := (Bool.or_eq_false_iff.mp halpha).2
  rw [sanitizeBlobName_eq]
  intro h
  rcases mem_startAsIdentifier h with h | h
  · exact hunderscore h
  · obtain ⟨c, -, hc⟩ := List.mem_map.mp h
    unfold sanitizeChar at hc
    split at hc
    · rename_i hkept
      rw [eq_of_toLower_eq hlower hc, hd, Bool.false_or, beq_iff_eq] at hkept
      exact hunderscore hkept
    · exact hunderscore hc.symm

theorem sanitizeBlobName_ne_empty (value : String) : sanitizeBlobName value ≠ "" := by
  rw [sanitizeBlobName_eq]
  exact startAsIdentifier_ne_empty _

/-- The name of another file may be sanitized to the same. -/
example : sanitizeBlobName "fake_tls_tls-a.bin" = sanitizeBlobName "fake_tls_tls_a.bin" := by
  decide +kernel

theorem FakeFile.colon_notMem_name (f : FakeFile) : ':' ∉ f.name.toList :=
  notMem_sanitizeBlobName (by decide) (by decide) _

theorem FakeFile.at_notMem_name (f : FakeFile) : '@' ∉ f.name.toList :=
  notMem_sanitizeBlobName (by decide) (by decide) _

/-- The value has no bracket of a placeholder if the path has none. -/
theorem FakeFile.brace_notMem_value (f : FakeFile) (hpath : '\x7b' ∉ f.path.toList) :
    '\x7b' ∉ f.value.toList := by
  intro h
  have hmem : '\x7b' ∈ ("blob=" ++ f.value).toList := by
    rw [String.toList_append]
    exact List.mem_append_right _ h
  rw [f.blob_value, toList_referencePart, List.mem_append, List.mem_append, List.mem_cons] at hmem
  rcases hmem with hmem | hmem | hmem | hmem
  · exact absurd hmem (by decide)
  · exact notMem_sanitizeBlobName (by decide) (by decide) _ hmem
  · cases hmem
  · exact hpath hmem

/-- The values of a marker stand for the files of its directory. -/
theorem exists_fakeFile_of_mem_fakeBlobFiles {env : Env} {kind : FakeBlobKind} {dir value : String}
    (hnamed : ∀ entry ∈ env.readDir dir, entry.name ≠ "") (h : value ∈ fakeBlobFiles env kind dir) :
    ∃ f : FakeFile, f.entry ∈ env.readDir f.dir ∧ f.kind = kind ∧ f.dir = dir ∧
      f.value = value := by
  rw [fakeBlobFiles, mem_sortBy] at h
  obtain ⟨entry, hentry, rfl⟩ := List.mem_map.mp h
  have hentry := List.mem_of_mem_filter hentry
  exact ⟨⟨kind, dir, entry, hnamed entry hentry⟩, hentry, rfl, rfl, rfl⟩

/-- The part that refers to a file is taken apart into its name and what follows. -/
theorem FakeFile.blobFileOfPart (f : FakeFile) {path : String} (hpath : path ≠ "") :
    blobFileOfPart (referencePart f.name path) = some (f.name, path) :=
  blobFileOfPart_eq_some_iff.mpr ⟨rfl, f.at_notMem_name, sanitizeBlobName_ne_empty _, hpath⟩

theorem referencePart_inj {name path path' : String}
    (h : referencePart name path = referencePart name path') : path = path' := by
  rw [← String.toList_inj, toList_referencePart, toList_referencePart] at h
  have h := List.append_cancel_left (List.append_cancel_left h)
  exact String.toList_inj.mp (List.cons.inj h).2

/-! ## References -/

/-- The text refers to the file in a part of its own, with `after` behind the reference. -/
def Mentions (lua : String) (f : FakeFile) (after : List Char) : Prop :=
  ∃ before, lua.toList = before ++ (("blob=" ++ f.value).toList ++ after) ∧
    (before = [] ∨ before.getLast? = some ':')

/-- The part reaches up to the first colon, wherever that is. -/
theorem Mentions.mem_split {lua : String} {f : FakeFile} {after : List Char}
    (h : Mentions lua f after) :
    referencePart f.name (String.ofList ((f.path.toList ++ after).takeWhile (· ≠ ':'))) ∈
      Text.split lua ':' := by
  obtain ⟨before, hlua, hbefore⟩ := h
  have hpiece : ':' ∉ ("blob=" ++ blobFileSentinel).toList ++ (f.name.toList ++ ['@']) := by
    rw [List.mem_append, List.mem_append, not_or, not_or]
    exact ⟨by decide, f.colon_notMem_name, by decide⟩
  have hmem := Text.mem_splitOn_append hbefore hpiece (f.path.toList ++ after)
  have hlist : lua.toList = before ++ (("blob=" ++ blobFileSentinel).toList ++
      (f.name.toList ++ ['@']) ++ (f.path.toList ++ after)) := by
    rw [hlua, f.blob_value, toList_referencePart]
    simp
  rw [← hlist] at hmem
  refine List.mem_map.mpr ⟨_, hmem, ?_⟩
  rw [← String.toList_inj, String.toList_ofList, toList_referencePart, String.toList_ofList]
  simp only [List.append_assoc, List.cons_append, List.nil_append]

/-- Which is the whole path if that has none. -/
theorem Mentions.mem_split_of_whole {lua : String} {f : FakeFile} {after : List Char}
    (h : Mentions lua f after) (hwhole : ':' ∉ f.path.toList) :
    referencePart f.name (f.path ++ String.ofList (after.takeWhile (· ≠ ':'))) ∈
      Text.split lua ':' := by
  have hpart := h.mem_split
  rwa [List.takeWhile_append_of_pos
    (fun c hc => by simpa using ne_of_mem_of_not_mem hc hwhole), String.ofList_append,
    String.ofList_toList] at hpart

/-! ## Templates -/

/-- A parameter name that cannot be confused with what stands around a placeholder. -/
structure PlainName (name : String) : Prop where
  colon : ':' ∉ name.toList
  equals : '=' ∉ name.toList
  brace : '\x7d' ∉ name.toList

theorem toList_placeholder (name : String) :
    (placeholder name).toList = '\x7b' :: '\x7b' :: (name.toList ++ ['\x7d', '\x7d']) := by
  rw [← slot_curly]
  exact Templates.Brackets.toList_slot name

/-- `blob=` at the begin of a part is kept, whatever is replaced. -/
theorem replace_part {text name : String} (hname : PlainName name) (value : String)
    {before rest : List Char} (hbefore : before = [] ∨ before.getLast? = some ':')
    (htext : text.toList = before ++ ("blob=".toList ++ rest)) :
    ∃ before', (before' = [] ∨ before'.getLast? = some ':') ∧
      (Text.replace text (placeholder name) value).toList = before' ++ ("blob=".toList ++
        Text.replaceFrom (placeholder name).toList value.toList 0 rest) := by
  have hcolon : ':' ∉ (placeholder name).toList := by
    simp [toList_placeholder, hname.colon]
  have hequals : '=' ∉ (placeholder name).toList := by
    simp [toList_placeholder, hname.equals]
  have hne : (placeholder name).toList ≠ [] := by
    simp [toList_placeholder]
  -- up to the equals sign there is no brace
  have hpart : Text.replaceFrom (placeholder name).toList value.toList 0 ("blob=".toList ++ rest) =
      "blob=".toList ++ Text.replaceFrom (placeholder name).toList value.toList 0 rest := by
    rw [toList_placeholder]
    exact Text.replaceFrom_append_of_notMem _ (by decide) _
  rw [Text.replace, String.toList_ofList, htext]
  rcases hbefore with rfl | hlast
  · exact ⟨[], Or.inl rfl, hpart⟩
  · obtain ⟨init, rfl⟩ := List.getLast?_eq_some_iff.mp hlast
    refine ⟨Text.replaceFrom (placeholder name).toList value.toList 0 init ++ [':'],
      Or.inr (by simp), ?_⟩
    rw [List.append_assoc, List.singleton_append,
      Text.replaceFrom_append_cons _ hne hcolon (Nat.zero_le _), hpart]
    simp

/-- A reference stays one when a placeholder is filled in. -/
theorem Mentions.replace {lua : String} {f : FakeFile} {after : List Char} (h : Mentions lua f after)
    (hvalue : '\x7b' ∉ f.value.toList) {name : String} (hname : PlainName name) (value : String) :
    ∃ after', Mentions (Text.replace lua (placeholder name) value) f after' := by
  obtain ⟨before, hlua, hbefore⟩ := h
  rw [String.toList_append, List.append_assoc] at hlua
  obtain ⟨before', hbefore', htext⟩ := replace_part hname value hbefore hlua
  rw [toList_placeholder, Text.replaceFrom_append_of_notMem _ hvalue, ← List.append_assoc
    "blob=".toList, ← String.toList_append] at htext
  exact ⟨_, before', htext, hbefore'⟩

theorem fill_cons (rendered : String) (p : String × String) (values : List (String × String)) :
    fill rendered (p :: values) = fill (Text.replace rendered (placeholder p.1) p.2) values :=
  rfl

theorem Mentions.fill {lua : String} {f : FakeFile} {after : List Char} (h : Mentions lua f after)
    (hvalue : '\x7b' ∉ f.value.toList) {values : List (String × String)}
    (hnames : ∀ p ∈ values, PlainName p.1) : ∃ after', Mentions (fill lua values) f after' := by
  induction values generalizing lua after with
  | nil => exact ⟨after, h⟩
  | cons p values ih =>
    obtain ⟨after', h⟩ := h.replace hvalue (hnames p List.mem_cons_self) p.2
    rw [fill_cons]
    exact ih h fun q hq => hnames q (List.mem_cons_of_mem p hq)

/-- The placeholder of the blob stays where another one is filled in. -/
theorem replaceFrom_placeholder {name : String} (hname : PlainName name) (hne : name ≠ "blob")
    (value after : List Char) :
    Text.replaceFrom (placeholder name).toList value 0 ((placeholder "blob").toList ++ after) =
      (placeholder "blob").toList ++
        Text.replaceFrom (placeholder name).toList value 0 after := by
  have hfirst : ¬ (placeholder name).toList <+: (placeholder "blob").toList ++ after := by
    rw [toList_placeholder, toList_placeholder, List.cons_append, List.cons_append,
      List.cons_prefix_cons, List.cons_prefix_cons]
    rintro ⟨-, -, h⟩
    have hshort : name.toList ++ ['\x7d'] <+: "blob".toList ++ '\x7d' :: '\x7d' :: after := by
      refine List.IsPrefix.trans ?_ (h.trans (by simp))
      exact (List.prefix_append_right_inj _).mpr ⟨['\x7d'], rfl⟩
    rw [prefix_before_char hname.brace (by decide), String.toList_inj] at hshort
    exact hne hshort
  exact Templates.Brackets.replaceFrom_slot_of_not_begins (b := curly) (by decide) hfirst value

/-- A placeholder at the place of the blob gives a reference to the file its value stands for. -/
theorem mentions_fill {template : String} {before after : List Char}
    (htemplate : template.toList =
      before ++ ("blob=".toList ++ ((placeholder "blob").toList ++ after)))
    (hbefore : before = [] ∨ before.getLast? = some ':') {f : FakeFile}
    (hvalue : '\x7b' ∉ f.value.toList) {combo : List (String × String)}
    (hnames : ∀ p ∈ combo, PlainName p.1) (hblob : combo.lookup "blob" = some f.value) :
    ∃ after', Mentions (fill template combo) f after' := by
  induction combo generalizing template before after with
  | nil => cases hblob
  | cons p combo ih =>
    have hname := hnames p List.mem_cons_self
    have hnames := fun q hq => hnames q (List.mem_cons_of_mem p hq)
    obtain ⟨before', hbefore', htext⟩ := replace_part hname p.2 hbefore htemplate
    rw [fill_cons]
    by_cases hp : p.1 = "blob"
    · rw [List.lookup_cons, hp, beq_self_eq_true] at hblob
      have hvalue' : p.2 = f.value := Option.some.inj hblob
      rw [hp, hvalue', Text.replaceFrom_append_self _ (by decide), ← List.append_assoc
        "blob=".toList, ← String.toList_append] at htext
      rw [hp, hvalue']
      exact Mentions.fill ⟨before', htext, hbefore'⟩ hvalue hnames
    · rw [List.lookup_cons, beq_false_of_ne (Ne.symm hp)] at hblob
      rw [replaceFrom_placeholder hname hp] at htext
      exact ih htext hbefore' hnames hblob

/--
A template with the placeholder of the blob in a part of its own is rendered as a text that refers
to the file the value stands for.
-/
theorem mentions_of_template {template : String} {before after : List Char}
    (htemplate : template.toList =
      before ++ ("blob=".toList ++ ((placeholder "blob").toList ++ after)))
    (hbefore : before = [] ∨ before.getLast? = some ':') {f : FakeFile}
    (hpath : '\x7b' ∉ f.path.toList) {combo : List (String × String)}
    (hnames : ∀ p ∈ combo, PlainName p.1) (hblob : combo.lookup "blob" = some f.value) :
    ∃ after', Mentions (applySuffixes (fill template combo) combo) f after' := by
  have hvalue := f.brace_notMem_value hpath
  obtain ⟨after', h⟩ := mentions_fill htemplate hbefore hvalue hnames hblob
  refine h.fill hvalue ?_
  simp only [suffixes, List.forall_mem_cons]
  refine ⟨?_, ?_, ?_, ?_, ?_, ?_, ?_, ?_, List.forall_mem_nil _⟩
  all_goals exact ⟨by decide, by decide, by decide⟩

end ZapretChecker.Graph
