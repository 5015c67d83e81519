import Mathlib.Algebra.GroupWithZero.Nat
import ZapretChecker.Firewall.Rule
import ZapretChecker.Lib.Words

/-!
# Rule handles

`find_nft_rule_handle` of `src/firewall.rs` reads the handle of a worker's rule from the listing of
the chain. It looks for the texts of the rule on each line and takes the first line that has them.

* `ruleLine`, `listing` — what `nft` prints
* `lineMatches_iff` — which lines have the texts of a rule
* `findNftRuleHandle_iff` — when the rule itself is found
-/

namespace ZapretChecker.Firewall

open Text

/-! ## Addresses -/

/-- The dotted octets: `Display` of `Ipv4Addr`. -/
def dotted (bits : BitVec 32) : String :=
  join "." ([24, 16, 8, 0].map fun shift => toString (bits.toNat / 2 ^ shift % 256))

def segments (bits : BitVec 128) : List Nat :=
  [112, 96, 80, 64, 48, 32, 16, 0].map fun shift => bits.toNat / 2 ^ shift % 65536

structure Span where
  start : Nat := 0
  len : Nat := 0
  deriving DecidableEq, Repr

/-- The first of the longest runs of zeroes. -/
def longestZeroes (segments : List Nat) : Span :=
  (segments.zipIdx.foldl (fun (longest, current) (segment, i) =>
    if segment = 0 then
      let current : Span :=
        { start := if current.len = 0 then i else current.start, len := current.len + 1 }
      (if longest.len < current.len then current else longest, current)
    else (longest, {})) (({} : Span), ({} : Span))).1

def hex (n : Nat) : String := String.ofList (Nat.toDigits 16 n)

def fmtSubslice (chunk : List Nat) : String := join ":" (chunk.map hex)

/-- `Display` of `IpAddr` -/
def ipText : IpAddr → String
  | .v4 bits => dotted bits
  | .v6 bits =>
    -- an IPv4-mapped address
    if bits.toNat / 2 ^ 32 = 0xffff then "::ffff:" ++ dotted (bits.setWidth 32)
    else
      let segments := segments bits
      let zeroes := longestZeroes segments
      if 1 < zeroes.len then
        fmtSubslice (segments.take zeroes.start) ++ "::" ++
          fmtSubslice (segments.drop (zeroes.start + zeroes.len))
      else fmtSubslice segments

example : ipText (.v4 0x5DB8D822#32) = "93.184.216.34" := by decide +kernel

example : ipText (.v6 0x20010db8000000000000000000000001#128) = "2001:db8::1" := by decide +kernel

example : ipText (.v6 0x00000000000000000000ffff01020304#128) = "::ffff:1.2.3.4" := by decide +kernel

/-! ## The lookup -/

def ipkw : IpAddr → String
  | .v4 _ => "ip"
  | .v6 _ => "ip6"

def L4Protocol.proto : L4Protocol → String
  | .tcp => "tcp"
  | .udp => "udp"

/-- The line has all the texts of the rule. -/
def lineMatches (rule : WorkerFirewallRule) (line : List Char) : Bool :=
  let proto := rule.protocol.proto
  hasInfix s!"{ipkw rule.targetIp} daddr {ipText rule.targetIp}".toList line &&
  hasInfix s!"{proto} sport {rule.sourcePort.toNat}".toList line &&
  hasInfix s!"{proto} dport {rule.targetPort.toNat}".toList line &&
  hasInfix "queue".toList line &&
  hasInfix (toString rule.qnum.toNat).toList line &&
  hasInfix "# handle ".toList line

/-- The number behind the last `# handle`. -/
def lineHandle (line : List Char) : Option UInt64 :=
  (rsplitOnceAt "# handle ".toList line).bind fun cut =>
    (splitWhitespace cut.2).head?.bind fun handle =>
      (parseUnsigned (2 ^ 64 - 1) handle).map UInt64.ofNat

def findNftRuleHandle (output : String) (rule : WorkerFirewallRule) : Option UInt64 :=
  ((lines output.toList).find? (lineMatches rule)).bind lineHandle

/-! ## The listing -/

/-- A rule in the chain. -/
structure ListedRule where
  rule : WorkerFirewallRule
  handle : UInt64
  deriving DecidableEq, Repr

def ruleWords (listed : ListedRule) : List String :=
  let rule := listed.rule
  ["\t\t" ++ ipkw rule.targetIp, "daddr", ipText rule.targetIp,
    rule.protocol.proto, "sport", toString rule.sourcePort.toNat,
    rule.protocol.proto, "dport", toString rule.targetPort.toNat,
    "queue", "flags", "bypass", "to", toString rule.qnum.toNat,
    "#", "handle", toString listed.handle.toNat]

/-- The line of a rule. -/
def ruleLine (listed : ListedRule) : String := join " " (ruleWords listed)

/-- The rules between the other lines. -/
def listing (before : List String) (rules : List ListedRule) (after : List String) : String :=
  String.ofList (((before ++ rules.map ruleLine ++ after).map fun line =>
    line.toList ++ ['\n']).flatten)

/-- A line of the listing that is no rule of a worker. -/
structure FrameLine (line : String) : Prop where
  newline : '\n' ∉ line.toList
  daddr : ¬ " daddr ".toList <:+: line.toList

/-- The lines around the rules of a chain. -/
structure ChainFrame where
  before : List String
  after : List String
  frameLine : ∀ line ∈ before ++ after, FrameLine line

/-- What `nft -a list chain` prints. -/
def ChainFrame.listChain (frame : ChainFrame) (rules : List ListedRule) : String :=
  listing frame.before rules frame.after

/-! ## The characters -/

/-- The characters of addresses and numbers. -/
def AddressText (s : List Char) : Prop := ∀ c ∈ s, c ∈ "0123456789abcdef:.".toList

instance (s : List Char) : Decidable (AddressText s) := List.decidableBAll _ s

theorem AddressText.append {s t : List Char} (hs : AddressText s) (ht : AddressText t) :
    AddressText (s ++ t) := by
  intro c hc
  exact (List.mem_append.mp hc).elim (hs c) (ht c)

theorem addressText_toDigits {b : Nat} (hb : 1 < b) (hb16 : b ≤ 16) (n : Nat) :
    AddressText (Nat.toDigits b n) := by
  have hdigit : ∀ d : Fin 16, Nat.digitChar d ∈ "0123456789abcdef:.".toList := by decide
  induction n using Nat.strong_induction_on with
  | _ n ih =>
    rw [Nat.toDigits_eq_if hb]
    split
    · intro c hc
      rw [List.mem_singleton.mp hc]
      exact hdigit ⟨n, by omega⟩
    · refine (ih (n / b) (Nat.div_lt_self (by omega) hb)).append fun c hc => ?_
      rw [List.mem_singleton.mp hc]
      exact hdigit ⟨n % b, (Nat.mod_lt n (by omega)).trans_le hb16⟩

theorem addressText_join {sep : String} {parts : List String} (hsep : AddressText sep.toList)
    (h : ∀ part ∈ parts, AddressText part.toList) : AddressText (join sep parts).toList := by
  intro c hc
  rw [toList_join] at hc
  rcases mem_intercalate hc with hc | ⟨w, hw, hc⟩
  · exact hsep c hc
  · obtain ⟨part, hpart, rfl⟩ := List.mem_map.mp hw
    exact h part hpart c hc

theorem addressText_toString (n : Nat) : AddressText (toString n).toList := by
  rw [Nat.toString_eq_ofList_toDigits, String.toList_ofList]
  exact addressText_toDigits (by decide) (by decide) n

theorem addressText_dotted (bits : BitVec 32) : AddressText (dotted bits).toList := by
  refine addressText_join (by decide +kernel) fun part hpart => ?_
  obtain ⟨shift, -, rfl⟩ := List.mem_map.mp hpart
  exact addressText_toString _

theorem addressText_fmtSubslice (chunk : List Nat) : AddressText (fmtSubslice chunk).toList := by
  refine addressText_join (by decide +kernel) fun part hpart => ?_
  obtain ⟨n, -, rfl⟩ := List.mem_map.mp hpart
  rw [hex, String.toList_ofList]
  exact addressText_toDigits (by decide) (by decide) n

theorem addressText_ipText (ip : IpAddr) : AddressText (ipText ip).toList := by
  have hmapped : AddressText "::ffff:".toList := by decide +kernel
  have hgap : AddressText "::".toList := by decide +kernel
  cases ip with
  | v4 bits => exact addressText_dotted bits
  | v6 bits =>
    rw [ipText]
    split
    · rw [String.toList_append]
      exact hmapped.append (addressText_dotted _)
    · dsimp only
      split
      · rw [String.toList_append, String.toList_append]
        exact ((addressText_fmtSubslice _).append hgap).append (addressText_fmtSubslice _)
      · exact addressText_fmtSubslice _

theorem AddressText.notMem {s : List Char} (h : AddressText s) {c : Char}
    (hc : c ∉ "0123456789abcdef:.".toList) : c ∉ s := fun hmem => hc (h c hmem)

/-- A word with an `r` is no address. -/
theorem AddressText.ne_word {s word : String} (h : AddressText s.toList) (hword : 'r' ∈ word.toList) :
    word ≠ s := by
  rintro rfl
  exact h.notMem (by decide) hword

/-! ## The lines of the rules -/

/-- A word of a line. -/
def LineWord (s : String) : Prop := ' ' ∉ s.toList ∧ '\n' ∉ s.toList ∧ '\r' ∉ s.toList

instance (s : String) : Decidable (LineWord s) := inferInstanceAs (Decidable (_ ∧ _ ∧ _))

theorem AddressText.lineWord {s : String} (h : AddressText s.toList) : LineWord s :=
  ⟨h.notMem (by decide), h.notMem (by decide), h.notMem (by decide)⟩

theorem ipkw_eq (ip : IpAddr) : ipkw ip = "ip" ∨ ipkw ip = "ip6" := by
  cases ip with
  | v4 bits => exact Or.inl rfl
  | v6 bits => exact Or.inr rfl

theorem lineWord_ipkw (ip : IpAddr) : LineWord (ipkw ip) := by
  rcases ipkw_eq ip with h | h <;> rw [h] <;> decide

theorem lineWord_proto (protocol : L4Protocol) : LineWord protocol.proto := by
  cases protocol <;> decide

theorem lineWord_ruleWords (listed : ListedRule) : ∀ word ∈ ruleWords listed, LineWord word := by
  have hnumber : ∀ n : Nat, LineWord (toString n) := fun n => (addressText_toString n).lineWord
  have hkw : LineWord ("\t\t" ++ ipkw listed.rule.targetIp) := by
    rcases ipkw_eq listed.rule.targetIp with h | h <;> rw [h] <;> decide
  have hproto := lineWord_proto listed.rule.protocol
  have hip : LineWord (ipText listed.rule.targetIp) := (addressText_ipText _).lineWord
  simp only [ruleWords, List.forall_mem_cons]
  exact ⟨hkw, by decide, hip, hproto, by decide, hnumber _, hproto, by decide, hnumber _, by decide,
    by decide, by decide, by decide, hnumber _, by decide, by decide, hnumber _, by simp⟩

theorem toList_ruleLine (listed : ListedRule) :
    (ruleLine listed).toList = [' '].intercalate ((ruleWords listed).map String.toList) :=
  toList_join " " _

/-- A line has a number of address, sport or dport where its own word has. -/
theorem hasInfix_ruleLine_iff (listed : ListedRule) {a b c : String} (ha : ' ' ∉ a.toList)
    (hb : ' ' ∉ b.toList) (hc : ' ' ∉ c.toList) :
    hasInfix (a ++ " " ++ b ++ " " ++ c).toList (ruleLine listed).toList = true ↔
      Consecutive a.toList b.toList c.toList ((ruleWords listed).map String.toList) := by
  have hwords : ∀ w ∈ (ruleWords listed).map String.toList, ' ' ∉ w := by
    intro w hw
    obtain ⟨word, hword, rfl⟩ := List.mem_map.mp hw
    exact (lineWord_ruleWords listed word hword).1
  have hpattern : (a ++ " " ++ b ++ " " ++ c).toList =
      a.toList ++ ' ' :: (b.toList ++ ' ' :: c.toList) := by simp
  rw [hasInfix_iff, toList_ruleLine, hpattern, infix_intercalate_iff ha hb hc hwords]

/-- The keywords of a line are none of its values. -/
theorem keyword_ne {word : String} (h : 'r' ∈ word.toList) :
    (∀ ip, word ≠ ipText ip) ∧ (∀ n : Nat, word ≠ toString n) ∧
      ∀ protocol : L4Protocol, word ≠ protocol.proto := by
  refine ⟨fun ip => (addressText_ipText ip).ne_word h, fun n => (addressText_toString n).ne_word h,
    fun protocol he => ?_⟩
  rw [he] at h
  cases protocol <;> revert h <;> decide

/-- What stands around a keyword of a line. -/
theorem consecutive_keyword_iff (listed : ListedRule) {word : String} (h : 'r' ∈ word.toList)
    {a c : List Char} :
    Consecutive a word.toList c ((ruleWords listed).map String.toList) ↔
      a <:+ ("\t\t" ++ ipkw listed.rule.targetIp).toList ∧ word = "daddr" ∧
          c <+: (ipText listed.rule.targetIp).toList ∨
        a <:+ listed.rule.protocol.proto.toList ∧ word = "sport" ∧
          c <+: (toString listed.rule.sourcePort.toNat).toList ∨
        a <:+ listed.rule.protocol.proto.toList ∧ word = "dport" ∧
          c <+: (toString listed.rule.targetPort.toNat).toList := by
  obtain ⟨hip, hnumber, hproto⟩ := keyword_ne h
  have hrest : ∀ w ∈ ["queue", "flags", "bypass", "to", "#", "handle"], word ≠ w := by
    rintro w hw rfl
    revert hw h
    simp only [List.mem_cons, List.not_mem_nil, or_false]
    rintro h (rfl | rfl | rfl | rfl | rfl | rfl) <;> exact absurd h (by decide)
  simp only [List.forall_mem_cons] at hrest
  obtain ⟨hqueue, hflags, hbypass, hto, hhash, hhandle, -⟩ := hrest
  simp only [ruleWords, List.map_cons, List.map_nil, Consecutive, String.toList_inj, hip, hnumber,
    hproto, hqueue, hflags, hbypass, hto, hhash, hhandle, false_and, and_false, or_false, false_or]

/-- A line ends with the handle. -/
theorem ruleLine_split (listed : ListedRule) :
    ∃ before, (ruleLine listed).toList =
      before ++ ("# handle ".toList ++ Nat.toDigits 10 listed.handle.toNat) := by
  have hend : ((ruleWords listed).drop 14).map String.toList =
      ["#".toList, "handle".toList, Nat.toDigits 10 listed.handle.toNat] := by
    simp [ruleWords]
  have hsuffix : [' '].intercalate (((ruleWords listed).drop 14).map String.toList) <:+
      (ruleLine listed).toList := by
    rw [toList_ruleLine]
    conv_rhs => rw [← List.take_append_drop 14 (ruleWords listed), List.map_append]
    exact suffix_intercalate_append _ (by rw [hend]; simp)
  obtain ⟨before, hbefore⟩ := hsuffix
  refine ⟨before, ?_⟩
  rw [← hbefore, hend]
  simp

/-- The texts of `rule` are in the line of `other`. -/
structure Confusable (rule : WorkerFirewallRule) (other : ListedRule) : Prop where
  family : ipkw rule.targetIp = ipkw other.rule.targetIp
  protocol : rule.protocol = other.rule.protocol
  address : (ipText rule.targetIp).toList <+: (ipText other.rule.targetIp).toList
  sourcePort : (toString rule.sourcePort.toNat).toList <+:
    (toString other.rule.sourcePort.toNat).toList
  targetPort : (toString rule.targetPort.toNat).toList <+:
    (toString other.rule.targetPort.toNat).toList
  qnum : (toString rule.qnum.toNat).toList <:+: (ruleLine other).toList

instance (rule : WorkerFirewallRule) (other : ListedRule) : Decidable (Confusable rule other) :=
  decidable_of_iff (ipkw rule.targetIp = ipkw other.rule.targetIp ∧
      rule.protocol = other.rule.protocol ∧
      (ipText rule.targetIp).toList <+: (ipText other.rule.targetIp).toList ∧
      (toString rule.sourcePort.toNat).toList <+: (toString other.rule.sourcePort.toNat).toList ∧
      (toString rule.targetPort.toNat).toList <+: (toString other.rule.targetPort.toNat).toList ∧
      (toString rule.qnum.toNat).toList <:+: (ruleLine other).toList)
    ⟨fun ⟨hfamily, hprotocol, haddress, hsource, htarget, hqnum⟩ =>
      ⟨hfamily, hprotocol, haddress, hsource, htarget, hqnum⟩,
      fun h => ⟨h.family, h.protocol, h.address, h.sourcePort, h.targetPort, h.qnum⟩⟩

theorem ipkw_suffix_iff (ip other : IpAddr) :
    (ipkw ip).toList <:+ ("\t\t" ++ ipkw other).toList ↔ ipkw ip = ipkw other := by
  rcases ipkw_eq ip with h | h <;> rcases ipkw_eq other with ho | ho <;> rw [h, ho] <;> decide

theorem proto_suffix_iff (protocol other : L4Protocol) :
    protocol.proto.toList <:+ other.proto.toList ↔ protocol = other := by
  cases protocol <;> cases other <;> decide

theorem hasInfix_queue (listed : ListedRule) :
    hasInfix "queue".toList (ruleLine listed).toList = true := by
  rw [hasInfix_iff, toList_ruleLine]
  exact infix_intercalate (List.mem_map_of_mem (by simp [ruleWords]))

theorem hasInfix_handle (listed : ListedRule) :
    hasInfix "# handle ".toList (ruleLine listed).toList = true := by
  obtain ⟨before, hline⟩ := ruleLine_split listed
  rw [hasInfix_iff, hline]
  exact ⟨before, _, List.append_assoc _ _ _⟩

theorem lineMatches_iff (rule : WorkerFirewallRule) (other : ListedRule) :
    lineMatches rule (ruleLine other).toList = true ↔ Confusable rule other := by
  have hpattern (a b c : String) : a ++ (" " ++ b ++ " ") ++ c = a ++ " " ++ b ++ " " ++ c := by
    simp [String.append_assoc]
  have hkw := (lineWord_ipkw rule.targetIp).1
  have hproto := (lineWord_proto rule.protocol).1
  have hnumber (n : Nat) : ' ' ∉ (toString n).toList :=
    (addressText_toString n).notMem (by decide)
  have hip : ' ' ∉ (ipText rule.targetIp).toList :=
    (addressText_ipText rule.targetIp).notMem (by decide)
  have hdaddr := (hasInfix_ruleLine_iff other hkw (show ' ' ∉ "daddr".toList by decide) hip).trans
    (consecutive_keyword_iff other (by decide))
  have hsport := (hasInfix_ruleLine_iff other hproto (show ' ' ∉ "sport".toList by decide)
    (hnumber rule.sourcePort.toNat)).trans (consecutive_keyword_iff other (by decide))
  have hdport := (hasInfix_ruleLine_iff other hproto (show ' ' ∉ "dport".toList by decide)
    (hnumber rule.targetPort.toNat)).trans (consecutive_keyword_iff other (by decide))
  simp only [String.reduceEq, true_and, false_and, and_false, or_false, false_or, ipkw_suffix_iff,
    proto_suffix_iff] at hdaddr hsport hdport
  have hmatches : lineMatches rule (ruleLine other).toList = true ↔
      (ipkw rule.targetIp = ipkw other.rule.targetIp ∧
        (ipText rule.targetIp).toList <+: (ipText other.rule.targetIp).toList) ∧
      (rule.protocol = other.rule.protocol ∧ (toString rule.sourcePort.toNat).toList <+:
        (toString other.rule.sourcePort.toNat).toList) ∧
      (rule.protocol = other.rule.protocol ∧ (toString rule.targetPort.toNat).toList <+:
        (toString other.rule.targetPort.toNat).toList) ∧
      (toString rule.qnum.toNat).toList <:+: (ruleLine other).toList := by
    rw [← hdaddr, ← hsport, ← hdport, ← hasInfix_iff, ← hpattern, ← hpattern, ← hpattern]
    unfold lineMatches
    simp only [Bool.and_eq_true, hasInfix_queue, hasInfix_handle, and_true, and_assoc]
    rfl
  rw [hmatches]
  constructor
  · rintro ⟨⟨hfamily, haddress⟩, ⟨hprotocol, hsource⟩, ⟨-, htarget⟩, hqnum⟩
    exact ⟨hfamily, hprotocol, haddress, hsource, htarget, hqnum⟩
  · rintro ⟨hfamily, hprotocol, haddress, hsource, htarget, hqnum⟩
    exact ⟨⟨hfamily, haddress⟩, ⟨hprotocol, hsource⟩, ⟨hprotocol, htarget⟩, hqnum⟩

/-! ## The rule that is found -/

theorem ruleLine_chars (listed : ListedRule) :
    '\n' ∉ (ruleLine listed).toList ∧ '\r' ∉ (ruleLine listed).toList := by
  have hword (c : Char) (hc : c ∈ (ruleLine listed).toList) :
      c = ' ' ∨ ∃ word ∈ ruleWords listed, c ∈ word.toList := by
    rw [toList_ruleLine] at hc
    rcases mem_intercalate hc with hc | ⟨w, hw, hc⟩
    · exact Or.inl (List.mem_singleton.mp hc)
    · obtain ⟨word, hword, rfl⟩ := List.mem_map.mp hw
      exact Or.inr ⟨word, hword, hc⟩
  constructor
  · intro h
    rcases hword _ h with h | ⟨word, hmem, h⟩
    · cases h
    · exact (lineWord_ruleWords listed word hmem).2.1 h
  · intro h
    rcases hword _ h with h | ⟨word, hmem, h⟩
    · cases h
    · exact (lineWord_ruleWords listed word hmem).2.2 h

/-- The handle of a line is read back. -/
theorem lineHandle_ruleLine (listed : ListedRule) :
    lineHandle (ruleLine listed).toList = some listed.handle := by
  obtain ⟨before, hline⟩ := ruleLine_split listed
  have hdigits : ∀ c ∈ Nat.toDigits 10 listed.handle.toNat, c.isDigit = true := fun c hc =>
    Nat.isDigit_of_mem_toDigits (by decide) (by decide) hc
  have hhash : '#' ∉ Nat.toDigits 10 listed.handle.toNat := fun hmem =>
    absurd (hdigits '#' hmem) (by decide)
  have hsplit : rsplitOnceAt "# handle ".toList (ruleLine listed).toList =
      some (before, Nat.toDigits 10 listed.handle.toNat) := by
    rw [hline]
    exact rsplitOnceAt_append (by decide) hhash before
  have hword : IsWord (Nat.toDigits 10 listed.handle.toNat) :=
    ⟨Nat.toDigits_ne_nil, fun c hc => isWhitespace_of_isDigit (hdigits c hc)⟩
  unfold lineHandle
  rw [hsplit, Option.bind_some, splitWhitespace_word hword, List.head?_cons, Option.bind_some,
    parseUnsigned_toDigits (Nat.le_sub_one_of_lt listed.handle.toNat_lt)]
  simp

theorem not_lineMatches_frame {rule : WorkerFirewallRule} {line : String} (h : FrameLine line) :
    lineMatches rule (stripCr line.toList) = false := by
  rw [Bool.eq_false_iff]
  intro hmatches
  unfold lineMatches at hmatches
  simp only [Bool.and_eq_true, hasInfix_iff] at hmatches
  obtain ⟨⟨⟨⟨⟨hdaddr, -⟩, -⟩, -⟩, -⟩, -⟩ := hmatches
  have hpattern : " daddr ".toList <:+:
      s!"{ipkw rule.targetIp} daddr {ipText rule.targetIp}".toList := by
    refine ⟨(ipkw rule.targetIp).toList, (ipText rule.targetIp).toList, ?_⟩
    simp [toString]
  exact h.daddr (hpattern.trans (hdaddr.trans (stripCr_isPrefix _).isInfix))

/-- What the lookup sees of a listing. -/
theorem lines_listing {before after : List String} (hbefore : ∀ line ∈ before, FrameLine line)
    (hafter : ∀ line ∈ after, FrameLine line) (rules : List ListedRule) :
    lines (listing before rules after).toList =
      (before.map fun line => stripCr line.toList) ++
        rules.map (fun listed => (ruleLine listed).toList) ++
        after.map fun line => stripCr line.toList := by
  have hnewline : ∀ l ∈ (before ++ rules.map ruleLine ++ after).map String.toList, '\n' ∉ l := by
    intro l hl
    obtain ⟨line, hline, rfl⟩ := List.mem_map.mp hl
    rcases List.mem_append.mp hline with hline | hline
    · rcases List.mem_append.mp hline with hline | hline
      · exact (hbefore line hline).newline
      · obtain ⟨listed, -, rfl⟩ := List.mem_map.mp hline
        exact (ruleLine_chars listed).1
    · exact (hafter line hline).newline
  have hrules (listed : ListedRule) :
      stripCr (ruleLine listed).toList = (ruleLine listed).toList :=
    stripCr_of_notMem (ruleLine_chars listed).2
  have hlist : (listing before rules after).toList =
      (((before ++ rules.map ruleLine ++ after).map String.toList).map (· ++ ['\n'])).flatten := by
    rw [listing, String.toList_ofList, List.map_map]
    rfl
  rw [hlist, lines_flatten hnewline]
  simp only [List.map_append, List.map_map, Function.comp_def, hrules]

theorem find?_frame {frame : List String} (h : ∀ line ∈ frame, FrameLine line)
    (rule : WorkerFirewallRule) :
    (frame.map fun line => stripCr line.toList).find? (lineMatches rule) = none := by
  rw [List.find?_eq_none]
  intro l hl
  obtain ⟨line, hline, rfl⟩ := List.mem_map.mp hl
  rw [not_lineMatches_frame (h line hline)]
  exact Bool.false_ne_true

/-- The first rule whose line has the texts. -/
theorem findNftRuleHandle_listing {before after : List String}
    (hbefore : ∀ line ∈ before, FrameLine line) (hafter : ∀ line ∈ after, FrameLine line)
    (rules : List ListedRule) (rule : WorkerFirewallRule) :
    findNftRuleHandle (listing before rules after) rule =
      (rules.find? fun listed => lineMatches rule (ruleLine listed).toList).map
        ListedRule.handle := by
  unfold findNftRuleHandle
  rw [lines_listing hbefore hafter, List.find?_append, List.find?_append, find?_frame hbefore,
    find?_frame hafter, Option.none_or, Option.or_none, List.find?_map, Option.bind_map,
    Function.comp_def]
  cases rules.find? fun listed => lineMatches rule (ruleLine listed).toList with
  | none => rfl
  | some listed => rw [Option.bind_some, Function.comp_apply, lineHandle_ruleLine, Option.map_some]

theorem findNftRuleHandle_listChain (frame : ChainFrame) (rules : List ListedRule)
    (rule : WorkerFirewallRule) :
    findNftRuleHandle (frame.listChain rules) rule =
      (rules.find? fun listed => lineMatches rule (ruleLine listed).toList).map
        ListedRule.handle :=
  findNftRuleHandle_listing (fun line h => frame.frameLine line (List.mem_append_left _ h))
    (fun line h => frame.frameLine line (List.mem_append_right _ h)) rules rule

theorem Confusable.refl (listed : ListedRule) : Confusable listed.rule listed := by
  refine ⟨rfl, rfl, List.prefix_rfl, List.prefix_rfl, List.prefix_rfl, ?_⟩
  rw [toList_ruleLine]
  exact infix_intercalate (List.mem_map_of_mem (by simp [ruleWords]))

/-- The lookup, without the texts. -/
theorem findNftRuleHandle_confusable (frame : ChainFrame) (rules : List ListedRule)
    (rule : WorkerFirewallRule) :
    findNftRuleHandle (frame.listChain rules) rule =
      (rules.find? fun listed => Confusable rule listed).map ListedRule.handle := by
  rw [findNftRuleHandle_listChain]
  congr 2
  funext listed
  exact Bool.eq_iff_iff.mpr ((lineMatches_iff rule listed).trans (decide_eq_true_iff).symm)

/-- The handle of the rule itself. -/
def ownHandle (rules : List ListedRule) (rule : WorkerFirewallRule) : Option UInt64 :=
  (rules.find? fun listed => listed.rule = rule).map ListedRule.handle

/-- The first element with `p` is the one with `q` if no element before that one has `p`. -/
theorem map_find?_eq_iff {α β : Type} {p q : α → Bool} {f : α → β} {l : List α}
    (hnodup : (l.map f).Nodup) (hqp : ∀ a ∈ l, q a = true → p a = true) :
    (l.find? p).map f = (l.find? q).map f ↔ ∀ a ∈ l.takeWhile fun a => !q a, ¬ p a = true := by
  induction l with
  | nil => simp
  | cons a l ih =>
    rw [List.map_cons, List.nodup_cons] at hnodup
    cases hq : q a with
    | true =>
      have hp := hqp a List.mem_cons_self hq
      simp [hp, hq]
    | false =>
      have htake : (a :: l).takeWhile (fun a => !q a) = a :: l.takeWhile fun a => !q a := by
        simp [hq]
      cases hp : p a with
      | true =>
        rw [htake, List.find?_cons_of_pos hp, List.find?_cons_of_neg (by simp [hq])]
        refine iff_of_false (fun he => hnodup.1 ?_) (fun h => h a List.mem_cons_self hp)
        obtain ⟨b, hb, hfb⟩ := Option.map_eq_some_iff.mp he.symm
        exact List.mem_map.mpr ⟨b, List.mem_of_find?_eq_some hb, hfb⟩
      | false =>
        rw [htake, List.find?_cons_of_neg (by simp [hp]), List.find?_cons_of_neg (by simp [hq]),
          ih hnodup.2 fun b hb => hqp b (List.mem_cons_of_mem a hb), List.forall_mem_cons]
        simp [hp]

/-- The first rule with the texts is the rule itself if no rule before it has them. -/
theorem find?_lineMatches_iff {rules : List ListedRule}
    (hhandles : (rules.map ListedRule.handle).Nodup) (rule : WorkerFirewallRule) :
    (rules.find? fun listed => lineMatches rule (ruleLine listed).toList).map ListedRule.handle =
        ownHandle rules rule ↔
      ∀ other ∈ rules.takeWhile (fun listed => listed.rule ≠ rule), ¬ Confusable rule other := by
  have hown : ∀ listed ∈ rules, decide (listed.rule = rule) = true →
      lineMatches rule (ruleLine listed).toList = true := by
    intro listed _ heq
    rw [decide_eq_true_eq] at heq
    subst heq
    exact (lineMatches_iff listed.rule listed).mpr (Confusable.refl listed)
  rw [ownHandle, map_find?_eq_iff hhandles hown]
  simp only [lineMatches_iff, decide_not]

/-- **When the right rule is found.** -/
theorem findNftRuleHandle_iff {before after : List String} {rules : List ListedRule}
    (hbefore : ∀ line ∈ before, FrameLine line) (hafter : ∀ line ∈ after, FrameLine line)
    (hhandles : (rules.map ListedRule.handle).Nodup) (rule : WorkerFirewallRule) :
    findNftRuleHandle (listing before rules after) rule = ownHandle rules rule ↔
      ∀ other ∈ rules.takeWhile (fun listed => listed.rule ≠ rule), ¬ Confusable rule other := by
  rw [findNftRuleHandle_listing hbefore hafter]
  exact find?_lineMatches_iff hhandles rule

/-! ## The repository's listing -/

/-- The lines around the rules. -/
def testBefore : List String :=
  ["", "table inet zapret_checker \x7b", "\tchain output \x7b",
    "\t\ttype filter hook output priority mangle; policy accept;"]

def testAfter : List String := ["\t\x7d", "\x7d"]

/-- A rule for one port of a web server. -/
def webRule (qnum sourcePort : UInt16) : WorkerFirewallRule where
  workerId := 1
  qnum := qnum
  sourcePort := sourcePort
  targetIp := .v4 0x5DB8D822#32
  targetPort := 443
  protocol := .tcp
  hook := .output

example : ruleWords ⟨webRule 201 54322, 17⟩ =
    ["\t\tip", "daddr", "93.184.216.34", "tcp", "sport", "54322", "tcp", "dport", "443", "queue",
      "flags", "bypass", "to", "201", "#", "handle", "17"] := by
  decide +kernel

theorem testFrame : ∀ line ∈ testBefore ++ testAfter, FrameLine line := by
  have hframe : ∀ line ∈ testBefore ++ testAfter, '\n' ∉ line.toList ∧
      hasInfix " daddr ".toList line.toList = false := by decide +kernel
  intro line hline
  obtain ⟨hnewline, hdaddr⟩ := hframe line hline
  exact ⟨hnewline, by rw [← hasInfix_iff, hdaddr]; exact Bool.false_ne_true⟩

def testChain : ChainFrame where
  before := testBefore
  after := testAfter
  frameLine := testFrame

/-- Two rules for close ports, the second of which is looked up. -/
def closePorts : List ListedRule := [⟨webRule 200 54322, 17⟩, ⟨webRule 201 54323, 18⟩]

theorem findNftRuleHandle_closePorts :
    findNftRuleHandle (listing testBefore closePorts testAfter) (webRule 201 54323) =
      ownHandle closePorts (webRule 201 54323) :=
  (findNftRuleHandle_iff (fun line h => testFrame line (List.mem_append_left _ h))
    (fun line h => testFrame line (List.mem_append_right _ h)) (by decide) _).mpr
    (by decide +kernel)

/-- The rule of port 54321 is deleted for the one of port 5432. -/
theorem not_findNftRuleHandle_prefix :
    (webRule 201 54321).sourcePort ≠ (webRule 20 5432).sourcePort ∧
      findNftRuleHandle (listing testBefore [⟨webRule 201 54321, 17⟩, ⟨webRule 20 5432, 18⟩]
        testAfter) (webRule 20 5432) = some 17 ∧
      ownHandle [⟨webRule 201 54321, 17⟩, ⟨webRule 20 5432, 18⟩] (webRule 20 5432) = some 18 := by
  have hqnum : (toString 20).toList <:+: (ruleLine ⟨webRule 201 54321, 17⟩).toList := by
    have hword : (toString 20).toList <:+: (toString 201).toList := ⟨[], ['1'], by decide⟩
    rw [toList_ruleLine]
    exact hword.trans (infix_intercalate (List.mem_map_of_mem (by simp [ruleWords, webRule])))
  have hconfusable : Confusable (webRule 20 5432) ⟨webRule 201 54321, 17⟩ :=
    ⟨rfl, rfl, List.prefix_rfl, ⟨['1'], by decide⟩, List.prefix_rfl, hqnum⟩
  refine ⟨by decide, ?_, by decide⟩
  rw [findNftRuleHandle_listing (fun line h => testFrame line (List.mem_append_left _ h))
    (fun line h => testFrame line (List.mem_append_right _ h))]
  simp only [List.find?_cons, (lineMatches_iff _ _).mpr hconfusable, Option.map_some]

end ZapretChecker.Firewall
