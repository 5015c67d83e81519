import ZapretChecker.Lib.Checked
import ZapretChecker.Probe.Native
import ZapretChecker.Target.Request

/-!
# Host and Host header

The authority of a target is taken apart into host and port, and the Host header puts them together
again. The brackets of an IPv6 address are lost on the way.

* `Authority` — the shapes of an authority
* `splitAuthorityHostPort_iff` — the parser accepts these and nothing else
* `hostHeader_names_target_iff` — when the header names the target
-/

namespace ZapretChecker.Target

open Checked Text Probe

/-! ## The shapes of an authority -/

/-- One colon, and digits behind it. -/
def EndsInPort (s : List Char) : Prop :=
  ∃ host port, s = host ++ ':' :: port ∧ ':' ∉ host ∧ port ≠ [] ∧ ∀ c ∈ port, c.isDigit = true

/-- Host and port of an authority. -/
inductive Authority : List Char → List Char → Option UInt16 → Prop
  | bracketed {host : List Char} : ']' ∉ host → Authority ('[' :: (host ++ [']'])) host none
  | bracketedPort {host text : List Char} {port : UInt16} : ']' ∉ host →
    parseHostPort (String.ofList text) = .ok port →
    Authority ('[' :: (host ++ ']' :: ':' :: text)) host (some port)
  | port {host text : List Char} {port : UInt16} : host.head? ≠ some '[' → ':' ∉ host →
    text ≠ [] → (∀ c ∈ text, c.isDigit = true) → parseHostPort (String.ofList text) = .ok port →
    Authority (host ++ ':' :: text) host (some port)
  | whole {host : List Char} : host ≠ [] → host.head? ≠ some '[' → ¬ EndsInPort host →
    Authority host host none

theorem portOf_eq_ok_iff {host text : String} {h : String} {p : Option UInt16} :
    (do return (host, some (← parseHostPort text)) : Except TargetError (String × Option UInt16)) =
        .ok (h, p) ↔ ∃ port, parseHostPort text = .ok port ∧ h = host ∧ p = some port := by
  rw [bind_eq_ok_iff]
  simp only [pure, Except.pure, Except.ok.injEq, Prod.mk.injEq]
  simp only [eq_comm]

theorem stripPrefix_bracket {authority rest : String} :
    stripPrefix authority "[" = some rest ↔ authority.toList = '[' :: rest.toList := by
  rw [stripPrefix_eq_some_iff, ← String.toList_inj, String.toList_append]
  rfl

theorem stripPrefix_bracket_none {authority : String} (h : stripPrefix authority "[" = none) :
    authority.toList.head? ≠ some '[' := by
  intro hhead
  obtain ⟨rest, hrest⟩ := List.head?_eq_some_iff.mp hhead
  have hsome : stripPrefix authority "[" = some (String.ofList rest) :=
    stripPrefix_bracket.mpr (by rw [hrest, String.toList_ofList])
  rw [h] at hsome
  cases hsome

theorem EndsInPort.colon_mem {host : List Char} (h : EndsInPort host) : ':' ∈ host := by
  obtain ⟨before, after, rfl, -⟩ := h
  exact List.mem_append_right _ List.mem_cons_self

/-- The last colon decides. -/
theorem endsInPort_iff {s before after : String} (h : rsplitOnce s ':' = some (before, after)) :
    EndsInPort s.toList ↔
      ':' ∉ before.toList ∧ after ≠ "" ∧ after.toList.all Char.isDigit = true := by
  obtain ⟨hs, hafter⟩ := rsplitOnce_eq_some_iff.mp h
  constructor
  · rintro ⟨host, port, hcut, hhost, hport, hdigits⟩
    have hcolon : ':' ∉ port := fun hmem => absurd (hdigits ':' hmem) (by decide)
    obtain ⟨rfl, rfl⟩ := after_last_inj hafter hcolon (hs.symm.trans hcut)
    refine ⟨hhost, ?_, List.all_eq_true.mpr hdigits⟩
    rintro rfl
    exact hport rfl
  · rintro ⟨hbefore, hne, hdigits⟩
    refine ⟨before.toList, after.toList, hs, hbefore, ?_, List.all_eq_true.mp hdigits⟩
    rwa [ne_eq, String.toList_eq_nil_iff]

theorem splitAuthorityHostPort_bracket {authority host tail : String}
    (h : authority.toList = '[' :: (host.toList ++ ']' :: tail.toList)) (hhost : ']' ∉ host.toList) :
    splitAuthorityHostPort authority =
      if tail = "" then .ok (host, none)
      else match stripPrefix tail ":" with
        | some port => do return (host, some (← parseHostPort port))
        | none => .error (.bail "invalid bracketed IPv6 host") := by
  have hne : authority ≠ "" := by
    rintro rfl
    cases h
  have hstrip : stripPrefix authority "[" =
      some (String.ofList (host.toList ++ ']' :: tail.toList)) :=
    stripPrefix_bracket.mpr (by rw [h, String.toList_ofList])
  have hcut : splitOnce (String.ofList (host.toList ++ ']' :: tail.toList)) ']' =
      some (host, tail) :=
    splitOnce_eq_some_iff.mpr ⟨String.toList_ofList, hhost⟩
  unfold splitAuthorityHostPort
  rewrite [if_neg hne, hstrip]
  dsimp only
  rewrite [hcut]
  rfl

theorem splitAuthorityHostPort_plain {authority : String} (hne : authority ≠ "")
    (h : authority.toList.head? ≠ some '[') :
    splitAuthorityHostPort authority =
      match rsplitOnce authority ':' with
      | some (host, port) =>
        if ':' ∉ host.toList ∧ port ≠ "" ∧ port.toList.all Char.isDigit then do
          return (host, some (← parseHostPort port))
        else .ok (authority, none)
      | none => .ok (authority, none) := by
  have hstrip : stripPrefix authority "[" = none := by
    cases hs : stripPrefix authority "[" with
    | none => rfl
    | some rest =>
      rw [stripPrefix_bracket.mp hs] at h
      exact absurd rfl h
  unfold splitAuthorityHostPort
  rewrite [if_neg hne, hstrip]
  rfl

/-- An authority with brackets. -/
theorem authority_of_bracket {authority inner tail host : String} {port : Option UInt16}
    (hl : authority.toList = '[' :: (inner.toList ++ ']' :: tail.toList)) (hinner : ']' ∉ inner.toList)
    (h : splitAuthorityHostPort authority = .ok (host, port)) :
    Authority authority.toList host.toList port := by
  rw [splitAuthorityHostPort_bracket hl hinner] at h
  rw [hl]
  split at h
  · next htail =>
    obtain ⟨rfl, rfl⟩ := Prod.mk.inj (Except.ok.inj h)
    rw [htail]
    exact .bracketed hinner
  · split at h
    · next text htext =>
      obtain ⟨p, hp, rfl, rfl⟩ := portOf_eq_ok_iff.mp h
      have htail : tail.toList = ':' :: text.toList := by
        rw [stripPrefix_eq_some_iff.mp htext, String.toList_append]
        rfl
      rw [htail]
      exact .bracketedPort hinner (by rwa [String.ofList_toList])
    · cases h

/-- An authority without brackets. -/
theorem authority_of_plain {authority host : String} {port : Option UInt16} (hne : authority ≠ "")
    (hhead : authority.toList.head? ≠ some '[')
    (h : splitAuthorityHostPort authority = .ok (host, port)) :
    Authority authority.toList host.toList port := by
  have hlist : authority.toList ≠ [] := by
    rwa [ne_eq, String.toList_eq_nil_iff]
  rw [splitAuthorityHostPort_plain hne hhead] at h
  split at h
  · next before after hcut =>
    split at h
    · next hport =>
      obtain ⟨p, hp, rfl, rfl⟩ := portOf_eq_ok_iff.mp h
      obtain ⟨hs, -⟩ := rsplitOnce_eq_some_iff.mp hcut
      rw [hs] at hhead ⊢
      refine .port ?_ hport.1 ?_ ?_ ?_
      · intro hfirst
        rw [List.head?_append, hfirst] at hhead
        exact hhead rfl
      · rw [ne_eq, String.toList_eq_nil_iff]
        exact hport.2.1
      · exact List.all_eq_true.mp hport.2.2
      · rwa [String.ofList_toList]
    · next hport =>
      obtain ⟨rfl, rfl⟩ := Prod.mk.inj (Except.ok.inj h)
      exact .whole hlist hhead fun hends => hport ((endsInPort_iff hcut).mp hends)
  · next hcut =>
    obtain ⟨rfl, rfl⟩ := Prod.mk.inj (Except.ok.inj h)
    exact .whole hlist hhead fun hends => rsplitOnce_eq_none_iff.mp hcut hends.colon_mem

theorem authority_of_splitAuthorityHostPort {authority host : String} {port : Option UInt16}
    (h : splitAuthorityHostPort authority = .ok (host, port)) :
    Authority authority.toList host.toList port := by
  by_cases hne : authority = ""
  · subst hne
    cases h
  cases hstrip : stripPrefix authority "[" with
  | none => exact authority_of_plain hne (stripPrefix_bracket_none hstrip) h
  | some rest =>
    cases hcut : splitOnce rest ']' with
    | none =>
      -- no bracket closes
      unfold splitAuthorityHostPort at h
      rw [if_neg hne, hstrip] at h
      simp only [hcut] at h
      cases h
    | some cut =>
      obtain ⟨hrest, hinner⟩ := splitOnce_eq_some_iff.mp hcut
      have hl := stripPrefix_bracket.mp hstrip
      rw [hrest] at hl
      exact authority_of_bracket hl hinner h

theorem splitAuthorityHostPort_of_authority {authority host : String} {port : Option UInt16}
    (h : Authority authority.toList host.toList port) :
    splitAuthorityHostPort authority = .ok (host, port) := by
  generalize hl : authority.toList = l at h
  generalize hh : host.toList = inner at h
  cases h with
  | bracketed hinner =>
    subst hh
    have htail : authority.toList = '[' :: (host.toList ++ ']' :: "".toList) := hl
    rw [splitAuthorityHostPort_bracket htail hinner, if_pos rfl]
  | @bracketedPort _ text port hinner hport =>
    subst hh
    have htail : authority.toList =
        '[' :: (host.toList ++ ']' :: (String.ofList (':' :: text)).toList) := by
      rw [hl, String.toList_ofList]
    have hstrip : stripPrefix (String.ofList (':' :: text)) ":" = some (String.ofList text) := by
      rw [stripPrefix_eq_some_iff]
      exact String.toList_inj.mp (by simp)
    rw [splitAuthorityHostPort_bracket htail hinner, if_neg (by simp), hstrip]
    exact portOf_eq_ok_iff.mpr ⟨port, hport, rfl, rfl⟩
  | @port _ text p hhead hcolon htext hdigits hport =>
    subst hh
    have hne : authority ≠ "" := by
      rintro rfl
      simp at hl
    have hfirst : authority.toList.head? ≠ some '[' := by
      rw [hl, List.head?_append]
      cases hfst : host.toList.head? with
      | none => simp
      | some c => rwa [hfst] at hhead
    have hcut : rsplitOnce authority ':' = some (host, String.ofList text) := by
      rw [rsplitOnce_eq_some_iff, String.toList_ofList]
      exact ⟨hl, fun hmem => absurd (hdigits ':' hmem) (by decide)⟩
    rw [splitAuthorityHostPort_plain hne hfirst, hcut]
    simp only
    rw [if_pos ⟨hcolon, by simpa using htext, by simpa using hdigits⟩]
    exact portOf_eq_ok_iff.mpr ⟨p, hport, rfl, rfl⟩
  | whole hne hhead hends =>
    obtain rfl : host = authority := String.toList_inj.mp (hh.trans hl.symm)
    subst hh
    rw [splitAuthorityHostPort_plain (by simpa using hne) hhead]
    cases hcut : rsplitOnce host ':' with
    | none => rfl
    | some cut => exact if_neg fun hport => hends ((endsInPort_iff hcut).mpr hport)

theorem splitAuthorityHostPort_iff {authority host : String} {port : Option UInt16} :
    splitAuthorityHostPort authority = .ok (host, port) ↔
      Authority authority.toList host.toList port :=
  ⟨authority_of_splitAuthorityHostPort, splitAuthorityHostPort_of_authority⟩

/-! ## The header -/

/-- The header of the default port is the host. -/
theorem authority_self_iff {authority host : List Char} {port : Option UInt16}
    (hsame : authority = host) (hhost : host ≠ []) :
    Authority authority host port ↔ host.head? ≠ some '[' ∧ ¬ EndsInPort host ∧ port = none := by
  have hlength := congrArg List.length hsame
  constructor
  · intro h
    cases h with
    | bracketed =>
      rw [List.length_cons, List.length_append] at hlength
      omega
    | bracketedPort =>
      rw [List.length_cons, List.length_append] at hlength
      omega
    | port => simp at hlength
    | whole _ hbracket hends => exact ⟨hbracket, hends, rfl⟩
  · rintro ⟨hbracket, hends, rfl⟩
    subst hsame
    exact .whole hhost hbracket hends

theorem parseHostPort_toDigits (port : UInt16) :
    parseHostPort (String.ofList (Nat.toDigits 10 port.toNat)) = .ok port := by
  unfold parseHostPort
  rw [String.toList_ofList, parseUnsigned_toDigits (Nat.le_of_lt_succ port.toNat_lt)]
  simp

theorem isDigit_portText (port : UInt16) : ∀ c ∈ Nat.toDigits 10 port.toNat, c.isDigit = true :=
  fun _ hc => Nat.isDigit_of_mem_toDigits (by decide) (by decide) hc

/-- The header of another port. -/
theorem authority_withPort_iff {authority host : List Char} {p : UInt16} {port : Option UInt16}
    (hsame : authority = host ++ ':' :: Nat.toDigits 10 p.toNat) :
    Authority authority host port ↔ host.head? ≠ some '[' ∧ ':' ∉ host ∧ port = some p := by
  have hparse := parseHostPort_toDigits p
  have hdigits := isDigit_portText p
  have hclosing : ']' ∉ host → ']' ∉ authority := by
    intro h hmem
    rw [hsame, List.mem_append, List.mem_cons] at hmem
    rcases hmem with hmem | hmem | hmem
    · exact h hmem
    · cases hmem
    · exact absurd (hdigits ']' hmem) (by decide)
  constructor
  · intro h
    cases h with
    | bracketed hinner => exact absurd (by simp) (hclosing hinner)
    | bracketedPort hinner => exact absurd (by simp) (hclosing hinner)
    | port hhead hcolon _ _ htext =>
      obtain rfl := (List.cons.inj (List.append_cancel_left hsame)).2
      exact ⟨hhead, hcolon, congrArg some (Except.ok.inj (htext.symm.trans hparse))⟩
    | whole =>
      have hlength := congrArg List.length hsame
      simp at hlength
  · rintro ⟨hhead, hcolon, rfl⟩
    rw [hsame]
    exact .port hhead hcolon Nat.toDigits_ne_nil hdigits hparse

theorem toList_hostHeader (host : String) (port : UInt16) (protocol : ProbeProtocol) :
    (hostHeader host port protocol).toList =
      if port = protocol.defaultPort then host.toList
      else host.toList ++ ':' :: Nat.toDigits 10 port.toNat := by
  unfold hostHeader
  split
  · rfl
  · simp [toString]

/-- The header is read back as the host and the port it was written for. -/
def Names (header host : String) (port : UInt16) (protocol : ProbeProtocol) : Prop :=
  ∃ p, splitAuthorityHostPort header = .ok (host, p) ∧ p.getD protocol.defaultPort = port

theorem names_hostHeader_iff {host : String} (hhost : host ≠ "") (port : UInt16)
    (protocol : ProbeProtocol) :
    Names (hostHeader host port protocol) host port protocol ↔
      host.toList.head? ≠ some '[' ∧
        if port = protocol.defaultPort then ¬ EndsInPort host.toList else ':' ∉ host.toList := by
  have hne : host.toList ≠ [] := by simpa using hhost
  have hlist := toList_hostHeader host port protocol
  unfold Names
  split
  · next hport =>
    rw [if_pos hport] at hlist
    simp only [splitAuthorityHostPort_iff, authority_self_iff hlist hne]
    constructor
    · rintro ⟨p, ⟨hbracket, hends, -⟩, -⟩
      exact ⟨hbracket, hends⟩
    · rintro ⟨hbracket, hends⟩
      exact ⟨none, ⟨hbracket, hends, rfl⟩, hport.symm⟩
  · next hport =>
    rw [if_neg hport] at hlist
    simp only [splitAuthorityHostPort_iff, authority_withPort_iff hlist]
    constructor
    · rintro ⟨p, ⟨hbracket, hcolon, -⟩, -⟩
      exact ⟨hbracket, hcolon⟩
    · rintro ⟨hbracket, hcolon⟩
      exact ⟨some port, ⟨hbracket, hcolon, rfl⟩, rfl⟩

/-! ## Accepted targets -/

/-- What host mode makes of an input. -/
theorem hostMode_spec {parseUrl : String → Except String Url} {input : String}
    {protocol : ProbeProtocol} {explicit : Bool} {target : TargetRequest}
    (h : parseTargetRequest parseUrl (some input) none protocol explicit = .ok target) :
    target.host ≠ "" ∧ target.protocol = protocol ∧ ∃ port,
      splitAuthorityHostPort (authorityOf input) = .ok (target.host, port) ∧
        target.port = port.getD protocol.defaultPort := by
  obtain ⟨⟨host, port, path⟩, hsplit, h⟩ := bind_eq_ok_iff.mp h
  obtain ⟨⟨scheme, defaultPort⟩, hscheme, h⟩ := bind_eq_ok_iff.mp h
  obtain ⟨⟨host', port'⟩, hauthority, hsplit⟩ := bind_eq_ok_iff.mp hsplit
  have hdefault : defaultPort = protocol.defaultPort := by
    cases protocol <;> cases hscheme <;> rfl
  simp only at hsplit
  split at hsplit
  · cases hsplit
  · next hhost =>
    obtain ⟨rfl, rfl, rfl⟩ := (Except.ok.inj hsplit)
    obtain rfl := Except.ok.inj h
    exact ⟨hhost, rfl, port, hauthority, by rw [hdefault]⟩

/-- The brackets around `inner`, if there are any, say nothing that the header would need. -/
def BracketsUnneeded (protocol : ProbeProtocol) (authority : List Char) : Prop :=
  ∀ inner tail, authority = '[' :: (inner ++ ']' :: tail) → ']' ∉ inner →
    inner.head? ≠ some '[' ∧ (':' ∉ inner ∨ ¬ EndsInPort inner ∧ (tail = [] ∨
      ∃ text, tail = ':' :: text ∧
        parseHostPort (String.ofList text) = .ok protocol.defaultPort))

theorem bracketsUnneeded_of_head {protocol : ProbeProtocol} {authority : List Char}
    (h : authority.head? ≠ some '[') : BracketsUnneeded protocol authority := by
  rintro inner tail rfl
  exact absurd rfl h

theorem bracketsUnneeded_iff {protocol : ProbeProtocol} {inner tail : List Char}
    (hinner : ']' ∉ inner) :
    BracketsUnneeded protocol ('[' :: (inner ++ ']' :: tail)) ↔
      inner.head? ≠ some '[' ∧ (':' ∉ inner ∨ ¬ EndsInPort inner ∧ (tail = [] ∨
        ∃ text, tail = ':' :: text ∧
          parseHostPort (String.ofList text) = .ok protocol.defaultPort)) := by
  constructor
  · intro h
    exact h inner tail rfl hinner
  · intro h inner' tail' heq hinner'
    obtain ⟨rfl, rfl⟩ := before_first_inj hinner hinner' (List.cons.inj heq).2
    exact h

/-- Without a colon no port is read; with one it must be the default port that is left out. -/
theorem colon_or_default_iff (host : List Char) (isDefault : Prop) [Decidable isDefault] :
    (if isDefault then ¬ EndsInPort host else ':' ∉ host) ↔
      ':' ∉ host ∨ ¬ EndsInPort host ∧ isDefault := by
  split
  · next hdefault =>
    refine ⟨fun hno => Or.inr ⟨hno, hdefault⟩, ?_⟩
    rintro (hcolon | ⟨hno, -⟩)
    · exact fun hends => hcolon hends.colon_mem
    · exact hno
  · next hdefault => exact (or_iff_left fun h => hdefault h.2).symm

/-- The port behind the brackets is the default port. -/
theorem defaultPort_text_iff {text : List Char} {port : UInt16} {protocol : ProbeProtocol}
    (h : parseHostPort (String.ofList text) = .ok port) :
    (':' :: text = [] ∨ ∃ text', ':' :: text = ':' :: text' ∧
      parseHostPort (String.ofList text') = .ok protocol.defaultPort) ↔
        port = protocol.defaultPort := by
  rw [or_iff_right (List.cons_ne_nil _ _)]
  constructor
  · rintro ⟨text', heq, hdefault⟩
    rw [← (List.cons.inj heq).2, h] at hdefault
    exact Except.ok.inj hdefault
  · rintro rfl
    exact ⟨text, rfl, h⟩

/-- **When the Host header names the target.** -/
theorem hostHeader_names_target_iff {parseUrl : String → Except String Url} {input : String}
    {protocol : ProbeProtocol} {explicit : Bool} {target : TargetRequest}
    (h : parseTargetRequest parseUrl (some input) none protocol explicit = .ok target) :
    Names (hostHeader target.host target.port target.protocol) target.host target.port
        target.protocol ↔
      BracketsUnneeded protocol (authorityOf input).toList := by
  obtain ⟨hhost, hprotocol, port, hsplit, hport⟩ := hostMode_spec h
  rw [hprotocol, names_hostHeader_iff hhost, colon_or_default_iff]
  have hauthority := authority_of_splitAuthorityHostPort hsplit
  generalize (authorityOf input).toList = authority at hauthority ⊢
  generalize target.host.toList = host at hauthority ⊢
  cases hauthority with
  | bracketed hinner =>
    rw [Option.getD_none] at hport
    have hnothing : ([] = ([] : List Char) ∨ ∃ text, [] = ':' :: text ∧
        parseHostPort (String.ofList text) = .ok protocol.defaultPort) ↔
          target.port = protocol.defaultPort := iff_of_true (Or.inl rfl) hport
    rw [bracketsUnneeded_iff hinner, hnothing]
  | bracketedPort hinner htext =>
    rw [Option.getD_some] at hport
    rw [bracketsUnneeded_iff hinner, defaultPort_text_iff htext, hport]
  | port hhead hcolon =>
    refine iff_of_true ⟨hhead, Or.inl hcolon⟩ (bracketsUnneeded_of_head ?_)
    rw [List.head?_append]
    cases hfirst : host.head? with
    | none => simp
    | some c => rwa [hfirst] at hhead
  | whole _ hhead hno =>
    rw [Option.getD_none] at hport
    exact iff_of_true ⟨hhead, Or.inr ⟨hno, hport⟩⟩ (bracketsUnneeded_of_head hhead)

/-- A parser of URLs, where none is given. -/
def noUrl (_ : String) : Except String Url := .error "relative URL without a base"

theorem hostHeader_names_target_name :
    Names (hostHeader "example.com" 8443 .tls12Http11) "example.com" 8443 .tls12Http11 := by
  have hparse : parseTargetRequest noUrl (some "example.com:8443/status") none .tls12Http11 false =
      .ok { original := "example.com:8443/status", scheme := .https, host := "example.com"
            port := 8443, pathAndQuery := "/status", protocol := .tls12Http11 } := by
    decide +kernel
  exact (hostHeader_names_target_iff hparse).mpr (bracketsUnneeded_of_head (by decide +kernel))

/-- The colons of an IPv6 address hide its port. -/
theorem not_hostHeader_names_target_ipv6 :
    ∃ target, parseTargetRequest noUrl (some "[2001:db8::1]:8443/status") none .tls12Http11 false =
        .ok target ∧
      ¬Names (hostHeader target.host target.port target.protocol) target.host target.port
        target.protocol := by
  refine ⟨{ original := "[2001:db8::1]:8443/status", scheme := .https, host := "2001:db8::1"
            port := 8443, pathAndQuery := "/status", protocol := .tls12Http11 },
    by decide +kernel, ?_⟩
  rintro ⟨p, hp, -⟩
  have hread : splitAuthorityHostPort (hostHeader "2001:db8::1" 8443 .tls12Http11) =
      .ok ("2001:db8::1:8443", none) := by decide +kernel
  have hhost := (Prod.mk.inj (Except.ok.inj (hread.symm.trans hp))).1
  exact absurd hhost (by decide)

end ZapretChecker.Target
