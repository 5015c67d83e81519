import ZapretChecker.Target.Host

/-!
# Host mode and URL mode

A location can be given by its authority and path or by its URL. Both modes read the same scheme,
port, path and protocol. They differ on the host: host mode takes the brackets of an IPv6 address
off, URL mode leaves them on.

* `Location` — an authority and a path, as they are written
* `hostMode_location`, `urlMode_location` — what the two modes make of one
* `modes_agree_iff` — they agree on names only
-/

namespace ZapretChecker.Target

open Text

/-! ## Locations -/

def isNameChar (c : Char) : Bool := c.isLower || c.isDigit || c == '-' || c == '.' || c == '_'

def isAddressChar (c : Char) : Bool := c.isDigit || 'a' ≤ c && c ≤ 'f' || c == ':' || c == '.'

/-- The host of a location: a name, or an IPv6 address that is written in brackets. -/
inductive LocationHost
  | name (text : String) (nonempty : text ≠ "") (chars : ∀ c ∈ text.toList, isNameChar c = true)
  | ipv6 (address : String) (nonempty : address ≠ "")
    (chars : ∀ c ∈ address.toList, isAddressChar c = true)

/-- The host, without brackets. -/
def LocationHost.bare : LocationHost → String
  | .name text _ _ => text
  | .ipv6 address _ _ => address

/-- The host as it is written. -/
def LocationHost.text : LocationHost → String
  | .name text _ _ => text
  | .ipv6 address _ _ => "[" ++ address ++ "]"

def LocationHost.IsName : LocationHost → Prop
  | .name .. => True
  | .ipv6 .. => False

instance : DecidablePred LocationHost.IsName
  | .name .. => .isTrue trivial
  | .ipv6 .. => .isFalse id

/-- What host mode and URL mode are both given. -/
structure Location where
  host : LocationHost
  port : Option UInt16
  path : String
  query : Option String
  path_slash : startsWith path "/" = true

namespace Location

def authority (location : Location) : String :=
  match location.port with
  | none => location.host.text
  | some port => location.host.text ++ ":" ++ toString port.toNat

def queryText (location : Location) : String :=
  match location.query with
  | some query => "?" ++ query
  | none => ""

def pathAndQuery (location : Location) : String := location.path ++ location.queryText

/-- The argument of `--host`. -/
def hostInput (location : Location) : String := location.authority ++ location.pathAndQuery

end Location

/-- The scheme a protocol is spoken under. -/
def schemeText : ProbeProtocol → String
  | .httpPlain => "http"
  | _ => "https"

def targetScheme : ProbeProtocol → TargetScheme
  | .httpPlain => .http
  | _ => .https

namespace Location

/-- The argument of `--url`. -/
def urlInput (location : Location) (protocol : ProbeProtocol) : String :=
  schemeText protocol ++ "://" ++ location.hostInput

/-- The URL that is unchanged by parsing: no port for the default port, brackets kept. -/
def url (location : Location) (protocol : ProbeProtocol) : Url where
  scheme := schemeText protocol
  hostStr := some location.host.text
  port := if location.port = some protocol.defaultPort then none else location.port
  path := location.path
  query := location.query

end Location

/-! ## Reading a location -/

theorem isNameChar_of_mem {c : Char} (h : isNameChar c = true) :
    c ≠ '/' ∧ c ≠ '?' ∧ c ≠ ':' ∧ c ≠ '[' := by
  refine ⟨?_, ?_, ?_, ?_⟩ <;>
  · rintro rfl
    revert h
    decide

theorem isAddressChar_of_mem {c : Char} (h : isAddressChar c = true) :
    c ≠ '/' ∧ c ≠ '?' ∧ c ≠ ']' := by
  refine ⟨?_, ?_, ?_⟩ <;>
  · rintro rfl
    revert h
    decide

theorem isDigit_ne_slash {c : Char} (h : c.isDigit = true) : c ≠ '/' ∧ c ≠ '?' := by
  refine ⟨?_, ?_⟩ <;>
  · rintro rfl
    revert h
    decide

theorem LocationHost.text_eq_bare_iff (host : LocationHost) :
    host.bare = host.text ↔ host.IsName := by
  cases host with
  | name name hne hchars => exact iff_of_true rfl trivial
  | ipv6 address hne hchars =>
    refine iff_of_false ?_ id
    intro h
    have hlength := congrArg (fun s => s.toList.length) h
    simp only [LocationHost.bare, LocationHost.text, String.toList_append, List.length_append] at hlength
    have hbracket : "[".toList.length = 1 := rfl
    omega

theorem LocationHost.bare_ne (host : LocationHost) : host.bare ≠ "" := by
  cases host with
  | name name hne hchars => exact hne
  | ipv6 address hne hchars => exact hne

/-- No character of an authority ends it. -/
theorem LocationHost.mem_text {host : LocationHost} {c : Char} (h : c ∈ host.text.toList) :
    c ≠ '/' ∧ c ≠ '?' := by
  cases host with
  | name name hne hchars =>
    have hc := isNameChar_of_mem (hchars c h)
    exact ⟨hc.1, hc.2.1⟩
  | ipv6 address hne hchars =>
    have hmem : c = '[' ∨ c ∈ address.toList ∨ c = ']' := by
      simpa [LocationHost.text] using h
    rcases hmem with rfl | hmem | rfl
    · decide
    · have hc := isAddressChar_of_mem (hchars c hmem)
      exact ⟨hc.1, hc.2.1⟩
    · decide

theorem Location.mem_authority {location : Location} {c : Char}
    (h : c ∈ location.authority.toList) : c ≠ '/' ∧ c ≠ '?' := by
  unfold Location.authority at h
  split at h
  · exact LocationHost.mem_text h
  · next port hport =>
    rw [String.toList_append, String.toList_append, List.mem_append, List.mem_append] at h
    rcases h with (h | h) | h
    · exact LocationHost.mem_text h
    · obtain rfl : c = ':' := by simpa using h
      decide
    · have hdigits : c ∈ Nat.toDigits 10 port.toNat := by simpa [toString] using h
      exact isDigit_ne_slash (isDigit_portText port c hdigits)

/-- The authority of a location in the terms of `Authority`. -/
theorem Location.authority_spec (location : Location) :
    Authority location.authority.toList location.host.bare.toList location.port := by
  obtain ⟨host, port, path, query, hslash⟩ := location
  cases host with
  | name name hne hchars =>
    have hcolon : ':' ∉ name.toList := fun h => (isNameChar_of_mem (hchars ':' h)).2.2.1 rfl
    have hhead : name.toList.head? ≠ some '[' := fun h =>
      (isNameChar_of_mem (hchars '[' (List.mem_of_head? h))).2.2.2 rfl
    cases port with
    | none =>
      refine .whole ?_ hhead fun hends => hcolon hends.colon_mem
      rw [ne_eq, String.toList_eq_nil_iff]
      exact hne
    | some p =>
      have htext : (Location.authority ⟨.name name hne hchars, some p, path, query, hslash⟩).toList =
          name.toList ++ ':' :: Nat.toDigits 10 p.toNat := by
        simp [Location.authority, LocationHost.text, toString]
      rw [htext]
      exact .port hhead hcolon Nat.toDigits_ne_nil (isDigit_portText p) (parseHostPort_toDigits p)
  | ipv6 address hne hchars =>
    have hclosing : ']' ∉ address.toList := fun h => (isAddressChar_of_mem (hchars ']' h)).2.2 rfl
    cases port with
    | none =>
      have htext : (Location.authority ⟨.ipv6 address hne hchars, none, path, query, hslash⟩).toList =
          '[' :: (address.toList ++ [']']) := by
        simp [Location.authority, LocationHost.text]
      rw [htext]
      exact .bracketed hclosing
    | some p =>
      have htext : (Location.authority
          ⟨.ipv6 address hne hchars, some p, path, query, hslash⟩).toList =
          '[' :: (address.toList ++ ']' :: ':' :: Nat.toDigits 10 p.toNat) := by
        simp [Location.authority, LocationHost.text, toString]
      rw [htext]
      exact .bracketedPort hclosing (parseHostPort_toDigits p)

theorem Location.pathAndQuery_slash (location : Location) :
    ∃ rest, location.pathAndQuery.toList = '/' :: rest := by
  obtain ⟨rest, hrest⟩ := startsWith_iff.mp location.path_slash
  refine ⟨rest ++ location.queryText.toList, ?_⟩
  rw [Location.pathAndQuery, String.toList_append, ← hrest]
  rfl

/-- The path takes over where the authority ends. -/
theorem Location.takeWhile_hostInput (location : Location) :
    authorityOf location.hostInput = location.authority ∧
      String.ofList (location.hostInput.toList.dropWhile fun c => c ≠ '/' ∧ c ≠ '?') =
        location.pathAndQuery := by
  obtain ⟨rest, hrest⟩ := location.pathAndQuery_slash
  have hall : ∀ c ∈ location.authority.toList, (decide (c ≠ '/' ∧ c ≠ '?')) = true := fun c hc =>
    decide_eq_true (Location.mem_authority hc)
  constructor
  · rw [authorityOf, Location.hostInput, String.toList_append, List.takeWhile_append_of_pos hall,
      hrest, List.takeWhile_cons_of_neg (by simp), List.append_nil, String.ofList_toList]
  · rw [Location.hostInput, String.toList_append, List.dropWhile_append_of_pos hall, hrest,
      List.dropWhile_cons_of_neg (by simp), ← hrest, String.ofList_toList]

theorem Location.splitHostPath_hostInput (location : Location) :
    splitHostPath location.hostInput =
      .ok (location.host.bare, location.port, location.pathAndQuery) := by
  obtain ⟨hauthority, hrest⟩ := location.takeWhile_hostInput
  have hsplit := splitAuthorityHostPort_of_authority location.authority_spec
  have hslash : startsWith location.pathAndQuery "/" = true := by
    obtain ⟨rest, h⟩ := location.pathAndQuery_slash
    exact startsWith_iff.mpr ⟨rest, h.symm⟩
  have hne : location.pathAndQuery ≠ "" := by
    intro h
    rw [h] at hslash
    cases hslash
  unfold splitHostPath
  rw [hauthority, hsplit, hrest]
  show (if location.host.bare = "" then _ else _) = _
  rw [if_neg location.host.bare_ne, if_neg hne, if_pos hslash]

theorem hostMode_location (parseUrl : String → Except String Url) (location : Location)
    {protocol : ProbeProtocol} (htcp : protocol ≠ .quicHttp3Future) (explicit : Bool) :
    parseTargetRequest parseUrl (some location.hostInput) none protocol explicit = .ok {
      original := location.hostInput
      scheme := targetScheme protocol
      host := location.host.bare
      port := location.port.getD protocol.defaultPort
      pathAndQuery := location.pathAndQuery
      protocol := protocol } := by
  unfold parseTargetRequest
  simp only [location.splitHostPath_hostInput]
  cases protocol with
  | quicHttp3Future => exact absurd rfl htcp
  | _ => rfl

theorem urlProtocol_schemeText {protocol : ProbeProtocol} (htcp : protocol ≠ .quicHttp3Future)
    (explicit : Bool) :
    urlProtocol (schemeText protocol) protocol explicit =
      .ok (targetScheme protocol, protocol.defaultPort, protocol) := by
  cases protocol with
  | quicHttp3Future => exact absurd rfl htcp
  | _ => cases explicit <;> rfl

/-- A default port that parsing left out is put back. -/
theorem Location.getD_url_port (location : Location) (protocol : ProbeProtocol) :
    (location.url protocol).port.getD protocol.defaultPort =
      location.port.getD protocol.defaultPort := by
  show (if location.port = some protocol.defaultPort then none else location.port).getD _ = _
  split
  · next h => rw [h, Option.getD_none, Option.getD_some]
  · rfl

theorem urlMode_location {parseUrl : String → Except String Url} {location : Location}
    {protocol : ProbeProtocol} (htcp : protocol ≠ .quicHttp3Future) (explicit : Bool)
    (hparse : parseUrl (location.urlInput protocol) = .ok (location.url protocol)) :
    parseTargetRequest parseUrl none (some (location.urlInput protocol)) protocol explicit = .ok {
      original := location.urlInput protocol
      scheme := targetScheme protocol
      host := location.host.text
      port := location.port.getD protocol.defaultPort
      pathAndQuery := location.pathAndQuery
      protocol := protocol } := by
  have hpath : normalizePath location.path = location.path := by
    refine if_neg fun h => ?_
    have hslash := location.path_slash
    rw [h] at hslash
    cases hslash
  have hread : parseTargetRequest parseUrl none (some (location.urlInput protocol)) protocol
      explicit = (urlProtocol (schemeText protocol) protocol explicit).map fun selected => {
        original := location.urlInput protocol
        scheme := selected.1
        host := location.host.text
        port := (location.url protocol).port.getD selected.2.1
        pathAndQuery := normalizePath location.path ++ location.queryText
        protocol := selected.2.2 } := by
    unfold parseTargetRequest
    simp only [hparse]
    rfl
  rw [hread, urlProtocol_schemeText htcp, hpath, ← location.getD_url_port protocol]
  rfl

/-! ## Agreement -/

/-- Both modes succeed, with the same target. -/
def SameTarget (a b : Except TargetError TargetRequest) : Prop :=
  ∃ x y, a = .ok x ∧ b = .ok y ∧ x.host = y.host ∧ x.port = y.port ∧
    x.pathAndQuery = y.pathAndQuery ∧ x.scheme = y.scheme ∧ x.protocol = y.protocol

theorem sameTarget_ok_iff {x y : TargetRequest} :
    SameTarget (.ok x) (.ok y) ↔ x.host = y.host ∧ x.port = y.port ∧
      x.pathAndQuery = y.pathAndQuery ∧ x.scheme = y.scheme ∧ x.protocol = y.protocol := by
  constructor
  · rintro ⟨x', y', hx, hy, h⟩
    obtain rfl := Except.ok.inj hx
    obtain rfl := Except.ok.inj hy
    exact h
  · intro h
    exact ⟨x, y, rfl, rfl, h⟩

/-- **When the two modes agree.** -/
theorem modes_agree_iff {parseUrl : String → Except String Url} {location : Location}
    {protocol : ProbeProtocol} (htcp : protocol ≠ .quicHttp3Future) (explicit : Bool)
    (hparse : parseUrl (location.urlInput protocol) = .ok (location.url protocol)) :
    SameTarget (parseTargetRequest parseUrl (some location.hostInput) none protocol explicit)
        (parseTargetRequest parseUrl none (some (location.urlInput protocol)) protocol explicit) ↔
      location.host.IsName := by
  rw [hostMode_location parseUrl location htcp explicit, urlMode_location htcp explicit hparse,
    sameTarget_ok_iff, ← LocationHost.text_eq_bare_iff]
  constructor
  · intro h
    exact h.1
  · intro h
    exact ⟨h, rfl, rfl, rfl, rfl⟩

/-- A parser that knows one URL. -/
def knownUrl (text : String) (parsed : Url) (input : String) : Except String Url :=
  if input = text then .ok parsed else .error "relative URL without a base"

def exampleStatus : Location where
  host := .name "example.com" (by decide) (List.all_eq_true.mp (by decide +kernel))
  port := some 8443
  path := "/status"
  query := some "full=1"
  path_slash := rfl

theorem modes_agree_name :
    SameTarget
      (parseTargetRequest
        (knownUrl "https://example.com:8443/status?full=1"
          ⟨"https", some "example.com", some 8443, "/status", some "full=1"⟩)
        (some "example.com:8443/status?full=1") none .tls13Http11 true)
      (parseTargetRequest
        (knownUrl "https://example.com:8443/status?full=1"
          ⟨"https", some "example.com", some 8443, "/status", some "full=1"⟩)
        none (some "https://example.com:8443/status?full=1") .tls13Http11 true) := by
  have htext : exampleStatus.urlInput .tls13Http11 = "https://example.com:8443/status?full=1" := by
    decide +kernel
  have hinput : exampleStatus.hostInput = "example.com:8443/status?full=1" := by
    decide +kernel
  rw [← htext, ← hinput]
  exact (modes_agree_iff (by decide) true (if_pos rfl)).mpr trivial

/-- URL mode keeps the brackets that host mode takes off. -/
theorem not_modes_agree_ipv6 :
    ¬ SameTarget
      (parseTargetRequest
        (knownUrl "https://[2001:db8::1]:8443/status"
          ⟨"https", some "[2001:db8::1]", some 8443, "/status", none⟩)
        (some "[2001:db8::1]:8443/status") none .tls12Http11 false)
      (parseTargetRequest
        (knownUrl "https://[2001:db8::1]:8443/status"
          ⟨"https", some "[2001:db8::1]", some 8443, "/status", none⟩)
        none (some "https://[2001:db8::1]:8443/status") .tls12Http11 false) := by
  have hhost : parseTargetRequest
      (knownUrl "https://[2001:db8::1]:8443/status"
        ⟨"https", some "[2001:db8::1]", some 8443, "/status", none⟩)
      (some "[2001:db8::1]:8443/status") none .tls12Http11 false =
      .ok ⟨"[2001:db8::1]:8443/status", .https, "2001:db8::1", 8443, "/status", .tls12Http11⟩ := by
    decide +kernel
  have hurl : parseTargetRequest
      (knownUrl "https://[2001:db8::1]:8443/status"
        ⟨"https", some "[2001:db8::1]", some 8443, "/status", none⟩)
      none (some "https://[2001:db8::1]:8443/status") .tls12Http11 false =
      .ok ⟨"https://[2001:db8::1]:8443/status", .https, "[2001:db8::1]", 8443, "/status",
        .tls12Http11⟩ := by
    decide +kernel
  rw [hhost, hurl, sameTarget_ok_iff]
  decide

end ZapretChecker.Target
