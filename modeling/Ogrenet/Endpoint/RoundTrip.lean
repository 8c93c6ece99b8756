import Ogrenet.Endpoint.Parse

/-!
# The text form of endpoints

`URL` leaves out a port that is the default of the scheme. For `tcp` and `udp` that is port zero,
which `ParseEndpoint` accepts but does not supply. Every other endpoint is read back as it was, if
`net/url` accepts the host that `URL` has rebuilt and the host is not in brackets of its own.
-/

namespace Ogrenet

/-! ### Host and port -/

section Host

variable {host port : Text}

lemma isDigit_itoa (n : ℕ) : ∀ c ∈ itoa n, c.isDigit = true := fun c hc =>
  Nat.isDigit_of_mem_toDigits (by decide) (by decide) hc

lemma itoa_ne_nil (n : ℕ) : itoa n ≠ [] := Nat.toDigits_ne_nil

lemma colon_notMem_of_digits (h : ∀ c ∈ port, c.isDigit = true) : ':' ∉ port := fun hc => by
  cases h ':' hc

/-- What stands after the last colon. -/
lemma rtakeWhile_colon (host : Text) (h : ':' ∉ port) :
    (host ++ ':' :: port).rtakeWhile (· != ':') = port ∧
      (host ++ ':' :: port).rdropWhile (· != ':') = host ++ [':'] := by
  have hport : ∀ c ∈ port.reverse, (c != ':') = true := fun c hc => by
    simp only [bne_iff_ne, ne_eq]
    rintro rfl
    exact h (List.mem_reverse.mp hc)
  constructor
  · rw [List.rtakeWhile, List.reverse_append, List.reverse_cons, List.append_assoc,
      List.takeWhile_append_of_pos hport]
    simp
  · rw [List.rdropWhile, List.reverse_append, List.reverse_cons, List.append_assoc,
      List.dropWhile_append_of_pos hport]
    simp

lemma splitHostPort_digits (host : Text) (h : ∀ c ∈ port, c.isDigit = true) :
    splitHostPort (host ++ ':' :: port) = (trimBrackets host, port) := by
  obtain ⟨htake, hdrop⟩ := rtakeWhile_colon host (colon_notMem_of_digits h)
  have hall : port.all Char.isDigit = true := List.all_eq_true.mpr h
  simp [splitHostPort, htake, hdrop, hall]

lemma trimBrackets_brackets : trimBrackets ('[' :: host ++ [']']) = host := by
  rw [trimBrackets, if_pos ⟨rfl, List.getLast?_concat⟩]
  exact List.dropLast_concat

/-- The host without the brackets that `JoinHostPort` has not put there. -/
def bareHost (host : Text) : Text := if ':' ∈ host then host else trimBrackets host

lemma splitHostPort_joinHostPort (h : ∀ c ∈ port, c.isDigit = true) :
    splitHostPort (joinHostPort host port) = (bareHost host, port) := by
  rw [joinHostPort, bareHost]
  split
  · have := splitHostPort_digits ('[' :: host ++ [']']) h
    rw [trimBrackets_brackets] at this
    simpa using this
  · exact splitHostPort_digits host h

/-- A host without a port has none, with colons only inside brackets. -/
lemma splitHostPort_noPort :
    splitHostPort (if ':' ∈ host then '[' :: host ++ [']'] else host) = (bareHost host, []) := by
  rw [bareHost]
  split
  · have hlast : ¬ (('[' :: host ++ [']']).rtakeWhile (· != ':')).all Char.isDigit = true := by
      intro hall
      rw [List.rtakeWhile_concat_pos _ _ _ (by decide)] at hall
      simp at hall
    simp only [splitHostPort]
    rw [if_neg fun h => hlast h.2, trimBrackets_brackets]
  · rename_i hcolon
    rw [splitHostPort]
    simp [hcolon]

end Host

/-! ### Reading the components -/

lemma ok_bind {ε α β : Type} (a : α) (f : α → Except ε β) : (Except.ok a >>= f) = f a := rfl

lemma parseScheme_string (s : Scheme) : parseScheme s.string = .ok s := by
  cases s <;> decide

lemma parseUint16_itoa (p : UInt16) : parseUint16 (itoa p.toNat) = some p := by
  have hval : Nat.ofDigitChars 10 (itoa p.toNat) 0 = p.toNat :=
    Nat.ofDigitChars_toDigits (by decide) (by decide)
  have hall : (itoa p.toNat).all Char.isDigit = true := List.all_eq_true.mpr (isDigit_itoa _)
  have hlt := p.toNat_lt
  rw [parseUint16, if_pos ⟨itoa_ne_nil _, hall, by rw [hval]; exact hlt⟩, hval]
  simp

lemma endpointPort_itoa (s : Scheme) (p : UInt16) : endpointPort s (itoa p.toNat) = .ok p := by
  simp only [endpointPort, if_neg (itoa_ne_nil _), parseUint16_itoa]

/-- Without a port in the text, the port is the default, where there is one. -/
lemma endpointPort_nil (s : Scheme) :
    endpointPort s [] =
      if s = .tcp ∨ s = .udp then .error errMissingPort else .ok (defaultPort s) := by
  cases s <;> rfl

/-- What `ParseEndpoint` makes of components that it accepts. -/
structure Endpoint.Read (e : Endpoint) (u : URL) : Prop where
  scheme_ne : u.scheme ≠ []
  host_ne : u.host ≠ []
  user : u.user = none
  fragment : u.fragment = []
  scheme : parseScheme u.scheme = .ok e.scheme
  port : endpointPort e.scheme u.port = .ok e.port
  host : e.host = u.hostname
  path : e.path = if e.scheme.isWS && u.path == [] then ['/'] else u.path
  rawQuery : e.rawQuery = u.rawQuery
  valid : e.validate = none

lemma parseEndpoint_eq_ok {net : NetURL} {raw : Text} {e : Endpoint} :
    parseEndpoint net raw = .ok e ↔ ∃ u, net.parse raw = .ok u ∧ e.Read u := by
  constructor
  · intro h
    simp only [parseEndpoint] at h
    split at h
    · cases h
    · rename_i u hu
      split at h
      · cases h
      · rename_i hbad
        simp only [not_or, not_not, Bool.not_eq_true, Option.isSome_eq_false_iff,
          Option.isNone_iff_eq_none] at hbad
        obtain ⟨hscheme, hhost, huser, hfragment⟩ := hbad
        cases hs : parseScheme u.scheme with
        | error err =>
          rw [hs] at h
          cases h
        | ok s =>
          cases hp : endpointPort s u.port with
          | error err =>
            rw [hs, ok_bind, hp] at h
            cases h
          | ok p =>
            rw [hs, ok_bind, hp, ok_bind] at h
            split at h <;> cases h
            exact ⟨u, hu, hscheme, hhost, huser, hfragment, hs, hp, rfl, rfl, rfl, ‹_›⟩
  · rintro ⟨u, hu, h⟩
    have hok : ¬ (u.scheme = [] ∨ u.host = [] ∨ u.user.isSome = true ∨ u.fragment ≠ []) := by
      simp [h.scheme_ne, h.host_ne, h.user, h.fragment]
    simp only [parseEndpoint, hu]
    rw [if_neg hok, h.scheme, ok_bind, h.port, ok_bind]
    have he : (⟨e.scheme, u.hostname, e.port,
        if e.scheme.isWS && u.path == [] then ['/'] else u.path, u.rawQuery⟩ : Endpoint) = e := by
      rw [← h.host, ← h.path, ← h.rawQuery]
    simp only [he, h.valid]

/-! ### Reading the text form -/

namespace NetURL

variable (net : NetURL)

/-- The components of a URL with a scheme and a host, as `url.Parse` gives them. -/
def Parsed (u : URL) : Prop := (∃ raw, net.parse raw = .ok u) ∧ u.scheme ≠ [] ∧ u.host ≠ []

/-- The host is one that `Parse` gives. -/
def Accepts (host : Text) : Prop := ∃ v, net.Parsed v ∧ v.host = host

/-- What is assumed of `net/url`: components that came from `Parse` are read back from the text that
`String` makes of them, and a scheme comes in lower case. -/
structure RoundTrips : Prop where
  parse_string : ∀ us uh up uq, net.Parsed us → net.Parsed uh → net.Parsed up → net.Parsed uq →
    net.parse (net.string ⟨us.scheme, uh.host, up.path, uq.rawQuery, none, []⟩) =
      .ok ⟨us.scheme, uh.host, up.path, uq.rawQuery, none, []⟩
  scheme : ∀ u, net.Parsed u → ∃ v, net.Parsed v ∧ v.scheme = u.scheme.map Char.toLower
  path : ∃ v, net.Parsed v ∧ v.path = ['/']

end NetURL

/-- The port is not left out of the text, or is supplied again; and the host is not in brackets of
its own. -/
def Endpoint.Faithful (e : Endpoint) : Prop :=
  ¬ (e.port = 0 ∧ (e.scheme = .tcp ∨ e.scheme = .udp) ∧ e.host ≠ []) ∧ bareHost e.host = e.host

instance (e : Endpoint) : Decidable e.Faithful := inferInstanceAs (Decidable (_ ∧ _))

section Text

variable {net : NetURL} {raw : Text} {e : Endpoint} {u : URL}

lemma parseScheme_lower {s : Scheme} (h : parseScheme raw = .ok s) :
    raw.map Char.toLower = s.string := by
  simp only [parseScheme] at h
  repeat' split at h
  all_goals cases h
  all_goals assumption

/-- An endpoint that was accepted needs no default for its path. -/
lemma Endpoint.toURL_path (h : e.validate = none) : e.toURL.path = e.path := by
  obtain ⟨scheme, host, port, path, rawQuery⟩ := e
  cases scheme <;> simp_all [toURL, validate, Scheme.isWS]

/-- `net/url` reads back the components that the text form is made of. -/
lemma parse_url (hnet : net.RoundTrips) (hraw : net.parse raw = .ok u) (h : e.Read u)
    (hhost : net.Accepts e.urlHost) : net.parse (e.url net) = .ok e.toURL := by
  have hu : net.Parsed u := ⟨⟨raw, hraw⟩, h.scheme_ne, h.host_ne⟩
  obtain ⟨us, hus, hscheme⟩ := hnet.scheme u hu
  have hpath : ∃ v, net.Parsed v ∧ v.path = e.toURL.path := by
    rw [Endpoint.toURL_path h.valid, h.path]
    split
    · exact hnet.path
    · exact ⟨u, hu, rfl⟩
  obtain ⟨uh, huh, hhost⟩ := hhost
  obtain ⟨up, hup, hpath⟩ := hpath
  have hq := hnet.parse_string us uh up u hus huh hup hu
  rw [hscheme, parseScheme_lower h.scheme, hhost, hpath, ← h.rawQuery] at hq
  exact hq

lemma Endpoint.urlHost_ne_nil : e.urlHost ≠ [] := by
  rw [urlHost, address, joinHostPort]
  split
  · rename_i h
    split
    · simp
    · exact h.2
  · split <;> simp

/-- Host and port of the text form. -/
lemma Endpoint.splitHostPort_urlHost : splitHostPort e.urlHost =
    (bareHost e.host,
      if defaultPort e.scheme = e.port ∧ e.host ≠ [] then [] else itoa e.port.toNat) := by
  rw [urlHost]
  split
  · exact splitHostPort_noPort
  · exact splitHostPort_joinHostPort (isDigit_itoa _)

lemma defaultPort_eq_zero_iff (s : Scheme) : defaultPort s = 0 ↔ s = .tcp ∨ s = .udp := by
  cases s <;> decide

/-- The port that is read from the text form. -/
lemma Endpoint.endpointPort_urlHost :
    endpointPort e.scheme e.toURL.port = .ok e.port ↔
      ¬ (e.port = 0 ∧ (e.scheme = .tcp ∨ e.scheme = .udp) ∧ e.host ≠ []) := by
  rw [URL.port, toURL, splitHostPort_urlHost]
  by_cases hdef : defaultPort e.scheme = e.port ∧ e.host ≠ []
  · rw [if_pos hdef, endpointPort_nil, ← hdef.1]
    by_cases hs : e.scheme = .tcp ∨ e.scheme = .udp
    · simp [hs, hdef.2, (defaultPort_eq_zero_iff _).mpr hs]
    · simp [hs]
  · simp only [if_neg hdef, endpointPort_itoa, true_iff]
    rintro ⟨hport, hs, hhost⟩
    exact hdef ⟨((defaultPort_eq_zero_iff _).mpr hs).trans hport.symm, hhost⟩

end Text

theorem parseEndpoint_url_iff {net : NetURL} (hnet : net.RoundTrips) {raw : Text} {e : Endpoint}
    (h : parseEndpoint net raw = .ok e) :
    (net.Accepts e.urlHost → (parseEndpoint net (e.url net) = .ok e ↔ e.Faithful)) ∧
      ∀ err, net.parse (e.url net) = .error err → parseEndpoint net (e.url net) ≠ .ok e := by
  obtain ⟨u, hu, hread⟩ := parseEndpoint_eq_ok.mp h
  have hrefused : ∀ err, net.parse (e.url net) = .error err →
      parseEndpoint net (e.url net) ≠ .ok e := fun err herr hok => by
    obtain ⟨v, hv, -⟩ := parseEndpoint_eq_ok.mp hok
    cases herr.symm.trans hv
  refine ⟨fun haccepts => ?_, hrefused⟩
  have hparse := parse_url hnet hu hread haccepts
  have hpath := Endpoint.toURL_path hread.valid
  rw [parseEndpoint_eq_ok, Endpoint.Faithful, ← Endpoint.endpointPort_urlHost]
  have hhost : e.toURL.hostname = bareHost e.host := by
    rw [URL.hostname, Endpoint.toURL, Endpoint.splitHostPort_urlHost]
  constructor
  · rintro ⟨v, hv, hread'⟩
    cases hparse.symm.trans hv
    exact ⟨hread'.port, by rw [← hhost, ← hread'.host]⟩
  · rintro ⟨hport, hbare⟩
    refine ⟨e.toURL, hparse, ?_, Endpoint.urlHost_ne_nil, rfl, rfl, parseScheme_string _, hport,
      by rw [hhost, hbare], ?_, rfl, hread.valid⟩
    · show e.scheme.string ≠ []
      cases e.scheme <;> decide
    · rw [hpath]
      simp only [Endpoint.toURL] at hpath
      exact hpath.symm

/-! ### URLs without user information and percent-encoding -/

/-- Not the character that ends the scheme. -/
def inScheme (c : Char) : Bool := c != ':'

/-- Not one of the characters that end the host. -/
def inHost (c : Char) : Bool := c != '/' && c != '?' && c != '#'

/-- Not one of the characters that end the path. -/
def inPath (c : Char) : Bool := c != '?' && c != '#'

/-- Not the character that ends the query. -/
def inQuery (c : Char) : Bool := c != '#'

/-- `url.Parse` and `URL.String` where nothing is escaped. -/
def plainURL : NetURL where
  parse raw :=
    let scheme := raw.takeWhile inScheme
    match raw.dropWhile inScheme with
    | ':' :: '/' :: '/' :: rest =>
      let tail := (rest.dropWhile inHost).dropWhile inPath
      let query := if tail.head? = some '?' then tail.tail.takeWhile inQuery else []
      if scheme.map Char.toLower = scheme then
        .ok { scheme, host := rest.takeWhile inHost
              path := (rest.dropWhile inHost).takeWhile inPath, rawQuery := query
              fragment := (tail.dropWhile inQuery).tail }
      else .error "scheme in upper case"
    | _ => .error "no host"
  string u := u.scheme ++ ':' :: '/' :: '/' :: u.host ++ u.path ++
    if u.rawQuery = [] then [] else '?' :: u.rawQuery

/-- What each component may be. -/
structure URL.Plain (u : URL) : Prop where
  scheme : ∀ c ∈ u.scheme, inScheme c = true
  lower : u.scheme.map Char.toLower = u.scheme
  host : ∀ c ∈ u.host, inHost c = true
  path : ∀ c ∈ u.path, inPath c = true
  slash : u.path = [] ∨ u.path.head? = some '/'
  rawQuery : ∀ c ∈ u.rawQuery, inQuery c = true

section Plain

variable {u v : URL}

lemma head?_dropWhile_inHost (l : Text) :
    ((l.dropWhile inHost).takeWhile inPath) = [] ∨
      ((l.dropWhile inHost).takeWhile inPath).head? = some '/' := by
  induction l with
  | nil => exact .inl rfl
  | cons c l ih =>
    rw [List.dropWhile_cons]
    split
    · exact ih
    · rename_i hc
      by_cases hslash : c = '/'
      · subst hslash
        exact .inr rfl
      · refine .inl ?_
        have : inPath c = false := by
          simp only [inHost, inPath, Bool.and_eq_true, bne_iff_ne, ne_eq, hslash,
            not_false_eq_true, true_and, not_and, not_not] at hc ⊢
          by_cases hq : c = '?'
          · simp [hq]
          · simp [hc hq]
        simp [this]

lemma Plain.of_parsed (h : plainURL.Parsed u) : u.Plain := by
  obtain ⟨⟨raw, h⟩, -⟩ := h
  simp only [plainURL] at h
  split at h
  · split at h <;> cases h
    rename_i rest hrest hlower
    refine ⟨fun c hc => ?_, hlower, fun c hc => ?_, fun c hc => ?_, head?_dropWhile_inHost rest,
      fun c hc => ?_⟩
    · exact List.mem_takeWhile_imp hc
    · exact List.mem_takeWhile_imp hc
    · exact List.mem_takeWhile_imp hc
    · split at hc
      · exact List.mem_takeWhile_imp hc
      · cases hc
  · cases h

lemma takeWhile_dropWhile_append {p : Char → Bool} {l r : Text} (hl : ∀ c ∈ l, p c = true)
    (hr : ∀ c ∈ r.head?, p c = false) :
    (l ++ r).takeWhile p = l ∧ (l ++ r).dropWhile p = r := by
  rw [List.takeWhile_append_of_pos hl, List.dropWhile_append_of_pos hl]
  cases r with
  | nil => simp
  | cons c r => simp [hr c rfl]

lemma plainURL_parse_string (hu : u.Plain) (hfragment : u.fragment = []) (huser : u.user = none) :
    plainURL.parse (plainURL.string u) = .ok u := by
  obtain ⟨scheme, host, path, rawQuery, user, fragment⟩ := u
  cases hfragment
  cases huser
  obtain ⟨hscheme, hlower, hhost, hpath, hslash, hquery⟩ := hu
  simp only at hscheme hlower hhost hpath hslash hquery
  set query : Text := if rawQuery = [] then [] else '?' :: rawQuery with hq
  have hqhead : ∀ c ∈ query.head?, inPath c = false := by
    rw [hq]
    split <;> simp [inPath]
  have hphead : ∀ c ∈ (path ++ query).head?, inHost c = false := by
    rcases hslash with rfl | hslash
    · rw [hq]
      split <;> simp [inHost]
    · rw [List.head?_append, hslash]
      simp [inHost]
  obtain ⟨h₁, h₂⟩ := takeWhile_dropWhile_append
    (r := ':' :: '/' :: '/' :: (host ++ (path ++ query)))
    hscheme (by simp [inScheme])
  obtain ⟨h₃, h₄⟩ := takeWhile_dropWhile_append hhost hphead
  obtain ⟨h₅, h₆⟩ := takeWhile_dropWhile_append hpath hqhead
  have htext : plainURL.string ⟨scheme, host, path, rawQuery, none, []⟩ =
      scheme ++ ':' :: '/' :: '/' :: (host ++ (path ++ query)) := by
    simp [plainURL, hq]
  rw [htext]
  simp only [plainURL, h₁, h₂, h₃, h₄, h₅, h₆, hlower, if_true]
  obtain ⟨h₇, h₈⟩ := takeWhile_dropWhile_append (r := []) hquery (by simp)
  rw [List.append_nil] at h₇ h₈
  rw [hq]
  split
  · rename_i hnil
    simp [hnil]
  · simp [h₇, List.dropWhile_cons, inQuery, h₈]

lemma plainURL_roundTrips : plainURL.RoundTrips where
  parse_string _ _ _ _ hus huh hup huq :=
    plainURL_parse_string ⟨(Plain.of_parsed hus).scheme, (Plain.of_parsed hus).lower,
      (Plain.of_parsed huh).host, (Plain.of_parsed hup).path, (Plain.of_parsed hup).slash,
      (Plain.of_parsed huq).rawQuery⟩ rfl rfl
  scheme u hu := ⟨u, hu, (Plain.of_parsed hu).lower.symm⟩
  path := ⟨⟨"ws".toList, ['h'], ['/'], [], none, []⟩, ⟨⟨"ws://h/".toList, rfl⟩, nofun, nofun⟩, rfl⟩

end Plain

theorem parseEndpoint_url_example :
    parseEndpoint plainURL "wss://[::1]:8443/chat?x".toList =
        .ok ⟨.wss, "::1".toList, 8443, "/chat".toList, "x".toList⟩ ∧
      parseEndpoint plainURL (Endpoint.url ⟨.wss, "::1".toList, 8443, "/chat".toList, "x".toList⟩
        plainURL) = .ok ⟨.wss, "::1".toList, 8443, "/chat".toList, "x".toList⟩ := by
  have h : parseEndpoint plainURL "wss://[::1]:8443/chat?x".toList =
      .ok ⟨.wss, "::1".toList, 8443, "/chat".toList, "x".toList⟩ := by rfl
  have haccepts : plainURL.Accepts "[::1]:8443".toList :=
    ⟨_, ⟨⟨"wss://[::1]:8443/chat?x".toList, rfl⟩, nofun, nofun⟩, rfl⟩
  exact ⟨h, ((parseEndpoint_url_iff plainURL_roundTrips h).1 haccepts).mpr (by decide)⟩

/-- Port zero, which asks for any free port, is left out of the text. -/
theorem parseEndpoint_url_unfaithful :
    parseEndpoint plainURL "tcp://127.0.0.1:0".toList =
        .ok ⟨.tcp, "127.0.0.1".toList, 0, [], []⟩ ∧
      Endpoint.url ⟨.tcp, "127.0.0.1".toList, 0, [], []⟩ plainURL = "tcp://127.0.0.1".toList ∧
      parseEndpoint plainURL "tcp://127.0.0.1".toList = .error errMissingPort :=
  ⟨rfl, rfl, rfl⟩

end Ogrenet
