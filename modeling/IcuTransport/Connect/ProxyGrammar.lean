import IcuTransport.Connect.Proxy

/-!
# The grammar of a proxy value

`proxy_configuration` reads the value of an environment variable with pointers into it. Here its
language is written down as a grammar (`ProxyGrammar`): a scheme in any case, an authority that is a
plain host or a bracketed address with an optional port, and at most one slash after it. The reader
accepts exactly that language, gives the host and the port that the grammar names, and answers
neither with a proxy nor with a direct connection for any other value
(`proxy_configuration_grammar`).

Of `inet_pton` only this is used: an IPv6 address has 1 to 45 characters, which are hexadecimal
digits, colons and dots (`Ipv6Text`).
-/

set_option autoImplicit false

namespace IcuTransport.Connect

open Ascii TextScan

/-! ## The grammar -/

/-- A character of an IPv6 address: a hexadecimal digit, a colon or a dot. -/
def isIpv6Byte (byte : UInt8) : Bool :=
  isDigit byte || (97 ≤ toLower byte && toLower byte ≤ 102) || byte = colon || byte = 46

/-- The length and the characters of an IPv6 address, as `inet_pton` takes it. -/
def Ipv6Text (text : Bytes) : Prop :=
  text ≠ [] ∧ text.length < 46 ∧ text.all isIpv6Byte = true

/-- A host without brackets. -/
def PlainHost (host : Bytes) : Prop :=
  1 ≤ host.length ∧ host.length ≤ 1023 ∧
    ∀ byte ∈ host, byte < 127 ∧ byte ≠ colon ∧ byte ≠ backslash ∧ byte ≠ openBracket ∧
      byte ≠ closeBracket

/-- What names a host: the host itself, or an IPv6 address in brackets. -/
def HostGrammar (isIpv6 : Bytes → Bool) (name host : Bytes) : Prop :=
  (name = host ∧ PlainHost host) ∨
    (name = [openBracket] ++ host ++ [closeBracket] ∧ isIpv6 host = true)

/-- What names a port: a colon and digits, or nothing. -/
def PortGrammar (text : Bytes) (port : ℕ) : Prop :=
  (text = [] ∧ port = 80) ∨
    ∃ digits, text = colon :: digits ∧ IsNumeral digits ∧ numeralValue digits = port ∧
      1 ≤ port ∧ port ≤ 65535

/-- A host and a port. -/
def AuthorityGrammar (isIpv6 : Bytes → Bool) (authority host : Bytes) (port : ℕ) : Prop :=
  ∃ name text, authority = name ++ text ∧ HostGrammar isIpv6 name host ∧ PortGrammar text port

/-- The value that names a proxy. -/
def ProxyGrammar (isIpv6 : Bytes → Bool) (value host : Bytes) (port : ℕ) : Prop :=
  value.length < 1056 ∧ (∀ byte ∈ value, 32 < byte ∧ byte ≠ 127) ∧
    ∃ scheme authority tail, value = scheme ++ (authority ++ tail) ∧
      foldCase scheme = ascii "http://" ∧ (tail = [] ∨ tail = [slash]) ∧
      (atSign ∉ authority ∧ question ∉ authority ∧ hash ∉ authority ∧ slash ∉ authority) ∧
      AuthorityGrammar isIpv6 authority host port

/-! ## The port -/

theorem proxyPortDigits_eq_some_iff {number port : ℕ} {text : Bytes} :
    proxyPortDigits number text = some port ↔
      (∀ byte ∈ text, isDigit byte = true) ∧ valueFrom number text = port ∧ 1 ≤ port ∧
        port ≤ 65535 := by
  induction text generalizing number with
  | nil =>
      unfold proxyPortDigits
      rw [valueFrom_nil]
      split
      · simp only [reduceCtorEq, false_iff]
        omega
      · simp only [Option.some.injEq]
        constructor
        · rintro rfl
          exact ⟨by simp, rfl, by omega, by omega⟩
        · exact fun read => read.2.1
  | cons letter rest ih =>
      unfold proxyPortDigits
      rw [valueFrom_cons, List.forall_mem_cons]
      split
      · rename_i stops
        simp only [reduceCtorEq, false_iff]
        rintro ⟨⟨digit, _⟩, rfl, _, high⟩
        rcases stops with other | large
        · rw [digit] at other
          cases other
        · have grown := le_valueFrom rest (number * 10 + digitValue letter)
          omega
      · rename_i goes
        rw [ih]
        have digit : isDigit letter = true :=
          Bool.of_not_eq_false fun other => goes (Or.inl other)
        rw [and_iff_right digit]

theorem proxyPort_eq_some_iff {text : Option Bytes} {port : ℕ} :
    proxyPort text = some port ↔
      (text = none ∧ port = 80) ∨
        ∃ digits, text = some digits ∧ IsNumeral digits ∧ numeralValue digits = port ∧ 1 ≤ port ∧
          port ≤ 65535 := by
  match text with
  | none => simp [proxyPort, eq_comm]
  | some [] => simp [proxyPort, IsNumeral]
  | some (letter :: rest) =>
      rw [proxyPort, proxyPortDigits_eq_some_iff]
      simp [IsNumeral, numeralValue]

/-- The text of a port after a host. -/
def portSuffix : Option Bytes → Bytes
  | none => []
  | some digits => colon :: digits

theorem portGrammar_iff {text : Bytes} {port : ℕ} :
    PortGrammar text port ↔ ∃ found, text = portSuffix found ∧ proxyPort found = some port := by
  simp only [proxyPort_eq_some_iff]
  constructor
  · rintro (⟨rfl, rfl⟩ | ⟨digits, rfl, numeral⟩)
    · exact ⟨none, rfl, Or.inl ⟨rfl, rfl⟩⟩
    · exact ⟨some digits, rfl, Or.inr ⟨digits, rfl, numeral⟩⟩
  · rintro ⟨found, rfl, ⟨rfl, rfl⟩ | ⟨digits, rfl, numeral⟩⟩
    · exact Or.inl ⟨rfl, rfl⟩
    · exact Or.inr ⟨digits, rfl, numeral⟩

/-! ## The host -/

theorem proxyParts_bracketed {rest host : Bytes} {port : Option Bytes} :
    proxyParts (openBracket :: rest) = some (host, port) ↔
      closeBracket ∉ host ∧ rest = host ++ closeBracket :: portSuffix port := by
  rw [proxyParts, List.head?_cons, if_pos rfl, List.drop_one, List.tail_cons]
  constructor
  · intro found
    cases cut : splitFirst closeBracket rest with
    | none => simp [cut] at found
    | some parts =>
        obtain ⟨before, after⟩ := parts
        obtain ⟨rfl, absent⟩ := splitFirst_eq_some_iff.mp cut
        cases after with
        | nil =>
            simp only [cut, Option.some.injEq, Prod.mk.injEq] at found
            obtain ⟨rfl, rfl⟩ := found
            exact ⟨absent, rfl⟩
        | cons byte digits =>
            simp only [cut] at found
            split at found
            · rename_i marked
              simp only [Option.some.injEq, Prod.mk.injEq] at found
              obtain ⟨rfl, rfl⟩ := found
              exact ⟨absent, by rw [marked]; rfl⟩
            · cases found
  · rintro ⟨absent, rfl⟩
    rw [splitFirst_append_cons absent]
    cases port with
    | none => rfl
    | some digits => simp [portSuffix]

theorem proxyParts_plain {authority host : Bytes} {port : Option Bytes}
    (plain : authority.head? ≠ some openBracket) :
    proxyParts authority = some (host, port) ↔
      colon ∉ host ∧ authority = host ++ portSuffix port := by
  rw [proxyParts, if_neg plain]
  constructor
  · intro found
    cases cut : splitFirst colon authority with
    | none =>
        simp only [cut, Option.some.injEq, Prod.mk.injEq] at found
        obtain ⟨rfl, rfl⟩ := found
        exact ⟨splitFirst_eq_none_iff.mp cut, (List.append_nil _).symm⟩
    | some parts =>
        obtain ⟨before, after⟩ := parts
        obtain ⟨rfl, absent⟩ := splitFirst_eq_some_iff.mp cut
        simp only [cut, Option.some.injEq, Prod.mk.injEq] at found
        obtain ⟨rfl, rfl⟩ := found
        exact ⟨absent, rfl⟩
  · rintro ⟨absent, rfl⟩
    cases port with
    | none =>
        have cut : splitFirst colon (host ++ portSuffix none) = none :=
          splitFirst_eq_none_iff.mpr (by simpa [portSuffix] using absent)
        rw [cut]
        simp [portSuffix]
    | some digits =>
        rw [portSuffix, splitFirst_append_cons absent]

theorem plainHost_iff {host : Bytes} :
    PlainHost host ↔
      host ≠ [] ∧ host.length < maxHostBytes ∧ host.all isProxyHostByte = true := by
  have bytes : host.all isProxyHostByte = true ↔ ∀ byte ∈ host, byte < 127 ∧ byte ≠ colon ∧
      byte ≠ backslash ∧ byte ≠ openBracket ∧ byte ≠ closeBracket := by
    simp only [List.all_eq_true, isProxyHostByte, Bool.and_eq_true, decide_eq_true_eq, and_assoc]
  rw [PlainHost, bytes, ← List.length_pos_iff]
  exact and_congr Iff.rfl (and_congr (Nat.lt_succ_iff (n := 1023)).symm Iff.rfl)

/-! ## The authority -/

section Authority

variable {environment : Environment}

/-- What an authority is read as, once its parts are known. -/
theorem proxyOfAuthority_eq_some_iff {authority : Bytes} {proxy : ConfiguredProxy} :
    proxyOfAuthority environment authority = some proxy ↔
      proxy.enabled = true ∧ proxy.host.bytes ≠ [] ∧
        (authority.head? = some openBracket → environment.isIpv6 proxy.host.bytes = true) ∧
        (authority.head? ≠ some openBracket → proxy.host.bytes.all isProxyHostByte = true) ∧
        ∃ found, proxyParts authority = some (proxy.host.bytes, found) ∧
          proxyPort found = some proxy.port := by
  constructor
  · intro read
    unfold proxyOfAuthority at read
    obtain ⟨⟨host, found⟩, parts, read⟩ := Option.bind_eq_some_iff.mp read
    dsimp only at read
    split at read
    · cases read
    · rename_i filled
      obtain ⟨stored, held, read⟩ := Option.bind_eq_some_iff.mp read
      obtain rfl := CharArray.store_eq_some_iff.mp held
      split at read
      · cases read
      · rename_i address
        split at read
        · cases read
        · rename_i plain
          obtain ⟨number, numbered, rfl⟩ := Option.map_eq_some_iff.mp read
          refine ⟨rfl, filled, ?_, ?_, found, parts, numbered⟩
          · intro bracketed
            exact Bool.of_not_eq_false fun other => address ⟨bracketed, other⟩
          · intro bare
            exact Bool.of_not_eq_false fun other => plain ⟨bare, other⟩
  · obtain ⟨enabled, port, host⟩ := proxy
    rintro ⟨rfl, filled, address, plain, found, parts, numbered⟩
    dsimp only at filled address plain parts numbered
    have held : CharArray.store maxHostBytes host.bytes = some host :=
      CharArray.store_eq_some_iff.mpr rfl
    rw [proxyOfAuthority, parts, Option.bind_some]
    dsimp only
    rw [if_neg filled, held, Option.bind_some, if_neg, if_neg, numbered, Option.map_some]
    · rintro ⟨bare, other⟩
      rw [plain bare] at other
      cases other
    · rintro ⟨bracketed, other⟩
      rw [address bracketed] at other
      cases other

/-- **An authority is read exactly when it follows the grammar.** -/
theorem proxyOfAuthority_grammar
    (inetPton : ∀ text, environment.isIpv6 text = true → Ipv6Text text) {authority : Bytes}
    {proxy : ConfiguredProxy} :
    proxyOfAuthority environment authority = some proxy ↔
      proxy.enabled = true ∧
        AuthorityGrammar environment.isIpv6 authority proxy.host.bytes proxy.port := by
  rw [proxyOfAuthority_eq_some_iff]
  constructor
  · rintro ⟨enabled, filled, address, plain, found, parts, numbered⟩
    refine ⟨enabled, ?_⟩
    by_cases bracketed : authority.head? = some openBracket
    · obtain ⟨rest, rfl⟩ := List.head?_eq_some_iff.mp bracketed
      obtain ⟨_, rfl⟩ := proxyParts_bracketed.mp parts
      refine ⟨[openBracket] ++ proxy.host.bytes ++ [closeBracket], portSuffix found, by simp,
        Or.inr ⟨rfl, address rfl⟩, portGrammar_iff.mpr ⟨found, rfl, numbered⟩⟩
    · obtain ⟨_, split⟩ := (proxyParts_plain bracketed).mp parts
      exact ⟨proxy.host.bytes, portSuffix found, split,
        Or.inl ⟨rfl, plainHost_iff.mpr ⟨filled, proxy.host.fits, plain bracketed⟩⟩,
        portGrammar_iff.mpr ⟨found, rfl, numbered⟩⟩
  · rintro ⟨enabled, name, text, rfl, named, ported⟩
    obtain ⟨found, rfl, numbered⟩ := portGrammar_iff.mp ported
    rcases named with ⟨rfl, plain⟩ | ⟨rfl, address⟩
    · obtain ⟨filled, fits, bytes⟩ := plainHost_iff.mp plain
      have bare : (proxy.host.bytes ++ portSuffix found).head? ≠ some openBracket := by
        obtain ⟨first, others, equal⟩ := List.exists_cons_of_ne_nil filled
        rw [equal, List.cons_append, List.head?_cons]
        intro same
        have first' := plain.2.2 first (equal ▸ List.mem_cons_self)
        exact first'.2.2.2.1 (Option.some.inj same)
      have noColon : colon ∉ proxy.host.bytes := fun member => (plain.2.2 _ member).2.1 rfl
      exact ⟨enabled, filled, fun bracketed => absurd bracketed bare, fun _ => bytes, found,
        (proxyParts_plain bare).mpr ⟨noColon, rfl⟩, numbered⟩
    · obtain ⟨filled, _, letters⟩ := inetPton _ address
      have noBracket : closeBracket ∉ proxy.host.bytes := fun member =>
        absurd (List.all_eq_true.mp letters _ member) (by decide)
      have split : [openBracket] ++ proxy.host.bytes ++ [closeBracket] ++ portSuffix found =
          openBracket :: (proxy.host.bytes ++ closeBracket :: portSuffix found) := by simp
      rw [split]
      exact ⟨enabled, filled, fun _ => address, fun bare => absurd rfl bare, found,
        proxyParts_bracketed.mpr ⟨noBracket, rfl⟩, numbered⟩

end Authority

/-! ## The value -/

section Value

variable {environment : Environment}

theorem visible_value_iff {value : Bytes} :
    (value.any fun letter => letter ≤ 32 || letter = 127) = false ↔
      ∀ byte ∈ value, 32 < byte ∧ byte ≠ 127 := by
  simp only [List.any_eq_false, Bool.or_eq_true, decide_eq_true_eq, not_or, UInt8.not_le, ne_eq]

theorem length_scheme {scheme : Bytes} (same : foldCase scheme = ascii "http://") :
    scheme.length = 7 := by
  rw [← length_foldCase, same]
  rfl

/-- What a value that is read consists of. -/
theorem parts_of_proxyOfValue {value : Bytes} {proxy : ConfiguredProxy}
    (read : proxyOfValue environment value = some proxy) :
    value.length < 1056 ∧ (∀ byte ∈ value, 32 < byte ∧ byte ≠ 127) ∧
      ∃ scheme authority tail, value = scheme ++ (authority ++ tail) ∧
        foldCase scheme = ascii "http://" ∧ (tail = [] ∨ tail = [slash]) ∧
        (atSign ∉ authority ∧ question ∉ authority ∧ hash ∉ authority ∧ slash ∉ authority) ∧
        proxyOfAuthority environment authority = some proxy := by
  unfold proxyOfValue at read
  split at read
  · cases read
  · rename_i passed
    obtain ⟨starts, short⟩ := not_or.mp passed
    split at read
    · cases read
    · rename_i shown
      obtain ⟨scheme, rest, rfl, same⟩ := startsIgnoringCase_iff.mp (Bool.of_not_eq_false starts)
      refine ⟨Nat.not_le.mp short, visible_value_iff.mp (Bool.of_not_eq_true shown), scheme, ?_⟩
      dsimp only at read
      rw [← length_scheme same, List.drop_left] at read
      split at read
      · cases read
      · rename_i marks
        simp only [not_or] at marks
        cases cut : splitFirst slash rest with
        | none =>
            simp only [cut] at read
            exact ⟨rest, [], by simp, same, Or.inl rfl,
              ⟨marks.1, marks.2.1, marks.2.2, splitFirst_eq_none_iff.mp cut⟩, read⟩
        | some parts =>
            obtain ⟨authority, after⟩ := parts
            obtain ⟨rfl, absent⟩ := splitFirst_eq_some_iff.mp cut
            cases after with
            | cons byte more => simp [cut] at read
            | nil =>
                simp only [cut] at read
                simp only [List.mem_append, not_or] at marks
                exact ⟨authority, [slash], rfl, same, Or.inr rfl,
                  ⟨marks.1.1, marks.2.1.1, marks.2.2.1, absent⟩, read⟩

/-- A value of such parts is read as its authority. -/
theorem proxyOfValue_of_parts {scheme authority tail : Bytes}
    (short : (scheme ++ (authority ++ tail)).length < 1056)
    (visible : ∀ byte ∈ scheme ++ (authority ++ tail), 32 < byte ∧ byte ≠ 127)
    (same : foldCase scheme = ascii "http://") (tails : tail = [] ∨ tail = [slash])
    (absent : atSign ∉ authority ∧ question ∉ authority ∧ hash ∉ authority ∧ slash ∉ authority) :
    proxyOfValue environment (scheme ++ (authority ++ tail)) =
      proxyOfAuthority environment authority := by
  obtain ⟨noAt, noQuestion, noHash, noSlash⟩ := absent
  have starts : startsIgnoringCase (ascii "http://") (scheme ++ (authority ++ tail)) = true :=
    startsIgnoringCase_iff.mpr ⟨scheme, authority ++ tail, rfl, same⟩
  have shown := visible_value_iff.mpr visible
  rw [proxyOfValue, if_neg, if_neg (Bool.not_eq_true _ ▸ shown)]
  · dsimp only
    rw [← length_scheme same, List.drop_left]
    rcases tails with rfl | rfl
    · rw [List.append_nil, if_neg (by simp [noAt, noQuestion, noHash]),
        splitFirst_eq_none_iff.mpr noSlash]
    · rw [if_neg, splitFirst_append_cons noSlash]
      simp only [List.mem_append, noAt, noQuestion, noHash, false_or]
      decide
  · rw [starts]
    exact not_or.mpr ⟨by simp, Nat.not_le.mpr short⟩

/-- **A value is read exactly when it follows the grammar.** -/
theorem proxyOfValue_grammar
    (inetPton : ∀ text, environment.isIpv6 text = true → Ipv6Text text) {value : Bytes}
    {proxy : ConfiguredProxy} :
    proxyOfValue environment value = some proxy ↔
      proxy.enabled = true ∧
        ProxyGrammar environment.isIpv6 value proxy.host.bytes proxy.port := by
  constructor
  · intro read
    obtain ⟨short, visible, scheme, authority, tail, rfl, same, tails, absent, found⟩ :=
      parts_of_proxyOfValue read
    obtain ⟨enabled, parts⟩ := (proxyOfAuthority_grammar inetPton).mp found
    exact ⟨enabled, short, visible, scheme, authority, tail, rfl, same, tails, absent, parts⟩
  · rintro ⟨enabled, short, visible, scheme, authority, tail, rfl, same, tails, absent, parts⟩
    rw [proxyOfValue_of_parts short visible same tails absent]
    exact (proxyOfAuthority_grammar inetPton).mpr ⟨enabled, parts⟩

end Value

/-! ## The configuration -/

/-- A variable of the environment that is not set, or empty. -/
def Unset (setting : Option Bytes) : Prop := setting = none ∨ setting = some []

/-- The connections that go to the origin directly: without TLS, to the local host, or with no proxy
named. -/
def Direct (environment : Environment) (originHost : Bytes) (useTls : Bool) : Prop :=
  useTls = false ∨ originHost = ascii "127.0.0.1" ∨ originHost = ascii "::1" ∨
    foldCase originHost = ascii "localhost" ∨
    (Unset environment.httpsProxy ∧ Unset environment.httpsProxyLower)

/-- The first value of the environment that names a proxy. -/
def NamesProxy (environment : Environment) (value : Bytes) : Prop :=
  value ≠ [] ∧ (environment.httpsProxy = some value ∨
    (Unset environment.httpsProxy ∧ environment.httpsProxyLower = some value))

theorem filter_filled_eq_none_iff {setting : Option Bytes} :
    setting.filter (· ≠ []) = none ↔ Unset setting := by
  cases setting with
  | none => simp [Unset]
  | some value => simp [Unset, Option.filter]

theorem filter_filled_eq_some_iff {setting : Option Bytes} {value : Bytes} :
    setting.filter (· ≠ []) = some value ↔ setting = some value ∧ value ≠ [] := by
  rw [Option.filter_eq_some_iff, decide_eq_true_eq]

theorem proxyValue_eq_none_iff {environment : Environment} :
    environment.proxyValue = none ↔
      Unset environment.httpsProxy ∧ Unset environment.httpsProxyLower := by
  rw [Environment.proxyValue, Option.or_eq_none_iff, filter_filled_eq_none_iff,
    filter_filled_eq_none_iff]

theorem proxyValue_eq_some_iff {environment : Environment} {value : Bytes} :
    environment.proxyValue = some value ↔ NamesProxy environment value := by
  rw [Environment.proxyValue, Option.or_eq_some_iff, filter_filled_eq_some_iff,
    filter_filled_eq_none_iff, filter_filled_eq_some_iff, NamesProxy]
  tauto

theorem proxyConfiguration_of_direct {environment : Environment} {originHost : Bytes}
    {useTls : Bool} (direct : Direct environment originHost useTls) :
    proxyConfiguration environment originHost useTls = some .direct := by
  rw [proxyConfiguration]
  split
  · rfl
  · rename_i remote
    have unset : Unset environment.httpsProxy ∧ Unset environment.httpsProxyLower := by
      unfold Direct at direct
      tauto
    rw [proxyValue_eq_none_iff.mpr unset]

theorem proxyConfiguration_of_not_direct {environment : Environment} {originHost : Bytes}
    {useTls : Bool} (proxied : ¬ Direct environment originHost useTls) {value : Bytes}
    (named : NamesProxy environment value) :
    proxyConfiguration environment originHost useTls = proxyOfValue environment value := by
  rw [proxyConfiguration, proxyValue_eq_some_iff.mpr named, if_neg]
  unfold Direct at proxied
  tauto

/-- A connection that is not direct has a value that names its proxy. -/
theorem exists_namesProxy {environment : Environment} {originHost : Bytes} {useTls : Bool}
    (proxied : ¬ Direct environment originHost useTls) :
    ∃ value, NamesProxy environment value := by
  cases found : environment.proxyValue with
  | some value => exact ⟨value, proxyValue_eq_some_iff.mp found⟩
  | none =>
      have unset := proxyValue_eq_none_iff.mp found
      exact absurd (Or.inr (Or.inr (Or.inr (Or.inr unset)))) proxied

/-- **The proxy configuration accepts exactly its grammar and fails closed.** A direct connection is
reported exactly for an origin without TLS, for the local host, and when neither variable names a
proxy. Otherwise the first variable that names one is read: a proxy is reported exactly when the
value follows the grammar, with the host and the port that the grammar gives, and for every other
value the configuration is refused. -/
theorem proxy_configuration_grammar (environment : Environment)
    (inetPton : ∀ text, environment.isIpv6 text = true → Ipv6Text text) (originHost : Bytes)
    (useTls : Bool) :
    ((∃ proxy, proxyConfiguration environment originHost useTls = some proxy ∧
        proxy.enabled = false) ↔ Direct environment originHost useTls) ∧
      (¬ Direct environment originHost useTls → ∃ value, NamesProxy environment value) ∧
      (¬ Direct environment originHost useTls → ∀ value, NamesProxy environment value →
        (∀ proxy, (proxyConfiguration environment originHost useTls = some proxy ∧
            proxy.enabled = true) ↔
          proxy.enabled = true ∧
            ProxyGrammar environment.isIpv6 value proxy.host.bytes proxy.port) ∧
        ((∀ host port, ¬ ProxyGrammar environment.isIpv6 value host port) →
          proxyConfiguration environment originHost useTls = none)) := by
  refine ⟨⟨?_, ?_⟩, exists_namesProxy, ?_⟩
  · rintro ⟨proxy, configured, disabled⟩
    by_contra proxied
    obtain ⟨value, named⟩ := exists_namesProxy proxied
    rw [proxyConfiguration_of_not_direct proxied named] at configured
    obtain ⟨enabled, _⟩ := (proxyOfValue_grammar inetPton).mp configured
    rw [enabled] at disabled
    cases disabled
  · exact fun direct => ⟨.direct, proxyConfiguration_of_direct direct, rfl⟩
  · intro proxied value named
    rw [proxyConfiguration_of_not_direct proxied named]
    constructor
    · intro proxy
      rw [proxyOfValue_grammar inetPton]
      tauto
    · intro unread
      cases read : proxyOfValue environment value with
      | none => rfl
      | some proxy =>
          exact absurd ((proxyOfValue_grammar inetPton).mp read).2 (unread _ _)

/-- An environment with a proxy at an address in brackets. -/
def bracketedEnvironment : Environment :=
  ⟨some [], some (ascii "HTTP://[::1]:08080/"), fun _ => false, fun text => text = ascii "::1"⟩

theorem proxy_configuration_grammar_bracketed :
    ∃ proxy, proxyConfiguration bracketedEnvironment (ascii "example.com") true = some proxy ∧
      proxy.enabled = true ∧ proxy.host.bytes = ascii "::1" ∧ proxy.port = 8080 := by
  have addresses : ∀ text, bracketedEnvironment.isIpv6 text = true → Ipv6Text text := by
    intro text accepted
    obtain rfl := of_decide_eq_true accepted
    exact ⟨by decide, by decide, by decide⟩
  have proxied : ¬ Direct bracketedEnvironment (ascii "example.com") true := by
    rintro (plain | local' | local' | local' | ⟨_, none | none⟩)
    · cases plain
    · exact absurd local' (by decide)
    · exact absurd local' (by decide)
    · exact absurd local' (by decide)
    · cases none
    · exact absurd none (by decide)
  have named : NamesProxy bracketedEnvironment (ascii "HTTP://[::1]:08080/") :=
    ⟨by decide, Or.inr ⟨Or.inr rfl, rfl⟩⟩
  have grammar : ProxyGrammar bracketedEnvironment.isIpv6 (ascii "HTTP://[::1]:08080/")
      (ascii "::1") 8080 := by
    refine ⟨by decide, visible_value_iff.mp (by decide), ascii "HTTP://", ascii "[::1]:08080",
      [slash], by decide, by decide, Or.inr rfl, by decide, ascii "[::1]", ascii ":08080",
      by decide, Or.inr ⟨by decide, by decide⟩, Or.inr ⟨ascii "08080", by decide, by decide,
      by decide, by decide, by decide⟩⟩
  obtain ⟨_, _, reads⟩ :=
    proxy_configuration_grammar bracketedEnvironment addresses (ascii "example.com") true
  obtain ⟨accepts, _⟩ := reads proxied _ named
  have read := (accepts ⟨true, 8080, ⟨ascii "::1", by decide⟩⟩).mpr ⟨rfl, grammar⟩
  exact ⟨_, read.1, rfl, rfl, rfl⟩

end IcuTransport.Connect
