import IcuTransport.Library.Ascii
import IcuTransport.Library.Search
import IcuTransport.Limits

/-!
# The configured proxy

A caller may name an HTTP proxy in the environment, through which connections that use TLS are made.
`proxyConfiguration` embeds the reading of that name. It is `none` when the name is not understood,
so that such a name is never taken for the absence of a proxy; a proxy that is used has a host and a
port one can connect to (`proxyConfiguration_usable`).
-/

set_option autoImplicit false

namespace IcuTransport.Connect

open Ascii TextScan

/-- What the program finds in its environment: the values of `HTTPS_PROXY` and `https_proxy`, and
the texts that `inet_pton` takes for addresses. -/
structure Environment where
  httpsProxy : Option Bytes
  httpsProxyLower : Option Bytes
  isIpv4 : Bytes → Bool
  isIpv6 : Bytes → Bool

/-- The first of the two values that is set and not empty. -/
def Environment.proxyValue (environment : Environment) : Option Bytes :=
  (environment.httpsProxy.filter (· ≠ [])).or (environment.httpsProxyLower.filter (· ≠ []))

/-- A host that is an address. -/
def hostIsIpAddress (environment : Environment) (host : Bytes) : Bool :=
  environment.isIpv4 host || environment.isIpv6 host

/-- What connections go through. -/
structure ConfiguredProxy where
  enabled : Bool
  port : ℕ
  host : CharArray maxHostBytes
  deriving DecidableEq, Repr

/-- No proxy. -/
def ConfiguredProxy.direct : ConfiguredProxy := ⟨false, 0, ⟨[], by decide⟩⟩

/-- The loop over the digits of a port, after digits of the given value. -/
def proxyPortDigits : ℕ → Bytes → Option ℕ
  | port, [] => if port < 1 ∨ port > 65535 then none else some port
  | port, letter :: rest =>
      if isDigit letter = false ∨ port > 6553 then none
      else proxyPortDigits (port * 10 + digitValue letter) rest

/-- The port after a host. -/
def proxyPort : Option Bytes → Option ℕ
  | none => some 80
  | some [] => none
  | some (letter :: rest) => proxyPortDigits 0 (letter :: rest)

/-- The host and the port text of an authority. Nothing but a port may follow a bracketed host. -/
def proxyParts (authority : Bytes) : Option (Bytes × Option Bytes) :=
  if authority.head? = some openBracket then
    match splitFirst closeBracket (authority.drop 1) with
    | none => none
    | some (host, []) => some (host, none)
    | some (host, byte :: port) => if byte = colon then some (host, some port) else none
  else
    match splitFirst colon authority with
    | none => some (authority, none)
    | some (host, port) => some (host, some port)

/-- The backslash. -/
abbrev backslash : UInt8 := 92

/-- A byte of a host without brackets. -/
def isProxyHostByte (letter : UInt8) : Bool :=
  letter < 127 && letter ≠ colon && letter ≠ backslash && letter ≠ openBracket &&
    letter ≠ closeBracket

/-- The proxy of an authority. -/
def proxyOfAuthority (environment : Environment) (authority : Bytes) : Option ConfiguredProxy :=
  (proxyParts authority).bind fun (host, port) =>
    if host = [] then none
    else
      (CharArray.store maxHostBytes host).bind fun stored =>
        if authority.head? = some openBracket ∧ environment.isIpv6 host = false then none
        else if authority.head? ≠ some openBracket ∧ host.all isProxyHostByte = false then none
        else (proxyPort port).map fun port => ⟨true, port, stored⟩

/-- The proxy a value names. -/
def proxyOfValue (environment : Environment) (value : Bytes) : Option ConfiguredProxy :=
  if startsIgnoringCase (ascii "http://") value = false ∨ value.length ≥ maxHostBytes + 32 then none
  else if value.any (fun letter => letter ≤ 32 || letter = 127) then none
  else
    let rest := value.drop 7
    if atSign ∈ rest ∨ question ∈ rest ∨ hash ∈ rest then none
    else
      match splitFirst slash rest with
      | none => proxyOfAuthority environment rest
      | some (authority, []) => proxyOfAuthority environment authority
      | some (_, _ :: _) => none

/-- The proxy for an origin, unless the configuration is not understood. -/
def proxyConfiguration (environment : Environment) (originHost : Bytes) (useTls : Bool) :
    Option ConfiguredProxy :=
  if useTls = false ∨ originHost = ascii "127.0.0.1" ∨ originHost = ascii "::1" ∨
      foldCase originHost = ascii "localhost" then
    some .direct
  else
    match environment.proxyValue with
    | none => some .direct
    | some value => proxyOfValue environment value

theorem proxyPortDigits_bound {port number : ℕ} {text : Bytes}
    (parsed : proxyPortDigits number text = some port) : 1 ≤ port ∧ port ≤ 65535 := by
  induction text generalizing number with
  | nil =>
      unfold proxyPortDigits at parsed
      split at parsed
      · cases parsed
      · cases parsed
        omega
  | cons letter rest ih =>
      unfold proxyPortDigits at parsed
      split at parsed
      · cases parsed
      · exact ih parsed

theorem proxyPort_bound {port : ℕ} {text : Option Bytes} (parsed : proxyPort text = some port) :
    1 ≤ port ∧ port ≤ 65535 := by
  match text with
  | none =>
      obtain rfl := Option.some.inj parsed
      exact ⟨by omega, by omega⟩
  | some [] => cases parsed
  | some (letter :: rest) => exact proxyPortDigits_bound parsed

theorem proxyOfAuthority_usable {environment : Environment} {authority : Bytes}
    {proxy : ConfiguredProxy} (found : proxyOfAuthority environment authority = some proxy) :
    proxy.host.bytes ≠ [] ∧ 1 ≤ proxy.port ∧ proxy.port ≤ 65535 := by
  unfold proxyOfAuthority at found
  obtain ⟨⟨host, port⟩, _, found⟩ := Option.bind_eq_some_iff.mp found
  dsimp only at found
  split at found
  · cases found
  · rename_i filled
    obtain ⟨stored, held, found⟩ := Option.bind_eq_some_iff.mp found
    split at found
    · cases found
    · split at found
      · cases found
      · obtain ⟨number, numbered, rfl⟩ := Option.map_eq_some_iff.mp found
        rw [CharArray.store_eq_some_iff.mp held]
        exact ⟨filled, proxyPort_bound numbered⟩

/-- **A proxy that is used has a host and a port one can connect to.** -/
theorem proxyConfiguration_usable {environment : Environment} {originHost : Bytes} {useTls : Bool}
    {proxy : ConfiguredProxy}
    (configured : proxyConfiguration environment originHost useTls = some proxy)
    (enabled : proxy.enabled = true) :
    useTls = true ∧ proxy.host.bytes ≠ [] ∧ 1 ≤ proxy.port ∧ proxy.port ≤ 65535 := by
  unfold proxyConfiguration at configured
  split at configured
  · cases configured
    cases enabled
  · rename_i proxied
    have tls : useTls = true := by
      by_contra plain
      exact proxied (Or.inl (Bool.not_eq_true useTls ▸ plain))
    split at configured
    · cases configured
      cases enabled
    · rename_i value _
      refine ⟨tls, ?_⟩
      unfold proxyOfValue at configured
      split at configured
      · cases configured
      · split at configured
        · cases configured
        · dsimp only at configured
          split at configured
          · cases configured
          · split at configured
            · exact proxyOfAuthority_usable configured
            · exact proxyOfAuthority_usable configured
            · cases configured

end IcuTransport.Connect
