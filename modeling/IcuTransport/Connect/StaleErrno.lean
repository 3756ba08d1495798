import IcuTransport.Connect.Stages

/-!
# The `errno` of an earlier call

`openConnection` tells a timeout from other failures by the `errno` it finds after a stage has
failed. A stage can fail although none of its calls does: a port is out of range, a name is not
found, a proxy answers with a refusal, a peer closes. What is read then was left by an earlier call,
maybe one for another connection, and a timeout there is taken for a timeout here.

`stale_errno_iff` says exactly when the class of a failure is free of that.
-/

set_option autoImplicit false

namespace IcuTransport.Connect

open Ascii TextScan Tracing Wire

/-! ## The class of a failure -/

/-- The proxy takes the whole request and sends a complete reply that does not make the tunnel. -/
def RefusesConnect (calls : TunnelCalls) (host : Bytes) (port : Int32) : Prop :=
  (tunnelRequest host port).length < tunnelRequestBytes ∧
    (tunnelRequest host port).length ≤ (calls.sends.map (· + 1)).sum ∧
      ∃ head stream, calls.reply = head ++ stream ∧ IsHead head ∧ head.length ≤ maxHeaderBytes ∧
        tunnelReplyAccepted head = false

/-- Opening a connection gives the same whatever `errno` holds before it. A port that cannot be
connected to and a name that is not found are failures to connect, and a refused CONNECT is no
timeout. -/
structure StaleFree (environment : Environment) (calls : OpenCalls) (host : Bytes) (port : Int32)
    (useTls : Bool) : Prop where
  same : ∀ first second, openedWith environment calls host port useTls first =
    openedWith environment calls host port useTls second
  unreachable : ∀ proxy, proxyConfiguration environment host useTls = some proxy →
    hopPort proxy port < 1 ∨ hopPort proxy port > 65535 ∨ calls.lookup = none →
      ∀ errno, (openedWith environment calls host port useTls errno).2.failureCode = 4
  refused : ∀ proxy socket, proxyConfiguration environment host useTls = some proxy →
    proxy.enabled = true → (connectTcp calls.lookup proxy.port calls.errno).value.1 = some socket →
      RefusesConnect calls.tunnel host port →
        ∀ errno, (openedWith environment calls host port useTls errno).2.failureCode ≠ 11

/-- What is required of the calls after the first address is tried. When that address connects at
once, no failure after it may be silent. When the proxy refuses, no timeout may have come before. -/
structure Loud (environment : Environment) (calls : OpenCalls) (host : Bytes) (port : Int32)
    (useTls : Bool) (proxy : ConfiguredProxy) (first : AddressCalls) (rest : List AddressCalls) :
    Prop where
  tunnel : useTls = true → connectsAtOnce first = true → proxy.enabled = true →
    tunnelOutcome calls.tunnel host port ≠ (false, none)
  handshake : useTls = true → connectsAtOnce first = true →
    (proxy.enabled = true → (tunnelOutcome calls.tunnel host port).1 = true) →
      ¬ SilentHandshake environment calls.tls host
  refusal : proxy.enabled = true → RefusesConnect calls.tunnel host port →
    ∀ socket errno, (first :: rest).findSome? addressSocket = some socket →
      addressesErrno (first :: rest) = some errno → isTimeout errno = false

/-- Where the proxy configuration is understood, there is an address to try, and the calls are as
above. -/
def SettlesErrno (environment : Environment) (calls : OpenCalls) (host : Bytes) (port : Int32)
    (useTls : Bool) : Prop :=
  ∀ proxy, proxyConfiguration environment host useTls = some proxy →
    1 ≤ hopPort proxy port ∧ hopPort proxy port ≤ 65535 ∧
      ∃ first rest, calls.lookup = some (first :: rest) ∧
        Loud environment calls host port useTls proxy first rest

theorem tunnelOutcome_of_refuses {calls : TunnelCalls} {host : Bytes} {port : Int32}
    (refuses : RefusesConnect calls host port) : tunnelOutcome calls host port = (false, none) := by
  obtain ⟨fits, taken, head, stream, split, isHead, bound, refused⟩ := refuses
  have complete : tunnelReplyOf calls.reply = .complete false := by
    have start : calls.reply.take maxHeaderBytes =
        head ++ stream.take (maxHeaderBytes - head.length) := by
      rw [split, List.take_append, List.take_of_length_le bound]
    rw [tunnelReplyOf, start, findHeaderEnd_append isHead]
    dsimp only
    rw [refused]
  rw [tunnelOutcome, if_neg (Nat.not_le.mpr fits), if_neg (Nat.not_lt.mpr taken), complete]

theorem tunnelFailureCode_eq_iff {errno : Errno} :
    tunnelFailureCode errno = 11 ↔ isTimeout errno = true := by
  unfold tunnelFailureCode
  split
  · rename_i timeout
    simp [timeout]
  · rename_i other
    simp [other]

section Opened

variable {environment : Environment} {calls : OpenCalls} {host : Bytes} {port : Int32}
  {useTls : Bool} {proxy : ConfiguredProxy} {socket : Handle} {left : Option Errno}

/-- A tunnel that is not made, after the addresses have left what they left. -/
theorem openedWith_of_unmade
    (configured : proxyConfiguration environment host useTls = some proxy)
    (connected : tcpOutcome calls.lookup (hopPort proxy port) = (some socket, left))
    (secure : useTls = true) (enabled : proxy.enabled = true)
    (unmade : (tunnelOutcome calls.tunnel host port).1 = false) (errno : Errno) :
    openedWith environment calls host port useTls errno =
      (false, ⟨none, none, none,
        tunnelFailureCode ((tunnelOutcome calls.tunnel host port).2.getD (left.getD errno))⟩) := by
  rw [openedWith_eq configured, connected]
  dsimp only
  rw [secure, if_neg Bool.true_eq_false.mp, if_pos ⟨enabled, unmade⟩]

/-- A connection that gets to the set-up of TLS. -/
theorem openedWith_of_made
    (configured : proxyConfiguration environment host useTls = some proxy)
    (connected : tcpOutcome calls.lookup (hopPort proxy port) = (some socket, left))
    (secure : useTls = true)
    (made : proxy.enabled = true → (tunnelOutcome calls.tunnel host port).1 = true)
    (errno : Errno) :
    openedWith environment calls host port useTls errno =
      (openTls environment calls.tls host socket (left.getD errno)).value := by
  rw [openedWith_eq configured, connected]
  dsimp only
  rw [secure, if_neg Bool.true_eq_false.mp, if_neg]
  rintro ⟨enabled, unmade⟩
  rw [made enabled] at unmade
  cases unmade

/-- A class that tells a timeout apart, read from an `errno` that no call has set. -/
theorem not_same_of_classified (classify : Errno → ℕ)
    (tells : classify .etimedout ≠ classify (.other 0))
    (given : ∀ errno, openedWith environment calls host port useTls errno =
      (false, ⟨none, none, none, classify errno⟩)) :
    ¬ ∀ first second, openedWith environment calls host port useTls first =
      openedWith environment calls host port useTls second := by
  intro same
  have equal := same .etimedout (.other 0)
  rw [given, given] at equal
  exact tells (congrArg (fun opened => opened.2.failureCode) equal)

/-- An address that connects at once gives a socket and leaves nothing. -/
theorem tcpOutcome_of_connectsAtOnce {first : AddressCalls} {rest : List AddressCalls}
    (low : 1 ≤ hopPort proxy port) (high : hopPort proxy port ≤ 65535)
    (found : calls.lookup = some (first :: rest)) (atOnce : connectsAtOnce first = true) :
    ∃ socket, tcpOutcome calls.lookup (hopPort proxy port) = (some socket, none) := by
  obtain ⟨socket, given⟩ := Option.isSome_iff_exists.mp (addressSocket_of_connectsAtOnce atOnce)
  refine ⟨socket, ?_⟩
  rw [found, tcpOutcome_of_tried low high, List.findSome?_cons, given,
    addressesErrno_eq_none_iff.mpr atOnce]

/-- Where the class of a failure is free of earlier calls, an address is tried. -/
theorem StaleFree.tried (free : StaleFree environment calls host port useTls)
    (configured : proxyConfiguration environment host useTls = some proxy) :
    1 ≤ hopPort proxy port ∧ hopPort proxy port ≤ 65535 ∧
      ∃ first rest, calls.lookup = some (first :: rest) := by
  by_contra untried
  refine not_same_of_classified connectFailureCode (by decide) ?_ free.same
  intro errno
  rw [openedWith_eq configured, tcpOutcome_of_untried untried]
  rfl

/-- Where the class of a failure is free of earlier calls, the calls after the addresses are as
required. -/
theorem StaleFree.loud (free : StaleFree environment calls host port useTls)
    (configured : proxyConfiguration environment host useTls = some proxy) {first : AddressCalls}
    {rest : List AddressCalls} (low : 1 ≤ hopPort proxy port) (high : hopPort proxy port ≤ 65535)
    (found : calls.lookup = some (first :: rest)) :
    Loud environment calls host port useTls proxy first rest where
  tunnel := by
    intro secure atOnce enabled silent
    obtain ⟨socket, connected⟩ := tcpOutcome_of_connectsAtOnce low high found atOnce
    refine not_same_of_classified tunnelFailureCode (by decide) ?_ free.same
    intro errno
    rw [openedWith_of_unmade configured connected secure enabled (congrArg Prod.fst silent), silent]
    rfl
  handshake := by
    intro secure atOnce made silent
    obtain ⟨socket, connected⟩ := tcpOutcome_of_connectsAtOnce low high found atOnce
    refine not_same_of_classified (handshakeFailureCode · none) (by decide) ?_ free.same
    intro errno
    rw [openedWith_of_made configured connected secure made, value_openTls_of_silent silent]
    rfl
  refusal := by
    intro enabled refuses socket errno given left
    have connected : tcpOutcome calls.lookup (hopPort proxy port) = (some socket, some errno) := by
      rw [found, tcpOutcome_of_tried low high, given, left]
    have secure := (proxyConfiguration_usable configured enabled).1
    have silent := tunnelOutcome_of_refuses refuses
    have reached : (connectTcp calls.lookup proxy.port calls.errno).value.1 = some socket := by
      rw [hopPort, if_pos enabled] at connected
      rw [value_connectTcp, connected]
    have patient := free.refused proxy socket configured enabled reached refuses errno
    rw [openedWith_of_unmade configured connected secure enabled (congrArg Prod.fst silent), silent]
      at patient
    exact Bool.eq_false_of_not_eq_true fun timeout => patient (tunnelFailureCode_eq_iff.mpr timeout)

/-- **With the calls as required, `errno` before them makes no difference.** -/
theorem Loud.same {first : AddressCalls} {rest : List AddressCalls}
    (loud : Loud environment calls host port useTls proxy first rest)
    (configured : proxyConfiguration environment host useTls = some proxy)
    (low : 1 ≤ hopPort proxy port) (high : hopPort proxy port ≤ 65535)
    (found : calls.lookup = some (first :: rest)) (before before' : Errno) :
    openedWith environment calls host port useTls before =
      openedWith environment calls host port useTls before' := by
  have tried := tcpOutcome_of_tried low high (first :: rest)
  rw [← found] at tried
  cases left : addressesErrno (first :: rest) with
  | some errno =>
      -- whatever is read later has been set by one of the addresses
      rw [openedWith_eq configured, openedWith_eq configured, tried, left]
      cases (first :: rest).findSome? addressSocket with
      | none => rfl
      | some socket => rfl
  | none =>
      have atOnce := addressesErrno_eq_none_iff.mp left
      obtain ⟨socket, connected⟩ := tcpOutcome_of_connectsAtOnce low high found atOnce
      by_cases secure : useTls = true
      · by_cases stops : proxy.enabled = true ∧ (tunnelOutcome calls.tunnel host port).1 = false
        · obtain ⟨enabled, unmade⟩ := stops
          have unmadeWith := openedWith_of_unmade configured connected secure enabled unmade
          cases failure : (tunnelOutcome calls.tunnel host port).2 with
          | none => exact absurd (Prod.ext unmade failure) (loud.tunnel secure atOnce enabled)
          | some errno =>
              rw [unmadeWith before, unmadeWith before', failure]
              rfl
        · have made : proxy.enabled = true → (tunnelOutcome calls.tunnel host port).1 = true := by
            intro enabled
            exact Bool.of_not_eq_false fun unmade => stops ⟨enabled, unmade⟩
          rw [openedWith_of_made configured connected secure made,
            openedWith_of_made configured connected secure made]
          exact value_openTls_same (loud.handshake secure atOnce made) socket _ _
      · rw [openedWith_eq configured, openedWith_eq configured, connected]
        dsimp only
        rw [if_pos (Bool.eq_false_of_not_eq_true secure),
          if_pos (Bool.eq_false_of_not_eq_true secure)]

/-- A refused CONNECT is a timeout only by a timeout before it. -/
theorem Loud.refused {first : AddressCalls} {rest : List AddressCalls}
    (loud : Loud environment calls host port useTls proxy first rest)
    (configured : proxyConfiguration environment host useTls = some proxy)
    (low : 1 ≤ hopPort proxy port) (high : hopPort proxy port ≤ 65535)
    (found : calls.lookup = some (first :: rest)) (enabled : proxy.enabled = true)
    (reached : (connectTcp calls.lookup proxy.port calls.errno).value.1 = some socket)
    (refuses : RefusesConnect calls.tunnel host port) (errno : Errno) :
    (openedWith environment calls host port useTls errno).2.failureCode ≠ 11 := by
  have secure := (proxyConfiguration_usable configured enabled).1
  have silent := tunnelOutcome_of_refuses refuses
  have tried := tcpOutcome_of_tried low high (first :: rest)
  rw [← found] at tried
  have given : (first :: rest).findSome? addressSocket = some socket := by
    rw [hopPort, if_pos enabled] at tried
    rw [value_connectTcp, tried] at reached
    exact reached
  rw [given] at tried
  rw [openedWith_of_unmade configured tried secure enabled (congrArg Prod.fst silent), silent]
  cases left : addressesErrno (first :: rest) with
  | none => exact absurd silent (loud.tunnel secure (addressesErrno_eq_none_iff.mp left) enabled)
  | some failure =>
      intro timeout
      have patient := loud.refusal enabled refuses socket failure given left
      have late : isTimeout failure = true := tunnelFailureCode_eq_iff.mp timeout
      rw [late] at patient
      cases patient

end Opened

/-- **When the class of a failure is free of an earlier `errno`.** For every host, port and use of
TLS, and all outcomes of the calls: opening a connection gives the same whatever `errno` holds
before it, with failures to connect as failures to connect and no refused CONNECT as a timeout,
exactly when an address is tried, no failure is silent after an address that connects at once, and
no timeout comes before a refusal. -/
theorem stale_errno_iff (environment : Environment) (calls : OpenCalls) (host : Bytes)
    (port : Int32) (useTls : Bool) :
    StaleFree environment calls host port useTls ↔
      SettlesErrno environment calls host port useTls := by
  constructor
  · intro free proxy configured
    obtain ⟨low, high, first, rest, found⟩ := free.tried configured
    exact ⟨low, high, first, rest, found, free.loud configured low high found⟩
  · intro settles
    refine ⟨?_, ?_, ?_⟩
    · intro before before'
      cases configured : proxyConfiguration environment host useTls with
      | none => rw [openedWith_of_unconfigured configured, openedWith_of_unconfigured configured]
      | some proxy =>
          obtain ⟨low, high, first, rest, found, loud⟩ := settles proxy configured
          exact loud.same configured low high found before before'
    · intro proxy configured unreachable
      obtain ⟨low, high, first, rest, found, _⟩ := settles proxy configured
      rcases unreachable with below | above | missing
      · omega
      · omega
      · rw [found] at missing
        cases missing
    · intro proxy socket configured enabled reached refuses errno
      obtain ⟨low, high, first, rest, found, loud⟩ := settles proxy configured
      exact loud.refused configured low high found enabled reached refuses errno

/-- Without a proxy, and with no text an address. -/
def bareEnvironment : Environment := ⟨none, none, fun _ => false, fun _ => false⟩

/-- The calls of an opening whose name lookup fails. No other call is made. -/
def failedLookup : OpenCalls :=
  ⟨.other 0, none, ⟨[], .closed, [], .closed⟩,
    ⟨none, false, none, false, false, false, .error none, .error none⟩⟩

/-- A name that is not found counts as a timeout after an earlier timeout. -/
theorem failedLookup_stale :
    openedWith bareEnvironment failedLookup (ascii "a") 80 false .etimedout =
        (false, ⟨none, none, none, 11⟩) ∧
      openedWith bareEnvironment failedLookup (ascii "a") 80 false (.other 0) =
        (false, ⟨none, none, none, 4⟩) ∧
      ¬ StaleFree bareEnvironment failedLookup (ascii "a") 80 false := by
  have stale : openedWith bareEnvironment failedLookup (ascii "a") 80 false .etimedout =
      (false, ⟨none, none, none, 11⟩) := by decide
  have fresh : openedWith bareEnvironment failedLookup (ascii "a") 80 false (.other 0) =
      (false, ⟨none, none, none, 4⟩) := by decide
  refine ⟨stale, fresh, ?_⟩
  intro free
  have same := free.same .etimedout (.other 0)
  rw [stale, fresh] at same
  exact absurd same (by decide)

end IcuTransport.Connect
