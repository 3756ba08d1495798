import IcuTransport.Connect.Tunnel

/-!
# What the stages of an opening give and leave

A call that fails sets `errno`, and a call that succeeds leaves it alone. So a stage of
`openConnection` is described by two things that depend on the outcomes of its calls only: what it
gives, and the `errno` of the last of its calls that failed, if one did. The stages are the
addresses (`value_connectTcp`), the tunnel (`value_establishProxyTunnel`) and the set-up of TLS
(`value_openTls`); `openedWith_eq` puts them together. A connection that could not be opened leaves
an empty record and a failure code (`openConnection_unopened`).

An address that is given up always has a failing call. Nothing is left of the addresses exactly
when the first one connects at once (`addressesErrno_eq_none_iff`).
-/

set_option autoImplicit false

namespace IcuTransport.Connect

open Ascii TextScan Tracing Wire

/-! ## The addresses -/

/-- The `errno` that a call sets. -/
def callErrno {α : Type} : Except Errno α → Option Errno
  | .ok _ => none
  | .error failure => some failure

/-- Whether a socket gets connected, and the `errno` its calls leave. -/
def connectOutcome (calls : AddressCalls) : Bool × Option Errno :=
  match calls.connect with
  | .ok () => (true, none)
  | .error .einprogress => ((awaitConnection calls).1, some (awaitConnection calls).2)
  | .error failure => (false, some failure)

/-- An address gives a socket. -/
def addressConnects (calls : AddressCalls) : Bool :=
  calls.getFlags.isOk && calls.setNonblocking.isOk && (connectOutcome calls).1 &&
    calls.restoreFlags.isOk

/-- The socket of an address. -/
def addressSocket (calls : AddressCalls) : Option Handle :=
  match calls.socket with
  | .error _ => none
  | .ok number => if addressConnects calls then some ⟨.socket, number⟩ else none

/-- The `errno` of the last call on a socket that fails before the socket is kept or given up. -/
def socketErrno (calls : AddressCalls) : Option Errno :=
  match calls.getFlags, calls.setNonblocking with
  | .error failure, _ => some failure
  | .ok (), .error failure => some failure
  | .ok (), .ok () =>
      if (connectOutcome calls).1 = false then (connectOutcome calls).2
      else (callErrno calls.restoreFlags).or (connectOutcome calls).2

/-- The `errno` of the last failing call for an address. -/
def addressErrno (calls : AddressCalls) : Option Errno :=
  match calls.socket with
  | .error failure => some failure
  | .ok _ =>
      if addressConnects calls then
        (callErrno calls.sendTimeout).or ((callErrno calls.receiveTimeout).or (socketErrno calls))
      else (callErrno calls.close).or (socketErrno calls)

/-- The `errno` of the last failing call for the addresses that are tried. -/
def addressesErrno : List AddressCalls → Option Errno
  | [] => none
  | calls :: rest =>
      if (addressSocket calls).isSome then addressErrno calls
      else (addressesErrno rest).or (addressErrno calls)

@[simp] theorem isOk_ok {α : Type} (value : α) :
    (Except.ok value : Except Errno α).isOk = true := rfl

@[simp] theorem isOk_error {α : Type} (failure : Errno) :
    (Except.error failure : Except Errno α).isOk = false := rfl

theorem errnoAfter_eq {α : Type} (errno : Errno) (call : Except Errno α) :
    errnoAfter errno call = (callErrno call).getD errno := by
  cases call with
  | ok value => rfl
  | error failure => rfl

theorem value_connectSocket (calls : AddressCalls) (socket : Handle) (errno : Errno) :
    (connectSocket calls socket errno).value =
      ((connectOutcome calls).1, (connectOutcome calls).2.getD errno) := by
  unfold connectSocket connectOutcome
  rw [Traced.value_bind]
  cases calls.connect with
  | ok => rfl
  | error failure =>
      cases failure with
      | einprogress => rfl
      | _ => rfl

theorem value_abandon (calls : AddressCalls) (socket : Handle) (errno : Errno) :
    (abandon calls socket errno).value = (none, (callErrno calls.close).getD errno) := by
  rw [← errnoAfter_eq]
  rfl

/-- **What trying one address gives, and what it leaves.** -/
theorem value_connectAddress (calls : AddressCalls) (errno : Errno) :
    (connectAddress calls errno).value =
    (addressSocket calls, (addressErrno calls).getD errno) := by
  unfold connectAddress addressSocket addressErrno addressConnects socketErrno
  cases calls.socket with
  | error failure => rfl
  | ok number =>
      cases calls.getFlags with
      | error failure => simp [value_abandon]
      | ok =>
          cases calls.setNonblocking with
          | error failure => simp [value_abandon]
          | ok =>
              simp only [Traced.value_bind, value_connectSocket]
              cases (connectOutcome calls).1 with
              | false => simp [value_abandon, Option.getD_or]
              | true =>
                  cases calls.restoreFlags with
                  | error failure =>
                      simp [value_abandon, callErrno]
                  | ok =>
                      simp [errnoAfter_eq, Option.getD_or, callErrno]

/-- **What trying the addresses gives, and what it leaves.** -/
theorem value_connectAddresses (addresses : List AddressCalls) (errno : Errno) :
    (connectAddresses addresses errno).value =
      (addresses.findSome? addressSocket, (addressesErrno addresses).getD errno) := by
  induction addresses generalizing errno with
  | nil => rfl
  | cons calls rest ih =>
      rw [connectAddresses, Traced.value_bind, Traced.value_bind, value_connectAddress,
        List.findSome?_cons, addressesErrno]
      cases addressSocket calls with
      | some socket => rfl
      | none =>
          dsimp only
          rw [ih, Option.isSome_none, if_neg Bool.false_ne_true, Option.getD_or]

/-- Every call for an address succeeds; the socket need not be waited for. -/
def connectsAtOnce (calls : AddressCalls) : Bool :=
  calls.socket.isOk && calls.getFlags.isOk && calls.setNonblocking.isOk && calls.connect.isOk &&
    calls.restoreFlags.isOk && calls.receiveTimeout.isOk && calls.sendTimeout.isOk

theorem callErrno_eq_none_iff {α : Type} {call : Except Errno α} :
    callErrno call = none ↔ call.isOk = true := by
  cases call with
  | ok value => simp [callErrno]
  | error failure => simp [callErrno]

theorem connectOutcome_errno_eq_none_iff {calls : AddressCalls} :
    (connectOutcome calls).2 = none ↔ calls.connect.isOk = true := by
  unfold connectOutcome
  cases calls.connect with
  | ok => simp
  | error failure =>
      cases failure with
      | _ => simp

theorem connectOutcome_of_isOk {calls : AddressCalls} (connected : calls.connect.isOk = true) :
    (connectOutcome calls).1 = true := by
  unfold connectOutcome
  cases outcome : calls.connect with
  | ok => rfl
  | error failure =>
      rw [outcome] at connected
      cases connected

/-- A socket has a failing call before it is kept unless it is connected at once. -/
theorem socketErrno_eq_none_iff {calls : AddressCalls} :
    socketErrno calls = none ↔ addressConnects calls = true ∧ calls.connect.isOk = true := by
  unfold socketErrno addressConnects
  cases calls.getFlags with
  | error failure => simp
  | ok =>
      cases calls.setNonblocking with
      | error failure => simp
      | ok =>
          by_cases connected : (connectOutcome calls).1 = true
          · simp only [connected, Bool.true_eq_false, if_false, Option.or_eq_none_iff,
              callErrno_eq_none_iff, connectOutcome_errno_eq_none_iff]
            simp
          · have pending : calls.connect.isOk ≠ true :=
              fun ok => connected (connectOutcome_of_isOk ok)
            simp [connected, pending, connectOutcome_errno_eq_none_iff]

theorem connectsAtOnce_iff {calls : AddressCalls} :
    connectsAtOnce calls = true ↔
      calls.socket.isOk = true ∧ addressConnects calls = true ∧ calls.connect.isOk = true ∧
        calls.receiveTimeout.isOk = true ∧ calls.sendTimeout.isOk = true := by
  simp only [connectsAtOnce, addressConnects, Bool.and_eq_true]
  constructor
  · rintro ⟨⟨⟨⟨⟨⟨opened, flags⟩, nonblocking⟩, connected⟩, restored⟩, receive⟩, send⟩
    exact ⟨opened, ⟨⟨⟨flags, nonblocking⟩, connectOutcome_of_isOk connected⟩, restored⟩, connected,
      receive, send⟩
  · rintro ⟨opened, ⟨⟨⟨flags, nonblocking⟩, _⟩, restored⟩, connected, receive, send⟩
    exact ⟨⟨⟨⟨⟨⟨opened, flags⟩, nonblocking⟩, connected⟩, restored⟩, receive⟩, send⟩

/-- **Nothing is left of an address exactly when it connects at once.** An address that is given up
has a failing call. -/
theorem addressErrno_eq_none_iff {calls : AddressCalls} :
    addressErrno calls = none ↔ connectsAtOnce calls = true := by
  rw [connectsAtOnce_iff]
  unfold addressErrno
  cases calls.socket with
  | error failure => simp
  | ok number =>
      cases connects : addressConnects calls with
      | false => simp [socketErrno_eq_none_iff, connects]
      | true =>
          simp only [if_true, Option.or_eq_none_iff, callErrno_eq_none_iff, socketErrno_eq_none_iff,
            connects, true_and]
          constructor
          · rintro ⟨send, receive, connected⟩
            exact ⟨rfl, connected, receive, send⟩
          · rintro ⟨_, connected, receive, send⟩
            exact ⟨send, receive, connected⟩

theorem addressSocket_of_connectsAtOnce {calls : AddressCalls}
    (atOnce : connectsAtOnce calls = true) : (addressSocket calls).isSome = true := by
  obtain ⟨opened, connects, _⟩ := connectsAtOnce_iff.mp atOnce
  unfold addressSocket
  cases given : calls.socket with
  | ok number => simp [connects]
  | error failure =>
      rw [given] at opened
      cases opened

theorem addressesErrno_eq_none_iff {first : AddressCalls} {rest : List AddressCalls} :
    addressesErrno (first :: rest) = none ↔ connectsAtOnce first = true := by
  rw [addressesErrno, ← addressErrno_eq_none_iff]
  split
  · rfl
  · rename_i unconnected
    rw [Option.or_eq_none_iff]
    constructor
    · exact fun silent => silent.2
    · intro silent
      exact absurd
        (addressSocket_of_connectsAtOnce (addressErrno_eq_none_iff.mp silent)) unconnected

/-! ## The tunnel -/

/-- The `errno` that a stop sets. -/
def Stopped.failure : Stopped → Option Errno
  | .closed => none
  | .failed errno => some errno

theorem Stopped.errnoAfter_eq (errno : Errno) (stop : Stopped) :
    stop.errnoAfter errno = stop.failure.getD errno := by
  cases stop with
  | closed => rfl
  | failed failure => rfl

/-- What becomes of the reply of a proxy, read off all that the proxy sends. -/
def tunnelReplyOf (reply : Bytes) : TunnelReply :=
  match findHeaderEnd (reply.take maxHeaderBytes) with
  | some (head, _) => .complete (tunnelReplyAccepted head)
  | none => if reply.length < maxHeaderBytes then .stopped else .tooLong

/-- All of a request is taken when the sends together take enough. -/
theorem value_sendTunnelRequest (socket : Handle) (sends : List ℕ) (bytes : Bytes) :
    (sendTunnelRequest socket sends bytes).value =
      decide (bytes.length ≤ (sends.map (· + 1)).sum) := by
  fun_induction sendTunnelRequest socket sends bytes with
  | case1 => simp
  | case2 => simp
  | case3 more sends bytes _ ih =>
      rw [Traced.value_bind, ih, List.length_drop, List.map_cons, List.sum_cons]
      congr 1
      apply propext
      omega

/-- A reply without a head stops, or is too long, as its length says. -/
theorem value_receiveTunnelReply_of_pending (socket : Handle) {reply response : Bytes}
    (bound : response.length ≤ maxHeaderBytes)
    (pending : ∀ accepted, (receiveTunnelReply socket reply response).value ≠ .complete accepted) :
    (receiveTunnelReply socket reply response).value =
      if (response ++ reply).length < maxHeaderBytes then .stopped else .tooLong := by
  induction reply generalizing response with
  | nil => rw [receiveTunnelReply, Traced.value_pure, List.append_nil]
  | cons byte reply ih =>
      rw [receiveTunnelReply] at pending ⊢
      split at pending
      · rename_i room
        rw [if_pos room, Traced.value_bind]
        rw [Traced.value_bind] at pending
        split at pending
        · exact absurd rfl (pending _)
        · rename_i unended
          have bound' : (response ++ [byte]).length ≤ maxHeaderBytes := by
            rw [List.length_append, List.length_singleton]
            omega
          rw [if_neg unended, ih bound' pending, List.append_assoc, List.singleton_append]
      · rename_i full
        have long : ¬ (response ++ byte :: reply).length < maxHeaderBytes := by
          rw [List.length_append]
          omega
        rw [if_neg full, if_neg long]
        rfl

/-- **What becomes of a reply depends on what is sent only.** -/
theorem value_receiveTunnelReply (socket : Handle) (reply : Bytes) :
    (receiveTunnelReply socket reply []).value = tunnelReplyOf reply := by
  have empty : ¬ crlf ++ crlf <:+: [] := by decide
  unfold tunnelReplyOf
  cases found : findHeaderEnd (reply.take maxHeaderBytes) with
  | some parts =>
      obtain ⟨head, rest⟩ := parts
      obtain ⟨split, isHead⟩ := findHeaderEnd_eq_some_iff.mp found
      have whole : reply = head ++ (rest ++ reply.drop maxHeaderBytes) := by
        rw [← List.append_assoc, ← split, List.take_append_drop]
      have bound : head.length ≤ maxHeaderBytes := by
        have length := congrArg List.length split
        rw [List.length_take, List.length_append] at length
        omega
      have read : receiveTunnelReply socket reply [] =
          ⟨.complete (tunnelReplyAccepted head),
            head.map fun byte => .received [socket] [byte]⟩ := by
        rw [whole]
        exact receiveTunnelReply_of_isHead empty isHead bound _
      rw [read]
  | none =>
      refine value_receiveTunnelReply_of_pending socket (Nat.zero_le _) ?_
      intro accepted complete
      obtain ⟨taken, rest, rfl, isHead, bound⟩ := isHead_of_receiveTunnelReply empty complete
      have start : taken <+: (taken ++ rest).take maxHeaderBytes :=
        List.prefix_take_iff.mpr ⟨List.prefix_append _ _, bound⟩
      exact findHeaderEnd_eq_none_iff.mp found (isHead.1.isInfix.trans start.isInfix)

/-- Whether a tunnel is made, and the `errno` its calls leave. -/
def tunnelOutcome (calls : TunnelCalls) (host : Bytes) (port : Int32) : Bool × Option Errno :=
  if (tunnelRequest host port).length ≥ tunnelRequestBytes then (false, none)
  else if (calls.sends.map (· + 1)).sum < (tunnelRequest host port).length then
    (false, calls.sendsStop.failure)
  else
    match tunnelReplyOf calls.reply with
    | .complete accepted => (accepted, none)
    | .tooLong => (false, none)
    | .stopped => (false, calls.replyStops.failure)

/-- **What asking for a tunnel gives, and what it leaves.** -/
theorem value_establishProxyTunnel (calls : TunnelCalls) (socket : Handle) (host : Bytes)
    (port : Int32) (errno : Errno) :
    (establishProxyTunnel calls socket host port errno).value =
      ((tunnelOutcome calls host port).1, (tunnelOutcome calls host port).2.getD errno) := by
  unfold establishProxyTunnel tunnelOutcome
  split
  · rfl
  · simp only [Traced.value_bind, value_sendTunnelRequest, decide_eq_false_iff_not, Nat.not_le]
    split
    · rw [← Stopped.errnoAfter_eq]
      rfl
    · rw [Traced.value_bind, value_receiveTunnelReply]
      cases tunnelReplyOf calls.reply with
      | complete accepted => rfl
      | tooLong => rfl
      | stopped =>
          rw [← Stopped.errnoAfter_eq]
          rfl

/-- No call has failed for a tunnel that was made. -/
theorem tunnelOutcome_of_made {calls : TunnelCalls} {host : Bytes} {port : Int32}
    (made : (tunnelOutcome calls host port).1 = true) :
    (tunnelOutcome calls host port).2 = none := by
  unfold tunnelOutcome at made ⊢
  split at made
  · cases made
  · rename_i fits
    rw [if_neg fits]
    split at made
    · cases made
    · rename_i taken
      rw [if_neg taken]
      cases outcome : tunnelReplyOf calls.reply with
      | complete accepted => rfl
      | tooLong => rfl
      | stopped =>
          rw [outcome] at made
          cases made

/-! ## The set-up of TLS -/

/-- The set-up of TLS gets as far as the handshake. -/
def reachesHandshake (environment : Environment) (calls : TlsCalls) (host : Bytes) : Bool :=
  calls.context.isSome && calls.verifyPaths && calls.tls.isSome &&
    configuresIdentity environment calls host

/-- How a handshake ends. -/
def handshakeOutcome (calls : TlsCalls) : Except (Option Errno) Unit :=
  match calls.setDescriptor with
  | .error failure => .error failure
  | .ok () => calls.handshake

/-- The handshake fails and leaves `errno` as it was. -/
def SilentHandshake (environment : Environment) (calls : TlsCalls) (host : Bytes) : Prop :=
  reachesHandshake environment calls host = true ∧ handshakeOutcome calls = .error none

/-- **What the set-up of TLS gives.** -/
theorem value_openTls (environment : Environment) (calls : TlsCalls) (host : Bytes)
    (socket : Handle) (errno : Errno) :
    (openTls environment calls host socket errno).value =
      if reachesHandshake environment calls host = false then (false, ⟨none, none, none, 5⟩)
      else
        match handshakeOutcome calls with
        | .error failure => (false, ⟨none, none, none, handshakeFailureCode errno failure⟩)
        | .ok () =>
            (true, ⟨some socket, calls.context.map (⟨.context, ·⟩), calls.tls.map (⟨.tls, ·⟩),
              5⟩) := by
  unfold openTls reachesHandshake handshakeOutcome
  cases calls.context with
  | none => exact value_closeUnopened _
  | some number =>
      cases calls.verifyPaths with
      | false => exact value_closeUnopened _
      | true =>
          cases calls.tls with
          | none => exact value_closeUnopened _
          | some number' =>
              cases configuresIdentity environment calls host with
              | false => exact value_closeUnopened _
              | true =>
                  cases calls.setDescriptor with
                  | error failure => exact value_closeUnopened _
                  | ok =>
                      cases calls.handshake with
                      | error failure => exact value_closeUnopened _
                      | ok => rfl

/-- Unless the handshake is silent, what is given does not depend on `errno`. -/
theorem value_openTls_same {environment : Environment} {calls : TlsCalls} {host : Bytes}
    (loud : ¬ SilentHandshake environment calls host) (socket : Handle) (first second : Errno) :
    (openTls environment calls host socket first).value =
      (openTls environment calls host socket second).value := by
  rw [value_openTls, value_openTls]
  split
  · rfl
  · rename_i reached
    cases outcome : handshakeOutcome calls with
    | ok => rfl
    | error failure =>
        cases failure with
        | none => exact absurd ⟨Bool.not_eq_false _ ▸ reached, outcome⟩ loud
        | some errno => rfl

theorem value_openTls_of_silent {environment : Environment} {calls : TlsCalls} {host : Bytes}
    (silent : SilentHandshake environment calls host) (socket : Handle) (errno : Errno) :
    (openTls environment calls host socket errno).value =
      (false, ⟨none, none, none, handshakeFailureCode errno none⟩) := by
  obtain ⟨reached, outcome⟩ := silent
  rw [value_openTls, reached, outcome]
  rfl

/-! ## The connection -/

/-- The port that is connected to. -/
def hopPort (proxy : ConfiguredProxy) (port : Int32) : ℤ :=
  if proxy.enabled then proxy.port else port.toInt

/-- The socket that connecting to a host gives, and the `errno` it leaves. -/
def tcpOutcome (lookup : Option (List AddressCalls)) (port : ℤ) : Option Handle × Option Errno :=
  if port < 1 ∨ port > 65535 then (none, none)
  else
    match lookup with
    | none => (none, none)
    | some addresses => (addresses.findSome? addressSocket, addressesErrno addresses)

/-- **What connecting to a host gives, and what it leaves.** -/
theorem value_connectTcp (lookup : Option (List AddressCalls)) (port : ℤ) (errno : Errno) :
    (connectTcp lookup port errno).value =
      ((tcpOutcome lookup port).1, (tcpOutcome lookup port).2.getD errno) := by
  unfold connectTcp tcpOutcome
  split
  · rfl
  · cases lookup with
    | none => rfl
    | some addresses =>
        simp only [Traced.value_bind, value_connectAddresses]
        rfl

/-- Without an address to try, connecting leaves nothing. -/
theorem tcpOutcome_of_untried {lookup : Option (List AddressCalls)} {port : ℤ}
    (untried : ¬ (1 ≤ port ∧ port ≤ 65535 ∧ ∃ first rest, lookup = some (first :: rest))) :
    tcpOutcome lookup port = (none, none) := by
  unfold tcpOutcome
  split
  · rfl
  · rename_i inside
    cases lookup with
    | none => rfl
    | some addresses =>
        cases addresses with
        | nil => rfl
        | cons first rest => exact absurd ⟨by omega, by omega, first, rest, rfl⟩ untried

theorem tcpOutcome_of_tried {port : ℤ} (low : 1 ≤ port) (high : port ≤ 65535)
    (addresses : List AddressCalls) :
    tcpOutcome (some addresses) port =
      (addresses.findSome? addressSocket, addressesErrno addresses) := by
  unfold tcpOutcome
  rw [if_neg (by omega)]

/-- What opening a connection gives when `errno` is as given before it. -/
def openedWith (environment : Environment) (calls : OpenCalls) (host : Bytes) (port : Int32)
    (useTls : Bool) (errno : Errno) : Bool × ConnectionRecord :=
  (openConnection environment { calls with errno } host port useTls).value

/-- Nothing is tried with a proxy configuration that is not understood. -/
theorem openedWith_of_unconfigured {environment : Environment} {host : Bytes} {useTls : Bool}
    (unconfigured : proxyConfiguration environment host useTls = none) (calls : OpenCalls)
    (port : Int32) (errno : Errno) :
    openedWith environment calls host port useTls errno = (false, ⟨none, none, none, 14⟩) := by
  unfold openedWith openConnection
  rw [Traced.value_bind, unconfigured]
  rfl

/-- **What opening a connection gives**, by what its stages give and leave. -/
theorem openedWith_eq {environment : Environment} {calls : OpenCalls} {host : Bytes} {port : Int32}
    {useTls : Bool} {proxy : ConfiguredProxy}
    (configured : proxyConfiguration environment host useTls = some proxy) (errno : Errno) :
    openedWith environment calls host port useTls errno =
      match tcpOutcome calls.lookup (hopPort proxy port) with
      | (none, left) => (false, ⟨none, none, none, connectFailureCode (left.getD errno)⟩)
      | (some socket, left) =>
          if useTls = false then (true, ⟨some socket, none, none, 4⟩)
          else if proxy.enabled = true ∧ (tunnelOutcome calls.tunnel host port).1 = false then
            (false, ⟨none, none, none,
              tunnelFailureCode ((tunnelOutcome calls.tunnel host port).2.getD (left.getD errno))⟩)
          else (openTls environment calls.tls host socket (left.getD errno)).value := by
  unfold openedWith openConnection
  rw [Traced.value_bind, configured]
  dsimp only
  rw [Traced.value_bind, value_connectTcp]
  rw [hopPort]
  generalize tcpOutcome calls.lookup _ = outcome
  obtain ⟨found, left⟩ := outcome
  cases found with
  | none => rfl
  | some socket =>
      dsimp only
      split
      · rfl
      · split
        · rename_i direct
          rw [if_neg (by simp [direct])]
        · rename_i proxied
          rw [Traced.value_bind, value_establishProxyTunnel]
          dsimp only
          split
          · rename_i unmade
            rw [if_pos ⟨Bool.not_eq_false _ ▸ proxied, unmade⟩, value_closeUnopened]
          · rename_i made
            rw [if_neg (fun both => made both.2),
              tunnelOutcome_of_made (Bool.not_eq_false _ ▸ made)]
            rfl

/-! ## A connection that is not opened -/

theorem failed_openTls (environment : Environment) (calls : TlsCalls) (host : Bytes)
    (socket : Handle) (errno : Errno) :
    Failed (openTls environment calls host socket errno).value := by
  rw [value_openTls]
  split
  · exact fun _ => ⟨rfl, by decide⟩
  · cases handshakeOutcome calls with
    | error failure => exact fun _ => ⟨rfl, handshakeFailureCode_mem errno failure⟩
    | ok =>
        intro unopened
        cases unopened

/-- **A connection that could not be opened leaves an empty record and a failure code.** -/
theorem openConnection_unopened (environment : Environment) (calls : OpenCalls) (host : Bytes)
    (port : Int32) (useTls : Bool) :
    Failed (openConnection environment calls host port useTls).value := by
  show Failed (openedWith environment calls host port useTls calls.errno)
  cases configured : proxyConfiguration environment host useTls with
  | none =>
      rw [openedWith_of_unconfigured configured]
      exact fun _ => ⟨rfl, by decide⟩
  | some proxy =>
      rw [openedWith_eq configured]
      generalize tcpOutcome calls.lookup _ = connected
      obtain ⟨found, left⟩ := connected
      cases found with
      | none => exact fun _ => ⟨rfl, connectFailureCode_mem _⟩
      | some socket =>
          dsimp only
          split
          · intro unopened
            cases unopened
          · split
            · exact fun _ => ⟨rfl, tunnelFailureCode_mem _⟩
            · exact failed_openTls _ _ _ _ _

end IcuTransport.Connect
