import IcuTransport.Connect.Proxy
import IcuTransport.Library.Custody

/-!
# Opening and closing a connection

`openConnection` embeds the way to a server: the configured proxy, the addresses of a host tried one
after the other, the tunnel through a proxy, and the set-up of TLS. Each call of the system or of
the TLS library is an outcome that the model is given, and each failing call of the system carries
the `errno` it sets. What the program does with handles and bytes is left as a trace of events.

A connection record holds the handles that are to be released.
-/

set_option autoImplicit false

namespace IcuTransport.Connect

open Ascii TextScan Tracing

/-! ## Handles and events -/

/-- What a handle is for. The addresses are the list that `getaddrinfo` makes. -/
inductive HandleKind where
  | addresses
  | socket
  | context
  | tls
  deriving DecidableEq, Repr

/-- A handle, as the system numbers it. A number may be used again after a release. -/
structure Handle where
  kind : HandleKind
  number : ℕ
  deriving DecidableEq, Repr

/-- The files of a capture. -/
inductive CaptureFile where
  | body
  | metadata
  deriving DecidableEq, Repr

/-- What a run does to its surroundings. Bytes are sent and received by way of a socket, or of a TLS
handle and its socket. -/
inductive Event where
  | opening (host : Bytes) (port : Int32) (useTls : Bool)
  | acquired (handle : Handle)
  | released (handle : Handle)
  | used (handles : List Handle)
  | sent (way : List Handle) (bytes : Bytes)
  | received (way : List Handle) (bytes : Bytes)
  | created (file : CaptureFile)
  | wrote (bytes : Bytes)
  deriving DecidableEq, Repr

/-- What an event means for the handles. -/
def Event.action : Event → Custody.Action Handle
  | .opening _ _ _ => .opening
  | .acquired handle => .acquire handle
  | .released handle => .release handle
  | .used handles => .touch handles
  | .sent way _ => .touch way
  | .received way _ => .touch way
  | .created _ => .idle
  | .wrote _ => .idle

/-- The values of `errno` that the program tells apart. -/
inductive Errno where
  | eagain
  | ewouldblock
  | etimedout
  | einprogress
  | eintr
  | other (number : ℕ)
  deriving DecidableEq, Repr

/-- The value of `errno` after a call. -/
def errnoAfter {α : Type} (errno : Errno) : Except Errno α → Errno
  | .ok _ => errno
  | .error failure => failure

/-- An `errno` that a timeout of the socket leaves. -/
def isTimeout (errno : Errno) : Bool :=
  errno = .eagain || errno = .ewouldblock || errno = .etimedout

/-! ## The addresses of a host -/

/-- The outcome of the last `poll`; the ones before it were interrupted. -/
inductive Polled where
  | ready
  | expired
  | failed (errno : Errno) (final : errno ≠ .eintr)
  deriving DecidableEq, Repr

/-- The outcomes of the calls for one address. A successful `getsockopt` says whether the socket has
no pending error. -/
structure AddressCalls where
  socket : Except Errno ℕ
  getFlags : Except Errno Unit
  setNonblocking : Except Errno Unit
  connect : Except Errno Unit
  interruptedPolls : ℕ
  poll : Polled
  getsockopt : Except Errno Bool
  restoreFlags : Except Errno Unit
  receiveTimeout : Except Errno Unit
  sendTimeout : Except Errno Unit
  close : Except Errno Unit

/-- Wait for a connection in progress: whether it is there, and the `errno` after the wait. -/
def awaitConnection (calls : AddressCalls) : Bool × Errno :=
  let errno := if calls.interruptedPolls = 0 then .einprogress else .eintr
  match calls.poll with
  | .ready =>
      match calls.getsockopt with
      | .ok clear => (clear, errno)
      | .error failure => (false, failure)
  | .expired => (false, .etimedout)
  | .failed failure _ => (false, failure)

/-- Close the socket of an address that is given up. -/
def abandon (calls : AddressCalls) (socket : Handle) (errno : Errno) :
    Traced Event (Option Handle × Errno) := do
  Traced.emit (.released socket)
  pure (none, errnoAfter errno calls.close)

/-- Connect a socket that does not block: whether that succeeded, and the `errno` after it. -/
def connectSocket (calls : AddressCalls) (socket : Handle) (errno : Errno) :
    Traced Event (Bool × Errno) := do
  Traced.emit (.used [socket])
  match calls.connect with
  | .ok () => pure (true, errno)
  | .error .einprogress => do
      Traced.emit (.used [socket])
      pure (awaitConnection calls)
  | .error failure => pure (false, failure)

/-- Try one address. -/
def connectAddress (calls : AddressCalls) (errno : Errno) :
    Traced Event (Option Handle × Errno) :=
  match calls.socket with
  | .error failure => pure (none, failure)
  | .ok number => do
      let socket : Handle := ⟨.socket, number⟩
      Traced.emit (.acquired socket)
      Traced.emit (.used [socket])
      match calls.getFlags, calls.setNonblocking with
      | .error failure, _ => abandon calls socket failure
      | .ok (), .error failure => abandon calls socket failure
      | .ok (), .ok () => do
          let (connected, errno) ← connectSocket calls socket errno
          if connected = false then abandon calls socket errno
          else do
            Traced.emit (.used [socket])
            match calls.restoreFlags with
            | .error failure => abandon calls socket failure
            | .ok () => do
                Traced.emit (.used [socket])
                pure (some socket,
                  errnoAfter (errnoAfter errno calls.receiveTimeout) calls.sendTimeout)

/-- The list of the addresses of a host. There is one at a time. -/
def addressList : Handle := ⟨.addresses, 0⟩

/-- The loop of `connect_tcp` over the addresses. -/
def connectAddresses : List AddressCalls → Errno → Traced Event (Option Handle × Errno)
  | [], errno => pure (none, errno)
  | calls :: rest, errno => do
      Traced.emit (.used [addressList])
      let (found, errno) ← connectAddress calls errno
      match found with
      | some socket => pure (some socket, errno)
      | none => connectAddresses rest errno

/-- Connect to a host. The addresses are what `getaddrinfo` finds, if it succeeds. -/
def connectTcp (lookup : Option (List AddressCalls)) (port : ℤ) (errno : Errno) :
    Traced Event (Option Handle × Errno) :=
  if port < 1 ∨ port > 65535 then pure (none, errno)
  else
    match lookup with
    | none => pure (none, errno)
    | some addresses => do
        Traced.emit (.acquired addressList)
        let found ← connectAddresses addresses errno
        Traced.emit (.released addressList)
        pure found

/-! ## The tunnel -/

/-- How a sequence of calls on a socket ends: the peer closed it, or a call failed. -/
inductive Stopped where
  | closed
  | failed (errno : Errno)
  deriving DecidableEq, Repr

/-- The `errno` after the calls. -/
def Stopped.errnoAfter (errno : Errno) : Stopped → Errno
  | .closed => errno
  | .failed failure => failure

/-- The outcomes of the calls for a tunnel. Each `send` takes one byte and so many more, as far as
there are any. -/
structure TunnelCalls where
  sends : List ℕ
  sendsStop : Stopped
  reply : Bytes
  replyStops : Stopped

/-- The size of the buffer for a CONNECT request. -/
def tunnelRequestBytes : ℕ := maxHostBytes * 2 + 128

/-- The text of a CONNECT request. -/
def tunnelRequest (host : Bytes) (port : Int32) : Bytes :=
  let name := if colon ∈ host then [openBracket] ++ host ++ [closeBracket] else host
  let authority := name ++ [colon] ++ decimalInt port.toInt
  ascii "CONNECT " ++ authority ++ ascii " HTTP/1.0\r\nHost: " ++ authority ++ crlf ++ crlf

/-- Send a text; whether all of it was taken. -/
def sendTunnelRequest (socket : Handle) : List ℕ → Bytes → Traced Event Bool
  | _, [] => pure true
  | [], _ :: _ => pure false
  | more :: sends, bytes => do
      Traced.emit (.sent [socket] (bytes.take (more + 1)))
      sendTunnelRequest socket sends (bytes.drop (more + 1))

/-- The reply of a proxy that made the tunnel. -/
def tunnelReplyAccepted (response : Bytes) : Bool :=
  14 ≤ response.length && (ascii "HTTP/1.").isPrefixOf response &&
    (response[7]? = some 48 || response[7]? = some 49) && response[8]? = some space &&
    response[9]? = some 50 && (response[10]?).any isDigit && (response[11]?).any isDigit &&
    (response[12]? = some space || response[12]? = some cr)

/-- What becomes of the reply of a proxy: it is complete and accepted or not, it is too long, or the
socket stops before it is complete. -/
inductive TunnelReply where
  | complete (accepted : Bool)
  | tooLong
  | stopped
  deriving DecidableEq, Repr

/-- Read the reply of a proxy byte by byte, after the given bytes. -/
def receiveTunnelReply (socket : Handle) : Bytes → Bytes → Traced Event TunnelReply
  | [], response => pure (if response.length < maxHeaderBytes then .stopped else .tooLong)
  | byte :: reply, response =>
      if response.length < maxHeaderBytes then do
        Traced.emit (.received [socket] [byte])
        if (crlf ++ crlf).isSuffixOf (response ++ [byte]) then
          pure (.complete (tunnelReplyAccepted (response ++ [byte])))
        else receiveTunnelReply socket reply (response ++ [byte])
      else pure .tooLong

/-- Ask a proxy for a tunnel: whether it is there, and the `errno` after it. -/
def establishProxyTunnel (calls : TunnelCalls) (socket : Handle) (host : Bytes) (port : Int32)
    (errno : Errno) : Traced Event (Bool × Errno) :=
  if (tunnelRequest host port).length ≥ tunnelRequestBytes then pure (false, errno)
  else do
    let sent ← sendTunnelRequest socket calls.sends (tunnelRequest host port)
    if sent = false then pure (false, calls.sendsStop.errnoAfter errno)
    else do
      match ← receiveTunnelReply socket calls.reply [] with
      | .complete accepted => pure (accepted, errno)
      | .tooLong => pure (false, errno)
      | .stopped => pure (false, calls.replyStops.errnoAfter errno)

/-! ## The connection -/

/-- The outcomes of the calls that set up TLS. The last two may leave `errno` as it was when they
fail. -/
structure TlsCalls where
  context : Option ℕ
  verifyPaths : Bool
  tls : Option ℕ
  verifyAddress : Bool
  serverName : Bool
  verifyHost : Bool
  setDescriptor : Except (Option Errno) Unit
  handshake : Except (Option Errno) Unit

/-- The outcomes of all calls of `open_connection`, and the `errno` before them. -/
structure OpenCalls where
  errno : Errno
  lookup : Option (List AddressCalls)
  tunnel : TunnelCalls
  tls : TlsCalls

/-- The record of a connection. -/
structure ConnectionRecord where
  socket : Option Handle
  context : Option Handle
  tls : Option Handle
  failureCode : ℕ
  deriving DecidableEq, Repr

namespace ConnectionRecord

/-- The handles of a record. -/
def handles (record : ConnectionRecord) : List Handle :=
  record.tls.toList ++ record.context.toList ++ record.socket.toList

/-- The way of the bytes of a connection. -/
def way (record : ConnectionRecord) : List Handle := record.tls.toList ++ record.socket.toList

end ConnectionRecord

/-- Release a handle, if there is one. -/
def releaseHandle : Option Handle → Traced Event Unit
  | none => pure ()
  | some handle => Traced.emit (.released handle)

/-- Close a connection. A TLS handle is shut down before it is released. -/
def closeConnection (record : ConnectionRecord) : Traced Event ConnectionRecord := do
  match record.tls with
  | none => pure ()
  | some tls => do
      Traced.emit (.used (tls :: record.socket.toList))
      Traced.emit (.released tls)
  releaseHandle record.context
  releaseHandle record.socket
  pure ⟨none, none, none, record.failureCode⟩

/-- Give up a connection that is not yet open. -/
def closeUnopened (record : ConnectionRecord) : Traced Event (Bool × ConnectionRecord) := do
  let record ← closeConnection record
  pure (false, record)

/-- The identity of the server is configured. -/
def configuresIdentity (environment : Environment) (calls : TlsCalls) (host : Bytes) : Bool :=
  if hostIsIpAddress environment host then calls.verifyAddress
  else calls.serverName && calls.verifyHost

/-- The class of a connection that no address gave. -/
def connectFailureCode (errno : Errno) : ℕ := if errno = .etimedout then 11 else 4

/-- The class of a tunnel that was not made. -/
def tunnelFailureCode (errno : Errno) : ℕ := if isTimeout errno then 11 else 14

/-- The class of a failed handshake. -/
def handshakeFailureCode (errno : Errno) (failure : Option Errno) : ℕ :=
  if isTimeout (failure.getD errno) then 11 else 5

/-- Set up TLS on a connected socket. -/
def openTls (environment : Environment) (calls : TlsCalls) (host : Bytes) (socket : Handle)
    (errno : Errno) : Traced Event (Bool × ConnectionRecord) :=
  match calls.context with
  | none => closeUnopened ⟨some socket, none, none, 5⟩
  | some number => do
      let context : Handle := ⟨.context, number⟩
      Traced.emit (.acquired context)
      match calls.verifyPaths, calls.tls with
      | false, _ => closeUnopened ⟨some socket, some context, none, 5⟩
      | true, none => closeUnopened ⟨some socket, some context, none, 5⟩
      | true, some number => do
          let tls : Handle := ⟨.tls, number⟩
          Traced.emit (.acquired tls)
          if configuresIdentity environment calls host = false then
            closeUnopened ⟨some socket, some context, some tls, 5⟩
          else
            match calls.setDescriptor with
            | .error failure =>
                closeUnopened
                  ⟨some socket, some context, some tls, handshakeFailureCode errno failure⟩
            | .ok () => do
                Traced.emit (.used [tls, socket])
                match calls.handshake with
                | .error failure =>
                    closeUnopened
                      ⟨some socket, some context, some tls, handshakeFailureCode errno failure⟩
                | .ok () => pure (true, ⟨some socket, some context, some tls, 5⟩)

/-- Open a connection to a host, through the proxy that is configured for it: whether that
succeeded, and the record. -/
def openConnection (environment : Environment) (calls : OpenCalls) (host : Bytes) (port : Int32)
    (useTls : Bool) : Traced Event (Bool × ConnectionRecord) := do
  Traced.emit (.opening host port useTls)
  match proxyConfiguration environment host useTls with
  | none => pure (false, ⟨none, none, none, 14⟩)
  | some proxy => do
      let (found, errno) ←
        connectTcp calls.lookup (if proxy.enabled then proxy.port else port.toInt) calls.errno
      match found with
      | none => pure (false, ⟨none, none, none, connectFailureCode errno⟩)
      | some socket =>
          if useTls = false then pure (true, ⟨some socket, none, none, 4⟩)
          else if proxy.enabled = false then openTls environment calls.tls host socket errno
          else do
            let (tunnelled, errno) ← establishProxyTunnel calls.tunnel socket host port errno
            if tunnelled = false then
              closeUnopened ⟨some socket, none, none, tunnelFailureCode errno⟩
            else openTls environment calls.tls host socket errno

/-! ## A connection that is not opened -/

/-- A failed attempt holds nothing and has a failure code. -/
def Failed (opened : Bool × ConnectionRecord) : Prop :=
  opened.1 = false → opened.2.handles = [] ∧ opened.2.failureCode ∈ [4, 5, 11, 14]

theorem value_closeConnection (record : ConnectionRecord) :
    (closeConnection record).value = ⟨none, none, none, record.failureCode⟩ := by
  obtain ⟨socket, context, tls, failureCode⟩ := record
  cases tls with
  | none => rfl
  | some tls => rfl

theorem value_closeUnopened (record : ConnectionRecord) :
    (closeUnopened record).value = (false, ⟨none, none, none, record.failureCode⟩) := by
  rw [closeUnopened, Traced.value_bind, value_closeConnection]
  rfl

theorem connectFailureCode_mem (errno : Errno) : connectFailureCode errno ∈ [4, 5, 11, 14] := by
  unfold connectFailureCode
  split
  · decide
  · decide

theorem tunnelFailureCode_mem (errno : Errno) : tunnelFailureCode errno ∈ [4, 5, 11, 14] := by
  unfold tunnelFailureCode
  split
  · decide
  · decide

theorem handshakeFailureCode_mem (errno : Errno) (failure : Option Errno) :
    handshakeFailureCode errno failure ∈ [4, 5, 11, 14] := by
  unfold handshakeFailureCode
  split
  · decide
  · decide

end IcuTransport.Connect
