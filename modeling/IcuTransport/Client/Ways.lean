import IcuTransport.Client.Traced

/-!
# By which way bytes go

A connection sends and receives by way of its socket, or by way of a TLS handle on it. `Within` says
by which ways the events of a part of the program may go, and one traversal of the program says it
of every part: writing goes by the way of the connection, reading too, and all else sends and
receives nothing.

Opening a connection does nothing of the kind apart from its tunnel (`openConnection_events`). An
open connection has TLS on it exactly when that was asked for, and then its server is verified
(`verified_openConnection`).
-/

set_option autoImplicit false

namespace IcuTransport.Client

open Ascii TextScan TurnLoop Tracing Wire Redirect Capture Connect

/-! ## Ways -/

/-- A way with TLS on it. -/
def secured (way : List Handle) : Bool := way.any fun handle => handle.kind = .tls

theorem secured_socket {socket : Handle} (isSocket : socket.kind = .socket) :
    secured [socket] = false := by
  simp [secured, isSocket]

/-- An event that begins a connection. -/
def isOpening : Event → Bool
  | .opening _ _ _ => true
  | _ => false

/-- An event that begins no connection, and that sends and receives by given ways only. -/
def Within (sends receives : Set (List Handle)) : Event → Prop
  | .opening _ _ _ => False
  | .sent way _ => way ∈ sends
  | .received way _ => way ∈ receives
  | _ => True

theorem isOpening_of_within {sends receives : Set (List Handle)} {events : List Event}
    (within : ∀ event ∈ events, Within sends receives event) :
    ∀ event ∈ events, isOpening event = false := by
  intro event member
  cases event with
  | opening host port useTls => exact absurd (within _ member) id
  | _ => rfl

/-! ## Opening -/

section Opening

variable {sends receives : Set (List Handle)}

theorem within_abandon (calls : AddressCalls) (socket : Handle) (errno : Errno) :
    Traced.Emits (Within sends receives) (abandon calls socket errno) :=
  .emit_bind trivial (.pure _)

theorem within_connectSocket (calls : AddressCalls) (socket : Handle) (errno : Errno) :
    Traced.Emits (Within sends receives) (connectSocket calls socket errno) := by
  unfold connectSocket
  refine .emit_bind trivial ?_
  split
  · exact .pure _
  · exact .emit_bind trivial (.pure _)
  · exact .pure _

theorem within_connectAddress (calls : AddressCalls) (errno : Errno) :
    Traced.Emits (Within sends receives) (connectAddress calls errno) := by
  unfold connectAddress
  split
  · exact .pure _
  · refine .emit_bind trivial (.emit_bind trivial ?_)
    split
    · exact within_abandon _ _ _
    · exact within_abandon _ _ _
    · refine .bind (within_connectSocket _ _ _) ?_
      dsimp only
      split
      · exact within_abandon _ _ _
      · refine .emit_bind trivial ?_
        split
        · exact within_abandon _ _ _
        · exact .emit_bind trivial (.pure _)

theorem within_connectTcp (lookup : Option (List AddressCalls)) (port : ℤ) (errno : Errno) :
    Traced.Emits (Within sends receives) (connectTcp lookup port errno) := by
  have addressed : ∀ (addresses : List AddressCalls) (errno : Errno),
      Traced.Emits (Within sends receives) (connectAddresses addresses errno) := by
    intro addresses
    induction addresses with
    | nil => exact fun _ => .pure _
    | cons calls rest ih =>
        intro errno
        refine .emit_bind trivial (.bind (within_connectAddress calls errno) ?_)
        cases (connectAddress calls errno).value with
        | mk found errno =>
            cases found with
            | none => exact ih errno
            | some socket => exact .pure _
  unfold connectTcp
  split
  · exact .pure _
  · split
    · exact .pure _
    · exact .emit_bind trivial (.bind (addressed _ _) (.emit_bind trivial (.pure _)))

theorem within_sendTunnelRequest {socket : Handle} (member : [socket] ∈ sends)
    (counts : List ℕ) (bytes : Bytes) :
    Traced.Emits (Within sends receives) (sendTunnelRequest socket counts bytes) := by
  fun_induction sendTunnelRequest socket counts bytes with
  | case1 => exact .pure _
  | case2 => exact .pure _
  | case3 more counts bytes _ ih => exact .emit_bind member ih

theorem within_receiveTunnelReply {socket : Handle} (member : [socket] ∈ receives)
    (reply response : Bytes) :
    Traced.Emits (Within sends receives) (receiveTunnelReply socket reply response) := by
  induction reply generalizing response with
  | nil => exact .pure _
  | cons byte reply ih =>
      unfold receiveTunnelReply
      split
      · refine .emit_bind member ?_
        split
        · exact .pure _
        · exact ih _
      · exact .pure _

/-- A tunnel sends and receives by way of its socket. -/
theorem within_establishProxyTunnel {socket : Handle} (sending : [socket] ∈ sends)
    (receiving : [socket] ∈ receives) (calls : TunnelCalls) (host : Bytes) (port : Int32)
    (errno : Errno) :
    Traced.Emits (Within sends receives) (establishProxyTunnel calls socket host port errno) := by
  unfold establishProxyTunnel
  split
  · exact .pure _
  · refine .bind (within_sendTunnelRequest sending _ _) ?_
    split
    · exact .pure _
    · refine .bind (within_receiveTunnelReply receiving _ _) ?_
      split
      · exact .pure _
      · exact .pure _
      · exact .pure _

theorem within_closeConnection (record : ConnectionRecord) :
    Traced.Emits (Within sends receives) (closeConnection record) := by
  have released : ∀ handle, Traced.Emits (Within sends receives) (releaseHandle handle) := by
    intro handle
    cases handle with
    | none => exact .pure _
    | some handle => exact .emit trivial
  obtain ⟨socket, context, tls, failureCode⟩ := record
  have rest : Traced.Emits (Within sends receives) (do
      releaseHandle context
      releaseHandle socket
      pure (⟨none, none, none, failureCode⟩ : ConnectionRecord)) :=
    .bind (released context) (.bind (released socket) (.pure _))
  cases tls with
  | none => exact rest
  | some tls => exact .emit_bind trivial (.emit_bind trivial rest)

theorem within_closeUnopened (record : ConnectionRecord) :
    Traced.Emits (Within sends receives) (closeUnopened record) :=
  .bind (within_closeConnection record) (.pure _)

/-- Setting up TLS sends nothing. -/
theorem within_openTls (environment : Environment) (calls : TlsCalls) (host : Bytes)
    (socket : Handle) (errno : Errno) :
    Traced.Emits (Within sends receives) (openTls environment calls host socket errno) := by
  unfold openTls
  split
  · exact within_closeUnopened _
  · refine .emit_bind trivial ?_
    split
    · exact within_closeUnopened _
    · exact within_closeUnopened _
    · refine .emit_bind trivial ?_
      split
      · exact within_closeUnopened _
      · split
        · exact within_closeUnopened _
        · refine .emit_bind trivial ?_
          split
          · exact within_closeUnopened _
          · exact .pure _

end Opening

/-! ## Requests and deliveries -/

section Exchanges

variable {sends receives : Set (List Handle)}

theorem within_writeAll {record : ConnectionRecord} (member : record.way ∈ sends)
    (calls : List WriteCall) (bytes : Bytes) :
    Traced.Emits (Within sends receives) (writeAll record calls bytes) := by
  fun_induction writeAll record calls bytes with
  | case1 => exact .pure _
  | case2 => exact .pure _
  | case3 => exact .emit_bind trivial (.pure _)
  | case4 calls byte bytes ih => exact .emit_bind trivial ih
  | case5 more calls byte bytes taken ih => exact .emit_bind member ih

theorem within_writeRequest {record : ConnectionRecord} (member : record.way ∈ sends)
    (headWrites bodyWrites : List WriteCall) (head body : Bytes) :
    Traced.Emits (Within sends receives) (writeRequest record headWrites bodyWrites head body) := by
  unfold writeRequest
  refine .bind (within_writeAll member _ _) ?_
  split
  · exact .pure _
  · split
    · exact .pure _
    · exact within_writeAll member _ _

theorem within_readHeadLoopTraced {way : List Handle} (member : way ∈ receives) (ending : Ending)
    (chunks : List Chunk) (headers : Bytes) :
    Traced.Emits (Within sends receives) (readHeadLoopTraced way ending chunks headers) := by
  induction chunks generalizing headers with
  | nil =>
      unfold readHeadLoopTraced
      split
      · refine .emit_bind trivial ?_
        cases ending with
        | closed => exact .pure _
        | failed timedOut => exact .pure _
      · exact .pure _
  | cons chunk rest ih =>
      unfold readHeadLoopTraced
      split
      · refine .emit_bind member ?_
        split
        · exact .pure _
        · split
          · exact .pure _
          · exact ih _
      · exact .pure _

theorem within_closing {α : Type} (record : ConnectionRecord) (value : α) :
    Traced.Emits (Within sends receives) (closing record value) :=
  .bind (within_closeConnection record) (.pure _)

theorem within_copyLoopTraced {way : List Handle} (member : way ∈ receives) (toFile : Bool)
    (stream : OutputStream) (ending : Ending) (failure : ℕ) (chunks : List Chunk)
    (writes received : ℕ) (written : Bytes) :
    Traced.Emits (Within sends receives)
      (copyLoopTraced way toFile stream ending failure chunks writes received written) := by
  induction chunks generalizing writes received written with
  | nil =>
      refine .emit_bind trivial ?_
      cases ending with
      | closed => exact .pure _
      | failed timedOut => exact .pure _
  | cons chunk rest ih =>
      unfold copyLoopTraced
      refine .emit_bind member ?_
      split
      · exact .pure _
      · refine .emit_bind trivial ?_
        split
        · exact .pure _
        · exact ih _ _ _

theorem within_copyRemainingBodyTraced {way : List Handle} (member : way ∈ receives) (toFile : Bool)
    (stream : OutputStream) (connection : Connection) (failure : ℕ) (bodyPrefix : Bytes) :
    Traced.Emits (Within sends receives)
      (copyRemainingBodyTraced way toFile stream connection failure bodyPrefix) := by
  unfold copyRemainingBodyTraced
  split
  · exact .pure _
  · split
    · exact within_copyLoopTraced member _ _ _ _ _ _ _ _
    · refine .emit_bind trivial ?_
      split
      · exact .pure _
      · exact within_copyLoopTraced member _ _ _ _ _ _ _ _

theorem within_privateOutput (file : CaptureFile) (outcome : PrivateFile) :
    Traced.Emits (Within sends receives) (privateOutput file outcome) := by
  cases outcome with
  | refused => exact .pure _
  | unbuffered => exact .emit_bind trivial (.pure _)
  | opened => exact .emit_bind trivial (.pure _)

theorem within_writeResponseMetadataTraced (world : NativeWorld) (path : Option Bytes)
    (head : ResponseHead) (receivedLength : ℕ) (bodyFile : Option Bytes) :
    Traced.Emits (Within sends receives)
      (writeResponseMetadataTraced world path head receivedLength bodyFile) := by
  cases path with
  | none => exact .pure _
  | some path =>
      unfold writeResponseMetadataTraced
      refine .bind (within_privateOutput _ _) ?_
      split
      · exact .pure _
      · exact .pure _

/-- Delivering a response sends nothing. -/
theorem within_deliverTraced (world : NativeWorld) (call : Call) (response : Response)
    {record : ConnectionRecord} (member : record.way ∈ receives) :
    Traced.Emits (Within sends receives) (deliverTraced world call response record) := by
  unfold deliverTraced
  split
  · exact .bind (within_copyRemainingBodyTraced member _ _ _ _ _)
      (.bind (within_writeResponseMetadataTraced _ _ _ _ _) (within_closing _ _))
  · unfold deliverToFilesTraced
    split
    · exact within_closing _ _
    · split
      · exact within_closing _ _
      · refine .bind (within_privateOutput _ _) ?_
        split
        · exact within_closing _ _
        · exact .bind (within_copyRemainingBodyTraced member _ _ _ _ _)
            (.bind (within_writeResponseMetadataTraced _ _ _ _ _) (within_closing _ _))

end Exchanges

/-! ## Opening a connection -/

/-- The text that opening a connection may expose: the request of a tunnel, if there is one. -/
def tunnelText (environment : Environment) (host : Bytes) (port : Int32) (useTls : Bool) : Bytes :=
  match proxyConfiguration environment host useTls with
  | none => []
  | some proxy => if useTls && proxy.enabled then tunnelRequest host port else []

theorem tunnelText_within (environment : Environment) (host : Bytes) (port : Int32)
    (useTls : Bool) : tunnelText environment host port useTls <+: tunnelRequest host port := by
  unfold tunnelText
  split
  · exact List.nil_prefix
  · split
    · exact List.prefix_refl _
    · exact List.nil_prefix

/-- The tunnel of a connection that is opened: there is none, or it is asked for by way of a
socket. -/
def TunnelPart (environment : Environment) (calls : TunnelCalls) (host : Bytes) (port : Int32)
    (useTls opened : Bool) (events : List Event) : Prop :=
  (events = [] ∧ (opened = true → tunnelText environment host port useTls = [])) ∨
    ∃ socket errno, socket.kind = HandleKind.socket ∧ useTls = true ∧
      tunnelText environment host port useTls = tunnelRequest host port ∧
      events = (establishProxyTunnel calls socket host port errno).events ∧
      (opened = true → (establishProxyTunnel calls socket host port errno).value.1 = true)

/-- **What happens when a connection is opened.** Apart from its tunnel, nothing is sent and nothing
is received. -/
theorem openConnection_events (environment : Environment) (calls : OpenCalls) (host : Bytes)
    (port : Int32) (useTls : Bool) :
    ∃ before middle after, (openConnection environment calls host port useTls).events =
        .opening host port useTls :: (before ++ (middle ++ after)) ∧
      (∀ event ∈ before, Within ∅ ∅ event) ∧ (∀ event ∈ after, Within ∅ ∅ event) ∧
      TunnelPart environment calls.tunnel host port useTls
        (openConnection environment calls host port useTls).value.1 middle := by
  unfold openConnection TunnelPart tunnelText
  rw [Traced.events_bind, Traced.events_emit, List.singleton_append, Traced.value_bind]
  have nothing : ∀ event ∈ ([] : List Event), Within ∅ ∅ event := fun _ member => by cases member
  cases proxyConfiguration environment host useTls with
  | none => exact ⟨[], [], [], rfl, nothing, nothing, Or.inl ⟨rfl, fun _ => rfl⟩⟩
  | some proxy =>
      dsimp only
      rw [Traced.events_bind, Traced.value_bind]
      have connecting : ∀ event ∈ (connectTcp calls.lookup
          (if proxy.enabled then proxy.port else port.toInt) calls.errno).events,
          Within ∅ ∅ event := within_connectTcp _ _ _
      have isSocket : ∀ socket, (connectTcp calls.lookup
          (if proxy.enabled then proxy.port else port.toInt) calls.errno).value.1 = some socket →
          socket.kind = .socket := fun _ found => kind_connectTcp found
      generalize connectTcp calls.lookup _ calls.errno = connection at connecting isSocket
      obtain ⟨⟨found, errno⟩, connectEvents⟩ := connection
      cases found with
      | none =>
          exact ⟨connectEvents, [], [], rfl, connecting, nothing,
            Or.inl ⟨rfl, fun opened => by cases opened⟩⟩
      | some socket =>
          dsimp only
          split
          · rename_i plain
            rw [plain, Bool.false_and, if_neg Bool.false_ne_true]
            exact ⟨connectEvents, [], [], rfl, connecting, nothing, Or.inl ⟨rfl, fun _ => rfl⟩⟩
          · rename_i secure
            rw [Bool.not_eq_false] at secure
            rw [secure, Bool.true_and]
            split
            · rename_i direct
              rw [if_neg (by rw [direct]; exact Bool.false_ne_true)]
              exact ⟨connectEvents, [], _, rfl, connecting, within_openTls _ _ _ _ _,
                Or.inl ⟨rfl, fun _ => rfl⟩⟩
            · rename_i proxied
              rw [Bool.not_eq_false] at proxied
              rw [if_pos proxied, Traced.events_bind, Traced.value_bind]
              split
              · exact ⟨connectEvents, _, _, rfl, connecting, within_closeUnopened _,
                  Or.inr ⟨socket, errno, isSocket socket rfl, rfl, rfl, rfl,
                    fun opened => by cases opened⟩⟩
              · rename_i made
                rw [Bool.not_eq_false] at made
                exact ⟨connectEvents, _, _, rfl, connecting, within_openTls _ _ _ _ _,
                  Or.inr ⟨socket, errno, isSocket socket rfl, rfl, rfl, rfl, fun _ => made⟩⟩

/-! ## The way of an open connection -/

/-- The identity of the server is configured to be verified, and the handshake succeeds. -/
def Verified (environment : Environment) (calls : TlsCalls) (host : Bytes) : Prop :=
  configuresIdentity environment calls host = true ∧ calls.handshake = .ok ()

theorem verified_openTls {environment : Environment} {calls : TlsCalls} {host : Bytes}
    {socket : Handle} {errno : Errno} {record : ConnectionRecord}
    (opened : (openTls environment calls host socket errno).value = (true, record)) :
    secured record.way = true ∧ Verified environment calls host := by
  rw [value_openTls] at opened
  split at opened
  · cases opened
  · rename_i reached
    rw [Bool.not_eq_false] at reached
    simp only [reachesHandshake, Bool.and_eq_true] at reached
    obtain ⟨⟨_, given⟩, configured⟩ := reached
    obtain ⟨number, tls⟩ := Option.isSome_iff_exists.mp given
    unfold handshakeOutcome at opened
    cases descriptor : calls.setDescriptor with
    | error failure =>
        rw [descriptor] at opened
        cases opened
    | ok =>
        rw [descriptor] at opened
        cases handshake : calls.handshake with
        | error failure =>
            rw [handshake] at opened
            cases opened
        | ok =>
            rw [handshake, tls] at opened
            obtain rfl := (Prod.mk.inj opened).2
            exact ⟨rfl, configured, handshake⟩

/-- **A connection has TLS on it exactly when that was asked for**, and then its server is
verified. -/
theorem verified_openConnection {environment : Environment} {calls : OpenCalls} {host : Bytes}
    {port : Int32} {useTls : Bool} {record : ConnectionRecord}
    (opened : (openConnection environment calls host port useTls).value = (true, record)) :
    secured record.way = useTls ∧ (useTls = true → Verified environment calls.tls host) := by
  have opened' : openedWith environment calls host port useTls calls.errno = (true, record) :=
    opened
  cases configured : proxyConfiguration environment host useTls with
  | none =>
      rw [openedWith_of_unconfigured configured] at opened'
      cases opened'
  | some proxy =>
      rw [openedWith_eq configured] at opened'
      cases outcome : tcpOutcome calls.lookup (hopPort proxy port) with
      | mk found left =>
          rw [outcome] at opened'
          cases found with
          | none => cases opened'
          | some socket =>
              have connected : (connectTcp calls.lookup (hopPort proxy port) calls.errno).value.1 =
                  some socket := by rw [value_connectTcp, outcome]
              dsimp only at opened'
              split at opened'
              · rename_i plain
                obtain rfl := (Prod.mk.inj opened').2
                rw [plain]
                exact ⟨secured_socket (kind_connectTcp connected), fun secure => by cases secure⟩
              · rename_i secure
                rw [Bool.not_eq_false] at secure
                split at opened'
                · cases opened'
                · rw [secure]
                  exact (verified_openTls opened').imp_right fun verified _ => verified

end IcuTransport.Client
