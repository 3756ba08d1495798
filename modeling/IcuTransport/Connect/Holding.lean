import IcuTransport.Connect.Stages

/-!
# Which handles a connection holds

Two monitors follow a run event by event: one keeps the handles that are held, the other what has
been put out. Whichever call fails, exactly the handles of the record are held after
`openConnection` (`custody_openConnection`), and none after `closeConnection`
(`custody_closeConnection`). A socket that is given up for the next address is released before the
next one is acquired.
-/

set_option autoImplicit false

namespace IcuTransport.Connect

open Ascii TextScan Tracing

/-! ## The monitors -/

/-- The monitor of the handles. -/
def custody (held : List Handle) (event : Event) : Option (List Handle) :=
  Custody.step Handle.kind held event.action

theorem watch_custody (held : List Handle) (events : List Event) :
    watch custody held events =
      watch (Custody.step Handle.kind) held (events.map Event.action) := by
  rw [watch, watch, List.foldlM_map]
  rfl

/-- What a run has put out: the files it created, in order, and the bytes it wrote. -/
structure Output where
  files : List CaptureFile
  written : Bytes
  deriving DecidableEq, Repr

/-- Nothing has been put out. -/
def Output.nothing : Output := ⟨[], []⟩

/-- The monitor of the output: a connection is opened only before anything is put out. -/
def publish (output : Output) : Event → Option Output
  | .opening _ _ _ => if output = .nothing then some output else none
  | .created file => some { output with files := output.files ++ [file] }
  | .wrote bytes => some { output with written := output.written ++ bytes }
  | _ => some output

/-- Both monitors. -/
def account : List Handle × Output → Event → Option (List Handle × Output) := both custody publish

section Accounts

variable {held : List Handle} {handle : Handle} {output : Output}

theorem account_opening {host : Bytes} {port : Int32} {useTls : Bool} :
    account ([], .nothing) (.opening host port useTls) = some ([], .nothing) := rfl

theorem account_acquired (fresh : handle.kind ∉ held.map Handle.kind) :
    account (held, output) (.acquired handle) = some (handle :: held, output) := by
  have allowed : Custody.Allowed Handle.kind held (.acquire handle) := fresh
  have accepted : custody held (.acquired handle) = some (handle :: held) :=
    Custody.step_of_allowed allowed
  rw [account, both, accepted]
  rfl

theorem account_released :
    account (handle :: held, output) (.released handle) = some (held, output) := by
  have allowed : Custody.Allowed Handle.kind (handle :: held) (.release handle) :=
    List.mem_cons_self
  have accepted : custody (handle :: held) (.released handle) = some held :=
    (Custody.step_of_allowed allowed).trans (congrArg some (List.erase_cons_head handle held))
  rw [account, both, accepted]
  rfl

theorem account_released_of_mem (member : handle ∈ held) :
    account (held, output) (.released handle) = some (held.erase handle, output) := by
  have allowed : Custody.Allowed Handle.kind held (.release handle) := member
  have accepted : custody held (.released handle) = some (held.erase handle) :=
    Custody.step_of_allowed allowed
  rw [account, both, accepted]
  rfl

/-- Handles are touched while they are held. -/
theorem custody_touch {event : Event} {handles : List Handle}
    (touches : event.action = .touch handles) (within : handles ⊆ held) :
    custody held event = some held := by
  have allowed : Custody.Allowed Handle.kind held (.touch handles) := fun _ member => within member
  rw [custody, touches]
  exact Custody.step_of_allowed allowed

theorem account_used {handles : List Handle} (within : handles ⊆ held) :
    account (held, output) (.used handles) = some (held, output) := by
  rw [account, both, custody_touch rfl within]
  rfl

theorem account_sent {handles : List Handle} {bytes : Bytes} (within : handles ⊆ held) :
    account (held, output) (.sent handles bytes) = some (held, output) := by
  rw [account, both, custody_touch rfl within]
  rfl

theorem account_received {handles : List Handle} {bytes : Bytes} (within : handles ⊆ held) :
    account (held, output) (.received handles bytes) = some (held, output) := by
  rw [account, both, custody_touch rfl within]
  rfl

end Accounts

variable {output : Output}

/-! ## The addresses of a host -/

theorem custody_abandon (calls : AddressCalls) (socket : Handle) (errno : Errno) :
    Guarded account ([socket, addressList], output) (abandon calls socket errno)
      fun found => (found.1.toList ++ [addressList], output) :=
  Guarded.emit_bind account_released (Guarded.pure rfl)

theorem custody_connectSocket (calls : AddressCalls) (socket : Handle) (errno : Errno) :
    Guarded account ([socket, addressList], output) (connectSocket calls socket errno)
      fun _ => ([socket, addressList], output) := by
  have held : [socket] ⊆ [socket, addressList] := by simp
  unfold connectSocket
  refine Guarded.emit_bind (account_used held) ?_
  split
  · exact Guarded.pure rfl
  · exact Guarded.emit_bind (account_used held) (Guarded.pure rfl)
  · exact Guarded.pure rfl

theorem custody_connectAddress (calls : AddressCalls) (errno : Errno) :
    Guarded account ([addressList], output) (connectAddress calls errno)
      fun found => (found.1.toList ++ [addressList], output) := by
  have held : ∀ socket : Handle, [socket] ⊆ [socket, addressList] := by simp
  unfold connectAddress
  split
  · exact Guarded.pure rfl
  · rename_i number _
    refine Guarded.emit_bind (account_acquired (by simp [addressList])) ?_
    refine Guarded.emit_bind (account_used (held _)) ?_
    split
    · exact custody_abandon _ _ _
    · exact custody_abandon _ _ _
    · refine Guarded.bind (custody_connectSocket _ _ _) ?_
      dsimp only
      split
      · exact custody_abandon _ _ _
      · refine Guarded.emit_bind (account_used (held _)) ?_
        split
        · exact custody_abandon _ _ _
        · exact Guarded.emit_bind (account_used (held _)) (Guarded.pure rfl)

theorem custody_connectAddresses (addresses : List AddressCalls) (errno : Errno) :
    Guarded account ([addressList], output) (connectAddresses addresses errno)
      fun found => (found.1.toList ++ [addressList], output) := by
  induction addresses generalizing errno with
  | nil => exact Guarded.pure rfl
  | cons calls rest ih =>
      refine Guarded.emit_bind (account_used (List.Subset.refl _)) ?_
      refine Guarded.bind (custody_connectAddress calls errno) ?_
      cases (connectAddress calls errno).value with
      | mk found errno =>
          cases found with
          | none => exact ih errno
          | some socket => exact Guarded.pure rfl

/-- The handle of a connected socket is a socket. -/
theorem kind_addressSocket {calls : AddressCalls} {socket : Handle}
    (given : addressSocket calls = some socket) : socket.kind = .socket := by
  unfold addressSocket at given
  split at given
  · cases given
  · split at given
    · obtain rfl := Option.some.inj given
      rfl
    · cases given

theorem kind_connectAddresses {addresses : List AddressCalls} {errno : Errno} {socket : Handle}
    (found : (connectAddresses addresses errno).value.1 = some socket) : socket.kind = .socket := by
  rw [value_connectAddresses] at found
  obtain ⟨calls, _, given⟩ := List.exists_of_findSome?_eq_some found
  exact kind_addressSocket given

theorem custody_connectTcp (lookup : Option (List AddressCalls)) (port : ℤ) (errno : Errno) :
    Guarded account ([], output) (connectTcp lookup port errno)
      fun found => (found.1.toList, output) := by
  unfold connectTcp
  split
  · exact Guarded.pure rfl
  · split
    · exact Guarded.pure rfl
    · rename_i addresses
      refine Guarded.emit_bind (account_acquired List.not_mem_nil) ?_
      refine Guarded.bind (custody_connectAddresses addresses errno) ?_
      have isSocket : ∀ socket, (connectAddresses addresses errno).value.1 = some socket →
          socket.kind = .socket := fun _ found => kind_connectAddresses found
      refine Guarded.emit_bind (account_released_of_mem
        (List.mem_append_right _ List.mem_cons_self)) (Guarded.pure ?_)
      cases found : (connectAddresses addresses errno).value.1 with
      | none => rfl
      | some socket =>
          have other : socket ≠ addressList := by
            rintro rfl
            cases isSocket _ found
          simp [other]

/-! ## The tunnel -/

theorem custody_sendTunnelRequest (socket : Handle) (sends : List ℕ) (bytes : Bytes) :
    Guarded account ([socket], output) (sendTunnelRequest socket sends bytes)
      fun _ => ([socket], output) := by
  induction sends generalizing bytes with
  | nil =>
      cases bytes with
      | nil => exact Guarded.pure rfl
      | cons byte bytes => exact Guarded.pure rfl
  | cons more sends ih =>
      cases bytes with
      | nil => exact Guarded.pure rfl
      | cons byte bytes =>
          exact Guarded.emit_bind (account_sent (List.Subset.refl _)) (ih _)

theorem custody_receiveTunnelReply (socket : Handle) (reply response : Bytes) :
    Guarded account ([socket], output) (receiveTunnelReply socket reply response)
      fun _ => ([socket], output) := by
  induction reply generalizing response with
  | nil => exact Guarded.pure rfl
  | cons byte reply ih =>
      unfold receiveTunnelReply
      split
      · refine Guarded.emit_bind (account_received (List.Subset.refl _)) ?_
        split
        · exact Guarded.pure rfl
        · exact ih _
      · exact Guarded.pure rfl

theorem custody_establishProxyTunnel (calls : TunnelCalls) (socket : Handle) (host : Bytes)
    (port : Int32) (errno : Errno) :
    Guarded account ([socket], output) (establishProxyTunnel calls socket host port errno)
      fun _ => ([socket], output) := by
  unfold establishProxyTunnel
  split
  · exact Guarded.pure rfl
  · refine Guarded.bind (custody_sendTunnelRequest _ _ _) ?_
    split
    · exact Guarded.pure rfl
    · refine Guarded.bind (custody_receiveTunnelReply _ _ _) ?_
      split
      · exact Guarded.pure rfl
      · exact Guarded.pure rfl
      · exact Guarded.pure rfl

/-! ## The connection -/

theorem custody_releaseHandle (handle : Option Handle) (held : List Handle) :
    Guarded account (handle.toList ++ held, output) (releaseHandle handle)
      fun _ => (held, output) := by
  cases handle with
  | none => exact Guarded.pure rfl
  | some handle => exact Guarded.emit account_released

/-- **Closing a connection releases its handles.** -/
theorem custody_closeConnection (record : ConnectionRecord) :
    Guarded account (record.handles, output) (closeConnection record) fun _ => ([], output) := by
  obtain ⟨socket, context, tls, failureCode⟩ := record
  have rest : Guarded account (context.toList ++ socket.toList, output) (do
      releaseHandle context
      releaseHandle socket
      pure (⟨none, none, none, failureCode⟩ : ConnectionRecord)) fun _ => ([], output) := by
    refine Guarded.bind (custody_releaseHandle context socket.toList) ?_
    have last : Guarded account (socket.toList ++ [], output) (releaseHandle socket) fun _ =>
        ([], output) := custody_releaseHandle socket []
    rw [List.append_nil] at last
    exact Guarded.bind last (Guarded.pure rfl)
  cases tls with
  | none => exact rest
  | some tls =>
      refine Guarded.emit_bind (account_used ?_) (Guarded.emit_bind account_released rest)
      simp [ConnectionRecord.handles]

theorem custody_closeUnopened {record : ConnectionRecord} {held : List Handle}
    (same : record.handles = held) :
    Guarded account (held, output) (closeUnopened record) fun opened =>
      (opened.2.handles, output) := by
  rw [← same]
  refine Guarded.bind (custody_closeConnection record) (Guarded.pure ?_)
  rw [value_closeConnection]
  rfl

theorem kind_connectTcp {lookup : Option (List AddressCalls)} {port : ℤ} {errno : Errno}
    {socket : Handle} (found : (connectTcp lookup port errno).value.1 = some socket) :
    socket.kind = .socket := by
  rw [value_connectTcp] at found
  unfold tcpOutcome at found
  split at found
  · cases found
  · cases lookup with
    | none => cases found
    | some addresses =>
        obtain ⟨calls, _, given⟩ := List.exists_of_findSome?_eq_some found
        exact kind_addressSocket given

theorem custody_openTls {environment : Environment} {calls : TlsCalls} {host : Bytes}
    {socket : Handle} {errno : Errno} (isSocket : socket.kind = .socket) :
    Guarded account ([socket], output) (openTls environment calls host socket errno)
      fun opened => (opened.2.handles, output) := by
  unfold openTls
  split
  · exact custody_closeUnopened rfl
  · refine Guarded.emit_bind (account_acquired ?_) ?_
    · simp [isSocket]
    split
    · exact custody_closeUnopened rfl
    · exact custody_closeUnopened rfl
    · refine Guarded.emit_bind (account_acquired ?_) ?_
      · simp [isSocket]
      split
      · exact custody_closeUnopened rfl
      · split
        · exact custody_closeUnopened rfl
        · refine Guarded.emit_bind (account_used ?_) ?_
          · simp
          split
          · exact custody_closeUnopened rfl
          · exact Guarded.pure rfl

/-- **Whichever call fails, exactly the handles of the record are held** after `open_connection`. -/
theorem custody_openConnection (environment : Environment) (calls : OpenCalls) (host : Bytes)
    (port : Int32) (useTls : Bool) :
    Guarded account ([], .nothing) (openConnection environment calls host port useTls)
      fun opened => (opened.2.handles, .nothing) := by
  unfold openConnection
  refine Guarded.emit_bind account_opening ?_
  split
  · exact Guarded.pure rfl
  · rename_i proxy _
    refine Guarded.bind (custody_connectTcp _ _ _) ?_
    cases connected : (connectTcp calls.lookup (if proxy.enabled then proxy.port else port.toInt)
      calls.errno).value with
    | mk found errno =>
        cases found with
        | none => exact Guarded.pure rfl
        | some socket =>
            have isSocket : socket.kind = .socket := kind_connectTcp (congrArg Prod.fst connected)
            dsimp only
            split
            · exact Guarded.pure rfl
            · split
              · exact custody_openTls isSocket
              · refine Guarded.bind (custody_establishProxyTunnel _ _ _ _ _) ?_
                split
                · exact custody_closeUnopened rfl
                · exact custody_openTls isSocket

end IcuTransport.Connect
