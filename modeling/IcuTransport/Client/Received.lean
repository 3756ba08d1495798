import IcuTransport.Client.Confidential
import IcuTransport.Client.Output

/-!
# What is received

The bytes a trace receives are read off its events by the way they take (`receivedThrough`). Opening
a connection receives the reply of a proxy only (`received_openConnection`). After it a turn
receives a part of what its connection delivers, and nothing before its request is written; what it
puts out is a part of what it received (`received_turn`).

Each part is bounded: the reply and the head by the limit on heads, and the body of a capture by the
limit on captures, with at most one read beyond either.
-/

set_option autoImplicit false

namespace IcuTransport.Client

open Ascii TextScan TurnLoop Tracing Wire Redirect Capture Connect

/-! ## Received bytes -/

/-- The bytes that an event receives, with or without TLS. -/
def receivedThroughIn (safe : Bool) : Event → Bytes
  | .received way bytes => if secured way = safe then bytes else []
  | _ => []

/-- The bytes that events receive, with or without TLS, in order. -/
def receivedThrough (safe : Bool) (events : List Event) : Bytes :=
  events.flatMap (receivedThroughIn safe)

theorem receivedThrough_append (safe : Bool) (first second : List Event) :
    receivedThrough safe (first ++ second) =
      receivedThrough safe first ++ receivedThrough safe second :=
  List.flatMap_append

/-- Where nothing is received, nothing is received up to a cut. -/
theorem receivedThrough_of_isPrefix {safe : Bool} {part events : List Event} (cut : part <+: events)
    (nothing : receivedThrough safe events = []) : receivedThrough safe part = [] := by
  have start : receivedThrough safe part <+: receivedThrough safe events := cut.flatMap _
  rwa [nothing, List.prefix_nil] at start

section Ways

variable {sends receives : Set (List Handle)} {way : List Handle} {events : List Event}

theorem receivedThrough_of_other {safe : Bool}
    (within : ∀ event ∈ events, Within sends receives event)
    (other : ∀ way ∈ receives, secured way ≠ safe) : receivedThrough safe events = [] := by
  refine List.flatMap_eq_nil_iff.mpr fun event member => ?_
  cases event with
  | received way bytes => exact if_neg (other way (within _ member))
  | _ => rfl

/-- What is received by one way is received in the clear or through TLS as a whole. -/
theorem receivedThrough_of_way {safe : Bool}
    (within : ∀ event ∈ events, Within sends {way} event) (same : secured way = safe) :
    receivedThrough safe events = receivedBytes events := by
  refine List.flatMap_congr fun event member => ?_
  cases event with
  | received path bytes =>
      obtain rfl := Set.mem_singleton_iff.mp (within _ member)
      exact if_pos same
  | _ => rfl

theorem receivedBytes_of_within (within : ∀ event ∈ events, Within sends ∅ event) :
    receivedBytes events = [] := by
  refine List.flatMap_eq_nil_iff.mpr fun event member => ?_
  cases event with
  | received path bytes => exact absurd (within _ member) (Set.notMem_empty _)
  | _ => rfl

end Ways

theorem receivedBytes_received (way : List Handle) (bytes : Bytes) (events : List Event) :
    receivedBytes (.received way bytes :: events) = bytes ++ receivedBytes events := rfl

theorem receivedBytes_wrote (bytes : Bytes) (events : List Event) :
    receivedBytes (.wrote bytes :: events) = receivedBytes events := rfl

/-! ## Opening -/

/-- What is received of the reply of a proxy is the start of what it sends, within the limit. -/
theorem receivedBytes_receiveTunnelReply (socket : Handle) (reply response : Bytes) :
    receivedBytes (receiveTunnelReply socket reply response).events <+: reply ∧
      (response.length ≤ maxHeaderBytes →
        response.length + (receivedBytes (receiveTunnelReply socket reply response).events).length ≤
          maxHeaderBytes) := by
  induction reply generalizing response with
  | nil => exact ⟨List.nil_prefix, fun bound => bound⟩
  | cons byte reply ih =>
      unfold receiveTunnelReply
      split
      · rename_i room
        obtain ⟨start, bound⟩ := ih (response ++ [byte])
        rw [List.length_append, List.length_singleton] at bound
        rw [Traced.events_bind, Traced.events_emit, List.singleton_append, receivedBytes_cons]
        split
        · refine ⟨⟨reply, rfl⟩, fun _ => ?_⟩
          show response.length + 1 ≤ maxHeaderBytes
          omega
        · refine ⟨(List.prefix_append_right_inj [byte]).mpr start, fun _ => ?_⟩
          have more := bound (by omega)
          show response.length + ([byte] ++ receivedBytes _).length ≤ maxHeaderBytes
          rw [List.length_append, List.length_singleton]
          omega
      · exact ⟨List.nil_prefix, fun bound => bound⟩

/-- The same for the tunnel as a whole. -/
theorem receivedBytes_tunnel (calls : TunnelCalls) (socket : Handle) (host : Bytes) (port : Int32)
    (errno : Errno) :
    receivedBytes (establishProxyTunnel calls socket host port errno).events <+: calls.reply ∧
      (receivedBytes (establishProxyTunnel calls socket host port errno).events).length ≤
        maxHeaderBytes := by
  by_cases fits : (tunnelRequest host port).length < tunnelRequestBytes
  · by_cases sent : (sendTunnelRequest socket calls.sends (tunnelRequest host port)).value = true
    · rw [receivedBytes_establishProxyTunnel errno fits sent]
      obtain ⟨start, bound⟩ := receivedBytes_receiveTunnelReply socket calls.reply []
      have whole := bound (Nat.zero_le _)
      rw [List.length_nil, Nat.zero_add] at whole
      exact ⟨start, whole⟩
    · rw [Bool.not_eq_true] at sent
      have nothing :
          receivedBytes (establishProxyTunnel calls socket host port errno).events = [] := by
        rw [establishProxyTunnel, if_neg (Nat.not_le.mpr fits), Traced.events_bind,
          receivedBytes_append, receivedBytes_sendTunnelRequest, sent]
        rfl
      rw [nothing]
      exact ⟨List.nil_prefix, Nat.zero_le _⟩
  · rw [establishProxyTunnel, if_pos (Nat.not_lt.mp fits)]
    exact ⟨List.nil_prefix, Nat.zero_le _⟩

/-- **Opening a connection receives the reply of a proxy only**, by way of a socket. -/
theorem received_openConnection (environment : Environment) (calls : OpenCalls) (host : Bytes)
    (port : Int32) (useTls : Bool) :
    ∃ rest, (openConnection environment calls host port useTls).events =
        .opening host port useTls :: rest ∧
      receivedThrough true rest = [] ∧ receivedThrough false rest = receivedBytes rest ∧
      receivedBytes rest <+: (if useTls then calls.tunnel.reply else []) ∧
      (receivedBytes rest).length ≤ maxHeaderBytes := by
  obtain ⟨before, middle, after, events, early, late, tunnel⟩ :=
    openConnection_events environment calls host port useTls
  have silent : ∀ {events : List Event}, (∀ event ∈ events, Within ∅ ∅ event) →
      ∀ safe, receivedThrough safe events = [] :=
    fun within _ => receivedThrough_of_other within fun _ member => absurd member
      (Set.notMem_empty _)
  refine ⟨before ++ (middle ++ after), events, ?_⟩
  simp only [receivedThrough_append, receivedBytes_append, silent early, silent late,
    receivedBytes_of_within early, receivedBytes_of_within late, List.nil_append, List.append_nil]
  rcases tunnel with ⟨rfl, _⟩ | ⟨socket, errno, isSocket, rfl, _, rfl, _⟩
  · exact ⟨rfl, rfl, List.nil_prefix, Nat.zero_le _⟩
  · have bare : ∀ safe, safe = true → ∀ way ∈ ({[socket]} : Set (List Handle)),
        secured way ≠ safe := by
      intro safe secure way member
      rw [Set.mem_singleton_iff.mp member, secured_socket isSocket, secure]
      exact Bool.false_ne_true
    have within : Traced.Emits (Within Set.univ {[socket]})
        (establishProxyTunnel calls.tunnel socket host port errno) :=
      within_establishProxyTunnel (Set.mem_univ _) (Set.mem_singleton _) _ _ _ _
    refine ⟨receivedThrough_of_other within (bare true rfl),
      receivedThrough_of_way within (secured_socket isSocket), ?_⟩
    exact receivedBytes_tunnel _ _ _ _ _

/-! ## Reading -/

/-- **What reading a head receives**: a part of the stream, with the limit on heads. A head that is
accepted has been received with the start of the body, and nothing else has. -/
theorem received_readHeadLoop (way : List Handle) (ending : Ending) (chunks : List Chunk)
    (headers : Bytes) (bound : headers.length ≤ maxHeaderBytes) :
    receivedBytes (readHeadLoopTraced way ending chunks headers).events <+: delivered chunks ∧
      headers.length +
        (receivedBytes (readHeadLoopTraced way ending chunks headers).events).length <
        maxHeaderBytes + readCapacity ∧
      ∀ head bodyPrefix rest,
        (readHeadLoopTraced way ending chunks headers).value = .accepted head bodyPrefix rest →
          delivered chunks =
              receivedBytes
                (readHeadLoopTraced way ending chunks headers).events ++ delivered rest ∧
            ∃ text, headers ++ receivedBytes (readHeadLoopTraced way ending chunks headers).events =
              text ++ bodyPrefix := by
  induction chunks generalizing headers with
  | nil =>
      have room : headers.length < maxHeaderBytes + readCapacity := by
        have positive : 0 < readCapacity := by decide
        omega
      unfold readHeadLoopTraced
      split
      · cases ending with
        | closed => exact ⟨List.nil_prefix, room, fun _ _ _ accepted => by cases accepted⟩
        | failed timedOut => exact ⟨List.nil_prefix, room, fun _ _ _ accepted => by cases accepted⟩
      · exact ⟨List.nil_prefix, room, fun _ _ _ accepted => by cases accepted⟩
  | cons chunk rest ih =>
      have fits := chunk.fits
      unfold readHeadLoopTraced
      split
      · rename_i room
        rw [Traced.events_bind, Traced.value_bind, Traced.events_emit, List.singleton_append,
          receivedBytes_received, delivered_cons]
        have first : chunk.bytes ++ receivedBytes [] <+: chunk.bytes ++ delivered rest :=
          (List.prefix_append_right_inj _).mpr List.nil_prefix
        have short : headers.length + (chunk.bytes ++ receivedBytes []).length <
            maxHeaderBytes + readCapacity := by
          rw [receivedBytes_nil, List.append_nil]
          omega
        split
        · exact ⟨first, short, fun _ _ _ accepted => by cases accepted⟩
        · rename_i within
          rw [Nat.not_lt] at within
          cases found : findHeaderEnd (headers ++ chunk.bytes) with
          | some parts =>
              obtain ⟨head, available⟩ := parts
              refine ⟨first, short, fun _ bodyPrefix left accepted => ?_⟩
              obtain ⟨_, rfl, rfl⟩ := finishHead_accepted accepted
              refine ⟨by rw [Traced.events_pure, receivedBytes_nil, List.append_nil], head, ?_⟩
              rw [Traced.events_pure, receivedBytes_nil, List.append_nil]
              exact (findHeaderEnd_eq_some_iff.mp found).1
          | none =>
              obtain ⟨start, bounded, accepts⟩ := ih (headers ++ chunk.bytes)
                (by rw [List.length_append]; exact within)
              rw [List.length_append] at bounded
              refine ⟨(List.prefix_append_right_inj _).mpr start, ?_, ?_⟩
              · rw [List.length_append, ← Nat.add_assoc]
                exact bounded
              · intro head bodyPrefix left accepted
                obtain ⟨split, text, whole⟩ := accepts head bodyPrefix left accepted
                refine ⟨by rw [split, List.append_assoc], text, ?_⟩
                rw [← List.append_assoc]
                exact whole
      · have room : headers.length < maxHeaderBytes + readCapacity := by
          have positive : 0 < readCapacity := by decide
          omega
        exact ⟨List.nil_prefix, room, fun _ _ _ accepted => by cases accepted⟩

/-! ## Copying -/

/-- **What copying receives**: a part of the stream, of which what it writes is the start. A capture
receives at most one read beyond its limit. -/
theorem received_copyLoop (way : List Handle) (toFile : Bool) (stream : OutputStream)
    (ending : Ending) (failure : ℕ) (chunks : List Chunk) (writes received : ℕ) (written : Bytes) :
    receivedBytes
        (copyLoopTraced way toFile stream ending failure chunks writes received written).events <+:
          delivered chunks ∧
      (∃ added, (copyLoopTraced way toFile stream ending failure chunks writes received
          written).value.written = written ++ added ∧
        added <+: receivedBytes
          (copyLoopTraced way toFile stream ending failure chunks writes received written).events) ∧
      (toFile = true → received ≤ maxCaptureBytes →
        received + (receivedBytes (copyLoopTraced way toFile stream ending failure chunks writes
          received written).events).length ≤ maxCaptureBytes + readCapacity) := by
  induction chunks generalizing writes received written with
  | nil =>
      have same : ∃ added, written = written ++ added ∧ added <+: [] :=
        ⟨[], (List.append_nil _).symm, List.prefix_refl _⟩
      cases ending with
      | closed => exact ⟨List.nil_prefix, same, fun _ bound => Nat.le_add_right_of_le bound⟩
      | failed timedOut =>
        exact ⟨List.nil_prefix, same, fun _ bound => Nat.le_add_right_of_le bound⟩
  | cons chunk rest ih =>
      have fits := chunk.fits
      unfold copyLoopTraced
      rw [Traced.events_bind, Traced.value_bind, Traced.events_emit, List.singleton_append,
        receivedBytes_received, delivered_cons]
      have first : chunk.bytes ++ receivedBytes [] <+: chunk.bytes ++ delivered rest :=
        (List.prefix_append_right_inj _).mpr List.nil_prefix
      have bounded : received ≤ maxCaptureBytes →
          received + (chunk.bytes ++ receivedBytes []).length ≤ maxCaptureBytes + readCapacity := by
        intro bound
        rw [receivedBytes_nil, List.append_nil]
        omega
      split
      · exact ⟨first, ⟨[], (List.append_nil _).symm, List.nil_prefix⟩, fun _ => bounded⟩
      · rename_i within
        have start : (writeOutput (stream.writes writes) chunk.bytes).1 <+: chunk.bytes :=
          writeOutput_prefix _ _
        rw [Traced.events_bind, Traced.value_bind, Traced.events_emit, List.singleton_append,
          receivedBytes_wrote]
        split
        · refine ⟨first, ⟨_, rfl, ?_⟩, fun _ => bounded⟩
          exact start.trans (List.prefix_append _ _)
        · rename_i complete
          rw [Bool.not_eq_false] at complete
          have taken : (writeOutput (stream.writes writes) chunk.bytes).1 = chunk.bytes :=
            writeOutput_true (Prod.ext rfl complete)
          obtain ⟨more, ⟨added, split, start'⟩, bound⟩ := ih (writes + 1)
            (received + chunk.bytes.length)
            (written ++ (writeOutput (stream.writes writes) chunk.bytes).1)
          refine ⟨(List.prefix_append_right_inj _).mpr more, ⟨chunk.bytes ++ added, ?_, ?_⟩, ?_⟩
          · rw [split, taken, List.append_assoc]
          · exact (List.prefix_append_right_inj _).mpr start'
          · intro capture room
            have left := captureRoom_eq room
            have small : chunk.bytes.length ≤ captureRoom received :=
              Nat.not_lt.mp fun large => within ⟨capture, large⟩
            rw [List.length_append, ← Nat.add_assoc]
            exact bound capture (by omega)

/-- The same for the copy of a body. -/
theorem received_copyRemainingBody (way : List Handle) (toFile : Bool) (stream : OutputStream)
    (connection : Connection) (failure : ℕ) (bodyPrefix : Bytes) :
    receivedBytes
        (copyRemainingBodyTraced way toFile stream connection failure bodyPrefix).events <+:
          delivered connection.chunks ∧
      (copyRemainingBodyTraced way toFile stream connection failure bodyPrefix).value.written <+:
        bodyPrefix ++ receivedBytes
          (copyRemainingBodyTraced way toFile stream connection failure bodyPrefix).events ∧
      (toFile = true → (receivedBytes (copyRemainingBodyTraced way toFile stream connection failure
        bodyPrefix).events).length ≤ maxCaptureBytes + readCapacity) := by
  unfold copyRemainingBodyTraced
  split
  · exact ⟨List.nil_prefix, List.nil_prefix, fun _ => Nat.zero_le _⟩
  · rename_i allowed
    split
    · rename_i empty
      obtain ⟨more, ⟨added, split, start⟩, bound⟩ := received_copyLoop way toFile stream
        connection.ending failure connection.chunks 0 0 []
      rw [split, List.nil_append, empty, List.nil_append]
      refine ⟨more, start, fun capture => ?_⟩
      have bounded := bound capture (Nat.zero_le _)
      rwa [Nat.zero_add] at bounded
    · rw [Traced.events_bind, Traced.value_bind, Traced.events_emit, List.singleton_append,
        receivedBytes_wrote]
      split
      · refine ⟨List.nil_prefix, ?_, fun _ => Nat.zero_le _⟩
        have within := writeOutput_prefix (stream.writes 0) bodyPrefix
        exact within.trans (List.prefix_append _ _)
      · rename_i complete
        rw [Bool.not_eq_false] at complete
        have taken : (writeOutput (stream.writes 0) bodyPrefix).1 = bodyPrefix :=
          writeOutput_true (Prod.ext rfl complete)
        rw [taken]
        obtain ⟨more, ⟨added, split, start⟩, bound⟩ := received_copyLoop way toFile stream
          connection.ending failure connection.chunks 1 bodyPrefix.length bodyPrefix
        refine ⟨more, ?_, fun capture => ?_⟩
        · rw [split]
          exact (List.prefix_append_right_inj _).mpr start
        · have bounded := bound capture (Nat.not_lt.mp fun large => allowed ⟨capture, large⟩)
          omega

/-! ## One exchange -/

theorem receivedBytes_writeRequest (record : ConnectionRecord)
    (headWrites bodyWrites : List WriteCall)
    (head body : Bytes) :
    receivedBytes (writeRequest record headWrites bodyWrites head body).events = [] :=
  receivedBytes_of_within (within_writeRequest (Set.mem_univ _) headWrites bodyWrites head body)

theorem receivedBytes_closing {α : Type} (record : ConnectionRecord) (value : α) :
    receivedBytes (closing record value).events = [] := by
  have within : Traced.Emits (Within ∅ ∅) (closing record value) := within_closing record value
  exact receivedBytes_of_within within

theorem receivedBytes_metadata (world : NativeWorld) (path : Option Bytes) (head : ResponseHead)
    (receivedLength : ℕ) (bodyFile : Option Bytes) :
    receivedBytes (writeResponseMetadataTraced world path head receivedLength bodyFile).events =
      [] := by
  have within : Traced.Emits (Within ∅ ∅)
      (writeResponseMetadataTraced world path head receivedLength bodyFile) :=
    within_writeResponseMetadataTraced world path head receivedLength bodyFile
  exact receivedBytes_of_within within

/-- **What delivering receives**: a part of the stream, of which what is put out is the start, after
the start of the body. -/
theorem received_deliver (world : NativeWorld) (call : Call) (response : Response)
    (record : ConnectionRecord) :
    receivedBytes (deliverTraced world call response record).events <+:
        delivered response.connection.chunks ∧
      (deliverOutput world call response).written <+:
        response.bodyPrefix ++ receivedBytes (deliverTraced world call response record).events ∧
      (call.bodyOutputPath.isSome = true →
        (receivedBytes (deliverTraced world call response record).events).length ≤
          maxCaptureBytes + readCapacity) := by
  unfold deliverTraced deliverOutput
  cases call.bodyOutputPath with
  | none =>
      obtain ⟨part, start, _⟩ := received_copyRemainingBody record.way false world.stdout
        response.connection 13 response.bodyPrefix
      dsimp only [deliverToStdoutTraced]
      rw [Traced.events_bind, Traced.events_bind, receivedBytes_append, receivedBytes_append,
        receivedBytes_metadata, receivedBytes_closing, List.append_nil, List.append_nil]
      rw [value_copyRemainingBodyTraced] at start
      exact ⟨part, start, fun capture => by cases capture⟩
  | some path =>
      dsimp only
      unfold deliverToFilesTraced filesOutput
      split
      · rw [receivedBytes_closing]
        exact ⟨List.nil_prefix, List.nil_prefix, fun _ => Nat.zero_le _⟩
      · split
        · rw [receivedBytes_closing]
          exact ⟨List.nil_prefix, List.nil_prefix, fun _ => Nat.zero_le _⟩
        · have created : receivedBytes (privateOutput .body world.bodyFile).events = [] := by
            have within : Traced.Emits (Within ∅ ∅) (privateOutput .body world.bodyFile) :=
              within_privateOutput _ _
            exact receivedBytes_of_within within
          rw [Traced.events_bind, receivedBytes_append, created, List.nil_append,
            value_privateOutput]
          split
          · rw [receivedBytes_closing]
            exact ⟨List.nil_prefix, List.nil_prefix, fun _ => Nat.zero_le _⟩
          · obtain ⟨part, start, bound⟩ := received_copyRemainingBody record.way true world.body
              response.connection 13 response.bodyPrefix
            rw [Traced.events_bind, Traced.events_bind, receivedBytes_append, receivedBytes_append,
              receivedBytes_metadata, receivedBytes_closing, List.append_nil, List.append_nil]
            rw [value_copyRemainingBodyTraced] at start
            exact ⟨part, start, fun _ => bound rfl⟩

/-- What comes after the request: it is by the way of the connection, and what is received is a part
of the stream. Nothing is received when the request was not written. -/
structure Reading (record : ConnectionRecord) (stream : Bytes) (written : Bool)
    (events : List Event) : Prop where
  within : ∀ event ∈ events, Within ∅ {record.way} event
  part : receivedBytes events <+: stream
  requested : written = false → receivedBytes events = []

/-- Reading goes on with what is left of the stream. -/
theorem Reading.goOn {record : ConnectionRecord} {stream left : Bytes} {first rest : List Event}
    (reading : Reading record stream true first) (split : stream = receivedBytes first ++ left)
    (within : ∀ event ∈ rest, Within ∅ {record.way} event) (part : receivedBytes rest <+: left) :
    Reading record stream true (first ++ rest) := by
  refine ⟨?_, ?_, fun unwritten => by cases unwritten⟩
  · intro event member
    rcases List.mem_append.mp member with here | there
    · exact reading.within event here
    · exact within event there
  · rw [receivedBytes_append, split]
    exact (List.prefix_append_right_inj _).mpr part

section Requests

variable {world : NativeWorld} {hop : ℕ} {exchange : Exchange} {record : ConnectionRecord}

/-- A request without a connection ends with the opening. -/
theorem oneRequestTraced_unopened (unopened : (world.opened hop exchange).value.1 = false) :
    (oneRequestTraced world hop exchange).events = (world.opened hop exchange).events ∧
      ∃ code, (oneRequestTraced world hop exchange).value = .error code := by
  unfold oneRequestTraced
  rw [Traced.events_bind, Traced.value_bind]
  cases opened : (world.opened hop exchange).value with
  | mk success record =>
      rw [opened] at unopened
      obtain rfl : success = false := unopened
      exact ⟨List.append_nil _, _, rfl⟩

/-- **What one request receives on its connection.** -/
theorem received_oneRequest (opened : (world.opened hop exchange).value = (true, record)) :
    ∃ after, (oneRequestTraced world hop exchange).events =
        (world.opened hop exchange).events ++
        ((world.written hop exchange record).events ++ after) ∧
      Reading record (delivered (world.calls hop exchange).reads.chunks)
        (world.written hop exchange record).value after ∧
      (receivedBytes after).length < maxHeaderBytes + readCapacity ∧
      ∀ response found, (oneRequestTraced world hop exchange).value = .ok (response, found) →
        found = record ∧
          delivered (world.calls hop exchange).reads.chunks =
            receivedBytes after ++ delivered response.connection.chunks ∧
          ∃ text, receivedBytes after = text ++ response.bodyPrefix := by
  have room : 0 < maxHeaderBytes + readCapacity := by decide
  unfold oneRequestTraced
  rw [Traced.events_bind, Traced.value_bind, opened]
  dsimp only
  rw [if_neg (by decide), Traced.events_bind, Traced.value_bind]
  cases wrote : (world.written hop exchange record).value with
  | false =>
      have closed : receivedBytes (closing (α := Except ℕ (Response × ConnectionRecord)) record
          (.error 6)).events = [] := receivedBytes_closing record _
      refine ⟨_, rfl, ⟨within_closing record _, ?_, fun _ => closed⟩, ?_, ?_⟩
      · rw [if_pos rfl, closed]
        exact List.nil_prefix
      · rw [if_pos rfl, closed]
        exact room
      · intro response found accepted
        cases accepted
  | true =>
      rw [if_neg (by decide), Traced.events_bind, Traced.value_bind]
      obtain ⟨part, bound, accepts⟩ := received_readHeadLoop record.way
        (world.calls hop exchange).reads.ending (world.calls hop exchange).reads.chunks []
        (Nat.zero_le _)
      rw [List.length_nil, Nat.zero_add] at bound
      have within : Traced.Emits (Within ∅ {record.way}) (readHeadLoopTraced record.way
          (world.calls hop exchange).reads.ending (world.calls hop exchange).reads.chunks []) :=
        within_readHeadLoopTraced (Set.mem_singleton _) _ _ _
      unfold readResponseHeadTraced
      cases outcome : (readHeadLoopTraced record.way (world.calls hop exchange).reads.ending
          (world.calls hop exchange).reads.chunks []).value with
      | refused reason =>
          have closed : receivedBytes (closing (α := Except ℕ (Response × ConnectionRecord)) record
              (.error reason.code)).events = [] := receivedBytes_closing record _
          refine ⟨_, rfl, ⟨?_, ?_, fun unwritten => by cases unwritten⟩, ?_, ?_⟩
          · intro event member
            rcases List.mem_append.mp member with here | there
            · exact within event here
            · exact within_closing record _ event there
          · rw [receivedBytes_append, closed, List.append_nil]
            exact part
          · rw [receivedBytes_append, closed, List.append_nil]
            exact bound
          · intro response found accepted
            cases accepted
      | accepted head bodyPrefix rest =>
          obtain ⟨split, text, whole⟩ := accepts head bodyPrefix rest outcome
          refine ⟨_, rfl, ⟨?_, ?_, fun unwritten => by cases unwritten⟩, ?_, ?_⟩
          · rw [Traced.events_pure, List.append_nil]
            exact within
          · rw [Traced.events_pure, List.append_nil]
            exact part
          · rw [Traced.events_pure, List.append_nil]
            exact bound
          · intro response found accepted
            obtain ⟨rfl, rfl⟩ := Prod.mk.inj (Except.ok.inj accepted)
            rw [Traced.events_pure, List.append_nil]
            exact ⟨rfl, split, text, whole⟩

/-- A turn without a connection ends with the opening. -/
theorem turnTraced_unopened (call : Call) {state : LoopState}
    (unopened : (world.opened state.redirects (state.exchange call)).value.1 = false) :
    (turnTraced world call state).events =
        (world.opened state.redirects (state.exchange call)).events ∧
      (turnOutput world call state).written = [] := by
  obtain ⟨events, code, failed⟩ := oneRequestTraced_unopened unopened
  have plain := value_oneRequestTraced world state.redirects (state.exchange call)
  unfold turnTraced turnOutput
  rw [Traced.events_bind, failed, events, ← plain, failed]
  exact ⟨List.append_nil _, rfl⟩

/-- **What a turn receives on its connection.** What it puts out is a part of that, after the
head. -/
theorem received_turn (call : Call) {state : LoopState}
    (opened : (world.opened state.redirects (state.exchange call)).value = (true, record)) :
    ∃ after, (turnTraced world call state).events =
        (world.opened state.redirects (state.exchange call)).events ++
          ((world.written state.redirects (state.exchange call) record).events ++ after) ∧
      Reading record (delivered (world.calls state.redirects (state.exchange call)).reads.chunks)
        (world.written state.redirects (state.exchange call) record).value after ∧
      (∃ text, text ++ (turnOutput world call state).written <+: receivedBytes after) ∧
      (call.bodyOutputPath.isSome = true → (receivedBytes after).length <
        maxHeaderBytes + readCapacity + (maxCaptureBytes + readCapacity)) ∧
      ∀ later, (turnTraced world call state).value = .next later →
        (receivedBytes after).length < maxHeaderBytes + readCapacity := by
  obtain ⟨first, events, reading, bound, accepts⟩ := received_oneRequest opened
  have plain := value_oneRequestTraced world state.redirects (state.exchange call)
  unfold turnTraced turnOutput
  rw [Traced.events_bind, Traced.value_bind, events, ← plain]
  cases value : (oneRequestTraced world state.redirects (state.exchange call)).value with
  | error code =>
      refine ⟨first, ?_, reading, ⟨[], List.nil_prefix⟩, fun _ => by omega, fun _ _ => bound⟩
      rw [Traced.events_pure, List.append_nil]
  | ok received =>
      obtain ⟨response, found⟩ := received
      obtain ⟨rfl, split, text, whole⟩ := accepts response found value
      have written := (reachesResponse_of_ok value).2
      rw [written] at reading ⊢
      dsimp only [Except.map]
      split
      · obtain ⟨part, start, bounded⟩ := received_deliver world call response found
        refine ⟨first ++ (deliverTraced world call response found).events, ?_,
          reading.goOn split (within_deliverTraced world call response (Set.mem_singleton _)) part,
          ⟨text, ?_⟩, fun capture => ?_, fun later went => by cases went⟩
        · rw [Traced.events_bind, Traced.events_pure, List.append_nil, List.append_assoc,
            List.append_assoc]
        · rw [receivedBytes_append, whole, List.append_assoc]
          exact (List.prefix_append_right_inj _).mpr start
        · rw [receivedBytes_append, List.length_append]
          have more := bounded capture
          omega
      · -- a redirect is closed, whether it is followed or not
        have closed : ∀ value : Turn LoopState (ℕ × Delivery), ∃ after,
            (world.opened state.redirects (state.exchange call)).events ++
                ((world.written state.redirects (state.exchange call) found).events ++ first) ++
                  (closing found value).events =
              (world.opened state.redirects (state.exchange call)).events ++
                ((world.written state.redirects (state.exchange call) found).events ++ after) ∧
            Reading found
              (delivered (world.calls state.redirects (state.exchange call)).reads.chunks) true
              after ∧
            (∃ text, text ++ Output.nothing.written <+: receivedBytes after) ∧
            (receivedBytes after).length < maxHeaderBytes + readCapacity := by
          intro value
          have silent := receivedBytes_closing found value
          refine ⟨first ++ (closing found value).events, ?_,
            reading.goOn split (within_closing found value) ?_,
            ⟨[], List.nil_prefix⟩, ?_⟩
          · rw [List.append_assoc, List.append_assoc]
          · rw [silent]
            exact List.nil_prefix
          · rw [receivedBytes_append, silent, List.append_nil]
            exact bound
        have kept : ∀ {short : ℕ}, short < maxHeaderBytes + readCapacity →
            short < maxHeaderBytes + readCapacity + (maxCaptureBytes + readCapacity) :=
          fun small => Nat.lt_add_right _ small
        split
        · obtain ⟨after, split, reads, output, short⟩ := closed (.finished (8, .nothing))
          exact ⟨after, split, reads, output, fun _ => kept short, fun _ _ => short⟩
        · split
          · obtain ⟨after, split, reads, output, short⟩ := closed (.finished (8, .nothing))
            exact ⟨after, split, reads, output, fun _ => kept short, fun _ _ => short⟩
          · rename_i later _
            obtain ⟨after, split, reads, output, short⟩ := closed (.next later)
            exact ⟨after, split, reads, output, fun _ => kept short, fun _ _ => short⟩

end Requests

end IcuTransport.Client
