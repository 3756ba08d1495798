import IcuTransport.Client.Ways

/-!
# What is sent

`writeAll` sends a text piece by piece: a write may take any part of what it is offered, it may have
to be repeated, and it may fail. The bytes that a connection has taken are read off the events, by
way of the handles that they went through. So the CONNECT request of a tunnel, which goes through
the socket alone, is not counted for a connection with TLS on it.

Nothing is lost and nothing is repeated: after a success the bytes taken are the given ones, and
after a failure they are a proper part of them from the start. A request that gets to its response
has sent its head and its body, and nothing else (`write_all_exact`).
-/

set_option autoImplicit false

namespace IcuTransport.Client

open Ascii Tracing Wire Connect

/-! ## The bytes of a way -/

/-- The bytes that an event sends by a way. -/
def sentIn (way : List Handle) : Event → Bytes
  | .sent path bytes => if path = way then bytes else []
  | _ => []

/-- The bytes that events send by a way, in order. -/
def sentBy (way : List Handle) (events : List Event) : Bytes := events.flatMap (sentIn way)

section Bytes

variable {way : List Handle}

theorem sentBy_append (first second : List Event) :
    sentBy way (first ++ second) = sentBy way first ++ sentBy way second :=
  List.flatMap_append

/-- Events that go by other ways send nothing by this one. -/
theorem sentBy_of_within {sends receives : Set (List Handle)} {events : List Event}
    (within : ∀ event ∈ events, Within sends receives event) (other : way ∉ sends) :
    sentBy way events = [] := by
  refine List.flatMap_eq_nil_iff.mpr fun event member => ?_
  cases event with
  | sent path bytes =>
      refine if_neg ?_
      rintro rfl
      exact other (within _ member)
  | _ => rfl

theorem sentBy_cons_sent (bytes : Bytes) (events : List Event) :
    sentBy way (.sent way bytes :: events) = bytes ++ sentBy way events := by
  rw [sentBy, List.flatMap_cons, sentIn, if_pos rfl, sentBy]

end Bytes

/-! ## Writing -/

/-- What a write takes is the start of what is left. -/
theorem taken_prefix (record : ConnectionRecord) (bytes : Bytes) (count : ℕ) :
    (offered record bytes).take count <+: bytes := by
  refine (List.take_prefix _ _).trans ?_
  unfold offered
  split
  · exact List.take_prefix _ _
  · exact List.prefix_refl _

/-- **The bytes taken are the start of the given ones**, and all of them exactly after a success. -/
theorem sentBy_writeAll (record : ConnectionRecord) (calls : List WriteCall) (bytes : Bytes) :
    ∃ rest, bytes = sentBy record.way (writeAll record calls bytes).events ++ rest ∧
      ((writeAll record calls bytes).value = true ↔ rest = []) := by
  induction calls generalizing bytes with
  | nil =>
      cases bytes with
      | nil => exact ⟨[], rfl, by simp [writeAll]⟩
      | cons byte bytes => exact ⟨byte :: bytes, rfl, by simp [writeAll]⟩
  | cons call calls ih =>
      cases bytes with
      | nil => exact ⟨[], by simp [writeAll, sentBy], by simp [writeAll]⟩
      | cons byte bytes =>
          cases call with
          | failed => exact ⟨byte :: bytes, rfl, by simp [writeAll]⟩
          | retried => exact ih (byte :: bytes)
          | accepted more =>
              have start := taken_prefix record (byte :: bytes) (more + 1)
              rw [writeAll]
              generalize (offered record (byte :: bytes)).take (more + 1) = taken at start
              obtain ⟨rest, split, complete⟩ := ih ((byte :: bytes).drop taken.length)
              refine ⟨rest, ?_, complete⟩
              rw [Traced.events_bind, Traced.events_emit, List.singleton_append, sentBy_cons_sent,
                List.append_assoc, ← split]
              exact List.prefix_iff_eq_append.mp start |>.symm

/-- The same for the head and the body of a request. -/
theorem sentBy_writeRequest (record : ConnectionRecord) (headWrites bodyWrites : List WriteCall)
    (head body : Bytes) :
    ∃ rest, head ++ body =
        sentBy record.way (writeRequest record headWrites bodyWrites head body).events ++ rest ∧
      ((writeRequest record headWrites bodyWrites head body).value = true ↔ rest = []) := by
  obtain ⟨headRest, headSplit, headComplete⟩ := sentBy_writeAll record headWrites head
  unfold writeRequest
  rw [Traced.events_bind, Traced.value_bind, sentBy_append]
  cases written : (writeAll record headWrites head).value with
  | false =>
      have left : headRest ≠ [] := fun none => by
        rw [headComplete.mpr none] at written
        cases written
      refine ⟨headRest ++ body, ?_, ?_⟩
      · nth_rewrite 1 [headSplit]
        simp [sentBy]
      · simp [left]
  | true =>
      obtain rfl := headComplete.mp written
      rw [List.append_nil] at headSplit
      rw [← headSplit, if_neg (by decide)]
      by_cases empty : body = []
      · rw [if_pos empty, empty]
        exact ⟨[], by simp [sentBy], by simp⟩
      · obtain ⟨bodyRest, bodySplit, bodyComplete⟩ := sentBy_writeAll record bodyWrites body
        rw [if_neg empty]
        refine ⟨bodyRest, ?_, bodyComplete⟩
        rw [List.append_assoc, ← bodySplit]

/-! ## Opening -/

/-- **Opening a connection sends nothing by its way.** What it sends for a tunnel goes through the
socket alone, and then the connection has TLS on it. -/
theorem sentBy_openConnection {environment : Environment} {calls : OpenCalls} {host : Bytes}
    {port : Int32} {useTls : Bool} {record : ConnectionRecord}
    (opened : (openConnection environment calls host port useTls).value = (true, record)) :
    sentBy record.way (openConnection environment calls host port useTls).events = [] := by
  have silent : ∀ {events : List Event}, (∀ event ∈ events, Within ∅ ∅ event) →
      sentBy record.way events = [] := fun within => sentBy_of_within within (Set.notMem_empty _)
  obtain ⟨before, middle, after, events, early, late, tunnel⟩ :=
    openConnection_events environment calls host port useTls
  have head : sentBy record.way (.opening host port useTls :: (before ++ (middle ++ after))) =
      sentBy record.way (before ++ (middle ++ after)) := rfl
  rw [events, head, sentBy_append, sentBy_append, silent early, silent late, List.nil_append,
    List.append_nil]
  rcases tunnel with ⟨rfl, _⟩ | ⟨socket, errno, isSocket, rfl, _, rfl, _⟩
  · rfl
  · have within : Traced.Emits (Within {[socket]} Set.univ)
        (establishProxyTunnel calls.tunnel socket host port errno) :=
      within_establishProxyTunnel (Set.mem_singleton _) (Set.mem_univ _) _ _ _ _
    refine sentBy_of_within within fun same => ?_
    have secure := (verified_openConnection opened).1
    rw [Set.mem_singleton_iff.mp same, secured_socket isSocket] at secure
    cases secure

/-! ## One request -/

section Request

variable {world : NativeWorld} {hop : ℕ} {exchange : Exchange} {record : ConnectionRecord}

/-- What one request sends by the way of its connection is what it writes of its head and body. -/
theorem sentBy_oneRequestTraced (opened : (world.opened hop exchange).value = (true, record)) :
    sentBy record.way (oneRequestTraced world hop exchange).events =
      sentBy record.way (world.written hop exchange record).events := by
  have opening : sentBy record.way (world.opened hop exchange).events = [] :=
    sentBy_openConnection opened
  unfold oneRequestTraced
  rw [Traced.events_bind, sentBy_append, opening, opened, List.nil_append]
  dsimp only
  rw [if_neg (by decide), Traced.events_bind, sentBy_append]
  have after : ∀ {continuation : Traced Event (Except ℕ (Response × ConnectionRecord))},
      Traced.Emits (Within ∅ Set.univ) continuation →
      sentBy record.way (world.written hop exchange record).events ++
          sentBy record.way continuation.events =
        sentBy record.way (world.written hop exchange record).events := by
    intro continuation within
    rw [sentBy_of_within within (Set.notMem_empty _), List.append_nil]
  apply after
  split
  · exact within_closing _ _
  · refine .bind (within_readHeadLoopTraced (Set.mem_univ _) _ _ _) ?_
    split
    · exact within_closing _ _
    · exact .pure _

/-- The exchange gets to its response: its connection is open, and its request is written. -/
def ReachesResponse (world : NativeWorld) (hop : ℕ) (exchange : Exchange)
    (record : ConnectionRecord) : Prop :=
  (world.opened hop exchange).value = (true, record) ∧
    (world.written hop exchange record).value = true

/-- A response only comes of an exchange that got to it. -/
theorem reachesResponse_of_ok {response : Response}
    (received : (oneRequestTraced world hop exchange).value = .ok (response, record)) :
    ReachesResponse world hop exchange record := by
  unfold oneRequestTraced at received
  rw [Traced.value_bind] at received
  cases opened : (world.opened hop exchange).value with
  | mk success found =>
      rw [opened] at received
      dsimp only at received
      split at received
      · cases received
      · rename_i succeeded
        rw [Traced.value_bind] at received
        split at received
        · cases received
        · rename_i written
          rw [Traced.value_bind] at received
          split at received
          · cases received
          · obtain ⟨-, rfl⟩ := Prod.mk.inj (Except.ok.inj received)
            rw [Bool.not_eq_false] at succeeded written
            exact ⟨by rw [opened, succeeded], written⟩

end Request

/-- **`write_all` loses nothing and repeats nothing.** On a connection with or without TLS and for
every schedule of writes, the bytes that the connection takes are the given ones in order when it
returns 1, and a proper part of them from the start when it returns 0. So an exchange that gets to
its response has sent its request head followed by its body. -/
theorem write_all_exact :
    (∀ (record : ConnectionRecord) (calls : List WriteCall) (bytes : Bytes),
      ((writeAll record calls bytes).value = true →
        sentBy record.way (writeAll record calls bytes).events = bytes) ∧
      ((writeAll record calls bytes).value = false →
        sentBy record.way (writeAll record calls bytes).events <+: bytes ∧
          sentBy record.way (writeAll record calls bytes).events ≠ bytes)) ∧
    ∀ (world : NativeWorld) (hop : ℕ) (exchange : Exchange) (record : ConnectionRecord),
      ReachesResponse world hop exchange record →
        sentBy record.way (oneRequestTraced world hop exchange).events =
          exchange.request ++ exchange.body := by
  constructor
  · intro record calls bytes
    obtain ⟨rest, split, complete⟩ := sentBy_writeAll record calls bytes
    constructor
    · intro written
      rw [complete.mp written, List.append_nil] at split
      exact split.symm
    · intro unwritten
      refine ⟨⟨rest, split.symm⟩, ?_⟩
      intro same
      rw [same] at split
      rw [complete.mpr (List.self_eq_append_right.mp split)] at unwritten
      cases unwritten
  · rintro world hop exchange record ⟨opened, written⟩
    obtain ⟨rest, split, complete⟩ := sentBy_writeRequest record
      (world.calls hop exchange).headWrites (world.calls hop exchange).bodyWrites exchange.request
      exchange.body
    rw [complete.mp written, List.append_nil] at split
    rw [sentBy_oneRequestTraced opened]
    exact split.symm

/-- The calls for an address that connects at once. -/
def reachableAddress : AddressCalls :=
  ⟨.ok 3, .ok (), .ok (), .ok (), 0, .ready, .ok true, .ok (), .ok (), .ok (), .ok ()⟩

/-- A world with a proxy, in which every call succeeds. -/
def proxiedWorld : NativeWorld where
  environment := ⟨some (ascii "http://p:8080"), none, fun _ => false, fun _ => false⟩
  calls _ _ :=
    ⟨⟨.other 0, some [reachableAddress], readyProxy,
        ⟨some 1, true, some 1, true, true, true, .ok (), .ok ()⟩⟩,
      [.accepted 16383], [],
      ⟨[⟨ascii "HTTP/1.0 200 OK\r\n\r\nhello", by decide, by decide⟩], .closed⟩⟩
  duplicates := true
  allocates _ := true
  stdout := writable
  bodyFile := .opened
  body := writable
  bodyCloses := true
  bodyReadable := true
  metadataFile := .opened
  metadataPrints := true
  metadataCloses := true

/-- A GET with a line of credentials, through TLS. -/
def secureCall : Call := { authorizedCall with useTls := true, port := 443 }

/-- What it sends. -/
def secureExchange : Exchange :=
  { authorizedExchange with
    endpoint := { authorizedExchange.endpoint with useTls := true, port := 443 } }

/-- Its connection. -/
def secureRecord : ConnectionRecord := (proxiedWorld.opened 0 secureExchange).value.2

theorem write_all_exact_proxied :
    secureRecord.way.length = 2 ∧
      sentBy secureRecord.way (oneRequestTraced proxiedWorld 0 secureExchange).events =
        secureExchange.request ++ secureExchange.body :=
  ⟨by decide +kernel, write_all_exact.2 proxiedWorld 0 secureExchange secureRecord
    ⟨by decide +kernel, by decide +kernel⟩⟩

end IcuTransport.Client
