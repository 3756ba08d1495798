import IcuTransport.Client.Sending

/-!
# What a connection exposes

Bytes that go through a socket alone can be read on the way; bytes that go through a TLS handle
cannot. The bytes a trace sends are read off its events by the way they take (`exposedBytes`,
`securedBytes`).

Opening a connection exposes nothing but the CONNECT request of a tunnel
(`exposes_openConnection`).
-/

set_option autoImplicit false

namespace IcuTransport.Client

open Ascii TextScan Tracing Wire Connect

/-! ## Exposed and secured bytes -/

/-- The bytes that an event sends, with or without TLS. -/
def sentThroughIn (safe : Bool) : Event → Bytes
  | .sent way bytes => if secured way = safe then bytes else []
  | _ => []

/-- The bytes that events send, with or without TLS, in order. -/
def sentThrough (safe : Bool) (events : List Event) : Bytes := events.flatMap (sentThroughIn safe)

/-- The bytes that events send in the clear. -/
abbrev exposedBytes (events : List Event) : Bytes := sentThrough false events

/-- The bytes that events send through TLS. -/
abbrev securedBytes (events : List Event) : Bytes := sentThrough true events

/-- The conversations of a trace: each begins with a connection. -/
def conversations (events : List Event) : List (List Event) := cutAtMarks isOpening events

theorem sentThrough_append (safe : Bool) (first second : List Event) :
    sentThrough safe (first ++ second) = sentThrough safe first ++ sentThrough safe second :=
  List.flatMap_append

theorem exposedBytes_append (first second : List Event) :
    exposedBytes (first ++ second) = exposedBytes first ++ exposedBytes second :=
  sentThrough_append false first second

theorem securedBytes_append (first second : List Event) :
    securedBytes (first ++ second) = securedBytes first ++ securedBytes second :=
  sentThrough_append true first second

theorem sentThrough_opening (safe : Bool) (host : Bytes) (port : Int32) (useTls : Bool)
    (events : List Event) :
    sentThrough safe (.opening host port useTls :: events) = sentThrough safe events := rfl

/-- Where nothing is sent, nothing is sent up to a cut. -/
theorem sentThrough_of_isPrefix {safe : Bool} {part events : List Event} (cut : part <+: events)
    (nothing : sentThrough safe events = []) : sentThrough safe part = [] := by
  have start : sentThrough safe part <+: sentThrough safe events := cut.flatMap _
  rwa [nothing, List.prefix_nil] at start

section Ways

variable {sends receives : Set (List Handle)} {way : List Handle} {events : List Event}

theorem sentThrough_of_other {safe : Bool} (within : ∀ event ∈ events, Within sends receives event)
    (other : ∀ way ∈ sends, secured way ≠ safe) : sentThrough safe events = [] := by
  refine List.flatMap_eq_nil_iff.mpr fun event member => ?_
  cases event with
  | sent way bytes => exact if_neg (other way (within _ member))
  | _ => rfl

/-- What is sent by one way is exposed or secured as a whole. -/
theorem sentThrough_of_way {safe : Bool} (within : ∀ event ∈ events, Within {way} receives event)
    (same : secured way = safe) : sentThrough safe events = sentBy way events := by
  refine List.flatMap_congr fun event member => ?_
  cases event with
  | sent path bytes =>
      obtain rfl := Set.mem_singleton_iff.mp (within _ member)
      exact (if_pos same).trans (if_pos rfl).symm
  | _ => rfl

end Ways

/-! ## What opening a connection exposes -/

/-- The events begin no connection, send nothing through TLS, and send a text in the clear. -/
structure Exposes (text : Bytes) (events : List Event) : Prop where
  goingOn : ∀ event ∈ events, isOpening event = false
  exposed : exposedBytes events = text
  secured : securedBytes events = []

theorem Exposes.append {first second : Bytes} {before after : List Event}
    (early : Exposes first before) (late : Exposes second after) :
    Exposes (first ++ second) (before ++ after) := by
  refine ⟨?_, ?_, ?_⟩
  · intro event member
    rcases List.mem_append.mp member with here | there
    · exact early.goingOn event here
    · exact late.goingOn event there
  · rw [exposedBytes_append, early.exposed, late.exposed]
  · rw [securedBytes_append, early.secured, late.secured, List.append_nil]

theorem Exposes.nil : Exposes [] [] :=
  ⟨fun _ member => absurd member List.not_mem_nil, rfl, rfl⟩

/-- Where nothing is sent, nothing is exposed. -/
theorem exposes_nothing {receives : Set (List Handle)} {events : List Event}
    (within : ∀ event ∈ events, Within ∅ receives event) : Exposes [] events :=
  ⟨isOpening_of_within within,
    sentThrough_of_other within fun _ member => absurd member (Set.notMem_empty _),
    sentThrough_of_other within fun _ member => absurd member (Set.notMem_empty _)⟩

/-- What is sent for a tunnel is the start of its request, and all of it if that is said. -/
theorem sentBy_sendTunnelRequest (socket : Handle) (sends : List ℕ) (bytes : Bytes) :
    sentBy [socket] (sendTunnelRequest socket sends bytes).events <+: bytes ∧
      ((sendTunnelRequest socket sends bytes).value = true →
        sentBy [socket] (sendTunnelRequest socket sends bytes).events = bytes) := by
  fun_induction sendTunnelRequest socket sends bytes with
  | case1 => exact ⟨List.prefix_refl _, fun _ => rfl⟩
  | case2 => exact ⟨List.nil_prefix, fun sent => by cases sent⟩
  | case3 more sends bytes _ ih =>
      rw [Traced.events_bind, Traced.events_emit, List.singleton_append, sentBy_cons_sent,
        Traced.value_bind]
      have split : bytes = bytes.take (more + 1) ++ bytes.drop (more + 1) :=
        (List.take_append_drop _ _).symm
      constructor
      · exact ((List.prefix_append_right_inj _).mpr ih.1).trans (split ▸ List.prefix_refl _)
      · intro sent
        rw [ih.2 sent, ← split]

/-- **A tunnel exposes its request only**, and all of it when it is made. -/
theorem exposes_establishProxyTunnel {socket : Handle} (isSocket : socket.kind = .socket)
    (calls : TunnelCalls) (host : Bytes) (port : Int32) (errno : Errno) :
    ∃ text, Exposes text (establishProxyTunnel calls socket host port errno).events ∧
      text <+: tunnelRequest host port ∧
      ((establishProxyTunnel calls socket host port errno).value.1 = true →
        text = tunnelRequest host port) := by
  obtain ⟨start, whole⟩ := sentBy_sendTunnelRequest socket calls.sends (tunnelRequest host port)
  have within : Traced.Emits (Within {[socket]} Set.univ)
      (sendTunnelRequest socket calls.sends (tunnelRequest host port)) :=
    within_sendTunnelRequest (Set.mem_singleton _) _ _
  have bare : ∀ way ∈ ({[socket]} : Set (List Handle)), secured way ≠ true := by
    intro way member
    rw [Set.mem_singleton_iff.mp member, secured_socket isSocket]
    exact Bool.false_ne_true
  have sending := Exposes.mk (isOpening_of_within within)
    (sentThrough_of_way within (secured_socket isSocket)) (sentThrough_of_other within bare)
  unfold establishProxyTunnel
  split
  · exact ⟨[], .nil, List.nil_prefix, fun made => by cases made⟩
  · rw [Traced.events_bind, Traced.value_bind]
    generalize (sendTunnelRequest socket calls.sends (tunnelRequest host port)).value =
      sent at whole
    cases sent with
    | false =>
        refine ⟨_, sending.append .nil, ?_, fun made => by cases made⟩
        rw [List.append_nil]
        exact start
    | true =>
        refine ⟨_, sending.append (@exposes_nothing Set.univ _ ?_), ?_, fun _ => ?_⟩
        · rw [if_neg Bool.false_ne_true.symm]
          refine Traced.Emits.bind (within_receiveTunnelReply (Set.mem_univ _) _ _) ?_
          split
          · exact .pure _
          · exact .pure _
          · exact .pure _
        · rw [List.append_nil]
          exact start
        · rw [List.append_nil]
          exact whole rfl

/-- **Opening a connection exposes the request of its tunnel only**, and all of it when it
succeeds. -/
theorem exposes_openConnection (environment : Environment) (calls : OpenCalls) (host : Bytes)
    (port : Int32) (useTls : Bool) :
    ∃ rest text, (openConnection environment calls host port useTls).events =
        .opening host port useTls :: rest ∧ Exposes text rest ∧
      text <+: tunnelText environment host port useTls ∧
      ((openConnection environment calls host port useTls).value.1 = true →
        text = tunnelText environment host port useTls) := by
  obtain ⟨before, middle, after, events, early, late, tunnel⟩ :=
    openConnection_events environment calls host port useTls
  refine ⟨before ++ (middle ++ after), ?_⟩
  rcases tunnel with ⟨rfl, none⟩ | ⟨socket, errno, isSocket, _, text, rfl, made⟩
  · refine ⟨[], events, (exposes_nothing early).append (exposes_nothing late), List.nil_prefix, ?_⟩
    exact fun opened => (none opened).symm
  · obtain ⟨sent, exposes, start, whole⟩ :=
      exposes_establishProxyTunnel isSocket calls.tunnel host port errno
    have all := (exposes_nothing early).append (exposes.append (exposes_nothing late))
    rw [List.append_nil, List.nil_append] at all
    rw [text]
    exact ⟨sent, events, all, start, fun opened => whole (made opened)⟩

end IcuTransport.Client
