import IcuTransport.Client.Received

/-!
# Answers, and whom they come from

In a conversation with TLS nothing is received in the clear but the reply of a proxy. Everything
else comes through TLS from a verified server, after the whole request was sent to it, and what the
run puts out is a part of the answer to its last exchange (`responses_authentic`).

A run that captures receives a bounded number of bytes, whatever the servers send
(`capture_traffic_bounded`).
-/

set_option autoImplicit false

namespace IcuTransport.Client

open Ascii TextScan TurnLoop Tracing Wire Redirect Capture Connect

/-! ## A conversation -/

/-- A conversation is answered as it should be. With TLS only the reply of a proxy is received in
the clear, and without TLS nothing is received through TLS. The answer is a part of what the
connection delivers, with TLS from a verified server, and wherever the conversation is cut, the
whole request was sent before anything of the answer came. What is put out is a part of the
answer. -/
structure Answered (environment : Environment) (calls : ExchangeCalls) (exchange : Exchange)
    (conversation : List Event) : Prop where
  tunnel : exchange.endpoint.useTls = true →
    receivedThrough false conversation <+: calls.opening.tunnel.reply ∧
      (receivedThrough false conversation).length ≤ maxHeaderBytes
  plain : exchange.endpoint.useTls = false → receivedThrough true conversation = []
  part : receivedThrough exchange.endpoint.useTls conversation <+: delivered calls.reads.chunks
  requested : ∀ part, part <+: conversation →
    receivedThrough exchange.endpoint.useTls part ≠ [] →
      sentThrough exchange.endpoint.useTls part = exchange.text ∧
        (exchange.endpoint.useTls = true →
          Verified environment calls.opening.tls exchange.endpoint.host.text)
  output : ∃ head, head ++ bytesOf conversation <+:
    receivedThrough exchange.endpoint.useTls conversation

/-- What a turn puts out, read off its events. -/
theorem bytesOf_turnTraced (world : NativeWorld) (call : Call) (state : LoopState) :
    bytesOf (turnTraced world call state).events = (turnOutput world call state).written := by
  have accepted : watch account ([], .nothing) (turnTraced world call state).events =
      some ([], turnOutput world call state) := custody_turnTraced world call state
  exact (watch_publish_nothing (watch_both.mp accepted).2).2

theorem receivedThrough_opening (safe : Bool) (host : Bytes) (port : Int32) (useTls : Bool)
    (events : List Event) :
    receivedThrough safe (.opening host port useTls :: events) = receivedThrough safe events := rfl

theorem bytesOf_opening (host : Bytes) (port : Int32) (useTls : Bool) (events : List Event) :
    bytesOf (.opening host port useTls :: events) = bytesOf events := rfl

/-- What comes before an exchange on its connection: nothing of the exchange is sent, and nothing is
received but, with TLS, the reply of a proxy in the clear. -/
structure Apart (calls : OpenCalls) (useTls : Bool) (events : List Event) : Prop where
  unsent : sentThrough useTls events = []
  unheard : receivedThrough useTls events = []
  tunnel : useTls = true → receivedThrough false events <+: calls.tunnel.reply ∧
    (receivedThrough false events).length ≤ maxHeaderBytes
  plain : useTls = false → receivedThrough true events = []

/-- The opening of a connection is apart from the exchange. -/
theorem opening_apart (environment : Environment) (calls : OpenCalls) (host : Bytes) (port : Int32)
    (useTls : Bool) :
    ∃ rest, (openConnection environment calls host port useTls).events =
        .opening host port useTls :: rest ∧ Apart calls useTls rest := by
  obtain ⟨rest, events, hidden, shown, reply, bound⟩ :=
    received_openConnection environment calls host port useTls
  obtain ⟨rest', text, events', exposes, start, _⟩ :=
    exposes_openConnection environment calls host port useTls
  obtain ⟨_, rfl⟩ := List.cons.inj (events.symm.trans events')
  cases useTls with
  | true =>
      refine ⟨rest, events, exposes.secured, hidden, fun _ => ?_, fun plain => by cases plain⟩
      rw [shown]
      exact ⟨reply, bound⟩
  | false =>
      have untunnelled : tunnelText environment host port false = [] := by
        unfold tunnelText
        split
        · rfl
        · rfl
      have nothing : exposedBytes rest = [] := by
        rw [exposes.exposed]
        exact List.prefix_nil.mp (untunnelled ▸ start)
      have silent : receivedBytes rest = [] := List.prefix_nil.mp reply
      exact ⟨rest, events, nothing, shown.trans silent, (fun secure => by cases secure),
        fun _ => hidden⟩

section Answered

variable {environment : Environment} {calls : ExchangeCalls} {exchange : Exchange}
  {rest written after : List Event} {record : ConnectionRecord} {complete : Bool}

/-- A conversation of which only the opening took place. -/
theorem answered_of_opening (apart : Apart calls.opening exchange.endpoint.useTls rest)
    (silent : bytesOf rest = []) :
    Answered environment calls exchange
      (.opening exchange.endpoint.host.text exchange.endpoint.port exchange.endpoint.useTls ::
        rest) := by
  refine ⟨apart.tunnel, apart.plain, ?_, fun part cut heard => ?_, [], ?_⟩
  · rw [receivedThrough_opening, apart.unheard]
    exact List.nil_prefix
  · refine absurd (receivedThrough_of_isPrefix cut ?_) heard
    rw [receivedThrough_opening, apart.unheard]
  · rw [bytesOf_opening, silent]
    exact List.nil_prefix

/-- A conversation on an open connection. -/
theorem answered_of_reading (apart : Apart calls.opening exchange.endpoint.useTls rest)
    (kind : secured record.way = exchange.endpoint.useTls)
    (verified : exchange.endpoint.useTls = true →
      Verified environment calls.opening.tls exchange.endpoint.host.text)
    (writing : ∀ event ∈ written, Within {record.way} ∅ event)
    (sent : complete = true → sentBy record.way written = exchange.text)
    (reading : Reading record (delivered calls.reads.chunks) complete after)
    (output : ∃ head, head ++ bytesOf (rest ++ (written ++ after)) <+: receivedBytes after) :
    Answered environment calls exchange
      (.opening exchange.endpoint.host.text exchange.endpoint.port exchange.endpoint.useTls ::
        (rest ++ (written ++ after))) := by
  have silent : ∀ safe, receivedThrough safe written = [] := fun _ =>
    receivedThrough_of_other writing fun _ member => absurd member (Set.notMem_empty _)
  have heard : receivedThrough exchange.endpoint.useTls (rest ++ (written ++ after)) =
      receivedBytes after := by
    rw [receivedThrough_append, receivedThrough_append, apart.unheard, silent,
      receivedThrough_of_way reading.within kind]
    rfl
  have other : ∀ safe, exchange.endpoint.useTls ≠ safe →
      receivedThrough safe (rest ++ (written ++ after)) = receivedThrough safe rest := by
    intro safe differs
    rw [receivedThrough_append, receivedThrough_append, silent,
      receivedThrough_of_other reading.within fun path member => ?_]
    · exact List.append_nil _
    · rw [Set.mem_singleton_iff.mp member, kind]
      exact differs
  refine ⟨fun secure => ?_, fun bare => ?_, ?_, fun part cut answered => ?_, ?_⟩
  · rw [receivedThrough_opening, other false (by rw [secure]; decide)]
    exact apart.tunnel secure
  · rw [receivedThrough_opening, other true (by rw [bare]; decide)]
    exact apart.plain bare
  · rw [receivedThrough_opening, heard]
    exact reading.part
  · -- the part ends in what comes after the request, or nothing was heard in it
    obtain ⟨more, rfl, start⟩ : ∃ more, part = .opening exchange.endpoint.host.text
          exchange.endpoint.port exchange.endpoint.useTls :: (rest ++ (written ++ more)) ∧
        more <+: after := by
      rw [← List.append_assoc, ← List.cons_append] at cut
      rcases prefix_append_cases cut with early | ⟨more, rfl, later⟩
      · refine absurd (receivedThrough_of_isPrefix early ?_) answered
        rw [receivedThrough_opening, receivedThrough_append]
        exact List.append_eq_nil_iff.mpr ⟨apart.unheard, silent _⟩
      · exact ⟨more, by rw [List.cons_append, List.append_assoc], later⟩
    have received : receivedBytes after ≠ [] := by
      rw [← heard]
      exact fun nothing => answered (receivedThrough_of_isPrefix cut nothing)
    have whole : complete = true := by
      rw [← Bool.not_eq_false]
      exact fun unwritten => received (reading.requested unwritten)
    refine ⟨?_, verified⟩
    rw [sentThrough_opening, sentThrough_append, sentThrough_append, apart.unsent,
      sentThrough_of_way writing kind, sent whole,
      sentThrough_of_other (fun event member => reading.within event (start.subset member))
        fun _ member => absurd member (Set.notMem_empty _)]
    exact List.append_nil _
  · rw [bytesOf_opening, receivedThrough_opening, heard]
    exact output

end Answered

/-- **A turn is answered as it should be.** -/
theorem answered_turnTraced (world : NativeWorld) (call : Call) (state : LoopState) :
    Answered world.environment (world.calls state.redirects (state.exchange call))
      (state.exchange call) (turnTraced world call state).events := by
  have output := bytesOf_turnTraced world call state
  obtain ⟨rest, events, apart⟩ := opening_apart world.environment
    (world.calls state.redirects (state.exchange call)).opening state.current.host.text
    state.current.port state.current.useTls
  have opening : (world.opened state.redirects (state.exchange call)).events = _ := events
  cases opened : (world.opened state.redirects (state.exchange call)).value with
  | mk success record =>
      cases success with
      | false =>
          obtain ⟨whole, nothing⟩ := turnTraced_unopened call (congrArg Prod.fst opened)
          rw [whole, opening] at output ⊢
          rw [nothing, bytesOf_opening] at output
          exact answered_of_opening apart output
      | true =>
          obtain ⟨kind, verified⟩ := verified_openConnection opened
          obtain ⟨after, whole, reading, ⟨text, start⟩, _⟩ := received_turn call opened
          obtain ⟨left, split, complete⟩ := sentBy_writeRequest record
            (world.calls state.redirects (state.exchange call)).headWrites
            (world.calls state.redirects (state.exchange call)).bodyWrites
            (state.exchange call).request (state.exchange call).body
          rw [whole, opening, List.cons_append] at output ⊢
          rw [bytesOf_opening] at output
          refine answered_of_reading apart kind verified
            (within_writeRequest (Set.mem_singleton _) _ _ _ _) (fun wrote => ?_) reading ⟨text, ?_⟩
          · rw [complete.mp wrote, List.append_nil] at split
            exact split.symm
          · rw [output]
            exact start

/-! ## The whole run -/

/-- The exchange and the number of redirects say the state. -/
theorem state_of_exchange {call : Call} {first second : LoopState}
    (count : first.redirects = second.redirects)
    (same : first.exchange call = second.exchange call) : first = second := by
  obtain ⟨redirects, current, request⟩ := first
  obtain ⟨redirects', current', request'⟩ := second
  simp only [LoopState.exchange, Exchange.mk.injEq, and_true] at same
  obtain ⟨rfl, rfl⟩ := same
  obtain rfl : redirects = redirects' := count
  rfl

/-- **What a run puts out is what its last conversation puts out.** -/
theorem bytesOf_last {fuel : ℕ} {world : NativeWorld} {call : Call} {ran : Traced Event Outcome}
    (returned : sendRequestTraced fuel world call = some ran) :
    bytesOf ran.events = [] ∨
      ∃ hop exchange conversation, ran.value.exchanges.length = hop + 1 ∧
        ran.value.exchanges[hop]? = some exchange ∧
        (conversations ran.events)[hop]? = some conversation ∧
        bytesOf ran.events = bytesOf conversation := by
  rcases custody_sendRequestTraced returned with ⟨silent, _⟩ | ⟨last, _, sent, count, seen⟩
  · rw [silent]
    exact Or.inl rfl
  · right
    have accepted : watch publish .nothing ran.events = some (turnOutput world call last) :=
      (watch_both.mp seen).2
    obtain ⟨visits, exchanges, traces, counted⟩ := conversations_of_run returned
    rw [← count, Nat.add_sub_cancel] at sent
    have listed := sent
    rw [exchanges, List.getElem?_map, Option.map_eq_some_iff] at listed
    obtain ⟨visit, found, same⟩ := listed
    obtain rfl : visit = last := state_of_exchange (counted last.redirects visit found) same
    refine ⟨visit.redirects, _, (turnTraced world call visit).events, count.symm, sent, ?_, ?_⟩
    · rw [traces, List.getElem?_map, found, Option.map_some]
    · rw [(watch_publish_nothing accepted).2, bytesOf_turnTraced]

/-- **Responses are authentic.** Whatever the servers, the proxy and the calls do, every
conversation of a run is answered as it should be, and what the run puts out is put out in the
conversation of its last exchange. So a run whose last exchange uses TLS puts out nothing that was
not received through TLS from a verified server after the whole request. -/
theorem responses_authentic (world : NativeWorld) (call : Call) :
    ∃ ran, (∀ fuel, 9 ≤ fuel → sendRequestTraced fuel world call = some ran) ∧
      (∀ hop exchange conversation, ran.value.exchanges[hop]? = some exchange →
        (conversations ran.events)[hop]? = some conversation →
          Answered world.environment (world.calls hop exchange) exchange conversation) ∧
      (bytesOf ran.events = [] ∨
        ∃ hop exchange conversation, ran.value.exchanges.length = hop + 1 ∧
          ran.value.exchanges[hop]? = some exchange ∧
          (conversations ran.events)[hop]? = some conversation ∧
          bytesOf ran.events = bytesOf conversation) := by
  obtain ⟨ran, returns⟩ := sendRequestTraced_returns world call
  refine ⟨ran, returns, ?_, bytesOf_last (returns 9 le_rfl)⟩
  intro hop exchange conversation sent traced
  obtain ⟨visits, exchanges, traces, counted⟩ := conversations_of_run (returns 9 le_rfl)
  rw [exchanges, List.getElem?_map, Option.map_eq_some_iff] at sent
  obtain ⟨visit, found, rfl⟩ := sent
  rw [traces, List.getElem?_map, found] at traced
  obtain rfl := Option.some.inj traced
  rw [← counted hop visit found]
  exact answered_turnTraced world call visit

/-! ## Traffic -/

/-- The most that a turn receives before a body is copied. -/
def hopTraffic : ℕ := maxHeaderBytes + (maxHeaderBytes + readCapacity)

/-- The most that copying the body of a capture receives. -/
def captureTraffic : ℕ := maxCaptureBytes + readCapacity

/-- **What a turn receives is bounded** when it captures, and by less when it goes on. -/
theorem length_receivedBytes_turn {world : NativeWorld} {call : Call} (state : LoopState)
    (capture : call.bodyOutputPath.isSome = true) :
    (receivedBytes (turnTraced world call state).events).length ≤ hopTraffic + captureTraffic ∧
      ∀ later, (turnTraced world call state).value = .next later →
        (receivedBytes (turnTraced world call state).events).length ≤ hopTraffic := by
  obtain ⟨rest, events, _, _, _, bound⟩ := received_openConnection world.environment
    (world.calls state.redirects (state.exchange call)).opening state.current.host.text
    state.current.port state.current.useTls
  have opening : (world.opened state.redirects (state.exchange call)).events = _ := events
  have head : receivedBytes (.opening state.current.host.text state.current.port
      state.current.useTls :: rest) = receivedBytes rest := rfl
  cases opened : (world.opened state.redirects (state.exchange call)).value with
  | mk success record =>
      cases success with
      | false =>
          obtain ⟨whole, _⟩ := turnTraced_unopened call (congrArg Prod.fst opened)
          rw [whole, opening, head]
          unfold hopTraffic
          exact ⟨by omega, fun _ _ => by omega⟩
      | true =>
          obtain ⟨after, whole, _, _, most, short⟩ := received_turn call opened
          have silent : receivedBytes
              (world.written state.redirects (state.exchange call) record).events = [] :=
            receivedBytes_writeRequest record _ _ _ _
          rw [whole, opening, receivedBytes_append, receivedBytes_append, head, silent,
            List.nil_append, List.length_append]
          unfold hopTraffic captureTraffic
          have limit := most capture
          exact ⟨by omega, fun later went => by have less := short later went; omega⟩

theorem length_receivedBytes_flatMap {σ : Type} (visits : List σ) (part : σ → List Event) :
    (receivedBytes (visits.flatMap part)).length =
      (visits.map fun visit => (receivedBytes (part visit)).length).sum := by
  induction visits with
  | nil => rfl
  | cons visit rest ih =>
      rw [List.flatMap_cons, receivedBytes_append, List.length_append, ih, List.map_cons,
        List.sum_cons]

/-- **A capture receives a bounded number of bytes**, whatever the servers and the proxy send: for
each of its exchanges what a hop may receive, and for the last of them the body. That is less than
10 MB. -/
theorem capture_traffic_bounded (fuel : ℕ) (world : NativeWorld) (call : Call)
    (ran : Traced Event Outcome) (capture : call.bodyOutputPath.isSome = true)
    (returned : sendRequestTraced fuel world call = some ran) :
    (receivedBytes ran.events).length ≤ ran.value.exchanges.length * hopTraffic + captureTraffic ∧
      (receivedBytes ran.events).length ≤ 9732096 := by
  have limit : 9 * hopTraffic + captureTraffic = 9732096 := by decide
  unfold sendRequestTraced at returned
  cases began : start world.toWorld call with
  | error code =>
      simp only [began, Option.some.injEq] at returned
      subst returned
      exact ⟨Nat.zero_le _, Nat.zero_le _⟩
  | ok state =>
      simp only [began, runTraced_eq, turnTraced_value, Option.map_map, Option.map_eq_some_iff,
        Function.comp_apply] at returned
      obtain ⟨⟨visits, result⟩, looped, rfl⟩ := returned
      have bounded : (visits.map fun visit =>
          (receivedBytes (turnTraced world call visit).events).length).sum ≤
            visits.length * hopTraffic + captureTraffic := by
        refine sum_visits_le ?_ ?_ looped
        · intro visit later went
          exact (length_receivedBytes_turn visit capture).2 later
            ((value_turnTraced world call visit).trans went)
        · exact fun visit _ _ => (length_receivedBytes_turn visit capture).1
      rw [← length_receivedBytes_flatMap] at bounded
      have few := length_visits looped (started_of_start began).redirects
      have nine : maxRedirects + 1 = 9 := rfl
      have most : visits.length * hopTraffic ≤ 9 * hopTraffic :=
        Nat.mul_le_mul_right hopTraffic (nine ▸ few)
      rw [List.length_map]
      exact ⟨bounded, bounded.trans (by omega)⟩

/-- The secure call, captured. -/
def capturedSecureCall : Call := { secureCall with bodyOutputPath := some (ascii "b") }

/-- Its run. -/
def capturedSecureRun : Traced Event Outcome :=
  (sendRequestTraced 9 proxiedWorld capturedSecureCall).get (by decide +kernel)

theorem capture_traffic_bounded_proxied :
    receivedBytes capturedSecureRun.events ≠ [] ∧
      (receivedBytes capturedSecureRun.events).length ≤ 9732096 := by
  have returned : sendRequestTraced 9 proxiedWorld capturedSecureCall = some capturedSecureRun :=
    (Option.some_get _).symm
  refine ⟨by decide +kernel, ?_⟩
  exact (capture_traffic_bounded 9 proxiedWorld capturedSecureCall _ rfl returned).2

end IcuTransport.Client
