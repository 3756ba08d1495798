import IcuTransport.Client.Discipline
import IcuTransport.Client.Exposure

/-!
# What travels in the clear

The trace of a run is cut before every connection (`conversations`), which gives one conversation
for each exchange. Each of them is confided: in a TLS exchange only the CONNECT request of the
tunnel travels in the clear, and the request travels, if it does, after a handshake with an identity
to be verified (`exchanges_confided`).

Together with what is known of redirects, a call that uses TLS never shows its body or a line of its
credentials (`credentials_never_exposed`).
-/

set_option autoImplicit false

namespace IcuTransport.Client

open Ascii TextScan TurnLoop Tracing Wire Redirect Capture Connect

/-! ## One exchange -/

/-- What an exchange sends to its server. -/
def Exchange.text (exchange : Exchange) : Bytes := exchange.request ++ exchange.body

/-- The text of the tunnel that an exchange asks for. -/
def Exchange.tunnelText (environment : Environment) (exchange : Exchange) : Bytes :=
  Client.tunnelText environment exchange.endpoint.host.text exchange.endpoint.port
    exchange.endpoint.useTls

/-- A conversation keeps what it should. It begins with the connection of its exchange and has no
other. Of an exchange with TLS the request of the tunnel may be exposed, and the exchange itself is
only sent through TLS, to a verified server: wherever the conversation is cut, the whole request of
the tunnel was sent before anything went through TLS. An exchange without TLS sends nothing through
TLS. -/
structure Confided (environment : Environment) (calls : OpenCalls) (exchange : Exchange)
    (conversation : List Event) : Prop where
  begins : ∃ rest, conversation = .opening exchange.endpoint.host.text exchange.endpoint.port
      exchange.endpoint.useTls :: rest ∧ ∀ event ∈ rest, isOpening event = false
  exposed : exposedBytes conversation <+: exchange.tunnelText environment ++
    if exchange.endpoint.useTls then [] else exchange.text
  secured : securedBytes conversation <+: if exchange.endpoint.useTls then exchange.text else []
  verified : ∀ part, part <+: conversation → securedBytes part ≠ [] →
    Verified environment calls.tls exchange.endpoint.host.text ∧
      exposedBytes part = exchange.tunnelText environment

section Confided

variable {environment : Environment} {calls : OpenCalls} {exchange : Exchange}
  {conversation rest : List Event} {text : Bytes}

/-- A conversation of which only the opening took place. -/
theorem confided_of_opening (exposes : Exposes text rest)
    (start : text <+: exchange.tunnelText environment) :
    Confided environment calls exchange
      (.opening exchange.endpoint.host.text exchange.endpoint.port exchange.endpoint.useTls ::
        rest) := by
  refine ⟨⟨rest, rfl, exposes.goingOn⟩, ?_, ?_, ?_⟩
  · show exposedBytes rest <+: _
    rw [exposes.exposed]
    exact start.trans (List.prefix_append _ _)
  · show securedBytes rest <+: _
    rw [exposes.secured]
    exact List.nil_prefix
  · intro part cut some
    refine absurd (sentThrough_of_isPrefix cut ?_) some
    rw [sentThrough_opening]
    exact exposes.secured

/-- Going on without sending changes nothing. -/
theorem Confided.goOn {α : Type} (confided : Confided environment calls exchange conversation)
    {computation : Traced Event α} (within : Traced.Emits (Within ∅ Set.univ) computation) :
    Confided environment calls exchange (conversation ++ computation.events) := by
  have nothing := exposes_nothing within
  obtain ⟨rest, rfl, goingOn⟩ := confided.begins
  refine ⟨⟨rest ++ computation.events, rfl, ?_⟩, ?_, ?_, ?_⟩
  · intro event member
    rcases List.mem_append.mp member with here | there
    · exact goingOn event here
    · exact nothing.goingOn event there
  · rw [exposedBytes_append, nothing.exposed, List.append_nil]
    exact confided.exposed
  · rw [securedBytes_append, nothing.secured, List.append_nil]
    exact confided.secured
  · intro part cut some
    rcases prefix_append_cases cut with here | ⟨more, rfl, there⟩
    · exact confided.verified part here some
    · have nothing := exposes_nothing fun event member => within event (there.subset member)
      rw [securedBytes_append, nothing.secured, List.append_nil] at some
      rw [exposedBytes_append, nothing.exposed, List.append_nil]
      exact confided.verified _ (List.prefix_refl _) some

/-- A conversation on an open connection. -/
theorem confided_of_writing {way : List Handle} {written : List Event}
    (exposes : Exposes (exchange.tunnelText environment) rest)
    (kind : Client.secured way = exchange.endpoint.useTls)
    (verified : exchange.endpoint.useTls = true →
      Verified environment calls.tls exchange.endpoint.host.text)
    (within : ∀ event ∈ written, Within {way} Set.univ event)
    (start : sentBy way written <+: exchange.text) :
    Confided environment calls exchange
      (.opening exchange.endpoint.host.text exchange.endpoint.port exchange.endpoint.useTls ::
        (rest ++ written)) := by
  have other : ∀ {safe : Bool}, exchange.endpoint.useTls ≠ safe →
      sentThrough safe written = [] := by
    intro safe differs
    refine sentThrough_of_other within fun path member => ?_
    rw [Set.mem_singleton_iff.mp member, kind]
    exact differs
  have same : ∀ {safe : Bool}, exchange.endpoint.useTls = safe →
      sentThrough safe written = sentBy way written :=
    fun agrees => sentThrough_of_way within (kind.trans agrees)
  refine ⟨⟨rest ++ written, rfl, ?_⟩, ?_, ?_, ?_⟩
  · intro event member
    rcases List.mem_append.mp member with here | there
    · exact exposes.goingOn event here
    · exact isOpening_of_within within event there
  · show exposedBytes (rest ++ written) <+: _
    rw [exposedBytes_append, exposes.exposed]
    cases secure : exchange.endpoint.useTls with
    | false =>
        have shown : exposedBytes written = sentBy way written := same secure
        rw [shown]
        exact (List.prefix_append_right_inj _).mpr start
    | true =>
        have hidden : exposedBytes written = [] := other (by rw [secure]; decide)
        rw [hidden]
        exact List.prefix_refl _
  · show securedBytes (rest ++ written) <+: _
    rw [securedBytes_append, exposes.secured, List.nil_append]
    cases secure : exchange.endpoint.useTls with
    | false =>
        have silent : securedBytes written = [] := other (by rw [secure]; decide)
        rw [silent]
        exact List.prefix_refl _
    | true =>
        have sent : securedBytes written = sentBy way written := same secure
        rw [sent]
        exact start
  · have unsent : sentThrough true rest = [] := exposes.secured
    have shown : sentThrough false rest = exchange.tunnelText environment := exposes.exposed
    intro part cut some
    obtain ⟨more, rfl, later⟩ : ∃ more, part = .opening exchange.endpoint.host.text
        exchange.endpoint.port exchange.endpoint.useTls :: (rest ++ more) ∧ more <+: written := by
      rw [← List.cons_append] at cut
      rcases prefix_append_cases cut with early | ⟨more, rfl, later⟩
      · refine absurd (sentThrough_of_isPrefix early ?_) some
        rw [sentThrough_opening, unsent]
      · exact ⟨more, rfl, later⟩
    rw [securedBytes, sentThrough_opening, sentThrough_append, unsent, List.nil_append] at some
    have secure : exchange.endpoint.useTls = true := by
      rw [← Bool.not_eq_false]
      exact fun plain => some (sentThrough_of_isPrefix later (other (by rw [plain]; decide)))
    refine ⟨verified secure, ?_⟩
    rw [exposedBytes, sentThrough_opening, sentThrough_append, shown,
      sentThrough_of_isPrefix later (other (by rw [secure]; decide)), List.append_nil]

end Confided

/-- **One request is confided**, wherever it ends. -/
theorem confided_oneRequestTraced (world : NativeWorld) (hop : ℕ) (exchange : Exchange) :
    Confided world.environment (world.calls hop exchange).opening exchange
      (oneRequestTraced world hop exchange).events := by
  obtain ⟨rest, text, events, exposes, start, whole⟩ := exposes_openConnection world.environment
    (world.calls hop exchange).opening exchange.endpoint.host.text exchange.endpoint.port
    exchange.endpoint.useTls
  have opening : (world.opened hop exchange).events = _ := events
  unfold oneRequestTraced
  rw [Traced.events_bind, opening]
  cases opened : (world.opened hop exchange).value with
  | mk success record =>
      dsimp only
      split
      · exact (confided_of_opening exposes start).goOn (.pure _)
      · rename_i succeeded
        rw [Bool.not_eq_false] at succeeded
        subst succeeded
        obtain ⟨kind, verified⟩ := verified_openConnection opened
        obtain rfl := whole (congrArg Prod.fst opened)
        obtain ⟨left, split, _⟩ := sentBy_writeRequest record
          (world.calls hop exchange).headWrites (world.calls hop exchange).bodyWrites
          exchange.request exchange.body
        have within : Traced.Emits (Within {record.way} Set.univ)
            (world.written hop exchange record) :=
          within_writeRequest (Set.mem_singleton _) _ _ _ _
        have writing : Confided world.environment (world.calls hop exchange).opening exchange _ :=
          confided_of_writing exposes kind verified within ⟨left, split.symm⟩
        rw [Traced.events_bind, ← List.append_assoc]
        refine writing.goOn ?_
        split
        · exact within_closing _ _
        · refine .bind (within_readHeadLoopTraced (Set.mem_univ _) _ _ _) ?_
          split
          · exact within_closing _ _
          · exact .pure _

/-- **A turn is confided**: what follows the request sends nothing. -/
theorem confided_turnTraced (world : NativeWorld) (call : Call) (state : LoopState) :
    Confided world.environment (world.calls state.redirects (state.exchange call)).opening
      (state.exchange call) (turnTraced world call state).events := by
  unfold turnTraced
  rw [Traced.events_bind]
  refine (confided_oneRequestTraced world state.redirects (state.exchange call)).goOn ?_
  split
  · exact .pure _
  · split
    · exact .bind (within_deliverTraced _ _ _ (Set.mem_univ _)) (.pure _)
    · split
      · exact within_closing _ _
      · split
        · exact within_closing _ _
        · exact within_closing _ _

/-! ## The whole run -/

/-- **A run, conversation by conversation.** The conversations of a trace are the turns of the
loop, one for each exchange. -/
theorem conversations_of_run {fuel : ℕ} {world : NativeWorld} {call : Call}
    {ran : Traced Event Outcome} (returned : sendRequestTraced fuel world call = some ran) :
    ∃ visits : List LoopState, ran.value.exchanges = visits.map (LoopState.exchange call) ∧
      conversations ran.events = visits.map (fun visit => (turnTraced world call visit).events) ∧
      ∀ (index : ℕ) (visit : LoopState), visits[index]? = some visit → visit.redirects = index := by
  unfold sendRequestTraced at returned
  cases began : start world.toWorld call with
  | error code =>
      simp only [began, Option.some.injEq] at returned
      subst returned
      exact ⟨[], rfl, rfl, fun _ _ found => by cases found⟩
  | ok state =>
      simp only [began, runTraced_eq, turnTraced_value, Option.map_map, Option.map_eq_some_iff,
        Function.comp_apply] at returned
      obtain ⟨⟨visits, result⟩, looped, rfl⟩ := returned
      refine ⟨visits, rfl, ?_, ?_⟩
      · have marked : ∀ part ∈ visits.map (fun visit => (turnTraced world call visit).events),
            MarkedOnce isOpening part := by
          intro part member
          obtain ⟨visit, _, rfl⟩ := List.mem_map.mp member
          obtain ⟨rest, begins, goingOn⟩ := (confided_turnTraced world call visit).begins
          exact ⟨_, rest, begins, rfl, goingOn⟩
        have cut := cutAtMarks_flatten marked
        rwa [← List.flatMap_def] at cut
      · intro index visit found
        have counted := visits_redirects looped (started_of_start began).redirects found
        omega

/-- **The conversations of a run are confided.** -/
theorem confided_of_run {fuel : ℕ} {world : NativeWorld} {call : Call} {ran : Traced Event Outcome}
    (returned : sendRequestTraced fuel world call = some ran) {hop : ℕ} {exchange : Exchange}
    {conversation : List Event} (sent : ran.value.exchanges[hop]? = some exchange)
    (traced : (conversations ran.events)[hop]? = some conversation) :
    Confided world.environment (world.calls hop exchange).opening exchange conversation := by
  obtain ⟨visits, exchanges, traces, counted⟩ := conversations_of_run returned
  rw [exchanges, List.getElem?_map, Option.map_eq_some_iff] at sent
  obtain ⟨visit, found, rfl⟩ := sent
  rw [traces, List.getElem?_map, found] at traced
  obtain rfl := Option.some.inj traced
  rw [← counted hop visit found]
  exact confided_turnTraced world call visit

/-- **Nothing travels in the clear that should not.** Whatever the servers, the proxy and the calls
do, the trace of a run has one conversation for each exchange, in order, and each of them is
confided. -/
theorem exchanges_confided (world : NativeWorld) (call : Call) :
    ∃ ran, (∀ fuel, 9 ≤ fuel → sendRequestTraced fuel world call = some ran) ∧
      (conversations ran.events).flatten = ran.events ∧
      (conversations ran.events).length = ran.value.exchanges.length ∧
      ∀ hop exchange conversation, ran.value.exchanges[hop]? = some exchange →
        (conversations ran.events)[hop]? = some conversation →
          Confided world.environment (world.calls hop exchange).opening exchange conversation := by
  obtain ⟨ran, returns⟩ := sendRequestTraced_returns world call
  obtain ⟨visits, exchanges, traces, _⟩ := conversations_of_run (returns 9 le_rfl)
  refine ⟨ran, returns, List.flatten_splitBy _ _, ?_, ?_⟩
  · rw [traces, exchanges, List.length_map, List.length_map]
  · exact fun hop exchange conversation sent traced =>
      confided_of_run (returns 9 le_rfl) sent traced

/-! ## Credentials and bodies -/

/-- An exchange that carries a line of credentials, or a body. -/
def Secret (call : Call) (exchange : Exchange) : Prop :=
  (∃ line ∈ requestHeaderLines exchange.request, CredentialLine call.names line) ∨
  exchange.body ≠ []

/-- A request with a body is not redirected. -/
theorem body_of_first {fuel : ℕ} {world : World} {call : Call} {state : LoopState}
    {visits : List LoopState} {result : ℕ × Delivery} (started : Started call state)
    (ran : run (turn world call) fuel state = some (visits, result)) {hop : ℕ} {visit : LoopState}
    (found : visits[hop]? = some visit) (filled : call.body ≠ []) : hop = 0 := by
  by_contra later
  have first := visits_head ran
  have bound := (List.getElem?_eq_some_iff.mp found).1
  have second := List.getElem?_eq_getElem (by omega : 0 + 1 < visits.length)
  have get := (hop_of_turn (turn_of_visits ran first second)).isGet
  rw [started.request] at get
  exact filled (started.noBody get)

/-- **A secret goes to the scheme and the host of the call.** -/
theorem secret_confined {fuel : ℕ} {world : World} {call : Call} {outcome : Outcome}
    (ran : sendRequest fuel world call = some outcome) {hop : ℕ} {exchange : Exchange}
    (sent : outcome.exchanges[hop]? = some exchange) (secret : Secret call exchange) :
    exchange.endpoint.useTls = call.useTls ∧
      foldCase exchange.endpoint.host.bytes = foldCase call.host := by
  rcases sendRequest_eq_some ran with ⟨_, _, _, rfl⟩ | ⟨state, visits, _, started, finished, all⟩
  · cases sent
  · obtain ⟨visit, found, rfl⟩ := visit_of_exchange all sent
    have same : sameOrigin state.current visit.current = true := by
      rcases secret with ⟨line, header, credential⟩ | filled
      · rcases visits_confined finished found with kept | clean
        · exact kept hop visit le_rfl found
        · exact absurd credential (clean.lines line header)
      · obtain rfl := body_of_first started finished found filled
        rw [visits_head finished] at found
        rw [Option.some.inj found]
        exact sameOrigin_refl _
    obtain ⟨tls, _, host⟩ := sameOrigin_iff.mp same
    rw [started.useTls] at tls
    rw [started.host] at host
    exact ⟨tls.symm, host.symm⟩

/-- **A call with TLS never shows its secrets.** An exchange that carries a line of credentials or a
body exposes nothing but the request of a tunnel, and sends what it sends through TLS, to a server
that is verified by the host of the call. -/
theorem credentials_never_exposed (fuel : ℕ) (world : NativeWorld) (call : Call)
    (ran : Traced Event Outcome) (secure : call.useTls = true)
    (returned : sendRequestTraced fuel world call = some ran) (hop : ℕ) (exchange : Exchange)
    (conversation : List Event) (sent : ran.value.exchanges[hop]? = some exchange)
    (traced : (conversations ran.events)[hop]? = some conversation)
    (secret : Secret call exchange) :
    foldCase exchange.endpoint.host.bytes = foldCase call.host ∧
      exposedBytes conversation <+: exchange.tunnelText world.environment ∧
      securedBytes conversation <+: exchange.text ∧
      (securedBytes conversation ≠ [] →
        Verified world.environment (world.calls hop exchange).opening.tls
          exchange.endpoint.host.text) := by
  have plain : sendRequest fuel world.toWorld call = some ran.value := by
    rw [← value_sendRequestTraced, returned, Option.map_some]
  obtain ⟨tls, host⟩ := secret_confined plain sent secret
  rw [secure] at tls
  have confided := confided_of_run returned sent traced
  have exposed := confided.exposed
  have secured := confided.secured
  rw [tls, if_pos rfl] at exposed secured
  rw [List.append_nil] at exposed
  exact ⟨host, exposed, secured,
    fun some => (confided.verified conversation (List.prefix_refl _) some).1⟩

/-- The run of the secure call there. -/
def secureRun : Traced Event Outcome :=
  (sendRequestTraced 9 proxiedWorld secureCall).get (by decide +kernel)

theorem credentials_never_exposed_proxied :
    exposedBytes secureRun.events <+: tunnelRequest (ascii "a") 443 ∧
      securedBytes secureRun.events = authorizedCall.requestHeaders := by
  have returned : sendRequestTraced 9 proxiedWorld secureCall = some secureRun :=
    (Option.some_get _).symm
  have header : ascii "Authorization: x" ∈ requestHeaderLines secureExchange.request := by
    decide +kernel
  have proxied : secureExchange.tunnelText proxiedWorld.environment =
      tunnelRequest (ascii "a") 443 := by decide +kernel
  obtain ⟨_, exposed, _⟩ :=
    credentials_never_exposed 9 proxiedWorld secureCall secureRun rfl returned
    0 secureExchange secureRun.events (by decide +kernel) (by decide +kernel)
    (Or.inl ⟨_, header, Or.inl (by decide)⟩)
  rw [proxied] at exposed
  exact ⟨exposed, by decide +kernel⟩

end IcuTransport.Client
