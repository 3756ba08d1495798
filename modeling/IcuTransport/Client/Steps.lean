import IcuTransport.Client.Run
import IcuTransport.Redirect.Editing

/-!
# The steps of a run

What one turn of the loop can do, and what a run is made of: it visits a chain of states, from the
start of the call to the state in which it finishes, and a hop leads from each to the next. A hop
resolves a location and rewrites the request, which preserves credentials exactly when the origin
stays the same.
-/

set_option autoImplicit false

namespace IcuTransport.Client

open Ascii TextScan TurnLoop Wire Redirect Capture

/-! ## Turns -/

/-- The response to the exchange of a state, when that is a redirect to be followed. -/
def followable (world : World) (call : Call) (state : LoopState) : Option ResponseHead :=
  match oneRequest (world.server state.redirects (state.exchange call)) with
  | .error _ => none
  | .ok response => if canFollow state.request response.head then some response.head else none

/-- The names of credential headers of a call. -/
def Call.names (call : Call) : Bytes := call.credentialHeaderNames.getD []

/-- One followed redirect, as far as requests and endpoints are concerned. -/
structure Hop (call : Call) (state later : LoopState) : Prop where
  isGet : isGet state.request = true
  resolved : ∃ location, resolveLocation state.current state.request location = some later.current
  rewritten : rewriteGetRequestWithPolicy state.request later.current
    (sameOrigin state.current later.current) (some call.names) = some later.request

theorem redirectedGetRequest_eq (call : Call) (current next : Endpoint) (request : Bytes) :
    redirectedGetRequest call current next request =
      rewriteGetRequestWithPolicy request next (sameOrigin current next) (some call.names) := by
  unfold redirectedGetRequest
  split
  · rename_i same
    rw [same, rewriteGetRequest_eq (some call.names)]
  · rename_i crosses
    rw [Bool.not_eq_true] at crosses
    rw [crosses, Call.names]

section Turns

variable {world : World} {call : Call} {state later : LoopState}

theorem follow_eq_some_iff {head : ResponseHead} :
    follow world call state head = some later ↔
      resolveLocation state.current state.request head.location.text = some later.current ∧
        world.allocates state.redirects = true ∧
        rewriteGetRequestWithPolicy state.request later.current
          (sameOrigin state.current later.current) (some call.names) = some later.request ∧
        later.redirects = state.redirects + 1 := by
  simp only [follow, redirectedGetRequest_eq, Option.bind_eq_some_iff]
  constructor
  · rintro ⟨next, resolved, followed⟩
    split at followed
    · rename_i allocated
      obtain ⟨request, rewritten, rfl⟩ := Option.map_eq_some_iff.mp followed
      exact ⟨resolved, allocated, rewritten, rfl⟩
    · cases followed
  · rintro ⟨resolved, allocated, rewritten, count⟩
    refine ⟨later.current, resolved, ?_⟩
    rw [if_pos allocated, rewritten, Option.map_some, ← count]

/-- **When a turn goes on**: the response is a redirect to be followed, the budget of redirects is
not used up, and the location is followed. -/
theorem turn_eq_next_iff :
    turn world call state = .next later ↔
      state.redirects < maxRedirects ∧
        ∃ head, followable world call state = some head ∧
          follow world call state head = some later := by
  unfold turn followable
  cases oneRequest (world.server state.redirects (state.exchange call)) with
  | error code => simp
  | ok response =>
      simp only
      by_cases follows : canFollow state.request response.head = true
      · simp only [follows, Bool.true_eq_false, if_false, if_true, Option.some.injEq,
          exists_eq_left']
        split
        · rename_i spent
          simp only [reduceCtorEq, false_iff, not_and]
          omega
        · rename_i left
          cases followed : follow world call state response.head with
          | none => simp
          | some found =>
              simp only [Turn.next.injEq, Option.some.injEq]
              exact ⟨fun same => ⟨by omega, same⟩, fun holds => holds.2⟩
      · simp [follows]

theorem hop_of_turn (went : turn world call state = .next later) : Hop call state later := by
  obtain ⟨_, head, followed, found⟩ := turn_eq_next_iff.mp went
  obtain ⟨resolved, _, rewritten, _⟩ := follow_eq_some_iff.mp found
  refine ⟨?_, ⟨_, resolved⟩, rewritten⟩
  unfold followable at followed
  split at followed
  · cases followed
  · split at followed
    · rename_i follows
      simp only [canFollow, Bool.and_eq_true] at follows
      exact follows.1.1
    · cases followed

theorem redirects_of_turn (went : turn world call state = .next later) :
    state.redirects < maxRedirects ∧ later.redirects = state.redirects + 1 := by
  obtain ⟨left, _, _, found⟩ := turn_eq_next_iff.mp went
  exact ⟨left, (follow_eq_some_iff.mp found).2.2.2⟩

/-- **How a turn finishes**: the exchange failed, the response is delivered, or a redirect is not
followed. -/
theorem turn_eq_finished {result : ℕ} {delivery : Delivery}
    (finished : turn world call state = .finished (result, delivery)) :
    (∃ code, oneRequest (world.server state.redirects (state.exchange call)) = .error code ∧
      result = exchangeFailure call.bodyOutputPath.isSome state.current.useTls code ∧
      delivery = .nothing) ∨
    (∃ response, oneRequest (world.server state.redirects (state.exchange call)) = .ok response ∧
      canFollow state.request response.head = false ∧
      (result, delivery) = deliver world call response) ∨
    (∃ head, followable world call state = some head ∧ result = 8 ∧ delivery = .nothing) := by
  unfold turn at finished
  unfold followable
  cases answer : oneRequest (world.server state.redirects (state.exchange call)) with
  | error code =>
      simp only [answer, Turn.finished.injEq, Prod.mk.injEq] at finished
      exact Or.inl ⟨code, rfl, finished.1.symm, finished.2.symm⟩
  | ok response =>
      simp only [answer] at finished
      split at finished
      · rename_i stays
        simp only [Turn.finished.injEq] at finished
        exact Or.inr (Or.inl ⟨response, rfl, stays, finished.symm⟩)
      · rename_i follows
        rw [Bool.not_eq_false] at follows
        right
        right
        refine ⟨response.head, by simp only [follows, if_true], ?_⟩
        split at finished
        · simp only [Turn.finished.injEq, Prod.mk.injEq] at finished
          exact ⟨finished.1.symm, finished.2.symm⟩
        · split at finished
          · simp only [Turn.finished.injEq, Prod.mk.injEq] at finished
            exact ⟨finished.1.symm, finished.2.symm⟩
          · cases finished

/-- A turn that finishes on a redirect gives it up. -/
theorem finished_of_followable {head : ResponseHead} {result : ℕ} {delivery : Delivery}
    (followed : followable world call state = some head)
    (finished : turn world call state = .finished (result, delivery)) :
    result = 8 ∧ delivery = .nothing := by
  rcases turn_eq_finished finished with ⟨code, failed, _⟩ | ⟨response, answered, stays, _⟩ |
    ⟨_, _, gaveUp⟩
  · simp only [followable, failed] at followed
    cases followed
  · simp only [followable, answered, stays] at followed
    cases followed
  · exact gaveUp

end Turns

/-! ## The start -/

/-- The state a call starts from. -/
structure Started (call : Call) (state : LoopState) : Prop where
  redirects : state.redirects = 0
  request : state.request = call.requestHeaders
  useTls : state.current.useTls = call.useTls
  port : state.current.port = call.port
  host : state.current.host.bytes = call.host
  target : isGet call.requestHeaders = true →
    requestTarget call.requestHeaders maxTargetBytes = some state.current.target
  noBody : isGet call.requestHeaders = true → call.body = []

theorem started_of_start {world : World} {call : Call} {state : LoopState}
    (started : start world call = .ok state) : Started call state := by
  unfold start at started
  split at started
  · cases started
  · split at started
    · cases started
    · split at started
      · cases started
      · rename_i bodyAllowed
        split at started
        · cases started
        · rename_i host stored
          dsimp only at started
          split at started
          · cases started
          · rename_i targetFound
            split at started
            · cases started
            · cases started
              refine ⟨rfl, rfl, rfl, rfl, CharArray.store_eq_some_iff.mp stored, ?_, ?_⟩
              · intro get
                cases target : requestTarget call.requestHeaders maxTargetBytes with
                | none => exact absurd ⟨get, target⟩ targetFound
                | some found => rfl
              · intro get
                have empty : call.requestBodyLength = 0 := by
                  by_contra filled
                  exact bodyAllowed ⟨get, filled⟩
                simp [Call.body, empty]

theorem start_error {world : World} {call : Call} {code : ℕ}
    (refused : start world call = .error code) : code = 2 ∨ code = 3 := by
  unfold start at refused
  split at refused
  · cases refused
    exact Or.inl rfl
  · split at refused
    · cases refused
      exact Or.inl rfl
    · split at refused
      · cases refused
        exact Or.inl rfl
      · split at refused
        · cases refused
          exact Or.inr rfl
        · dsimp only at refused
          split at refused
          · cases refused
            exact Or.inr rfl
          · split at refused
            · cases refused
              exact Or.inr rfl
            · cases refused

/-- **What a run is**: a call that is refused without an exchange, or the visits of the loop from
the start. -/
theorem sendRequest_eq_some {fuel : ℕ} {world : World} {call : Call} {outcome : Outcome}
    (ran : sendRequest fuel world call = some outcome) :
    (∃ code, start world call = .error code ∧ (code = 2 ∨ code = 3) ∧
      outcome = ⟨[], code, .nothing⟩) ∨
    ∃ state visits, start world call = .ok state ∧ Started call state ∧
      run (turn world call) fuel state = some (visits, outcome.result, outcome.delivery) ∧
      outcome.exchanges = visits.map (LoopState.exchange call) := by
  unfold sendRequest at ran
  cases began : start world call with
  | error code =>
      simp only [began, Option.some.injEq] at ran
      exact Or.inl ⟨code, rfl, start_error began, ran.symm⟩
  | ok state =>
      simp only [began, Option.map_eq_some_iff, Prod.exists] at ran
      obtain ⟨visits, result, delivery, finished, rfl⟩ := ran
      exact Or.inr ⟨state, visits, rfl, started_of_start began, finished, rfl⟩

/-- An exchange of a run belongs to a visit of the loop. -/
theorem visit_of_exchange {call : Call} {visits : List LoopState} {exchanges : List Exchange}
    (listed : exchanges = visits.map (LoopState.exchange call)) {hop : ℕ} {exchange : Exchange}
    (sent : exchanges[hop]? = some exchange) :
    ∃ state, visits[hop]? = some state ∧ state.exchange call = exchange := by
  rw [listed, List.getElem?_map] at sent
  exact Option.map_eq_some_iff.mp sent

/-! ## A server that redirects once -/

/-- A response in one read. -/
def answerOf (text : String) (filled : ascii text ≠ [])
    (fits : (ascii text).length ≤ readCapacity) :
    Answer :=
  .answered ⟨[⟨ascii text, filled, fits⟩], .closed⟩

/-- A redirect to another path of the same server. -/
def redirectAnswer : Answer :=
  answerOf "HTTP/1.0 302 Found\r\nLocation: /b\r\n\r\n" (by decide) (by decide)

/-- A stream that takes everything. -/
def writable : OutputStream := ⟨fun _ => .complete, true⟩

/-- A server that answers the first request with a redirect and the others with two bytes. -/
def redirectingOnce : World where
  server hop _ :=
    if hop = 0 then redirectAnswer
    else answerOf "HTTP/1.0 200 OK\r\n\r\nhi" (by decide) (by decide)
  duplicates := true
  allocates _ := true
  stdout := writable
  files := ⟨true, writable, true, true, ⟨true, true, true⟩⟩

/-- A GET with a line of credentials. -/
def authorizedCall : Call where
  host := ascii "a"
  port := 80
  requestHeaders := ascii "GET / HTTP/1.0\r\nHost: a\r\nAuthorization: x\r\n\r\n"
  requestBody := none
  requestBodyLength := 0
  useTls := false
  credentialHeaderNames := none
  bodyOutputPath := none
  metadataOutputPath := none

/-- What the first exchange of that call sends. -/
def authorizedExchange : Exchange :=
  ⟨⟨false, 80, ⟨ascii "a", by decide⟩, ⟨ascii "/", by decide⟩⟩,
    ascii "GET / HTTP/1.0\r\nHost: a\r\nAuthorization: x\r\n\r\n", []⟩

/-- What its second exchange sends. -/
def followedExchange : Exchange :=
  ⟨⟨false, 80, ⟨ascii "a", by decide⟩, ⟨ascii "/b", by decide⟩⟩,
    ascii "GET /b HTTP/1.0\r\nHost: a\r\nAuthorization: x\r\n\r\n", []⟩

theorem sendRequest_redirectingOnce :
    sendRequest 9 redirectingOnce authorizedCall =
      some ⟨[authorizedExchange, followedExchange], 0, ⟨ascii "hi", none, none⟩⟩ := by
  decide +kernel

/-- A server that leads to another host, from there to a relative path, and back. -/
def wandering : World :=
  { redirectingOnce with
    server := fun hop _ =>
      match hop with
      | 0 => answerOf "HTTP/1.0 302 Found\r\nLocation: http://b:81/m/n?q\r\n\r\n" (by decide)
          (by decide)
      | 1 => answerOf "HTTP/1.0 302 Found\r\nLocation: c\r\n\r\n" (by decide) (by decide)
      | 2 => answerOf "HTTP/1.0 302 Found\r\nLocation: //a/e\r\n\r\n" (by decide) (by decide)
      | _ => answerOf "HTTP/1.0 200 OK\r\n\r\nhi" (by decide) (by decide) }

/-- What the second exchange with it sends. -/
def foreignExchange : Exchange :=
  ⟨⟨false, 81, ⟨ascii "b", by decide⟩, ⟨ascii "/m/n?q", by decide⟩⟩,
    ascii "GET /m/n?q HTTP/1.0\r\nHost: b:81\r\n\r\n", []⟩

/-- What the third one sends. -/
def relativeExchange : Exchange :=
  ⟨⟨false, 81, ⟨ascii "b", by decide⟩, ⟨ascii "/m/c", by decide⟩⟩,
    ascii "GET /m/c HTTP/1.0\r\nHost: b:81\r\n\r\n", []⟩

/-- What the last one sends. -/
def returnedExchange : Exchange :=
  ⟨⟨false, 80, ⟨ascii "a", by decide⟩, ⟨ascii "/e", by decide⟩⟩,
    ascii "GET /e HTTP/1.0\r\nHost: a\r\n\r\n", []⟩

theorem sendRequest_wandering :
    sendRequest 9 wandering authorizedCall =
      some ⟨[authorizedExchange, foreignExchange, relativeExchange, returnedExchange], 0,
        ⟨ascii "hi", none, none⟩⟩ := by
  decide +kernel

end IcuTransport.Client
