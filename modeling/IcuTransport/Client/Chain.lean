import IcuTransport.Client.Steps

/-!
# Requests along a chain of redirects

The program compares each hop only with the one before it and rewrites the text it wrote itself.
What holds of whole chains follows from one invariant of a single hop: a state is clear when its
host and target are visible text and the target is what stands in its request. A hop from a clear
state leads to a clear state, and so does any hop that crosses to another origin
(`Hop.clear`). From a clear state on, the header lines of a request are edited lines of the request
before it (`Hop.edits`).
-/

set_option autoImplicit false

namespace IcuTransport.Client

open Ascii TextScan TurnLoop Wire Redirect Capture

/-! ## One hop -/

/-- The host and the target are visible text, and the target is the one in the request. -/
structure Clear (state : LoopState) : Prop where
  host : Visible state.current.host.bytes
  target : Visible state.current.target.bytes
  requested : requestTarget state.request maxTargetBytes = some state.current.target

/-- The header lines of a request are those of an earlier one, edited for the endpoint of the
state. -/
structure Edited (call : Call) (preserve : Bool) (request : Bytes) (state : LoopState) : Prop where
  complete : HeadersComplete request
  written : ∃ authority, endpointAuthority state.current authorityCapacity = some authority ∧
    state.request = redirectedRequest state.current.target.bytes
      (redirectedLines authority preserve (some call.names) (requestHeaderLines request))

section Hops

variable {call : Call} {state later : LoopState}

/-- A hop edits the lines of the request before it. -/
theorem Hop.edits (hop : Hop call state later) :
    Edited call (sameOrigin state.current later.current) state.request later := by
  obtain ⟨complete, authority, found, written, _⟩ :=
    rewriteGetRequestWithPolicy_eq_some_iff.mp hop.rewritten
  exact ⟨complete, authority, found, written⟩

/-- The target of a hop is visible text and not empty, if the target before it is visible or the
origin changes. -/
theorem Hop.visible (hop : Hop call state later)
    (known : Clear state ∨ sameOrigin state.current later.current = false) :
    Visible later.current.host.bytes ∧ Visible later.current.target.bytes ∧
      later.current.target.bytes ≠ [] := by
  obtain ⟨location, resolved⟩ := hop.resolved
  have rooted : ∀ {target : Bytes}, target.head? = some slash → target ≠ [] := by
    rintro _ head rfl
    cases head
  rcases resolveLocation_cases resolved with ⟨host, target, _⟩ | ⟨tls, port, host, target⟩
  · exact ⟨host.visible, target.visible, rooted target.rooted⟩
  · rcases known with clear | crosses
    · refine ⟨host ▸ clear.host, ?_⟩
      rcases target with target | ⟨read, kept, text, requested, within, bytes, filled, visible, _⟩
      · exact ⟨target.visible, rooted target.rooted⟩
      · obtain rfl := Option.some.inj (requested.symm.trans clear.requested)
        rw [bytes]
        refine ⟨(clear.target.sublist within.sublist).append visible, fun empty => ?_⟩
        exact filled (List.append_eq_nil_iff.mp empty).2
    · have same : sameOrigin state.current later.current = true :=
        sameOrigin_iff.mpr ⟨tls.symm, port.symm, by rw [host]⟩
      rw [same] at crosses
      cases crosses

/-- **A hop from a clear state, or to another origin, leads to a clear state.** -/
theorem Hop.clear (hop : Hop call state later)
    (known : Clear state ∨ sameOrigin state.current later.current = false) : Clear later := by
  obtain ⟨host, target, filled⟩ := hop.visible known
  obtain ⟨authority, _, written⟩ := hop.edits.written
  refine ⟨host, target, ?_⟩
  rw [written]
  exact requestTarget_redirectedRequest filled target _

/-- **The lines of an edited request** are the edited lines, where the state is clear. -/
theorem Edited.lines {preserve : Bool} {request : Bytes}
    (edited : Edited call preserve request later)
    (clear : Clear later) :
    HeadersComplete later.request ∧
      ∃ authority, endpointAuthority later.current authorityCapacity = some authority ∧
        requestHeaderLines later.request =
          redirectedLines authority preserve (some call.names) (requestHeaderLines request) := by
  obtain ⟨authority, found, written⟩ := edited.written
  have visible : Visible authority := visible_endpointAuthority found clear.host
  have cuts : ∀ line ∈ redirectedLines authority preserve (some call.names)
      (requestHeaderLines request), line ≠ [] ∧ FirstAfter crlf line :=
    redirectedLines_cut visible edited.complete.lines_cut
  rw [written]
  exact ⟨headersComplete_redirectedRequest clear.target cuts, authority, found,
    requestHeaderLines_redirectedRequest clear.target cuts⟩

/-- **Edits compose along a hop.** -/
theorem Hop.compose (hop : Hop call state later) {preserve : Bool} {request : Bytes}
    (edited : Edited call preserve request state) (clear : Clear state) :
    Edited call (preserve && sameOrigin state.current later.current) request later := by
  obtain ⟨_, authority, _, lines⟩ := edited.lines clear
  obtain ⟨authority', found, written⟩ := hop.edits.written
  refine ⟨edited.complete, authority', found, ?_⟩
  rw [written, lines, redirectedLines_redirectedLines]

end Hops

/-! ## Credentials -/

/-- No header line of the request carries credentials, and the state is clear. -/
structure Clean (call : Call) (state : LoopState) : Prop where
  clear : Clear state
  lines : ∀ line ∈ requestHeaderLines state.request, ¬ CredentialLine call.names line

theorem Hop.clean {call : Call} {state later : LoopState} (hop : Hop call state later)
    (known : Clean call state ∨ sameOrigin state.current later.current = false) :
    Clean call later := by
  have clear : Clear later := hop.clear (known.imp_left Clean.clear)
  obtain ⟨_, authority, _, lines⟩ := hop.edits.lines clear
  refine ⟨clear, fun line member credential => ?_⟩
  rw [lines] at member
  rcases known with clean | crosses
  · rcases mem_redirectedLines member with rfl | ⟨within, _⟩
    · exact CredentialLine.not_hostLine credential
    · exact clean.lines line within credential
  · rw [crosses] at member
    exact not_credentialLine_of_mem_redirectedLines member credential

/-- At every visit of a run the origin has always been that of the start, or the request is
clean. -/
theorem visits_confined {fuel : ℕ} {world : World} {call : Call} {state : LoopState}
    {visits : List LoopState} {result : ℕ × Delivery}
    (ran : run (turn world call) fuel state = some (visits, result)) {index : ℕ} {visit : LoopState}
    (found : visits[index]? = some visit) :
    (∀ earlier other, earlier ≤ index → visits[earlier]? = some other →
      sameOrigin state.current other.current = true) ∨ Clean call visit := by
  refine visits_induction ran (motive := fun index visit =>
    (∀ earlier other, earlier ≤ index → visits[earlier]? = some other →
      sameOrigin state.current other.current = true) ∨ Clean call visit) ?_ ?_ found
  · left
    intro earlier other early listed
    obtain rfl := Nat.le_zero.mp early
    rw [visits_head ran] at listed
    rw [← Option.some.inj listed]
    exact sameOrigin_refl state.current
  · intro index first second here after went known
    have hop := hop_of_turn went
    cases origin : sameOrigin first.current second.current with
    | false => exact Or.inr (hop.clean (Or.inr origin))
    | true =>
        rcases known with kept | clean
        · left
          intro earlier other early listed
          rcases Nat.le_succ_iff.mp early with before | rfl
          · exact kept earlier other before listed
          · rw [after] at listed
            rw [← Option.some.inj listed]
            exact sameOrigin_trans (kept index first le_rfl here) origin
        · exact Or.inr (hop.clean (Or.inl clean))

/-- **Credentials stay at the origin of the call.** If the request of some hop still has a line of
credentials, then that hop and every hop before it went to the scheme, the port and the host of the
call. -/
theorem credentials_confined (fuel : ℕ) (world : World) (call : Call) (outcome : Outcome)
    (ran : sendRequest fuel world call = some outcome) (hop : ℕ) (exchange : Exchange)
    (sent : outcome.exchanges[hop]? = some exchange) (line : Bytes)
    (header : line ∈ requestHeaderLines exchange.request)
    (credential : CredentialLine call.names line) :
    ∀ earlier other, earlier ≤ hop → outcome.exchanges[earlier]? = some other →
      other.endpoint.useTls = call.useTls ∧ other.endpoint.port = call.port ∧
        foldCase other.endpoint.host.bytes = foldCase call.host := by
  intro earlier other early listed
  rcases sendRequest_eq_some ran with ⟨_, _, _, rfl⟩ | ⟨state, visits, _, started, finished, all⟩
  · cases sent
  · obtain ⟨visit, found, rfl⟩ := visit_of_exchange all sent
    obtain ⟨visit', found', rfl⟩ := visit_of_exchange all listed
    rcases visits_confined finished found with kept | clean
    · obtain ⟨tls, port, host⟩ := sameOrigin_iff.mp (kept earlier visit' early found')
      rw [started.useTls] at tls
      rw [started.port] at port
      rw [started.host] at host
      exact ⟨tls.symm, port.symm, host.symm⟩
    · exact absurd credential (clean.lines line header)

theorem credentials_confined_once_redirected :
    ascii "Authorization: x" ∈ requestHeaderLines followedExchange.request ∧
      followedExchange.endpoint.useTls = false ∧ followedExchange.endpoint.port = 80 ∧
      foldCase followedExchange.endpoint.host.bytes = foldCase (ascii "a") := by
  have header : ascii "Authorization: x" ∈ requestHeaderLines followedExchange.request := by
    decide +kernel
  refine ⟨header, ?_⟩
  exact credentials_confined 9 redirectingOnce authorizedCall _ sendRequest_redirectingOnce 1
    followedExchange rfl _ header (Or.inl (by decide)) 1 followedExchange le_rfl rfl

/-! ## Coherence -/

/-- A call as it is rendered: its host and its target can stand in a URL, and the request line names
the target. -/
structure Rendered (call : Call) : Prop where
  host : HostText call.host
  hostFits : call.host.length < maxHostBytes
  request : ∃ target rest, TargetText target ∧ target.length < maxTargetBytes ∧
    call.requestHeaders = redirectedRequestLine target ++ crlf ++ rest

/-- The endpoint of a state is well formed and agrees with the request. -/
structure Coherent (call : Call) (state : LoopState) : Prop where
  host : HostText state.current.host.bytes
  target : TargetText state.current.target.bytes
  requested : requestTarget state.request maxTargetBytes = some state.current.target
  port : state.current.port = call.port ∨
    (1 ≤ state.current.port.toInt ∧ state.current.port.toInt ≤ 65535)
  lines : ∀ line ∈ requestHeaderLines state.request, ¬ Named (ascii "Host") line →
    line ∈ requestHeaderLines call.requestHeaders

theorem Coherent.clear {call : Call} {state : LoopState} (coherent : Coherent call state) :
    Clear state :=
  ⟨coherent.host.visible, coherent.target.visible, coherent.requested⟩

/-- **A hop keeps a state coherent.** -/
theorem Hop.coherent {call : Call} {state later : LoopState} (hop : Hop call state later)
    (coherent : Coherent call state) : Coherent call later := by
  have clear := hop.clear (Or.inl coherent.clear)
  obtain ⟨_, authority, _, lines⟩ := hop.edits.lines clear
  have kept : ∀ line ∈ requestHeaderLines later.request, ¬ Named (ascii "Host") line →
      line ∈ requestHeaderLines call.requestHeaders := by
    intro line member other
    rw [lines] at member
    rcases mem_redirectedLines member with rfl | ⟨within, _⟩
    · exact absurd (isHostLine_iff.mp (isHostLine_hostLine authority)) other
    · exact coherent.lines line within other
  obtain ⟨location, resolved⟩ := hop.resolved
  rcases resolveLocation_cases resolved with ⟨host, target, range⟩ | ⟨_, port, host, target⟩
  · exact ⟨host, target, clear.requested, Or.inr range, kept⟩
  · refine ⟨host ▸ coherent.host, ?_, clear.requested, port ▸ coherent.port, kept⟩
    rcases target with
      target | ⟨read, start, text, requested, within, bytes, _, visible, noHash, rooted⟩
    · exact target
    · obtain rfl := Option.some.inj (requested.symm.trans coherent.requested)
      rw [bytes]
      refine ⟨?_, (coherent.target.visible.sublist within.sublist).append visible, ?_⟩
      · rw [List.head?_append, rooted coherent.target.rooted, Option.some_or]
      · rw [List.mem_append, not_or]
        exact ⟨fun member => coherent.target.noFragment (within.subset member), noHash⟩

theorem Rendered.coherent {call : Call} {state : LoopState} (rendered : Rendered call)
    (started : Started call state) : Coherent call state := by
  obtain ⟨target, rest, targetText, fits, request⟩ := rendered.request
  have filled : target ≠ [] := by
    rintro rfl
    cases targetText.rooted
  have read : requestTarget call.requestHeaders maxTargetBytes = some ⟨target, fits⟩ := by
    rw [request, List.append_assoc]
    exact requestTarget_requestLine ⟨target, fits⟩ filled targetText.visible (crlf ++ rest)
  have get : isGet call.requestHeaders = true := by
    rw [request, List.append_assoc]
    exact isPrefixOf_requestLine target (crlf ++ rest)
  have same := Option.some.inj (read.symm.trans (started.target get))
  refine ⟨started.host ▸ rendered.host, same ▸ targetText, ?_, Or.inl started.port, ?_⟩
  · rw [started.request, read, same]
  · rw [started.request]
    exact fun line member _ => member

/-- Every visit of a rendered call is coherent. -/
theorem visits_coherent {fuel : ℕ} {world : World} {call : Call} {state : LoopState}
    {visits : List LoopState} {result : ℕ × Delivery} (rendered : Rendered call)
    (started : Started call state)
    (ran : run (turn world call) fuel state = some (visits, result)) {index : ℕ} {visit : LoopState}
    (found : visits[index]? = some visit) : Coherent call visit := by
  refine visits_induction ran (motive := fun _ visit => Coherent call visit)
    (rendered.coherent started) ?_ found
  intro _ first second _ _ went coherent
  exact (hop_of_turn went).coherent coherent

/-- **Endpoint and request stay coherent.** After every redirect of a rendered call the request is
made of a request line, header lines and an empty line, where the request line names the target of
the endpoint, the `Host` lines name its authority, and every other header line is one of the
call. -/
theorem redirected_request_coherent (fuel : ℕ) (world : World) (call : Call) (outcome : Outcome)
    (rendered : Rendered call) (ran : sendRequest fuel world call = some outcome) (hop : ℕ)
    (redirected : 1 ≤ hop) (exchange : Exchange) (sent : outcome.exchanges[hop]? = some exchange) :
    requestTarget exchange.request maxTargetBytes = some exchange.endpoint.target ∧
      TargetText exchange.endpoint.target.bytes ∧
      exchange.endpoint.target.bytes.length < maxTargetBytes ∧
      HostText exchange.endpoint.host.bytes ∧ exchange.endpoint.host.bytes.length < maxHostBytes ∧
      (exchange.endpoint.port = call.port ∨
        (1 ≤ exchange.endpoint.port.toInt ∧ exchange.endpoint.port.toInt ≤ 65535)) ∧
      exchange.request = redirectedRequest exchange.endpoint.target.bytes
        (requestHeaderLines exchange.request) ∧
      ∃ authority, endpointAuthority exchange.endpoint authorityCapacity = some authority ∧
        hostLine authority ∈ requestHeaderLines exchange.request ∧
        ∀ line ∈ requestHeaderLines exchange.request,
          (Named (ascii "Host") line → line = hostLine authority) ∧
            (¬ Named (ascii "Host") line → line ∈ requestHeaderLines call.requestHeaders) := by
  rcases sendRequest_eq_some ran with ⟨_, _, _, rfl⟩ | ⟨state, visits, _, started, finished, all⟩
  · cases sent
  · obtain ⟨visit, found, rfl⟩ := visit_of_exchange all sent
    obtain ⟨index, rfl⟩ := Nat.exists_eq_add_of_le' redirected
    obtain ⟨before, here, went⟩ := exists_turn_of_visits finished found
    have coherent := visits_coherent rendered started finished here
    have step := hop_of_turn went
    have clear := step.clear (Or.inl coherent.clear)
    have later := step.coherent coherent
    obtain ⟨_, authority, authorityFound, lines⟩ := step.edits.lines clear
    obtain ⟨authority', authorityFound', written⟩ := step.edits.written
    obtain rfl := Option.some.inj (authorityFound.symm.trans authorityFound')
    refine ⟨later.requested, later.target, visit.current.target.fits, later.host,
      visit.current.host.fits, later.port, ?_, authority, authorityFound, ?_, fun line member => ?_⟩
    · exact written.trans (congrArg _ lines.symm)
    · exact lines ▸ hostLine_mem_redirectedLines
    · refine ⟨fun host => ?_, later.lines line member⟩
      have member : line ∈ requestHeaderLines visit.request := member
      rw [lines] at member
      rcases mem_redirectedLines member with same | ⟨_, other, _⟩
      · exact same
      · rw [isHostLine_iff.mpr host] at other
        cases other

theorem redirected_request_coherent_once_redirected :
    requestTarget followedExchange.request maxTargetBytes = some followedExchange.endpoint.target ∧
      hostLine (ascii "a") ∈ requestHeaderLines followedExchange.request := by
  have rendered : Rendered authorizedCall :=
    ⟨⟨by decide, by decide, by decide⟩, by decide,
      ascii "/", ascii "Host: a\r\nAuthorization: x\r\n\r\n", ⟨by decide, by decide, by decide⟩,
      by decide, by decide⟩
  obtain ⟨requested, _, _, _, _, _, _, authority, found, host, _⟩ :=
    redirected_request_coherent 9 redirectingOnce authorizedCall _ rendered
      sendRequest_redirectingOnce 1 le_rfl followedExchange rfl
  refine ⟨requested, ?_⟩
  have same : endpointAuthority followedExchange.endpoint authorityCapacity = some (ascii "a") := by
    decide
  rw [← Option.some.inj (found.symm.trans same)]
  exact host

/-! ## Path independence -/

/-- Every exchange went to the origin of the one before it. -/
def originKept : List Exchange → Bool
  | first :: second :: rest =>
      sameOrigin first.endpoint second.endpoint && originKept (second :: rest)
  | _ => true

theorem originKept_take_succ {exchanges : List Exchange} {index : ℕ} {first second : Exchange}
    (here : exchanges[index]? = some first) (after : exchanges[index + 1]? = some second) :
    originKept (exchanges.take (index + 2)) =
      (originKept (exchanges.take (index + 1)) && sameOrigin first.endpoint second.endpoint) := by
  induction exchanges generalizing index with
  | nil => cases here
  | cons head rest ih =>
      cases rest with
      | nil => cases after
      | cons next rest =>
          cases index with
          | zero =>
              obtain rfl := Option.some.inj here
              obtain rfl := Option.some.inj after
              simp [originKept]
          | succ index =>
              have continued := ih here after
              simp only [List.take_succ_cons, originKept] at continued ⊢
              rw [continued, Bool.and_assoc]

/-- Every visit after the first sends the lines of the call, edited once. -/
theorem visits_edited {fuel : ℕ} {world : World} {call : Call} {state : LoopState}
    {visits : List LoopState} {result : ℕ × Delivery} (started : Started call state)
    (visibleHost : Visible call.host)
    (visibleTarget : ∀ target, requestTarget call.requestHeaders maxTargetBytes = some target →
      Visible target.bytes)
    (ran : run (turn world call) fuel state = some (visits, result)) {index : ℕ} {visit : LoopState}
    (found : visits[index]? = some visit) :
    (index = 0 ∧ visit = state) ∨
      (Clear visit ∧ Edited call
        (originKept ((visits.map (LoopState.exchange call)).take (index + 1))) call.requestHeaders
        visit) := by
  refine visits_induction ran (motive := fun index visit => (index = 0 ∧ visit = state) ∨
    (Clear visit ∧ Edited call
      (originKept ((visits.map (LoopState.exchange call)).take (index + 1))) call.requestHeaders
      visit)) (Or.inl ⟨rfl, rfl⟩) ?_ found
  intro index first second here after went known
  have hop := hop_of_turn went
  have kept : originKept ((visits.map (LoopState.exchange call)).take (index + 2)) =
      (originKept ((visits.map (LoopState.exchange call)).take (index + 1)) &&
        sameOrigin first.current second.current) := by
    have here' := congrArg (Option.map (LoopState.exchange call)) here
    have after' := congrArg (Option.map (LoopState.exchange call)) after
    rw [← List.getElem?_map, Option.map_some] at here' after'
    exact originKept_take_succ here' after'
  right
  rw [kept]
  rcases known with ⟨rfl, rfl⟩ | ⟨clear, edited⟩
  · have isGet : isGet call.requestHeaders = true := started.request ▸ hop.isGet
    have clear : Clear first := by
      refine ⟨started.host ▸ visibleHost, visibleTarget _ (started.target isGet), ?_⟩
      rw [started.request]
      exact started.target isGet
    have single : originKept ((visits.map (LoopState.exchange call)).take (0 + 1)) = true := by
      cases visits with
      | nil => cases here
      | cons visit rest => simp [originKept]
    rw [single, Bool.true_and, ← started.request]
    exact ⟨hop.clear (Or.inl clear), hop.edits⟩
  · exact ⟨hop.clear (Or.inl clear), hop.compose edited clear⟩

/-- **A redirected request depends only on the call and the last endpoint.** Whatever chain of
redirects led there, it is the request of the call rewritten once for that endpoint, preserving
credentials when the origin never changed. -/
theorem redirected_request_path_independent (fuel : ℕ) (world : World) (call : Call)
    (outcome : Outcome) (visibleHost : Visible call.host)
    (visibleTarget : ∀ target, requestTarget call.requestHeaders maxTargetBytes = some target →
      Visible target.bytes)
    (single : (requestHeaderLines call.requestHeaders).countP (Named (ascii "Host") ·) ≤ 1)
    (ran : sendRequest fuel world call = some outcome) (hop : ℕ) (redirected : 1 ≤ hop)
    (exchange : Exchange) (sent : outcome.exchanges[hop]? = some exchange) :
    rewriteGetRequestWithPolicy call.requestHeaders exchange.endpoint
      (originKept (outcome.exchanges.take (hop + 1))) (some call.names) =
      some exchange.request := by
  rcases sendRequest_eq_some ran with ⟨_, _, _, rfl⟩ | ⟨state, visits, _, started, finished, all⟩
  · cases sent
  · obtain ⟨visit, found, rfl⟩ := visit_of_exchange all sent
    rcases visits_edited started visibleHost visibleTarget finished found with ⟨rfl, _⟩ |
      ⟨_, edited⟩
    · cases redirected
    · obtain ⟨authority, authorityFound, written⟩ := edited.written
      have count : (requestHeaderLines call.requestHeaders).countP isHostLine ≤ 1 := by
        refine le_of_eq_of_le (List.countP_congr fun line _ => ?_) single
        rw [isHostLine_iff, decide_eq_true_eq]
      rw [all]
      exact (rewriteGetRequestWithPolicy_of_single edited.complete authorityFound count _ _).trans
        (congrArg some written.symm)

theorem redirected_request_path_independent_wandering :
    rewriteGetRequestWithPolicy authorizedCall.requestHeaders followedExchange.endpoint true
        (some []) = some followedExchange.request ∧
      rewriteGetRequestWithPolicy authorizedCall.requestHeaders returnedExchange.endpoint false
        (some []) = some returnedExchange.request := by
  have target : requestTarget authorizedCall.requestHeaders maxTargetBytes =
      some ⟨ascii "/", by decide⟩ := by decide
  have visible : ∀ found, requestTarget authorizedCall.requestHeaders maxTargetBytes = some found →
      Visible found.bytes := by
    intro found read
    rw [← Option.some.inj (target.symm.trans read)]
    decide
  constructor
  · exact redirected_request_path_independent 9 redirectingOnce authorizedCall _ (by decide) visible
      (by decide +kernel) sendRequest_redirectingOnce 1 le_rfl followedExchange rfl
  · exact redirected_request_path_independent 9 wandering authorizedCall _ (by decide) visible
      (by decide +kernel) sendRequest_wandering 3 (by decide) returnedExchange rfl

end IcuTransport.Client
