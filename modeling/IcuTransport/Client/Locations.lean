import IcuTransport.Client.Capturing
import IcuTransport.Redirect.Resolution
import IcuTransport.Wire.Values

/-!
# Locations that a run follows

A response with a redirect status and a location is followed or given up, and never delivered
(`followed_or_given_up`). Three things come between a `Location` line and that rule. A value that
does not fit into its buffer counts as no location, so its response is delivered as if it were the
last one. A value that holds a NUL is read up to it, and what stands before the NUL is followed. And
a location with a scheme other than `http` and `https` is followed as a path of the current origin.
-/

set_option autoImplicit false

namespace IcuTransport.Client

open Ascii TextScan TurnLoop Wire Redirect Capture

/-! ## Exchanges of a run -/

section Responses

variable {world : World} {call : Call} {visit : LoopState} {response : Response}

theorem followable_of_follows
    (received : oneRequest (world.server visit.redirects (visit.exchange call)) = .ok response)
    (follows : canFollow visit.request response.head = true) :
    followable world call visit = some response.head := by
  simp only [followable, received, follows, if_true]

theorem turn_of_stays
    (received : oneRequest (world.server visit.redirects (visit.exchange call)) = .ok response)
    (stays : canFollow visit.request response.head = false) :
    turn world call visit = .finished (deliver world call response) := by
  simp only [turn, received, stays, if_true]

end Responses

section Exchanges

variable {fuel : ℕ} {world : World} {call : Call} {outcome : Outcome} {hop : ℕ}
  {exchange : Exchange}

/-- **What a run does after an exchange**: a turn leads to the next one or finishes the run. -/
theorem turn_of_exchange (ran : sendRequest fuel world call = some outcome)
    (sent : outcome.exchanges[hop]? = some exchange) :
    ∃ visit : LoopState, visit.exchange call = exchange ∧ visit.redirects = hop ∧
      ((∃ later, turn world call visit = .next later ∧
          outcome.exchanges[hop + 1]? = some (later.exchange call)) ∨
        (turn world call visit = .finished (outcome.result, outcome.delivery) ∧
          outcome.exchanges.length = hop + 1)) := by
  rcases sendRequest_eq_some ran with
    ⟨code, _, _, rfl⟩ | ⟨state, visits, _, started, finished, listed⟩
  · cases sent
  · obtain ⟨visit, found, same⟩ := visit_of_exchange listed sent
    refine ⟨visit, same, visits_redirects finished started.redirects found, ?_⟩
    cases outcome' : turn world call visit with
    | next later =>
        refine Or.inl ⟨later, rfl, ?_⟩
        rw [listed, List.getElem?_map, visits_next finished found outcome', Option.map_some]
    | finished result =>
        obtain ⟨length, rfl⟩ := last_of_finished finished found outcome'
        refine Or.inr ⟨rfl, ?_⟩
        rw [listed, List.length_map, length]

/-- Every request of a GET call is a GET. -/
theorem isGet_of_exchange (ran : sendRequest fuel world call = some outcome)
    (get : isGet call.requestHeaders = true) (sent : outcome.exchanges[hop]? = some exchange) :
    isGet exchange.request = true := by
  rcases sendRequest_eq_some ran with
    ⟨code, _, _, rfl⟩ | ⟨state, visits, _, started, finished, listed⟩
  · cases sent
  · obtain ⟨visit, found, rfl⟩ := visit_of_exchange listed sent
    cases hop with
    | zero =>
        rw [visits_head finished] at found
        obtain rfl := Option.some.inj found
        exact (congrArg isGet started.request).trans get
    | succ hop => exact (redirected_exchange started finished found).1

/-- **A redirect is followed or given up**: the next exchange goes where its location leads, or the
run ends with the result of an unsupported redirect and delivers nothing. -/
theorem followed_or_given_up (ran : sendRequest fuel world call = some outcome)
    (sent : outcome.exchanges[hop]? = some exchange) {response : Response}
    (received : oneRequest (world.server hop exchange) = .ok response)
    (follows : canFollow exchange.request response.head = true) :
    (∃ next, outcome.exchanges[hop + 1]? = some next ∧
      resolveLocation exchange.endpoint exchange.request response.head.location.text =
        some next.endpoint) ∨
    (outcome.exchanges.length = hop + 1 ∧ outcome.result = 8 ∧ outcome.delivery = .nothing) := by
  obtain ⟨visit, rfl, rfl, ⟨later, went, next⟩ | ⟨finished, length⟩⟩ := turn_of_exchange ran sent
  · obtain ⟨_, head, followed, found⟩ := turn_eq_next_iff.mp went
    obtain rfl := Option.some.inj ((followable_of_follows received follows).symm.trans followed)
    exact Or.inl ⟨_, next, (follow_eq_some_iff.mp found).1⟩
  · exact Or.inr ⟨length, finished_of_followable (followable_of_follows received follows) finished⟩

/-- A response that is not to be followed is delivered. -/
theorem delivered_of_exchange (ran : sendRequest fuel world call = some outcome)
    (sent : outcome.exchanges[hop]? = some exchange) {response : Response}
    (received : oneRequest (world.server hop exchange) = .ok response)
    (stays : canFollow exchange.request response.head = false) :
    outcome.exchanges.length = hop + 1 ∧
      (outcome.result, outcome.delivery) = deliver world call response := by
  obtain ⟨visit, rfl, rfl, ⟨later, went, next⟩ | ⟨finished, length⟩⟩ := turn_of_exchange ran sent
  · cases went.symm.trans (turn_of_stays received stays)
  · exact ⟨length, Turn.finished.inj (finished.symm.trans (turn_of_stays received stays))⟩

end Exchanges

/-! ## Redirects of a run -/

/-- The response to an exchange of the run is a redirect, and its first `Location` line has the
given value. -/
structure RedirectsTo (world : World) (outcome : Outcome) (hop : ℕ) (exchange : Exchange)
    (value : Bytes) : Prop where
  sent : outcome.exchanges[hop]? = some exchange
  response : ∃ connection head body fields bodyPrefix rest,
    world.server hop exchange = .answered connection ∧
      delivered connection.chunks = head ++ body ∧ IsHead head ∧
      readResponseHead connection = .accepted fields bodyPrefix rest ∧
      redirectStatus fields.status = true ∧
      firstValue (ascii "Location") (headerLines head) = some value

/-- The run ends after an exchange with the result of an unsupported redirect, without output. -/
def GivenUp (outcome : Outcome) (hop : ℕ) : Prop :=
  outcome.exchanges.length = hop + 1 ∧ outcome.result = 8 ∧ outcome.delivery = .nothing

/-- A location can be followed from an exchange: a redirect is left, the location resolves there,
there is memory for the next request, and the request can be rewritten. -/
def CanBeFollowed (world : World) (call : Call) (hop : ℕ) (exchange : Exchange)
    (location : Bytes) : Prop :=
  hop < maxRedirects ∧ world.allocates hop = true ∧
    ∃ next, resolveLocation exchange.endpoint exchange.request location = some next ∧
      (redirectedGetRequest call exchange.endpoint next exchange.request).isSome = true

/-- The location of a head that was parsed is the value of its first such line, when that fits. -/
theorem location_of_parsed {head value : Bytes} {fields : ResponseHead} (isHead : IsHead head)
    (parsed : parseResponseHead head = some fields)
    (first : firstValue (ascii "Location") (headerLines head) = some value) (filled : value ≠ []) :
    (value.length < maxLocationBytes →
      fields.hasLocation = true ∧ fields.location.text = cString value) ∧
    (maxLocationBytes ≤ value.length → fields.hasLocation = false) := by
  obtain ⟨present, location⟩ := parseResponseHead_location parsed
  constructor
  · intro fits
    have copied : copyHeaderValue head (ascii "Location") maxLocationBytes = some ⟨value, fits⟩ :=
      (copyHeaderValue_eq_some_iff isHead.terminated).mpr ⟨first, filled⟩
    rw [copied] at present location
    exact ⟨present, congrArg CharArray.text location⟩
  · intro long
    cases copied : copyHeaderValue head (ascii "Location") maxLocationBytes with
    | none =>
        rw [copied] at present
        exact present
    | some array =>
        obtain ⟨found, _⟩ := (copyHeaderValue_eq_some_iff isHead.terminated).mp copied
        have fits := array.fits
        rw [← Option.some.inj (first.symm.trans found)] at fits
        omega

/-- What the program sees of a redirect to a value. -/
theorem RedirectsTo.received {world : World} {outcome : Outcome} {hop : ℕ} {exchange : Exchange}
    {value : Bytes} (redirects : RedirectsTo world outcome hop exchange value)
    (filled : value ≠ []) :
    ∃ response, oneRequest (world.server hop exchange) = .ok response ∧
      redirectStatus response.head.status = true ∧
      (value.length < maxLocationBytes →
        response.head.hasLocation = true ∧ response.head.location.text = cString value) ∧
      (maxLocationBytes ≤ value.length → response.head.hasLocation = false) := by
  obtain ⟨connection, head, body, fields, bodyPrefix, rest, answered, stream, isHead, accepted,
    status, first⟩ := redirects.response
  obtain ⟨parsed, _⟩ := readResponseHead_accepted isHead stream accepted
  refine ⟨⟨fields, bodyPrefix, ⟨rest, connection.ending⟩⟩, ?_, status,
    location_of_parsed isHead parsed first filled⟩
  simp only [answered, oneRequest, accepted]

section Redirects

variable {fuel : ℕ} {world : World} {call : Call} {outcome : Outcome} {hop : ℕ}
  {exchange : Exchange} {value : Bytes}

/-- **A redirect is followed exactly when its location can be followed.** -/
theorem next_of_canBeFollowed (ran : sendRequest fuel world call = some outcome)
    (sent : outcome.exchanges[hop]? = some exchange) {response : Response}
    (received : oneRequest (world.server hop exchange) = .ok response)
    (follows : canFollow exchange.request response.head = true) :
    CanBeFollowed world call hop exchange response.head.location.text ↔
      ∃ next, outcome.exchanges[hop + 1]? = some next := by
  obtain ⟨visit, rfl, rfl, ended⟩ := turn_of_exchange ran sent
  have followed := followable_of_follows received follows
  constructor
  · rintro ⟨left, allocated, next, resolved, rewritten⟩
    obtain ⟨request, found⟩ := Option.isSome_iff_exists.mp rewritten
    rw [redirectedGetRequest_eq] at found
    have went : turn world call visit = .next ⟨visit.redirects + 1, next, request⟩ :=
      turn_eq_next_iff.mpr ⟨left, response.head, followed,
        follow_eq_some_iff.mpr ⟨resolved, allocated, found, rfl⟩⟩
    rcases ended with ⟨later, _, more⟩ | ⟨finished, _⟩
    · exact ⟨_, more⟩
    · cases went.symm.trans finished
  · rintro ⟨next, more⟩
    rcases ended with ⟨later, went, _⟩ | ⟨_, length⟩
    · obtain ⟨left, head, followed', found⟩ := turn_eq_next_iff.mp went
      obtain rfl := Option.some.inj (followed.symm.trans followed')
      obtain ⟨resolved, allocated, rewritten, _⟩ := follow_eq_some_iff.mp found
      rw [← redirectedGetRequest_eq] at rewritten
      exact ⟨left, allocated, later.current, resolved, Option.isSome_iff_exists.mpr ⟨_, rewritten⟩⟩
    · have within := (List.getElem?_eq_some_iff.mp more).1
      omega

/-- A redirect to a value that fits is followed or given up, as the text before any NUL. -/
theorem RedirectsTo.followed (redirects : RedirectsTo world outcome hop exchange value)
    (ran : sendRequest fuel world call = some outcome) (get : isGet call.requestHeaders = true)
    (filled : value ≠ []) (fits : value.length < maxLocationBytes) :
    (CanBeFollowed world call hop exchange (cString value) ↔
        ∃ next, outcome.exchanges[hop + 1]? = some next) ∧
      ((∃ next, outcome.exchanges[hop + 1]? = some next ∧
          resolveLocation exchange.endpoint exchange.request (cString value) =
            some next.endpoint) ∨
        GivenUp outcome hop) := by
  obtain ⟨response, received, status, named, _⟩ := redirects.received filled
  obtain ⟨present, text⟩ := named fits
  have follows : canFollow exchange.request response.head = true := by
    rw [canFollow, isGet_of_exchange ran get redirects.sent, status, present]
    rfl
  rw [← text]
  exact ⟨next_of_canBeFollowed ran redirects.sent received follows,
    followed_or_given_up ran redirects.sent received follows⟩

/-- A redirect to a value that does not fit is neither followed nor given up: it is delivered. -/
theorem RedirectsTo.delivered_of_long (redirects : RedirectsTo world outcome hop exchange value)
    (ran : sendRequest fuel world call = some outcome) (filled : value ≠ [])
    (long : maxLocationBytes ≤ value.length) :
    outcome.exchanges.length = hop + 1 ∧ outcome.result ≠ 8 := by
  obtain ⟨response, received, _, _, unnamed⟩ := redirects.received filled
  have stays : canFollow exchange.request response.head = false := by
    rw [canFollow, unnamed long, Bool.and_false]
  obtain ⟨length, delivered⟩ := delivered_of_exchange ran redirects.sent received stays
  refine ⟨length, fun gaveUp => ?_⟩
  have code : outcome.result = _ := congrArg Prod.fst delivered
  have codes : outcome.result ∈ [0, 7, 9, 10, 11, 12, 13] := by
    rw [code]
    exact deliver_mem
  rw [gaveUp] at codes
  exact absurd codes (by decide)

end Redirects

/-! ## Locations of other schemes -/

/-- **A location with another scheme is refused exactly when it cannot be taken for a path.** And a
run in which a response redirects to it ends there exactly when, besides, the program sees it: a
longer location counts as none, and its response is delivered. -/
theorem other_scheme_refused_iff (current : Endpoint) (request location : Bytes)
    (visible : Visible location) (other : OtherScheme location) :
    (resolveLocation current request location = none ↔ ¬ TakenAsPath request location) ∧
      ∀ fuel world call outcome hop body, isGet call.requestHeaders = true →
        sendRequest fuel world call = some outcome →
        RedirectsTo world outcome hop ⟨current, request, body⟩ location →
          (resolveLocation current request location = none ∧ GivenUp outcome hop ↔
            location.length < maxLocationBytes ∧ ¬ TakenAsPath request location) := by
  have unresolved : resolveLocation current request location = none ↔
      ¬ TakenAsPath request location := resolveLocation_otherScheme visible other
  refine ⟨unresolved, ?_⟩
  intro fuel world call outcome hop body get ran redirects
  have filled : location ≠ [] := by
    rintro rfl
    obtain ⟨_, named, _⟩ := other
    cases named
  rw [unresolved, and_comm]
  refine and_congr_left fun notTaken => ?_
  constructor
  · rintro ⟨_, gaveUp, _⟩
    by_contra long
    exact (redirects.delivered_of_long ran filled (not_lt.mp long)).2 gaveUp
  · intro fits
    rcases (redirects.followed ran get filled fits).2 with ⟨next, _, resolved⟩ | gaveUp
    · have whole : cString location = location :=
        cString_eq_self_iff.mpr (visible.not_mem (by decide))
      rw [whole, unresolved.mpr notTaken] at resolved
      cases resolved
    · exact gaveUp

/-- A server that redirects the first request to a mail address. -/
def mailing : World :=
  { redirectingOnce with
    server := fun hop _ =>
      if hop = 0 then answerOf "HTTP/1.0 302 Found\r\nLocation: mailto:a@b\r\n\r\n" (by decide)
        (by decide)
      else answerOf "HTTP/1.0 200 OK\r\n\r\nno" (by decide) (by decide) }

theorem other_scheme_refused_iff_mailto :
    ∃ outcome, sendRequest 9 mailing authorizedCall = some outcome ∧
      ¬ (resolveLocation authorizedExchange.endpoint authorizedExchange.request
        (ascii "mailto:a@b") = none ∧ GivenUp outcome 0) := by
  obtain ⟨outcome, ran⟩ := Option.isSome_iff_exists.mp
    (by decide +kernel : (sendRequest 9 mailing authorizedCall).isSome = true)
  have sent : outcome.exchanges[0]? = some authorizedExchange := by
    have first : (sendRequest 9 mailing authorizedCall).bind
        (fun outcome : Outcome => outcome.exchanges[0]?) = some authorizedExchange := by
      decide +kernel
    rwa [ran, Option.bind_some] at first
  have redirects : RedirectsTo mailing outcome 0 authorizedExchange (ascii "mailto:a@b") :=
    ⟨sent, _, ascii "HTTP/1.0 302 Found\r\nLocation: mailto:a@b\r\n\r\n", [],
      ⟨302, true, ⟨ascii "mailto:a@b", by decide⟩, none, ⟨[], by decide⟩,
        ⟨ascii "identity", by decide⟩, false⟩, [], [], rfl, by decide, by decide, by decide, rfl,
      by decide⟩
  refine ⟨outcome, ran, fun refused => ?_⟩
  have other : OtherScheme (ascii "mailto:a@b") := ⟨ascii "mailto", by decide, by decide, by decide⟩
  have notTaken := (((other_scheme_refused_iff authorizedExchange.endpoint
    authorizedExchange.request (ascii "mailto:a@b") (by decide) other).2 9 mailing authorizedCall
    outcome 0 [] (by decide) ran redirects).mp refused).2
  exact notTaken ⟨by decide, ascii "/", ascii "HTTP/1.0\r\nHost: a\r\nAuthorization: x\r\n\r\n",
    by decide, by decide, by decide, by decide, by decide⟩

/-- A location of another scheme leads to a path of the current origin. -/
theorem other_scheme_followed :
    Visible (ascii "ftp://x/") ∧ OtherScheme (ascii "ftp://x/") ∧
      resolveLocation pageEndpoint (ascii "GET /x/y?q HTTP/1.0") (ascii "ftp://x/") =
        some { pageEndpoint with target := ⟨ascii "/x/ftp://x/", by decide⟩ } ∧
      resolveLocation pageEndpoint (ascii "GET /x/y?q HTTP/1.0") (ascii "ftp://x/") ≠ none := by
  have resolved : resolveLocation pageEndpoint (ascii "GET /x/y?q HTTP/1.0") (ascii "ftp://x/") =
      some { pageEndpoint with target := ⟨ascii "/x/ftp://x/", by decide⟩ } := by decide
  refine ⟨by decide, ⟨ascii "ftp", by decide, by decide, by decide⟩, resolved, ?_⟩
  rw [resolved]
  exact Option.some_ne_none _

/-! ## Locations that do not fit -/

/-- **A redirect that names a location is followed there or given up** exactly when the location
fits, and what stands before a NUL in it cannot be followed. A longer one counts as none, and its
response is delivered. One with a NUL does not resolve, but what stands before the NUL may. -/
theorem named_location_followed_iff (fuel : ℕ) (world : World) (call : Call) (outcome : Outcome)
    (ran : sendRequest fuel world call = some outcome) (get : isGet call.requestHeaders = true)
    (hop : ℕ) (exchange : Exchange) (value : Bytes) (filled : value ≠ [])
    (redirects : RedirectsTo world outcome hop exchange value) :
    ((∃ next, outcome.exchanges[hop + 1]? = some next ∧
        resolveLocation exchange.endpoint exchange.request value = some next.endpoint) ∨
      GivenUp outcome hop) ↔
    value.length < maxLocationBytes ∧
      (nul ∈ value → ¬ CanBeFollowed world call hop exchange (cString value)) := by
  constructor
  · intro ended
    have fits : value.length < maxLocationBytes := by
      by_contra long
      obtain ⟨length, other⟩ := redirects.delivered_of_long ran filled (not_lt.mp long)
      rcases ended with ⟨next, more, _⟩ | ⟨_, gaveUp, _⟩
      · have within := (List.getElem?_eq_some_iff.mp more).1
        omega
      · exact other gaveUp
    refine ⟨fits, fun holdsNul canFollow => ?_⟩
    obtain ⟨next, more⟩ := (redirects.followed ran get filled fits).1.mp canFollow
    rcases ended with ⟨_, _, resolved⟩ | ⟨length, _⟩
    · have hidden : visibleUrlBytes value = false := by
        rw [← Bool.not_eq_true, visibleUrlBytes_iff]
        exact fun visible => absurd holdsNul (visible.not_mem (by decide))
      rw [resolveLocation, if_pos (Or.inl hidden)] at resolved
      cases resolved
    · have within := (List.getElem?_eq_some_iff.mp more).1
      omega
  · rintro ⟨fits, unfollowed⟩
    obtain ⟨followed, ⟨next, more, resolved⟩ | gaveUp⟩ := redirects.followed ran get filled fits
    · by_cases holdsNul : nul ∈ value
      · exact absurd (followed.mpr ⟨next, more⟩) (unfollowed holdsNul)
      · rw [cString_eq_self_iff.mpr holdsNul] at resolved
        exact Or.inl ⟨next, more, resolved⟩
    · exact Or.inr gaveUp

theorem named_location_followed_iff_once_redirected :
    ∃ next, [authorizedExchange, followedExchange][1]? = some next ∧
      resolveLocation authorizedExchange.endpoint authorizedExchange.request (ascii "/b") =
        some next.endpoint := by
  have redirects : RedirectsTo redirectingOnce
      ⟨[authorizedExchange, followedExchange], 0, ⟨ascii "hi", none, none⟩⟩ 0 authorizedExchange
      (ascii "/b") :=
    ⟨rfl, _, ascii "HTTP/1.0 302 Found\r\nLocation: /b\r\n\r\n", [],
      ⟨302, true, ⟨ascii "/b", by decide⟩, none, ⟨[], by decide⟩, ⟨ascii "identity", by decide⟩,
        false⟩, [], [], rfl, by decide, by decide, by decide, rfl, by decide⟩
  have followed := (named_location_followed_iff 9 redirectingOnce authorizedCall _
    sendRequest_redirectingOnce (by decide) 0 authorizedExchange (ascii "/b") (by decide)
    redirects).mpr ⟨by decide, fun holdsNul => absurd holdsNul (by decide)⟩
  rcases followed with next | ⟨_, gaveUp, _⟩
  · exact next
  · cases gaveUp

/-! ### A location of 4096 bytes -/

/-- A path of so many bytes after its slash. -/
def fillerLocation (count : ℕ) : Bytes := slash :: filler count

/-- The line of such a location. -/
def locationLine (count : ℕ) : Bytes := ascii "Location: " ++ fillerLocation count

/-- A redirect to such a path. -/
def locationHead (count : ℕ) : Bytes :=
  ascii "HTTP/1.0 302 Found" ++ crlf ++ locationLine count ++ (crlf ++ crlf)

theorem lf_not_mem_locationLine (count : ℕ) : lf ∉ locationLine count := by
  intro member
  rcases List.mem_append.mp member with name | path
  · exact absurd name (by decide)
  · rcases List.mem_cons.mp path with same | later
    · exact absurd same (by decide)
    · exact lf_not_mem_filler count later

/-- The first line of a text that starts as the head does. -/
theorem splitFirst_locationHead (count : ℕ) (rest : Bytes) :
    splitFirst lf (ascii "HTTP/1.0 302 Found" ++ crlf ++ locationLine count ++ rest) =
      some (ascii "HTTP/1.0 302 Found" ++ [cr], locationLine count ++ rest) := by
  refine splitFirst_eq_some_iff.mpr ⟨?_, by decide⟩
  simp [crlf]

theorem isHead_locationHead (count : ℕ) : IsHead (locationHead count) := by
  refine isHead_append_iff.mpr ?_
  rintro ⟨before, after, split⟩
  -- both LFs of the text are taken by the terminator, so none stands before it
  have absent : lf ∉ before := by
    have lines := congrArg (List.count lf) split
    have none : (locationLine count).count lf = 0 :=
      List.count_eq_zero.mpr (lf_not_mem_locationLine count)
    have fixed : (crlf ++ crlf).count lf = 2 ∧ crlf.count lf = 1 ∧
        (crlf ++ crlf).dropLast.count lf = 1 ∧ (ascii "HTTP/1.0 302 Found").count lf = 0 := by
      decide
    simp only [List.count_append, none, fixed] at lines
    exact List.count_eq_zero.mp (by omega)
  have cut : splitFirst lf (before ++ (crlf ++ crlf) ++ after) =
      some (before ++ [cr], crlf ++ after) := by
    refine splitFirst_eq_some_iff.mpr ⟨by simp [crlf], ?_⟩
    rw [List.mem_append, not_or]
    exact ⟨absent, by decide⟩
  rw [split, splitFirst_locationHead] at cut
  obtain ⟨_, same⟩ := Prod.mk.inj (Option.some.inj cut)
  cases same

theorem lineValue_locationLine (count : ℕ) :
    lineValue (locationLine count ++ [cr]) = fillerLocation count := by
  have cut : splitFirst colon (locationLine count ++ [cr]) =
      some (ascii "Location", space :: fillerLocation count ++ [cr]) :=
    splitFirst_eq_some_iff.mpr ⟨rfl, by decide⟩
  have trailing : ∀ text : Bytes, dropTrailingCr (text ++ [cr]) = text := by
    intro text
    simp [dropTrailingCr]
  have trimmed : trimBlanks (space :: fillerLocation count) = fillerLocation count := by
    have leading : (space :: fillerLocation count).dropWhile isBlank = fillerLocation count := rfl
    rw [trimBlanks, leading, List.rdropWhile_eq_self_iff]
    intro filled blank
    rcases List.mem_cons.mp (List.getLast_mem filled) with same | later
    · rw [same] at blank
      exact absurd blank (by decide)
    · rw [List.eq_of_mem_replicate later] at blank
      exact absurd blank (by decide)
  simp only [lineValue, cut, trailing, trimmed]

theorem firstValue_locationHead (count : ℕ) :
    firstValue (ascii "Location") (headerLines (locationHead count)) =
      some (fillerLocation count) := by
  have second : splitFirst lf (locationLine count ++ (crlf ++ crlf)) =
      some (locationLine count ++ [cr], crlf) := by
    refine splitFirst_eq_some_iff.mpr ⟨by simp [crlf], ?_⟩
    rw [List.mem_append, not_or]
    exact ⟨lf_not_mem_locationLine count, by decide⟩
  have named : Named (ascii "Location") (locationLine count ++ [cr]) :=
    named_iff.mpr ⟨ascii "Location", space :: fillerLocation count ++ [cr],
      splitFirst_eq_some_iff.mpr ⟨rfl, by decide⟩, rfl⟩
  rw [headerLines, locationHead,
    cutAll_of_some (splitFirst_shortens lf) (splitFirst_locationHead _ _),
    cutAll_of_some (splitFirst_shortens lf) second, List.drop_one, List.tail_cons, firstValue,
    if_neg named.dropTrailingCr_ne_nil, if_pos named, lineValue_locationLine]

/-- A whole response in one read. -/
theorem oneRequest_of_single {chunk : Chunk} {head body : Bytes} {fields : ResponseHead}
    (bytes : chunk.bytes = head ++ body) (isHead : IsHead head)
    (parsed : parseResponseHead head = some fields) :
    oneRequest (.answered ⟨[chunk], .closed⟩) = .ok ⟨fields, body, ⟨[], .closed⟩⟩ := by
  have small : chunk.bytes.length ≤ maxHeaderBytes := chunk.fits.trans (by decide)
  have rest : ¬ body.length > readCapacity := by
    have fits := chunk.fits
    rw [bytes, List.length_append] at fits
    omega
  have accepted : readResponseHead ⟨[chunk], .closed⟩ = .accepted fields body [] := by
    rw [readResponseHead, readHeadLoop, if_pos (by decide),
      if_neg (by rw [List.length_nil]; omega), List.nil_append, bytes, findHeaderEnd_append isHead]
    simp only [finishHead, parsed, if_neg rest]
  simp only [oneRequest, accepted]

/-- The redirect to a path of 4096 bytes, with a body. -/
def farRedirect : Chunk where
  bytes := locationHead 4095 ++ ascii "moved"
  nonempty := List.cons_ne_nil _ _
  fits := by
    simp only [locationHead, locationLine, fillerLocation, List.length_append, List.length_cons,
      length_filler]
    decide

/-- A server that answers every request with it. -/
def farRedirecting : World :=
  { redirectingOnce with server := fun _ _ => .answered ⟨[farRedirect], .closed⟩ }

theorem parseStatus_locationHead : parseStatus (locationHead 4095) = some 302 := by
  decide +kernel

/-- That response has no location as far as the program can see, and is delivered. -/
theorem turn_farRedirecting (state : LoopState) :
    turn farRedirecting authorizedCall state = .finished (0, ⟨ascii "moved", none, none⟩) := by
  obtain ⟨fields, parsed⟩ := parseResponseHead_isSome_iff.mpr
    ⟨302, parseStatus_locationHead, by decide, by decide⟩
  have absent : fields.hasLocation = false :=
    (location_of_parsed (isHead_locationHead _) parsed (firstValue_locationHead _)
      (List.cons_ne_nil _ _)).2 (by rw [fillerLocation, List.length_cons, length_filler]; decide)
  have stays : canFollow state.request fields = false := by
    rw [canFollow, absent, Bool.and_false]
  have received :
      oneRequest (farRedirecting.server state.redirects (state.exchange authorizedCall)) =
      .ok ⟨fields, ascii "moved", ⟨[], .closed⟩⟩ :=
    oneRequest_of_single rfl (isHead_locationHead _) parsed
  rw [turn_of_stays received stays]
  rfl

theorem long_location_delivered :
    farRedirect.bytes = locationHead 4095 ++ ascii "moved" ∧ IsHead (locationHead 4095) ∧
      parseStatus (locationHead 4095) = some 302 ∧
      firstValue (ascii "Location") (headerLines (locationHead 4095)) = some (fillerLocation 4095) ∧
      sendRequest 9 farRedirecting authorizedCall =
        some ⟨[authorizedExchange], 0, ⟨ascii "moved", none, none⟩⟩ := by
  refine ⟨rfl, isHead_locationHead _, parseStatus_locationHead, firstValue_locationHead _, ?_⟩
  have began : start farRedirecting authorizedCall =
      .ok ⟨0, authorizedExchange.endpoint, authorizedExchange.request⟩ := by decide +kernel
  rw [sendRequest, began]
  dsimp only
  rw [run, turn_farRedirecting]
  rfl

end IcuTransport.Client
