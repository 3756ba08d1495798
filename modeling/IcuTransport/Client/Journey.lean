import IcuTransport.Client.Budget
import IcuTransport.Redirect.Resolution

/-!
# Redirects as a journey over URLs

A run of the client goes from endpoint to endpoint. Over it stands a user agent that knows only
URLs: it begins with the URL of a call and resolves the location of each response against the URL it
has reached. The endpoint of every exchange stands for the URL that the agent has reached by then
(`redirects_resolve_urls`), as long as the locations are references of the web.

An endpoint knows less than a URL: it has no case of a scheme, no port that is left out and no empty
path. So the step from one endpoint to the next resolves against another base than the agent does.
Bases that name the same resource are resolved against alike (`SameResource.transform`).
-/

set_option autoImplicit false

namespace IcuTransport.Client

open Ascii TextScan TurnLoop Wire Redirect Capture

/-! ## Resources -/

/-- A URL whose authority is taken apart. -/
abbrev Url := Uri.Reference (Bytes × Option Int32)

/-- The authority of a URL, with the default port of its scheme if none is given. -/
def effectiveAuthority (url : Url) : Option (Bytes × Int32) :=
  url.authority.map fun (host, port) =>
    (host, port.getD (Int32.ofNat (schemePort (urlUsesTls url))))

/-- Two URLs name the same resource. -/
structure SameResource (first second : Url) : Prop where
  useTls : urlUsesTls first = urlUsesTls second
  authority : effectiveAuthority first = effectiveAuthority second
  path : Uri.rootedPath first.path = Uri.rootedPath second.path
  query : first.query = second.query

section SameResource

variable {first second : Url}

theorem SameResource.symm (same : SameResource first second) : SameResource second first :=
  ⟨same.useTls.symm, same.authority.symm, same.path.symm, same.query.symm⟩

theorem SameResource.placed (same : SameResource first second)
    (placed : first.authority.isSome = true) : second.authority.isSome = true := by
  have authorities := congrArg Option.isSome same.authority
  unfold effectiveAuthority at authorities
  rw [Option.isSome_map, Option.isSome_map, placed] at authorities
  exact authorities.symm

theorem SameResource.target (same : SameResource first second) :
    urlTarget first = urlTarget second := by
  have paths := same.path
  unfold Uri.rootedPath at paths
  rw [urlTarget, urlTarget, paths, same.query]

/-- **A reference leads from the same resource to the same resource.** -/
theorem SameResource.transform (same : SameResource first second)
    (placed : first.authority.isSome = true) (reference : Url) :
    SameResource (Uri.transform first reference) (Uri.transform second reference) := by
  unfold Uri.transform
  split
  · exact ⟨rfl, rfl, rfl, rfl⟩
  · split
    · have useTls : urlUsesTls { reference with scheme := first.scheme } =
          urlUsesTls { reference with scheme := second.scheme } := same.useTls
      refine ⟨useTls, ?_, rfl, rfl⟩
      rw [effectiveAuthority, effectiveAuthority, useTls]
    · refine ⟨same.useTls, same.authority, ?_, ?_⟩
      · dsimp only
        split
        · exact same.path
        · split
          · rfl
          · rw [Uri.merge_of_authority placed, Uri.merge_of_authority (same.placed placed),
              same.path]
      · dsimp only
        rw [same.query]

end SameResource

/-! ## Endpoints and resources -/

section Endpoints

variable {endpoint : Endpoint} {url other : Url}

/-- An endpoint stands for a resource. -/
theorem standsFor_congr (stands : StandsFor endpoint url) (same : SameResource url other) :
    StandsFor endpoint other := by
  obtain ⟨useTls, ⟨port, authority, effective⟩, target⟩ := stands
  refine ⟨useTls.trans same.useTls, ?_, target.trans same.target⟩
  have authorities := same.authority
  unfold effectiveAuthority at authorities
  rw [authority, Option.map_some] at authorities
  obtain ⟨⟨host', port'⟩, authority', pair⟩ := Option.map_eq_some_iff.mp authorities.symm
  obtain ⟨rfl, ports⟩ := Prod.mk.inj pair
  exact ⟨port', authority', effective.trans ports.symm⟩

/-- The URL of an endpoint names the resource that the endpoint stands for. -/
theorem sameResource_of_standsFor (stands : StandsFor endpoint url)
    (noQuery : question ∉ url.path) :
    SameResource url (endpointUrl endpoint) := by
  obtain ⟨useTls, ⟨port, authority, effective⟩, target⟩ := stands
  have plain : question ∉ Uri.rootedPath url.path := by
    unfold Uri.rootedPath
    split
    · decide
    · exact noQuery
  have parts : Uri.splitQuery endpoint.target.bytes = (Uri.rootedPath url.path, url.query) := by
    rw [target]
    exact Uri.splitQuery_joinQuery plain url.query
  have schemes : urlUsesTls url = urlUsesTls (endpointUrl endpoint) :=
    useTls.symm.trans (urlUsesTls_endpointUrl endpoint).symm
  refine ⟨schemes, ?_, ?_, ?_⟩
  · rw [effectiveAuthority, authority, Option.map_some]
    dsimp only
    rw [← effective]
    rfl
  · have path : (endpointUrl endpoint).path = Uri.rootedPath url.path := congrArg Prod.fst parts
    rw [path, Uri.rootedPath_rootedPath]
  · exact (congrArg Prod.snd parts).symm

/-- A location that resolves is visible text, fits its buffer and is not only a fragment. -/
theorem accepted_of_resolved {current next : Endpoint} {request location : Bytes}
    (resolved : resolveLocation current request location = some next) :
    Visible location ∧ location.length < maxLocationBytes ∧ dropFragment location ≠ [] := by
  have accepted : ¬ (visibleUrlBytes location = false ∨ location.length ≥ maxLocationBytes) := by
    intro refused
    rw [resolveLocation, if_pos refused] at resolved
    cases resolved
  have filled : dropFragment location ≠ [] := by
    intro empty
    simp only [resolveLocation, empty, if_true, ite_self, reduceCtorEq] at resolved
  rw [not_or, Bool.not_eq_false] at accepted
  exact ⟨visibleUrlBytes_iff.mp accepted.1, Nat.lt_of_not_ge accepted.2, filled⟩

/-- **One redirect.** If an endpoint stands for a URL, the endpoint that a location leads to stands
for the URL that it leads to. -/
theorem standsFor_follow {current next : Endpoint} {request location : Bytes}
    (stands : StandsFor current url) (noQuery : question ∉ url.path)
    (asked : requestTarget request maxTargetBytes = some current.target)
    (rooted : current.target.bytes.head? = some slash) (web : WebLocation location)
    (resolved : resolveLocation current request location = some next) :
    StandsFor next (Uri.transform url ((Uri.read location).mapAuthority namedAuthority)) := by
  obtain ⟨visible, short, filled⟩ := accepted_of_resolved resolved
  have stands' := ((resolveLocation_eq_some_iff asked rooted visible short filled web).mp
    resolved).2
  have same := (sameResource_of_standsFor stands noQuery).symm
  have placed : (endpointUrl current).authority.isSome = true := rfl
  exact standsFor_congr stands' (same.transform placed _)

end Endpoints

/-! ## The agent -/

/-- The location in the response to an exchange. -/
def locationOf (world : World) (hop : ℕ) (exchange : Exchange) : Bytes :=
  match oneRequest (world.server hop exchange) with
  | .ok response => response.head.location.text
  | .error _ => []

/-- The reference that a location is. -/
def referenceOf (location : Bytes) : Url := (Uri.read location).mapAuthority namedAuthority

/-- The URL that the agent has reached before an exchange. -/
def urlReached (world : World) (url : Url) (exchanges : List Exchange) (hop : ℕ) : Url :=
  Uri.journey url ((exchanges.zipIdx.take hop).map fun (exchange, index) =>
    referenceOf (locationOf world index exchange))

/-- A call asks for a URL. -/
structure Asks (call : Call) (url : Url) : Prop where
  rendered : Rendered call
  useTls : call.useTls = urlUsesTls url
  authority : ∃ port, url.authority = some (call.host, port) ∧
    call.port = port.getD (Int32.ofNat (schemePort (urlUsesTls url)))
  target : ∃ target, requestTarget call.requestHeaders maxTargetBytes = some target ∧
    target.bytes = urlTarget url
  noQuery : question ∉ url.path

theorem urlReached_succ {world : World} {url : Url} {exchanges : List Exchange} {hop : ℕ}
    {exchange : Exchange} (sent : exchanges[hop]? = some exchange) :
    urlReached world url exchanges (hop + 1) =
      Uri.transform (urlReached world url exchanges hop)
        (referenceOf (locationOf world hop exchange)) := by
  have here : exchanges.zipIdx[hop]? = some (exchange, hop) := by
    rw [List.getElem?_zipIdx, sent]
    simp
  rw [urlReached, List.take_add_one, here, Option.toList_some, List.map_append, List.map_singleton,
    Uri.journey_concat]
  rfl

/-- The path of a location has no question mark. -/
theorem noQuery_referenceOf (location : Bytes) : question ∉ (referenceOf location).path :=
  Uri.question_notMem_read location

/-! ## Runs -/

/-- What holds of a visit when the agent has reached a URL. -/
structure Reached (call : Call) (visit : LoopState) (url : Url) : Prop where
  coherent : Coherent call visit
  stands : StandsFor visit.current url
  noQuery : question ∉ url.path

theorem reached_start {call : Call} {url : Url} {state : LoopState} (asks : Asks call url)
    (started : Started call state) : Reached call state url := by
  have coherent := asks.rendered.coherent started
  obtain ⟨target, found, bytes⟩ := asks.target
  obtain ⟨port, authority, effective⟩ := asks.authority
  have requested := coherent.requested
  rw [started.request, found] at requested
  refine ⟨coherent, ⟨?_, ⟨port, ?_, ?_⟩, ?_⟩, asks.noQuery⟩
  · rw [started.useTls, asks.useTls]
  · rw [started.host, authority]
  · rw [started.port, effective]
  · rw [← Option.some.inj requested, bytes]

/-- The location of a redirect to be followed. -/
theorem locationOf_of_followable {world : World} {call : Call} {state : LoopState}
    {head : ResponseHead} (followed : followable world call state = some head) :
    locationOf world state.redirects (state.exchange call) = head.location.text := by
  unfold followable at followed
  unfold locationOf
  cases answered : oneRequest (world.server state.redirects (state.exchange call)) with
  | error code =>
      rw [answered] at followed
      cases followed
  | ok response =>
      rw [answered] at followed
      dsimp only at followed ⊢
      split at followed
      · rw [← Option.some.inj followed]
      · cases followed

/-- The location that a turn follows. -/
theorem location_of_turn {world : World} {call : Call} {state later : LoopState}
    (went : turn world call state = .next later) :
    resolveLocation state.current state.request
      (locationOf world state.redirects (state.exchange call)) = some later.current := by
  obtain ⟨_, head, followed, found⟩ := turn_eq_next_iff.mp went
  rw [locationOf_of_followable followed]
  exact (follow_eq_some_iff.mp found).1

/-- **One redirect of a run** leads the agent on. -/
theorem Reached.turn {world : World} {call : Call} {state later : LoopState} {url : Url}
    (reached : Reached call state url) (went : turn world call state = .next later)
    (web : WebLocation (locationOf world state.redirects (state.exchange call))) :
    Reached call later (Uri.transform url
      (referenceOf (locationOf world state.redirects (state.exchange call)))) where
  coherent := (hop_of_turn went).coherent reached.coherent
  stands := standsFor_follow reached.stands reached.noQuery reached.coherent.requested
    reached.coherent.target.rooted web (location_of_turn went)
  noQuery := Uri.notMem_transform (by decide) reached.noQuery (noQuery_referenceOf _)

/-- **Redirects follow the URLs of the locations.** Let a call ask for a URL, and let the locations
of the responses up to some exchange be references of the web. Then the exchange goes to the scheme,
the host, the port and the target of the URL that these locations lead to, one after another, and
its request asks for that target. -/
theorem redirects_resolve_urls (fuel : ℕ) (world : World) (call : Call) (outcome : Outcome)
    (url : Url) (asks : Asks call url) (ran : sendRequest fuel world call = some outcome) (hop : ℕ)
    (exchange : Exchange) (sent : outcome.exchanges[hop]? = some exchange)
    (web : ∀ before earlier, before < hop → outcome.exchanges[before]? = some earlier →
      WebLocation (locationOf world before earlier)) :
    StandsFor exchange.endpoint (urlReached world url outcome.exchanges hop) ∧
      requestTarget exchange.request maxTargetBytes = some exchange.endpoint.target := by
  rcases sendRequest_eq_some ran with ⟨_, _, _, rfl⟩ | ⟨state, visits, _, started, finished, all⟩
  · cases sent
  · obtain ⟨visit, found, rfl⟩ := visit_of_exchange all sent
    have reached : (∀ before earlier, before < hop → outcome.exchanges[before]? = some earlier →
          WebLocation (locationOf world before earlier)) →
        Reached call visit (urlReached world url outcome.exchanges hop) := by
      refine visits_induction finished (motive := fun index visit =>
        (∀ before earlier, before < index → outcome.exchanges[before]? = some earlier →
          WebLocation (locationOf world before earlier)) →
        Reached call visit (urlReached world url outcome.exchanges index)) ?_ ?_ found
      · exact fun _ => reached_start asks started
      · intro index first second here _ went ih web
        have counted : first.redirects = index := visits_redirects finished started.redirects here
        have sent : outcome.exchanges[index]? = some (first.exchange call) := by
          rw [all, List.getElem?_map, here, Option.map_some]
        have earlier := ih fun before exchange less => web before exchange (Nat.lt_succ_of_lt less)
        have location := web index _ (Nat.lt_succ_self index) sent
        rw [← counted] at location
        rw [urlReached_succ sent, ← counted]
        rw [← counted] at earlier
        exact earlier.turn went location
    exact ⟨(reached web).stands, (reached web).coherent.requested⟩

/-- The URL of a call for the root of a server. -/
def rootUrl : Url := ⟨some (ascii "http"), some (ascii "a", none), [], none⟩

theorem redirects_resolve_urls_wandering :
    StandsFor relativeExchange.endpoint
        ⟨some (ascii "http"), some (ascii "b", some 81), ascii "/m/c", none⟩ ∧
      StandsFor returnedExchange.endpoint { rootUrl with path := ascii "/e" } := by
  have asks : Asks authorizedCall rootUrl :=
    ⟨⟨⟨by decide, by decide, by decide⟩, by decide,
      ascii "/", ascii "Host: a\r\nAuthorization: x\r\n\r\n", ⟨by decide, by decide, by decide⟩,
      by decide, by decide⟩, by decide, ⟨none, rfl, by decide⟩,
      ⟨⟨ascii "/", by decide⟩, by decide, by decide⟩, by decide⟩
  have first : locationOf wandering 0 authorizedExchange = ascii "http://b:81/m/n?q" := by
    decide +kernel
  have second : locationOf wandering 1 foreignExchange = ascii "c" := by decide +kernel
  have third : locationOf wandering 2 relativeExchange = ascii "//a/e" := by decide +kernel
  have web : ∀ before earlier, before < 3 → [authorizedExchange, foreignExchange, relativeExchange,
      returnedExchange][before]? = some earlier →
        WebLocation (locationOf wandering before earlier) := by
    intro before earlier less sent
    match before, less with
    | 0, _ =>
        obtain rfl := Option.some.inj sent
        rw [first]
        exact Or.inr ⟨ascii "http", by decide, by decide, by decide⟩
    | 1, _ =>
        obtain rfl := Option.some.inj sent
        rw [second]
        exact Or.inl (by decide)
    | 2, _ =>
        obtain rfl := Option.some.inj sent
        rw [third]
        exact Or.inl (by decide)
  have relative := (redirects_resolve_urls 9 wandering authorizedCall _ rootUrl asks
    sendRequest_wandering 2 relativeExchange rfl fun before earlier less sent =>
      web before earlier (Nat.lt_succ_of_lt less) sent).1
  have returned := (redirects_resolve_urls 9 wandering authorizedCall _ rootUrl asks
    sendRequest_wandering 3 returnedExchange rfl web).1
  have reached : urlReached wandering rootUrl
      [authorizedExchange, foreignExchange, relativeExchange, returnedExchange] 3 =
        Uri.journey rootUrl [referenceOf (locationOf wandering 0 authorizedExchange),
          referenceOf (locationOf wandering 1 foreignExchange),
          referenceOf (locationOf wandering 2 relativeExchange)] := rfl
  have before : urlReached wandering rootUrl
      [authorizedExchange, foreignExchange, relativeExchange, returnedExchange] 2 =
        Uri.journey rootUrl [referenceOf (locationOf wandering 0 authorizedExchange),
          referenceOf (locationOf wandering 1 foreignExchange)] := rfl
  rw [before, first, second] at relative
  rw [reached, first, second, third] at returned
  exact ⟨relative, returned⟩

end IcuTransport.Client
