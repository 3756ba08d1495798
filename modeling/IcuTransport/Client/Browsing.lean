import IcuTransport.Capture.RoundTrip
import IcuTransport.Client.Fetching
import IcuTransport.Client.Journey
import IcuTransport.Library.Browser
import IcuTransport.Redirect.Room

/-!
# Fetching as browsing a web

A web says what is at each URL: a document, or that it has moved to a location. The servers of a
world may serve a web, in heads of their own and in reads of any length. Then a fetch with nothing
failing at home is what browsing the web gives from the URL of the request: the document, with its
status, its type and its coding, or the failure of the redirects (`fetch_browses`).

The other results about fetches say that what comes back is right. Here something comes back.
-/

set_option autoImplicit false

namespace IcuTransport.Client

open Ascii TextScan TurnLoop Browser Wire Redirect Capture

/-! ## Webs -/

/-- A document, with its type and its coding as they are shown. It can be captured, and what is
shown of it can be handed over. -/
structure Document where
  status : ℕ
  contentType : Bytes
  encoding : Bytes
  body : Bytes
  typeUnbroken : Unbroken contentType
  encodingUnbroken : Unbroken encoding
  small : body.length ≤ maxCaptureBytes

/-- What is at a URL. -/
inductive Resource where
  | document (content : Document)
  | moved (location : Bytes)

/-- What is at each URL. -/
abbrev Web := Url → Resource

/-- A client can follow a location: it can read it, and it has room for the target. -/
def Followable (url : Url) (location : Bytes) : Prop :=
  Visible location ∧ dropFragment location ≠ [] ∧ ReadableAuthority location ∧
    (urlTarget (Uri.transform url (referenceOf location))).length < maxTargetBytes

open Classical in
/-- The URL that a location leads to. -/
noncomputable def lead (url : Url) (location : Bytes) : Option Url :=
  if Followable url location then some (Uri.transform url (referenceOf location)) else none

/-- What a client finds at a URL. -/
noncomputable def pageAt (web : Web) (url : Url) : Page Url Document :=
  match web url with
  | .document content => .document content
  | .moved location => .moved (lead url location)

section Pages

variable {web : Web} {url : Url}

theorem pageAt_eq_document {content : Document} (found : pageAt web url = .document content) :
    web url = .document content := by
  unfold pageAt at found
  split at found
  · rename_i there
    rw [there, Page.document.inj found]
  · cases found

theorem pageAt_eq_moved {next : Option Url} (found : pageAt web url = .moved next) :
    ∃ location, web url = .moved location ∧ lead url location = next := by
  unfold pageAt at found
  split at found
  · cases found
  · rename_i location there
    exact ⟨location, there, Page.moved.inj found⟩

theorem pageAt_moved {location : Bytes} (moved : web url = .moved location) :
    pageAt web url = .moved (lead url location) := by
  unfold pageAt
  rw [moved]

theorem lead_eq_some_iff {location : Bytes} {next : Url} :
    lead url location = some next ↔
      Followable url location ∧ Uri.transform url (referenceOf location) = next := by
  unfold lead
  split
  · rename_i can
    rw [Option.some.injEq]
    exact ⟨fun same => ⟨can, same⟩, fun both => both.2⟩
  · rename_i cannot
    exact ⟨fun absurdity => (by cases absurdity), fun both => absurd both.1 cannot⟩

end Pages

/-! ## Serving a web -/

/-- A head brings a document. It is not one that is followed. -/
structure Brings (fields : ResponseHead) (content : Document) : Prop where
  status : fields.status = content.status
  contentType : shownType fields = content.contentType
  encoding : shownEncoding fields = content.encoding
  framing : fields.invalidFraming = false
  contentLength : ∀ length ∈ fields.contentLength, length = content.body.length
  stays : (redirectStatus fields.status && fields.hasLocation) = false

/-- A head redirects to a location. -/
structure Redirects (fields : ResponseHead) (location : Bytes) : Prop where
  status : redirectStatus fields.status = true
  hasLocation : fields.hasLocation = true
  text : fields.location.text = location
  web : WebLocation location

/-- A head and the body after it show a resource. -/
def Shows (fields : ResponseHead) (body : Bytes) : Resource → Prop
  | .document content => Brings fields content ∧ body = content.body
  | .moved location => Redirects fields location

/-- A message for a resource: a head, which leaves room for a read, and a body. -/
structure Message (head body : Bytes) (resource : Resource) : Prop where
  isHead : IsHead head
  room : head.length + readCapacity ≤ maxHeaderBytes
  shows : ∃ fields, parseResponseHead head = some fields ∧ Shows fields body resource

/-- An exchange asks for a URL. -/
def AsksFor (exchange : Exchange) (url : Url) : Prop :=
  StandsFor exchange.endpoint url ∧
    requestTarget exchange.request maxTargetBytes = some exchange.endpoint.target

/-- Every exchange that asks for the URL is answered with a message for what is there. -/
def ServedAt (world : World) (web : Web) (url : Url) : Prop :=
  ∀ hop exchange, AsksFor exchange url →
    ∃ chunks head body, world.server hop exchange = .answered ⟨chunks, .closed⟩ ∧
      delivered chunks = head ++ body ∧ Message head body (web url)

/-- Nothing fails at home: there is memory, and the files can be made, written and read. -/
structure Sound (surroundings : Surroundings) : Prop where
  duplicates : surroundings.native.duplicates = true
  allocates : ∀ hop, surroundings.native.allocates hop = true
  bodyOpens : surroundings.native.files.bodyOpens = true
  bodyReliable : surroundings.native.files.body.Reliable
  bodyCloses : surroundings.native.files.bodyCloses = true
  bodyReadable : surroundings.native.files.bodyReadable = true
  metadata : surroundings.native.files.metadata = ⟨true, true, true⟩
  directory : surroundings.directory ≠ []
  bodyReads : surroundings.bodyReads = true
  metadataReads : surroundings.metadataReads = true

/-! ## What is received -/

/-- A message is received whole, whatever its reads are. -/
theorem oneRequest_of_message {chunks : List Chunk} {head body : Bytes} {resource : Resource}
    (stream : delivered chunks = head ++ body) (message : Message head body resource) :
    ∃ response, oneRequest (.answered ⟨chunks, .closed⟩) = .ok response ∧
      response.connection.ending = .closed ∧
      response.bodyPrefix ++ delivered response.connection.chunks = body ∧
      parseResponseHead head = some response.head ∧ Shows response.head body resource := by
  obtain ⟨fields, parsed, shows⟩ := message.shows
  obtain ⟨bodyPrefix, rest, accepted, whole⟩ :=
    readResponseHead_of_room message.isHead parsed stream message.room
  refine ⟨⟨fields, bodyPrefix, rest, .closed⟩, ?_, rfl, whole, parsed, shows⟩
  rw [oneRequest, accepted]

/-- The result of a run that captured a document, and what is left then. -/
def documentDelivery (fields : ResponseHead) (content : Document) : ℕ × Delivery :=
  (if content.status < 200 ∨ content.status ≥ 300 then 10 else 0,
    ⟨[], some content.body,
      some (metadataText fields content.body.length (validUtf8Bytes content.body))⟩)

section Captures

variable {surroundings : Surroundings} {call : Call} {metadataPath : Bytes} {response : Response}
  {content : Document}

/-- A document is copied whole. -/
theorem captureCopy_document (sound : Sound surroundings)
    (closed : response.connection.ending = .closed)
    (whole : response.bodyPrefix ++ delivered response.connection.chunks = content.body) :
    captureCopy surroundings.native response =
      ⟨true, 13, content.body.length, content.body⟩ := by
  have connection : response.connection = ⟨response.connection.chunks, .closed⟩ := by
    rw [← closed]
  have copied : (captureCopy surroundings.native response).copied = true := by
    rw [captureCopy, connection]
    refine copyRemainingBody_complete sound.bodyReliable fun _ => ?_
    rw [whole]
    exact content.small
  obtain ⟨_, _, copy, _⟩ := copyRemainingBody_of_copied copied
  rw [whole] at copy
  exact copy

/-- **A document is captured**, with its metadata. -/
theorem deliverToFiles_document (sound : Sound surroundings)
    (metadataOutput : call.metadataOutputPath = some metadataPath)
    (brings : Brings response.head content) (closed : response.connection.ending = .closed)
    (whole : response.bodyPrefix ++ delivered response.connection.chunks = content.body) :
    deliverToFiles surroundings.native call response = documentDelivery response.head content := by
  have copy := captureCopy_document sound closed whole
  have fits : ¬ ∃ length ∈ response.head.contentLength, length > maxCaptureBytes := by
    rintro ⟨length, declared, long⟩
    have small := content.small
    have same := brings.contentLength length declared
    omega
  have agrees : ¬ ∃ length ∈ response.head.contentLength, length ≠ content.body.length := by
    rintro ⟨length, declared, differs⟩
    exact differs (brings.contentLength length declared)
  have framed : ¬ response.head.invalidFraming = true := by
    rw [brings.framing]
    exact Bool.false_ne_true
  have opens : ¬ surroundings.native.files.bodyOpens = false := by
    rw [sound.bodyOpens]
    exact Bool.true_eq_false.mp
  rw [captureCopy] at copy
  rw [deliverToFiles, if_neg framed, if_neg fits, if_neg opens]
  simp only [copy, metadataOutput, sound.bodyReadable, sound.bodyCloses, sound.metadata,
    writeResponseMetadata, if_true, Bool.and_self, deliveryResult_copied, if_neg agrees,
    validUtf8File_some, brings.status, documentDelivery]

end Captures

/-! ## Where a location leads -/

/-- **A location resolves where a client can follow it.** -/
theorem Reached.resolves_iff {call : Call} {visit : LoopState} {url : Url} {location : Bytes}
    (reached : Reached call visit url) (web : WebLocation location)
    (short : location.length < maxLocationBytes) :
    (∃ next, resolveLocation visit.current visit.request location = some next) ↔
      Followable url location := by
  have requested := reached.coherent.requested
  have rooted := reached.coherent.target.rooted
  constructor
  · rintro ⟨next, resolved⟩
    obtain ⟨visible, _, filled⟩ := accepted_of_resolved resolved
    have stands := standsFor_follow reached.stands reached.noQuery requested rooted web resolved
    refine ⟨visible, filled, ?_, ?_⟩
    · exact ((resolveLocation_eq_some_iff requested rooted visible short filled web).mp resolved).1
    · rw [referenceOf, ← stands.target]
      exact next.target.fits
  · rintro ⟨visible, filled, readable, fits⟩
    have same := (sameResource_of_standsFor reached.stands reached.noQuery).symm
    have placed : (endpointUrl visit.current).authority.isSome = true := rfl
    have target := (same.transform placed (referenceOf location)).target
    rw [← target] at fits
    obtain ⟨next, stands⟩ := exists_standsFor web readable fits
    exact ⟨next, (resolveLocation_eq_some_iff requested rooted visible short filled web).mpr
      ⟨readable, stands⟩⟩

/-! ## The run -/

/-- A visit of the run has come to a URL, with so many moves left. Its request is complete and has
at most one `Host` line, so that it can be edited for any endpoint. -/
structure Arrived (world : World) (web : Web) (call : Call) (left : ℕ) (visit : LoopState)
    (url : Url) : Prop where
  reached : Reached call visit url
  complete : HeadersComplete visit.request
  single : (requestHeaderLines visit.request).countP isHostLine ≤ 1
  budget : visit.redirects + left = maxRedirects
  served : ∀ place ∈ trail (pageAt web) left url, ServedAt world web place

/-- How a run ends that came to a document, or to nothing. -/
def Presents : Option Document → ℕ × Delivery → Prop
  | none, result => result = (8, .nothing)
  | some content, result =>
      ∃ head fields, IsHead head ∧ parseResponseHead head = some fields ∧ Brings fields content ∧
        result = documentDelivery fields content

theorem isGet_of_requestTarget {request : Bytes} {capacity : ℕ} {target : CharArray capacity}
    (requested : requestTarget request capacity = some target) : isGet request = true := by
  obtain ⟨rest, rfl, _⟩ := requestTarget_eq_some_iff.mp requested
  rw [isGet, List.isPrefixOf_iff_prefix]
  exact List.prefix_append _ _

section Run

variable {surroundings : Surroundings} {web : Web} {call : Call} {left : ℕ}
  {visit later : LoopState} {url next : Url} {location : Bytes} {fields : ResponseHead}

theorem Arrived.asksFor (arrived : Arrived surroundings.native web call left visit url) :
    AsksFor (visit.exchange call) url :=
  ⟨arrived.reached.stands, arrived.reached.coherent.requested⟩

theorem Arrived.isGet (arrived : Arrived surroundings.native web call left visit url) :
    isGet visit.request = true :=
  isGet_of_requestTarget arrived.reached.coherent.requested

/-- The response to a visit shows what is at its URL. -/
theorem Arrived.response (arrived : Arrived surroundings.native web call left visit url) :
    ∃ response head body,
      oneRequest (surroundings.native.server visit.redirects (visit.exchange call)) =
        .ok response ∧
      response.connection.ending = .closed ∧
      response.bodyPrefix ++ delivered response.connection.chunks = body ∧ IsHead head ∧
      parseResponseHead head = some response.head ∧ Shows response.head body (web url) := by
  obtain ⟨chunks, head, body, answered, stream, message⟩ :=
    arrived.served url (mem_trail left url) visit.redirects _ arrived.asksFor
  obtain ⟨response, received, closed, whole, parsed, shows⟩ := oneRequest_of_message stream message
  rw [← answered] at received
  exact ⟨response, head, body, received, closed, whole, message.isHead, parsed, shows⟩

/-- The response to a visit at a URL that has moved is a redirect to be followed. -/
theorem Arrived.followable (arrived : Arrived surroundings.native web call left visit url)
    (moved : web url = .moved location) :
    ∃ fields, followable surroundings.native call visit = some fields ∧
      Redirects fields location := by
  obtain ⟨response, _, _, received, _, _, _, _, shows⟩ := arrived.response
  rw [moved] at shows
  have redirects : Redirects response.head location := shows
  refine ⟨response.head, ?_, redirects⟩
  simp only [IcuTransport.Client.followable, received, canFollow, arrived.isGet, redirects.status,
    redirects.hasLocation, Bool.and_self, if_true]

/-- **At a document the run ends** and presents it. -/
theorem Arrived.document (sound : Sound surroundings) {bodyPath metadataPath : Bytes}
    (bodyOutput : call.bodyOutputPath = some bodyPath)
    (metadataOutput : call.metadataOutputPath = some metadataPath)
    (arrived : Arrived surroundings.native web call left visit url) {content : Document}
    (there : web url = .document content) :
    ∃ result, turn surroundings.native call visit = .finished result ∧
      Presents (some content) result := by
  obtain ⟨response, head, body, received, closed, whole, isHead, parsed, shows⟩ := arrived.response
  rw [there] at shows
  obtain ⟨brings, rfl⟩ : Brings response.head content ∧ body = content.body := shows
  have stays : canFollow visit.request response.head = false := by
    rw [canFollow, Bool.and_assoc, brings.stays, Bool.and_false]
  refine ⟨deliver surroundings.native call response, ?_, head, response.head, isHead, parsed,
    brings, ?_⟩
  · simp only [turn, received, stays, if_true]
  · rw [deliver, bodyOutput]
    exact deliverToFiles_document sound metadataOutput brings closed whole

/-- **A location that can be followed is followed.** The memory is there, and a request with at most
one `Host` line always has room for another authority. -/
theorem Arrived.follow (sound : Sound surroundings)
    (arrived : Arrived surroundings.native web call left visit url)
    (redirects : Redirects fields location) (can : Followable url location) :
    ∃ later, follow surroundings.native call visit fields = some later := by
  have short : location.length < maxLocationBytes := by
    rw [← redirects.text]
    exact lt_of_le_of_lt (List.takeWhile_sublist _).length_le fields.location.fits
  obtain ⟨endpoint, resolved⟩ :=
    (arrived.reached.resolves_iff redirects.web short).mpr can
  have named : endpoint.host.bytes ≠ [] := by
    rcases resolveLocation_cases resolved with ⟨host, _⟩ | ⟨_, _, host, _⟩
    · exact host.nonempty
    · rw [host]
      exact arrived.reached.coherent.host.nonempty
  have rewritten := rewriteGetRequestWithPolicy_of_single arrived.complete
    (endpointAuthority_eq_written (Or.inl named)) arrived.single
    (sameOrigin visit.current endpoint) (some call.names)
  refine ⟨⟨visit.redirects + 1, endpoint, _⟩, follow_eq_some_iff.mpr
    ⟨?_, sound.allocates _, rewritten, rfl⟩⟩
  rw [redirects.text]
  exact resolved

/-- **Where a location leads nowhere, or no move is left, the run ends** with the failure of the
redirects. -/
theorem Arrived.gaveUp (arrived : Arrived surroundings.native web call left visit url)
    (moved : web url = .moved location) (ended : left = 0 ∨ lead url location = none) :
    ∃ result, turn surroundings.native call visit = .finished result ∧ Presents none result := by
  obtain ⟨fields, follows, redirects⟩ := arrived.followable moved
  cases went : turn surroundings.native call visit with
  | finished result =>
      obtain ⟨code, nothing⟩ := finished_of_followable follows went
      exact ⟨result, rfl, Prod.ext code nothing⟩
  | next later =>
      obtain ⟨remaining, head, follows', found⟩ := turn_eq_next_iff.mp went
      obtain rfl := Option.some.inj (follows.symm.trans follows')
      have resolved := (follow_eq_some_iff.mp found).1
      rw [redirects.text] at resolved
      have short := (accepted_of_resolved resolved).2.1
      have can := (arrived.reached.resolves_iff redirects.web short).mp ⟨_, resolved⟩
      have budget := arrived.budget
      rcases ended with rfl | nowhere
      · omega
      · rw [lead, if_pos can] at nowhere
        cases nowhere

/-- **A move that can be made is made.** -/
theorem Arrived.moved (sound : Sound surroundings)
    (arrived : Arrived surroundings.native web call (left + 1) visit url)
    (moved : web url = .moved location) (leads : lead url location = some next) :
    ∃ later, turn surroundings.native call visit = .next later ∧
      Arrived surroundings.native web call left later next := by
  obtain ⟨can, rfl⟩ := lead_eq_some_iff.mp leads
  obtain ⟨fields, follows, redirects⟩ := arrived.followable moved
  obtain ⟨later, found⟩ := arrived.follow sound redirects can
  have budget := arrived.budget
  have went : turn surroundings.native call visit = .next later :=
    turn_eq_next_iff.mpr ⟨by omega, fields, follows, found⟩
  have located : locationOf surroundings.native visit.redirects (visit.exchange call) =
      location := by
    rw [locationOf_of_followable follows, redirects.text]
  have page : pageAt web url = .moved (some (Uri.transform url (referenceOf location))) := by
    rw [pageAt_moved moved, leads]
  have onward := arrived.reached.turn went (located.symm ▸ redirects.web)
  rw [located] at onward
  obtain ⟨complete, authority, _, lines⟩ := (hop_of_turn went).edits.lines onward.coherent.clear
  refine ⟨later, went, onward, complete, ?_, ?_, ?_⟩
  · rw [lines]
    exact countP_redirectedLines arrived.single
  · have counted := (redirects_of_turn went).2
    omega
  · intro place listed
    refine arrived.served place ?_
    rw [trail_moved page]
    exact List.mem_cons_of_mem _ listed

/-- **The client follows the web.** -/
theorem follows_web (sound : Sound surroundings) {bodyPath metadataPath : Bytes}
    (bodyOutput : call.bodyOutputPath = some bodyPath)
    (metadataOutput : call.metadataOutputPath = some metadataPath) :
    Follows (pageAt web) (turn surroundings.native call) (Arrived surroundings.native web call)
      Presents where
  document arrived found :=
    arrived.document sound bodyOutput metadataOutput (pageAt_eq_document found)
  gaveUp arrived found ended := by
    obtain ⟨location, moved, rfl⟩ := pageAt_eq_moved found
    exact arrived.gaveUp moved ended
  moved arrived found := by
    obtain ⟨location, moved, leads⟩ := pageAt_eq_moved found
    exact arrived.moved sound moved leads

end Run

/-! ## The fetch -/

/-- What a fetch returns when browsing comes to a document, or to nothing. -/
def fetchedOf : Option Document → Except CaptureFailure HTTPBytesResponse
  | none => .error .redirectFailure
  | some content =>
      .ok ⟨content.status, content.body, content.encoding, content.contentType,
        validUtf8Bytes content.body⟩

/-- A complete capture is understood. -/
theorem concludeFetch_complete {surroundings : Surroundings} (sound : Sound surroundings)
    {outcome : Outcome} {body metadata : Bytes}
    (complete : outcome.result = 0 ∨ outcome.result = 10)
    (bodyFile : outcome.delivery.bodyFile = some body)
    (metadataFile : outcome.delivery.metadataFile = some metadata) :
    concludeFetch surroundings outcome = understandBytes outcome.result metadata body := by
  have codes : (outcome.result : ℤ) = 0 ∨ (outcome.result : ℤ) = 10 := by omega
  simp only [concludeFetch, if_pos codes, bodyFile, metadataFile, sound.bodyReads,
    sound.metadataReads, readFile, if_true]

/-- What the run presents is what the fetch returns. -/
theorem concludeFetch_presented {surroundings : Surroundings} (sound : Sound surroundings)
    {found : Option Document} {outcome : Outcome}
    (presented : Presents found (outcome.result, outcome.delivery)) :
    concludeFetch surroundings outcome = fetchedOf found := by
  cases found with
  | none =>
      have code : outcome.result = 8 := congrArg Prod.fst presented
      rw [concludeFetch_failed ⟨by omega, by omega⟩, code]
      rfl
  | some content =>
      obtain ⟨head, fields, isHead, parsed, brings, presented⟩ := presented
      obtain ⟨typeLine, encodingLine, low, high⟩ := shown_of_parseResponseHead isHead parsed
      obtain ⟨code, left⟩ := Prod.mk.inj presented
      have complete : outcome.result = 0 ∨ outcome.result = 10 := by
        rw [code]
        split
        · exact Or.inr rfl
        · exact Or.inl rfl
      have codes : (outcome.result : ℤ) = 0 ∨ (outcome.result : ℤ) = 10 := by omega
      rw [concludeFetch_complete sound complete (congrArg Delivery.bodyFile left)
        (congrArg Delivery.metadataFile left),
        understandBytes_of_unbroken (brings.contentType ▸ content.typeUnbroken)
          (brings.encoding ▸ content.encodingUnbroken) typeLine encodingLine low high codes,
        brings.status, brings.contentType, brings.encoding]
      rfl

/-- The call that a fetch makes. -/
def fetchCall (surroundings : Surroundings) (wire : RenderedRequest) (credentials : Bytes) :
    Call where
  host := wire.host
  port := wire.port
  requestHeaders := wire.head
  requestBody := some wire.body
  requestBodyLength := wire.bodyLength
  useTls := wire.useTls
  credentialHeaderNames := some credentials
  bodyOutputPath := some (surroundings.directory ++ ascii "/body")
  metadataOutputPath := some (surroundings.directory ++ ascii "/metadata")

/-- A call that asks for a URL and has no body is sent. -/
theorem exists_start {world : World} {call : Call} {url : Url} (asks : Asks call url)
    (bodyless : call.requestBodyLength = 0) (duplicates : world.duplicates = true) :
    ∃ state, start world call = .ok state := by
  obtain ⟨target, found, _⟩ := asks.target
  have get := isGet_of_requestTarget found
  have stored : CharArray.store maxHostBytes call.host = some ⟨call.host, asks.rendered.hostFits⟩ :=
    CharArray.store_eq_some_iff.mpr rfl
  refine ⟨⟨0, ⟨call.useTls, call.port, ⟨call.host, asks.rendered.hostFits⟩, target⟩,
    call.requestHeaders⟩, ?_⟩
  simp [start, bodyless, get, validWireRequest, stored, found, duplicates]

/-- A run of the loop is a run of the program. -/
theorem sendRequest_of_run {fuel : ℕ} {world : World} {call : Call} {state : LoopState}
    {visits : List LoopState} {result : ℕ × Delivery} (began : start world call = .ok state)
    (ran : run (turn world call) fuel state = some (visits, result)) :
    sendRequest fuel world call =
      some ⟨visits.map (LoopState.exchange call), result.1, result.2⟩ := by
  rw [sendRequest, began]
  dsimp only
  rw [ran]
  rfl

/-- **A capture browses the web.** Its result presents what browsing comes to, and its exchanges ask
for the URLs of the trail. -/
theorem sendRequest_browses {web : Web} {surroundings : Surroundings} {call : Call} {url : Url}
    {bodyPath metadataPath : Bytes} (bodyOutput : call.bodyOutputPath = some bodyPath)
    (metadataOutput : call.metadataOutputPath = some metadataPath) (asks : Asks call url)
    (bodyless : call.requestBodyLength = 0) (complete : HeadersComplete call.requestHeaders)
    (single : (requestHeaderLines call.requestHeaders).countP isHostLine ≤ 1)
    (sound : Sound surroundings)
    (served : ∀ place ∈ trail (pageAt web) maxRedirects url,
      ServedAt surroundings.native web place)
    {fuel : ℕ} (enough : 9 ≤ fuel) :
    ∃ outcome, sendRequest fuel surroundings.native call = some outcome ∧
      Presents (browse (pageAt web) maxRedirects url) (outcome.result, outcome.delivery) ∧
      List.Forall₂ AsksFor outcome.exchanges (trail (pageAt web) maxRedirects url) := by
  obtain ⟨state, began⟩ := exists_start asks bodyless sound.duplicates
  have started := started_of_start began
  have arrived : Arrived surroundings.native web call maxRedirects state url := by
    refine ⟨reached_start asks started, ?_, ?_, ?_, served⟩
    · rw [started.request]
      exact complete
    · rw [started.request]
      exact single
    · rw [started.redirects, Nat.zero_add]
  obtain ⟨visits, result, ran, presented, alike⟩ :=
    run_browses (follows_web sound bodyOutput metadataOutput) arrived
  refine ⟨_, sendRequest_of_run began (run_mono ran enough), presented, ?_⟩
  rw [List.forall₂_map_left_iff]
  exact alike.imp fun visit place ⟨left, arrived⟩ => arrived.asksFor

section Fetch

variable {ρ η : Type} (render : ρ → List η → Option RenderedRequest)
  (credentialHeaderNames : List η → List Bytes)

/-- **To fetch is to browse.** Let a request be rendered as a GET of a URL, with complete headers
and at most one `Host` line, and let nothing fail at home. If each URL of the trail is served as a
web says, then a fetch returns what browsing the web gives, and its exchanges ask for the URLs of
the trail, one after another. -/
theorem fetch_browses (web : Web) (surroundings : Surroundings) (value : ρ) (headers : List η)
    (wire : RenderedRequest) (url : Url) (rendered : render value headers = some wire)
    (asks : Asks
      (fetchCall surroundings wire (credentialNames (credentialHeaderNames headers))) url)
    (bodyless : wire.bodyLength = 0) (complete : HeadersComplete wire.head)
    (single : (requestHeaderLines wire.head).countP isHostLine ≤ 1) (sound : Sound surroundings)
    (served : ∀ place ∈ trail (pageAt web) maxRedirects url,
      ServedAt surroundings.native web place)
    (fuel : ℕ) (enough : 9 ≤ fuel) :
    fetchBytesResponse render credentialHeaderNames fuel surroundings value headers =
        some (fetchedOf (browse (pageAt web) maxRedirects url)) ∧
      ∃ outcome,
        nativeFetch credentialHeaderNames fuel surroundings wire headers = some outcome ∧
        List.Forall₂ AsksFor outcome.exchanges (trail (pageAt web) maxRedirects url) := by
  obtain ⟨outcome, ran, presented, asked⟩ :=
    sendRequest_browses rfl rfl asks bodyless complete single sound served enough
  have returned : nativeFetch credentialHeaderNames fuel surroundings wire headers =
      some outcome := ran
  refine ⟨?_, outcome, returned, asked⟩
  rw [fetchBytesResponse, rendered]
  dsimp only
  rw [if_neg sound.directory, returned, Option.map_some, concludeFetch_presented sound presented]

end Fetch

/-- A short text. -/
def leaf : Document where
  status := 200
  contentType := ascii "text/plain"
  encoding := ascii "identity"
  body := ascii "hi"
  typeUnbroken := by decide
  encodingUnbroken := by decide
  small := by decide

/-- The text is at one path, and everything else has moved there. -/
def leafWeb : Web :=
  fun url => if urlTarget url = ascii "/b" then .document leaf else .moved (ascii "/b")

/-- The head that the text is sent with. -/
def leafHead : Bytes :=
  ascii "HTTP/1.0 200 OK\r\nContent-Length: 2\r\nContent-Type: text/plain\r\n\r\n"

/-- A server of that web. -/
def leafServer : World :=
  { redirectingOnce with
    server := fun _ exchange =>
      if exchange.endpoint.target.bytes = ascii "/b" then
        .answered ⟨[⟨leafHead, by decide, by decide⟩, ⟨ascii "hi", by decide, by decide⟩], .closed⟩
      else redirectAnswer }

theorem leafServer_serves (url : Url) : ServedAt leafServer leafWeb url := by
  intro hop exchange asked
  have target := asked.1.target
  by_cases there : urlTarget url = ascii "/b"
  · have resource : leafWeb url = .document leaf := if_pos there
    rw [resource]
    rw [there] at target
    refine ⟨_, leafHead, ascii "hi", if_pos target, by decide, ⟨by decide, by decide, ?_⟩⟩
    exact ⟨⟨200, false, ⟨[], by decide⟩, some 2, ⟨ascii "text/plain", by decide⟩,
      ⟨ascii "identity", by decide⟩, false⟩, by decide +kernel,
      ⟨rfl, by decide, by decide, rfl, by decide, rfl⟩, rfl⟩
  · have resource : leafWeb url = .moved (ascii "/b") := if_neg there
    rw [resource]
    rw [← target] at there
    refine ⟨_, ascii "HTTP/1.0 302 Found\r\nLocation: /b\r\n\r\n", [], if_neg there, by decide,
      ⟨by decide, by decide, ?_⟩⟩
    exact ⟨⟨302, true, ⟨ascii "/b", by decide⟩, none, ⟨[], by decide⟩,
      ⟨ascii "identity", by decide⟩, false⟩, by decide +kernel, by decide, rfl, by decide,
      Or.inl (by decide)⟩

theorem fetch_browses_leaf :
    fetchBytesResponse (fun (_ : Unit) (_ : List Unit) => some authorizedWire) (fun _ => []) 9
        { readableSurroundings with native := leafServer } () [] =
      some (.ok ⟨200, ascii "hi", ascii "identity", ascii "text/plain", true⟩) := by
  have noAuthority : (Uri.read (ascii "/b")).authority = none := by decide
  have can : Followable rootUrl (ascii "/b") := by
    refine ⟨by decide, by decide, fun text found => ?_, by decide⟩
    rw [noAuthority] at found
    cases found
  have page : pageAt leafWeb rootUrl = _ := pageAt_moved (if_neg (by decide))
  rw [lead_eq_some_iff.mpr ⟨can, rfl⟩] at page
  have there : pageAt leafWeb (Uri.transform rootUrl (referenceOf (ascii "/b"))) =
      .document leaf := by
    rw [pageAt, leafWeb, if_pos (by decide)]
  have found : browse (pageAt leafWeb) maxRedirects rootUrl = some leaf :=
    (browse_moved page).trans (browse_document there)
  have asks : Asks (fetchCall { readableSurroundings with native := leafServer } authorizedWire
      (credentialNames [])) rootUrl :=
    ⟨⟨⟨by decide, by decide, by decide⟩, by decide,
      ascii "/", ascii "Host: a\r\nAuthorization: x\r\n\r\n", ⟨by decide, by decide, by decide⟩,
      by decide, by decide⟩, by decide, ⟨none, rfl, by decide⟩,
      ⟨⟨ascii "/", by decide⟩, by decide, by decide⟩, by decide⟩
  have complete : HeadersComplete authorizedWire.head := by
    have same : authorizedWire.head = redirectedRequest (ascii "/") [ascii "Host: a",
        ascii "Authorization: x"] := by decide
    rw [same]
    refine headersComplete_redirectedRequest (by decide) fun line member => ?_
    rcases List.mem_pair.mp member with rfl | rfl
    · exact ⟨by decide, firstAfter_crlf (by decide)⟩
    · exact ⟨by decide, firstAfter_crlf (by decide)⟩
  have fetched := (fetch_browses (fun (_ : Unit) (_ : List Unit) => some authorizedWire)
    (fun _ => []) leafWeb { readableSurroundings with native := leafServer } () [] authorizedWire
    rootUrl rfl asks rfl complete (by decide)
    ⟨rfl, fun _ => rfl, rfl, ⟨fun _ => rfl, rfl⟩, rfl, rfl, rfl, by decide, rfl, rfl⟩
    (fun place _ => leafServer_serves place) 9 le_rfl).1
  rw [found] at fetched
  exact fetched.trans (by decide)

end IcuTransport.Client
