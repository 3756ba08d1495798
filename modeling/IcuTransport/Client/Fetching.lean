import IcuTransport.Capture.Understanding
import IcuTransport.Client.Capturing

/-!
# Fetching a response

`fetchBytesResponse` embeds the caller of a capture: it renders a request, makes a private
directory, runs the program with two files in it, reads the files back, and takes the result, the
metadata and the body together.

How a request is rendered is the business of another library and a parameter here. A file that is
read back holds what was written to it, or cannot be read.

The status of a response crosses the metadata file in its first row, before any text of the server,
so no value of a header changes it (`status_of_understood`).
-/

set_option autoImplicit false

namespace IcuTransport.Client

open Ascii TextScan Wire Capture

/-! ## The code -/

/-- A rendered request and the server of its URL. -/
structure RenderedRequest where
  useTls : Bool
  host : Bytes
  port : Int32
  head : Bytes
  body : Bytes
  bodyLength : Int32

/-- What a fetch depends on: the native run, the private directory, which is empty when none could
be made, and whether its two files can be read. -/
structure Surroundings where
  native : World
  directory : Bytes
  bodyReads : Bool
  metadataReads : Bool

/-- The names of credential headers, each with its LF. -/
def credentialNames (names : List Bytes) : Bytes := names.flatMap (· ++ [lf])

/-- Run the program on a rendered request. -/
def fetchPrepared (fuel : ℕ) (world : World) (wire : RenderedRequest)
    (bodyPath metadataPath credentials : Bytes) : Option Outcome :=
  sendRequest fuel world
    { host := wire.host
      port := wire.port
      requestHeaders := wire.head
      requestBody := some wire.body
      requestBodyLength := wire.bodyLength
      useTls := wire.useTls
      credentialHeaderNames := some credentials
      bodyOutputPath := some bodyPath
      metadataOutputPath := some metadataPath }

/-- What is read from a file. -/
def readFile (reads : Bool) (contents : Option Bytes) : Option Bytes :=
  if reads then contents else none

/-- What a run of the program is taken for. -/
def concludeFetch (surroundings : Surroundings) (outcome : Outcome) :
    Except CaptureFailure HTTPBytesResponse :=
  let result : ℤ := outcome.result
  let body :=
    if result = 0 ∨ result = 10 then readFile surroundings.bodyReads outcome.delivery.bodyFile
    else none
  let metadata := readFile surroundings.metadataReads outcome.delivery.metadataFile
  match body, metadata with
  | some body, some metadata => understandBytes result metadata body
  | _, _ =>
      if result = 0 ∨ result = 10 then .error .captureIOFailure else .error (captureFailure result)

section Fetch

variable {ρ η : Type} (render : ρ → List η → Option RenderedRequest)
  (credentialHeaderNames : List η → List Bytes)

/-- The native run of a fetch, when the request can be rendered and the directory was made. -/
def nativeFetch (fuel : ℕ) (surroundings : Surroundings) (wire : RenderedRequest)
    (headers : List η) : Option Outcome :=
  fetchPrepared fuel surroundings.native wire (surroundings.directory ++ ascii "/body")
    (surroundings.directory ++ ascii "/metadata") (credentialNames (credentialHeaderNames headers))

/-- Fetch the response to a request. -/
def fetchBytesResponse (fuel : ℕ) (surroundings : Surroundings) (value : ρ) (headers : List η) :
    Option (Except CaptureFailure HTTPBytesResponse) :=
  match render value headers with
  | none => some (.error .invalidRequest)
  | some wire =>
      if surroundings.directory = [] then some (.error .captureIOFailure)
      else
        (nativeFetch credentialHeaderNames fuel surroundings wire headers).map
          (concludeFetch surroundings)

end Fetch

/-! ## What a fetch returns -/

/-- A response is understood from a result of a complete capture, and holds the body it was
given. -/
theorem understandBytes_parts {code : ℤ} {metadata body : Bytes} {response : HTTPBytesResponse}
    (understood : understandBytes code metadata body = .ok response) :
    (code = 0 ∨ code = 10) ∧ response.bodyBytes = body ∧
      ∃ text, (metadataFields metadata).lookup (ascii "http_status") = some text ∧
        statusOf text = some response.status := by
  unfold understandBytes at understood
  split at understood
  · cases understood
  · rename_i complete
    dsimp only at understood
    split at understood
    · rename_i text _ _ _ found _ _ _
      split at understood
      · rename_i status read
        cases understood
        exact ⟨not_not.mp complete, rfl, text, found, read⟩
      · cases understood
    · cases understood

/-- **The status comes back**, whatever the server put into the other rows. -/
theorem status_of_understood {head body : Bytes} {fields : ResponseHead} (isHead : IsHead head)
    (parsed : parseResponseHead head = some fields) {received : ℕ} {utf8 : Bool} {code : ℤ}
    {response : HTTPBytesResponse}
    (understood : understandBytes code (metadataText fields received utf8) body = .ok response) :
    response.status = fields.status := by
  obtain ⟨typeLine, encodingLine, low, high⟩ := shown_of_parseResponseHead isHead parsed
  obtain ⟨_, _, text, found, read⟩ := understandBytes_parts understood
  rw [metadataFields_metadataText typeLine encodingLine, List.lookup_cons_self] at found
  obtain rfl := Option.some.inj found
  rw [statusOf_decimal low high] at read
  exact (Option.some.inj read).symm

/-- A file that was read held what was read. -/
theorem readFile_eq_some {reads : Bool} {contents : Option Bytes} {text : Bytes}
    (read : readFile reads contents = some text) : contents = some text := by
  unfold readFile at read
  split at read
  · exact read
  · cases read

/-- A response is concluded from files that were read. -/
theorem concludeFetch_ok {surroundings : Surroundings} {outcome : Outcome}
    {response : HTTPBytesResponse} (concluded : concludeFetch surroundings outcome = .ok response) :
    ∃ body metadata, outcome.delivery.bodyFile = some body ∧
      outcome.delivery.metadataFile = some metadata ∧
      understandBytes outcome.result metadata body = .ok response := by
  unfold concludeFetch at concluded
  dsimp only at concluded
  split at concluded
  · rename_i body metadata bodyRead metadataRead
    split at bodyRead
    · exact ⟨body, metadata, readFile_eq_some bodyRead, readFile_eq_some metadataRead, concluded⟩
    · cases bodyRead
  · split at concluded <;> cases concluded

/-- Any other result is a failure of its own. -/
theorem concludeFetch_failed {surroundings : Surroundings} {outcome : Outcome}
    (failed : outcome.result ≠ 0 ∧ outcome.result ≠ 10) :
    concludeFetch surroundings outcome = .error (captureFailure outcome.result) := by
  have other : ¬ ((outcome.result : ℤ) = 0 ∨ (outcome.result : ℤ) = 10) := by omega
  simp only [concludeFetch, if_neg other]

section Sound

variable {ρ η : Type} (render : ρ → List η → Option RenderedRequest)
  (credentialHeaderNames : List η → List Bytes)

variable {render credentialHeaderNames} in
/-- What a fetch does: the request cannot be rendered, the directory was not made, or a native run
is concluded. -/
theorem fetchBytesResponse_eq_some {fuel : ℕ} {surroundings : Surroundings} {value : ρ}
    {headers : List η} {fetched : Except CaptureFailure HTTPBytesResponse}
    (ran : fetchBytesResponse render credentialHeaderNames fuel surroundings value headers =
      some fetched) :
    (∃ failure, fetched = .error failure ∧
      (render value headers = none ∨ surroundings.directory = [])) ∨
    ∃ wire outcome, render value headers = some wire ∧ surroundings.directory ≠ [] ∧
      nativeFetch credentialHeaderNames fuel surroundings wire headers = some outcome ∧
      fetched = concludeFetch surroundings outcome := by
  unfold fetchBytesResponse at ran
  split at ran
  · rename_i unrendered
    exact Or.inl ⟨_, (Option.some.inj ran).symm, Or.inl unrendered⟩
  · rename_i wire rendered
    split at ran
    · rename_i missing
      exact Or.inl ⟨_, (Option.some.inj ran).symm, Or.inr missing⟩
    · rename_i made
      obtain ⟨outcome, finished, concluded⟩ := Option.map_eq_some_iff.mp ran
      exact Or.inr ⟨wire, outcome, rendered, made, finished, concluded.symm⟩

/-- A fetch returns, and larger budgets change nothing. -/
theorem fetch_returns (surroundings : Surroundings) (value : ρ) (headers : List η) :
    ∃ fetched, ∀ fuel, 9 ≤ fuel →
      fetchBytesResponse render credentialHeaderNames fuel surroundings value headers =
        some fetched := by
  unfold fetchBytesResponse
  cases render value headers with
  | none => exact ⟨_, fun _ _ => rfl⟩
  | some wire =>
      dsimp only
      split
      · exact ⟨_, fun _ _ => rfl⟩
      · obtain ⟨outcome, returns⟩ := sendRequest_returns surroundings.native _
        refine ⟨concludeFetch surroundings outcome, fun fuel enough => ?_⟩
        rw [nativeFetch, fetchPrepared, returns fuel enough, Option.map_some]

/-- The response concluded from a complete capture. -/
theorem response_of_captured {fuel : ℕ} {surroundings : Surroundings} {wire : RenderedRequest}
    {bodyPath metadataPath credentials : Bytes} {outcome : Outcome} {response : HTTPBytesResponse}
    (ran : fetchPrepared fuel surroundings.native wire bodyPath metadataPath credentials =
      some outcome)
    (concluded : concludeFetch surroundings outcome = .ok response) :
    (outcome.result = 0 ∨ outcome.result = 10) ∧
      ∃ head body fields, Captured surroundings.native outcome head body fields ∧
        response.bodyBytes = body ∧ parseStatus head = some response.status ∧
        ((200 ≤ response.status ∧ response.status ≤ 299) ↔ outcome.result = 0) := by
  obtain ⟨file, metadata, bodyFile, metadataFile, understood⟩ := concludeFetch_ok concluded
  obtain ⟨complete, bytes, _⟩ := understandBytes_parts understood
  have codes : outcome.result = 0 ∨ outcome.result = 10 := by omega
  refine ⟨codes, ?_⟩
  obtain ⟨head, body, fields, captured, _, parsed, result⟩ :=
    captured_of_complete rfl rfl ran (by
      simp only [List.mem_cons, List.not_mem_nil, or_false]
      omega)
  obtain ⟨utf8, text⟩ := captured.metadataFile
  obtain rfl := Option.some.inj (text.symm.trans metadataFile)
  have status := status_of_understood captured.isHead parsed understood
  refine ⟨head, body, fields, captured, ?_, status ▸ captured.status, ?_⟩
  · rw [bytes]
    exact Option.some.inj (bodyFile.symm.trans captured.bodyFile)
  · rw [status]
    split at result
    · omega
    · split at result
      · omega
      · omega

/-- **No failure becomes a response, and no response changes its status.** A fetch returns. A
response comes only from a native run with the result 0 or 10; it holds the captured body and the
status of the captured head, and that is a successful one exactly when the result is 0. Every other
result is the failure it stands for. -/
theorem fetch_sound (surroundings : Surroundings) (value : ρ) (headers : List η) :
    (∃ fetched, ∀ fuel, 9 ≤ fuel →
      fetchBytesResponse render credentialHeaderNames fuel surroundings value headers =
        some fetched) ∧
    ∀ fuel fetched,
      fetchBytesResponse render credentialHeaderNames fuel surroundings value headers =
        some fetched →
      (∀ response, fetched = .ok response →
        ∃ wire outcome head body fields, render value headers = some wire ∧
          nativeFetch credentialHeaderNames fuel surroundings wire headers = some outcome ∧
          (outcome.result = 0 ∨ outcome.result = 10) ∧
          Captured surroundings.native outcome head body fields ∧ response.bodyBytes = body ∧
          parseStatus head = some response.status ∧
          ((200 ≤ response.status ∧ response.status ≤ 299) ↔ outcome.result = 0)) ∧
      ∀ wire outcome, render value headers = some wire → surroundings.directory ≠ [] →
        nativeFetch credentialHeaderNames fuel surroundings wire headers = some outcome →
        outcome.result ≠ 0 → outcome.result ≠ 10 →
          fetched = .error (captureFailure outcome.result) := by
  refine ⟨fetch_returns render credentialHeaderNames surroundings value headers, ?_⟩
  intro fuel fetched ran
  rcases fetchBytesResponse_eq_some ran with
    ⟨failure, rfl, unable⟩ | ⟨wire, outcome, rendered, _, finished, rfl⟩
  · refine ⟨fun response absurdity => (by cases absurdity), ?_⟩
    intro wire outcome rendered made
    rcases unable with unrendered | missing
    · rw [unrendered] at rendered
      cases rendered
    · exact absurd missing made
  · constructor
    · intro response concluded
      obtain ⟨codes, head, body, fields, captured, bytes, status, successful⟩ :=
        response_of_captured finished concluded
      exact ⟨wire, outcome, head, body, fields, rendered, finished, codes, captured, bytes, status,
        successful⟩
    · intro wire' outcome' rendered' _ finished' notZero notTen
      obtain rfl := Option.some.inj (rendered.symm.trans rendered')
      obtain rfl := Option.some.inj (finished.symm.trans finished')
      exact concludeFetch_failed ⟨notZero, notTen⟩

end Sound

/-- The rendering of a GET of the root of a server, with a line of credentials. -/
def authorizedWire : RenderedRequest where
  useTls := false
  host := ascii "a"
  port := 80
  head := ascii "GET / HTTP/1.0\r\nHost: a\r\nAuthorization: x\r\n\r\n"
  body := []
  bodyLength := 0

/-- The server that redirects once, and a directory whose files can be read. -/
def readableSurroundings : Surroundings :=
  ⟨redirectingOnce, ascii "/tmp/icu-response-abcdef", true, true⟩

theorem fetch_sound_once_redirected :
    ∃ outcome head body fields,
      Captured redirectingOnce outcome head body fields ∧ body = ascii "hi" ∧
        parseStatus head = some 200 ∧ outcome.result = 0 := by
  have fetched : fetchBytesResponse (fun (_ : Unit) (_ : List Unit) => some authorizedWire)
      (fun _ => []) 9 readableSurroundings () [] =
        some (.ok ⟨200, ascii "hi", ascii "identity", ascii "unknown", true⟩) := by decide +kernel
  obtain ⟨_, outcome, head, body, fields, _, _, _, captured, bytes, status, successful⟩ :=
    ((fetch_sound (fun (_ : Unit) (_ : List Unit) => some authorizedWire) (fun _ => [])
      readableSurroundings () []).2 9 _ fetched).1 _ rfl
  exact ⟨outcome, head, body, fields, captured, bytes.symm, status, successful.mp (by decide)⟩

end IcuTransport.Client
