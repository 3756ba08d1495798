import IcuTransport.Capture.Metadata
import IcuTransport.Library.Loop
import IcuTransport.Redirect.Rewrite
import IcuTransport.Wire.Reading

/-!
# A run of the client

`sendRequest` embeds the whole of `send_request`: the checks of the request, and the loop that
exchanges a request for a response, follows redirects of a GET, and delivers the last response to
the standard output or to a capture.

What the program cannot decide is a `World`: what each server does with an exchange, whether memory
is there, and how the output behaves. A server is a function of the number of redirects followed so
far and of everything that is sent, so it may answer every exchange differently. Its answer is a
finite sequence of reads with an ending.

The loop of the source has no bound of its own. Here it takes a budget of turns.
-/

set_option autoImplicit false

namespace IcuTransport.Client

open Ascii TextScan TurnLoop Wire Redirect Capture

/-! ## The outside -/

/-- What is sent to an endpoint. -/
structure Exchange where
  endpoint : Endpoint
  request : Bytes
  body : Bytes
  deriving DecidableEq, Repr

/-- Why `open_connection` fails. -/
inductive OpenFailure where
  | connection
  | tls
  | timeout
  | proxy
  deriving DecidableEq, Repr

/-- The failure code `open_connection` leaves. -/
def OpenFailure.code : OpenFailure → ℕ
  | .connection => 4
  | .tls => 5
  | .timeout => 11
  | .proxy => 14

/-- What becomes of an exchange: no connection is opened, the request cannot be written, or the
connection delivers reads. -/
inductive Answer where
  | refused (failure : OpenFailure)
  | unsent
  | answered (connection : Connection)
  deriving DecidableEq, Repr

/-- How the two files of a capture behave. What was written to the body file can be read back, or
nothing can. -/
structure CaptureFiles where
  bodyOpens : Bool
  body : OutputStream
  bodyCloses : Bool
  bodyReadable : Bool
  metadata : MetadataFile

/-- What a run of the program depends on. -/
structure World where
  server : ℕ → Exchange → Answer
  duplicates : Bool
  allocates : ℕ → Bool
  stdout : OutputStream
  files : CaptureFiles

/-- The arguments of `send_request`. Texts are C strings. -/
structure Call where
  host : Bytes
  port : Int32
  requestHeaders : Bytes
  requestBody : Option Bytes
  requestBodyLength : Int32
  useTls : Bool
  credentialHeaderNames : Option Bytes
  bodyOutputPath : Option Bytes
  metadataOutputPath : Option Bytes
  deriving DecidableEq, Repr

/-- What a run leaves behind: the bytes written to the standard output and to the body file, and
the text handed to the metadata file. A file that was not opened is `none`. -/
structure Delivery where
  stdout : Bytes
  bodyFile : Option Bytes
  metadataFile : Option Bytes
  deriving DecidableEq, Repr

/-- Nothing is left behind. -/
def Delivery.nothing : Delivery := ⟨[], none, none⟩

/-! ## One exchange -/

/-- The request is a GET. -/
def isGet (request : Bytes) : Bool := (ascii "GET ").isPrefixOf request

/-- The methods the program sends. -/
def validWireRequest (request : Bytes) : Bool := isGet request || (ascii "POST ").isPrefixOf request

/-- A status that asks for a redirect. -/
def redirectStatus (status : ℕ) : Bool :=
  status = 301 || status = 302 || status = 303 || status = 307 || status = 308

/-- A head, the part of the body read along with it, and the connection after it. -/
structure Response where
  head : ResponseHead
  bodyPrefix : Bytes
  connection : Connection
  deriving DecidableEq, Repr

/-- The head of the response to an exchange, or the failure code. -/
def oneRequest : Answer → Except ℕ Response
  | .refused failure => .error failure.code
  | .unsent => .error 6
  | .answered connection =>
      match readResponseHead connection with
      | .refused reason => .error reason.code
      | .accepted head bodyPrefix rest => .ok ⟨head, bodyPrefix, ⟨rest, connection.ending⟩⟩

/-- The result of a run whose exchange failed. Runs that write to the standard output know fewer
codes. -/
def exchangeFailure (captures useTls : Bool) (code : ℕ) : ℕ :=
  if captures = false ∧ (code = 4 ∨ code = 14) ∧ useTls then 5
  else if captures = false ∧ code ≥ 11 then 7
  else code

/-! ## Delivering the last response -/

/-- The result of a run whose response was copied, or not, to its output. -/
def deliveryResult (captures : Bool) (head : ResponseHead) (copied metadataWritten : Bool)
    (copyFailure received : ℕ) : ℕ :=
  if copied = false ∨ metadataWritten = false then
    if captures ∧ copied = false ∧ copyFailure ≥ 11 then copyFailure else 7
  else if captures ∧ ∃ length ∈ head.contentLength, length ≠ received then 9
  else if captures ∧ (head.status < 200 ∨ head.status ≥ 300) then 10
  else 0

/-- Deliver a response to the standard output, with metadata if these are asked for. -/
def deliverToStdout (world : World) (call : Call) (response : Response) : ℕ × Delivery :=
  let copy := copyRemainingBody false world.stdout response.connection 13 response.bodyPrefix
  let metadata := writeResponseMetadata call.metadataOutputPath world.files.metadata response.head
    copy.received none
  (deliveryResult false response.head copy.copied metadata.1 copy.failureCode copy.received,
    ⟨copy.written, none, metadata.2⟩)

/-- Deliver a response to a capture. -/
def deliverToFiles (world : World) (call : Call) (response : Response) : ℕ × Delivery :=
  if response.head.invalidFraming then (13, .nothing)
  else if ∃ length ∈ response.head.contentLength, length > maxCaptureBytes then (12, .nothing)
  else if world.files.bodyOpens = false then (7, .nothing)
  else
    let copy := copyRemainingBody true world.files.body response.connection 13 response.bodyPrefix
    let copied := copy.copied && world.files.bodyCloses
    let metadata := writeResponseMetadata call.metadataOutputPath world.files.metadata response.head
      copy.received (if world.files.bodyReadable then some copy.written else none)
    (deliveryResult true response.head copied metadata.1 copy.failureCode copy.received,
      ⟨[], some copy.written, metadata.2⟩)

/-- Deliver a response that is not followed. -/
def deliver (world : World) (call : Call) (response : Response) : ℕ × Delivery :=
  match call.bodyOutputPath with
  | none => deliverToStdout world call response
  | some _ => deliverToFiles world call response

/-! ## The loop -/

/-- What the loop carries from turn to turn. -/
structure LoopState where
  redirects : ℕ
  current : Endpoint
  request : Bytes
  deriving DecidableEq, Repr

/-- The body bytes that are sent with every request of the call. -/
def Call.body (call : Call) : Bytes :=
  (call.requestBody.getD []).take call.requestBodyLength.toInt.toNat

/-- The exchange of a turn. -/
def LoopState.exchange (call : Call) (state : LoopState) : Exchange :=
  ⟨state.current, state.request, call.body⟩

/-- A response to a GET that is to be followed. -/
def canFollow (request : Bytes) (head : ResponseHead) : Bool :=
  isGet request && redirectStatus head.status && head.hasLocation

/-- The request of the next exchange. -/
def redirectedGetRequest (call : Call) (current next : Endpoint) (request : Bytes) : Option Bytes :=
  if sameOrigin current next then rewriteGetRequest request next
  else rewriteGetRequestWithPolicy request next false (some (call.credentialHeaderNames.getD []))

/-- Follow the location of a head. -/
def follow (world : World) (call : Call) (state : LoopState) (head : ResponseHead) :
    Option LoopState :=
  (resolveLocation state.current state.request head.location.text).bind fun next =>
    if world.allocates state.redirects then
      (redirectedGetRequest call state.current next state.request).map fun request =>
        ⟨state.redirects + 1, next, request⟩
    else none

/-- One turn of the loop. -/
def turn (world : World) (call : Call) (state : LoopState) : Turn LoopState (ℕ × Delivery) :=
  match oneRequest (world.server state.redirects (state.exchange call)) with
  | .error code =>
      .finished (exchangeFailure call.bodyOutputPath.isSome state.current.useTls code, .nothing)
  | .ok response =>
      if canFollow state.request response.head = false then .finished (deliver world call response)
      else if state.redirects ≥ maxRedirects then .finished (8, .nothing)
      else
        match follow world call state response.head with
        | none => .finished (8, .nothing)
        | some later => .next later

/-! ## The whole run -/

/-- What a run did: its exchanges in order, its result and what it left behind. -/
structure Outcome where
  exchanges : List Exchange
  result : ℕ
  delivery : Delivery
  deriving DecidableEq, Repr

/-- The state before the first turn, or the result of a call that is not sent. -/
def start (world : World) (call : Call) : Except ℕ LoopState :=
  if call.requestBodyLength < 0 ∨
    (call.requestBodyLength ≠ 0 ∧ call.requestBody = none) then .error 2
  else if validWireRequest call.requestHeaders = false then .error 2
  else if isGet call.requestHeaders ∧ call.requestBodyLength ≠ 0 then .error 2
  else
    match CharArray.store maxHostBytes call.host with
    | none => .error 3
    | some host =>
        let target := requestTarget call.requestHeaders maxTargetBytes
        if isGet call.requestHeaders ∧ target = none then .error 3
        else if world.duplicates = false then .error 3
        else
          -- the target of a POST is never read
          .ok ⟨0, ⟨call.useTls, call.port, host, target.getD ⟨[], by decide⟩⟩, call.requestHeaders⟩

/-- A run of the program with a budget of turns. -/
def sendRequest (fuel : ℕ) (world : World) (call : Call) : Option Outcome :=
  match start world call with
  | .error code => some ⟨[], code, .nothing⟩
  | .ok state =>
      (run (turn world call) fuel state).map fun (visits, result, delivery) =>
        ⟨visits.map (LoopState.exchange call), result, delivery⟩

end IcuTransport.Client
