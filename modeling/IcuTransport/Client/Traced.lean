import IcuTransport.Client.Steps
import IcuTransport.Connect.Transfer

/-!
# A run of the client, call by call

`sendRequestTraced` embeds `send_request` once more, on top of the outcomes of single calls: how
each connection is opened, how each request is written, and which files are created. It leaves a
trace of everything that is done with handles and bytes, and it closes connections where the source
does.

A native world is one of the worlds of `Client.Run`, seen closely. Without the events the traced run
is the run in that world (`value_sendRequestTraced`), so what is known of runs holds of traced runs.
-/

set_option autoImplicit false

namespace IcuTransport.Client

open Ascii TextScan TurnLoop Tracing Wire Redirect Capture Connect

/-! ## The outside, call by call -/

/-- The outcomes of the calls of one exchange. -/
structure ExchangeCalls where
  opening : OpenCalls
  headWrites : List WriteCall
  bodyWrites : List WriteCall
  reads : Connection

/-- What becomes of a private file: it is not created, it is created but no stream is opened on it,
or it is created and open. -/
inductive PrivateFile where
  | refused
  | unbuffered
  | opened
  deriving DecidableEq, Repr

/-- A stream is open on the file. -/
def PrivateFile.opens : PrivateFile → Bool
  | .opened => true
  | _ => false

/-- The files that are created for a private file. -/
def PrivateFile.created (file : CaptureFile) : PrivateFile → List CaptureFile
  | .refused => []
  | _ => [file]

/-- What a run of the program depends on, call by call. -/
structure NativeWorld where
  environment : Environment
  calls : ℕ → Exchange → ExchangeCalls
  duplicates : Bool
  allocates : ℕ → Bool
  stdout : OutputStream
  bodyFile : PrivateFile
  body : OutputStream
  bodyCloses : Bool
  bodyReadable : Bool
  metadataFile : PrivateFile
  metadataPrints : Bool
  metadataCloses : Bool

/-- The failure that a code of `open_connection` stands for. -/
def openFailure : ℕ → OpenFailure
  | 4 => .connection
  | 5 => .tls
  | 11 => .timeout
  | _ => .proxy

namespace NativeWorld

/-- The connection of an exchange. -/
def opened (world : NativeWorld) (hop : ℕ) (exchange : Exchange) :
    Traced Event (Bool × ConnectionRecord) :=
  openConnection world.environment (world.calls hop exchange).opening exchange.endpoint.host.text
    exchange.endpoint.port exchange.endpoint.useTls

/-- The writing of the request of an exchange. -/
def written (world : NativeWorld) (hop : ℕ) (exchange : Exchange) (record : ConnectionRecord) :
    Traced Event Bool :=
  writeRequest record (world.calls hop exchange).headWrites (world.calls hop exchange).bodyWrites
    exchange.request exchange.body

/-- What becomes of an exchange. -/
def answer (world : NativeWorld) (hop : ℕ) (exchange : Exchange) : Answer :=
  match (world.opened hop exchange).value with
  | (false, record) => .refused (openFailure record.failureCode)
  | (true, record) =>
      if (world.written hop exchange record).value = false then .unsent
      else .answered (world.calls hop exchange).reads

/-- The world, less closely. -/
def toWorld (world : NativeWorld) : World where
  server := world.answer
  duplicates := world.duplicates
  allocates := world.allocates
  stdout := world.stdout
  files := ⟨world.bodyFile.opens, world.body, world.bodyCloses, world.bodyReadable,
    ⟨world.metadataFile.opens, world.metadataPrints, world.metadataCloses⟩⟩

end NativeWorld

/-! ## One exchange -/

/-- Close a connection, and go on with a value. -/
def closing {α : Type} (record : ConnectionRecord) (value : α) : Traced Event α := do
  let _ ← closeConnection record
  pure value

/-- The head of the response to an exchange with the connection it came by, or the failure code. -/
def oneRequestTraced (world : NativeWorld) (hop : ℕ) (exchange : Exchange) :
    Traced Event (Except ℕ (Response × ConnectionRecord)) := do
  let (opened, record) ← world.opened hop exchange
  if opened = false then pure (.error record.failureCode)
  else do
    let written ← world.written hop exchange record
    if written = false then closing record (.error 6)
    else do
      match ← readResponseHeadTraced record.way (world.calls hop exchange).reads with
      | .refused reason => closing record (.error reason.code)
      | .accepted head bodyPrefix rest =>
          pure (.ok (⟨head, bodyPrefix, ⟨rest, (world.calls hop exchange).reads.ending⟩⟩, record))

/-! ## Delivering the last response -/

/-- Create a private file; whether a stream is open on it. -/
def privateOutput (file : CaptureFile) (outcome : PrivateFile) : Traced Event Bool :=
  match outcome with
  | .refused => pure false
  | .unbuffered => do
      Traced.emit (.created file)
      pure false
  | .opened => do
      Traced.emit (.created file)
      pure true

/-- Write the metadata when a path is given for them. -/
def writeResponseMetadataTraced (world : NativeWorld) (path : Option Bytes) (head : ResponseHead)
    (receivedLength : ℕ) (bodyFile : Option Bytes) : Traced Event (Bool × Option Bytes) :=
  match path with
  | none => pure (true, none)
  | some _ => do
      let opened ← privateOutput .metadata world.metadataFile
      if opened then
        pure (world.metadataPrints && world.metadataCloses,
          some (metadataText head receivedLength (validUtf8File bodyFile = some true)))
      else pure (false, none)

/-- Deliver a response to the standard output, with metadata if these are asked for. -/
def deliverToStdoutTraced (world : NativeWorld) (call : Call) (response : Response)
    (record : ConnectionRecord) : Traced Event (ℕ × Delivery) := do
  let copy ← copyRemainingBodyTraced record.way false world.stdout response.connection 13
    response.bodyPrefix
  let metadata ← writeResponseMetadataTraced world call.metadataOutputPath response.head
    copy.received none
  closing record
    (deliveryResult false response.head copy.copied metadata.1 copy.failureCode copy.received,
      ⟨copy.written, none, metadata.2⟩)

/-- Deliver a response to a capture. -/
def deliverToFilesTraced (world : NativeWorld) (call : Call) (response : Response)
    (record : ConnectionRecord) : Traced Event (ℕ × Delivery) :=
  if response.head.invalidFraming then closing record (13, .nothing)
  else if ∃ length ∈ response.head.contentLength, length > maxCaptureBytes then
    closing record (12, .nothing)
  else do
    let opened ← privateOutput .body world.bodyFile
    if opened = false then closing record (7, .nothing)
    else do
      let copy ← copyRemainingBodyTraced record.way true world.body response.connection 13
        response.bodyPrefix
      let metadata ← writeResponseMetadataTraced world call.metadataOutputPath response.head
        copy.received (if world.bodyReadable then some copy.written else none)
      closing record
        (deliveryResult true response.head (copy.copied && world.bodyCloses) metadata.1
          copy.failureCode copy.received, ⟨[], some copy.written, metadata.2⟩)

/-- Deliver a response that is not followed. -/
def deliverTraced (world : NativeWorld) (call : Call) (response : Response)
    (record : ConnectionRecord) : Traced Event (ℕ × Delivery) :=
  match call.bodyOutputPath with
  | none => deliverToStdoutTraced world call response record
  | some _ => deliverToFilesTraced world call response record

/-! ## The loop -/

/-- One turn of the loop. A connection is closed before the next turn. -/
def turnTraced (world : NativeWorld) (call : Call) (state : LoopState) :
    Traced Event (Turn LoopState (ℕ × Delivery)) := do
  match ← oneRequestTraced world state.redirects (state.exchange call) with
  | .error code =>
      pure (.finished
        (exchangeFailure call.bodyOutputPath.isSome state.current.useTls code, .nothing))
  | .ok (response, record) =>
      if canFollow state.request response.head = false then do
        let delivered ← deliverTraced world call response record
        pure (.finished delivered)
      else if state.redirects ≥ maxRedirects then closing record (.finished (8, .nothing))
      else
        match follow world.toWorld call state response.head with
        | none => closing record (.finished (8, .nothing))
        | some later => closing record (.next later)

/-- A run of the program with a budget of turns. -/
def sendRequestTraced (fuel : ℕ) (world : NativeWorld) (call : Call) :
    Option (Traced Event Outcome) :=
  match start world.toWorld call with
  | .error code => some (pure ⟨[], code, .nothing⟩)
  | .ok state =>
      (runTraced (turnTraced world call) fuel state).map fun ran =>
        ⟨⟨ran.value.1.map (LoopState.exchange call), ran.value.2.1, ran.value.2.2⟩, ran.events⟩

/-! ## Without the events -/

@[simp] theorem value_closing {α : Type} (record : ConnectionRecord) (value : α) :
    (closing record value).value = value := rfl

theorem toWorld_server (world : NativeWorld) : world.toWorld.server = world.answer := rfl

theorem openFailure_code {code : ℕ} (known : code ∈ [4, 5, 11, 14]) :
    (openFailure code).code = code := by
  simp only [List.mem_cons, List.not_mem_nil, or_false] at known
  rcases known with rfl | rfl | rfl | rfl
  · rfl
  · rfl
  · rfl
  · rfl

theorem value_oneRequestTraced (world : NativeWorld) (hop : ℕ) (exchange : Exchange) :
    (oneRequestTraced world hop exchange).value.map Prod.fst =
      oneRequest (world.answer hop exchange) := by
  have failed : Failed (world.opened hop exchange).value := openConnection_unopened _ _ _ _ _
  unfold oneRequestTraced NativeWorld.answer
  rw [Traced.value_bind]
  generalize (world.opened hop exchange).value = connected at failed
  obtain ⟨opened, record⟩ := connected
  cases opened with
  | false =>
      have code := openFailure_code (failed rfl).2
      simp only [oneRequest, code]
      rfl
  | true =>
      dsimp only
      rw [if_neg (by decide), Traced.value_bind]
      split
      · rfl
      · rw [Traced.value_bind, value_readResponseHeadTraced]
        simp only [oneRequest]
        cases readResponseHead (world.calls hop exchange).reads with
        | refused reason => rfl
        | accepted head bodyPrefix rest => rfl

@[simp] theorem value_privateOutput (file : CaptureFile) (outcome : PrivateFile) :
    (privateOutput file outcome).value = outcome.opens := by
  cases outcome with
  | refused => rfl
  | unbuffered => rfl
  | opened => rfl

theorem value_writeResponseMetadataTraced (world : NativeWorld) (path : Option Bytes)
    (head : ResponseHead) (receivedLength : ℕ) (bodyFile : Option Bytes) :
    (writeResponseMetadataTraced world path head receivedLength bodyFile).value =
      writeResponseMetadata path world.toWorld.files.metadata head receivedLength bodyFile := by
  cases path with
  | none => rfl
  | some path =>
      unfold writeResponseMetadataTraced writeResponseMetadata
      dsimp only
      rw [Traced.value_bind, value_privateOutput]
      show _ = if world.metadataFile.opens then _ else _
      split
      · rfl
      · rfl

theorem value_deliverToStdoutTraced (world : NativeWorld) (call : Call) (response : Response)
    (record : ConnectionRecord) :
    (deliverToStdoutTraced world call response record).value =
      deliverToStdout world.toWorld call response := by
  simp only [deliverToStdoutTraced, Traced.value_bind, value_closing,
    value_copyRemainingBodyTraced, value_writeResponseMetadataTraced]
  rfl

theorem value_deliverToFilesTraced (world : NativeWorld) (call : Call) (response : Response)
    (record : ConnectionRecord) :
    (deliverToFilesTraced world call response record).value =
      deliverToFiles world.toWorld call response := by
  unfold deliverToFilesTraced deliverToFiles
  split
  · rfl
  · split
    · rfl
    · rw [Traced.value_bind, value_privateOutput]
      show _ = if world.bodyFile.opens = false then _ else _
      split
      · rfl
      · simp only [Traced.value_bind, value_closing, value_copyRemainingBodyTraced,
          value_writeResponseMetadataTraced]
        rfl

theorem value_deliverTraced (world : NativeWorld) (call : Call) (response : Response)
    (record : ConnectionRecord) :
    (deliverTraced world call response record).value = deliver world.toWorld call response := by
  unfold deliverTraced deliver
  cases call.bodyOutputPath with
  | none => exact value_deliverToStdoutTraced world call response record
  | some path => exact value_deliverToFilesTraced world call response record

theorem value_turnTraced (world : NativeWorld) (call : Call) (state : LoopState) :
    (turnTraced world call state).value = turn world.toWorld call state := by
  have exchanged := value_oneRequestTraced world state.redirects (state.exchange call)
  unfold turnTraced turn
  rw [Traced.value_bind, toWorld_server, ← exchanged]
  cases (oneRequestTraced world state.redirects (state.exchange call)).value with
  | error code => rfl
  | ok received =>
      obtain ⟨response, record⟩ := received
      dsimp only [Except.map]
      split
      · rw [Traced.value_bind, value_deliverTraced]
        rfl
      · split
        · rfl
        · cases follow world.toWorld call state response.head with
          | none => rfl
          | some later => rfl

theorem turnTraced_value (world : NativeWorld) (call : Call) :
    (fun visit => (turnTraced world call visit).value) = turn world.toWorld call := by
  funext visit
  exact value_turnTraced world call visit

/-- **The traced run is the run**, in the world seen less closely. -/
theorem value_sendRequestTraced (fuel : ℕ) (world : NativeWorld) (call : Call) :
    (sendRequestTraced fuel world call).map Traced.value = sendRequest fuel world.toWorld call := by
  unfold sendRequestTraced sendRequest
  cases start world.toWorld call with
  | error code => rfl
  | ok state =>
      simp only [runTraced_eq, turnTraced_value, Option.map_map]
      rfl

end IcuTransport.Client
