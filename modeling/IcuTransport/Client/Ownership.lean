import IcuTransport.Client.Discipline

/-!
# What a run owns

`sendRequestOwned` embeds `send_request` with everything that it has to give back: the text of the
request on the heap, which a redirect replaces, the descriptors and streams of the two files, the
memory the body file is read back into, the addresses that a lookup gives, and the handles of the
connection. Its trace is what is acquired, used and released.

The body file is read back call by call, and each return of the rewriter, of the reader and of the
loop has the releases that the source has there. Without the trace the run is the one of
`Client.Run` (`value_sendRequestOwned`).
-/

set_option autoImplicit false

namespace IcuTransport.Client

open Ascii TextScan TurnLoop Tracing Wire Redirect Capture Connect Custody

/-! ## What is owned -/

/-- Something that has to be given back. Blocks of the heap are named by when they are allocated:
the text of a request by the redirects before it, and the contents of the body file by the reads
before it. -/
inductive Owned where
  | connection (handle : Handle)
  | request (redirects : ℕ)
  | contents (reads : ℕ)
  | descriptor (file : CaptureFile)
  | stream (file : CaptureFile)
  /-- The stream through which the body file is read back. -/
  | reader
  deriving DecidableEq, Repr

/-- Sockets, contexts and TLS handles are of one kind each, everything else is of its own. -/
def Owned.kind : Owned → HandleKind ⊕ Owned
  | .connection handle => .inl handle.kind
  | owned => .inr owned

/-- What an event of a connection is among all that is owned. Bytes are sent from some blocks, and
what is written is written to some streams. -/
def amongOwned (texts streams : List Owned) : Event → Action Owned
  | .opening _ _ _ => .touch []
  | .acquired handle => .acquire (.connection handle)
  | .released handle => .release (.connection handle)
  | .used handles => .touch (handles.map .connection ++ [])
  | .sent way _ => .touch (way.map .connection ++ texts)
  | .received way _ => .touch (way.map .connection ++ [])
  | .created _ => .touch []
  | .wrote _ => .touch streams

/-- The outcomes of the calls by which the body file is read back. A read may fail after so many
bytes. -/
structure ReadBack where
  opens : Bool
  reallocates : ℕ → Bool
  failsAfter : Option ℕ

/-- What a run depends on, with the calls by which the body file is read back. -/
structure OwningWorld where
  native : NativeWorld
  readBack : ReadBack

/-- The world in which the body file can be read back, or cannot. -/
def OwningWorld.reading (world : OwningWorld) (readable : Bool) : NativeWorld :=
  { world.native with bodyReadable := readable }

/-! ## Reading the body file back -/

/-- Free the memory of so many reads. There is none before the first one. -/
def freeContents : ℕ → Traced (Action Owned) Unit
  | 0 => pure ()
  | reads + 1 => Traced.emit (.release (.contents reads))

/-- The memory of so many reads. -/
def contentsOf : ℕ → List Owned
  | 0 => []
  | reads + 1 => [.contents reads]

/-- Free the memory and close the stream. -/
def abandonReader (reads : ℕ) : Traced (Action Owned) (Option (ℕ × Bytes)) := do
  freeContents reads
  Traced.emit (.release .reader)
  pure none

/-- The loop of `valid_utf8_file`, from what is left to read: how often the memory was allocated,
and what it holds. Memory is allocated anew for each read, in the place of the memory before. -/
def readBackLoop (calls : ReadBack) (reads : ℕ) (used unread : Bytes) :
    Traced (Action Owned) (Option (ℕ × Bytes)) := do
  Traced.emit (.touch [.reader])
  let buffer := unread.take readCapacity
  if buffer.length = 0 then
    if calls.failsAfter.isSome then abandonReader reads else pure (some (reads, used))
  else if calls.reallocates reads = false then abandonReader reads
  else do
    freeContents reads
    Traced.emit (.acquire (.contents reads))
    Traced.emit (.touch [.contents reads])
    if buffer.length < readCapacity then
      if calls.failsAfter.isSome then abandonReader (reads + 1)
      else pure (some (reads + 1, used ++ buffer))
    else readBackLoop calls (reads + 1) (used ++ buffer) (unread.drop readCapacity)
termination_by unread.length
decreasing_by
  have filled : (unread.take readCapacity).length ≠ 0 := by assumption
  rw [List.length_take] at filled
  rw [List.length_drop]
  omega

/-- What can be read of a file before a read fails. -/
def ReadBack.reached (calls : ReadBack) (contents : Bytes) : Bytes :=
  contents.take (calls.failsAfter.getD contents.length)

/-- `valid_utf8_file`: the verdict on the contents of a file. -/
def validUtf8FileOwned (calls : ReadBack) (contents : Bytes) :
    Traced (Action Owned) (Option Bool) :=
  if calls.opens = false then pure none
  else do
    Traced.emit (.acquire .reader)
    match ← readBackLoop calls 0 [] (calls.reached contents) with
    | none => pure none
    | some (reads, all) => do
        Traced.emit (.release .reader)
        Traced.emit (.touch (contentsOf reads))
        freeContents reads
        pure (some (validUtf8Bytes all))

/-- The contents of a file can be read back. -/
def ReadBack.readable (calls : ReadBack) (contents : Bytes) : Bool :=
  (validUtf8FileOwned calls contents).value.isSome

/-! ## The files -/

/-- `private_output`: a stream takes over the descriptor it is opened on. -/
def privateOutputOwned (file : CaptureFile) (outcome : PrivateFile) :
    Traced (Action Owned) Bool :=
  match outcome with
  | .refused => pure false
  | .unbuffered => do
      Traced.emit (.acquire (.descriptor file))
      Traced.emit (.release (.descriptor file))
      pure false
  | .opened => do
      Traced.emit (.acquire (.descriptor file))
      Traced.emit (.release (.descriptor file))
      Traced.emit (.acquire (.stream file))
      pure true

/-- `write_response_metadata`. -/
def writeResponseMetadataOwned (world : OwningWorld) (path : Option Bytes) (head : ResponseHead)
    (receivedLength : ℕ) (bodyFile : Option Bytes) : Traced (Action Owned) (Bool × Option Bytes) :=
  match path with
  | none => pure (true, none)
  | some _ => do
      let opened ← privateOutputOwned .metadata world.native.metadataFile
      if opened = false then pure (false, none)
      else do
        let valid ←
          match bodyFile with
          | none => pure none
          | some contents => validUtf8FileOwned world.readBack contents
        Traced.emit (.touch [.stream .metadata])
        Traced.emit (.release (.stream .metadata))
        pure (world.native.metadataPrints && world.native.metadataCloses,
          some (metadataText head receivedLength (valid = some true)))

/-! ## The request -/

/-- Free the memory of a request, and give nothing. -/
def discardRequest {α : Type} (redirects : ℕ) : Traced (Action Owned) (Option α) := do
  Traced.emit (.release (.request redirects))
  pure none

/-- Put a piece at the end of a request that is written, or free its memory. -/
def appendOwned (redirects capacity : ℕ) (output piece : Bytes) :
    Traced (Action Owned) (Option Bytes) :=
  match appendWithin capacity output piece with
  | none => discardRequest redirects
  | some longer => do
      Traced.emit (.touch [.request redirects])
      pure (some longer)

/-- The loop of `rewrite_get_request_with_policy`. It reads the request after so many redirects
and writes the next one. -/
def rewriteLoopOwned (redirects capacity : ℕ) (authority : Bytes) (preserveSensitive : Bool)
    (names : Option Bytes) :
    ℕ → Bytes → Bytes → Bool → Traced (Action Owned) (Option (Bytes × Bool))
  | 0, _, output, replacedHost => pure (some (output, replacedHost))
  | budget + 1, cursor, output, replacedHost => do
      Traced.emit (.touch [.request redirects])
      if cursor = [] then pure (some (output, replacedHost))
      else
        match splitInfix crlf cursor with
        | none => discardRequest (redirects + 1)
        | some (line, rest) =>
            if line = [] then pure (some (output, replacedHost))
            else if headerLineNamed line (ascii "Host") then
              (appendOwned (redirects + 1) capacity output (hostLine authority ++ crlf)).andThen
                fun longer =>
                  rewriteLoopOwned redirects capacity authority preserveSensitive names budget rest
                    longer true
            else if preserveSensitive = false ∧ carriesCredentials names line then
              rewriteLoopOwned redirects capacity authority preserveSensitive names budget rest
                output replacedHost
            else
              (appendOwned (redirects + 1) capacity output (line ++ crlf)).andThen fun longer =>
                rewriteLoopOwned redirects capacity authority preserveSensitive names budget rest
                  longer replacedHost

/-- `rewrite_get_request_with_policy`, after so many redirects. -/
def rewriteGetRequestOwned (allocates : Bool) (redirects : ℕ) (request : Bytes) (next : Endpoint)
    (preserveSensitive : Bool) (names : Option Bytes) : Traced (Action Owned) (Option Bytes) := do
  Traced.emit (.touch [.request redirects])
  match splitInfix crlf request with
  | none => pure none
  | some (_, headers) =>
      if allocates = false then pure none
      else do
        Traced.emit (.acquire (.request (redirects + 1)))
        let capacity := rewriteCapacity request next
        match endpointAuthority next authorityCapacity with
        | none => discardRequest (redirects + 1)
        | some authority =>
            (appendOwned (redirects + 1) capacity []
                (redirectedRequestLine next.target.bytes ++ crlf)).andThen fun output =>
              (rewriteLoopOwned redirects capacity authority preserveSensitive names headers.length
                  headers output false).andThen fun (output, replacedHost) =>
                (if replacedHost then pure (some output)
                  else appendOwned (redirects + 1) capacity output
                    (hostLine authority ++ crlf)).andThen fun output =>
                  appendOwned (redirects + 1) capacity output crlf

/-- The request of the next exchange. -/
def redirectedGetRequestOwned (world : OwningWorld) (call : Call) (state : LoopState)
    (next : Endpoint) : Traced (Action Owned) (Option Bytes) :=
  if sameOrigin state.current next then
    rewriteGetRequestOwned (world.native.allocates state.redirects) state.redirects state.request
      next true (some [])
  else
    rewriteGetRequestOwned (world.native.allocates state.redirects) state.redirects state.request
      next false (some (call.credentialHeaderNames.getD []))

/-! ## Delivering the last response -/

/-- Close the connection and free the request, and go on with a value. -/
def releasing {α : Type} (record : ConnectionRecord) (redirects : ℕ) (value : α) :
    Traced (Action Owned) α := do
  let _ ← (closeConnection record).mapEvents (amongOwned [] [])
  Traced.emit (.release (.request redirects))
  pure value

/-- Deliver a response to the standard output, which the program does not own. -/
def deliverToStdoutOwned (world : OwningWorld) (call : Call) (redirects : ℕ) (response : Response)
    (record : ConnectionRecord) : Traced (Action Owned) (ℕ × Delivery) := do
  let copy ← (copyRemainingBodyTraced record.way false world.native.stdout response.connection 13
    response.bodyPrefix).mapEvents (amongOwned [] [])
  let metadata ← writeResponseMetadataOwned world call.metadataOutputPath response.head
    copy.received none
  releasing record redirects
    (deliveryResult false response.head copy.copied metadata.1 copy.failureCode copy.received,
      ⟨copy.written, none, metadata.2⟩)

/-- Deliver a response to a capture. -/
def deliverToFilesOwned (world : OwningWorld) (call : Call) (redirects : ℕ) (response : Response)
    (record : ConnectionRecord) : Traced (Action Owned) (ℕ × Delivery) :=
  if response.head.invalidFraming then releasing record redirects (13, .nothing)
  else if ∃ length ∈ response.head.contentLength, length > maxCaptureBytes then
    releasing record redirects (12, .nothing)
  else do
    let opened ← privateOutputOwned .body world.native.bodyFile
    if opened = false then releasing record redirects (7, .nothing)
    else do
      let copy ← (copyRemainingBodyTraced record.way true world.native.body response.connection 13
        response.bodyPrefix).mapEvents (amongOwned [] [.stream .body])
      Traced.emit (.release (.stream .body))
      let metadata ← writeResponseMetadataOwned world call.metadataOutputPath response.head
        copy.received (some copy.written)
      releasing record redirects
        (deliveryResult true response.head (copy.copied && world.native.bodyCloses) metadata.1
          copy.failureCode copy.received, ⟨[], some copy.written, metadata.2⟩)

/-- Deliver a response that is not followed. -/
def deliverOwned (world : OwningWorld) (call : Call) (redirects : ℕ) (response : Response)
    (record : ConnectionRecord) : Traced (Action Owned) (ℕ × Delivery) :=
  match call.bodyOutputPath with
  | none => deliverToStdoutOwned world call redirects response record
  | some _ => deliverToFilesOwned world call redirects response record

/-! ## The loop -/

/-- One turn of the loop. The text of the request is the one after so many redirects. -/
def turnOwned (world : OwningWorld) (call : Call) (state : LoopState) :
    Traced (Action Owned) (Turn LoopState (ℕ × Delivery)) := do
  match ← (oneRequestTraced world.native state.redirects (state.exchange call)).mapEvents
      (amongOwned [.request state.redirects] []) with
  | .error code => do
      Traced.emit (.release (.request state.redirects))
      pure (.finished
        (exchangeFailure call.bodyOutputPath.isSome state.current.useTls code, .nothing))
  | .ok (response, record) => do
      Traced.emit (.touch [.request state.redirects])
      if canFollow state.request response.head = false then do
        let delivered ← deliverOwned world call state.redirects response record
        pure (.finished delivered)
      else if state.redirects ≥ maxRedirects then
        releasing record state.redirects (.finished (8, .nothing))
      else
        match resolveLocation state.current state.request response.head.location.text with
        | none => releasing record state.redirects (.finished (8, .nothing))
        | some next => do
            match ← redirectedGetRequestOwned world call state next with
            | none => releasing record state.redirects (.finished (8, .nothing))
            | some request =>
                releasing record state.redirects (.next ⟨state.redirects + 1, next, request⟩)

/-- A run of the program with a budget of turns. The request is copied to the heap before the
first one. -/
def sendRequestOwned (fuel : ℕ) (world : OwningWorld) (call : Call) :
    Option (Traced (Action Owned) Outcome) :=
  match start world.native.toWorld call with
  | .error code => some (pure ⟨[], code, .nothing⟩)
  | .ok state =>
      (runTraced (turnOwned world call) fuel state).map fun ran =>
        ⟨⟨ran.value.1.map (LoopState.exchange call), ran.value.2.1, ran.value.2.2⟩,
          .acquire (.request 0) :: ran.events⟩

/-! ## Without what is owned -/

/-- What the reader gives is what is left of the file, and no read has failed. -/
theorem readBackLoop_eq_some {calls : ReadBack} {reads : ℕ} {used unread : Bytes}
    {result : ℕ × Bytes} (read : (readBackLoop calls reads used unread).value = some result) :
    calls.failsAfter = none ∧ result.2 = used ++ unread := by
  fun_induction readBackLoop calls reads used unread with
  | case1 reads used unread ih =>
      rw [Traced.value_bind] at read
      dsimp only at read ih
      split at read
      · rename_i ended
        split at read
        · cases read
        · rename_i sound
          obtain rfl := Option.some.inj read
          rw [List.length_take] at ended
          have nothing : unread = [] := by
            apply List.eq_nil_of_length_eq_zero
            simp only [readCapacity] at ended
            omega
          rw [nothing, List.append_nil]
          exact ⟨by simpa using sound, rfl⟩
      · rename_i more
        split at read
        · cases read
        · simp only [Traced.value_bind] at read
          split at read
          · rename_i short
            split at read
            · cases read
            · rename_i sound
              obtain rfl := Option.some.inj read
              rw [List.length_take] at short
              rw [List.take_of_length_le (by omega)]
              exact ⟨by simpa using sound, rfl⟩
          · obtain ⟨sound, whole⟩ := ih more read
            rw [List.append_assoc, List.take_append_drop] at whole
            exact ⟨sound, whole⟩

/-- **Reading the file back gives its contents or nothing.** -/
theorem value_validUtf8FileOwned (calls : ReadBack) (contents : Bytes) :
    (validUtf8FileOwned calls contents).value =
      validUtf8File (if calls.readable contents then some contents else none) := by
  have verdict : ∀ valid, (validUtf8FileOwned calls contents).value = some valid →
      valid = validUtf8Bytes contents := by
    intro valid read
    unfold validUtf8FileOwned at read
    split at read
    · cases read
    · simp only [Traced.value_bind] at read
      cases found : (readBackLoop calls 0 [] (calls.reached contents)).value with
      | none =>
          rw [found] at read
          cases read
      | some result =>
          obtain ⟨sound, whole⟩ := readBackLoop_eq_some found
          rw [found] at read
          obtain rfl := Option.some.inj read
          rw [List.nil_append, ReadBack.reached, sound, Option.getD_none, List.take_length] at whole
          rw [whole]
  unfold ReadBack.readable
  cases outcome : (validUtf8FileOwned calls contents).value with
  | none => rfl
  | some valid =>
      rw [verdict valid outcome]
      rfl

@[simp] theorem value_privateOutputOwned (file : CaptureFile) (outcome : PrivateFile) :
    (privateOutputOwned file outcome).value = outcome.opens := by
  cases outcome with
  | refused => rfl
  | unbuffered => rfl
  | opened => rfl

/-- The contents that can be read back. -/
def ReadBack.contents (calls : ReadBack) : Option Bytes → Option Bytes
  | none => none
  | some contents => if calls.readable contents then some contents else none

theorem value_writeResponseMetadataOwned (world : OwningWorld) (readable : Bool)
    (path : Option Bytes) (head : ResponseHead) (receivedLength : ℕ) (bodyFile : Option Bytes) :
    (writeResponseMetadataOwned world path head receivedLength bodyFile).value =
      writeResponseMetadata path (world.reading readable).toWorld.files.metadata head receivedLength
        (world.readBack.contents bodyFile) := by
  cases path with
  | none => rfl
  | some path =>
      have opens : (world.reading readable).toWorld.files.metadata.opens =
        world.native.metadataFile.opens := rfl
      unfold writeResponseMetadataOwned writeResponseMetadata
      simp only [Traced.value_bind, value_privateOutputOwned, opens]
      cases world.native.metadataFile.opens with
      | false => rfl
      | true =>
          simp only [Bool.true_eq_false, if_false]
          cases bodyFile with
          | none => rfl
          | some contents =>
              rw [Traced.value_bind, value_validUtf8FileOwned]
              rfl

@[simp] theorem value_releasing {α : Type} (record : ConnectionRecord) (redirects : ℕ) (value : α) :
    (releasing record redirects value).value = value := rfl

theorem value_deliverToStdoutOwned (world : OwningWorld) (readable : Bool) (call : Call)
    (redirects : ℕ) (response : Response) (record : ConnectionRecord) :
    (deliverToStdoutOwned world call redirects response record).value =
      deliverToStdout (world.reading readable).toWorld call response := by
  simp only [deliverToStdoutOwned, Traced.value_bind, value_releasing, Traced.value_mapEvents,
    value_copyRemainingBodyTraced, value_writeResponseMetadataOwned world readable]
  rfl

/-- Whether the body file of a capture can be read back. -/
def OwningWorld.readsBack (world : OwningWorld) (response : Response) : Bool :=
  world.readBack.readable
    (copyRemainingBody true world.native.body response.connection 13 response.bodyPrefix).written

theorem value_deliverToFilesOwned (world : OwningWorld) (call : Call) (redirects : ℕ)
    (response : Response) (record : ConnectionRecord) :
    (deliverToFilesOwned world call redirects response record).value =
      deliverToFiles (world.reading (world.readsBack response)).toWorld call response := by
  unfold deliverToFilesOwned deliverToFiles
  split
  · rfl
  · split
    · rfl
    · rw [Traced.value_bind, value_privateOutputOwned]
      show _ = if world.native.bodyFile.opens = false then _ else _
      split
      · rfl
      · simp only [Traced.value_bind, value_releasing, Traced.value_mapEvents,
          value_copyRemainingBodyTraced,
          value_writeResponseMetadataOwned world (world.readsBack response)]
        rfl

/-- **A delivery gives back what it owns and delivers the same**, in the world in which the body
file can be read back as it turns out. -/
theorem value_deliverOwned (world : OwningWorld) (call : Call) (redirects : ℕ) (response : Response)
    (record : ConnectionRecord) :
    (deliverOwned world call redirects response record).value =
      deliver (world.reading (world.readsBack response)).toWorld call response := by
  unfold deliverOwned deliver
  cases call.bodyOutputPath with
  | none => exact value_deliverToStdoutOwned world _ call redirects response record
  | some path => exact value_deliverToFilesOwned world call redirects response record

theorem value_appendOwned (redirects capacity : ℕ) (output piece : Bytes) :
    (appendOwned redirects capacity output piece).value = appendWithin capacity output piece := by
  unfold appendOwned
  cases appendWithin capacity output piece with
  | none => rfl
  | some longer => rfl

theorem value_rewriteLoopOwned (redirects capacity : ℕ) (authority : Bytes) (preserve : Bool)
    (names : Option Bytes) (budget : ℕ) (cursor output : Bytes) (replaced : Bool) :
    (rewriteLoopOwned redirects capacity authority preserve names budget cursor output
        replaced).value =
      rewriteLoop capacity authority preserve names budget cursor output replaced := by
  induction budget generalizing cursor output replaced with
  | zero => rfl
  | succ budget ih =>
      rw [rewriteLoopOwned, rewriteLoop, Traced.value_bind]
      split
      · rfl
      · cases splitInfix crlf cursor with
        | none => rfl
        | some cut =>
            obtain ⟨line, rest⟩ := cut
            dsimp only
            split
            · rfl
            · split
              · rw [Traced.value_andThen, value_appendOwned]
                exact Option.bind_congr fun longer _ => ih rest longer true
              · split
                · exact ih rest output replaced
                · rw [Traced.value_andThen, value_appendOwned]
                  exact Option.bind_congr fun longer _ => ih rest longer replaced

theorem value_rewriteGetRequestOwned (allocates : Bool) (redirects : ℕ) (request : Bytes)
    (next : Endpoint) (preserve : Bool) (names : Option Bytes) :
    (rewriteGetRequestOwned allocates redirects request next preserve names).value =
      if allocates then rewriteGetRequestWithPolicy request next preserve names else none := by
  unfold rewriteGetRequestOwned rewriteGetRequestWithPolicy
  rw [Traced.value_bind]
  cases splitInfix crlf request with
  | none => exact (ite_self none).symm
  | some cut =>
      obtain ⟨first, headers⟩ := cut
      cases allocates with
      | false => rfl
      | true =>
          simp only [Bool.true_eq_false, if_false, if_true, Traced.value_bind]
          cases endpointAuthority next authorityCapacity with
          | none => rfl
          | some authority =>
              simp only [Traced.value_andThen, value_appendOwned, value_rewriteLoopOwned]
              refine Option.bind_congr fun output _ => Option.bind_congr fun rewritten _ => ?_
              obtain ⟨output, replacedHost⟩ := rewritten
              cases replacedHost with
              | true => rfl
              | false => simp only [Bool.false_eq_true, if_false, value_appendOwned]

theorem value_redirectedGetRequestOwned (world : OwningWorld) (call : Call) (state : LoopState)
    (next : Endpoint) :
    (redirectedGetRequestOwned world call state next).value =
      if world.native.allocates state.redirects then
        redirectedGetRequest call state.current next state.request
      else none := by
  unfold redirectedGetRequestOwned redirectedGetRequest
  split
  · exact value_rewriteGetRequestOwned _ _ _ _ _ _
  · exact value_rewriteGetRequestOwned _ _ _ _ _ _

/-- What a turn goes on with does not depend on the body file. -/
theorem turn_reading (world : OwningWorld) (readable other : Bool) (call : Call)
    (state later : LoopState) :
    turn (world.reading readable).toWorld call state = .next later ↔
      turn (world.reading other).toWorld call state = .next later := by
  rw [turn_eq_next_iff, turn_eq_next_iff]
  exact Iff.rfl

/-- **A turn is a turn of the plain run**, in the world in which the body file can be read back as
it turns out. -/
theorem value_turnOwned (world : OwningWorld) (call : Call) (state : LoopState) :
    ∃ readable, (turnOwned world call state).value =
      turn (world.reading readable).toWorld call state := by
  have exchanged := value_oneRequestTraced world.native state.redirects (state.exchange call)
  have server : ∀ readable, (world.reading readable).toWorld.server = world.native.answer :=
    fun _ => rfl
  unfold turnOwned turn
  rw [Traced.value_bind, Traced.value_mapEvents]
  simp only [server, ← exchanged]
  cases (oneRequestTraced world.native state.redirects (state.exchange call)).value with
  | error code => exact ⟨true, rfl⟩
  | ok received =>
      obtain ⟨response, record⟩ := received
      dsimp only [Except.map]
      rw [Traced.value_bind]
      refine ⟨world.readsBack response, ?_⟩
      split
      · rw [Traced.value_bind, value_deliverOwned]
        rfl
      · split
        · rfl
        · unfold follow
          cases resolveLocation state.current state.request response.head.location.text with
          | none => rfl
          | some next =>
              rw [Traced.value_bind, value_redirectedGetRequestOwned, Option.bind_some]
              have memory : (world.reading (world.readsBack response)).toWorld.allocates =
                world.native.allocates := rfl
              rw [memory]
              cases world.native.allocates state.redirects with
              | false => rfl
              | true =>
                  cases redirectedGetRequest call state.current next state.request with
                  | none => rfl
                  | some request => rfl

/-- **The run that gives everything back is the plain run**, in the world in which the body file can
be read back as it turns out. -/
theorem value_sendRequestOwned {fuel : ℕ} {world : OwningWorld} {call : Call}
    {ran : Traced (Action Owned) Outcome}
    (returned : sendRequestOwned fuel world call = some ran) :
    ∃ readable, sendRequest fuel (world.reading readable).toWorld call = some ran.value := by
  have began : ∀ readable, start (world.reading readable).toWorld call =
    start world.native.toWorld call := fun _ => rfl
  unfold sendRequestOwned at returned
  unfold sendRequest
  cases started : start world.native.toWorld call with
  | error code =>
      simp only [started, Option.some.injEq] at returned
      subst returned
      exact ⟨true, by rw [began, started]; rfl⟩
  | ok state =>
      simp only [started, runTraced_eq, Option.map_map, Option.map_eq_some_iff] at returned
      obtain ⟨⟨visits, result⟩, looped, rfl⟩ := returned
      obtain ⟨last, atEnd, finished⟩ := turn_of_last looped
      obtain ⟨readable, turned⟩ := value_turnOwned world call last
      refine ⟨readable, ?_⟩
      have alike : ∀ state later, (turnOwned world call state).value = .next later ↔
          turn (world.reading readable).toWorld call state = .next later := by
        intro state later
        obtain ⟨other, same⟩ := value_turnOwned world call state
        rw [same]
        exact turn_reading world other readable call state later
      obtain ⟨result', plain⟩ := run_agree alike looped
      obtain ⟨other, sameEnd, ended⟩ := turn_of_last plain
      obtain rfl := Option.some.inj (atEnd.symm.trans sameEnd)
      obtain rfl := Turn.finished.inj (finished.symm.trans (turned.trans ended))
      rw [began, started]
      simp only [plain, Option.map_some]
      rfl

end IcuTransport.Client
